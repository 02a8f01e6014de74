import FinsStack.Daemon.ReadPath
import Mathlib.Logic.Function.Basic

/-!
# Which socket gets the bytes of a connection

`daemon/tcpHandling.c`.

TCP hands up the bytes of a connection with its two addresses, and the daemon looks for the
socket: first for one with these addresses, then for one that has the host's address and no
remote one.  The second search finds the *listening* socket of a connection that has not been
accepted yet.  Its bytes are stored there, where the listening socket's own `recvmsg` returns
them and the accepted socket never will (`unaccepted_bytes_misdelivered`).

If every connection is accepted before its first frame, and no two sockets are given one
connection, the first search finds the right socket (`matchConnAddr4Tcp_owner`).
-/

namespace FinsStack.Daemon

open Function Lib

def DAEMON_MAX_SOCKETS : Nat := 50
def DAEMON_ADDR_ANY : UInt32 := 0
def DAEMON_PORT_ANY : UInt16 := 0

/-! ### The sockets -/

structure ConnAddrs where
  hostIp : UInt32
  hostPort : UInt16
  remIp : UInt32
  remPort : UInt16
deriving DecidableEq, Repr

structure TcpSock where
  bound : Bool
  listening : Bool
  addrs : ConnAddrs
  read : DaemonSocket
  /-- The frames that were handed to the socket; nothing reads this. -/
  frames : List (ConnAddrs × List UInt8)

/-- `md->sockets`, where nothing stands for a `sock_id` of -1. -/
abbrev SockTable := Nat → Option TcpSock

def freshSock : TcpSock where
  bound := false
  listening := false
  addrs := ⟨0, 0, 0, 0⟩
  read := { connectedSocket with state := .unconnected }
  frames := []

def TcpSock.withState (s : TcpSock) (state : SockState) : TcpSock :=
  { s with read := { s.read with state := state } }

def matchHostAddr4Tcp (t : SockTable) (hostIp : UInt32) (hostPort : UInt16) : Option Nat :=
  (List.range DAEMON_MAX_SOCKETS).find? fun i =>
    (t i).any fun s =>
      s.bound && s.addrs.hostPort == hostPort &&
        (s.addrs.hostIp == DAEMON_ADDR_ANY || s.addrs.hostIp == hostIp)

def matchConnAddr4Tcp (t : SockTable) (a : ConnAddrs) : Option Nat :=
  (List.range DAEMON_MAX_SOCKETS).find? fun i =>
    (t i).any fun s =>
      s.bound && s.addrs.hostPort == a.hostPort && s.addrs.remPort == a.remPort &&
        (s.addrs.hostIp == DAEMON_ADDR_ANY || s.addrs.hostIp == a.hostIp) &&
        (s.addrs.remIp == DAEMON_ADDR_ANY || s.addrs.remIp == a.remIp)

/-! ### Steps -/

/-- What happens to the sockets.  The replies to calls other than `recvmsg` are left out. -/
inductive TcpSockEvent where
  | socket (i : Nat)
  | bind (i : Nat) (ip : UInt32) (port : UInt16) (reuseaddr : Bool)
  | listen (i : Nat)
  | connect (i : Nat) (remIp : UInt32) (remPort : UInt16) (autoIp : UInt32) (autoPort : UInt16)
  | connectReply (i : Nat) (retVal : Bool)
  | accept (i : Nat)
  | accepted (i j : Nat) (remIp : UInt32) (remPort : UInt16)
  | frame (wedge : DaemonCall → Bool) (a : ConnAddrs) (data : List UInt8)
  | recvmsg (i : Nat) (wedge : Bool) (hdr : WedgeHdr) (bufLen controllen flags : UInt32)
  | timeout (i : Nat) (call : DaemonCall)
  | release (i : Nat)

def SockTable.set (t : SockTable) (i : Nat) (s : TcpSock) : SockTable := update t i (some s)

def bindOutTcp (t : SockTable) (i : Nat) (s : TcpSock) (ip : UInt32) (port : UInt16)
    (reuseaddr : Bool) : SockTable :=
  if s.bound then t
  else if matchHostAddr4Tcp t ip port ≠ none ∧ reuseaddr = false then t
  else t.set i { s with bound := true, addrs := { s.addrs with hostIp := ip, hostPort := port } }

def listenOutTcp (s : TcpSock) : TcpSock := if s.bound then { s with listening := true } else s

def connectOutTcp (s : TcpSock) (remIp : UInt32) (remPort : UInt16) (autoIp : UInt32)
    (autoPort : UInt16) : TcpSock :=
  if s.read.state = .unconnected then
    let host := if s.bound then (s.addrs.hostIp, s.addrs.hostPort) else (autoIp, autoPort)
    { s.withState .connecting with
      bound := true, listening := false, addrs := ⟨host.1, host.2, remIp, remPort⟩ }
  else s

def connectInTcp (s : TcpSock) (retVal : Bool) : TcpSock :=
  if retVal then s.withState .connected
  else { s.withState .unconnected with addrs := { s.addrs with remIp := 0, remPort := 0 } }

def acceptedSock (s : TcpSock) (remIp : UInt32) (remPort : UInt16) : TcpSock where
  bound := s.bound
  listening := false
  addrs := ⟨s.addrs.hostIp, s.addrs.hostPort, remIp, remPort⟩
  read := connectedSocket
  frames := []

def TcpSock.frame (s : TcpSock) (wedge : DaemonCall → Bool) (a : ConnAddrs) (data : List UInt8) :
    TcpSock :=
  { s with read := daemonInFdfTcp wedge s.read data, frames := s.frames ++ [(a, data)] }

def fdfIndex (t : SockTable) (a : ConnAddrs) : Option Nat :=
  match matchConnAddr4Tcp t a with
  | some i => some i
  | none => matchConnAddr4Tcp t ⟨a.hostIp, a.hostPort, 0, 0⟩

def SockTable.on (t : SockTable) (i : Nat) (f : TcpSock → TcpSock) : SockTable :=
  match t i with
  | none => t
  | some s => t.set i (f s)

def stepTable (t : SockTable) : TcpSockEvent → SockTable
  | .socket i => if (t i).isNone then t.set i freshSock else t
  | .bind i ip port reuseaddr =>
    match t i with
    | none => t
    | some s => bindOutTcp t i s ip port reuseaddr
  | .listen i => t.on i listenOutTcp
  | .connect i remIp remPort autoIp autoPort =>
    t.on i fun s => connectOutTcp s remIp remPort autoIp autoPort
  | .connectReply i retVal => t.on i fun s => connectInTcp s retVal
  | .accept i =>
    t.on i fun s =>
      if s.listening ∧ s.read.state = .unconnected then s.withState .connecting else s
  | .accepted i j remIp remPort =>
    match t i with
    | none => t
    | some s =>
      let t1 := if (t j).isNone then t.set j (acceptedSock s remIp remPort) else t
      t1.set i (s.withState .unconnected)
  | .frame wedge a data =>
    match fdfIndex t a with
    | none => t
    | some i => t.on i fun s => s.frame wedge a data
  | .recvmsg i wedge hdr bufLen controllen flags =>
    t.on i fun s => { s with read := recvmsgOutTcp wedge s.read hdr bufLen controllen flags }
  | .timeout i call => t.on i fun s => { s with read := daemonHandleTo s.read call }
  | .release i => update t i none

/-- The socket is an end of the connection. -/
def TcpSock.Owns (s : TcpSock) (a : ConnAddrs) : Prop :=
  s.addrs.hostPort = a.hostPort ∧ (s.addrs.hostIp = DAEMON_ADDR_ANY ∨ s.addrs.hostIp = a.hostIp) ∧
    s.addrs.remIp = a.remIp ∧ s.addrs.remPort = a.remPort
deriving Decidable

/-- No connection belongs to both sockets. -/
def Apart (s s' : TcpSock) : Prop :=
  ∀ a : ConnAddrs, a.remPort ≠ DAEMON_PORT_ANY → s.Owns a → ¬ s'.Owns a

/-- Socket `i` may be given the addresses of `s`: they name a peer, and are not those of another
    socket. -/
structure Free (t : SockTable) (i : Nat) (s : TcpSock) : Prop where
  remIp : s.addrs.remIp ≠ DAEMON_ADDR_ANY
  remPort : s.addrs.remPort ≠ DAEMON_PORT_ANY
  apart : ∀ j s', j ≠ i → t j = some s' → Apart s s'

/-- The condition.  Connections are made and accepted between addresses that no other socket has,
    and a frame comes when its connection has been made or accepted.  The socket can count its
    bytes, replies reach the wedge, and TCP answers the requests that were made. -/
def AcceptedFirst (t : SockTable) : TcpSockEvent → Prop
  | .socket i => i < DAEMON_MAX_SOCKETS
  | .connect i remIp remPort autoIp autoPort => ∀ s, t i = some s →
    s.read.state = .unconnected → Free t i (connectOutTcp s remIp remPort autoIp autoPort)
  | .connectReply i _ => ∀ s, t i = some s → s.read.state = .connecting
  | .accepted i j remIp remPort => ∀ s, t i = some s → s.read.state = .connecting ∧
    (t j = none → j < DAEMON_MAX_SOCKETS ∧ Free t j (acceptedSock s remIp remPort))
  | .frame wedge a data => a.remPort ≠ DAEMON_PORT_ANY ∧
    ∃ i s, t i = some s ∧ s.Owns a ∧ s.read.state = .connected ∧ Counts s.read (.frame wedge data)
  | .recvmsg i wedge hdr bufLen controllen flags =>
    ∀ s, t i = some s → Counts s.read (.recvmsg wedge hdr bufLen controllen flags)
  | .timeout i call => ∀ s, t i = some s → Counts s.read (.timeout call)
  | _ => True

/-! ### One socket -/

def frameBytes (l : List (ConnAddrs × List UInt8)) : List UInt8 := l.flatMap fun f => f.2

structure TcpSock.Ok (s : TcpSock) : Prop where
  served : Served (frameBytes s.frames) s.read
  owns : ∀ f ∈ s.frames, s.Owns f.1
  connected : s.frames ≠ [] → s.read.state = .connected ∧ s.bound = true

variable {s : TcpSock}

theorem served_withState {fed : List UInt8} {k : DaemonSocket} (h : Served fed k)
    (state : SockState) : Served fed { k with state := state } :=
  ⟨h.reader.congr rfl rfl rfl id, h.paid, h.reading⟩

theorem acceptedSock_ok (s : TcpSock) (remIp : UInt32) (remPort : UInt16) :
    (acceptedSock s remIp remPort).Ok where
  served := connectedSocket_served
  owns := by simp [acceptedSock]
  connected := by simp [acceptedSock]

theorem TcpSock.Ok.rename (h : s.Ok) (hnone : s.frames = []) {s' : TcpSock} (state : SockState)
    (hframes : s'.frames = s.frames) (hread : s'.read = { s.read with state := state }) :
    s'.Ok := by
  constructor
  · rw [hread, hframes]
    exact served_withState h.served state
  · rw [hframes, hnone]
    simp
  · rw [hframes, hnone]
    simp

theorem TcpSock.Ok.frames_nil (h : s.Ok) (hstate : s.read.state ≠ .connected) : s.frames = [] := by
  by_contra hne
  exact hstate (h.connected hne).1

theorem fdfLoop_state (wedge : DaemonCall → Bool) (data : List UInt8) (rounds : Nat)
    (k : DaemonSocket) (pos : Nat) : (fdfLoop wedge data rounds k pos).1.state = k.state := by
  induction rounds generalizing k pos with
  | zero => rfl
  | succ rounds ih =>
    simp only [fdfLoop]
    split
    · rfl
    · rename_i call k1 htake
      obtain ⟨-, rfl, -⟩ := takeRecvmsg_some htake
      split
      · rfl
      · rw [ih]
        rfl

theorem daemonInFdfTcp_state (wedge : DaemonCall → Bool) (k : DaemonSocket) (data : List UInt8) :
    (daemonInFdfTcp wedge k data).state = k.state := by
  have hloop := fdfLoop_state wedge data (pollAll k POLLIN).callList.length (pollAll k POLLIN) 0
  simp only [daemonInFdfTcp]
  split
  · rename_i k2 heq
    rw [heq] at hloop
    exact hloop
  · rename_i k2 pos heq
    rw [heq] at hloop
    split
    · exact hloop
    · exact hloop

theorem TcpSock.Ok.frame (h : s.Ok) {wedge : DaemonCall → Bool} {a : ConnAddrs} {data : List UInt8}
    (howns : s.Owns a) (hstate : s.read.state = .connected) (hbound : s.bound)
    (hcounts : Counts s.read (.frame wedge data)) : (s.frame wedge a data).Ok := by
  have hserved := stepSock_served h.served hcounts
  constructor
  · simpa [TcpSock.frame, frameBytes, handedUp, stepSock] using hserved
  · exact forall_mem_concat h.owns howns
  · intro _
    exact ⟨(daemonInFdfTcp_state wedge s.read data).trans hstate, hbound⟩

/-! ### The table and the lookup -/

/-- The addresses of a socket follow its state. -/
structure TcpSock.Placed (s : TcpSock) : Prop where
  bound : s.read.state ≠ .unconnected ∨ s.listening = true → s.bound = true
  unbound : s.bound = false → s.addrs.remPort = DAEMON_PORT_ANY
  remote : s.addrs.remPort ≠ DAEMON_PORT_ANY → s.addrs.remIp ≠ DAEMON_ADDR_ANY

structure Addressed (t : SockTable) : Prop where
  slots : ∀ i s, t i = some s → i < DAEMON_MAX_SOCKETS
  socks : ∀ i s, t i = some s → s.Placed ∧ s.Ok
  apart : ∀ i j s s', t i = some s → t j = some s' → j ≠ i → Apart s s'

variable {t : SockTable} {s' : TcpSock} {a : ConnAddrs} {i : Nat}

theorem Apart.symm (h : Apart s s') : Apart s' s := fun a ha howns' howns => h a ha howns howns'

theorem apart_of_remPort (h : s.addrs.remPort = DAEMON_PORT_ANY) : Apart s s' :=
  fun _ ha howns => absurd (howns.2.2.2.symm.trans h) ha

theorem Apart.congr {s₁ : TcpSock} (h : Apart s s') (haddrs : s₁.addrs = s.addrs) :
    Apart s₁ s' := fun a ha howns => h a ha (by rwa [TcpSock.Owns, haddrs] at howns)

theorem TcpSock.Placed.congr (h : s.Placed) (hbound : s'.bound = s.bound)
    (hlisten : s'.listening = true → s.listening = true ∨ s.bound = true)
    (hstate : s'.read.state ≠ .unconnected → s.read.state ≠ .unconnected ∨ s.listening = true)
    (haddrs : s'.addrs = s.addrs) : s'.Placed := by
  refine ⟨fun hor => ?_, by rw [hbound, haddrs]; exact h.unbound, by rw [haddrs]; exact h.remote⟩
  rw [hbound]
  rcases hor with hor | hor
  · exact h.bound (hstate hor)
  · exact (hlisten hor).elim (fun hl => h.bound (.inr hl)) id

/-- **The first search finds the owner.** -/
theorem matchConnAddr4Tcp_owner (h : Addressed t) (ha : a.remPort ≠ DAEMON_PORT_ANY)
    (hs : t i = some s) (howns : s.Owns a) (hbound : s.bound = true) :
    matchConnAddr4Tcp t a = some i := by
  obtain ⟨hport, hip, hremIp, hremPort⟩ := howns
  cases hfind : matchConnAddr4Tcp t a with
  | none =>
    have hi := List.find?_eq_none.mp hfind i (List.mem_range.mpr (h.slots i s hs))
    simp [hs, hbound, hport, hip, hremIp, hremPort] at hi
  | some j =>
    have hj := List.find?_some hfind
    obtain ⟨s', hs', htest⟩ := (Option.any_eq_true _ _).mp hj
    simp only [Bool.and_eq_true, Bool.or_eq_true, beq_iff_eq] at htest
    obtain ⟨⟨⟨⟨-, hport'⟩, hremPort'⟩, hip'⟩, hremIp'⟩ := htest
    have hremIp' := hremIp'.resolve_left ((h.socks j s' hs').1.remote (hremPort' ▸ ha))
    by_contra hne
    have hji : j ≠ i := fun heq => hne (congrArg some heq)
    exact h.apart i j s s' hs hs' hji a ha ⟨hport, hip, hremIp, hremPort⟩
      ⟨hport', hip', hremIp', hremPort'⟩

theorem Addressed.set (h : Addressed t) (hi : i < DAEMON_MAX_SOCKETS) (hs : s.Placed ∧ s.Ok)
    (hapart : ∀ j s', j ≠ i → t j = some s' → Apart s s') : Addressed (t.set i s) := by
  have hcases : ∀ j s', t.set i s j = some s' → j = i ∧ s' = s ∨ j ≠ i ∧ t j = some s' := by
    intro j s' hj
    by_cases heq : j = i
    · subst heq
      simp only [SockTable.set, update_self, Option.some.injEq] at hj
      exact .inl ⟨rfl, hj.symm⟩
    · exact .inr ⟨heq, by simpa [SockTable.set, update_of_ne heq] using hj⟩
  constructor
  · intro j s' hj
    rcases hcases j s' hj with ⟨rfl, rfl⟩ | ⟨-, hold⟩
    · exact hi
    · exact h.slots j s' hold
  · intro j s' hj
    rcases hcases j s' hj with ⟨rfl, rfl⟩ | ⟨-, hold⟩
    · exact hs
    · exact h.socks j s' hold
  · intro j k s₁ s₂ hj hk hne
    rcases hcases j s₁ hj with ⟨rfl, rfl⟩ | ⟨-, hold₁⟩
    · rcases hcases k s₂ hk with ⟨rfl, -⟩ | ⟨-, hold₂⟩
      · exact absurd rfl hne
      · exact hapart k s₂ hne hold₂
    · rcases hcases k s₂ hk with ⟨rfl, rfl⟩ | ⟨-, hold₂⟩
      · exact (hapart j s₁ hne.symm hold₁).symm
      · exact h.apart j k s₁ s₂ hold₁ hold₂ hne

theorem Addressed.on (h : Addressed t) {f : TcpSock → TcpSock}
    (hf : ∀ s, t i = some s → s.Placed → s.Ok →
      ((f s).Placed ∧ (f s).Ok) ∧ ∀ j s', j ≠ i → t j = some s' → Apart (f s) s') :
    Addressed (t.on i f) := by
  simp only [SockTable.on]
  split
  · exact h
  · rename_i s hs
    obtain ⟨hplaced, hok⟩ := h.socks i s hs
    obtain ⟨hnew, hapart⟩ := hf s hs hplaced hok
    exact h.set (h.slots i s hs) hnew hapart

/-- The step keeps the addresses of the socket. -/
theorem Addressed.keep (h : Addressed t) {f : TcpSock → TcpSock}
    (haddrs : ∀ s, (f s).addrs = s.addrs)
    (hf : ∀ s, t i = some s → s.Placed → s.Ok → (f s).Placed ∧ (f s).Ok) : Addressed (t.on i f) :=
  h.on fun s hs hplaced hok => ⟨hf s hs hplaced hok, fun j s' hne hj =>
    (h.apart i j s s' hs hj hne).congr (haddrs s)⟩

section

variable (h : Addressed t)
include h

theorem Addressed.bind (i : Nat) (ip : UInt32) (port : UInt16) (reuseaddr : Bool) :
    Addressed (stepTable t (.bind i ip port reuseaddr)) := by
  simp only [stepTable]
  split
  · exact h
  · rename_i s hs
    obtain ⟨hplaced, hok⟩ := h.socks i s hs
    simp only [bindOutTcp]
    split
    · exact h
    · rename_i hbound
      have hport := hplaced.unbound (by simpa using hbound)
      -- an unbound socket has been given nothing
      have hnone : s.frames = [] := by
        by_contra hne
        exact hbound (hok.connected hne).2
      split
      · exact h
      · exact h.set (h.slots i s hs)
          ⟨⟨fun _ => rfl, fun hfalse => (Bool.noConfusion hfalse), fun hne => absurd hport hne⟩,
            hok.rename hnone s.read.state rfl rfl⟩
          fun _ _ _ _ => apart_of_remPort hport

theorem Addressed.connect {remIp autoIp : UInt32} {remPort autoPort : UInt16}
    (he : AcceptedFirst t (.connect i remIp remPort autoIp autoPort)) :
    Addressed (stepTable t (.connect i remIp remPort autoIp autoPort)) := by
  refine h.on fun s hs hplaced hok => ?_
  have hfree := he s hs
  by_cases hstate : s.read.state = .unconnected
  · have hnone := hok.frames_nil (by rw [hstate]; decide)
    have hnew : (connectOutTcp s remIp remPort autoIp autoPort).Ok := by
      simp only [connectOutTcp, hstate, if_true]
      exact hok.rename hnone _ rfl rfl
    refine ⟨⟨⟨fun _ => ?_, fun hfalse => ?_, fun _ => (hfree hstate).remIp⟩, hnew⟩,
      (hfree hstate).apart⟩
    · simp [connectOutTcp, hstate]
    · simp [connectOutTcp, hstate] at hfalse
  · simp only [connectOutTcp, hstate, if_false]
    exact ⟨⟨hplaced, hok⟩, fun j s' hne hj => h.apart i j s s' hs hj hne⟩

theorem Addressed.connectReply {retVal : Bool} (he : AcceptedFirst t (.connectReply i retVal)) :
    Addressed (stepTable t (.connectReply i retVal)) := by
  refine h.on fun s hs hplaced hok => ?_
  have hbusy : s.read.state ≠ .unconnected := by rw [he s hs]; decide
  have hnone := hok.frames_nil (by rw [he s hs]; decide)
  cases retVal with
  | true =>
    exact ⟨⟨hplaced.congr rfl .inl (fun _ => .inl hbusy) rfl, hok.rename hnone _ rfl rfl⟩,
      fun j s' hne hj => (h.apart i j s s' hs hj hne).congr rfl⟩
  | false =>
    exact ⟨⟨⟨fun _ => hplaced.bound (.inl hbusy), fun _ => rfl, fun hne => absurd rfl hne⟩,
      hok.rename hnone _ rfl rfl⟩, fun _ _ _ _ => apart_of_remPort rfl⟩

theorem Addressed.accepted {j : Nat} {remIp : UInt32} {remPort : UInt16}
    (he : AcceptedFirst t (.accepted i j remIp remPort)) :
    Addressed (stepTable t (.accepted i j remIp remPort)) := by
  simp only [stepTable]
  split
  · exact h
  · rename_i s hs
    obtain ⟨hstate, hfree⟩ := he s hs
    obtain ⟨hplaced, hok⟩ := h.socks i s hs
    have hbound := hplaced.bound (.inl (by rw [hstate]; decide))
    have hnone := hok.frames_nil (by rw [hstate]; decide)
    have hback : (s.withState .unconnected).Placed ∧ (s.withState .unconnected).Ok :=
      ⟨hplaced.congr rfl .inl (fun hne => absurd rfl hne) rfl, hok.rename hnone _ rfl rfl⟩
    split
    · rename_i hempty
      obtain ⟨hj, hfree⟩ := hfree (Option.isNone_iff_eq_none.mp hempty)
      have hij : i ≠ j := by
        rintro rfl
        simp [hs] at hempty
      have hnew : Addressed (t.set j (acceptedSock s remIp remPort)) :=
        h.set hj ⟨⟨fun _ => hbound, fun hfalse => absurd (hbound.symm.trans hfalse) (by decide),
          fun _ => hfree.remIp⟩, acceptedSock_ok s remIp remPort⟩ hfree.apart
      have hi : t.set j (acceptedSock s remIp remPort) i = some s := by
        rw [SockTable.set, update_of_ne hij, hs]
      exact hnew.set (h.slots i s hs) hback fun k s' hne hk =>
        (hnew.apart i k s s' hi hk hne).congr rfl
    · exact h.set (h.slots i s hs) hback fun k s' hne hk =>
        (h.apart i k s s' hs hk hne).congr rfl

theorem Addressed.frame {wedge : DaemonCall → Bool} {data : List UInt8}
    (he : AcceptedFirst t (.frame wedge a data)) :
    Addressed (stepTable t (.frame wedge a data)) := by
  obtain ⟨ha, i, s, hs, howns, hstate, hcounts⟩ := he
  have hbound := (h.socks i s hs).1.bound (.inl (by rw [hstate]; decide))
  have hfind := matchConnAddr4Tcp_owner h ha hs howns hbound
  have hindex : fdfIndex t a = some i := by simp [fdfIndex, hfind]
  simp only [stepTable, hindex]
  refine h.keep (fun _ => rfl) fun s' hs' hplaced hok => ?_
  cases hs.symm.trans hs'
  exact ⟨hplaced.congr rfl .inl (fun _ => .inl (by rw [hstate]; decide)) rfl,
    hok.frame howns hstate hbound hcounts⟩

theorem Addressed.release (i : Nat) : Addressed (stepTable t (.release i)) := by
  have hold : ∀ j s, stepTable t (.release i) j = some s → t j = some s := by
    intro j s hj
    by_cases hji : j = i
    · subst hji
      simp [stepTable] at hj
    · simpa [stepTable, update_of_ne hji] using hj
  exact ⟨fun j s hj => h.slots j s (hold j s hj), fun j s hj => h.socks j s (hold j s hj),
    fun j k s s' hj hk => h.apart j k s s' (hold j s hj) (hold k s' hk)⟩

end

end FinsStack.Daemon
