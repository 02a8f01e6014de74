import FinsStack.Lib.Run
import Mathlib.Logic.Function.Basic
import Mathlib.Data.List.FinRange
import Mathlib.Data.Fintype.Basic

/-!
# Who holds which port

`daemon/tcpHandling.c`, `daemon/udpHandling.c`, `daemon/daemon.c`.

A socket takes a port by `bind`, or when an unbound socket connects or, over UDP, sends.  Before
it does, a scan of the table looks for a socket that holds the port already, at the same
address or at the wildcard address.  The scan does not ask whether the address to be taken is
itself the wildcard.  So the order of two binds decides: after `0.0.0.0:80` nobody gets
`10.0.0.2:80`, but after `10.0.0.2:80` another socket gets `0.0.0.0:80`
(`wildcard_after_specific`).  An unbound UDP socket is tested with the address of the main
interface and then keeps the wildcard address, with the same effect.
-/

namespace FinsStack.Daemon.Bind

open Lib

abbrev DAEMON_MAX_SOCKETS : Nat := 50

def DAEMON_ADDR_ANY : UInt32 := 0
def DAEMON_PORT_ANY : UInt16 := 0
def DAEMON_PORT_MIN : UInt16 := 32768
def DAEMON_PORT_MAX : UInt16 := 61000

/-! ### The table of sockets -/

inductive Protocol where
  | tcp
  | udp
deriving DecidableEq, Repr

inductive Family where
  | unspec
  | inet
  | inet6
  | other
deriving DecidableEq, Repr

structure Sock where
  live : Bool
  protocol : Protocol
  family : Family
  hostIp : UInt32
  hostPort : UInt16
  reuseAddr : Bool
deriving DecidableEq, Repr

abbrev Index := Fin DAEMON_MAX_SOCKETS

/-- `md->sockets`, and whether a handler is caught in its search for a free port.  Such a handler
    never gives the sockets back. -/
structure Table where
  sockets : Index → Sock
  searching : Bool

/-- A value that `randoming(DAEMON_PORT_MIN, DAEMON_PORT_MAX)` returns. -/
def DrawnPort : Type := { p : UInt16 // DAEMON_PORT_MIN ≤ p ∧ p ≤ DAEMON_PORT_MAX }

def Sock.matches (s : Sock) (protocol : Protocol) (hostIp : UInt32) (hostPort : UInt16) : Bool :=
  s.live && s.protocol == protocol && s.family == .inet && s.hostPort == hostPort &&
    (s.hostIp == DAEMON_ADDR_ANY || s.hostIp == hostIp)

/-- `match_host_addr4_tcp` and `match_host_addr4_udp`, where nothing stands for -1. -/
def matchHostAddr4 (t : Table) (protocol : Protocol) (hostIp : UInt32) (hostPort : UInt16) :
    Option Index :=
  (List.finRange DAEMON_MAX_SOCKETS).find? fun i => (t.sockets i).matches protocol hostIp hostPort

/-- `while (1)` over random ports: the first one drawn that the scan does not find. -/
def searchPort (t : Table) (protocol : Protocol) (hostIp : UInt32) (draws : List DrawnPort) :
    Option UInt16 :=
  (draws.find? fun p => (matchHostAddr4 t protocol hostIp p.val).isNone).map Subtype.val

/-! ### The handlers -/

inductive Outcome where
  | keeps
  | setsInet6
  | searches
  | takes (hostIp : UInt32) (hostPort : UInt16)
deriving DecidableEq, Repr

def Outcome.ofSearch (hostIp : UInt32) : Option UInt16 → Outcome
  | none => .searches
  | some p => .takes hostIp p

/-- `bind_out_tcp` and `bind_out_udp`, which differ in the protocol of the scan only. -/
def bindOut (t : Table) (s : Sock) (family : Family) (hostIp : UInt32) (hostPort : UInt16)
    (draws : List DrawnPort) : Outcome :=
  if s.family ≠ .unspec then .keeps
  else
    match family with
    | .inet =>
      if hostPort = DAEMON_PORT_ANY then
        .ofSearch hostIp (searchPort t s.protocol hostIp draws)
      else if (matchHostAddr4 t s.protocol hostIp hostPort).isSome && !s.reuseAddr then .keeps
      else .takes hostIp hostPort
    | .inet6 => .setsInet6
    | .unspec | .other => .keeps

/-- `connect_out_tcp`: an unbound socket gets the address of the main interface, or the wildcard
    address if that has none.  `admitted` says that the connection state lets the call get
    there. -/
def connectOutTcp (mainIp : Option UInt32) (t : Table) (s : Sock) (family : Family)
    (admitted : Bool) (draws : List DrawnPort) : Outcome :=
  if admitted ∧ family = .inet ∧ s.family = .unspec then
    let hostIp := mainIp.getD 0
    .ofSearch hostIp (searchPort t s.protocol hostIp draws)
  else .keeps

/-- `connect_out_udp`: the port is searched for with the address of the main interface, but the
    socket's own address is not set. -/
def connectOutUdp (mainIp : Option UInt32) (t : Table) (s : Sock) (family : Family)
    (draws : List DrawnPort) : Outcome :=
  if family = .inet ∧ s.family = .unspec then
    .ofSearch s.hostIp (searchPort t s.protocol (mainIp.getD 0) draws)
  else .keeps

/-- `sendmsg_out_udp`: the same, where `host_ip` holds `stale` if the main interface has no
    address. -/
def sendmsgOutUdp (mainIp : Option UInt32) (t : Table) (s : Sock) (family : Family)
    (dataLen : Nat) (stale : UInt32) (draws : List DrawnPort) : Outcome :=
  if dataLen ≠ 0 ∧ family = .inet ∧ s.family = .unspec then
    .ofSearch s.hostIp (searchPort t s.protocol (mainIp.getD stale) draws)
  else .keeps

/-! ### The calls -/

/-- A call that reaches the daemon.  A `release` removes the socket at once or, over TCP, when
    the reply says so: it stands for the call that does. -/
inductive Call where
  | socket (i : Index) (protocol : Protocol)
  | bind (i : Index) (family : Family) (hostIp : UInt32) (hostPort : UInt16) (reuseAddr : Bool)
      (draws : List DrawnPort)
  | connect (i : Index) (family : Family) (admitted : Bool) (draws : List DrawnPort)
  | sendmsg (i : Index) (family : Family) (dataLen : Nat) (stale : UInt32)
      (draws : List DrawnPort)
  | release (i : Index)

def Call.outcome (mainIp : Option UInt32) (t : Table) : Call → Option (Index × Outcome)
  | .socket .. | .release _ => none
  | .bind i family hostIp hostPort reuseAddr draws =>
    let s := t.sockets i
    some (i,
      bindOut t { s with reuseAddr := s.reuseAddr || reuseAddr } family hostIp hostPort draws)
  | .connect i family admitted draws =>
    let s := t.sockets i
    match s.protocol with
    | .tcp => some (i, connectOutTcp mainIp t s family admitted draws)
    | .udp => some (i, connectOutUdp mainIp t s family draws)
  | .sendmsg i family dataLen stale draws =>
    let s := t.sockets i
    match s.protocol with
    -- `sendmsg_out_tcp` sends only on a socket whose family is AF_INET already
    | .tcp => some (i, .keeps)
    | .udp => some (i, sendmsgOutUdp mainIp t s family dataLen stale draws)

def Table.set (t : Table) (i : Index) (s : Sock) : Table :=
  { t with sockets := Function.update t.sockets i s }

def Table.settle (t : Table) (i : Index) : Outcome → Table
  | .keeps => t
  | .setsInet6 => t.set i { t.sockets i with family := .inet6 }
  | .searches => { t with searching := true }
  | .takes hostIp hostPort => t.set i { t.sockets i with family := .inet, hostIp, hostPort }

def Table.noteReuse (t : Table) : Call → Table
  | .bind i _ _ _ reuseAddr _ =>
    t.set i { t.sockets i with reuseAddr := (t.sockets i).reuseAddr || reuseAddr }
  | _ => t

def Call.possible (t : Table) : Call → Bool
  | .socket i _ => !(t.sockets i).live
  | .bind i .. | .connect i .. | .sendmsg i .. | .release i => (t.sockets i).live

def freshSock (protocol : Protocol) : Sock := ⟨true, protocol, .unspec, 0, 0, false⟩

def step (mainIp : Option UInt32) (t : Table) (call : Call) : Table :=
  if t.searching || !call.possible t then t
  else
    match call with
    -- `daemon_sockets_insert`
    | .socket i protocol => t.set i (freshSock protocol)
    -- `daemon_sockets_remove`
    | .release i => t.set i { t.sockets i with live := false }
    | call =>
      match call.outcome mainIp t with
      | none => t
      | some (i, o) => (t.noteReuse call).settle i o

def empty : Table := ⟨fun _ => ⟨false, .tcp, .unspec, 0, 0, false⟩, false⟩

def Call.plain : Call → Bool
  | .bind _ _ _ _ reuseAddr _ => !reuseAddr
  | _ => true

/-! ### Conflicts -/

def Sock.Holds (s : Sock) : Prop := s.live = true ∧ s.family = .inet

def Overlap (ip₁ ip₂ : UInt32) : Prop :=
  ip₁ = ip₂ ∨ ip₁ = DAEMON_ADDR_ANY ∨ ip₂ = DAEMON_ADDR_ANY

def Conflict (s₁ s₂ : Sock) : Prop :=
  s₁.Holds ∧ s₂.Holds ∧ s₁.protocol = s₂.protocol ∧ s₁.hostPort = s₂.hostPort ∧
    Overlap s₁.hostIp s₂.hostIp

def ConflictFree (t : Table) : Prop :=
  ∀ i j, i ≠ j → ¬ Conflict (t.sockets i) (t.sockets j)

def WildcardFree (mainIp : Option UInt32) (t : Table) (call : Call) : Prop :=
  t.searching = false → call.possible t = true → ∀ i hostIp hostPort,
    call.outcome mainIp t = some (i, .takes hostIp hostPort) → hostIp = DAEMON_ADDR_ANY →
      ∀ j, (t.sockets j).Holds → (t.sockets j).protocol = (t.sockets i).protocol →
        (t.sockets j).hostPort ≠ hostPort

/-! ### The scan -/

variable {mainIp : Option UInt32} {t : Table} {call : Call}

variable {hostIp : UInt32} {hostPort : UInt16} {draws : List DrawnPort} {s : Sock} {family : Family}
  {i : Index} {o : Outcome}

theorem matchHostAddr4_none {protocol : Protocol}
    (h : matchHostAddr4 t protocol hostIp hostPort = none) (j : Index) (hj : (t.sockets j).Holds)
    (hproto : (t.sockets j).protocol = protocol) (hport : (t.sockets j).hostPort = hostPort) :
    (t.sockets j).hostIp ≠ DAEMON_ADDR_ANY ∧ (t.sockets j).hostIp ≠ hostIp := by
  have hno := List.find?_eq_none.mp h j (List.mem_finRange j)
  simpa [Sock.matches, hj.1, hj.2, hproto, hport] using hno

theorem searchPort_some {protocol : Protocol} {p : UInt16}
    (h : searchPort t protocol hostIp draws = some p) :
    matchHostAddr4 t protocol hostIp p = none := by
  obtain ⟨d, hd, rfl⟩ := Option.map_eq_some_iff.mp h
  simpa using List.find?_some hd

theorem ofSearch_takes {o : Option UInt16} {hostIp' : UInt32} {p : UInt16}
    (h : Outcome.ofSearch hostIp o = .takes hostIp' p) : hostIp = hostIp' ∧ o = some p := by
  cases o with
  | none => simp [Outcome.ofSearch] at h
  | some q => simpa [Outcome.ofSearch] using h

/-! ### What a handler can take -/

/-- A socket may take the address: it is unbound, and a scan with the address `tested` found
    nothing, where that address is the one taken or the socket's own is kept. -/
def Vetted (t : Table) (s : Sock) (hostIp : UInt32) (hostPort : UInt16) : Prop :=
  s.family = .unspec ∧ ∃ tested, matchHostAddr4 t s.protocol tested hostPort = none ∧
    (hostIp = tested ∨ hostIp = s.hostIp)

theorem bindOut_takes {ip : UInt32} {port : UInt16} (hreuse : s.reuseAddr = false)
    (h : bindOut t s family ip port draws = .takes hostIp hostPort) :
    Vetted t s hostIp hostPort := by
  by_cases hfam : s.family = .unspec
  · refine ⟨hfam, hostIp, ?_, .inl rfl⟩
    cases family with
    | inet =>
      by_cases hport : port = DAEMON_PORT_ANY
      · simp only [bindOut, hfam, ne_eq, not_true, if_false, hport, if_true] at h
        obtain ⟨rfl, hp⟩ := ofSearch_takes h
        exact searchPort_some hp
      · simp only [bindOut, hfam, ne_eq, not_true, if_false, hport, hreuse, Bool.not_false,
          Bool.and_true] at h
        by_cases hm : (matchHostAddr4 t s.protocol ip port).isSome
        · simp [hm] at h
        · rw [if_neg hm] at h
          cases h
          simpa using hm
    | _ => simp [bindOut, hfam] at h
  · simp [bindOut, hfam] at h

theorem connectOutTcp_takes {admitted : Bool}
    (h : connectOutTcp mainIp t s family admitted draws = .takes hostIp hostPort) :
    Vetted t s hostIp hostPort := by
  simp only [connectOutTcp] at h
  by_cases hc : admitted ∧ family = .inet ∧ s.family = .unspec
  · rw [if_pos hc] at h
    obtain ⟨rfl, hp⟩ := ofSearch_takes h
    exact ⟨hc.2.2, _, searchPort_some hp, .inl rfl⟩
  · simp [hc] at h

theorem connectOutUdp_takes (h : connectOutUdp mainIp t s family draws = .takes hostIp hostPort) :
    Vetted t s hostIp hostPort := by
  simp only [connectOutUdp] at h
  by_cases hc : family = .inet ∧ s.family = .unspec
  · rw [if_pos hc] at h
    obtain ⟨rfl, hp⟩ := ofSearch_takes h
    exact ⟨hc.2, _, searchPort_some hp, .inr rfl⟩
  · simp [hc] at h

theorem sendmsgOutUdp_takes {dataLen : Nat} {stale : UInt32}
    (h : sendmsgOutUdp mainIp t s family dataLen stale draws = .takes hostIp hostPort) :
    Vetted t s hostIp hostPort := by
  simp only [sendmsgOutUdp] at h
  by_cases hc : dataLen ≠ 0 ∧ family = .inet ∧ s.family = .unspec
  · rw [if_pos hc] at h
    obtain ⟨rfl, hp⟩ := ofSearch_takes h
    exact ⟨hc.2.2, _, searchPort_some hp, .inr rfl⟩
  · simp [hc] at h

theorem outcome_takes (hplain : call.plain) (hreuse : (t.sockets i).reuseAddr = false)
    (h : call.outcome mainIp t = some (i, .takes hostIp hostPort)) :
    Vetted t (t.sockets i) hostIp hostPort := by
  cases call with
  | socket j protocol | release j => simp [Call.outcome] at h
  | bind j family ip port reuseAddr draws =>
    simp only [Call.outcome, Option.some.injEq, Prod.mk.injEq] at h
    obtain ⟨rfl, h⟩ := h
    simp only [Call.plain, Bool.not_eq_true'] at hplain
    have hv := bindOut_takes (by simp [hreuse, hplain]) h
    exact hv
  | connect j family admitted draws =>
    cases hproto : (t.sockets j).protocol with
    | tcp =>
      simp only [Call.outcome, hproto, Option.some.injEq, Prod.mk.injEq] at h
      obtain ⟨rfl, h⟩ := h
      exact connectOutTcp_takes h
    | udp =>
      simp only [Call.outcome, hproto, Option.some.injEq, Prod.mk.injEq] at h
      obtain ⟨rfl, h⟩ := h
      exact connectOutUdp_takes h
  | sendmsg j family dataLen stale draws =>
    cases hproto : (t.sockets j).protocol with
    | tcp => simp [Call.outcome, hproto] at h
    | udp =>
      simp only [Call.outcome, hproto, Option.some.injEq, Prod.mk.injEq] at h
      obtain ⟨rfl, h⟩ := h
      exact sendmsgOutUdp_takes h

/-! ### What a step can do -/

theorem Table.set_sockets_self (t : Table) (i : Index) (s : Sock) : (t.set i s).sockets i = s :=
  Function.update_self ..

theorem Table.set_sockets_of_ne (t : Table) (s : Sock) {j : Index} (h : j ≠ i) :
    (t.set i s).sockets j = t.sockets j :=
  Function.update_of_ne h ..

theorem noteReuse_of_plain (hplain : call.plain) : t.noteReuse call = t := by
  cases call with
  | bind i family hostIp hostPort reuseAddr draws =>
    simp only [Call.plain, Bool.not_eq_true'] at hplain
    simp [Table.noteReuse, Table.set, hplain]
  | _ => rfl

/-- A step without `SO_REUSEADDR` opens, closes or settles one socket. -/
inductive Moves (mainIp : Option UInt32) (t : Table) (call : Call) : Table → Prop
  | idle : Moves mainIp t call t
  | opened {i : Index} {protocol : Protocol} : Moves mainIp t call (t.set i (freshSock protocol))
  | closed {i : Index} : Moves mainIp t call (t.set i { t.sockets i with live := false })
  | settled {i : Index} {o : Outcome} (hfree : t.searching = false)
      (hpossible : call.possible t = true) (ho : call.outcome mainIp t = some (i, o)) :
      Moves mainIp t call (t.settle i o)

theorem live_of_outcome (hpossible : call.possible t)
    (ho : call.outcome mainIp t = some (i, o)) : (t.sockets i).live := by
  cases call with
  | socket j protocol | release j => simp [Call.outcome] at ho
  | bind j family hostIp hostPort reuseAddr draws =>
    simp only [Call.outcome, Option.some.injEq, Prod.mk.injEq] at ho
    rw [← ho.1]
    exact hpossible
  | connect j family admitted draws | sendmsg j family dataLen stale draws =>
    cases hproto : (t.sockets j).protocol <;>
      simp only [Call.outcome, hproto, Option.some.injEq, Prod.mk.injEq] at ho <;>
      exact ho.1 ▸ hpossible

theorem step_of_outcome (hfree : t.searching = false) (hpossible : call.possible t)
    (hplain : call.plain) (ho : call.outcome mainIp t = some (i, o)) :
    step mainIp t call = t.settle i o := by
  have hnote := noteReuse_of_plain (t := t) hplain
  cases call with
  | socket j protocol | release j => simp [Call.outcome] at ho
  | _ => simp only [step, hfree, hpossible, Bool.not_true, Bool.or_self, Bool.false_eq_true,
      if_false, ho, hnote]

theorem step_moves (mainIp : Option UInt32) (t : Table) (hplain : call.plain) :
    Moves mainIp t call (step mainIp t call) := by
  cases hfree : t.searching with
  | true =>
    simp only [step, hfree, Bool.true_or, if_true]
    exact .idle
  | false =>
    cases hpossible : call.possible t with
    | false =>
      simp only [step, hpossible, Bool.not_false, Bool.or_true, if_true]
      exact .idle
    | true =>
      cases ho : call.outcome mainIp t with
      | none =>
        cases call with
        | socket i protocol =>
          simp only [step, hfree, hpossible, Bool.not_true, Bool.or_self, Bool.false_eq_true,
            if_false]
          exact .opened
        | release i =>
          simp only [step, hfree, hpossible, Bool.not_true, Bool.or_self, Bool.false_eq_true,
            if_false]
          exact .closed
        | _ =>
          simp only [step, hfree, hpossible, Bool.not_true, Bool.or_self, Bool.false_eq_true,
            if_false, ho]
          exact .idle
      | some io =>
        rw [step_of_outcome hfree hpossible hplain ho]
        exact .settled hfree hpossible ho

/-! ### The invariant -/

structure Sound (t : Table) : Prop where
  free : ConflictFree t
  plain : ∀ i, (t.sockets i).live = true → (t.sockets i).reuseAddr = false
  unbound : ∀ i, (t.sockets i).live = true → (t.sockets i).family = .unspec →
    (t.sockets i).hostIp = DAEMON_ADDR_ANY

theorem Overlap.symm {ip₁ ip₂ : UInt32} (h : Overlap ip₁ ip₂) : Overlap ip₂ ip₁ := by
  rcases h with h | h | h
  · exact .inl h.symm
  · exact .inr (.inr h)
  · exact .inr (.inl h)

theorem Conflict.symm {s₁ s₂ : Sock} (h : Conflict s₁ s₂) : Conflict s₂ s₁ :=
  ⟨h.2.1, h.1, h.2.2.1.symm, h.2.2.2.1.symm, h.2.2.2.2.symm⟩

theorem Sound.set (hs : Sound t) (i : Index) (s : Sock)
    (hfree : ∀ j, j ≠ i → ¬ Conflict s (t.sockets j)) (hplain : s.live → s.reuseAddr = false)
    (hunbound : s.live → s.family = .unspec → s.hostIp = DAEMON_ADDR_ANY) :
    Sound (t.set i s) where
  free := by
    intro j k hjk
    by_cases hj : j = i
    · subst hj
      rw [Table.set_sockets_self, Table.set_sockets_of_ne _ _ hjk.symm]
      exact hfree k hjk.symm
    · by_cases hk : k = i
      · subst hk
        rw [Table.set_sockets_self, Table.set_sockets_of_ne _ _ hj]
        exact fun hc => hfree j hj hc.symm
      · rw [Table.set_sockets_of_ne _ _ hj, Table.set_sockets_of_ne _ _ hk]
        exact hs.free j k hjk
  plain := by
    intro j
    by_cases hj : j = i
    · rw [hj, Table.set_sockets_self]
      exact hplain
    · rw [Table.set_sockets_of_ne _ _ hj]
      exact hs.plain j
  unbound := by
    intro j
    by_cases hj : j = i
    · rw [hj, Table.set_sockets_self]
      exact hunbound
    · rw [Table.set_sockets_of_ne _ _ hj]
      exact hs.unbound j

theorem Vetted.no_conflict (hs : Sound t) (hlive : (t.sockets i).live)
    (hv : Vetted t (t.sockets i) hostIp hostPort)
    (hwild : hostIp = DAEMON_ADDR_ANY → ∀ j, (t.sockets j).Holds →
      (t.sockets j).protocol = (t.sockets i).protocol → (t.sockets j).hostPort ≠ hostPort)
    (j : Index) :
    ¬ Conflict { t.sockets i with family := .inet, hostIp, hostPort } (t.sockets j) := by
  rintro ⟨-, hj, hproto, hport, hover⟩
  obtain ⟨hunspec, tested, hscan, hip⟩ := hv
  obtain ⟨hnotAny, hnotTested⟩ := matchHostAddr4_none hscan j hj hproto.symm hport.symm
  by_cases hany : hostIp = DAEMON_ADDR_ANY
  · exact hwild hany j hj hproto.symm hport.symm
  · -- a specific address is the one that was tested
    have htested : hostIp = tested := by
      rcases hip with hip | hip
      · exact hip
      · exact absurd (hip.trans (hs.unbound i hlive hunspec)) hany
    rcases hover with h | h | h
    · exact hnotTested (h.symm.trans htested)
    · exact hany h
    · exact hnotAny h

section

variable (hs : Sound t) (hplain : call.plain)
include hs hplain

theorem Sound.settle (hlive : (t.sockets i).live) (ho : call.outcome mainIp t = some (i, o))
    (hwild : ∀ hostIp hostPort, o = .takes hostIp hostPort → hostIp = DAEMON_ADDR_ANY →
      ∀ j, (t.sockets j).Holds → (t.sockets j).protocol = (t.sockets i).protocol →
        (t.sockets j).hostPort ≠ hostPort) : Sound (t.settle i o) := by
  cases o with
  | keeps => exact hs
  | searches => exact ⟨hs.free, hs.plain, hs.unbound⟩
  | setsInet6 =>
    refine hs.set i _ ?_ (hs.plain i) ?_
    · rintro j - ⟨hi, -⟩
      exact absurd hi.2 (by simp)
    · intro _ hfam
      exact absurd hfam (by simp)
  | takes hostIp hostPort =>
    refine hs.set i _ ?_ (hs.plain i) ?_
    · intro j _
      exact Vetted.no_conflict hs hlive (outcome_takes hplain (hs.plain i hlive) ho)
        (hwild hostIp hostPort rfl) j
    · intro _ hfam
      exact absurd hfam (by simp)

theorem Sound.step (hwild : WildcardFree mainIp t call) : Sound (step mainIp t call) := by
  have hmoves := step_moves mainIp t hplain
  generalize Bind.step mainIp t call = t' at hmoves
  cases hmoves with
  | idle => exact hs
  | opened =>
    refine hs.set _ _ ?_ (fun _ => rfl) (fun _ _ => rfl)
    rintro j - ⟨hi, -⟩
    exact absurd hi.2 (by simp [freshSock])
  | closed =>
    refine hs.set _ _ ?_ (fun h => absurd h (by simp)) (fun h => absurd h (by simp))
    rintro j - ⟨hi, -⟩
    exact absurd hi.1 (by simp)
  | settled hfree hpossible ho =>
    refine hs.settle hplain (live_of_outcome hpossible ho) ho ?_
    rintro hostIp hostPort rfl
    exact hwild hfree hpossible _ hostIp hostPort ho

theorem wildcardFree_of_conflictFree
    (h : ConflictFree (step mainIp t call)) : WildcardFree mainIp t call := by
  rintro hfree hpossible i hostIp hostPort ho hany j hj hproto hport
  have hlive := live_of_outcome hpossible ho
  have hunspec := (outcome_takes hplain (hs.plain i hlive) ho).1
  have hji : j ≠ i := by
    rintro rfl
    rw [hj.2] at hunspec
    exact absurd hunspec (by simp)
  rw [step_of_outcome hfree hpossible hplain ho] at h
  have hno := h i j hji.symm
  simp only [Table.settle, Table.set_sockets_self, Table.set_sockets_of_ne _ _ hji] at hno
  exact hno ⟨⟨hlive, rfl⟩, hj, hproto.symm, hport.symm, .inr (.inl hany)⟩

end

theorem sound_empty : Sound empty where
  free := by
    rintro i j - ⟨hi, -⟩
    exact absurd hi.1 (by simp [empty])
  plain := fun _ h => absurd h (by simp [empty])
  unbound := fun _ h => absurd h (by simp [empty])

/-- **No conflicts** exactly if no step takes the wildcard address with a port that is held. -/
theorem conflictFree_iff (mainIp : Option UInt32) (calls : List Call)
    (hplain : ∀ call ∈ calls, call.plain = true) :
    (∀ calls₁, calls₁ <+: calls → ConflictFree (run (step mainIp) empty calls₁)) ↔
      Steps (step mainIp) (WildcardFree mainIp) empty calls := by
  have hdomain : Steps (step mainIp) (fun _ call => call.plain = true) empty calls :=
    steps_of_forall _ _ fun call hcall _ => hplain call hcall
  exact (steps_iff_everywhere_within (I := Sound) (W := ConflictFree)
    (fun _ _ hs hp hw => hs.step hp hw) (fun _ hs => hs.free)
    (fun _ _ hs hp h => wildcardFree_of_conflictFree hs hp h) sound_empty hdomain).symm

/-! ### The wildcard after a specific address -/

def specificThenWildcard : List Call :=
  [.socket 0 .tcp, .socket 1 .tcp, .bind 0 .inet 0x0a000002 80 false [],
    .bind 1 .inet DAEMON_ADDR_ANY 80 false []]

theorem wildcard_after_specific :
    (∀ call ∈ specificThenWildcard, call.plain = true) ∧
      ¬ ConflictFree (run (step (some 0x0a000002)) empty specificThenWildcard) := by
  refine ⟨by decide, ?_⟩
  intro h
  refine h 0 1 (by decide) ⟨⟨?_, ?_⟩, ⟨?_, ?_⟩, ?_, ?_, .inr (.inr ?_)⟩ <;> decide

theorem conflictFree_specificThenWildcard :
    (∀ calls₁, calls₁ <+: specificThenWildcard →
        ConflictFree (run (step (some 0x0a000002)) empty calls₁)) ↔
      Steps (step (some 0x0a000002)) (WildcardFree (some 0x0a000002)) empty
        specificThenWildcard :=
  conflictFree_iff (some 0x0a000002) specificThenWildcard (by decide)

end FinsStack.Daemon.Bind
