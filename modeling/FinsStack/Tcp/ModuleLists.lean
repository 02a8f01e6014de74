import FinsStack.Tcp.Module

/-!
# The two lists of connections

What can be said of `conn_list` and `conn_stub_list` in every run, whatever the module is
asked to do (`Listing`): the lists have no connection twice and none in common, and what is on
`conn_stub_list` is a listener that was not freed and has `stub_list` set.  Nothing of the
kind holds of `conn_list`.
-/

namespace FinsStack.Tcp

open TcpModule List Function

variable {s : TcpModule} {md : TcpData} {i j : Nat} {a : Action}

/-! ### One connection -/

variable {x : Slot} {c : TcpConn}

theorem Slot.act_freed (h : x.freed) : x.act md a = x := by
  simp only [Slot.act, h, if_true]

theorem Slot.act_live (h : x.freed = false) :
    x.act md a = { x with conn := step x.conn ⟨md, a⟩ } := by
  simp only [Slot.act, h, Bool.false_eq_true, if_false]

@[simp] theorem Slot.act_stubList (x : Slot) : (x.act md a).stubList = x.stubList := by
  simp only [Slot.act]
  split <;> rfl

@[simp] theorem Slot.act_isFreed (x : Slot) : (x.act md a).freed = x.freed := by
  simp only [Slot.act]
  split <;> rfl

theorem TcpModule.act_freed (h : (s.slots i).freed) : s.act md i a = s := by
  simp only [TcpModule.act, Slot.act_freed h, update_eq_self]

@[simp] theorem TcpModule.act_self : (s.act md i a).slots i = (s.slots i).act md a :=
  update_self ..

theorem TcpModule.act_other (h : j ≠ i) : (s.act md i a).slots j = s.slots j :=
  update_of_ne h ..

theorem TcpModule.addConn_old {parent : Option Nat} (h : j ≠ s.next) :
    (s.addConn c parent).slots j = s.slots j :=
  update_of_ne h ..

@[simp] theorem TcpModule.addConn_new {parent : Option Nat} :
    (s.addConn c parent).slots s.next = ⟨c, false, parent, false⟩ :=
  update_self ..

theorem TcpModule.addStub_old (h : j ≠ s.next) : (s.addStub c).slots j = s.slots j :=
  update_of_ne h ..

@[simp] theorem TcpModule.addStub_new : (s.addStub c).slots s.next = ⟨c, true, none, false⟩ :=
  update_self ..

theorem TcpModule.act_idle (h : step (s.slots i).conn ⟨md, a⟩ = (s.slots i).conn) :
    s.act md i a = s := by
  have hslot : (s.slots i).act md a = s.slots i := by
    simp only [Slot.act, h]
    split <;> rfl
  simp only [TcpModule.act, hslot, update_eq_self]

theorem TcpModule.shutdownAll_mem {l : List Nat} (h : j ∈ l) :
    (s.shutdownAll md l).slots j = (s.slots j).act md .shutdown := by
  simp only [TcpModule.shutdownAll, if_pos h]

theorem TcpModule.shutdownAll_notMem (md : TcpData) {l : List Nat} (h : j ∉ l) :
    (s.shutdownAll md l).slots j = s.slots j := by
  simp only [TcpModule.shutdownAll, if_neg h]

theorem TcpModule.shutdownAll_shared (md : TcpData) (l : List Nat) (j : Nat) :
    ((s.shutdownAll md l).slots j).conn.shared = (s.slots j).conn.shared := by
  simp only [TcpModule.shutdownAll]
  split
  · simp only [Slot.act]
    split <;> rfl
  · rfl

theorem TcpModule.shutdownAll_freed (md : TcpData) (l : List Nat) (j : Nat) :
    ((s.shutdownAll md l).slots j).freed = (s.slots j).freed := by
  simp only [TcpModule.shutdownAll]
  split
  · exact Slot.act_isFreed _
  · rfl

/-! ### The lists -/

def Action.rests : Action → Bool
  | .listen _ | .close _ | .connect _ _ => false
  | _ => true

theorem tcpMainThread_resting (md : TcpData) (hs : c.state = .closed ∨ c.state = .listen)
    (rand : UInt32) :
    (tcpMainThread md c rand).state = c.state ∧
      (tcpMainThread md c rand).runningFlag = c.runningFlag := by
  have hround : (tcpMainState md c rand).state = c.state ∧
      (tcpMainState md c rand).runningFlag = c.runningFlag := by
    rcases hs with hs | hs <;> simp only [tcpMainState, hs] <;> exact ⟨hs, rfl⟩
  cases hpc : c.mainPc with
  | done => simp only [tcpMainThread, hpc, and_self]
  | waiting =>
    simp only [tcpMainThread, hpc]
    split <;> exact ⟨rfl, rfl⟩
  | ready =>
    simp only [tcpMainThread, hpc]
    split
    · split
      · exact hround
      · exact hround
    · exact ⟨rfl, rfl⟩

theorem step_resting (md : TcpData) (hs : c.state = .closed ∨ c.state = .listen)
    (hrests : a.rests) :
    (step c ⟨md, a⟩).state = c.state ∧
      (a ≠ .shutdown → (step c ⟨md, a⟩).runningFlag = c.runningFlag) := by
  cases a with
  | listen backlog | close ff | connect ff rand => cases hrests
  | recv seg env =>
    have hsame : tcpRecv md c seg env = c ∨
        tcpRecv md c seg env = { c with backlog := c.backlog ++ [env.child] } := by
      rcases hs with hs | hs
      · left
        simp only [tcpRecv, tcpRecvState, hs, ite_self]
      · cases htakes : c.takesChild seg env.known env.room with
        | true => exact .inr (tcpRecv_child md htakes).2.2
        | false => exact .inl (tcpRecv_listen md hs htakes)
    rcases hsame with hsame | hsame <;>
      simp only [step, hsame, implies_true, and_self]
  | write d flags serialNum =>
    have hrefused : tcpWrite c d flags serialNum = { c with
        nextAddr := c.nextAddr + 1
        out := c.out ++ [.execReply c.nextAddr serialNum FCF_FALSE 0] } := by
      rcases hs with hs | hs <;> simp only [tcpWrite, hs, ite_self]
    simp only [step, hrefused, implies_true, and_self]
  | accept | search | stubConnect | poll | pollStub | childAccepted =>
    exact ⟨(step_tells c md rfl).state, fun _ => (step_tells c md rfl).running⟩
  | fcf ff op =>
    simp only [step, tcpConnFcf]
    split
    · cases op with
      | alertShutdown value =>
        have hsame : tcpConnAlert c value = c := by
          rcases hs with hs | hs <;> simp only [tcpConnAlert, hs, ite_self]
        simp only [hsame, implies_true, and_self]
      | setHostWindow value =>
        simp only [tcpSetHostWindow]
        split
        · obtain ⟨k, seg, h⟩ := sendControl_frame
            { c with recvWin := uint32Increase c.recvWin value c.recvMaxWin, flowStopped := false }
            FLAG_ACK
          rw [h]
          exact ⟨rfl, fun _ => rfl⟩
        · exact ⟨rfl, fun _ => rfl⟩
      | readHostWindow | readSockOpt | setSockOpt value => exact ⟨rfl, fun _ => rfl⟩
    · exact ⟨rfl, fun _ => rfl⟩
  | main rand =>
    obtain ⟨hstate, hrun⟩ := tcpMainThread_resting md hs rand
    exact ⟨hstate, fun _ => hrun⟩
  | gbnFire =>
    simp only [step, gbnFire]
    split <;> exact ⟨rfl, fun _ => rfl⟩
  | delayedFire =>
    simp only [step, delayedFire]
    split <;> exact ⟨rfl, fun _ => rfl⟩
  | shutdown => exact ⟨rfl, fun h => absurd rfl h⟩
  | requestFire addr | tick clock | round congWindow threshhold rttEst rttDev =>
    exact ⟨rfl, fun _ => rfl⟩

def Action.keepsListen : Action → Bool
  | .close _ | .connect _ _ => false
  | _ => true

theorem step_listen (hs : c.state = .listen) (hkeeps : a.keepsListen) :
    (step c ⟨md, a⟩).state = .listen := by
  cases hrests : a.rests with
  | true => exact (step_resting md (.inr hs) hrests).1.trans hs
  | false =>
    cases a with
    | listen backlog => simp only [step, tcpListen, hs, reduceCtorEq, and_false, if_false]
    | close ff | connect ff rand => cases hkeeps
    | _ => cases hrests

structure Listing (s : TcpModule) : Prop where
  spare : ∀ i, s.next ≤ i → (s.slots i).freed = true
  connBound : ∀ i ∈ s.connList, i < s.next
  stubBound : ∀ i ∈ s.connStubList, i < s.next
  connNodup : s.connList.Nodup
  stubNodup : s.connStubList.Nodup
  apart : ∀ i ∈ s.connStubList, i ∉ s.connList
  stubLive : ∀ i ∈ s.connStubList, (s.slots i).freed = false
  stubFlag : ∀ i ∈ s.connStubList, (s.slots i).stubList = true
  stubListen : ∀ i ∈ s.connStubList, (s.slots i).conn.state = .listen

theorem Listing.congr {s' : TcpModule} (h : Listing s) (hslots : s'.slots = s.slots)
    (hnext : s'.next = s.next) (hconn : s'.connList = s.connList)
    (hstub : s'.connStubList = s.connStubList) : Listing s' := by
  constructor <;> simp only [hslots, hnext, hconn, hstub]
  · exact h.spare
  · exact h.connBound
  · exact h.stubBound
  · exact h.connNodup
  · exact h.stubNodup
  · exact h.apart
  · exact h.stubLive
  · exact h.stubFlag
  · exact h.stubListen

theorem Listing.live_lt (h : Listing s) (hlive : (s.slots i).freed = false) : i < s.next := by
  by_contra hge
  have hfreed := h.spare i (by omega)
  rw [hlive] at hfreed
  cases hfreed

theorem Listing.slots (h : Listing s) {f : Nat → Slot}
    (hfreed : ∀ j, (f j).freed = (s.slots j).freed)
    (hflag : ∀ j, (f j).stubList = (s.slots j).stubList)
    (hlisten : ∀ j ∈ s.connStubList, (f j).conn.state = .listen) :
    Listing { s with slots := f } where
  spare := fun j hj => (hfreed j).trans (h.spare j hj)
  connBound := h.connBound
  stubBound := h.stubBound
  connNodup := h.connNodup
  stubNodup := h.stubNodup
  apart := h.apart
  stubLive := fun j hj => (hfreed j).trans (h.stubLive j hj)
  stubFlag := fun j hj => (hflag j).trans (h.stubFlag j hj)
  stubListen := hlisten

theorem Slot.act_listen (hs : x.conn.state = .listen) (hkeeps : a.keepsListen) :
    (x.act md a).conn.state = .listen := by
  simp only [Slot.act]
  split
  · exact hs
  · exact step_listen hs hkeeps

section

variable (h : Listing s)
include h

theorem Listing.act (ha : a.keepsListen ∨ i ∉ s.connStubList) : Listing (s.act md i a) := by
  apply h.slots
  · exact (forall_update_iff s.slots fun j x => x.freed = (s.slots j).freed).mpr
      ⟨Slot.act_isFreed _, fun _ _ => rfl⟩
  · exact (forall_update_iff s.slots fun j x => x.stubList = (s.slots j).stubList).mpr
      ⟨Slot.act_stubList _, fun _ _ => rfl⟩
  · refine (forall_update_iff s.slots fun j x => j ∈ s.connStubList →
      x.conn.state = .listen).mpr ⟨fun hstub => ?_, fun j _ => h.stubListen j⟩
    exact Slot.act_listen (h.stubListen i hstub) (ha.resolve_right (not_not_intro hstub))

theorem Listing.shutdownAll (md : TcpData) (l : List Nat) : Listing (s.shutdownAll md l) := by
  apply h.slots
  · exact shutdownAll_freed md l
  · intro j
    split
    · exact Slot.act_stubList _
    · rfl
  · intro j hstub
    split
    · exact Slot.act_listen (h.stubListen j hstub) rfl
    · exact h.stubListen j hstub

theorem Listing.next_notMem : s.next ∉ s.connList ∧ s.next ∉ s.connStubList :=
  ⟨fun hmem => Nat.lt_irrefl _ (h.connBound _ hmem),
    fun hmem => Nat.lt_irrefl _ (h.stubBound _ hmem)⟩

theorem Listing.addConn (c : TcpConn) (parent : Option Nat) : Listing (s.addConn c parent) := by
  obtain ⟨hnewConn, hnewStub⟩ := h.next_notMem
  have hold : ∀ j ∈ s.connStubList, (s.addConn c parent).slots j = s.slots j := fun j hj =>
    addConn_old (ne_of_mem_of_not_mem hj hnewStub)
  constructor
  · intro j (hj : s.next + 1 ≤ j)
    rw [addConn_old (by omega)]
    exact h.spare j (by omega)
  · exact Lib.forall_mem_concat (fun j hj => Nat.lt_succ_of_lt (h.connBound j hj))
      (Nat.lt_succ_self _)
  · exact fun j hj => Nat.lt_succ_of_lt (h.stubBound j hj)
  · exact nodup_append.mpr ⟨h.connNodup, nodup_singleton _, fun j hj k hk =>
      fun heq => hnewConn (mem_singleton.mp hk ▸ heq ▸ hj)⟩
  · exact h.stubNodup
  · intro j hj hmem
    rcases mem_append.mp hmem with hmem | hmem
    · exact h.apart j hj hmem
    · exact hnewStub (mem_singleton.mp hmem ▸ hj)
  · exact fun j hj => (congrArg Slot.freed (hold j hj)).trans (h.stubLive j hj)
  · exact fun j hj => (congrArg Slot.stubList (hold j hj)).trans (h.stubFlag j hj)
  · exact fun j hj => (congrArg (fun x => x.conn.state) (hold j hj)).trans (h.stubListen j hj)

theorem Listing.addStub (hs : c.state = .listen) : Listing (s.addStub c) := by
  obtain ⟨hnewConn, hnewStub⟩ := h.next_notMem
  have hold : ∀ j ∈ s.connStubList, (s.addStub c).slots j = s.slots j := fun j hj =>
    addStub_old (ne_of_mem_of_not_mem hj hnewStub)
  have hmem : ∀ j ∈ (s.addStub c).connStubList, j ∈ s.connStubList ∨ j = s.next := fun j hj =>
    (mem_append.mp hj).imp_right mem_singleton.mp
  constructor
  · intro j (hj : s.next + 1 ≤ j)
    rw [addStub_old (by omega)]
    exact h.spare j (by omega)
  · exact fun j hj => Nat.lt_succ_of_lt (h.connBound j hj)
  · intro j hj
    rcases hmem j hj with hj | hj
    · exact Nat.lt_succ_of_lt (h.stubBound j hj)
    · rw [hj]
      exact Nat.lt_succ_self _
  · exact h.connNodup
  · exact nodup_append.mpr ⟨h.stubNodup, nodup_singleton _, fun j hj k hk =>
      fun heq => hnewStub (mem_singleton.mp hk ▸ heq ▸ hj)⟩
  · intro j hj hconn
    rcases hmem j hj with hj | hj
    · exact h.apart j hj hconn
    · exact hnewConn (hj ▸ hconn)
  · intro j hj
    rcases hmem j hj with hj | hj
    · rw [hold j hj]
      exact h.stubLive j hj
    · rw [hj, addStub_new]
  · intro j hj
    rcases hmem j hj with hj | hj
    · rw [hold j hj]
      exact h.stubFlag j hj
    · rw [hj, addStub_new]
  · intro j hj
    rcases hmem j hj with hj | hj
    · rw [hold j hj]
      exact h.stubListen j hj
    · rw [hj, addStub_new]
      exact hs

theorem Listing.eraseStub (p : Nat) :
    Listing { s with connStubList := s.connStubList.erase p } where
  spare := h.spare
  connBound := h.connBound
  stubBound := fun j hj => h.stubBound j (mem_of_mem_erase hj)
  connNodup := h.connNodup
  stubNodup := h.stubNodup.erase p
  apart := fun j hj => h.apart j (mem_of_mem_erase hj)
  stubLive := fun j hj => h.stubLive j (mem_of_mem_erase hj)
  stubFlag := fun j hj => h.stubFlag j (mem_of_mem_erase hj)
  stubListen := fun j hj => h.stubListen j (mem_of_mem_erase hj)

theorem Listing.eraseConn (p : Nat) : Listing { s with connList := s.connList.erase p } where
  spare := h.spare
  connBound := fun j hj => h.connBound j (mem_of_mem_erase hj)
  stubBound := h.stubBound
  connNodup := h.connNodup.erase p
  stubNodup := h.stubNodup
  apart := fun j hj hmem => h.apart j hj (mem_of_mem_erase hmem)
  stubLive := h.stubLive
  stubFlag := h.stubFlag
  stubListen := h.stubListen

theorem Listing.appendConn {p : Nat} (hp : p < s.next) (hconn : p ∉ s.connList)
    (hstub : p ∉ s.connStubList) : Listing { s with connList := s.connList ++ [p] } where
  spare := h.spare
  connBound := Lib.forall_mem_concat h.connBound hp
  stubBound := h.stubBound
  connNodup := nodup_append.mpr ⟨h.connNodup, nodup_singleton _, fun j hj k hk heq =>
    hconn (mem_singleton.mp hk ▸ heq ▸ hj)⟩
  stubNodup := h.stubNodup
  apart := by
    intro j hj hmem
    rcases mem_append.mp hmem with hmem | hmem
    · exact h.apart j hj hmem
    · exact hstub (mem_singleton.mp hmem ▸ hj)
  stubLive := h.stubLive
  stubFlag := h.stubFlag
  stubListen := h.stubListen

theorem Listing.free (hstub : i ∉ s.connStubList) :
    Listing { s with slots := update s.slots i { s.slots i with freed := true } } := by
  have hold : ∀ j ∈ s.connStubList,
      update s.slots i { s.slots i with freed := true } j = s.slots j := fun j hj =>
    update_of_ne (ne_of_mem_of_not_mem hj hstub) ..
  constructor
  · exact (forall_update_iff s.slots fun j x => s.next ≤ j → x.freed).mpr
      ⟨fun _ => rfl, fun j _ => h.spare j⟩
  · exact h.connBound
  · exact h.stubBound
  · exact h.connNodup
  · exact h.stubNodup
  · exact h.apart
  · exact fun j hj => (congrArg Slot.freed (hold j hj)).trans (h.stubLive j hj)
  · exact fun j hj => (congrArg Slot.stubList (hold j hj)).trans (h.stubFlag j hj)
  · exact fun j hj => (congrArg (fun x => x.conn.state) (hold j hj)).trans (h.stubListen j hj)

end

theorem TcpModule.findConn_mem {addr : ConnAddr} (h : s.findConn addr = some i) :
    i ∈ s.connList ∧ (s.slots i).conn.addr = addr := by
  refine ⟨mem_of_find?_eq_some h, ?_⟩
  simpa only [beq_iff_eq] using find?_some h

theorem TcpModule.findStub_mem {hostIp : UInt32} {hostPort : UInt16}
    (h : s.findStub hostIp hostPort = some i) :
    i ∈ s.connStubList ∧ (s.slots i).conn.addr.hostIp = hostIp ∧
      (s.slots i).conn.addr.hostPort = hostPort := by
  refine ⟨mem_of_find?_eq_some h, ?_⟩
  simpa only [Bool.and_eq_true, beq_iff_eq] using find?_some h

/-! ### What one step does -/

def Action.single : Action → Bool
  | .write .. | .poll .. | .pollStub .. | .fcf .. | .main .. | .gbnFire | .delayedFire
  | .requestFire .. | .tick .. | .round .. => true
  | _ => false

theorem Action.single_keepsListen (ha : a.single) : a.keepsListen := by
  cases a <;> first | rfl | cases ha

inductive ModuleMove (s : TcpModule) (e : ModuleEvent) : TcpModule → Prop
  | noted (out : List Out) (given : List Request) :
    ModuleMove s e { s with out := out, given := given }
  | single (given : List Request) (i : Nat) {a : Action} (ha : a.single = true) :
    ModuleMove s e ({ s with given := given }.act e.md i a)
  | recv {seg : TcpSeg} (hparsed : Parsed seg) (rand : UInt32) {i : Nat}
    (hi : s.findConn seg.target = some i ∨ s.findStub seg.dstIp seg.dstPort = some i) :
    ModuleMove s e (s.recv e.md i seg rand)
  | close {i : Nat} (hi : i ∈ s.connList) (ff : Fcf) :
    ModuleMove s e ((s.give (.fcf ff)).close e.md i ff)
  | closeStub {hostIp : UInt32} {hostPort : UInt16} {ff : Fcf} {i : Nat}
    (hop : e.op = .closeStub hostIp hostPort ff) (hi : s.findStub hostIp hostPort = some i) :
    ModuleMove s e
      ({ s.give (.fcf ff) with connStubList := s.connStubList.erase i }.close e.md i ff)
  | listen (hostIp : UInt32) (hostPort : UInt16) (backlog : Nat) :
    ModuleMove s e
      (s.addStub (step (tcpConnCreate e.md ⟨hostIp, hostPort, 0, 0⟩) ⟨e.md, .listen backlog⟩))
  | accept {i : Nat} (hi : i ∈ s.connStubList) (ff : Fcf) :
    ModuleMove s e ((s.give (.fcf ff)).accept e.md i ff)
  | promote {addr : ConnAddr} {ff : Fcf} {rand : UInt32} {p : Nat}
    (hop : e.op = .connect addr ff rand) (hnone : s.findConn addr = none)
    (hroom : s.hasRoom = true) (hp : s.findStub addr.hostIp addr.hostPort = some p) :
    ModuleMove s e ((s.give (.fcf ff)).promote e.md p addr ff rand)
  | connect {addr : ConnAddr} (hnone : s.findConn addr = none) (ff : Fcf) (rand : UInt32) :
    ModuleMove s e ((s.give (.fcf ff)).connectNew e.md addr ff rand)
  | exit {i : Nat} (hop : e.op = .exit i) (hlive : (s.slots i).freed = false)
    (hpc : (s.slots i).conn.mainPc = .done) : ModuleMove s e (tcpMainExit s e.md i)

theorem stepModule_move (s : TcpModule) (e : ModuleEvent) : ModuleMove s e (stepModule s e) := by
  obtain ⟨md, op⟩ := e
  cases op with
  | segment seg hparsed rand =>
    simp only [stepModule, tcpInFdf]
    split
    · exact .recv hparsed rand (.inl ‹_›)
    split
    · split
      · exact .recv hparsed rand (.inr ‹_›)
      · exact .noted _ _
    split
    · exact .noted _ _
    · exact .noted _ _
  | write addr d flags serialNum =>
    simp only [stepModule, tcpOutFdf]
    split
    · exact .single _ _ rfl
    · exact .noted _ _
  | close addr ff =>
    simp only [stepModule, tcpExecClose]
    split
    · exact .close (findConn_mem ‹_›).1 ff
    · exact .noted _ _
  | closeStub hostIp hostPort ff =>
    simp only [stepModule, tcpExecCloseStub]
    split
    · exact .closeStub rfl ‹_›
    · exact .noted _ _
  | listen hostIp hostPort backlog =>
    simp only [stepModule, tcpExecListen]
    split
    · exact .noted _ _
    split
    · exact .listen ..
    · exact .noted _ _
  | accept hostIp hostPort ff =>
    simp only [stepModule, tcpExecAccept]
    split
    · exact .accept (findStub_mem ‹_›).1 ff
    · exact .noted _ _
  | connect addr ff rand =>
    simp only [stepModule, tcpExecConnect]
    split
    · exact .noted _ _
    split
    · split
      · exact .promote rfl ‹_› ‹_› ‹_›
      · exact .connect ‹_› ff rand
    · exact .noted _ _
  | poll connected addr ff initial events =>
    simp only [stepModule, tcpExecPoll]
    split
    · exact .single _ _ (by split <;> rfl)
    · exact .noted _ _
  | fcf connected addr ff op =>
    simp only [stepModule, tcpFcfMatch]
    cases s.answersFcf connected addr op
    all_goals
      split
      · exact .single _ _ rfl
      · exact .noted _ _
  | own i own => exact .single _ i (by cases own <;> rfl)
  | exit i =>
    simp only [stepModule]
    split
    · rename_i hdone
      simp only [Bool.and_eq_true, Bool.not_eq_true', beq_iff_eq] at hdone
      exact .exit rfl hdone.1 hdone.2
    · exact .noted _ _

section

variable (h : Listing s)
include h

theorem Listing.conn_not_stub (hi : i ∈ s.connList) : i ∉ s.connStubList :=
  fun hstub => h.apart i hstub hi

theorem Listing.erased : i ∉ s.connStubList.erase i :=
  h.stubNodup.not_mem_erase

theorem Listing.recv (seg : TcpSeg) (rand : UInt32) : Listing (s.recv md i seg rand) := by
  have hact : Listing (s.act md i (.recv seg (s.recvEnv i seg rand))) := h.act (.inl rfl)
  simp only [TcpModule.recv]
  split
  · exact h
  split
  · exact hact.addConn _ _
  split
  · split
    · exact hact.act (.inl rfl)
    · exact hact
  · exact hact

theorem Listing.close (hi : i ∉ s.connStubList) (ff : Fcf) : Listing (s.close md i ff) := by
  have hact : Listing (s.act md i (.close ff)) := h.act (.inr hi)
  simp only [TcpModule.close]
  split
  · exact hact.shutdownAll _ _
  · exact hact

theorem Listing.accept (ff : Fcf) : Listing (s.accept md i ff) := by
  have hact : Listing (s.act md i (.accept ff none)) := h.act (.inl rfl)
  simp only [TcpModule.accept]
  split
  · split
    · exact (h.act (.inl rfl)).act (.inl rfl)
    · exact hact
  · exact hact

theorem Listing.promote {p : Nat} (hp : p ∈ s.connStubList) (addr : ConnAddr)
    (ff : Fcf) (rand : UInt32) : Listing (s.promote md p addr ff rand) := by
  have herase := h.eraseStub p
  simp only [TcpModule.promote, h.stubLive p hp, h.stubListen p hp, Bool.not_false, Bool.true_and,
    if_true]
  split
  · have hshut : Listing (({ s with connStubList := s.connStubList.erase p } :
        TcpModule).shutdownAll md (s.slots p).conn.backlog) := herase.shutdownAll _ _
    apply ((hshut.act (.inl rfl)).act (.inr h.erased)).appendConn
    · exact h.stubBound p hp
    · exact h.apart p hp
    · exact h.erased
  · exact herase.addConn _ _

theorem Listing.exit : Listing (tcpMainExit s md i) := by
  have hlist : Listing (if (s.slots i).stubList then
        ({ s with connStubList := s.connStubList.erase i } : TcpModule)
      else { s with connList := s.connList.erase i }) := by
    split
    · exact h.eraseStub i
    · exact h.eraseConn i
  refine (hlist.shutdownAll md (s.slots i).conn.backlog).free ?_
  -- a connection without the flag is on no stub list
  simp only [TcpModule.shutdownAll]
  split
  · exact h.erased
  · rename_i hflag
    exact fun hmem => hflag (h.stubFlag i hmem)

theorem stepModule_listing (e : ModuleEvent) : Listing (stepModule s e) := by
  have hgive : ∀ r, Listing (s.give r) := fun r => h.congr rfl rfl rfl rfl
  have hmove := stepModule_move s e
  generalize stepModule s e = s' at hmove ⊢
  cases hmove with
  | noted out given => exact h.congr rfl rfl rfl rfl
  | single given i ha =>
    have hgiven : Listing { s with given := given } := h.congr rfl rfl rfl rfl
    exact hgiven.act (.inl (Action.single_keepsListen ha))
  | recv hparsed rand hi => exact h.recv _ rand
  | close hi ff => exact (hgive _).close (h.conn_not_stub hi) ff
  | closeStub hop hi => exact ((hgive _).eraseStub _).close (hgive _).erased _
  | listen hostIp hostPort backlog => exact h.addStub rfl
  | accept hi ff => exact (hgive _).accept ff
  | promote hop hnone hroom hp => exact (hgive _).promote (findStub_mem hp).1 _ _ _
  | connect hnone ff rand => exact (hgive _).addConn _ _
  | exit hop hlive hpc => exact h.exit

end

theorem initial_listing (md : TcpData) : Listing (TcpModule.initial md) := by
  constructor
  · exact fun _ _ => rfl
  iterate 2
    intro _ hj
    cases hj
  · exact nodup_nil
  · exact nodup_nil
  all_goals
    intro _ hj
    cases hj

end FinsStack.Tcp
