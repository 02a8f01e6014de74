import FinsStack.Tcp.ModuleView
import FinsStack.Tcp.SegHeaders

/-!
# Listeners and their children

A listener keeps its children on `backlog_list` until an `accept` takes them, and a child
keeps its listener in `parent_conn`; both are plain pointers.  The way up is safe: a child that
is still in its handshake is on the backlog of a listener that runs, and a listener stops its
backlog before it ends, so the parent that is looked at when the handshake completes was not
freed.  No child is returned twice.

The way down is not: a child that ends before it was accepted (a reset, say) is freed by its
own main thread and nobody takes it off the backlog (`backlog_freed`).  That is the only way
(`related_iff_outlasting`).
-/

namespace FinsStack.Tcp

open TcpModule List Function

variable {s : TcpModule} {md : TcpData} {i j p d : Nat} {a : Action}

/-! ### One connection -/

def Opening (st : TcpState) : Prop := st = .synSent ∨ st = .synRecv

def Action.opens : Action → Bool
  | .listen _ | .connect _ _ => true
  | _ => false

def Entered (old new : TcpState) : Prop :=
  (new = .listen → old = .listen) ∧ (Opening new → Opening old)

theorem Entered.of_eq {old new : TcpState} (h : new = old) : Entered old new := by
  rw [h]
  exact ⟨id, id⟩

variable {c c' : TcpConn} {x y : Slot} {s' : TcpModule}

theorem tcpClose_entered (hs : c.state = .closed ∨ c.state = .listen) (ff : Fcf) :
    Entered c.state (tcpClose c ff).state := by
  cases hrun : c.runningFlag with
  | false =>
    simp only [tcpClose, hrun, Bool.false_eq_true, if_false]
    exact .of_eq rfl
  | true =>
    rcases hs with hs | hs
    · simp only [tcpClose, hrun, hs, if_true]
      exact .of_eq hs
    · have hclosed : (tcpClose c ff).state = .closed := by
        simp only [tcpClose, hrun, hs, if_true]
        exact (refusePending_view .inert _).state
      rw [hclosed]
      constructor
      · intro h
        cases h
      · rintro (h | h) <;> cases h

theorem OwnEdge.entered {old new : TcpState} {stop : Bool} (h : OwnEdge old new stop)
    (hclosed : old ≠ .closed) (hlisten : old ≠ .listen) : Entered old new := by
  cases h with
  | listen | connectClosed => exact absurd rfl hclosed
  | connectListen => exact absurd rfl hlisten
  | synAgain => exact ⟨fun h => (by cases h), fun _ => .inr rfl⟩
  | _ =>
    constructor
    · intro h
      cases h
    · rintro (h | h) <;> cases h

theorem step_entered (md : TcpData) (c : TcpConn) (hopens : a.opens = false) :
    Entered c.state (step c ⟨md, a⟩).state := by
  by_cases hs : c.state = .closed ∨ c.state = .listen
  · cases hrests : a.rests with
    | true => exact .of_eq (step_resting md hs hrests).1
    | false =>
      cases a with
      | close ff => exact tcpClose_entered hs ff
      | listen backlog | connect ff rand => cases hopens
      | _ => cases hrests
  · rw [not_or] at hs
    cases step_view c ⟨md, a⟩ with
    | inert hi | credit _ _ _ _ hi => exact .of_eq hi.state
    | move new stop c1 hrun he h₁ h₂ hstop =>
      rw [h₂.state]
      exact he.entered hs.1 hs.2
    | opening new d he hst _ _ hi =>
      rw [hi.state, hst]
      generalize c.state = old at he
      cases he with
      | synSent | simultaneous => exact ⟨fun h => (by cases h), fun _ => .inl rfl⟩
      | synRecv => exact ⟨fun h => (by cases h), fun _ => .inr rfl⟩
    | restart d hs hst _ _ hi => exact .of_eq ((hi.state.trans hst).trans hs.symm)
    | data seg _ _ hs _ hi hstop =>
      have hnot := not_early_of_handled (handled_states md seg hs hi) hstop
      constructor
      · intro h
        exact absurd ⟨by simp [EarlyState, h], by simp [h]⟩ hnot
      · intro h
        rcases h with h | h
        · exact absurd (early_of_synSent h) hnot
        · exact absurd (early_of_synRecv h) hnot

theorem step_listen_running (hs : c.state = .listen) (hkeeps : a.keepsListen)
    (hshut : a ≠ .shutdown) : (step c ⟨md, a⟩).runningFlag = c.runningFlag := by
  cases hrests : a.rests with
  | true => exact (step_resting md (.inr hs) hrests).2 hshut
  | false =>
    cases a with
    | listen backlog => simp only [step, tcpListen, hs, reduceCtorEq, and_false, if_false]
    | close ff | connect ff rand => cases hkeeps
    | _ => cases hrests

/-! ### Returned once -/

/-- **A connection is returned by one `accept` at most**, and then it is `signaled`. -/
structure Once (c : TcpConn) : Prop where
  early : Early c → c.signaled = false
  unsignaled : c.signaled = false → c.returned = 0
  atMost : c.returned ≤ 1

theorem Once.congr (h : Once c) (hearly : Early c' → Early c) (hsignaled : c'.signaled = c.signaled)
    (hreturned : c'.returned = c.returned) : Once c' where
  early := fun he => hsignaled.trans (h.early (hearly he))
  unsignaled := fun hs => hreturned.trans (h.unsignaled (hsignaled.symm.trans hs))
  atMost := hreturned ▸ h.atMost

theorem Once.signal {o : Out} (h : Once c) (hnot : c.signaled = false) (hlate : ¬ Early c')
    (hsignaled : c'.signaled) (hout : c'.out = c.out ++ [o]) : Once c' where
  early := fun he => absurd he hlate
  unsignaled := fun hs => by simp [hsignaled] at hs
  atMost := by
    rw [returned_append hout, h.unsignaled hnot, countP_singleton]
    split <;> omega

theorem not_early_of_established (h : c.state = .established) : ¬ Early c := by
  simp [Early, EarlyState, h]

theorem step_early (e : Event) (h : Early (step c e)) : Early c := by
  by_contra hnot
  exact (step_settled hnot e).1 h

theorem Once.arrival {env : RecvEnv} (h : Once c) (ha : Arrival c env c')
    (hearly : Early c' → Early c) : Once c' := by
  rcases ha with ⟨hcalm, -⟩ | ⟨e, hs, -, hopen, hshared, he, hsignal⟩
  · exact h.congr hearly hcalm.signaled hcalm.returned
  · have hfirst : Early c := by
      rcases hs with hs | hs
      · exact early_of_synSent hs
      · exact early_of_synRecv hs
    have hd : Once e := h.congr (fun _ => hfirst) he.signaled he.returned
    have hnot : e.signaled = false := he.signaled.trans (h.early hfirst)
    rcases hsignal with ⟨hc, -⟩ | ⟨ff, o, -, -, -, hc⟩ | ⟨p, ff, -, -, -, -, -, -, hc⟩
    · rw [hc]
      exact hd
    · rw [hc]
      exact hd.signal hnot (not_early_of_established hopen) rfl rfl
    · rw [hc]
      exact hd.signal hnot (not_early_of_established hopen) rfl rfl

theorem tcpAccept_cases (c : TcpConn) (ff : Fcf) (ready : Option Nat) :
    tcpAccept c ff ready = c ∨ tcpAccept c ff ready = { c with ff := some ff } ∨
      (∃ child, ready = some child ∧
        tcpAccept c ff ready = { c with backlog := c.backlog.erase child }) ∨
      ∃ retMsg, tcpAccept c ff ready = c.emit (.reply ff FCF_FALSE retMsg) := by
  simp only [tcpAccept]
  split
  · split
    · split
      · exact .inl rfl
      · split
        · exact .inr (.inl rfl)
        · exact .inr (.inr (.inl ⟨_, rfl, rfl⟩))
      · exact .inr (.inl rfl)
    · exact .inr (.inr (.inr ⟨0, rfl⟩))
  · exact .inr (.inr (.inr ⟨1, rfl⟩))

theorem tcpAccept_once (ff : Fcf) (ready : Option Nat) :
    (tcpAccept c ff ready).signaled = c.signaled ∧
      (tcpAccept c ff ready).returned = c.returned := by
  rcases tcpAccept_cases c ff ready with h | h | ⟨child, -, h⟩ | ⟨retMsg, h⟩ <;>
    rw [h]
  · exact ⟨rfl, rfl⟩
  · exact ⟨rfl, rfl⟩
  · exact ⟨rfl, rfl⟩
  · exact ⟨rfl, (Takes.reply c ff FCF_FALSE retMsg).returned⟩

theorem tcpConnect_once (ff : Fcf) (rand : UInt32) :
    (tcpConnect c ff rand).signaled = c.signaled ∧
      (tcpConnect c ff rand).returned = c.returned := by
  rcases tcpConnect_frame c ff rand with ⟨⟨n, h⟩, -⟩ | ⟨-, a, seg, h⟩
  · rw [h]
    exact ⟨rfl, (Takes.reply c ff FCF_FALSE n).returned⟩
  · rw [h]
    refine ⟨rfl, ?_⟩
    simp only [TcpConn.returned, countP_append]
    rfl

theorem tcpStubConnect_once (remIp : UInt32) (remPort : UInt16) :
    (tcpStubConnect c remIp remPort).signaled = c.signaled ∧
      (tcpStubConnect c remIp remPort).returned = c.returned := by
  simp only [tcpStubConnect]
  split
  · split
    · split
      · refine ⟨rfl, ?_⟩
        simp only [TcpConn.returned, countP_append]
        rfl
      · exact ⟨rfl, rfl⟩
    · exact ⟨rfl, rfl⟩
  · exact ⟨rfl, rfl⟩

theorem step_once (h : Once c) (hapart : RequestsApart c) (e : Event) : Once (step c e) := by
  have hearly := step_early (c := c) e
  obtain ⟨md, a⟩ := e
  cases hplain : a.plain with
  | true =>
    obtain ⟨rs, htakes⟩ := step_plain md hapart hplain
    exact h.congr hearly htakes.signaled htakes.returned
  | false =>
    cases a with
    | recv seg env =>
      cases htakes : c.takesChild seg env.known env.room with
      | true =>
        have hc : step c ⟨md, .recv seg env⟩ = { c with backlog := c.backlog ++ [env.child] } :=
          (tcpRecv_child md htakes).2.2
        apply h.congr hearly
        · rw [hc]
        · rw [hc]
          rfl
      | false => exact h.arrival (tcpRecv_arrival md htakes) hearly
    | accept ff ready =>
      obtain ⟨hsignaled, hreturned⟩ := tcpAccept_once (c := c) ff ready
      exact h.congr hearly hsignaled hreturned
    | search ff =>
      simp only [step, tcpConnSearch]
      split
      · rename_i hready
        exact h.signal hready.2.2 (not_early_of_established hready.2.1) rfl rfl
      · exact h
    | connect ff rand =>
      obtain ⟨hsignaled, hreturned⟩ := tcpConnect_once (c := c) ff rand
      exact h.congr hearly hsignaled hreturned
    | stubConnect remIp remPort =>
      obtain ⟨hsignaled, hreturned⟩ := tcpStubConnect_once (c := c) remIp remPort
      exact h.congr hearly hsignaled hreturned
    | childAccepted child =>
      apply h.congr hearly
      · simp only [step, childAccepted]
        split <;> rfl
      · simp only [step, childAccepted]
        split <;> rfl
    | _ => cases hplain

/-! ### Parents and children -/

structure TcpModule.ListensFor (s : TcpModule) (p i : Nat) : Prop where
  parent : (s.slots i).parent = some p
  live : (s.slots p).freed = false
  running : (s.slots p).conn.runningFlag = true
  listen : (s.slots p).conn.state = .listen
  mem : i ∈ (s.slots p).conn.backlog

/-- **What holds of parents and children** as long as nobody is freed on the backlog of a
    listener. -/
structure Family (s : TcpModule) : Prop where
  spare : ∀ i, s.next ≤ i → (s.slots i).parent = none
  backlog : ∀ p, ∀ d ∈ (s.slots p).conn.backlog,
    (s.slots d).parent = some p ∧ (s.slots d).conn.signaled = false
  nodup : ∀ p, (s.slots p).conn.backlog.Nodup
  child : ∀ i p, (s.slots i).parent = some p → (s.slots i).conn.activeOpen = false ∧
    (s.slots i).conn.ff = none ∧ (s.slots i).stubList = false ∧ (s.slots i).conn.state ≠ .listen
  opening : ∀ i, (s.slots i).freed = false → (s.slots i).conn.runningFlag = true →
    Opening (s.slots i).conn.state → (s.slots i).conn.activeOpen = false → ∃ p, s.ListensFor p i
  onConn : ∀ i, (s.slots i).freed = false → (s.slots i).stubList = false → i ∈ s.connList
  alive : ∀ p, (s.slots p).freed = false → (s.slots p).conn.state = .listen →
    ∀ d ∈ (s.slots p).conn.backlog, (s.slots d).freed = false

structure Slot.Alike (x y : Slot) : Prop where
  parent : y.parent = x.parent
  flag : y.stubList = x.stubList
  freed : y.freed = x.freed
  activeOpen : y.conn.activeOpen = x.conn.activeOpen ∨
    x.parent = none ∧ y.conn.activeOpen = true
  ff : y.conn.ff = x.conn.ff ∨ y.conn.ff = none ∨ x.parent = none
  running : y.conn.runningFlag = true → x.conn.runningFlag = true
  listen : y.conn.state = .listen → x.conn.state = .listen
  opening : y.conn.activeOpen = false → Opening y.conn.state → Opening x.conn.state

theorem Slot.Alike.refl (x : Slot) : x.Alike x :=
  ⟨rfl, rfl, rfl, .inl rfl, .inl rfl, id, id, fun _ h => h⟩

/-- The connections change by calls: nobody joins a backlog, who stays on one was not taken, and
    whoever is in the handshake keeps its listener. -/
theorem Family.slots (h : Family s) (hnext : s'.next = s.next)
    (hconn : ∀ j ∈ s.connList, j ∈ s'.connList) (hf : ∀ j, (s.slots j).Alike (s'.slots j))
    (hbacklog : ∀ p, ∀ d ∈ (s'.slots p).conn.backlog,
      d ∈ (s.slots p).conn.backlog ∧ (s'.slots d).conn.signaled = false)
    (hnodup : ∀ p, (s'.slots p).conn.backlog.Nodup)
    (hstill : ∀ p i, s.ListensFor p i → (s.slots i).freed = false →
      (s'.slots i).conn.runningFlag = true → Opening (s'.slots i).conn.state →
      (s'.slots p).conn.runningFlag = true ∧ (s'.slots p).conn.state = .listen ∧
        i ∈ (s'.slots p).conn.backlog) : Family s' := by
  constructor
  · intro i hi
    exact (hf i).parent.trans (h.spare i (hnext ▸ hi))
  · intro p d hd
    obtain ⟨hmem, hsignaled⟩ := hbacklog p d hd
    exact ⟨(hf d).parent.trans (h.backlog p d hmem).1, hsignaled⟩
  · exact hnodup
  · intro i p hp
    have hparent : (s.slots i).parent = some p := (hf i).parent.symm.trans hp
    obtain ⟨hpassive, hff, hflag, hlisten⟩ := h.child i p hparent
    refine ⟨?_, ?_, (hf i).flag.trans hflag, fun hs => hlisten ((hf i).listen hs)⟩
    · rcases (hf i).activeOpen with ho | ⟨hnone, -⟩
      · exact ho.trans hpassive
      · rw [hnone] at hparent
        cases hparent
    · rcases (hf i).ff with ho | ho | hnone
      · exact ho.trans hff
      · exact ho
      · rw [hnone] at hparent
        cases hparent
  · intro i hlive hrun hs hpassive
    have hwas : (s.slots i).conn.activeOpen = false := by
      rcases (hf i).activeOpen with ho | ⟨-, ho⟩
      · exact ho.symm.trans hpassive
      · rw [ho] at hpassive
        cases hpassive
    obtain ⟨p, hp⟩ := h.opening i ((hf i).freed.symm.trans hlive) ((hf i).running hrun)
      ((hf i).opening hpassive hs) hwas
    obtain ⟨hprun, hplisten, hmem⟩ := hstill p i hp ((hf i).freed.symm.trans hlive) hrun hs
    exact ⟨p, (hf i).parent.trans hp.parent, (hf p).freed.trans hp.live, hprun, hplisten, hmem⟩
  · intro i hlive hflag
    exact hconn i (h.onConn i ((hf i).freed.symm.trans hlive) ((hf i).flag.symm.trans hflag))
  · intro p hlive hs d hd
    exact (hf d).freed.trans (h.alive p ((hf p).freed.symm.trans hlive) ((hf p).listen hs) d
      (hbacklog p d hd).1)

def Slot.adopts (x : Slot) (l : List Nat) : Slot :=
  { x with conn := { x.conn with backlog := x.conn.backlog ++ l } }

structure TcpModule.Adopts (s : TcpModule) (p : Nat) (x : Slot) : Prop where
  live : (s.slots p).freed = false
  running : (s.slots p).conn.runningFlag = true
  listen : (s.slots p).conn.state = .listen
  fresh : x.conn.activeOpen = false ∧ x.conn.ff = none ∧ x.stubList = false ∧
    x.conn.state ≠ .listen
  signaled : x.conn.signaled = false
  new : x.freed = false

structure Slot.Kin (x y : Slot) : Prop extends Slot.Alike x y where
  backlog : y.conn.backlog = x.conn.backlog
  signaled : y.conn.signaled = x.conn.signaled ∨ x.parent = none

theorem Slot.Kin.refl (x : Slot) : x.Kin x := ⟨.refl x, rfl, .inl rfl⟩

theorem Slot.Kin.trans {z : Slot} (h₁ : x.Kin y) (h₂ : y.Kin z) : x.Kin z := by
  have hnone : ∀ {P : Prop}, (P ∨ y.parent = none) → P ∨ x.parent = none := fun h =>
    h.imp_right fun hy => h₁.parent.symm.trans hy
  refine ⟨⟨h₂.parent.trans h₁.parent, h₂.flag.trans h₁.flag, h₂.freed.trans h₁.freed, ?_, ?_,
    fun h => h₁.running (h₂.running h), fun h => h₁.listen (h₂.listen h), ?_⟩,
    h₂.backlog.trans h₁.backlog, ?_⟩
  · rcases h₂.activeOpen with ho | ⟨hy, ho⟩
    · rw [ho]
      exact h₁.activeOpen
    · exact .inr ⟨h₁.parent.symm.trans hy, ho⟩
  · rcases h₂.ff with ho | ho | hy
    · rw [ho]
      exact h₁.ff
    · exact .inr (.inl ho)
    · exact .inr (.inr (h₁.parent.symm.trans hy))
  · intro hpassive hs
    have hwas : y.conn.activeOpen = false := by
      rcases h₂.activeOpen with ho | ⟨-, ho⟩
      · exact ho.symm.trans hpassive
      · rw [ho] at hpassive
        cases hpassive
    exact h₁.opening hwas (h₂.opening hpassive hs)
  · rcases hnone h₂.signaled with ho | hx
    · rw [ho]
      exact h₁.signaled
    · exact .inr hx

theorem Family.kin (h : Family s) (hnext : s'.next = s.next)
    (hconn : ∀ j ∈ s.connList, j ∈ s'.connList) (hf : ∀ j, (s.slots j).Kin (s'.slots j))
    (hlisten : ∀ p, (s.slots p).freed = false → (s.slots p).conn.runningFlag →
      (s.slots p).conn.state = .listen →
      (s'.slots p).conn.runningFlag = true ∧ (s'.slots p).conn.state = .listen ∨
        ∀ i ∈ (s.slots p).conn.backlog, (s.slots i).freed = false →
          (s'.slots i).conn.runningFlag = false) : Family s' := by
  apply h.slots hnext hconn fun j => (hf j).toAlike
  · intro p d hd
    rw [(hf p).backlog] at hd
    obtain ⟨hparent, hsignaled⟩ := h.backlog p d hd
    refine ⟨hd, ?_⟩
    rcases (hf d).signaled with ho | hnone
    · exact ho.trans hsignaled
    · rw [hnone] at hparent
      cases hparent
  · intro p
    rw [(hf p).backlog]
    exact h.nodup p
  · intro p i hp hlive hrun _
    rcases hlisten p hp.live hp.running hp.listen with ⟨hprun, hplisten⟩ | hstopped
    · rw [(hf p).backlog]
      exact ⟨hprun, hplisten, hp.mem⟩
    · rw [hstopped i hp.mem hlive] at hrun
      cases hrun

theorem Family.relist (h : Family s) (hslots : s'.slots = s.slots) (hnext : s'.next = s.next)
    (hconn : ∀ i ∈ s.connList, i ∈ s'.connList) : Family s' := by
  apply h.kin hnext hconn
  · intro j
    rw [hslots]
    exact .refl _
  · intro p _ hrun hs
    rw [hslots]
    exact .inl ⟨hrun, hs⟩

/-! ### Calls -/

theorem Slot.kin_of_step (h : x.Kin { x with conn := step x.conn ⟨md, a⟩ }) :
    x.Kin (x.act md a) := by
  cases hx : x.freed with
  | true =>
    rw [Slot.act_freed hx]
    exact .refl x
  | false => rwa [Slot.act_live hx]

theorem Slot.takes_kin {rs : List Request} (h : Takes rs x.conn (step x.conn ⟨md, a⟩))
    (hopens : a.opens = false) : x.Kin (x.act md a) := by
  refine Slot.kin_of_step ?_
  obtain ⟨hlisten, hopening⟩ := step_entered md x.conn hopens
  exact ⟨⟨rfl, rfl, rfl, .inl h.activeOpen, h.ff.imp_right .inl, h.running, hlisten,
    fun _ => hopening⟩, h.backlog, .inl h.signaled⟩

theorem Slot.shutdown_kin (x : Slot) : x.Kin (x.act md .shutdown) :=
  Slot.takes_kin (tcpConnShutdown_view .calm x.conn) rfl

theorem Slot.shutdown_stops (h : x.freed = false) :
    (x.act md .shutdown).conn.runningFlag = false := by
  rw [Slot.act_live h]
  rfl

theorem Slot.accept_kin (hparent : x.parent = none) (ff : Fcf) :
    x.Kin (x.act md (.accept ff none)) := by
  refine Slot.kin_of_step ?_
  simp only [step]
  rcases tcpAccept_cases x.conn ff none with h | h | ⟨child, hnone, -⟩ | ⟨retMsg, h⟩
  · rw [h]
    exact .refl x
  · rw [h]
    exact ⟨⟨rfl, rfl, rfl, .inl rfl, .inr (.inr hparent), id, id, fun _ h => h⟩, rfl, .inl rfl⟩
  · cases hnone
  · rw [h]
    exact ⟨⟨rfl, rfl, rfl, .inl rfl, .inl rfl, id, id, fun _ h => h⟩, rfl, .inl rfl⟩

theorem Slot.search_alike (md : TcpData) (hready : x.ready) (ff : Fcf) :
    x.Alike (x.act md (.search ff)) ∧
      (x.act md (.search ff)).conn.backlog = x.conn.backlog ∧
      ¬ Opening (x.act md (.search ff)).conn.state := by
  simp only [Slot.ready, Bool.and_eq_true, Bool.not_eq_true', beq_iff_eq] at hready
  obtain ⟨⟨⟨hlive, hrun⟩, hs⟩, hsignaled⟩ := hready
  rw [Slot.act_live hlive]
  simp only [step, tcpConnSearch, hrun, hs, hsignaled, and_self, if_true]
  refine ⟨⟨rfl, rfl, rfl, .inl rfl, .inl rfl, fun _ => hrun, ?_, ?_⟩, trivial, ?_⟩
  · intro h
    cases h
  · rintro _ (h | h) <;> cases h
  · rintro (h | h) <;> cases h

theorem Slot.connect_kin (hparent : x.parent = none) (hs : x.conn.state = .listen) (ff : Fcf)
    (rand : UInt32) : x.Kin (x.act md (.connect ff rand)) := by
  refine Slot.kin_of_step ?_
  simp only [step, tcpConnect, hs, or_true, if_true]
  split
  · rename_i hrun
    obtain ⟨k, seg, h⟩ := sendControl_frame
      (startSend { x.conn.setState .synSent with activeOpen := true, ff := some ff } rand) FLAG_SYN
    rw [h]
    refine ⟨⟨rfl, rfl, rfl, .inr ⟨hparent, rfl⟩, .inr (.inr hparent), fun _ => hrun, fun _ => hs,
      ?_⟩, rfl, .inl rfl⟩
    intro hpassive
    cases hpassive
  · exact ⟨⟨rfl, rfl, rfl, .inl rfl, .inl rfl, id, id, fun _ h => h⟩, rfl, .inl rfl⟩

theorem Slot.stubConnect_kin (md : TcpData) (x : Slot) (remIp : UInt32) (remPort : UInt16) :
    x.Kin (x.act md (.stubConnect remIp remPort)) := by
  refine Slot.kin_of_step ?_
  simp only [step, tcpStubConnect]
  split
  · split
    · split
      · exact ⟨⟨rfl, rfl, rfl, .inl rfl, .inr (.inl rfl), id, id, fun _ h => h⟩, rfl, .inl rfl⟩
      · exact ⟨⟨rfl, rfl, rfl, .inl rfl, .inl rfl, id, id, fun _ h => h⟩, rfl, .inl rfl⟩
    · exact ⟨⟨rfl, rfl, rfl, .inl rfl, .inl rfl, id, id, fun _ h => h⟩, rfl, .inl rfl⟩
  · exact ⟨⟨rfl, rfl, rfl, .inl rfl, .inl rfl, id, id, fun _ h => h⟩, rfl, .inl rfl⟩

theorem tcpListenChild_new (md : TcpData) (parent : TcpConn) (seg : TcpSeg) (rand : UInt32) :
    (tcpListenChild md parent seg rand).activeOpen = false ∧
      (tcpListenChild md parent seg rand).ff = none ∧
      (tcpListenChild md parent seg rand).state = .synRecv ∧
      (tcpListenChild md parent seg rand).signaled = false ∧
      (tcpListenChild md parent seg rand).backlog = [] ∧
      (tcpListenChild md parent seg rand).returned = 0 := by
  obtain ⟨o, a, ack, h⟩ := tcpListenChild_frame md parent seg rand
  rw [h]
  exact ⟨rfl, rfl, rfl, rfl, rfl, rfl⟩

theorem Slot.Kin.update {f : Nat → Slot} (h : (f i).Kin y) (j : Nat) :
    (f j).Kin (update f i y j) :=
  (forall_update_iff f fun j y => (f j).Kin y).mpr ⟨h, fun _ _ => .refl _⟩ j

theorem TcpModule.shutdownAll_kin (md : TcpData) (l : List Nat) (j : Nat) :
    (s.slots j).Kin ((s.shutdownAll md l).slots j) := by
  simp only [TcpModule.shutdownAll]
  split
  · exact Slot.shutdown_kin _
  · exact .refl _

section

variable (h : Family s)
include h

theorem Family.notMem_backlog (hs : (s.slots p).conn.state = .listen) (q : Nat) :
    p ∉ (s.slots q).conn.backlog := by
  intro hmem
  exact (h.child p q (h.backlog q p hmem).1).2.2.2 hs

theorem Family.parent_none (hs : (s.slots p).conn.state = .listen) : (s.slots p).parent = none := by
  by_contra hne
  obtain ⟨q, hq⟩ := Option.ne_none_iff_exists'.mp hne
  exact (h.child p q hq).2.2.2 hs

theorem Family.act (hkin : (s.slots i).Kin ((s.slots i).act md a)) (hkeeps : a.keepsListen)
    (hshut : a ≠ .shutdown) : Family (s.act md i a) := by
  refine h.kin rfl (fun _ hj => hj) (hkin.update (f := s.slots)) ?_
  intro p hlive hrun hs
  left
  by_cases hp : p = i
  · subst hp
    simp only [TcpModule.act, update_self, Slot.act_live hlive]
    exact ⟨(step_listen_running hs hkeeps hshut).trans hrun, step_listen hs hkeeps⟩
  · rw [act_other hp]
    exact ⟨hrun, hs⟩

theorem Family.plain (hw : AllWriting s) (hplain : a.plain) (hopens : a.opens = false)
    (hkeeps : a.keepsListen) (hshut : a ≠ .shutdown) : Family (s.act md i a) := by
  obtain ⟨rs, htakes⟩ := step_plain md (hw i).addrs_nodup hplain
  exact h.act (Slot.takes_kin htakes hopens) hkeeps hshut

theorem Family.shutdownAll (md : TcpData) (q : Nat) :
    Family (s.shutdownAll md (s.slots q).conn.backlog) := by
  refine h.kin rfl (fun _ hj => hj) (shutdownAll_kin md _) ?_
  intro p hlive hrun hs
  left
  have hsame := shutdownAll_notMem (s := s) md (h.notMem_backlog hs q)
  exact ⟨(congrArg (fun x => x.conn.runningFlag) hsame).trans hrun,
    (congrArg (fun x => x.conn.state) hsame).trans hs⟩

theorem Family.close (ff : Fcf) : Family (s.close md i ff) := by
  have hclose : (s.slots i).Kin ((s.slots i).act md (.close ff)) :=
    Slot.takes_kin (tcpClose_takes _ ff) rfl
  simp only [TcpModule.close]
  split
  · rename_i hlistens
    simp only [Slot.listens, Bool.and_eq_true, Bool.not_eq_true', beq_iff_eq] at hlistens
    generalize hs1 : s.act md i (.close ff) = s1
    have hact : ∀ j, (s.slots j).Kin (s1.slots j) := hs1 ▸ hclose.update (f := s.slots)
    have hlists : s1.next = s.next ∧ s1.connList = s.connList := by
      rw [← hs1]
      exact ⟨rfl, rfl⟩
    refine h.kin hlists.1 (fun j hj => hlists.2.symm ▸ hj)
      (fun j => (hact j).trans (shutdownAll_kin md _ j)) ?_
    intro p hlive hrun hs
    by_cases hp : p = i
    · right
      subst hp
      intro d hd hdlive
      rw [shutdownAll_mem hd]
      exact Slot.shutdown_stops ((hact d).freed.trans hdlive)
    · left
      rw [shutdownAll_notMem md (h.notMem_backlog hs i), ← hs1, act_other hp]
      exact ⟨hrun, hs⟩
  · rename_i hnot
    refine h.kin rfl (fun _ hj => hj) (hclose.update (f := s.slots)) ?_
    intro p hlive hrun hs
    left
    have hp : p ≠ i := by
      rintro rfl
      simp [Slot.listens, hlive, hrun, hs] at hnot
    rw [act_other hp]
    exact ⟨hrun, hs⟩

theorem Family.taken (hd : d ∈ (s.slots p).conn.backlog) (hne : d ≠ p)
    (hx : (s.slots d).Alike x) (hxbacklog : x.conn.backlog = (s.slots d).conn.backlog)
    (hxopen : ¬ Opening x.conn.state) (hy : (s.slots p).Alike y)
    (hybacklog : y.conn.backlog = (s.slots p).conn.backlog.erase d)
    (hysignaled : y.conn.signaled = (s.slots p).conn.signaled)
    (hyrunning : y.conn.runningFlag = (s.slots p).conn.runningFlag)
    (hystate : y.conn.state = (s.slots p).conn.state) :
    Family { s with slots := update (update s.slots d x) p y } := by
  generalize hf : update (update s.slots d x) p y = f
  have hparent := (h.backlog p d hd).1
  have hfp : f p = y := by rw [← hf, update_self]
  have hfd : f d = x := by rw [← hf, update_of_ne hne, update_self]
  have hother : ∀ j, j ≠ d → j ≠ p → f j = s.slots j := fun j hjd hjp => by
    rw [← hf, update_of_ne hjp, update_of_ne hjd]
  -- everybody else on a backlog is as before
  have hsignaled : ∀ q e, e ∈ (s.slots q).conn.backlog → e ≠ d → (f e).conn.signaled = false := by
    intro q e he hed
    by_cases hep : e = p
    · rw [hep, hfp, hysignaled, ← hep]
      exact (h.backlog q e he).2
    · rw [hother e hed hep]
      exact (h.backlog q e he).2
  have honly : ∀ q, d ∈ (s.slots q).conn.backlog → q = p := by
    intro q hq
    have hsame := (h.backlog q d hq).1
    rw [hparent] at hsame
    exact (Option.some.inj hsame).symm
  refine h.slots rfl (fun _ hj => hj) ?_ ?_ ?_ ?_ <;> dsimp only
  · intro j
    by_cases hjp : j = p
    · rw [hjp, hfp]
      exact hy
    by_cases hjd : j = d
    · rw [hjd, hfd]
      exact hx
    · rw [hother j hjd hjp]
      exact .refl _
  · intro q e he
    by_cases hqp : q = p
    · subst hqp
      rw [hfp, hybacklog] at he
      have hed : e ≠ d := fun heq => (h.nodup q).not_mem_erase (heq ▸ he)
      have hmem := mem_of_mem_erase he
      exact ⟨hmem, hsignaled q e hmem hed⟩
    · have hmem : e ∈ (s.slots q).conn.backlog := by
        by_cases hqd : q = d
        · rw [hqd, hfd, hxbacklog] at he
          rw [hqd]
          exact he
        · rwa [hother q hqd hqp] at he
      exact ⟨hmem, hsignaled q e hmem fun heq => hqp (honly q (heq ▸ hmem))⟩
  · intro q
    by_cases hqp : q = p
    · rw [hqp, hfp, hybacklog]
      exact (h.nodup p).erase d
    by_cases hqd : q = d
    · rw [hqd, hfd, hxbacklog]
      exact h.nodup d
    · rw [hother q hqd hqp]
      exact h.nodup q
  · intro q j hq _ _ hopen
    have hjd : j ≠ d := by
      rintro rfl
      rw [hfd] at hopen
      exact hxopen hopen
    by_cases hqp : q = p
    · subst hqp
      rw [hfp, hyrunning, hystate, hybacklog]
      exact ⟨hq.running, hq.listen, (mem_erase_of_ne hjd).mpr hq.mem⟩
    · have hqd : q ≠ d := by
        rintro rfl
        exact (h.child q p hparent).2.2.2 hq.listen
      rw [hother q hqd hqp]
      exact ⟨hq.running, hq.listen, hq.mem⟩

theorem Family.join (hself : s'.slots s.next = x)
    (hold : ∀ j, j ≠ s.next → s'.slots j =
      (s.slots j).adopts (if x.parent = some j then [s.next] else []))
    (hnext : s'.next = s.next + 1) (hconn : ∀ j ∈ s.connList, j ∈ s'.connList)
    (hlist : Listing s) (hempty : x.conn.backlog = [])
    (hopening : x.parent = none → Opening x.conn.state → x.conn.activeOpen)
    (hchild : ∀ p, x.parent = some p → s.Adopts p x)
    (hflag : x.stubList = false → s.next ∈ s'.connList) : Family s' := by
  have hold' : ∀ {j q}, (s.slots j).parent = some q → j ≠ s.next := by
    rintro j q hj rfl
    rw [h.spare s.next (Nat.le_refl _)] at hj
    cases hj
  have hmem : ∀ {q e}, e ∈ (s'.slots q).conn.backlog →
      q ≠ s.next ∧ (e ∈ (s.slots q).conn.backlog ∨ x.parent = some q ∧ e = s.next) := by
    intro q e he
    by_cases hq : q = s.next
    · rw [hq, hself, hempty] at he
      cases he
    · rw [hold q hq] at he
      refine ⟨hq, (mem_append.mp he).imp_right fun hnew => ?_⟩
      split at hnew
      · exact ⟨‹_›, mem_singleton.mp hnew⟩
      · cases hnew
  constructor
  · intro j hj
    rw [hold j (by omega)]
    exact h.spare j (by omega)
  · intro q e he
    obtain ⟨hq, he | ⟨hp, rfl⟩⟩ := hmem he
    · have hkid := h.backlog q e he
      rw [hold e (hold' hkid.1)]
      exact hkid
    · rw [hself]
      exact ⟨hp, (hchild q hp).signaled⟩
  · intro q
    by_cases hq : q = s.next
    · rw [hq, hself, hempty]
      exact nodup_nil
    · rw [hold q hq]
      refine nodup_append.mpr ⟨h.nodup q, ?_, ?_⟩
      · split <;> simp
      · rintro e he e' he' rfl
        split at he'
        · exact hold' (h.backlog q e he).1 (mem_singleton.mp he')
        · cases he'
  · intro j q hj
    by_cases hjn : j = s.next
    · rw [hjn, hself] at hj ⊢
      exact (hchild q hj).fresh
    · rw [hold j hjn] at hj ⊢
      exact h.child j q hj
  · intro j hlive hrun hs hpassive
    by_cases hjn : j = s.next
    · rw [hjn, hself] at hs hpassive
      cases hp : x.parent with
      | none =>
        rw [hopening hp hs] at hpassive
        cases hpassive
      | some p =>
        have ha := hchild p hp
        have hpn : p ≠ s.next := Nat.ne_of_lt (hlist.live_lt ha.live)
        refine ⟨p, by rw [hjn, hself, hp], ?_, ?_, ?_, ?_⟩ <;> rw [hold p hpn]
        · exact ha.live
        · exact ha.running
        · exact ha.listen
        · simp [Slot.adopts, hp, hjn]
    · rw [hold j hjn] at hlive hrun hs hpassive
      obtain ⟨q, hq⟩ := h.opening j hlive hrun hs hpassive
      have hqn : q ≠ s.next := Nat.ne_of_lt (hlist.live_lt hq.live)
      refine ⟨q, by rw [hold j hjn]; exact hq.parent, ?_, ?_, ?_, ?_⟩ <;> rw [hold q hqn]
      · exact hq.live
      · exact hq.running
      · exact hq.listen
      · exact mem_append_left _ hq.mem
  · intro j hlive hj
    by_cases hjn : j = s.next
    · rw [hjn, hself] at hj
      rw [hjn]
      exact hflag hj
    · rw [hold j hjn] at hlive hj
      exact hconn j (h.onConn j hlive hj)
  · intro q hlive hs e he
    obtain ⟨hq, he | ⟨hp, rfl⟩⟩ := hmem he
    · rw [hold q hq] at hlive hs
      rw [hold e (hold' (h.backlog q e he).1)]
      exact h.alive q hlive hs e he
    · rw [hself]
      exact (hchild q hp).new

theorem Family.addNew
    (hslots : s'.slots = update s.slots s.next x) (hnext : s'.next = s.next + 1)
    (hconn : ∀ j ∈ s.connList, j ∈ s'.connList) (hlist : Listing s) (hparent : x.parent = none)
    (hempty : x.conn.backlog = []) (hopening : Opening x.conn.state → x.conn.activeOpen)
    (hflag : x.stubList = false → s.next ∈ s'.connList) : Family s' := by
  refine h.join (by rw [hslots, update_self]) (fun j hj => ?_) hnext hconn hlist hempty
    (fun _ => hopening) (by simp [hparent]) hflag
  simp [hslots, update_of_ne hj, hparent, Slot.adopts]

theorem Family.adopt (hlist : Listing s)
    (hy : y = (s.slots p).adopts [s.next]) (ha : s.Adopts p ⟨c, false, some p, false⟩)
    (hempty : c.backlog = []) :
    Family (({ s with slots := update s.slots p y } : TcpModule).addConn c (some p)) := by
  refine h.join (x := ⟨c, false, some p, false⟩) addConn_new (fun j hj => ?_) rfl
    (fun j hj => mem_append_left _ hj) hlist hempty nofun ?_
    fun _ => mem_append_right _ (mem_singleton_self _)
  · refine (update_of_ne hj ..).trans ?_
    by_cases hjp : j = p
    · subst hjp
      simp [hy]
    · simp [update_of_ne hjp, Ne.symm hjp, Slot.adopts]
  · rintro q ⟨⟩
    exact ha

/-- An `accept`: the first child that is ready is taken off the backlog. -/
theorem Family.accept (hs : (s.slots i).conn.state = .listen) (ff : Fcf) :
    Family (s.accept md i ff) := by
  have hwait : Family (s.act md i (.accept ff none)) :=
    h.act (Slot.accept_kin (h.parent_none hs) ff) rfl nofun
  simp only [TcpModule.accept]
  split
  · rename_i hlistens
    simp only [Slot.listens, Bool.and_eq_true, Bool.not_eq_true', beq_iff_eq,
      Option.isNone_iff_eq_none] at hlistens
    obtain ⟨⟨⟨hlive, hrun⟩, -⟩, hff⟩ := hlistens
    split
    · rename_i d hfind
      have hd : d ∈ (s.slots i).conn.backlog := mem_of_find?_eq_some hfind
      have hne : d ≠ i := ne_of_mem_of_not_mem hd (h.notMem_backlog hs i)
      have hready : (s.slots d).ready := by simpa only using find?_some hfind
      obtain ⟨hx, hxbacklog, hxopen⟩ := Slot.search_alike md hready ff
      have hy : (s.slots i).act md (.accept ff (some d)) = { s.slots i with
          conn := { (s.slots i).conn with backlog := (s.slots i).conn.backlog.erase d } } := by
        rw [Slot.act_live hlive]
        simp only [step, tcpAccept, hrun, hs, hff, ne_nil_of_mem hd, if_true, if_false]
      simp only [TcpModule.act, update_of_ne hne.symm]
      apply h.taken hd hne hx hxbacklog hxopen <;> rw [hy]
      exact ⟨rfl, rfl, rfl, .inl rfl, .inl rfl, id, id, fun _ h => h⟩
    · exact hwait
  · exact hwait

theorem Family.recv (hlist : Listing s) (seg : TcpSeg) (rand : UInt32) :
    Family (s.recv md i seg rand) := by
  cases hlive : (s.slots i).freed with
  | true =>
    simp only [TcpModule.recv, hlive, if_true]
    exact h
  | false =>
    have hentered := step_entered (a := .recv seg (s.recvEnv i seg rand)) md (s.slots i).conn rfl
    have hslot : (s.slots i).act md (.recv seg (s.recvEnv i seg rand)) = { s.slots i with
        conn := step (s.slots i).conn ⟨md, .recv seg (s.recvEnv i seg rand)⟩ } :=
      Slot.act_live hlive
    have hcases := recv_cases md hlive seg rand
    generalize step (s.slots i).conn ⟨md, .recv seg (s.recvEnv i seg rand)⟩ = c' at *
    generalize s.recv md i seg rand = s' at *
    -- the connection alone is changed
    have halone : (s.slots i).Kin { s.slots i with conn := c' } →
        Family (s.act md i (.recv seg (s.recvEnv i seg rand))) := by
      intro hkin
      apply h.act (hslot.symm ▸ hkin) rfl
      intro heq
      cases heq
    rcases hcases with hcalm | ⟨hrun, hs, -, -, hc⟩ |
      ⟨e, ff, o, hs, -, hshared, he, hff, -, -, hc⟩ |
      ⟨e, p, ff, hs, hself, hopen, hshared, he, hnone, hpassive, hp, hprun, hplisten, hpff, hc⟩
    · apply halone
      exact ⟨⟨rfl, rfl, rfl, .inl hcalm.activeOpen, hcalm.ff.imp_right .inl, hcalm.running,
        hentered.1, fun _ => hentered.2⟩, hcalm.backlog, .inl hcalm.signaled⟩
    · obtain ⟨hpassive, hff, hstate, hsignaled, hempty, -⟩ :=
        tcpListenChild_new md (s.slots i).conn seg rand
      refine h.adopt hlist ?_ ⟨hlive, hrun, hs, ⟨hpassive, hff, rfl, ?_⟩, hsignaled, rfl⟩ hempty
      · rw [hslot, hc]
        rfl
      · simp [hstate]
    · -- a connection with a call of its own is nobody's child
      have hparent : (s.slots i).parent = none := by
        by_contra hne
        obtain ⟨q, hq⟩ := Option.ne_none_iff_exists'.mp hne
        have hown : (s.slots i).conn.ff = some ff :=
          (congrArg (fun t => t.2.2.2.2.1) hshared).symm.trans hff
        rw [(h.child i q hq).2.1] at hown
        cases hown
      apply halone
      rw [hc] at hentered ⊢
      exact ⟨⟨rfl, rfl, rfl, .inl he.activeOpen, .inr (.inl rfl), he.running, hentered.1,
        fun _ => hentered.2⟩, he.backlog, .inr hparent⟩
    · have hplive : (s.slots p).freed = false ∧ i ∈ (s.slots p).conn.backlog := by
        have hwas : (s.slots i).conn.activeOpen = false :=
          (congrArg (fun t => t.2.2.1) hshared).symm.trans hpassive
        obtain ⟨q, hq⟩ := h.opening i hlive hself hs hwas
        have heq : q = p := Option.some.inj (hq.parent.symm.trans hp)
        exact heq ▸ ⟨hq.live, hq.mem⟩
      have hne : i ≠ p := ne_of_mem_of_not_mem hplive.2 (h.notMem_backlog hplisten p)
      have hy : (s.slots p).act md (.childAccepted i) = { s.slots p with
          conn := { (s.slots p).conn with
            backlog := (s.slots p).conn.backlog.erase i, ff := none } } := by
        rw [Slot.act_live hplive.1]
        simp only [step, childAccepted, hprun, hplisten, hpff, Option.isSome_some, and_self,
          if_true]
      have hx : (s.slots i).Alike { s.slots i with conn := c' } := by
        rw [hc] at hentered ⊢
        exact ⟨rfl, rfl, rfl, .inl he.activeOpen, he.ff.imp_right .inl, he.running, hentered.1,
          fun _ => hentered.2⟩
      simp only [TcpModule.act, update_of_ne hne.symm, hslot]
      apply h.taken hplive.2 hne hx
      · rw [hc]
        exact he.backlog
      · rw [hc]
        rintro (heq | heq) <;> rw [hopen] at heq <;> cases heq
      all_goals rw [hy]
      exact ⟨rfl, rfl, rfl, .inl rfl, .inr (.inl rfl), id, id, fun _ h => h⟩

theorem Family.connectNew (hlist : Listing s) (addr : ConnAddr) (ff : Fcf) (rand : UInt32) :
    Family (s.connectNew md addr ff rand) := by
  obtain ⟨k, seg, hsend⟩ := sendControl_frame
    (startSend { (tcpConnCreate md addr).setState .synSent with activeOpen := true, ff := some ff }
      rand) FLAG_SYN
  have hnew : step (tcpConnCreate md addr) ⟨md, .connect ff rand⟩ =
      { sendControl (startSend { (tcpConnCreate md addr).setState .synSent with
          activeOpen := true, ff := some ff } rand) FLAG_SYN with timeout := TCP_GBN_TO_DEFAULT } :=
    rfl
  apply h.addNew rfl rfl (fun j hj => mem_append_left _ hj) hlist rfl
  · rw [hnew, hsend]
    rfl
  · intro _
    rw [hnew, hsend]
    rfl
  · intro _
    exact mem_append_right _ (mem_singleton_self _)

theorem Family.promote (hlist : Listing s) (hp : p ∈ s.connStubList) (addr : ConnAddr) (ff : Fcf)
    (rand : UInt32) : Family (s.promote md p addr ff rand) := by
  have hs := hlist.stubListen p hp
  have hparent := h.parent_none hs
  have herase : Family { s with connStubList := s.connStubList.erase p } :=
    h.relist rfl rfl fun _ hj => hj
  simp only [TcpModule.promote, hlist.stubLive p hp, hs, Bool.not_false, Bool.true_and, if_true]
  split
  · generalize hs2 : ({ s with connStubList := s.connStubList.erase p } : TcpModule).shutdownAll md
      (s.slots p).conn.backlog = s2
    have hstopped : ∀ j, (s.slots j).Kin (s2.slots j) := hs2 ▸ shutdownAll_kin md _
    have hsame : s2.slots p = s.slots p := by
      rw [← hs2]
      exact shutdownAll_notMem md (h.notMem_backlog hs p)
    have hlists : s2.next = s.next ∧ s2.connList = s.connList := by
      rw [← hs2]
      exact ⟨rfl, rfl⟩
    have hstub := Slot.stubConnect_kin md (s.slots p) addr.remIp addr.remPort
    have hboth : (s2.slots p).Kin (((s2.slots p).act md (.stubConnect addr.remIp addr.remPort)).act
        md (.connect ff rand)) := by
      rw [hsame]
      exact hstub.trans (Slot.connect_kin (hstub.parent.trans hparent)
        (Slot.act_listen hs rfl) ff rand)
    have hslots : ((s2.act md p (.stubConnect addr.remIp addr.remPort)).act md p
        (.connect ff rand)).slots = update s2.slots p
          (((s2.slots p).act md (.stubConnect addr.remIp addr.remPort)).act md
            (.connect ff rand)) := by
      simp only [TcpModule.act, update_self, update_idem]
    refine h.kin hlists.1 (fun j hj => mem_append_left _ (hlists.2.symm ▸ hj)) ?_ ?_
    · intro j
      exact (hstopped j).trans (hslots ▸ hboth.update (f := s2.slots) j)
    intro q hlive hrun hlisten
    simp only [hslots]
    by_cases hq : q = p
    · right
      subst hq
      intro d hd hdlive
      have hne : d ≠ q := ne_of_mem_of_not_mem hd (h.notMem_backlog hs q)
      rw [update_of_ne hne, ← hs2, shutdownAll_mem hd]
      exact Slot.shutdown_stops hdlive
    · left
      rw [update_of_ne hq, ← hs2,
        shutdownAll_notMem md (h.notMem_backlog hlisten p)]
      exact ⟨hrun, hlisten⟩
  · exact herase.connectNew (hlist.eraseStub p) addr ff rand

/-- A connection whose backlog is stopped and that no listener waits for is freed. -/
theorem Family.free
    (hslots : s'.slots = update s.slots i { s.slots i with freed := true })
    (hnext : s'.next = s.next) (hconn : ∀ j ∈ s.connList, j ≠ i → j ∈ s'.connList)
    (hstopped : ∀ d ∈ (s.slots i).conn.backlog, (s.slots d).freed = false →
      (s.slots d).conn.runningFlag = false)
    (hfree : ∀ p, (s.slots p).freed = false → (s.slots p).conn.state = .listen →
      i ∉ (s.slots p).conn.backlog) : Family s' := by
  have hold : ∀ j, j ≠ i → s'.slots j = s.slots j := fun j hj => by
    rw [hslots, update_of_ne hj]
  have hself : (s'.slots i).freed := by rw [hslots, update_self]
  have hsame : ∀ j, (s'.slots j).conn = (s.slots j).conn ∧
      (s'.slots j).parent = (s.slots j).parent ∧
      (s'.slots j).stubList = (s.slots j).stubList := by
    intro j
    by_cases hj : j = i
    · rw [hj, hslots, update_self]
      exact ⟨rfl, rfl, rfl⟩
    · rw [hold j hj]
      exact ⟨rfl, rfl, rfl⟩
  have hlives : ∀ {j}, (s'.slots j).freed = false → j ≠ i := by
    rintro j hj rfl
    rw [hself] at hj
    cases hj
  constructor
  · intro j hj
    rw [(hsame j).2.1]
    exact h.spare j (hnext ▸ hj)
  · intro q e he
    rw [(hsame q).1] at he
    rw [(hsame e).1, (hsame e).2.1]
    exact h.backlog q e he
  · intro q
    rw [(hsame q).1]
    exact h.nodup q
  · intro j q hj
    rw [(hsame j).2.1] at hj
    rw [(hsame j).1, (hsame j).2.2]
    exact h.child j q hj
  · intro j hlive hrun hs hpassive
    have hji := hlives hlive
    rw [hold j hji] at hlive hrun hs hpassive
    obtain ⟨q, hq⟩ := h.opening j hlive hrun hs hpassive
    have hqi : q ≠ i := by
      rintro rfl
      rw [hstopped j hq.mem hlive] at hrun
      cases hrun
    refine ⟨q, ?_⟩
    constructor
    · rw [hold j hji]
      exact hq.parent
    all_goals rw [hold q hqi]
    · exact hq.live
    · exact hq.running
    · exact hq.listen
    · exact hq.mem
  · intro j hlive hflag
    have hji := hlives hlive
    rw [hold j hji] at hlive hflag
    exact hconn j (h.onConn j hlive hflag) hji
  · intro q hlive hs e he
    have hqi := hlives hlive
    rw [hold q hqi] at hlive hs he
    rw [hold e (ne_of_mem_of_not_mem he (hfree q hlive hs))]
    exact h.alive q hlive hs e he

theorem Family.exit (hfree : ∀ p, (s.slots p).freed = false → (s.slots p).conn.state = .listen →
      i ∉ (s.slots p).conn.backlog) : Family (tcpMainExit s md i) := by
  have hshut := h.shutdownAll md i
  have hkin := shutdownAll_kin (s := s) md (s.slots i).conn.backlog
  apply hshut.free (i := i)
  · simp only [tcpMainExit]
    split <;> rfl
  · simp only [tcpMainExit]
    split <;> rfl
  · intro j hj hji
    simp only [tcpMainExit]
    split
    · exact hj
    · exact (mem_erase_of_ne hji).mpr hj
  · intro d hd hlive
    rw [(hkin i).backlog] at hd
    rw [(hkin d).freed] at hlive
    rw [shutdownAll_mem hd]
    exact Slot.shutdown_stops hlive
  · intro p hlive hs
    rw [(hkin p).freed] at hlive
    rw [(hkin p).backlog]
    exact hfree p hlive ((hkin p).listen hs)

end

/-! ### Runs -/

def TcpModule.awaited (s : TcpModule) (i : Nat) : Bool :=
  (range s.next).any fun p => !(s.slots p).freed && (s.slots p).conn.state == .listen &&
    (s.slots p).conn.backlog.contains i

/-- **The step frees no connection that is on the backlog of a listener.** -/
def Outlasts (s : TcpModule) (e : ModuleEvent) : Prop :=
  match e.op with
  | .exit i => (s.slots i).freed = false → (s.slots i).conn.mainPc = .done → s.awaited i = false
  | _ => True

theorem TcpModule.awaited_false (hlist : Listing s) (h : s.awaited i = false) (p : Nat)
    (hlive : (s.slots p).freed = false) (hs : (s.slots p).conn.state = .listen) :
    i ∉ (s.slots p).conn.backlog := by
  intro hmem
  have hp := any_eq_false.mp h p (mem_range.mpr (hlist.live_lt hlive))
  simp [hlive, hs, hmem] at hp

theorem TcpModule.awaited_true (h : s.awaited i) : ∃ p, (s.slots p).freed = false ∧
    (s.slots p).conn.state = .listen ∧ i ∈ (s.slots p).conn.backlog := by
  obtain ⟨p, -, hp⟩ := any_eq_true.mp h
  simp only [Bool.and_eq_true, Bool.not_eq_true', beq_iff_eq, contains_iff_mem] at hp
  exact ⟨p, hp.1.1, hp.1.2, hp.2⟩

theorem Family.step (h : Family s) (hlist : Listing s) (hw : AllWriting s) (e : ModuleEvent)
    (houtlasts : Outlasts s e) : Family (stepModule s e) := by
  have hgive : ∀ r, Family (s.give r) := fun r => h.relist rfl rfl fun _ hj => hj
  have hlists : ∀ r, Listing (s.give r) := fun r => hlist.congr rfl rfl rfl rfl
  have hmove := stepModule_move s e
  generalize stepModule s e = s' at hmove ⊢
  cases hmove with
  | noted out given => exact h.relist rfl rfl fun _ hj => hj
  | single given i ha =>
    have hgiven : Family { s with given := given } := h.relist rfl rfl fun _ hj => hj
    refine hgiven.plain hw ?_ ?_ (Action.single_keepsListen ha) ?_
    · cases ‹Action› <;> first | rfl | cases ha
    · cases ‹Action› <;> first | rfl | cases ha
    · rintro rfl
      cases ha
  | recv hparsed rand hi => exact h.recv hlist _ rand
  | close hi ff => exact (hgive _).close ff
  | @closeStub _ _ ff i hop hi =>
    have herase : Family { s.give (.fcf ff) with connStubList := s.connStubList.erase i } :=
      h.relist rfl rfl fun _ hj => hj
    exact herase.close ff
  | listen hostIp hostPort backlog =>
    refine h.addNew (x := ⟨_, true, none, false⟩) rfl rfl ?_ hlist rfl rfl ?_ ?_
    · exact fun _ hj => hj
    · rintro (heq | heq) <;> cases heq
    · intro hflag
      cases hflag
  | accept hi ff => exact (hgive _).accept (hlist.stubListen _ hi) ff
  | promote hop hnone hroom hp =>
    exact (hgive _).promote (hlists _) (findStub_mem hp).1 _ _ _
  | connect hnone ff rand => exact (hgive _).connectNew (hlists _) _ ff rand
  | exit hop hlive hpc =>
    rw [Outlasts, hop] at houtlasts
    exact h.exit (awaited_false hlist (houtlasts hlive hpc))

theorem Family.initially (md : TcpData) : Family (TcpModule.initial md) := by
  constructor
  · exact fun _ _ => rfl
  · intro p d hd
    cases hd
  · exact fun _ => nodup_nil
  · intro i p hp
    cases hp
  · intro i hlive
    cases hlive
  · intro i hlive
    cases hlive
  · intro p hlive
    cases hlive

structure Kinship (s : TcpModule) : Prop where
  family : Family s
  listing : Listing s
  once : Each (fun x => Once x.conn ∧ Writing 0 x.conn) s

theorem initial_once (h : Initial c) : Once c := by
  have hnew : c.signaled = false ∧ c.returned = 0 := by
    cases h with
    | fresh md addr => exact ⟨rfl, rfl⟩
    | child md parent seg rand =>
      obtain ⟨-, -, -, hsignaled, -, hreturned⟩ := tcpListenChild_new md parent seg rand
      exact ⟨hsignaled, hreturned⟩
  exact ⟨fun _ => hnew.1, fun _ => hnew.2, hnew.2.le.trans (Nat.zero_le _)⟩

theorem Kinship.step (h : Kinship s) (e : ModuleEvent) (he : Outlasts s e) :
    Kinship (stepModule s e) where
  family := h.family.step h.listing (fun i => (h.once i).2) e he
  listing := stepModule_listing h.listing e
  once := stepModule_eachConn (P := fun c => Once c ∧ Writing 0 c)
    (fun c e hc _ => ⟨step_once hc.1 hc.2.addrs_nodup e, step_writing c e hc.2⟩)
    (fun _ hc => ⟨initial_once hc, (initial_sendStart hc).writing⟩) h.listing h.once e

/-- **Listeners and children belong together**: who is on the backlog of a listener is a child of
    it that was not freed and that no `accept` has got; the parent that a child looks at when
    its handshake completes was not freed; no connection is returned twice. -/
structure Related (s : TcpModule) : Prop where
  backlog : ∀ p, (s.slots p).freed = false → (s.slots p).conn.state = .listen →
    ∀ d ∈ (s.slots p).conn.backlog, (s.slots d).freed = false ∧ d ∈ s.connList ∧
      (s.slots d).parent = some p ∧ (s.slots d).conn.signaled = false ∧
      (s.slots d).conn.returned = 0
  parent : ∀ i, (s.slots i).freed = false → (s.slots i).conn.runningFlag = true →
    Opening (s.slots i).conn.state → (s.slots i).conn.ff = none →
    (s.slots i).conn.activeOpen = false →
    ∃ p, (s.slots i).parent = some p ∧ (s.slots p).freed = false
  once : ∀ i, (s.slots i).conn.returned ≤ 1

theorem Kinship.related (h : Kinship s) : Related s := by
  constructor
  · intro p hlive hs d hd
    obtain ⟨hparent, hsignaled⟩ := h.family.backlog p d hd
    have hdlive := h.family.alive p hlive hs d hd
    refine ⟨hdlive, ?_, hparent, hsignaled, (h.once d).1.unsignaled hsignaled⟩
    exact h.family.onConn d hdlive (h.family.child d p hparent).2.2.1
  · intro i hlive hrun hs _ hpassive
    obtain ⟨p, hp⟩ := h.family.opening i hlive hrun hs hpassive
    exact ⟨p, hp.parent, hp.live⟩
  · exact fun i => (h.once i).1.atMost

theorem Related.outlasts (h : Kinship s) {e : ModuleEvent} (hr : Related (stepModule s e)) :
    Outlasts s e := by
  obtain ⟨md, op⟩ := e
  cases op with
  | exit i =>
    intro hlive hdone
    apply Bool.eq_false_iff.mpr
    intro hawaited
    obtain ⟨p, hplive, hs, hmem⟩ := awaited_true hawaited
    have hne : p ≠ i := fun heq => h.family.notMem_backlog hs p (heq ▸ hmem)
    have hstep : stepModule s ⟨md, .exit i⟩ = tcpMainExit s md i := by
      simp only [stepModule, hlive, hdone, Bool.not_false, beq_self_eq_true, Bool.and_self, if_true]
    rw [hstep] at hr
    -- the listener is as it was
    have hsame : (tcpMainExit s md i).slots p = s.slots p := by
      simp only [tcpMainExit, TcpModule.shutdownAll, update_of_ne hne,
        if_neg (h.family.notMem_backlog hs i)]
      split <;> rfl
    have hfreed : ((tcpMainExit s md i).slots i).freed := by
      simp only [tcpMainExit, update_self]
    have hbad := hr.backlog p (hsame ▸ hplive) (hsame ▸ hs) i (hsame ▸ hmem)
    rw [hbad.1] at hfreed
    cases hfreed
  | _ => trivial

/-- **Listeners and children belong together in every state of a run exactly if no step frees a
    connection that is on the backlog of a listener.** -/
theorem related_iff_outlasting (md : TcpData) (es : List ModuleEvent) :
    Lib.Steps stepModule Outlasts (TcpModule.initial md) es ↔
      ∀ es₁, es₁ <+: es → Related (runModule (TcpModule.initial md) es₁) := by
  apply Lib.steps_iff_everywhere (I := Kinship)
  · exact fun s e h he => h.step e he
  · exact fun s h => h.related
  · exact fun s e h hr => hr.outlasts h
  · exact ⟨Family.initially md, initial_listing md,
      fun _ => ⟨initial_once (.fresh md _), (initial_sendStart (.fresh md _)).writing⟩⟩

def resetChild : TcpModule :=
  runModule sampleModule [sampleListen, sampleSyn, sampleSynAck,
    sampleOp (.segment { srcIp := 2, srcPort := 20, dstIp := 1, dstPort := 10, seqNum := 501,
                         seqEnd := 501, flags := FLAG_RST } (by decide) 0),
    sampleOp (.own 1 (.main 0)), sampleOp (.exit 1)]

set_option maxRecDepth 4000 in
/-- **The listener keeps a child that was freed.** -/
theorem backlog_freed :
    ((resetChild.slots 0).freed = false ∧ (resetChild.slots 0).conn.state = .listen ∧
        1 ∈ (resetChild.slots 0).conn.backlog ∧ (resetChild.slots 1).freed = true) ∧
      ¬ Related resetChild := by
  have hleft : (resetChild.slots 0).freed = false ∧ (resetChild.slots 0).conn.state = .listen ∧
      1 ∈ (resetChild.slots 0).conn.backlog ∧ (resetChild.slots 1).freed = true := by
    decide +kernel
  refine ⟨hleft, fun h => ?_⟩
  have hlive := (h.backlog 0 hleft.1 hleft.2.1 1 hleft.2.2.1).1
  rw [hleft.2.2.2] at hlive
  cases hlive

end FinsStack.Tcp
