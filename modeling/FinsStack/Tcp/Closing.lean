import FinsStack.Tcp.SendQueue

/-!
# What the closing transitions wait for

FIN_WAIT_1, CLOSING and LAST_ACK are left when the FIN of this side is acknowledged.
The test for that (`FinTaken`) asks whether anything is left to acknowledge before the
FIN, not whether the FIN itself was: an in-order segment that acknowledges all data and
nothing more passes it.  `closing_after_finAck` is the rule under which the transitions
do follow an acknowledgment of the FIN, `closing_without_finAck` a run outside it.
-/

namespace FinsStack.Tcp

open List Lib

/-! ### The states and the condition -/

inductive FinAckEdge : TcpState → TcpState → Prop
  | finWait2 : FinAckEdge .finWait1 .finWait2
  | timeWait : FinAckEdge .finWait1 .timeWait
  | closing : FinAckEdge .closing .timeWait
  | lastAck : FinAckEdge .lastAck .closed

def AcksFin (c : TcpConn) (e : Event) : Prop :=
  match e.act with
  | .recv seg _ =>
    Accepts c seg ∧ hasFlag seg.flags FLAG_ACK = true ∧ c.finSent = true ∧ seg.ackNum = c.fsse
  | _ => False

def AcksData (c : TcpConn) (seg : TcpSeg) : Prop :=
  c.sendSeqNum = c.sendSeqEnd ∨
    (hasFlag seg.flags FLAG_ACK = true ∧ seg.ackNum = c.sendSeqEnd)

/-- A segment that is processed in order while this side waits for the acknowledgment of its
    FIN, and that leaves nothing else to wait for, acknowledges the FIN as well, unless that
    has happened before. -/
def FinAckOk (c : TcpConn) (e : Event) : Prop :=
  match e.act with
  | .recv seg _ =>
    Awaiting c.state → c.finSent = true → hasFlag seg.flags FLAG_RST = false →
      seg.seqNum = c.recvSeqNum →
      AcksData c seg →
      (hasFlag seg.flags FLAG_ACK = true ∧ seg.ackNum = c.fsse) ∨ c.sendSeqNum = c.fsse
  | _ => True

instance (c : TcpConn) (e : Event) : Decidable (AcksFin c e) := by
  unfold AcksFin Accepts
  split <;> infer_instance

instance (c : TcpConn) (e : Event) : Decidable (FinAckOk c e) := by
  unfold FinAckOk AcksData
  split <;> infer_instance

/-! ### The FIN of this side -/

structure FinInv (c : TcpConn) : Prop where
  last : c.finSent = true → Closes c ∧ c.requestQueue.nodes = [] ∧ c.writeQueue.nodes = []
  fsse : c.finSent = true → .finAck ∈ c.out ∨ c.fsse = c.sendSeqEnd + 1

variable {c c' d : TcpConn} {new old : TcpState} {md : TcpData}

theorem not_closes_of_early (h : Early c) : ¬ Closes c := by
  obtain ⟨hs, hrun⟩ := h
  rintro (hc | ⟨hc, hoff⟩)
  · rcases hs with h | h | h | h <;> rw [h] at hc <;> rcases hc with h | h | h | h | h <;> cases h
  · exact nomatch (hrun hc).symm.trans hoff

theorem not_closes_of_open (h : c.state = .established ∨ c.state = .closeWait) : ¬ Closes c := by
  rintro (hc | ⟨hc, -⟩)
  · rcases h with h | h <;> rw [h] at hc <;> rcases hc with h | h | h | h | h <;> cases h
  · rcases h with h | h <;> exact nomatch h.symm.trans hc

theorem closeEdge_not_closes (h : CloseEdge c.state new) : ¬ Closes c := by
  generalize hs : c.state = old at h
  cases h with
  | synRecv => exact not_closes_of_early (early_of_synRecv hs)
  | established => exact not_closes_of_open (.inl hs)
  | closeWait => exact not_closes_of_open (.inr hs)

theorem FinInv.congr (h : FinInv c) (hf : c'.toFinSide = c.toFinSide)
    (he : c.finSent → c'.sendSeqEnd = c.sendSeqEnd) (ho : Extends c c')
    (hl : c.finSent → Closes c → c.requestQueue.nodes = [] → c.writeQueue.nodes = [] →
      Closes c' ∧ c'.requestQueue.nodes = [] ∧ c'.writeQueue.nodes = []) : FinInv c' := by
  have hsent : c'.finSent = c.finSent := congrArg FinSide.finSent hf
  have hfsse : c'.fsse = c.fsse := congrArg FinSide.fsse hf
  constructor
  · intro hs
    rw [hsent] at hs
    obtain ⟨hc, hr, hw⟩ := h.last hs
    exact hl hs hc hr hw
  · intro hs
    rw [hsent] at hs
    rw [ho.finAck_iff, hfsse, he hs]
    exact h.fsse hs

theorem FinInv.of_open (h : FinInv c) (hf : c'.toFinSide = c.toFinSide) (hc : ¬ Closes c) :
    FinInv c' := by
  have hsent : c'.finSent = c.finSent := congrArg FinSide.finSent hf
  constructor
  · intro hs
    exact absurd (h.last (hsent ▸ hs)).1 hc
  · intro hs
    exact absurd (h.last (hsent ▸ hs)).1 hc

theorem closes_of_same (hs : c'.state = c.state)
    (hrun : c'.runningFlag → c.runningFlag) (h : Closes c) : Closes c' := by
  rcases h with h | ⟨h, hoff⟩
  · exact .inl (hs ▸ h)
  · refine .inr ⟨hs.trans h, ?_⟩
    cases hr : c'.runningFlag with
    | false => rfl
    | true => exact nomatch (hrun hr).symm.trans hoff

theorem Resend.finInv {n : TcpNode TcpSeg} (h : Resend c n c') (hi : FinInv c) : FinInv c' := by
  obtain ⟨f, k, w, o, ol, hsend, -⟩ := h.segment
  refine hi.congr h.fin (fun _ => by rw [hsend]) h.extends ?_
  intro _ hc hr hw
  refine ⟨closes_of_same h.state (fun hrun => h.running ▸ hrun) hc, ?_, ?_⟩
  · rw [h.write]
    exact hr
  · rw [h.write]
    exact hw

theorem SameSend.finInv (h : SameSend c c') (hi : FinInv c) (hc : Closes c → Closes c') :
    FinInv c' := by
  refine hi.congr h.fin (fun _ => congrArg SendSide.sendSeqEnd h.send) h.out.extends ?_
  intro _ hcl hr hw
  refine ⟨hc hcl, ?_, ?_⟩
  · rw [h.write]
    exact hr
  · rw [h.write]
    exact hw

theorem closes_of_state (h : OwnClosed c.state ∨ c.state = .closed)
    (hoff : c.state = .closed → c.runningFlag = false) : Closes c := by
  rcases h with h | h
  · exact .inl h
  · exact .inr ⟨h, hoff h⟩

theorem SendMove.finInv (h : SendMove c c') (hi : FinInv c) : FinInv c' := by
  have hext := h.extends
  cases h with
  | same h hs hrun => exact h.finInv hi (closes_of_same hs hrun)
  | close h he _ => exact hi.of_open h.fin (closeEdge_not_closes he)
  | stop h hs hoff => exact h.finInv hi (fun _ => .inr ⟨hs, hoff⟩)
  | early h => exact hi.of_open h.fin (not_closes_of_early h.early)
  | opened seg h =>
    refine hi.of_open h.fin (not_closes_of_early ?_)
    rcases h.before with hs | hs
    · exact early_of_synSent hs
    · exact early_of_synRecv hs
  | data h hs hoff =>
    refine hi.congr h.fin (fun _ => congrArg SendSide.sendSeqEnd h.send) hext ?_
    intro _ hc hr hw
    refine ⟨?_, ?_, ?_⟩
    · have hown : OwnClosed c.state ∨ c.state = .closed := by
        rcases hc with hc | hc
        · exact .inl hc
        · exact .inr hc.1
      exact closes_of_state (h.ownClosed hown) hoff
    · rw [h.write]
      exact hr
    · rw [h.write]
      exact hw
  | fin sep hs hr hw => exact ⟨fun _ => ⟨hs, hr, hw⟩, fun _ => .inr rfl⟩
  | gbn g h => exact ⟨hi.last, hi.fsse⟩
  | timeout n h | fast n h | next n h => exact h.finInv hi
  | write d flags serialNum hrun hs =>
    obtain ⟨w, pe, m, n, l, -, -, heq⟩ := writeConnected_writeMove c d flags serialNum
    rw [heq]
    exact hi.of_open rfl (not_closes_of_open hs)
  | writeEarly d serialNum hrun hs =>
    obtain ⟨w, pe, m, n, l, -, -, heq⟩ := writePreConnected_writeMove c d serialNum
    rw [heq]
    refine hi.of_open rfl (not_closes_of_early ?_)
    rcases hs with hs | hs
    · exact early_of_synSent hs
    · exact early_of_synRecv hs
  | refuse serialNum =>
    exact hi.congr rfl (fun _ => rfl) hext (fun _ hc hr hw => ⟨hc, hr, hw⟩)
  | interrupt =>
    obtain ⟨w, pe, m, n, l, -, -, heq⟩ := handleInterrupt_writeMove c
    refine hi.congr (by rw [heq]) (fun _ => by rw [heq]) hext ?_
    intro _ hc hr hw
    rw [handleInterrupt_of_nil hr]
    exact ⟨hc, hr, hw⟩
  | requestFire a =>
    refine hi.congr rfl (fun _ => rfl) hext ?_
    intro _ hc hr hw
    refine ⟨hc, ?_, hw⟩
    show c.requestQueue.nodes.map _ = []
    rw [hr]
    rfl

theorem AckStep.finInv {seg : TcpSeg} (h : AckStep c seg c') (hi : FinInv c) : FinInv c' := by
  cases h with
  | outside hwin hfin => exact hi
  | unsent m hwin hne hend hfind | duplicate m w g k rf heq hw hg
  | all m w g k r hne heq hw hg hr | upTo m k r n hwin hne hend hfind hr =>
    exact ⟨hi.last, hi.fsse⟩
  | fin w hwin hsent hack hw =>
    exact ⟨hi.last, fun _ => .inl (mem_append_right _ (mem_singleton_self _))⟩

theorem FreshSend.finInv {seg : TcpSeg} (h : FreshSend c seg c') (hround : RoundSends md c)
    (hi : FinInv c) : FinInv c' := by
  have hnot : c.finSent = false := by
    cases hs : c.finSent with
    | false => rfl
    | true =>
      obtain ⟨-, hr, hw⟩ := hi.last hs
      have hempty := hround.2.2.2.2.1
      simp only [tcpQueueIsEmpty, hr, hw, isEmpty_nil, Bool.and_self, Bool.true_eq_false]
        at hempty
  rcases h.fin with hf | ⟨hown, hr, hw, hf⟩
  · have hsent : c'.finSent = false := (congrArg FinSide.finSent hf).trans hnot
    constructor
    · intro hs
      exact nomatch hsent.symm.trans hs
    · intro hs
      exact nomatch hsent.symm.trans hs
  · refine ⟨fun _ => ⟨.inl (h.state ▸ hown), hr, hw⟩, fun _ => .inr ?_⟩
    exact congrArg FinSide.fsse hf

theorem step_finInv (c : TcpConn) (e : Event) (h : FinInv c) : FinInv (step c e) := by
  apply step_send_invariant (fun c c' hm => hm.finInv) ?_ ?_ h
  · rintro _ seg _ ⟨-, -, -, hround⟩ hfresh hi
    exact hfresh.finInv hround hi
  · intro seg d _ _ hack hi
    exact hack.finInv hi

/-! ### Where the transitions come from -/

structure FinDecided (c : TcpConn) (seg : TcpSeg) : Prop where
  awaiting : Awaiting c.state
  finished : tcpConnIsFinished c = true
  finSent : c.finSent = true
  inOrder : seg.seqNum = c.recvSeqNum

structure Decides (c : TcpConn) (seg : TcpSeg) (d : TcpConn) : Prop where
  states : Receiving d.state ∨ PeerDone d.state ∨ d.state = .closed
  awaiting : Awaiting d.state → Awaiting c.state
  write : d.toWriteSide = c.toWriteSide
  send : d.toSendSide = c.toSendSide
  fin : d.toFinSide = c.toFinSide
  edges : ∀ old new, FinAckEdge old new → .edge old new ∈ d.out →
    .edge old new ∈ c.out ∨ FinDecided c seg

theorem finished_congr (hw : d.toWriteSide = c.toWriteSide) (hs : d.toSendSide = c.toSendSide) :
    tcpConnIsFinished d = tcpConnIsFinished c := by
  unfold tcpConnIsFinished
  rw [hw, hs]

theorem FlagsStep.edge_taken {seg : TcpSeg} {r : FlagsRet} (h : FlagsStep c seg r c')
    (he : FinAckEdge old new) (hmem : .edge old new ∈ c'.out) :
    .edge old new ∈ c.out ∨ (Awaiting c.state ∧ FinTaken c seg) := by
  cases h with
  | keep _ | data hs hd => exact .inl hmem
  | finWait2 hs ht hd | finWait2Data hs ht hd => exact .inr ⟨.inl hs, ht⟩
  | timeWait hs ht => exact .inr ⟨.inr (.inl hs), ht⟩
  | closed _ hs ht => exact .inr ⟨.inr (.inr hs), ht⟩
  | fin next g hedge hf hg =>
    have other : ¬ FinAckEdge c.state next → .edge old new ∈ c.out := by
      intro hnot
      have hout : .edge old new ∈ c.out ++ [.fin seg.seqNum c.recvSeqNum] ++ [.edge c.state next] ++
          [.alert c.addr TCP_ALERT_SHUTDOWN FCF_FALSE TCP_STATUS_RD] := hmem
      simp only [mem_append, mem_singleton, reduceCtorEq, or_false, Out.edge.injEq]
        at hout
      rcases hout with hout | ⟨rfl, rfl⟩
      · exact hout
      · exact absurd he hnot
    rcases hedge with ⟨hs, rfl⟩ | ⟨hs, rfl⟩ | ⟨hs, -, ht⟩ | ⟨hs, rfl⟩
    · exact .inl (other (by rw [hs]; nofun))
    · exact .inl (other (by rw [hs]; nofun))
    · exact .inr ⟨.inl hs, ht⟩
    · exact .inl (other (by rw [hs]; nofun))

theorem FlagsStep.awaiting {seg : TcpSeg} {r : FlagsRet} (h : FlagsStep c seg r c')
    (ha : Awaiting c'.state) : Awaiting c.state := by
  cases h with
  | keep _ | data hs hd => exact ha
  | finWait2 hs ht hd | finWait2Data hs ht hd => exact .inl hs
  | timeWait hs ht => exact .inr (.inl hs)
  | closed _ hs ht => exact .inr (.inr hs)
  | fin next g hedge hf hg =>
    rcases hedge with ⟨hs, rfl⟩ | ⟨hs, rfl⟩ | ⟨hs, -, -⟩ | ⟨hs, rfl⟩
    · rcases ha with h | h | h <;> cases h
    · exact .inl hs
    · exact .inl hs
    · rcases ha with h | h | h <;> cases h

theorem SegStep.flags {seg : TcpSeg} (h : SegStep md c seg c') :
    ∃ r c₁, FlagsStep c seg r c₁ ∧ c'.state = c₁.state ∧
      ∀ old new, .edge old new ∈ c'.out → .edge old new ∈ c₁.out := by
  cases h with
  | options c₁ o hf hok ho => exact ⟨_, c₁, hf, rfl, fun _ _ h => h⟩
  | handOff c₁ hf hd hflow =>
    refine ⟨_, c₁, hf, rfl, ?_⟩
    intro old new hmem
    rcases mem_append.mp hmem with h | h
    · exact h
    · exact nomatch mem_singleton.mp h
  | bare r _ hf _ => exact ⟨r, c', hf, rfl, fun _ _ h => h⟩

theorem Decides.seg {d' : TcpConn} {seg seg' : TcpSeg} (h : Decides c seg d)
    (hord : seg.seqNum = c.recvSeqNum) (hstep : SegStep md d seg' d') : Decides c seg d' := by
  obtain ⟨hmove, -⟩ := hstep.dataMove h.states
  obtain ⟨r, d₁, hflags, hst, hout⟩ := hstep.flags
  refine ⟨hmove.state, ?_, hmove.write.trans h.write, hmove.send.trans h.send,
    hmove.fin.trans h.fin, ?_⟩
  · intro ha
    exact h.awaiting (hflags.awaiting (hst ▸ ha))
  · intro old new he hmem
    rcases hflags.edge_taken he (hout old new hmem) with hmem | ⟨ha, -, hfin, hsent⟩
    · exact h.edges old new he hmem
    · right
      refine ⟨h.awaiting ha, ?_, ?_, hord⟩
      · rw [← finished_congr h.write h.send]
        exact hfin
      · rw [← hsent]
        exact (congrArg FinSide.finSent h.fin).symm

theorem Decides.plain {d' : TcpConn} {seg : TcpSeg} (h : Decides c seg d)
    (hp : d'.sendPart = d.sendPart) (hs : d'.state = d.state) (ho : d'.out = d.out) :
    Decides c seg d' := by
  refine ⟨hs ▸ h.states, hs ▸ h.awaiting, ?_, ?_, ?_, ho ▸ h.edges⟩
  · exact (congrArg SendPart.toWriteSide hp).trans h.write
  · exact (congrArg SendPart.toSendSide hp).trans h.send
  · exact (congrArg SendPart.toFinSide hp).trans h.fin

theorem tcpHandleData_decides (md : TcpData) (seg : TcpSeg) (hs : Greeted c.state) :
    Decides c seg (tcpHandleData md c seg).1 := by
  have start : Decides c seg c := ⟨hs, id, rfl, rfl, rfl, fun _ _ _ h => .inl h⟩
  by_cases hord : seg.seqNum = c.recvSeqNum
  · refine tcpHandleData_induct ?_ ?_ ?_ ?_ ?_ ?_ start
    · intro d w h
      exact h.plain rfl rfl rfl
    · intro d m h
      exact h.plain rfl rfl rfl
    · intro d n ns _ h
      exact h.plain rfl rfl rfl
    · intro d n ns d' _ _ hstep h
      exact Decides.seg (d := d.popRecv) (h.plain rfl rfl rfl) hord hstep
    · intro d' _ hstep h
      exact h.seg hord hstep
    · intro q hne _ _ _
      exact absurd hord hne
  · -- a segment that is stored is not processed
    have hkeep : (tcpHandleData md c seg).1.out = c.out ∧
        (tcpHandleData md c seg).1.state = c.state := by
      unfold tcpHandleData handleOutOfOrder
      simp only [hord, if_false]
      split
      · split
        · split
          · exact ⟨rfl, rfl⟩
          · exact ⟨rfl, rfl⟩
        · exact ⟨rfl, rfl⟩
      · exact ⟨rfl, rfl⟩
    have hmove := tcpHandleData_dataMove md seg hs
    exact ⟨hmove.state, hkeep.2 ▸ id, hmove.write, hmove.send, hmove.fin,
      fun _ _ _ h => .inl (hkeep.1 ▸ h)⟩

theorem Inert.edge_mem (h : Inert c c') (hmem : .edge old new ∈ c'.out) :
    .edge old new ∈ c.out := by
  obtain ⟨l, hl, ho⟩ := h.out
  rw [ho] at hmem
  rcases mem_append.mp hmem with hmem | hmem
  · exact hmem
  · exact absurd (hl _ hmem) id

theorem step_edge_mem {e : Event} (hmem : .edge old new ∈ (step c e).out) : .edge old new ∈ c.out ∨
    (∃ stop, c.runningFlag ∧ OwnEdge old new stop ∧ c.state = old ∧ (step c e).state = new) ∨
    OpenEdge old new ∨ ∃ seg env, e.act = .recv seg env ∧ Handling c.state ∧
      hasFlag seg.flags FLAG_RST = false ∧
      .edge old new ∈ (tcpHandleData e.md (ackFirst e.md c seg) seg).1.out ∧
      Inert (tcpHandleData e.md (ackFirst e.md c seg) seg).1 (step c e) := by
  cases step_view c e with
  | inert hi | credit _ _ _ _ hi => exact .inl (hi.edge_mem hmem)
  | move next stop c₁ hrun he h₁ h₂ =>
    have hmem' : .edge old new ∈ c₁.out ++ [.edge c₁.state next] := h₂.edge_mem hmem
    rcases mem_append.mp hmem' with hmem' | hmem'
    · exact .inl (h₁.edge_mem hmem')
    · injection mem_singleton.mp hmem' with hold hnew
      rw [h₁.state] at hold
      exact .inr (.inl ⟨stop, hrun, hold ▸ hnew ▸ he, hold.symm, h₂.state.trans hnew.symm⟩)
  | opening next d he _ _ ho hi =>
    have hmem' := hi.edge_mem hmem
    rw [ho] at hmem'
    rcases mem_append.mp hmem' with hmem' | hmem'
    · exact .inl hmem'
    · injection mem_singleton.mp hmem' with hold hnew
      exact .inr (.inr (.inl (hold ▸ hnew ▸ he)))
  | restart d _ _ _ ho hi => exact .inl (ho ▸ hi.edge_mem hmem)
  | data seg env hact hs hrst hi =>
    exact .inr (.inr (.inr ⟨seg, env, hact, hs, hrst, hi.edge_mem hmem, hi⟩))

/-! ### The rule -/

theorem SendInv.fin_outside (h : SendInv c) :
    c.sendSeqNum ≠ c.sendSeqEnd + 1 ∧
      tcpInWindow (c.sendSeqEnd + 1) (c.sendSeqEnd + 1) c.sendSeqNum c.sendSeqEnd = false := by
  have hflight := h.flight
  have hlt := h.span_lt
  have hsmall : (c.sendSeqEnd - c.sendSeqNum).toNat < 2 ^ 31 := by
    unfold flightSize at hflight
    omega
  have hmax : c.sendSeqEnd - c.sendSeqNum ≠ -1 := by
    intro hneg
    rw [hneg] at hsmall
    exact absurd hsmall (by decide)
  constructor
  · intro heq
    apply hmax
    rw [heq]
    grind
  · cases hwin : tcpInWindow (c.sendSeqEnd + 1) (c.sendSeqEnd + 1) c.sendSeqNum c.sendSeqEnd with
    | false => rfl
    | true =>
      rw [tcpInWindow_self] at hwin
      grind

theorem AckStep.acksData {seg : TcpSeg} (h : AckStep c seg d)
    (hflag : hasFlag seg.flags FLAG_ACK) (hdone : d.sendSeqNum = d.sendSeqEnd) :
    AcksData c seg ∨ .finAck ∈ d.out := by
  cases h with
  | outside hwin hfin | unsent m hwin hne hend hfind | duplicate m w g k rf heq hw hg =>
    exact .inl (.inl hdone)
  | all m w g k r hne heq hw hg hr => exact .inl (.inr ⟨hflag, heq⟩)
  | upTo m k r n hwin hne hend hfind hr => exact absurd hdone hend
  | fin w hwin hsent hack hw =>
    exact .inr (mem_append_right _ (mem_singleton_self _))

theorem AckStep.takes_fin {seg : TcpSeg} (h : AckStep c seg d) (hi : SendInv c)
    (hsent : c.finSent) (hfsse : c.fsse = c.sendSeqEnd + 1) (hack : seg.ackNum = c.fsse) :
    .finAck ∈ d.out := by
  obtain ⟨hne, hout⟩ := hi.fin_outside
  rw [← hfsse, ← hack] at hout
  cases h with
  | outside hwin hfin => exact absurd ⟨hsent, hack⟩ hfin
  | unsent m hwin _ hend hfind | upTo m k r n hwin _ hend hfind hr =>
    exact nomatch hout.symm.trans hwin
  | duplicate m w g k rf heq hw hg => exact absurd (heq.symm.trans (hack.trans hfsse)) hne
  | all m w g k r _ heq hw hg hr =>
    have hself : c.sendSeqEnd = c.sendSeqEnd + 1 := heq.symm.trans (hack.trans hfsse)
    grind
  | fin w hwin _ _ hw => exact mem_append_right _ (mem_singleton_self _)

theorem AckStep.fin_eq {seg : TcpSeg} (h : AckStep c seg d) : d.toFinSide = c.toFinSide := by
  cases h <;> rfl

theorem Inert.mem_out (h : Inert c c') {o : Out} (hmem : o ∈ c.out) : o ∈ c'.out := by
  obtain ⟨l, -, ho⟩ := h.out
  rw [ho]
  exact mem_append_left _ hmem

theorem finAck_of_decided {seg : TcpSeg} {env : RecvEnv} (hsend : SendInv c) (hfin : FinInv c)
    (hok : FinAckOk c ⟨md, .recv seg env⟩) (hrst : hasFlag seg.flags FLAG_RST = false)
    (h : FinDecided (ackFirst md c seg) seg) : .finAck ∈ (ackFirst md c seg).out := by
  have hinert := ackFirst_inert md c seg
  have hawait : Awaiting c.state := hinert.state ▸ h.awaiting
  have hord : seg.seqNum = c.recvSeqNum :=
    h.inOrder.trans (congrArg RecvSide.recvSeqNum hinert.recv)
  have hne : c.state ≠ .finWait2 := by
    rcases hawait with h | h | h <;> rw [h] <;> nofun
  obtain ⟨-, -, hdone⟩ := queues_empty_of_finished h.finished
  have hsent := h.finSent
  -- a FIN acknowledged before this segment is on record
  have before : c.finSent → c.sendSeqNum = c.fsse → .finAck ∈ c.out := by
    intro hs heq
    rcases hfin.fsse hs with hmem | hfsse
    · exact hmem
    · exact absurd (heq.trans hfsse) hsend.fin_outside.1
  simp only [ackFirst, hne, if_false, handleAckFlag] at hdone hsent hinert ⊢
  split at hdone
  · rename_i hflag
    simp only [hflag, if_true] at hsent hinert ⊢
    have hstep := tcpHandleAck_step md c seg
    have hsent' : c.finSent := (congrArg FinSide.finSent hstep.fin_eq) ▸ hsent
    rcases hstep.acksData hflag hdone with hdata | hmem
    · rcases hok hawait hsent' hrst hord hdata with ⟨-, hack⟩ | heq
      · rcases hfin.fsse hsent' with hmem | hfsse
        · exact hinert.mem_out hmem
        · exact hstep.takes_fin hsend hsent' hfsse hack
      · exact hinert.mem_out (before hsent' heq)
    · exact hmem
  · rename_i hflag
    simp only [hflag, Bool.false_eq_true, if_false] at hsent ⊢
    rcases hok hawait hsent hrst hord (.inl hdone) with ⟨hack, -⟩ | heq
    · exact absurd hack hflag
    · exact before hsent heq

def EdgesAcked (c : TcpConn) : Prop :=
  ∀ old new, FinAckEdge old new → .edge old new ∈ c.out → .finAck ∈ c.out

theorem step_finAck (c : TcpConn) (e : Event) (h : .finAck ∈ (step c e).out) :
    .finAck ∈ c.out ∨ AcksFin c e := by
  cases step_sendStep c e with
  | moves _ hm => exact .inl ((SendMoves.extends hm).finAck_iff.mp h)
  | fresh _ _ hnew ha =>
    obtain ⟨seg, hf⟩ := sendNew_fresh hnew.2.2.1
    exact .inl (hf.extends.finAck_iff.mp ((SendMoves.extends ha.moves).finAck_iff.mp h))
  | ack seg env d hact hin _ hflag had hm =>
    rcases had.finAck ((SendMoves.extends hm).finAck_iff.mp h) with hmem | ⟨hsent, hack⟩
    · exact .inl hmem
    · right
      unfold AcksFin
      rw [hact]
      exact ⟨hin, hflag, hsent, hack⟩

theorem step_mem_finAck (c : TcpConn) (e : Event) (h : .finAck ∈ c.out) :
    .finAck ∈ (step c e).out := by
  cases step_sendStep c e with
  | moves _ hm => exact (SendMoves.extends hm).finAck_iff.mpr h
  | fresh _ _ hnew ha =>
    obtain ⟨seg, hf⟩ := sendNew_fresh hnew.2.2.1
    exact (SendMoves.extends ha.moves).finAck_iff.mpr (hf.extends.finAck_iff.mpr h)
  | ack seg env d _ _ _ _ had hm =>
    exact (SendMoves.extends hm).finAck_iff.mpr (had.inert.mem_out h)

theorem step_edgesAcked (c : TcpConn) (e : Event) (hsend : SendInv c) (hfin : FinInv c)
    (hok : FinAckOk c e) (he : EdgesAcked c) : EdgesAcked (step c e) := by
  have hext := step_mem_finAck c e
  intro old new hedge hmem
  rcases step_edge_mem hmem with
    hmem | ⟨stop, -, hown, -⟩ | hopen | ⟨seg, env, hact, hs, hrst, hmem, hi⟩
  · exact hext (he old new hedge hmem)
  · cases hedge <;> cases hown
  · cases hedge <;> cases hopen
  · obtain ⟨md, act⟩ := e
    cases hact
    have hst := (ackFirst_inert md c seg).state
    have hdec := tcpHandleData_decides md (c := ackFirst md c seg) seg (hst ▸ hs.states)
    have hmove := tcpHandleData_dataMove md (c := ackFirst md c seg) seg (hst ▸ hs.states)
    rcases hdec.edges old new hedge hmem with hmem | hdecided
    · exact hext (he old new hedge ((ackFirst_inert md c seg).edge_mem hmem))
    · have htaken := finAck_of_decided hsend hfin hok hrst hdecided
      obtain ⟨l, -, ho⟩ := hmove.out
      refine hi.mem_out ?_
      rw [ho]
      exact mem_append_left _ htaken

theorem SendStart.finInv (h : SendStart c) : FinInv c := by
  have hnone : ¬ c.finSent := by simp [h.finSent]
  exact ⟨fun hs => absurd hs hnone, fun hs => absurd hs hnone⟩

theorem initial_edge_mem (h : Initial c) (hmem : .edge old new ∈ c.out) :
    old = .closed ∧ new = .synRecv := by
  cases h with
  | fresh md a => cases hmem
  | child md parent seg rand =>
    obtain ⟨d, -, -, -, hout, hinert⟩ := tcpListenChild_inert md parent seg rand
    have hmem' := hinert.edge_mem hmem
    rw [hout] at hmem'
    cases mem_singleton.mp hmem'
    exact ⟨rfl, rfl⟩

/-- **The closing transitions follow an acknowledgment of the FIN** if what completes the
    acknowledgment of the data acknowledges the FIN too. -/
theorem closing_after_finAck {c₀ : TcpConn} (h₀ : Initial c₀) (es : List Event)
    (hes : Steps step FinAckOk c₀ es) {old new : TcpState} (he : FinAckEdge old new)
    (hmem : .edge old new ∈ (runConn c₀ es).out) : Sometime step AcksFin c₀ es := by
  have hstart := initial_sendStart h₀
  have hnone : .finAck ∉ c₀.out := fun h => hstart.out .finAck h trivial
  have hedges₀ : EdgesAcked c₀ := by
    intro old new he hmem
    obtain ⟨rfl, rfl⟩ := initial_edge_mem h₀ hmem
    cases he
  have hinv : SendInv (runConn c₀ es) ∧ FinInv (runConn c₀ es) ∧ EdgesAcked (runConn c₀ es) := by
    refine run_invariant_of_steps (I := fun c => SendInv c ∧ FinInv c ∧ EdgesAcked c) ?_
      ⟨hstart.sendInv, hstart.finInv, hedges₀⟩ hes
    rintro c e ⟨hs, hf, hed⟩ hok
    exact ⟨step_sendInv c e hs, step_finInv c e hf, step_edgesAcked c e hs hf hok hed⟩
  have htaken := hinv.2.2 old new he hmem
  exact (sometime_of_mark (M := fun c => .finAck ∈ c.out) step_finAck htaken).resolve_left hnone

/-- After the handshake the application closes, which sends the FIN as number 101, and an
    empty segment with the given acknowledgment number arrives in order. -/
def closeThenAck (ackNum : UInt32) : List Event :=
  sampleOpen ++ [sampleEvent (.close sampleFcf),
    sampleRecv { seqNum := 501, seqEnd := 501, ackNum := ackNum, flags := FLAG_ACK,
                 winSize := 4000 }]

theorem closing_after_finAck_sample :
    .edge .finWait1 .finWait2 ∈ (runConn sampleConn (closeThenAck 102)).out ∧
      Sometime step AcksFin sampleConn (closeThenAck 102) :=
  ⟨by decide +kernel, closing_after_finAck (.fresh sampleData ⟨1, 10, 2, 20⟩)
    (closeThenAck 102) (by decide +kernel) .finWait2 (by decide +kernel)⟩

/-- An acknowledgment of the data alone completes the transition. -/
theorem closing_without_finAck :
    .edge .finWait1 .finWait2 ∈ (runConn sampleConn (closeThenAck 101)).out ∧
      ¬ Sometime step AcksFin sampleConn (closeThenAck 101) := by
  constructor
  · decide +kernel
  · decide +kernel

end FinsStack.Tcp
