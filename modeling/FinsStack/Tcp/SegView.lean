import FinsStack.Tcp.Header
import FinsStack.Tcp.SendStep

/-!
# A connection seen through the segments it sends

Every call either says nothing (`Hush`) or hands segments to `tcp_seg_send`, each with a
header made from the connection as it is at that moment (`Said`).  What the header is made
from does not change any more before the call is over (`After`), so the segments of a
whole call are described by the connection it leaves behind (`Speaks`).

Two kinds of segments are not made that way and are left to those who ask for them:
`ack_seg` sent once more as it is, and a reset for a segment that fits no connection.
-/

namespace FinsStack.Tcp

open List

/-! ### Segments among the outputs -/

def sentSeg : Out → Option (SegKind × TcpSeg)
  | .seg k s => some (k, s)
  | _ => none

def TcpConn.sent (c : TcpConn) : List (SegKind × TcpSeg) := c.out.filterMap sentSeg

def Wordless (o : Out) : Prop := sentSeg o = none

variable {c c' c₁ c₂ c₃ d e : TcpConn} {o : Out} {seg : TcpSeg}

theorem sent_append {l : List Out} (h : d.out = c.out ++ l) :
    d.sent = c.sent ++ l.filterMap sentSeg := by
  unfold TcpConn.sent
  rw [h, filterMap_append]

theorem sent_wordless {l : List Out} (h : d.out = c.out ++ l) (hl : ∀ o ∈ l, Wordless o) :
    d.sent = c.sent := by
  rw [sent_append h, filterMap_eq_nil_iff.mpr hl, append_nil]

theorem sent_one (h : d.out = c.out ++ [o]) (ho : Wordless o) : d.sent = c.sent := by
  exact sent_wordless h (forall_mem_singleton.mpr ho)

/-! ### Saying nothing -/

def AckPending (c : TcpConn) : Prop :=
  c.toDelayedTimer = true ∨ c.toDelayedFlag = true ∨ c.delayedFlag = true

structure Hush (c d : TcpConn) : Prop where
  sent : d.sent = c.sent
  ackSeg : d.ackSeg = c.ackSeg
  ackFlags : d.delayedAckFlags = c.delayedAckFlags
  pending : AckPending d → AckPending c

theorem Hush.refl (c : TcpConn) : Hush c c := ⟨rfl, rfl, rfl, id⟩

theorem Hush.trans (h₁ : Hush c₁ c₂) (h₂ : Hush c₂ c₃) : Hush c₁ c₃ :=
  ⟨h₂.sent.trans h₁.sent, h₂.ackSeg.trans h₁.ackSeg, h₂.ackFlags.trans h₁.ackFlags,
    fun h => h₁.pending (h₂.pending h)⟩

section

variable (ha : d.toAckState = c.toAckState)
include ha

theorem Hush.of_sent (hs : d.sent = c.sent) : Hush c d := by
  refine ⟨hs, by rw [ha], by rw [ha], ?_⟩
  unfold AckPending
  rw [ha]
  exact id

theorem Hush.of_out (ho : d.out = c.out) : Hush c d := by
  apply Hush.of_sent ha
  unfold TcpConn.sent
  rw [ho]

theorem Hush.of_one (ho : d.out = c.out ++ [o]) (hw : Wordless o) : Hush c d :=
  .of_sent ha (sent_one ho hw)

end

theorem Hush.call_off {a : AckState} (hseg : a.ackSeg = c.ackSeg)
    (hflags : a.delayedAckFlags = c.delayedAckFlags)
    (hp : a.toDelayedTimer ∨ a.toDelayedFlag ∨ a.delayedFlag → AckPending c) :
    Hush c { c with toAckState := a } := ⟨rfl, hseg, hflags, hp⟩

/-! ### After a segment was sent -/

structure After (c d : TcpConn) : Prop where
  addr : d.addr = c.addr
  recv : d.recvSeqNum = c.recvSeqNum
  fin : d.toFinSide = c.toFinSide
  sendEnd : d.sendSeqEnd = c.sendSeqEnd
  state : c.state ≠ .timeWait → d.state = c.state

theorem After.refl (c : TcpConn) : After c c := ⟨rfl, rfl, rfl, rfl, fun _ => rfl⟩

theorem Tells.hush (h : Tells c d) : Hush c d := by
  obtain ⟨l, hl, ho⟩ := h.out
  refine .of_sent (congrArg TcpConn.toAckState h.rest :) (sent_wordless ho fun o hmem => ?_)
  have hanswer := hl o hmem
  cases o with
  | reply ff retVal retMsg | connReply ff addr state retVal retMsg => rfl
  | _ => exact hanswer.elim

theorem Tells.after (h : Tells c d) (ha : d.addr = c.addr) : After c d :=
  ⟨ha, (congrArg (fun e => e.recvSeqNum) h.rest :), (congrArg TcpConn.toFinSide h.rest :),
    (congrArg (fun e => e.sendSeqEnd) h.rest :), fun _ => h.state⟩

def TcpSeg.addr (s : TcpSeg) : ConnAddr := ⟨s.srcIp, s.srcPort, s.dstIp, s.dstPort⟩

def TcpSeg.body (s : TcpSeg) : ConnAddr × Int × List UInt8 := (s.addr, s.dataLen, s.data)

theorem reheaded_body (s : TcpSeg) (f : UInt16) (k : UInt32) (w : UInt16) (o : List UInt8)
    (ol : Int) : (reheaded s f k w o ol).body = s.body := rfl

structure Said (c : TcpConn) (k : SegKind) (s : TcpSeg) : Prop where
  offset : OffsetOk s
  ackNum : hasFlag s.flags FLAG_ACK = true → s.ackNum = c.recvSeqNum
  ack : c.state ≠ .synSent → hasFlag s.flags FLAG_ACK = true
  rst : hasFlag s.flags FLAG_RST = false
  fin : hasFlag s.flags FLAG_FIN = true → c.finSent = true ∧
    (s.seqNum + s.dataLen32 + 1 = c.fsse ∨
      c.finSep = false ∧ FinRides c.state ∧ s.seqNum + s.dataLen32 = c.sendSeqEnd)
  addr : k = .control ∨ k = .fresh → s.addr = c.addr
  bare : k = .control → s.dataLen = 0

theorem Said.after {k : SegKind} {s : TcpSeg} (h : Said c k s) (ha : After c d) : Said d k s := by
  have hsent : d.finSent = c.finSent := congrArg FinSide.finSent ha.fin
  have hsep : d.finSep = c.finSep := congrArg FinSide.finSep ha.fin
  have hfsse : d.fsse = c.fsse := congrArg FinSide.fsse ha.fin
  refine ⟨h.offset, ?_, ?_, h.rst, ?_, ?_, h.bare⟩
  · rw [ha.recv]
    exact h.ackNum
  · intro hs
    refine h.ack fun hs' => hs ?_
    rw [ha.state (by simp [hs']), hs']
  · intro hf
    rw [hsent, hsep, hfsse, ha.sendEnd]
    refine (h.fin hf).imp_right fun hpos => hpos.imp_right ?_
    rintro ⟨hs, hrides, hend⟩
    have hnot : c.state ≠ .timeWait := by
      rcases hrides with h | h <;> rw [h] <;> decide
    exact ⟨hs, (ha.state hnot).symm ▸ hrides, hend⟩
  · rw [ha.addr]
    exact h.addr

def AckFlow (c d : TcpConn) : Prop :=
  (d.delayedAckFlags = c.delayedAckFlags ∧ (AckPending d → AckPending c)) ∨
    d.delayedAckFlags = FLAG_ACK

theorem AckFlow.trans (h₁ : AckFlow c₁ c₂) (h₂ : AckFlow c₂ c₃) : AckFlow c₁ c₃ := by
  rcases h₂ with ⟨hf₂, hp₂⟩ | hf₂
  · rcases h₁ with ⟨hf₁, hp₁⟩ | hf₁
    · exact .inl ⟨hf₂.trans hf₁, fun h => hp₁ (hp₂ h)⟩
    · exact .inr (hf₂.trans hf₁)
  · exact .inr hf₂

theorem Hush.ackFlow (h : Hush c d) : AckFlow c d := .inl ⟨h.ackFlags, h.pending⟩

/-- A segment of the connection's own `ack_seg` keeps what no refresh changes. -/
def AckBody (c : TcpConn) (x : SegKind × TcpSeg) : Prop := x.1 = .ack → x.2.body = c.ackSeg.body

/-- **What a call says**: segments with headers made from the connection it leaves;
    `ack_seg` changes only by being sent. -/
structure Speaks (c d : TcpConn) : Prop where
  segs : ∃ l, d.sent = c.sent ++ l ∧ (∀ x ∈ l, Said d x.1 x.2) ∧ (∀ x ∈ l, AckBody c x) ∧
    (d.ackSeg = c.ackSeg ∨ (.ack, d.ackSeg) ∈ l)
  ackFlow : AckFlow c d

theorem Hush.speaks (h : Hush c d) : Speaks c d :=
  ⟨⟨[], by rw [h.sent, append_nil], by simp, by simp, .inl h.ackSeg⟩, h.ackFlow⟩

theorem Speaks.silent (ha : d.toAckState = c.toAckState) (ho : d.out = c.out) :
    Speaks c d := (Hush.of_out ha ho).speaks

theorem Speaks.one (ha : d.toAckState = c.toAckState)
    (ho : d.out = c.out ++ [o]) (hw : Wordless o) : Speaks c d := (Hush.of_one ha ho hw).speaks

theorem Hush.before (h : Hush c d) (hs : Speaks d e) : Speaks c e := by
  obtain ⟨⟨l, hl, hsaid, hbody, hack⟩, hflow⟩ := hs
  have hbody' : ∀ x ∈ l, AckBody c x := by
    intro x hx hk
    rw [hbody x hx hk, h.ackSeg]
  refine ⟨⟨l, by rw [hl, h.sent], hsaid, hbody', ?_⟩, h.ackFlow.trans hflow⟩
  rw [h.ackSeg] at hack
  exact hack

theorem Speaks.ackBody (h : Speaks c d) : d.ackSeg.body = c.ackSeg.body := by
  obtain ⟨l, -, -, hbody, hack | hack⟩ := h.segs
  · rw [hack]
  · exact hbody _ hack rfl

theorem Speaks.andThen (h : Speaks c d) (ha : After d e) (hs : Speaks d e) : Speaks c e := by
  have hown := h.ackBody
  obtain ⟨⟨l, hl, hsaid, hbody, hack⟩, hflow⟩ := h
  obtain ⟨⟨l', hl', hsaid', hbody', hack'⟩, hflow'⟩ := hs
  refine ⟨⟨l ++ l', by rw [hl', hl, append_assoc], ?_, ?_, ?_⟩, hflow.trans hflow'⟩
  · exact forall_mem_append.mpr ⟨fun x hx => (hsaid x hx).after ha, hsaid'⟩
  · exact forall_mem_append.mpr ⟨hbody, fun x hx hk => (hbody' x hx hk).trans hown⟩
  · rcases hack' with hack' | hack'
    · rw [hack']
      rcases hack with hack | hack
      · exact .inl hack
      · exact .inr (mem_append_left _ hack)
    · exact .inr (mem_append_right _ hack')

theorem Speaks.andHush (h : Speaks c d) (ha : After d e) (hs : Hush d e) :
    Speaks c e := h.andThen ha hs.speaks

/-! ### Sending one segment -/

section

variable {c : TcpConn} {flags : UInt16} (hbits : AckBits c.delayedAckFlags)
include hbits

theorem said_of_refreshed {k : SegKind} {s : TcpSeg}
    (hack : c.state ≠ .synSent → hasFlag flags FLAG_ACK)
    (hrst : hasFlag flags FLAG_RST = false)
    (hfin : hasFlag flags FLAG_FIN → c.finSent ∧
      s.seqNum + s.dataLen32 + 1 = c.fsse)
    (haddr : k = .control ∨ k = .fresh → s.addr = c.addr) (hbare : k = .control → s.dataLen = 0) :
    Said c k (tcpSegUpdate s c flags).1 := by
  have h := tcpSegUpdate_refreshed s c flags hbits
  obtain ⟨f, a, w, o, ol, hsame⟩ := h.same
  refine ⟨h.offset, h.ackNum, fun hs => h.ack (hack hs), ?_, ?_, ?_, ?_⟩
  · by_contra hne
    rw [Bool.not_eq_false] at hne
    rw [h.rst hne] at hrst
    cases hrst
  · intro hf
    rw [hsame]
    rcases h.fin hf with hf | ⟨hsent, hride⟩
    · exact ⟨(hfin hf).1, .inl (hfin hf).2⟩
    · exact ⟨hsent, .inr hride⟩
  · rw [hsame]
    exact haddr
  · rw [hsame]
    exact hbare

end

theorem tcpSegUpdate_body (s : TcpSeg) (c : TcpConn) (flags : UInt16) :
    (tcpSegUpdate s c flags).1.body = s.body := by
  obtain ⟨f, k, w, o, ol, a, h⟩ := tcpSegUpdate_frame s c flags
  rw [h]
  exact reheaded_body s f k w o ol

theorem tcpSegUpdate_hush (s : TcpSeg) (c : TcpConn) (flags : UInt16) :
    Hush c (tcpSegUpdate s c flags).2 ∧ After c (tcpSegUpdate s c flags).2 := by
  obtain ⟨a, h, ha⟩ := tcpSegUpdate_conn s c flags
  rw [h]
  refine ⟨?_, ⟨rfl, rfl, rfl, rfl, fun _ => rfl⟩⟩
  rcases ha with rfl | rfl
  · exact .refl c
  · exact .call_off rfl rfl (by simp)

theorem Speaks.of_said {k : SegKind} {s : TcpSeg} (h : Hush c d) (hsaid : Said d k s)
    (hbody : AckBody d (k, s)) (ho : e.out = d.out ++ [.seg k s]) (hafter : After d e)
    (hack : e.ackSeg = d.ackSeg ∨ k = .ack ∧ e.ackSeg = s) (hflow : AckFlow d e) : Speaks c e := by
  have hsent : e.sent = d.sent ++ [(k, s)] := sent_append ho
  refine h.before ⟨⟨[(k, s)], hsent, ?_, ?_, ?_⟩, hflow⟩
  · exact forall_mem_singleton.mpr (hsaid.after hafter)
  · exact forall_mem_singleton.mpr hbody
  · rcases hack with hack | ⟨rfl, rfl⟩
    · exact .inl hack
    · exact .inr (mem_singleton_self _)

theorem tcpSegCreate_dataLen32 (a : ConnAddr) (m n : UInt32) :
    (tcpSegCreate a m n).dataLen32 = 0 := rfl

theorem sendControl_speaks {flags : UInt16} (hbits : AckBits c.delayedAckFlags)
    (hack : c.state ≠ .synSent → hasFlag flags FLAG_ACK)
    (hrst : hasFlag flags FLAG_RST = false)
    (hfin : hasFlag flags FLAG_FIN → c.finSent ∧ c.sendSeqEnd + 1 = c.fsse) :
    Speaks c (sendControl c flags) := by
  have hsaid : Said c .control (tcpSegUpdate
      (tcpSegCreate c.addr c.sendSeqEnd c.sendSeqEnd) c flags).1 := by
    apply said_of_refreshed hbits hack hrst
    · intro hf
      rw [tcpSegCreate_dataLen32, UInt32.add_zero]
      exact hfin hf
    · exact fun _ => rfl
    · exact fun _ => rfl
  obtain ⟨hhush, hafter⟩ :=
    tcpSegUpdate_hush (tcpSegCreate c.addr c.sendSeqEnd c.sendSeqEnd) c flags
  exact .of_said hhush (hsaid.after hafter) (by intro hk; cases hk) rfl
    ⟨rfl, rfl, rfl, rfl, fun _ => rfl⟩
    (.inl rfl) (.inl ⟨rfl, id⟩)

theorem sendControl_after (c : TcpConn) (flags : UInt16) : After c (sendControl c flags) := by
  obtain ⟨a, seg, h⟩ := sendControl_frame c flags
  rw [h]
  exact ⟨rfl, rfl, rfl, rfl, fun _ => rfl⟩

theorem sendAckSeg_speaks {flags : UInt16} (hbits : AckBits c.delayedAckFlags)
    (hack : hasFlag flags FLAG_ACK) (hrst : hasFlag flags FLAG_RST = false)
    (hfin : hasFlag flags FLAG_FIN = false) : Speaks c (sendAckSeg c flags) := by
  have hsaid : Said c .ack (tcpSegUpdate
      { c.ackSeg with seqNum := c.sendSeqEnd, seqEnd := c.sendSeqEnd } c flags).1 := by
    apply said_of_refreshed hbits (fun _ => hack) hrst
    · intro hf
      rw [hfin] at hf
      cases hf
    · rintro (h | h) <;> cases h
    · intro hk
      cases hk
  obtain ⟨hhush, hafter⟩ := tcpSegUpdate_hush
    { c.ackSeg with seqNum := c.sendSeqEnd, seqEnd := c.sendSeqEnd } c flags
  have hbody : AckBody (tcpSegUpdate
      { c.ackSeg with seqNum := c.sendSeqEnd, seqEnd := c.sendSeqEnd } c flags).2
      (.ack, (tcpSegUpdate
        { c.ackSeg with seqNum := c.sendSeqEnd, seqEnd := c.sendSeqEnd } c flags).1) := by
    intro _
    rw [tcpSegUpdate_body, hhush.ackSeg]
    rfl
  exact .of_said hhush (hsaid.after hafter) hbody rfl ⟨rfl, rfl, rfl, rfl, fun _ => rfl⟩
    (.inr ⟨rfl, rfl⟩)
    (.inl ⟨rfl, id⟩)

theorem sendAckSeg_after (c : TcpConn) (flags : UInt16) : After c (sendAckSeg c flags) := by
  obtain ⟨a, w, seg, h⟩ := sendAckSeg_frame c flags
  rw [h]
  exact ⟨rfl, rfl, rfl, rfl, fun _ => rfl⟩

theorem resendNode_speaks {note : TcpConn → TcpConn} (hnote : note = noteFlow ∨ note = id)
    (n : TcpNode TcpSeg) (hbits : AckBits c.delayedAckFlags) : Speaks c (resendNode note c n) := by
  have hsaid : Said c .resend (tcpSegUpdate n.data c FLAG_ACK).1 := by
    apply said_of_refreshed hbits (fun _ => by decide) (by decide)
    · intro hf
      exact absurd hf (by decide)
    · rintro (h | h) <;> cases h
    · intro hk
      cases hk
  obtain ⟨hhush, hafter⟩ := tcpSegUpdate_hush n.data c FLAG_ACK
  have hsend : ∀ e : TcpConn, e.out = (tcpSegUpdate n.data c FLAG_ACK).2.out ++
      [.seg .resend (tcpSegUpdate n.data c FLAG_ACK).1] →
      After (tcpSegUpdate n.data c FLAG_ACK).2 e →
      e.toAckState = (tcpSegUpdate n.data c FLAG_ACK).2.toAckState → Speaks c e := by
    intro e ho ha hst
    apply Speaks.of_said hhush (hsaid.after hafter) (by intro hk; cases hk) ho ha
    · exact .inl (congrArg AckState.ackSeg hst)
    · refine .inl ⟨congrArg AckState.delayedAckFlags hst, ?_⟩
      unfold AckPending
      rw [hst]
      exact id
  unfold resendNode
  rcases hnote with rfl | rfl
  · exact hsend _ rfl ⟨rfl, rfl, rfl, rfl, fun _ => rfl⟩ rfl
  · exact hsend _ rfl ⟨rfl, rfl, rfl, rfl, fun _ => rfl⟩ rfl

/-! ### Calls that say nothing -/

structure Mum (c d : TcpConn) : Prop where
  ack : d.toAckState = c.toAckState
  sent : d.sent = c.sent

theorem Mum.hush (h : Mum c d) : Hush c d := .of_sent h.ack h.sent

theorem Mum.refl (c : TcpConn) : Mum c c := ⟨rfl, rfl⟩

theorem Mum.trans (h₁ : Mum c₁ c₂) (h₂ : Mum c₂ c₃) : Mum c₁ c₃ :=
  ⟨h₂.ack.trans h₁.ack, h₂.sent.trans h₁.sent⟩

theorem Mum.of_out (ha : d.toAckState = c.toAckState) (ho : d.out = c.out) : Mum c d := by
  refine ⟨ha, ?_⟩
  unfold TcpConn.sent
  rw [ho]

theorem Mum.of_one (ha : d.toAckState = c.toAckState)
    (ho : d.out = c.out ++ [o]) (hw : Wordless o) : Mum c d := ⟨ha, sent_one ho hw⟩

theorem AckStep.mum (h : AckStep c seg c') : Mum c c' := by
  cases h with
  | fin w hwin hsent hack hw => exact .of_one rfl rfl rfl
  | _ => exact .of_out rfl rfl

theorem FlagsStep.mum {r : FlagsRet} (h : FlagsStep c seg r c') : Mum c c' := by
  cases h with
  | keep => exact .refl c
  | data => exact .of_out rfl rfl
  | finWait2 | finWait2Data | timeWait | closed => exact .of_one rfl rfl rfl
  | fin new g he hf hg =>
    refine ⟨rfl, ?_⟩
    simp [TcpConn.sent, alertShutdownRd, TcpConn.emit, TcpConn.setState, consumeFin, advanceRecv,
      sentSeg]

theorem SegStep.mum {md : TcpData} (h : SegStep md c seg c') : Mum c c' := by
  cases h with
  | options c1 o hf => exact hf.mum.trans (.of_out rfl rfl)
  | handOff c1 hf => exact hf.mum.trans (.of_one rfl rfl rfl)
  | bare r c1 hf => exact hf.mum

theorem tcpHandleData_mum (md : TcpData) (c : TcpConn) (seg : TcpSeg) :
    Mum c (tcpHandleData md c seg).1 := by
  apply tcpHandleData_induct (P := Mum c)
  · exact fun d w h => h.trans (.of_out rfl rfl)
  · exact fun d m h => h.trans (.of_out rfl rfl)
  · exact fun d n ns _ h => h.trans (.of_out rfl rfl)
  · intro d n ns c' _ _ hstep h
    have hpop : Mum d d.popRecv := .of_out rfl rfl
    exact h.trans (hpop.trans hstep.mum)
  · exact fun c' _ hstep h => h.trans hstep.mum
  · exact fun q _ _ _ h => h.trans (.of_out rfl rfl)
  · exact .refl c

theorem handleAckFlag_mum (md : TcpData) (c : TcpConn) (seg : TcpSeg) :
    Mum c (handleAckFlag md c seg) := by
  unfold handleAckFlag
  split
  · exact (tcpHandleAck_step md c seg).mum
  · exact .refl c

theorem tcpHandleRst_hush (c : TcpConn) (seg : TcpSeg) : Hush c (tcpHandleRst c seg) := by
  unfold tcpHandleRst
  split
  · exact .of_out rfl rfl
  · exact .refl c

theorem alertPollWrite_hush (c : TcpConn) (space : Int) :
    Hush c (alertPollWrite c space) ∧ After c (alertPollWrite c space) := by
  unfold alertPollWrite
  split
  · exact ⟨.of_one rfl rfl rfl, ⟨rfl, rfl, rfl, rfl, fun _ => rfl⟩⟩
  · exact ⟨.refl c, .refl c⟩

theorem WriteMove.hush (h : WriteMove c d) : Hush c d := by
  obtain ⟨w, pe, m, n, l, -, hl, rfl⟩ := h
  refine .of_sent rfl (sent_wordless rfl fun o ho => ?_)
  have hout := hl o ho
  cases o with
  | execReply | accept | alert => rfl
  | _ => exact hout.elim

theorem tcpHandleRequests_hush (c : TcpConn) : Hush c (tcpHandleRequests c) :=
  (tcpHandleRequests_writeMove c).hush

theorem handleInterrupt_hush (c : TcpConn) : Hush c (handleInterrupt c) :=
  (handleInterrupt_writeMove c).hush

theorem alertPollIf_hush (b : Bool) (c : TcpConn) (space : Int) :
    Hush c (if b then alertPollWrite c space else c) := by
  split
  · exact (alertPollWrite_hush c space).1
  · exact .refl c

end FinsStack.Tcp
