import FinsStack.Tcp.NewData
import FinsStack.Tcp.SegView

/-!
# The segments of each call

One call after the other, the calculus of `SegView.lean` is applied to everything that
can happen to a connection.  The reply to received data comes first: as long as no stored
segment starts at `recv_seq_num`, the flags of a reply contain ACK (`Answer`), so
`tcp_handle_reply` never takes its last branch.  `step_speaks` is the result for all
events but two, which are described next to it: an arriving segment that makes the
connection send its old `ack_seg` once more (`ResendsAck`), and one that is answered by a
reset (`Resets`).
-/

namespace FinsStack.Tcp

/-! ### The flags of a reply -/

def Answer (sf : UInt16) : Prop :=
  sf = FLAG_ACK ∨ sf = FLAG_ACK ||| FLAG_ACK_NOW ∨ sf = FLAG_FIN ||| FLAG_ACK ∨
    sf = FLAG_FIN ||| FLAG_ACK ||| FLAG_ACK_NOW
deriving Decidable

variable {flags sf sf' : UInt16} {c d : TcpConn} {seg : TcpSeg} {e : Event}

theorem Answer.or_ack (h : Answer sf) : Answer (sf ||| FLAG_ACK) := by
  rcases h with rfl | rfl | rfl | rfl <;> decide

theorem Answer.or_fin (h : Answer sf) : Answer (sf ||| FLAG_FIN ||| FLAG_ACK) := by
  rcases h with rfl | rfl | rfl | rfl <;> decide

theorem Answer.or_now (h : Answer sf) : Answer (sf ||| FLAG_ACK_NOW) := by
  rcases h with rfl | rfl | rfl | rfl <;> decide

/-- Nothing is to be answered and `recv_seq_num` is still `r`, or the answer contains ACK. -/
def Answered (r : UInt32) (c : TcpConn) (sf : UInt16) : Prop :=
  sf = 0 ∧ c.recvSeqNum = r ∨ Answer sf

theorem FlagsReply.answer (hr : FlagsReply c sf d sf') (h : Answer sf) : Answer sf' := by
  cases hr with
  | keep => exact h
  | ack => exact h.or_ack
  | fin => exact h.or_fin

theorem FlagsReply.answered {r : UInt32} (hr : FlagsReply c sf d sf') (h : Answered r c sf) :
    Answered r d sf' := by
  rcases h with ⟨rfl, hrecv⟩ | h
  · cases hr with
    | keep hd => exact .inl ⟨rfl, hd.trans hrecv⟩
    | ack | fin => exact .inr (by decide)
  · exact .inr (hr.answer h)

variable {note : TcpConn → TcpConn} (md : TcpData) (rand : UInt32)

/-- No node is processed while `recv_seq_num` stands still, so the drain loop adds
    `FLAG_ACK_NOW` to an answer only. -/
theorem drainLoop_answered {r : UInt32} {ns : List (TcpNode TcpSeg)}
    (hns : ∀ n ∈ ns, n.seqNum ≠ r) (h : Answered r c sf) :
    Answered r (drainLoop md ns c sf).1 (drainLoop md ns c sf).2 := by
  induction ns generalizing c sf with
  | nil => exact h
  | cons n ns ih =>
    have hrest : ∀ m ∈ ns, m.seqNum ≠ r := fun m hm => hns m (List.mem_cons_of_mem _ hm)
    unfold drainLoop
    split
    · exact h
    · exact ih hrest h
    · rename_i hstep
      have hsf : Answer sf := by
        rcases h with ⟨-, hrecv⟩ | h
        · exact absurd ((drainStep_process hstep).trans hrecv) (hns n (List.mem_cons_self ..))
        · exact h
      have hseg := (tcpProcessSeg_outcome md c.popRecv n.data sf).2.answer hsf
      apply ih hrest
      split
      · exact .inr hseg.or_now
      · exact .inr hseg

def NoneDue (c : TcpConn) : Prop := ∀ n ∈ c.recvQueue.nodes, n.seqNum ≠ c.recvSeqNum

/-- **The flags `tcp_handle_data` returns.** -/
theorem tcpHandleData_answer (seg : TcpSeg) (h : NoneDue c) :
    (tcpHandleData md c seg).2 = 0 ∨ Answer (tcpHandleData md c seg).2 ∨
      seg.seqNum ≠ c.recvSeqNum ∧ seg.dataLen ≠ 0 ∧ (tcpHandleData md c seg).2 = FLAG_REPEAT := by
  unfold tcpHandleData
  split
  · have hseg : Answered c.recvSeqNum (tcpProcessSeg md c seg 0).2.1
        (tcpProcessSeg md c seg 0).2.2 :=
      (tcpProcessSeg_outcome md c seg 0).2.answered (.inl ⟨rfl, rfl⟩)
    have hns : ∀ n ∈ (tcpProcessSeg md c seg 0).2.1.recvQueue.nodes, n.seqNum ≠ c.recvSeqNum := by
      rw [(tcpProcessSeg_step md c seg 0).recvQueue_eq]
      exact h
    have hdrain : Answered c.recvSeqNum (handleInOrder md c seg).1 (handleInOrder md c seg).2 := by
      simp only [handleInOrder]
      split
      · exact drainLoop_answered md hns hseg
      · exact drainLoop_answered md hns hseg
    rcases hdrain with ⟨h0, -⟩ | hans
    · exact .inl h0
    · exact .inr (.inl hans)
  · rename_i hne
    rw [handleOutOfOrder_flags]
    split
    · rename_i hd
      exact .inr (.inr ⟨hne, hd, rfl⟩)
    · split
      · exact .inr (.inl (.inl rfl))
      · exact .inl rfl

/-! ### The reply -/

def DelayInv (c : TcpConn) : Prop :=
  c.delayedAckFlags = FLAG_ACK ∨ c.delayedAckFlags = 0 ∧ ¬ AckPending c

theorem DelayInv.bits (h : DelayInv c) : AckBits c.delayedAckFlags :=
  h.elim .inr fun h => .inl h.1

theorem DelayInv.flow (h : DelayInv c) (hf : AckFlow c d) : DelayInv d := by
  rcases hf with ⟨hf, hp⟩ | hf
  · rcases h with h | ⟨h, hn⟩
    · exact .inl (hf.trans h)
    · exact .inr ⟨hf.trans h, fun hd => hn (hp hd)⟩
  · exact .inl hf

theorem DelayInv.hush (h : DelayInv c) (hf : Hush c d) : DelayInv d :=
  h.flow hf.ackFlow

theorem DelayInv.pending (h : DelayInv c) (hp : AckPending c) : c.delayedAckFlags = FLAG_ACK := by
  rcases h with h | ⟨-, hn⟩
  · exact h
  · exact absurd hp hn

theorem Hush.sendControl (hd : Hush c d) (h : DelayInv c)
    (hack : d.state ≠ .synSent → hasFlag flags FLAG_ACK)
    (hf : hasFlag flags FLAG_RST = false ∧ hasFlag flags FLAG_FIN = false) :
    Speaks c (sendControl d flags) := by
  apply hd.before
  apply sendControl_speaks (h.hush hd).bits hack hf.1
  intro hfin
  rw [hf.2] at hfin
  cases hfin

theorem sendAckSeg_now_speaks (h : DelayInv c)
    (hf : hasFlag flags FLAG_ACK ∧ hasFlag flags FLAG_RST = false ∧
      hasFlag flags FLAG_FIN = false) :
    Speaks c { sendAckSeg { c with toDelayedTimer := false, toDelayedFlag := false } flags with
      delayedFlag := false } := by
  have hoff : Hush c { c with toDelayedTimer := false, toDelayedFlag := false } :=
    .call_off rfl rfl (by rintro (h | h | h) <;> first | exact .inr (.inr h) | cases h)
  have hsend := sendAckSeg_speaks (h.hush hoff).bits hf.1 hf.2.1 hf.2.2
  refine (hoff.before hsend).andHush ⟨rfl, rfl, rfl, rfl, fun _ => rfl⟩ (.call_off rfl rfl ?_)
  rintro (h | h | h)
  · exact .inl h
  · exact .inr (.inl h)
  · cases h

theorem replyAck_speaks (h : DelayInv c)
    (hf : flags = FLAG_ACK ∨ flags = FLAG_ACK ||| FLAG_ACK_NOW) : Speaks c (replyAck c flags) := by
  have hsame : hasFlag flags FLAG_ACK_SAME = false := by rcases hf with rfl | rfl <;> decide
  unfold replyAck
  simp only [hsame, Bool.false_and, Bool.false_eq_true, if_false]
  split
  · exact sendAckSeg_now_speaks h (by rcases hf with rfl | rfl <;> decide)
  · rename_i hlater
    have hack : flags = FLAG_ACK := by
      rcases hf with rfl | rfl
      · rfl
      · have hnow : hasFlag (FLAG_ACK ||| FLAG_ACK_NOW) FLAG_ACK_NOW = true := by decide
        rw [hnow, Bool.true_or] at hlater
        exact absurd rfl hlater
    exact ⟨⟨[], (List.append_nil _).symm, by simp, by simp, .inl rfl⟩, .inr hack⟩

theorem sendControlReply_speaks (h : DelayInv c) (hack : hasFlag flags FLAG_ACK)
    (hrst : hasFlag flags FLAG_RST = false)
    (hfin : hasFlag flags FLAG_FIN → c.finSent ∧ c.sendSeqEnd + 1 = c.fsse) :
    Speaks c (sendControlReply c flags) :=
  (sendControl_speaks h.bits (fun _ => hack) hrst hfin).andHush ⟨rfl, rfl, rfl, rfl, fun _ => rfl⟩
    (.of_out rfl rfl)

theorem tcpHandleReply_speaks (h : DelayInv c) (hf : Answer flags) :
    Speaks c (tcpHandleReply c flags) := by
  have hrst : hasFlag flags FLAG_RST = false := by rcases hf with rfl | rfl | rfl | rfl <;> decide
  unfold tcpHandleReply
  rw [hrst]
  simp only [Bool.false_eq_true, if_false]
  split
  · rename_i hfin
    have hnofin : hasFlag (flags &&& ~~~ FLAG_FIN) FLAG_FIN = false := by
      rcases hf with rfl | rfl | rfl | rfl <;> decide
    have hack : hasFlag flags FLAG_ACK ∧ hasFlag (flags &&& ~~~ FLAG_FIN) FLAG_ACK = true ∧
        hasFlag (flags &&& ~~~ FLAG_FIN) FLAG_RST = false := by
      rcases hf with rfl | rfl | rfl | rfl <;> decide
    have hoff : ∀ d : TcpConn, Hush d
        { d with toDelayedTimer := false, delayedFlag := false, toDelayedFlag := false } :=
      fun d => .call_off rfl rfl (by simp)
    by_cases hsent : c.finSent
    · simp only [hsent, if_true]
      refine (hoff c).before (sendControlReply_speaks (h.hush (hoff c)) hack.2.1 hack.2.2 ?_)
      intro hf'
      rw [hnofin] at hf'
      cases hf'
    · simp only [hsent, if_false, Bool.false_eq_true]
      have hmark : Hush c { c with finSent := true, finSep := true, fsse := c.sendSeqEnd + 1 } :=
        .of_out rfl rfl
      have hboth := hmark.trans (hoff _)
      exact hboth.before (sendControlReply_speaks (h.hush hboth) hack.1 hrst fun _ => ⟨rfl, rfl⟩)
  · rename_i hfin
    have hack : flags = FLAG_ACK ∨ flags = FLAG_ACK ||| FLAG_ACK_NOW := by
      rcases hf with rfl | rfl | rfl | rfl
      · exact .inl rfl
      · exact .inr rfl
      · exact absurd (by decide) hfin
      · exact absurd (by decide) hfin
    have hasAck : hasFlag flags FLAG_ACK := by rcases hack with rfl | rfl <;> decide
    rw [hasAck]
    simp only [if_true]
    exact replyAck_speaks h hack

structure AcksAgain (c d : TcpConn) : Prop where
  sent : d.sent = c.sent ++ [(.ack, c.ackSeg)]
  ackSeg : d.ackSeg = c.ackSeg
  recv : d.recvSeqNum = c.recvSeqNum
  ackFlow : AckFlow c d
  idle : d.delayedFlag = false

theorem Hush.acksAgain {e : TcpConn} (h : Hush c d) (hr : AcksAgain d e)
    (hrecv : d.recvSeqNum = c.recvSeqNum) : AcksAgain c e := by
  refine ⟨?_, hr.ackSeg.trans h.ackSeg, hr.recv.trans hrecv, h.ackFlow.trans hr.ackFlow, hr.idle⟩
  rw [hr.sent, h.sent, h.ackSeg]

structure AcksNow (c d : TcpConn) : Prop where
  speaks : Speaks c d
  sent : d.sent = c.sent ++ [(.ack, d.ackSeg)]
  ack : hasFlag d.ackSeg.flags FLAG_ACK = true
  recv : d.recvSeqNum = c.recvSeqNum

theorem Hush.acksNow {e : TcpConn} (h : Hush c d) (hr : AcksNow d e)
    (hrecv : d.recvSeqNum = c.recvSeqNum) : AcksNow c e := by
  refine ⟨h.before hr.speaks, ?_, hr.ack, hr.recv.trans hrecv⟩
  rw [hr.sent, h.sent]

theorem sendAckSeg_sent (c : TcpConn) (flags : UInt16) :
    (sendAckSeg c flags).sent = c.sent ++ [(.ack, (sendAckSeg c flags).ackSeg)] := by
  have hout : (sendAckSeg c flags).out = c.out ++ [.seg .ack (sendAckSeg c flags).ackSeg] := by
    obtain ⟨f, k, w, o, ol, a, h⟩ := tcpSegUpdate_frame
      { c.ackSeg with seqNum := c.sendSeqEnd, seqEnd := c.sendSeqEnd } c flags
    unfold sendAckSeg
    rw [h]
  exact sent_append hout

theorem sendAckSeg_ack (h : AckBits c.delayedAckFlags) (hf : hasFlag flags FLAG_ACK) :
    hasFlag (sendAckSeg c flags).ackSeg.flags FLAG_ACK = true := by
  have hmade := tcpSegUpdate_refreshed
    { c.ackSeg with seqNum := c.sendSeqEnd, seqEnd := c.sendSeqEnd } c flags h
  exact hmade.ack hf

theorem sendAckSeg_acksNow (h : DelayInv c)
    (hf : hasFlag flags FLAG_ACK ∧ hasFlag flags FLAG_RST = false ∧
      hasFlag flags FLAG_FIN = false) :
    AcksNow c { sendAckSeg { c with toDelayedTimer := false, toDelayedFlag := false } flags with
      delayedFlag := false } := by
  have hsent := sendAckSeg_sent { c with toDelayedTimer := false, toDelayedFlag := false } flags
  have hack : hasFlag (sendAckSeg { c with toDelayedTimer := false, toDelayedFlag := false }
      flags).ackSeg.flags FLAG_ACK = true := sendAckSeg_ack h.bits hf.1
  have hafter := sendAckSeg_after { c with toDelayedTimer := false, toDelayedFlag := false } flags
  exact ⟨sendAckSeg_now_speaks h hf, hsent, hack, hafter.recv⟩

theorem tcpHandleReply_repeat (h : DelayInv c) :
    if c.delayedFlag then AcksNow c (tcpHandleReply c FLAG_REPEAT)
    else AcksAgain c (tcpHandleReply c FLAG_REPEAT) := by
  have hreply : tcpHandleReply c FLAG_REPEAT = replyAck c FLAG_REPEAT := rfl
  have hsame : hasFlag FLAG_REPEAT FLAG_ACK_SAME := by decide
  have hnow : hasFlag FLAG_REPEAT FLAG_ACK_NOW := by decide
  rw [hreply]
  unfold replyAck
  simp only [hsame, hnow, Bool.true_or, Bool.true_and, if_true]
  by_cases hd : c.delayedFlag
  · simp only [hd, if_true, Bool.not_true, Bool.false_eq_true, if_false]
    have hsend : AcksNow c { sendAckSeg { c with toDelayedTimer := false, toDelayedFlag := false }
        FLAG_REPEAT with delayedFlag := false } := sendAckSeg_acksNow h (by decide)
    rw [hd] at hsend
    exact hsend
  · simp only [hd, if_false, Bool.false_eq_true, Bool.not_false, if_true]
    refine ⟨?_, rfl, rfl, .inl ⟨rfl, ?_⟩, rfl⟩
    · exact sent_append (c := c) (l := [.seg .ack c.ackSeg]) rfl
    · rintro (h | h | h) <;> cases h

/-! ### New data -/

theorem queueSent_hush (c : TcpConn) (s : TcpSeg) (n : UInt32) : Hush c (queueSent c s n) := by
  unfold queueSent
  refine Hush.trans ?_ (alertPollIf_hush _ _ _)
  split <;> split <;> exact .of_out rfl rfl

theorem queueSent_fields (c : TcpConn) (s : TcpSeg) (n : UInt32) :
    (queueSent c s n).addr = c.addr ∧ (queueSent c s n).recvSeqNum = c.recvSeqNum ∧
      (queueSent c s n).toFinSide = c.toFinSide ∧ (queueSent c s n).state = c.state ∧
      (queueSent c s n).sendSeqEnd = c.sendSeqEnd + n := by
  rw [queueSent_eq]
  obtain ⟨r, pe, l, -, -, h⟩ := startSent_frame { c with
    sendQueue := tcpQueueAppend c.sendQueue (sentNode c s n)
    nextAddr := c.nextAddr + 1
    sendSeqEnd := c.sendSeqEnd + n
    sendWin := uint32Decrease c.sendWin n } s
  rw [h]
  exact ⟨rfl, rfl, rfl, rfl, rfl⟩

theorem queueSent_speaks {s : TcpSeg} {n : UInt32}
    (hnote : note = noteFlow ∨ note = id) (h : DelayInv c) (hseq : s.seqNum = c.sendSeqEnd)
    (hlen : s.dataLen32 = n) (haddr : s.addr = c.addr) (hack : hasFlag flags FLAG_ACK)
    (hrst : hasFlag flags FLAG_RST = false)
    (hfin : hasFlag flags FLAG_FIN → c.finSent ∧
      s.seqNum + s.dataLen32 + 1 = c.fsse) :
    Speaks c (queueSent (note ((tcpSegUpdate s c flags).2.emit
      (.seg .fresh (tcpSegUpdate s c flags).1))) (tcpSegUpdate s c flags).1 n) := by
  have hsaid : Said c .fresh (tcpSegUpdate s c flags).1 :=
    said_of_refreshed h.bits (fun _ => hack) hrst hfin (fun _ => haddr) (by intro hk; cases hk)
  obtain ⟨a, hupd, ha⟩ := tcpSegUpdate_conn s c flags
  obtain ⟨f, k, w, o, ol, hsame⟩ := (tcpSegUpdate_refreshed s c flags h.bits).same
  have hplace : (tcpSegUpdate s c flags).1.seqNum + (tcpSegUpdate s c flags).1.dataLen32 =
      c.sendSeqEnd + n := by
    rw [hsame]
    show s.seqNum + s.dataLen32 = c.sendSeqEnd + n
    rw [hseq, hlen]
  generalize (tcpSegUpdate s c flags).1 = s' at hsaid hplace ⊢
  rw [hupd]
  have hhush : Hush c { c with toAckState := a } := by
    rcases ha with rfl | rfl
    · exact .refl c
    · exact .call_off rfl rfl (by simp)
  obtain ⟨d, hd, hdfields⟩ : ∃ d : TcpConn,
      note (TcpConn.emit { c with toAckState := a } (.seg .fresh s')) = d ∧
        d.out = c.out ++ [.seg .fresh s'] ∧ d.toAckState = a ∧ d.addr = c.addr ∧
        d.recvSeqNum = c.recvSeqNum ∧ d.toFinSide = c.toFinSide ∧ d.state = c.state ∧
        d.sendSeqEnd = c.sendSeqEnd := by
    rcases hnote with rfl | rfl
    · exact ⟨_, rfl, rfl, rfl, rfl, rfl, rfl, rfl, rfl⟩
    · exact ⟨_, rfl, rfl, rfl, rfl, rfl, rfl, rfl, rfl⟩
  rw [hd]
  obtain ⟨hout, hackst, haddr', hrecv, hfin', hstate, hend⟩ := hdfields
  obtain ⟨h₁, h₂, h₃, h₄, h₅⟩ := queueSent_fields d s' n
  have hq := queueSent_hush d s' n
  have hsent : d.sent = c.sent ++ [(.fresh, s')] := sent_append hout
  have hflow : AckFlow c d := by
    refine .inl ⟨?_, ?_⟩
    · rw [hackst]
      exact hhush.ackFlags
    · unfold AckPending
      rw [hackst]
      exact hhush.pending
  refine ⟨⟨[(.fresh, s')], by rw [hq.sent, hsent], ?_, ?_, .inl ?_⟩, hflow.trans hq.ackFlow⟩
  · intro x hx
    rw [List.mem_singleton] at hx
    rw [hx]
    have hsent' : (queueSent d s' n).finSent = c.finSent := by rw [h₃, hfin']
    have hsep : (queueSent d s' n).finSep = c.finSep := by rw [h₃, hfin']
    have hfsse : (queueSent d s' n).fsse = c.fsse := by rw [h₃, hfin']
    refine ⟨hsaid.offset, ?_, ?_, hsaid.rst, ?_, ?_, hsaid.bare⟩
    · rw [h₂, hrecv]
      exact hsaid.ackNum
    · rw [h₄, hstate]
      exact hsaid.ack
    · intro hf
      obtain ⟨hs, hpos⟩ := hsaid.fin hf
      rw [hsent', hsep, hfsse, h₅, hend]
      refine ⟨hs, hpos.imp_right ?_⟩
      rintro ⟨hs', hrides, -⟩
      exact ⟨hs', h₄ ▸ hstate ▸ hrides, hplace⟩
    · rw [h₁, haddr']
      exact hsaid.addr
  · intro x hx hk
    rw [List.mem_singleton] at hx
    rw [hx] at hk
    cases hk
  · rw [hq.ackSeg, hackst]
    exact hhush.ackSeg

theorem cutSegment_hush (c : TcpConn) (n : UInt32) : Hush c (cutSegment c n).2 := by
  unfold cutSegment
  refine Hush.trans ?_ (tcpHandleRequests_hush _)
  exact .of_out rfl rfl

theorem cutSegment_dataLen32 (c : TcpConn) (n : UInt32) : (cutSegment c n).1.dataLen32 = n := by
  show UInt32.ofInt (n.toNat : Int) = n
  rw [Lib.ofInt_natCast, UInt32.ofNat_toNat]

theorem cutSegment_place (c : TcpConn) (n : UInt32) :
    (cutSegment c n).1.seqNum = (cutSegment c n).2.sendSeqEnd ∧
      (cutSegment c n).1.addr = (cutSegment c n).2.addr := by
  obtain ⟨w, pe, l, -, hframe⟩ := cutSegment_frame c n
  rw [hframe]
  exact ⟨rfl, rfl⟩

theorem cutSegment_speaks (hnote : note = noteFlow ∨ note = id) (h : DelayInv c) (n : UInt32) :
    let s := cutSegment c n
    let r := tcpSegUpdate s.1 s.2 FLAG_ACK
    Speaks c (queueSent (note (r.2.emit (.seg .fresh r.1))) r.1 n) := by
  have hcut := cutSegment_hush c n
  obtain ⟨hseq, haddr⟩ := cutSegment_place c n
  apply hcut.before
  apply queueSent_speaks hnote (h.hush hcut) hseq (cutSegment_dataLen32 c n) haddr
  · decide
  · decide
  · intro hf
    exact absurd hf (by decide)

theorem sendNewEstablished_speaks (h : DelayInv c) : Speaks c (sendNewEstablished c) :=
  cutSegment_speaks (.inl rfl) h (nextDataLen c)

theorem sendNewFinWait1_speaks (h : DelayInv c) : Speaks c (sendNewFinWait1 c) := by
  have hcut := cutSegment_hush c (nextDataLen c)
  obtain ⟨hseq, haddr⟩ := cutSegment_place c (nextDataLen c)
  simp only [sendNewFinWait1]
  split
  · have hmark : Hush c { (cutSegment c (nextDataLen c)).2 with
        finSent := true, finSep := false, fsse := (cutSegment c (nextDataLen c)).1.seqEnd + 1 } :=
      hcut.trans (.of_out rfl rfl)
    apply hmark.before
    apply queueSent_speaks (.inr rfl) (h.hush hmark) hseq (cutSegment_dataLen32 c _) haddr
    · decide
    · decide
    · intro _
      refine ⟨rfl, ?_⟩
      rw [cutSegment_dataLen32]
      rfl
  · exact cutSegment_speaks (.inr rfl) h (nextDataLen c)

/-! ### A round of the main thread -/

theorem mainDelayedAck_speaks (h : DelayInv c) : Speaks c (mainDelayedAck c) := by
  unfold mainDelayedAck
  split
  · rename_i hflag
    have hf := h.pending (.inr (.inl hflag))
    have hoff : Hush c { c with toDelayedFlag := false, delayedFlag := false } :=
      .call_off rfl rfl (by rintro (h | h | h) <;> first | exact .inl h | cases h)
    apply hoff.before
    apply sendAckSeg_speaks (h.hush hoff).bits <;> rw [hf] <;> decide
  · exact (Hush.refl c).speaks

theorem mainDelayedAck_after (c : TcpConn) : After c (mainDelayedAck c) := by
  obtain ⟨a, w, l, -, h⟩ := mainDelayedAck_frame c
  rw [h]
  exact ⟨rfl, rfl, rfl, rfl, fun _ => rfl⟩

theorem Speaks.andDelayedAck (hs : Speaks c d) (h : DelayInv c) : Speaks c (mainDelayedAck d) :=
  hs.andThen (mainDelayedAck_after d) (mainDelayedAck_speaks (h.flow hs.ackFlow))

theorem sendFin_speaks (h : DelayInv c) : Speaks c (sendFin c) := by
  have hmark : Hush c { c with finSent := true, finSep := true, fsse := c.sendSeqEnd + 1 } :=
    .of_out rfl rfl
  exact hmark.before (sendControl_speaks (h.hush hmark).bits (fun _ => by decide) (by decide)
    fun _ => ⟨rfl, rfl⟩)

theorem finIfFinished_speaks (h : DelayInv c) : Speaks c (finIfFinished c) := by
  unfold finIfFinished
  split
  · exact sendFin_speaks h
  · exact (Hush.refl c).speaks

theorem mainTimeout_speaks (hnote : note = noteFlow ∨ note = id)
    (n : TcpNode TcpSeg) (h : DelayInv c) : Speaks c (mainTimeout note c n) := by
  obtain ⟨k, hcong⟩ := timeoutCong_frame { c with gbnFlag := true, rttFlag := false }
  unfold mainTimeout
  rw [hcong]
  have hmark : Hush c { c with
      gbnFlag := true, rttFlag := false, toCongCtl := k, gbnNode := some n.addr } :=
    .of_out rfl rfl
  exact (hmark.before (resendNode_speaks hnote n (h.hush hmark).bits)).andHush
    ⟨rfl, rfl, rfl, rfl, fun _ => rfl⟩ (.of_out rfl rfl)

theorem mainFast_speaks (hnote : note = noteFlow ∨ note = id)
    (h : DelayInv c) : Speaks c (mainFast note c) := by
  have hmark : Hush c { c with fastFlag := false } := .of_out rfl rfl
  unfold mainFast
  split
  · exact hmark.speaks
  · exact hmark.before (resendNode_speaks hnote _ (h.hush hmark).bits)

theorem mainGbn_speaks (hnote : note = noteFlow ∨ note = id)
    (h : DelayInv c) : Speaks c (mainGbn note c) := by
  unfold mainGbn
  split
  · exact .silent rfl rfl
  split
  · split
    · rename_i n _
      have hmark : Hush c { c with gbnNode := some n.addr } := .of_out rfl rfl
      exact hmark.before (resendNode_speaks hnote n (h.hush hmark).bits)
    · exact .silent rfl rfl
  · exact .silent rfl rfl

theorem mainRound_speaks {send : TcpConn → TcpConn} (fins : Bool)
    (hnote : note = noteFlow ∨ note = id) (h : DelayInv c) (hsend : Speaks c (send c)) :
    Speaks c (mainRound md note send fins c) := by
  unfold mainRound
  split
  · have hclear : Hush c (clearInterrupt c) := .of_out rfl rfl
    exact (hclear.trans (handleInterrupt_hush _)).speaks
  split
  · have hmark : Hush c { c with toGbnFlag := false, firstFlag := false, fastFlag := false } :=
      .of_out rfl rfl
    have hidle : Hush c { c with
        toGbnFlag := false, firstFlag := false, fastFlag := false, gbnFlag := false } :=
      .of_out rfl rfl
    simp only []
    split
    · split
      · exact hidle.before (sendFin_speaks (h.hush hidle))
      · exact hidle.speaks
    · exact hmark.before (mainTimeout_speaks hnote _ (h.hush hmark))
  split
  · exact mainFast_speaks hnote h
  split
  · exact mainGbn_speaks hnote h
  split
  · split
    · exact .silent rfl rfl
    · exact sendFin_speaks h
  split
  · exact hsend
  · exact .silent rfl rfl

theorem resendSyn_speaks (h : DelayInv c) (hs : c.state = .synSent) :
    Speaks c (resendSyn c rand) := by
  have hmark : Hush c (startSend c rand) := .of_out rfl rfl
  have hsend : Speaks c (sendControl (startSend c rand) FLAG_SYN) :=
    hmark.sendControl h (fun hne => absurd hs hne) (by decide)
  exact hsend.andHush ⟨rfl, rfl, rfl, rfl, fun _ => rfl⟩ (.of_out rfl rfl)

theorem clearDelayed_hush (c : TcpConn) :
    Hush c { c with toDelayedFlag := false } ∧ After c { c with toDelayedFlag := false } :=
  ⟨.call_off rfl rfl (by
    rintro (h | h | h)
    · exact .inl h
    · cases h
    · exact .inr (.inr h)), ⟨rfl, rfl, rfl, rfl, fun _ => rfl⟩⟩

theorem Retries.speaks {rand : UInt32} (hr : Retries c rand d) (h : DelayInv c) : Speaks c d := by
  have hout : Hush c (timedOut c) := .of_out rfl rfl
  have cleared {d : TcpConn} (hd : Speaks c d) : Speaks c { d with toDelayedFlag := false } :=
    hd.andHush (clearDelayed_hush _).2 (clearDelayed_hush _).1
  cases hr with
  | idle w g =>
    exact cleared (d := { clearInterrupt c with mainWaitFlag := w, toGbnFlag := g })
      (.silent rfl rfl)
  | refuse hff hd =>
    refine Hush.speaks ⟨sent_one rfl rfl, rfl, rfl, ?_⟩
    rintro (h | h | h)
    · exact .inl h
    · exact .inr (.inl (hd h))
    · exact .inr (.inr h)
  | syn hs => exact cleared (hout.before (resendSyn_speaks rand (h.hush hout) hs))
  | back hs =>
    have hback : Hush c ((timedOut c).setState .synSent) := .of_one rfl rfl rfl
    exact cleared (hback.before (resendSyn_speaks rand (h.hush hback) rfl))
  | synAck hs =>
    have hsend : Speaks c (sendControl (timedOut c) (FLAG_SYN ||| FLAG_ACK)) :=
      hout.sendControl h (fun _ => by decide) (by decide)
    exact (cleared hsend).andHush ⟨rfl, rfl, rfl, rfl, fun _ => rfl⟩ (.of_out rfl rfl)

theorem lastDelayedAck_speaks (h : DelayInv c) :
    Speaks c (if c.delayedFlag then
        sendAckSeg { c with toDelayedTimer := false, delayedFlag := false, toDelayedFlag := false }
          c.delayedAckFlags
      else c) := by
  split
  · rename_i hflag
    have hf := h.pending (.inr (.inr hflag))
    have hoff : Hush c
        { c with toDelayedTimer := false, delayedFlag := false, toDelayedFlag := false } :=
      .call_off rfl rfl (by simp)
    apply hoff.before
    apply sendAckSeg_speaks (h.hush hoff).bits <;> rw [hf] <;> decide
  · exact (Hush.refl c).speaks

theorem tcpMainTimeWait_speaks (h : DelayInv c) (hs : c.state = .timeWait) :
    Speaks c (tcpMainTimeWait c) := by
  simp only [tcpMainTimeWait]
  split
  · have hmark : Hush c { clearInterrupt c with toGbnFlag := false } := .of_out rfl rfl
    have hack := hmark.before (lastDelayedAck_speaks (h.hush hmark))
    have hst := (timeWaitAck_inert { clearInterrupt c with toGbnFlag := false }).state
    refine hack.andHush ⟨rfl, rfl, rfl, rfl, ?_⟩ (.of_one rfl rfl rfl)
    intro hnot
    exact absurd (hst.trans hs) hnot
  · have hwait : Hush c { clearInterrupt c with mainWaitFlag := true } := .of_out rfl rfl
    exact hwait.before (mainDelayedAck_speaks (h.hush hwait))

theorem tcpMainState_speaks (h : DelayInv c) :
    Speaks c (tcpMainState md c rand) := by
  have closed : Speaks c (tcpMainClosed c) := by
    have hwait : Hush c { clearInterrupt c with toGbnFlag := false, mainWaitFlag := true } :=
      .of_out rfl rfl
    exact (hwait.trans (clearDelayed_hush _).1).speaks
  have established : Speaks c (tcpMainEstablished md c) :=
    (mainRound_speaks md false (.inl rfl) h (sendNewEstablished_speaks h)).andDelayedAck h
  have finWait1 : Speaks c (tcpMainFinWait1 md c) :=
    (mainRound_speaks md true (.inr rfl) h (sendNewFinWait1_speaks h)).andDelayedAck h
  unfold tcpMainState
  split
  · exact closed
  · exact closed
  · exact (tcpMainSynSent_retries c rand ‹_›).speaks h
  · exact (tcpMainSynRecv_retries c rand ‹_›).speaks h
  · exact established
  · exact finWait1
  · have hclear : Speaks c { clearInterrupt c with toGbnFlag := false } := .silent rfl rfl
    exact (hclear.andDelayedAck h).andHush ⟨rfl, rfl, rfl, rfl, fun _ => rfl⟩ (.of_out rfl rfl)
  · exact finWait1
  · exact tcpMainTimeWait_speaks h ‹_›
  · exact established
  · exact finWait1

theorem tcpMainThread_speaks (h : DelayInv c) :
    Speaks c (tcpMainThread md c rand) := by
  unfold tcpMainThread
  split
  · exact (Hush.refl c).speaks
  · split
    · exact .silent rfl rfl
    · exact (Hush.refl c).speaks
  · split
    · have hround := tcpMainState_speaks md rand h
      simp only []
      split
      · exact hround.andHush ⟨rfl, rfl, rfl, rfl, fun _ => rfl⟩ (.of_out rfl rfl)
      · exact hround
    · refine Hush.speaks ⟨rfl, rfl, rfl, ?_⟩
      rintro (h | h | h)
      · cases h
      · exact .inr (.inl h)
      · exact .inr (.inr h)

/-! ### Calls of the application -/

theorem Shuts.speaks (hs : Shuts c d) (h : DelayInv c) : Speaks c d := by
  have entered {new : TcpState} {d : TcpConn} (ht : Tells (c.setState new) d) : Hush c d := by
    refine Hush.trans ?_ ht.hush
    exact .of_one rfl rfl rfl
  cases hs with
  | tells ht => exact ht.hush.speaks
  | @stop d _ _ ht =>
    have hstop : Hush d (tcpConnShutdown d) := .of_out rfl rfl
    exact ((entered ht).trans hstop).speaks
  | fin _ _ ht => exact (entered ht).before (finIfFinished_speaks (h.hush (entered ht)))

theorem tcpSetHostWindow_speaks (value : UInt32) (h : DelayInv c) :
    Speaks c (tcpSetHostWindow c value) := by
  simp only [tcpSetHostWindow]
  split
  · have hmark : Hush c { c with
        recvWin := uint32Increase c.recvWin value c.recvMaxWin, flowStopped := false } :=
      .of_out rfl rfl
    exact hmark.sendControl h (fun _ => by decide) (by decide)
  · exact .silent rfl rfl

theorem tcpConnFcf_speaks (ff : Fcf) (op : FcfOp) (h : DelayInv c) :
    Speaks c (tcpConnFcf c ff op) := by
  rcases tcpConnFcf_shuts c ff op with hs | ⟨value, -, -, hw⟩
  · exact hs.speaks h
  · exact hw ▸ tcpSetHostWindow_speaks value h

theorem tcpConnect_speaks (ff : Fcf) (rand : UInt32) (h : DelayInv c) :
    Speaks c (tcpConnect c ff rand) := by
  unfold tcpConnect
  split
  · split
    · have hmark : Hush c
          (startSend { c.setState .synSent with activeOpen := true, ff := some ff } rand) :=
        .of_one rfl rfl rfl
      have hsend : Speaks c (sendControl
          (startSend { c.setState .synSent with activeOpen := true, ff := some ff } rand)
          FLAG_SYN) :=
        hmark.sendControl h (fun hne => absurd rfl hne) (by decide)
      exact hsend.andHush ⟨rfl, rfl, rfl, rfl, fun _ => rfl⟩ (.of_out rfl rfl)
    · exact .one rfl rfl rfl
  · exact .one rfl rfl rfl

/-! ### An arriving segment -/

def OutOfOrder (c : TcpConn) (seg : TcpSeg) : Prop :=
  hasFlag seg.flags FLAG_RST = false ∧ seg.seqNum ≠ c.recvSeqNum ∧ seg.dataLen ≠ 0
deriving Decidable

/-- **What an arriving segment makes the connection say.** -/
inductive Heard (c : TcpConn) (seg : TcpSeg) (c' : TcpConn) : Prop
  /-- No acknowledgment is delayed, so `ack_seg` is taken as it is. -/
  | again (hs : Handling c.state) (ho : OutOfOrder c seg) (hd : c.delayedFlag = false)
      (h : AcksAgain c c')
  | now (hs : Handling c.state) (ho : OutOfOrder c seg) (hd : c.delayedFlag = true)
      (h : AcksNow c c')
  | reset (hr : Resets c seg) (h : c' = c.emit (.seg .control (resetFor c seg)))
  | closeWait (hs : c.state = .closeWait) (h : Hush c c')
  | speaks (hs : ¬ (Handling c.state ∧ OutOfOrder c seg)) (hcw : c.state ≠ .closeWait)
      (hr : ¬ Resets c seg) (h : Speaks c c')

theorem handleOutOfOrder_recvSeqNum (c : TcpConn) (seg : TcpSeg) :
    (handleOutOfOrder c seg).1.recvSeqNum = c.recvSeqNum := by
  simp only [handleOutOfOrder]
  repeat' split
  all_goals rfl

theorem NoneDue.congr (h : NoneDue c) (hr : d.toRecvSide = c.toRecvSide) : NoneDue d := by
  unfold NoneDue
  rw [hr]
  exact h

theorem Handling.not_resets (h : Handling c.state) : ¬ Resets c seg := by
  rintro ⟨-, -, ⟨hs, -⟩ | ⟨hs, -⟩⟩ <;> simp [hs, Handling, Receiving] at h

theorem Handling.not_closeWait (h : Handling c.state) : c.state ≠ .closeWait := by
  intro hs
  simp [hs, Handling, Receiving] at h

/-- **The reply to the data of a segment.**  `d` is the connection after the acknowledgment
    was taken, `d'` the one that replies. -/
theorem heard_of_reply {md : TcpData} {d' : TcpConn} (h : DelayInv c) (hnone : NoneDue c)
    (hd : Mum c d) (hr : d.toRecvSide = c.toRecvSide) (hs : Handling c.state)
    (hrst : hasFlag seg.flags FLAG_RST = false) (hd' : Mum (tcpHandleData md d seg).1 d')
    (hrecv' : d'.recvSeqNum = (tcpHandleData md d seg).1.recvSeqNum) :
    Heard c seg (replyTo d' (tcpHandleData md d seg).2) := by
  have hmum : Mum c d' := hd.trans ((tcpHandleData_mum md d seg).trans hd')
  have hinv : DelayInv d' := h.hush hmum.hush
  have hflag : d'.delayedFlag = c.delayedFlag := congrArg AckState.delayedFlag hmum.ack
  have hrecv : d.recvSeqNum = c.recvSeqNum := congrArg RecvSide.recvSeqNum hr
  have hans := tcpHandleData_answer md seg (hnone.congr hr)
  rw [hrecv] at hans
  by_cases hout : OutOfOrder c seg
  · -- the flags ask for `ack_seg` as it is
    have hdata : tcpHandleData md d seg = handleOutOfOrder d seg := by
      unfold tcpHandleData
      rw [hrecv, if_neg hout.2.1]
    have hflags : (tcpHandleData md d seg).2 = FLAG_REPEAT := by
      rw [hdata, handleOutOfOrder_flags, if_pos hout.2.2]
    have hstill : d'.recvSeqNum = c.recvSeqNum := by
      rw [hrecv', hdata, handleOutOfOrder_recvSeqNum, hrecv]
    have hreply := tcpHandleReply_repeat hinv
    have hne0 : FLAG_REPEAT ≠ 0 := by decide
    rw [hflags, replyTo, if_pos hne0]
    rw [hflag] at hreply
    by_cases hdel : c.delayedFlag
    · simp only [hdel, if_true] at hreply
      exact .now hs hout hdel (hmum.hush.acksNow hreply hstill)
    · simp only [hdel, Bool.false_eq_true, if_false] at hreply
      exact .again hs hout (by simpa using hdel) (hmum.hush.acksAgain hreply hstill)
  · refine .speaks (fun hall => hout hall.2) hs.not_closeWait hs.not_resets ?_
    unfold replyTo
    rcases hans with h0 | hans | hans
    · rw [if_neg (by simp [h0])]
      exact hmum.hush.speaks
    · split
      · exact hmum.hush.before (tcpHandleReply_speaks hinv hans)
      · exact hmum.hush.speaks
    · exact absurd ⟨hrst, hans.1, hans.2.1⟩ hout

theorem heard_of_rst (hs : Handling c.state) (hrst : hasFlag seg.flags FLAG_RST) :
    Heard c seg (tcpHandleRst c seg) := by
  refine .speaks ?_ hs.not_closeWait hs.not_resets (tcpHandleRst_hush c seg).speaks
  rintro ⟨-, hout, -⟩
  rw [hrst] at hout
  cases hout

/-- **The states that look at data** reset, or answer the data. -/
theorem tcpRecvState_handling {md : TcpData} {env : RecvEnv} {P : TcpConn → Prop}
    (hs : Handling c.state) (hrst : hasFlag seg.flags FLAG_RST → P (tcpHandleRst c seg))
    (hreply : ∀ d d', hasFlag seg.flags FLAG_RST = false → Mum c d →
      d.toRecvSide = c.toRecvSide → Mum (tcpHandleData md d seg).1 d' →
      d'.recvSeqNum = (tcpHandleData md d seg).1.recvSeqNum →
      P (replyTo d' (tcpHandleData md d seg).2)) : P (tcpRecvState md c seg env) := by
  have hack : Mum c (ackFirst md c seg) := by
    unfold ackFirst
    split
    · exact .refl c
    · exact handleAckFlag_mum md c seg
  have hstop (d : TcpConn) : Mum d (stopClosed d) ∧ (stopClosed d).recvSeqNum = d.recvSeqNum := by
    unfold stopClosed
    split
    · exact ⟨.of_out rfl rfl, rfl⟩
    · exact ⟨.refl d, rfl⟩
  have h := tcpRecvState_arriving md c seg env
  generalize tcpRecvState md c seg env = c' at h ⊢
  cases h with
  | closed hs' | listen hs' | ack hs' => exact absurd hs (by simp [hs', Handling, Receiving])
  | greets hs' => rcases hs' with hs' | hs' <;> simp [hs', Handling, Receiving] at hs
  | rst _ h => exact hrst h
  | data _ hno =>
    exact hreply _ _ hno hack (ackFirst_inert md c seg).recv (hstop _).1 (hstop _).2

theorem tcpRecvListen_hush (c : TcpConn) (seg : TcpSeg) (known room : Bool) (child : Nat) :
    Hush c (tcpRecvListen c seg known room child) := by
  unfold tcpRecvListen
  split
  · exact .refl c
  · split
    · split
      · exact .of_out rfl rfl
      · exact .refl c
    · exact .refl c

theorem answerSyn_speaks (h : DelayInv c) (hd : Hush c d) (o : Bool) (t : Rat) :
    Speaks c { sendControl d (FLAG_SYN ||| FLAG_ACK) with
      timeout := t, toGbnTimer := o, toGbnFlag := false } := by
  have hsend : Speaks c (sendControl d (FLAG_SYN ||| FLAG_ACK)) :=
    hd.sendControl h (fun _ => by decide) (by decide)
  exact hsend.andHush ⟨rfl, rfl, rfl, rfl, fun _ => rfl⟩ (.of_out rfl rfl)

theorem tcpProcessOptions_mum (c : TcpConn) (seg : TcpSeg) : Mum c (tcpProcessOptions c seg) := by
  obtain ⟨o, -, -, h⟩ := tcpProcessOptions_frame c seg
  rw [h]
  exact .of_out rfl rfl

theorem heard_early {c' : TcpConn} (hs : c.state = .synSent ∨ c.state = .synRecv)
    (hr : ¬ Resets c seg) (h : Speaks c c') : Heard c seg c' := by
  refine .speaks ?_ ?_ hr h
  · rintro ⟨hh, -⟩
    rcases hs with hs | hs <;> simp [hs, Handling, Receiving] at hh
  · rcases hs with hs | hs <;> simp [hs]

theorem Greets.speaks {env : RecvEnv} {c' : TcpConn} (hg : Greets c seg env c')
    (hr : ¬ Resets c seg) (h : DelayInv c) : Speaks c c' := by
  cases hg with
  | stay => exact (Hush.refl c).speaks
  | reset hr' => exact absurd hr' hr
  | crossed o =>
    apply answerSyn_speaks h
    exact .of_one rfl rfl rfl
  | synAck o =>
    have henter : Hush c { enterEstablished { c with toConnOpts := o } seg (seg.seqNum + 1) with
        irsn := seg.seqNum, duplicate := 0 } := .of_one rfl rfl rfl
    have hsend : Speaks c (sendControl _ FLAG_ACK) :=
      henter.sendControl h (fun _ => by decide) (by decide)
    exact hsend.andHush ((signalOpen_tells _ _).1.after (signalOpen_tells _ _).2)
      (signalOpen_tells _ _).1.hush
  | again o =>
    apply answerSyn_speaks h
    exact .of_out rfl rfl
  | ack o =>
    have henter : Hush c (enterEstablished { c with toConnOpts := o } seg seg.seqNum) :=
      .of_one rfl rfl rfl
    exact (henter.trans (signalOpen_tells _ _).1.hush).speaks

theorem tcpRecvState_heard_idle (seg : TcpSeg) (env : RecvEnv) (h : DelayInv c)
    (hs : ¬ Handling c.state) : Heard c seg (tcpRecvState md c seg env) := by
  have idle : ∀ c' : TcpConn, c.state = .closed ∨ c.state = .listen → Hush c c' →
      Heard c seg c' := by
    intro c' hs' hh
    refine .speaks (fun hh => hs hh.1) ?_ ?_ hh.speaks
    · rcases hs' with hs' | hs' <;> simp [hs']
    · rintro ⟨-, -, ⟨hr, -⟩ | ⟨hr, -⟩⟩ <;> simp [hr] at hs'
  by_cases hr : Resets c seg
  · exact .reset hr (tcpRecvState_reset md env hr)
  have h' := tcpRecvState_arriving md c seg env
  generalize tcpRecvState md c seg env = c' at h' ⊢
  cases h' with
  | closed hst => exact idle _ (.inl hst) (.refl c)
  | listen hst => exact idle _ (.inr hst) (tcpRecvListen_hush c seg _ _ _)
  | greets hst hg => exact heard_early hst hr (hg.speaks hr h)
  | rst hst => exact .closeWait (hst.resolve_left hs) (tcpHandleRst_hush c seg)
  | ack hst => exact .closeWait hst (handleAckFlag_mum md c seg).hush
  | data hst => exact absurd hst hs

theorem tcpRecvState_heard (seg : TcpSeg) (env : RecvEnv) (h : DelayInv c)
    (hnone : NoneDue c) : Heard c seg (tcpRecvState md c seg env) := by
  by_cases hs : Handling c.state
  · refine tcpRecvState_handling hs (fun hrst => heard_of_rst hs hrst) ?_
    intro d d' hrst hd hr hd' hrecv'
    exact heard_of_reply h hnone hd hr hs hrst hd' hrecv'
  · exact tcpRecvState_heard_idle md seg env h hs

/-! ### Every event -/

def Event.taken (c : TcpConn) (e : Event) (seg : TcpSeg) : Prop :=
  e.arriving = some seg ∧ Accepts c seg

theorem Event.taken.step_eq {env : RecvEnv} (h : e.taken c seg) (hact : e.act = .recv seg env) :
    step c e = tcpRecvState e.md c seg env := by
  unfold step
  rw [hact]
  simp only []
  unfold tcpRecv
  rw [if_pos (by simpa [Accepts] using h.2)]

/-- **Every event that takes a segment in.** -/
theorem step_heard (h : DelayInv c) (hnone : NoneDue c) (ht : e.taken c seg) :
    Heard c seg (step c e) := by
  obtain ⟨env, hact⟩ := Event.act_of_arriving ht.1
  rw [ht.step_eq hact]
  exact tcpRecvState_heard e.md seg env h hnone

/-- **No arriving segment is taken in.** -/
theorem step_speaks (h : DelayInv c) (hnone : ∀ seg, ¬ e.taken c seg) : Speaks c (step c e) := by
  unfold step
  split <;> rename_i hact
  · rename_i seg env
    unfold tcpRecv
    split
    · rename_i hin
      exact absurd ⟨Event.arriving_of_act hact, by simpa [Accepts] using hin⟩ (hnone seg)
    · exact (Hush.refl c).speaks
  · exact (tcpWrite_writeMove c _ _ _).hush.speaks
  · exact (tcpClose_shuts c _).speaks h
  · unfold tcpListen
    split
    · exact .one rfl rfl rfl
    · exact (Hush.refl c).speaks
  · exact (tcpAccept_tells c _ _).hush.speaks
  · unfold tcpConnSearch
    split
    · exact .one rfl rfl rfl
    · exact (Hush.refl c).speaks
  · exact tcpConnect_speaks _ _ h
  · exact (tcpStubConnect_tells c _ _).hush.speaks
  · exact (tcpPoll_tells c _ _ _).hush.speaks
  · exact (tcpPollStub_tells c _ _ _).hush.speaks
  · exact tcpConnFcf_speaks _ _ h
  · exact .silent rfl rfl
  · unfold childAccepted
    split
    · exact .silent rfl rfl
    · exact (Hush.refl c).speaks
  · exact tcpMainThread_speaks e.md _ h
  · unfold gbnFire
    split
    · exact .silent rfl rfl
    · exact (Hush.refl c).speaks
  · unfold delayedFire
    split
    · rename_i ht
      refine Hush.speaks ⟨rfl, rfl, rfl, fun _ => .inl ht⟩
    · exact (Hush.refl c).speaks
  · exact .silent rfl rfl
  · exact .silent rfl rfl
  · exact .silent rfl rfl

/-! ### Delayed acknowledgments, whatever is stored -/

def AtOnceOrAck (sf : UInt16) : Prop :=
  hasFlag sf FLAG_ACK_NOW = true ∨ hasFlag sf FLAG_FIN = true ∨ sf = 0 ∨ sf = FLAG_ACK

theorem FlagsReply.atOnceOrAck (hr : FlagsReply c sf d sf') (h : AtOnceOrAck sf) :
    AtOnceOrAck sf' := by
  cases hr with
  | keep => exact h
  | ack =>
    rcases h with h | h | rfl | rfl
    · exact .inl (by rw [hasFlag_or, h, Bool.true_or])
    · exact .inr (.inl (by rw [hasFlag_or, h, Bool.true_or]))
    · exact .inr (.inr (.inr rfl))
    · exact .inr (.inr (.inr rfl))
  | fin =>
    have hfin : hasFlag FLAG_FIN FLAG_FIN := by decide
    exact .inr (.inl (by rw [hasFlag_or, hasFlag_or, hfin, Bool.or_true, Bool.true_or]))

theorem drainLoop_atOnceOrAck (ns : List (TcpNode TcpSeg)) (h : AtOnceOrAck sf) :
    AtOnceOrAck (drainLoop md ns c sf).2 := by
  have hnow : hasFlag FLAG_ACK_NOW FLAG_ACK_NOW := by decide
  induction ns generalizing c sf with
  | nil => exact h
  | cons n ns ih =>
    unfold drainLoop
    split
    · exact h
    · exact ih h
    · apply ih
      split
      · exact .inl (by rw [hasFlag_or, hnow, Bool.or_true])
      · exact (tcpProcessSeg_outcome md c.popRecv n.data sf).2.atOnceOrAck h

theorem tcpHandleData_atOnceOrAck (c : TcpConn) (seg : TcpSeg) :
    AtOnceOrAck (tcpHandleData md c seg).2 := by
  unfold tcpHandleData
  split
  · exact drainLoop_atOnceOrAck md _
      ((tcpProcessSeg_outcome md c seg 0).2.atOnceOrAck (.inr (.inr (.inl rfl))))
  · rw [handleOutOfOrder_flags]
    split
    · exact .inl (by decide)
    · split
      · exact .inr (.inr (.inr rfl))
      · exact .inr (.inr (.inl rfl))

theorem tcpSegUpdate_ackFlow (seg : TcpSeg) (c : TcpConn) (flags : UInt16) :
    AckFlow c (tcpSegUpdate seg c flags).2 := by
  obtain ⟨a, hc, rfl | rfl⟩ := tcpSegUpdate_conn seg c flags
  · rw [hc]
    exact .inl ⟨rfl, id⟩
  · rw [hc]
    refine .inl ⟨rfl, ?_⟩
    rintro (h | h | h) <;> cases h

theorem DelayInv.congr (h : DelayInv c) (ha : d.toAckState = c.toAckState) : DelayInv d := by
  unfold DelayInv AckPending
  rw [ha]
  exact h

theorem sendControlReply_delayInv (flags : UInt16) (h : DelayInv c) :
    DelayInv (sendControlReply c flags) :=
  (h.flow (tcpSegUpdate_ackFlow _ c flags)).congr rfl

theorem tcpHandleReply_delayInv (h : DelayInv c) (hf : AtOnceOrAck flags) :
    DelayInv (tcpHandleReply c flags) := by
  have calledOff : ∀ {d : TcpConn}, d.delayedAckFlags = c.delayedAckFlags → d.delayedFlag = false →
      d.toDelayedTimer = false → d.toDelayedFlag = false → DelayInv d := by
    intro d hflags h₁ h₂ h₃
    refine h.flow (.inl ⟨hflags, ?_⟩)
    unfold AckPending
    simp [h₁, h₂, h₃]
  unfold tcpHandleReply
  split
  · exact sendControlReply_delayInv flags h
  split
  · apply sendControlReply_delayInv
    apply calledOff <;> (try rfl)
    split <;> rfl
  rename_i hfin
  split
  · rename_i hack
    unfold replyAck
    split
    · simp only []
      split
      · rename_i hsame
        simp only [Bool.and_eq_true, Bool.not_eq_true'] at hsame
        exact calledOff rfl hsame.2 rfl rfl
      · obtain ⟨a, hc, rfl | rfl⟩ := tcpSegUpdate_conn
          { c.ackSeg with seqNum := c.sendSeqEnd, seqEnd := c.sendSeqEnd }
          { c with toDelayedTimer := false, toDelayedFlag := false } flags
        · unfold sendAckSeg
          simp only [hc]
          exact calledOff rfl rfl rfl rfl
        · unfold sendAckSeg
          simp only [hc]
          exact calledOff rfl rfl rfl rfl
    · -- the only way to delay it
      rename_i hlater
      simp only [Bool.or_eq_true, not_or] at hlater
      refine .inl ?_
      rcases hf with hf | hf | rfl | rfl
      · exact absurd hf hlater.1
      · exact absurd hf hfin
      · rw [hasFlag_zero] at hack
        cases hack
      · rfl
  · exact sendControlReply_delayInv flags h

theorem Heard.ackFlow {c' : TcpConn} (h : Heard c seg c') : AckFlow c c' := by
  cases h with
  | again _ _ _ h | speaks _ _ _ h => exact h.ackFlow
  | now _ _ _ h => exact h.speaks.ackFlow
  | reset _ h =>
    rw [h]
    exact .inl ⟨rfl, id⟩
  | closeWait _ h => exact h.ackFlow

theorem step_delayInv (e : Event) (h : DelayInv c) : DelayInv (step c e) := by
  by_cases ht : ∃ seg, e.taken c seg
  · obtain ⟨seg, ht⟩ := ht
    obtain ⟨env, hact⟩ := Event.act_of_arriving ht.1
    rw [ht.step_eq hact]
    by_cases hs : Handling c.state
    · refine tcpRecvState_handling hs (fun _ => h.hush (tcpHandleRst_hush c seg)) ?_
      intro d d' _ hd _ hd' _
      have hinv : DelayInv d' :=
        h.hush (hd.trans ((tcpHandleData_mum e.md d seg).trans hd')).hush
      unfold replyTo
      split
      · exact tcpHandleReply_delayInv hinv (tcpHandleData_atOnceOrAck e.md d seg)
      · exact hinv
    · exact h.flow (tcpRecvState_heard_idle e.md seg env h hs).ackFlow
  · exact h.flow (step_speaks h fun seg hseg => ht ⟨seg, hseg⟩).ackFlow

end FinsStack.Tcp
