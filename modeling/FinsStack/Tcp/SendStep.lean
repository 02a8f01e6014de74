import FinsStack.Tcp.SendView

/-!
# One event, seen from the sending side

The calls that are left are an arriving segment on an open connection, a write, and a
round of the main thread.  `step_sendStep` puts them together with those of
`SendView.lean`: every event is a chain of moves, after new data if the main thread
sends some.
-/

namespace FinsStack.Tcp

open List

/-! ### Handling data -/

section

variable {c c' : TcpConn} (h : DataMove c c')
include h

theorem DataMove.write : c'.toWriteSide = c.toWriteSide := congrArg SendPart.toWriteSide h.part

theorem DataMove.send : c'.toSendSide = c.toSendSide := congrArg SendPart.toSendSide h.part

theorem DataMove.fin : c'.toFinSide = c.toFinSide := congrArg SendPart.toFinSide h.part

theorem DataMove.window : c'.toSendWindow = c.toSendWindow :=
  congrArg SendPart.toSendWindow h.part

theorem DataMove.opts : c'.toConnOpts = c.toConnOpts := congrArg SendPart.toConnOpts h.part

theorem DataMove.timeout : c'.timeout = c.timeout := congrArg SendPart.timeout h.part

end

variable {c c' d : TcpConn} {seg : TcpSeg} {md : TcpData} {sf : UInt16}

abbrev Greeted (s : TcpState) : Prop := Receiving s ∨ PeerDone s ∨ s = .closed

theorem DataMove.refl (hs : Greeted c.state) : DataMove c c :=
  ⟨rfl, .inl rfl, Nat.le_refl _, hs, hs, id, id, id, fun _ => id, .refl c⟩

theorem DataMove.trans {c₁ c₂ c₃ : TcpConn} (h₁ : DataMove c₁ c₂) (h₂ : DataMove c₂ c₃)
    (hkeep : c₂.state = .timeWait → c₃.state = .timeWait) : DataMove c₁ c₃ where
  part := by
    have h := h₂.part
    have h' := h₁.part
    simp only [TcpConn.sendPart, SendPart.mk.injEq] at h h' ⊢
    simp only [h, h', and_self]
  gbn := by
    rcases h₂.gbn with h | h
    · rcases h₁.gbn with h' | h'
      · exact .inl (h.trans h')
      · exact .inr (hkeep h')
    · exact .inr h
  nextAddr := Nat.le_trans h₁.nextAddr h₂.nextAddr
  before := h₁.before
  state := h₂.state
  running := fun h => h₁.running (h₂.running h)
  retransmits := fun h => h₁.retransmits (h₂.retransmits h)
  ownClosed := fun h => h₂.ownClosed (h₁.ownClosed h)
  awaiting := fun hsent h => h₂.awaiting (h₁.fin ▸ hsent) (h₁.awaiting hsent h)
  out := h₁.out.trans h₂.out

theorem FinTaken.awaiting {s s' : TcpState} (h : FinTaken c seg) (hsent : c.finSent = false)
    (_ : Awaiting s) : Awaiting s' :=
  Bool.noConfusion (h.2.2.symm.trans hsent)

theorem FlagsStep.dataMove {r : FlagsRet} (h : FlagsStep c seg r c') (hs : Greeted c.state) :
    DataMove c c' ∧ (c.state = .timeWait → c'.state = .timeWait) := by
  cases h with
  | keep _ => exact ⟨.refl hs, id⟩
  | data hs' hd =>
    exact ⟨⟨rfl, .inl rfl, Nat.le_refl _, hs, hs, id, id, id, fun _ => id, .of_eq rfl⟩, id⟩
  | finWait2 hs' ht hd | finWait2Data hs' ht hd =>
    refine ⟨⟨rfl, .inl rfl, Nat.le_refl _, hs, .inl (.inr (.inr rfl)), id,
      fun _ => .inr (.inr (.inl hs')), fun _ => .inl (.inr (.inl rfl)), ht.awaiting,
      .of_one rfl (fun h => h)⟩, ?_⟩
    intro htw
    exact nomatch hs'.symm.trans htw
  | timeWait hs' ht =>
    exact ⟨⟨rfl, .inr rfl, Nat.le_refl _, hs, .inr (.inl (.inr (.inl rfl))), id,
      fun _ => .inr (.inr (.inr (.inl hs'))), fun _ => .inl (.inr (.inr (.inr (.inl rfl)))),
      ht.awaiting, .of_one rfl (fun h => h)⟩, fun _ => rfl⟩
  | closed _ hs' ht =>
    refine ⟨⟨rfl, .inl rfl, Nat.le_refl _, hs, .inr (.inr rfl), id,
      fun _ => .inr (.inr (.inr (.inr hs'))), fun _ => .inr rfl, ht.awaiting,
      .of_one rfl (fun h => h)⟩, ?_⟩
    intro htw
    exact nomatch hs'.symm.trans htw
  | fin new g he hf hg =>
    have hout : QuietOut c
        { alertShutdownRd ((consumeFin c seg).setState new) with toGbnState := g } := by
      refine ⟨[.fin seg.seqNum c.recvSeqNum, .edge c.state new,
        .alert c.addr TCP_ALERT_SHUTDOWN FCF_FALSE TCP_STATUS_RD], ?_, ?_⟩
      · intro o ho
        simp only [mem_cons, not_mem_nil, or_false] at ho
        rcases ho with rfl | rfl | rfl <;> exact fun h => h
      · show ((c.out ++ [_]) ++ [_]) ++ [_] = _
        simp only [append_assoc, cons_append, nil_append]
        rfl
    refine ⟨⟨rfl, hg, Nat.le_refl _, hs, ?_, id, ?_, ?_, ?_, hout⟩, ?_⟩
    · exact .inr (.inl (finEdge_peerDone he))
    · intro hre
      have hnew : Retransmits new := hre
      rcases he with ⟨hs', -⟩ | ⟨hs', -⟩ | ⟨hs', -, -⟩ | ⟨-, h⟩
      · exact .inl hs'
      · exact .inr (.inr (.inl hs'))
      · exact .inr (.inr (.inl hs'))
      · rw [h] at hnew
        exact absurd hnew (by decide)
    · intro hown
      rcases he with ⟨hs', h⟩ | ⟨-, h⟩ | ⟨-, h, -⟩ | ⟨-, h⟩
      · rw [hs'] at hown
        rcases hown with (h | h | h | h | h) | h <;> cases h
      · exact .inl (.inr (.inr (.inl h)))
      · exact .inl (.inr (.inr (.inr (.inl h))))
      · exact .inl (.inr (.inr (.inr (.inl h))))
    · intro hsent hdue
      rcases he with ⟨hs', -⟩ | ⟨-, h⟩ | ⟨-, -, ht⟩ | ⟨hs', -⟩
      · rw [hs'] at hdue
        exact absurd hdue (by decide)
      · exact .inr (.inl h)
      · exact ht.awaiting hsent hdue
      · rw [hs'] at hdue
        exact absurd hdue (by decide)
    · intro htw
      rcases he with ⟨hs', -⟩ | ⟨hs', -⟩ | ⟨hs', -, -⟩ | ⟨hs', -⟩ <;>
        exact nomatch hs'.symm.trans htw

theorem not_negotiating (hs : Greeted c.state) :
    negotiating c = false := by
  unfold negotiating
  rcases hs with (h | h | h) | (h | h | h | h) | h <;> rw [h] <;> decide

theorem SegStep.dataMove (h : SegStep md c seg c') (hs : Greeted c.state) :
    DataMove c c' ∧ (c.state = .timeWait → c'.state = .timeWait) := by
  cases h with
  | options c1 o hf hok ho =>
    obtain ⟨h1, htw⟩ := hf.dataMove hs
    have ho' := ho (not_negotiating h1.state)
    rw [ho']
    exact ⟨⟨h1.part, h1.gbn, h1.nextAddr, hs, h1.state, h1.running, h1.retransmits, h1.ownClosed,
      h1.awaiting, h1.out⟩, htw⟩
  | handOff c1 hf hd hflow =>
    obtain ⟨h1, htw⟩ := hf.dataMove hs
    refine ⟨⟨h1.part, h1.gbn, h1.nextAddr, hs, h1.state, h1.running, h1.retransmits,
      h1.ownClosed, h1.awaiting, ?_⟩, htw⟩
    exact h1.out.trans (.of_one rfl (fun h => h))
  | bare r c1 hf _ => exact hf.dataMove hs

theorem tcpHandleData_dataMove (md : TcpData) (seg : TcpSeg) (hs : Greeted c.state) :
    DataMove c (tcpHandleData md c seg).1 := by
  -- everything but the processed segments touches the receiving side only
  have plain : ∀ d d' : TcpConn, DataMove c d → d'.sendPart = d.sendPart →
      d'.toConnCtl = d.toConnCtl → d'.out = d.out → DataMove c d' := by
    intro d d' h hp hctl hout
    have hst : d'.state = d.state := by rw [hctl]
    have hrun : d'.runningFlag = d.runningFlag := by rw [hctl]
    have hg : d'.toGbnState = d.toGbnState := congrArg SendPart.toGbnState hp
    have hn : d'.nextAddr = d.nextAddr := congrArg SendPart.nextAddr hp
    refine ⟨by rw [hp]; exact h.part, by rw [hg, hst]; exact h.gbn, hn ▸ h.nextAddr, hs,
      hst ▸ h.state, hrun ▸ h.running, hst ▸ h.retransmits, hst ▸ h.ownClosed,
      hst ▸ h.awaiting, h.out.trans (.of_eq hout)⟩
  have stepped : ∀ d d' : TcpConn, ∀ seg', DataMove c d → SegStep md d seg' d' → DataMove c d' := by
    intro d d' seg' h hstep
    obtain ⟨h1, htw⟩ := hstep.dataMove h.state
    exact h.trans h1 htw
  refine tcpHandleData_induct ?_ ?_ ?_ ?_ ?_ ?_ (.refl hs)
  · intro d w h
    exact plain d _ h rfl rfl rfl
  · intro d m h
    exact plain d _ h rfl rfl rfl
  · intro d n ns _ h
    exact plain d _ h rfl rfl rfl
  · intro d n ns c' _ _ hstep h
    exact stepped d.popRecv c' n.data (plain d _ h rfl rfl rfl) hstep
  · intro c' _ hstep h
    exact stepped c c' seg h hstep
  · intro q _ _ _ h
    exact ⟨h.part, h.gbn, Nat.le_succ _, hs, h.state, h.running, h.retransmits, h.ownClosed,
      h.awaiting, .of_eq rfl⟩

/-! ### The reply

A reply carries the FIN only when nothing is left to send. -/

def FinDue (c : TcpConn) (sf : UInt16) : Prop :=
  hasFlag sf FLAG_FIN = true →
    tcpConnIsFinished c = true ∧ Awaiting c.state ∧ c.finSent = false

theorem finDue_or_ack {m : UInt16} (hm : hasFlag m FLAG_FIN = false) (h : FinDue c sf) :
    FinDue c (sf ||| m) := by
  intro hfin
  rw [hasFlag_or, hm, Bool.or_false] at hfin
  exact h hfin

theorem finDue_move (hm : DataMove c c') (h : FinDue c sf) : FinDue c' sf := by
  intro hfin
  obtain ⟨hdone, hdue, hsent⟩ := h hfin
  refine ⟨?_, hm.awaiting hsent hdue, hm.fin ▸ hsent⟩
  have hw := hm.write
  have hsd := hm.send
  rw [← hdone]
  unfold tcpConnIsFinished
  rw [hw, hsd]

theorem ack_no_fin : hasFlag FLAG_ACK FLAG_FIN = false := by decide

theorem FlagsReply.finDue {sf' : UInt16} (hr : FlagsReply c sf d sf') (h : FinDue c sf) :
    FinDue c sf' := by
  cases hr with
  | keep => exact h
  | ack => exact finDue_or_ack ack_no_fin h
  | fin hdone hs hsent => exact fun _ => ⟨hdone, hs, hsent⟩

theorem tcpProcessSeg_finDue (md : TcpData) (c : TcpConn) (seg : TcpSeg) (sf : UInt16)
    (hs : Greeted c.state) (h : FinDue c sf) :
    FinDue (tcpProcessSeg md c seg sf).2.1 (tcpProcessSeg md c seg sf).2.2 :=
  finDue_move ((tcpProcessSeg_step md c seg sf).dataMove hs).1
    ((tcpProcessSeg_outcome md c seg sf).2.finDue h)

theorem drainLoop_finDue (md : TcpData) (ns : List (TcpNode TcpSeg))
    (hs : Greeted c.state) (h : FinDue c sf) :
    FinDue (drainLoop md ns c sf).1 (drainLoop md ns c sf).2 := by
  induction ns generalizing c sf with
  | nil => exact h
  | cons n ns ih =>
    unfold drainLoop
    split
    · exact h
    · exact ih hs h
    · have hpop : FinDue c.popRecv sf := h
      have hseg := tcpProcessSeg_finDue md c.popRecv n.data sf hs hpop
      refine ih ((tcpProcessSeg_step md c.popRecv n.data sf).dataMove hs).1.state ?_
      split
      · exact finDue_or_ack (by decide) hseg
      · exact hseg

theorem tcpHandleData_finDue (md : TcpData) (seg : TcpSeg) (hs : Greeted c.state) :
    FinDue (tcpHandleData md c seg).1 (tcpHandleData md c seg).2 := by
  have hzero : FinDue c 0 := by
    intro hfin
    rw [hasFlag_zero] at hfin
    cases hfin
  unfold tcpHandleData
  split
  · have hseg := tcpProcessSeg_finDue md c seg 0 hs hzero
    have hst := ((tcpProcessSeg_step md c seg 0).dataMove hs).1.state
    simp only [handleInOrder]
    split
    · exact drainLoop_finDue md _ hst hseg
    · exact drainLoop_finDue md _ hst hseg
  · intro hfin
    rw [handleOutOfOrder_flags] at hfin
    split at hfin
    · exact nomatch (show _ = _ from hfin)
    · split at hfin
      · rw [ack_no_fin] at hfin
        cases hfin
      · rw [hasFlag_zero] at hfin
        cases hfin

theorem tcpHandleReply_moves {flags : UInt16} (hdue : FinDue c flags) :
    SendMoves c (tcpHandleReply c flags) := by
  obtain ⟨f, a, w, l, hl, hf, h⟩ := tcpHandleReply_frame c flags
  rw [h]
  rcases hf with rfl | ⟨hfin, -, rfl⟩
  · exact Aside.moves (.neutral hl rfl rfl rfl id)
  · obtain ⟨hdone, hs, -⟩ := hdue hfin
    obtain ⟨hr, hw, -⟩ := queues_empty_of_finished hdone
    exact .trans (.single (.fin true (.inl hs.ownClosed) hr hw hs))
      (Aside.moves (.neutral hl rfl rfl rfl id))

theorem NumsKept.refl (c : TcpConn) : NumsKept c c := ⟨rfl, fun _ => rfl, .refl c⟩

theorem NumsKept.trans {c₁ c₂ c₃ : TcpConn} (h₁ : NumsKept c₁ c₂) (h₂ : NumsKept c₂ c₃) :
    NumsKept c₁ c₃ where
  send := h₂.send.trans h₁.send
  fin := by
    intro hsent
    have hfin := h₁.fin hsent
    exact (h₂.fin (hfin ▸ hsent)).trans hfin
  out := h₁.out.trans h₂.out

theorem DataMove.kept (h : DataMove c c') : NumsKept c c' :=
  ⟨h.send, fun _ => h.fin, h.out⟩

theorem tcpHandleReply_kept (c : TcpConn) (flags : UInt16) :
    NumsKept c (tcpHandleReply c flags) := by
  obtain ⟨f, a, w, l, hl, hf, h⟩ := tcpHandleReply_frame c flags
  rw [h]
  refine ⟨rfl, ?_, .of_neutral hl rfl⟩
  intro hsent
  rcases hf with rfl | ⟨-, hnot, -⟩
  · rfl
  · exact Bool.noConfusion (hsent.symm.trans hnot)

/-! ### A segment on an open connection -/

theorem Handling.states {s : TcpState} (h : Handling s) :
    Receiving s ∨ PeerDone s ∨ s = .closed := by
  rcases h with h | h | h | h
  · exact .inl h
  · exact .inr (.inl (.inl h))
  · exact .inr (.inl (.inr (.inl h)))
  · exact .inr (.inl (.inr (.inr (.inr h))))

theorem handled_states (md : TcpData) (seg : TcpSeg) (hs : Handling c.state)
    (hi : Inert (tcpHandleData md (ackFirst md c seg) seg).1 c') :
    Receiving c'.state ∨ PeerDone c'.state ∨ c'.state = .closed := by
  rw [hi.state]
  refine (tcpHandleData_dataMove md seg ?_).state
  rw [(ackFirst_inert md c seg).state]
  exact hs.states

theorem DataMove.stopClosed (h : DataMove c d) : DataMove c (stopClosed d) := by
  unfold Tcp.stopClosed
  split
  · exact ⟨h.part, h.gbn, h.nextAddr, h.before, h.state, nofun, h.retransmits,
      h.ownClosed, h.awaiting, h.out⟩
  · exact h

theorem answer_moves (md : TcpData) (seg : TcpSeg) (hs : Handling c.state) :
    SendMoves c (replyTo (stopClosed (tcpHandleData md c seg).1) (tcpHandleData md c seg).2) ∧
      NumsKept c (replyTo (stopClosed (tcpHandleData md c seg).1) (tcpHandleData md c seg).2) := by
  have hdata := (tcpHandleData_dataMove md seg hs.states).stopClosed
  have hdue := tcpHandleData_finDue md seg hs.states
  generalize tcpHandleData md c seg = r at hdata hdue ⊢
  have hdue' : FinDue (stopClosed r.1) r.2 := by
    unfold stopClosed
    split
    · exact hdue
    · exact hdue
  have hoff : (stopClosed r.1).state = .closed → (stopClosed r.1).runningFlag = false := by
    unfold stopClosed
    split
    · exact fun _ => rfl
    · exact fun hc => absurd hc ‹_›
  unfold replyTo
  split
  · exact ⟨.trans (.single (.data hdata hs hoff)) (tcpHandleReply_moves hdue'),
      hdata.kept.trans (tcpHandleReply_kept _ _)⟩
  · exact ⟨.single (.data hdata hs hoff), hdata.kept⟩

theorem arrival_sendStep {env : RecvEnv} (hin : Accepts c seg)
    (hs : Receiving c.state ∨ PeerDone c.state) (h : SendMoves (handleAckFlag md c seg) c')
    (hkept : NumsKept (handleAckFlag md c seg) c') (hrst : ¬ hasFlag seg.flags FLAG_RST) :
    SendStep c ⟨md, .recv seg env⟩ c' := by
  unfold handleAckFlag at h hkept
  split at h
  · rename_i hflag
    rw [if_pos hflag] at hkept
    exact .ack seg env _ rfl hin hs hflag (tcpHandleAck_step md c seg) h hkept
      (Bool.eq_false_iff.mpr hrst) rfl
  · exact .moves nofun h

theorem tcpRecv_sendStep (md : TcpData) (c : TcpConn) (seg : TcpSeg) (env : RecvEnv) :
    SendStep c ⟨md, .recv seg env⟩ (tcpRecv md c seg env) := by
  have quiet : ∀ c', SendMoves c c' → SendStep c ⟨md, .recv seg env⟩ c' :=
    fun c' h => .moves nofun h
  unfold tcpRecv
  split
  · rename_i hpre
    have hin : Accepts c seg := by simpa [Accepts] using hpre
    have h := tcpRecvState_arriving md c seg env
    generalize tcpRecvState md c seg env = c' at h ⊢
    cases h with
    | closed => exact quiet _ .refl
    | listen => exact quiet _ (tcpRecvListen_aside c seg _ _ _).moves
    | greets _ h => exact quiet _ h.moves
    | rst => exact quiet _ (tcpHandleRst_aside c seg).moves
    | ack hs hrst =>
      exact arrival_sendStep hin (.inr (.inr (.inr (.inl hs)))) .refl (.refl _) (by simp [hrst])
    | data hs hrst =>
      unfold ackFirst
      split
      · exact quiet _ (answer_moves md seg hs).1
      · have hs' : Handling (handleAckFlag md c seg).state :=
          (handleAckFlag_view .inert md c seg).state ▸ hs
        have hopen : Receiving c.state ∨ PeerDone c.state := by
          rcases hs.states with h | h | h
          · exact .inl h
          · exact .inr h
          · exact absurd h hs.not_closed
        exact arrival_sendStep hin hopen (answer_moves md seg hs').1 (answer_moves md seg hs').2
          (by simp [hrst])
  · exact quiet _ .refl

/-! ### Writing -/

theorem tcpWrite_moves (c : TcpConn) (d : Pdu) (flags serialNum : UInt32) :
    SendMoves c (tcpWrite c d flags serialNum) := by
  unfold tcpWrite
  split
  · rename_i hrun
    split
    case h_1 hs => exact .single (.writeEarly d serialNum hrun (.inl hs))
    case h_2 hs => exact .single (.writeEarly d serialNum hrun (.inr hs))
    case h_3 hs => exact .single (.write d flags serialNum hrun (.inl hs))
    case h_4 hs => exact .single (.write d flags serialNum hrun (.inr hs))
    case h_5 => exact .single (.refuse serialNum)
  · exact .single (.refuse serialNum)

/-! ### Rounds of the main thread -/

theorem nextGbnNode_mem {n : TcpNode TcpSeg} (h : nextGbnNode c = some n) :
    n ∈ c.sendQueue.nodes := by
  unfold nextGbnNode at h
  split at h
  · exact mem_of_mem_head? h
  · obtain ⟨a, -, hnext⟩ := Option.bind_eq_some_iff.mp h
    unfold tcpNodeNext at hnext
    exact (dropWhile_sublist _).subset
      (mem_of_mem_tail (mem_of_mem_head? hnext))

theorem resendNode_resend (note : TcpConn → TcpConn) (hnote : note = noteFlow ∨ note = id)
    {n : TcpNode TcpSeg} (hmem : n ∈ c.sendQueue.nodes)
    (hp : { d.sendPart with toGbnState := c.toGbnState } = c.sendPart) (ho : d.out = c.out)
    (hs : d.state = c.state) (hrun : d.runningFlag = c.runningFlag) :
    Resend c n (resendNode note d n) ∧ (resendNode note d n).toGbnState = d.toGbnState := by
  obtain ⟨f, k, w, o, ol, a, fs, h⟩ := resendNode_frame note hnote d n
  have hsend : d.toSendSide = c.toSendSide := congrArg SendPart.toSendSide hp
  have hwin : d.toSendWindow = c.toSendWindow := congrArg SendPart.toSendWindow hp
  rw [h]
  refine ⟨⟨hmem, hs, hrun, congrArg SendPart.toWriteSide hp, congrArg SendPart.toFinSide hp,
    congrArg SendPart.timeout hp, congrArg SendPart.toConnOpts hp, ?_,
    congrArg SendPart.nextAddr hp, f, k, w, o, ol, ?_, ?_⟩, rfl⟩
  · show { d.toSendWindow with sendWin := uint32Decrease d.sendWin n.data.dataLen32 } = _
    rw [hwin]
  · show { d.toSendSide with
      sendQueue := tcpQueueSet d.sendQueue n.addr (reheaded n.data f k w o ol) } = _
    rw [hsend]
  · show d.out ++ _ = _
    rw [ho]

section

variable (note : TcpConn → TcpConn) (hnote : note = noteFlow ∨ note = id) {c : TcpConn}
  (hs : Retransmits c.state)
include hnote hs

theorem mainTimeout_moves {n : TcpNode TcpSeg} {ns : List (TcpNode TcpSeg)}
    (hq : c.sendQueue.nodes = n :: ns) :
    SendMoves c (mainTimeout note
      { c with toGbnFlag := false, firstFlag := false, fastFlag := false } n) := by
  obtain ⟨f, k, w, o, ol, a, fs, cc, h⟩ := mainTimeout_frame note hnote
    { c with toGbnFlag := false, firstFlag := false, fastFlag := false } n
  have hmem : n ∈ c.sendQueue.nodes := hq ▸ mem_cons_self ..
  rw [h]
  refine .single (.timeout n ⟨hmem, rfl, rfl, rfl, rfl, rfl, rfl, rfl, rfl,
    f, k, w, o, ol, rfl, rfl⟩ hs ?_ rfl)
  rw [hq]
  rfl

theorem mainFast_moves : SendMoves c (mainFast note c) := by
  unfold mainFast
  split
  · exact Aside.moves (.silent rfl rfl rfl id)
  · rename_i n ns hq
    obtain ⟨hr, hg⟩ := resendNode_resend (n := n) note hnote (d := { c with fastFlag := false })
      (hq ▸ mem_cons_self ..) rfl rfl rfl rfl
    exact .single (.fast n hr hs (by rw [hq]; rfl) hg)

theorem mainGbn_moves : SendMoves c (mainGbn note c) := by
  unfold mainGbn
  split
  · rename_i hq
    exact .single (.gbn _ (.passIdle (nodes_eq_nil_of_isEmpty hq)))
  split
  · split
    · rename_i n hn
      obtain ⟨hr, hg⟩ := resendNode_resend note hnote (d := { c with gbnNode := some n.addr })
        (nextGbnNode_mem hn) rfl rfl rfl rfl
      exact .single (.next n hr hs hn hg)
    · exact .single (.gbn _ .passEnd)
  · exact Aside.moves (.silent rfl rfl rfl id)

end

theorem interrupt_moves (c : TcpConn) : SendMoves c (handleInterrupt (clearInterrupt c)) :=
  (clearInterrupt_aside c).moves.trans (.single .interrupt)

theorem timeoutIdle_moves (hq : c.sendQueue.nodes = []) :
    SendMoves c { c with
      toGbnFlag := false, firstFlag := false, fastFlag := false, gbnFlag := false } :=
  .trans (b := { c with fastFlag := false }) (Aside.moves (.silent rfl rfl rfl id))
    (.single (SendMove.gbn (c := { c with fastFlag := false }) _ (.timeoutIdle hq)))

theorem wait_moves (c : TcpConn) : SendMoves c { c with mainWaitFlag := true } :=
  Aside.moves (.silent rfl rfl rfl id)

theorem mainRound_moves {note : TcpConn → TcpConn} (send : TcpConn → TcpConn) (fins : Bool)
    (hnote : note = noteFlow ∨ note = id) (hre : Retransmits c.state)
    (hfins : fins → Awaiting c.state) (hnot : ¬ RoundSends md c) :
    SendMoves c (mainRound md note send fins c) := by
  unfold mainRound
  split
  · exact interrupt_moves c
  split
  · simp only []
    split
    · rename_i hq
      split
      · rename_i hfin
        simp only [Bool.and_eq_true] at hfin
        obtain ⟨hr, hw, -⟩ := queues_empty_of_finished hfin.2
        exact (timeoutIdle_moves hq).trans (sendFin_moves (hfins hfin.1.1) hr hw)
      · exact timeoutIdle_moves hq
    · exact mainTimeout_moves note hnote hre ‹_›
  split
  · exact mainFast_moves note hnote hre
  split
  · exact mainGbn_moves note hnote hre
  split
  · rename_i hempty
    rw [Bool.and_eq_true] at hempty
    split
    · exact wait_moves c
    · rename_i hfin
      refine sendFin_moves (hfins ?_) (nodes_eq_nil_of_isEmpty hempty.1)
        (nodes_eq_nil_of_isEmpty hempty.2)
      simp only [Bool.or_eq_true, Bool.not_eq_true', not_or] at hfin
      exact Bool.eq_true_of_not_eq_false hfin.1
  split
  · simp only [Bool.not_eq_true] at *
    exact absurd ⟨‹_›, ‹_›, ‹_›, ‹_›, ‹_›, ‹_›⟩ hnot
  · exact wait_moves c

theorem unused_moves (h : ¬ Retransmits c.state ∨ c.runningFlag = false) (g : GbnState) :
    SendMoves c { c with toGbnState := g } :=
  .single (.gbn g (.unused g h))

theorem timeWaitAck_aside (c : TcpConn) :
    Aside c (if c.delayedFlag then
      sendAckSeg { c with toDelayedTimer := false, delayedFlag := false, toDelayedFlag := false }
        c.delayedAckFlags
    else c) := by
  split
  · refine .trans ?_ (sendAckSeg_aside _ _)
    exact .silent rfl rfl rfl id
  · exact .refl c

theorem stop_moves (c : TcpConn) :
    SendMoves c (tcpConnShutdown { c.setState .closed with mainWaitFlag := false }) :=
  .single (.stop ⟨rfl, .of_one rfl (fun h => h)⟩ rfl rfl)

theorem tcpMainTimeWait_moves (hs : c.state = .timeWait) : SendMoves c (tcpMainTimeWait c) := by
  have hnot : ¬ Retransmits c.state := by
    rw [hs]
    decide
  simp only [tcpMainTimeWait]
  split
  · refine (unused_moves (.inl hnot) { c.toGbnState with toGbnFlag := false }).trans
      (.trans (clearInterrupt_aside _).moves (.trans (timeWaitAck_aside
        { clearInterrupt c with toGbnFlag := false }).moves (stop_moves _)))
  · refine .trans ?_ (mainDelayedAck_aside { clearInterrupt c with mainWaitFlag := true }).moves
    exact Aside.moves (.silent rfl rfl rfl id)

theorem tcpMainFinWait2_moves (hs : c.state = .finWait2) : SendMoves c (tcpMainFinWait2 c) := by
  have hnot : ¬ Retransmits c.state := by
    rw [hs]
    decide
  unfold tcpMainFinWait2
  refine (unused_moves (.inl hnot) { c.toGbnState with toGbnFlag := false }).trans
    (.trans (clearInterrupt_aside _).moves (.trans (mainDelayedAck_aside
      { clearInterrupt c with toGbnFlag := false }).moves (wait_moves _)))

theorem tcpMainClosed_moves (h : Early c) : SendMoves c (tcpMainClosed c) :=
  .single (.early (earlyFlags h rfl rfl rfl (.of_eq rfl)))

theorem mainEstablished_fresh (h : RoundSends md c) :
    mainEstablished md c = sendNewEstablished c := by
  obtain ⟨h₁, h₂, h₃, h₄, h₅, h₆⟩ := h
  simp only [mainEstablished, h₁, h₂, h₃, h₄, h₅, h₆, Bool.false_eq_true, if_false, if_true]

theorem mainFinWait1_fresh (h : RoundSends md c) : mainFinWait1 md c = sendNewFinWait1 c := by
  obtain ⟨h₁, h₂, h₃, h₄, h₅, h₆⟩ := h
  simp only [mainFinWait1, h₁, h₂, h₃, h₄, h₅, h₆, Bool.false_eq_true, if_false, if_true]

theorem tcpMainState_moves (md : TcpData) (rand : UInt32) (hrun : c.runningFlag)
    (hnot : Retransmits c.state → ¬ RoundSends md c) : SendMoves c (tcpMainState md c rand) := by
  have established : c.state = .established ∨ c.state = .closeWait →
      SendMoves c (tcpMainEstablished md c) := by
    intro hs
    have hre : Retransmits c.state := by
      rcases hs with h | h
      · exact .inl h
      · exact .inr (.inl h)
    exact .trans (mainRound_moves sendNewEstablished false (.inl rfl) hre
      (fun h => (by cases h)) (hnot hre)) (mainDelayedAck_aside _).moves
  have finWait1 : c.state = .finWait1 ∨ c.state = .closing ∨ c.state = .lastAck →
      SendMoves c (tcpMainFinWait1 md c) := by
    intro hs
    have hre : Retransmits c.state := .inr (.inr hs)
    exact .trans (mainRound_moves sendNewFinWait1 true (.inr rfl) hre (fun _ => hs) (hnot hre))
      (mainDelayedAck_aside _).moves
  unfold tcpMainState
  split
  case h_1 hs => exact tcpMainClosed_moves ⟨.inl hs, fun _ => hrun⟩
  case h_2 hs => exact tcpMainClosed_moves ⟨.inr (.inl hs), fun _ => hrun⟩
  case h_3 hs => exact (tcpMainSynSent_retries c rand hs).moves (.inl hs)
  case h_4 hs => exact (tcpMainSynRecv_retries c rand hs).moves (.inr hs)
  case h_5 hs => exact established (.inl hs)
  case h_6 hs => exact finWait1 (.inl hs)
  case h_7 hs => exact tcpMainFinWait2_moves hs
  case h_8 hs => exact finWait1 (.inr (.inl hs))
  case h_9 hs => exact tcpMainTimeWait_moves hs
  case h_10 hs => exact established (.inr hs)
  case h_11 hs => exact finWait1 (.inr (.inr hs))

theorem tcpMainState_fresh (rand : UInt32) (hs : Retransmits c.state) (h : RoundSends md c) :
    tcpMainState md c rand = mainDelayedAck (sendNew c) := by
  unfold tcpMainState sendNew
  rcases hs with hs | hs | hs | hs | hs
  · simp only [hs, true_or, if_true, tcpMainEstablished, mainEstablished_fresh h]
  · simp only [hs, or_true, if_true, tcpMainCloseWait, tcpMainEstablished, mainEstablished_fresh h]
  · simp only [hs, reduceCtorEq, or_self, if_false, tcpMainFinWait1, mainFinWait1_fresh h]
  · simp only [hs, reduceCtorEq, or_self, if_false, tcpMainClosing, tcpMainFinWait1,
      mainFinWait1_fresh h]
  · simp only [hs, reduceCtorEq, or_self, if_false, tcpMainLastAck, tcpMainFinWait1,
      mainFinWait1_fresh h]

theorem sleep_aside (c : TcpConn) :
    Aside c (if c.mainWaitFlag ∧ ¬ c.requestInterrupt ∧ ¬ c.toGbnFlag ∧ ¬ c.toDelayedFlag then
      { c with mainWaitFlag := false, mainWaiting := true, mainPc := .waiting } else c) := by
  split
  · exact .silent rfl rfl rfl id
  · exact .refl c

theorem tcpMainThread_sendStep (md : TcpData) (c : TcpConn) (rand : UInt32) :
    SendStep c ⟨md, .main rand⟩ (tcpMainThread md c rand) := by
  by_cases hnew : SendsNew md c
  · obtain ⟨hpc, hrun, hs, hround⟩ := hnew
    refine .fresh rand rfl ⟨hpc, hrun, hs, hround⟩ ?_
    unfold tcpMainThread
    simp only [hpc, hrun, if_true, tcpMainState_fresh rand hs hround]
    exact (mainDelayedAck_aside _).trans (sleep_aside _)
  · refine .moves (fun _ _ => hnew) ?_
    unfold tcpMainThread
    split
    · exact .refl
    · split
      · exact Aside.moves (.silent rfl rfl rfl id)
      · exact .refl
    · rename_i hpc
      split
      · rename_i hrun
        have hnot : Retransmits c.state → ¬ RoundSends md c :=
          fun hs hround => hnew ⟨hpc, hrun, hs, hround⟩
        exact (tcpMainState_moves md rand hrun hnot).trans (sleep_aside _).moves
      · rename_i hrun
        refine (unused_moves (.inr (by simpa using hrun))
          { c.toGbnState with toGbnTimer := false }).trans (Aside.moves ?_)
        exact .silent rfl rfl rfl id

/-! ### All events -/

theorem gbnFire_moves (c : TcpConn) : SendMoves c (gbnFire c) := by
  unfold gbnFire
  split
  · rename_i h
    exact .trans (.single (.gbn _ (.fire h))) (wakeMain_aside _).moves
  · exact .refl

theorem delayedFire_moves (c : TcpConn) : SendMoves c (delayedFire c) := by
  unfold delayedFire
  split
  · refine Aside.moves (.trans ?_ (wakeMain_aside _))
    exact .silent rfl rfl rfl id
  · exact .refl

/-- **Every event is a chain of moves, after new data if the main thread sends some.** -/
theorem step_sendStep (c : TcpConn) (e : Event) : SendStep c e (step c e) := by
  obtain ⟨md, act⟩ := e
  have quiet : ∀ c', (∀ rand, act ≠ .main rand) → SendMoves c c' → SendStep c ⟨md, act⟩ c' :=
    fun c' hmain h => .moves (fun rand hact => absurd hact (hmain rand)) h
  cases act with
  | main rand => exact tcpMainThread_sendStep md c rand
  | recv seg env => exact tcpRecv_sendStep md c seg env
  | write d flags serialNum =>
    exact quiet _ (by simp) (tcpWrite_moves c d flags serialNum)
  | close ff => exact quiet _ (by simp) (tcpClose_shuts c ff).moves
  | listen backlog => exact quiet _ (by simp) (tcpListen_moves c backlog)
  | connect ff rand => exact quiet _ (by simp) (tcpConnect_moves c ff rand)
  | accept | search | stubConnect | poll | pollStub | childAccepted =>
    exact quiet _ (by simp) (step_tells c md rfl).aside.moves
  | fcf ff op => exact quiet _ (by simp) (tcpConnFcf_moves c ff op)
  | shutdown => exact quiet _ (by simp) (tcpConnShutdown_aside c).moves
  | gbnFire => exact quiet _ (by simp) (gbnFire_moves c)
  | delayedFire => exact quiet _ (by simp) (delayedFire_moves c)
  | requestFire addr => exact quiet _ (by simp) (.single (.requestFire addr))
  | tick clock | round congWindow threshhold rttEst rttDev =>
    exact quiet _ (by simp) (Aside.moves (.silent rfl rfl rfl id))

/-! ### The start of a run -/

structure SendStart (c : TcpConn) : Prop where
  early : Early c
  write : c.toWriteSide =
    ⟨tcpQueueCreate TCP_REQUEST_LIST_MAX, 0, tcpQueueCreate TCP_MAX_QUEUE_DEFAULT, 0⟩
  queue : c.sendQueue = tcpQueueCreate TCP_MAX_QUEUE_DEFAULT
  seqNum : c.sendSeqNum = c.issn
  seqEnd : c.sendSeqEnd = c.issn
  finSent : c.finSent = false
  window : c.sendWin = c.sendMaxWin ∧ c.sendMaxWin ≤ TCP_MAX_WINDOW_DEFAULT
  timeout : 0 < c.timeout
  opts : OptsOk c.toConnOpts
  out : ∀ o ∈ c.out, ¬ OnStream o

theorem SendStart.answerSyn (h : SendStart c) (seg : TcpSeg) :
    SendStart { sendControl (tcpProcessOptions c seg) (FLAG_SYN ||| FLAG_ACK) with
      timeout := TCP_GBN_TO_MIN
      toGbnTimer := timerOnceStart TCP_GBN_TO_MIN
      toGbnFlag := false } := by
  obtain ⟨o, hok, -, hopt⟩ := tcpProcessOptions_frame c seg
  obtain ⟨a, s, hctl⟩ := sendControl_frame { c with toConnOpts := o } (FLAG_SYN ||| FLAG_ACK)
  rw [hopt, hctl]
  refine ⟨h.early, h.write, h.queue, h.seqNum, h.seqEnd, h.finSent, h.window, ?_, hok h.opts, ?_⟩
  · show (0 : Rat) < TCP_GBN_TO_MIN
    decide
  · exact Lib.forall_mem_concat h.out id

theorem initial_sendStart (h : Initial c) : SendStart c := by
  have htimeout : (0 : Rat) < TCP_GBN_TO_DEFAULT := by decide
  have hopts : TCP_OPT_WS_DEFAULT ≤ TCP_OPT_WS_MAX := by decide
  cases h with
  | fresh md a =>
    exact ⟨⟨.inl rfl, fun _ => rfl⟩, rfl, rfl, rfl, rfl, rfl, ⟨rfl, UInt32.le_refl _⟩, htimeout,
      hopts, nofun⟩
  | child md parent seg rand =>
    have hwin : seg.winSize.toUInt32 ≤ TCP_MAX_WINDOW_DEFAULT := by
      have hlt := seg.winSize.toNat_lt
      rw [UInt32.le_iff_toNat_le, UInt16.toNat_toUInt32]
      show seg.winSize.toNat ≤ 65535
      omega
    apply SendStart.answerSyn
    refine ⟨⟨.inr (.inr (.inr rfl)), nofun⟩, rfl, rfl, rfl, rfl, rfl, ⟨rfl, hwin⟩,
      htimeout, hopts, ?_⟩
    intro o ho
    have hedge : o = .edge .closed .synRecv := mem_singleton.mp ho
    rw [hedge]
    exact fun h => h

end FinsStack.Tcp
