import FinsStack.Tcp.Closing
import FinsStack.Tcp.SendStream
import FinsStack.Tcp.SegHeaders

/-!
# The place of this side's FIN

`fsse` is assigned from `send_seq_end` wherever a FIN is sent, so that the FIN has one
place in the stream only if `send_seq_end` stands behind the last byte each time.  It does
not in two cases.  `tcp_close` and the shutdown alert send the FIN of a connection in
SYN_RECV before its SYN is acknowledged, with the number of the SYN.  And the acknowledgment
of the FIN moves `send_seq_end` behind the FIN; if the segment that carries it is not
processed in order, the state stays, and the next FIN is sent one number too far.
-/

namespace FinsStack.Tcp

open List Lib

/-! ### The numbers of the stream -/

/-- The number behind the SYN and everything that was sent. -/
def afterStream (c : TcpConn) : UInt32 := c.issn + 1 + UInt32.ofNat (payloads c.out).length

/-- `send_seq_end` counts the SYN and the bytes sent, and the FIN only when nothing is sent
    any more. -/
structure Numbered (c : TcpConn) : Prop where
  early : Early c → c.sendSeqNum = c.issn ∧ c.sendSeqEnd = c.issn ∧ payloads c.out = [] ∧
    c.finSent = false
  settled : ¬ EarlyState c.state → c.sendSeqEnd = afterStream c ∨
    c.finSent = true ∧ c.sendSeqEnd = c.fsse ∧ ¬ Retransmits c.state
  fin : c.finSent = true → c.fsse = afterStream c + 1

def ClosedEarly (c : TcpConn) : Prop := .edge .synRecv .finWait1 ∈ c.out

theorem payloads_of_no_data {l : List Out} (h : ∀ o ∈ l, ¬ DataSeg o) : payloads l = [] := by
  apply flatMap_eq_nil_iff.mpr
  intro o ho
  have hd := h o ho
  cases o with
  | seg kind seg =>
    cases kind with
    | fresh => exact absurd trivial hd
    | _ => rfl
  | _ => rfl

variable {c c' d d' : TcpConn} {s : TcpState} {seg : TcpSeg} {e : Event}

theorem payloads_eq (h : ∃ l, (∀ o ∈ l, ¬ DataSeg o) ∧ c'.out = c.out ++ l) :
    payloads c'.out = payloads c.out := by
  obtain ⟨l, hl, hout⟩ := h
  rw [hout, payloads_append, payloads_of_no_data hl, append_nil]

theorem QuietOut.payloads (h : QuietOut c c') :
    payloads c'.out = payloads c.out := payloads_eq h.no_data

/-! ### What the moves do to the numbers -/

structure KeepsPlace (c c' : TcpConn) : Prop where
  issn : c'.issn = c.issn
  sendSeqEnd : c'.sendSeqEnd = c.sendSeqEnd
  fin : c'.toFinSide = c.toFinSide
  stream : payloads c'.out = payloads c.out
  early : Early c' → Early c ∧ c'.sendSeqNum = c.sendSeqNum
  settled : ¬ EarlyState c'.state → ¬ EarlyState c.state
  retransmits : Retransmits c'.state → Retransmits c.state

inductive PlaceMove (c c' : TcpConn) : Prop
  | keep (h : KeepsPlace c c')
  | start (rand : UInt32) (he : Early c) (hst : EarlyState c'.state) (hissn : c'.issn = rand)
      (hnum : c'.sendSeqNum = rand) (hend : c'.sendSeqEnd = rand)
      (hfin : c'.toFinSide = c.toFinSide) (hs : payloads c'.out = payloads c.out)
  | opened (he : Early c) (hst : c'.state = .established) (hissn : c'.issn = c.issn)
      (hend : c'.sendSeqEnd = c.sendSeqNum + 1) (hfin : c'.toFinSide = c.toFinSide)
      (hs : payloads c'.out = payloads c.out)
  | fin (hs : Awaiting c.state) (hst : c'.state = c.state) (hissn : c'.issn = c.issn)
      (hend : c'.sendSeqEnd = c.sendSeqEnd) (hsent : c'.finSent = true)
      (hfsse : c'.fsse = c.sendSeqEnd + 1) (hs : payloads c'.out = payloads c.out)
  | tooEarly (h : ClosedEarly c')

theorem not_earlyState_of_awaiting (h : Awaiting s) : ¬ EarlyState s := by
  rcases h with rfl | rfl | rfl <;> simp [EarlyState]

theorem not_earlyState_of_retransmits (h : Retransmits s) : ¬ EarlyState s := by
  rcases h with rfl | rfl | rfl | rfl | rfl <;> simp [EarlyState]

theorem not_earlyState_of_handling (h : Handling s) : ¬ EarlyState s := by
  rcases h with (rfl | rfl | rfl) | rfl | rfl | rfl <;> simp [EarlyState]

theorem KeepsPlace.of_state (hs : c'.state = c.state)
    (hrun : c'.runningFlag → c.runningFlag) (hissn : c'.issn = c.issn)
    (hnum : c'.sendSeqNum = c.sendSeqNum) (hend : c'.sendSeqEnd = c.sendSeqEnd)
    (hfin : c'.toFinSide = c.toFinSide) (hstream : payloads c'.out = payloads c.out) :
    KeepsPlace c c' := by
  refine ⟨hissn, hend, hfin, hstream, ?_, by rw [hs]; exact id, by rw [hs]; exact id⟩
  rintro ⟨he, hclosed⟩
  rw [hs] at he hclosed
  exact ⟨⟨he, fun h => hrun (hclosed h)⟩, hnum⟩

theorem Resend.keepsPlace {n : TcpNode TcpSeg} (h : Resend c n c') : KeepsPlace c c' := by
  obtain ⟨f, k, w, o, ol, hsend, hout⟩ := h.segment
  refine .of_state h.state (fun hr => h.running ▸ hr) ?_ ?_ ?_ h.fin ?_
  · rw [hsend]
  · rw [hsend]
  · rw [hsend]
  · rw [hout, payloads_append]
    exact append_nil _

theorem WriteMove.keepsPlace (h : WriteMove c c') : KeepsPlace c c' := by
  have hstream := payloads_eq h.carries.out
  obtain ⟨w, pe, m, n, l, -, -, heq⟩ := h
  rw [heq] at hstream ⊢
  exact .of_state rfl id rfl rfl rfl rfl hstream

theorem DataMove.keepsPlace (h : DataMove c c') (hs : Handling c.state)
    (hoff : c'.state = .closed → c'.runningFlag = false) : KeepsPlace c c' := by
  refine ⟨congrArg SendSide.issn h.send, congrArg SendSide.sendSeqEnd h.send, h.fin,
    h.out.payloads, ?_, fun _ => not_earlyState_of_handling hs, h.retransmits⟩
  intro he
  exact absurd he (not_early_of_handled h.state hoff)

theorem SameSend.keepsPlace (h : SameSend c c') (hearly : ¬ Early c')
    (hsettled : ¬ EarlyState c'.state → ¬ EarlyState c.state)
    (hre : Retransmits c'.state → Retransmits c.state) : KeepsPlace c c' :=
  ⟨congrArg SendSide.issn h.send, congrArg SendSide.sendSeqEnd h.send, h.fin, h.out.payloads,
    fun he => absurd he hearly, hsettled, hre⟩

theorem EarlyStep.placeMove (h : EarlyStep c c') : PlaceMove c c' := by
  rcases h.send with hsend | ⟨rand, hsend⟩
  · refine .keep ⟨congrArg SendSide.issn hsend, congrArg SendSide.sendSeqEnd hsend, h.fin,
      h.out.payloads, fun _ => ⟨h.early, congrArg SendSide.sendSeqNum hsend⟩, ?_, ?_⟩
    · exact fun hn => absurd h.state hn
    · exact fun hr => absurd h.state (not_earlyState_of_retransmits hr)
  · refine .start rand h.early h.state ?_ ?_ ?_ h.fin h.out.payloads
    · rw [hsend]
    · rw [hsend]
    · rw [hsend]

theorem SendMove.placeMove (h : SendMove c c') : PlaceMove c c' := by
  cases h with
  | same h hs hrun =>
    exact .keep (.of_state hs hrun (congrArg SendSide.issn h.send)
      (congrArg SendSide.sendSeqNum h.send) (congrArg SendSide.sendSeqEnd h.send) h.fin
      h.out.payloads)
  | close h he hrun hout =>
    have hearly := not_early_of_closeEdge he
    generalize hold : c.state = old at he hout
    generalize hnew : c'.state = new at he hout
    cases he with
    | synRecv => exact .tooEarly hout
    | established =>
      have hre : Retransmits c.state := .inl hold
      exact .keep (h.keepsPlace hearly (fun _ => not_earlyState_of_retransmits hre) fun _ => hre)
    | closeWait =>
      have hre : Retransmits c.state := .inr (.inl hold)
      exact .keep (h.keepsPlace hearly (fun _ => not_earlyState_of_retransmits hre) fun _ => hre)
  | stop h hs hoff =>
    refine .keep (h.keepsPlace (not_early_of_stopped hs hoff) ?_ ?_)
    · exact fun hn => absurd (.inl hs) hn
    · intro hr
      rw [hs] at hr
      exact absurd hr (by decide)
  | early h => exact h.placeMove
  | opened seg h =>
    refine .opened ?_ h.state (by rw [h.send]) (by rw [h.send]; exact h.ack) h.fin h.out.payloads
    rcases h.before with hs | hs
    · exact early_of_synSent hs
    · exact early_of_synRecv hs
  | data h hs hoff => exact .keep (h.keepsPlace hs hoff)
  | fin sep hs hr hw hdue => exact .fin hdue rfl rfl rfl rfl rfl rfl
  | gbn g h => exact .keep (.of_state rfl id rfl rfl rfl rfl rfl)
  | timeout n h | fast n h | next n h => exact .keep h.keepsPlace
  | write | writeEarly | refuse | interrupt | requestFire =>
    exact .keep (WriteMove.keepsPlace (by simp))

/-! ### Along a call -/

structure PlaceKept (c d : TcpConn) : Prop where
  numbered : Numbered d
  frozen : c.finSent = true →
    d.finSent = true ∧ d.issn = c.issn ∧ payloads d.out = payloads c.out

theorem PlaceKept.refl (h : Numbered c) : PlaceKept c c := ⟨h, fun hs => ⟨hs, rfl, rfl⟩⟩

theorem afterStream_congr (hi : d.issn = c.issn) (hs : payloads d.out = payloads c.out) :
    afterStream d = afterStream c := by
  unfold afterStream
  rw [hi, hs]

theorem PlaceKept.fsse (h : PlaceKept c d) (hc : Numbered c) (hsent : c.finSent) :
    d.finSent = true ∧ d.fsse = c.fsse := by
  obtain ⟨hd, hi, hs⟩ := h.frozen hsent
  refine ⟨hd, ?_⟩
  rw [h.numbered.fin hd, hc.fin hsent, afterStream_congr hi hs]

theorem KeepsPlace.numbered (h : KeepsPlace c c') (hn : Numbered c) : Numbered c' := by
  have hafter := afterStream_congr h.issn h.stream
  have hsent : c'.finSent = c.finSent := congrArg FinSide.finSent h.fin
  have hfsse : c'.fsse = c.fsse := congrArg FinSide.fsse h.fin
  constructor
  · intro he
    obtain ⟨he, hnum⟩ := h.early he
    rw [hnum, h.issn, h.sendSeqEnd, h.stream, hsent]
    exact hn.early he
  · intro hs
    rw [h.sendSeqEnd, hafter, hsent, hfsse]
    refine (hn.settled (h.settled hs)).imp_right ?_
    rintro ⟨hfin, hend, hnot⟩
    exact ⟨hfin, hend, fun hr => hnot (h.retransmits hr)⟩
  · rw [hsent, hfsse, hafter]
    exact hn.fin

theorem KeepsPlace.placeKept (h : KeepsPlace d d') (hk : PlaceKept c d) : PlaceKept c d' := by
  refine ⟨h.numbered hk.numbered, fun hc => ?_⟩
  obtain ⟨hd, hi, hs⟩ := hk.frozen hc
  exact ⟨(congrArg FinSide.finSent h.fin).trans hd, h.issn.trans hi, h.stream.trans hs⟩

theorem PlaceMove.placeKept (h : PlaceMove d d') (hf : PlaceKept c d) :
    PlaceKept c d' ∨ ClosedEarly d' := by
  obtain ⟨hn, hfrozen⟩ := hf
  -- before the connection is established no FIN is out
  have hnone : Early d → c.finSent → d.finSent = false → False := by
    intro _ hc hd
    exact Bool.noConfusion ((hfrozen hc).1.symm.trans hd)
  cases h with
  | keep h => exact .inl (h.placeKept ⟨hn, hfrozen⟩)
  | start rand he hst hissn hnum hend hfin hs =>
    obtain ⟨-, -, hnil, hoff⟩ := hn.early he
    have hoff' : d'.finSent = false := (congrArg FinSide.finSent hfin).trans hoff
    refine .inl ⟨⟨fun _ => ?_, fun hne => absurd hst hne, fun h => ?_⟩,
      fun hc => (hnone he hc hoff).elim⟩
    · exact ⟨hnum.trans hissn.symm, hend.trans hissn.symm, hs.trans hnil, hoff'⟩
    · exact Bool.noConfusion (h.symm.trans hoff')
  | opened he hst hissn hend hfin hs =>
    obtain ⟨hnum, -, hnil, hoff⟩ := hn.early he
    have hoff' : d'.finSent = false := (congrArg FinSide.finSent hfin).trans hoff
    refine .inl ⟨⟨fun he' => ?_, fun _ => .inl ?_, fun h => ?_⟩,
      fun hc => (hnone he hc hoff).elim⟩
    · exact absurd he' (not_early_of_retransmits (.inl hst))
    · unfold afterStream
      rw [hend, hnum, hissn, hs, hnil]
      exact (UInt32.add_zero _).symm
    · exact Bool.noConfusion (h.symm.trans hoff')
  | fin hs hst hissn hend hsent hfsse hstream =>
    have hre : Retransmits d.state := .inr (.inr hs)
    have hafter := afterStream_congr hissn hstream
    -- in these states `send_seq_end` is not behind the FIN
    have hplace : d.sendSeqEnd = afterStream d := by
      rcases hn.settled (not_earlyState_of_awaiting hs) with h | ⟨-, -, hnot⟩
      · exact h
      · exact absurd hre hnot
    refine .inl ⟨⟨fun he => ?_, fun _ => .inl ?_, fun _ => ?_⟩, fun hc => ?_⟩
    · exact absurd he (not_early_of_retransmits (hst ▸ hre))
    · rw [hend, hplace, hafter]
    · rw [hfsse, hplace, hafter]
    · obtain ⟨-, hi, hs⟩ := hfrozen hc
      exact ⟨hsent, hissn.trans hi, hstream.trans hs⟩
  | tooEarly h => exact .inr h

theorem SendMoves.placeKept (h : SendMoves d d') (hf : PlaceKept c d) :
    PlaceKept c d' ∨ ClosedEarly d' := by
  induction h with
  | refl => exact .inl hf
  | tail _ hlast ih =>
    rcases ih with ih | ih
    · exact hlast.placeMove.placeKept ih
    · obtain ⟨l, -, hout⟩ := hlast.extends
      right
      unfold ClosedEarly
      rw [hout]
      exact mem_append_left _ ih

/-! ### New data -/

theorem FreshSend.placeKept {md : TcpData} (h : FreshSend c seg c') (hs : Retransmits c.state)
    (hround : RoundSends md c) (hfin : FinInv c) (hw : Writing 0 c) (hn : Numbered c) :
    PlaceKept c c' := by
  have hoff : c.finSent = false := by
    cases hsent : c.finSent with
    | false => rfl
    | true =>
      obtain ⟨-, hr, hq⟩ := hfin.last hsent
      have hempty := hround.2.2.2.2.1
      simp [tcpQueueIsEmpty, hr, hq] at hempty
  have hlen := h.data_length hround.2.2.2.2.2 hw.write.buf
  have hissn : c'.issn = c.issn := by rw [h.send]
  have hend : c'.sendSeqEnd = c.sendSeqEnd + nextDataLen c := by rw [h.send]
  have hstream : payloads c'.out = payloads c.out ++ seg.data := by
    obtain ⟨w, pe, l, hl, hcut⟩ := cutSegment_frame c (nextDataLen c)
    obtain ⟨l', hl', hout⟩ := h.out
    have hcutOut : payloads (cutSegment c (nextDataLen c)).2.out = payloads c.out := by
      apply WriteMove.keepsPlace _ |>.stream
      exact ⟨w, pe, c.toMainCtl, c.nextAddr, l, Nat.le_refl _, hl, hcut⟩
    have hrest : payloads l' = [] := (quiet_notes fun o ho => (hl' o ho).not_onStream).2
    rw [hout, payloads_append, payloads_append, hcutOut, hrest, append_nil]
    simp [payloads, payloadOf]
  have hafter : afterStream c' = afterStream c + nextDataLen c := by
    unfold afterStream
    rw [hissn, hstream, length_append, hlen, UInt32.ofNat_add, UInt32.ofNat_toNat]
    grind
  have hplace : c'.sendSeqEnd = afterStream c' := by
    rcases hn.settled (not_earlyState_of_retransmits hs) with h | ⟨-, -, hnot⟩
    · rw [hend, hafter, h]
    · exact absurd hs hnot
  refine ⟨⟨fun he => ?_, fun _ => .inl hplace, fun hsent => ?_⟩, fun hc => ?_⟩
  · exact absurd he (not_early_of_retransmits (h.state ▸ hs))
  · rcases h.fin with hf | ⟨-, -, -, hf⟩
    · exact Bool.noConfusion (hsent.symm.trans ((congrArg FinSide.finSent hf).trans hoff))
    · rw [show c'.fsse = c'.sendSeqEnd + 1 from congrArg FinSide.fsse hf, hplace]
  · exact Bool.noConfusion (hc.symm.trans hoff)

/-! ### Acknowledgments -/

structure TakesFin (c : TcpConn) (seg : TcpSeg) (d : TcpConn) : Prop where
  sent : c.finSent = true
  ack : seg.ackNum = c.fsse
  state : d.state = c.state
  recv : d.recvSeqNum = c.recvSeqNum
  issn : d.issn = c.issn
  sendSeqNum : d.sendSeqNum = c.fsse
  sendSeqEnd : d.sendSeqEnd = c.fsse
  write : d.toWriteSide = c.toWriteSide
  fin : d.toFinSide = c.toFinSide
  stream : payloads d.out = payloads c.out

theorem AckStep.place (h : AckStep c seg d) (hs : Receiving c.state ∨ PeerDone c.state) :
    KeepsPlace c d ∨ TakesFin c seg d := by
  have hearly : ¬ Early d := by
    rintro ⟨he, -⟩
    rw [h.inert.state] at he
    rcases hs with (h | h | h) | h | h | h | h <;> simp [EarlyState, h] at he
  have kept : d.issn = c.issn → d.sendSeqEnd = c.sendSeqEnd → d.toFinSide = c.toFinSide →
      d.out = c.out → KeepsPlace c d := by
    intro hi he hf ho
    have hst := h.inert.state
    exact ⟨hi, he, hf, by rw [ho], fun he => absurd he hearly, by rw [hst]; exact id,
      by rw [hst]; exact id⟩
  cases h with
  | fin w hwin hsent hack hw =>
    refine .inr ⟨hsent, hack, rfl, rfl, rfl, hack, hack, rfl, rfl, ?_⟩
    show payloads (c.out ++ [.finAck]) = _
    rw [payloads_append]
    exact append_nil _
  | _ => exact .inl (kept rfl rfl rfl rfl)

theorem tcpProcessFlags_finTaken (sf : UInt16) (hs : Awaiting c.state) (ht : FinTaken c seg)
    (hsyn : c.state = .lastAck ∨ hasFlag seg.flags FLAG_SYN = false) :
    ¬ Retransmits (tcpProcessFlags c seg sf).2.1.state := by
  obtain ⟨hack, hdone, hsent⟩ := ht
  have accepted : ∀ d : TcpConn, (acceptData d seg sf).2.1.state = d.state := by
    intro d
    unfold acceptData
    split <;> rfl
  have refused : ∀ d : TcpConn, (refuseData d seg sf).2.1.state = d.state := by
    intro d
    unfold refuseData
    split <;> rfl
  have htw : ¬ Retransmits .timeWait := by decide
  have hfw2 : ¬ Retransmits .finWait2 := by decide
  have hcl : ¬ Retransmits .closed := by decide
  rcases hs with hs | hs | hs
  · have hsyn' : hasFlag seg.flags FLAG_SYN = false := hsyn.resolve_left (by simp [hs])
    unfold tcpProcessFlags processFlagsFinWait1
    simp only [hs, hsyn', Bool.false_eq_true, if_false]
    by_cases hfin : hasFlag seg.flags FLAG_FIN
    · have hdone' : tcpConnIsFinished (consumeFin c seg) := hdone
      have hsent' : (consumeFin c seg).finSent := hsent
      simp only [hfin, hack, hdone', hsent', Bool.and_self, if_true]
      exact htw
    · simp only [hfin, Bool.false_eq_true, if_false, hack, hdone, hsent, Bool.and_self, if_true,
        accepted]
      exact hfw2
  · have hsyn' : hasFlag seg.flags FLAG_SYN = false := hsyn.resolve_left (by simp [hs])
    unfold tcpProcessFlags processFlagsClosing
    simp only [hs, hsyn', Bool.false_eq_true, if_false, hack, hdone, hsent, Bool.and_self, if_true]
    exact htw
  · unfold tcpProcessFlags processFlagsLastAck
    simp only [hs, hack, hdone, hsent, Bool.and_self, if_true, refused]
    exact hcl

theorem tcpProcessSeg_state (md : TcpData) (c : TcpConn) (seg : TcpSeg) (sf : UInt16) :
    (tcpProcessSeg md c seg sf).2.1.state = (tcpProcessFlags c seg sf).2.1.state := by
  unfold tcpProcessSeg
  split
  · rename_i h
    rw [h]
  · rename_i h
    rw [h]
    exact (tcpProcessOptions_inert _ seg).state
  · rename_i h
    rw [h]
    split
    · split <;> rfl
    · rfl

theorem tcpHandleData_finTaken (md : TcpData) (hs : Awaiting c.state) (ht : FinTaken c seg)
    (hsyn : c.state = .lastAck ∨ hasFlag seg.flags FLAG_SYN = false)
    (hin : seg.seqNum = c.recvSeqNum) : ¬ Retransmits (tcpHandleData md c seg).1.state := by
  have hstates : Greeted c.state := by
    rcases hs with h | h | h
    · exact .inl (.inr (.inl h))
    · exact .inr (.inl (.inl h))
    · exact .inr (.inl (.inr (.inr (.inr h))))
  have hfirst : ¬ Retransmits (tcpProcessSeg md c seg 0).2.1.state := by
    rw [tcpProcessSeg_state]
    exact tcpProcessFlags_finTaken 0 hs ht hsyn
  have hopen := ((tcpProcessSeg_step md c seg 0).dataMove hstates).1.state
  unfold tcpHandleData
  rw [if_pos hin]
  unfold handleInOrder
  refine (drainLoop_induct (P := fun d =>
    (Receiving d.state ∨ PeerDone d.state ∨ d.state = .closed) ∧ ¬ Retransmits d.state)
    ?_ ?_ _ _ ?_).2
  · intro d n ns _ h
    exact h
  · intro d n ns d' _ _ hstep h
    have hmove := (hstep.dataMove h.1).1
    exact ⟨hmove.state, fun hr => h.2 (hmove.retransmits hr)⟩
  · split
    · exact ⟨hopen, hfirst⟩
    · exact ⟨hopen, hfirst⟩

theorem tcpRecvState_awaiting (md : TcpData) (env : RecvEnv) (hs : Awaiting c.state)
    (hrst : hasFlag seg.flags FLAG_RST = false) :
    (tcpRecvState md c seg env).state =
      (tcpHandleData md (handleAckFlag md c seg) seg).1.state := by
  have h := tcpRecvState_arriving md c seg env
  generalize tcpRecvState md c seg env = c' at h ⊢
  cases h with
  | closed hs' | listen hs' | ack hs' => exact absurd hs (by simp [hs', Awaiting])
  | greets hs' => rcases hs' with hs' | hs' <;> simp [hs', Awaiting] at hs
  | rst _ h => simp [hrst] at h
  | data =>
    have hne : c.state ≠ .finWait2 := by
      intro hs'
      simp [hs', Awaiting] at hs
    rw [ackFirst, if_neg hne]
    exact ((stopClosed_view .inert _).trans (replyTo_view .inert _ _)).state

/-- Behind the acknowledgment of the FIN nothing is sent for the first time any more, if the
    connection leaves the states that retransmit. -/
theorem TakesFin.placeKept (h : TakesFin c seg d) (hkept : NumsKept d c') (hn : Numbered c)
    (hfin : FinInv c') (hre : ¬ Retransmits c'.state) : PlaceKept c c' := by
  have hsent : d.finSent := (congrArg FinSide.finSent h.fin).trans h.sent
  have hfinSide := (hkept.fin hsent).trans h.fin
  have hsent' : c'.finSent := (congrArg FinSide.finSent hfinSide).trans h.sent
  have hfsse : c'.fsse = c.fsse := congrArg FinSide.fsse hfinSide
  have hissn : c'.issn = c.issn := (congrArg SendSide.issn hkept.send).trans h.issn
  have hstream := hkept.out.payloads.trans h.stream
  refine ⟨⟨fun he => ?_, fun _ => .inr ⟨hsent', ?_, hre⟩, fun _ => ?_⟩,
    fun _ => ⟨hsent', hissn, hstream⟩⟩
  · exact absurd (hfin.last hsent').1 (not_closes_of_early he)
  · rw [congrArg SendSide.sendSeqEnd hkept.send, h.sendSeqEnd, hfsse]
  · rw [hfsse, hn.fin h.sent, afterStream_congr hissn hstream]

/-! ### The condition -/

def ClosesEarly (c : TcpConn) (e : Event) : Prop :=
  c.runningFlag = true ∧ c.state = .synRecv ∧
    match e.act with
    | .close _ => True
    | .fcf _ (.alertShutdown value) => value = TCP_STATUS_WR ∨ value = TCP_STATUS_RDWR
    | _ => False

/-- `ClosesEarly` reads no more of the event than this. -/
def endsStream : Action → Bool
  | .close _ => true
  | .fcf _ (.alertShutdown value) => value == TCP_STATUS_WR || value == TCP_STATUS_RDWR
  | _ => false

theorem closesEarly_iff (c : TcpConn) (e : Event) :
    (c.runningFlag ∧ c.state = .synRecv ∧ endsStream e.act) ↔ ClosesEarly c e := by
  unfold ClosesEarly endsStream
  split <;> simp

instance (c : TcpConn) (e : Event) : Decidable (ClosesEarly c e) :=
  decidable_of_iff _ (closesEarly_iff c e)

def FinAckInOrder (c : TcpConn) (e : Event) : Prop :=
  ∀ seg ∈ e.arriving, AcksFin c e → Awaiting c.state → hasFlag seg.flags FLAG_RST = false →
    seg.seqNum = c.recvSeqNum ∧ (c.state = .lastAck ∨ hasFlag seg.flags FLAG_SYN = false)
deriving Decidable

def FinPlaceOk (c : TcpConn) (e : Event) : Prop :=
  ParsedStep c e ∧ ¬ ClosesEarly c e ∧ FinAckInOrder c e
deriving Decidable

/-! ### One step -/

theorem awaiting_of_closes (h : Closes c) (hre : Retransmits c.state) : Awaiting c.state := by
  rcases hre with hs | hs | hs
  · exact absurd h (not_closes_of_open (.inl hs))
  · exact absurd h (not_closes_of_open (.inr hs))
  · exact hs

theorem TakesFin.left {env : RecvEnv} (h : TakesFin c seg d) (hact : e.act = .recv seg env)
    (hin : Accepts c seg) (hflag : hasFlag seg.flags FLAG_ACK)
    (hrst : hasFlag seg.flags FLAG_RST = false) (hd : d = tcpHandleAck e.md c seg) (hfin : FinInv c)
    (hs : Awaiting c.state) (hok : FinAckInOrder c e) : ¬ Retransmits (step c e).state := by
  have harr := Event.arriving_of_act hact
  have hacks : AcksFin c e := by
    unfold AcksFin
    rw [hact]
    exact ⟨hin, hflag, h.sent, h.ack⟩
  obtain ⟨hseq, hsyn⟩ := hok seg harr hacks hs hrst
  have ht : FinTaken d seg := by
    obtain ⟨-, hr, hw⟩ := hfin.last h.sent
    refine ⟨hflag, ?_, (congrArg FinSide.finSent h.fin).trans h.sent⟩
    simp [tcpConnIsFinished, tcpQueueIsEmpty, h.write, hr, hw, h.sendSeqNum, h.sendSeqEnd]
  have hfirst : handleAckFlag e.md c seg = d := by
    unfold handleAckFlag
    rw [if_pos hflag, hd]
  rw [Event.taken.step_eq ⟨harr, hin⟩ hact, tcpRecvState_awaiting e.md env hs hrst, hfirst]
  exact tcpHandleData_finTaken e.md (h.state ▸ hs) ht (h.state ▸ hsyn) (hseq.trans h.recv.symm)

theorem step_placeKept (hfin : FinInv c) (hw : Writing 0 c) (hn : Numbered c)
    (hok : FinAckInOrder c e) : PlaceKept c (step c e) ∨ ClosedEarly (step c e) := by
  have hfin' := step_finInv c e hfin
  cases step_sendStep c e with
  | moves _ hm => exact SendMoves.placeKept hm (.refl hn)
  | fresh rand hact hnew ha =>
    obtain ⟨-, -, hs, hround⟩ := hnew
    obtain ⟨seg, hf⟩ := sendNew_fresh hs
    exact SendMoves.placeKept ha.moves (hf.placeKept hs hround hfin hw hn)
  | ack seg env d hact hin hs hflag had hm hkept hrst hd =>
    rcases had.place hs with hk | ht
    · exact SendMoves.placeKept hm (hk.placeKept (.refl hn))
    by_cases hre : Retransmits c.state
    · have hdue := awaiting_of_closes (hfin.last ht.sent).1 hre
      have hleft := ht.left hact hin hflag hrst hd hfin hdue hok
      exact .inl (ht.placeKept hkept hn hfin' hleft)
    · refine SendMoves.placeKept hm (ht.placeKept (.refl d) hn (had.finInv hfin) ?_)
      rw [ht.state]
      exact hre

/-! ### Closing before the handshake is over -/

theorem tcpMainThread_not_finWait1 (md : TcpData) (rand : UInt32) (hs : c.state = .synRecv) :
    (tcpMainThread md c rand).state ≠ .finWait1 := by
  have hc : c.state ≠ .finWait1 := by simp [hs]
  have hmain : (tcpMainState md c rand).state ≠ .finWait1 := by
    unfold tcpMainState
    rw [hs]
    show (tcpMainSynRecv c rand).state ≠ .finWait1
    rcases (tcpMainSynRecv_retries c rand hs).view .inert with hi | ⟨-, h⟩
    · rw [hi.state]
      exact hc
    · rw [h]
      exact fun hf => nomatch (resendSyn_view .inert _ rand).state.symm.trans hf
  unfold tcpMainThread
  split
  · exact hc
  · split <;> exact hc
  · split
    · simp only []
      split <;> exact hmain
    · exact hc

theorem tcpConnFcf_closesEarly (md : TcpData) {ff : Fcf} {op : FcfOp} (hrun : c.runningFlag)
    (hs : c.state = .synRecv) (h : (tcpConnFcf c ff op).state = .finWait1) :
    ClosesEarly c ⟨md, .fcf ff op⟩ := by
  have other : (tcpConnFcf c ff op).state = c.state → ClosesEarly c ⟨md, .fcf ff op⟩ := by
    intro hst
    rw [hst, hs] at h
    cases h
  unfold tcpConnFcf at other h
  rw [if_pos hrun] at other h
  cases op with
  | alertShutdown value =>
    by_cases hv : value = TCP_STATUS_WR ∨ value = TCP_STATUS_RDWR
    · exact ⟨hrun, hs, hv⟩
    · apply other
      show (tcpConnAlert c value).state = _
      unfold tcpConnAlert
      rw [if_neg hv]
  | setHostWindow value => exact other (tcpSetHostWindow_aside c value).state
  | _ => exact other rfl

theorem closesEarly_of_state (hrun : c.runningFlag) (hs : c.state = .synRecv)
    (h : (step c e).state = .finWait1) : ClosesEarly c e := by
  have other : (step c e).state = c.state → ClosesEarly c e := by
    intro hst
    rw [hst, hs] at h
    cases h
  obtain ⟨md, act⟩ := e
  cases act with
  | recv seg env =>
    cases tcpRecv_step md c seg env with
    | inert hi => exact other hi.state
    | opening new d he hst _ _ _ hi =>
      have hnew : new = .finWait1 := hst.symm.trans (hi.state.symm.trans h)
      rw [hs, hnew] at he
      cases he
    | restart d _ hst _ _ _ hi => exact other (hi.state.trans (hst.trans hs.symm))
    | data _ hh =>
      exact absurd (.inr (.inr (.inr hs))) (not_earlyState_of_handling hh)
  | close ff => exact ⟨hrun, hs, trivial⟩
  | fcf ff op => exact tcpConnFcf_closesEarly md hrun hs h
  | main rand => exact absurd h (tcpMainThread_not_finWait1 md rand hs)
  | write d flags serialNum => exact other (tcpWrite_writeMove c d flags serialNum).inert.state
  | accept | search | stubConnect | poll | pollStub | childAccepted =>
    exact other (step_tells c md rfl).state
  | listen backlog =>
    apply other
    simp [step, tcpListen, hs]
  | connect ff rand =>
    apply other
    simp [step, tcpConnect, hs, hrun, TcpConn.emit]
  | gbnFire =>
    apply other
    simp only [step, gbnFire]
    split <;> rfl
  | delayedFire =>
    apply other
    simp only [step, delayedFire]
    split <;> rfl
  | _ => exact other rfl

theorem closedEarly_of_append {l : List Out} (h : .edge .synRecv .finWait1 ∈ c.out ++ l)
    (hl : .edge .synRecv .finWait1 ∉ l) : ClosedEarly c := (mem_append.mp h).resolve_right hl

theorem FlagsStep.closedEarly {r : FlagsRet} (h : FlagsStep c seg r c') (hmem : ClosedEarly c') :
    ClosedEarly c := by
  cases h with
  | keep | data => exact hmem
  | finWait2 | finWait2Data | timeWait | closed => exact closedEarly_of_append hmem (by simp)
  | fin new g he =>
    have hnew : new ≠ .finWait1 := by
      rcases he with ⟨-, h⟩ | ⟨-, h⟩ | ⟨-, h, -⟩ | ⟨-, h⟩ <;> rw [h] <;> decide
    have hmem' : .edge .synRecv .finWait1 ∈ ((c.out ++ [.fin seg.seqNum c.recvSeqNum]) ++
        [.edge c.state new]) ++ [.alert c.addr TCP_ALERT_SHUTDOWN FCF_FALSE TCP_STATUS_RD] := hmem
    simp only [mem_append, mem_singleton, reduceCtorEq, or_false] at hmem'
    rcases hmem' with hmem' | hedge
    · exact hmem'
    · injection hedge with _ hto
      exact absurd hto.symm hnew

theorem SegStep.closedEarly {md : TcpData} (h : SegStep md c seg c') (hmem : ClosedEarly c') :
    ClosedEarly c := by
  cases h with
  | options c1 o hf | bare r c1 hf => exact hf.closedEarly hmem
  | handOff c1 hf hd => exact hf.closedEarly (closedEarly_of_append hmem (by simp))

theorem tcpHandleData_closedEarly (md : TcpData) (seg : TcpSeg)
    (h : ClosedEarly (tcpHandleData md c seg).1) : ClosedEarly c := by
  refine tcpHandleData_induct (P := fun d => ClosedEarly d → ClosedEarly c) ?_ ?_ ?_ ?_ ?_ ?_ id h
  · exact fun _ _ h => h
  · exact fun _ _ h => h
  · exact fun _ _ _ _ h => h
  · intro d n ns d' _ _ hstep hd hmem
    exact hd (hstep.closedEarly hmem)
  · intro d' _ hstep hd hmem
    exact hd (hstep.closedEarly hmem)
  · exact fun _ _ _ _ h => h

theorem step_closedEarly (h : ClosedEarly (step c e)) : ClosedEarly c ∨ ClosesEarly c e := by
  rcases step_edge_mem h with h | ⟨stop, hrun, -, hold, hnew⟩ | hopen | ⟨seg, env, -, -, -, hmem, -⟩
  · exact .inl h
  · exact .inr (closesEarly_of_state hrun hold hnew)
  · cases hopen
  · exact .inl ((ackFirst_inert e.md c seg).edge_mem (tcpHandleData_closedEarly e.md seg hmem))

/-! ### The segments -/

def finNumber (s : TcpSeg) : UInt32 := s.seqNum + s.dataLen32 + 1

def FinAt (c : TcpConn) (s : TcpSeg) : Prop :=
  hasFlag s.flags FLAG_FIN = true → c.finSent = true ∧ finNumber s = c.fsse

structure FinsAt (c : TcpConn) : Prop where
  sent : ∀ x ∈ c.sent, FinAt c x.2
  ackSeg : FinAt c c.ackSeg

theorem Said.finAt {k : SegKind} {s : TcpSeg} (h : Said c k s) (hn : Numbered c) : FinAt c s := by
  intro hf
  obtain ⟨hsent, hplace | ⟨-, hrides, hend⟩⟩ := h.fin hf
  · exact ⟨hsent, hplace⟩
  · refine ⟨hsent, ?_⟩
    have hre : Retransmits c.state := by
      rcases hrides with hs | hs
      · exact .inr (.inr (.inl hs))
      · exact .inr (.inr (.inr (.inr hs)))
    rcases hn.settled (not_earlyState_of_retransmits hre) with h | ⟨-, -, hnot⟩
    · rw [finNumber, hend, h, hn.fin hsent]
    · exact absurd hre hnot

theorem FinAt.kept {s : TcpSeg} (h : FinAt c s) (hk : PlaceKept c d) (hn : Numbered c) :
    FinAt d s := by
  intro hf
  obtain ⟨hsent, hplace⟩ := h hf
  obtain ⟨hsent', hfsse⟩ := hk.fsse hn hsent
  exact ⟨hsent', hplace.trans hfsse.symm⟩

theorem Speaks.finsAt (h : Speaks c d) (hk : PlaceKept c d) (hn : Numbered c) (hi : FinsAt c) :
    FinsAt d := by
  obtain ⟨l, hl, hsaid, -, hack⟩ := h.segs
  constructor
  · rw [hl]
    exact forall_mem_append.mpr
      ⟨fun x hx => (hi.sent x hx).kept hk hn, fun x hx => (hsaid x hx).finAt hk.numbered⟩
  · rcases hack with hack | hack
    · rw [hack]
      exact hi.ackSeg.kept hk hn
    · exact (hsaid _ hack).finAt hk.numbered

theorem FinsAt.add {l : List (SegKind × TcpSeg)} (hi : FinsAt c) (hk : PlaceKept c d)
    (hn : Numbered c) (hl : d.sent = c.sent ++ l)
    (hold : ∀ x ∈ l, x.2 = c.ackSeg ∨ hasFlag x.2.flags FLAG_FIN = false)
    (hack : d.ackSeg = c.ackSeg) : FinsAt d := by
  constructor
  · intro x hx
    rw [hl] at hx
    rcases mem_append.mp hx with hx | hx
    · exact (hi.sent x hx).kept hk hn
    · rcases hold x hx with h | h
      · rw [h]
        exact hi.ackSeg.kept hk hn
      · intro hf
        exact Bool.noConfusion (hf.symm.trans h)
  · rw [hack]
    exact hi.ackSeg.kept hk hn

theorem resetFor_no_fin (c : TcpConn) (seg : TcpSeg) :
    hasFlag (resetFor c seg).flags FLAG_FIN = false := by
  have hsyn : hasFlag (FLAG_RST ||| 0x5000) FLAG_FIN = false := by decide
  have hack : hasFlag (FLAG_RST ||| FLAG_ACK ||| 0x5000) FLAG_FIN = false := by decide
  unfold resetFor rstReply
  split_ifs
  · exact hsyn
  · exact hsyn
  · exact hack

theorem Heard.finsAt (h : Heard c seg c') (hk : PlaceKept c c') (hn : Numbered c) (hi : FinsAt c) :
    FinsAt c' := by
  cases h with
  | again _ _ _ h =>
    refine hi.add hk hn h.sent ?_ h.ackSeg
    intro x hx
    rw [mem_singleton] at hx
    exact .inl (by rw [hx])
  | now _ _ _ h | closeWait _ h => exact h.speaks.finsAt hk hn hi
  | reset _ h =>
    have hsent : c'.sent = c.sent ++ [(.control, resetFor c seg)] := by
      rw [h]
      exact emit_seg_sent c _ _
    refine hi.add hk hn hsent ?_ (by rw [h]; rfl)
    intro x hx
    rw [mem_singleton] at hx
    rw [hx]
    exact .inr (resetFor_no_fin c seg)
  | speaks _ _ _ h => exact h.finsAt hk hn hi

theorem step_finsAt (hsay : SayInv c) (hnone : NoneDue c) (hk : PlaceKept c (step c e))
    (hn : Numbered c) (hi : FinsAt c) : FinsAt (step c e) := by
  by_cases ht : ∃ seg, e.taken c seg
  · obtain ⟨seg, ht⟩ := ht
    exact (step_heard hsay.delay hnone ht).finsAt hk hn hi
  · exact (step_speaks hsay.delay fun seg hs => ht ⟨seg, hs⟩).finsAt hk hn hi

/-! ### Whole runs -/

/-- **Invariant of the FIN's place**, with what its preservation rests on. -/
structure FinPlace (c : TcpConn) : Prop where
  fin : FinInv c
  writing : Writing 0 c
  say : SayInv c
  recv : RecvInv c
  opening : NothingEarly c
  numbered : Numbered c
  later : ¬ ClosedEarly c
  segs : FinsAt c

theorem step_finPlace (h : FinPlace c) (hok : FinPlaceOk c e) : FinPlace (step c e) := by
  obtain ⟨hparsed, hnot, hack⟩ := hok
  have hlater : ¬ ClosedEarly (step c e) := by
    intro hc
    rcases step_closedEarly hc with hc | hc
    · exact h.later hc
    · exact hnot hc
  have hkept := (step_placeKept h.fin h.writing h.numbered hack).resolve_right hlater
  exact ⟨step_finInv c e h.fin, step_writing c e h.writing, step_sayInv e h.say h.recv.noneDue,
    step_recvInv h.recv h.opening hparsed, step_nothingEarly c e h.opening, hkept.numbered, hlater,
    step_finsAt h.say h.recv.noneDue hkept h.numbered h.segs⟩

theorem initial_finPlace {c₀ : TcpConn} (h : Initial c₀) : FinPlace c₀ := by
  have hstart := initial_sendStart h
  have hnone : ¬ c₀.finSent := by simp [hstart.finSent]
  have hnumbered : Numbered c₀ := by
    refine ⟨fun _ => ?_, fun hs => absurd hstart.early.1 hs, fun hs => absurd hs hnone⟩
    exact ⟨hstart.seqNum, hstart.seqEnd, (quiet_notes hstart.out).2, hstart.finSent⟩
  have hsegs : FinsAt c₀ := by
    obtain ⟨c, -, hempty, hflags, -, hsay⟩ := initial_speaks h
    obtain ⟨l, hl, hsaid, -, hack⟩ := hsay.segs
    constructor
    · intro x hx
      rw [hl, hempty] at hx
      exact (hsaid x hx).finAt hnumbered
    · rcases hack with hack | hack
      · rw [hack]
        intro hf
        rw [hflags, hasFlag_zero] at hf
        cases hf
      · exact (hsaid _ hack).finAt hnumbered
  have hlater : ¬ ClosedEarly c₀ := by
    intro hmem
    cases (initial_edge_mem h hmem).1
  exact ⟨hstart.finInv, hstart.writing,
    (initial_said h).1, (initial_recvInv h).1, fun _ => (initial_recvInv h).2, hnumbered, hlater,
    hsegs⟩

theorem FinInv.nothing_left (h : FinInv c) (hsent : c.finSent) :
    c.unsent = [] ∧ c.unconsumed = [] := by
  obtain ⟨-, hr, hw⟩ := h.last hsent
  constructor
  · simp [TcpConn.unsent, unsentOf, bytesOf, hw]
  · simp [TcpConn.unconsumed, TcpConn.waiting, hr]

/-- **The FIN has one place**: `fsse` is the number behind it, and it follows the last byte. -/
theorem fin_unique {c₀ : TcpConn} (h₀ : Initial c₀) (es es' : List Event)
    (hes : Steps step FinPlaceOk c₀ (es ++ es')) {x : SegKind × TcpSeg}
    (hx : x ∈ (runConn c₀ es).sent) (hf : hasFlag x.2.flags FLAG_FIN = true) :
    let c := runConn c₀ (es ++ es')
    c.finSent = true ∧ finNumber x.2 = c.fsse ∧
      c.fsse = c.issn + 1 + UInt32.ofNat (payloads c.out).length + 1 ∧
      c.unsent = [] ∧ c.unconsumed = [] := by
  intro c
  have hplace : FinPlace c :=
    run_invariant_of_steps (fun c e h hok => step_finPlace h hok) (initial_finPlace h₀) hes
  have hmem : x ∈ c.sent := by
    obtain ⟨l, hl⟩ := runConn_out (runConn c₀ es) es'
    have hout : c.out = (runConn c₀ es).out ++ l := by
      show (run step c₀ (es ++ es')).out = _
      rw [run_append]
      exact hl.symm
    rw [sent_append hout]
    exact mem_append_left _ hx
  obtain ⟨hsent, hfsse⟩ := hplace.segs.sent x hmem hf
  exact ⟨hsent, hfsse, hplace.numbered.fin hsent, hplace.fin.nothing_left hsent⟩

def sampleAck (seqNum ackNum : UInt32) : TcpSeg :=
  { seqNum := seqNum, seqEnd := seqNum, ackNum := ackNum, flags := FLAG_ACK, winSize := 4000 }

/-- Ten bytes are sent, from 101 to 110; the application closes, and the FIN follows. -/
def closeAfterTen : List Event :=
  sampleOpen ++ sampleSend ++ [sampleEvent (.close sampleFcf), sampleRound]

/-- The FIN is acknowledged in order. -/
theorem fin_unique_acked :
    let c := runConn sampleConn (closeAfterTen ++ [sampleRecv (sampleAck 501 112)])
    c.state = .finWait2 ∧ c.fsse = 112 ∧
      (∃ x ∈ (runConn sampleConn closeAfterTen).sent, hasFlag x.2.flags FLAG_FIN = true) ∧
      ∀ x ∈ (runConn sampleConn closeAfterTen).sent, hasFlag x.2.flags FLAG_FIN = true →
        finNumber x.2 = c.fsse ∧ c.unsent = [] := by
  refine ⟨by decide +kernel, by decide +kernel, by decide +kernel, ?_⟩
  intro x hx hf
  obtain ⟨-, hnum, -, hleft, -⟩ := fin_unique (.fresh sampleData ⟨1, 10, 2, 20⟩) closeAfterTen
    [sampleRecv (sampleAck 501 112)] (by decide +kernel) hx hf
  exact ⟨hnum, hleft⟩

/-- The FIN is acknowledged by a segment that is not the next one, and the timer of the data
    fires. -/
def finAckedAhead : List Event :=
  closeAfterTen ++ [sampleRecv (sampleAck 600 112), sampleEvent .gbnFire, sampleRound]

/-- Both sides open at once, and the application closes in SYN_RECV. -/
def closeInSynRecv : List Event :=
  [sampleEvent (.connect sampleFcf 100),
   sampleRecv { seqNum := 500, seqEnd := 500, flags := FLAG_SYN, winSize := 4000 },
   sampleEvent (.close sampleFcf)]

/-- The FIN is sent again one number behind its place, or has the number of the SYN. -/
theorem fin_not_unique :
    (let c := runConn sampleConn finAckedAhead
     (c.sent.filter fun x => hasFlag x.2.flags FLAG_FIN).map (fun x => finNumber x.2) =
        [112, 113] ∧ c.fsse = 113) ∧
    (let c := runConn sampleConn closeInSynRecv
     (c.sent.filter fun x => hasFlag x.2.flags FLAG_FIN).map (fun x => finNumber x.2) =
        [c.issn + 1]) := by
  constructor
  · decide +kernel
  · decide +kernel

end FinsStack.Tcp
