import FinsStack.Tcp.Step

/-!
# What each function leaves alone

One lemma per function says which groups of the connection it may assign and what
it appends to `out`; everything else is unchanged by the shape of the statement.
The proofs about runs cite these lemmas and never unfold the functions again.

`Neutral` collects the outputs no statement about streams, states or timers reads:
control segments, bare acknowledgments, answers to control frames, poll alerts.
-/

namespace FinsStack.Tcp

open List

/-! ### Neutral outputs -/

def Neutral : Out → Prop
  | .seg .control _ | .seg .ack _ | .reply _ _ _ | .connReply _ _ _ _ _ => True
  | .alert _ paramId _ _ => paramId = TCP_ALERT_POLL
  | _ => False

def NeutralList (l : List Out) : Prop := ∀ o ∈ l, Neutral o

theorem neutralList_nil : NeutralList [] := forall_mem_nil _

theorem neutralList_singleton {o : Out} (h : Neutral o) : NeutralList [o] :=
  forall_mem_singleton.mpr h

theorem neutralList_control (seg : TcpSeg) : NeutralList [.seg .control seg] :=
  neutralList_singleton trivial

theorem neutralList_ack (seg : TcpSeg) : NeutralList [.seg .ack seg] :=
  neutralList_singleton trivial

/-! ### Flags -/

theorem hasFlag_zero (m : UInt16) : hasFlag 0 m = false := by
  simp [hasFlag]

theorem hasFlag_or (a b m : UInt16) : hasFlag (a ||| b) m = (hasFlag a m || hasFlag b m) := by
  have hdistrib : (a ||| b) &&& m = (a &&& m) ||| (b &&& m) := by
    apply UInt16.toBitVec_inj.mp
    simp only [UInt16.toBitVec_and, UInt16.toBitVec_or]
    exact BitVec.and_or_distrib_right
  unfold hasFlag
  rw [hdistrib, Bool.eq_iff_iff]
  simp only [bne_iff_ne, ne_eq, UInt16.or_eq_zero_iff, Bool.or_eq_true]
  grind

/-! ### Segments -/

section

variable (seg : TcpSeg) (c : TcpConn)
include seg c

theorem tcpSegDelayedAck_frame :
    ∃ f a, tcpSegDelayedAck seg c = ({ seg with flags := f }, { c with toAckState := a }) := by
  unfold tcpSegDelayedAck
  split
  · exact ⟨_, _, rfl⟩
  · exact ⟨_, _, rfl⟩

theorem addFin_frame : ∃ f, addFin seg c = { seg with flags := f } := by
  unfold addFin
  split
  · exact ⟨_, rfl⟩
  · exact ⟨_, rfl⟩

theorem tcpSegUpdateState_frame :
    ∃ f a, tcpSegUpdateState seg c = ({ seg with flags := f }, { c with toAckState := a }) := by
  obtain ⟨f, a, h⟩ := tcpSegDelayedAck_frame seg c
  unfold tcpSegUpdateState
  split
  iterate 3 exact ⟨f, a, h⟩
  iterate 2
    rw [h]
    obtain ⟨f', h'⟩ := addFin_frame { seg with flags := f } { c with toAckState := a }
    exact ⟨f', a, Prod.ext h' rfl⟩
  iterate 6 exact ⟨_, _, rfl⟩

theorem tcpSegUpdate_frame (flags : UInt16) :
    ∃ f k w o ol a, tcpSegUpdate seg c flags =
      ({ seg with flags := f, ackNum := k, winSize := w, options := o, optLen := ol },
        { c with toAckState := a }) := by
  obtain ⟨f, a, h⟩ := tcpSegUpdateState_frame
    { seg with flags := flags &&& (FLAG_CONTROL ||| FLAG_ECN) } c
  unfold tcpSegUpdate
  rw [h]
  exact ⟨_, _, _, _, _, a, rfl⟩

end

section

variable (c : TcpConn) (flags : UInt16)
include c flags

theorem sendControl_frame :
    ∃ a seg, sendControl c flags =
      { c with toAckState := a, out := c.out ++ [.seg .control seg] } := by
  obtain ⟨f, k, w, o, ol, a, h⟩ :=
    tcpSegUpdate_frame (tcpSegCreate c.addr c.sendSeqEnd c.sendSeqEnd) c flags
  unfold sendControl
  rw [h]
  exact ⟨a, _, rfl⟩

theorem sendAckSeg_frame :
    ∃ a w seg, sendAckSeg c flags =
      { c with toAckState := a, toRecvWindow := { c.toRecvWindow with flowStopped := w },
               out := c.out ++ [.seg .ack seg] } := by
  obtain ⟨f, k, w, o, ol, a, h⟩ :=
    tcpSegUpdate_frame { c.ackSeg with seqNum := c.sendSeqEnd, seqEnd := c.sendSeqEnd } c flags
  unfold sendAckSeg
  rw [h]
  exact ⟨_, _, _, rfl⟩

/-! ### Replies to received data -/

theorem sendControlReply_frame :
    ∃ a w seg, sendControlReply c flags =
      { c with toAckState := a, toRecvWindow := { c.toRecvWindow with flowStopped := w },
               out := c.out ++ [.seg .control seg] } := by
  obtain ⟨a, seg, h⟩ := sendControl_frame c flags
  unfold sendControlReply
  rw [h]
  exact ⟨a, _, seg, rfl⟩

theorem replyAck_frame :
    ∃ a w l, NeutralList l ∧ replyAck c flags =
      { c with toAckState := a, toRecvWindow := { c.toRecvWindow with flowStopped := w },
               out := c.out ++ l } := by
  unfold replyAck
  split
  · simp only []
    split
    · exact ⟨_, _, _, neutralList_ack _, rfl⟩
    · obtain ⟨a, w, seg, h⟩ :=
        sendAckSeg_frame { c with toDelayedTimer := false, toDelayedFlag := false } flags
      rw [h]
      exact ⟨_, w, _, neutralList_ack seg, rfl⟩
  · exact ⟨_, c.flowStopped, [], neutralList_nil, by rw [append_nil]⟩

theorem tcpHandleReply_frame :
    ∃ f a w l, NeutralList l ∧
      (f = c.toFinSide ∨ (hasFlag flags FLAG_FIN = true ∧ c.finSent = false ∧
        f = ⟨true, true, c.sendSeqEnd + 1⟩)) ∧
      tcpHandleReply c flags =
        { c with toFinSide := f, toAckState := a,
                 toRecvWindow := { c.toRecvWindow with flowStopped := w }, out := c.out ++ l } := by
  unfold tcpHandleReply
  split
  · obtain ⟨a, w, seg, h⟩ := sendControlReply_frame c flags
    exact ⟨_, a, w, _, neutralList_control seg, .inl rfl, h⟩
  · split
    · rename_i hfin
      obtain ⟨a, w, seg, h⟩ := sendControlReply_frame
        { (if c.finSent then c
            else { c with finSent := true, finSep := true, fsse := c.sendSeqEnd + 1 }) with
          toDelayedTimer := false, delayedFlag := false, toDelayedFlag := false }
        (if c.finSent then flags &&& ~~~ FLAG_FIN else flags)
      rw [h]
      by_cases hf : c.finSent
      · simp only [hf, if_true]
        exact ⟨_, a, w, _, neutralList_control seg, .inl rfl, rfl⟩
      · simp only [hf, if_false, Bool.false_eq_true]
        exact ⟨_, a, w, _, neutralList_control seg,
          .inr ⟨hfin, trivial, rfl⟩, rfl⟩
    · split
      · obtain ⟨a, w, l, hl, h⟩ := replyAck_frame c flags
        exact ⟨_, a, w, l, hl, .inl rfl, h⟩
      · obtain ⟨a, w, seg, h⟩ := sendControlReply_frame c flags
        exact ⟨_, a, w, _, neutralList_control seg, .inl rfl, h⟩

end

theorem mainDelayedAck_frame (c : TcpConn) :
    ∃ a w l, NeutralList l ∧ mainDelayedAck c =
      { c with toAckState := a, toRecvWindow := { c.toRecvWindow with flowStopped := w },
               out := c.out ++ l } := by
  unfold mainDelayedAck
  split
  · obtain ⟨a, w, seg, h⟩ :=
      sendAckSeg_frame { c with toDelayedFlag := false, delayedFlag := false } c.delayedAckFlags
    rw [h]
    exact ⟨_, w, _, neutralList_ack seg, rfl⟩
  · exact ⟨c.toAckState, c.flowStopped, [], neutralList_nil, by rw [append_nil]⟩

/-! ### Options -/

/-- Bounds on the options that hold of a new connection and that `tcp_process_options`
    keeps: the scale is at most `TCP_OPT_WS_MAX`. -/
def OptsOk (o : ConnOpts) : Prop := o.wsSend ≤ TCP_OPT_WS_MAX

def optByte (area : List UInt8) (i : Nat) : UInt8 := area.getD i 0

def optStride (area : List UInt8) (i : Nat) : Nat :=
  let kind := optByte area i
  let len := optByte area (i + 1)
  if kind = 2 ∧ len = 4 then 4
  else if kind = 3 ∧ len = 3 then 3
  else if kind = 8 ∧ len = 10 then 10
  else if kind = 2 ∨ kind = 3 ∨ kind = 4 ∨ kind = 5 ∨ kind = 8 then 2
  else 1

def optEffect (area : List UInt8) (i : Nat) (c : TcpConn) : TcpConn :=
  let kind := optByte area i
  let len := optByte area (i + 1)
  if kind = 2 ∧ len = 4 then
    optMss c (((optByte area (i + 2)).toUInt16 <<< 8) ||| (optByte area (i + 3)).toUInt16)
  else if kind = 3 ∧ len = 3 then optWs c (optByte area (i + 2))
  else if kind = 4 ∧ len = 2 then optSackPerm c
  else if kind = 8 ∧ len = 10 then optTs c
  else c

theorem tcpProcessOptionsLoop_succ (seg : TcpSeg) (fuel i : Nat) (c : TcpConn) :
    tcpProcessOptionsLoop seg (fuel + 1) i c =
      if (i : Int) < seg.optLen ∧ optByte seg.options i ≠ 0 then
        tcpProcessOptionsLoop seg fuel (i + optStride seg.options i) (optEffect seg.options i c)
      else c := by
  have hbyte : ∀ j, seg.options.getD j 0 = optByte seg.options j := fun _ => rfl
  simp only [tcpProcessOptionsLoop, hbyte, optStride, optEffect]
  by_cases hi : (i : Int) < seg.optLen
  · by_cases h2 : optByte seg.options i = 2
    · by_cases hlen : optByte seg.options (i + 1) = 4 <;> simp [hi, h2, hlen]
    by_cases h3 : optByte seg.options i = 3
    · by_cases hlen : optByte seg.options (i + 1) = 3 <;> simp [hi, h3, hlen]
    by_cases h4 : optByte seg.options i = 4
    · simp [hi, h4]
    by_cases h8 : optByte seg.options i = 8
    · by_cases hlen : optByte seg.options (i + 1) = 10 <;> simp [hi, h8, hlen]
    by_cases h5 : optByte seg.options i = 5
    · simp [hi, h5]
    · simp [hi, h2, h3, h4, h8, h5]
  · simp [hi]

theorem optEffect_frame (area : List UInt8) (i : Nat) (c : TcpConn) :
    ∃ o, (OptsOk c.toConnOpts → OptsOk o) ∧ (negotiating c = false → o = c.toConnOpts) ∧
      optEffect area i c = { c with toConnOpts := o } := by
  simp only [optEffect]
  split_ifs
  · refine ⟨(optMss c _).toConnOpts, id, fun hn => ?_, rfl⟩
    simp [optMss, hn]
  · unfold optWs
    split
    · rename_i hws
      refine ⟨{ c.toConnOpts with wsoptEnabled := true, wsSend := _ }, fun _ => ?_, ?_, rfl⟩
      · show (if _ then _ else _) ≤ TCP_OPT_WS_MAX
        split
        · exact UInt8.le_of_lt ‹_›
        · exact UInt8.le_refl _
      · intro hn
        simp [hn] at hws
    · exact ⟨c.toConnOpts, id, fun _ => rfl, rfl⟩
  · refine ⟨(optSackPerm c).toConnOpts, id, fun hn => ?_, rfl⟩
    simp [optSackPerm, hn]
  · refine ⟨(optTs c).toConnOpts, id, fun hn => ?_, rfl⟩
    simp [optTs, hn]
  · exact ⟨c.toConnOpts, id, fun _ => rfl, rfl⟩

theorem tcpProcessOptionsLoop_frame (seg : TcpSeg) (fuel i : Nat) (c : TcpConn) :
    ∃ o, (OptsOk c.toConnOpts → OptsOk o) ∧ (negotiating c = false → o = c.toConnOpts) ∧
      tcpProcessOptionsLoop seg fuel i c = { c with toConnOpts := o } := by
  induction fuel generalizing i c with
  | zero => exact ⟨c.toConnOpts, id, fun _ => rfl, rfl⟩
  | succ fuel ih =>
    rw [tcpProcessOptionsLoop_succ]
    split
    · obtain ⟨o, hok, hneg, ho⟩ := optEffect_frame seg.options i c
      rw [ho]
      obtain ⟨o', hok', hneg', h⟩ := ih (i + optStride seg.options i) { c with toConnOpts := o }
      exact ⟨o', fun hc => hok' (hok hc), fun hn => (hneg' hn).trans (hneg hn), h⟩
    · exact ⟨c.toConnOpts, id, fun _ => rfl, rfl⟩

theorem tcpProcessOptions_frame (c : TcpConn) (seg : TcpSeg) :
    ∃ o, (OptsOk c.toConnOpts → OptsOk o) ∧ (negotiating c = false → o = c.toConnOpts) ∧
      tcpProcessOptions c seg = { c with toConnOpts := o } :=
  tcpProcessOptionsLoop_frame seg _ 0 c

/-! ### Retransmission -/

def reheaded (seg : TcpSeg) (f : UInt16) (k : UInt32) (w : UInt16) (o : List UInt8) (ol : Int) :
    TcpSeg :=
  { seg with flags := f, ackNum := k, winSize := w, options := o, optLen := ol }

theorem resendNode_frame (note : TcpConn → TcpConn) (hnote : note = noteFlow ∨ note = id)
    (c : TcpConn) (n : TcpNode TcpSeg) :
    ∃ f k w o ol a fs, resendNode note c n =
      { c with
        toAckState := a
        toRecvWindow := { c.toRecvWindow with flowStopped := fs }
        sendQueue := tcpQueueSet c.sendQueue n.addr (reheaded n.data f k w o ol)
        sendWin := uint32Decrease c.sendWin n.data.dataLen32
        out := c.out ++ [.seg .resend (reheaded n.data f k w o ol)] } := by
  obtain ⟨f, k, w, o, ol, a, h⟩ := tcpSegUpdate_frame n.data c FLAG_ACK
  refine ⟨f, k, w, o, ol, a, ?_⟩
  unfold resendNode
  rw [h]
  rcases hnote with hnote | hnote
  · rw [hnote]
    exact ⟨_, rfl⟩
  · rw [hnote]
    exact ⟨c.flowStopped, rfl⟩

theorem timeoutCong_frame (c : TcpConn) : ∃ k, timeoutCong c = { c with toCongCtl := k } := by
  unfold timeoutCong
  split
  · exact ⟨_, rfl⟩
  · exact ⟨_, rfl⟩
  · exact ⟨_, rfl⟩

theorem mainTimeout_frame (note : TcpConn → TcpConn) (hnote : note = noteFlow ∨ note = id)
    (c : TcpConn) (n : TcpNode TcpSeg) :
    ∃ f k w o ol a fs cc, mainTimeout note c n =
      { c with
        toAckState := a
        toRecvWindow := { c.toRecvWindow with flowStopped := fs }
        sendQueue := tcpQueueSet c.sendQueue n.addr (reheaded n.data f k w o ol)
        sendWin := uint32Decrease c.sendWin n.data.dataLen32
        toCongCtl := cc
        rttFlag := false
        toGbnTimer := timerOnceStart c.timeout, gbnFlag := true, gbnNode := some n.addr
        mainWaitFlag := false
        out := c.out ++ [.seg .resend (reheaded n.data f k w o ol)] } := by
  obtain ⟨cc, hc⟩ := timeoutCong_frame { c with gbnFlag := true, rttFlag := false }
  obtain ⟨f, k, w, o, ol, a, fs, h⟩ := resendNode_frame note hnote
    { c with gbnFlag := true, rttFlag := false, toCongCtl := cc, gbnNode := some n.addr } n
  refine ⟨f, k, w, o, ol, a, fs, cc, ?_⟩
  unfold mainTimeout
  rw [hc]
  simp only [h]

theorem tcpListenChild_frame (md : TcpData) (parent : TcpConn) (seg : TcpSeg) (rand : UInt32) :
    ∃ o a ack, tcpListenChild md parent seg rand =
      { takeSyn (startSend
          (tcpConnCreate md ⟨seg.dstIp, seg.dstPort, seg.srcIp, seg.srcPort⟩) rand) seg with
        state := .synRecv, activeOpen := false, pollEvents := parent.pollEvents
        toConnOpts := o, toAckState := a, timeout := TCP_GBN_TO_MIN
        toGbnTimer := timerOnceStart TCP_GBN_TO_MIN, toGbnFlag := false
        out := [.edge .closed .synRecv, .seg .control ack] } := by
  obtain ⟨o, -, -, hopt⟩ := tcpProcessOptions_frame (takeSyn (startSend
    { (tcpConnCreate md ⟨seg.dstIp, seg.dstPort, seg.srcIp, seg.srcPort⟩).setState .synRecv with
      activeOpen := false, pollEvents := parent.pollEvents } rand) seg) seg
  simp only [tcpListenChild, hopt]
  obtain ⟨a, ack, hack⟩ := sendControl_frame _ _
  rw [hack]
  exact ⟨o, a, ack, rfl⟩

theorem tcpConnect_frame (c : TcpConn) (ff : Fcf) (rand : UInt32) :
    (∃ n, tcpConnect c ff rand = c.emit (.reply ff FCF_FALSE n)) ∧
        ¬ (c.runningFlag = true ∧ (c.state = .closed ∨ c.state = .listen)) ∨
      (c.runningFlag ∧ (c.state = .closed ∨ c.state = .listen)) ∧
        ∃ a seg, tcpConnect c ff rand =
          { startSend { c with state := .synSent, activeOpen := true, ff := some ff } rand with
            toAckState := a, timeout := TCP_GBN_TO_DEFAULT
            out := c.out ++ [.edge c.state .synSent, .seg .control seg] } := by
  unfold tcpConnect
  split
  · rename_i hrun
    split
    · rename_i hs
      obtain ⟨a, seg, h⟩ := sendControl_frame
        (startSend { c.setState .synSent with activeOpen := true, ff := some ff } rand) FLAG_SYN
      refine .inr ⟨⟨hrun, hs⟩, a, seg, ?_⟩
      simp only [h]
      simp [startSend, TcpConn.setState]
    · rename_i hs
      exact .inl ⟨⟨_, rfl⟩, fun h => hs h.2⟩
  · rename_i hrun
    exact .inl ⟨⟨_, rfl⟩, fun h => hrun h.1⟩

/-! ### Write requests -/

def ExecReplies (l : List Out) : Prop :=
  ∀ o ∈ l, ∃ req serialNum retVal retMsg, o = .execReply req serialNum retVal retMsg

def Serves (c c' : TcpConn) : Prop :=
  ∃ w l, ExecReplies l ∧ c' = { c with toWriteSide := w, out := c.out ++ l }

theorem served_side (c : TcpConn) (w : WriteSide) : Serves c { c with toWriteSide := w } :=
  ⟨w, [], by simp [ExecReplies], by rw [append_nil]⟩

theorem Serves.first {c c' : TcpConn} {w : WriteSide} {req : Nat}
    {serialNum retVal retMsg : UInt32}
    (h : Serves { c with
      toWriteSide := w, out := c.out ++ [.execReply req serialNum retVal retMsg] } c') :
    Serves c c' := by
  obtain ⟨w', l, hl, rfl⟩ := h
  refine ⟨w', .execReply req serialNum retVal retMsg :: l, ?_, by rw [append_assoc]; rfl⟩
  exact forall_mem_cons.mpr ⟨⟨_, _, _, _, rfl⟩, hl⟩

theorem tcpHandleRequestsLoop_served (ns : List (TcpNode TcpRequest)) (space : Int)
    (c : TcpConn) : Serves c (tcpHandleRequestsLoop ns space c).2 := by
  induction ns generalizing space c with
  | nil => exact served_side c c.toWriteSide
  | cons n ns ih =>
    simp only [tcpHandleRequestsLoop]
    split
    · exact served_side c c.toWriteSide
    split
    · exact served_side c _
    · exact (ih _ _).first

theorem handleInterrupt_served (c : TcpConn) : Serves c (handleInterrupt c) := by
  have hloop : ∀ front ns (c : TcpConn), Serves c (handleInterruptLoop front ns c) := by
    intro front ns
    induction ns with
    | nil => exact fun c => served_side c c.toWriteSide
    | cons n ns ih =>
      intro c
      unfold handleInterruptLoop
      split
      · dsimp only
        split
        · exact (ih _).first
        · exact (ih _).first
      · exact ih c
  unfold handleInterrupt
  split
  · exact served_side c c.toWriteSide
  · exact hloop _ _ c

def WriteOut : Out → Prop
  | .execReply _ _ _ _ | .accept _ _ => True
  | .alert _ paramId _ _ => paramId = TCP_ALERT_POLL
  | _ => False

def WriteOuts (l : List Out) : Prop := ∀ o ∈ l, WriteOut o

theorem writeOuts_nil : WriteOuts [] := forall_mem_nil _

theorem writeOuts_singleton {o : Out} (h : WriteOut o) : WriteOuts [o] :=
  forall_mem_singleton.mpr h

theorem writeOuts_execReply (req : Nat) (serialNum retVal retMsg : UInt32) :
    WriteOuts [.execReply req serialNum retVal retMsg] := writeOuts_singleton trivial

theorem writeOuts_accept (req : Nat) (data : List UInt8) : WriteOuts [.accept req data] :=
  writeOuts_singleton trivial

theorem WriteOuts.append {l₁ l₂ : List Out} (h₁ : WriteOuts l₁) (h₂ : WriteOuts l₂) :
    WriteOuts (l₁ ++ l₂) := forall_mem_append.mpr ⟨h₁, h₂⟩

theorem alertPollWrite_frame (c : TcpConn) (space : Int) :
    ∃ pe l, WriteOuts l ∧ NeutralList l ∧ alertPollWrite c space =
      { c with pollEvents := pe, out := c.out ++ l } := by
  unfold alertPollWrite
  split
  · refine ⟨_, [.alert c.addr TCP_ALERT_POLL FCF_TRUE POLL_WRITE], writeOuts_singleton ?_,
      neutralList_singleton ?_, rfl⟩
    · exact rfl
    · exact rfl
  · exact ⟨c.pollEvents, [], writeOuts_nil, neutralList_nil, by rw [append_nil]⟩

theorem ExecReplies.writeOuts {l : List Out} (h : ExecReplies l) : WriteOuts l := by
  intro o ho
  obtain ⟨_, _, _, _, rfl⟩ := h o ho
  trivial

theorem tcpHandleRequests_frame (c : TcpConn) :
    ∃ w pe l, WriteOuts l ∧ tcpHandleRequests c =
      { c with toWriteSide := w, pollEvents := pe, out := c.out ++ l } := by
  obtain ⟨w, l₁, hl₁, h₁⟩ := tcpHandleRequestsLoop_served c.requestQueue.nodes (writeSpace c) c
  unfold tcpHandleRequests
  obtain ⟨pe, l₂, hl₂, -, h₂⟩ := alertPollWrite_frame
    { c with toWriteSide := w, out := c.out ++ l₁ }
    (tcpHandleRequestsLoop c.requestQueue.nodes (writeSpace c) c).1
  simp only [h₁, h₂]
  exact ⟨w, pe, l₁ ++ l₂, hl₁.writeOuts.append hl₂, by rw [append_assoc]⟩

def WriteMove (c c' : TcpConn) : Prop :=
  ∃ w pe m n l, c.nextAddr ≤ n ∧ WriteOuts l ∧ c' =
    { c with
      toWriteSide := w, pollEvents := pe, toMainCtl := m, nextAddr := n, out := c.out ++ l }

theorem WriteMove.trans {c₁ c₂ c₃ : TcpConn} (h₁ : WriteMove c₁ c₂) (h₂ : WriteMove c₂ c₃) :
    WriteMove c₁ c₃ := by
  obtain ⟨w₁, pe₁, m₁, n₁, l₁, hn₁, hl₁, rfl⟩ := h₁
  obtain ⟨w₂, pe₂, m₂, n₂, l₂, hn₂, hl₂, rfl⟩ := h₂
  exact ⟨w₂, pe₂, m₂, n₂, l₁ ++ l₂, Nat.le_trans hn₁ hn₂, hl₁.append hl₂,
    by simp only [append_assoc]⟩

section

variable (c)

theorem alertPollWrite_writeMove (space : Int) :
    WriteMove c (alertPollWrite c space) := by
  obtain ⟨pe, l, hl, -, h⟩ := alertPollWrite_frame c space
  exact ⟨c.toWriteSide, pe, c.toMainCtl, c.nextAddr, l, Nat.le_refl _, hl, h⟩

theorem tcpHandleRequests_writeMove : WriteMove c (tcpHandleRequests c) := by
  obtain ⟨w, pe, l, hl, h⟩ := tcpHandleRequests_frame c
  exact ⟨w, pe, c.toMainCtl, c.nextAddr, l, Nat.le_refl _, hl, h⟩

theorem wakeMain_writeMove : WriteMove c (wakeMain c) :=
  ⟨c.toWriteSide, c.pollEvents, _, c.nextAddr, [], Nat.le_refl _, writeOuts_nil,
    by rw [append_nil]; rfl⟩

@[simp]
theorem refuse_writeMove (serialNum retVal retMsg : UInt32) :
    WriteMove c { c with
      nextAddr := c.nextAddr + 1
      out := c.out ++ [.execReply c.nextAddr serialNum retVal retMsg] } :=
  ⟨c.toWriteSide, c.pollEvents, c.toMainCtl, _, _, Nat.le_succ _, writeOuts_execReply _ _ _ _, rfl⟩

@[simp]
theorem writeConnected_writeMove (d : Pdu) (flags serialNum : UInt32) :
    WriteMove c (writeConnected c d flags serialNum) := by
  unfold writeConnected
  split
  · refine .trans ?_ (.trans (tcpHandleRequests_writeMove _) (wakeMain_writeMove _))
    exact ⟨_, c.pollEvents, c.toMainCtl, _, _, Nat.le_succ _, writeOuts_accept _ _, rfl⟩
  · exact refuse_writeMove c serialNum _ _

end

variable {c c' : TcpConn}

theorem WriteMove.alertPollIf (h : WriteMove c c') (b : Bool) (space : Int) :
    WriteMove c (if b then alertPollWrite c' space else c') := by
  split
  · exact h.trans (alertPollWrite_writeMove c' space)
  · exact h

@[simp]
theorem writePreConnected_writeMove (c : TcpConn) (d : Pdu) (serialNum : UInt32) :
    WriteMove c (writePreConnected c d serialNum) := by
  simp only [writePreConnected]
  split
  · refine .alertPollIf (.trans ?_ (wakeMain_writeMove _)) _ _
    refine ⟨_, c.pollEvents, c.toMainCtl, _, _, Nat.le_succ _, ?_, rfl⟩
    exact (writeOuts_accept _ _).append (writeOuts_execReply _ _ _ _)
  · exact .alertPollIf (refuse_writeMove c serialNum _ _) _ _

theorem requests_writeMove (c : TcpConn) (w : WriteSide) (m : MainCtl) :
    WriteMove c { c with toWriteSide := w, toMainCtl := m } :=
  ⟨w, c.pollEvents, m, c.nextAddr, [], Nat.le_refl _, writeOuts_nil, by rw [append_nil]⟩

@[simp]
theorem handleInterrupt_writeMove (c : TcpConn) : WriteMove c (handleInterrupt c) := by
  obtain ⟨w, l, hl, h⟩ := handleInterrupt_served c
  exact ⟨w, c.pollEvents, c.toMainCtl, c.nextAddr, l, Nat.le_refl _, hl.writeOuts, h⟩

theorem handleInterrupt_of_nil (h : c.requestQueue.nodes = []) : handleInterrupt c = c := by
  unfold handleInterrupt
  rw [h]

@[simp]
theorem requestFire_writeMove (c : TcpConn) (a : Nat) : WriteMove c (requestFire c a) :=
  requests_writeMove c _ _

theorem tcpWrite_writeMove (c : TcpConn) (d : Pdu) (flags serialNum : UInt32) :
    WriteMove c (tcpWrite c d flags serialNum) := by
  unfold tcpWrite
  split
  · split
    all_goals simp
  · simp

end FinsStack.Tcp
