import FinsStack.Tcp.StateView
import Mathlib.Logic.Relation

/-!
# A connection seen from its sending side

`SendMove` lists everything a call can do to the data on its way out: to the requests
and the write queue, to the sent and unacknowledged segments and their sequence
numbers, to the FIN, the peer's window, the retransmission timer and the negotiated
options.  A call is a finite chain of such moves.  Two things come first if they happen
at all: an arriving segment's acknowledgment is taken, and a round of the main thread
sends new data (`SendStep`).  A statement about the sending side is proved against the
moves, one by one, and against these two.
-/

namespace FinsStack.Tcp

/-! ### What stays the same -/

def OnStream : Out → Prop
  | .seg .fresh _ | .seg .resend _ | .execReply _ _ _ _ | .accept _ _ | .finAck => True
  | _ => False

def QuietOut (c c' : TcpConn) : Prop := ∃ l, (∀ o ∈ l, ¬ OnStream o) ∧ c'.out = c.out ++ l

theorem QuietOut.refl (c : TcpConn) : QuietOut c c :=
  ⟨[], fun _ h => (nomatch h), (List.append_nil _).symm⟩

variable {c c' c₁ c₂ : TcpConn} {o : Out}

theorem QuietOut.trans {c₃ : TcpConn} (h₁ : QuietOut c₁ c₂) (h₂ : QuietOut c₂ c₃) :
    QuietOut c₁ c₃ := by
  obtain ⟨l₁, hl₁, ho₁⟩ := h₁
  obtain ⟨l₂, hl₂, ho₂⟩ := h₂
  refine ⟨l₁ ++ l₂, ?_, by rw [ho₂, ho₁, List.append_assoc]⟩
  exact List.forall_mem_append.mpr ⟨hl₁, hl₂⟩

theorem QuietOut.of_eq (ho : c'.out = c.out) : QuietOut c c' :=
  ⟨[], fun _ h => (nomatch h), by rw [ho, List.append_nil]⟩

theorem QuietOut.of_one (ho : c'.out = c.out ++ [o]) (hq : ¬ OnStream o) : QuietOut c c' := by
  refine ⟨[o], ?_, ho⟩
  intro o' ho'
  rw [List.mem_singleton] at ho'
  exact ho' ▸ hq

theorem Neutral.not_onStream (h : Neutral o) : ¬ OnStream o := by
  cases o with
  | seg kind seg =>
    cases kind with
    | fresh | resend => exact h.elim
    | ack | control => exact id
  | execReply req serialNum retVal retMsg | accept req data | finAck => exact h.elim
  | _ => exact id

theorem QuietOut.of_neutral {l : List Out} (hl : NeutralList l) (ho : c'.out = c.out ++ l) :
    QuietOut c c' :=
  ⟨l, fun o h => (hl o h).not_onStream, ho⟩

structure SendPart extends WriteSide, SendSide, FinSide, SendWindow, GbnState, ConnOpts where
  timeout : Rat
  nextAddr : Nat

def TcpConn.sendPart (c : TcpConn) : SendPart where
  toWriteSide := c.toWriteSide
  toSendSide := c.toSendSide
  toFinSide := c.toFinSide
  toSendWindow := c.toSendWindow
  toGbnState := c.toGbnState
  toConnOpts := c.toConnOpts
  timeout := c.timeout
  nextAddr := c.nextAddr

structure SameSend (c c' : TcpConn) : Prop where
  part : c'.sendPart = c.sendPart
  out : QuietOut c c'

section

variable {c c' : TcpConn} (h : SameSend c c')
include h

theorem SameSend.write : c'.toWriteSide = c.toWriteSide := congrArg SendPart.toWriteSide h.part

theorem SameSend.send : c'.toSendSide = c.toSendSide := congrArg SendPart.toSendSide h.part

theorem SameSend.fin : c'.toFinSide = c.toFinSide := congrArg SendPart.toFinSide h.part

theorem SameSend.window : c'.toSendWindow = c.toSendWindow :=
  congrArg SendPart.toSendWindow h.part

theorem SameSend.gbn : c'.toGbnState = c.toGbnState := congrArg SendPart.toGbnState h.part

theorem SameSend.opts : c'.toConnOpts = c.toConnOpts := congrArg SendPart.toConnOpts h.part

theorem SameSend.timeout : c'.timeout = c.timeout := congrArg SendPart.timeout h.part

theorem SameSend.nextAddr : c'.nextAddr = c.nextAddr := congrArg SendPart.nextAddr h.part

end

/-! ### The moves -/

def EarlyState (s : TcpState) : Prop :=
  s = .closed ∨ s = .listen ∨ s = .synSent ∨ s = .synRecv

def Early (c : TcpConn) : Prop := EarlyState c.state ∧ (c.state = .closed → c.runningFlag = true)

def OwnClosed (s : TcpState) : Prop :=
  s = .finWait1 ∨ s = .finWait2 ∨ s = .closing ∨ s = .timeWait ∨ s = .lastAck

def Awaiting (s : TcpState) : Prop := s = .finWait1 ∨ s = .closing ∨ s = .lastAck
deriving Decidable

theorem Awaiting.ownClosed {s : TcpState} (h : Awaiting s) : OwnClosed s := by
  rcases h with h | h | h
  · exact .inl h
  · exact .inr (.inr (.inl h))
  · exact .inr (.inr (.inr (.inr h)))

def Retransmits (s : TcpState) : Prop :=
  s = .established ∨ s = .closeWait ∨ s = .finWait1 ∨ s = .closing ∨ s = .lastAck
deriving Decidable

structure EarlyStep (c c' : TcpConn) : Prop where
  early : Early c
  state : EarlyState c'.state
  closed : c'.state = .closed → c.state = .closed
  running : c'.runningFlag = c.runningFlag
  write : c'.toWriteSide = c.toWriteSide
  fin : c'.toFinSide = c.toFinSide
  send : c'.toSendSide = c.toSendSide ∨ ∃ rand, c'.toSendSide =
    { c.toSendSide with issn := rand, sendSeqNum := rand, sendSeqEnd := rand }
  window : c'.toSendWindow = c.toSendWindow ∨ ∃ w : UInt16, c'.toSendWindow =
    { c.toSendWindow with sendMaxWin := w.toUInt32, sendWin := w.toUInt32 }
  timeout : 0 < c.timeout → 0 < c'.timeout
  opts : OptsOk c.toConnOpts → OptsOk c'.toConnOpts
  nextAddr : c'.nextAddr = c.nextAddr
  out : QuietOut c c'

structure OpenStep (c : TcpConn) (seg : TcpSeg) (c' : TcpConn) : Prop where
  before : c.state = .synSent ∨ c.state = .synRecv
  state : c'.state = .established
  ack : seg.ackNum = c.sendSeqNum + 1
  write : c'.toWriteSide = c.toWriteSide
  fin : c'.toFinSide = c.toFinSide
  send : c'.toSendSide =
    { c.toSendSide with sendSeqNum := seg.ackNum, sendSeqEnd := seg.ackNum }
  window : c'.toSendWindow = { c.toSendWindow with
    sendMaxWin := seg.winSize.toUInt32, sendWin := seg.winSize.toUInt32 }
  gbn : c'.toGbnState =
    { c.toGbnState with firstFlag := true, gbnFlag := false, toGbnTimer := false }
  timeout : c'.timeout = TCP_GBN_TO_DEFAULT
  opts : OptsOk c.toConnOpts → OptsOk c'.toConnOpts
  nextAddr : c'.nextAddr = c.nextAddr
  out : QuietOut c c'

structure DataMove (c c' : TcpConn) : Prop where
  part : { c'.sendPart with toGbnState := c.toGbnState, nextAddr := c.nextAddr } = c.sendPart
  gbn : c'.toGbnState = c.toGbnState ∨ c'.state = .timeWait
  nextAddr : c.nextAddr ≤ c'.nextAddr
  before : Receiving c.state ∨ PeerDone c.state ∨ c.state = .closed
  state : Receiving c'.state ∨ PeerDone c'.state ∨ c'.state = .closed
  running : c'.runningFlag = true → c.runningFlag = true
  retransmits : Retransmits c'.state → Retransmits c.state
  ownClosed : OwnClosed c.state ∨ c.state = .closed → OwnClosed c'.state ∨ c'.state = .closed
  awaiting : c.finSent = false → Awaiting c.state → Awaiting c'.state
  out : QuietOut c c'

inductive GbnMove (c : TcpConn) : GbnState → Prop
  | fire (h : c.toGbnTimer = true) :
      GbnMove c { c.toGbnState with toGbnTimer := false, toGbnFlag := true }
  | timeoutIdle (hq : c.sendQueue.nodes = []) :
      GbnMove c { c.toGbnState with toGbnFlag := false, firstFlag := false, gbnFlag := false }
  | passIdle (hq : c.sendQueue.nodes = []) : GbnMove c { c.toGbnState with gbnFlag := false }
  | passEnd : GbnMove c { c.toGbnState with gbnNode := none, gbnFlag := false }
  /-- The timer serves another purpose, or none any more. -/
  | unused (g : GbnState) (h : ¬ Retransmits c.state ∨ c.runningFlag = false) : GbnMove c g

def Closes (c : TcpConn) : Prop :=
  OwnClosed c.state ∨ (c.state = .closed ∧ c.runningFlag = false)

structure Resend (c : TcpConn) (n : TcpNode TcpSeg) (c' : TcpConn) : Prop where
  mem : n ∈ c.sendQueue.nodes
  state : c'.state = c.state
  running : c'.runningFlag = c.runningFlag
  write : c'.toWriteSide = c.toWriteSide
  fin : c'.toFinSide = c.toFinSide
  timeout : c'.timeout = c.timeout
  opts : c'.toConnOpts = c.toConnOpts
  window : c'.toSendWindow =
    { c.toSendWindow with sendWin := uint32Decrease c.sendWin n.data.dataLen32 }
  nextAddr : c'.nextAddr = c.nextAddr
  segment : ∃ f k w o ol,
    c'.toSendSide = { c.toSendSide with
      sendQueue := tcpQueueSet c.sendQueue n.addr (reheaded n.data f k w o ol) } ∧
    c'.out = c.out ++ [.seg .resend (reheaded n.data f k w o ol)]

/-- **What a call can do to the sending side**, apart from taking an acknowledgment and
    sending new data. -/
inductive SendMove (c : TcpConn) : TcpConn → Prop
  | same {c' : TcpConn} (h : SameSend c c') (hs : c'.state = c.state)
      (hrun : c'.runningFlag = true → c.runningFlag = true) : SendMove c c'
  | close {c' : TcpConn} (h : SameSend c c') (he : CloseEdge c.state c'.state)
      (hrun : c'.runningFlag = true → c.runningFlag = true)
      (hout : .edge c.state c'.state ∈ c'.out) : SendMove c c'
  | stop {c' : TcpConn} (h : SameSend c c') (hs : c'.state = .closed)
      (hoff : c'.runningFlag = false) : SendMove c c'
  | early {c' : TcpConn} (h : EarlyStep c c') : SendMove c c'
  | opened {c' : TcpConn} (seg : TcpSeg) (h : OpenStep c seg c') : SendMove c c'
  | data {c' : TcpConn} (h : DataMove c c') (hs : Handling c.state)
      (hoff : c'.state = .closed → c'.runningFlag = false) : SendMove c c'
  | fin (sep : Bool) (hs : Closes c) (hr : c.requestQueue.nodes = [])
      (hw : c.writeQueue.nodes = []) (hdue : Awaiting c.state) :
      SendMove c { c with toFinSide := ⟨true, sep, c.sendSeqEnd + 1⟩ }
  | gbn (g : GbnState) (h : GbnMove c g) : SendMove c { c with toGbnState := g }
  | timeout {c' : TcpConn} (n : TcpNode TcpSeg) (h : Resend c n c') (hs : Retransmits c.state)
      (hfront : c.sendQueue.nodes.head? = some n)
      (hg : c'.toGbnState = ⟨timerOnceStart c.timeout, false, true, some n.addr, false⟩) :
      SendMove c c'
  | fast {c' : TcpConn} (n : TcpNode TcpSeg) (h : Resend c n c') (hs : Retransmits c.state)
      (hfront : c.sendQueue.nodes.head? = some n) (hg : c'.toGbnState = c.toGbnState) :
      SendMove c c'
  | next {c' : TcpConn} (n : TcpNode TcpSeg) (h : Resend c n c') (hs : Retransmits c.state)
      (hnode : nextGbnNode c = some n)
      (hg : c'.toGbnState = { c.toGbnState with gbnNode := some n.addr }) : SendMove c c'
  | write (d : Pdu) (flags serialNum : UInt32) (hrun : c.runningFlag = true)
      (hs : c.state = .established ∨ c.state = .closeWait) :
      SendMove c (writeConnected c d flags serialNum)
  | writeEarly (d : Pdu) (serialNum : UInt32) (hrun : c.runningFlag = true)
      (hs : c.state = .synSent ∨ c.state = .synRecv) :
      SendMove c (writePreConnected c d serialNum)
  | refuse (serialNum : UInt32) :
      SendMove c { c with
        nextAddr := c.nextAddr + 1
        out := c.out ++ [.execReply c.nextAddr serialNum FCF_FALSE 0] }
  | interrupt : SendMove c (handleInterrupt c)
  | requestFire (a : Nat) : SendMove c (requestFire c a)

abbrev SendMoves : TcpConn → TcpConn → Prop := Relation.ReflTransGen SendMove

def RoundSends (md : TcpData) (c : TcpConn) : Prop :=
  c.requestInterrupt = false ∧ c.toGbnFlag = false ∧ (c.fastFlag && md.fastEnabled) = false ∧
  c.gbnFlag = false ∧ (tcpQueueIsEmpty c.requestQueue && tcpQueueIsEmpty c.writeQueue) = false ∧
  canSend c = true
deriving Decidable

def SendsNew (md : TcpData) (c : TcpConn) : Prop :=
  c.mainPc = .ready ∧ c.runningFlag = true ∧ Retransmits c.state ∧ RoundSends md c
deriving Decidable

def sendNew (c : TcpConn) : TcpConn :=
  if c.state = .established ∨ c.state = .closeWait then sendNewEstablished c
  else sendNewFinWait1 c

structure NumsKept (c c' : TcpConn) : Prop where
  send : c'.toSendSide = c.toSendSide
  fin : c.finSent = true → c'.toFinSide = c.toFinSide
  out : QuietOut c c'

def Accepts (c : TcpConn) (seg : TcpSeg) : Prop :=
  c.runningFlag = true ∧ (seg.checksum = 0 ∨ tcpSegChecksum seg = 0)

/-! ### Calls that leave the sending side alone -/

structure Aside (c c' : TcpConn) : Prop extends SameSend c c' where
  state : c'.state = c.state
  running : c'.runningFlag = true → c.runningFlag = true

/-- **What one event does to the sending side.** -/
inductive SendStep (c : TcpConn) (e : Event) (c' : TcpConn) : Prop
  | moves (hnot : ∀ rand, e.act = .main rand → ¬ SendsNew e.md c) (h : SendMoves c c')
  | fresh (rand : UInt32) (hact : e.act = .main rand) (hnew : SendsNew e.md c)
      (h : Aside (sendNew c) c')
  | ack (seg : TcpSeg) (env : RecvEnv) (d : TcpConn) (hact : e.act = .recv seg env)
      (hin : Accepts c seg) (hs : Receiving c.state ∨ PeerDone c.state)
      (hflag : hasFlag seg.flags FLAG_ACK = true) (h : AckStep c seg d) (hm : SendMoves d c')
      (hkept : NumsKept d c') (hrst : hasFlag seg.flags FLAG_RST = false)
      (hd : d = tcpHandleAck e.md c seg)

theorem Aside.refl (c : TcpConn) : Aside c c := ⟨⟨rfl, .refl c⟩, rfl, id⟩

theorem Aside.trans {c₃ : TcpConn} (h₁ : Aside c₁ c₂) (h₂ : Aside c₂ c₃) : Aside c₁ c₃ :=
  ⟨⟨h₂.part.trans h₁.part, h₁.out.trans h₂.out⟩, h₂.state.trans h₁.state,
    fun h => h₁.running (h₂.running h)⟩

theorem Aside.moves (h : Aside c c') : SendMoves c c' :=
  .single (.same h.toSameSend h.state h.running)

theorem Aside.silent (hp : c'.sendPart = c.sendPart) (ho : c'.out = c.out) (hs : c'.state = c.state)
    (hrun : c'.runningFlag → c.runningFlag) : Aside c c' :=
  ⟨⟨hp, .of_eq ho⟩, hs, hrun⟩

theorem Aside.one (hp : c'.sendPart = c.sendPart) (ho : c'.out = c.out ++ [o])
    (hs : c'.state = c.state) (hrun : c'.runningFlag → c.runningFlag)
    (hq : ¬ OnStream o) : Aside c c' :=
  ⟨⟨hp, .of_one ho hq⟩, hs, hrun⟩

theorem Aside.neutral {l : List Out} (hl : NeutralList l) (hp : c'.sendPart = c.sendPart)
    (ho : c'.out = c.out ++ l) (hs : c'.state = c.state)
    (hrun : c'.runningFlag → c.runningFlag) : Aside c c' :=
  ⟨⟨hp, .of_neutral hl ho⟩, hs, hrun⟩

theorem Tells.aside (h : Tells c c') : Aside c c' := by
  obtain ⟨l, hl, ho⟩ := h.out
  refine ⟨⟨(congrArg TcpConn.sendPart h.rest :), l, fun o hmem => ?_, ho⟩, h.state,
    h.running.symm.trans⟩
  have hanswer := hl o hmem
  cases o with
  | reply ff retVal retMsg | connReply ff addr state retVal retMsg => exact id
  | _ => exact hanswer.elim

section

variable (c)

theorem sendControl_aside (flags : UInt16) : Aside c (sendControl c flags) := by
  obtain ⟨a, seg, h⟩ := sendControl_frame c flags
  rw [h]
  exact .neutral (neutralList_control seg) rfl rfl rfl id

theorem sendAckSeg_aside (flags : UInt16) : Aside c (sendAckSeg c flags) := by
  obtain ⟨a, w, seg, h⟩ := sendAckSeg_frame c flags
  rw [h]
  exact .neutral (neutralList_ack seg) rfl rfl rfl id

theorem mainDelayedAck_aside : Aside c (mainDelayedAck c) := by
  obtain ⟨a, w, l, hl, h⟩ := mainDelayedAck_frame c
  rw [h]
  exact .neutral hl rfl rfl rfl id

theorem wakeMain_aside : Aside c (wakeMain c) := .silent rfl rfl rfl id

theorem clearInterrupt_aside : Aside c (clearInterrupt c) := .silent rfl rfl rfl id

theorem tcpConnShutdown_aside : Aside c (tcpConnShutdown c) :=
  .silent rfl rfl rfl nofun

theorem tcpHandleRst_aside (seg : TcpSeg) : Aside c (tcpHandleRst c seg) := by
  unfold tcpHandleRst
  split
  · exact tcpConnShutdown_aside c
  · exact .refl c

theorem reply_aside (ff : Fcf) (retVal retMsg : UInt32) :
    Aside c (c.emit (.reply ff retVal retMsg)) :=
  .one rfl rfl rfl id (fun h => h)

theorem control_aside (seg : TcpSeg) : Aside c (c.emit (.seg .control seg)) :=
  .one rfl rfl rfl id (fun h => h)

theorem tcpSetHostWindow_aside (value : UInt32) :
    Aside c (tcpSetHostWindow c value) := by
  simp only [tcpSetHostWindow]
  split
  · refine .trans ?_ (sendControl_aside _ _)
    exact .silent rfl rfl rfl id
  · exact .silent rfl rfl rfl id

end

/-! ### Closing -/

theorem nodes_eq_nil_of_isEmpty {α : Type} {q : TcpQueue α} (h : tcpQueueIsEmpty q) :
    q.nodes = [] := List.isEmpty_iff.mp h

theorem queues_empty_of_finished (h : tcpConnIsFinished c) :
    c.requestQueue.nodes = [] ∧ c.writeQueue.nodes = [] ∧ c.sendSeqNum = c.sendSeqEnd := by
  simp only [tcpConnIsFinished, Bool.and_eq_true, beq_iff_eq] at h
  exact ⟨nodes_eq_nil_of_isEmpty h.1.1, nodes_eq_nil_of_isEmpty h.1.2, h.2⟩

theorem sendFin_moves (hs : Awaiting c.state) (hr : c.requestQueue.nodes = [])
    (hw : c.writeQueue.nodes = []) : SendMoves c (sendFin c) :=
  .trans (.single (.fin true (.inl hs.ownClosed) hr hw hs))
    (sendControl_aside _ (FLAG_FIN ||| FLAG_ACK)).moves

theorem finIfFinished_moves (hs : Awaiting c.state) : SendMoves c (finIfFinished c) := by
  unfold finIfFinished
  split
  · rename_i hfin
    obtain ⟨hr, hw, -⟩ := queues_empty_of_finished hfin
    exact sendFin_moves hs hr hw
  · exact .refl

theorem setState_same (c : TcpConn) (new : TcpState) : SameSend c (c.setState new) :=
  ⟨rfl, .of_one rfl (fun h => h)⟩

theorem SameSend.aside (h : SameSend c c₁) (h' : Aside c₁ c₂) : SameSend c c₂ :=
  ⟨h'.part.trans h.part, h.out.trans h'.out⟩

theorem close_moves {new : TcpState} (he : CloseEdge c.state new) (h : Aside (c.setState new) c₁) :
    SendMoves c (finIfFinished c₁) := by
  have hst : c₁.state = new := h.state
  have hclose : SendMove c c₁ := by
    refine .close ((setState_same c new).aside h) ?_ h.running ?_
    · rw [hst]
      exact he
    · obtain ⟨l, -, hl⟩ := h.out
      rw [hl, hst]
      exact List.mem_append_left _ (List.mem_append_right _ (List.mem_singleton_self _))
  have hdue : Awaiting new := by
    generalize c.state = old at he
    cases he with
    | synRecv | established => exact .inl rfl
    | closeWait => exact .inr (.inr rfl)
  exact .trans (.single hclose) (finIfFinished_moves (hst ▸ hdue))

theorem Shuts.moves (h : Shuts c c') : SendMoves c c' := by
  cases h with
  | tells h => exact h.aside.moves
  | stop _ _ h =>
    exact .single (.stop ((setState_same c .closed).aside (h.aside.trans (tcpConnShutdown_aside _)))
      h.state rfl)
  | fin _ he h => exact close_moves he h.aside

theorem tcpConnFcf_moves (c : TcpConn) (ff : Fcf) (op : FcfOp) :
    SendMoves c (tcpConnFcf c ff op) := by
  rcases tcpConnFcf_shuts c ff op with h | ⟨value, -, -, h⟩
  · exact h.moves
  · exact h ▸ (tcpSetHostWindow_aside c value).moves

/-! ### The handshake -/

theorem EarlyStep.plain (h : Early c) (hs : EarlyState c'.state)
    (hc : c'.state = .closed → c.state = .closed) (hrun : c'.runningFlag = c.runningFlag)
    (hw : c'.toWriteSide = c.toWriteSide) (hf : c'.toFinSide = c.toFinSide)
    (hsd : c'.toSendSide = c.toSendSide) (hwin : c'.toSendWindow = c.toSendWindow)
    (ht : c'.timeout = c.timeout) (ho : c'.toConnOpts = c.toConnOpts)
    (hn : c'.nextAddr = c.nextAddr) (hout : QuietOut c c') : EarlyStep c c' where
  early := h
  state := hs
  closed := hc
  running := hrun
  write := hw
  fin := hf
  send := .inl hsd
  window := .inl hwin
  timeout := fun h => ht ▸ h
  opts := fun h => ho ▸ h
  nextAddr := hn
  out := hout

theorem tcpListen_moves (c : TcpConn) (backlog : Nat) : SendMoves c (tcpListen c backlog) := by
  unfold tcpListen
  split
  · rename_i h
    refine .single (.early (.plain ⟨.inl h.2, fun _ => h.1⟩ (.inr (.inl rfl)) nofun
      rfl rfl rfl rfl rfl rfl rfl rfl ?_))
    exact .of_one rfl (fun h => h)
  · exact .refl

theorem tcpConnect_moves (c : TcpConn) (ff : Fcf) (rand : UInt32) :
    SendMoves c (tcpConnect c ff rand) := by
  rcases tcpConnect_frame c ff rand with ⟨⟨n, h⟩, -⟩ | ⟨⟨hrun, hs⟩, a, seg, h⟩
  · exact h ▸ (reply_aside c ff _ _).moves
  · have hearly : EarlyState c.state := by
      rcases hs with hs | hs
      · exact .inl hs
      · exact .inr (.inl hs)
    rw [h]
    refine .single (.early ⟨⟨hearly, fun _ => hrun⟩, .inr (.inr (.inl rfl)), nofun,
      rfl, rfl, rfl, .inr ⟨rand, rfl⟩, .inl rfl, fun _ => ?_, id, rfl, ?_⟩)
    · show (0 : Rat) < TCP_GBN_TO_DEFAULT
      decide
    · refine .trans (.of_one (o := .edge c.state .synSent) rfl (fun h => h))
        (.of_one (c := c.setState .synSent) (o := .seg .control seg) ?_ (fun h => h))
      exact (List.append_assoc _ [_] _).symm

theorem earlyFlags (h : Early c) (hs : c'.state = c.state) (hrun : c'.runningFlag = c.runningFlag)
    (hp : { c'.sendPart with toGbnState := c.toGbnState } =
      c.sendPart) (hout : QuietOut c c') : EarlyStep c c' := by
  refine .plain h (hs ▸ h.1) (fun hc => hs ▸ hc) hrun ?_ ?_ ?_ ?_ ?_ ?_ ?_ hout
  · exact congrArg SendPart.toWriteSide hp
  · exact congrArg SendPart.toFinSide hp
  · exact congrArg SendPart.toSendSide hp
  · exact congrArg SendPart.toSendWindow hp
  · exact congrArg SendPart.timeout hp
  · exact congrArg SendPart.toConnOpts hp
  · exact congrArg SendPart.nextAddr hp

theorem resendSyn_early (c : TcpConn) (hs : c.state = .synSent) (rand : UInt32) :
    EarlyStep c (resendSyn c rand) := by
  obtain ⟨a, seg, hctl⟩ := sendControl_frame (startSend c rand) FLAG_SYN
  unfold resendSyn
  simp only [hctl]
  refine ⟨⟨.inr (.inr (.inl hs)), ?_⟩, .inr (.inr (.inl hs)), ?_, rfl, rfl, rfl,
    .inr ⟨rand, rfl⟩, .inl rfl, ?_, id, rfl, ?_⟩
  · intro hc
    rw [hs] at hc
    cases hc
  · intro hc
    exact nomatch hs.symm.trans hc
  · intro hpos
    have hdouble : 0 < 2 * c.timeout := by grind
    exact fmin_pos hdouble (by decide)
  · exact .of_one (o := .seg .control seg) rfl (fun h => h)

theorem early_of_synSent (hs : c.state = .synSent) : Early c :=
  ⟨.inr (.inr (.inl hs)), fun hc => nomatch hs.symm.trans hc⟩

theorem early_of_synRecv (hs : c.state = .synRecv) : Early c :=
  ⟨.inr (.inr (.inr hs)), fun hc => nomatch hs.symm.trans hc⟩

theorem Retries.moves {rand : UInt32} (h : Retries c rand c')
    (hs : c.state = .synSent ∨ c.state = .synRecv) : SendMoves c c' := by
  have hearly : Early c := hs.elim early_of_synSent early_of_synRecv
  have hout : SendMoves c (timedOut c) :=
    .single (.early (earlyFlags hearly rfl rfl rfl (.of_eq rfl)))
  cases h with
  | idle => exact .single (.early (earlyFlags hearly rfl rfl rfl (.of_eq rfl)))
  | refuse =>
    refine hout.trans (Aside.moves ?_)
    exact .one rfl rfl rfl nofun (fun h => h)
  | syn hs =>
    refine hout.trans (.trans (.single (.early (resendSyn_early (timedOut c) hs rand)))
      (Aside.moves ?_))
    exact .silent rfl rfl rfl id
  | back hs =>
    have hback : EarlyStep (timedOut c) ((timedOut c).setState .synSent) := by
      refine .plain (early_of_synRecv hs) (.inr (.inr (.inl rfl))) nofun
        rfl rfl rfl rfl rfl rfl rfl rfl ?_
      exact .of_one rfl (fun h => h)
    refine hout.trans (.trans (.single (.early hback)) (.trans
      (.single (.early (resendSyn_early _ rfl rand))) (Aside.moves ?_)))
    exact .silent rfl rfl rfl id
  | synAck hs ht =>
    obtain ⟨a, seg, hctl⟩ := sendControl_frame (timedOut c) (FLAG_SYN ||| FLAG_ACK)
    simp only [hctl]
    refine hout.trans (.single (.early ⟨early_of_synRecv hs, .inr (.inr (.inr hs)), ?_, rfl, rfl,
      rfl, .inl rfl, .inl rfl, ht, id, rfl, .of_one (o := .seg .control seg) rfl (fun h => h)⟩))
    intro hc
    exact nomatch hs.symm.trans hc

theorem enterEstablished_open {seg : TcpSeg} {o : ConnOpts} (n : UInt32)
    (hs : c.state = .synSent ∨ c.state = .synRecv) (hack : seg.ackNum = c.sendSeqNum + 1)
    (hok : OptsOk c.toConnOpts → OptsOk o) :
    OpenStep c seg (enterEstablished { c with toConnOpts := o } seg n) :=
  ⟨hs, rfl, hack, rfl, rfl, rfl, rfl, rfl, rfl, hok, rfl, .of_one rfl (fun h => h)⟩

section

variable (c)

theorem synTimer_early (hs : c.state = .synRecv) (t : Rat) (ht : 0 < t)
    (g : GbnState) : EarlyStep c { c with timeout := t, toGbnState := g } := by
  refine ⟨early_of_synRecv hs, .inr (.inr (.inr hs)), id, rfl, rfl, rfl, .inl rfl, .inl rfl,
    fun _ => ht, id, rfl, .of_eq rfl⟩

theorem Greets.moves {env : RecvEnv} (h : Greets c seg env c') : SendMoves c c' := by
  cases h with
  | stay => exact .refl
  | reset hr => exact (control_aside c _).moves
  | crossed o hok hs =>
    have hsyn : EarlyStep c (takeSyn ({ c with toConnOpts := o }.setState .synRecv) seg) :=
      ⟨early_of_synSent hs, .inr (.inr (.inr rfl)), nofun, rfl, rfl, rfl, .inl rfl,
        .inr ⟨seg.winSize, rfl⟩, id, hok, rfl, .of_one rfl (fun h => h)⟩
    have hctl := sendControl_aside (takeSyn ({ c with toConnOpts := o }.setState .synRecv) seg)
      (FLAG_SYN ||| FLAG_ACK)
    exact .trans (.single (.early hsyn)) (hctl.moves.trans
      (.single (.early (synTimer_early _ hctl.state TCP_GBN_TO_MIN (by decide) _))))
  | synAck o hok hs hack =>
    have hopen := enterEstablished_open (seg.seqNum + 1) (.inl hs) hack hok
    refine .trans (.single (.opened seg hopen)) (.trans (Aside.moves ?_)
      (Aside.moves ((sendControl_aside _ _).trans (signalOpen_tells _ _).1.aside)))
    exact .silent rfl rfl rfl id
  | again o hok hs =>
    have hsyn : EarlyStep c (takeSyn (startSend { c with toConnOpts := o } env.rand) seg) :=
      ⟨early_of_synRecv hs, .inr (.inr (.inr hs)), id, rfl, rfl, rfl, .inr ⟨env.rand, rfl⟩,
        .inr ⟨seg.winSize, rfl⟩, id, hok, rfl, .of_eq rfl⟩
    have hctl := sendControl_aside (takeSyn (startSend { c with toConnOpts := o } env.rand) seg)
      (FLAG_SYN ||| FLAG_ACK)
    have hst := hctl.state.trans hs
    refine .trans (.single (.early hsyn)) (hctl.moves.trans (.single (.early ?_)))
    exact earlyFlags (early_of_synRecv hst) rfl rfl rfl (.of_eq rfl)
  | ack o hok hs hack =>
    exact .trans (.single (.opened seg (enterEstablished_open seg.seqNum (.inr hs) hack hok)))
      (signalOpen_tells _ _).1.aside.moves

theorem tcpRecvListen_aside (seg : TcpSeg) (known room : Bool) (child : Nat) :
    Aside c (tcpRecvListen c seg known room child) := by
  unfold tcpRecvListen
  split
  · exact .refl c
  · split
    · split
      · exact .silent rfl rfl rfl id
      · exact .refl c
    · exact .refl c

end

end FinsStack.Tcp
