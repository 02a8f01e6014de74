import FinsStack.Tcp.AckStep
import FinsStack.Tcp.DataStep

/-!
# A connection seen from its state and its receiving side

Most calls neither assign `state` nor touch the receiving side; `Inert` says so, and
says that the outputs are none of those the receiving side makes.  A call that does
assign `state` without a segment arriving does it once, along one of the edges of
`OwnEdge`.  With these two facts a statement about states and received data has to
look only at arriving segments.
-/

namespace FinsStack.Tcp

open List

/-! ### Inert calls -/

def Sending : Out → Prop
  | .data _ _ | .edge _ _ | .fin _ _ => False
  | .alert _ paramId _ _ => paramId = TCP_ALERT_POLL
  | _ => True

variable {o : Out} {c c' : TcpConn} {seg : TcpSeg}

theorem Neutral.sending (h : Neutral o) : Sending o := by
  cases o with
  | seg kind seg | execReply req serialNum retVal retMsg | connReply ff addr state retVal retMsg
  | reply ff retVal retMsg | accept req data | finAck =>
    trivial
  | data addr bytes | alert addr paramId retVal retMsg | edge old new | fin seqNum recvSeqNum =>
    exact h

structure Inert (c c' : TcpConn) : Prop where
  state : c'.state = c.state
  running : c'.runningFlag = true → c.runningFlag = true
  recv : c'.toRecvSide = c.toRecvSide
  win : c'.recvWin = c.recvWin
  out : ∃ l, (∀ o ∈ l, Sending o) ∧ c'.out = c.out ++ l

theorem Inert.refl (c : TcpConn) : Inert c c :=
  ⟨rfl, id, rfl, rfl, [], ⟨fun _ h => (nomatch h), (append_nil _).symm⟩⟩

theorem Inert.trans {c₁ c₂ c₃ : TcpConn} (h₁ : Inert c₁ c₂) (h₂ : Inert c₂ c₃) :
    Inert c₁ c₃ := by
  obtain ⟨l₁, hl₁, ho₁⟩ := h₁.out
  obtain ⟨l₂, hl₂, ho₂⟩ := h₂.out
  refine ⟨h₂.state.trans h₁.state, fun h => h₁.running (h₂.running h),
    h₂.recv.trans h₁.recv, h₂.win.trans h₁.win, l₁ ++ l₂, ?_, by rw [ho₂, ho₁, append_assoc]⟩
  exact forall_mem_append.mpr ⟨hl₁, hl₂⟩

section

variable (hs : c'.state = c.state) (hr : c'.runningFlag → c.runningFlag)
  (hv : c'.toRecvSide = c.toRecvSide) (hw : c'.recvWin = c.recvWin)
include hs hr hv hw

theorem Inert.of_same (ho : c'.out = c.out) : Inert c c' :=
  ⟨hs, hr, hv, hw, [], fun _ h => (nomatch h), by rw [ho, append_nil]⟩

theorem Inert.of_one (ho : c'.out = c.out ++ [o]) (hso : Sending o) : Inert c c' := by
  exact ⟨hs, hr, hv, hw, [o], forall_mem_singleton.mpr hso, ho⟩

end

/-! ### One walk for all views -/

/-- What the views look at beside `running_flag` and the outputs. -/
def TcpConn.seen (c : TcpConn) : TcpState × RecvSide × UInt32 × ConnAddr × List Nat × Bool × Bool ×
    Option Fcf × TcpQueue TcpRequest :=
  (c.state, c.toRecvSide, c.recvWin, c.addr, c.backlog, c.activeOpen, c.signaled, c.ff,
    c.requestQueue)

def Plain : Out → Prop
  | .seg _ _ | .finAck => True
  | .alert _ paramId _ _ => paramId = TCP_ALERT_POLL
  | _ => False

/-- A relation that holds between a connection before and after everything that it does by
    itself in one state: assigning what is not `seen`, sending, answering a write request or
    refusing the call it keeps. -/
structure View (R : TcpConn → TcpConn → Prop) : Prop where
  trans {c₁ c₂ c₃ : TcpConn} : R c₁ c₂ → R c₂ c₃ → R c₁ c₃
  plain {c c' : TcpConn} {l : List Out} : c'.seen = c.seen →
    (c'.runningFlag = true → c.runningFlag = true) → c'.out = c.out ++ l → (∀ o ∈ l, Plain o) →
    R c c'
  answer {c c' : TcpConn} {n : TcpNode TcpRequest} {q : Nat} {retVal retMsg : UInt32}
    (ps ns : List (TcpNode TcpRequest)) : c.requestQueue.nodes = ps ++ n :: ns →
    c'.requestQueue.nodes = ps ++ ns → c'.toConnCtl = c.toConnCtl →
    c'.toRecvSide = c.toRecvSide → c'.recvWin = c.recvWin →
    c'.out = c.out ++ [.execReply q n.data.serialNum retVal retMsg] → R c c'
  refuse {c : TcpConn} {ff : Fcf} {o : Out} : c.ff = some ff →
    o = .reply ff FCF_FALSE 0 ∨ o = .connReply ff c.addr c.state FCF_FALSE ETIMEDOUT →
    R c { c with ff := none, out := c.out ++ [o] }

def timedOut (c : TcpConn) : TcpConn := { clearInterrupt c with toGbnFlag := false }

/-- **A round of the handshake**: nothing goes out, a waiting call is refused, or the SYN goes out
    again, from SYN_RECV after the connection went back to SYN_SENT or with the acknowledgment. -/
inductive Retries (c : TcpConn) (rand : UInt32) : TcpConn → Prop
  | idle (w g : Bool) : Retries c rand
      { clearInterrupt c with mainWaitFlag := w, toGbnFlag := g, toDelayedFlag := false }
  | refuse {ff : Fcf} {d : Bool} (hff : c.ff = some ff) (hd : d = true → c.toDelayedFlag = true) :
    Retries c rand { tcpConnShutdown { timedOut c with
        ff := none, out := c.out ++ [.connReply ff c.addr c.state FCF_FALSE ETIMEDOUT] } with
      toDelayedFlag := d }
  | syn (hs : c.state = .synSent) (hto : c.toGbnFlag = true)
    (hff : c.ff = none ∨ c.timeout ≠ TCP_GBN_TO_MAX) :
    Retries c rand { resendSyn (timedOut c) rand with toDelayedFlag := false }
  | back (hs : c.state = .synRecv) (hto : c.toGbnFlag = true) (ha : c.activeOpen = true) :
    Retries c rand { resendSyn ((timedOut c).setState .synSent) rand with toDelayedFlag := false }
  | synAck {t : Rat} {b : Bool} (hs : c.state = .synRecv) (ht : 0 < c.timeout → 0 < t) :
    Retries c rand { sendControl (timedOut c) (FLAG_SYN ||| FLAG_ACK) with
      timeout := t, toGbnTimer := b, toGbnFlag := false, toDelayedFlag := false }

theorem tcpMainSynSent_retries (c : TcpConn) (rand : UInt32) (hs : c.state = .synSent) :
    Retries c rand (tcpMainSynSent c rand) := by
  simp only [tcpMainSynSent]
  split
  · rename_i hto
    split
    · rename_i ff hff
      split
      · exact .refuse hff id
      · exact .syn hs hto (.inr ‹_›)
    · exact .syn hs hto (.inl ‹_›)
  · exact .idle true _

theorem fmin_pos {a b : Rat} (ha : 0 < a) (hb : 0 < b) : 0 < fmin a b := by
  unfold fmin
  split
  · exact ha
  · exact hb

theorem tcpMainSynRecv_retries (c : TcpConn) (rand : UInt32) (hs : c.state = .synRecv) :
    Retries c rand (tcpMainSynRecv c rand) := by
  simp only [tcpMainSynRecv]
  split
  · rename_i hto
    split
    · exact .back hs hto ‹_›
    · unfold synRecvTimeout
      split
      · split
        · exact .refuse ‹_› nofun
        · exact .idle _ false
      · refine .synAck hs ?_
        obtain ⟨a, seg, hctl⟩ := sendControl_frame (timedOut c) (FLAG_SYN ||| FLAG_ACK)
        show 0 < c.timeout → 0 < fmin (2 * (sendControl (timedOut c) _).timeout) _
        rw [hctl]
        intro hpos
        have hdouble : 0 < 2 * c.timeout := by grind
        exact fmin_pos hdouble (by decide)
  · exact .idle true _

/-- The common shape of `mainEstablished` and `mainFinWait1`, which are instances of it by
    definition.  They send new data by `send`, and only the second sends a FIN. -/
def mainRound (md : TcpData) (note send : TcpConn → TcpConn) (fins : Bool) (c : TcpConn) :
    TcpConn :=
  if c.requestInterrupt then handleInterrupt (clearInterrupt c)
  else if c.toGbnFlag then
    let c1 := { c with toGbnFlag := false, firstFlag := false, fastFlag := false }
    match c1.sendQueue.nodes with
    | [] =>
      let c2 := { c1 with gbnFlag := false }
      if fins && c2.finSent && tcpConnIsFinished c2 then sendFin c2 else c2
    | n :: _ => mainTimeout note c1 n
  else if c.fastFlag && md.fastEnabled then mainFast note c
  else if c.gbnFlag then mainGbn note c
  else if tcpQueueIsEmpty c.requestQueue && tcpQueueIsEmpty c.writeQueue then
    if !fins || c.finSent then { c with mainWaitFlag := true } else sendFin c
  else if canSend c then send c
  else { c with mainWaitFlag := true }

section

variable {R : TcpConn → TcpConn → Prop} (v : View R)
include v

section

variable (hs : c'.seen = c.seen) (hr : c'.runningFlag → c.runningFlag)
include hs hr

theorem View.silent (ho : c'.out = c.out) : R c c' :=
  v.plain (l := []) hs hr (by rw [ho, append_nil]) (by simp)

theorem View.one (ho : c'.out = c.out ++ [o]) (hp : Plain o) : R c c' := by
  exact v.plain hs hr ho (forall_mem_singleton.mpr hp)

end

theorem View.refl (c : TcpConn) : R c c := v.silent rfl id rfl

/-! Segments and replies. -/

theorem sendControl_view (c : TcpConn) (flags : UInt16) : R c (sendControl c flags) := by
  obtain ⟨a, seg, h⟩ := sendControl_frame c flags
  rw [h]
  exact v.one rfl id rfl trivial

theorem sendAckSeg_view (c : TcpConn) (flags : UInt16) : R c (sendAckSeg c flags) := by
  obtain ⟨a, w, seg, h⟩ := sendAckSeg_frame c flags
  rw [h]
  exact v.one rfl id rfl trivial

theorem sendControlReply_view (c : TcpConn) (flags : UInt16) : R c (sendControlReply c flags) := by
  obtain ⟨a, w, seg, h⟩ := sendControlReply_frame c flags
  rw [h]
  exact v.one rfl id rfl trivial

theorem replyAck_view (c : TcpConn) (flags : UInt16) : R c (replyAck c flags) := by
  simp only [replyAck]
  split
  · split
    · exact v.one rfl id rfl trivial
    · obtain ⟨a, w, seg, h⟩ :=
        sendAckSeg_frame { c with toDelayedTimer := false, toDelayedFlag := false } flags
      rw [h]
      exact v.one rfl id rfl trivial
  · exact v.silent rfl id rfl

theorem tcpHandleReply_view (c : TcpConn) (flags : UInt16) : R c (tcpHandleReply c flags) := by
  simp only [tcpHandleReply]
  split
  · exact sendControlReply_view v c flags
  split
  · refine v.trans ?_ (sendControlReply_view v _ _)
    split <;> exact v.silent rfl id rfl
  split
  · exact replyAck_view v c flags
  · exact sendControlReply_view v c flags

theorem mainDelayedAck_view (c : TcpConn) : R c (mainDelayedAck c) := by
  simp only [mainDelayedAck]
  split
  · refine v.trans ?_ (sendAckSeg_view v _ _)
    exact v.silent rfl id rfl
  · exact v.refl c

theorem AckStep.view (h : AckStep c seg c') : R c c' := by
  cases h with
  | outside => exact v.refl c
  | fin w => exact v.one rfl id rfl trivial
  | _ => exact v.silent rfl id rfl

theorem handleAckFlag_view (md : TcpData) (c : TcpConn) (seg : TcpSeg) :
    R c (handleAckFlag md c seg) := by
  simp only [handleAckFlag]
  split
  · exact AckStep.view v (tcpHandleAck_step md c seg)
  · exact v.refl c

theorem tcpConnShutdown_view (c : TcpConn) : R c (tcpConnShutdown c) :=
  v.silent rfl nofun rfl

def stopClosed (c : TcpConn) : TcpConn := if c.state = .closed then tcpConnShutdown c else c

def replyTo (c : TcpConn) (flags : UInt16) : TcpConn :=
  if flags ≠ 0 then tcpHandleReply c flags else c

theorem stopClosed_view (c : TcpConn) : R c (stopClosed c) := by
  unfold stopClosed
  split
  · exact tcpConnShutdown_view v c
  · exact View.refl v c

theorem replyTo_view (c : TcpConn) (flags : UInt16) : R c (replyTo c flags) := by
  unfold replyTo
  split
  · exact tcpHandleReply_view v c flags
  · exact View.refl v c

theorem tcpHandleRst_view (c : TcpConn) (seg : TcpSeg) : R c (tcpHandleRst c seg) := by
  simp only [tcpHandleRst]
  split
  · exact tcpConnShutdown_view v c
  · exact v.refl c

/-! Write requests. -/

theorem alertPollWrite_view (c : TcpConn) (space : Int) : R c (alertPollWrite c space) := by
  simp only [alertPollWrite]
  split
  · exact v.one rfl id rfl rfl
  · exact v.refl c

theorem alertPollIf_view (b : Bool) (c : TcpConn) (space : Int) :
    R c (if b then alertPollWrite c space else c) := by
  split
  · exact alertPollWrite_view v c space
  · exact v.refl c

theorem tcpHandleRequestsLoop_view (ns : List (TcpNode TcpRequest)) (space : Int)
    (hq : c.requestQueue.nodes = ns) : R c (tcpHandleRequestsLoop ns space c).2 := by
  induction ns generalizing c space with
  | nil => exact v.refl c
  | cons n ns ih =>
    simp only [tcpHandleRequestsLoop]
    split
    · exact v.refl c
    split
    · exact v.silent rfl id rfl
    · have hfront : (tcpQueueRemoveFront c.requestQueue).nodes = ns := by
        simp only [tcpQueueRemoveFront, hq]
      refine v.trans ?_ (ih _ ?_)
      · exact v.answer [] ns hq hfront rfl rfl rfl rfl
      · exact hfront

theorem tcpHandleRequests_view (c : TcpConn) : R c (tcpHandleRequests c) :=
  v.trans (tcpHandleRequestsLoop_view v _ _ rfl) (alertPollWrite_view v _ _)

theorem wakeMain_view (c : TcpConn) : R c (wakeMain c) := v.silent rfl id rfl

theorem refusePending_view (c : TcpConn) : R c (refusePending c) := by
  cases hff : c.ff with
  | none => simpa only [refusePending, hff] using v.refl c
  | some ff =>
    simp only [refusePending, hff]
    exact v.refuse hff (.inl rfl)

/-! The main thread. -/

theorem cutSegment_view (c : TcpConn) (dataLen : UInt32) : R c (cutSegment c dataLen).2 := by
  refine v.trans ?_ (tcpHandleRequests_view v _)
  exact v.silent rfl id rfl

theorem queueSent_view (c : TcpConn) (seg : TcpSeg) (dataLen : UInt32) :
    R c (queueSent c seg dataLen) := by
  simp only [queueSent]
  refine v.trans ?_ (alertPollIf_view v _ _ _)
  split
  · split <;> exact v.silent rfl id rfl
  · split <;> exact v.silent rfl id rfl

theorem sendFresh_view (seg : TcpSeg) (c : TcpConn) (flags : UInt16) :
    R c ((tcpSegUpdate seg c flags).2.emit (.seg .fresh (tcpSegUpdate seg c flags).1)) := by
  obtain ⟨f, k, w, o, ol, a, h⟩ := tcpSegUpdate_frame seg c flags
  rw [h]
  exact v.one rfl id rfl trivial

theorem sendNewEstablished_view (c : TcpConn) : R c (sendNewEstablished c) := by
  have hsent := sendFresh_view v (cutSegment c (nextDataLen c)).1 (cutSegment c (nextDataLen c)).2
    FLAG_ACK
  simp only [sendNewEstablished]
  refine v.trans (v.trans (cutSegment_view v c (nextDataLen c)) hsent)
    (v.trans ?_ (queueSent_view v _ _ _))
  exact v.silent rfl id rfl

theorem sendNewFinWait1_view (c : TcpConn) : R c (sendNewFinWait1 c) := by
  simp only [sendNewFinWait1]
  refine v.trans (cutSegment_view v c (nextDataLen c))
    (v.trans ?_ (v.trans (sendFresh_view v _ _ _) (queueSent_view v _ _ _)))
  split
  · exact v.silent rfl id rfl
  · exact v.refl _

theorem sendFin_view (c : TcpConn) : R c (sendFin c) := by
  refine v.trans ?_ (sendControl_view v _ _)
  exact v.silent rfl id rfl

theorem finIfFinished_view (c : TcpConn) : R c (finIfFinished c) := by
  simp only [finIfFinished]
  split
  · exact sendFin_view v c
  · exact v.refl c

theorem resendSyn_view (c : TcpConn) (rand : UInt32) : R c (resendSyn c rand) := by
  simp only [resendSyn]
  refine v.trans (v.trans ?_ (sendControl_view v (startSend c rand) FLAG_SYN)) ?_
  · exact v.silent rfl id rfl
  · exact v.silent rfl id rfl

theorem answerTimeout_view {ff : Fcf} (h : c.ff = some ff) :
    R c (tcpConnShutdown { c with
      ff := none, out := c.out ++ [.connReply ff c.addr c.state FCF_FALSE ETIMEDOUT] }) :=
  v.trans (v.refuse h (.inr rfl)) (tcpConnShutdown_view v _)

theorem Retries.view {rand : UInt32} (h : Retries c rand c') :
    R c c' ∨ c.state = .synRecv ∧
      c' = { resendSyn ((timedOut c).setState .synSent) rand with toDelayedFlag := false } := by
  have hout : R c (timedOut c) := v.silent rfl id rfl
  cases h with
  | idle => exact .inl (v.silent rfl id rfl)
  | refuse hff =>
    exact .inl (v.trans (v.trans hout (answerTimeout_view v (c := timedOut c) hff))
      (v.silent rfl id rfl))
  | syn => exact .inl (v.trans (v.trans hout (resendSyn_view v _ rand)) (v.silent rfl id rfl))
  | back hs => exact .inr ⟨hs, rfl⟩
  | synAck => exact .inl (v.trans (v.trans hout (sendControl_view v _ _)) (v.silent rfl id rfl))

theorem gbnFire_view (c : TcpConn) : R c (gbnFire c) := by
  simp only [gbnFire]
  split
  · exact v.silent rfl id rfl
  · exact v.refl c

theorem delayedFire_view (c : TcpConn) : R c (delayedFire c) := by
  simp only [delayedFire]
  split
  · exact v.silent rfl id rfl
  · exact v.refl c

section

variable {note : TcpConn → TcpConn} (hnote : note = noteFlow ∨ note = id)
include hnote

theorem resendNode_view (c : TcpConn) (n : TcpNode TcpSeg) : R c (resendNode note c n) := by
  obtain ⟨f, k, w, o, ol, a, fs, h⟩ := resendNode_frame note hnote c n
  rw [h]
  exact v.one rfl id rfl trivial

theorem mainTimeout_view (c : TcpConn) (n : TcpNode TcpSeg) : R c (mainTimeout note c n) := by
  obtain ⟨f, k, w, o, ol, a, fs, cc, h⟩ := mainTimeout_frame note hnote c n
  rw [h]
  exact v.one rfl id rfl trivial

theorem mainFast_view (c : TcpConn) : R c (mainFast note c) := by
  simp only [mainFast]
  split
  · exact v.silent rfl id rfl
  · refine v.trans ?_ (resendNode_view v hnote _ _)
    exact v.silent rfl id rfl

theorem mainGbn_view (c : TcpConn) : R c (mainGbn note c) := by
  simp only [mainGbn]
  split
  · exact v.silent rfl id rfl
  split
  · split
    · refine v.trans ?_ (resendNode_view v hnote _ _)
      exact v.silent rfl id rfl
    · exact v.silent rfl id rfl
  · exact v.silent rfl id rfl

end

variable (hint : R (clearInterrupt c) (handleInterrupt (clearInterrupt c)))
include hint

theorem mainRound_view (md : TcpData) {note send : TcpConn → TcpConn} (fins : Bool)
    (hnote : note = noteFlow ∨ note = id) (hsend : R c (send c)) :
    R c (mainRound md note send fins c) := by
  simp only [mainRound]
  split
  · refine v.trans ?_ hint
    exact v.silent rfl id rfl
  split
  · split
    · split
      · refine v.trans ?_ (sendFin_view v _)
        exact v.silent rfl id rfl
      · exact v.silent rfl id rfl
    · refine v.trans ?_ (mainTimeout_view v hnote _ _)
      exact v.silent rfl id rfl
  split
  · exact mainFast_view v hnote c
  split
  · exact mainGbn_view v hnote c
  split
  · split
    · exact v.silent rfl id rfl
    · exact sendFin_view v c
  split
  · exact hsend
  · exact v.silent rfl id rfl

theorem mainEstablished_view (md : TcpData) : R c (mainEstablished md c) :=
  mainRound_view v hint md false (.inl rfl) (sendNewEstablished_view v c)

theorem mainFinWait1_view (md : TcpData) : R c (mainFinWait1 md c) :=
  mainRound_view v hint md true (.inr rfl) (sendNewFinWait1_view v c)

end

theorem Plain.sending (h : Plain o) : Sending o := by
  cases o <;> trivial

theorem View.inert : View Inert where
  trans := .trans
  plain hs hr ho hl := by
    simp only [TcpConn.seen, Prod.mk.injEq] at hs
    exact ⟨hs.1, hr, hs.2.1, hs.2.2.1, _, fun o h => (hl o h).sending, ho⟩
  answer _ _ _ _ hctl hr hw ho := .of_one (by rw [hctl]) (by rw [hctl]; exact id) hr hw ho trivial
  refuse _ ho := .of_one rfl id rfl rfl rfl (by rcases ho with rfl | rfl <;> trivial)

theorem AckStep.inert (h : AckStep c seg c') : Inert c c' := AckStep.view .inert h

/-! ### Segments, replies, acknowledgments -/

theorem tcpProcessOptions_inert (c : TcpConn) (seg : TcpSeg) :
    Inert c (tcpProcessOptions c seg) := by
  obtain ⟨o, -, -, h⟩ := tcpProcessOptions_frame c seg
  rw [h]
  exact .of_same rfl id rfl rfl rfl

/-! ### Calls that only answer the socket -/

def ToSocket : Out → Prop
  | .reply _ _ _ | .connReply _ _ _ _ _ => True
  | _ => False

structure Tells (c c' : TcpConn) : Prop where
  state : c'.state = c.state
  running : c'.runningFlag = c.runningFlag
  rest : { c' with toConnCtl := c.toConnCtl, toMainCtl := c.toMainCtl, out := c.out } = c
  out : ∃ l, (∀ o ∈ l, ToSocket o) ∧ c'.out = c.out ++ l

section

variable (hs : c'.state = c.state) (hr : c'.runningFlag = c.runningFlag)
  (hrest : { c' with toConnCtl := c.toConnCtl, toMainCtl := c.toMainCtl, out := c.out } = c)
include hs hr hrest

theorem Tells.silent (ho : c'.out = c.out) : Tells c c' :=
  ⟨hs, hr, hrest, [], by simp, by rw [ho, append_nil]⟩

theorem Tells.told (ho : c'.out = c.out ++ [o]) (hp : ToSocket o) : Tells c c' := by
  exact ⟨hs, hr, hrest, [o], forall_mem_singleton.mpr hp, ho⟩

end

theorem Tells.refl (c : TcpConn) : Tells c c := .silent rfl rfl rfl rfl

theorem Tells.inert (h : Tells c c') : Inert c c' := by
  obtain ⟨l, hl, ho⟩ := h.out
  refine ⟨h.state, h.running.symm.trans, (congrArg TcpConn.toRecvSide h.rest :),
    (congrArg (fun d => d.recvWin) h.rest :), l, fun o hmem => ?_, ho⟩
  have hanswer := hl o hmem
  cases o with
  | reply ff retVal retMsg | connReply ff addr state retVal retMsg => trivial
  | _ => exact hanswer.elim

theorem Tells.trans {c'' : TcpConn} (h : Tells c c') (h' : Tells c' c'') : Tells c c'' := by
  obtain ⟨l, hl, ho⟩ := h.out
  obtain ⟨l', hl', ho'⟩ := h'.out
  have hrest := congrArg (fun d => { d with
    toConnCtl := c.toConnCtl, toMainCtl := c.toMainCtl, out := c.out }) h'.rest
  refine ⟨h'.state.trans h.state, h'.running.trans h.running, hrest.trans h.rest, l ++ l', ?_, ?_⟩
  · exact forall_mem_append.mpr ⟨hl, hl'⟩
  · rw [ho', ho, append_assoc]

section

variable (c)

theorem refusePending_tells : Tells c (refusePending c) := by
  unfold refusePending
  split
  · exact .told rfl rfl rfl rfl trivial
  · exact .refl c

theorem signalOpen_tells (parent : Option TcpConn) :
    Tells c (signalOpen c parent) ∧ (signalOpen c parent).addr = c.addr := by
  unfold signalOpen
  split
  · refine ⟨.told rfl rfl rfl rfl ?_, rfl⟩
    split <;> trivial
  · split
    · exact ⟨.refl c, rfl⟩
    · split
      · exact ⟨.refl c, rfl⟩
      · split
        · split
          · exact ⟨.told rfl rfl rfl rfl trivial, rfl⟩
          · exact ⟨.refl c, rfl⟩
        · exact ⟨.refl c, rfl⟩

theorem tcpAccept_tells (ff : Fcf) (ready : Option Nat) :
    Tells c (tcpAccept c ff ready) := by
  unfold tcpAccept
  split
  · split
    · split
      · exact .refl c
      · split
        · exact .silent rfl rfl rfl rfl
        · exact .silent rfl rfl rfl rfl
      · exact .silent rfl rfl rfl rfl
    · exact .told rfl rfl rfl rfl trivial
  · exact .told rfl rfl rfl rfl trivial

theorem tcpStubConnect_tells (remIp : UInt32) (remPort : UInt16) :
    Tells c (tcpStubConnect c remIp remPort) := by
  unfold tcpStubConnect
  split
  · simp only []
    split
    · split
      · exact .told rfl rfl rfl rfl trivial
      · exact .silent rfl rfl rfl rfl
    · exact .silent rfl rfl rfl rfl
  · exact .refl c

theorem tcpPoll_tells (ff : Fcf) (initial events : UInt32) :
    Tells c (tcpPoll c ff initial events) := by
  unfold tcpPoll
  split
  · split
    · split
      · exact .told rfl rfl rfl rfl trivial
      · exact .told rfl rfl rfl rfl trivial
    · exact .told rfl rfl rfl rfl trivial
  · exact .told rfl rfl rfl rfl trivial

theorem tcpPollStub_tells (ff : Fcf) (initial events : UInt32) :
    Tells c (tcpPollStub c ff initial events) := by
  unfold tcpPollStub
  split
  · split
    · simp only []
      split
      · exact .told rfl rfl rfl rfl trivial
      · exact .told rfl rfl rfl rfl trivial
    · exact .told rfl rfl rfl rfl trivial
  · exact .told rfl rfl rfl rfl trivial

def Action.asks : Action → Bool
  | .accept .. | .search _ | .stubConnect .. | .poll .. | .pollStub .. | .childAccepted _ => true
  | _ => false

theorem step_tells {a : Action} (md : TcpData) (h : a.asks) : Tells c (step c ⟨md, a⟩) := by
  cases a with
  | accept ff ready => exact tcpAccept_tells c ff ready
  | search ff =>
    simp only [step, tcpConnSearch]
    split
    · exact .told rfl rfl rfl rfl trivial
    · exact .refl c
  | stubConnect remIp remPort => exact tcpStubConnect_tells c remIp remPort
  | poll ff initial events => exact tcpPoll_tells c ff initial events
  | pollStub ff initial events => exact tcpPollStub_tells c ff initial events
  | childAccepted child =>
    simp only [step, childAccepted]
    split
    · exact .silent rfl rfl rfl rfl
    · exact .refl c
  | _ => cases h

end

/-! ### Writing -/

theorem WriteMove.inert (h : WriteMove c c') : Inert c c' := by
  obtain ⟨w, pe, m, n, l, -, hl, rfl⟩ := h
  refine ⟨rfl, id, rfl, rfl, l, fun o ho => ?_, rfl⟩
  have hout := hl o ho
  cases o with
  | execReply req serialNum retVal retMsg | accept req data => trivial
  | alert addr paramId retVal retMsg => exact hout
  | _ => exact hout.elim

theorem handleInterrupt_inert (c : TcpConn) : Inert c (handleInterrupt c) :=
  (handleInterrupt_writeMove c).inert

/-! ### The main thread -/

/-! ### Changes of state without a segment -/

/-- The changes of state a call can make when no segment arrives; the flag tells
    whether the connection is stopped in the same call. -/
inductive OwnEdge : TcpState → TcpState → Bool → Prop
  | listen : OwnEdge .closed .listen false
  | connectClosed : OwnEdge .closed .synSent false
  | connectListen : OwnEdge .listen .synSent false
  | closeListen : OwnEdge .listen .closed true
  | closeSynSent : OwnEdge .synSent .closed true
  | closeSynRecv : OwnEdge .synRecv .finWait1 false
  | closeEstablished : OwnEdge .established .finWait1 false
  | closeCloseWait : OwnEdge .closeWait .lastAck false
  | synAgain : OwnEdge .synRecv .synSent false
  | timeWaitDone : OwnEdge .timeWait .closed true

inductive OwnStep (c c' : TcpConn) : Prop
  | inert (h : Inert c c')
  | move (new : TcpState) (stop : Bool) (c1 : TcpConn) (hrun : c.runningFlag = true)
      (he : OwnEdge c.state new stop) (h₁ : Inert c c1) (h₂ : Inert (c1.setState new) c')
      (hstop : stop = true → c'.runningFlag = false)

theorem emit_inert (c : TcpConn) (h : Sending o) : Inert c (c.emit o) :=
  .of_one rfl id rfl rfl rfl h

inductive CloseEdge : TcpState → TcpState → Prop
  | synRecv : CloseEdge .synRecv .finWait1
  | established : CloseEdge .established .finWait1
  | closeWait : CloseEdge .closeWait .lastAck

theorem CloseEdge.own {s new : TcpState} (h : CloseEdge s new) : OwnEdge s new false := by
  cases h with
  | synRecv => exact .closeSynRecv
  | established => exact .closeEstablished
  | closeWait => exact .closeCloseWait

/-- **The calls by which this side closes**: only an answer goes out, or the connection is closed
    and its thread stopped, or it waits for the peer, with a FIN if nothing is left to send. -/
inductive Shuts (c : TcpConn) : TcpConn → Prop
  | tells {d : TcpConn} (h : Tells c d) : Shuts c d
  | stop {d : TcpConn} (hrun : c.runningFlag = true) (he : OwnEdge c.state .closed true)
    (h : Tells (c.setState .closed) d) : Shuts c (tcpConnShutdown d)
  | fin {d : TcpConn} {new : TcpState} (hrun : c.runningFlag = true) (he : CloseEdge c.state new)
    (h : Tells (c.setState new) d) : Shuts c (finIfFinished d)

theorem tcpClose_shuts (c : TcpConn) (ff : Fcf) : Shuts c (tcpClose c ff) := by
  have told (d : TcpConn) : Tells d (d.emit (.reply ff FCF_TRUE 0)) :=
    .told rfl rfl rfl rfl trivial
  have answered (new : TcpState) := (refusePending_tells (c.setState new)).trans (told _)
  unfold tcpClose
  split
  · rename_i hrun
    split
    case h_1 | h_2 => exact .tells (told c)
    case h_3 hs =>
      refine .stop hrun (hs ▸ .closeListen) ((answered .closed).trans ?_)
      exact .silent rfl rfl rfl rfl
    case h_4 hs => exact .stop hrun (hs ▸ .closeSynSent) (answered .closed)
    case h_5 hs => exact .fin hrun (hs ▸ .synRecv) (answered .finWait1)
    case h_6 hs => exact .fin hrun (hs ▸ .established) (answered .finWait1)
    case h_7 hs => exact .fin hrun (hs ▸ .closeWait) (told _)
    all_goals exact .tells (.refl c)
  · exact .tells (.refl c)

theorem tcpConnAlert_shuts (c : TcpConn) (value : UInt32) (hrun : c.runningFlag) :
    Shuts c (tcpConnAlert c value) := by
  unfold tcpConnAlert
  split
  · split
    case h_1 hs => exact .fin hrun (hs ▸ .established) (.refl _)
    case h_2 hs => exact .fin hrun (hs ▸ .synRecv) (.refl _)
    case h_3 hs => exact .fin hrun (hs ▸ .closeWait) (.refl _)
    case h_4 hs => exact .stop hrun (hs ▸ .closeSynSent) (.refl _)
    all_goals exact .tells (.refl c)
  · exact .tells (.refl c)

theorem tcpConnFcf_shuts (c : TcpConn) (ff : Fcf) (op : FcfOp) :
    Shuts c (tcpConnFcf c ff op) ∨ ∃ value, op = .setHostWindow value ∧
      c.runningFlag = true ∧ tcpConnFcf c ff op = tcpSetHostWindow c value := by
  have told (val msg : UInt32) : Shuts c (c.emit (.reply ff val msg)) :=
    .tells (.told rfl rfl rfl rfl trivial)
  unfold tcpConnFcf
  split
  · rename_i hrun
    cases op with
    | alertShutdown value => exact .inl (tcpConnAlert_shuts c value hrun)
    | readHostWindow | readSockOpt | setSockOpt value => exact .inl (told _ _)
    | setHostWindow value => exact .inr ⟨value, rfl, hrun, rfl⟩
  · exact .inl (told _ _)

theorem Shuts.ownStep (h : Shuts c c') : OwnStep c c' := by
  cases h with
  | tells h => exact .inert h.inert
  | stop hrun he h =>
    exact .move .closed true c hrun he (.refl c) (h.inert.trans (tcpConnShutdown_view .inert _))
      (fun _ => rfl)
  | fin hrun he h =>
    exact .move _ false c hrun he.own (.refl c) (h.inert.trans (finIfFinished_view .inert _))
      nofun

def TcpConn.credit (c : TcpConn) (value : UInt32) : TcpConn :=
  { c with recvWin := uint32Increase c.recvWin value c.recvMaxWin }

theorem tcpSetHostWindow_inert (c : TcpConn) (value : UInt32) :
    Inert (c.credit value) (tcpSetHostWindow c value) := by
  simp only [tcpSetHostWindow]
  split
  · refine .trans ?_ (sendControl_view .inert _ _)
    exact .of_same rfl id rfl rfl rfl
  · exact .refl _

theorem tcpConnFcf_ownStep (c : TcpConn) (ff : Fcf) (op : FcfOp) :
    OwnStep c (tcpConnFcf c ff op) ∨ ∃ value, op = .setHostWindow value ∧
      c.runningFlag = true ∧ Inert (c.credit value) (tcpConnFcf c ff op) := by
  rcases tcpConnFcf_shuts c ff op with h | ⟨value, hop, hrun, h⟩
  · exact .inl h.ownStep
  · exact .inr ⟨value, hop, hrun, h ▸ tcpSetHostWindow_inert c value⟩

theorem tcpListen_ownStep (c : TcpConn) (backlog : Nat) : OwnStep c (tcpListen c backlog) := by
  unfold tcpListen
  split
  · rename_i h
    refine .move .listen false c h.1 (h.2 ▸ .listen) (.refl c) ?_ nofun
    exact .of_same rfl id rfl rfl rfl
  · exact .inert (.refl c)

theorem tcpConnect_ownStep (c : TcpConn) (ff : Fcf) (rand : UInt32) :
    OwnStep c (tcpConnect c ff rand) := by
  rcases tcpConnect_frame c ff rand with ⟨⟨n, h⟩, -⟩ | ⟨⟨hrun, hs⟩, a, seg, h⟩
  · exact h ▸ .inert (emit_inert c trivial)
  · have he : OwnEdge c.state .synSent false := by
      rcases hs with hs | hs
      · exact hs ▸ .connectClosed
      · exact hs ▸ .connectListen
    refine .move .synSent false c hrun he (.refl c) ?_ nofun
    rw [h]
    exact .of_one rfl id rfl rfl (append_assoc _ [_] _).symm trivial

theorem Retries.ownStep {rand : UInt32} (h : Retries c rand c') (hrun : c.runningFlag) :
    OwnStep c c' := by
  rcases h.view .inert with hi | ⟨hs, h⟩
  · exact .inert hi
  · subst h
    refine .move .synSent false (timedOut c) hrun (hs ▸ .synAgain) ?_
      ((resendSyn_view .inert _ rand).trans ?_) nofun
    · exact .of_same rfl id rfl rfl rfl
    · exact .of_same rfl id rfl rfl rfl

theorem timeWaitAck_inert (c : TcpConn) :
    Inert c (if c.delayedFlag then
        sendAckSeg { c with toDelayedTimer := false, delayedFlag := false, toDelayedFlag := false }
          c.delayedAckFlags
      else c) := by
  split
  · refine .trans ?_ (sendAckSeg_view .inert
      { c with toDelayedTimer := false, delayedFlag := false, toDelayedFlag := false } _)
    exact .of_same rfl id rfl rfl rfl
  · exact .refl c

theorem tcpMainTimeWait_ownStep (c : TcpConn) (hrun : c.runningFlag)
    (hs : c.state = .timeWait) : OwnStep c (tcpMainTimeWait c) := by
  simp only [tcpMainTimeWait]
  split
  · have hack := timeWaitAck_inert { clearInterrupt c with toGbnFlag := false }
    refine .move .closed true _ hrun (hs ▸ .timeWaitDone) (.trans ?_ hack)
      (.trans ?_ (tcpConnShutdown_view .inert _)) (fun _ => rfl)
    · exact .of_same rfl id rfl rfl rfl
    · exact .of_same rfl id rfl rfl rfl
  · refine .inert (.trans ?_
      (mainDelayedAck_view .inert { clearInterrupt c with mainWaitFlag := true }))
    exact .of_same rfl id rfl rfl rfl

theorem tcpMainState_ownStep (md : TcpData) (c : TcpConn) (rand : UInt32)
    (hrun : c.runningFlag) : OwnStep c (tcpMainState md c rand) := by
  have hest : Inert c (tcpMainEstablished md c) :=
    (mainEstablished_view .inert (handleInterrupt_inert _) md).trans (mainDelayedAck_view .inert _)
  have hfin : Inert c (tcpMainFinWait1 md c) :=
    (mainFinWait1_view .inert (handleInterrupt_inert _) md).trans (mainDelayedAck_view .inert _)
  unfold tcpMainState
  split
  case h_1 | h_2 => exact .inert (.of_same rfl id rfl rfl rfl)
  case h_3 hs => exact (tcpMainSynSent_retries c rand hs).ownStep hrun
  case h_4 hs => exact (tcpMainSynRecv_retries c rand hs).ownStep hrun
  case h_5 => exact .inert hest
  case h_6 => exact .inert hfin
  case h_7 =>
    refine .inert (.trans ?_ ((mainDelayedAck_view .inert
      { clearInterrupt c with toGbnFlag := false }).trans ?_))
    · exact .of_same rfl id rfl rfl rfl
    · exact .of_same rfl id rfl rfl rfl
  case h_8 => exact .inert hfin
  case h_9 hs => exact tcpMainTimeWait_ownStep c hrun hs
  case h_10 => exact .inert hest
  case h_11 => exact .inert hfin

theorem OwnStep.then_inert {c'' : TcpConn} (h : OwnStep c c') (h' : Inert c' c'') :
    OwnStep c c'' := by
  cases h with
  | inert h => exact .inert (h.trans h')
  | move new stop c1 hrun he h₁ h₂ hstop =>
    refine .move new stop c1 hrun he h₁ (h₂.trans h') ?_
    intro hs
    have hoff := hstop hs
    cases hr : c''.runningFlag with
    | false => rfl
    | true =>
      rw [h'.running hr] at hoff
      cases hoff

theorem tcpMainThread_ownStep (md : TcpData) (c : TcpConn) (rand : UInt32) :
    OwnStep c (tcpMainThread md c rand) := by
  unfold tcpMainThread
  split
  · exact .inert (.refl c)
  · split
    · exact .inert (.of_same rfl id rfl rfl rfl)
    · exact .inert (.refl c)
  · split
    · rename_i hrun
      have h := tcpMainState_ownStep md c rand hrun
      simp only []
      split
      · exact h.then_inert (.of_same rfl id rfl rfl rfl)
      · exact h
    · exact .inert (.of_same rfl id rfl rfl rfl)

theorem step_ownStep (c : TcpConn) (md : TcpData) (act : Action)
    (h : ∀ seg env, act ≠ .recv seg env) (hfcf : ∀ ff op, act ≠ .fcf ff op) :
    OwnStep c (step c ⟨md, act⟩) := by
  cases act with
  | recv seg env => exact absurd rfl (h seg env)
  | write d flags serialNum => exact .inert (tcpWrite_writeMove c d flags serialNum).inert
  | close ff => exact (tcpClose_shuts c ff).ownStep
  | listen backlog => exact tcpListen_ownStep c backlog
  | connect ff rand => exact tcpConnect_ownStep c ff rand
  | accept | search | stubConnect | poll | pollStub | childAccepted =>
    exact .inert (step_tells c md rfl).inert
  | fcf ff op => exact absurd rfl (hfcf ff op)
  | shutdown => exact .inert (tcpConnShutdown_view .inert c)
  | main rand => exact tcpMainThread_ownStep md c rand
  | gbnFire =>
    refine .inert ?_
    simp only [step, gbnFire]
    split
    · refine .trans ?_ (wakeMain_view .inert { c with toGbnTimer := false, toGbnFlag := true })
      exact .of_same rfl id rfl rfl rfl
    · exact .refl c
  | delayedFire =>
    refine .inert ?_
    simp only [step, delayedFire]
    split
    · refine .trans ?_
        (wakeMain_view .inert { c with toDelayedTimer := false, toDelayedFlag := true })
      exact .of_same rfl id rfl rfl rfl
    · exact .refl c
  | requestFire addr | tick clock | round congWindow threshhold rttEst rttDev =>
    exact .inert (.of_same rfl id rfl rfl rfl)

/-! ### An arriving segment -/

inductive OpenEdge : TcpState → TcpState → Prop
  | synSent : OpenEdge .synSent .established
  | simultaneous : OpenEdge .synSent .synRecv
  | synRecv : OpenEdge .synRecv .established

def Handling (s : TcpState) : Prop :=
  Receiving s ∨ s = .closing ∨ s = .timeWait ∨ s = .lastAck
deriving Decidable

def ackFirst (md : TcpData) (c : TcpConn) (seg : TcpSeg) : TcpConn :=
  if c.state = .finWait2 then c else handleAckFlag md c seg

inductive RecvStep (md : TcpData) (c : TcpConn) (seg : TcpSeg) (c' : TcpConn) : Prop
  | inert (h : Inert c c')
  | opening (new : TcpState) (d : TcpConn) (he : OpenEdge c.state new) (hst : d.state = new)
      (hrun : d.runningFlag = c.runningFlag) (hq : d.recvQueue = c.recvQueue)
      (ho : d.out = c.out ++ [.edge c.state new]) (h : Inert d c')
      (hwin : d.recvWin = c.recvWin ∧ d.recvMaxWin = c.recvMaxWin)
  | restart (d : TcpConn) (hs : c.state = .synRecv) (hst : d.state = .synRecv)
      (hrun : d.runningFlag = c.runningFlag) (hq : d.recvQueue = c.recvQueue)
      (ho : d.out = c.out) (h : Inert d c')
      (hwin : d.recvWin = c.recvWin ∧ d.recvMaxWin = c.recvMaxWin)
  | data (hrun : c.runningFlag = true) (hs : Handling c.state)
      (hrst : hasFlag seg.flags FLAG_RST = false)
      (h : Inert (tcpHandleData md (ackFirst md c seg) seg).1 c')
      (hstop : c'.state = .closed → c'.runningFlag = false)

theorem FlagsStep.from_lastAck {r : FlagsRet} (h : FlagsStep c seg r c')
    (hs : c'.state = .closed ∨ c'.state = .lastAck) : c.state = .closed ∨ c.state = .lastAck := by
  cases h with
  | keep _ | data => exact hs
  | closed _ hs' => exact .inr hs'
  | fin new g he =>
    have hnew : new = .closed ∨ new = .lastAck := hs
    rcases he with ⟨-, h⟩ | ⟨-, h⟩ | ⟨-, h, -⟩ | ⟨-, h⟩ <;> rw [h] at hnew <;>
      rcases hnew with hnew | hnew <;> cases hnew
  | _ => rcases hs with hs | hs <;> cases hs

theorem SegStep.from_lastAck {md : TcpData} (h : SegStep md c seg c')
    (hs : c'.state = .closed ∨ c'.state = .lastAck) : c.state = .closed ∨ c.state = .lastAck := by
  cases h with
  | options c1 o hf | handOff c1 hf | bare r c1 hf => exact hf.from_lastAck hs

theorem tcpHandleData_from_lastAck (md : TcpData) (c : TcpConn) (seg : TcpSeg) :
    (tcpHandleData md c seg).1.state = .closed ∨ (tcpHandleData md c seg).1.state = .lastAck →
      c.state = .closed ∨ c.state = .lastAck := by
  refine tcpHandleData_induct (P := fun c' => c'.state = .closed ∨ c'.state = .lastAck →
    c.state = .closed ∨ c.state = .lastAck) (fun _ _ h => h) (fun _ _ h => h) (fun _ _ _ _ h => h)
    ?_ ?_ (fun _ _ _ _ h => h) id
  · intro c1 n ns c' _ _ hstep h hs
    exact h (hstep.from_lastAck hs)
  · intro c' _ hstep h hs
    exact h (hstep.from_lastAck hs)

theorem Handling.not_closed {s : TcpState} (h : Handling s) : s ≠ .closed := by
  rintro rfl
  rcases h with (h | h | h) | h | h | h <;> cases h

theorem ackFirst_inert (md : TcpData) (c : TcpConn) (seg : TcpSeg) :
    Inert c (ackFirst md c seg) := by
  unfold ackFirst
  split
  · exact .refl c
  · exact handleAckFlag_view .inert md c seg

theorem tcpRecvListen_inert (c : TcpConn) (seg : TcpSeg) (known room : Bool) (child : Nat) :
    Inert c (tcpRecvListen c seg known room child) := by
  unfold tcpRecvListen
  split
  · exact .refl c
  · split
    · split
      · exact .of_same rfl id rfl rfl rfl
      · exact .refl c
    · exact .refl c

def Resets (c : TcpConn) (seg : TcpSeg) : Prop :=
  hasFlag seg.flags FLAG_RST = false ∧ hasFlag seg.flags FLAG_FIN = false ∧
    (c.state = .synSent ∧ (hasFlag seg.flags FLAG_SYN = true → hasFlag seg.flags FLAG_ACK = true ∧
        seg.ackNum ≠ c.sendSeqNum + 1) ∨
      c.state = .synRecv ∧ hasFlag seg.flags FLAG_SYN = false ∧ hasFlag seg.flags FLAG_ACK = false)
deriving Decidable

def resetFor (c : TcpConn) (seg : TcpSeg) : TcpSeg :=
  if hasFlag seg.flags FLAG_SYN then
    { tcpSegCreate c.addr seg.ackNum (seg.ackNum + 1) with flags := FLAG_RST ||| 0x5000 }
  else rstReply seg

theorem tcpRecvState_reset (md : TcpData) (env : RecvEnv) (hr : Resets c seg) :
    tcpRecvState md c seg env = c.emit (.seg .control (resetFor c seg)) := by
  obtain ⟨hrst, hfin, ⟨hs, hack⟩ | ⟨hs, hsyn, hack⟩⟩ := hr
  · by_cases hsyn : hasFlag seg.flags FLAG_SYN
    · simp [tcpRecvState, hs, tcpRecvSynSent, hrst, hfin, resetFor, hsyn, hack hsyn]
    · simp [tcpRecvState, hs, tcpRecvSynSent, hrst, hfin, resetFor, hsyn]
  · simp [tcpRecvState, hs, tcpRecvSynRecv, hrst, hfin, resetFor, hsyn, hack]

def plainSyn (seg : TcpSeg) : Bool :=
  !hasFlag seg.flags FLAG_RST && !hasFlag seg.flags FLAG_FIN && hasFlag seg.flags FLAG_SYN &&
    !hasFlag seg.flags FLAG_ACK

inductive Greets (c : TcpConn) (seg : TcpSeg) (env : RecvEnv) : TcpConn → Prop
  | stay : Greets c seg env c
  | reset (hr : Resets c seg) : Greets c seg env (c.emit (.seg .control (resetFor c seg)))
  | crossed (o : ConnOpts) (hok : OptsOk c.toConnOpts → OptsOk o) (hs : c.state = .synSent) :
    Greets c seg env
      { sendControl (takeSyn ({ c with toConnOpts := o }.setState .synRecv) seg)
          (FLAG_SYN ||| FLAG_ACK) with
        timeout := TCP_GBN_TO_MIN
        toGbnTimer := timerOnceStart TCP_GBN_TO_MIN
        toGbnFlag := false }
  | synAck (o : ConnOpts) (hok : OptsOk c.toConnOpts → OptsOk o) (hs : c.state = .synSent)
    (hack : seg.ackNum = c.sendSeqNum + 1) :
    Greets c seg env (signalOpen (sendControl
      { enterEstablished { c with toConnOpts := o } seg (seg.seqNum + 1) with
        irsn := seg.seqNum, duplicate := 0 } FLAG_ACK) env.parent)
  | again (o : ConnOpts) (hok : OptsOk c.toConnOpts → OptsOk o) (hs : c.state = .synRecv)
    (hsyn : plainSyn seg = true) :
    Greets c seg env
      { sendControl (takeSyn (startSend { c with toConnOpts := o } env.rand) seg)
          (FLAG_SYN ||| FLAG_ACK) with
        toGbnTimer := timerOnceStart TCP_MSL_TO_DEFAULT
        toGbnFlag := false }
  | ack (o : ConnOpts) (hok : OptsOk c.toConnOpts → OptsOk o) (hs : c.state = .synRecv)
    (hack : seg.ackNum = c.sendSeqNum + 1) :
    Greets c seg env
      (signalOpen (enterEstablished { c with toConnOpts := o } seg seg.seqNum) env.parent)

theorem Greets.reset_of {env : RecvEnv} {s : TcpSeg} (hr : Resets c seg) (h : resetFor c seg = s) :
    Greets c seg env (c.emit (.seg .control s)) := h ▸ .reset hr

theorem tcpRecvSynSent_opens (c : TcpConn) (seg : TcpSeg) (env : RecvEnv)
    (hs : c.state = .synSent) : Greets c seg env (tcpRecvSynSent c seg env.parent) := by
  obtain ⟨o, hok, -, hopt⟩ := tcpProcessOptions_frame c seg
  unfold tcpRecvSynSent
  rw [hopt]
  split
  · exact .stay
  rename_i hrst
  split
  · exact .stay
  rename_i hfin
  rw [Bool.not_eq_true] at hrst hfin
  split
  · rename_i hsyn
    split
    · rename_i hack
      split
      · exact .synAck o hok hs ‹_›
      · exact .reset_of ⟨hrst, hfin, .inl ⟨hs, fun _ => ⟨hack, ‹_›⟩⟩⟩ (if_pos hsyn)
    · exact .crossed o hok hs
  · rename_i hsyn
    exact .reset_of ⟨hrst, hfin, .inl ⟨hs, fun h => absurd h hsyn⟩⟩ (if_neg hsyn)

theorem tcpRecvSynRecv_opens (c : TcpConn) (seg : TcpSeg) (env : RecvEnv)
    (hs : c.state = .synRecv) : Greets c seg env (tcpRecvSynRecv c seg env.rand env.parent) := by
  obtain ⟨o, hok, -, hopt⟩ := tcpProcessOptions_frame c seg
  unfold tcpRecvSynRecv
  rw [hopt]
  split
  · exact .stay
  rename_i hrst
  split
  · exact .stay
  rename_i hfin
  rw [Bool.not_eq_true] at hrst hfin
  split
  · rename_i hsyn
    split
    · split
      · exact .ack o hok hs ‹_›
      · exact .stay
    · rename_i hack
      exact .again o hok hs (by simp [plainSyn, hrst, hfin, hsyn, hack])
  rename_i hsyn
  split
  · split
    · exact .ack o hok hs ‹_›
    · exact .stay
  · refine .reset_of ⟨hrst, hfin, .inr ⟨hs, ?_, ?_⟩⟩ (if_neg hsyn)
    · simpa using hsyn
    · simpa using ‹¬ hasFlag seg.flags FLAG_ACK = true›

theorem tcpRecvState_opens (md : TcpData) (seg : TcpSeg) (env : RecvEnv)
    (hs : c.state = .synSent ∨ c.state = .synRecv) :
    Greets c seg env (tcpRecvState md c seg env) := by
  rcases hs with hs | hs
  · simpa only [tcpRecvState, hs] using tcpRecvSynSent_opens c seg env hs
  · simpa only [tcpRecvState, hs] using tcpRecvSynRecv_opens c seg env hs

theorem Greets.step {env : RecvEnv} (md : TcpData) (h : Greets c seg env c') :
    RecvStep md c seg c' := by
  cases h with
  | stay => exact .inert (.refl c)
  | reset hr => exact .inert (emit_inert c trivial)
  | crossed o _ hs =>
    refine .opening .synRecv (takeSyn ({ c with toConnOpts := o }.setState .synRecv) seg)
      (hs ▸ .simultaneous) rfl rfl rfl rfl
      ((sendControl_view .inert _ (FLAG_SYN ||| FLAG_ACK)).trans ?_) ⟨rfl, rfl⟩
    exact .of_same rfl id rfl rfl rfl
  | synAck o _ hs =>
    refine .opening .established _ (hs ▸ .synSent) ?_ ?_ ?_ ?_
      ((sendControl_view .inert _ _).trans (signalOpen_tells _ _).1.inert) ⟨?_, ?_⟩
    all_goals rfl
  | again o _ hs =>
    refine .restart (takeSyn (startSend { c with toConnOpts := o } env.rand) seg)
      hs hs rfl rfl rfl ((sendControl_view .inert _ (FLAG_SYN ||| FLAG_ACK)).trans ?_) ⟨rfl, rfl⟩
    exact .of_same rfl id rfl rfl rfl
  | ack o _ hs =>
    refine .opening .established _ (hs ▸ .synRecv) ?_ ?_ ?_ ?_ (signalOpen_tells _ _).1.inert
      ⟨?_, ?_⟩
    all_goals rfl

/-- **What each state does with a segment.**  Those that look at data differ in two things:
    FIN_WAIT_2 takes no acknowledgment, and only LAST_ACK can be left for CLOSED. -/
inductive Arriving (md : TcpData) (c : TcpConn) (seg : TcpSeg) (env : RecvEnv) : TcpConn → Prop
  | closed (hs : c.state = .closed) : Arriving md c seg env c
  | listen (hs : c.state = .listen) :
    Arriving md c seg env (tcpRecvListen c seg env.known env.room env.child)
  | greets {d : TcpConn} (hs : c.state = .synSent ∨ c.state = .synRecv) (h : Greets c seg env d) :
    Arriving md c seg env d
  | rst (hs : Handling c.state ∨ c.state = .closeWait) (hrst : hasFlag seg.flags FLAG_RST = true) :
    Arriving md c seg env (tcpHandleRst c seg)
  | ack (hs : c.state = .closeWait) (hrst : hasFlag seg.flags FLAG_RST = false) :
    Arriving md c seg env (handleAckFlag md c seg)
  | data (hs : Handling c.state) (hrst : hasFlag seg.flags FLAG_RST = false) :
    Arriving md c seg env (replyTo (stopClosed (tcpHandleData md (ackFirst md c seg) seg).1)
      (tcpHandleData md (ackFirst md c seg) seg).2)

theorem Arriving.of_reply {env : RecvEnv} (md : TcpData) (hs : Handling c.state)
    (hla : c.state ≠ .lastAck) : Arriving md c seg env
      (if hasFlag seg.flags FLAG_RST then tcpHandleRst c seg
        else handleDataAndReply md (ackFirst md c seg) seg) := by
  have hopen : (tcpHandleData md (ackFirst md c seg) seg).1.state ≠ .closed := by
    intro hc
    have hfrom := tcpHandleData_from_lastAck md (ackFirst md c seg) seg (.inl hc)
    rw [(ackFirst_inert md c seg).state] at hfrom
    rcases hfrom with hfrom | hfrom
    · exact hs.not_closed hfrom
    · exact hla hfrom
  split
  · exact .rst (.inl hs) ‹_›
  · rename_i hrst
    have h : Arriving md c seg env _ := .data hs (by simpa using hrst)
    rw [stopClosed, if_neg hopen] at h
    exact h

theorem tcpRecvState_arriving (md : TcpData) (c : TcpConn) (seg : TcpSeg) (env : RecvEnv) :
    Arriving md c seg env (tcpRecvState md c seg env) := by
  have first (hne : c.state ≠ .finWait2) : ackFirst md c seg = handleAckFlag md c seg := if_neg hne
  have shared (hs : Handling c.state) (hla : c.state ≠ .lastAck) (hne : c.state ≠ .finWait2) :
      Arriving md c seg env (recvAckData md c seg) := by
    have h : Arriving md c seg env _ := .of_reply md hs hla
    rw [first hne] at h
    exact h
  unfold tcpRecvState
  split
  case h_1 hs => exact .closed hs
  case h_2 hs => exact .listen hs
  case h_3 hs => exact .greets (.inl hs) (tcpRecvSynSent_opens c seg env hs)
  case h_4 hs => exact .greets (.inr hs) (tcpRecvSynRecv_opens c seg env hs)
  case h_5 hs => exact shared (.inl (.inl hs)) (by simp [hs]) (by simp [hs])
  case h_6 hs => exact shared (.inl (.inr (.inl hs))) (by simp [hs]) (by simp [hs])
  case h_7 hs =>
    have h : Arriving md c seg env _ := .of_reply md (.inl (.inr (.inr hs))) (by simp [hs])
    rw [ackFirst, if_pos hs] at h
    exact h
  case h_8 hs => exact shared (.inr (.inl hs)) (by simp [hs]) (by simp [hs])
  case h_9 hs => exact shared (.inr (.inr (.inl hs))) (by simp [hs]) (by simp [hs])
  case h_10 hs =>
    unfold tcpRecvCloseWait
    split
    · exact .rst (.inr hs) ‹_›
    · rename_i hrst
      exact .ack hs (by simpa using hrst)
  case h_11 hs =>
    unfold tcpRecvLastAck
    split
    · exact .rst (.inl (.inr (.inr (.inr hs)))) ‹_›
    · rename_i hrst
      rw [← first (by simp [hs])]
      exact .data (.inr (.inr (.inr hs))) (by simpa using hrst)

theorem tcpRecv_step (md : TcpData) (c : TcpConn) (seg : TcpSeg) (env : RecvEnv) :
    RecvStep md c seg (tcpRecv md c seg env) := by
  unfold tcpRecv
  split
  · rename_i hpre
    have hrun : c.runningFlag := (Bool.and_eq_true _ _ ▸ hpre).1
    have h := tcpRecvState_arriving md c seg env
    generalize tcpRecvState md c seg env = c' at h ⊢
    cases h with
    | closed => exact .inert (.refl c)
    | listen => exact .inert (tcpRecvListen_inert c seg _ _ _)
    | greets _ h => exact h.step md
    | rst => exact .inert (tcpHandleRst_view .inert c seg)
    | ack => exact .inert (handleAckFlag_view .inert md c seg)
    | data hs hrst =>
      have hstop (r : TcpConn × UInt16) := stopClosed_view .inert r.1
      have hreply (r : TcpConn × UInt16) := replyTo_view .inert (stopClosed r.1) r.2
      refine .data hrun hs hrst ((hstop _).trans (hreply _)) fun hc => ?_
      -- the shutdown comes before the reply, and the reply leaves `running_flag`
      generalize tcpHandleData md (ackFirst md c seg) seg = r at hc ⊢
      have hclosed : r.1.state = .closed := ((hstop r).trans (hreply r)).state.symm.trans hc
      have hrunning := (hreply r).running
      rw [stopClosed, if_pos hclosed] at hrunning ⊢
      exact Bool.eq_false_iff.mpr fun hr => nomatch hrunning hr
  · exact .inert (.refl c)

/-- **What one event does to the state and the receiving side.** -/
inductive StepView (c : TcpConn) (e : Event) (c' : TcpConn) : Prop
  | inert (h : Inert c c')
  | move (new : TcpState) (stop : Bool) (c1 : TcpConn) (hrun : c.runningFlag = true)
      (he : OwnEdge c.state new stop) (h₁ : Inert c c1) (h₂ : Inert (c1.setState new) c')
      (hstop : stop = true → c'.runningFlag = false)
  | opening (new : TcpState) (d : TcpConn) (he : OpenEdge c.state new) (hst : d.state = new)
      (hq : d.recvQueue = c.recvQueue) (ho : d.out = c.out ++ [.edge c.state new]) (h : Inert d c')
      (hwin : d.recvWin = c.recvWin ∧ d.recvMaxWin = c.recvMaxWin)
      (hact : ∃ seg env, e.act = .recv seg env)
  | restart (d : TcpConn) (hs : c.state = .synRecv) (hst : d.state = .synRecv)
      (hq : d.recvQueue = c.recvQueue) (ho : d.out = c.out) (h : Inert d c')
      (hwin : d.recvWin = c.recvWin ∧ d.recvMaxWin = c.recvMaxWin)
      (hact : ∃ seg env, e.act = .recv seg env)
  | data (seg : TcpSeg) (env : RecvEnv) (hact : e.act = .recv seg env) (hs : Handling c.state)
      (hrst : hasFlag seg.flags FLAG_RST = false)
      (h : Inert (tcpHandleData e.md (ackFirst e.md c seg) seg).1 c')
      (hstop : c'.state = .closed → c'.runningFlag = false)
  | credit (ff : Fcf) (value : UInt32) (hact : e.act = .fcf ff (.setHostWindow value))
      (hrun : c.runningFlag = true) (h : Inert (c.credit value) c')

theorem OwnStep.view {e : Event} (h : OwnStep c c') : StepView c e c' := by
  cases h with
  | inert h => exact .inert h
  | move new stop c1 hrun he h₁ h₂ hstop => exact .move new stop c1 hrun he h₁ h₂ hstop

theorem step_view (c : TcpConn) (e : Event) : StepView c e (step c e) := by
  obtain ⟨md, act⟩ := e
  cases act with
  | recv seg env =>
    cases tcpRecv_step md c seg env with
    | inert h => exact .inert h
    | opening new d he hst _ hq ho h hwin =>
      exact .opening new d he hst hq ho h hwin ⟨seg, env, rfl⟩
    | restart d hs hst _ hq ho h hwin => exact .restart d hs hst hq ho h hwin ⟨seg, env, rfl⟩
    | data _ hs hrst h hstop => exact .data seg env rfl hs hrst h hstop
  | fcf ff op =>
    rcases tcpConnFcf_ownStep c ff op with h | ⟨value, rfl, hrun, h⟩
    · exact h.view
    · exact .credit ff value rfl hrun h
  | _ =>
    refine (step_ownStep c md _ ?_ ?_).view
    · intro seg env hact
      cases hact
    · intro ff op hact
      cases hact

theorem tcpListenChild_inert (md : TcpData) (parent : TcpConn) (seg : TcpSeg) (rand : UInt32) :
    ∃ d : TcpConn, d.state = .synRecv ∧ d.recvQueue.nodes = [] ∧ d.recvWin = d.recvMaxWin ∧
      d.out = [.edge .closed .synRecv] ∧ Inert d (tcpListenChild md parent seg rand) := by
  have h := tcpProcessOptions_inert (takeSyn (startSend
    { (tcpConnCreate md ⟨seg.dstIp, seg.dstPort, seg.srcIp, seg.srcPort⟩).setState .synRecv with
      activeOpen := false, pollEvents := parent.pollEvents } rand) seg) seg
  refine ⟨_, rfl, rfl, rfl, rfl, h.trans
    ((sendControl_view .inert _ (FLAG_SYN ||| FLAG_ACK)).trans ?_)⟩
  exact .of_same rfl id rfl rfl rfl

end FinsStack.Tcp
