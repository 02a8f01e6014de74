import FinsStack.Tcp.WriteStream

/-!
# A connection seen by the rest of the module

The other connections and the module's lists depend on little of a connection: its address,
its backlog, who opened it, whether it was handed to an `accept`, the call it keeps in `ff`
and the write requests on `request_queue`.  `Takes rs` says that a call leaves these alone,
stops the connection at most, and accounts for the frames `rs`: every frame it is given is
answered or held from then on, and no frame it held before is lost or answered twice.

Everything a connection does by itself takes nothing (`Calm`).
-/

namespace FinsStack.Tcp

open List

/-! ### Requests -/

/-- A frame that is to be answered: a control frame, or a write by its serial number. -/
inductive Request where
  | fcf (ff : Fcf)
  | send (serialNum : UInt32)
deriving DecidableEq, Repr

def Out.answers : Out → Option Request
  | .reply ff _ _ | .connReply ff _ _ _ _ => some (.fcf ff)
  | .execReply _ serialNum _ _ => some (.send serialNum)
  | _ => none

def Out.returns : Out → Bool
  | .connReply _ _ _ retVal _ => retVal == FCF_TRUE
  | _ => false

def TcpConn.answered (c : TcpConn) : List Request := c.out.filterMap Out.answers

def TcpConn.held (c : TcpConn) : List Request :=
  c.ff.toList.map .fcf ++ c.requestQueue.nodes.map fun n => .send n.data.serialNum

def TcpConn.account (c : TcpConn) (r : Request) : Nat := c.answered.count r + c.held.count r

def TcpConn.returned (c : TcpConn) : Nat := c.out.countP Out.returns

def TcpConn.shared (c : TcpConn) :
    ConnAddr × List Nat × Bool × Bool × Option Fcf × TcpQueue TcpRequest :=
  (c.addr, c.backlog, c.activeOpen, c.signaled, c.ff, c.requestQueue)

/-- **The call accounts for the frames `rs`** and changes nothing else the module sees. -/
structure Takes (rs : List Request) (c c' : TcpConn) : Prop where
  addr : c'.addr = c.addr
  backlog : c'.backlog = c.backlog
  activeOpen : c'.activeOpen = c.activeOpen
  signaled : c'.signaled = c.signaled
  running : c'.runningFlag = true → c.runningFlag = true
  ff : c'.ff = c.ff ∨ c'.ff = none
  account : ∀ r, c'.account r = c.account r + rs.count r
  returned : c'.returned = c.returned

abbrev Calm (c c' : TcpConn) : Prop := Takes [] c c'

variable {c c' : TcpConn} {rs : List Request}

variable {l : List Out} {env : RecvEnv}

theorem answered_append (h : c'.out = c.out ++ l) :
    c'.answered = c.answered ++ l.filterMap Out.answers := by
  simp only [TcpConn.answered, h, filterMap_append]

theorem returned_append (h : c'.out = c.out ++ l) :
    c'.returned = c.returned + l.countP Out.returns := by
  simp only [TcpConn.returned, h, countP_append]

theorem Takes.trans {rs₁ rs₂ : List Request} {c₁ c₂ c₃ : TcpConn} (h₁ : Takes rs₁ c₁ c₂)
    (h₂ : Takes rs₂ c₂ c₃) : Takes (rs₁ ++ rs₂) c₁ c₃ where
  addr := h₂.addr.trans h₁.addr
  backlog := h₂.backlog.trans h₁.backlog
  activeOpen := h₂.activeOpen.trans h₁.activeOpen
  signaled := h₂.signaled.trans h₁.signaled
  running := fun h => h₁.running (h₂.running h)
  ff := by
    rcases h₂.ff with h | h
    · rw [h]
      exact h₁.ff
    · exact .inr h
  account := by
    intro r
    rw [h₂.account, h₁.account, count_append, Nat.add_assoc]
  returned := h₂.returned.trans h₁.returned

theorem Takes.andCalm {c'' : TcpConn} (h : Takes rs c c') (h' : Calm c' c'') : Takes rs c c'' := by
  have hboth := h.trans h'
  rwa [append_nil] at hboth

theorem Calm.andTakes {c'' : TcpConn} (h : Calm c c') (h' : Takes rs c' c'') : Takes rs c c'' :=
  Takes.trans h h'

theorem Calm.trans {c₁ c₂ c₃ : TcpConn} (h₁ : Calm c₁ c₂) (h₂ : Calm c₂ c₃) : Calm c₁ c₃ :=
  Takes.trans h₁ h₂

section

variable (hs : c'.shared = c.shared) (hr : c'.runningFlag → c.runningFlag)
include hs hr

theorem Takes.of_shared (ho : c'.out = c.out ++ l)
    (hret : l.countP Out.returns = 0) : Takes (l.filterMap Out.answers) c c' := by
  simp only [TcpConn.shared, Prod.mk.injEq] at hs
  obtain ⟨haddr, hbacklog, hactive, hsignaled, hff, hqueue⟩ := hs
  constructor
  · exact haddr
  · exact hbacklog
  · exact hactive
  · exact hsignaled
  · exact hr
  · exact .inl hff
  · intro r
    simp only [TcpConn.account, TcpConn.held, answered_append ho, count_append, hff, hqueue]
    omega
  · rw [returned_append ho, hret]
    rfl

theorem Calm.silent (ho : c'.out = c.out) : Calm c c' :=
  Takes.of_shared (l := []) hs hr (by rw [ho, append_nil]) rfl

end

theorem Calm.refl (c : TcpConn) : Calm c c := .silent rfl id rfl

theorem Calm.seg {k : SegKind} {s : TcpSeg} (hs : c'.shared = c.shared)
    (hr : c'.runningFlag → c.runningFlag) (ho : c'.out = c.out ++ [.seg k s]) :
    Calm c c' :=
  Takes.of_shared hs hr ho rfl

theorem Takes.reply (c : TcpConn) (ff : Fcf) (retVal retMsg : UInt32) :
    Takes [.fcf ff] c (c.emit (.reply ff retVal retMsg)) :=
  Takes.of_shared (l := [.reply ff retVal retMsg]) rfl id rfl rfl

theorem Calm.setState (c : TcpConn) (s : TcpState) : Calm c (c.setState s) :=
  Takes.of_shared (l := [.edge c.state s]) rfl id rfl rfl

theorem Calm.answerFf {ff : Fcf} {o : Out} (hff : c.ff = some ff) (hnone : c'.ff = none)
    (hs : (c'.addr, c'.backlog, c'.activeOpen, c'.signaled, c'.requestQueue) =
      (c.addr, c.backlog, c.activeOpen, c.signaled, c.requestQueue))
    (hr : c'.runningFlag → c.runningFlag) (ho : c'.out = c.out ++ [o])
    (hanswers : o.answers = some (.fcf ff)) (hreturns : o.returns = false) : Calm c c' := by
  simp only [Prod.mk.injEq] at hs
  obtain ⟨haddr, hbacklog, hactive, hsignaled, hqueue⟩ := hs
  constructor
  · exact haddr
  · exact hbacklog
  · exact hactive
  · exact hsignaled
  · exact hr
  · exact .inr hnone
  · intro r
    simp only [TcpConn.account, TcpConn.held, answered_append ho, count_append, hff, hnone,
      hqueue, filterMap_cons, hanswers, filterMap_nil, Option.toList, map_cons,
      map_nil, count_nil]
    omega
  · rw [returned_append ho, countP_singleton, hreturns]
    rfl

theorem Calm.answerRequest (ps : List (TcpNode TcpRequest)) {ns : List (TcpNode TcpRequest)}
    {n : TcpNode TcpRequest} {q : Nat} {retVal retMsg : UInt32}
    (hq : c.requestQueue.nodes = ps ++ n :: ns) (hq' : c'.requestQueue.nodes = ps ++ ns)
    (hctl : c'.toConnCtl = c.toConnCtl)
    (ho : c'.out = c.out ++ [.execReply q n.data.serialNum retVal retMsg]) : Calm c c' := by
  constructor
  · rw [hctl]
  · rw [hctl]
  · rw [hctl]
  · rw [hctl]
  · rw [hctl]
    exact id
  · rw [hctl]
    exact .inl rfl
  · intro r
    simp only [TcpConn.account, TcpConn.held, answered_append ho, hctl, hq, hq', map_append,
      map_cons, count_append, count_cons, filterMap_cons, Out.answers,
      filterMap_nil, count_nil]
    omega
  · exact returned_append ho

theorem Plain.answers {o : Out} (h : Plain o) : o.answers = none := by
  cases o <;> first | rfl | exact h.elim

theorem Plain.returns {o : Out} (h : Plain o) : o.returns = false := by
  cases o <;> first | rfl | exact h.elim

theorem View.calm : View Calm where
  trans := .trans
  plain {c c' l} hs hr ho hl := by
    simp only [TcpConn.seen, Prod.mk.injEq] at hs
    have hnone : l.filterMap Out.answers = [] :=
      filterMap_eq_nil_iff.mpr fun o h => (hl o h).answers
    have hret : l.countP Out.returns = 0 :=
      countP_eq_zero.mpr fun o h => by simp [(hl o h).returns]
    have := Takes.of_shared (by simp only [TcpConn.shared, hs]) hr ho hret
    rwa [hnone] at this
  answer ps _ hq hq' hctl _ _ ho := .answerRequest ps hq hq' hctl ho
  refuse h ho := .answerFf h rfl rfl id rfl (by rcases ho with rfl | rfl <;> rfl)
    (by rcases ho with rfl | rfl <;> rfl)

/-! ### An arriving segment -/

variable {seg : TcpSeg}

theorem FlagsStep.calm {r : FlagsRet} (h : FlagsStep c seg r c') : Calm c c' := by
  cases h with
  | keep r => exact .refl c
  | data => exact .silent rfl id rfl
  | finWait2 | closed => exact .setState c _
  | finWait2Data => exact (Calm.setState c .finWait2).trans (.silent rfl id rfl)
  | timeWait => exact (Calm.setState c .timeWait).trans (.silent rfl id rfl)
  | fin new g =>
    have hfin : Calm c (consumeFin c seg) :=
      Takes.of_shared (l := [.fin seg.seqNum c.recvSeqNum]) rfl id rfl rfl
    have hstate := hfin.trans (Calm.setState _ new)
    have halert : Calm ((consumeFin c seg).setState new)
        (alertShutdownRd ((consumeFin c seg).setState new)) :=
      Takes.of_shared (l := [.alert c.addr TCP_ALERT_SHUTDOWN _ _]) rfl id rfl rfl
    exact (hstate.trans halert).trans (.silent rfl id rfl)

theorem SegStep.calm {md : TcpData} (h : SegStep md c seg c') : Calm c c' := by
  cases h with
  | options c1 o hf => exact hf.calm.trans (.silent rfl id rfl)
  | handOff c1 hf =>
    exact hf.calm.trans (Takes.of_shared (l := [.data c1.addr seg.data]) rfl id rfl rfl)
  | bare r c1 hf => exact hf.calm

theorem tcpHandleData_calm (md : TcpData) (c : TcpConn) (seg : TcpSeg) :
    Calm c (tcpHandleData md c seg).1 := by
  apply tcpHandleData_induct (P := Calm c)
  · exact fun _ w h => h.trans (.silent rfl id rfl)
  · exact fun _ m h => h.trans (.silent rfl id rfl)
  · exact fun _ n ns _ h => h.trans (.silent rfl id rfl)
  · intro c1 n ns c' _ _ hstep h
    have hpop : Calm c1 c1.popRecv := .silent rfl id rfl
    exact (h.trans hpop).trans hstep.calm
  · exact fun c' _ hstep h => h.trans hstep.calm
  · exact fun q _ _ _ h => h.trans (.silent rfl id rfl)
  · exact .refl c

theorem tcpRecvState_calm (md : TcpData) (c : TcpConn) (seg : TcpSeg) (env : RecvEnv)
    (hlisten : c.state ≠ .listen) (hsent : c.state ≠ .synSent) (hrecv : c.state ≠ .synRecv) :
    Calm c (tcpRecvState md c seg env) := by
  have h := tcpRecvState_arriving md c seg env
  generalize tcpRecvState md c seg env = c' at h ⊢
  cases h with
  | closed => exact .refl c
  | listen hs => exact absurd hs hlisten
  | greets hs => exact absurd hs (not_or.mpr ⟨hsent, hrecv⟩)
  | rst => exact tcpHandleRst_view .calm c seg
  | ack => exact handleAckFlag_view .calm md c seg
  | data =>
    have hack : Calm c (ackFirst md c seg) := by
      unfold ackFirst
      split
      · exact .refl c
      · exact handleAckFlag_view .calm md c seg
    exact (hack.trans (tcpHandleData_calm md _ seg)).trans
      ((stopClosed_view .calm _).trans (replyTo_view .calm _ _))

/-! ### Write requests -/

/-- The requests on `request_queue` have different addresses. -/
def RequestsApart (c : TcpConn) : Prop := (c.requestQueue.nodes.map TcpNode.addr).Nodup

/-- `ps` are the requests that the loop of `handle_interrupt` has kept. -/
theorem handleInterruptLoop_calm (front : Nat) (ps ms : List (TcpNode TcpRequest))
    (hapart : RequestsApart c) (hq : c.requestQueue.nodes = ps ++ ms) :
    Calm c (handleInterruptLoop front ms c) := by
  induction ms generalizing ps c with
  | nil => exact .refl c
  | cons m ms ih =>
    have hnd : ((ps ++ m :: ms).map TcpNode.addr).Nodup := hq ▸ hapart
    have hnodes : (tcpQueueRemove c.requestQueue m).nodes = ps ++ ms := by
      apply tcpQueueRemove_nodes ps hq
      intro p hp heq
      rw [map_append, map_cons, nodup_append] at hnd
      exact hnd.2.2 p.addr (mem_map_of_mem hp) m.addr mem_cons_self heq
    have hrest : ((tcpQueueRemove c.requestQueue m).nodes.map TcpNode.addr).Nodup := by
      rw [hnodes]
      exact hnd.sublist (((sublist_cons_self m ms).append_left ps).map _)
    simp only [handleInterruptLoop]
    split
    · split
      all_goals
        refine Calm.trans ?_ (ih ps ?_ ?_)
        · exact Calm.answerRequest ps hq hnodes rfl rfl
        · exact hrest
        · exact hnodes
    · apply ih (ps ++ [m]) hapart
      rw [hq, append_assoc]
      rfl

section

variable (c)

theorem handleInterrupt_calm (hapart : RequestsApart c) :
    Calm c (handleInterrupt c) := by
  simp only [handleInterrupt]
  split
  · exact .refl c
  · rename_i n ns hq
    exact handleInterruptLoop_calm n.addr [] (n :: ns) hapart hq

theorem refuseWrite_takes (serialNum retMsg : UInt32) :
    Takes [.send serialNum] c { c with
      nextAddr := c.nextAddr + 1
      out := c.out ++ [.execReply c.nextAddr serialNum FCF_FALSE retMsg] } :=
  Takes.of_shared (l := [.execReply c.nextAddr serialNum FCF_FALSE retMsg]) rfl id rfl rfl

theorem writePreConnected_takes (d : Pdu) (serialNum : UInt32) :
    Takes [.send serialNum] c (writePreConnected c d serialNum) := by
  simp only [writePreConnected]
  split
  · refine Takes.andCalm (Takes.andCalm ?_ (wakeMain_view .calm _)) (alertPollIf_view .calm _ _ _)
    exact Takes.of_shared (l := [.accept c.nextAddr d.bytes, .execReply c.nextAddr serialNum _ _])
      rfl id rfl rfl
  · exact (refuseWrite_takes c serialNum EAGAIN).andCalm (alertPollIf_view .calm _ _ _)

theorem queueRequest_takes (d : Pdu) {request : TcpRequest} {serialNum : UInt32}
    (hserial : request.serialNum = serialNum) :
    Takes [.send serialNum] c { c with
      requestQueue := tcpQueueAppend c.requestQueue
        { data := request, len := 1, seqNum := 0, seqEnd := 0, addr := c.nextAddr }
      nextAddr := c.nextAddr + 1
      out := c.out ++ [.accept c.nextAddr d.bytes] } := by
  subst hserial
  constructor
  · rfl
  · rfl
  · rfl
  · rfl
  · exact id
  · exact .inl rfl
  · intro r
    simp only [TcpConn.account, TcpConn.held, TcpConn.answered, tcpQueueAppend,
      filterMap_append, filterMap_cons, Out.answers, filterMap_nil,
      map_append, map_cons, map_nil, count_append, count_nil]
    omega
  · exact returned_append (l := [.accept c.nextAddr d.bytes]) rfl

theorem tcpWrite_takes (d : Pdu) (flags serialNum : UInt32) :
    Takes [.send serialNum] c (tcpWrite c d flags serialNum) := by
  have hrefused := refuseWrite_takes c serialNum 0
  have hopen : Takes [.send serialNum] c (writeConnected c d flags serialNum) := by
    simp only [writeConnected]
    split
    · refine Takes.andCalm (Takes.andCalm ?_ (tcpHandleRequests_view .calm _))
        (wakeMain_view .calm _)
      exact queueRequest_takes c d rfl
    · exact hrefused
  simp only [tcpWrite]
  split
  · split
    · exact writePreConnected_takes c d serialNum
    · exact writePreConnected_takes c d serialNum
    · exact hopen
    · exact hopen
    · exact hrefused
  · exact hrefused

/-! ### The main thread -/

theorem Retries.calm {rand : UInt32} (h : Retries c rand c') : Calm c c' := by
  rcases h.view .calm with hc | ⟨-, h⟩
  · exact hc
  · subst h
    have hout : Calm c (timedOut c) := .silent rfl id rfl
    exact ((hout.trans (Calm.setState _ _)).trans (resendSyn_view .calm _ rand)).trans
      (.silent rfl id rfl)

theorem tcpMainTimeWait_calm : Calm c (tcpMainTimeWait c) := by
  have hclear : Calm c { clearInterrupt c with toGbnFlag := false } := .silent rfl id rfl
  simp only [tcpMainTimeWait]
  split
  · have hclosed : ∀ d : TcpConn, Calm d (tcpConnShutdown { d.setState .closed with
        mainWaitFlag := false }) := by
      intro d
      refine Calm.trans ((Calm.setState d .closed).trans ?_) (tcpConnShutdown_view .calm _)
      exact .silent rfl id rfl
    refine Calm.trans ?_ (hclosed _)
    split
    · refine hclear.trans (Calm.trans ?_ (sendAckSeg_view .calm _ _))
      exact .silent rfl id rfl
    · exact hclear
  · refine Calm.trans ?_ (mainDelayedAck_view .calm _)
    exact .silent rfl id rfl

theorem tcpMainFinWait2_calm : Calm c (tcpMainFinWait2 c) := by
  have hclear : Calm c { clearInterrupt c with toGbnFlag := false } := .silent rfl id rfl
  exact (hclear.trans (mainDelayedAck_view .calm _)).trans (.silent rfl id rfl)

end

theorem tcpMainState_calm (md : TcpData) (c : TcpConn) (rand : UInt32) (hapart : RequestsApart c) :
    Calm c (tcpMainState md c rand) := by
  have hest := (mainEstablished_view .calm (handleInterrupt_calm _ hapart) md).trans
    (mainDelayedAck_view .calm _)
  have hfin := (mainFinWait1_view .calm (handleInterrupt_calm _ hapart) md).trans
    (mainDelayedAck_view .calm _)
  cases hs : c.state <;> simp only [tcpMainState, hs]
  case closed | listen => exact .silent rfl id rfl
  case synSent => exact (tcpMainSynSent_retries c rand hs).calm
  case synRecv => exact (tcpMainSynRecv_retries c rand hs).calm
  case established | closeWait => exact hest
  case finWait1 | closing | lastAck => exact hfin
  case finWait2 => exact tcpMainFinWait2_calm c
  case timeWait => exact tcpMainTimeWait_calm c

theorem tcpMainThread_calm (md : TcpData) (c : TcpConn) (rand : UInt32) (hapart : RequestsApart c) :
    Calm c (tcpMainThread md c rand) := by
  have hround := tcpMainState_calm md c rand hapart
  cases hpc : c.mainPc <;> simp only [tcpMainThread, hpc]
  case done => exact .refl c
  case waiting =>
    split
    · exact .silent rfl id rfl
    · exact .refl c
  case ready =>
    split
    · split
      · exact hround.trans (.silent rfl id rfl)
      · exact hround
    · exact .silent rfl id rfl

/-! ### Timers -/

theorem requestFire_calm (c : TcpConn) (a : Nat) : Calm c (requestFire c a) := by
  have hheld : (requestFire c a).held = c.held := by
    simp only [TcpConn.held, requestFire, map_map]
    congr 1
    apply map_congr_left
    intro n _
    simp only [Function.comp]
    split <;> rfl
  refine ⟨rfl, rfl, rfl, rfl, id, .inl rfl, ?_, rfl⟩
  intro r
  simp only [TcpConn.account, hheld, count_nil, Nat.add_zero]
  rfl

/-! ### Calls of the application -/

def TcpConn.answersClose (c : TcpConn) : Bool :=
  c.runningFlag && match c.state with
    | .finWait1 | .finWait2 | .closing | .lastAck => false
    | _ => true

section

variable (c)

theorem tcpClose_takes (ff : Fcf) :
    Takes (if c.answersClose then [.fcf ff] else []) c (tcpClose c ff) := by
  -- the state is changed and a pending call refused before the reply
  have hreply : ∀ s, Takes [.fcf ff] c
      ((refusePending (c.setState s)).emit (.reply ff FCF_TRUE 0)) := fun s =>
    ((Calm.setState c s).trans (refusePending_view .calm _)).andTakes (Takes.reply _ ff FCF_TRUE 0)
  cases hrun : c.runningFlag with
  | false => simpa [tcpClose, TcpConn.answersClose, hrun] using Calm.refl c
  | true =>
    cases hs : c.state <;> simp only [tcpClose, TcpConn.answersClose, hrun, hs, Bool.true_and,
      Bool.and_false, Bool.false_eq_true, if_false, if_true]
    case closed | timeWait => exact Takes.reply c ff FCF_TRUE 0
    case listen =>
      refine Takes.andCalm ((hreply .closed).andCalm ?_) (tcpConnShutdown_view .calm _)
      exact .silent rfl id rfl
    case synSent => exact (hreply .closed).andCalm (tcpConnShutdown_view .calm _)
    case synRecv | established => exact (hreply .finWait1).andCalm (finIfFinished_view .calm _)
    case closeWait =>
      have hlast : Takes [.fcf ff] c ((c.setState .lastAck).emit (.reply ff FCF_TRUE 0)) :=
        (Calm.setState c .lastAck).andTakes (Takes.reply _ ff FCF_TRUE 0)
      exact hlast.andCalm (finIfFinished_view .calm _)
    case finWait1 | finWait2 | closing | lastAck => exact Calm.refl c

theorem tcpListen_calm (backlog : Nat) : Calm c (tcpListen c backlog) := by
  simp only [tcpListen]
  split
  · exact (Calm.setState c .listen).trans (.silent rfl id rfl)
  · exact .refl c

theorem polled_takes (ff : Fcf) (pe retMsg : UInt32) : Takes [.fcf ff] c
    (({ c with pollEvents := pe } : TcpConn).emit (.reply ff FCF_TRUE retMsg)) :=
  Takes.of_shared (l := [.reply ff FCF_TRUE retMsg]) rfl id rfl rfl

theorem tcpPoll_takes (ff : Fcf) (initial events : UInt32) :
    Takes [.fcf ff] c (tcpPoll c ff initial events) := by
  simp only [tcpPoll]
  split
  · split
    · split
      · exact Takes.reply c ff _ _
      · exact polled_takes c ff _ _
    · exact Takes.reply c ff _ _
  · exact Takes.reply c ff _ _

theorem tcpPollStub_takes (ff : Fcf) (initial events : UInt32) :
    Takes [.fcf ff] c (tcpPollStub c ff initial events) := by
  simp only [tcpPollStub]
  split
  · split
    · split
      · exact polled_takes c ff _ _
      · exact polled_takes c ff _ _
    · exact Takes.reply c ff _ _
  · exact Takes.reply c ff _ _

theorem tcpConnAlert_calm (value : UInt32) : Calm c (tcpConnAlert c value) := by
  have hfin : ∀ s, Calm c (finIfFinished (c.setState s)) := fun s =>
    (Calm.setState c s).trans (finIfFinished_view .calm _)
  simp only [tcpConnAlert]
  split
  · split
    · exact hfin _
    · exact hfin _
    · exact hfin _
    · exact (Calm.setState c .closed).trans (tcpConnShutdown_view .calm _)
    all_goals exact .refl c
  · exact .refl c

theorem tcpSetHostWindow_calm (value : UInt32) :
    Calm c (tcpSetHostWindow c value) := by
  simp only [tcpSetHostWindow]
  split
  · refine Calm.trans ?_ (sendControl_view .calm _ _)
    exact .silent rfl id rfl
  · exact .silent rfl id rfl

end

/-- The daemon expects no reply to these. -/
def FcfOp.unanswered : FcfOp → Bool
  | .alertShutdown _ | .setHostWindow _ => true
  | _ => false

theorem tcpConnFcf_takes (c : TcpConn) (ff : Fcf) (op : FcfOp) :
    Takes (if c.runningFlag && op.unanswered then [] else [.fcf ff]) c (tcpConnFcf c ff op) := by
  cases hrun : c.runningFlag with
  | false =>
    simp only [tcpConnFcf, hrun, Bool.false_and, Bool.false_eq_true, if_false]
    exact Takes.reply c ff _ _
  | true =>
    cases op with
    | alertShutdown value =>
      simpa only [tcpConnFcf, hrun, FcfOp.unanswered, Bool.and_self, if_true] using
        tcpConnAlert_calm c value
    | setHostWindow value =>
      simpa only [tcpConnFcf, hrun, FcfOp.unanswered, Bool.and_self, if_true] using
        tcpSetHostWindow_calm c value
    | readHostWindow | readSockOpt | setSockOpt value =>
      simp only [tcpConnFcf, hrun, FcfOp.unanswered, Bool.and_false, Bool.false_eq_true, if_false,
        if_true]
      exact Takes.reply c ff _ _

structure Connects (ff : Fcf) (c c' : TcpConn) : Prop where
  addr : c'.addr = c.addr
  backlog : c'.backlog = c.backlog
  signaled : c'.signaled = c.signaled
  running : c'.runningFlag = c.runningFlag
  state : c'.state = .synSent
  activeOpen : c'.activeOpen = true
  account : ∀ r, c'.account r = c.account r + [Request.fcf ff].count r
  returned : c'.returned = c.returned

theorem tcpConnect_connects (ff : Fcf) (rand : UInt32) (hrun : c.runningFlag)
    (hs : c.state = .closed ∨ c.state = .listen) (hff : c.ff = none) :
    Connects ff c (tcpConnect c ff rand) := by
  rcases tcpConnect_frame c ff rand with ⟨-, hnot⟩ | ⟨-, a, seg, hsyn⟩
  · exact absurd ⟨hrun, hs⟩ hnot
  have hout : (tcpConnect c ff rand).out =
      c.out ++ [.edge c.state .synSent, .seg .control seg] := by
    rw [hsyn]
  have hheld : (tcpConnect c ff rand).held = .fcf ff :: c.held := by
    simp only [hsyn, TcpConn.held, hff]
    rfl
  constructor
  iterate 6
    rw [hsyn]
    rfl
  · intro r
    simp only [TcpConn.account, answered_append hout, hheld, filterMap_cons, Out.answers,
      filterMap_nil, append_nil, count_cons, count_nil]
    omega
  · exact returned_append hout

/-! ### Handshake -/

inductive Signal (c : TcpConn) (parent : Option TcpConn) (c' : TcpConn) : Prop
  | nobody (h : c' = c) (hidle : c.ff = none → c.activeOpen = false → ∀ p ∈ parent,
      ¬ (p.runningFlag = true ∧ p.state = .listen ∧ p.ff.isSome = true))
  | own (ff : Fcf) (o : Out) (hff : c.ff = some ff) (hanswers : o.answers = some (.fcf ff))
      (hreturns : c.activeOpen = true → o.returns = false)
      (h : c' = { c with signaled := true, ff := none, out := c.out ++ [o] })
  | parent (p : TcpConn) (ff : Fcf) (hnone : c.ff = none) (hpassive : c.activeOpen = false)
      (hp : parent = some p) (hrun : p.runningFlag = true) (hlisten : p.state = .listen)
      (hff : p.ff = some ff)
      (h : c' = { c with
        signaled := true, out := c.out ++ [.connReply ff c.addr c.state FCF_TRUE 0] })

theorem signalOpen_signal (c : TcpConn) (parent : Option TcpConn) :
    Signal c parent (signalOpen c parent) := by
  cases hff : c.ff with
  | some ff =>
    cases hactive : c.activeOpen with
    | true =>
      refine .own ff (.reply ff FCF_TRUE 0) hff rfl (fun _ => rfl) ?_
      simp only [signalOpen, hff, hactive, if_true]
    | false =>
      refine .own ff (.connReply ff c.addr c.state FCF_TRUE 0) hff rfl ?_ ?_
      · simp [hactive]
      · simp only [signalOpen, hff, hactive, Bool.false_eq_true, if_false]
  | none =>
    cases hactive : c.activeOpen with
    | true =>
      refine .nobody ?_ fun _ h => ?_
      · simp only [signalOpen, hff, hactive, if_true]
      · simp [hactive] at h
    | false =>
      cases hp : parent with
      | none =>
        refine .nobody ?_ fun _ _ p h => ?_
        · simp only [signalOpen, hff, hactive, Bool.false_eq_true, if_false]
        · cases h
      | some p =>
        by_cases hlisten : p.runningFlag ∧ p.state = .listen
        · cases hpff : p.ff with
          | none =>
            refine .nobody ?_ fun _ _ q hq => ?_
            · simp [signalOpen, hff, hactive, hlisten.1, hlisten.2, hpff]
            · cases hq
              simp [hpff]
          | some ff =>
            refine .parent p ff hff hactive rfl hlisten.1 hlisten.2 hpff ?_
            simp [signalOpen, hff, hactive, hlisten.1, hlisten.2, hpff]
        · refine .nobody ?_ fun _ _ q hq => ?_
          · have hnot : (p.runningFlag && p.state == .listen) = false := by
              simpa [Bool.and_eq_false_iff, not_and] using hlisten
            simp only [signalOpen, hff, hactive, hnot, Bool.false_eq_true, if_false]
          · cases hq
            exact fun h => hlisten ⟨h.1, h.2.1⟩

/-- **What an arriving segment is to the rest of the module**, unless a listener takes on a
    child for it. -/
inductive Arrival (c : TcpConn) (env : RecvEnv) (c' : TcpConn) : Prop
  | calm (h : Calm c c')
      (hshut : c.state = .synSent ∨ c.state = .synRecv → c'.state ≠ .established)
  | opened (d : TcpConn) (hs : c.state = .synSent ∨ c.state = .synRecv)
      (hrun : c.runningFlag = true) (hstate : d.state = .established)
      (hshared : d.shared = c.shared) (hd : Calm c d) (h : Signal d env.parent c')

theorem Arrival.reset (seg : TcpSeg) (hs : c.state = .synSent ∨ c.state = .synRecv) :
    Arrival c env (c.emit (.seg .control seg)) := by
  refine .calm (.seg rfl id rfl) ?_
  rintro - (h : c.state = .established)
  rcases hs with hs | hs <;> rw [hs] at h <;> cases h

theorem Greets.arrival (h : Greets c seg env c')
    (hs : c.state = .synSent ∨ c.state = .synRecv) (hrun : c.runningFlag) :
    Arrival c env c' := by
  have hshut : c.state ≠ .established := by rcases hs with hs | hs <;> simp [hs]
  cases h with
  | stay => exact .calm (.refl c) fun _ h => absurd h hshut
  | reset hr => exact Arrival.reset _ hs
  | crossed o =>
    obtain ⟨a, ack, hack⟩ := sendControl_frame
      (takeSyn (({ c with toConnOpts := o } : TcpConn).setState .synRecv) seg)
      (FLAG_SYN ||| FLAG_ACK)
    rw [hack]
    refine .calm ?_ nofun
    exact Takes.of_shared (l := [.edge c.state .synRecv, .seg .control ack]) rfl id
      (append_assoc _ _ _) rfl
  | synAck o =>
    -- the ACK that completes the handshake is sent before anybody is told
    obtain ⟨a, ack, hack⟩ := sendControl_frame
      { enterEstablished { c with toConnOpts := o } seg (seg.seqNum + 1) with
        irsn := seg.seqNum, duplicate := 0 } FLAG_ACK
    rw [hack]
    refine .opened _ hs hrun ?_ ?_ ?_ (signalOpen_signal _ _)
    · rfl
    · rfl
    · exact Takes.of_shared (l := [.edge c.state .established, .seg .control ack]) rfl id
        (append_assoc _ _ _) rfl
  | again o =>
    obtain ⟨a, ack, hack⟩ := sendControl_frame
      (takeSyn (startSend { c with toConnOpts := o } env.rand) seg) (FLAG_SYN ||| FLAG_ACK)
    rw [hack]
    exact .calm (.seg rfl id rfl) fun _ h => absurd h hshut
  | ack o =>
    refine .opened _ hs hrun ?_ ?_ ?_ (signalOpen_signal _ _)
    · rfl
    · rfl
    · exact Takes.of_shared (l := [.edge c.state .established]) rfl id rfl rfl

def TcpConn.takesChild (c : TcpConn) (seg : TcpSeg) (known room : Bool) : Bool :=
  c.runningFlag && (seg.checksum == 0 || tcpSegChecksum seg == 0) && c.state == .listen &&
    !hasFlag seg.flags FLAG_RST && hasFlag seg.flags FLAG_SYN && c.listening &&
    decide (c.backlog.length < c.backlogMax) && !known && room

theorem tcpRecv_child (md : TcpData)
    (h : c.takesChild seg env.known env.room) :
    c.runningFlag = true ∧ c.state = .listen ∧
      tcpRecv md c seg env = { c with backlog := c.backlog ++ [env.child] } := by
  simp only [TcpConn.takesChild, Bool.and_eq_true, beq_iff_eq, Bool.not_eq_true'] at h
  obtain ⟨⟨⟨⟨⟨⟨⟨⟨hrun, hsum⟩, hs⟩, hrst⟩, hsyn⟩, hlistening⟩, hspace⟩, hknown⟩, hroom⟩ := h
  refine ⟨hrun, hs, ?_⟩
  simp only [tcpRecv, hrun, hsum, Bool.and_self, if_true, tcpRecvState, hs, tcpRecvListen, hrst,
    hsyn, hlistening, hspace, hknown, hroom, Bool.not_false, Bool.false_eq_true, if_false]

theorem tcpRecv_listen (md : TcpData) (hs : c.state = .listen)
    (h : c.takesChild seg env.known env.room = false) : tcpRecv md c seg env = c := by
  simp only [tcpRecv]
  split
  · rename_i hpre
    simp only [tcpRecvState, hs, tcpRecvListen]
    split
    · rfl
    split
    · split
      · rename_i hrst hsyn hroom
        simp only [Bool.and_eq_true] at hpre hroom
        obtain ⟨⟨⟨hlistening, hspace⟩, hknown⟩, hroom⟩ := hroom
        simp [TcpConn.takesChild, hpre.1, hpre.2, hs, hrst, hsyn, hlistening, hspace, hknown,
          hroom] at h
      · rfl
    · rfl
  · rfl

theorem tcpRecv_arrival (md : TcpData)
    (h : c.takesChild seg env.known env.room = false) : Arrival c env (tcpRecv md c seg env) := by
  by_cases hlisten : c.state = .listen
  · rw [tcpRecv_listen md hlisten h]
    exact .calm (.refl c) fun _ hopen => by simp [hlisten] at hopen
  have hstay : Arrival c env c := by
    refine .calm (.refl c) ?_
    rintro (hs | hs) hopen <;> simp [hs] at hopen
  simp only [tcpRecv]
  split
  · rename_i hin
    have hrun : c.runningFlag := (Bool.and_eq_true_iff.mp hin).1
    by_cases hs : c.state = .synSent ∨ c.state = .synRecv
    · exact (tcpRecvState_opens md seg env hs).arrival hs hrun
    · rw [not_or] at hs
      exact .calm (tcpRecvState_calm md c seg env hlisten hs.1 hs.2) fun hs' =>
        absurd hs' (not_or.mpr hs)
  · exact hstay

end FinsStack.Tcp
