import FinsStack.Tcp.RecvStream
import FinsStack.Tcp.SegHeaders

/-!
# The peer's FIN arrives once more

When the acknowledgment of a FIN is lost the peer sends the FIN again.  By then it lies
behind `recv_seq_num`, so `tcp_handle_data` takes it for a segment out of order: it is not
stored and not delivered, and `tcp_handle_reply` is asked to acknowledge.  A bare FIN is
answered well, at once or by the delayed-ACK timer.  A FIN that carries data is answered
by `ack_seg` as it last went out, which may be old or was never filled in; and CLOSE_WAIT
takes no data, so there the peer learns nothing unless an acknowledgment happens to be
scheduled already.  `fin_reacked` states this as an equivalence.
-/

namespace FinsStack.Tcp

open Lib

/-! ### A FIN behind the window -/

/-- The FIN that was consumed arrives again: it ends at `recv_seq_num`. -/
structure FinAgain (c : TcpConn) (seg : TcpSeg) : Prop where
  done : PeerDone c.state
  fin : hasFlag seg.flags FLAG_FIN = true
  rst : hasFlag seg.flags FLAG_RST = false
  place : seg.seqNum + seg.dataLen32 + 1 = c.recvSeqNum
  parsed : Parsed seg

variable {c : TcpConn} {seg : TcpSeg} {e : Event}

theorem FinAgain.not_inWindow (h : FinAgain c seg) (hw : WindowSet c) :
    tcpInWindow seg.seqNum seg.seqEnd c.recvSeqNum c.recvSeqEnd = false := by
  have hlast : seg.seqEnd - c.recvSeqNum = 0 - 1 := by
    rw [h.parsed.stop, ← h.place]
    grind
  have hfar : seqDist c.recvSeqNum seg.seqEnd = 2 ^ 32 - 1 := by
    unfold seqDist
    rw [hlast]
    rfl
  rw [← Bool.not_eq_true, tcpInWindow_iff, hw.dist, hfar]
  omega

theorem FinAgain.not_next (h : FinAgain c seg) : seg.seqNum ≠ c.recvSeqNum := by
  intro heq
  have hlen := h.parsed.dataLen32_lt
  have hwrap : seg.dataLen32 = 0 - 1 := by
    have hplace := h.place
    rw [← heq] at hplace
    grind
  have hfar : (0 - 1 : UInt32).toNat = 2 ^ 32 - 1 := rfl
  rw [hwrap, hfar] at hlen
  omega

theorem FinAgain.handleData (md : TcpData) {d : TcpConn} (h : FinAgain c seg) (hw : WindowSet c)
    (hr : d.toRecvSide = c.toRecvSide) :
    tcpHandleData md d seg = (d, if seg.dataLen ≠ 0 then FLAG_REPEAT else FLAG_ACK) := by
  have hrecv : d.recvSeqNum = c.recvSeqNum := congrArg RecvSide.recvSeqNum hr
  have hend : d.recvSeqEnd = c.recvSeqEnd := congrArg RecvSide.recvSeqEnd hr
  have hout : tcpHandleData md d seg = handleOutOfOrder d seg := by
    unfold tcpHandleData
    rw [hrecv, if_neg h.not_next]
  have hwin : tcpInWindow seg.seqNum seg.seqEnd d.recvSeqNum d.recvSeqEnd = false := by
    rw [hrecv, hend]
    exact h.not_inWindow hw
  have hconn : (handleOutOfOrder d seg).1 = d := by
    unfold handleOutOfOrder
    simp [hwin]
  have hflags := handleOutOfOrder_flags d seg
  rw [h.fin, if_pos rfl] at hflags
  rw [hout]
  exact Prod.ext hconn hflags

theorem FinAgain.step_eq (h : FinAgain c seg) (hw : WindowSet c) (ht : e.taken c seg) :
    step c e = if c.state = .closeWait then handleAckFlag e.md c seg
      else tcpHandleReply (handleAckFlag e.md c seg)
        (if seg.dataLen ≠ 0 then FLAG_REPEAT else FLAG_ACK) := by
  have hdata := h.handleData e.md hw (handleAckFlag_view .inert e.md c seg).recv
  have hst := (handleAckFlag_view .inert e.md c seg).state
  have hne : (if seg.dataLen ≠ 0 then FLAG_REPEAT else FLAG_ACK) ≠ 0 := by split <;> decide
  have hrst : ¬ hasFlag seg.flags FLAG_RST := by simp [h.rst]
  have shared : recvAckData e.md c seg = tcpHandleReply (handleAckFlag e.md c seg)
      (if seg.dataLen ≠ 0 then FLAG_REPEAT else FLAG_ACK) := by
    unfold recvAckData handleDataAndReply
    rw [if_neg hrst, hdata]
    exact if_pos hne
  obtain ⟨env, hact⟩ := Event.act_of_arriving ht.1
  rw [ht.step_eq hact]
  unfold tcpRecvState
  rcases h.done with hs | hs | hs | hs
  · rw [hs]
    exact shared
  · rw [hs]
    exact shared
  · rw [hs, if_pos rfl]
    exact if_neg hrst
  · -- the connection stays in LAST_ACK, so it is not stopped
    rw [hs] at hst ⊢
    simp only []
    unfold tcpRecvLastAck
    rw [if_neg hrst, hdata]
    simp only []
    have hopen : ¬ TcpState.lastAck = .closed := by decide
    have hwait : ¬ TcpState.lastAck = .closeWait := by decide
    rw [hst, if_neg hopen, if_pos hne, if_neg hwait]

theorem FinAgain.inert (h : FinAgain c seg) (hw : WindowSet c) (ht : e.taken c seg) :
    Inert c (step c e) := by
  have hack := handleAckFlag_view .inert e.md c seg
  rw [h.step_eq hw ht]
  split
  · exact hack
  · exact hack.trans (tcpHandleReply_view .inert _ _)

/-! ### The answer -/

structure AckScheduled (c : TcpConn) : Prop where
  flag : c.delayedFlag = true
  ack : hasFlag c.delayedAckFlags FLAG_ACK = true
  timer : c.toDelayedTimer = true ∨ c.toDelayedFlag = true

structure FinReacked (c : TcpConn) (e : Event) : Prop where
  acked : (∃ x ∈ newSegs c e, hasFlag x.2.flags FLAG_ACK = true ∧ x.2.ackNum = c.recvSeqNum) ∨
    AckScheduled (step c e)
  recv : (step c e).recvSeqNum = c.recvSeqNum
  deliver : delivered (step c e).out = delivered c.out

def FinCond (c : TcpConn) (seg : TcpSeg) : Prop :=
  if c.state = .closeWait then AckScheduled c
  else seg.dataLen ≠ 0 → c.delayedFlag = false →
    hasFlag c.ackSeg.flags FLAG_ACK = true ∧ c.ackSeg.ackNum = c.recvSeqNum

theorem AckScheduled.congr {d : TcpConn} (h : d.toAckState = c.toAckState) :
    AckScheduled d ↔ AckScheduled c := by
  constructor
  · rintro ⟨h1, h2, h3⟩
    rw [h] at h1 h2 h3
    exact ⟨h1, h2, h3⟩
  · rintro ⟨h1, h2, h3⟩
    rw [← h] at h1 h2 h3
    exact ⟨h1, h2, h3⟩

theorem tcpHandleReply_bare (h : DelayInv c) :
    if c.delayedFlag then AcksNow c (tcpHandleReply c FLAG_ACK)
    else AckScheduled (tcpHandleReply c FLAG_ACK) := by
  have hreply : tcpHandleReply c FLAG_ACK = replyAck c FLAG_ACK := rfl
  have hsame : hasFlag FLAG_ACK FLAG_ACK_SAME = false := by decide
  have hnow : hasFlag FLAG_ACK FLAG_ACK_NOW = false := by decide
  rw [hreply]
  unfold replyAck
  simp only [hsame, hnow, Bool.false_or, Bool.false_and, Bool.false_eq_true, if_false]
  by_cases hd : c.delayedFlag
  · simp only [hd, if_true]
    have hsend : AcksNow c { sendAckSeg { c with toDelayedTimer := false, toDelayedFlag := false }
        FLAG_ACK with delayedFlag := false } := sendAckSeg_acksNow h (by decide)
    rw [hd] at hsend
    exact hsend
  · simp only [hd, Bool.false_eq_true, if_false]
    have hack : hasFlag FLAG_ACK FLAG_ACK := by decide
    have harmed : timerOnceStart TCP_DELAYED_TO_DEFAULT := by decide
    exact ⟨rfl, hack, .inl harmed⟩

theorem AcksNow.current (h : AcksNow c (step c e)) :
    ∃ x ∈ newSegs c e, hasFlag x.2.flags FLAG_ACK ∧ x.2.ackNum = c.recvSeqNum := by
  obtain ⟨l, hl, hsaid, -⟩ := h.speaks.segs
  have hmem : (.ack, (step c e).ackSeg) ∈ newSegs c e := by
    rw [newSegs_eq h.sent]
    exact List.mem_singleton_self _
  have hone := hsaid _ (newSegs_eq hl ▸ hmem)
  refine ⟨(.ack, (step c e).ackSeg), hmem, h.ack, ?_⟩
  rw [hone.ackNum h.ack]
  exact h.recv

theorem FinAgain.answered_iff (h : FinAgain c seg) (hi : SayInv c) (hw : WindowSet c)
    (ht : e.taken c seg) :
    ((∃ x ∈ newSegs c e, hasFlag x.2.flags FLAG_ACK ∧ x.2.ackNum = c.recvSeqNum) ∨
      AckScheduled (step c e)) ↔ FinCond c seg := by
  have hmum := handleAckFlag_mum e.md c seg
  have hrecv : (handleAckFlag e.md c seg).recvSeqNum = c.recvSeqNum :=
    congrArg RecvSide.recvSeqNum (handleAckFlag_view .inert e.md c seg).recv
  have hflag : (handleAckFlag e.md c seg).delayedFlag = c.delayedFlag :=
    congrArg AckState.delayedFlag hmum.ack
  have hdelay := hi.delay.hush hmum.hush
  have heq := h.step_eq hw ht
  unfold FinCond
  by_cases hcw : c.state = .closeWait
  · rw [if_pos hcw] at heq ⊢
    have hnew : newSegs c e = [] := by
      apply newSegs_eq
      rw [heq, hmum.sent, List.append_nil]
    rw [hnew, heq, AckScheduled.congr hmum.ack]
    simp
  rw [if_neg hcw] at heq ⊢
  by_cases hlen : seg.dataLen = 0
  · -- a bare FIN is always answered
    rw [if_neg (by simp [hlen])] at heq
    have hreply := tcpHandleReply_bare hdelay
    rw [hflag, ← heq] at hreply
    simp only [hlen, ne_eq, not_true_eq_false, false_implies, iff_true]
    by_cases hd : c.delayedFlag
    · simp only [hd, if_true] at hreply
      exact .inl (hmum.hush.acksNow hreply hrecv).current
    · simp only [hd, Bool.false_eq_true, if_false] at hreply
      exact .inr hreply
  · rw [if_pos (by simp [hlen])] at heq
    have hreply := tcpHandleReply_repeat hdelay
    rw [hflag, ← heq] at hreply
    by_cases hd : c.delayedFlag
    · simp only [hd, if_true] at hreply
      refine ⟨fun _ _ hd' => ?_, fun _ => .inl (hmum.hush.acksNow hreply hrecv).current⟩
      rw [hd] at hd'
      cases hd'
    · -- `ack_seg` is sent as it is, and nothing is scheduled
      simp only [hd, Bool.false_eq_true, if_false] at hreply
      have hag := hmum.hush.acksAgain hreply hrecv
      have hnew : newSegs c e = [(.ack, c.ackSeg)] := newSegs_eq hag.sent
      have hoff : ¬ AckScheduled (step c e) := by
        intro hsched
        have hset := hsched.flag
        rw [hag.idle] at hset
        cases hset
      have hidle : c.delayedFlag = false := by simpa using hd
      rw [hnew]
      simp [hlen, hoff, hidle]

/-- **A repeated FIN** is acknowledged exactly if the condition holds. -/
theorem fin_reacked {c₀ : TcpConn} (h₀ : Initial c₀) {es : List Event}
    (hes : Lib.Steps step ParsedStep c₀ es) {e : Event} {seg : TcpSeg}
    (ht : e.taken (runConn c₀ es) seg) (h : FinAgain (runConn c₀ es) seg) :
    FinReacked (runConn c₀ es) e ↔ FinCond (runConn c₀ es) seg := by
  have hw := (runConn_recvInv h₀ hes).1.window
  have hi := (runConn_sayInv h₀ hes).1
  have hinert := h.inert hw ht
  obtain ⟨l, hl, hout⟩ := hinert.out
  have hnone : delivered (step (runConn c₀ es) e).out = delivered (runConn c₀ es).out := by
    rw [hout, delivered_append, delivered_sending hl, List.append_nil]
  rw [← h.answered_iff hi hw ht]
  exact ⟨fun hf => hf.acked, fun ha => ⟨ha, congrArg RecvSide.recvSeqNum hinert.recv, hnone⟩⟩

def sampleFin (n : Nat) : TcpSeg := { sampleBytes 501 n with flags := FLAG_FIN ||| FLAG_ACK }

/-- Both sides have closed, and the peer repeats its bare FIN. -/
theorem fin_reacked_lastAck :
    let c := runConn sampleConn
      (sampleOpen ++ [sampleRecv (sampleFin 0), sampleEvent (.close sampleFcf)])
    c.state = .lastAck ∧ FinReacked c (sampleRecv (sampleFin 0)) := by
  intro c
  have hsteps : Lib.Steps step ParsedStep sampleConn
      (sampleOpen ++ [sampleRecv (sampleFin 0), sampleEvent (.close sampleFcf)]) := by
    decide +kernel
  have hs : c.state = .lastAck := by decide +kernel
  have ht : Event.taken c (sampleRecv (sampleFin 0)) (sampleFin 0) :=
    ⟨rfl, by decide +kernel, .inl rfl⟩
  have hagain : FinAgain c (sampleFin 0) :=
    ⟨.inr (.inr (.inr hs)), by decide, by decide, by decide +kernel, by decide⟩
  have hcond : FinCond c (sampleFin 0) := by
    unfold FinCond
    rw [hs, if_neg (by decide)]
    exact fun hne => absurd rfl hne
  exact ⟨hs, (fin_reacked (.fresh sampleData ⟨1, 10, 2, 20⟩) hsteps ht hagain).mpr hcond⟩

def closeWaitAcked : List Event :=
  sampleOpen ++ [sampleRecv (sampleFin 0), sampleEvent .delayedFire, sampleRound, sampleRound]

def lastAckRiding : List Event :=
  sampleOpen ++ [sampleRecv (sampleFin 10), sampleEvent (.close sampleFcf)]

/-- In CLOSE_WAIT the repeated FIN is not answered; in LAST_ACK a repeated FIN with data is
    answered by a header that was never filled in. -/
theorem fin_not_reacked :
    let c := runConn sampleConn closeWaitAcked
    let d := runConn sampleConn lastAckRiding
    (Lib.Steps step ParsedStep sampleConn closeWaitAcked ∧ FinAgain c (sampleFin 0) ∧
      newSegs c (sampleRecv (sampleFin 0)) = [] ∧ ¬ FinReacked c (sampleRecv (sampleFin 0))) ∧
    Lib.Steps step ParsedStep sampleConn lastAckRiding ∧ FinAgain d (sampleFin 10) ∧
      (newSegs d (sampleRecv (sampleFin 10))).map (fun x => (x.2.flags, x.2.ackNum)) = [(0, 0)] ∧
      ¬ FinReacked d (sampleRecv (sampleFin 10)) := by
  intro c d
  constructor
  · have hagain : FinAgain c (sampleFin 0) :=
      ⟨.inr (.inr (.inl (by decide +kernel))), by decide, by decide, by decide +kernel, by decide⟩
    have hnew : newSegs c (sampleRecv (sampleFin 0)) = [] := by decide +kernel
    refine ⟨by decide +kernel, hagain, hnew, ?_⟩
    rintro ⟨⟨x, hx, -⟩ | hsched, -, -⟩
    · rw [hnew] at hx
      cases hx
    · exact absurd hsched.flag (by decide +kernel)
  · have hagain : FinAgain d (sampleFin 10) :=
      ⟨.inr (.inr (.inr (by decide +kernel))), by decide, by decide, by decide +kernel, by decide⟩
    have hnew : ∀ x ∈ newSegs d (sampleRecv (sampleFin 10)),
        hasFlag x.2.flags FLAG_ACK = false := by decide +kernel
    refine ⟨by decide +kernel, hagain, by decide +kernel, ?_⟩
    rintro ⟨⟨x, hx, hack, -⟩ | hsched, -, -⟩
    · rw [hnew x hx] at hack
      cases hack
    · exact absurd hsched.flag (by decide +kernel)

end FinsStack.Tcp
