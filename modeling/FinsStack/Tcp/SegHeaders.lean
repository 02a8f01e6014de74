import FinsStack.Tcp.Reassembly
import FinsStack.Tcp.SegCalls

/-!
# The header of every segment sent

`tcp_seg_update` gives a segment a data offset that counts its options, and the number
next expected whenever the flag ACK is set.  Everything a connection says goes through it
(`Speaks`), with two exceptions.  A segment that fits no handshake is answered by a reset
that acknowledges that segment and not `recv_seq_num`.  And a data segment out of order is
answered by `ack_seg` as it last went out (`FLAG_ACK_SAME`), unless an acknowledgment is
delayed: but the handshake never fills `ack_seg` in, and an acknowledgment that rides on a
data segment leaves it at the old number.  In CLOSE_WAIT such a segment is not answered
at all.
-/

namespace FinsStack.Tcp

open List Lib

/-! ### Segments of the stream

A segment of new data is kept on `send_queue` and goes out again from there; only its
header is made anew. -/

def SegKind.OfStream (k : SegKind) : Prop := k = .fresh ∨ k = .resend

/-- Every segment on `send_queue`, and every one that was sent from there, satisfies `Q`. -/
structure Conveys (Q : TcpSeg → Prop) (c : TcpConn) : Prop where
  queued : ∀ n ∈ c.sendQueue.nodes, Q n.data
  sent : ∀ x ∈ c.sent, x.1.OfStream → Q x.2

variable {c c₀ d : TcpConn} {α : Type} {s seg : TcpSeg} {e : Event}

theorem mem_sent {x : SegKind × TcpSeg} : x ∈ c.sent ↔ .seg x.1 x.2 ∈ c.out := by
  unfold TcpConn.sent
  rw [mem_filterMap]
  constructor
  · rintro ⟨o, ho, hx⟩
    cases o <;> cases hx
    exact ho
  · exact fun h => ⟨_, h, rfl⟩

theorem onStream_of_ofStream {x : SegKind × TcpSeg} (h : x.1.OfStream) :
    OnStream (.seg x.1 x.2) := by
  obtain ⟨k, s⟩ := x
  rcases h with rfl | rfl <;> trivial

section

variable {Q : TcpSeg → Prop} {c c' : TcpConn}

theorem Conveys.added (h : Conveys Q c) (hq : ∀ n ∈ c'.sendQueue.nodes, Q n.data) {l : List Out}
    (ho : c'.out = c.out ++ l) (hl : ∀ k s, .seg k s ∈ l → k.OfStream → Q s) : Conveys Q c' := by
  refine ⟨hq, ?_⟩
  intro x hx hk
  rw [mem_sent, ho] at hx
  rcases mem_append.mp hx with hx | hx
  · exact h.sent x (mem_sent.mpr hx) hk
  · exact hl x.1 x.2 hx hk

theorem Conveys.quiet (h : Conveys Q c) (hq : c'.sendQueue = c.sendQueue) (ho : QuietOut c c') :
    Conveys Q c' := by
  obtain ⟨l, hl, hout⟩ := ho
  apply h.added (hq ▸ h.queued) hout
  intro k s hs hk
  exact absurd (onStream_of_ofStream (x := (k, s)) hk) (hl _ hs)

theorem Conveys.of_writeMove (h : Conveys Q c) (hm : WriteMove c c') : Conveys Q c' := by
  obtain ⟨w, pe, m, n, l, -, hl, rfl⟩ := hm
  refine h.added ?_ (l := l) rfl ?_
  · exact h.queued
  · intro k s hs
    exact absurd (hl _ hs) id

theorem Conveys.congr (h : Conveys Q c) (hq : c'.sendQueue = c.sendQueue) (ho : c'.out = c.out) :
    Conveys Q c' := h.quiet hq (.of_eq ho)

variable (hQ : ∀ s f k w o ol, Q s → Q (reheaded s f k w o ol))
include hQ

theorem Conveys.resend (h : Conveys Q c) {n : TcpNode TcpSeg} (hr : Resend c n c') :
    Conveys Q c' := by
  obtain ⟨f, k, w, o, ol, hsend, hout⟩ := hr.segment
  have hn : Q (reheaded n.data f k w o ol) := hQ _ f k w o ol (h.queued n hr.mem)
  have hq : c'.sendQueue = tcpQueueSet c.sendQueue n.addr (reheaded n.data f k w o ol) :=
    congrArg SendSide.sendQueue hsend
  apply h.added ?_ hout
  · intro k' s hs _
    rw [mem_singleton] at hs
    cases hs
    exact hn
  · rw [hq]
    intro m hm
    obtain ⟨m', hm', rfl⟩ := mem_map.mp hm
    split
    · exact hn
    · exact h.queued m' hm'

theorem Conveys.move (h : Conveys Q c) (hm : SendMove c c') : Conveys Q c' := by
  cases hm with
  | same hs | close hs | stop hs => exact h.quiet (congrArg SendSide.sendQueue hs.send) hs.out
  | early hs =>
    refine h.quiet ?_ hs.out
    rcases hs.send with hsame | ⟨rand, hsame⟩
    · rw [hsame]
    · rw [hsame]
  | opened seg hs =>
    refine h.quiet ?_ hs.out
    rw [hs.send]
  | data hd => exact h.quiet (congrArg SendSide.sendQueue hd.send) hd.out
  | fin sep | gbn g => exact h.congr rfl rfl
  | timeout n hr | fast n hr | next n hr => exact h.resend hQ hr
  | write | writeEarly | refuse | interrupt | requestFire => exact h.of_writeMove (by simp)

theorem Conveys.fresh (h : Conveys Q c) (hf : FreshSend c seg c')
    (hnew : Q (cutSegment c (nextDataLen c)).1) : Conveys Q c' := by
  obtain ⟨f, k, w, o, ol, rfl⟩ := hf.segment
  obtain ⟨w', pe, l, hl, hcut⟩ := cutSegment_frame c (nextDataLen c)
  obtain ⟨l', hl', hout⟩ := hf.out
  have hseg := hQ _ f k w o ol hnew
  rw [hcut, append_assoc, append_assoc] at hout
  apply h.added ?_ hout
  · intro k' s hs hk
    rcases mem_append.mp hs with hs | hs
    · exact absurd (hl _ hs) id
    rcases mem_append.mp hs with hs | hs
    · rw [mem_singleton] at hs
      cases hs
      exact hseg
    · exact absurd (onStream_of_ofStream (x := (k', s)) hk) (hl' _ hs).not_onStream
  · have hq := congrArg SendSide.sendQueue hf.send
    rw [hq]
    exact forall_mem_concat h.queued hseg

end

theorem tcpQueueRemoveFront_subset (q : TcpQueue α) :
    ∀ n ∈ (tcpQueueRemoveFront q).nodes, n ∈ q.nodes := by
  unfold tcpQueueRemoveFront
  split
  · exact fun _ h => h
  · rename_i hq
    rw [hq]
    exact fun _ h => mem_cons_of_mem _ h

theorem tcpQueueRemoveAll_subset (ns : List (TcpNode α)) (q : TcpQueue α) :
    ∀ n ∈ (tcpQueueRemoveAll ns q).nodes, n ∈ q.nodes := by
  induction ns generalizing q with
  | nil => exact fun _ h => h
  | cons m ns ih => exact fun n h => tcpQueueRemoveFront_subset q n (ih _ n h)

theorem tcpQueueRemoveUntil_subset (a : UInt32) (ns : List (TcpNode α)) (q : TcpQueue α) :
    ∀ n ∈ (tcpQueueRemoveUntil a ns q).nodes, n ∈ q.nodes := by
  induction ns generalizing q with
  | nil => exact fun _ h => h
  | cons m ns ih =>
    unfold tcpQueueRemoveUntil
    split
    · exact fun _ h => h
    · exact fun n h => tcpQueueRemoveFront_subset q n (ih _ n h)

theorem Conveys.ack {Q : TcpSeg → Prop} {c' : TcpConn} (h : Conveys Q c) (ha : AckStep c seg c') :
    Conveys Q c' := by
  cases ha with
  | outside => exact h
  | unsent | duplicate => exact h.congr rfl rfl
  | all => exact ⟨fun n hn => h.queued n (tcpQueueRemoveAll_subset _ _ n hn), h.sent⟩
  | upTo => exact ⟨fun n hn => h.queued n (tcpQueueRemoveUntil_subset _ _ _ n hn), h.sent⟩
  | fin =>
    apply h.added (fun n hn => h.queued n (tcpQueueRemoveAll_subset _ _ n hn)) (l := [.finAck]) rfl
    intro k s hs
    rw [mem_singleton] at hs
    cases hs

/-- **What no refresh of a header changes, a run keeps**, if new segments have it. -/
theorem step_conveys {Q : TcpSeg → Prop} (hQ : ∀ s f k w o ol, Q s → Q (reheaded s f k w o ol))
    (hnew : SendsNew e.md c → Q (cutSegment c (nextDataLen c)).1) (h : Conveys Q c) :
    Conveys Q (step c e) := by
  apply step_send_invariant (fun c c' hm h => h.move hQ hm) ?_ ?_ h
  · exact fun _ seg _ hs hfresh h => h.fresh hQ hfresh (hnew hs)
  · exact fun seg d _ _ ha h => h.ack ha

theorem SendStart.conveys (h : SendStart c) (Q : TcpSeg → Prop) : Conveys Q c := by
  refine ⟨?_, ?_⟩
  · rw [h.queue]
    intro n hn
    cases hn
  · intro x hx hk
    exact absurd (onStream_of_ofStream hk) (h.out _ (mem_sent.mp hx))

theorem runConn_conveys (h₀ : Initial c₀) (es : List Event) :
    Conveys (fun s => 0 ≤ s.dataLen) (runConn c₀ es) := by
  apply run_invariant (I := Conveys fun s => 0 ≤ s.dataLen) ?_
    ((initial_sendStart h₀).conveys _)
  intro c e h
  apply step_conveys (fun _ _ _ _ _ _ hs => hs) ?_ h
  exact fun _ => Int.natCast_nonneg _

/-! ### The cached acknowledgment -/

/-- What is known about `ack_seg`: it has no data, and once it was sent its offset is right. -/
structure AckSegOk (c : TcpConn) : Prop where
  bare : c.ackSeg.dataLen = 0
  offset : hasFlag c.ackSeg.flags FLAG_ACK = true → OffsetOk c.ackSeg

structure SayInv (c : TcpConn) : Prop where
  delay : DelayInv c
  ackSeg : AckSegOk c

theorem Speaks.sayInv (h : Speaks c d) (hi : SayInv c) : SayInv d := by
  refine ⟨hi.delay.flow h.ackFlow, ?_, ?_⟩
  · have hbody := congrArg (fun b => b.2.1) h.ackBody
    exact hbody.trans hi.ackSeg.bare
  · obtain ⟨l, -, hsaid, -, hack | hack⟩ := h.segs
    · rw [hack]
      exact hi.ackSeg.offset
    · exact fun _ => (hsaid _ hack).offset

theorem Speaks.lengths (h : Speaks c d) (hi : SayInv c)
    (hlen : Conveys (fun s => 0 ≤ s.dataLen) d) :
    ∃ l, d.sent = c.sent ++ l ∧ ∀ x ∈ l, Said d x.1 x.2 ∧ 0 ≤ x.2.dataLen := by
  obtain ⟨l, hl, hsaid, hbody, -⟩ := h.segs
  refine ⟨l, hl, ?_⟩
  rintro ⟨k, s⟩ hx
  have hs := hsaid _ hx
  have hmem : (k, s) ∈ d.sent := by
    rw [hl]
    exact mem_append_right _ hx
  refine ⟨hs, ?_⟩
  cases k with
  | fresh => exact hlen.sent _ hmem (.inl rfl)
  | resend => exact hlen.sent _ hmem (.inr rfl)
  | ack =>
    have hsame : s.dataLen = c.ackSeg.dataLen := congrArg (fun b => b.2.1) (hbody _ hx rfl)
    rw [hsame, hi.ackSeg.bare]
  | control => rw [hs.bare rfl]

theorem SayInv.congr (h : SayInv c) (hseg : d.ackSeg = c.ackSeg) (hflow : AckFlow c d) :
    SayInv d := by
  refine ⟨h.delay.flow hflow, ?_, ?_⟩
  · rw [hseg]
    exact h.ackSeg.bare
  · rw [hseg]
    exact h.ackSeg.offset

theorem RecvInv.noneDue (h : RecvInv c) : NoneDue c := by
  intro n hn heq
  have hpos := h.ahead n hn
  rw [nodeLo, heq, seqDist, UInt32.sub_self] at hpos
  exact absurd hpos (Nat.lt_irrefl 0)

theorem Heard.sayInv {c' : TcpConn} (h : Heard c seg c') (hi : SayInv c) : SayInv c' := by
  cases h with
  | again _ _ _ h | closeWait _ h => exact hi.congr h.ackSeg h.ackFlow
  | now _ _ _ h => exact h.speaks.sayInv hi
  | reset _ h =>
    rw [h]
    exact hi.congr rfl (.inl ⟨rfl, id⟩)
  | speaks _ _ _ h => exact h.sayInv hi

theorem step_sayInv (e : Event) (h : SayInv c) (hnone : NoneDue c) : SayInv (step c e) := by
  by_cases ht : ∃ seg, e.taken c seg
  · obtain ⟨seg, ht⟩ := ht
    exact (step_heard h.delay hnone ht).sayInv h
  · exact (step_speaks h.delay fun seg hs => ht ⟨seg, hs⟩).sayInv h

theorem initial_speaks (h : Initial c₀) :
    ∃ c, SayInv c ∧ c.sent = [] ∧ c.ackSeg.flags = 0 ∧ c.ackSeg.addr = c₀.addr ∧ Speaks c c₀ := by
  have hnew : ∀ c : TcpConn, c.delayedAckFlags = 0 → ¬ AckPending c → c.ackSeg.dataLen = 0 →
      c.ackSeg.flags = 0 → SayInv c := by
    intro c hf hp hlen hflags
    refine ⟨.inr ⟨hf, hp⟩, hlen, ?_⟩
    rw [hflags, hasFlag_zero]
    intro h
    cases h
  cases h with
  | fresh md a =>
    refine ⟨_, hnew _ rfl ?_ rfl rfl, rfl, rfl, rfl, (Hush.refl _).speaks⟩
    rintro (h | h | h) <;> cases h
  | child md parent seg rand =>
    generalize hc : takeSyn (startSend
      { (tcpConnCreate md ⟨seg.dstIp, seg.dstPort, seg.srcIp, seg.srcPort⟩).setState .synRecv with
        activeOpen := false, pollEvents := parent.pollEvents } rand) seg = c
    have hi : SayInv c := by
      rw [← hc]
      refine hnew _ rfl ?_ rfl rfl
      rintro (h | h | h) <;> cases h
    have hchild : tcpListenChild md parent seg rand =
        { sendControl (tcpProcessOptions c seg) (FLAG_SYN ||| FLAG_ACK) with
          timeout := TCP_GBN_TO_MIN
          toGbnTimer := timerOnceStart TCP_GBN_TO_MIN
          toGbnFlag := false } := by
      rw [← hc]
      rfl
    rw [hchild]
    have haddr : (sendControl (tcpProcessOptions c seg) (FLAG_SYN ||| FLAG_ACK)).addr = c.addr := by
      obtain ⟨o, -, -, hopt⟩ := tcpProcessOptions_frame c seg
      rw [(sendControl_after _ _).addr, hopt]
    refine ⟨c, hi, ?_, ?_, ?_, answerSyn_speaks hi.delay (tcpProcessOptions_mum c seg).hush
      (timerOnceStart TCP_GBN_TO_MIN) TCP_GBN_TO_MIN⟩
    · rw [← hc]
      rfl
    · rw [← hc]
      rfl
    · rw [haddr, ← hc]
      rfl

theorem initial_said (h : Initial c₀) :
    SayInv c₀ ∧ ∀ x ∈ c₀.sent, Said c₀ x.1 x.2 ∧ 0 ≤ x.2.dataLen := by
  obtain ⟨c, hi, hempty, -, -, hsay⟩ := initial_speaks h
  obtain ⟨l, hl, hsaid⟩ := hsay.lengths hi ((initial_sendStart h).conveys fun s => 0 ≤ s.dataLen)
  refine ⟨hsay.sayInv hi, ?_⟩
  rw [hl, hempty]
  exact hsaid

theorem runConn_delayInv (h₀ : Initial c₀) (es : List Event) : DelayInv (runConn c₀ es) :=
  run_invariant (fun _ e h => step_delayInv e h) (initial_said h₀).1.delay es

theorem runConn_sayInv (h₀ : Initial c₀) {es : List Event} (hes : Steps step ParsedStep c₀ es) :
    SayInv (runConn c₀ es) ∧ NoneDue (runConn c₀ es) := by
  have hinv := run_invariant_of_steps
    (I := fun c => SayInv c ∧ RecvInv c ∧ NothingEarly c)
    (fun c e h hok => ⟨step_sayInv e h.1 h.2.1.noneDue, step_recvInv h.2.1 h.2.2 hok,
      step_nothingEarly c e h.2.2⟩)
    ⟨(initial_said h₀).1, (initial_recvInv h₀).1, fun _ => (initial_recvInv h₀).2⟩ hes
  exact ⟨hinv.1, hinv.2.1.noneDue⟩

/-! ### Headers -/

def Synced (s : TcpState) : Prop := Handling s ∨ s = .closeWait

def pduLength (s : TcpSeg) : Int := s.dataLen + 4 * dataOffset s

/-- **The header of a segment sent by a call that leads from `c` to `d`.**  The call does
    not change `recv_seq_num` once it has sent a segment. -/
structure HeaderOk (c d : TcpConn) (s : TcpSeg) : Prop where
  offset : OffsetOk s
  pdu : 20 ≤ pduLength s
  ack : Synced c.state ∨ Synced d.state → hasFlag s.flags FLAG_RST = false →
    hasFlag s.flags FLAG_ACK = true
  ackNum : hasFlag s.flags FLAG_ACK = true → s.ackNum = d.recvSeqNum

def newSegs (c : TcpConn) (e : Event) : List (SegKind × TcpSeg) :=
  (step c e).sent.drop c.sent.length

structure SegmentsOk (c : TcpConn) (e : Event) : Prop where
  headers : ∀ x ∈ newSegs c e, HeaderOk c (step c e) x.2
  answered : ∀ seg, e.taken c seg → Synced c.state → OutOfOrder c seg →
    ∃ x ∈ newSegs c e, hasFlag x.2.flags FLAG_ACK = true ∧ x.2.ackNum = (step c e).recvSeqNum

structure SegCond (c : TcpConn) (e : Event) : Prop where
  reset : ∀ seg, e.taken c seg → Resets c seg → hasFlag seg.flags FLAG_ACK = false →
    seg.seqEnd = c.recvSeqNum
  current : ∀ seg, e.taken c seg → Synced c.state → OutOfOrder c seg →
    c.state ≠ .closeWait ∧ (c.delayedFlag = true ∨
      hasFlag c.ackSeg.flags FLAG_ACK = true ∧ c.ackSeg.ackNum = c.recvSeqNum)

theorem pduLength_of_offset (h : OffsetOk s) (hlen : 0 ≤ s.dataLen) : 20 ≤ pduLength s := by
  obtain ⟨hoff, hopt⟩ := h
  unfold pduLength
  omega

theorem step_not_synSent (e : Event) (hs : Synced c.state) : (step c e).state ≠ .synSent := by
  have hnot : ∀ s, Synced s → s ≠ .synSent ∧ s ≠ .synRecv ∧ s ≠ .closed ∧ s ≠ .listen := by
    intro s h
    cases s <;> simp [Synced, Handling, Receiving] at h ⊢
  obtain ⟨h1, h2, h3, h4⟩ := hnot _ hs
  cases step_view c e with
  | inert h | credit _ _ _ _ h =>
    rw [h.state]
    exact h1
  | move new stop c1 hrun he h₁ h₂ =>
    rw [h₂.state]
    intro hnew
    have hnew' : new = .synSent := hnew
    rw [hnew'] at he
    generalize c.state = old at he h1 h2 h3 h4
    cases he with
    | connectClosed => exact h3 rfl
    | connectListen => exact h4 rfl
    | synAgain => exact h2 rfl
  | opening new d he =>
    generalize c.state = old at he h1 h2
    cases he with
    | synSent | simultaneous => exact absurd rfl h1
    | synRecv => exact absurd rfl h2
  | restart d hs' => exact absurd hs' h2
  | data seg _ _ hh _ h =>
    intro hbad
    have hst := handled_states e.md seg hh h
    rw [hbad] at hst
    simp [Receiving, PeerDone] at hst

theorem newSegs_eq {l : List (SegKind × TcpSeg)} (h : (step c e).sent = c.sent ++ l) :
    newSegs c e = l := by
  rw [newSegs, h, drop_left]

theorem Said.headerOk {k : SegKind} (h : Said d k s) (hlen : 0 ≤ s.dataLen)
    (hsyn : Synced c.state → d.state ≠ .synSent) : HeaderOk c d s := by
  refine ⟨h.offset, pduLength_of_offset h.offset hlen, ?_, h.ackNum⟩
  rintro (hs | hs) -
  · exact h.ack (hsyn hs)
  · apply h.ack
    intro hbad
    simp [hbad, Synced, Handling, Receiving] at hs

theorem Speaks.headers (h : Speaks c (step c e)) (hi : SayInv c)
    (hlen : Conveys (fun s => 0 ≤ s.dataLen) (step c e)) :
    ∀ x ∈ newSegs c e, HeaderOk c (step c e) x.2 := by
  obtain ⟨l, hl, hsaid⟩ := h.lengths hi hlen
  rw [newSegs_eq hl]
  intro x hx
  exact (hsaid x hx).1.headerOk (hsaid x hx).2 (step_not_synSent e)

theorem Resets.not_synced (h : Resets c seg) : ¬ Synced c.state := by
  obtain ⟨-, -, ⟨hs, -⟩ | ⟨hs, -⟩⟩ := h <;> simp [hs, Synced, Handling, Receiving]

theorem offsetOk_of_flags {f : UInt16} (hs : s.flags = f) (ho : s.optLen = 0)
    (hf : (f &&& FLAG_DATAOFFSET) >>> 12 = 5) : OffsetOk s := by
  unfold OffsetOk dataOffset
  rw [hs, hf, ho]
  exact ⟨rfl, Int.le_refl 0⟩

theorem resetFor_ack (hr : Resets c seg) :
    OffsetOk (resetFor c seg) ∧ (resetFor c seg).dataLen = 0 ∧
      (hasFlag (resetFor c seg).flags FLAG_ACK ↔ hasFlag seg.flags FLAG_ACK = false) ∧
      (hasFlag seg.flags FLAG_ACK = false → (resetFor c seg).ackNum = seg.seqEnd) := by
  have hsyn : hasFlag seg.flags FLAG_SYN → hasFlag seg.flags FLAG_ACK := by
    obtain ⟨-, -, ⟨-, h⟩ | ⟨-, h, -⟩⟩ := hr
    · exact fun hs => (h hs).1
    · intro hs
      rw [h] at hs
      cases hs
  have hempty : (resetFor c seg).optLen = 0 ∧ (resetFor c seg).dataLen = 0 := by
    unfold resetFor rstReply
    split_ifs <;> exact ⟨rfl, rfl⟩
  have plain : (resetFor c seg).flags = FLAG_RST ||| 0x5000 →
      OffsetOk (resetFor c seg) ∧ hasFlag (resetFor c seg).flags FLAG_ACK = false := by
    intro hf
    refine ⟨offsetOk_of_flags hf hempty.1 (by decide), ?_⟩
    rw [hf]
    decide
  by_cases hack : hasFlag seg.flags FLAG_ACK
  · have hf : (resetFor c seg).flags = FLAG_RST ||| 0x5000 := by
      unfold resetFor rstReply
      split_ifs <;> rfl
    exact ⟨(plain hf).1, hempty.2, by simp [(plain hf).2, hack], by simp [hack]⟩
  · have hreply : resetFor c seg = rstReply seg := if_neg fun hs => hack (hsyn hs)
    have hf : (resetFor c seg).flags = FLAG_RST ||| FLAG_ACK ||| 0x5000 ∧
        (resetFor c seg).ackNum = seg.seqEnd := by
      rw [hreply, rstReply, if_neg hack]
      exact ⟨rfl, rfl⟩
    refine ⟨offsetOk_of_flags hf.1 hempty.1 (by decide), hempty.2, ?_, fun _ => hf.2⟩
    rw [hf.1]
    simp only [hack, iff_true]
    decide

theorem emit_seg_sent (c : TcpConn) (k : SegKind) (s : TcpSeg) :
    (c.emit (.seg k s)).sent = c.sent ++ [(k, s)] := by
  have hout : (c.emit (.seg k s)).out = c.out ++ [.seg k s] := rfl
  exact sent_append hout

theorem SegmentsOk.cond (hi : SayInv c) (hnone : NoneDue c) (h : SegmentsOk c e) : SegCond c e := by
  refine ⟨?_, ?_⟩
  · intro seg ht hr hack
    obtain ⟨-, -, hflag, hnum⟩ := resetFor_ack hr
    cases step_heard hi.delay hnone ht with
    | again hs | now hs => exact absurd hr hs.not_resets
    | reset _ heq =>
      have hnew : newSegs c e = [(.control, resetFor c seg)] := by
        apply newSegs_eq
        rw [heq]
        exact emit_seg_sent c _ _
      have hhead := h.headers (.control, resetFor c seg) (by rw [hnew]; exact mem_singleton_self _)
      have hrecv := hhead.ackNum (hflag.mpr hack)
      rw [heq, hnum hack] at hrecv
      exact hrecv
    | closeWait hs => exact absurd (.inr hs) hr.not_synced
    | speaks _ _ hr' => exact absurd hr hr'
  · intro seg ht hsync hout
    obtain ⟨x, hx, hack, hnum⟩ := h.answered seg ht hsync hout
    cases step_heard hi.delay hnone ht with
    | again hs _ _ hag =>
      rw [newSegs_eq hag.sent, mem_singleton] at hx
      rw [hx] at hack hnum
      rw [hag.recv] at hnum
      exact ⟨hs.not_closeWait, .inr ⟨hack, hnum⟩⟩
    | now hs _ hd => exact ⟨hs.not_closeWait, .inl hd⟩
    | reset hr => exact absurd hsync hr.not_synced
    | closeWait hs hh =>
      rw [newSegs_eq (by rw [hh.sent, append_nil])] at hx
      cases hx
    | speaks hns hcw =>
      rcases hsync with hs | hs
      · exact absurd ⟨hs, hout⟩ hns
      · exact absurd hs hcw

theorem SegCond.segmentsOk (hi : SayInv c) (hnone : NoneDue c)
    (hlen : Conveys (fun s => 0 ≤ s.dataLen) (step c e)) (h : SegCond c e) : SegmentsOk c e := by
  by_cases ht : ∃ seg, e.taken c seg
  · obtain ⟨seg, ht⟩ := ht
    -- only one segment arrives
    have honly : ∀ seg', e.taken c seg' → seg' = seg := by
      intro seg' ht'
      exact Option.some.inj (ht'.1.symm.trans ht.1)
    cases step_heard hi.delay hnone ht with
    | again hs hout hd hag =>
      obtain ⟨-, hdel | ⟨hack, hnum⟩⟩ := h.current seg ht (.inl hs) hout
      · rw [hd] at hdel
        cases hdel
      have hnew : newSegs c e = [(.ack, c.ackSeg)] := newSegs_eq hag.sent
      have hoff := hi.ackSeg.offset hack
      have hrecv : c.ackSeg.ackNum = (step c e).recvSeqNum := by rw [hag.recv, hnum]
      refine ⟨?_, fun _ _ _ _ => ⟨_, by rw [hnew]; exact mem_singleton_self _, hack, hrecv⟩⟩
      intro x hx
      rw [hnew, mem_singleton] at hx
      rw [hx]
      refine ⟨hoff, pduLength_of_offset hoff ?_, fun _ _ => hack, fun _ => hrecv⟩
      rw [hi.ackSeg.bare]
    | now _ _ _ hnow =>
      have hnew : newSegs c e = [(.ack, (step c e).ackSeg)] := newSegs_eq hnow.sent
      have hmem : (.ack, (step c e).ackSeg) ∈ newSegs c e := by
        rw [hnew]
        exact mem_singleton_self _
      have hheaders := hnow.speaks.headers hi hlen
      exact ⟨hheaders, fun _ _ _ _ => ⟨_, hmem, hnow.ack, (hheaders _ hmem).ackNum hnow.ack⟩⟩
    | reset hr heq =>
      obtain ⟨hoff, hbare, hflag, hnum⟩ := resetFor_ack hr
      have hnew : newSegs c e = [(.control, resetFor c seg)] := by
        apply newSegs_eq
        rw [heq]
        exact emit_seg_sent c _ _
      refine ⟨?_, fun _ _ hsync => absurd hsync hr.not_synced⟩
      intro x hx
      rw [hnew, mem_singleton] at hx
      rw [hx]
      refine ⟨hoff, pduLength_of_offset hoff (by rw [hbare]), ?_, ?_⟩
      · rw [heq]
        rintro (hsync | hsync)
        · exact absurd hsync hr.not_synced
        · exact absurd hsync hr.not_synced
      · intro hack
        have hnone := hflag.mp hack
        rw [heq, hnum hnone]
        exact h.reset seg ht hr hnone
    | closeWait hs hh =>
      have hnew : newSegs c e = [] := newSegs_eq (by rw [hh.sent, append_nil])
      refine ⟨?_, ?_⟩
      · rw [hnew]
        intro x hx
        cases hx
      · intro seg' ht' hsync hout
        exact absurd hs (h.current seg' ht' hsync hout).1
    | speaks hns hcw _ hsp =>
      refine ⟨hsp.headers hi hlen, ?_⟩
      intro seg' ht' hsync hout
      rw [honly seg' ht'] at hout
      rcases hsync with hs | hs
      · exact absurd ⟨hs, hout⟩ hns
      · exact absurd hs hcw
  · have hsp := step_speaks hi.delay fun seg hs => ht ⟨seg, hs⟩
    exact ⟨hsp.headers hi hlen, fun seg hs => absurd ⟨seg, hs⟩ ht⟩

/-- **Headers over a run** are right, and data out of order is answered, exactly if the arriving
    segment meets the condition. -/
theorem segments_headed {c₀ : TcpConn} (h₀ : Initial c₀) {es : List Event}
    (hes : Steps step ParsedStep c₀ es) (e : Event) :
    (∀ x ∈ c₀.sent, HeaderOk c₀ c₀ x.2) ∧
      (SegmentsOk (runConn c₀ es) e ↔ SegCond (runConn c₀ es) e) := by
  obtain ⟨hi, hnone⟩ := runConn_sayInv h₀ hes
  have hlen := step_conveys (e := e) (fun _ _ _ _ _ _ hs => hs)
    (fun _ => Int.natCast_nonneg _) (runConn_conveys h₀ es)
  refine ⟨?_, fun h => h.cond hi hnone, fun h => h.segmentsOk hi hnone hlen⟩
  intro x hx
  obtain ⟨hsaid, hpos⟩ := (initial_said h₀).2 x hx
  apply hsaid.headerOk hpos
  intro hs hbad
  simp [hbad, Synced, Handling, Receiving] at hs

/-- Ten bytes arrive in order and their acknowledgment is delayed; then a segment arrives out
    of order. -/
theorem segments_headed_delayed :
    let c := runConn sampleConn (sampleOpen ++ [sampleRecv (sampleBytes 501 10)])
    let e := sampleRecv (sampleBytes 600 10)
    (newSegs c e).map (fun x => (dataOffset x.2, x.2.ackNum)) = [(5, 511)] ∧ SegmentsOk c e := by
  intro c e
  refine ⟨by decide +kernel, ?_⟩
  have hsteps : Steps step ParsedStep sampleConn
      (sampleOpen ++ [sampleRecv (sampleBytes 501 10)]) := by decide +kernel
  apply (segments_headed (.fresh sampleData ⟨1, 10, 2, 20⟩) hsteps e).2.mpr
  have honly : ∀ seg, e.taken c seg → seg = sampleBytes 600 10 :=
    fun seg ht => (Option.some.inj ht.1).symm
  refine ⟨?_, ?_⟩
  · intro seg ht hr
    rw [honly seg ht] at hr
    exact absurd hr (by decide +kernel)
  · intro seg ht _ _
    exact ⟨by decide +kernel, .inl (by decide +kernel)⟩

/-- Right after the handshake a data segment out of order is answered by an empty header. -/
theorem ack_seg_never_filled :
    let c := runConn sampleConn sampleOpen
    let e := sampleRecv (sampleBytes 600 10)
    (∀ e' ∈ sampleOpen ++ [e], ∀ seg ∈ e'.arriving, Parsed seg) ∧ c.state = .established ∧
      (newSegs c e).map (fun x => (dataOffset x.2, hasFlag x.2.flags FLAG_ACK, x.2.ackNum)) =
        [(0, false, 0)] ∧ ¬ SegmentsOk c e := by
  intro c e
  have hnew : ∀ x ∈ newSegs c e, hasFlag x.2.flags FLAG_ACK = false := by decide +kernel
  refine ⟨by decide +kernel, by decide +kernel, by decide +kernel, ?_⟩
  intro h
  obtain ⟨x, hx, hack, -⟩ := h.answered (sampleBytes 600 10)
    ⟨rfl, by decide +kernel, .inl rfl⟩ (.inl (.inl (.inl (by decide +kernel)))) (by decide +kernel)
  rw [hnew x hx] at hack
  cases hack

end FinsStack.Tcp
