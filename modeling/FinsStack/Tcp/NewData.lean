import FinsStack.Lib.Seq32
import FinsStack.Tcp.SendStep

/-!
# Write calls and the segments cut from them

Everything the application's writes do concerns the request queue, the write queue and
the replies (`WriteMove`); the rest of the sending side does not notice them.  When the
main thread sends new data, one node is appended to `send_queue` and `send_seq_end`
moves by its length (`FreshSend`).
-/

namespace FinsStack.Tcp

open List

variable {c c' : TcpConn} {seg : TcpSeg}

/-! ### A segment of new data -/

theorem congCap_bounds (x : Rat) (d : UInt32) (hx : 1 < x) (hd : 0 < d.toNat)
    (hlt : x < (d.toNat : Rat)) :
    0 < (UInt32.ofNat x.floor.toNat).toNat ∧ (UInt32.ofNat x.floor.toNat).toNat ≤ d.toNat := by
  have hone : 1 ≤ x.floor := Rat.le_floor_iff.mpr (Rat.le_of_lt (by exact_mod_cast hx))
  have hup : x.floor < (d.toNat : Int) := Rat.floor_lt_iff.mpr (by exact_mod_cast hlt)
  have hd' := d.toNat_lt
  rw [Lib.toNat_ofNat_of_lt (by omega)]
  omega

theorem cap_bounds (a b : UInt32) :
    (if a < b then a else b) ≤ a ∧ (if a < b then a else b) ≤ b ∧
      (0 < a → 0 < b → 0 < (if a < b then a else b)) := by
  split
  · exact ⟨UInt32.le_refl _, UInt32.le_of_lt ‹_›, fun ha _ => ha⟩
  · exact ⟨UInt32.not_lt.mp ‹_›, UInt32.le_refl _, fun _ hb => hb⟩

theorem nextDataLen_bounds (h : canSend c) :
    (nextDataLen c).toNat ≤ c.mss.toNat ∧ nextDataLen c ≤ unsentLen c ∧
      nextDataLen c ≤ c.sendWin ∧ (0 < c.mss → 0 < nextDataLen c) := by
  obtain ⟨hunsent, hrecv, hcong⟩ := of_decide_eq_true h
  have hwin : 0 < c.sendWin := by
    unfold recvSpace at hrecv
    rw [UInt32.lt_iff_toNat_lt, UInt32.toNat_zero]
    omega
  obtain ⟨hmss₀, hun₀, hpos₀⟩ := cap_bounds c.mss.toUInt32 (unsentLen c)
  generalize hd₀ : (if c.mss.toUInt32 < unsentLen c then c.mss.toUInt32 else unsentLen c) = d₀
    at hmss₀ hun₀ hpos₀
  obtain ⟨hwin₁, hle₁, hpos₁⟩ := cap_bounds c.sendWin d₀
  generalize hd₁ : (if c.sendWin < d₀ then c.sendWin else d₀) = d₁ at hwin₁ hle₁ hpos₁
  have hnext : nextDataLen c = if congSpace c < (d₁.toNat : Rat) then
      UInt32.ofNat (congSpace c).floor.toNat else d₁ := by
    unfold nextDataLen
    simp only [hd₀, hd₁]
  have hmss : 0 < c.mss → 0 < c.mss.toUInt32 := by
    intro hm
    rw [UInt16.lt_iff_toNat_lt] at hm
    rw [UInt32.lt_iff_toNat_lt, UInt16.toNat_toUInt32]
    exact hm
  -- the cap by the congestion window only lowers the length, and not to zero
  have hle : nextDataLen c ≤ d₁ ∧ (0 < d₁ → 0 < nextDataLen c) := by
    rw [hnext]
    split
    · rename_i hlt
      have hd₁pos : 0 < d₁.toNat := by
        have hone : (1 : Rat) < (d₁.toNat : Rat) := by grind
        have : 1 < d₁.toNat := by exact_mod_cast hone
        omega
      obtain ⟨hp, hu⟩ := congCap_bounds (congSpace c) d₁ hcong hd₁pos hlt
      exact ⟨UInt32.le_iff_toNat_le.mpr hu, fun _ => UInt32.lt_iff_toNat_lt.mpr hp⟩
    · exact ⟨UInt32.le_refl _, id⟩
  have hle₀ : nextDataLen c ≤ d₀ := UInt32.le_trans hle.1 hle₁
  refine ⟨?_, UInt32.le_trans hle₀ hun₀, UInt32.le_trans hle.1 hwin₁, ?_⟩
  · have hbound := UInt32.le_iff_toNat_le.mp (UInt32.le_trans hle₀ hmss₀)
    rwa [UInt16.toNat_toUInt32] at hbound
  · intro hm
    exact hle.2 (hpos₁ hwin (hpos₀ (hmss hm) hunsent))

theorem cutSegment_frame (c : TcpConn) (dataLen : UInt32) :
    ∃ w pe l, WriteOuts l ∧ (cutSegment c dataLen).2 =
      { c with toWriteSide := w, pollEvents := pe, out := c.out ++ l } := by
  obtain ⟨w, pe, l, hl, h⟩ := tcpHandleRequests_frame { c with
    writeQueue := (tcpSegAddData (tcpSegCreate c.addr c.sendSeqEnd c.sendSeqEnd) c.writeQueue
      c.writeIndex dataLen).2.1
    writeIndex := (tcpSegAddData (tcpSegCreate c.addr c.sendSeqEnd c.sendSeqEnd) c.writeQueue
      c.writeIndex dataLen).2.2 }
  exact ⟨w, pe, l, hl, h⟩

def sentNode (c : TcpConn) (seg : TcpSeg) (dataLen : UInt32) : TcpNode TcpSeg :=
  { data := seg, len := dataLen, seqNum := seg.seqNum, seqEnd := seg.seqNum + dataLen - 1,
    addr := c.nextAddr }

def GbnState.afterSend (g : GbnState) (timeout : Rat) : GbnState :=
  if g.firstFlag then { g.restart timeout with firstFlag := false } else g

def startSent (c : TcpConn) (seg : TcpSeg) : TcpConn :=
  let c1 := if c.rttFlag then c else
    { c with
      rttFlag := true, rttStamp := c.clock, rttSeqNum := seg.seqNum, rttSeqEnd := c.sendSeqEnd }
  let c2 := if c1.firstFlag then
      { c1 with firstFlag := false, toGbnTimer := timerOnceStart c1.timeout, toGbnFlag := false }
    else c1
  if tcpQueueIsEmpty c2.requestQueue then alertPollWrite c2 (writeSpace c2) else c2

section

variable (c) (seg)

theorem queueSent_eq (dataLen : UInt32) :
    queueSent c seg dataLen = startSent { c with
      sendQueue := tcpQueueAppend c.sendQueue (sentNode c seg dataLen)
      nextAddr := c.nextAddr + 1
      sendSeqEnd := c.sendSeqEnd + dataLen
      sendWin := uint32Decrease c.sendWin dataLen } seg := rfl

theorem startSent_frame :
    ∃ r pe l, r.timeout = c.timeout ∧ NeutralList l ∧ startSent c seg =
      { c with
        toRttState := r, toGbnState := c.toGbnState.afterSend c.timeout
        pollEvents := pe, out := c.out ++ l } := by
  have hrtt : ∃ r, r.timeout = c.timeout ∧
      (if c.rttFlag then c else { c with
        rttFlag := true, rttStamp := c.clock, rttSeqNum := seg.seqNum
        rttSeqEnd := c.sendSeqEnd }) = { c with toRttState := r } := by
    split
    · exact ⟨c.toRttState, rfl, rfl⟩
    · exact ⟨{ c.toRttState with
        rttFlag := true, rttStamp := c.clock, rttSeqNum := seg.seqNum
        rttSeqEnd := c.sendSeqEnd }, rfl, rfl⟩
  obtain ⟨r, hr, h⟩ := hrtt
  have hfirst : (if c.firstFlag then
        { c with
          toRttState := r, firstFlag := false, toGbnTimer := timerOnceStart r.timeout
          toGbnFlag := false }
      else { c with toRttState := r }) =
      { c with toRttState := r, toGbnState := c.toGbnState.afterSend c.timeout } := by
    unfold GbnState.afterSend
    rw [← hr]
    split
    · rfl
    · rfl
  unfold startSent
  simp only [h, hfirst]
  split
  · obtain ⟨pe, l, -, hl, ha⟩ := alertPollWrite_frame
      { c with toRttState := r, toGbnState := c.toGbnState.afterSend c.timeout }
      (writeSpace { c with toRttState := r, toGbnState := c.toGbnState.afterSend c.timeout })
    exact ⟨r, pe, l, hr, hl, ha⟩
  · exact ⟨r, c.pollEvents, [], hr, neutralList_nil, by rw [append_nil]⟩

end

structure FreshSend (c : TcpConn) (seg : TcpSeg) (c' : TcpConn) : Prop where
  state : c'.state = c.state
  running : c'.runningFlag = c.runningFlag
  segment : ∃ f k w o ol, seg = reheaded (cutSegment c (nextDataLen c)).1 f k w o ol
  write : c'.toWriteSide = (cutSegment c (nextDataLen c)).2.toWriteSide
  send : c'.toSendSide = { c.toSendSide with
    sendQueue := tcpQueueAppend c.sendQueue (sentNode c seg (nextDataLen c))
    sendSeqEnd := c.sendSeqEnd + nextDataLen c }
  window : c'.toSendWindow =
    { c.toSendWindow with sendWin := uint32Decrease c.sendWin (nextDataLen c) }
  gbn : c'.toGbnState = c.toGbnState.afterSend c.timeout
  fin : c'.toFinSide = c.toFinSide ∨
    (OwnClosed c.state ∧ c'.requestQueue.nodes = [] ∧ c'.writeQueue.nodes = [] ∧
      c'.toFinSide = ⟨true, false, c'.sendSeqEnd + 1⟩)
  timeout : c'.timeout = c.timeout
  opts : c'.toConnOpts = c.toConnOpts
  nextAddr : c'.nextAddr = c.nextAddr + 1
  out : ∃ l, NeutralList l ∧
    c'.out = (cutSegment c (nextDataLen c)).2.out ++ [.seg .fresh seg] ++ l

theorem queueSent_fresh {w : WriteSide} {pe : UInt32} {l : List Out}
    (hcut : (cutSegment c (nextDataLen c)).2 =
      { c with toWriteSide := w, pollEvents := pe, out := c.out ++ l })
    (hseg : ∃ f k w o ol, seg = reheaded (cutSegment c (nextDataLen c)).1 f k w o ol) (f : FinSide)
    (a : AckState) (v : RecvWindow)
    (hfin : f = c.toFinSide ∨ (OwnClosed c.state ∧ w.requestQueue.nodes = [] ∧
      w.writeQueue.nodes = [] ∧ f = ⟨true, false, c.sendSeqEnd + nextDataLen c + 1⟩)) :
    FreshSend c seg (queueSent { c with
      toWriteSide := w, pollEvents := pe, toFinSide := f, toAckState := a, toRecvWindow := v
      out := c.out ++ l ++ [.seg .fresh seg] } seg (nextDataLen c)) := by
  obtain ⟨r, pe', l', hr, hl', hstart⟩ := startSent_frame { c with
    toWriteSide := w, pollEvents := pe, toFinSide := f, toAckState := a, toRecvWindow := v
    out := c.out ++ l ++ [.seg .fresh seg]
    sendQueue := tcpQueueAppend c.sendQueue (sentNode c seg (nextDataLen c))
    nextAddr := c.nextAddr + 1
    sendSeqEnd := c.sendSeqEnd + nextDataLen c
    sendWin := uint32Decrease c.sendWin (nextDataLen c) } seg
  have heq := (queueSent_eq { c with
    toWriteSide := w, pollEvents := pe, toFinSide := f, toAckState := a, toRecvWindow := v
    out := c.out ++ l ++ [.seg .fresh seg] } seg (nextDataLen c)).trans hstart
  rw [heq]
  refine ⟨rfl, rfl, hseg, ?_, rfl, rfl, rfl, hfin, hr, rfl, rfl, l', hl', ?_⟩
  · rw [hcut]
  · rw [hcut]

theorem sendNewEstablished_fresh (c : TcpConn) :
    ∃ seg, FreshSend c seg (sendNewEstablished c) := by
  obtain ⟨w, pe, l, -, hcut⟩ := cutSegment_frame c (nextDataLen c)
  obtain ⟨f, k, win, o, ol, a, hupd⟩ := tcpSegUpdate_frame (cutSegment c (nextDataLen c)).1
    (cutSegment c (nextDataLen c)).2 FLAG_ACK
  simp only [sendNewEstablished]
  rw [hupd, hcut]
  refine ⟨reheaded (cutSegment c (nextDataLen c)).1 f k win o ol, ?_⟩
  exact queueSent_fresh hcut ⟨f, k, win, o, ol, rfl⟩ c.toFinSide a
    (noteFlow c).toRecvWindow (.inl rfl)

theorem cutSegment_seqEnd (c : TcpConn) (dataLen : UInt32) :
    (cutSegment c dataLen).1.seqEnd = c.sendSeqEnd + dataLen := rfl

theorem sendNewFinWait1_fresh (hs : OwnClosed c.state) :
    ∃ seg, FreshSend c seg (sendNewFinWait1 c) := by
  obtain ⟨w, pe, l, -, hcut⟩ := cutSegment_frame c (nextDataLen c)
  simp only [sendNewFinWait1]
  rw [cutSegment_seqEnd]
  -- the FIN is sent with the segment that empties both queues
  have fresh : ∀ (d : TcpConn) (f : FinSide) (flags : UInt16),
      d = { c with toWriteSide := w, pollEvents := pe, toFinSide := f, out := c.out ++ l } →
      (f = c.toFinSide ∨ (OwnClosed c.state ∧ w.requestQueue.nodes = [] ∧
        w.writeQueue.nodes = [] ∧ f = ⟨true, false, c.sendSeqEnd + nextDataLen c + 1⟩)) →
      ∃ seg, FreshSend c seg (queueSent
        ((tcpSegUpdate (cutSegment c (nextDataLen c)).1 d flags).2.emit
          (.seg .fresh (tcpSegUpdate (cutSegment c (nextDataLen c)).1 d flags).1))
        (tcpSegUpdate (cutSegment c (nextDataLen c)).1 d flags).1 (nextDataLen c)) := by
    intro d f flags hd hfin
    obtain ⟨fl, k, win, o, ol, a, hupd⟩ :=
      tcpSegUpdate_frame (cutSegment c (nextDataLen c)).1 d flags
    rw [hupd]
    refine ⟨reheaded (cutSegment c (nextDataLen c)).1 fl k win o ol, ?_⟩
    rw [hd]
    exact queueSent_fresh hcut ⟨fl, k, win, o, ol, rfl⟩ f a c.toRecvWindow hfin
  split
  · rename_i hlast
    rw [Bool.and_eq_true, hcut] at hlast
    refine fresh _ ⟨true, false, c.sendSeqEnd + nextDataLen c + 1⟩ _ ?_ (.inr ⟨hs,
      nodes_eq_nil_of_isEmpty hlast.1, nodes_eq_nil_of_isEmpty hlast.2, rfl⟩)
    rw [hcut]
  · exact fresh _ c.toFinSide _ hcut (.inl rfl)

theorem sendNew_fresh (hs : Retransmits c.state) : ∃ seg, FreshSend c seg (sendNew c) := by
  unfold sendNew
  split
  · exact sendNewEstablished_fresh c
  · rename_i hne
    have hown : OwnClosed c.state := by
      rcases hs with h | h | h | h | h
      · exact absurd (.inl h) hne
      · exact absurd (.inr h) hne
      · exact .inl h
      · exact .inr (.inr (.inl h))
      · exact .inr (.inr (.inr (.inr h)))
    exact sendNewFinWait1_fresh hown

/-! ### What is never taken back

The history only grows, and an acknowledgment of the FIN is noted by nothing but
`tcp_handle_ACK`. -/

/-- `c'` has the outputs of `c` and more, none of them a taken acknowledgment of the FIN. -/
def Extends (c c' : TcpConn) : Prop := ∃ l, .finAck ∉ l ∧ c'.out = c.out ++ l

theorem Extends.refl (c : TcpConn) : Extends c c :=
  ⟨[], not_mem_nil, (append_nil _).symm⟩

theorem Extends.trans {c₁ c₂ c₃ : TcpConn} (h₁ : Extends c₁ c₂) (h₂ : Extends c₂ c₃) :
    Extends c₁ c₃ := by
  obtain ⟨l₁, hl₁, ho₁⟩ := h₁
  obtain ⟨l₂, hl₂, ho₂⟩ := h₂
  refine ⟨l₁ ++ l₂, ?_, by rw [ho₂, ho₁, append_assoc]⟩
  intro h
  rcases mem_append.mp h with h | h
  · exact hl₁ h
  · exact hl₂ h

theorem Extends.finAck_iff (h : Extends c c') : .finAck ∈ c'.out ↔ .finAck ∈ c.out := by
  obtain ⟨l, hl, ho⟩ := h
  rw [ho, mem_append]
  exact ⟨fun h => h.resolve_right hl, .inl⟩

theorem QuietOut.extends (h : QuietOut c c') : Extends c c' := by
  obtain ⟨l, hl, ho⟩ := h
  exact ⟨l, fun h => hl .finAck h trivial, ho⟩

theorem WriteMove.extends (h : WriteMove c c') : Extends c c' := by
  obtain ⟨w, pe, m, n, l, -, hl, rfl⟩ := h
  exact ⟨l, fun h => hl .finAck h, rfl⟩

theorem Resend.extends {n : TcpNode TcpSeg} (h : Resend c n c') : Extends c c' := by
  obtain ⟨f, k, w, o, ol, -, ho⟩ := h.segment
  exact ⟨_, by simp, ho⟩

theorem FreshSend.extends (h : FreshSend c seg c') : Extends c c' := by
  obtain ⟨l, hl, ho⟩ := h.out
  obtain ⟨w, pe, l', hl', hcut⟩ := cutSegment_frame c (nextDataLen c)
  refine ⟨l' ++ [.seg .fresh seg] ++ l, ?_, ?_⟩
  · intro hmem
    simp only [mem_append, mem_singleton, reduceCtorEq, or_false] at hmem
    rcases hmem with hmem | hmem
    · exact hl' .finAck hmem
    · exact hl .finAck hmem
  · rw [ho, hcut]
    simp only [append_assoc]

theorem SendMove.extends (h : SendMove c c') : Extends c c' := by
  cases h with
  | same h _ _ | stop h _ _ | data h _ _ => exact h.out.extends
  | close h _ => exact h.out.extends
  | early h => exact h.out.extends
  | opened _ h => exact h.out.extends
  | fin sep _ _ _ | gbn g _ => exact .refl c
  | timeout n h _ _ _ | fast n h _ _ _ | next n h _ _ _ => exact h.extends
  | write | writeEarly | refuse | interrupt | requestFire => exact WriteMove.extends (by simp)

theorem SendMoves.extends (h : SendMoves c c') : Extends c c' := by
  induction h with
  | refl => exact .refl c
  | tail _ hlast ih => exact ih.trans hlast.extends

theorem AckStep.finAck (h : AckStep c seg c') (hmem : .finAck ∈ c'.out) :
    .finAck ∈ c.out ∨ (c.finSent = true ∧ seg.ackNum = c.fsse) := by
  cases h with
  | fin w hwin hsent hack hw => exact .inr ⟨hsent, hack⟩
  | outside _ _ | unsent _ _ _ _ _ | duplicate _ _ _ _ _ _ _ _ | all _ _ _ _ _ _ _ _ _ _
  | upTo _ _ _ _ _ _ _ _ _ =>
    exact .inl hmem

/-- **Invariant rule of the sending side.**  What every move, every acknowledgment taken
    and every new segment keeps, every event keeps. -/
theorem step_send_invariant {I : TcpConn → Prop} (hmove : ∀ c c', SendMove c c' → I c → I c')
    {e : Event} (hnew : ∀ rand seg, e.act = .main rand → SendsNew e.md c →
      FreshSend c seg (sendNew c) → I c → I (sendNew c))
    (hack : ∀ seg d, Accepts c seg → Receiving c.state ∨ PeerDone c.state → AckStep c seg d →
      I c → I d) (h : I c) : I (step c e) := by
  have moved : ∀ {c c' : TcpConn}, SendMoves c c' → I c → I c' := by
    intro c c' hm
    induction hm with
    | refl => exact id
    | tail _ hlast ih => exact fun h => hmove _ _ hlast (ih h)
  cases step_sendStep c e with
  | moves _ hm => exact moved hm h
  | fresh rand hact hs hm =>
    obtain ⟨seg, hfresh⟩ := sendNew_fresh hs.2.2.1
    exact moved hm.moves (hnew rand seg hact hs hfresh h)
  | ack seg _ d _ hin hs _ hd hm => exact moved hm (hack seg d hin hs hd h)

theorem step_out (c : TcpConn) (e : Event) : c.out <+: (step c e).out := by
  have grows : ∀ {d d' : TcpConn}, Extends d d' → c.out <+: d.out → c.out <+: d'.out := by
    rintro d d' ⟨l, -, hout⟩ hpre
    rw [hout]
    exact hpre.trans (prefix_append _ _)
  apply step_send_invariant (I := fun d => c.out <+: d.out) ?_ ?_ ?_ (prefix_refl _)
  · exact fun d d' hm => grows hm.extends
  · exact fun _ seg _ _ hfresh => grows hfresh.extends
  · intro seg d _ _ hack _
    obtain ⟨l, -, hout⟩ := hack.inert.out
    exact ⟨l, hout.symm⟩

theorem runConn_out (c : TcpConn) (es : List Event) : c.out <+: (runConn c es).out :=
  Lib.run_invariant (I := fun d => c.out <+: d.out) (fun d e h => h.trans (step_out d e))
    (prefix_refl _) es

end FinsStack.Tcp
