import FinsStack.Lib.Span
import FinsStack.Tcp.NewData

/-!
# Sent and not acknowledged

In every run the nodes of `send_queue` cover the sequence numbers from `send_seq_num` to
`send_seq_end` without a gap.  The peer's window, at most 65535 scaled by 2^14, keeps the
flight far below half of the sequence space, so the window test of `tcp_handle_ACK` never
meets an ambiguous number (`SendInv`).  The acknowledgments it takes are the ends of
segments; `tcpHandleAck_cumulative` says that these are the only ones it takes.
-/

namespace FinsStack.Tcp

open List Lib

/-! ### Queue operations -/

section

variable {α : Type} {q : TcpQueue α} {a : UInt32} {n : TcpNode α} {pre post : List (TcpNode α)}

def Counted (q : TcpQueue α) : Prop := q.len = UInt32.ofNat (spanLen TcpNode.len q.nodes)

theorem tcpQueueRemoveFront_cons (h : q.nodes = n :: post) :
    tcpQueueRemoveFront q = { q with nodes := post, len := q.len - n.len } := by
  unfold tcpQueueRemoveFront
  rw [h]

theorem counted_removeFront (h : q.nodes = n :: post) (hc : Counted q) :
    Counted (tcpQueueRemoveFront q) := by
  unfold Counted at hc ⊢
  rw [tcpQueueRemoveFront_cons h]
  show q.len - n.len = UInt32.ofNat (spanLen TcpNode.len post)
  rw [hc, h, spanLen_cons, UInt32.ofNat_add, UInt32.ofNat_toNat]
  grind

theorem tcpQueueRemoveAll_spec (hc : Counted q) :
    (tcpQueueRemoveAll q.nodes q).nodes = [] ∧ Counted (tcpQueueRemoveAll q.nodes q) := by
  generalize hns : q.nodes = ns
  induction ns generalizing q with
  | nil => exact ⟨hns, hc⟩
  | cons n ns ih =>
    apply ih (counted_removeFront hns hc)
    rw [tcpQueueRemoveFront_cons hns]

theorem tcpQueueRemoveUntil_spec (hns : q.nodes = pre ++ n :: post)
    (hpre : ∀ m ∈ pre, m.seqNum ≠ a) (hn : n.seqNum = a) (hc : Counted q) :
    (tcpQueueRemoveUntil a q.nodes q).nodes = n :: post ∧
      Counted (tcpQueueRemoveUntil a q.nodes q) := by
  rw [hns]
  induction pre generalizing q with
  | nil =>
    simp only [nil_append, tcpQueueRemoveUntil, hn, if_true]
    exact ⟨hns, hc⟩
  | cons m pre ih =>
    have hm : m.seqNum ≠ a := hpre m (mem_cons_self ..)
    simp only [cons_append, tcpQueueRemoveUntil, hm, if_false]
    refine ih ?_ ?_ (counted_removeFront hns hc)
    · exact congrArg TcpQueue.nodes (tcpQueueRemoveFront_cons hns)
    · intro m' hm'
      exact hpre m' (mem_cons_of_mem _ hm')

theorem tcpQueueFind_split (h : tcpQueueFind q a = some n) :
    n.seqNum = a ∧ ∃ pre post, q.nodes = pre ++ n :: post ∧ ∀ m ∈ pre, m.seqNum ≠ a := by
  obtain ⟨hn, pre, post, hns, hpre⟩ := find?_eq_some_iff_append.mp h
  refine ⟨by simpa using hn, pre, post, hns, ?_⟩
  intro m hm
  simpa using hpre m hm

theorem counted_append (hc : Counted q) : Counted (tcpQueueAppend q n) := by
  unfold Counted at hc ⊢
  show q.len + n.len = UInt32.ofNat (spanLen TcpNode.len (q.nodes ++ [n]))
  rw [spanLen_append, UInt32.ofNat_add, ← hc, spanLen_cons, spanLen_nil, Nat.add_zero,
    UInt32.ofNat_toNat]

end

/-! ### Windows -/

def maxWindow : Nat := 65535 * 2 ^ 14

theorem scaledWin_le (c : TcpConn) (seg : TcpSeg) (h : OptsOk c.toConnOpts) :
    (scaledWin c seg).toNat ≤ maxWindow := by
  have hw := seg.winSize.toNat_lt
  unfold scaledWin maxWindow
  split
  · have hs : c.wsSend.toNat ≤ 14 := UInt8.le_iff_toNat_le.mp h
    have hpow : 2 ^ c.wsSend.toNat ≤ 2 ^ 14 := Nat.pow_le_pow_right (by omega) hs
    have hmod : c.wsSend.toUInt32.toNat % 32 = c.wsSend.toNat := by
      rw [UInt8.toNat_toUInt32]
      omega
    have hmul : seg.winSize.toNat * 2 ^ c.wsSend.toNat ≤ 65535 * 2 ^ 14 :=
      Nat.mul_le_mul (by omega) hpow
    rw [UInt32.toNat_shiftLeft, hmod, UInt16.toNat_toUInt32, Nat.shiftLeft_eq]
    exact Nat.le_trans (Nat.mod_le _ _) hmul
  · rw [UInt16.toNat_toUInt32]
    omega

theorem uint32Decrease_le (a b : UInt32) : (uint32Decrease a b).toNat ≤ a.toNat := by
  unfold uint32Decrease
  split
  · rename_i h
    rw [UInt32.toNat_sub_of_le _ _ (UInt32.le_of_lt h)]
    omega
  · rw [UInt32.toNat_zero]
    omega

theorem tcpInWindow_self (a s e : UInt32) : tcpInWindow a a s e ↔ a - s ≤ e - s := by
  unfold tcpInWindow
  simp only [UInt32.le_refl, if_true]
  split
  · simp only [decide_eq_true_eq]
    grind
  · simp only [decide_eq_true_eq]
    grind

/-! ### The invariant -/

structure SendInv (c : TcpConn) : Prop where
  covers : Covers TcpNode.seqNum TcpNode.len c.sendSeqNum c.sendQueue.nodes c.sendSeqEnd
  counted : Counted c.sendQueue
  bound : spanLen TcpNode.len c.sendQueue.nodes ≤ maxWindow + 65535
  pos : 0 < c.mss → ∀ n ∈ c.sendQueue.nodes, 0 < n.len
  win : c.sendWin.toNat ≤ maxWindow
  opts : OptsOk c.toConnOpts
  early : Early c → c.sendQueue.nodes = []

variable {c c' : TcpConn} {seg : TcpSeg} {n : TcpNode TcpSeg}

theorem SendInv.span_lt (h : SendInv c) : spanLen TcpNode.len c.sendQueue.nodes < 2 ^ 31 := by
  have hb := h.bound
  unfold maxWindow at hb
  omega

theorem SendInv.flight (h : SendInv c) :
    (flightSize c).toNat = spanLen TcpNode.len c.sendQueue.nodes :=
  h.covers.distance (by have := h.span_lt; omega)

theorem SendInv.congr (h : SendInv c) (hs : c'.toSendSide = c.toSendSide)
    (hw : c'.sendWin.toNat ≤ maxWindow) (ho : c'.toConnOpts = c.toConnOpts)
    (he : Early c' → Early c) : SendInv c' := by
  have hq : c'.sendQueue = c.sendQueue := congrArg SendSide.sendQueue hs
  have hm : c'.mss = c.mss := congrArg ConnOpts.mss ho
  refine ⟨?_, hq ▸ h.counted, hq ▸ h.bound, ?_, hw, ho ▸ h.opts, ?_⟩
  · rw [hs]
    exact h.covers
  · rw [hq, hm]
    exact h.pos
  · rw [hq]
    exact fun hc => h.early (he hc)

theorem sendInv_of_nil (hq : c.sendQueue.nodes = []) (hc : Counted c.sendQueue)
    (hs : c.sendSeqNum = c.sendSeqEnd) (hw : c.sendWin.toNat ≤ maxWindow)
    (ho : OptsOk c.toConnOpts) : SendInv c := by
  refine ⟨?_, hc, ?_, ?_, hw, ho, fun _ => hq⟩
  · rw [hq]
    exact hs
  · rw [hq]
    exact Nat.zero_le _
  · rw [hq]
    exact nofun

theorem toUInt32_le_maxWindow (w : UInt16) : w.toUInt32.toNat ≤ maxWindow := by
  have hw := w.toNat_lt
  rw [UInt16.toNat_toUInt32]
  unfold maxWindow
  omega

theorem advertised_le {w : SendWindow} (h : SendInv c)
    (hw : w = c.toSendWindow ∨ w = advertised c seg) : w.sendWin.toNat ≤ maxWindow := by
  rcases hw with rfl | rfl
  · exact h.win
  · exact scaledWin_le c seg h.opts

/-! ### What the moves keep -/

theorem not_early_of_retransmits (h : Retransmits c.state) : ¬ Early c := by
  rintro ⟨he, -⟩
  rcases h with h | h | h | h | h <;> simp [EarlyState, h] at he

theorem not_early_of_stopped (hs : c.state = .closed) (hoff : c.runningFlag = false) :
    ¬ Early c := by
  rintro ⟨-, hrun⟩
  rw [hoff] at hrun
  exact nomatch hrun hs

theorem not_early_of_closeEdge (h : CloseEdge c.state c'.state) : ¬ Early c' := by
  apply not_early_of_retransmits
  generalize c.state = old at h
  generalize c'.state = new at h
  cases h with
  | synRecv | established => exact .inr (.inr (.inl rfl))
  | closeWait => exact .inr (.inr (.inr (.inr rfl)))

theorem not_early_of_handled (hs : Greeted c.state)
    (hoff : c.state = .closed → c.runningFlag = false) : ¬ Early c := by
  rintro ⟨he, hrun⟩
  rcases hs with (h | h | h) | (h | h | h | h) | h <;>
    first
    | exact nomatch (hoff h).symm.trans (hrun h)
    | simp [EarlyState, h] at he

theorem Resend.sendInv (h : Resend c n c') (hi : SendInv c) : SendInv c' := by
  obtain ⟨f, k, w, o, ol, hsend, -⟩ := h.segment
  have hwin : c'.sendWin = uint32Decrease c.sendWin n.data.dataLen32 :=
    congrArg SendWindow.sendWin h.window
  have hq : c'.sendQueue = tcpQueueSet c.sendQueue n.addr (reheaded n.data f k w o ol) :=
    congrArg SendSide.sendQueue hsend
  have hm : c'.mss = c.mss := congrArg ConnOpts.mss h.opts
  -- the header of one segment changes, no node moves
  generalize hg : (fun m : TcpNode TcpSeg =>
    if m.addr = n.addr then { m with data := reheaded n.data f k w o ol } else m) = g
  have hnodes : c'.sendQueue.nodes = c.sendQueue.nodes.map g := by
    rw [hq, ← hg]
    rfl
  have hstart : ∀ m, (g m).seqNum = m.seqNum := by
    intro m
    rw [← hg]
    show (if m.addr = n.addr then _ else m).seqNum = m.seqNum
    split <;> rfl
  have hlen : ∀ m, (g m).len = m.len := by
    intro m
    rw [← hg]
    show (if m.addr = n.addr then _ else m).len = m.len
    split <;> rfl
  refine ⟨?_, ?_, ?_, ?_, ?_, h.opts ▸ hi.opts, ?_⟩
  · rw [hnodes]
    have hs : c'.sendSeqNum = c.sendSeqNum := by rw [hsend]
    have he : c'.sendSeqEnd = c.sendSeqEnd := by rw [hsend]
    rw [hs, he]
    exact hi.covers.map g hstart hlen
  · have hl : c'.sendQueue.len = c.sendQueue.len := by
      rw [hq]
      rfl
    unfold Counted
    rw [hl, hnodes, spanLen_map g hlen]
    exact hi.counted
  · rw [hnodes, spanLen_map g hlen]
    exact hi.bound
  · rw [hm, hnodes]
    intro hpos m' hm'
    obtain ⟨m, hmem, rfl⟩ := mem_map.mp hm'
    rw [hlen]
    exact hi.pos hpos m hmem
  · rw [hwin]
    exact Nat.le_trans (uint32Decrease_le _ _) hi.win
  · intro hearly
    have hc : Early c := by
      unfold Early at hearly
      rwa [h.state, h.running] at hearly
    rw [hnodes, hi.early hc]
    rfl

theorem WriteMove.sendInv (h : WriteMove c c') (hi : SendInv c) : SendInv c' := by
  obtain ⟨w, pe, m, n, l, -, -, rfl⟩ := h
  exact hi.congr rfl hi.win rfl id

theorem EarlyStep.sendInv (h : EarlyStep c c') (hi : SendInv c) : SendInv c' := by
  have hnil := hi.early h.early
  have hsame : c.sendSeqNum = c.sendSeqEnd := by
    have hcov := hi.covers
    rw [hnil] at hcov
    exact hcov
  have hw : c'.sendWin.toNat ≤ maxWindow := by
    rcases h.window with hw | ⟨w, hw⟩
    · rw [congrArg SendWindow.sendWin hw]
      exact hi.win
    · rw [congrArg SendWindow.sendWin hw]
      exact toUInt32_le_maxWindow w
  have hq : c'.sendQueue = c.sendQueue := by
    rcases h.send with hs | ⟨rand, hs⟩
    · rw [hs]
    · rw [hs]
  refine sendInv_of_nil (hq ▸ hnil) (hq ▸ hi.counted) ?_ hw (h.opts hi.opts)
  rcases h.send with hs | ⟨rand, hs⟩
  · rw [hs]
    exact hsame
  · rw [hs]

theorem OpenStep.sendInv (h : OpenStep c seg c') (hi : SendInv c) : SendInv c' := by
  have hearly : Early c := by
    rcases h.before with hs | hs
    · exact early_of_synSent hs
    · exact early_of_synRecv hs
  have hq : c'.sendQueue = c.sendQueue := by rw [h.send]
  refine sendInv_of_nil (hq ▸ hi.early hearly) (hq ▸ hi.counted) ?_ ?_ (h.opts hi.opts)
  · rw [h.send]
  · rw [congrArg SendWindow.sendWin h.window]
    exact toUInt32_le_maxWindow seg.winSize

theorem SendMove.sendInv (h : SendMove c c') (hi : SendInv c) : SendInv c' := by
  have same : ∀ {d : TcpConn}, SameSend c d → (Early d → Early c) → SendInv d := by
    intro d hd he
    refine hi.congr hd.send ?_ hd.opts he
    rw [congrArg SendWindow.sendWin hd.window]
    exact hi.win
  cases h with
  | same h hs hrun =>
    refine same h ?_
    rintro ⟨he, hr⟩
    exact ⟨hs ▸ he, fun hc => hrun (hr (hs.trans hc))⟩
  | close h he _ => exact same h (fun hc => absurd hc (not_early_of_closeEdge he))
  | stop h hs hoff => exact same h (fun hc => absurd hc (not_early_of_stopped hs hoff))
  | early h => exact h.sendInv hi
  | opened seg h => exact h.sendInv hi
  | data h _ hoff =>
    refine hi.congr h.send ?_ h.opts (fun hc => absurd hc (not_early_of_handled h.state hoff))
    rw [congrArg SendWindow.sendWin h.window]
    exact hi.win
  | fin sep hs hr hw | gbn g h => exact hi.congr rfl hi.win rfl id
  | timeout n h | fast n h | next n h => exact h.sendInv hi
  | write | writeEarly | refuse | interrupt | requestFire => exact WriteMove.sendInv (by simp) hi

/-! ### What acknowledgments keep -/

theorem AckStep.sendInv (h : AckStep c seg c') (hi : SendInv c) : SendInv c' := by
  cases h with
  | outside hwin hfin => exact hi
  | unsent m hwin hne hend hfind => exact hi.congr rfl hi.win rfl id
  | duplicate m w g k rf heq hw hg => exact hi.congr rfl (advertised_le hi hw) rfl id
  | all m w g k r hne heq hw hg hr =>
    obtain ⟨hnil, hcount⟩ := tcpQueueRemoveAll_spec hi.counted
    exact sendInv_of_nil hnil hcount heq (advertised_le hi hw) hi.opts
  | fin w hwin hsent hack hw =>
    obtain ⟨hnil, hcount⟩ := tcpQueueRemoveAll_spec hi.counted
    exact sendInv_of_nil hnil hcount rfl (advertised_le hi hw) hi.opts
  | upTo m k r n hwin hne hend hfind hr =>
    obtain ⟨hn, pre, post, hns, hpre⟩ := tcpQueueFind_split hfind
    obtain ⟨hnodes, hcount⟩ := tcpQueueRemoveUntil_spec hns hpre hn hi.counted
    have hcov := hi.covers
    have hbound := hi.bound
    rw [hns] at hcov hbound
    refine ⟨?_, hcount, ?_, ?_, scaledWin_le c seg hi.opts, hi.opts, ?_⟩
    · rw [hnodes, ← hn]
      have hdrop := hcov.drop
      rw [← hdrop.head] at hdrop
      exact hdrop
    · rw [hnodes]
      rw [spanLen_append] at hbound
      omega
    · rw [hnodes]
      intro hpos m' hm'
      apply hi.pos hpos
      rw [hns]
      exact mem_append_right _ hm'
    · intro he
      have hnil : c.sendQueue.nodes = [] := hi.early he
      rw [hns] at hnil
      exact absurd hnil (append_ne_nil_of_right_ne_nil _ (cons_ne_nil _ _))

/-! ### What new data keeps -/

theorem FreshSend.seqNum (h : FreshSend c seg c') : seg.seqNum = c.sendSeqEnd := by
  obtain ⟨f, k, w, o, ol, rfl⟩ := h.segment
  rfl

theorem FreshSend.sendInv (h : FreshSend c seg c') (hcan : canSend c)
    (hs : Retransmits c.state) (hi : SendInv c) : SendInv c' := by
  obtain ⟨hmss, -, -, hpos⟩ := nextDataLen_bounds hcan
  have hq : c'.sendQueue = tcpQueueAppend c.sendQueue (sentNode c seg (nextDataLen c)) :=
    congrArg SendSide.sendQueue h.send
  have hm : c'.mss = c.mss := congrArg ConnOpts.mss h.opts
  refine ⟨?_, ?_, ?_, ?_, ?_, h.opts ▸ hi.opts, ?_⟩
  · rw [h.send]
    exact hi.covers.concat (x := sentNode c seg (nextDataLen c)) h.seqNum
  · rw [hq]
    exact counted_append hi.counted
  · -- the flight was below the window, and the segment is at most 65535 bytes
    have hspace : 1 < recvSpace c := (of_decide_eq_true hcan).2.1
    unfold recvSpace at hspace
    rw [hi.flight] at hspace
    have hwin := hi.win
    have hsize := c.mss.toNat_lt
    have hnodes : c'.sendQueue.nodes = c.sendQueue.nodes ++ [sentNode c seg (nextDataLen c)] := by
      rw [hq]
      rfl
    rw [hnodes, spanLen_append, spanLen_cons, spanLen_nil]
    show _ + ((nextDataLen c).toNat + 0) ≤ _
    omega
  · rw [hm, hq]
    exact fun hp => Lib.forall_mem_concat (hi.pos hp) (hpos hp)
  · rw [congrArg SendWindow.sendWin h.window]
    exact Nat.le_trans (uint32Decrease_le _ _) hi.win
  · intro he
    refine absurd he (not_early_of_retransmits ?_)
    rw [h.state]
    exact hs

/-! ### Runs -/

theorem step_sendInv (c : TcpConn) (e : Event) (h : SendInv c) : SendInv (step c e) := by
  apply step_send_invariant (fun c c' hm => hm.sendInv) ?_ ?_ h
  · rintro _ seg _ ⟨-, -, hs, hround⟩ hfresh hi
    exact hfresh.sendInv hround.2.2.2.2.2 hs hi
  · intro seg d _ _ hack hi
    exact hack.sendInv hi

theorem SendStart.sendInv (h : SendStart c) : SendInv c := by
  have hq : c.sendQueue.nodes = [] := by
    rw [h.queue]
    rfl
  refine sendInv_of_nil hq ?_ (h.seqNum.trans h.seqEnd.symm) ?_ h.opts
  · rw [h.queue]
    rfl
  · rw [h.window.1]
    have hle := UInt32.le_iff_toNat_le.mp h.window.2
    have hmax : TCP_MAX_WINDOW_DEFAULT.toNat = 65535 := rfl
    unfold maxWindow
    omega

theorem runConn_sendInv {c₀ : TcpConn} (h₀ : Initial c₀) (es : List Event) :
    SendInv (runConn c₀ es) :=
  Lib.run_invariant step_sendInv (initial_sendStart h₀).sendInv es

/-! ### Contiguity -/

structure Contiguous (c : TcpConn) : Prop where
  first : ∀ n, c.sendQueue.nodes.head? = some n → n.seqNum = c.sendSeqNum
  next : c.sendQueue.nodes.IsChain (fun m n => n.seqNum = m.seqNum + m.len)
  last : ∀ n, c.sendQueue.nodes.getLast? = some n → n.seqNum + n.len = c.sendSeqEnd
  empty_iff : c.sendQueue.nodes = [] ↔ c.sendSeqNum = c.sendSeqEnd
  len_eq : c.sendQueue.len = c.sendSeqEnd - c.sendSeqNum
  nonempty : ∀ n ∈ c.sendQueue.nodes, 0 < n.len
  span_lt : spanLen TcpNode.len c.sendQueue.nodes < 2 ^ 32

theorem SendInv.contiguous (h : SendInv c) (hmss : 0 < c.mss) : Contiguous c := by
  have hlt : spanLen TcpNode.len c.sendQueue.nodes < 2 ^ 32 := by
    have hspan := h.span_lt
    omega
  refine ⟨?_, h.covers.isChain, ?_, h.covers.eq_nil_iff hlt (h.pos hmss), ?_, h.pos hmss, hlt⟩
  · intro n hn
    have hcov := h.covers
    cases hq : c.sendQueue.nodes with
    | nil =>
      rw [hq] at hn
      cases hn
    | cons m ns =>
      rw [hq] at hn hcov
      cases hn
      exact hcov.head
  · intro n hn
    obtain ⟨ns, hns⟩ := getLast?_eq_some_iff.mp hn
    have hcov := h.covers
    rw [hns] at hcov
    exact hcov.last
  · have hend := h.covers.end_eq
    rw [h.counted, hend]
    grind

theorem Contiguous.covers (h : Contiguous c) :
    Covers TcpNode.seqNum TcpNode.len c.sendSeqNum c.sendQueue.nodes c.sendSeqEnd :=
  covers_of_isChain h.first h.next h.last h.empty_iff.mp

/-! ### Moving forward -/

theorem SendMove.settled (h : SendMove c c') (hc : ¬ Early c) :
    ¬ Early c' ∧ c'.mss = c.mss ∧ c'.sendSeqNum = c.sendSeqNum ∧
      c'.sendSeqEnd = c.sendSeqEnd := by
  have same : ∀ {d : TcpConn}, SameSend c d → ¬ Early d → ¬ Early d ∧ d.mss = c.mss ∧
      d.sendSeqNum = c.sendSeqNum ∧ d.sendSeqEnd = c.sendSeqEnd := by
    intro d hd he
    exact ⟨he, congrArg ConnOpts.mss hd.opts, congrArg SendSide.sendSeqNum hd.send,
      congrArg SendSide.sendSeqEnd hd.send⟩
  have resent : ∀ {d : TcpConn} {n : TcpNode TcpSeg}, Resend c n d → ¬ Early d ∧ d.mss = c.mss ∧
      d.sendSeqNum = c.sendSeqNum ∧ d.sendSeqEnd = c.sendSeqEnd := by
    intro d n hd
    obtain ⟨f, k, w, o, ol, hsend, -⟩ := hd.segment
    refine ⟨?_, congrArg ConnOpts.mss hd.opts, by rw [hsend], by rw [hsend]⟩
    unfold Early
    rw [hd.state, hd.running]
    exact hc
  have written : ∀ {d : TcpConn}, WriteMove c d → ¬ Early d ∧ d.mss = c.mss ∧
      d.sendSeqNum = c.sendSeqNum ∧ d.sendSeqEnd = c.sendSeqEnd := by
    rintro d ⟨w, pe, m, n, l, -, -, rfl⟩
    exact ⟨hc, rfl, rfl, rfl⟩
  cases h with
  | same h hs hrun =>
    refine same h ?_
    rintro ⟨he, hr⟩
    exact hc ⟨hs ▸ he, fun hcl => hrun (hr (hs.trans hcl))⟩
  | close h he _ => exact same h (not_early_of_closeEdge he)
  | stop h hs hoff => exact same h (not_early_of_stopped hs hoff)
  | early h => exact absurd h.early hc
  | opened seg h =>
    rcases h.before with hs | hs
    · exact absurd (early_of_synSent hs) hc
    · exact absurd (early_of_synRecv hs) hc
  | data h _ hoff =>
    exact ⟨not_early_of_handled h.state hoff, congrArg ConnOpts.mss h.opts,
      congrArg SendSide.sendSeqNum h.send, congrArg SendSide.sendSeqEnd h.send⟩
  | fin sep hs hr hw | gbn g h => exact ⟨hc, rfl, rfl, rfl⟩
  | timeout n h | fast n h | next n h => exact resent h
  | write | writeEarly | refuse | interrupt | requestFire => exact written (by simp)

theorem SendMoves.settled (h : SendMoves c c') (hc : ¬ Early c) :
    ¬ Early c' ∧ c'.mss = c.mss ∧ c'.sendSeqNum = c.sendSeqNum ∧
      c'.sendSeqEnd = c.sendSeqEnd := by
  induction h with
  | refl => exact ⟨hc, rfl, rfl, rfl⟩
  | tail _ hlast ih =>
    obtain ⟨he, hm, hn, hx⟩ := ih
    obtain ⟨he', hm', hn', hx'⟩ := hlast.settled he
    exact ⟨he', hm'.trans hm, hn'.trans hn, hx'.trans hx⟩

def MovesForward (c c' : TcpConn) : Prop :=
  c'.sendSeqNum - c.sendSeqNum ≤ c.sendSeqEnd - c.sendSeqNum

theorem MovesForward.of_eq (h : c'.sendSeqNum = c.sendSeqNum) : MovesForward c c' := by
  unfold MovesForward
  rw [h, UInt32.sub_self]
  exact UInt32.zero_le

theorem AckStep.settled (h : AckStep c seg c') (hfin : .finAck ∉ c'.out) :
    c'.mss = c.mss ∧ MovesForward c c' := by
  cases h with
  | outside hwin hf | unsent m hwin hne hend hfind | duplicate m w g k rf heq hw hg =>
    exact ⟨rfl, .of_eq rfl⟩
  | all m w g k r hne heq hw hg hr =>
    refine ⟨rfl, ?_⟩
    show seg.ackNum - c.sendSeqNum ≤ c.sendSeqEnd - c.sendSeqNum
    rw [heq]
    exact UInt32.le_refl _
  | upTo m k r n hwin hne hend hfind hr =>
    exact ⟨rfl, (tcpInWindow_self _ _ _).mp hwin⟩
  | fin w hwin hsent hack hw =>
    exact absurd (mem_append_right _ (mem_singleton_self _)) hfin

theorem step_settled (hc : ¬ Early c) (e : Event) :
    ¬ Early (step c e) ∧ (step c e).mss = c.mss ∧
      (.finAck ∉ (step c e).out → MovesForward c (step c e)) := by
  cases step_sendStep c e with
  | moves _ hm =>
    obtain ⟨he, hmss, hn, -⟩ := SendMoves.settled hm hc
    exact ⟨he, hmss, fun _ => .of_eq hn⟩
  | fresh rand _ hnew ha =>
    obtain ⟨seg, hf⟩ := sendNew_fresh hnew.2.2.1
    have hn : (sendNew c).sendSeqNum = c.sendSeqNum := by rw [hf.send]
    have hmss : (sendNew c).mss = c.mss := congrArg ConnOpts.mss hf.opts
    have he : ¬ Early (sendNew c) := by
      unfold Early
      rw [hf.state, hf.running]
      exact hc
    obtain ⟨he', hmss', hn', -⟩ := SendMoves.settled ha.moves he
    exact ⟨he', hmss'.trans hmss, fun _ => .of_eq (hn'.trans hn)⟩
  | ack seg env d _ _ _ _ had hm =>
    have he : ¬ Early d := by
      have hi := had.inert
      unfold Early
      rw [hi.state]
      rintro ⟨hs, hr⟩
      exact hc ⟨hs, fun hcl => hi.running (hr hcl)⟩
    have hmss : d.mss = c.mss := by
      cases had <;> rfl
    obtain ⟨he', hmss', hn', -⟩ := SendMoves.settled hm he
    refine ⟨he', hmss'.trans hmss, ?_⟩
    intro hfin
    have hfin' : .finAck ∉ d.out := fun h => hfin ((SendMoves.extends hm).finAck_iff.mpr h)
    have hfwd := (had.settled hfin').2
    unfold MovesForward at hfwd ⊢
    rw [hn']
    exact hfwd

/-- **Contiguity of the send queue** from `send_seq_num` to `send_seq_end`, for a segment size of
    at least one byte; each event moves `send_seq_num` forward within these bounds unless it
    takes an acknowledgment of the FIN. -/
theorem send_queue_contiguous {c₀ : TcpConn} (h₀ : Initial c₀) (es₁ es₂ : List Event)
    (hopen : (runConn c₀ es₁).state = .established) (hmss : 0 < (runConn c₀ es₁).mss) :
    Contiguous (runConn c₀ (es₁ ++ es₂)) ∧
      ∀ e, .finAck ∉ (step (runConn c₀ (es₁ ++ es₂)) e).out →
        MovesForward (runConn c₀ (es₁ ++ es₂)) (step (runConn c₀ (es₁ ++ es₂)) e) := by
  have hsettled : ¬ Early (runConn c₀ (es₁ ++ es₂)) ∧
      (runConn c₀ (es₁ ++ es₂)).mss = (runConn c₀ es₁).mss := by
    have happ : runConn c₀ (es₁ ++ es₂) = runConn (runConn c₀ es₁) es₂ := Lib.run_append ..
    rw [happ]
    refine Lib.run_invariant
      (I := fun c => ¬ Early c ∧ c.mss = (runConn c₀ es₁).mss) ?_ ⟨?_, rfl⟩ es₂
    · intro c e hc
      obtain ⟨he, hm, -⟩ := step_settled hc.1 e
      exact ⟨he, hm.trans hc.2⟩
    · exact not_early_of_retransmits (.inl hopen)
  refine ⟨(runConn_sendInv h₀ _).contiguous (hsettled.2 ▸ hmss), ?_⟩
  intro e hfin
  exact (step_settled hsettled.1 e).2.2 hfin

theorem send_queue_contiguous_sample :
    (runConn sampleConn (sampleOpen ++ sampleSend)).sendQueue.len = 10 ∧
      Contiguous (runConn sampleConn (sampleOpen ++ sampleSend)) :=
  ⟨by decide +kernel, (send_queue_contiguous (.fresh sampleData ⟨1, 10, 2, 20⟩) sampleOpen
    sampleSend (by decide +kernel) (by decide +kernel)).1⟩

/-! ### Cumulative acknowledgment -/

def WhollyBelow (c : TcpConn) (a : UInt32) (n : TcpNode TcpSeg) : Prop :=
  n.seqNum + n.len - c.sendSeqNum ≤ a - c.sendSeqNum

/-- What a cumulative acknowledgment of everything below `a` does. -/
structure CumulativeAck (c : TcpConn) (a : UInt32) (c' : TcpConn) : Prop where
  removed : ∃ acked, c.sendQueue.nodes = acked ++ c'.sendQueue.nodes ∧
    ∀ n ∈ acked, WhollyBelow c a n
  kept : ∀ n ∈ c'.sendQueue.nodes, ¬ WhollyBelow c a n
  above : ∀ n ∈ c'.sendQueue.nodes, a - c.sendSeqNum ≤ n.seqNum - c.sendSeqNum
  seqNum : c'.sendSeqNum = a

def SegmentEnd (c : TcpConn) (a : UInt32) : Prop :=
  a = c.sendSeqEnd ∨ ∃ n ∈ c.sendQueue.nodes, n.seqNum = a

theorem Contiguous.whollyBelow_end (h : Contiguous c) (hn : n ∈ c.sendQueue.nodes) :
    WhollyBelow c c.sendSeqEnd n := by
  obtain ⟨pre, post, hns⟩ := append_of_mem hn
  have hcov := h.covers
  have hlt := h.span_lt
  have hdist := hcov.distance hlt
  rw [hns] at hcov hlt hdist
  have hoff := hcov.offset_end hlt
  rw [spanLen_append, spanLen_cons] at hdist
  unfold WhollyBelow
  rw [UInt32.le_iff_toNat_le]
  omega

theorem Contiguous.split (h : Contiguous c) {pre post : List (TcpNode TcpSeg)}
    (hns : c.sendQueue.nodes = pre ++ n :: post) :
    (∀ m ∈ pre, WhollyBelow c n.seqNum m) ∧
      ∀ m ∈ n :: post, ¬ WhollyBelow c n.seqNum m ∧
        n.seqNum - c.sendSeqNum ≤ m.seqNum - c.sendSeqNum := by
  have hcov := h.covers
  have hlt := h.span_lt
  rw [hns] at hcov hlt
  have hn := hcov.offset hlt
  constructor
  · intro m hm
    obtain ⟨p₁, p₂, rfl⟩ := append_of_mem hm
    rw [append_assoc, cons_append] at hcov hlt
    have hoff := hcov.offset_end hlt
    rw [spanLen_append, spanLen_cons] at hn
    unfold WhollyBelow
    rw [UInt32.le_iff_toNat_le]
    omega
  · intro m hm
    have hmem : m ∈ c.sendQueue.nodes := by
      rw [hns]
      exact mem_append_right _ hm
    have hpos := UInt32.lt_iff_toNat_lt.mp (h.nonempty m hmem)
    rw [UInt32.toNat_zero] at hpos
    obtain ⟨p₁, p₂, hp⟩ := append_of_mem hm
    rw [hp, ← append_assoc] at hcov hlt
    have hstart := hcov.offset hlt
    have hend := hcov.offset_end hlt
    rw [spanLen_append] at hstart hend
    unfold WhollyBelow
    rw [UInt32.le_iff_toNat_le, UInt32.le_iff_toNat_le]
    omega

/-- **The cumulative-acknowledgment law holds exactly at segment ends**, on a contiguous
    `send_queue`. -/
theorem tcpHandleAck_cumulative (md : TcpData) {c : TcpConn} (seg : TcpSeg) (h : Contiguous c)
    (hpos : 0 < seg.ackNum - c.sendSeqNum)
    (hin : seg.ackNum - c.sendSeqNum ≤ c.sendSeqEnd - c.sendSeqNum) :
    CumulativeAck c seg.ackNum (tcpHandleAck md c seg) ↔ SegmentEnd c seg.ackNum := by
  have hcount : Counted c.sendQueue := by
    unfold Counted
    rw [h.len_eq, h.covers.end_eq]
    grind
  have hne : seg.ackNum ≠ c.sendSeqNum := by
    intro heq
    rw [heq, UInt32.sub_self] at hpos
    exact absurd hpos (UInt32.lt_irrefl 0)
  have hwin : tcpInWindow seg.ackNum seg.ackNum c.sendSeqNum c.sendSeqEnd = true :=
    (tcpInWindow_self _ _ _).mpr hin
  generalize hc' : tcpHandleAck md c seg = c'
  have hstep : AckStep c seg c' := hc' ▸ tcpHandleAck_step md c seg
  cases hstep with
  | outside hout _ | fin w hout _ _ _ => exact nomatch hwin.symm.trans hout
  | duplicate m w g k rf heq _ _ => exact absurd heq hne
  | unsent m _ _ hend hfind =>
    constructor
    · intro hcum
      exact absurd hcum.seqNum.symm hne
    · rintro (heq | ⟨n, hn, heq⟩)
      · exact absurd heq hend
      · have hnone := find?_eq_none.mp hfind n hn
        simp [heq] at hnone
  | all m w g k r _ heq _ _ _ =>
    refine ⟨fun _ => .inl heq, fun _ => ?_⟩
    obtain ⟨hnil, -⟩ := tcpQueueRemoveAll_spec hcount
    refine ⟨⟨c.sendQueue.nodes, ?_, ?_⟩, ?_, ?_, rfl⟩
    · show c.sendQueue.nodes = c.sendQueue.nodes ++ (tcpQueueRemoveAll _ _).nodes
      rw [hnil, append_nil]
    · intro n hn
      rw [heq]
      exact h.whollyBelow_end hn
    · intro n hn
      exact nomatch (hnil ▸ hn : n ∈ ([] : List (TcpNode TcpSeg)))
    · intro n hn
      exact nomatch (hnil ▸ hn : n ∈ ([] : List (TcpNode TcpSeg)))
  | upTo m k r n _ _ _ hfind _ =>
    obtain ⟨hn, pre, post, hns, hpre⟩ := tcpQueueFind_split hfind
    obtain ⟨hnodes, -⟩ := tcpQueueRemoveUntil_spec hns hpre hn hcount
    obtain ⟨hbelow, hbehind⟩ := h.split hns
    rw [hn] at hbelow hbehind
    refine ⟨fun _ => .inr ⟨n, ?_, hn⟩, fun _ => ⟨⟨pre, ?_, hbelow⟩, ?_, ?_, rfl⟩⟩
    · rw [hns]
      exact mem_append_right _ (mem_cons_self ..)
    · show c.sendQueue.nodes = pre ++ (tcpQueueRemoveUntil _ _ _).nodes
      rw [hnodes]
      exact hns
    · intro m' hm'
      exact (hbehind m' (hnodes ▸ hm')).1
    · intro m' hm'
      exact (hbehind m' (hnodes ▸ hm')).2

def sampleSent : TcpConn := runConn sampleConn (sampleOpen ++ sampleSend)

theorem sampleSent_contiguous : Contiguous sampleSent :=
  (runConn_sendInv (.fresh sampleData ⟨1, 10, 2, 20⟩) _).contiguous (by decide +kernel)

theorem tcpHandleAck_cumulative_sample :
    CumulativeAck sampleSent 111 (tcpHandleAck sampleData sampleSent { ackNum := 111 }) :=
  (tcpHandleAck_cumulative sampleData { ackNum := 111 } sampleSent_contiguous
    (by decide +kernel) (by decide +kernel)).mpr (.inl (by decide +kernel))

/-- An acknowledgment of the first five bytes is not taken at all. -/
theorem tcpHandleAck_inside_segment :
    Contiguous sampleSent ∧ 0 < 106 - sampleSent.sendSeqNum ∧
      106 - sampleSent.sendSeqNum ≤ sampleSent.sendSeqEnd - sampleSent.sendSeqNum ∧
      ¬ CumulativeAck sampleSent 106 (tcpHandleAck sampleData sampleSent { ackNum := 106 }) := by
  refine ⟨sampleSent_contiguous, by decide +kernel, by decide +kernel, ?_⟩
  intro h
  have hseq : (tcpHandleAck sampleData sampleSent { ackNum := 106 }).sendSeqNum ≠ 106 := by
    decide +kernel
  exact hseq h.seqNum

end FinsStack.Tcp
