import FinsStack.Tcp.WriteStream

/-!
# Flow control

A segment is sent while `send_win` exceeds the flight, but its length is capped by
`send_win` alone.  As long as `send_win` is only lowered this is enough: it is then what
is left of the advertised window.  An update in the middle of a flight sets it back to
the whole window, and the next segment may reach beyond the window by the flight.

New data is sent if more than one byte fits into the window and into the congestion window, not if
one does.  So a window of one byte, or a segment size of one, which is what the congestion window
starts from, stops the connection (`proceeds_iff`).
-/

namespace FinsStack.Tcp

/-! ### `send_win` never exceeds the advertised window -/

def WinInv (c : TcpConn) : Prop := c.sendWin ≤ c.sendMaxWin

variable {c c' : TcpConn}

theorem WinInv.lowered {len : UInt32} (h : WinInv c)
    (hw : c'.toSendWindow = { c.toSendWindow with sendWin := uint32Decrease c.sendWin len }) :
    WinInv c' := by
  unfold WinInv
  rw [hw, UInt32.le_iff_toNat_le]
  exact Nat.le_trans (uint32Decrease_le c.sendWin len) (UInt32.le_iff_toNat_le.mp h)

theorem WinInv.congr (h : WinInv c) (hw : c'.toSendWindow = c.toSendWindow) : WinInv c' := by
  unfold WinInv
  rw [hw]
  exact h

theorem winInv_of_reset {w : SendWindow} {max : UInt32}
    (hw : c.toSendWindow = { w with sendMaxWin := max, sendWin := max }) : WinInv c := by
  unfold WinInv
  rw [hw]
  exact UInt32.le_refl max

theorem WriteMove.winInv (h : WriteMove c c') (hi : WinInv c) : WinInv c' := by
  obtain ⟨w, pe, m, n, l, -, -, rfl⟩ := h
  exact hi

theorem SendMove.winInv (h : SendMove c c') (hi : WinInv c) : WinInv c' := by
  cases h with
  | same h _ _ | close h _ _ | stop h _ _ | data h _ _ => exact hi.congr h.window
  | early h =>
    rcases h.window with hw | ⟨w, hw⟩
    · exact hi.congr hw
    · exact winInv_of_reset hw
  | opened seg h => exact winInv_of_reset h.window
  | fin sep hs hr hw | gbn g h | refuse serialNum | requestFire a => exact hi
  | timeout n h | fast n h | next n h => exact hi.lowered h.window
  | write | writeEarly | interrupt => exact WriteMove.winInv (by simp) hi

theorem AckStep.winInv {seg : TcpSeg} (h : AckStep c seg c') (hi : WinInv c) : WinInv c' := by
  have updated {w : SendWindow} (hw : w = c.toSendWindow ∨ w = advertised c seg) :
      w.sendWin ≤ w.sendMaxWin := by
    rcases hw with rfl | rfl
    · exact hi
    · exact UInt32.le_refl _
  cases h with
  | outside hwin hfin | unsent m hwin hne hend hfind => exact hi
  | duplicate m w g k rf heq hw hg => exact updated hw
  | all m w g k r hne heq hw hg hr => exact updated hw
  | upTo m k r n hwin hne hend hfind hr => exact updated (.inr rfl)
  | fin w hwin hsent hack hw => exact updated hw

theorem step_winInv (c : TcpConn) (e : Event) (h : WinInv c) : WinInv (step c e) := by
  apply step_send_invariant (fun c c' hm => hm.winInv) ?_ ?_ h
  · exact fun _ seg _ _ hfresh hi => hi.lowered hfresh.window
  · intro seg d _ _ hack hi
    exact hack.winInv hi

theorem runConn_winInv {c₀ : TcpConn} (h₀ : Initial c₀) (es : List Event) :
    WinInv (runConn c₀ es) := by
  refine Lib.run_invariant step_winInv ?_ es
  show c₀.sendWin ≤ c₀.sendMaxWin
  rw [(initial_sendStart h₀).window.1]
  exact UInt32.le_refl _

/-! ### What is outstanding -/

def WithinWindow (c : TcpConn) : Prop := c.sendSeqEnd - c.sendWinAck ≤ c.sendMaxWin
deriving Decidable

/-- The last window update came with the last acknowledgment, and there is room beside the
    flight: for a whole segment, for all that is unsent, or because `send_win` has been
    lowered by the flight. -/
def FlightFits (c : TcpConn) : Prop :=
  c.sendWinAck = c.sendSeqNum ∧
  (c.mss.toUInt32 ≤ c.sendWin - flightSize c ∨ unsentLen c ≤ c.sendWin - flightSize c ∨
    c.sendWin ≤ c.sendMaxWin - flightSize c)
deriving Decidable

theorem FlightFits.segment (h : FlightFits c) (hinv : WinInv c) (hcan : canSend c) :
    (flightSize c).toNat + (nextDataLen c).toNat ≤ c.sendMaxWin.toNat := by
  obtain ⟨hmss, hunsent, hwin, -⟩ := nextDataLen_bounds hcan
  have hspace : 1 < recvSpace c := (of_decide_eq_true hcan).2.1
  unfold recvSpace at hspace
  have hflight : (flightSize c).toNat < c.sendWin.toNat := by omega
  have hmax := UInt32.le_iff_toNat_le.mp hinv
  rw [UInt32.le_iff_toNat_le] at hunsent hwin
  have hleft : (c.sendWin - flightSize c).toNat = c.sendWin.toNat - (flightSize c).toNat :=
    UInt32.toNat_sub_of_le _ _ (UInt32.le_iff_toNat_le.mpr (Nat.le_of_lt hflight))
  rcases h.2 with hfit | hfit | hfit
  · rw [UInt32.le_iff_toNat_le, hleft, UInt16.toNat_toUInt32] at hfit
    omega
  · rw [UInt32.le_iff_toNat_le, hleft] at hfit
    omega
  · rw [UInt32.le_iff_toNat_le, UInt32.toNat_sub_of_le _ _
      (UInt32.le_iff_toNat_le.mpr (by omega))] at hfit
    omega

theorem FreshSend.withinWindow {seg : TcpSeg} (h : FreshSend c seg c') (hinv : WinInv c)
    (hcan : canSend c) (hfits : FlightFits c) : WithinWindow c' := by
  have hsum := hfits.segment hinv hcan
  have hlt := c.sendMaxWin.toNat_lt
  have hack : c'.sendWinAck = c.sendSeqNum := by
    rw [h.window]
    exact hfits.1
  have hmax : c'.sendMaxWin = c.sendMaxWin := by rw [h.window]
  have hend : c'.sendSeqEnd = c.sendSeqEnd + nextDataLen c := by rw [h.send]
  unfold WithinWindow
  rw [hack, hmax, hend]
  have hdist : c.sendSeqEnd + nextDataLen c - c.sendSeqNum = flightSize c + nextDataLen c := by
    unfold flightSize
    grind
  rw [hdist, UInt32.le_iff_toNat_le, UInt32.toNat_add, Nat.mod_eq_of_lt (by omega)]
  exact hsum

/-- **New data stays within the window** if it is sent from a state with room beside the flight. -/
theorem outstanding_within_window {c₀ : TcpConn} (h₀ : Initial c₀) (es : List Event)
    (md : TcpData) (rand : UInt32) (hnew : SendsNew md (runConn c₀ es))
    (hfits : FlightFits (runConn c₀ es)) :
    WithinWindow (step (runConn c₀ es) ⟨md, .main rand⟩) := by
  have hinv := runConn_winInv h₀ es
  generalize runConn c₀ es = c at hnew hfits hinv ⊢
  cases step_sendStep c ⟨md, .main rand⟩ with
  | moves hnot _ => exact absurd hnew (hnot rand rfl)
  | ack seg env d hact => cases hact
  | fresh _ _ _ haside =>
    obtain ⟨seg, hfresh⟩ := sendNew_fresh hnew.2.2.1
    have hwithin := hfresh.withinWindow hinv hnew.2.2.2.2.2.2.2.2 hfits
    unfold WithinWindow
    rw [haside.window, haside.send]
    exact hwithin

def tenBytes : Event :=
  sampleRecv { seqNum := 501, seqEnd := 501, ackNum := 101, flags := FLAG_ACK, winSize := 10 }

def sampleFour : List Event :=
  sampleOpen ++ [tenBytes, sampleWrite [1, 2, 3, 4] (by decide), sampleRound]

theorem ten_bytes_fit : ([1, 2, 3, 4, 5, 6, 7, 8, 9, 10] : List UInt8).length < 2 ^ 31 := by decide

def sampleTen : Event := sampleWrite [1, 2, 3, 4, 5, 6, 7, 8, 9, 10] ten_bytes_fit

theorem outstanding_within_window_sample :
    (runConn sampleConn (sampleFour ++ [sampleTen, sampleRound])).sendSeqEnd = 111 ∧
      WithinWindow (step (runConn sampleConn (sampleFour ++ [sampleTen])) ⟨sampleData, .main 0⟩) :=
  ⟨by decide +kernel,
    outstanding_within_window (.fresh sampleData ⟨1, 10, 2, 20⟩) (sampleFour ++ [sampleTen])
      sampleData 0 (by decide +kernel) (by decide +kernel)⟩

/-- The window update is repeated while four bytes are in flight: the next segment makes
    fourteen. -/
theorem outstanding_beyond_window :
    let c := runConn sampleConn (sampleFour ++ [tenBytes, sampleTen])
    SendsNew sampleData c ∧ c.sendWinAck = 101 ∧ c.sendMaxWin = 10 ∧
      (step c sampleRound).sendSeqEnd = 115 ∧ ¬ WithinWindow (step c sampleRound) := by
  refine ⟨?_, ?_, ?_, ?_, ?_⟩ <;> decide +kernel

/-! ### New data while the window is open -/

/-- ESTABLISHED, with bytes to send, nothing unacknowledged and nothing else to do.
    `send_max_win` is what the last accepted update advertised. -/
def Unblocked (c : TcpConn) : Prop :=
  c.state = .established ∧ c.sendQueue.nodes = [] ∧ 0 < unsentLen c ∧ 1 ≤ c.sendMaxWin ∧
  c.requestInterrupt = false ∧ c.toGbnFlag = false ∧ c.fastFlag = false ∧ c.gbnFlag = false
deriving Decidable

def Proceeds (md : TcpData) (c : TcpConn) : Prop :=
  ∃ l seg, (tcpMainEstablished md c).out = c.out ++ l ∧ .seg .fresh seg ∈ l ∧
    1 ≤ seg.data.length ∧ seg.data.length ≤ min c.mss.toNat c.sendMaxWin.toNat

def RoomForTwo (c : TcpConn) : Prop := 1 < c.sendWin ∧ 1 < c.congWindow ∧ 0 < c.mss
deriving Decidable

theorem Unblocked.canSend_iff (h : Unblocked c) (hi : SendInv c) :
    canSend c = true ↔ 1 < c.sendWin ∧ 1 < c.congWindow := by
  obtain ⟨-, hq, hunsent, -⟩ := h
  have hflight : (flightSize c).toNat = 0 := by
    rw [hi.flight, hq]
    rfl
  have hrecv : 1 < recvSpace c ↔ 1 < c.sendWin := by
    rw [recvSpace, hflight, UInt32.lt_iff_toNat_lt]
    show _ ↔ 1 < _
    omega
  have hcong : congSpace c = c.congWindow := by
    rw [congSpace, hflight]
    grind
  simp [canSend, hunsent, hrecv, hcong]

theorem Unblocked.round {md : TcpData} (h : Unblocked c) (hbuf : BufOk c.writeQueue c.writeIndex) :
    mainEstablished md c =
      if canSend c then sendNewEstablished c else { c with mainWaitFlag := true } := by
  obtain ⟨-, -, hunsent, -, hint, hto, hfast, hgbn⟩ := h
  have hne : tcpQueueIsEmpty c.writeQueue = false := by
    rw [Bool.eq_false_iff]
    intro hempty
    have hnil : unsentOf c.writeQueue c.writeIndex = [] := by
      rw [unsentOf, List.isEmpty_iff.mp hempty]
      exact List.drop_nil
    rw [UInt32.lt_iff_toNat_lt, unsentLen, hbuf.length_unsent, hnil] at hunsent
    exact Nat.lt_irrefl 0 hunsent
  simp only [mainEstablished, hint, hto, hfast, hgbn, hne, Bool.false_and, Bool.and_false,
    Bool.false_eq_true, if_false]

/-- **When new data is sent**: exactly if two bytes fit. -/
theorem proceeds_iff {c₀ : TcpConn} (h₀ : Initial c₀) (es : List Event) (md : TcpData)
    (h : Unblocked (runConn c₀ es)) : Proceeds md (runConn c₀ es) ↔ RoomForTwo (runConn c₀ es) := by
  have hi := runConn_sendInv h₀ es
  have hwin := UInt32.le_iff_toNat_le.mp (runConn_winInv h₀ es)
  have hbuf := (Lib.run_invariant step_writing (initial_sendStart h₀).writing es).write.buf
  change BufOk (runConn c₀ es).writeQueue (runConn c₀ es).writeIndex at hbuf
  generalize runConn c₀ es = c at h hi hwin hbuf ⊢
  obtain ⟨a, w, l', hl', hack⟩ := mainDelayedAck_frame (mainEstablished md c)
  have hout : (tcpMainEstablished md c).out = (mainEstablished md c).out ++ l' := by
    rw [tcpMainEstablished, hack]
  rw [h.round hbuf] at hout
  by_cases hcan : canSend c
  · rw [if_pos hcan] at hout
    obtain ⟨seg, hfresh⟩ := sendNewEstablished_fresh c
    obtain ⟨l, -, hsent⟩ := hfresh.out
    obtain ⟨w', pe, l₀, -, hcut⟩ := cutSegment_frame c (nextDataLen c)
    obtain ⟨hmss, -, hle, hpos⟩ := nextDataLen_bounds hcan
    constructor
    · rintro ⟨-, s, -, -, hone, hmin⟩
      refine ⟨((h.canSend_iff hi).mp hcan).1, ((h.canSend_iff hi).mp hcan).2, ?_⟩
      exact UInt16.lt_iff_toNat_lt.mpr (Nat.le_trans hone (Nat.le_trans hmin (Nat.min_le_left ..)))
    · rintro ⟨-, -, hm⟩
      refine ⟨l₀ ++ [.seg .fresh seg] ++ l ++ l', seg, ?_, by simp, ?_⟩
      · rw [hout, hsent, hcut]
        simp only [List.append_assoc]
      · rw [hfresh.data_length hcan hbuf, Nat.le_min]
        exact ⟨UInt32.lt_iff_toNat_lt.mp (hpos hm), hmss,
          Nat.le_trans (UInt32.le_iff_toNat_le.mp hle) hwin⟩
  · rw [if_neg hcan] at hout
    constructor
    · rintro ⟨k, s, hk, hs, -⟩
      rw [List.append_cancel_left (hk.symm.trans hout)] at hs
      exact (hl' _ hs).elim
    · exact fun hr => absurd ((h.canSend_iff hi).mpr ⟨hr.1, hr.2.1⟩) hcan

def twoBytes (n : UInt16) : List Event :=
  sampleOpen ++ [sampleRecv { seqNum := 501, seqEnd := 501, ackNum := 101, flags := FLAG_ACK,
                              winSize := n }, sampleWrite [1, 2] (by decide)]

theorem two_bytes_proceed : Proceeds sampleData (runConn sampleConn (twoBytes 2)) :=
  (proceeds_iff (.fresh sampleData ⟨1, 10, 2, 20⟩) (twoBytes 2) sampleData (by decide +kernel)).mpr
    (by decide +kernel)

theorem one_byte_stalls : Unblocked (runConn sampleConn (twoBytes 1)) ∧
    ¬ Proceeds sampleData (runConn sampleConn (twoBytes 1)) := by
  have hout : (tcpMainEstablished sampleData (runConn sampleConn (twoBytes 1))).out =
      (runConn sampleConn (twoBytes 1)).out := by decide +kernel
  refine ⟨by decide +kernel, ?_⟩
  rintro ⟨l, seg, hl, hseg, -⟩
  rw [List.append_right_eq_self.mp (hl.symm.trans hout)] at hseg
  cases hseg

end FinsStack.Tcp
