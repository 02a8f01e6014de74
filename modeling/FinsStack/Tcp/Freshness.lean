import FinsStack.Tcp.Handshake

/-!
# Which window is the newest

`tcp_handle_ACK` compares `seq_num` and `ack_num` with those of the segment the last window
came from.  It compares them as plain numbers, so a window behind the wrap is ignored, and an
acknowledgment inside the queue is not compared at all.  The handshake takes a window and does
not keep its numbers.
-/

namespace FinsStack.Tcp

open FinsStack.Lib

variable {c c' : TcpConn} {seg : TcpSeg} {last x : UInt32}

/-- One of the four branches takes the acknowledgment. -/
abbrev Acceptable (c : TcpConn) (seg : TcpSeg) : Prop :=
  if tcpInWindow seg.ackNum seg.ackNum c.sendSeqNum c.sendSeqEnd then
    seg.ackNum = c.sendSeqNum ∨ seg.ackNum = c.sendSeqEnd ∨
      (tcpQueueFind c.sendQueue seg.ackNum).isSome
  else c.finSent ∧ seg.ackNum = c.fsse

def decisive (c : TcpConn) (seg : TcpSeg) : UInt32 × UInt32 :=
  if seg.seqNum = c.sendWinSeq then (c.sendWinAck, seg.ackNum) else (c.sendWinSeq, seg.seqNum)

abbrev Newer (c : TcpConn) (seg : TcpSeg) : Prop :=
  seqDist (decisive c seg).1 (decisive c seg).2 < 2 ^ 31

def Fresh (md : TcpData) (c : TcpConn) (seg : TcpSeg) : Prop :=
  Acceptable c seg → (tcpHandleAck md c seg).toSendWindow =
    if Newer c seg then advertised c seg else c.toSendWindow

def Used (c : TcpConn) (seg : TcpSeg) : Prop :=
  c.sendWinSeq = seg.seqNum ∧ c.sendWinAck = seg.ackNum

def Unwrapped (last x : UInt32) : Prop :=
  if last ≤ x then x.toNat - last.toNat < 2 ^ 31 else last.toNat - x.toNat ≤ 2 ^ 31

abbrev Inside (c : TcpConn) (seg : TcpSeg) : Prop :=
  tcpInWindow seg.ackNum seg.ackNum c.sendSeqNum c.sendSeqEnd ∧
    seg.ackNum ≠ c.sendSeqNum ∧ seg.ackNum ≠ c.sendSeqEnd

def InOrder (c : TcpConn) (seg : TcpSeg) : Prop :=
  Acceptable c seg →
    if Inside c seg then Newer c seg else Unwrapped (decisive c seg).1 (decisive c seg).2

theorem unwrapped_iff : Unwrapped last x ↔ (seqDist last x < 2 ^ 31 ↔ last ≤ x) := by
  have hl := last.toNat_lt
  unfold Unwrapped
  rcases seqDist_cases last x with ⟨hle, hd⟩ | ⟨hlt, hd⟩
  · simp [UInt32.le_iff_toNat_le, hle, hd]
  · simp only [UInt32.le_iff_toNat_le, Nat.not_le.mpr hlt, hd, if_false, iff_false, Nat.not_lt]
    omega

theorem isWinUpdate_iff : isWinUpdate c seg ↔ (decisive c seg).1 ≤ (decisive c seg).2 := by
  unfold decisive isWinUpdate
  split
  · rename_i heq
    simp [heq]
  · rename_i hne
    simp [Ne.symm hne, UInt32.lt_iff_le_and_ne]

/-! ### What the branches take -/

theorem updateWindow_window (c : TcpConn) (seg : TcpSeg) : (updateWindow c seg).toSendWindow =
    if isWinUpdate c seg then advertised c seg else c.toSendWindow := by
  unfold updateWindow
  split <;> rfl

theorem tcpHandleAck_window (md : TcpData) (h : Acceptable c seg) :
    (tcpHandleAck md c seg).toSendWindow =
      if Inside c seg ∨ isWinUpdate c seg then advertised c seg else c.toSendWindow := by
  unfold Acceptable at h
  unfold tcpHandleAck
  split at h
  · rename_i hwin
    rw [if_pos hwin]
    split
    · rename_i heq
      have hin : ¬ Inside c seg := fun h => h.2.1 heq
      simp only [hin, false_or, ackDuplicate]
      split
      · obtain ⟨g, k, rf, -, hd⟩ := countDuplicate_frame md (updateWindow c seg)
        rw [hd]
        exact updateWindow_window c seg
      · exact updateWindow_window c seg
    split
    · rename_i heq
      have hin : ¬ Inside c seg := fun h => h.2.2 heq
      simp only [hin, false_or, ackAll]
      split
      · obtain ⟨k, r, -, hs⟩ := settleAll_frame _
        rw [hs]
        exact updateWindow_window _ seg
      · exact updateWindow_window _ seg
    · rename_i hne hend
      obtain ⟨n, hn⟩ := Option.isSome_iff_exists.mp ((h.resolve_left hne).resolve_left hend)
      simp only [ackTo, hn]
      rw [if_pos (.inl ⟨hwin, hne, hend⟩)]
      obtain ⟨k, r, -, hs⟩ := settlePartial_frame _ _
      rw [hs]
      rfl
  · rename_i hwin
    have hin : ¬ Inside c seg := fun h => hwin h.1
    rw [if_neg hwin, if_pos h]
    simp only [hin, false_or]
    exact updateWindow_window _ seg

theorem Used.newer (h : Used c seg) : Newer c seg ∧ isWinUpdate c seg := by
  simp [decisive, isWinUpdate, h.1, h.2, seqDist]

theorem fresh_iff (md : TcpData) : Fresh md c seg ↔ InOrder c seg := by
  have hused : advertised c seg = c.toSendWindow → Used c seg := fun h =>
    ⟨(congrArg SendWindow.sendWinSeq h).symm, (congrArg SendWindow.sendWinAck h).symm⟩
  refine forall_congr' fun h => ?_
  rw [tcpHandleAck_window md h]
  have hiff : (if Inside c seg then Newer c seg
      else Unwrapped (decisive c seg).1 (decisive c seg).2) ↔
        (Newer c seg ↔ Inside c seg ∨ isWinUpdate c seg) := by
    rw [unwrapped_iff, ← isWinUpdate_iff]
    split
    · rename_i hin
      exact ⟨fun h => iff_of_true h (.inl hin), fun h => h.mpr (.inl hin)⟩
    · rename_i hin
      rw [or_iff_right hin]
  rw [hiff]
  split <;> split <;> rename_i h₁ h₂
  · exact iff_of_true rfl (iff_of_true h₂ h₁)
  · exact iff_of_false (fun h => h₂ (hused h).newer.1) fun h => h₂ (h.mpr h₁)
  · exact iff_of_false (fun h => h₁ (.inr (hused h.symm).newer.2)) fun h => h₁ (h.mp h₂)
  · exact iff_of_true rfl (iff_of_false h₂ h₁)

/-! ### The handshake -/

theorem Greets.used {env : RecvEnv} (h : Greets c seg env c') : Used c' seg ↔ Used c seg := by
  cases h with
  | stay | reset => exact Iff.rfl
  | crossed o | again o =>
    obtain ⟨a, s, hc⟩ := sendControl_frame _ _
    rw [hc]
    exact Iff.rfl
  | synAck o =>
    obtain ⟨a, s, hc⟩ := sendControl_frame _ _
    rw [hc, Used, (signalOpen_tells _ _).1.aside.window]
    exact Iff.rfl
  | ack o =>
    rw [Used, (signalOpen_tells _ _).1.aside.window]
    exact Iff.rfl

/-- **When windows are taken in order.**  The window of an acceptable segment is taken exactly if
    the segment is newer, if and only if the wrap does not lie between the numbers compared and,
    where nothing is compared, the segment is newer. -/
theorem windows_fresh_iff (md : TcpData) (c : TcpConn) (seg : TcpSeg) (env : RecvEnv) :
    (Fresh md c seg ↔ InOrder c seg) ∧
      (Used (tcpRecvSynSent { c with state := .synSent } seg env.parent) seg ↔ Used c seg) ∧
      (Used (tcpRecvSynRecv { c with state := .synRecv } seg env.rand env.parent) seg ↔
        Used c seg) :=
  ⟨fresh_iff md, (tcpRecvSynSent_opens _ seg env rfl).used,
    (tcpRecvSynRecv_opens _ seg env rfl).used⟩

def nearWrap : TcpConn :=
  runConn sampleConn [sampleEvent (.connect sampleFcf 100),
    sampleRecv { seqNum := 0xFFFFFFF0, seqEnd := 0xFFFFFFF0, ackNum := 101,
                 flags := FLAG_SYN ||| FLAG_ACK },
    sampleRecv { seqNum := 0xFFFFFFF1, seqEnd := 0xFFFFFFF1, ackNum := 101, flags := FLAG_ACK,
                 winSize := 4000 }]

def behindWrap : TcpSeg := { seqNum := 5, seqEnd := 5, ackNum := 101, flags := FLAG_ACK }

theorem closed_window_ignored : ¬ Fresh sampleData nearWrap behindWrap := by
  intro h
  have hw := h (by decide +kernel)
  rw [if_pos (by decide +kernel)] at hw
  exact absurd (congrArg SendWindow.sendWin hw) (by decide +kernel)

end FinsStack.Tcp
