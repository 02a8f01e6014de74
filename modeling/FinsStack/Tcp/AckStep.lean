import FinsStack.Tcp.Frame

/-!
# Everything `tcp_handle_ACK` can do

`AckStep c seg c'` lists the outcomes of handling the acknowledgment of `seg`, one
constructor per outcome with the test that leads there and the groups it assigns;
`tcpHandleAck_step` shows the list is complete.  Each invariant of the sending side
is then a case analysis over this relation.
-/

namespace FinsStack.Tcp

/-! ### Windows, round-trip time, congestion -/

/-- The send window after `seg` was taken as a window update. -/
def advertised (c : TcpConn) (seg : TcpSeg) : SendWindow :=
  ⟨scaledWin c seg, scaledWin c seg, seg.seqNum, seg.ackNum⟩

theorem updateWindow_frame (c : TcpConn) (seg : TcpSeg) :
    ∃ w, (w = c.toSendWindow ∨ w = advertised c seg) ∧
      updateWindow c seg = { c with toSendWindow := w } := by
  unfold updateWindow
  split
  · exact ⟨_, .inr rfl, rfl⟩
  · exact ⟨_, .inl rfl, rfl⟩

theorem clampTimeout_pos (t : Rat) : 0 < clampTimeout t := by
  have hmin : (0 : Rat) < TCP_GBN_TO_MIN := by decide
  have hmax : (0 : Rat) < TCP_GBN_TO_MAX := by decide
  unfold clampTimeout
  split
  · exact hmin
  · split
    · exact hmax
    · grind

theorem tcpCalcRtt_frame (c : TcpConn) :
    ∃ r, 0 < r.timeout ∧ tcpCalcRtt c = { c with toRttState := r } :=
  ⟨(tcpCalcRtt c).toRttState, clampTimeout_pos _, rfl⟩

/-- The round trip is measured, or it is not. -/
theorem tcpCalcRtt_ite_frame (c : TcpConn) (b : Bool) :
    ∃ r, (0 < c.timeout → 0 < r.timeout) ∧
      (if b then tcpCalcRtt c else c) = { c with toRttState := r } := by
  split
  · obtain ⟨r, hr, h⟩ := tcpCalcRtt_frame c
    exact ⟨r, fun _ => hr, h⟩
  · exact ⟨c.toRttState, id, rfl⟩

theorem growCongWindow_frame (c : TcpConn) :
    ∃ k, growCongWindow c = { c with toCongCtl := k } := by
  unfold growCongWindow
  split
  · exact ⟨_, rfl⟩
  · exact ⟨_, rfl⟩

def GbnState.restart (g : GbnState) (timeout : Rat) : GbnState :=
  { g with toGbnTimer := timerOnceStart timeout, toGbnFlag := false }

def GbnState.afterPartial (g : GbnState) (timeout : Rat) : GbnState :=
  if g.gbnFlag then { g with firstFlag := true } else g.restart timeout

theorem countDuplicate_frame (md : TcpData) (c : TcpConn) :
    ∃ g k rf, (g = c.toGbnState ∨ g = c.toGbnState.restart c.timeout) ∧
      countDuplicate md c =
        { c with toGbnState := g, toCongCtl := k,
                 toRttState := { c.toRttState with rttFlag := rf } } := by
  simp only [countDuplicate]
  split
  iterate 2
    split
    · exact ⟨_, _, _, .inr rfl, rfl⟩
    · exact ⟨_, _, c.rttFlag, .inl rfl, rfl⟩
  · exact ⟨_, _, c.rttFlag, .inl rfl, rfl⟩

theorem settleAll_frame (c : TcpConn) :
    ∃ k r, (0 < c.timeout → 0 < r.timeout) ∧ settleAll c =
      { c with toGbnState := { c.toGbnState with gbnFlag := false, toGbnTimer := false },
               toCongCtl := k, toRttState := r } := by
  obtain ⟨r, hr, h⟩ := tcpCalcRtt_ite_frame { c with fastFlag := false, gbnFlag := false } c.rttFlag
  unfold settleAll
  simp only [h]
  split
  iterate 2
    obtain ⟨k, hk⟩ := growCongWindow_frame
      { c with fastFlag := false, gbnFlag := false, toRttState := r, toGbnTimer := false }
    exact ⟨k, r, hr, hk⟩
  · exact ⟨_, r, hr, rfl⟩

theorem settlePartial_frame (c : TcpConn) (numNodes : Nat) :
    ∃ k r, (0 < c.timeout → 0 < r.timeout) ∧ settlePartial c numNodes =
      { c with toGbnState := c.toGbnState.afterPartial r.timeout, toCongCtl := k,
               toRttState := r } := by
  obtain ⟨r, hr, h⟩ := tcpCalcRtt_ite_frame { c with firstFlag := c.firstFlag || c.gbnFlag }
    (c.rttFlag && !tcpInWindow c.rttSeqNum c.rttSeqNum c.sendSeqNum c.sendSeqEnd)
  have hgbn : (if c.gbnFlag then
        { c with firstFlag := c.firstFlag || c.gbnFlag, toRttState := r }
      else { c with firstFlag := c.firstFlag || c.gbnFlag, toRttState := r,
                    toGbnTimer := timerOnceStart r.timeout, toGbnFlag := false }) =
      { c with toRttState := r, toGbnState := c.toGbnState.afterPartial r.timeout } := by
    unfold GbnState.afterPartial
    split
    · rename_i hg
      simp only [hg, Bool.or_true]
    · rename_i hg
      simp only [hg, Bool.or_false, GbnState.restart]
  unfold settlePartial
  simp only [h, hgbn]
  split
  iterate 2
    obtain ⟨k, hk⟩ := growCongWindow_frame
      { c with toRttState := r, toGbnState := c.toGbnState.afterPartial r.timeout }
    exact ⟨k, r, hr, hk⟩
  · split
    · exact ⟨_, r, hr, rfl⟩
    · exact ⟨_, r, hr, rfl⟩

/-! ### The outcomes -/

inductive AckStep (c : TcpConn) (seg : TcpSeg) : TcpConn → Prop
  /-- The number lies outside the sent window and is not that of the FIN. -/
  | outside
      (hwin : tcpInWindow seg.ackNum seg.ackNum c.sendSeqNum c.sendSeqEnd = false)
      (hfin : ¬ (c.finSent ∧ seg.ackNum = c.fsse)) :
      AckStep c seg c
  /-- The number lies inside the window but no queued segment starts there. -/
  | unsent (m : MainCtl)
      (hwin : tcpInWindow seg.ackNum seg.ackNum c.sendSeqNum c.sendSeqEnd = true)
      (hne : seg.ackNum ≠ c.sendSeqNum) (hend : seg.ackNum ≠ c.sendSeqEnd)
      (hfind : tcpQueueFind c.sendQueue seg.ackNum = none) :
      AckStep c seg { c with toMainCtl := m }
  | duplicate (m : MainCtl) (w : SendWindow) (g : GbnState) (k : CongCtl) (rf : Bool)
      (heq : seg.ackNum = c.sendSeqNum)
      (hw : w = c.toSendWindow ∨ w = advertised c seg)
      (hg : g = c.toGbnState ∨ g = c.toGbnState.restart c.timeout) :
      AckStep c seg { c with
        toMainCtl := m, toSendWindow := w, toGbnState := g, toCongCtl := k
        toRttState := { c.toRttState with rttFlag := rf } }
  | all (m : MainCtl) (w : SendWindow) (g : GbnState) (k : CongCtl) (r : RttState)
      (hne : seg.ackNum ≠ c.sendSeqNum) (heq : seg.ackNum = c.sendSeqEnd)
      (hw : w = c.toSendWindow ∨ w = advertised c seg)
      (hg : g = if seg.dataLen = 0 then
          { c.toGbnState with gbnFlag := false, toGbnTimer := false } else c.toGbnState)
      (hr : 0 < c.timeout → 0 < r.timeout) :
      AckStep c seg { c with
        toMainCtl := m, toSendWindow := w, toGbnState := g, toCongCtl := k, toRttState := r
        sendQueue := tcpQueueRemoveAll c.sendQueue.nodes c.sendQueue
        sendSeqNum := seg.ackNum }
  | upTo (m : MainCtl) (k : CongCtl) (r : RttState) (n : TcpNode TcpSeg)
      (hwin : tcpInWindow seg.ackNum seg.ackNum c.sendSeqNum c.sendSeqEnd = true)
      (hne : seg.ackNum ≠ c.sendSeqNum) (hend : seg.ackNum ≠ c.sendSeqEnd)
      (hfind : tcpQueueFind c.sendQueue seg.ackNum = some n)
      (hr : 0 < c.timeout → 0 < r.timeout) :
      AckStep c seg { c with
        toMainCtl := m, toSendWindow := advertised c seg
        toGbnState := c.toGbnState.afterPartial r.timeout, toCongCtl := k, toRttState := r
        sendQueue := tcpQueueRemoveUntil seg.ackNum c.sendQueue.nodes c.sendQueue
        sendSeqNum := seg.ackNum }
  | fin (w : SendWindow)
      (hwin : tcpInWindow seg.ackNum seg.ackNum c.sendSeqNum c.sendSeqEnd = false)
      (hsent : c.finSent = true) (hack : seg.ackNum = c.fsse)
      (hw : w = c.toSendWindow ∨ w = advertised c seg) :
      AckStep c seg { c with
        toSendWindow := w
        sendQueue := tcpQueueRemoveAll c.sendQueue.nodes c.sendQueue
        sendSeqNum := seg.ackNum
        sendSeqEnd := seg.ackNum
        out := c.out ++ [.finAck] }

theorem ackDuplicate_frame (md : TcpData) (c : TcpConn) (seg : TcpSeg) :
    ∃ w g k rf, (w = c.toSendWindow ∨ w = advertised c seg) ∧
      (g = c.toGbnState ∨ g = c.toGbnState.restart c.timeout) ∧
      ackDuplicate md c seg =
        { c with toSendWindow := w, toGbnState := g, toCongCtl := k,
                 toRttState := { c.toRttState with rttFlag := rf } } := by
  obtain ⟨w, hw, h⟩ := updateWindow_frame c seg
  unfold ackDuplicate
  simp only [h]
  split
  · obtain ⟨g, k, rf, hg, h'⟩ := countDuplicate_frame md { c with toSendWindow := w }
    exact ⟨w, g, k, rf, hw, hg, h'⟩
  · exact ⟨w, c.toGbnState, c.toCongCtl, c.rttFlag, hw, .inl rfl, rfl⟩

theorem ackAll_frame (c : TcpConn) (seg : TcpSeg) :
    ∃ w g k r, (w = c.toSendWindow ∨ w = advertised c seg) ∧
      (g = if seg.dataLen = 0 then
          { c.toGbnState with gbnFlag := false, toGbnTimer := false } else c.toGbnState) ∧
      (0 < c.timeout → 0 < r.timeout) ∧
      ackAll c seg =
        { c with
          toSendWindow := w, toGbnState := g, toCongCtl := k, toRttState := r
          sendQueue := tcpQueueRemoveAll c.sendQueue.nodes c.sendQueue
          sendSeqNum := seg.ackNum } := by
  obtain ⟨w, hw, h⟩ := updateWindow_frame
    { c with
      sendQueue := tcpQueueRemoveAll c.sendQueue.nodes c.sendQueue, sendSeqNum := seg.ackNum } seg
  unfold ackAll
  simp only [h, beq_iff_eq]
  by_cases hd : seg.dataLen = 0
  · simp only [hd, if_true]
    obtain ⟨k, r, hr, h'⟩ := settleAll_frame { c with
      toSendWindow := w, duplicate := 0
      sendQueue := tcpQueueRemoveAll c.sendQueue.nodes c.sendQueue, sendSeqNum := seg.ackNum }
    exact ⟨w, _, k, r, hw, rfl, hr, h'⟩
  · simp only [hd, if_false]
    exact ⟨w, _, _, c.toRttState, hw, rfl, id, rfl⟩

theorem tcpHandleAck_step (md : TcpData) (c : TcpConn) (seg : TcpSeg) :
    AckStep c seg (tcpHandleAck md c seg) := by
  unfold tcpHandleAck
  split
  · rename_i hwin
    split
    · rename_i heq
      obtain ⟨w, g, k, rf, hw, hg, h⟩ := ackDuplicate_frame md c seg
      rw [h]
      exact .duplicate _ w g k rf heq hw hg
    · rename_i hne
      split
      · rename_i heq
        obtain ⟨w, g, k, r, hw, hg, hr, h⟩ := ackAll_frame c seg
        rw [h]
        exact .all _ w g k r hne heq hw hg hr
      · rename_i hend
        unfold ackTo
        split
        · rename_i hfind
          exact .unsent _ hwin hne hend hfind
        · rename_i n hfind
          obtain ⟨k, r, hr, h⟩ := settlePartial_frame
            { takeWindow { c with
                sendQueue := tcpQueueRemoveUntil seg.ackNum c.sendQueue.nodes c.sendQueue
                sendSeqNum := seg.ackNum } seg with duplicate := 0 }
            (1 + (c.sendQueue.nodes.length
              - (tcpQueueRemoveUntil seg.ackNum c.sendQueue.nodes c.sendQueue).nodes.length))
          rw [h]
          exact .upTo _ k r n hwin hne hend hfind hr
  · rename_i hwin
    split
    · rename_i hfin
      obtain ⟨w, hw, h⟩ := updateWindow_frame { c with
        sendQueue := tcpQueueRemoveAll c.sendQueue.nodes c.sendQueue
        sendSeqNum := seg.ackNum, sendSeqEnd := seg.ackNum, out := c.out ++ [.finAck] } seg
      unfold ackFin
      simp only [h]
      exact .fin w (by simpa using hwin) hfin.1 hfin.2 hw
    · rename_i hfin
      exact .outside (by simpa using hwin) hfin

end FinsStack.Tcp
