import FinsStack.Tcp.SendQueue

/-!
# The retransmission timer

The timer is started for new data only while `first_flag` is set, which is once after the
handshake and again after a partial acknowledgment in the middle of a go-back-N pass.  A
full acknowledgment stops it and leaves `first_flag` alone.  So the timer watches
outstanding data exactly as long as no segment is sent into an empty `send_queue` with
`first_flag` clear and the timer stopped.
-/

namespace FinsStack.Tcp

def Watched (c : TcpConn) : Prop :=
  c.runningFlag = true → Retransmits c.state → c.sendQueue.nodes ≠ [] →
    c.toGbnTimer = true ∨ c.toGbnFlag = true ∨ c.gbnFlag = true

/-- New data is sent with `first_flag` set, with the timer armed, or behind other data. -/
def TimerReady (c : TcpConn) (e : Event) : Prop :=
  match e.act with
  | .main _ =>
    SendsNew e.md c → c.firstFlag = true ∨ c.toGbnTimer = true ∨ c.sendQueue.nodes ≠ []
  | _ => True

instance (c : TcpConn) : (e : Event) → Decidable (TimerReady c e)
  | ⟨md, .main _⟩ => inferInstanceAs (Decidable (SendsNew md c → _ ∨ _ ∨ _))
  | ⟨_, .recv _ _⟩ | ⟨_, .write _ _ _⟩ | ⟨_, .close _⟩ | ⟨_, .listen _⟩ | ⟨_, .accept _ _⟩
  | ⟨_, .search _⟩ | ⟨_, .connect _ _⟩ | ⟨_, .stubConnect _ _⟩ | ⟨_, .poll _ _ _⟩
  | ⟨_, .pollStub _ _ _⟩ | ⟨_, .fcf _ _⟩ | ⟨_, .shutdown⟩ | ⟨_, .childAccepted _⟩
  | ⟨_, .gbnFire⟩ | ⟨_, .delayedFire⟩ | ⟨_, .requestFire _⟩ | ⟨_, .tick _⟩
  | ⟨_, .round _ _ _ _⟩ => isTrue trivial

/-! ### The invariant

A pass is always started by a timeout, which arms the timer again, so the timer or its
expiry alone is the trigger. -/

def Armed (c : TcpConn) : Prop :=
  c.runningFlag = true → Retransmits c.state → c.sendQueue.nodes ≠ [] →
    c.toGbnTimer = true ∨ c.toGbnFlag = true

structure TimerInv (c : TcpConn) : Prop extends SendInv c where
  armed : Armed c
  timeout : 0 < c.timeout

theorem timerOnceStart_of_pos {t : Rat} (h : 0 < t) : timerOnceStart t := by
  simpa [timerOnceStart] using h

variable {c c' : TcpConn}

theorem armed_of_nil (h : c.sendQueue.nodes = []) : Armed c :=
  fun _ _ hne => absurd h hne

theorem Armed.congr (h : Armed c) (hrun : c'.runningFlag → c.runningFlag)
    (hs : Retransmits c'.state → Retransmits c.state) (hsend : c'.toSendSide = c.toSendSide)
    (hg : c'.toGbnState = c.toGbnState) : Armed c' := by
  intro hr hre hne
  rw [hsend] at hne
  rw [hg]
  exact h (hrun hr) (hs hre) hne

theorem Armed.resend {n : TcpNode TcpSeg} (h : Armed c) (hr : Resend c n c')
    (hg : c'.toGbnTimer = c.toGbnTimer) (hf : c'.toGbnFlag = c.toGbnFlag) : Armed c' := by
  intro hrun hre _
  rw [hg, hf]
  exact h (hr.running ▸ hrun) (hr.state ▸ hre) (List.ne_nil_of_mem hr.mem)

theorem WriteMove.armed (h : WriteMove c c') (hi : Armed c) : Armed c' := by
  obtain ⟨w, pe, m, n, l, -, -, rfl⟩ := h
  exact hi

theorem GbnMove.armed {g : GbnState} (h : GbnMove c g) (hi : Armed c) :
    Armed { c with toGbnState := g } := by
  cases h with
  | fire h => exact fun _ _ _ => .inr rfl
  | timeoutIdle hq | passIdle hq => exact armed_of_nil hq
  | passEnd => exact hi
  | unused g h =>
    intro hrun hre _
    rcases h with h | h
    · exact absurd hre h
    · exact nomatch h.symm.trans hrun

theorem closeEdge_before (h : CloseEdge c.state c'.state) :
    c.state = .synRecv ∨ Retransmits c.state := by
  generalize c.state = old at h ⊢
  generalize c'.state = new at h
  cases h with
  | synRecv => exact .inl rfl
  | established => exact .inr (.inl rfl)
  | closeWait => exact .inr (.inr (.inl rfl))

theorem SendMove.armed (h : SendMove c c') (hi : TimerInv c) : Armed c' := by
  have ha := hi.armed
  cases h with
  | same h hs hrun => exact ha.congr hrun (hs ▸ id) h.send h.gbn
  | close h he hrun =>
    rcases closeEdge_before he with hs | hs
    · refine armed_of_nil ?_
      rw [h.send]
      exact hi.early (early_of_synRecv hs)
    · exact ha.congr hrun (fun _ => hs) h.send h.gbn
  | stop h hs hoff => exact fun hrun => nomatch hoff.symm.trans hrun
  | early h =>
    refine fun _ hre _ => absurd ?_ (not_early_of_retransmits hre)
    refine ⟨h.state, fun hc => ?_⟩
    rw [h.running]
    exact h.early.2 (h.closed hc)
  | opened seg h =>
    refine armed_of_nil ?_
    rw [h.send]
    rcases h.before with hs | hs
    · exact hi.early (early_of_synSent hs)
    · exact hi.early (early_of_synRecv hs)
  | data h _ _ =>
    rcases h.gbn with hg | htw
    · exact ha.congr h.running h.retransmits h.send hg
    · intro _ hre _
      rw [htw] at hre
      exact absurd hre (by decide)
  | fin sep hs hr hw | refuse serialNum => exact ha
  | gbn g h => exact h.armed ha
  | timeout n h hs hfront hg =>
    intro _ _ _
    rw [hg]
    exact .inl (timerOnceStart_of_pos hi.timeout)
  | fast n h hs hfront hg | next n h hs hnode hg =>
    refine ha.resend h ?_ ?_
    · rw [hg]
    · rw [hg]
  | write | writeEarly | interrupt | requestFire => exact WriteMove.armed (by simp) ha

theorem SendMove.timeout_pos (h : SendMove c c') (hi : 0 < c.timeout) : 0 < c'.timeout := by
  have write {c' : TcpConn} (h : WriteMove c c') : 0 < c'.timeout := by
    obtain ⟨w, pe, m, n, l, -, -, rfl⟩ := h
    exact hi
  cases h with
  | same h _ _ | close h _ _ | stop h _ _ | data h _ _ => exact h.timeout ▸ hi
  | early h => exact h.timeout hi
  | opened seg h =>
    rw [h.timeout]
    decide
  | fin sep hs hr hw | gbn g h | refuse serialNum | requestFire a => exact hi
  | timeout n h | fast n h | next n h => exact h.timeout ▸ hi
  | write | writeEarly | interrupt => exact write (by simp)

theorem SendMove.timerInv (h : SendMove c c') (hi : TimerInv c) : TimerInv c' :=
  ⟨h.sendInv hi.toSendInv, h.armed hi, h.timeout_pos hi.timeout⟩

theorem AckStep.timerInv {seg : TcpSeg} (h : AckStep c seg c') (hi : TimerInv c) : TimerInv c' := by
  have hsend := h.sendInv hi.toSendInv
  have ha := hi.armed
  cases h with
  | outside hwin hfin => exact hi
  | unsent m hwin hne hend hfind => exact ⟨hsend, ha, hi.timeout⟩
  | duplicate m w g k rf heq hw hg =>
    refine ⟨hsend, ?_, hi.timeout⟩
    rcases hg with rfl | rfl
    · exact ha
    · exact fun _ _ _ => .inl (timerOnceStart_of_pos hi.timeout)
  | all m w g k r hne heq hw hg hr =>
    exact ⟨hsend, armed_of_nil (tcpQueueRemoveAll_spec hi.counted).1, hr hi.timeout⟩
  | fin w hwin hsent hack hw =>
    exact ⟨hsend, armed_of_nil (tcpQueueRemoveAll_spec hi.counted).1, hi.timeout⟩
  | upTo m k r n hwin hne hend hfind hr =>
    refine ⟨hsend, ?_, hr hi.timeout⟩
    intro hrun hre _
    show (c.toGbnState.afterPartial r.timeout).toGbnTimer = true ∨
      (c.toGbnState.afterPartial r.timeout).toGbnFlag = true
    unfold GbnState.afterPartial
    split
    · refine ha hrun hre ?_
      obtain ⟨-, pre, post, hns, -⟩ := tcpQueueFind_split hfind
      rw [hns]
      exact List.append_ne_nil_of_right_ne_nil _ (List.cons_ne_nil _ _)
    · exact .inl (timerOnceStart_of_pos (hr hi.timeout))

theorem FreshSend.timerInv {seg : TcpSeg} (h : FreshSend c seg c') (hcan : canSend c)
    (hs : Retransmits c.state) (hrun : c.runningFlag)
    (hready : c.firstFlag ∨ c.toGbnTimer ∨ c.sendQueue.nodes ≠ []) (hi : TimerInv c) :
    TimerInv c' := by
  refine ⟨h.sendInv hcan hs hi.toSendInv, ?_, h.timeout ▸ hi.timeout⟩
  intro _ _ _
  rw [h.gbn]
  unfold GbnState.afterSend
  split
  · exact .inl (timerOnceStart_of_pos hi.timeout)
  · rename_i hfirst
    rcases hready with hf | ht | hne
    · exact absurd hf hfirst
    · exact .inl ht
    · exact hi.armed hrun hs hne

theorem step_timerInv (c : TcpConn) (e : Event) (hi : TimerInv c) (hok : TimerReady c e) :
    TimerInv (step c e) := by
  apply step_send_invariant (fun c c' hm => hm.timerInv) ?_ ?_ hi
  · intro rand seg hact hnew hfresh hi
    obtain ⟨-, hrun, hs, hround⟩ := id hnew
    unfold TimerReady at hok
    rw [hact] at hok
    exact hfresh.timerInv hround.2.2.2.2.2 hs hrun (hok hnew) hi
  · intro seg d _ _ hack hi
    exact hack.timerInv hi

/-! ### The condition is exact -/

theorem step_running_of_sendsNew {md : TcpData} (rand : UInt32) (hnew : SendsNew md c) :
    (step c ⟨md, .main rand⟩).runningFlag = true := by
  obtain ⟨hpc, hrun, hs, hround⟩ := hnew
  obtain ⟨seg, hfresh⟩ := sendNew_fresh hs
  obtain ⟨a, w, l, -, hack⟩ := mainDelayedAck_frame (sendNew c)
  have hsent : (mainDelayedAck (sendNew c)).runningFlag := by
    rw [hack]
    exact hfresh.running.trans hrun
  show (tcpMainThread md c rand).runningFlag = true
  unfold tcpMainThread
  simp only [hpc, hrun, if_true, tcpMainState_fresh rand hs hround]
  split
  · exact hsent
  · exact hsent

/-- New data that finds `first_flag` clear, the timer stopped and `send_queue` empty is left
    without a trigger. -/
theorem timerReady_of_watched (c : TcpConn) (e : Event) (h : Watched (step c e)) :
    TimerReady c e := by
  obtain ⟨md, act⟩ := e
  cases act with
  | main rand =>
    intro hnew
    have hrun := step_running_of_sendsNew rand hnew
    have hfrom := step_sendStep c ⟨md, .main rand⟩
    generalize step c ⟨md, .main rand⟩ = c' at h hrun hfrom
    cases hfrom with
    | moves hnot _ => exact absurd hnew (hnot rand rfl)
    | ack seg env d hact => cases hact
    | fresh _ _ _ haside =>
      obtain ⟨-, -, hs, hround⟩ := hnew
      obtain ⟨seg, hfresh⟩ := sendNew_fresh hs
      have hstate : Retransmits c'.state := by
        rw [haside.state, hfresh.state]
        exact hs
      have hqueued : c'.sendQueue.nodes ≠ [] := by
        rw [haside.send, hfresh.send]
        exact List.append_ne_nil_of_right_ne_nil _ (List.cons_ne_nil _ _)
      have hgbn := h hrun hstate hqueued
      rw [haside.gbn, hfresh.gbn] at hgbn
      by_cases hf : c.firstFlag
      · exact .inl hf
      · have hkeep : c.toGbnState.afterSend c.timeout = c.toGbnState := by
          unfold GbnState.afterSend
          rw [if_neg hf]
        rw [hkeep] at hgbn
        rcases hgbn with hg | hg | hg
        · exact .inr (.inl hg)
        · exact nomatch hround.2.1.symm.trans hg
        · exact nomatch hround.2.2.2.1.symm.trans hg
  | _ => trivial

/-- **When outstanding data is watched**: new data is never sent into an empty `send_queue` with
    `first_flag` clear and the timer stopped. -/
theorem watched_iff_timerReady {c₀ : TcpConn} (h₀ : Initial c₀) (es : List Event) :
    Lib.Steps step TimerReady c₀ es ↔ ∀ es₁, es₁ <+: es → Watched (runConn c₀ es₁) := by
  have hstart := initial_sendStart h₀
  have hnil : c₀.sendQueue.nodes = [] := by
    rw [hstart.queue]
    rfl
  refine Lib.steps_iff_everywhere (I := TimerInv) step_timerInv ?_ ?_
    ⟨hstart.sendInv, armed_of_nil hnil, hstart.timeout⟩
  · intro c hi hrun hs hne
    rcases hi.armed hrun hs hne with h | h
    · exact .inl h
    · exact .inr (.inl h)
  · intro c e _ h
    exact timerReady_of_watched c e h

def ackThrough (ackNum : UInt32) : Event :=
  sampleRecv { seqNum := 501, seqEnd := 501, ackNum := ackNum, flags := FLAG_ACK,
               winSize := 4000 }

/-- Ten bytes are acknowledged, and ten more are outstanding. -/
theorem watched_iff_timerReady_sample :
    let c := runConn sampleConn (sampleOpen ++ sampleSend ++ sampleSend ++ [ackThrough 111])
    c.sendQueue.nodes ≠ [] ∧ Watched c :=
  ⟨by decide +kernel, (watched_iff_timerReady (.fresh sampleData ⟨1, 10, 2, 20⟩)
    (sampleOpen ++ sampleSend ++ sampleSend ++ [ackThrough 111])).mp (by decide +kernel) _
    (List.prefix_refl _)⟩

/-- The first ten bytes are acknowledged, the next ten are left without a timer. -/
theorem unwatched_after_full_ack :
    let c := runConn sampleConn (sampleOpen ++ sampleSend ++ [ackThrough 111] ++ sampleSend)
    c.runningFlag = true ∧ c.state = .established ∧ c.sendQueue.nodes ≠ [] ∧
      c.toGbnTimer = false ∧ c.toGbnFlag = false ∧ c.gbnFlag = false := by
  refine ⟨?_, ?_, ?_, ?_, ?_, ?_⟩ <;> decide +kernel

end FinsStack.Tcp
