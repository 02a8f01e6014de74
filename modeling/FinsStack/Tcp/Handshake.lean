import FinsStack.Tcp.SendQueue

/-!
# What both sides agree on when the handshake is complete

SYN_SENT takes the peer's number from the SYN+ACK itself and expects the one behind it.
SYN_RECV expects whatever number the completing segment carries.  On this side of the
connection the numbers always agree: both handlers require `ack_num == send_seq_num + 1`,
and until then `send_seq_num` is the initial number.
-/

namespace FinsStack.Tcp

/-! ### The initial number -/

/-- Until the connection is established, `send_seq_num` is the initial number. -/
def AtIssn (c : TcpConn) : Prop := Early c → c.sendSeqNum = c.issn

variable {c c' : TcpConn} {seg : TcpSeg}

theorem AtIssn.of_later (h : ¬ Early c) : AtIssn c := fun he => absurd he h

theorem AtIssn.congr (h : AtIssn c) (hs : c'.toSendSide = c.toSendSide) (he : Early c' → Early c) :
    AtIssn c' := by
  intro hc
  rw [hs]
  exact h (he hc)

theorem SendMove.atIssn (h : SendMove c c') (hi : AtIssn c) : AtIssn c' := by
  have written {c' : TcpConn} (hm : WriteMove c c') : AtIssn c' := by
    obtain ⟨w, pe, m, n, l, -, -, rfl⟩ := hm
    exact hi.congr rfl id
  by_cases hc : Early c
  · cases h with
    | same h _ _ => exact hi.congr h.send (fun _ => hc)
    | close h he _ => exact .of_later (not_early_of_closeEdge he)
    | stop h hs hoff => exact .of_later (not_early_of_stopped hs hoff)
    | early h =>
      intro _
      rcases h.send with hs | ⟨rand, hs⟩
      · rw [hs]
        exact hi hc
      · rw [hs]
    | opened seg h => exact .of_later (not_early_of_retransmits (.inl h.state))
    | data h _ hoff => exact .of_later (not_early_of_handled h.state hoff)
    | fin sep hs hr hw | gbn g h => exact hi.congr rfl (fun _ => hc)
    | timeout n h hs | fast n h hs | next n h hs => exact absurd hc (not_early_of_retransmits hs)
    | write | writeEarly | refuse | interrupt | requestFire => exact written (by simp)
  · exact .of_later (h.settled hc).1

theorem step_atIssn (c : TcpConn) (e : Event) (h : AtIssn c) : AtIssn (step c e) := by
  apply step_send_invariant (fun c c' hm => hm.atIssn) ?_ ?_ h
  · intro _ seg _ hnew hfresh _
    exact .of_later (not_early_of_retransmits (hfresh.state ▸ hnew.2.2.1))
  · intro seg d _ hs hack _
    refine .of_later (not_early_of_handled ?_ ?_)
    · rw [hack.inert.state]
      rcases hs with hs | hs
      · exact .inl hs
      · exact .inr (.inl hs)
    · intro hc
      rw [hack.inert.state] at hc
      rcases hs with (h | h | h) | (h | h | h | h) <;> exact nomatch h.symm.trans hc

theorem runConn_atIssn {c₀ : TcpConn} (h₀ : Initial c₀) (es : List Event) :
    AtIssn (runConn c₀ es) :=
  Lib.run_invariant step_atIssn (fun _ => (initial_sendStart h₀).seqNum) es

/-! ### Entering ESTABLISHED -/

theorem FlagsStep.from_established {r : FlagsRet} (h : FlagsStep c seg r c')
    (hs : c'.state = .established) : c.state = .established := by
  cases h with
  | keep _ | data _ _ => exact hs
  | finWait2 _ _ _ | finWait2Data _ _ _ =>
    exact nomatch (show TcpState.finWait2 = .established from hs)
  | timeWait _ _ => exact nomatch (show TcpState.timeWait = .established from hs)
  | closed _ _ _ => exact nomatch (show TcpState.closed = .established from hs)
  | fin new g he hf hg =>
    have hnew : new = .established := hs
    rcases he with ⟨h, -⟩ | ⟨-, h⟩ | ⟨-, h, -⟩ | ⟨-, h⟩
    · exact h
    · exact nomatch h.symm.trans hnew
    · exact nomatch h.symm.trans hnew
    · exact nomatch h.symm.trans hnew

theorem SegStep.from_established {md : TcpData} (h : SegStep md c seg c')
    (hs : c'.state = .established) : c.state = .established := by
  cases h with
  | options c₁ o hf _ _ | handOff c₁ hf _ _ | bare r _ hf _ => exact hf.from_established hs

theorem tcpHandleData_from_established (md : TcpData) (c : TcpConn) (seg : TcpSeg) :
    (tcpHandleData md c seg).1.state = .established → c.state = .established := by
  refine tcpHandleData_induct (P := fun d => d.state = .established → c.state = .established)
    ?_ ?_ ?_ ?_ ?_ ?_ id
  · intro d w h
    exact h
  · intro d m h
    exact h
  · intro d n ns _ h
    exact h
  · intro d n ns d' _ _ hstep h hs
    exact h (hstep.from_established hs)
  · intro d' _ hstep h hs
    exact h (hstep.from_established hs)
  · intro q _ _ _ h
    exact h

theorem enters_established {e : Event} (hbefore : c.state ≠ .established)
    (hafter : (step c e).state = .established) :
    ∃ seg env, e.act = .recv seg env ∧ (c.state = .synSent ∨ c.state = .synRecv) := by
  cases step_view c e with
  | inert h => exact absurd (h.state.symm.trans hafter) hbefore
  | move new stop c₁ hrun he h₁ h₂ hstop =>
    have hnew : new = .established := h₂.state.symm.trans hafter
    generalize c.state = s at he
    subst hnew
    cases he
  | opening new d he _ _ _ _ _ hact =>
    obtain ⟨seg, env, hact⟩ := hact
    refine ⟨seg, env, hact, ?_⟩
    generalize c.state = s at he ⊢
    cases he with
    | synSent | simultaneous => exact .inl rfl
    | synRecv => exact .inr rfl
  | restart d hs _ _ _ _ _ hact =>
    obtain ⟨seg, env, hact⟩ := hact
    exact ⟨seg, env, hact, .inr hs⟩
  | data seg env hact _ _ h =>
    have hend := tcpHandleData_from_established e.md (ackFirst e.md c seg) seg
      (h.state.symm.trans hafter)
    exact absurd ((ackFirst_inert e.md c seg).state.symm.trans hend) hbefore
  | credit _ _ _ _ hi => exact absurd (hi.state.symm.trans hafter) hbefore

structure Opened (c : TcpConn) (seg : TcpSeg) (irsn recvSeqNum : UInt32) (c' : TcpConn) : Prop where
  ack : seg.ackNum = c.sendSeqNum + 1
  issn : c'.issn = c.issn
  seqNum : c'.sendSeqNum = seg.ackNum
  seqEnd : c'.sendSeqEnd = seg.ackNum
  irsn : c'.irsn = irsn
  recvSeqNum : c'.recvSeqNum = recvSeqNum

theorem Opened.of_same {d : TcpConn} {i r : UInt32} (h : Opened c seg i r d)
    (hs : c'.toSendSide = d.toSendSide) (hr : c'.toRecvSide = d.toRecvSide) :
    Opened c seg i r c' := by
  refine ⟨h.ack, ?_, ?_, ?_, ?_, ?_⟩
  · rw [hs]
    exact h.issn
  · rw [hs]
    exact h.seqNum
  · rw [hs]
    exact h.seqEnd
  · rw [hr]
    exact h.irsn
  · rw [hr]
    exact h.recvSeqNum

theorem Greets.opened {env : RecvEnv} (h : Greets c seg env c') (hbefore : c.state ≠ .established)
    (hafter : c'.state = .established) :
    c.state = .synSent ∧ Opened c seg seg.seqNum (seg.seqNum + 1) c' ∨
      c.state = .synRecv ∧ Opened c seg c.irsn seg.seqNum c' := by
  cases h with
  | stay | reset hr => exact absurd hafter hbefore
  | crossed o =>
    have hst := (sendControl_view .inert
      (takeSyn ({ c with toConnOpts := o }.setState .synRecv) seg)
      (FLAG_SYN ||| FLAG_ACK)).state
    exact nomatch (show _ = TcpState.synRecv from hst).symm.trans hafter
  | synAck o _ hs hack =>
    refine .inl ⟨hs, Opened.of_same ?_
      ((sendControl_aside _ _).trans (signalOpen_tells _ _).1.aside).send
      ((sendControl_view .inert _ _).trans (signalOpen_tells _ _).1.inert).recv⟩
    exact ⟨hack, rfl, rfl, rfl, rfl, rfl⟩
  | again o =>
    have hst := (sendControl_view .inert
      (takeSyn (startSend { c with toConnOpts := o } env.rand) seg)
      (FLAG_SYN ||| FLAG_ACK)).state
    exact absurd (hst.symm.trans hafter) hbefore
  | ack o _ hs hack =>
    refine .inr ⟨hs, Opened.of_same ?_ (signalOpen_tells _ _).1.aside.send
      (signalOpen_tells _ _).1.inert.recv⟩
    exact ⟨hack, rfl, rfl, rfl, rfl, rfl⟩

/-! ### Agreement -/

def HandshakeAgrees (c : TcpConn) : Prop :=
  c.recvSeqNum = c.irsn + 1 ∧ c.sendSeqNum = c.issn + 1 ∧ c.sendSeqEnd = c.issn + 1
deriving Decidable

theorem Opened.agrees_iff {i r : UInt32} (h : Opened c seg i r c') (hissn : c.sendSeqNum = c.issn) :
    HandshakeAgrees c' ↔ r = i + 1 := by
  have hack : seg.ackNum = c.issn + 1 := by rw [h.ack, hissn]
  constructor
  · intro ha
    rw [← h.recvSeqNum, ha.1, h.irsn]
  · intro hr
    refine ⟨?_, ?_, ?_⟩
    · rw [h.recvSeqNum, h.irsn, hr]
    · rw [h.seqNum, h.issn, hack]
    · rw [h.seqEnd, h.issn, hack]

/-- **When the handshake agrees**: from SYN_SENT, or by the number behind the peer's SYN. -/
theorem handshake_agrees_iff {c₀ : TcpConn} (h₀ : Initial c₀) (es : List Event) (e : Event)
    (hbefore : (runConn c₀ es).state ≠ .established)
    (hafter : (step (runConn c₀ es) e).state = .established) :
    ∃ seg env, e.act = .recv seg env ∧
      (HandshakeAgrees (step (runConn c₀ es) e) ↔
        (runConn c₀ es).state = .synSent ∨ seg.seqNum = (runConn c₀ es).irsn + 1) := by
  have hinv := runConn_atIssn h₀ es
  generalize runConn c₀ es = c at hbefore hafter hinv ⊢
  obtain ⟨seg, env, hact, hs⟩ := enters_established hbefore hafter
  refine ⟨seg, env, hact, ?_⟩
  have hstep : step c e = tcpRecv e.md c seg env := by rw [step, hact]
  rw [hstep] at hafter ⊢
  unfold tcpRecv at hafter ⊢
  split
  · rename_i hin
    rw [if_pos hin] at hafter
    rcases (tcpRecvState_opens e.md seg env hs).opened hbefore hafter with ⟨hs', h⟩ | ⟨hs', h⟩
    · rw [h.agrees_iff (hinv (early_of_synSent hs'))]
      simp [hs']
    · rw [h.agrees_iff (hinv (early_of_synRecv hs'))]
      simp [hs']
  · rename_i hin
    rw [if_neg hin] at hafter
    exact absurd hafter hbefore

def sampleChild : TcpConn :=
  tcpListenChild sampleData sampleConn { seqNum := 500, flags := FLAG_SYN } 100

def completeAt (seqNum : UInt32) : Event :=
  sampleRecv { seqNum := seqNum, seqEnd := seqNum, ackNum := 101, flags := FLAG_ACK,
               winSize := 4000 }

theorem handshake_agrees_iff_sample :
    ∃ seg env, (completeAt 501).act = .recv seg env ∧
      (HandshakeAgrees (step sampleChild (completeAt 501)) ↔
        sampleChild.state = .synSent ∨ seg.seqNum = sampleChild.irsn + 1) :=
  handshake_agrees_iff
    (.child sampleData sampleConn { seqNum := 500, flags := FLAG_SYN } 100) [] (completeAt 501)
    (by decide +kernel) (by decide +kernel)

/-- An acknowledgment that overtakes four bytes of the peer completes the handshake behind
    them. -/
theorem handshake_skips_bytes :
    (step sampleChild (completeAt 505)).state = .established ∧
      (step sampleChild (completeAt 505)).recvSeqNum = sampleChild.irsn + 5 ∧
      ¬ HandshakeAgrees (step sampleChild (completeAt 505)) := by
  refine ⟨?_, ?_, ?_⟩
  · decide +kernel
  · decide +kernel
  · decide +kernel

end FinsStack.Tcp
