import FinsStack.Tcp.Frame

/-!
# Everything processing one received segment can do

`FlagsStep` lists the outcomes of `tcp_process_flags` and `SegStep` those of
`tcp_process_seg`.  `drainLoop_induct` and `tcpHandleData_induct` package the
induction over the drain loop: what every processed segment, every discarded one and
every stored one keeps, the whole call keeps.
-/

namespace FinsStack.Tcp

/-! ### `tcp_process_flags` -/

def Receiving (s : TcpState) : Prop := s = .established ∨ s = .finWait1 ∨ s = .finWait2
deriving Decidable

def PeerDone (s : TcpState) : Prop :=
  s = .closing ∨ s = .timeWait ∨ s = .closeWait ∨ s = .lastAck

def FinTaken (c : TcpConn) (seg : TcpSeg) : Prop :=
  hasFlag seg.flags FLAG_ACK = true ∧ tcpConnIsFinished c = true ∧ c.finSent = true

def FinEdge (c : TcpConn) (seg : TcpSeg) (new : TcpState) : Prop :=
  (c.state = .established ∧ new = .closeWait) ∨ (c.state = .finWait1 ∧ new = .closing) ∨
  (c.state = .finWait1 ∧ new = .timeWait ∧ FinTaken c seg) ∨
  (c.state = .finWait2 ∧ new = .timeWait)

theorem finTaken_of {c : TcpConn} {seg : TcpSeg}
    (hfin : (hasFlag seg.flags FLAG_ACK && tcpConnIsFinished c) = true) (hsent : c.finSent) :
    FinTaken c seg := by
  rw [Bool.and_eq_true] at hfin
  exact ⟨hfin.1, hfin.2, hsent⟩

theorem finEdge_peerDone {c : TcpConn} {seg : TcpSeg} {new : TcpState} (h : FinEdge c seg new) :
    PeerDone new := by
  rcases h with ⟨-, rfl⟩ | ⟨-, rfl⟩ | ⟨-, rfl, -⟩ | ⟨-, rfl⟩
  · exact .inr (.inr (.inl rfl))
  · exact .inl rfl
  · exact .inr (.inl rfl)
  · exact .inr (.inl rfl)

inductive FlagsStep (c : TcpConn) (seg : TcpSeg) : FlagsRet → TcpConn → Prop
  /-- Nothing is assigned; data is handed on only after the peer's FIN. -/
  | keep (r : FlagsRet) (h : r = .deliver → seg.dataLen ≠ 0 → PeerDone c.state) :
      FlagsStep c seg r c
  | data (hs : Receiving c.state) (hd : seg.dataLen ≠ 0) :
      FlagsStep c seg .deliver (advanceRecv c seg.dataLen32)
  | finWait2 (hs : c.state = .finWait1) (ht : FinTaken c seg) (hd : seg.dataLen = 0) :
      FlagsStep c seg .silent (c.setState .finWait2)
  | finWait2Data (hs : c.state = .finWait1) (ht : FinTaken c seg) (hd : seg.dataLen ≠ 0) :
      FlagsStep c seg .deliver (advanceRecv (c.setState .finWait2) seg.dataLen32)
  | timeWait (hs : c.state = .closing) (ht : FinTaken c seg) :
      FlagsStep c seg .silent (startMslTimer (c.setState .timeWait))
  | closed (r : FlagsRet) (hs : c.state = .lastAck) (ht : FinTaken c seg) :
      FlagsStep c seg r (c.setState .closed)
  | fin (new : TcpState) (g : GbnState) (he : FinEdge c seg new)
      (hf : hasFlag seg.flags FLAG_FIN = true) (hg : g = c.toGbnState ∨ new = .timeWait) :
      FlagsStep c seg .deliver
        { alertShutdownRd ((consumeFin c seg).setState new) with toGbnState := g }

/-- The flags `tcp_process_flags` returns: those it got, if `recv_seq_num` does not move; with
    ACK; or with FIN and ACK, when everything this side has to send is acknowledged and its
    FIN is not out yet. -/
inductive FlagsReply (c : TcpConn) (sf : UInt16) (c' : TcpConn) : UInt16 → Prop
  | keep (h : c'.recvSeqNum = c.recvSeqNum) : FlagsReply c sf c' sf
  | ack : FlagsReply c sf c' (sf ||| FLAG_ACK)
  | fin (hdone : tcpConnIsFinished c = true)
      (hs : c.state = .finWait1 ∨ c.state = .closing ∨ c.state = .lastAck)
      (hsent : c.finSent = false) :
      FlagsReply c sf c' (sf ||| FLAG_FIN ||| FLAG_ACK)

structure FlagsOutcome (c : TcpConn) (seg : TcpSeg) (sf : UInt16)
    (x : FlagsRet × TcpConn × UInt16) : Prop where
  step : FlagsStep c seg x.1 x.2.1
  reply : FlagsReply c sf x.2.1 x.2.2

section

variable (c : TcpConn) (seg : TcpSeg) (sf : UInt16)
include c seg sf

theorem acceptData_outcome (hs : Receiving c.state) :
    FlagsOutcome c seg sf (acceptData c seg sf) := by
  unfold acceptData
  split
  · rename_i hd
    exact ⟨.data hs hd, .ack⟩
  · exact ⟨.keep _ nofun, .keep rfl⟩

theorem refuseData_outcome (hs : PeerDone c.state) :
    FlagsOutcome c seg sf (refuseData c seg sf) := by
  unfold refuseData
  split
  · exact ⟨.keep _ (fun _ _ => hs), .ack⟩
  · exact ⟨.keep _ (fun _ _ => hs), .keep rfl⟩

theorem processFlagsFinWait1_outcome (hs : c.state = .finWait1) :
    FlagsOutcome c seg sf (processFlagsFinWait1 c seg sf) := by
  have hopen : Receiving c.state := .inr (.inl hs)
  have hreply : ∀ d, (hasFlag seg.flags FLAG_ACK && tcpConnIsFinished c) = true →
      ¬ c.finSent → FlagsReply c sf d (sf ||| FLAG_FIN ||| FLAG_ACK) := fun d hfin hsent =>
    .fin (Bool.and_eq_true_iff.mp hfin).2 (.inl hs) (Bool.eq_false_iff.mpr hsent)
  unfold processFlagsFinWait1
  split
  · exact ⟨.keep _ nofun, .keep rfl⟩
  split
  · rename_i hf
    simp only []
    split
    · rename_i hfin
      split
      · rename_i hsent
        exact ⟨.fin .timeWait _ (.inr (.inr (.inl ⟨hs, rfl, finTaken_of hfin hsent⟩))) hf
          (.inr rfl), .ack⟩
      · rename_i hsent
        exact ⟨.fin .closing c.toGbnState (.inr (.inl ⟨hs, rfl⟩)) hf (.inl rfl),
          hreply _ hfin hsent⟩
    · exact ⟨.fin .closing c.toGbnState (.inr (.inl ⟨hs, rfl⟩)) hf (.inl rfl), .ack⟩
  split
  · rename_i hfin
    split
    · rename_i hsent
      unfold acceptData
      split
      · rename_i hd
        exact ⟨.finWait2Data hs (finTaken_of hfin hsent) hd, .ack⟩
      · rename_i hd
        exact ⟨.finWait2 hs (finTaken_of hfin hsent) (not_not.mp hd), .keep rfl⟩
    · rename_i hsent
      simp only []
      split
      · rename_i hd
        exact ⟨.data hopen hd, hreply _ hfin hsent⟩
      · rename_i hd
        exact ⟨.keep _ (fun _ h => absurd h hd), hreply _ hfin hsent⟩
  · exact acceptData_outcome c seg sf hopen

theorem processFlagsClosing_outcome (hs : c.state = .closing) :
    FlagsOutcome c seg sf (processFlagsClosing c seg sf) := by
  have hdone : PeerDone c.state := .inl hs
  unfold processFlagsClosing
  split
  · exact ⟨.keep _ nofun, .keep rfl⟩
  split
  · rename_i hfin
    split
    · rename_i hsent
      exact ⟨.timeWait hs (finTaken_of hfin hsent), .keep rfl⟩
    · rename_i hsent
      rw [Bool.and_eq_true] at hfin
      exact ⟨.keep _ (fun _ _ => hdone),
        .fin hfin.2 (.inr (.inl hs)) (Bool.eq_false_iff.mpr hsent)⟩
  split
  · exact ⟨.keep _ (fun _ _ => hdone), .ack⟩
  · exact ⟨.keep _ (fun _ _ => hdone), .keep rfl⟩

theorem processFlagsLastAck_outcome (hs : c.state = .lastAck) :
    FlagsOutcome c seg sf (processFlagsLastAck c seg sf) := by
  have hdone : PeerDone c.state := .inr (.inr (.inr hs))
  unfold processFlagsLastAck
  split
  · rename_i hfin
    split
    · rename_i hsent
      unfold refuseData
      split
      · exact ⟨.closed _ hs (finTaken_of hfin hsent), .ack⟩
      · exact ⟨.closed _ hs (finTaken_of hfin hsent), .keep rfl⟩
    · rename_i hsent
      have hcomm : sf ||| FLAG_ACK ||| FLAG_FIN = sf ||| FLAG_FIN ||| FLAG_ACK := by
        rw [UInt16.or_assoc, UInt16.or_comm FLAG_ACK, ← UInt16.or_assoc]
      rw [Bool.and_eq_true] at hfin
      rw [hcomm]
      exact ⟨.keep _ (fun _ _ => hdone),
        .fin hfin.2 (.inr (.inr hs)) (Bool.eq_false_iff.mpr hsent)⟩
  · exact refuseData_outcome c seg sf hdone

theorem tcpProcessFlags_outcome : FlagsOutcome c seg sf (tcpProcessFlags c seg sf) := by
  unfold tcpProcessFlags
  split
  case h_1 hs =>
    split
    · exact ⟨.keep _ nofun, .keep rfl⟩
    split
    · rename_i hf
      exact ⟨.fin .closeWait c.toGbnState (.inl ⟨hs, rfl⟩) hf (.inl rfl), .ack⟩
    · exact acceptData_outcome c seg sf (.inl hs)
  case h_2 hs => exact processFlagsFinWait1_outcome c seg sf hs
  case h_3 hs =>
    split
    · exact ⟨.keep _ nofun, .keep rfl⟩
    split
    · rename_i hf
      exact ⟨.fin .timeWait _ (.inr (.inr (.inr ⟨hs, rfl⟩))) hf (.inr rfl), .ack⟩
    · exact acceptData_outcome c seg sf (.inr (.inr hs))
  case h_4 hs => exact processFlagsClosing_outcome c seg sf hs
  case h_5 hs =>
    split
    · exact ⟨.keep _ nofun, .keep rfl⟩
    split
    · exact ⟨.keep _ (fun _ _ => .inr (.inl hs)), .ack⟩
    · exact ⟨.keep _ nofun, .keep rfl⟩
  case h_6 hs =>
    split
    · exact ⟨.keep _ nofun, .keep rfl⟩
    split
    · exact ⟨.keep _ (fun _ _ => .inr (.inr (.inl hs))), .ack⟩
    · exact refuseData_outcome c seg sf (.inr (.inr (.inl hs)))
  case h_7 hs => exact processFlagsLastAck_outcome c seg sf hs
  all_goals exact ⟨.keep _ nofun, .keep rfl⟩

end

variable {c : TcpConn} {seg : TcpSeg} {md : TcpData} {α : Type} {a b : UInt32}

theorem FlagsReply.congr {d d' : TcpConn} {sf sf' : UInt16} (h : FlagsReply c sf d sf')
    (hd : d'.recvSeqNum = d.recvSeqNum) : FlagsReply c sf d' sf' := by
  cases h with
  | keep h => exact .keep (hd.trans h)
  | ack => exact .ack
  | fin hdone hs hsent => exact .fin hdone hs hsent

/-! ### `tcp_process_seg` -/

/-- The outcomes of `tcp_process_seg`: those of the flags, followed by the options, by
    the hand-off of the data, or by nothing. -/
inductive SegStep (md : TcpData) (c : TcpConn) (seg : TcpSeg) : TcpConn → Prop
  | options (c1 : TcpConn) (o : ConnOpts) (hf : FlagsStep c seg .silent c1)
      (hok : OptsOk c1.toConnOpts → OptsOk o) (ho : negotiating c1 = false → o = c1.toConnOpts) :
      SegStep md c seg { c1 with toConnOpts := o }
  | handOff (c1 : TcpConn) (hf : FlagsStep c seg .deliver c1) (hd : seg.dataLen ≠ 0)
      (hflow : md.flowDaemon = true) :
      SegStep md c seg (c1.emit (.data c1.addr seg.data))
  | bare (r : FlagsRet) (c1 : TcpConn) (hf : FlagsStep c seg r c1)
      (h : r = .deliver → seg.dataLen ≠ 0 → md.flowDaemon = false) :
      SegStep md c seg c1

section

variable (md : TcpData) (c : TcpConn) (seg : TcpSeg) (sf : UInt16)

theorem tcpProcessSeg_outcome : SegStep md c seg (tcpProcessSeg md c seg sf).2.1 ∧
    FlagsReply c sf (tcpProcessSeg md c seg sf).2.1 (tcpProcessSeg md c seg sf).2.2 := by
  obtain ⟨hf, hreply⟩ := tcpProcessFlags_outcome c seg sf
  unfold tcpProcessSeg
  rcases hp : tcpProcessFlags c seg sf with ⟨r, c1, sf1⟩
  rw [hp] at hf hreply
  cases r with
  | drop => exact ⟨.bare _ c1 hf nofun, hreply⟩
  | silent =>
    obtain ⟨o, hok, ho, h⟩ := tcpProcessOptions_frame c1 seg
    simp only [h]
    exact ⟨.options c1 o hf hok ho, hreply.congr rfl⟩
  | deliver =>
    simp only []
    split
    · rename_i hd
      split
      · rename_i hflow
        exact ⟨.handOff c1 hf hd hflow, hreply.congr rfl⟩
      · rename_i hflow
        exact ⟨.bare _ c1 hf (fun _ _ => by simpa using hflow), hreply⟩
    · rename_i hd
      exact ⟨.bare _ c1 hf (fun _ h => absurd h hd), hreply⟩

theorem tcpProcessSeg_step : SegStep md c seg (tcpProcessSeg md c seg sf).2.1 :=
  (tcpProcessSeg_outcome md c seg sf).1

end

/-! ### The drain loop -/

theorem FlagsStep.recvQueue_eq {c' : TcpConn} {r : FlagsRet} (h : FlagsStep c seg r c') :
    c'.recvQueue = c.recvQueue := by
  cases h <;> rfl

theorem SegStep.recvQueue_eq {c' : TcpConn} (h : SegStep md c seg c') :
    c'.recvQueue = c.recvQueue := by
  cases h with
  | options c1 o hf | handOff c1 hf | bare r c1 hf => exact hf.recvQueue_eq

def TcpConn.popRecv (c : TcpConn) : TcpConn :=
  { c with recvQueue := tcpQueueRemoveFront c.recvQueue }

theorem popRecv_nodes {n : TcpNode TcpSeg} {ns : List (TcpNode TcpSeg)}
    (h : c.recvQueue.nodes = n :: ns) : c.popRecv.recvQueue.nodes = ns := by
  simp only [TcpConn.popRecv, tcpQueueRemoveFront, h]

theorem drainStep_process {n : TcpNode TcpSeg} (h : drainStep c n = .process) :
    n.seqNum = c.recvSeqNum := by
  unfold drainStep at h
  split at h
  · split at h
    · cases h
    · split at h <;> cases h
  · split at h
    · assumption
    · split at h
      · split at h <;> cases h
      · cases h

/-- **Induction over the drain loop.**  What discarding the front and processing a
    front at `recv_seq_num` keep, the loop keeps. -/
theorem drainLoop_induct {P : TcpConn → Prop}
    (hdiscard : ∀ c n ns, c.recvQueue.nodes = n :: ns → P c →
      P { c.popRecv with recvWin := uint32Increase c.recvWin n.data.dataLen32 c.recvMaxWin })
    (hprocess : ∀ c n ns c', c.recvQueue.nodes = n :: ns → n.seqNum = c.recvSeqNum →
      SegStep md c.popRecv n.data c' → P c → P c') (c : TcpConn) (sf : UInt16) (h : P c) :
    P (drainLoop md c.recvQueue.nodes c sf).1 := by
  generalize hns : c.recvQueue.nodes = ns
  induction ns generalizing c sf with
  | nil => exact h
  | cons n ns ih =>
    unfold drainLoop
    split
    · exact h
    · exact ih _ sf (hdiscard c n ns hns h) (popRecv_nodes hns)
    · rename_i hstep
      have hs := tcpProcessSeg_step md c.popRecv n.data sf
      have hrest : (tcpProcessSeg md c.popRecv n.data sf).2.1.recvQueue.nodes = ns := by
        rw [hs.recvQueue_eq]
        exact popRecv_nodes hns
      exact ih _ _ (hprocess c n ns _ hns (drainStep_process hstep) hs h) hrest

def storedNode (c : TcpConn) (seg : TcpSeg) : TcpNode TcpSeg :=
  { data := seg, len := seg.dataLen32, seqNum := seg.seqNum, seqEnd := seg.seqEnd,
    addr := c.nextAddr }

theorem tcpQueueInsertLoop_perm {node : TcpNode α} {ns ns' : List (TcpNode α)}
    (h : tcpQueueInsertLoop node a b ns = some ns') : ns'.Perm (node :: ns) := by
  induction ns generalizing ns' with
  | nil => cases h
  | cons m ns ih =>
    unfold tcpQueueInsertLoop at h
    split at h
    · cases h
      exact .refl _
    · cases h
    · obtain ⟨ns'', hloop, rfl⟩ := Option.map_eq_some_iff.mp h
      exact ((ih hloop).cons m).trans (.swap node m ns)

theorem tcpQueueInsert_perm {q q' : TcpQueue α} {node : TcpNode α}
    (h : tcpQueueInsert q node a b = some q') : q'.nodes.Perm (node :: q.nodes) := by
  unfold tcpQueueInsert at h
  split at h
  · cases h
    exact .refl _
  · rename_i front rest hnodes
    split at h
    · cases h
      exact .refl _
    · cases h
    · split at h
      · cases h
        exact List.perm_append_singleton node q.nodes
      · cases h
      · obtain ⟨ns, hloop, rfl⟩ := Option.map_eq_some_iff.mp h
        rw [hnodes]
        exact ((tcpQueueInsertLoop_perm hloop).cons front).trans (.swap node front rest)

theorem tcpQueueInsert_mem {q q' : TcpQueue α} {node : TcpNode α}
    (h : tcpQueueInsert q node a b = some q') : ∀ n ∈ q'.nodes, n = node ∨ n ∈ q.nodes := by
  intro n hn
  exact List.mem_cons.mp ((tcpQueueInsert_perm h).mem_iff.mp hn)

theorem tcpQueueRemoveFront_mem {q : TcpQueue α} {n : TcpNode α}
    (hn : n ∈ (tcpQueueRemoveFront q).nodes) : n ∈ q.nodes := by
  unfold tcpQueueRemoveFront at hn
  split at hn
  · exact hn
  · rename_i heq
    rw [heq]
    exact List.mem_cons_of_mem _ hn

/-- **Induction over `tcp_handle_data`.** -/
theorem tcpHandleData_induct {P : TcpConn → Prop} (hwin : ∀ c w, P c → P { c with recvWin := w })
    (hwake : ∀ c m, P c → P { c with toMainCtl := m })
    (hdiscard : ∀ c n ns, c.recvQueue.nodes = n :: ns → P c → P c.popRecv)
    (hprocess : ∀ c n ns c', c.recvQueue.nodes = n :: ns → n.seqNum = c.recvSeqNum →
      SegStep md c.popRecv n.data c' → P c → P c')
    (hinorder : ∀ c', seg.seqNum = c.recvSeqNum → SegStep md c seg c' → P c → P c')
    (hstore : ∀ q, seg.seqNum ≠ c.recvSeqNum →
      tcpInWindow seg.seqNum seg.seqEnd c.recvSeqNum c.recvSeqEnd = true →
      tcpQueueInsert c.recvQueue (storedNode c seg) c.recvSeqNum c.recvSeqEnd = some q → P c →
      P { c with recvQueue := q, nextAddr := c.nextAddr + 1 }) (h : P c) :
    P (tcpHandleData md c seg).1 := by
  unfold tcpHandleData
  split
  · rename_i heq
    have h1 : P (tcpProcessSeg md c seg 0).2.1 :=
      hinorder _ heq (tcpProcessSeg_step md c seg 0) h
    unfold handleInOrder
    refine hwake _ _ (drainLoop_induct ?_ hprocess _ _ ?_)
    · intro c' n ns hns hc'
      exact hwin _ _ (hdiscard c' n ns hns hc')
    · split
      · exact hwin _ _ h1
      · exact h1
  · rename_i hne
    simp only [handleOutOfOrder]
    split
    · split
      · rename_i hin
        split
        · rename_i q hq
          exact hwin _ _ (hstore q hne hin hq h)
        · exact h
      · exact h
    · exact h

/-- The flags that ask for the old `ack_seg`. -/
def FLAG_REPEAT : UInt16 := FLAG_ACK ||| FLAG_ACK_NOW ||| FLAG_ACK_SAME

theorem handleOutOfOrder_flags (c : TcpConn) (seg : TcpSeg) :
    (handleOutOfOrder c seg).2 = (if seg.dataLen ≠ 0 then FLAG_REPEAT
      else if hasFlag seg.flags FLAG_FIN then FLAG_ACK else 0) := by
  unfold handleOutOfOrder FLAG_REPEAT
  generalize (if seg.dataLen ≠ 0 then FLAG_ACK ||| FLAG_ACK_NOW ||| FLAG_ACK_SAME
    else if hasFlag seg.flags FLAG_FIN then FLAG_ACK else 0 : UInt16) = sf
  simp only []
  repeat' split
  all_goals rfl

end FinsStack.Tcp
