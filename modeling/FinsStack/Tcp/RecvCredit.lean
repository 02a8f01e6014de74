import Mathlib.Algebra.BigOperators.Group.List.Basic
import FinsStack.Tcp.NewData
import FinsStack.Tcp.RecvStream

/-!
# The receive window as an account

`recv_win` is what is left of the receive buffer after the segments in `recv_queue` and the
bytes the daemon has not read yet.  Bytes that arrive are taken off it, in order or stored,
and come back when a stored segment is dropped or when the daemon has read
(`TCP_SET_HOST_WINDOW`).

Both ways of changing it saturate.  On the way up that is harmless: `uint32_increase` never
adds more than it is asked to.  On the way down it is not: data in order is taken whatever
the window, a stored segment needs a window that is not zero, and `uint32_decrease` stops
at zero.
-/

namespace FinsStack.Tcp

open Lib

/-! ### Saturating arithmetic -/

theorem uint32Decrease_toNat (a b : UInt32) :
    (uint32Decrease a b).toNat = a.toNat - b.toNat := by
  unfold uint32Decrease
  split
  · rename_i h
    exact UInt32.toNat_sub_of_le a b (UInt32.le_of_lt h)
  · rename_i h
    rw [UInt32.lt_iff_toNat_lt] at h
    show 0 = _
    omega

theorem uint32Increase_le (a b m : UInt32) :
    (uint32Increase a b m).toNat ≤ a.toNat + b.toNat := by
  have hsum : (a + b).toNat = (a.toNat + b.toNat) % 2 ^ 32 := UInt32.toNat_add a b
  have hm := m.toNat_lt
  unfold uint32Increase
  split
  · rename_i h
    rcases h with h | h
    · rw [UInt32.lt_iff_toNat_lt] at h
      omega
    · rw [UInt32.lt_iff_toNat_lt] at h
      omega
  · omega

/-! ### The account -/

def Whole (seg : TcpSeg) : Prop := seg.data.length = seg.dataLen32.toNat
deriving Decidable

def storedBytes (c : TcpConn) : Nat := (c.recvQueue.nodes.map fun n => n.data.data.length).sum

def occupied (c : TcpConn) : Nat :=
  c.recvWin.toNat + storedBytes c + (delivered c.out).length

def WholeQueue (c : TcpConn) : Prop := ∀ n ∈ c.recvQueue.nodes, Whole n.data

variable {c c' : TcpConn} {seg : TcpSeg} {e : Event}

theorem storedBytes_congr (h : c'.recvQueue = c.recvQueue) : storedBytes c' = storedBytes c := by
  unfold storedBytes
  rw [h]

theorem wholeQueue_congr (h : c'.recvQueue = c.recvQueue) (hw : WholeQueue c) : WholeQueue c' := by
  unfold WholeQueue
  rw [h]
  exact hw

theorem occupied_congr (hw : c'.recvWin = c.recvWin) (hq : c'.recvQueue = c.recvQueue)
    (hd : delivered c'.out = delivered c.out) : occupied c' = occupied c := by
  unfold occupied
  rw [hw, storedBytes_congr hq, hd]

theorem Inert.delivered_eq (h : Inert c c') : delivered c'.out = delivered c.out := by
  obtain ⟨l, hl, ho⟩ := h.out
  rw [ho, delivered_append, delivered_sending hl, List.append_nil]

theorem Inert.occupied_eq (h : Inert c c') : occupied c' = occupied c :=
  occupied_congr h.win (congrArg RecvSide.recvQueue h.recv) h.delivered_eq

/-! ### Handling data -/

theorem FlagsStep.window {r : FlagsRet} (h : FlagsStep c seg r c') :
    c'.recvWin = c.recvWin ∧ c'.recvMaxWin = c.recvMaxWin ∧ delivered c'.out = delivered c.out := by
  cases h with
  | keep | data => exact ⟨rfl, rfl, rfl⟩
  | fin new g he hf hg =>
    refine ⟨rfl, rfl, ?_⟩
    show delivered (((c.out ++ [_]) ++ [_]) ++ [_]) = _
    simp [delivered]
  | _ => exact ⟨rfl, rfl, delivered_setState c _⟩

theorem SegStep.window {md : TcpData} (h : SegStep md c seg c') :
    c'.recvWin = c.recvWin ∧ c'.recvMaxWin = c.recvMaxWin ∧
      (delivered c'.out).length ≤ (delivered c.out).length + seg.data.length := by
  cases h with
  | options c1 o hf | bare r c1 hf =>
    obtain ⟨hw, hm, hd⟩ := hf.window
    exact ⟨hw, hm, by rw [hd]; omega⟩
  | handOff c1 hf =>
    obtain ⟨hw, hm, hd⟩ := hf.window
    refine ⟨hw, hm, ?_⟩
    show (delivered (c1.out ++ [.data c1.addr seg.data])).length ≤ _
    rw [delivered_append, hd]
    simp [delivered]

theorem tcpProcessSeg_refused {md : TcpData} {sf : UInt16}
    (h : (tcpProcessSeg md c seg sf).1 = false) :
    delivered (tcpProcessSeg md c seg sf).2.1.out = delivered c.out := by
  have hf := (tcpProcessFlags_outcome c seg sf).step
  unfold tcpProcessSeg at h ⊢
  rcases hp : tcpProcessFlags c seg sf with ⟨r, c1, sf1⟩
  rw [hp] at hf h
  cases r with
  | drop => exact hf.window.2.2
  | silent => cases h
  | deliver =>
    by_cases hd : seg.dataLen ≠ 0
    · by_cases hflow : md.flowDaemon
      · simp [hd, hflow] at h
      · simp only [hd, hflow, if_true, if_false, Bool.false_eq_true, ne_eq, not_false_eq_true]
        exact hf.window.2.2
    · simp [hd] at h

theorem storedBytes_popRecv {n : TcpNode TcpSeg} {ns : List (TcpNode TcpSeg)}
    (h : c.recvQueue.nodes = n :: ns) :
    storedBytes c = n.data.data.length + storedBytes c.popRecv := by
  unfold storedBytes
  rw [popRecv_nodes h, h, List.map_cons, List.sum_cons]

theorem WholeQueue.popRecv (h : WholeQueue c) : WholeQueue c.popRecv :=
  fun n hn => h n (tcpQueueRemoveFront_mem hn)

structure Within (m : UInt32) (k : Nat) (c : TcpConn) : Prop where
  whole : WholeQueue c
  maxWin : c.recvMaxWin = m
  covered : occupied c ≤ k

variable {m : UInt32} {k : Nat}

theorem Within.congr (h : Within m k c) (hw : c'.recvWin = c.recvWin)
    (hm : c'.recvMaxWin = c.recvMaxWin) (hq : c'.recvQueue = c.recvQueue)
    (hd : delivered c'.out = delivered c.out) : Within m k c' :=
  ⟨wholeQueue_congr hq h.whole, hm.trans h.maxWin, occupied_congr hw hq hd ▸ h.covered⟩

theorem Within.inert (h : Within m k c) (hi : Inert c c') : Within m k c' :=
  h.congr hi.win (congrArg RecvSide.recvMaxWin hi.recv) (congrArg RecvSide.recvQueue hi.recv)
    hi.delivered_eq

theorem drainLoop_within (md : TcpData) (sf : UInt16) (h : Within m k c) :
    Within m k (drainLoop md c.recvQueue.nodes c sf).1 := by
  refine drainLoop_induct ?_ ?_ c sf h
  · intro d n ns hns h
    have hstored := storedBytes_popRecv hns
    have hnode : Whole n.data := h.whole n (by rw [hns]; exact List.mem_cons_self ..)
    have hback := uint32Increase_le d.recvWin n.data.dataLen32 d.recvMaxWin
    refine ⟨h.whole.popRecv, h.maxWin, Nat.le_trans ?_ h.covered⟩
    unfold Whole at hnode
    unfold occupied
    show (uint32Increase d.recvWin n.data.dataLen32 d.recvMaxWin).toNat + storedBytes d.popRecv +
      (delivered d.out).length ≤ _
    omega
  · intro d n ns d' hns _ hstep h
    have hstored := storedBytes_popRecv hns
    obtain ⟨hwin, hmax, hdel⟩ := hstep.window
    have hq := hstep.recvQueue_eq
    refine ⟨wholeQueue_congr hq h.whole.popRecv, hmax.trans h.maxWin, Nat.le_trans ?_ h.covered⟩
    have hpop : d.popRecv.recvWin = d.recvWin ∧ d.popRecv.out = d.out := ⟨rfl, rfl⟩
    unfold occupied
    rw [hwin, storedBytes_congr hq, hpop.1]
    rw [hpop.2] at hdel
    omega

def Overruns (c : TcpConn) (seg : TcpSeg) : Prop :=
  c.recvWin < seg.dataLen32 ∧ (seg.seqNum = c.recvSeqNum ∨
    (c.recvWin ≠ 0 ∧ tcpInWindow seg.seqNum seg.seqEnd c.recvSeqNum c.recvSeqEnd = true))
deriving Decidable

theorem handleInOrder_within (md : TcpData) (h : Within m k c) (hseg : Whole seg)
    (hfit : seg.dataLen32.toNat ≤ c.recvWin.toNat) : Within m k (handleInOrder md c seg).1 := by
  obtain ⟨hwin, hmax, hdel⟩ := (tcpProcessSeg_step md c seg 0).window
  have hq := (tcpProcessSeg_step md c seg 0).recvQueue_eq
  have hrefused : (tcpProcessSeg md c seg 0).1 = false →
      delivered (tcpProcessSeg md c seg 0).2.1.out = delivered c.out := tcpProcessSeg_refused
  unfold handleInOrder
  refine Within.congr (c := (drainLoop md _ _ _).1) (drainLoop_within md _ ?_) rfl rfl rfl rfl
  generalize tcpProcessSeg md c seg 0 = r at hwin hmax hdel hq hrefused
  split
  · -- the bytes come off the window before they are handed over
    have hdec := uint32Decrease_toNat r.2.1.recvWin seg.dataLen32
    refine ⟨wholeQueue_congr (c := c) hq h.whole, hmax.trans h.maxWin, Nat.le_trans ?_ h.covered⟩
    unfold Whole at hseg
    unfold occupied
    show (uint32Decrease r.2.1.recvWin seg.dataLen32).toNat + storedBytes r.2.1 +
      (delivered r.2.1.out).length ≤ _
    rw [hdec, hwin, storedBytes_congr hq]
    omega
  · rename_i htaken
    exact h.congr hwin hmax hq (hrefused (by simpa using htaken))

theorem handleOutOfOrder_within (h : Within m k c) (hseg : Whole seg) (hfit : c.recvWin ≠ 0 →
      tcpInWindow seg.seqNum seg.seqEnd c.recvSeqNum c.recvSeqEnd = true →
      seg.dataLen32.toNat ≤ c.recvWin.toNat) : Within m k (handleOutOfOrder c seg).1 := by
  simp only [handleOutOfOrder]
  split
  · rename_i hopen
    split
    · rename_i hin
      split
      · rename_i q hq
        have hperm := tcpQueueInsert_perm hq
        refine ⟨?_, h.maxWin, Nat.le_trans ?_ h.covered⟩
        · intro n hn
          rcases List.mem_cons.mp (hperm.mem_iff.mp hn) with rfl | hn
          · exact hseg
          · exact h.whole n hn
        · have hsum : (q.nodes.map fun n => n.data.data.length).sum =
              seg.data.length + storedBytes c := by
            rw [(hperm.map _).sum_eq]
            rfl
          have hdec := uint32Decrease_toNat c.recvWin seg.dataLen32
          have hlen := hfit hopen hin
          unfold Whole at hseg
          unfold occupied
          show (uint32Decrease c.recvWin seg.dataLen32).toNat +
            (q.nodes.map fun n => n.data.data.length).sum + (delivered c.out).length ≤ _
          omega
      · exact h
    · exact h
  · exact h

/-- **Handling a segment** that does not overrun the window. -/
theorem tcpHandleData_within (md : TcpData) (h : Within m k c) (hseg : Whole seg)
    (hfit : ¬ Overruns c seg) : Within m k (tcpHandleData md c seg).1 := by
  have fits : (seg.seqNum = c.recvSeqNum ∨ (c.recvWin ≠ 0 ∧
      tcpInWindow seg.seqNum seg.seqEnd c.recvSeqNum c.recvSeqEnd = true)) →
      seg.dataLen32.toNat ≤ c.recvWin.toNat := by
    intro htaken
    by_contra hlong
    refine hfit ⟨?_, htaken⟩
    rw [UInt32.lt_iff_toNat_lt]
    omega
  unfold tcpHandleData
  split
  · rename_i hin
    exact handleInOrder_within md h hseg (fits (.inl hin))
  · exact handleOutOfOrder_within h hseg fun h hin => fits (.inr ⟨h, hin⟩)

/-! ### The ledger -/

def Event.credited (e : Event) : Nat :=
  match e.act with
  | .fcf _ (.setHostWindow value) => value.toNat
  | _ => 0

structure Ledger where
  conn : TcpConn
  credited : Nat

def Ledger.step (l : Ledger) (e : Event) : Ledger :=
  ⟨FinsStack.Tcp.step l.conn e, l.credited + e.credited⟩

theorem Ledger.run_conn (l : Ledger) (es : List Event) :
    (run Ledger.step l es).conn = runConn l.conn es := by
  induction es generalizing l with
  | nil => rfl
  | cons e es ih => exact ih (l.step e)

def Ledger.lent (l : Ledger) : Nat := (delivered l.conn.out).length - l.credited

def ReadsFirst (l : Ledger) (e : Event) : Prop :=
  l.credited + e.credited ≤ (delivered l.conn.out).length
deriving Decidable

def FitsWindow (l : Ledger) (e : Event) : Prop :=
  ReadsFirst l e ∧
    ∀ seg ∈ e.arriving, Whole seg ∧ (Handling l.conn.state → ¬ Overruns l.conn seg)
deriving Decidable

theorem step_within (hw : WholeQueue c)
    (hfit : ∀ seg ∈ e.arriving, Whole seg ∧ (Handling c.state → ¬ Overruns c seg)) :
    Within c.recvMaxWin (occupied c + e.credited) (step c e) := by
  have hstart : Within c.recvMaxWin (occupied c + e.credited) c := ⟨hw, rfl, Nat.le_add_right _ _⟩
  cases step_view c e with
  | inert hi => exact hstart.inert hi
  | move new stop c1 _ _ h₁ h₂ _ =>
    have hmoved : Within _ _ (c1.setState new) :=
      (hstart.inert h₁).congr rfl rfl rfl (delivered_setState c1 new)
    exact hmoved.inert h₂
  | opening new d _ _ hq ho hi hwin =>
    exact (hstart.congr hwin.1 hwin.2 hq (by rw [ho]; exact delivered_setState c new)).inert hi
  | restart d _ _ hq ho hi hwin =>
    exact (hstart.congr hwin.1 hwin.2 hq (by rw [ho])).inert hi
  | data seg env hact hs _ hi =>
    obtain ⟨hseg, hlong⟩ := hfit seg (Event.arriving_of_act hact)
    have hack := ackFirst_inert e.md c seg
    have hlong' : ¬ Overruns (ackFirst e.md c seg) seg := by
      unfold Overruns
      rw [hack.recv, hack.win]
      exact hlong hs
    exact (tcpHandleData_within e.md (hstart.inert hack) hseg hlong').inert hi
  | credit ff value hact _ hi =>
    refine Within.inert (c := c.credit value) ⟨hw, rfl, ?_⟩ hi
    have hcredited : e.credited = value.toNat := by
      unfold Event.credited
      rw [hact]
    have hback := uint32Increase_le c.recvWin value c.recvMaxWin
    rw [hcredited]
    show (uint32Increase c.recvWin value c.recvMaxWin).toNat + storedBytes c +
      (delivered c.out).length ≤ _
    unfold occupied
    omega

structure Balanced (l : Ledger) : Prop where
  whole : WholeQueue l.conn
  covered : occupied l.conn ≤ l.conn.recvMaxWin.toNat + l.credited
  earned : l.credited ≤ (delivered l.conn.out).length

theorem Balanced.step {l : Ledger} (h : Balanced l) (hok : FitsWindow l e) :
    Balanced (l.step e) := by
  obtain ⟨hread, hfit⟩ := hok
  obtain ⟨hw, hm, hle⟩ := step_within h.whole hfit
  have hcov := h.covered
  refine ⟨hw, ?_, ?_⟩
  · show occupied (FinsStack.Tcp.step l.conn e) ≤
      (FinsStack.Tcp.step l.conn e).recvMaxWin.toNat + (l.credited + e.credited)
    rw [hm]
    omega
  · obtain ⟨out, hout⟩ := step_out l.conn e
    show l.credited + e.credited ≤ (delivered (FinsStack.Tcp.step l.conn e).out).length
    rw [← hout, delivered_append, List.length_append]
    unfold ReadsFirst at hread
    omega

theorem initial_balanced (h : Initial c) : Balanced ⟨c, 0⟩ := by
  have fresh : ∀ {d : TcpConn}, d.recvQueue.nodes = [] → d.recvWin = d.recvMaxWin →
      delivered d.out = [] → WholeQueue d ∧ occupied d = d.recvMaxWin.toNat := by
    intro d hq hwin hd
    constructor
    · intro n hn
      rw [hq] at hn
      cases hn
    · unfold occupied storedBytes
      rw [hq, hwin, hd]
      rfl
  cases h with
  | fresh md a =>
    obtain ⟨hw, hocc⟩ := fresh (d := tcpConnCreate md a) rfl rfl rfl
    exact ⟨hw, Nat.le_of_eq hocc, Nat.zero_le _⟩
  | child md parent seg rand =>
    obtain ⟨d, -, hq, hwin, ho, hi⟩ := tcpListenChild_inert md parent seg rand
    obtain ⟨hw, hocc⟩ := fresh hq hwin (by rw [ho]; rfl)
    refine ⟨wholeQueue_congr (congrArg RecvSide.recvQueue hi.recv) hw, ?_, Nat.zero_le _⟩
    show occupied (tcpListenChild md parent seg rand) ≤
      (tcpListenChild md parent seg rand).recvMaxWin.toNat + 0
    rw [hi.occupied_eq, hocc, congrArg RecvSide.recvMaxWin hi.recv]
    exact Nat.le_refl _

/-- **The window covers what the buffer holds**, stored or not read yet. -/
theorem recv_window_balanced {c₀ : TcpConn} (h₀ : Initial c₀) {es : List Event}
    (hes : Steps Ledger.step FitsWindow ⟨c₀, 0⟩ es) :
    let l := run Ledger.step ⟨c₀, 0⟩ es
    l.conn = runConn c₀ es ∧
      l.conn.recvWin.toNat + storedBytes l.conn + l.lent ≤ l.conn.recvMaxWin.toNat := by
  intro l
  constructor
  · exact Ledger.run_conn ⟨c₀, 0⟩ es
  · have h : Balanced l :=
      run_invariant_of_steps (fun l e h hok => h.step hok) (initial_balanced h₀) hes
    have hcov := h.covered
    have hearned := h.earned
    unfold Ledger.lent
    unfold occupied at hcov
    omega

def zerosSeg (isn : UInt32) (n len : Nat) : TcpSeg :=
  { seqNum := isn + UInt32.ofNat n, seqEnd := isn + UInt32.ofNat (n + len)
    data := List.replicate len 0, dataLen := len }

def readTen : List Event :=
  sampleOpen ++ [sampleRecv (zerosSeg 501 0 10), sampleRecv (zerosSeg 501 20 10),
    sampleEvent (.fcf sampleFcf (.setHostWindow 10))]

theorem recv_window_balanced_readTen :
    let l := run Ledger.step ⟨sampleConn, 0⟩ readTen
    l.conn.recvWin = 65525 ∧ storedBytes l.conn = 10 ∧ l.credited = 10 ∧
      l.conn.recvWin.toNat + storedBytes l.conn + l.lent ≤ l.conn.recvMaxWin.toNat := by
  refine ⟨by decide +kernel, by decide +kernel, by decide +kernel, ?_⟩
  exact (recv_window_balanced (.fresh sampleData ⟨1, 10, 2, 20⟩) (by decide +kernel)).2

/-! ### A segment that covers a stored one

The window is down to 20.  Ten bytes behind a gap of ten are stored, and the peer then sends
all twenty in one segment.  The window stops at zero instead of ten below, and the stored
segment gives ten back when it is dropped. -/

def coverStored : List Event :=
  sampleOpen ++ (List.range 5).map (fun i => sampleRecv (zerosSeg 501 (13103 * i) 13103)) ++
    [sampleRecv (zerosSeg 501 65525 10), sampleRecv (zerosSeg 501 65515 20)]

/-- Nothing has been read; the buffer is full, and the window says ten. -/
theorem recv_window_overcommitted :
    ∃ es, (∀ e ∈ es, e.credited = 0 ∧ ∀ seg ∈ e.arriving, Whole seg) ∧
      let l := run Ledger.step ⟨sampleConn, 0⟩ es
      l.conn = runConn sampleConn es ∧ l.conn.recvMaxWin = 65535 ∧ l.lent = 65535 ∧
        l.conn.recvWin = 10 := by
  refine ⟨coverStored, by decide +kernel, Ledger.run_conn _ _, by decide +kernel, ?_,
    by decide +kernel⟩
  -- the bytes are counted frame by frame
  unfold Ledger.lent delivered
  rw [List.length_flatMap]
  decide +kernel

end FinsStack.Tcp
