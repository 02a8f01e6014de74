import FinsStack.Tcp.RecvQueue

/-!
# What `recv_queue` holds, byte by byte

`RecvQueue.lean` keeps the nodes sorted by where they start, counted from
`recv_seq_num`.  Here we ask for the bytes a node holds: no two nodes hold the same one as
long as no segment crosses the end of the sequence space behind a stored one that does
(`Spread`), and the queue in memory ends where its `end` points (`RecvQueueOk`).
`tcp_queue_insert` takes a segment that has data and no byte in common with a stored one,
unless a stored segment without data lies inside it (`insertExact_iff`).

The runs that break the order need two segments that both cross the end of the sequence
space (`recv_queue_overlaps`).
-/

namespace FinsStack.Tcp

open FinsStack.Lib

/-! ### Bytes -/

/-- The byte with sequence number `x` is in the node. -/
def HoldsByte (n : TcpNode TcpSeg) (x : UInt32) : Prop := x - n.seqNum < n.len
deriving Decidable

def NoCommonByte (m n : TcpNode TcpSeg) : Prop := ∀ x, ¬ (HoldsByte m x ∧ HoldsByte n x)

variable {r : UInt32} {m n : TcpNode TcpSeg} {c : TcpConn} {seg : TcpSeg}

theorem holdsByte_iff {x : UInt32} (h : StoredAt r n) :
    HoldsByte n x ↔ nodeLo r n ≤ seqDist r x ∧ seqDist r x < nodeHi r n := by
  have hin := h.inside
  have hsub : x - n.seqNum = (x - r) - (n.seqNum - r) := by grind
  have hx := (x - r).toNat_lt
  have hn := (n.seqNum - r).toNat_lt
  unfold HoldsByte
  rw [h.hi_eq, hsub, UInt32.lt_iff_toNat_lt, UInt32.toNat_sub]
  unfold nodeLo seqDist at *
  omega

theorem noCommonByte_of_before (hm : StoredAt r m) (hn : StoredAt r n)
    (h : Before (nodeLo r) (nodeHi r) m n) : NoCommonByte m n := by
  rintro x ⟨hxm, hxn⟩
  rw [holdsByte_iff hm] at hxm
  rw [holdsByte_iff hn] at hxn
  exact h.apart hxm.2 hxn.1

theorem NoCommonByte.symm (h : NoCommonByte m n) : NoCommonByte n m :=
  fun x hx => h x ⟨hx.2, hx.1⟩

theorem seqDist_offset {p : Nat} (h : p < 2 ^ 32) : seqDist r (r + UInt32.ofNat p) = p := by
  have hsub : r + UInt32.ofNat p - r = UInt32.ofNat p := by grind
  rw [seqDist, hsub, toNat_ofNat_of_lt h]

theorem clash_iff (hm : StoredAt r m) (hn : StoredAt r n) (hdata : 0 < m.len) :
    Clash (nodeLo r) (nodeHi r) m n ↔
      ¬ NoCommonByte m n ∨ (n.len = 0 ∧ HoldsByte m n.seqNum) := by
  have hlen : 0 < m.len.toNat := UInt32.lt_iff_toNat_lt.mp hdata
  have hmhi := hm.hi_eq
  have hnhi := hn.hi_eq
  constructor
  · intro hclash
    rcases hclash.common (by omega) hn.lo_le_hi with ⟨p, hp₁, hp₂, hp₃, hp₄⟩ | ⟨he, h₁, h₂⟩
    · left
      intro hno
      have hin := hm.inside
      have hp : seqDist r (r + UInt32.ofNat p) = p := seqDist_offset (by omega)
      apply hno (r + UInt32.ofNat p)
      rw [holdsByte_iff hm, holdsByte_iff hn, hp]
      exact ⟨⟨hp₁, hp₂⟩, hp₃, hp₄⟩
    · right
      constructor
      · rw [← UInt32.toNat_inj]
        have hzero : (0 : UInt32).toNat = 0 := rfl
        omega
      · exact (holdsByte_iff hm).mpr ⟨h₁, h₂⟩
  · rintro (hcommon | ⟨hempty, hin⟩)
    · constructor
      · intro hb
        exact hcommon (noCommonByte_of_before hm hn hb)
      · intro hb
        exact hcommon (noCommonByte_of_before hn hm hb).symm
    · have hzero : n.len.toNat = 0 := by simp [hempty]
      obtain ⟨h₁, h₂⟩ := (holdsByte_iff hm).mp hin
      have hlo : seqDist r n.seqNum = nodeLo r n := rfl
      constructor
      · intro hb
        have := hb.2
        omega
      · intro hb
        have := hb.1
        omega

/-! ### Stored segments do not overlap -/

def SingleWrap (c : TcpConn) (seg : TcpSeg) : Prop :=
  ∀ n ∈ c.recvQueue.nodes, ¬ DoubleWrap seg.seqNum seg.seqEnd n
deriving Decidable

def Storable (c : TcpConn) (e : Event) : Prop :=
  ∀ seg ∈ e.arriving, Parsed seg ∧ SingleWrap c seg
deriving Decidable

theorem Storable.parsedStep {e : Event} (h : Storable c e) : ParsedStep c e :=
  fun seg hseg => (h seg hseg).1

/-- `n` starts no earlier than `m` ends, counted from the start of `m`. -/
def ClearOf (m n : TcpNode TcpSeg) : Prop := m.len ≤ n.seqNum - m.seqNum

theorem before_iff (hm : StoredAt r m) (h : StartsBefore r m n) :
    Before (nodeLo r) (nodeHi r) m n ↔ ClearOf m n := by
  have hin := hm.inside
  have hsub : n.seqNum - m.seqNum = (n.seqNum - r) - (m.seqNum - r) := by grind
  have hle : m.seqNum - r ≤ n.seqNum - r := UInt32.le_iff_toNat_le.mpr (Nat.le_of_lt h)
  unfold Before ClearOf
  rw [hm.hi_eq, hsub, UInt32.le_iff_toNat_le, UInt32.toNat_sub_of_le _ _ hle]
  unfold StartsBefore at h
  unfold nodeLo seqDist at *
  omega

def Spread (c : TcpConn) : Prop := c.recvQueue.nodes.Pairwise ClearOf

theorem RecvInv.ordered (h : RecvInv c) (hs : Spread c) :
    Ordered (nodeLo c.recvSeqNum) (nodeHi c.recvSeqNum) c.recvQueue.nodes := by
  apply (h.queue.sorted.and hs).imp_of_mem
  intro m n hm hn hmn
  exact (before_iff (h.queue.stored m hm) hmn.1).mpr hmn.2

theorem RecvInv.placed (h : RecvInv c) (hn : StoredAt c.recvSeqNum (storedNode c seg))
    (hw : SingleWrap c seg) :
    ∀ n ∈ c.recvQueue.nodes, Placed (nodeLo c.recvSeqNum) (nodeHi c.recvSeqNum)
      (storedNode c seg) n (tcpNodeCompare (storedNode c seg) n c.recvSeqNum c.recvSeqEnd) :=
  fun n hmem =>
    tcpNodeCompare_placed _ hn.lo_le_hi (h.queue.stored n hmem).lo_le_hi (hw n hmem)

theorem RecvInv.inserted {q : TcpQueue TcpSeg} (h : RecvInv c) (hs : Spread c)
    (hn : StoredAt c.recvSeqNum (storedNode c seg)) (hw : SingleWrap c seg)
    (hq : tcpQueueInsert c.recvQueue (storedNode c seg) c.recvSeqNum c.recvSeqEnd = some q) :
    Inserted (Before (nodeLo c.recvSeqNum) (nodeHi c.recvSeqNum)) c.recvQueue
      (storedNode c seg) q :=
  tcpQueueInsert_some (fun _ _ _ => Before.trans) (h.ordered hs)
    (follows_of_placed (h.placed hn hw)) hq

theorem tcpHandleData_spread (md : TcpData) (h : RecvInv c) (hs : Spread c) (hp : Parsed seg)
    (hw : SingleWrap c seg) : Spread (tcpHandleData md c seg).1 := by
  have hpop : ∀ (c : TcpConn) n ns, c.recvQueue.nodes = n :: ns → Spread c → Spread c.popRecv := by
    intro c n ns hns hs
    unfold Spread at hs ⊢
    rw [hns] at hs
    rw [popRecv_nodes hns]
    exact (List.pairwise_cons.mp hs).2
  apply tcpHandleData_induct (P := Spread)
  · exact fun _ _ hs => hs
  · exact fun _ _ hs => hs
  · exact hpop
  · intro c n ns c' hns _ hstep hs
    unfold Spread
    rw [hstep.recvQueue_eq]
    exact hpop c n ns hns hs
  · intro c' _ hstep hs
    unfold Spread
    rw [hstep.recvQueue_eq]
    exact hs
  · intro q _ hin hq _
    have hn := storedNode_at hp h.window.dist hin
    obtain ⟨⟨pre, post, hns, hns', hpre, hpost⟩, -⟩ := h.inserted hs hn hw hq
    have hord := h.ordered hs
    rw [hns] at hord
    have hord' := pairwise_insert hord hpre hpost
    rw [← hns'] at hord'
    have hq' := (h.queue.insert hn hq).stored
    apply hord'.imp_of_mem
    intro m n hm _ hmn
    exact (before_iff (hq' m hm) hmn.1).mp hmn
  · exact hs

theorem step_spread {e : Event} (h : RecvInv c) (hs : Spread c) (hok : Storable c e) :
    Spread (step c e) := by
  have same : ∀ {c' : TcpConn}, c'.recvQueue = c.recvQueue → Spread c' := by
    intro c' hq
    unfold Spread
    rw [hq]
    exact hs
  cases step_view c e with
  | inert hi | credit _ _ _ _ hi => exact same (congrArg RecvSide.recvQueue hi.recv)
  | move new stop c1 hrun he h₁ h₂ hstop =>
    exact same (congrArg RecvSide.recvQueue (h₂.recv.trans h₁.recv))
  | opening _ _ _ _ hq _ hi | restart _ _ _ hq _ hi =>
    exact same ((congrArg RecvSide.recvQueue hi.recv).trans hq)
  | data seg env hact _ _ hi =>
    obtain ⟨hp, hw⟩ := hok seg (Event.arriving_of_act hact)
    have hack := (ackFirst_inert e.md c seg).recv
    have hq := congrArg RecvSide.recvQueue hack
    have hw' : SingleWrap (ackFirst e.md c seg) seg := by
      unfold SingleWrap
      rw [hq]
      exact hw
    have hdata := tcpHandleData_spread e.md (h.congr hack) (same hq) hp hw'
    unfold Spread
    rw [congrArg RecvSide.recvQueue hi.recv]
    exact hdata

theorem runConn_spread {c₀ : TcpConn} (h₀ : Initial c₀) {es : List Event}
    (hes : Lib.Steps step Storable c₀ es) :
    RecvInv (runConn c₀ es) ∧ Spread (runConn c₀ es) := by
  obtain ⟨hinv, hnil⟩ := initial_recvInv h₀
  have hspread : Spread c₀ := by
    unfold Spread
    rw [hnil]
    exact List.Pairwise.nil
  have hall := Lib.run_invariant_of_steps
    (I := fun c => RecvInv c ∧ NothingEarly c ∧ Spread c)
    (fun c e h hok => ⟨step_recvInv h.1 h.2.1 hok.parsedStep, step_nothingEarly c e h.2.1,
      step_spread h.1 h.2.2 hok⟩)
    ⟨hinv, fun _ => hnil, hspread⟩ hes
  exact ⟨hall.1, hall.2.2⟩

theorem spanLen_le {ns : List (TcpNode TcpSeg)} {k : Nat} (hs : ∀ n ∈ ns, StoredAt r n)
    (ho : Ordered (nodeLo r) (nodeHi r) ns) (hk : ∀ n ∈ ns, k ≤ nodeLo r n) (hk' : k ≤ 65535) :
    k + spanLen TcpNode.len ns ≤ 65535 := by
  induction ns generalizing k with
  | nil => simpa using hk'
  | cons n ns ih =>
    have hn := hs n (List.mem_cons_self ..)
    have hin := hn.inside
    have hfirst := hk n (List.mem_cons_self ..)
    obtain ⟨hbefore, htail⟩ := List.pairwise_cons.mp ho
    have hrest := ih (k := nodeHi r n) (fun m hm => hs m (List.mem_cons_of_mem _ hm)) htail
      (fun m hm => (hbefore m hm).2) (by rw [hn.hi_eq]; exact hin)
    rw [spanLen_cons]
    rw [hn.hi_eq] at hrest
    omega

/-! ### The stored segments -/

/-- **The order of `recv_queue`.**  The nodes are sorted by their distance from `recv_seq_num`, no
    byte is stored twice, and all of them lie in the window. -/
structure RecvQueueOk (c : TcpConn) : Prop where
  sorted : c.recvQueue.nodes.Pairwise fun m n =>
    m.seqNum - c.recvSeqNum < n.seqNum - c.recvSeqNum
  disjoint : c.recvQueue.nodes.Pairwise NoCommonByte
  inside : ∀ n ∈ c.recvQueue.nodes, (n.seqNum - c.recvSeqNum).toNat + n.len.toNat ≤
    (c.recvSeqEnd - c.recvSeqNum).toNat
  len : c.recvQueue.len.toNat = spanLen TcpNode.len c.recvQueue.nodes
  linked : Linked c.recvQueue
  last : ∀ p : LinkedQueue TcpSeg, p.Reached → p.toQueue = c.recvQueue →
    p.endNode = c.recvQueue.nodes.getLast?

theorem endNode_eq_getLast {p : LinkedQueue TcpSeg} (h : p.WellLinked) :
    p.endNode = p.toQueue.nodes.getLast? := by
  rcases List.eq_nil_or_concat' p.cells with hnil | ⟨pre, x, hcells⟩
  · cases hp : p.endPtr <;> simp [LinkedQueue.endNode, LinkedQueue.toQueue, hnil, hp]
  · rw [h.endNode_eq hcells]
    simp [LinkedQueue.toQueue, hcells]

theorem RecvInv.recvQueueOk (h : RecvInv c) (hs : Spread c) : RecvQueueOk c := by
  have hq := h.queue
  have hord := h.ordered hs
  constructor
  · exact hq.sorted.imp fun hlt => UInt32.lt_iff_toNat_lt.mpr hlt
  · apply hord.imp_of_mem
    intro m n hm hn hb
    exact noCommonByte_of_before (hq.stored m hm) (hq.stored n hn) hb
  · intro n hn
    have hwidth : (c.recvSeqEnd - c.recvSeqNum).toNat = 65535 := h.window.dist
    rw [hwidth]
    exact (hq.stored n hn).inside
  · have hsum := spanLen_le hq.stored hord (fun _ _ => Nat.zero_le _) (by decide)
    rw [hq.counted, toNat_ofNat_of_lt (by omega)]
  · exact hq.linked
  · intro p hp he
    rw [endNode_eq_getLast hp.wellLinked, he]

/-! ### Insertion -/

def ApartFromStored (c : TcpConn) (seg : TcpSeg) : Prop :=
  ∀ n ∈ c.recvQueue.nodes, NoCommonByte (storedNode c seg) n

def NoEmptyInside (c : TcpConn) (seg : TcpSeg) : Prop :=
  ∀ n ∈ c.recvQueue.nodes, n.len = 0 → ¬ HoldsByte (storedNode c seg) n.seqNum
deriving Decidable

/-- **`tcp_queue_insert` decides by the bytes alone**: it stores the segment exactly if it has no
    byte in common with a stored one. -/
def InsertExact (c : TcpConn) (seg : TcpSeg) : Prop :=
  ∀ p : LinkedQueue TcpSeg, p.Reached → p.toQueue = c.recvQueue →
    ∀ a, (∀ x ∈ p.cells, x.ptr ≠ a) →
      ((p.insert ⟨a, storedNode c seg⟩ c.recvSeqNum c.recvSeqEnd).1 = true ↔
        ApartFromStored c seg) ∧
      (¬ ApartFromStored c seg →
        (p.insert ⟨a, storedNode c seg⟩ c.recvSeqNum c.recvSeqEnd).2 = p)

theorem LinkedQueue.InsertView.ret {q : LinkedQueue TcpSeg} {new : Cell TcpSeg}
    {o : Option (TcpQueue TcpSeg)} {r : Bool × LinkedQueue TcpSeg}
    (h : LinkedQueue.InsertView q new o r) : (r.1 = true ↔ o ≠ none) ∧ (o = none → r.2 = q) := by
  cases h with
  | refused | placed => simp

section

variable (h : RecvInv c) (hs : Spread c) (hp : Parsed seg) (hdata : 0 < seg.dataLen)
include h hs hp hdata

theorem RecvInv.insert_none_iff
    (hin : tcpInWindow seg.seqNum seg.seqEnd c.recvSeqNum c.recvSeqEnd)
    (hw : SingleWrap c seg) :
    tcpQueueInsert c.recvQueue (storedNode c seg) c.recvSeqNum c.recvSeqEnd ≠ none ↔
      ApartFromStored c seg ∧ NoEmptyInside c seg := by
  have hnode := storedNode_at hp h.window.dist hin
  have hlen : 0 < (storedNode c seg).len := by
    have := hp.dataLen32_toNat
    rw [UInt32.lt_iff_toNat_lt]
    show 0 < seg.dataLen32.toNat
    omega
  constructor
  · intro hsome
    obtain ⟨q', hq'⟩ := Option.ne_none_iff_exists'.mp hsome
    obtain ⟨⟨pre, post, hns, -, hpre, hpost⟩, -⟩ := h.inserted hs hnode hw hq'
    have hno : ∀ n ∈ c.recvQueue.nodes,
        ¬ Clash (nodeLo c.recvSeqNum) (nodeHi c.recvSeqNum) (storedNode c seg) n := by
      intro n hn hclash
      rw [hns] at hn
      rcases List.mem_append.mp hn with hn | hn
      · exact hclash.2 (hpre n hn)
      · exact hclash.1 (hpost n hn)
    constructor
    · intro n hn
      by_contra hcommon
      exact hno n hn ((clash_iff hnode (h.queue.stored n hn) hlen).mpr (.inl hcommon))
    · intro n hn hempty hbyte
      exact hno n hn ((clash_iff hnode (h.queue.stored n hn) hlen).mpr (.inr ⟨hempty, hbyte⟩))
  · rintro ⟨hapart, hempty⟩ hnone
    obtain ⟨n, hn, hclash⟩ := tcpQueueInsert_none (h.placed hnode hw) hnone
    rcases (clash_iff hnode (h.queue.stored n hn) hlen).mp hclash with hcommon | ⟨hlen0, hbyte⟩
    · exact hcommon (hapart n hn)
    · exact hempty n hn hlen0 hbyte

/-- **When insertion is exact**: unless the segment has no byte in common with the stored
    ones, but a stored segment without data lies inside it. -/
theorem RecvInv.insertExact_iff
    (hin : tcpInWindow seg.seqNum seg.seqEnd c.recvSeqNum c.recvSeqEnd)
    (hw : SingleWrap c seg) :
    InsertExact c seg ↔ (ApartFromStored c seg → NoEmptyInside c seg) := by
  have hiff := h.insert_none_iff hs hp hdata hin hw
  constructor
  · intro hexact hapart
    obtain ⟨p, hp, he⟩ := h.queue.linked
    obtain ⟨a, ha⟩ := LinkedQueue.exists_fresh p
    have hview := LinkedQueue.insert_view hp.wellLinked ⟨a, storedNode c seg⟩
      c.recvSeqNum c.recvSeqEnd
    rw [he] at hview
    have hret := ((hexact p hp he a ha).1).mpr hapart
    exact (hiff.mp (hview.ret.1.mp hret)).2
  · intro hempty p hp he a ha
    have hview := LinkedQueue.insert_view hp.wellLinked ⟨a, storedNode c seg⟩
      c.recvSeqNum c.recvSeqEnd
    rw [he] at hview
    constructor
    · rw [hview.ret.1, hiff]
      exact ⟨And.left, fun hapart => ⟨hapart, hempty hapart⟩⟩
    · intro hcommon
      apply hview.ret.2
      by_contra hsome
      exact hcommon (hiff.mp hsome).1

end

/-! ### Runs -/

/-- **`recv_queue` is in order in every state of a run in which no arriving segment crosses
    the end of the sequence space behind a stored one that does.** -/
theorem recv_queue_arranged {c₀ : TcpConn} (h₀ : Initial c₀) {es : List Event}
    (hes : Lib.Steps step Storable c₀ es) :
    RecvQueueOk (runConn c₀ es) ∧
      ∀ seg, Parsed seg → 0 < seg.dataLen →
        tcpInWindow seg.seqNum seg.seqEnd (runConn c₀ es).recvSeqNum
          (runConn c₀ es).recvSeqEnd = true →
        SingleWrap (runConn c₀ es) seg →
        (InsertExact (runConn c₀ es) seg ↔
          (ApartFromStored (runConn c₀ es) seg → NoEmptyInside (runConn c₀ es) seg)) := by
  obtain ⟨hinv, hs⟩ := runConn_spread h₀ hes
  constructor
  · exact hinv.recvQueueOk hs
  · intro seg hp hdata hin hw
    exact hinv.insertExact_iff hs hp hdata hin hw

def sampleBytes (seqNum : UInt32) (n : Nat) : TcpSeg :=
  { seqNum := seqNum, seqEnd := seqNum + UInt32.ofNat n, ackNum := 101, flags := FLAG_ACK,
    winSize := 4000, dataLen := n, data := List.replicate n 7 }

/-- Two segments arrive ahead of the expected one, the later one first, and a third one with
    room between them. -/
theorem recv_queue_arranged_sample :
    let c := runConn sampleConn
      (sampleOpen ++ [sampleRecv (sampleBytes 520 4), sampleRecv (sampleBytes 505 4)])
    c.recvQueue.nodes.map TcpNode.seqNum = [505, 520] ∧ RecvQueueOk c ∧
      InsertExact c (sampleBytes 509 11) := by
  intro c
  have hsteps : Lib.Steps step Storable sampleConn
      (sampleOpen ++ [sampleRecv (sampleBytes 520 4), sampleRecv (sampleBytes 505 4)]) := by
    decide +kernel
  obtain ⟨hok, hins⟩ := recv_queue_arranged (.fresh sampleData ⟨1, 10, 2, 20⟩) hsteps
  refine ⟨by decide +kernel, hok, ?_⟩
  apply (hins (sampleBytes 509 11) ?_ ?_ ?_ ?_).mpr
  · intro _
    decide +kernel
  · decide +kernel
  · decide +kernel
  · decide +kernel
  · decide +kernel

/-- The handshake with a peer whose first byte is four short of the end of the sequence
    space. -/
def wrapOpen : List Event :=
  [sampleEvent (.connect sampleFcf 100),
   sampleRecv { seqNum := 4294967291, seqEnd := 4294967291, ackNum := 101,
                flags := FLAG_SYN ||| FLAG_ACK, winSize := 4000 }]

def wrapTwice : List Event :=
  wrapOpen ++ [sampleRecv (sampleBytes 4294967294 4), sampleRecv (sampleBytes 4294967295 2)]

def emptyAhead : List Event := sampleOpen ++ [sampleRecv (sampleBytes 520 0)]

/-- Both of the segments that cross the end of the sequence space are stored. -/
theorem recv_queue_overlaps :
    (∀ e ∈ wrapTwice, ∀ seg ∈ e.arriving, Parsed seg) ∧
      ¬ RecvQueueOk (runConn sampleConn wrapTwice) ∧
      (∀ e ∈ emptyAhead, ∀ seg ∈ e.arriving, Parsed seg) ∧
      ¬ InsertExact (runConn sampleConn emptyAhead) (sampleBytes 520 4) := by
  refine ⟨by decide +kernel, ?_, by decide +kernel, ?_⟩
  · intro hok
    have hbyte := List.pairwise_iff_getElem.mp hok.disjoint 0 1 (by decide +kernel)
      (by decide +kernel) (by decide) 4294967295
    exact hbyte (by decide +kernel)
  · intro hexact
    have hsteps : Lib.Steps step Storable sampleConn emptyAhead := by decide +kernel
    obtain ⟨hinv, hs⟩ := runConn_spread (.fresh sampleData ⟨1, 10, 2, 20⟩) hsteps
    have hlen : ∀ n ∈ (runConn sampleConn emptyAhead).recvQueue.nodes, n.len = 0 := by
      decide +kernel
    have hapart : ApartFromStored (runConn sampleConn emptyAhead) (sampleBytes 520 4) := by
      rintro n hn x ⟨-, hx⟩
      rw [HoldsByte, hlen n hn] at hx
      exact UInt32.not_lt_zero hx
    have hempty := (hinv.insertExact_iff hs (by decide +kernel) (by decide +kernel)
      (by decide +kernel) (by decide +kernel)).mp hexact hapart
    exact absurd hempty (by decide +kernel)

end FinsStack.Tcp
