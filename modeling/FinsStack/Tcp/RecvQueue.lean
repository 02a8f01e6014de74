import FinsStack.Lib.Ranges
import FinsStack.Tcp.LinkedQueue
import FinsStack.Tcp.SendQueue

/-!
# The stored segments stay in order

`recv_queue` holds the segments that arrived ahead of `recv_seq_num`.  Counted from
`recv_seq_num`, each node is a range of positions inside the window, and
`tcp_node_compare` decides by these ranges which of two nodes comes first
(`tcpNodeCompare_placed`), whether the window crosses the end of the sequence space or
not.  There is one exception: of two nodes that both cross it, the later one is taken
to lie behind the earlier one although they overlap (`DoubleWrap`).  Even then the order
of their starts is right (`tcpNodeCompare_start`).

So `tcp_queue_insert` keeps the nodes sorted by where they start (`Arranged`), and the drain
loop leaves no node at or behind `recv_seq_num` (`RecvInv`).
-/

namespace FinsStack.Tcp

open List Lib

/-! ### Comparing two nodes -/

section

variable {α : Type}

def nodeLo (r : UInt32) (n : TcpNode α) : Nat := seqDist r n.seqNum

def nodeHi (r : UInt32) (n : TcpNode α) : Nat := seqDist r n.seqEnd

def DoubleWrap (seqNum seqEnd : UInt32) (cmp : TcpNode α) : Prop :=
  seqEnd < seqNum ∧ cmp.seqEnd < cmp.seqNum ∧ cmp.seqNum < seqNum
deriving Decidable

/-- Where a node lies: ahead of the wrap, across it, or behind it. -/
inductive Region (w : UInt32) (n : TcpNode α) : Prop
  | ahead (hs : w.toNat ≤ n.seqNum.toNat) (he : w.toNat ≤ n.seqEnd.toNat)
      (hlo : nodeLo w n = n.seqNum.toNat - w.toNat) (hhi : nodeHi w n = n.seqEnd.toNat - w.toNat)
  | across (hs : w.toNat ≤ n.seqNum.toNat) (he : n.seqEnd.toNat < w.toNat)
      (hlo : nodeLo w n = n.seqNum.toNat - w.toNat)
      (hhi : nodeHi w n = 2 ^ 32 + n.seqEnd.toNat - w.toNat)
  | behind (hs : n.seqNum.toNat < w.toNat) (he : n.seqEnd.toNat < w.toNat)
      (hlo : nodeLo w n = 2 ^ 32 + n.seqNum.toNat - w.toNat)
      (hhi : nodeHi w n = 2 ^ 32 + n.seqEnd.toNat - w.toNat)

theorem region {w : UInt32} {n : TcpNode α} (h : nodeLo w n ≤ nodeHi w n) : Region w n := by
  have hend := n.seqEnd.toNat_lt
  rcases seqDist_cases w n.seqNum with ⟨hs, hlo⟩ | ⟨hs, hlo⟩
  · rcases seqDist_cases w n.seqEnd with ⟨he, hhi⟩ | ⟨he, hhi⟩
    · exact .ahead hs he hlo hhi
    · exact .across hs he hlo hhi
  · rcases seqDist_cases w n.seqEnd with ⟨he, hhi⟩ | ⟨he, hhi⟩
    · unfold nodeLo nodeHi at h
      omega
    · exact .behind hs he hlo hhi

/-- **What the fifteen cases of `tcp_node_compare` decide.** -/
theorem tcpNodeCompare_placed {node cmp : TcpNode α} {w : UInt32} (we : UInt32)
    (hn : nodeLo w node ≤ nodeHi w node) (hc : nodeLo w cmp ≤ nodeHi w cmp)
    (hw : ¬ DoubleWrap node.seqNum node.seqEnd cmp) :
    Placed (nodeLo w) (nodeHi w) node cmp (tcpNodeCompare node cmp w we) := by
  have b₁ := node.seqNum.toNat_lt
  have b₂ := node.seqEnd.toNat_lt
  have b₃ := cmp.seqNum.toNat_lt
  have b₄ := cmp.seqEnd.toNat_lt
  have b₅ := w.toNat_lt
  unfold DoubleWrap at hw
  unfold tcpNodeCompare
  simp only [UInt32.le_iff_toNat_le, UInt32.lt_iff_toNat_lt, ← UInt32.toNat_inj] at hw ⊢
  cases region hn with
  | ahead hs he hlo hhi =>
    cases region hc with
    | ahead hs' he' hlo' hhi' =>
      simp only [hs, he, hs', he', if_true]
      split_ifs
      · exact .lt ⟨by omega, by omega⟩
      · exact .eq (clash_iff.mpr (by omega))
      · exact .eq (clash_iff.mpr (by omega))
      · exact .gt ⟨by omega, by omega⟩
      · exact .eq (clash_iff.mpr (by omega))
    | across hs' he' hlo' hhi' =>
      simp only [hs, he, hs', Nat.not_le.mpr he', if_true, if_false]
      split_ifs
      · exact .lt ⟨by omega, by omega⟩
      · exact .eq (clash_iff.mpr (by omega))
      · exact .eq (clash_iff.mpr (by omega))
    | behind hs' he' hlo' hhi' =>
      simp only [hs, he, Nat.not_le.mpr hs', if_true, if_false]
      exact .lt ⟨by omega, by omega⟩
  | across hs he hlo hhi =>
    cases region hc with
    | ahead hs' he' hlo' hhi' =>
      simp only [hs, Nat.not_le.mpr he, hs', if_true, if_false]
      split_ifs
      · exact .eq (clash_iff.mpr (by omega))
      · exact .gt ⟨by omega, by omega⟩
      · exact .eq (clash_iff.mpr (by omega))
    | across hs' he' hlo' hhi' =>
      -- the case the comparison gets wrong unless the node starts first
      have hstart : node.seqNum.toNat ≤ cmp.seqNum.toNat := by
        apply Nat.not_lt.mp
        intro hlt
        exact hw ⟨by omega, by omega, hlt⟩
      simp only [hs, Nat.not_le.mpr he, hs', hstart, if_true, if_false]
      exact .eq (clash_iff.mpr (by omega))
    | behind hs' he' hlo' hhi' =>
      simp only [hs, Nat.not_le.mpr he, Nat.not_le.mpr hs', if_true, if_false]
      split_ifs
      · exact .lt ⟨by omega, by omega⟩
      · exact .eq (clash_iff.mpr (by omega))
  | behind hs he hlo hhi =>
    cases region hc with
    | ahead hs' he' hlo' hhi' =>
      simp only [Nat.not_le.mpr hs, hs', he', if_true, if_false]
      exact .gt ⟨by omega, by omega⟩
    | across hs' he' hlo' hhi' =>
      simp only [Nat.not_le.mpr hs, hs', Nat.not_le.mpr he', if_true, if_false]
      split_ifs
      · exact .gt ⟨by omega, by omega⟩
      · exact .eq (clash_iff.mpr (by omega))
    | behind hs' he' hlo' hhi' =>
      simp only [Nat.not_le.mpr hs, Nat.not_le.mpr hs', if_false]
      split_ifs
      · exact .lt ⟨by omega, by omega⟩
      · exact .eq (clash_iff.mpr (by omega))
      · exact .eq (clash_iff.mpr (by omega))
      · exact .gt ⟨by omega, by omega⟩
      · exact .eq (clash_iff.mpr (by omega))

theorem tcpNodeCompare_start {node cmp : TcpNode α} {w : UInt32} (we : UInt32)
    (hn : nodeLo w node ≤ nodeHi w node) (hc : nodeLo w cmp ≤ nodeHi w cmp) :
    (tcpNodeCompare node cmp w we = .lt → nodeLo w node < nodeLo w cmp) ∧
      (tcpNodeCompare node cmp w we = .gt → nodeLo w cmp < nodeLo w node) := by
  by_cases hw : DoubleWrap node.seqNum node.seqEnd cmp
  · have b₁ := node.seqNum.toNat_lt
    have b₂ := cmp.seqNum.toNat_lt
    have b₃ := w.toNat_lt
    obtain ⟨h₁, h₂, h₃⟩ := hw
    simp only [UInt32.lt_iff_toNat_lt] at h₁ h₂ h₃
    cases region hn with
    | ahead hs he hlo hhi | behind hs he hlo hhi => omega
    | across hs he hlo hhi =>
      cases region hc with
      | ahead hs' he' hlo' hhi' | behind hs' he' hlo' hhi' => omega
      | across hs' he' hlo' hhi' =>
        have hgt : tcpNodeCompare node cmp w we = .gt := by
          unfold tcpNodeCompare
          simp only [UInt32.le_iff_toNat_le, hs, hs', Nat.not_le.mpr he, Nat.not_le.mpr h₃,
            show cmp.seqEnd.toNat ≤ node.seqNum.toNat by omega, if_true, if_false]
        rw [hgt]
        refine ⟨?_, fun _ => by omega⟩
        intro hlt
        cases hlt
  · have hp := tcpNodeCompare_placed we hn hc hw
    constructor
    · intro hlt
      rw [hlt] at hp
      cases hp with
      | lt h => exact h.1
    · intro hgt
      rw [hgt] at hp
      cases hp with
      | gt h => exact h.1

/-! ### `tcp_queue_insert` -/

variable {R : TcpNode α → TcpNode α → Prop} {lo hi : TcpNode α → Nat} {node : TcpNode α}
  {w we : UInt32}

structure Follows (R : TcpNode α → TcpNode α → Prop) (node : TcpNode α) (w we : UInt32)
    (ns : List (TcpNode α)) : Prop where
  lt : ∀ n ∈ ns, tcpNodeCompare node n w we = .lt → R node n
  gt : ∀ n ∈ ns, tcpNodeCompare node n w we = .gt → R n node

theorem Follows.tail {n : TcpNode α} {ns : List (TcpNode α)} (h : Follows R node w we (n :: ns)) :
    Follows R node w we ns :=
  ⟨fun m hm => h.lt m (mem_cons_of_mem _ hm), fun m hm => h.gt m (mem_cons_of_mem _ hm)⟩

theorem follows_of_placed {ns : List (TcpNode α)}
    (h : ∀ n ∈ ns, Placed lo hi node n (tcpNodeCompare node n w we)) :
    Follows (Before lo hi) node w we ns := by
  constructor
  · intro n hn hlt
    have hp := h n hn
    rw [hlt] at hp
    cases hp with
    | lt h => exact h
  · intro n hn hgt
    have hp := h n hn
    rw [hgt] at hp
    cases hp with
    | gt h => exact h

theorem tcpQueueInsertLoop_some (htrans : ∀ x y z, R x y → R y z → R x z)
    {ns ns' : List (TcpNode α)} (ho : ns.Pairwise R) (hcmp : Follows R node w we ns)
    (h : tcpQueueInsertLoop node w we ns = some ns') :
    ∃ pre post, ns = pre ++ post ∧ ns' = pre ++ node :: post ∧
      (∀ n ∈ pre, R n node) ∧ ∀ n ∈ post, R node n := by
  induction ns generalizing ns' with
  | nil => cases h
  | cons n ns ih =>
    unfold tcpQueueInsertLoop at h
    split at h
    · rename_i hlt
      cases h
      refine ⟨[], n :: ns, rfl, rfl, by simp, ?_⟩
      exact rel_all_of_head htrans ho (hcmp.lt n (mem_cons_self ..) hlt)
    · cases h
    · rename_i hgt
      obtain ⟨ns'', hloop, rfl⟩ := Option.map_eq_some_iff.mp h
      obtain ⟨pre, post, rfl, rfl, hpre, hpost⟩ := ih (pairwise_cons.mp ho).2 hcmp.tail hloop
      refine ⟨n :: pre, post, rfl, rfl, ?_, hpost⟩
      intro m hm
      rcases mem_cons.mp hm with rfl | hm
      · exact hcmp.gt m (mem_cons_self ..) hgt
      · exact hpre m hm

theorem tcpQueueInsertLoop_none {ns : List (TcpNode α)} {last : TcpNode α}
    (hcmp : ∀ n ∈ ns, Placed lo hi node n (tcpNodeCompare node n w we))
    (hlast : last ∈ ns) (hlt : Before lo hi node last)
    (h : tcpQueueInsertLoop node w we ns = none) : ∃ n ∈ ns, Clash lo hi node n := by
  induction ns with
  | nil => cases hlast
  | cons n ns ih =>
    have hn := hcmp n (mem_cons_self ..)
    unfold tcpQueueInsertLoop at h
    split at h
    · cases h
    · rename_i heq
      rw [heq] at hn
      cases hn with
      | eq hclash => exact ⟨n, mem_cons_self .., hclash⟩
    · rename_i heq
      rw [heq] at hn
      cases hn with
      | gt hgt =>
        have hmem : last ∈ ns := by
          rcases mem_cons.mp hlast with rfl | hmem
          · exact absurd hlt hgt.not_symm
          · exact hmem
        obtain ⟨m, hm, hclash⟩ := ih (fun m hm => hcmp m (mem_cons_of_mem _ hm)) hmem
          (Option.map_eq_none_iff.mp h)
        exact ⟨m, mem_cons_of_mem _ hm, hclash⟩

structure Inserted (R : TcpNode α → TcpNode α → Prop) (q : TcpQueue α) (node : TcpNode α)
    (q' : TcpQueue α) : Prop where
  nodes : ∃ pre post, q.nodes = pre ++ post ∧ q'.nodes = pre ++ node :: post ∧
    (∀ n ∈ pre, R n node) ∧ ∀ n ∈ post, R node n
  len : q'.len = q.len + node.len

theorem tcpQueueInsert_some (htrans : ∀ x y z, R x y → R y z → R x z) {q q' : TcpQueue α}
    (ho : q.nodes.Pairwise R) (hcmp : Follows R node w we q.nodes)
    (h : tcpQueueInsert q node w we = some q') : Inserted R q node q' := by
  unfold tcpQueueInsert at h
  split at h
  · rename_i hnil
    cases h
    exact ⟨⟨[], [], hnil, by simp [tcpQueuePrepend, hnil], by simp, by simp⟩, rfl⟩
  · rename_i front rest hnodes
    rw [hnodes] at ho hcmp
    have hfront : front ∈ front :: rest := mem_cons_self ..
    split at h
    · rename_i hlt
      cases h
      refine ⟨⟨[], front :: rest, hnodes, by simp [tcpQueuePrepend, hnodes], by simp, ?_⟩, rfl⟩
      exact rel_all_of_head htrans ho (hcmp.lt front hfront hlt)
    · cases h
    · rename_i hgt
      obtain ⟨pre, hpre⟩ := LinkedQueue.getLastD_concat front rest
      split at h
      · rename_i hgt'
        have hlast := hcmp.gt (rest.getLastD front) (by rw [hpre]; simp) hgt'
        cases h
        refine ⟨⟨front :: rest, [], by simp [hnodes], by simp [tcpQueueAppend, hnodes], ?_,
          by simp⟩, rfl⟩
        rw [hpre] at ho ⊢
        exact all_rel_of_last htrans ho hlast
      · cases h
      · obtain ⟨ns, hloop, rfl⟩ := Option.map_eq_some_iff.mp h
        obtain ⟨pre', post, rfl, rfl, hbefore, hbehind⟩ :=
          tcpQueueInsertLoop_some htrans (pairwise_cons.mp ho).2 hcmp.tail hloop
        refine ⟨⟨front :: pre', post, hnodes, rfl, ?_, hbehind⟩, rfl⟩
        intro m hm
        rcases mem_cons.mp hm with rfl | hm
        · exact hcmp.gt m hfront hgt
        · exact hbefore m hm

theorem tcpQueueInsert_none {q : TcpQueue α}
    (hcmp : ∀ n ∈ q.nodes, Placed lo hi node n (tcpNodeCompare node n w we))
    (h : tcpQueueInsert q node w we = none) : ∃ n ∈ q.nodes, Clash lo hi node n := by
  unfold tcpQueueInsert at h
  split at h
  · cases h
  · rename_i front rest hnodes
    rw [hnodes] at hcmp ⊢
    have hfront := hcmp front (mem_cons_self ..)
    obtain ⟨pre, hpre⟩ := LinkedQueue.getLastD_concat front rest
    have hmem : rest.getLastD front ∈ front :: rest :=
      hpre ▸ mem_append_right _ (mem_singleton_self _)
    have hlast := hcmp _ hmem
    split at h
    · cases h
    · rename_i heq
      rw [heq] at hfront
      cases hfront with
      | eq hclash => exact ⟨front, mem_cons_self .., hclash⟩
    · rename_i heq
      rw [heq] at hfront
      split at h
      · cases h
      · rename_i heq'
        rw [heq'] at hlast
        cases hlast with
        | eq hclash => exact ⟨_, hmem, hclash⟩
      · rename_i heq'
        rw [heq'] at hlast
        cases hfront with
        | gt hgt =>
          cases hlast with
          | lt hlt =>
            -- the front is passed and the last node is not, so they differ
            have hrest : rest.getLastD front ∈ rest := by
              rcases mem_cons.mp hmem with heq | hmem
              · rw [heq] at hlt
                exact absurd hlt hgt.not_symm
              · exact hmem
            obtain ⟨m, hm, hclash⟩ := tcpQueueInsertLoop_none
              (fun m hm => hcmp m (mem_cons_of_mem _ hm)) hrest hlt
              (Option.map_eq_none_iff.mp h)
            exact ⟨m, mem_cons_of_mem _ hm, hclash⟩

end

/-! ### The window in distances -/

theorem tcpInWindow_iff {s e w we : UInt32} :
    tcpInWindow s e w we = true ↔ seqDist w s ≤ seqDist w e ∧ seqDist w e ≤ seqDist w we := by
  have b₁ := s.toNat_lt
  have b₂ := e.toNat_lt
  have b₃ := we.toNat_lt
  have b₄ := w.toNat_lt
  unfold tcpInWindow
  simp only [UInt32.le_iff_toNat_le]
  rcases seqDist_cases w s with ⟨hs, h₁⟩ | ⟨hs, h₁⟩ <;>
  rcases seqDist_cases w e with ⟨he, h₂⟩ | ⟨he, h₂⟩ <;>
  rcases seqDist_cases w we with ⟨hwe, h₃⟩ | ⟨hwe, h₃⟩ <;>
  split_ifs <;> simp only [decide_eq_true_eq, false_iff] <;> omega

theorem drainStep_eq (c : TcpConn) (n : TcpNode TcpSeg) :
    drainStep c n =
      if nodeLo c.recvSeqNum n = 0 then .process
      else if nodeLo c.recvSeqNum n < seqDist c.recvSeqNum c.recvSeqEnd then .stop
      else .discard := by
  have b₁ := n.seqNum.toNat_lt
  have b₂ := c.recvSeqEnd.toNat_lt
  have b₃ := c.recvSeqNum.toNat_lt
  unfold drainStep nodeLo
  simp only [UInt32.le_iff_toNat_le, UInt32.lt_iff_toNat_lt, ← UInt32.toNat_inj]
  rcases seqDist_cases c.recvSeqNum n.seqNum with ⟨hs, h₁⟩ | ⟨hs, h₁⟩ <;>
  rcases seqDist_cases c.recvSeqNum c.recvSeqEnd with ⟨he, h₂⟩ | ⟨he, h₂⟩ <;>
  split_ifs <;> first | rfl | omega

/-! ### Stored segments -/

/-- A segment as `fdf_to_tcp` makes it from a frame that is no shorter than its header. -/
structure Parsed (seg : TcpSeg) : Prop where
  stop : seg.seqEnd = seg.seqNum + seg.dataLen32
  nonneg : 0 ≤ seg.dataLen
  int : seg.dataLen < 2 ^ 31

variable {seg : TcpSeg} {k r : UInt32} {n : TcpNode TcpSeg} {q : TcpQueue TcpSeg}
  {ns : List (TcpNode TcpSeg)} {c c' : TcpConn} {md : TcpData} {new : TcpState}

theorem parsed_iff :
    Parsed seg ↔
    seg.seqEnd = seg.seqNum + seg.dataLen32 ∧ 0 ≤ seg.dataLen ∧ seg.dataLen < 2 ^ 31 :=
  ⟨fun h => ⟨h.stop, h.nonneg, h.int⟩, fun h => ⟨h.1, h.2.1, h.2.2⟩⟩

instance (seg : TcpSeg) : Decidable (Parsed seg) := decidable_of_iff' _ parsed_iff

theorem Parsed.dataLen32_toNat (h : Parsed seg) : (seg.dataLen32.toNat : Int) = seg.dataLen := by
  have hn := h.nonneg
  have hi := h.int
  have hcast : seg.dataLen = (seg.dataLen.toNat : Int) := by omega
  unfold TcpSeg.dataLen32
  rw [hcast, ofInt_natCast, toNat_ofNat_of_lt (by omega)]

theorem Parsed.dataLen32_lt (h : Parsed seg) : seg.dataLen32.toNat < 2 ^ 31 := by
  have hn := h.dataLen32_toNat
  have hi := h.int
  omega

/-- A node of `recv_queue`: a parsed segment inside the window that starts at `r`. -/
structure StoredAt (r : UInt32) (n : TcpNode TcpSeg) : Prop where
  seq : n.seqNum = n.data.seqNum
  len : n.len = n.data.dataLen32
  stop : n.seqEnd = n.seqNum + n.len
  parsed : Parsed n.data
  inside : nodeLo r n + n.len.toNat ≤ 65535

theorem StoredAt.hi_eq (h : StoredAt r n) : nodeHi r n = nodeLo r n + n.len.toNat := by
  have hin := h.inside
  unfold nodeHi
  rw [h.stop]
  exact seqDist_add (by unfold nodeLo at hin; omega)

theorem StoredAt.lo_le_hi (h : StoredAt r n) : nodeLo r n ≤ nodeHi r n := by
  have := h.hi_eq
  omega

def StartsBefore (r : UInt32) (m n : TcpNode TcpSeg) : Prop := nodeLo r m < nodeLo r n

theorem startsBefore_trans (r : UInt32) (x y z : TcpNode TcpSeg) (h : StartsBefore r x y)
    (h' : StartsBefore r y z) : StartsBefore r x z := Nat.lt_trans h h'

structure Arranged (r : UInt32) (q : TcpQueue TcpSeg) : Prop where
  stored : ∀ n ∈ q.nodes, StoredAt r n
  sorted : q.nodes.Pairwise (StartsBefore r)
  counted : Counted q
  linked : Linked q

theorem arranged_nil (h : q.nodes = []) (hc : Counted q) (hl : Linked q) : Arranged r q := by
  refine ⟨?_, ?_, hc, hl⟩
  · rw [h]
    intro n hn
    cases hn
  · rw [h]
    exact List.Pairwise.nil

theorem Arranged.tail (h : Arranged r q) (hns : q.nodes = n :: ns) :
    Arranged r (tcpQueueRemoveFront q) := by
  refine ⟨?_, ?_, counted_removeFront hns h.counted, h.linked.removeFront⟩
  · intro m hm
    exact h.stored m (tcpQueueRemoveFront_mem hm)
  · have ho := h.sorted
    rw [hns] at ho
    rw [tcpQueueRemoveFront_cons hns]
    exact (pairwise_cons.mp ho).2

theorem Arranged.move (h : Arranged r q) (hk : ∀ n ∈ q.nodes, k.toNat ≤ nodeLo r n) :
    Arranged (r + k) q := by
  have hlo : ∀ n ∈ q.nodes, nodeLo r n = nodeLo (r + k) n + k.toNat := by
    intro n hn
    have hle := hk n hn
    have hmove := seqDist_move_le hle
    unfold nodeLo at hle ⊢
    omega
  have hstored : ∀ n ∈ q.nodes, StoredAt (r + k) n := by
    intro n hn
    have hn' := h.stored n hn
    refine ⟨hn'.seq, hn'.len, hn'.stop, hn'.parsed, ?_⟩
    have hin := hn'.inside
    have := hlo n hn
    omega
  refine ⟨hstored, h.sorted.imp_of_mem ?_, h.counted, h.linked⟩
  intro m n hm hn hlt
  have h₁ := hlo m hm
  have h₂ := hlo n hn
  unfold StartsBefore at hlt ⊢
  omega

theorem Arranged.front_least (h : Arranged r q) (hns : q.nodes = n :: ns) {k : Nat}
    (hk : k ≤ nodeLo r n) : ∀ m ∈ q.nodes, k ≤ nodeLo r m := by
  have ho := h.sorted
  rw [hns] at ho ⊢
  intro m hm
  rcases mem_cons.mp hm with rfl | hm
  · exact hk
  · have hlt := (pairwise_cons.mp ho).1 m hm
    unfold StartsBefore at hlt
    omega

theorem storedNode_at (hp : Parsed seg) (hwin : seqDist c.recvSeqNum c.recvSeqEnd = 65535)
    (hin : tcpInWindow seg.seqNum seg.seqEnd c.recvSeqNum c.recvSeqEnd) :
    StoredAt c.recvSeqNum (storedNode c seg) := by
  obtain ⟨hle, hend⟩ := tcpInWindow_iff.mp hin
  refine ⟨rfl, rfl, hp.stop, hp, ?_⟩
  have hlen : seg.dataLen32 = seg.seqEnd - seg.seqNum := by
    rw [hp.stop]
    grind
  have hdist : seg.seqEnd - seg.seqNum =
      (seg.seqEnd - c.recvSeqNum) - (seg.seqNum - c.recvSeqNum) := by grind
  have hlen' : seg.dataLen32.toNat =
      seqDist c.recvSeqNum seg.seqEnd - seqDist c.recvSeqNum seg.seqNum := by
    rw [hlen, hdist]
    exact UInt32.toNat_sub_of_le _ _ (UInt32.le_iff_toNat_le.mpr hle)
  show seqDist c.recvSeqNum seg.seqNum + seg.dataLen32.toNat ≤ 65535
  omega

theorem Arranged.insert {we : UInt32} {q' : TcpQueue TcpSeg} {node : TcpNode TcpSeg}
    (h : Arranged r q) (hn : StoredAt r node) (hq : tcpQueueInsert q node r we = some q') :
    Arranged r q' := by
  have hcmp : Follows (StartsBefore r) node r we q.nodes := by
    constructor
    · intro n hmem
      exact (tcpNodeCompare_start we hn.lo_le_hi (h.stored n hmem).lo_le_hi).1
    · intro n hmem
      exact (tcpNodeCompare_start we hn.lo_le_hi (h.stored n hmem).lo_le_hi).2
  obtain ⟨⟨pre, post, hns, hns', hpre, hpost⟩, hlen⟩ :=
    tcpQueueInsert_some (startsBefore_trans r) h.sorted hcmp hq
  refine ⟨?_, ?_, ?_, h.linked.insert hq⟩
  · intro m hm
    rcases tcpQueueInsert_mem hq m hm with rfl | hm
    · exact hn
    · exact h.stored m hm
  · have ho := h.sorted
    rw [hns] at ho
    rw [hns']
    exact pairwise_insert ho hpre hpost
  · have hc := h.counted
    unfold Counted at hc ⊢
    rw [hlen, hc, hns, hns']
    simp only [spanLen_append, spanLen_cons, UInt32.ofNat_add, UInt32.ofNat_toNat]
    grind

/-! ### Draining -/

/-- The receive window is `recv_max_win` wide, as a new connection sets it. -/
structure WindowSet (c : TcpConn) : Prop where
  width : c.recvMaxWin = TCP_MAX_WINDOW_DEFAULT
  stop : c.recvSeqEnd = c.recvSeqNum + c.recvMaxWin

theorem WindowSet.dist (h : WindowSet c) : seqDist c.recvSeqNum c.recvSeqEnd = 65535 := by
  rw [h.stop, h.width]
  have hself : seqDist c.recvSeqNum c.recvSeqNum = 0 := seqDist_eq_zero.mpr rfl
  have hw : TCP_MAX_WINDOW_DEFAULT.toNat = 65535 := rfl
  have hadd : seqDist c.recvSeqNum (c.recvSeqNum + TCP_MAX_WINDOW_DEFAULT) =
      seqDist c.recvSeqNum c.recvSeqNum + TCP_MAX_WINDOW_DEFAULT.toNat :=
    seqDist_add (by rw [hself, hw]; omega)
  rw [hadd, hself, hw]

theorem FlagsStep.recv {ret : FlagsRet} (h : FlagsStep c seg ret c') (hw : WindowSet c) :
    WindowSet c' ∧ c'.recvQueue = c.recvQueue ∧ (c'.recvSeqNum = c.recvSeqNum ∨
      c'.recvSeqNum = c.recvSeqNum + seg.dataLen32 ∨
      c'.recvSeqNum = c.recvSeqNum + (seg.dataLen32 + 1)) := by
  cases h with
  | keep => exact ⟨hw, rfl, .inl rfl⟩
  | data | finWait2Data => exact ⟨⟨hw.width, rfl⟩, rfl, .inr (.inl rfl)⟩
  | finWait2 | timeWait | closed => exact ⟨⟨hw.width, hw.stop⟩, rfl, .inl rfl⟩
  | fin => exact ⟨⟨hw.width, rfl⟩, rfl, .inr (.inr rfl)⟩

theorem SegStep.recv (h : SegStep md c seg c') (hw : WindowSet c) :
    WindowSet c' ∧ c'.recvQueue = c.recvQueue ∧ (c'.recvSeqNum = c.recvSeqNum ∨
      c'.recvSeqNum = c.recvSeqNum + seg.dataLen32 ∨
      c'.recvSeqNum = c.recvSeqNum + (seg.dataLen32 + 1)) := by
  cases h with
  | options c1 o hf | handOff c1 hf =>
    obtain ⟨hw', hq, hs⟩ := hf.recv hw
    exact ⟨⟨hw'.width, hw'.stop⟩, hq, hs⟩
  | bare r c1 hf => exact hf.recv hw

/-- In the drain loop: the nodes are in order counted from `r`, and the window has moved
    `k` ahead of `r`. -/
structure Draining (r k : UInt32) (c : TcpConn) : Prop where
  window : WindowSet c
  moved : c.recvSeqNum = r + k
  near : k.toNat ≤ 2 ^ 31
  queue : Arranged r c.recvQueue

/-- **The stored segments between two calls**: in order inside the window, and all of
    them ahead of `recv_seq_num`. -/
structure RecvInv (c : TcpConn) : Prop where
  window : WindowSet c
  queue : Arranged c.recvSeqNum c.recvQueue
  ahead : ∀ n ∈ c.recvQueue.nodes, 0 < nodeLo c.recvSeqNum n

theorem RecvInv.congr (h : RecvInv c) (hr : c'.toRecvSide = c.toRecvSide) : RecvInv c' := by
  obtain ⟨⟩ := c'
  subst hr
  exact ⟨⟨h.window.width, h.window.stop⟩, h.queue, h.ahead⟩

theorem Draining.congr (h : Draining r k c) (hr : c'.toRecvSide = c.toRecvSide) :
    Draining r k c' := by
  obtain ⟨⟩ := c'
  subst hr
  exact ⟨⟨h.window.width, h.window.stop⟩, h.moved, h.near, h.queue⟩

section

variable (h : Draining r k c) (hns : c.recvQueue.nodes = n :: ns)
include h hns

theorem Draining.pop : Draining r k c.popRecv :=
  ⟨⟨h.window.width, h.window.stop⟩, h.moved, h.near, h.queue.tail hns⟩

theorem Draining.rest (hstop : drainStep c n = .stop) : RecvInv c := by
  have hmem : n ∈ c.recvQueue.nodes := hns ▸ mem_cons_self ..
  have hin := (h.queue.stored n hmem).inside
  have hnear := h.near
  rw [drainStep_eq, h.window.dist] at hstop
  have hpos : 0 < nodeLo c.recvSeqNum n ∧ nodeLo c.recvSeqNum n < 65535 := by
    split at hstop
    · cases hstop
    · split at hstop
      · omega
      · cases hstop
  -- a node the window has passed would be far ahead of it
  have hfront : k.toNat < nodeLo r n := by
    apply Nat.lt_of_not_le
    intro hle
    unfold nodeLo at hle hpos hin
    rw [h.moved] at hpos
    rcases Nat.lt_or_eq_of_le hle with hlt | heq
    · rw [seqDist_move_lt hlt] at hpos
      omega
    · rw [seqDist_move_le (Nat.le_of_eq heq.symm)] at hpos
      omega
  have hall := h.queue.front_least hns hfront
  refine ⟨h.window, ?_, ?_⟩
  · rw [h.moved]
    exact h.queue.move (fun m hm => Nat.le_of_succ_le (hall m hm))
  · intro m hm
    have hm' := hall m hm
    rw [h.moved]
    unfold nodeLo at hm' ⊢
    rw [seqDist_move_le (Nat.le_of_succ_le hm')]
    omega

theorem Draining.process (hseq : n.seqNum = c.recvSeqNum) (hstep : SegStep md c.popRecv n.data c') :
    ∃ k', Draining r k' c' := by
  have hpop := h.pop hns
  have hn := h.queue.stored n (hns ▸ mem_cons_self ..)
  have hin := hn.inside
  have hlo : nodeLo r n = k.toNat := by
    unfold nodeLo seqDist
    rw [hseq, h.moved]
    congr 1
    grind
  obtain ⟨hw, hq, hs⟩ := hstep.recv hpop.window
  have hqueue : Arranged r c'.recvQueue := hq ▸ hpop.queue
  have hlen : k.toNat + n.data.dataLen32.toNat ≤ 65535 := by
    rw [← hn.len, ← hlo]
    exact hin
  have hmoved : c.popRecv.recvSeqNum = r + k := h.moved
  rcases hs with hs | hs | hs
  · exact ⟨k, hw, hs.trans hmoved, h.near, hqueue⟩
  · refine ⟨k + n.data.dataLen32, hw, ?_, ?_, hqueue⟩
    · rw [hs, hmoved]
      grind
    · rw [UInt32.toNat_add]
      omega
  · refine ⟨k + (n.data.dataLen32 + 1), hw, ?_, ?_, hqueue⟩
    · rw [hs, hmoved]
      grind
    · rw [UInt32.toNat_add, UInt32.toNat_add, UInt32.toNat_one]
      omega

end

/-- **The drain loop leaves only what is ahead.** -/
theorem drainLoop_recvInv (md : TcpData) (sf : UInt16) (h : Draining r k c) :
    RecvInv (drainLoop md c.recvQueue.nodes c sf).1 := by
  generalize hns : c.recvQueue.nodes = ns
  induction ns generalizing c sf k with
  | nil =>
    refine ⟨h.window, arranged_nil hns h.queue.counted h.queue.linked, ?_⟩
    rw [drainLoop, hns]
    intro n hn
    cases hn
  | cons n ns ih =>
    unfold drainLoop
    split
    · rename_i hstop
      exact h.rest hns hstop
    · exact ih sf ((h.pop hns).congr rfl) (popRecv_nodes hns)
    · rename_i hstep
      have hs := tcpProcessSeg_step md c.popRecv n.data sf
      obtain ⟨k', h'⟩ := h.process hns (drainStep_process hstep) hs
      have hrest : (tcpProcessSeg md c.popRecv n.data sf).2.1.recvQueue.nodes = ns := by
        rw [hs.recvQueue_eq]
        exact popRecv_nodes hns
      exact ih _ h' hrest

/-! ### Runs -/

theorem handleInOrder_recvInv (md : TcpData) (h : RecvInv c) (hp : Parsed seg) :
    RecvInv (handleInOrder md c seg).1 := by
  have hlen := hp.dataLen32_lt
  obtain ⟨hw, hq, hs⟩ := (tcpProcessSeg_step md c seg 0).recv h.window
  have hqueue : Arranged c.recvSeqNum (tcpProcessSeg md c seg 0).2.1.recvQueue := hq ▸ h.queue
  have hdrain : ∃ k, Draining c.recvSeqNum k (tcpProcessSeg md c seg 0).2.1 := by
    rcases hs with hs | hs | hs
    · exact ⟨0, hw, hs.trans (UInt32.add_zero _).symm, by decide, hqueue⟩
    · exact ⟨_, hw, hs, by omega, hqueue⟩
    · refine ⟨_, hw, hs, ?_, hqueue⟩
      rw [UInt32.toNat_add, UInt32.toNat_one]
      omega
  obtain ⟨k, hk⟩ := hdrain
  unfold handleInOrder
  refine RecvInv.congr (c := (drainLoop md _ _ _).1) ?_ rfl
  split
  · exact drainLoop_recvInv md _ (hk.congr rfl)
  · exact drainLoop_recvInv md _ hk

theorem handleOutOfOrder_recvInv (h : RecvInv c) (hp : Parsed seg)
    (hne : seg.seqNum ≠ c.recvSeqNum) : RecvInv (handleOutOfOrder c seg).1 := by
  simp only [handleOutOfOrder]
  split
  · split
    · rename_i hin
      split
      · rename_i q hq
        have hn := storedNode_at hp h.window.dist hin
        refine ⟨⟨h.window.width, h.window.stop⟩, h.queue.insert hn hq, ?_⟩
        intro m hm
        rcases tcpQueueInsert_mem hq m hm with rfl | hm
        · apply Nat.pos_of_ne_zero
          exact fun h0 => hne (seqDist_eq_zero.mp h0)
        · exact h.ahead m hm
      · exact h
    · exact h
  · exact h

theorem tcpHandleData_recvInv (md : TcpData) (h : RecvInv c) (hp : Parsed seg) :
    RecvInv (tcpHandleData md c seg).1 := by
  unfold tcpHandleData
  split
  · exact handleInOrder_recvInv md h hp
  · rename_i hne
    exact handleOutOfOrder_recvInv h hp hne

def NothingEarly (c : TcpConn) : Prop := Early c → c.recvQueue.nodes = []

theorem Early.of_inert (hi : Inert c c') (h : Early c') : Early c :=
  ⟨hi.state ▸ h.1, fun hc => hi.running (h.2 (hi.state.trans hc))⟩

theorem Inert.nodes_eq (hi : Inert c c') : c'.recvQueue.nodes = c.recvQueue.nodes := by
  rw [congrArg RecvSide.recvQueue hi.recv]

/-- A change of state without a segment leads into the handshake only from there. -/
theorem early_of_ownEdge {old : TcpState} {stop : Bool} (he : OwnEdge old new stop)
    (hstop : stop = false) (hnew : EarlyState new) : EarlyState old := by
  cases he with
  | listen | connectClosed => exact .inl rfl
  | connectListen => exact .inr (.inl rfl)
  | synAgain => exact .inr (.inr (.inr rfl))
  | closeListen | closeSynSent | timeWaitDone => cases hstop
  | closeSynRecv | closeEstablished | closeCloseWait => rcases hnew with h | h | h | h <;> cases h

theorem stop_state {old : TcpState} {stop : Bool} (he : OwnEdge old new stop)
    (hstop : stop) : new = .closed := by
  cases he <;> first | rfl | cases hstop

theorem OpenEdge.early (h : OpenEdge c.state new) : Early c := by
  generalize hs : c.state = old at h
  cases h with
  | synSent | simultaneous => exact early_of_synSent hs
  | synRecv => exact early_of_synRecv hs

theorem step_nothingEarly (c : TcpConn) (e : Event) (h : NothingEarly c) :
    NothingEarly (step c e) := by
  intro hearly
  cases step_view c e with
  | inert hi =>
    rw [hi.nodes_eq]
    exact h (hearly.of_inert hi)
  | move new stop c1 hrun he h₁ h₂ hstop =>
    have hnew : (step c e).state = new := h₂.state
    cases hstop' : stop with
    | true =>
      have hoff := hstop hstop'
      rw [hearly.2 (hnew.trans (stop_state he hstop'))] at hoff
      cases hoff
    | false =>
      have hold : Early c := ⟨early_of_ownEdge he hstop' (hnew ▸ hearly.1), fun _ => hrun⟩
      rw [h₂.nodes_eq]
      show c1.recvQueue.nodes = []
      rw [h₁.nodes_eq]
      exact h hold
  | opening new d he _ hq _ hi =>
    rw [hi.nodes_eq, hq]
    exact h he.early
  | restart d hs _ hq _ hi =>
    rw [hi.nodes_eq, hq]
    exact h (early_of_synRecv hs)
  | data seg _ _ hs _ hi hstop =>
    have hafter := handled_states e.md seg hs hi
    exact absurd hearly (not_early_of_handled hafter hstop)
  | credit _ value _ _ hi =>
    have hold : Early (c.credit value) := hearly.of_inert hi
    rw [hi.nodes_eq]
    exact h hold

theorem WindowSet.of_inert (h : WindowSet c) (hi : Inert c c') : WindowSet c' := by
  have hr := hi.recv
  refine ⟨(congrArg RecvSide.recvMaxWin hr).trans h.width, ?_⟩
  rw [congrArg RecvSide.recvSeqEnd hr, congrArg RecvSide.recvSeqNum hr,
    congrArg RecvSide.recvMaxWin hr]
  exact h.stop

theorem Greets.window {env : RecvEnv} (hstep : Greets c seg env c') (h : WindowSet c) :
    WindowSet c' := by
  cases hstep with
  | stay => exact h
  | reset hr => exact ⟨h.width, h.stop⟩
  | crossed o =>
    have htaken : WindowSet (takeSyn ({ c with toConnOpts := o }.setState .synRecv) seg) :=
      ⟨h.width, rfl⟩
    have hsent := htaken.of_inert (sendControl_view .inert _ (FLAG_SYN ||| FLAG_ACK))
    exact ⟨hsent.width, hsent.stop⟩
  | synAck o =>
    refine WindowSet.of_inert ?_
      ((sendControl_view .inert _ FLAG_ACK).trans (signalOpen_tells _ _).1.inert)
    exact ⟨h.width, rfl⟩
  | again o =>
    have htaken : WindowSet (takeSyn (startSend { c with toConnOpts := o } env.rand) seg) :=
      ⟨h.width, rfl⟩
    have hsent := htaken.of_inert (sendControl_view .inert _ (FLAG_SYN ||| FLAG_ACK))
    exact ⟨hsent.width, hsent.stop⟩
  | ack o =>
    refine WindowSet.of_inert ?_ (signalOpen_tells _ _).1.inert
    exact ⟨h.width, rfl⟩

theorem tcpRecv_window (seg : TcpSeg) (env : RecvEnv) (hs : c.state = .synSent ∨ c.state = .synRecv)
    (h : WindowSet c) : WindowSet (tcpRecv md c seg env) := by
  unfold tcpRecv
  split
  · exact (tcpRecvState_opens md seg env hs).window h
  · exact h

def ParsedStep (_c : TcpConn) (e : Event) : Prop := ∀ seg ∈ e.arriving, Parsed seg
deriving Decidable

theorem recvInv_of_empty (h : RecvInv c) (hw : WindowSet c') (hq : c'.recvQueue = c.recvQueue)
    (hnil : c.recvQueue.nodes = []) : RecvInv c' := by
  refine ⟨hw, arranged_nil (by rw [hq, hnil]) (hq ▸ h.queue.counted) (hq ▸ h.queue.linked), ?_⟩
  rw [hq, hnil]
  intro n hn
  cases hn

theorem step_recvInv {e : Event} (h : RecvInv c) (hnone : NothingEarly c) (hok : ParsedStep c e) :
    RecvInv (step c e) := by
  have hopen : c.state = .synSent ∨ c.state = .synRecv → (∃ seg env, e.act = .recv seg env) →
      WindowSet (step c e) := by
    rintro hs ⟨seg, env, hact⟩
    simp only [step, hact]
    exact tcpRecv_window seg env hs h.window
  cases step_view c e with
  | inert hi | credit _ _ _ _ hi => exact h.congr hi.recv
  | move new stop c1 hrun he h₁ h₂ hstop => exact h.congr (h₂.recv.trans h₁.recv)
  | opening new d he _ hq _ hi _ hact =>
    have hs : c.state = .synSent ∨ c.state = .synRecv := by
      generalize c.state = old at he
      cases he with
      | synSent | simultaneous => exact .inl rfl
      | synRecv => exact .inr rfl
    refine recvInv_of_empty h (hopen hs hact) ?_ (hnone he.early)
    exact (congrArg RecvSide.recvQueue hi.recv).trans hq
  | restart d hs _ hq _ hi _ hact =>
    refine recvInv_of_empty h (hopen (.inr hs) hact) ?_ (hnone (early_of_synRecv hs))
    exact (congrArg RecvSide.recvQueue hi.recv).trans hq
  | data seg env hact _ _ hi =>
    have hp := hok seg (Event.arriving_of_act hact)
    have hack := (ackFirst_inert e.md c seg).recv
    exact (tcpHandleData_recvInv e.md (h.congr hack) hp).congr hi.recv

theorem initial_recvInv (h : Initial c) : RecvInv c ∧ c.recvQueue.nodes = [] := by
  have hempty : ∀ n ∈ ([] : List (TcpNode TcpSeg)), 0 < nodeLo c.recvSeqNum n := by
    intro n hn
    cases hn
  cases h with
  | fresh md a =>
    have hstop : TCP_MAX_WINDOW_DEFAULT = 0 + TCP_MAX_WINDOW_DEFAULT := (UInt32.zero_add _).symm
    exact ⟨⟨⟨rfl, hstop⟩, arranged_nil rfl rfl (linked_create _), hempty⟩, rfl⟩
  | child md parent seg rand =>
    obtain ⟨o, a, ack, h⟩ := tcpListenChild_frame md parent seg rand
    rw [h]
    refine ⟨⟨⟨rfl, rfl⟩, arranged_nil rfl rfl (linked_create _), ?_⟩, rfl⟩
    intro n hn
    cases hn

theorem runConn_recvInv {c₀ : TcpConn} (h₀ : Initial c₀) {es : List Event}
    (hes : Lib.Steps step ParsedStep c₀ es) :
    RecvInv (runConn c₀ es) ∧ NothingEarly (runConn c₀ es) :=
  Lib.run_invariant_of_steps (I := fun c => RecvInv c ∧ NothingEarly c)
    (fun c e h hok => ⟨step_recvInv h.1 h.2 hok, step_nothingEarly c e h.2⟩)
    ⟨(initial_recvInv h₀).1, fun _ => (initial_recvInv h₀).2⟩ hes

end FinsStack.Tcp
