import FinsStack.Lib.Chain

/-!
# Joining two lists

`finstypes.c`.

`list_join` moves the nodes of the second list to the end of the first one, as many as its
`max` allows.  The lists lie in memory here, with `front` and `end` as addresses.

The pointers come out right in every case (`Apart.outcome`).  Where only a part of the
second list fits, `len` of the first one is not raised: `list_space` offers the space that
was just used once more, and `ipv4_ifr_get_addr_func`, which gathers the addresses of all
interfaces in this way, fills the list beyond its `max`.
-/

namespace FinsStack.Net.ListJoin

open List Lib

variable {α : Type}

structure LinkedList where
  max : UInt32
  len : UInt32
  front : Option Nat
  endPtr : Option Nat

def listIsEmpty (list : LinkedList) : Bool := list.len == 0

def listHasSpace (list : LinkedList) : Bool := list.len < list.max

def listSpace (list : LinkedList) : UInt32 := list.max - list.len

structure Joined (α : Type) where
  ret : Bool
  heap : ChainHeap α
  list1 : LinkedList
  list2 : LinkedList

def joinWalk (h : ChainHeap α) : Nat → Option Nat → Option (Option Nat)
  | 0, comp => some comp
  | _ + 1, none => some none
  | n + 1, some a => do
    let node ← h a
    joinWalk h n node.next

/-- The front of `list2` is put behind the end of `list1`; the second component is the front of
    `list1` then. -/
def linkFront (h : ChainHeap α) (list1 list2 : LinkedList) :
    Option (ChainHeap α × Option Nat) :=
  if listIsEmpty list1 then some (h, list2.front)
  else do
    let h ← h.setNext list1.endPtr list2.front
    let h ← h.setPrev list2.front list1.endPtr
    return (h, list1.front)

/-- `list_join`; `none` is an access through a pointer that leads to no node. -/
def listJoin (h : ChainHeap α) (list1 list2 : LinkedList) : Option (Joined α) :=
  if listIsEmpty list2 then some ⟨true, h, list1, list2⟩
  else if list2.len ≤ listSpace list1 then do
    let (h, front) ← linkFront h list1 list2
    return ⟨true, h, ⟨list1.max, list1.len + list2.len, front, list2.endPtr⟩,
      ⟨list2.max, 0, none, none⟩⟩
  else if 0 < listSpace list1 then do
    let comp ← joinWalk h (listSpace list1).toNat list2.front
    let (h, front) ← linkFront h list1 list2
    let node ← comp.bind h
    let h ← h.setNext node.prev none
    let h ← h.setPrev comp none
    -- `list1->len` stays as it was
    return ⟨false, h, ⟨list1.max, list1.len, front, node.prev⟩,
      ⟨list2.max, list2.len - listSpace list1, comp, list2.endPtr⟩⟩
  else some ⟨false, h, list1, list2⟩

/-! ### Lists in memory -/

structure Placed (h : ChainHeap α) (list : LinkedList) (cells : List (Nat × α)) : Prop where
  front : list.front = headPtr none cells
  endPtr : list.endPtr = lastPtr none cells
  linked : Linked h none cells none

structure WellFormed (h : ChainHeap α) (list : LinkedList) (cells : List (Nat × α)) : Prop
    extends Placed h list cells where
  len : list.len.toNat = cells.length

structure Apart (h : ChainHeap α) (list1 list2 : LinkedList) (xs ys : List (Nat × α)) :
    Prop where
  fst : WellFormed h list1 xs
  snd : WellFormed h list2 ys
  nodup : ((xs ++ ys).map Prod.fst).Nodup
  le : list1.len ≤ list1.max

/-- **What `list_join` is for**, with `s` the space of the first list before the call. -/
structure JoinedRight (j : Joined α) (max : UInt32) (xs ys : List (Nat × α)) (s : Nat) :
    Prop where
  fst : WellFormed j.heap j.list1 (xs ++ ys.take s)
  snd : WellFormed j.heap j.list2 (ys.drop s)
  le : j.list1.len ≤ j.list1.max
  ret : j.ret = true ↔ ys.drop s = []
  hasSpace : listHasSpace j.list1 = true ↔ (xs ++ ys.take s).length < max.toNat
  isEmpty : listIsEmpty j.list2 = true ↔ ys.drop s = []

structure Outcome (j : Joined α) (max : UInt32) (xs ys : List (Nat × α)) (s : Nat) : Prop where
  fst : Placed j.heap j.list1 (xs ++ ys.take s)
  snd : WellFormed j.heap j.list2 (ys.drop s)
  ret : j.ret = true ↔ ys.drop s = []
  max : j.list1.max = max
  len : j.list1.len.toNat = xs.length + if ys.length ≤ s then ys.length else 0

variable {h : ChainHeap α} {list list1 list2 : LinkedList} {cells xs ys : List (Nat × α)}

theorem WellFormed.isEmpty_iff (hw : WellFormed h list cells) :
    listIsEmpty list = true ↔ cells = [] := by
  rw [listIsEmpty, beq_iff_eq, ← UInt32.toNat_inj, hw.len, UInt32.toNat_zero,
    length_eq_zero_iff]

/-! ### The outcome -/

theorem joinWalk_append {before after : Option Nat} (hl : Linked h before (xs ++ ys) after) :
    joinWalk h xs.length (headPtr after (xs ++ ys)) = some (headPtr after ys) := by
  induction xs generalizing before with
  | nil => rfl
  | cons cell xs ih =>
    obtain ⟨hnode, hrest⟩ := hl
    simp only [length_cons, cons_append, headPtr, joinWalk, hnode, Option.bind_eq_bind,
      Option.bind_some]
    exact ih hrest

section

variable (ha : Apart h list1 list2 xs ys)
include ha

theorem Apart.space_toNat :
    (listSpace list1).toNat = list1.max.toNat - xs.length := by
  rw [listSpace, UInt32.toNat_sub_of_le _ _ ha.le, ha.fst.len]

theorem Apart.walk_eq {s : Nat} (hs : s ≤ ys.length) :
    joinWalk h s list2.front = some (headPtr none (ys.drop s)) := by
  have hl := ha.snd.linked
  rw [← take_append_drop s ys] at hl
  have hw := joinWalk_append hl
  rwa [take_append_drop, length_take, Nat.min_eq_left hs, ← ha.snd.front] at hw

theorem Apart.linkFront_eq (hys : ys ≠ []) :
    ∃ h', linkFront h list1 list2 = some (h', headPtr none (xs ++ ys)) ∧
      Linked h' none (xs ++ ys) none := by
  by_cases hxs : xs = []
  · subst hxs
    refine ⟨h, ?_, ha.snd.linked⟩
    rw [linkFront, if_pos (ha.fst.isEmpty_iff.mpr rfl), ha.snd.front, nil_append]
  · obtain ⟨h₁, h₂, e₁, e₂, hx, hy⟩ := ha.fst.linked.relink (v := headPtr none ys)
      (w := lastPtr none xs) ha.snd.linked hxs hys ha.nodup
    refine ⟨h₂, ?_, linked_append.mpr ⟨hx, hy⟩⟩
    have hfront : headPtr none (xs ++ ys) = headPtr none xs :=
      headPtr_append.trans (headPtr_of_ne_nil hxs)
    rw [linkFront, if_neg (mt ha.fst.isEmpty_iff.mp hxs), ha.snd.front, ha.fst.endPtr, ha.fst.front,
      hfront]
    simp [e₁, e₂]

theorem Apart.outcome_all (hys : ys ≠ [])
    (hle : list2.len ≤ listSpace list1) : ∃ j, listJoin h list1 list2 = some j ∧
      Outcome j list1.max xs ys (listSpace list1).toNat := by
  obtain ⟨h', e, hl⟩ := ha.linkFront_eq hys
  have hfit : ys.length ≤ (listSpace list1).toNat := by
    rw [← ha.snd.len]
    exact hle
  have hdrop : ys.drop (listSpace list1).toNat = [] := drop_eq_nil_of_le hfit
  have hsum : (list1.len + list2.len).toNat = xs.length + ys.length := by
    have hsp := ha.space_toNat
    have hmax := list1.max.toNat_lt
    have hlen := ha.fst.len ▸ UInt32.le_iff_toNat_le.mp ha.le
    rw [UInt32.toNat_add, ha.fst.len, ha.snd.len]
    omega
  refine ⟨_, by
    rw [listJoin, if_neg (mt ha.snd.isEmpty_iff.mp hys), if_pos hle, e]
    rfl, ?_⟩
  constructor
  · rw [take_of_length_le hfit]
    refine ⟨rfl, ?_, hl⟩
    rw [lastPtr_append, ha.snd.endPtr]
    exact lastPtr_of_ne_nil hys
  · rw [hdrop]
    exact ⟨⟨rfl, rfl, trivial⟩, rfl⟩
  · simp [hdrop]
  · rfl
  · rw [if_pos hfit]
    exact hsum

theorem Apart.outcome_part (hlt : listSpace list1 < list2.len)
    (hpos : 0 < listSpace list1) : ∃ j, listJoin h list1 list2 = some j ∧
      Outcome j list1.max xs ys (listSpace list1).toNat := by
  have hs : 0 < (listSpace list1).toNat := hpos
  have hsy : (listSpace list1).toNat < ys.length := by
    rw [← ha.snd.len]
    exact hlt
  have hlen : (list2.len - listSpace list1).toNat = ys.length - (listSpace list1).toNat := by
    rw [UInt32.toNat_sub_of_le _ _ (UInt32.le_of_lt hlt), ha.snd.len]
  have hys : ys ≠ [] := ne_nil_of_length_pos (Nat.zero_lt_of_lt hsy)
  have hwalk := ha.walk_eq (Nat.le_of_lt hsy)
  obtain ⟨h', e, hl⟩ := ha.linkFront_eq hys
  generalize hS : (listSpace list1).toNat = s at *
  have hdrop : ys.drop s ≠ [] := by
    intro hnil
    have := drop_eq_nil_iff.mp hnil
    omega
  have htake : ys.take s ≠ [] := by
    intro hnil
    rcases take_eq_nil_iff.mp hnil with hzero | hnil
    · omega
    · exact hys hnil
  have hfst : xs ++ ys.take s ≠ [] := append_ne_nil_of_right_ne_nil _ htake
  have hcut : xs ++ ys = (xs ++ ys.take s) ++ ys.drop s := by
    rw [append_assoc, take_append_drop]
  have hend : lastPtr none ys = lastPtr none (ys.drop s) := by
    conv_lhs => rw [← take_append_drop s ys, lastPtr_append]
    exact lastPtr_of_ne_nil hdrop
  have hnd := ha.nodup
  rw [hcut] at hl hnd e
  obtain ⟨node, h₁, h₂, hnode, hprev, e₁, e₂, hx, hy⟩ := hl.cut hfst hdrop hnd
  refine ⟨⟨false, h₂, ⟨list1.max, list1.len, headPtr none (xs ++ ys.take s), node.prev⟩,
    ⟨list2.max, list2.len - listSpace list1, headPtr none (ys.drop s), list2.endPtr⟩⟩, ?_, ?_⟩
  · rw [listJoin, if_neg (mt ha.snd.isEmpty_iff.mp hys), if_neg (UInt32.not_le.mpr hlt),
      if_pos hpos, hS, hwalk, e, headPtr_append, headPtr_of_ne_nil (w := none) hfst]
    simp [hnode, e₁, e₂]
  · constructor
    · exact ⟨rfl, hprev, hx⟩
    · exact ⟨⟨rfl, ha.snd.endPtr.trans hend, hy⟩, hlen.trans (length_drop ..).symm⟩
    · simp [hdrop]
    · rfl
    · rw [if_neg (Nat.not_le.mpr hsy)]
      exact ha.fst.len

theorem Apart.outcome : ∃ j, listJoin h list1 list2 = some j ∧
    Outcome j list1.max xs ys (listSpace list1).toNat := by
  by_cases hys : ys = []
  · subst hys
    refine ⟨⟨true, h, list1, list2⟩, ?_, ?_⟩
    · rw [listJoin, if_pos (ha.snd.isEmpty_iff.mpr rfl)]
    · exact ⟨by simpa using ha.fst.toPlaced, by simpa using ha.snd, by simp, rfl,
        by simpa using ha.fst.len⟩
  by_cases hle : list2.len ≤ listSpace list1
  · exact ha.outcome_all hys hle
  by_cases hpos : 0 < listSpace list1
  · exact ha.outcome_part (UInt32.not_le.mp hle) hpos
  · have hzero : (listSpace list1).toNat = 0 := Nat.eq_zero_of_not_pos hpos
    refine ⟨⟨false, h, list1, list2⟩, ?_, ?_⟩
    · rw [listJoin, if_neg (mt ha.snd.isEmpty_iff.mp hys), if_neg hle, if_neg hpos]
    · rw [hzero]
      exact ⟨by simpa using ha.fst.toPlaced, by simpa using ha.snd, by simp [hys], rfl,
        by simp [hys, ha.fst.len]⟩

end

theorem Outcome.len_ne {j : Joined α} (ho : Outcome j list1.max xs ys (listSpace list1).toNat)
    (ha : Apart h list1 list2 xs ys) (hpos : 0 < listSpace list1)
    (hlt : listSpace list1 < list2.len) :
    j.list1.len.toNat ≠ (xs ++ ys.take (listSpace list1).toNat).length := by
  have hs : 0 < (listSpace list1).toNat := hpos
  have hsy : (listSpace list1).toNat < list2.len.toNat := hlt
  rw [ha.snd.len] at hsy
  rw [ho.len, if_neg (Nat.not_le.mpr hsy), length_append, length_take]
  omega

theorem Outcome.joinedRight {j : Joined α}
    (ho : Outcome j list1.max xs ys (listSpace list1).toNat) (ha : Apart h list1 list2 xs ys)
    (hno : ¬ (0 < listSpace list1 ∧ listSpace list1 < list2.len)) :
    JoinedRight j list1.max xs ys (listSpace list1).toNat := by
  have hsp := ha.space_toNat
  have hmax := UInt32.le_iff_toNat_le.mp ha.le
  rw [UInt32.lt_iff_toNat_lt, UInt32.lt_iff_toNat_lt, ha.snd.len, UInt32.toNat_zero] at hno
  rw [ha.fst.len] at hmax
  have hlen : j.list1.len.toNat = (xs ++ ys.take (listSpace list1).toNat).length := by
    rw [ho.len, length_append, length_take]
    split <;> omega
  constructor
  · exact ⟨ho.fst, hlen⟩
  · exact ho.snd
  · rw [UInt32.le_iff_toNat_le, hlen, ho.max, length_append, length_take]
    omega
  · exact ho.ret
  · rw [listHasSpace, decide_eq_true_iff, UInt32.lt_iff_toNat_lt, hlen, ho.max]
  · exact ho.snd.isEmpty_iff

/-- The lists are right unless only a part of the second one fits. -/
theorem listJoin_right_iff (ha : Apart h list1 list2 xs ys) :
    (∃ j, listJoin h list1 list2 = some j ∧
      JoinedRight j list1.max xs ys (listSpace list1).toNat) ↔
      ¬ (0 < listSpace list1 ∧ listSpace list1 < list2.len) := by
  obtain ⟨j, e, ho⟩ := ha.outcome
  constructor
  · rintro ⟨j', e', hr⟩ ⟨hpos, hlt⟩
    obtain rfl : j = j' := Option.some.inj (e.symm.trans e')
    exact ho.len_ne ha hpos hlt hr.fst.len
  · intro hno
    exact ⟨j, e, ho.joinedRight ha hno⟩

def twoNodes : ChainHeap Nat
  | 1 => some ⟨some 2, none, 10⟩
  | 2 => some ⟨none, some 1, 20⟩
  | _ => none

theorem apart_twoNodes (max : UInt32) : Apart twoNodes ⟨max, 0, none, none⟩
    ⟨8, 2, some 1, some 2⟩ [] [(1, 10), (2, 20)] where
  fst := ⟨⟨rfl, rfl, trivial⟩, rfl⟩
  snd := ⟨⟨rfl, rfl, rfl, rfl, trivial⟩, rfl⟩
  nodup := by decide
  le := UInt32.zero_le

theorem listJoin_two_fit :
    ∃ j, listJoin twoNodes ⟨2, 0, none, none⟩ ⟨8, 2, some 1, some 2⟩ = some j ∧
    JoinedRight j 2 [] [(1, 10), (2, 20)] 2 :=
  (listJoin_right_iff (apart_twoNodes 2)).mpr (by decide)

/-- One of two nodes fits: it is linked into the first list, whose `len` stays 0. -/
theorem listJoin_part_len : Apart twoNodes ⟨1, 0, none, none⟩ ⟨8, 2, some 1, some 2⟩
      [] [(1, 10), (2, 20)] ∧
    ¬ ∃ j, listJoin twoNodes ⟨1, 0, none, none⟩ ⟨8, 2, some 1, some 2⟩ = some j ∧
      JoinedRight j 1 [] [(1, 10), (2, 20)] 1 := by
  refine ⟨apart_twoNodes 1, ?_⟩
  rintro ⟨j, e, hr⟩
  obtain ⟨j', e', ho⟩ := (apart_twoNodes 1).outcome
  obtain rfl : j = j' := Option.some.inj (e.symm.trans e')
  exact ho.len_ne (apart_twoNodes 1) (by decide) (by decide) hr.fst.len

end FinsStack.Net.ListJoin
