import Mathlib.Data.List.Pairwise

/-!
# Lists of half-open ranges, ordered and apart

An item `x` occupies the positions from `lo x` up to, not including, `hi x`.
`Before` puts one item in front of another when it starts earlier and ends no later
than the other starts; touching items do not overlap, and an empty item has a place
too.  A list is `Ordered` when every item is before all later ones.  An item that is in
front of some members of an ordered list and behind the others has a place in it, and
putting it there keeps the order, whatever the order is.
-/

namespace FinsStack.Lib

variable {α : Type*} {lo hi : α → Nat} {x y z : α} {l l₁ l₂ : List α}

/-- `x` starts earlier than `y` and ends no later than `y` starts. -/
def Before (lo hi : α → Nat) (x y : α) : Prop := lo x < lo y ∧ hi x ≤ lo y
deriving Decidable

/-- Neither item is before the other. -/
def Clash (lo hi : α → Nat) (x y : α) : Prop := ¬ Before lo hi x y ∧ ¬ Before lo hi y x

theorem clash_iff :
    Clash lo hi x y ↔ (lo y ≤ lo x ∨ lo y < hi x) ∧ (lo x ≤ lo y ∨ lo x < hi y) := by
  unfold Clash Before
  omega

theorem Before.trans (h : Before lo hi x y) (h' : Before lo hi y z) : Before lo hi x z :=
  ⟨Nat.lt_trans h.1 h'.1, Nat.le_trans h.2 (Nat.le_of_lt h'.1)⟩

theorem Before.not_symm (h : Before lo hi x y) : ¬ Before lo hi y x :=
  fun h' => Nat.lt_asymm h.1 h'.1

theorem Before.apart (h : Before lo hi x y) {p : Nat} (hx : p < hi x) (hy : lo y ≤ p) : False := by
  have := h.2
  omega

/-- A non-empty item clashes with another one only if they have a position in common, or if
    the other one is empty and lies in it. -/
theorem Clash.common (h : Clash lo hi x y) (hx : lo x < hi x) (hy : lo y ≤ hi y) :
    (∃ p, lo x ≤ p ∧ p < hi x ∧ lo y ≤ p ∧ p < hi y) ∨
      (lo y = hi y ∧ lo x ≤ lo y ∧ lo y < hi x) := by
  unfold Clash Before at h
  by_cases he : lo y = hi y
  · refine .inr ⟨he, ?_, ?_⟩
    · omega
    · omega
  · refine .inl ⟨max (lo x) (lo y), ?_, ?_, ?_, ?_⟩
    · omega
    · omega
    · omega
    · omega

inductive Placed (lo hi : α → Nat) (x y : α) : Ordering → Prop
  | lt (h : Before lo hi x y) : Placed lo hi x y .lt
  | gt (h : Before lo hi y x) : Placed lo hi x y .gt
  | eq (h : Clash lo hi x y) : Placed lo hi x y .eq

abbrev Ordered (lo hi : α → Nat) (l : List α) : Prop := l.Pairwise (Before lo hi)

/-! ### A place in an ordered list -/

section

variable {R : α → α → Prop}

theorem rel_all_of_head (htrans : ∀ x y z, R x y → R y z → R x z) (h : (y :: l).Pairwise R)
    (hx : R x y) : ∀ z ∈ y :: l, R x z := by
  intro z hz
  rcases List.mem_cons.mp hz with rfl | hz
  · exact hx
  · exact htrans _ _ _ hx (List.rel_of_pairwise_cons h hz)

theorem all_rel_of_last (htrans : ∀ x y z, R x y → R y z → R x z)
    (h : (l ++ [y]).Pairwise R) (hx : R y x) : ∀ z ∈ l ++ [y], R z x := by
  intro z hz
  rcases List.mem_append.mp hz with hz | hz
  · exact htrans _ _ _ ((List.pairwise_append.mp h).2.2 z hz y (List.mem_singleton_self y)) hx
  · exact List.mem_singleton.mp hz ▸ hx

/-- An item put behind those before it and in front of the others keeps the order. -/
theorem pairwise_insert (h : (l₁ ++ l₂).Pairwise R) (hpre : ∀ y ∈ l₁, R y x)
    (hpost : ∀ y ∈ l₂, R x y) : (l₁ ++ x :: l₂).Pairwise R := by
  obtain ⟨h₁, h₂, h₁₂⟩ := List.pairwise_append.mp h
  apply List.pairwise_append.mpr
  refine ⟨h₁, List.pairwise_cons.mpr ⟨hpost, h₂⟩, ?_⟩
  intro y hy z hz
  rcases List.mem_cons.mp hz with rfl | hz
  · exact hpre y hy
  · exact h₁₂ y hy z hz

end

end FinsStack.Lib
