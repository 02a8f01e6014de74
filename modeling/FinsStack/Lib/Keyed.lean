import Mathlib.Data.List.Basic

/-!
# Lists with at most one element of a kind

A list that is searched for its first element of a kind, which is then changed in place
(`updateFirst`) or taken out (`List.eraseP`).  Where the list holds at most one such element,
what is left are elements of other kinds.
-/

namespace FinsStack.Lib

open List

variable {α : Type*}

def AtMostOne (p : α → Bool) (l : List α) : Prop := l.countP p ≤ 1

def updateFirst (p : α → Bool) (f : α → α) : List α → List α
  | [] => []
  | a :: l => if p a then f a :: l else a :: updateFirst p f l

variable {p q : α → Bool} {f : α → α} {l : List α}

theorem not_of_atMostOne_cons {a : α} (h : AtMostOne p (a :: l)) (ha : p a) :
    ∀ b ∈ l, ¬ p b := by
  have hcount : l.countP p = 0 := by
    rw [AtMostOne, countP_cons_of_pos ha] at h
    omega
  exact countP_eq_zero.mp hcount

theorem AtMostOne.of_cons {a : α} (h : AtMostOne p (a :: l)) : AtMostOne p l := by
  have := countP_cons (p := p) (l := l) (a := a)
  rw [AtMostOne] at h ⊢
  omega

theorem AtMostOne.sublist {l' : List α} (h : AtMostOne p l) (hl : l'.Sublist l) : AtMostOne p l' :=
  Nat.le_trans (hl.countP_le ..) h

/-- A change that keeps the kind of the elements keeps their number. -/
theorem AtMostOne.updateFirst (h : AtMostOne q l) (hf : ∀ a, q (f a) = q a) :
    AtMostOne q (updateFirst p f l) := by
  have hcount : ∀ l : List α, (Lib.updateFirst p f l).countP q = l.countP q := by
    intro l
    induction l with
    | nil => rfl
    | cons a l ih =>
      by_cases ha : p a
      · simp only [Lib.updateFirst, ha, if_true, countP_cons, hf]
      · simp only [Lib.updateFirst, ha, if_false, countP_cons, ih, Bool.false_eq_true]
  rw [AtMostOne, hcount]
  exact h

theorem AtMostOne.map {g : α → α} (h : AtMostOne q l) (hg : ∀ a, q (g a) = q a) :
    AtMostOne q (l.map g) := by
  rw [AtMostOne, countP_map]
  have : q ∘ g = q := funext hg
  rw [this]
  exact h

theorem AtMostOne.concat {a : α} (h : AtMostOne q l) (ha : q a → l.find? q = none) :
    AtMostOne q (l ++ [a]) := by
  rw [AtMostOne, countP_append, countP_singleton]
  by_cases hq : q a
  · have hnone : l.countP q = 0 :=
      countP_eq_zero.mpr (find?_eq_none.mp (ha hq))
    rw [hnone]
    split <;> omega
  · rw [if_neg hq]
    exact h

theorem mem_updateFirst {b : α} (h : AtMostOne p l) (hb : b ∈ updateFirst p f l) :
    (b ∈ l ∧ p b = false) ∨ ∃ a, l.find? p = some a ∧ b = f a := by
  induction l with
  | nil => cases hb
  | cons a l ih =>
    by_cases ha : p a
    · simp only [updateFirst, ha, if_true, mem_cons] at hb
      rcases hb with rfl | hb
      · exact .inr ⟨a, find?_cons_of_pos ha, rfl⟩
      · have := not_of_atMostOne_cons h ha b hb
        exact .inl ⟨mem_cons_of_mem _ hb, by simpa using this⟩
    · simp only [updateFirst, ha, Bool.false_eq_true, if_false, mem_cons] at hb
      rcases hb with rfl | hb
      · exact .inl ⟨mem_cons_self .., by simpa using ha⟩
      · rcases ih h.of_cons hb with ⟨hmem, hpb⟩ | ⟨a', ha', rfl⟩
        · exact .inl ⟨mem_cons_of_mem _ hmem, hpb⟩
        · exact .inr ⟨a', by rw [find?_cons_of_neg ha, ha'], rfl⟩

theorem mem_eraseP {b : α} (h : AtMostOne p l) (hb : b ∈ l.eraseP p) : b ∈ l ∧ p b = false := by
  induction l with
  | nil => cases hb
  | cons a l ih =>
    by_cases ha : p a
    · rw [eraseP_cons_of_pos ha] at hb
      have := not_of_atMostOne_cons h ha b hb
      exact ⟨mem_cons_of_mem _ hb, by simpa using this⟩
    · rw [eraseP_cons_of_neg ha, mem_cons] at hb
      rcases hb with rfl | hb
      · exact ⟨mem_cons_self .., by simpa using ha⟩
      · obtain ⟨hmem, hpb⟩ := ih h.of_cons hb
        exact ⟨mem_cons_of_mem _ hmem, hpb⟩

end FinsStack.Lib
