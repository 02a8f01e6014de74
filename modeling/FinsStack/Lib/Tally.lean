import Mathlib.Data.Finset.Card
import Mathlib.Logic.Function.Basic

/-!
# Counters that count the threads in a place

A counter shared by threads (the count of a semaphore, a number of users) is right when it is
the number of threads that stand in a certain place.  `Tally n C` says that `n` threads have
`C`.  There may be any number of threads, each with a record of its own; when one of them
changes its record, the counter follows by `Tally.join`, `Tally.leave` or `Tally.keep`.

For a semaphore with count `n` that one thread at a time may pass, `Tally (1 - n) C` is mutual
exclusion: the count is at most one and no two threads have `C`.
-/

namespace FinsStack.Lib

variable {ι α : Type*}

/-- Exactly `n` threads have `C`. -/
def Tally (n : Int) (C : ι → Prop) : Prop :=
  ∃ S : Finset ι, (∀ i, i ∈ S ↔ C i) ∧ n = S.card

variable {n : Int} {D : ι → Prop} {i : ι}

theorem Tally.zero (h : ∀ i, ¬ D i) : Tally 0 D :=
  ⟨∅, fun i => by simp [h i], by simp⟩

section

variable (h : Tally n D)
include h

theorem Tally.nonneg : 0 ≤ n := by
  obtain ⟨S, -, rfl⟩ := h
  omega

theorem Tally.pos (hi : D i) : 1 ≤ n := by
  obtain ⟨S, hS, rfl⟩ := h
  have hpos : 0 < S.card := Finset.card_pos.mpr ⟨i, (hS i).mpr hi⟩
  omega

theorem Tally.exists_of_pos (hn : 1 ≤ n) : ∃ i, D i := by
  obtain ⟨S, hS, rfl⟩ := h
  obtain ⟨i, hi⟩ := Finset.card_pos.mp (show 0 < S.card by omega)
  exact ⟨i, (hS i).mp hi⟩

theorem Tally.exists_other (hn : 2 ≤ n) (i : ι) : ∃ j, j ≠ i ∧ D j := by
  obtain ⟨S, hS, rfl⟩ := h
  obtain ⟨j, hj, hne⟩ := Finset.exists_mem_ne (show 1 < S.card by omega) i
  exact ⟨j, hne, (hS j).mp hj⟩

/-- A counter of at most one counts nobody twice. -/
theorem Tally.eq_of_le_one (hn : n ≤ 1) {i j : ι} (hi : D i) (hj : D j) : i = j := by
  obtain ⟨S, hS, rfl⟩ := h
  exact Finset.card_le_one.mp (by omega) i ((hS i).mpr hi) j ((hS j).mpr hj)

end

variable [DecidableEq ι] {f : ι → α} {C : α → Prop} {a : α}

section

variable (h : Tally n fun i => C (f i))
include h

theorem Tally.join (hi : ¬ C (f i)) (ha : C a) :
    Tally (n + 1) fun j => C (Function.update f i a j) := by
  obtain ⟨S, hS, rfl⟩ := h
  refine ⟨insert i S, fun j => ?_, ?_⟩
  · by_cases hj : j = i
    · subst hj
      simp [ha]
    · simp [hj, hS]
  · have hmem : i ∉ S := fun hmem => hi ((hS i).mp hmem)
    simp [Finset.card_insert_of_notMem hmem]

theorem Tally.leave (hi : C (f i)) (ha : ¬ C a) :
    Tally (n - 1) fun j => C (Function.update f i a j) := by
  obtain ⟨S, hS, rfl⟩ := h
  have hmem : i ∈ S := (hS i).mpr hi
  refine ⟨S.erase i, fun j => ?_, ?_⟩
  · by_cases hj : j = i
    · subst hj
      simp [ha]
    · simp [hj, hS]
  · have hpos : 0 < S.card := Finset.card_pos.mpr ⟨i, hmem⟩
    rw [Finset.card_erase_of_mem hmem]
    omega

theorem Tally.keep (hi : C a ↔ C (f i)) : Tally n fun j => C (Function.update f i a j) := by
  obtain ⟨S, hS, rfl⟩ := h
  refine ⟨S, fun j => ?_, rfl⟩
  by_cases hj : j = i
  · subst hj
    simp [hS, hi]
  · simp [hj, hS]

end

end FinsStack.Lib
