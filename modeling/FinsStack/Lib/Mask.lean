import Mathlib.Data.UInt

/-!
# 32-bit masks as sets of flags

A mask is the set of its bits: `Flagged m i` says that bit `i` of `m` is set, and an equation
between masks is an equivalence for each bit (`mask_ext`).  `Parts all a b c` says that three
masks divide the flags of `all` among themselves.  Its rules are the ways such a division
changes: flags that move from one part to the next, and a fresh division.
-/

namespace FinsStack.Lib

def Flagged (m : UInt32) (i : Nat) : Prop := m.toBitVec.getLsbD i = true

variable {m n : UInt32} {i : Nat}

theorem mask_ext (h : ∀ i, i < 32 → (Flagged m i ↔ Flagged n i)) : m = n := by
  apply UInt32.toBitVec_inj.mp
  apply BitVec.eq_of_getLsbD_eq
  intro i hi
  exact Bool.eq_iff_iff.mpr (h i hi)

theorem flagged_and : Flagged (m &&& n) i ↔ Flagged m i ∧ Flagged n i := by
  simp [Flagged]

theorem flagged_or : Flagged (m ||| n) i ↔ Flagged m i ∨ Flagged n i := by
  simp [Flagged]

theorem flagged_not (hi : i < 32) : Flagged (~~~m) i ↔ ¬ Flagged m i := by
  simp [Flagged, hi]

theorem not_flagged_zero (i : Nat) : ¬ Flagged 0 i := by
  simp [Flagged]

theorem and_eq_zero_iff : m &&& n = 0 ↔ ∀ i, i < 32 → ¬ (Flagged m i ∧ Flagged n i) := by
  constructor
  · intro h i _ hmn
    apply not_flagged_zero i
    rw [← h]
    exact flagged_and.mpr hmn
  · intro h
    apply mask_ext
    intro i hi
    have := h i hi
    have := not_flagged_zero i
    rw [flagged_and]
    grind

def Within (m n : UInt32) : Prop := m &&& n = m

theorem within_iff : Within m n ↔ ∀ i, i < 32 → Flagged m i → Flagged n i := by
  constructor
  · intro h i _ hm
    rw [← h] at hm
    exact (flagged_and.mp hm).2
  · intro h
    apply mask_ext
    intro i hi
    have := h i hi
    rw [flagged_and]
    grind

theorem and_within (m n : UInt32) : Within (m &&& n) m := by
  rw [within_iff]
  intro i _ h
  exact (flagged_and.mp h).1

/-- The flags of `all` are divided into three parts. -/
structure Parts (all a b c : UInt32) : Prop where
  disjoint_ab : a &&& b = 0
  disjoint_ac : a &&& c = 0
  disjoint_bc : b &&& c = 0
  union : a ||| b ||| c = all

theorem parts_iff {all a b c : UInt32} :
    Parts all a b c ↔ ∀ i, i < 32 →
      ¬ (Flagged a i ∧ Flagged b i) ∧ ¬ (Flagged a i ∧ Flagged c i) ∧
        ¬ (Flagged b i ∧ Flagged c i) ∧
        (Flagged all i ↔ Flagged a i ∨ Flagged b i ∨ Flagged c i) := by
  constructor
  · rintro ⟨hab, hac, hbc, rfl⟩ i hi
    refine ⟨and_eq_zero_iff.mp hab i hi, and_eq_zero_iff.mp hac i hi,
      and_eq_zero_iff.mp hbc i hi, ?_⟩
    rw [flagged_or, flagged_or, or_assoc]
  · intro h
    constructor
    · exact and_eq_zero_iff.mpr fun i hi => (h i hi).1
    · exact and_eq_zero_iff.mpr fun i hi => (h i hi).2.1
    · exact and_eq_zero_iff.mpr fun i hi => (h i hi).2.2.1
    · apply mask_ext
      intro i hi
      rw [flagged_or, flagged_or, or_assoc]
      exact (h i hi).2.2.2.symm

variable {all a b c : UInt32}

theorem Parts.fresh (all m : UInt32) : Parts all (all &&& ~~~m) 0 (all &&& m) := by
  rw [parts_iff]
  intro i hi
  have := not_flagged_zero i
  simp only [flagged_and, flagged_not hi]
  grind

theorem Parts.fresh_middle (all m : UInt32) : Parts all (all &&& ~~~m) (all &&& m) 0 := by
  rw [parts_iff]
  intro i hi
  have := not_flagged_zero i
  simp only [flagged_and, flagged_not hi]
  grind

section

variable (h : Parts all a b c)
include h

theorem Parts.advance (m : UInt32) : Parts all (a &&& ~~~m) (b ||| (a &&& m)) c := by
  rw [parts_iff] at h ⊢
  intro i hi
  have := h i hi
  simp only [flagged_and, flagged_or, flagged_not hi]
  grind

theorem Parts.settle (m : UInt32) : Parts all ((a ||| b) &&& ~~~m) 0 (c ||| ((a ||| b) &&& m)) := by
  rw [parts_iff] at h ⊢
  intro i hi
  have := h i hi
  have := not_flagged_zero i
  simp only [flagged_and, flagged_or, flagged_not hi]
  grind

theorem Parts.regroup (hc : c = 0) (m : UInt32) :
    Parts all ((a ||| b) &&& ~~~m) ((a ||| b) &&& m) 0 := by
  have hall : all = a ||| b := by
    rw [← h.union, hc, UInt32.or_zero]
  rw [hall]
  exact Parts.fresh_middle ..

section

variable (m)

theorem Parts.complete : Parts all (a &&& ~~~m) 0 (c ||| (b ||| (a &&& m))) := by
  rw [parts_iff] at h ⊢
  intro i hi
  have := h i hi
  have := not_flagged_zero i
  simp only [flagged_and, flagged_or, flagged_not hi]
  grind

theorem Parts.first_within : Within (a &&& m) all := by
  rw [parts_iff] at h
  rw [within_iff]
  intro i hi
  have := h i hi
  simp only [flagged_and]
  grind

theorem Parts.first_disjoint : (a &&& m) &&& c = 0 := by
  rw [parts_iff] at h
  rw [and_eq_zero_iff]
  intro i hi
  have := h i hi
  simp only [flagged_and]
  grind

theorem Parts.selected_within : Within ((a ||| b) &&& m) all := by
  rw [parts_iff] at h
  rw [within_iff]
  intro i hi
  have := h i hi
  simp only [flagged_and, flagged_or]
  grind

theorem Parts.selected_disjoint : ((a ||| b) &&& m) &&& c = 0 := by
  rw [parts_iff] at h
  rw [and_eq_zero_iff]
  intro i hi
  have := h i hi
  simp only [flagged_and, flagged_or]
  grind

end

end

end FinsStack.Lib
