import Mathlib.Data.UInt

/-!
# Positions in a 32-bit sequence space

A byte at position `p` of a stream has the sequence number `base + p` modulo 2^32.
Positions below 2^32 are determined by their sequence number, and the distance
`x - base` gives the position back.  Nothing here names a particular protocol.
-/

namespace FinsStack.Lib

theorem toNat_ofNat_of_lt {p : Nat} (hp : p < 2 ^ 32) : (UInt32.ofNat p).toNat = p := by
  rw [UInt32.toNat_ofNat']
  exact Nat.mod_eq_of_lt hp

theorem ofInt_natCast (n : Nat) : UInt32.ofInt n = UInt32.ofNat n := by
  apply UInt32.toNat.inj
  have h : ((n : Int) % 2 ^ 32).toNat = n % 2 ^ 32 := by omega
  rw [UInt32.ofInt, h, UInt32.toNat_ofNat', UInt32.toNat_ofNat', Nat.mod_mod]

theorem toNat_seq_sub {p : Nat} (base : UInt32) (hp : p < 2 ^ 32) :
    (base + UInt32.ofNat p - base).toNat = p := by
  have h : base + UInt32.ofNat p - base = UInt32.ofNat p := by grind
  rw [h]
  exact toNat_ofNat_of_lt hp

theorem seq_inj {p q : Nat} {base : UInt32} (hp : p < 2 ^ 32) (hq : q < 2 ^ 32)
    (h : base + UInt32.ofNat p = base + UInt32.ofNat q) : p = q := by
  rw [← toNat_seq_sub base hp, h, toNat_seq_sub base hq]

theorem seq_add (base : UInt32) (p q : Nat) :
    base + UInt32.ofNat p + UInt32.ofNat q = base + UInt32.ofNat (p + q) := by
  rw [UInt32.ofNat_add]
  grind

/-! ### Distances -/

/-- How far `x` is ahead of `base`. -/
def seqDist (base x : UInt32) : Nat := (x - base).toNat

variable {base x n : UInt32}

theorem seqDist_of_le (h : base ≤ x) : seqDist base x = x.toNat - base.toNat :=
  UInt32.toNat_sub_of_le _ _ h

theorem seqDist_of_lt (h : x < base) : seqDist base x = 2 ^ 32 + x.toNat - base.toNat := by
  have hb := base.toNat_lt
  have hlt := UInt32.lt_iff_toNat_lt.mp h
  unfold seqDist
  rw [UInt32.toNat_sub]
  omega

/-- A number is either ahead of `base` without a wrap, or behind the wrap. -/
theorem seqDist_cases (base x : UInt32) :
    (base.toNat ≤ x.toNat ∧ seqDist base x = x.toNat - base.toNat) ∨
      (x.toNat < base.toNat ∧ seqDist base x = 2 ^ 32 + x.toNat - base.toNat) := by
  by_cases h : base ≤ x
  · exact .inl ⟨UInt32.le_iff_toNat_le.mp h, seqDist_of_le h⟩
  · have h' := UInt32.not_le.mp h
    exact .inr ⟨UInt32.lt_iff_toNat_lt.mp h', seqDist_of_lt h'⟩

theorem seqDist_eq_zero : seqDist base x = 0 ↔ x = base := by
  unfold seqDist
  rw [← UInt32.toNat_zero, UInt32.toNat_inj, UInt32.sub_eq_iff_eq_add, UInt32.zero_add]

theorem seqDist_add (h : seqDist base x + n.toNat < 2 ^ 32) :
    seqDist base (x + n) = seqDist base x + n.toNat := by
  have hsum : x + n - base = (x - base) + n := by grind
  unfold seqDist at h ⊢
  rw [hsum, UInt32.toNat_add]
  exact Nat.mod_eq_of_lt h

/-- Moving the base forward by `n` brings what is ahead of it nearer by `n`. -/
theorem seqDist_move_le (h : n.toNat ≤ seqDist base x) :
    seqDist (base + n) x = seqDist base x - n.toNat := by
  have hdiff : x - (base + n) = (x - base) - n := by grind
  unfold seqDist at h ⊢
  rw [hdiff, UInt32.toNat_sub_of_le _ _ (UInt32.le_iff_toNat_le.mpr h)]

theorem seqDist_move_lt (h : seqDist base x < n.toNat) :
    seqDist (base + n) x = 2 ^ 32 + seqDist base x - n.toNat := by
  have hdiff : x - (base + n) = (x - base) - n := by grind
  have hn := n.toNat_lt
  unfold seqDist at h ⊢
  rw [hdiff, UInt32.toNat_sub]
  omega

end FinsStack.Lib
