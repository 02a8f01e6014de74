import Mathlib.Data.List.Basic

/-!
# One's-complement sums of 16-bit words

The Internet checksum adds the 16-bit words of a byte string, an odd last byte counting as
the high half of a word, and folds the carries back in.  Over `Nat` the folded sum is the
representative of the sum modulo 2^16 - 1 that is zero only for zero (`onesFold`), and a word
that completes a sum to all ones is found by subtraction (`onesFold_add_complement`).
Nothing here names a particular protocol.
-/

namespace FinsStack.Lib

/-! ### Sums of words -/

/-- The sum of the 16-bit words of a byte string, without any carry lost. -/
def wordSum : List UInt8 → Nat
  | a :: b :: rest => a.toNat * 256 + b.toNat + wordSum rest
  | [a] => a.toNat * 256
  | [] => 0

@[simp] theorem wordSum_nil : wordSum [] = 0 := rfl

@[simp] theorem wordSum_pair (a b : UInt8) (rest : List UInt8) :
    wordSum (a :: b :: rest) = a.toNat * 256 + b.toNat + wordSum rest := rfl

theorem wordSum_le (l : List UInt8) : wordSum l ≤ 65535 * ((l.length + 1) / 2) := by
  induction l using wordSum.induct with
  | case1 a b rest ih =>
    have ha := a.toNat_lt
    have hb := b.toNat_lt
    rw [wordSum_pair]
    simp only [List.length_cons]
    have hlen : (rest.length + 1 + 1 + 1) / 2 = (rest.length + 1) / 2 + 1 := by omega
    rw [hlen, Nat.mul_succ]
    omega
  | case2 a =>
    have ha := a.toNat_lt
    simp only [wordSum, List.length_singleton]
    omega
  | case3 => exact Nat.zero_le _

/-! ### Folding -/

/-- The sum with its carries folded in. -/
def onesFold (n : Nat) : Nat := if n = 0 then 0 else (n - 1) % 65535 + 1

@[simp] theorem onesFold_zero : onesFold 0 = 0 := rfl

theorem onesFold_pos {n : Nat} (h : 0 < n) : onesFold n = (n - 1) % 65535 + 1 :=
  if_neg (Nat.ne_of_gt h)

theorem onesFold_le (n : Nat) : onesFold n ≤ 65535 := by
  unfold onesFold
  split
  · omega
  · have := Nat.mod_lt (n - 1) (show 0 < 65535 by omega)
    omega

theorem onesFold_of_lt {n : Nat} (h : n < 65536) : onesFold n = n := by
  unfold onesFold
  split
  · omega
  · omega

theorem onesFold_round (n : Nat) : onesFold (n % 65536 + n / 65536) = onesFold n := by
  rcases Nat.eq_zero_or_pos n with rfl | hn
  · rfl
  · have hpos : 0 < n % 65536 + n / 65536 := by omega
    rw [onesFold_pos hpos, onesFold_pos hn]
    omega

/-- **The complement completes the sum.** -/
theorem onesFold_add_complement (n : Nat) : onesFold (n + (65535 - onesFold n)) = 65535 := by
  have hle := onesFold_le n
  rcases Nat.eq_zero_or_pos n with rfl | h
  · rfl
  · rw [onesFold_pos (by omega)]
    rw [onesFold_pos h] at hle ⊢
    omega

end FinsStack.Lib
