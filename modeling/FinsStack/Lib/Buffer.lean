import Mathlib.Data.List.Basic

/-!
# Buffers that are filled from front to back

`patch buf pos data` is a buffer after `data` was copied to offset `pos`.  A buffer that
holds the first `pos` entries of a message and is patched there with the next ones holds
those too (`take_patch`), whatever it was filled with before.
-/

namespace FinsStack.Lib

variable {α : Type}

/-- The buffer after `data` was copied to offset `pos`. -/
def patch (buf : List α) (pos : Nat) (data : List α) : List α :=
  buf.take pos ++ data ++ buf.drop (pos + data.length)

theorem length_patch {buf data : List α} {pos : Nat} (h : pos + data.length ≤ buf.length) :
    (patch buf pos data).length = buf.length := by
  simp only [patch, List.length_append, List.length_take, List.length_drop]
  omega

/-- **Filling on.** -/
theorem take_patch {buf data m : List α} {pos : Nat} (hlen : pos ≤ buf.length)
    (hbuf : buf.take pos = m.take pos) (hdata : data = (m.drop pos).take data.length) :
    (patch buf pos data).take (pos + data.length) = m.take (pos + data.length) := by
  have hfront : (buf.take pos ++ data).length = pos + data.length := by
    rw [List.length_append, List.length_take, Nat.min_eq_left hlen]
  rw [patch, List.take_left' hfront, hbuf, List.take_add]
  congr 1

end FinsStack.Lib
