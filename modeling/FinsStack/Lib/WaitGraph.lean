import Mathlib.Logic.Relation
import Mathlib.Order.Basic

/-!
# Threads that wait for each other

A thread blocks on another when it waits for a lock that the other holds.  Threads are
deadlocked when following these arrows leads back to where it started.  When every arrow leads
to a thread of smaller rank there is no such cycle; the rank may be read off from the state, so
that the same two locks may be taken in different orders as long as not at the same time.
-/

namespace FinsStack.Lib

variable {T L : Type*}

/-- `t` waits for a lock that `t'` holds. -/
def BlockedBy (waits holds : T → L → Prop) (t t' : T) : Prop := ∃ l, waits t l ∧ holds t' l

/-- A cycle of threads, each waiting for a lock that the next one holds. -/
def Deadlocked (waits holds : T → L → Prop) : Prop :=
  ∃ t, Relation.TransGen (BlockedBy waits holds) t t

/-- **Rank rule.** -/
theorem not_deadlocked_of_rank {waits holds : T → L → Prop} (rank : T → Nat)
    (h : ∀ t t' l, waits t l → holds t' l → rank t' < rank t) : ¬ Deadlocked waits holds := by
  rintro ⟨t, ht⟩
  have hlower : ∀ t', Relation.TransGen (BlockedBy waits holds) t t' → rank t' < rank t := by
    intro t' hpath
    induction hpath with
    | single hb =>
      obtain ⟨l, hw, hh⟩ := hb
      exact h _ _ l hw hh
    | tail _ hb ih =>
      obtain ⟨l, hw, hh⟩ := hb
      exact Nat.lt_trans (h _ _ l hw hh) ih
  exact Nat.lt_irrefl _ (hlower t ht)

end FinsStack.Lib
