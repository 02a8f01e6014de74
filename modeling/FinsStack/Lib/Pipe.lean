import Mathlib.Data.List.Basic
import Mathlib.Logic.Relation

/-!
# A pipe as its reader sees it

Values are fed into a pipe, its end is announced once nothing more will come, and the
reader's requests are answered with the next values or with the end of file.  A run of
`Pipe.Step` answers with the fed values in order, and says end of file only when all
of them have been handed out (`Pipe.Ok.last`).  Nothing here names a particular
component.
-/

namespace FinsStack.Lib

open List

variable {α : Type*}

inductive Answer (α : Type*) where
  | values (xs : List α)
  | eof

def handedOut (l : List (Answer α)) : List α :=
  l.flatMap fun
    | .values xs => xs
    | .eof => []

@[simp] theorem handedOut_append (l l' : List (Answer α)) :
    handedOut (l ++ l') = handedOut l ++ handedOut l' :=
  flatMap_append

@[simp] theorem handedOut_values (xs : List α) : handedOut [.values xs] = xs :=
  append_nil xs

@[simp] theorem handedOut_eof : handedOut [(.eof : Answer α)] = [] := rfl

structure Pipe (α : Type*) where
  fed : List α
  ended : Bool
  answers : List (Answer α)

inductive Pipe.Step : Pipe α → Pipe α → Prop
  | feed (p : Pipe α) (xs : List α) (h : p.ended = false) : Step p { p with fed := p.fed ++ xs }
  | close (p : Pipe α) : Step p { p with ended := true }
  | give (p : Pipe α) (xs : List α) (h : handedOut p.answers ++ xs <+: p.fed) :
      Step p { p with answers := p.answers ++ [.values xs] }
  | eof (p : Pipe α) (hend : p.ended = true) (h : handedOut p.answers = p.fed) :
      Step p { p with answers := p.answers ++ [.eof] }

abbrev Pipe.Steps : Pipe α → Pipe α → Prop := Relation.ReflTransGen Pipe.Step

/-- The answers hand out what was fed, in order, and the end of file comes last. -/
structure Pipe.Ok (p : Pipe α) : Prop where
  inOrder : handedOut p.answers <+: p.fed
  last : ∀ l₁ l₂, p.answers = l₁ ++ .eof :: l₂ → p.ended = true ∧ handedOut l₁ = p.fed

theorem Pipe.Ok.start (p : Pipe α) (h : p.answers = []) : p.Ok where
  inOrder := by
    rw [h]
    exact nil_prefix
  last := by
    intro l₁ l₂ heq
    rw [h] at heq
    exact absurd heq.symm (append_ne_nil_of_right_ne_nil _ (cons_ne_nil _ _))

/-- Where an entry of a list with one more entry at the end lies. -/
theorem eq_append_cons_concat {β : Type*} {l l₁ l₂ : List β} {a b : β}
    (h : l ++ [a] = l₁ ++ b :: l₂) : (b = a ∧ l₁ = l) ∨ ∃ l₂', l = l₁ ++ b :: l₂' := by
  rcases eq_nil_or_concat l₂ with rfl | ⟨l₂', a', rfl⟩
  · obtain ⟨h₁, h₂⟩ := append_inj' h rfl
    exact .inl ⟨(List.cons.inj h₂).1.symm, h₁.symm⟩
  · rw [concat_eq_append, ← cons_append, ← append_assoc] at h
    exact .inr ⟨l₂', (append_inj' h rfl).1⟩

theorem Pipe.Step.ok {p q : Pipe α} (h : Pipe.Step p q) (hp : p.Ok) : q.Ok := by
  cases h with
  | feed xs hopen =>
    refine ⟨hp.inOrder.trans (prefix_append _ _), ?_⟩
    intro l₁ l₂ heq
    rw [(hp.last l₁ l₂ heq).1] at hopen
    cases hopen
  | close =>
    refine ⟨hp.inOrder, ?_⟩
    intro l₁ l₂ heq
    exact ⟨rfl, (hp.last l₁ l₂ heq).2⟩
  | give xs hxs =>
    refine ⟨by simpa using hxs, ?_⟩
    intro l₁ l₂ heq
    rcases eq_append_cons_concat heq with ⟨heq, -⟩ | ⟨l₂', heq⟩
    · cases heq
    · exact hp.last l₁ l₂' heq
  | eof hend hall =>
    refine ⟨?_, ?_⟩
    · show handedOut (p.answers ++ [.eof]) <+: p.fed
      rw [handedOut_append, handedOut_eof, append_nil]
      exact hp.inOrder
    · intro l₁ l₂ heq
      rcases eq_append_cons_concat heq with ⟨-, rfl⟩ | ⟨l₂', heq⟩
      · exact ⟨hend, hall⟩
      · exact hp.last l₁ l₂' heq

theorem Pipe.Steps.ok {p q : Pipe α} (h : Pipe.Steps p q) (hp : p.Ok) : q.Ok := by
  induction h with
  | refl => exact hp
  | tail _ hstep ih => exact hstep.ok ih

end FinsStack.Lib
