import Mathlib.Data.List.Basic

/-!
# Runs of a deterministic step function

A component that takes one event at a time is a total function
`step : σ → ε → σ`; a run is the left fold of `step` over a list of events.
This file packages the inductions every safety argument over such a
component needs: an invariant that each step keeps holds in every state of
every run (`run_invariant`), and an invariant that each step keeps *provided
the step meets a side condition* holds in every state of every run whose steps
all meet it (`run_invariant_of_steps`).  A third rule leads from a mark in the
state back to the step that set it (`sometime_of_mark`).
-/

namespace FinsStack.Lib

variable {σ ε : Type*}

/-- The state a run of `step` over the events `es` ends in. -/
def run (step : σ → ε → σ) (s : σ) (es : List ε) : σ := es.foldl step s

section

variable (step : σ → ε → σ) (s : σ)
include step s

@[simp] theorem run_nil : run step s [] = s := rfl

@[simp] theorem run_cons (e : ε) (es : List ε) :
    run step s (e :: es) = run step (step s e) es := rfl

theorem run_append (es₁ es₂ : List ε) :
    run step s (es₁ ++ es₂) = run step (run step s es₁) es₂ := by
  simp only [run, List.foldl_append]

theorem run_concat (es : List ε) (e : ε) : run step s (es ++ [e]) = step (run step s es) e := by
  rw [run_append]
  rfl

end

/-- **Invariant rule.**  What every step keeps, every run keeps. -/
theorem run_invariant {step : σ → ε → σ} {I : σ → Prop}
    (hstep : ∀ s e, I s → I (step s e)) {s : σ} (hs : I s) (es : List ε) :
    I (run step s es) := by
  induction es generalizing s with
  | nil => exact hs
  | cons e es ih => exact ih (hstep s e hs)

/-- Every step of the run meets `P`, a condition on the state before the step and
    the event taken. -/
def Steps (step : σ → ε → σ) (P : σ → ε → Prop) : σ → List ε → Prop
  | _, [] => True
  | s, e :: es => P s e ∧ Steps step P (step s e) es

theorem steps_append {step : σ → ε → σ} {P : σ → ε → Prop} {s : σ} {es₁ es₂ : List ε} :
    Steps step P s (es₁ ++ es₂) ↔ Steps step P s es₁ ∧ Steps step P (run step s es₁) es₂ := by
  induction es₁ generalizing s with
  | nil => simp [Steps]
  | cons e es ih => simp [Steps, ih, and_assoc]

/-- **Conditional invariant rule.**  An invariant that a step keeps whenever the
    step meets `P` holds at the end of every run whose steps all meet `P`. -/
theorem run_invariant_of_steps {step : σ → ε → σ} {P : σ → ε → Prop} {I : σ → Prop}
    (hstep : ∀ s e, I s → P s e → I (step s e)) {s : σ} (hs : I s) {es : List ε}
    (hes : Steps step P s es) : I (run step s es) := by
  induction es generalizing s with
  | nil => exact hs
  | cons e es ih => exact ih (hstep s e hs hes.1) hes.2

/-- **Exact condition within a domain.**  If moreover every step of the domain `D` that fails
    `P` leads to a state without `W`, then the runs within `D` whose steps all meet `P` are those
    that have `W` in every state. -/
theorem steps_iff_everywhere_within {step : σ → ε → σ} {D P : σ → ε → Prop} {I W : σ → Prop}
    (hstep : ∀ s e, I s → D s e → P s e → I (step s e)) (hwatch : ∀ s, I s → W s)
    (hexact : ∀ s e, I s → D s e → W (step s e) → P s e) {s : σ} (hs : I s) {es : List ε}
    (hD : Steps step D s es) :
    Steps step P s es ↔ ∀ es₁, es₁ <+: es → W (run step s es₁) := by
  constructor
  · intro hes
    induction es generalizing s with
    | nil =>
      intro es₁ hpre
      rw [List.prefix_nil.mp hpre]
      exact hwatch s hs
    | cons e es ih =>
      intro es₁ hpre
      cases es₁ with
      | nil => exact hwatch s hs
      | cons e₁ es₁ =>
        obtain ⟨rfl, htail⟩ := List.cons_prefix_cons.mp hpre
        exact ih (hstep s e₁ hs hD.1 hes.1) hD.2 hes.2 es₁ htail
  · intro h
    induction es generalizing s with
    | nil => trivial
    | cons e es ih =>
      have hP : P s e := hexact s e hs hD.1 (h [e] ⟨es, rfl⟩)
      refine ⟨hP, ih (hstep s e hs hD.1 hP) hD.2 ?_⟩
      rintro es₁ ⟨es₂, rfl⟩
      exact h (e :: es₁) ⟨es₂, rfl⟩

theorem steps_of_forall (step : σ → ε → σ) {P : σ → ε → Prop} (s : σ) {es : List ε}
    (h : ∀ e ∈ es, ∀ s, P s e) : Steps step P s es := by
  induction es generalizing s with
  | nil => trivial
  | cons e es ih =>
    exact ⟨h e (List.mem_cons_self ..) s, ih _ fun e' he' => h e' (List.mem_cons_of_mem _ he')⟩

/-- **Exact condition.**  The same rule over all runs. -/
theorem steps_iff_everywhere {step : σ → ε → σ} {P : σ → ε → Prop} {I W : σ → Prop}
    (hstep : ∀ s e, I s → P s e → I (step s e)) (hwatch : ∀ s, I s → W s)
    (hexact : ∀ s e, I s → W (step s e) → P s e) {s : σ} (hs : I s) {es : List ε} :
    Steps step P s es ↔ ∀ es₁, es₁ <+: es → W (run step s es₁) :=
  steps_iff_everywhere_within (fun s e hs _ => hstep s e hs) hwatch (fun s e hs _ => hexact s e hs)
    hs (steps_of_forall step s fun _ _ _ => trivial)

theorem run_invariant_of_forall {step : σ → ε → σ} {Q : ε → Prop} {I : σ → Prop}
    (hstep : ∀ s e, I s → Q e → I (step s e)) {s : σ} (hs : I s) {es : List ε}
    (hes : ∀ e ∈ es, Q e) : I (run step s es) := by
  induction es generalizing s with
  | nil => exact hs
  | cons e es ih =>
    exact ih (hstep s e hs (hes e (List.mem_cons_self ..)))
      fun e' he' => hes e' (List.mem_cons_of_mem _ he')

instance Steps.decidable (step : σ → ε → σ) (P : σ → ε → Prop) [∀ s e, Decidable (P s e)] :
    ∀ (s : σ) (es : List ε), Decidable (Steps step P s es)
  | _, [] => isTrue trivial
  | s, e :: es =>
    have := Steps.decidable step P (step s e) es
    inferInstanceAs (Decidable (P s e ∧ Steps step P (step s e) es))

/-- Some step of the run meets `P`. -/
def Sometime (step : σ → ε → σ) (P : σ → ε → Prop) : σ → List ε → Prop
  | _, [] => False
  | s, e :: es => P s e ∨ Sometime step P (step s e) es

instance Sometime.decidable (step : σ → ε → σ) (P : σ → ε → Prop) [∀ s e, Decidable (P s e)] :
    ∀ (s : σ) (es : List ε), Decidable (Sometime step P s es)
  | _, [] => isFalse id
  | s, e :: es =>
    have := Sometime.decidable step P (step s e) es
    inferInstanceAs (Decidable (P s e ∨ Sometime step P (step s e) es))

/-- **Marks come from steps.**  A mark that only a step meeting `P` can set was there at the
    start or was set by such a step. -/
theorem sometime_of_mark {step : σ → ε → σ} {P : σ → ε → Prop} {M : σ → Prop}
    (hstep : ∀ s e, M (step s e) → M s ∨ P s e) {s : σ} {es : List ε} (h : M (run step s es)) :
    M s ∨ Sometime step P s es := by
  induction es generalizing s with
  | nil => exact .inl h
  | cons e es ih =>
    rcases ih h with h | h
    · rcases hstep s e h with h | h
      · exact .inl h
      · exact .inr (.inl h)
    · exact .inr (.inr h)

theorem forall_mem_concat {α : Type*} {P : α → Prop} {l : List α} {a : α} (h : ∀ x ∈ l, P x)
    (ha : P a) : ∀ x ∈ l ++ [a], P x :=
  List.forall_mem_append.mpr ⟨h, List.forall_mem_singleton.mpr ha⟩

end FinsStack.Lib
