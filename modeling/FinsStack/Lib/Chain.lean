import Mathlib.Logic.Function.Basic
import Mathlib.Data.List.Basic

/-!
# Doubly linked chains in memory

A heap gives the node at an address, if there is one.  `Linked h before cells after` says
that the nodes of `cells` follow each other by `next` and by `prev`, that the first one has
`before` for its `prev` and the last one `after` for its `next`.

Storing into the last node of one chain and into the first one of another leaves both linked,
with the new ends (`Linked.relink`); with `linked_append` this joins two chains and cuts one.
-/

namespace FinsStack.Lib

structure ChainNode (α : Type) where
  next : Option Nat
  prev : Option Nat
  data : α

abbrev ChainHeap (α : Type) := Nat → Option (ChainNode α)

variable {α : Type}

/-- A store into the node at `p`, if there is one. -/
def ChainHeap.modify (h : ChainHeap α) (p : Option Nat) (f : ChainNode α → ChainNode α) :
    Option (ChainHeap α) := do
  let a ← p
  let node ← h a
  return Function.update h a (some (f node))

/-- `p->next = v`. -/
def ChainHeap.setNext (h : ChainHeap α) (p v : Option Nat) : Option (ChainHeap α) :=
  h.modify p fun node => { node with next := v }

/-- `p->prev = v`. -/
def ChainHeap.setPrev (h : ChainHeap α) (p v : Option Nat) : Option (ChainHeap α) :=
  h.modify p fun node => { node with prev := v }

/-- The address of the first cell, or `after` if there is none. -/
def headPtr (after : Option Nat) : List (Nat × α) → Option Nat
  | [] => after
  | cell :: _ => some cell.1

/-- The address of the last cell, or `before` if there is none. -/
def lastPtr (before : Option Nat) : List (Nat × α) → Option Nat
  | [] => before
  | cell :: cells => lastPtr (some cell.1) cells

def Linked (h : ChainHeap α) : Option Nat → List (Nat × α) → Option Nat → Prop
  | _, [], _ => True
  | before, (a, x) :: cells, after =>
    h a = some ⟨headPtr after cells, before, x⟩ ∧ Linked h (some a) cells after

variable {h h' : ChainHeap α} {before after v w : Option Nat} {xs ys : List (Nat × α)}

theorem headPtr_append : headPtr after (xs ++ ys) = headPtr (headPtr after ys) xs := by
  cases xs <;> rfl

theorem lastPtr_append : lastPtr before (xs ++ ys) = lastPtr (lastPtr before xs) ys := by
  induction xs generalizing before with
  | nil => rfl
  | cons cell xs ih => exact ih

theorem headPtr_of_ne_nil (hxs : xs ≠ []) : headPtr v xs = headPtr w xs := by
  cases xs with
  | nil => exact absurd rfl hxs
  | cons cell xs => rfl

theorem lastPtr_of_ne_nil (hxs : xs ≠ []) : lastPtr v xs = lastPtr w xs := by
  cases xs with
  | nil => exact absurd rfl hxs
  | cons cell xs => rfl

theorem linked_append : Linked h before (xs ++ ys) after ↔
    Linked h before xs (headPtr after ys) ∧ Linked h (lastPtr before xs) ys after := by
  induction xs generalizing before with
  | nil => simp [Linked, lastPtr]
  | cons cell xs ih =>
    simp only [List.cons_append, Linked, lastPtr, ih, headPtr_append, and_assoc]

theorem Linked.update {a : Nat} {node : Option (ChainNode α)} (hl : Linked h before xs after)
    (ha : a ∉ xs.map Prod.fst) : Linked (Function.update h a node) before xs after := by
  induction xs generalizing before with
  | nil => trivial
  | cons cell xs ih =>
    rw [List.map_cons, List.mem_cons, not_or] at ha
    constructor
    · rw [Function.update_of_ne (Ne.symm ha.1)]
      exact hl.1
    · exact ih hl.2 ha.2

theorem modify_eq {a : Nat} {node : ChainNode α} {f : ChainNode α → ChainNode α}
    (ha : h a = some node) :
    h.modify (some a) f = some (Function.update h a (some (f node))) := by
  simp [ChainHeap.modify, ha]

theorem Linked.relink {outer outer' : Option Nat} (hx : Linked h before xs outer)
    (hy : Linked h outer' ys after) (hxs : xs ≠ []) (hys : ys ≠ [])
    (hnd : ((xs ++ ys).map Prod.fst).Nodup) :
    ∃ h₁ h₂, h.setNext (lastPtr none xs) v = some h₁ ∧ h₁.setPrev (headPtr none ys) w = some h₂ ∧
      Linked h₂ before xs v ∧ Linked h₂ w ys after := by
  obtain ⟨xs, ⟨a, x⟩, rfl⟩ := List.eq_nil_or_concat' xs |>.resolve_left hxs
  obtain ⟨⟨b, y⟩, ys, rfl⟩ := List.exists_cons_of_ne_nil hys
  obtain ⟨hax, hbx, hay, hby, hab⟩ : a ∉ xs.map Prod.fst ∧ b ∉ xs.map Prod.fst ∧
      a ∉ ys.map Prod.fst ∧ b ∉ ys.map Prod.fst ∧ b ≠ a := by
    simp only [List.map_append, List.map_cons, List.map_nil] at hnd
    grind
  obtain ⟨hxs, hlast, -⟩ := linked_append.mp hx
  obtain ⟨hfirst, hys⟩ := hy
  have hset : h.setNext (lastPtr none (xs ++ [(a, x)])) v =
      some (Function.update h a (some ⟨v, lastPtr before xs, x⟩)) := by
    rw [lastPtr_append]
    exact modify_eq hlast
  refine ⟨_, _, hset, modify_eq ((Function.update_of_ne hab _ _).trans hfirst), ?_, ?_⟩
  · refine linked_append.mpr ⟨(hxs.update hax).update hbx, ?_, trivial⟩
    rw [Function.update_of_ne hab.symm, Function.update_self]
    rfl
  · exact ⟨Function.update_self .., (hys.update hay).update hby⟩

/-- A chain is cut in two at a node, which has the end of the first part for its `prev`. -/
theorem Linked.cut (hl : Linked h before (xs ++ ys) after) (hxs : xs ≠ []) (hys : ys ≠ [])
    (hnd : ((xs ++ ys).map Prod.fst).Nodup) :
    ∃ node h₁ h₂, (headPtr none ys).bind h = some node ∧ node.prev = lastPtr none xs ∧
      h.setNext node.prev none = some h₁ ∧ h₁.setPrev (headPtr none ys) none = some h₂ ∧
      Linked h₂ before xs none ∧ Linked h₂ none ys after := by
  obtain ⟨hx, hy⟩ := linked_append.mp hl
  obtain ⟨h₁, h₂, e₁, e₂, hx₂, hy₂⟩ := hx.relink (v := none) (w := none) hy hxs hys hnd
  obtain ⟨⟨b, y⟩, rest, rfl⟩ := List.exists_cons_of_ne_nil hys
  have hprev : lastPtr before xs = lastPtr none xs := lastPtr_of_ne_nil hxs
  exact ⟨_, h₁, h₂, hy.1, hprev, by rwa [hprev], e₂, hx₂, hy₂⟩

end FinsStack.Lib
