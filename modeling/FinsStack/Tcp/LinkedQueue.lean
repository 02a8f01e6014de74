import FinsStack.Tcp.Queue
import Mathlib.Data.Fintype.EquivFin

/-!
# The queues as they lie in memory

`tcp.c`.

`Queue.lean` gives a queue by the list of its nodes.  The source keeps two pointers:
`front`, from which the `next` pointers lead through the nodes, and `end`, which
`tcp_queue_append` writes through and `tcp_queue_insert` reads.  Here `end` is an address
of its own.  `tcp_queue_remove_front` does not touch it, so it dangles once the last
node is gone; the next node that comes in sets it again.

In every queue that these functions build, `end` points to the last node
(`Reached.wellLinked`), and inserting does what `tcpQueueInsert` does on the list
(`LinkedQueue.insert_view`).
-/

namespace FinsStack.Tcp

open List

variable {α : Type}

structure Cell (α : Type) where
  ptr : Nat
  node : TcpNode α
deriving DecidableEq

/-- `struct tcp_queue`: the cells in the order of their `next` pointers, and `end`. -/
structure LinkedQueue (α : Type) where
  max : UInt32
  len : UInt32
  cells : List (Cell α)
  endPtr : Option Nat
deriving DecidableEq

namespace LinkedQueue

/-! ### The operations -/

def create (max : UInt32) : LinkedQueue α := ⟨max, 0, [], none⟩

def toQueue (q : LinkedQueue α) : TcpQueue α :=
  { max := q.max, len := q.len, nodes := q.cells.map Cell.node }

def endNode (q : LinkedQueue α) : Option (TcpNode α) :=
  q.endPtr.bind fun a => (q.cells.find? (fun x => x.ptr == a)).map Cell.node

def linkBehind (a : Nat) (new : Cell α) : List (Cell α) → List (Cell α)
  | [] => []
  | x :: xs => if x.ptr = a then [x, new] else x :: linkBehind a new xs

def addBehind (a : Nat) (new : Cell α) : List (Cell α) → List (Cell α)
  | [] => []
  | x :: xs => if x.ptr = a then x :: new :: xs else x :: addBehind a new xs

def append (q : LinkedQueue α) (new : Cell α) : LinkedQueue α :=
  { q with
    cells := if q.cells.isEmpty then [new] else linkBehind (q.endPtr.getD 0) new q.cells
    endPtr := some new.ptr
    len := q.len + new.node.len }

def prepend (q : LinkedQueue α) (new : Cell α) : LinkedQueue α :=
  { q with
    cells := new :: q.cells
    endPtr := if q.cells.isEmpty then some new.ptr else q.endPtr
    len := q.len + new.node.len }

def add (q : LinkedQueue α) (new : Cell α) (prev : Nat) : LinkedQueue α :=
  { q with cells := addBehind prev new q.cells, len := q.len + new.node.len }

def insertWalk (q : LinkedQueue α) (new : Cell α) (winSeqNum winSeqEnd : UInt32)
    (temp : Cell α) : List (Cell α) → Bool × LinkedQueue α
  | [] => (false, q)
  | next :: rest =>
    match tcpNodeCompare new.node next.node winSeqNum winSeqEnd with
    | .lt => (true, q.add new temp.ptr)
    | .eq => (false, q)
    | .gt => insertWalk q new winSeqNum winSeqEnd next rest

def insert (q : LinkedQueue α) (new : Cell α) (winSeqNum winSeqEnd : UInt32) :
    Bool × LinkedQueue α :=
  match q.cells with
  | [] => (true, q.prepend new)
  | front :: rest =>
    match tcpNodeCompare new.node front.node winSeqNum winSeqEnd with
    | .lt => (true, q.prepend new)
    | .eq => (false, q)
    | .gt =>
      match q.endNode with
      -- a dangling `end` is read here; `WellLinked.endNode_eq` excludes it
      | none => (false, q)
      | some last =>
        match tcpNodeCompare new.node last winSeqNum winSeqEnd with
        | .gt => (true, q.append new)
        | .eq => (false, q)
        | .lt => q.insertWalk new winSeqNum winSeqEnd front rest

def removeFront (q : LinkedQueue α) : LinkedQueue α :=
  match q.cells with
  | [] => { q with len := 0 }
  | x :: xs => { q with cells := xs, len := q.len - x.node.len }

/-! ### Where `end` points -/

/-- No address occurs twice, and `end` is the address of the last node, if there is one. -/
structure WellLinked (q : LinkedQueue α) : Prop where
  distinct : (q.cells.map Cell.ptr).Nodup
  last : ∀ pre x, q.cells = pre ++ [x] → q.endPtr = some x.ptr

theorem ptr_ne_of_nodup {pre post : List (Cell α)} {x y : Cell α}
    (h : ((y :: pre ++ x :: post).map Cell.ptr).Nodup) :
    y.ptr ≠ x.ptr ∧ ((pre ++ x :: post).map Cell.ptr).Nodup := by
  simp only [cons_append, map_cons, nodup_cons] at h
  refine ⟨fun he => h.1 ?_, h.2⟩
  simp [he]

theorem addBehind_at {pre post : List (Cell α)} {x : Cell α} (new : Cell α)
    (h : ((pre ++ x :: post).map Cell.ptr).Nodup) :
    addBehind x.ptr new (pre ++ x :: post) = pre ++ x :: new :: post := by
  induction pre with
  | nil => simp [addBehind]
  | cons y pre ih =>
    obtain ⟨hne, hrest⟩ := ptr_ne_of_nodup h
    simp [addBehind, hne, ih hrest]

theorem linkBehind_last {pre : List (Cell α)} {x : Cell α} (new : Cell α)
    (h : ((pre ++ [x]).map Cell.ptr).Nodup) :
    linkBehind x.ptr new (pre ++ [x]) = pre ++ [x, new] := by
  induction pre with
  | nil => simp [linkBehind]
  | cons y pre ih =>
    obtain ⟨hne, hrest⟩ := ptr_ne_of_nodup h
    simp [linkBehind, hne, ih hrest]

theorem find_at {pre post : List (Cell α)} {x : Cell α}
    (h : ((pre ++ x :: post).map Cell.ptr).Nodup) :
    (pre ++ x :: post).find? (fun y => y.ptr == x.ptr) = some x := by
  induction pre with
  | nil => simp
  | cons y pre ih =>
    obtain ⟨hne, hrest⟩ := ptr_ne_of_nodup h
    simp [hne, ih hrest]

theorem WellLinked.endNode_eq {q : LinkedQueue α} (h : q.WellLinked) {pre : List (Cell α)}
    {x : Cell α} (hq : q.cells = pre ++ [x]) : q.endNode = some x.node := by
  have hd := h.distinct
  rw [hq] at hd
  unfold endNode
  rw [h.last pre x hq, hq, Option.bind_some, find_at hd, Option.map_some]

theorem getLastD_concat {β : Type} (x : β) (xs : List β) :
    ∃ pre, x :: xs = pre ++ [xs.getLastD x] := by
  rcases eq_nil_or_concat xs with rfl | ⟨pre, last, rfl⟩
  · exact ⟨[], rfl⟩
  · refine ⟨x :: pre, ?_⟩
    simp

theorem getLastD_map {β γ : Type} (f : β → γ) (x : β) (xs : List β) :
    (xs.map f).getLastD (f x) = f (xs.getLastD x) := by
  rcases eq_nil_or_concat xs with rfl | ⟨pre, last, rfl⟩
  · rfl
  · simp

/-- How an insertion ends: refused with the queue as it was, or with the new node in
    between; `end` moves to the new node only if it comes last. -/
inductive InsertView (q : LinkedQueue α) (new : Cell α) :
    Option (TcpQueue α) → Bool × LinkedQueue α → Prop
  | refused : InsertView q new none (false, q)
  | placed (pre post : List (Cell α)) (q' : LinkedQueue α) (l : TcpQueue α)
      (hq : q.cells = pre ++ post) (hq' : q'.cells = pre ++ new :: post)
      (hlast : post = [] → q'.endPtr = some new.ptr) (hend : post ≠ [] → q'.endPtr = q.endPtr)
      (hl : l = q'.toQueue) : InsertView q new (some l) (true, q')

theorem prepend_view (q : LinkedQueue α) (new : Cell α) :
    InsertView q new (some (tcpQueuePrepend q.toQueue new.node)) (true, q.prepend new) := by
  refine .placed [] q.cells _ _ rfl rfl ?_ ?_ rfl
  · intro h
    simp [prepend, h]
  · intro h
    simp [prepend, h]

theorem append_view {q : LinkedQueue α} (h : q.WellLinked) {pre : List (Cell α)} {x : Cell α}
    (hq : q.cells = pre ++ [x]) (new : Cell α) :
    InsertView q new (some (tcpQueueAppend q.toQueue new.node)) (true, q.append new) := by
  have hd := h.distinct
  rw [hq] at hd
  have hcells : (q.append new).cells = q.cells ++ [new] := by
    simp [append, hq, h.last pre x hq, linkBehind_last new hd]
  refine .placed q.cells [] _ _ (append_nil _).symm hcells (fun _ => rfl) ?_ ?_
  · intro hne
    exact absurd rfl hne
  · unfold toQueue
    rw [hcells]
    simp [tcpQueueAppend, append]

theorem insertWalk_view {q : LinkedQueue α} (h : q.WellLinked) (new : Cell α) (w we : UInt32)
    {pre rest : List (Cell α)} {temp : Cell α} (hq : q.cells = pre ++ temp :: rest) :
    InsertView q new
      ((tcpQueueInsertLoop new.node w we (rest.map Cell.node)).map fun ns =>
        { max := q.max, len := q.len + new.node.len
          nodes := (pre ++ [temp]).map Cell.node ++ ns })
      (q.insertWalk new w we temp rest) := by
  induction rest generalizing pre temp with
  | nil => exact .refused
  | cons next rest ih =>
    have hd := h.distinct
    rw [hq] at hd
    simp only [map_cons, tcpQueueInsertLoop, insertWalk]
    cases tcpNodeCompare new.node next.node w we with
    | lt =>
      have hcells : (q.add new temp.ptr).cells = (pre ++ [temp]) ++ new :: next :: rest := by
        simp [add, hq, addBehind_at new hd]
      refine .placed (pre ++ [temp]) (next :: rest) _ _ ?_ hcells ?_ (fun _ => rfl) ?_
      · simp [hq]
      · intro hnil
        cases hnil
      · unfold toQueue
        rw [hcells]
        simp [add]
    | eq => exact .refused
    | gt =>
      have hq' : q.cells = (pre ++ [temp]) ++ next :: rest := by simp [hq]
      simpa [Function.comp_def] using ih hq'

/-- **`tcp_queue_insert` in memory is `tcpQueueInsert` on the list of nodes.** -/
theorem insert_view {q : LinkedQueue α} (h : q.WellLinked) (new : Cell α) (w we : UInt32) :
    InsertView q new (tcpQueueInsert q.toQueue new.node w we) (q.insert new w we) := by
  cases hq : q.cells with
  | nil =>
    have hn : q.toQueue.nodes = [] := by simp [toQueue, hq]
    simp only [insert, tcpQueueInsert, hq, hn]
    exact prepend_view q new
  | cons front rest =>
    have hn : q.toQueue.nodes = front.node :: rest.map Cell.node := by simp [toQueue, hq]
    simp only [insert, tcpQueueInsert, hq, hn]
    cases tcpNodeCompare new.node front.node w we with
    | lt => exact prepend_view q new
    | eq => exact .refused
    | gt =>
      obtain ⟨pre, hlast⟩ := getLastD_concat front rest
      have hend := getLastD_map Cell.node front rest
      simp only [h.endNode_eq (hq.trans hlast), hend]
      cases tcpNodeCompare new.node (rest.getLastD front).node w we with
      | lt =>
        have hq' : q.cells = [] ++ front :: rest := hq
        simpa [toQueue] using insertWalk_view h new w we hq'
      | eq => exact .refused
      | gt => exact append_view h (hq.trans hlast) new

theorem InsertView.wellLinked {q : LinkedQueue α} {new : Cell α} {o : Option (TcpQueue α)}
    {r : Bool × LinkedQueue α} (hv : InsertView q new o r) (h : q.WellLinked)
    (hnew : ∀ x ∈ q.cells, x.ptr ≠ new.ptr) : r.2.WellLinked := by
  cases hv with
  | refused => exact h
  | placed pre post q' l hq hq' hlast hend hl =>
    refine ⟨?_, ?_⟩
    · have hd := h.distinct
      rw [hq, map_append] at hd
      rw [hq', map_append, map_cons, nodup_middle, nodup_cons]
      refine ⟨?_, hd⟩
      rw [← map_append, ← hq]
      intro hmem
      obtain ⟨x, hx, he⟩ := mem_map.mp hmem
      exact hnew x hx he
    · intro pre' x hx
      rw [hq'] at hx
      cases post using List.reverseRecOn with
      | nil =>
        have hxe := (append_inj' hx rfl).2
        rw [hlast rfl]
        simp_all
      | append_singleton post y =>
        rw [← cons_append, ← append_assoc] at hx
        have hxe := (append_inj' hx rfl).2
        rw [hend (by simp), h.last (pre ++ post) y (by simp [hq])]
        simp_all

theorem exists_fresh (q : LinkedQueue α) : ∃ a, ∀ x ∈ q.cells, x.ptr ≠ a := by
  obtain ⟨a, ha⟩ := Infinite.exists_notMem_finset (q.cells.map Cell.ptr).toFinset
  refine ⟨a, ?_⟩
  intro x hx he
  apply ha
  rw [mem_toFinset]
  exact he ▸ mem_map_of_mem hx

inductive Reached : LinkedQueue α → Prop
  | create (max : UInt32) : Reached (create max)
  | insert {q : LinkedQueue α} (new : Cell α) (w we : UInt32) (h : Reached q)
      (hnew : ∀ x ∈ q.cells, x.ptr ≠ new.ptr) : Reached (q.insert new w we).2
  | removeFront {q : LinkedQueue α} (h : Reached q) : Reached q.removeFront

theorem WellLinked.removeFront {q : LinkedQueue α} (h : q.WellLinked) :
    q.removeFront.WellLinked := by
  unfold LinkedQueue.removeFront
  split
  · exact ⟨h.distinct, h.last⟩
  · rename_i x xs hq
    have hd := h.distinct
    rw [hq] at hd
    refine ⟨(nodup_cons.mp hd).2, ?_⟩
    intro pre y hy
    have hxs : xs = pre ++ [y] := hy
    exact h.last (x :: pre) y (by rw [hq, hxs, cons_append])

/-- **`end` points to the last node.** -/
theorem Reached.wellLinked {q : LinkedQueue α} (h : Reached q) : q.WellLinked := by
  induction h with
  | create max =>
    refine ⟨nodup_nil, ?_⟩
    intro pre x hx
    simp [LinkedQueue.create] at hx
  | insert new w we _ hnew ih => exact (insert_view ih new w we).wellLinked ih hnew
  | removeFront _ ih => exact ih.removeFront

end LinkedQueue

/-! ### The queues of a connection -/

open LinkedQueue in
def Linked (q : TcpQueue α) : Prop := ∃ p : LinkedQueue α, Reached p ∧ p.toQueue = q

theorem linked_create (max : UInt32) : Linked (tcpQueueCreate max : TcpQueue α) :=
  ⟨_, .create max, rfl⟩

theorem Linked.removeFront {q : TcpQueue α} (h : Linked q) : Linked (tcpQueueRemoveFront q) := by
  obtain ⟨p, hp, rfl⟩ := h
  refine ⟨_, hp.removeFront, ?_⟩
  unfold LinkedQueue.removeFront tcpQueueRemoveFront LinkedQueue.toQueue
  cases p.cells with
  | nil | cons x xs => rfl

theorem Linked.insert {q q' : TcpQueue α} (h : Linked q) {node : TcpNode α} {w we : UInt32}
    (hq : tcpQueueInsert q node w we = some q') : Linked q' := by
  obtain ⟨p, hp, rfl⟩ := h
  obtain ⟨a, hnew⟩ := p.exists_fresh
  have hview := LinkedQueue.insert_view hp.wellLinked ⟨a, node⟩ w we
  rw [hq] at hview
  refine ⟨_, .insert ⟨a, node⟩ w we hp hnew, ?_⟩
  generalize p.insert ⟨a, node⟩ w we = r at hview
  cases hview with
  | placed pre post p' l hcells hcells' hlast hend hl => exact hl.symm

end FinsStack.Tcp
