import FinsStack.Lib.Seq32

/-!
# Lists of blocks that cover a stretch of a 32-bit sequence space

A block has a start and a length.  `Covers start len s xs e` says that the blocks of
`xs` follow one another without a gap from `s` to `e`, modulo 2^32.  As long as their
lengths add up to less than 2^32, the distance of a block from `s` is the sum of the
lengths before it.  Nothing here names a particular protocol.
-/

namespace FinsStack.Lib

variable {α : Type*}

/-- The blocks of `xs` follow one another from `s` to `e`. -/
def Covers (start len : α → UInt32) : UInt32 → List α → UInt32 → Prop
  | s, [], e => s = e
  | s, x :: xs, e => start x = s ∧ Covers start len (s + len x) xs e

def spanLen (len : α → UInt32) : List α → Nat
  | [] => 0
  | x :: xs => (len x).toNat + spanLen len xs

variable {start len : α → UInt32} {s m e : UInt32} {xs ys : List α} {x : α}

@[simp] theorem spanLen_nil : spanLen len [] = 0 := rfl

@[simp] theorem spanLen_cons : spanLen len (x :: xs) = (len x).toNat + spanLen len xs := rfl

@[simp] theorem spanLen_append : spanLen len (xs ++ ys) = spanLen len xs + spanLen len ys := by
  induction xs with
  | nil => simp
  | cons x xs ih => simp only [List.cons_append, spanLen_cons, ih, Nat.add_assoc]

theorem Covers.end_eq (h : Covers start len s xs e) : e = s + UInt32.ofNat (spanLen len xs) := by
  induction xs generalizing s with
  | nil =>
    rw [← show s = e from h]
    exact (UInt32.add_zero s).symm
  | cons x xs ih =>
    rw [ih h.2, spanLen_cons, UInt32.ofNat_add, UInt32.ofNat_toNat]
    grind

theorem Covers.append (h : Covers start len s xs m) (h' : Covers start len m ys e) :
    Covers start len s (xs ++ ys) e := by
  induction xs generalizing s with
  | nil =>
    rw [show s = m from h]
    exact h'
  | cons x xs ih => exact ⟨h.1, ih h.2⟩

theorem Covers.concat (h : Covers start len s xs e) (hx : start x = e) :
    Covers start len s (xs ++ [x]) (e + len x) := by
  refine h.append ⟨hx, ?_⟩
  rfl

theorem Covers.drop (h : Covers start len s (xs ++ ys) e) :
    Covers start len (s + UInt32.ofNat (spanLen len xs)) ys e := by
  induction xs generalizing s with
  | nil =>
    have hzero : s + UInt32.ofNat (spanLen len ([] : List α)) = s := UInt32.add_zero s
    rw [hzero]
    exact h
  | cons x xs ih =>
    have htail := ih h.2
    have heq : s + UInt32.ofNat (spanLen len (x :: xs)) =
        s + len x + UInt32.ofNat (spanLen len xs) := by
      rw [spanLen_cons, UInt32.ofNat_add, UInt32.ofNat_toNat]
      grind
    rw [heq]
    exact htail

theorem Covers.distance (h : Covers start len s xs e) (hlt : spanLen len xs < 2 ^ 32) :
    (e - s).toNat = spanLen len xs := by
  rw [h.end_eq]
  exact toNat_seq_sub s hlt

section

variable (h : Covers start len s (xs ++ x :: ys) e) (hlt : spanLen len (xs ++ x :: ys) < 2 ^ 32)
include h hlt

theorem Covers.offset : (start x - s).toNat = spanLen len xs := by
  have hx : start x = s + UInt32.ofNat (spanLen len xs) := h.drop.1
  rw [hx]
  apply toNat_seq_sub
  simp only [spanLen_append] at hlt
  omega

theorem Covers.offset_end : (start x + len x - s).toNat = spanLen len xs + (len x).toNat := by
  have hx : start x = s + UInt32.ofNat (spanLen len xs) := h.drop.1
  have hend : start x + len x = s + UInt32.ofNat (spanLen len xs + (len x).toNat) := by
    rw [hx, UInt32.ofNat_add, UInt32.ofNat_toNat]
    grind
  rw [hend]
  apply toNat_seq_sub
  simp only [spanLen_append, spanLen_cons] at hlt
  omega

theorem Covers.apart {y : α} (hy : y ∈ ys) {i j : Nat} (hi : i < (len x).toNat)
    (hj : j < (len y).toNat) : start x + UInt32.ofNat i ≠ start y + UInt32.ofNat j := by
  obtain ⟨ys₁, ys₂, rfl⟩ := List.append_of_mem hy
  have hassoc : xs ++ x :: (ys₁ ++ y :: ys₂) = (xs ++ x :: ys₁) ++ y :: ys₂ := by
    rw [List.append_assoc]
    rfl
  have hx : start x = s + UInt32.ofNat (spanLen len xs) := h.drop.1
  have hy' : start y = s + UInt32.ofNat (spanLen len (xs ++ x :: ys₁)) := by
    rw [hassoc] at h
    exact h.drop.1
  intro heq
  rw [hx, hy', seq_add, seq_add] at heq
  simp only [spanLen_append, spanLen_cons] at hlt heq
  have hpos := seq_inj (by omega) (by omega) heq
  omega

end

theorem Covers.map (h : Covers start len s xs e) (g : α → α) (hs : ∀ x, start (g x) = start x)
    (hl : ∀ x, len (g x) = len x) : Covers start len s (xs.map g) e := by
  induction xs generalizing s with
  | nil => exact h
  | cons x xs ih =>
    refine ⟨(hs x).trans h.1, ?_⟩
    rw [hl]
    exact ih h.2

theorem spanLen_map (g : α → α) (hl : ∀ x, len (g x) = len x) :
    spanLen len (xs.map g) = spanLen len xs := by
  induction xs with
  | nil => rfl
  | cons x xs ih => simp only [List.map_cons, spanLen_cons, hl, ih]

theorem Covers.head (h : Covers start len s (x :: xs) e) : start x = s := h.1

theorem Covers.isChain (h : Covers start len s xs e) :
    xs.IsChain (fun x y => start y = start x + len x) := by
  induction xs generalizing s with
  | nil => exact .nil
  | cons x xs ih =>
    cases xs with
    | nil => exact .singleton x
    | cons y ys =>
      refine .cons_cons ?_ (ih h.2)
      rw [h.1]
      exact h.2.1

theorem Covers.last (h : Covers start len s (xs ++ [x]) e) : start x + len x = e := by
  have hlast := h.drop
  rw [hlast.1]
  exact hlast.2

/-- Blocks of positive length cover nothing only if there are none. -/
theorem Covers.eq_nil_iff (h : Covers start len s xs e) (hlt : spanLen len xs < 2 ^ 32)
    (hpos : ∀ x ∈ xs, 0 < len x) : xs = [] ↔ s = e := by
  constructor
  · rintro rfl
    exact h
  · rintro rfl
    have hzero := h.distance hlt
    rw [UInt32.sub_self] at hzero
    cases xs with
    | nil => rfl
    | cons x xs =>
      have hx := UInt32.lt_iff_toNat_lt.mp (hpos x (List.mem_cons_self ..))
      rw [spanLen_cons] at hzero
      simp only [UInt32.toNat_zero] at hzero hx
      omega

/-- Where the first block starts, how the blocks follow and where the last one ends say
    all there is to say. -/
theorem covers_of_isChain (hfirst : ∀ x, xs.head? = some x → start x = s)
    (hnext : xs.IsChain (fun x y => start y = start x + len x))
    (hlast : ∀ x, xs.getLast? = some x → start x + len x = e) (hnil : xs = [] → s = e) :
    Covers start len s xs e := by
  induction xs generalizing s with
  | nil => exact hnil rfl
  | cons x xs ih =>
    have hx : start x = s := hfirst x rfl
    refine ⟨hx, ih ?_ (List.isChain_of_isChain_cons hnext) ?_ ?_⟩
    · intro y hy
      cases xs with
      | nil => cases hy
      | cons z zs =>
        cases hy
        rw [← hx]
        exact (List.isChain_cons_cons.mp hnext).1
    · intro y hy
      apply hlast
      rw [List.getLast?_cons, hy]
      rfl
    · rintro rfl
      rw [← hx]
      exact hlast x rfl

end FinsStack.Lib
