import FinsStack.Lib.Tally
import FinsStack.Wedge.Threads

/-!
# The discipline of the wedge's tables

What keeps the tables of the wedge in order is seen without the text of the calls.  Of a thread
only its *role* counts: which of the two semaphores it has taken, which socks it has locked,
where it is counted in `threads[]`, which slot of `wedge_calls` is its own, and, inside
`wedge_sockets_remove`, what it has found out about `threads[]`.  The *books* are what the
roles are about: the counts of the semaphores, the locks and the two tables.

`Sound` says that the books agree with the roles.  Its heart is `Fair.keeps`: a thread that is
counted on a socket and has no slot of `wedge_calls` holds the lock of the socket's sock.  So
the thread that removes a socket, and holds this lock, finds a slot for each other thread that
is counted there (`Sound.finds`).
-/

namespace FinsStack.Wedge.Threads

open Function FinsStack.Lib

/-! ### Roles and books -/

/-- Where a thread is counted: `wedge_sockets[index].threads[type]`, for the sock `sk`. -/
structure Place where
  index : Nat
  type : CallType
  sk : Sock
deriving DecidableEq, Repr

structure Role where
  inSockets : Bool
  inCalls : Bool
  held : List Sock
  place : Option Place
  entry : Option Nat
  /-- A socket that was found, and its sock, before the thread is counted on it. -/
  aim : Option (Nat × Sock)
  /-- In `wedge_sockets_remove`: the types still to be looked at, and the type that threads were
      found under. -/
  known : Option (List CallType × Option CallType)
deriving DecidableEq, Repr

def Role.At (i : Nat) (t : CallType) (r : Role) : Prop := ∃ sk, r.place = some ⟨i, t, sk⟩

structure Books where
  sockets : Nat
  calls : Nat
  lockOf : Sock → Option Pid
  sockAt : Nat → Option Sock
  count : Nat → CallType → Int
  /-- Whom a slot of `wedge_calls` belongs to, if it is in use. -/
  entryAt : Nat → Option Place

namespace Books

/-- What a thread in `wedge_sockets_remove` has found out is still so. -/
def Knows (b : Books) (r : Role) (todo : List CallType) (pending : Option CallType) : Prop :=
  ∃ l, r.place = some l ∧ l.sk ∈ r.held ∧
    (∀ t ∉ todo, settled l.type t (b.count l.index t) = true) ∧
    ∀ t, pending = some t → settled l.type t (b.count l.index t) = false

structure Fair (b : Books) (p : Pid) (r : Role) : Prop where
  owner : ∀ x ∈ r.held, b.lockOf x = some p
  nodup : r.held.Nodup
  placed : ∀ l, r.place = some l → b.sockAt l.index = some l.sk
  keeps : ∀ l, r.place = some l → r.entry = none → l.sk ∈ r.held
  entries : ∀ e, r.entry = some e → ∃ l, r.place = some l ∧ b.entryAt e = some l
  aims : ∀ i x, r.aim = some (i, x) → b.sockAt i = some x ∧ x ∈ r.held
  known : ∀ todo pending, r.known = some (todo, pending) → b.Knows r todo pending

structure Sound (b : Books) (role : Pid → Role) : Prop where
  sockets : Tally (1 - b.sockets) fun p => (role p).inSockets = true
  calls : Tally (1 - b.calls) fun p => (role p).inCalls = true
  counts : ∀ i x, b.sockAt i = some x → ∀ t, Tally (b.count i t) fun p => (role p).At i t
  single : ∀ p q e, (role p).entry = some e → (role q).entry = some e → p = q
  fair : ∀ p, b.Fair p (role p)

variable {b : Books} {role : Pid → Role} {p q : Pid} {r : Role} {l : Place} {i : Nat} {t : CallType}

/-! ### What sound books say -/

theorem Sound.eq_of_held (h : b.Sound role) {x : Sock} (hp : x ∈ (role p).held)
    (hq : x ∈ (role q).held) : p = q :=
  Option.some.inj (((h.fair p).owner x hp).symm.trans ((h.fair q).owner x hq))

theorem Sound.sockets_le_one (h : b.Sound role) : b.sockets ≤ 1 := by
  have := h.sockets.nonneg
  omega

theorem Sound.eq_of_inSockets (h : b.Sound role) (hp : (role p).inSockets)
    (hq : (role q).inSockets) : p = q :=
  h.sockets.eq_of_le_one (by omega) hp hq

theorem Sound.eq_of_inCalls (h : b.Sound role) (hp : (role p).inCalls)
    (hq : (role q).inCalls) : p = q :=
  h.calls.eq_of_le_one (by omega) hp hq

theorem at_iff (hl : r.place = some l) :
    r.At i t ↔ l.index = i ∧ l.type = t := by
  constructor
  · rintro ⟨sk, hr⟩
    obtain rfl : l = ⟨i, t, sk⟩ := Option.some.inj (hl.symm.trans hr)
    exact ⟨rfl, rfl⟩
  · rintro ⟨rfl, rfl⟩
    exact ⟨l.sk, hl⟩

theorem not_at (hr : r.place = none) : ¬ r.At i t := by
  rintro ⟨sk, h⟩
  rw [hr] at h
  cases h

/-- A count that does not let the loop of `wedge_sockets_remove` go on counts somebody else. -/
theorem Sound.other_of_not_settled (h : b.Sound role) (hl : (role p).place = some l)
    (ht : settled l.type t (b.count l.index t) = false) :
    ∃ q, q ≠ p ∧ (role q).At l.index t := by
  have htally := h.counts l.index l.sk ((h.fair p).placed l hl) t
  rw [not_settled_iff] at ht
  by_cases hown : t = l.type
  · rw [if_pos hown] at ht
    exact htally.exists_other ht p
  · rw [if_neg hown] at ht
    obtain ⟨q, hq⟩ := htally.exists_of_pos ht
    refine ⟨q, ?_, hq⟩
    rintro rfl
    exact hown ((at_iff hl).mp hq).2.symm

/-- **The search of `wedge_sockets_remove` finds a call.**  Somebody else is counted, who does
    not hold the lock, and so has a slot. -/
theorem Sound.finds (h : b.Sound role) {todo : List CallType}
    (hk : (role p).known = some (todo, some t)) :
    ∃ e l, (role p).place = some l ∧ b.entryAt e = some ⟨l.index, t, l.sk⟩ := by
  obtain ⟨l, hl, hheld, -, hpend⟩ := (h.fair p).known _ _ hk
  obtain ⟨q, hne, sk, hq⟩ := h.other_of_not_settled hl (hpend t rfl)
  have hsk : l.sk = sk :=
    Option.some.inj (((h.fair p).placed l hl).symm.trans ((h.fair q).placed _ hq))
  subst hsk
  cases he : (role q).entry with
  | none => exact absurd (h.eq_of_held ((h.fair q).keeps _ hq he) hheld) hne
  | some e =>
    obtain ⟨l', hl', hentry⟩ := (h.fair q).entries e he
    obtain rfl : l' = _ := Option.some.inj (hl'.symm.trans hq)
    exact ⟨e, l, hl, hentry⟩

/-- **What is left when the loops are over**: nobody but the thread itself. -/
theorem Sound.alone (h : b.Sound role) {pending : Option CallType}
    (hk : (role p).known = some ([], pending)) :
    ∃ l, (role p).place = some l ∧
      ∀ t, b.count l.index t = if t = l.type then 1 else 0 := by
  obtain ⟨l, hl, -, hset, -⟩ := (h.fair p).known _ _ hk
  refine ⟨l, hl, fun t => ?_⟩
  have htally := h.counts l.index l.sk ((h.fair p).placed l hl) t
  have hnonneg := htally.nonneg
  have ht := settled_iff.mp (hset t List.not_mem_nil)
  by_cases hown : t = l.type
  · have hpos := htally.pos ((at_iff hl).mpr ⟨rfl, hown.symm⟩)
    rw [if_pos hown] at ht ⊢
    omega
  · rw [if_neg hown] at ht ⊢
    omega

/-! ### One thread changes -/

theorem sem_update {C : Role → Bool} {n n' : Nat}
    (h : Tally (1 - (n : Int)) fun p => C (role p) = true)
    (hn : n' + (C r).toNat = n + (C (role p)).toNat) :
    Tally (1 - (n' : Int)) fun q => C (update role p r q) = true := by
  cases hold : C (role p) <;> cases hnew : C r <;>
    simp only [hold, hnew, Bool.toNat_false, Bool.toNat_true] at hn
  · obtain rfl : n' = n := by omega
    exact Tally.keep (C := fun r => C r = true) h (by simp [hold, hnew])
  · have hcount : (1 : Int) - n' = 1 - n + 1 := by omega
    rw [hcount]
    exact Tally.join (C := fun r => C r = true) h (by simp [hold]) hnew
  · have hcount : (1 : Int) - n' = 1 - n - 1 := by omega
    rw [hcount]
    exact Tally.leave (C := fun r => C r = true) h hold (by simp [hnew])
  · obtain rfl : n' = n := by omega
    exact Tally.keep (C := fun r => C r = true) h (by simp [hold, hnew])

theorem single_update (h : ∀ p q e, (role p).entry = some e → (role q).entry = some e → p = q)
    (hr : ∀ q e, q ≠ p → r.entry = some e → (role q).entry ≠ some e) (q q' : Pid) (e : Nat)
    (hq : (update role p r q).entry = some e)
    (hq' : (update role p r q').entry = some e) : q = q' := by
  by_cases hne : q = p
  · by_cases hne' : q' = p
    · rw [hne, hne']
    · rw [hne, update_self] at hq
      rw [update_of_ne hne'] at hq'
      exact absurd hq' (hr q' e hne' hq)
  · rw [update_of_ne hne] at hq
    by_cases hne' : q' = p
    · rw [hne', update_self] at hq'
      exact absurd hq (hr q e hne hq')
    · rw [update_of_ne hne'] at hq'
      exact h q q' e hq hq'

theorem fair_update (hp : b.Fair p r) (hq : ∀ q, q ≠ p → b.Fair q (role q)) (q : Pid) :
    b.Fair q (update role p r q) :=
  (forall_update_iff role fun q r => b.Fair q r).mpr ⟨hp, hq⟩ q

variable {a : Role}

section

variable (h : b.Sound role) (hr : role p = a) (hplace : r.place = a.place)
  (hentry : r.entry = a.entry) (hkeep : ∀ l, r.place = some l → r.entry = none → l.sk ∈ r.held)
  (haim : ∀ i x, r.aim = some (i, x) → b.sockAt i = some x ∧ x ∈ r.held)
  (hknown : ∀ todo pending, r.known = some (todo, pending) → b.Knows r todo pending)
include h hr hplace hentry hkeep haim hknown

/-- The rule for a thread that stays where it is: only semaphores and locks change. -/
theorem Sound.stay {n m : Nat} {lockOf : Sock → Option Pid}
    (hn : n + r.inSockets.toNat = b.sockets + a.inSockets.toNat)
    (hm : m + r.inCalls.toNat = b.calls + a.inCalls.toNat) (hnodup : r.held.Nodup)
    (howner : ∀ x ∈ r.held, lockOf x = some p)
    (hothers : ∀ q, q ≠ p → ∀ x ∈ (role q).held, lockOf x = some q) :
    Sound { b with sockets := n, calls := m, lockOf := lockOf } (update role p r) := by
  subst hr
  exact
  { sockets := sem_update h.sockets hn
    calls := sem_update h.calls hm
    counts := fun i x hi t =>
      Tally.keep (C := Role.At i t) (h.counts i x hi t) (by simp only [Role.At, hplace])
    single := single_update h.single fun q e hne he hq => hne (h.single q p e hq (hentry ▸ he))
    fair := fair_update
      { owner := howner
        nodup := hnodup
        placed := fun l hl => (h.fair p).placed l (hplace ▸ hl)
        keeps := hkeep
        entries := fun e he => hplace ▸ (h.fair p).entries e (hentry ▸ he)
        aims := haim
        known := hknown }
      fun q hne => { h.fair q with owner := hothers q hne } }

/-- The thread takes or gives back semaphores, or lets go of locks or of what it knows. -/
theorem Sound.turn {n m : Nat} (hn : n + r.inSockets.toNat = b.sockets + a.inSockets.toNat)
    (hm : m + r.inCalls.toNat = b.calls + a.inCalls.toNat) (hheld : r.held.Sublist a.held) :
    Sound { b with sockets := n, calls := m } (update role p r) := by
  have hfair := h.fair p
  rw [hr] at hfair
  exact h.stay hr hplace hentry hkeep haim hknown hn hm (hheld.nodup hfair.nodup)
    (fun x hx => hfair.owner x (hheld.subset hx)) fun q _ => (h.fair q).owner

/-! ### Locks -/

variable (hs : r.inSockets = a.inSockets) (hc : r.inCalls = a.inCalls) {x : Sock}
include hs hc

theorem Sound.lock (hx : b.lockOf x = none) (hheld : r.held.Sublist (x :: a.held)) :
    Sound { b with lockOf := update b.lockOf x (some p) } (update role p r) := by
  have hfair := h.fair p
  rw [hr] at hfair
  have hfree : ∀ {q y}, b.lockOf y = some q → y ≠ x := by
    rintro q y hy rfl
    rw [hx] at hy
    cases hy
  refine h.stay hr hplace hentry hkeep haim hknown (by rw [hs]) (by rw [hc])
    (hheld.nodup (List.nodup_cons.mpr ⟨fun hmem => hfree (hfair.owner x hmem) rfl, hfair.nodup⟩))
    (fun y hy => ?_) fun q _ y hy => ?_
  · rcases List.mem_cons.mp (hheld.subset hy) with rfl | hold
    · rw [update_self]
    · rw [update_of_ne (hfree (hfair.owner y hold)), hfair.owner y hold]
  · have hown := (h.fair q).owner y hy
    rw [update_of_ne (hfree hown), hown]

theorem Sound.unlock (hx : x ∈ a.held) (hheld : r.held.Sublist (a.held.erase x)) :
    Sound { b with lockOf := update b.lockOf x none } (update role p r) := by
  have hfair := h.fair p
  rw [hr] at hfair
  refine h.stay hr hplace hentry hkeep haim hknown (by rw [hs]) (by rw [hc])
    (hheld.nodup (hfair.nodup.erase x)) (fun y hy => ?_) fun q hne y hy => ?_
  · obtain ⟨hyx, hold⟩ := hfair.nodup.mem_erase_iff.mp (hheld.subset hy)
    rw [update_of_ne hyx, hfair.owner y hold]
  · have hyx : y ≠ x := by
      rintro rfl
      exact hne (h.eq_of_held hy (hr ▸ hx))
    rw [update_of_ne hyx, (h.fair q).owner y hy]

end

/-! ### The table of sockets -/

/-- While a thread holds the lock of a socket's sock, no other thread that removes a socket
    removes this one. -/
theorem Sound.apart (h : b.Sound role) {x : Sock} (hi : b.sockAt i = some x)
    (hx : x ∈ (role p).held) (hne : q ≠ p) (hl : (role q).place = some l)
    (hheld : l.sk ∈ (role q).held) : l.index ≠ i := by
  rintro rfl
  have hsk : l.sk = x := Option.some.inj (((h.fair q).placed l hl).symm.trans hi)
  exact hne (h.eq_of_held hheld (hsk ▸ hx))

def bump (b : Books) (i : Nat) (t : CallType) (d : Int) : Books :=
  { b with
    count := update b.count i (update (b.count i) t (b.count i t + d)) }

theorem bump_self (i : Nat) (t : CallType) (d : Int) :
    (b.bump i t d).count i t = b.count i t + d := by
  simp only [bump, update_self]

theorem bump_of_ne {j : Nat} {u : CallType} {d : Int} (hne : ¬ (i = j ∧ t = u)) :
    (b.bump i t d).count j u = b.count j u := by
  by_cases hji : j = i
  · subst hji
    have hut : u ≠ t := fun hut => hne ⟨rfl, hut.symm⟩
    simp only [bump, update_self, update_of_ne hut]
  · simp only [bump, update_of_ne hji]

structure Aimless (a r : Role) : Prop where
  inSockets : r.inSockets = a.inSockets
  inCalls : r.inCalls = a.inCalls
  aim : r.aim = none
  known : r.known = none

theorem Aimless.fair (hq : Aimless a r) (hfair : b.Fair p a) {b' : Books}
    (hlock : b'.lockOf = b.lockOf) (hheld : r.held = a.held) (hplace : r.place = none)
    (hentry : r.entry = none) : b'.Fair p r where
  owner := by
    rw [hheld, hlock]
    exact hfair.owner
  nodup := hheld ▸ hfair.nodup
  placed := by simp [hplace]
  keeps := by simp [hplace]
  entries := by simp [hentry]
  aims := by simp [hq.aim]
  known := by simp [hq.known]

section

variable (h : b.Sound role)
include h

theorem Sound.fair_bump {x : Sock} (hi : b.sockAt i = some x) (hx : x ∈ (role p).held)
    (t : CallType) (d : Int) (hne : q ≠ p) : (b.bump i t d).Fair q (role q) :=
  { h.fair q with
    known := fun todo pending hk => by
      obtain ⟨l, hl, hheld, hset, hpend⟩ := (h.fair q).known todo pending hk
      have hcount : ∀ u, (b.bump i t d).count l.index u = b.count l.index u :=
        fun u => bump_of_ne fun heq => h.apart hi hx hne hl hheld heq.1.symm
      refine ⟨l, hl, hheld, fun u hu => ?_, fun u hu => ?_⟩
      · rw [hcount]
        exact hset u hu
      · rw [hcount]
        exact hpend u hu }

theorem Sound.counts_bump {d : Int}
    (hsame : ∀ i t, ¬ (l.index = i ∧ l.type = t) → (r.At i t ↔ (role p).At i t))
    (hone : Tally (b.count l.index l.type + d) fun q =>
      (update role p r q).At l.index l.type) (i : Nat) (x : Sock)
    (hix : b.sockAt i = some x) (t : CallType) :
    Tally ((b.bump l.index l.type d).count i t) fun q => (update role p r q).At i t := by
  by_cases hat : l.index = i ∧ l.type = t
  · obtain ⟨rfl, rfl⟩ := hat
    rw [bump_self]
    exact hone
  · rw [bump_of_ne hat]
    exact Tally.keep (C := Role.At i t) (h.counts i x hix t) (hsame i t hat)

theorem Sound.opened (hi : b.sockAt i = none) (x : Sock) :
    Sound { b with sockAt := update b.sockAt i (some x)
                   count := update b.count i fun _ => 0 } role := by
  have hplace : ∀ q l, (role q).place = some l → l.index ≠ i := by
    rintro q l hl rfl
    have := (h.fair q).placed l hl
    rw [hi] at this
    cases this
  refine ⟨h.sockets, h.calls, fun j y hj t => ?_, h.single, fun q => ?_⟩
  · by_cases hji : j = i
    · subst hji
      simp only [update_self]
      exact Tally.zero fun q ⟨sk, hq⟩ => hplace q _ hq rfl
    · simp only [update_of_ne hji] at hj ⊢
      exact h.counts j y hj t
  · exact
    { h.fair q with
      placed := fun l hl => by
        simp only [update_of_ne (hplace q l hl)]
        exact (h.fair q).placed l hl
      aims := fun j y hj => by
        obtain ⟨hat, hheld⟩ := (h.fair q).aims j y hj
        have hji : j ≠ i := by
          rintro rfl
          rw [hi] at hat
          cases hat
        simp only [update_of_ne hji]
        exact ⟨hat, hheld⟩
      known := fun todo pending hk => by
        obtain ⟨l, hl, hheld, hset, hpend⟩ := (h.fair q).known todo pending hk
        refine ⟨l, hl, hheld, ?_⟩
        simp only [update_of_ne (hplace q l hl)]
        exact ⟨hset, hpend⟩ }

variable (hr : role p = a) (hq : Aimless a r)
include hr hq

/-- `threads[call_type]++`, on a socket whose lock is held. -/
theorem Sound.enter (hi : b.sockAt l.index = some l.sk) (hx : l.sk ∈ r.held)
    (hheld : r.held.Sublist a.held) (hold : a.place = none) (hnew : r.place = some l)
    (hentry : r.entry = none) :
    Sound (b.bump l.index l.type 1) (update role p r) := by
  subst hr
  have hat : ∀ {l'}, r.place = some l' → l = l' :=
    fun hl' => Option.some.inj (hnew.symm.trans hl')
  refine ⟨sem_update h.sockets (by rw [hq.inSockets]; rfl),
    sem_update h.calls (by rw [hq.inCalls]; rfl), h.counts_bump ?_ ?_,
    single_update h.single (by simp [hentry]), fair_update ?_ fun q hne =>
      h.fair_bump hi (hheld.subset hx) l.type 1 hne⟩
  · exact fun i t hne => iff_of_false (fun hat => hne ((at_iff hnew).mp hat)) (not_at hold)
  · exact Tally.join (C := Role.At l.index l.type) (h.counts l.index l.sk hi l.type) (not_at hold)
      ((at_iff hnew).mpr ⟨rfl, rfl⟩)
  · exact
    { owner := fun x hx => (h.fair p).owner x (hheld.subset hx)
      nodup := hheld.nodup (h.fair p).nodup
      placed := fun l' hl' => hat hl' ▸ hi
      keeps := fun l' hl' _ => hat hl' ▸ hx
      entries := by simp [hentry]
      aims := by simp [hq.aim]
      known := by simp [hq.known] }

theorem Sound.leave (hl : a.place = some l) (hheld : r.held = a.held)
    (hold : a.entry = none) (hnew : r.place = none) (hentry : r.entry = none) :
    Sound (b.bump l.index l.type (-1)) (update role p r) := by
  subst hr
  have hi := (h.fair p).placed l hl
  have hothers := fun q hne => h.fair_bump (q := q) hi ((h.fair p).keeps l hl hold) l.type (-1) hne
  refine ⟨sem_update h.sockets (by rw [hq.inSockets]; rfl),
    sem_update h.calls (by rw [hq.inCalls]; rfl), h.counts_bump ?_ ?_,
    single_update h.single (by simp [hentry]),
    fair_update (hq.fair (h.fair p) rfl hheld hnew hentry) hothers⟩
  · exact fun i t hne => iff_of_false (not_at hnew) fun hat => hne ((at_iff hl).mp hat)
  · exact Tally.leave (C := Role.At l.index l.type) (h.counts l.index l.sk hi l.type)
      ((at_iff hl).mpr ⟨rfl, rfl⟩) (not_at hnew)

theorem Sound.closed (hl : a.place = some l) {pending : Option CallType}
    (hk : a.known = some ([], pending)) (hheld : r.held = a.held) (hnew : r.place = none)
    (hentry : r.entry = none) :
    Sound { b with sockAt := update b.sockAt l.index none }
      (update role p r) := by
  subst hr
  refine ⟨sem_update h.sockets (by rw [hq.inSockets]), sem_update h.calls (by rw [hq.inCalls]),
    fun i x hix t => ?_, single_update h.single (by simp [hentry]),
    fair_update (hq.fair (h.fair p) rfl hheld hnew hentry) fun q hne => ?_⟩
  · by_cases hil : i = l.index
    · simp only [hil, update_self] at hix
      cases hix
    · simp only [update_of_ne hil] at hix
      refine Tally.keep (C := Role.At i t) (h.counts i x hix t) (iff_of_false (not_at hnew) ?_)
      exact fun hat => hil ((at_iff hl).mp hat).1.symm
  · exact
    { h.fair q with
      placed := fun l' hl' => by
        have hapart : l'.index ≠ l.index := by
          -- the counts say that nobody else is left on the socket
          obtain ⟨l₀, hl₀, hcount⟩ := h.alone hk
          obtain rfl : l = l₀ := Option.some.inj (hl.symm.trans hl₀)
          intro heq
          have htally := h.counts l.index l.sk ((h.fair p).placed l hl) l'.type
          have hq := (at_iff hl').mpr ⟨heq, rfl⟩
          have hpos := htally.pos hq
          by_cases hown : l'.type = l.type
          · have hle : b.count l.index l'.type ≤ 1 := by rw [hcount, if_pos hown]
            exact hne (htally.eq_of_le_one hle hq ((at_iff hl).mpr ⟨rfl, hown.symm⟩))
          · rw [hcount, if_neg hown] at hpos
            omega
        simp only [update_of_ne hapart]
        exact (h.fair q).placed l' hl'
      aims := fun i x hix => by
        obtain ⟨hat, hx⟩ := (h.fair q).aims i x hix
        have hil : i ≠ l.index := by
          -- whoever has found the socket holds its lock, as the thread that removes it does
          rintro rfl
          obtain ⟨l₀, hl₀, hheld₀, -⟩ := (h.fair p).known _ _ hk
          obtain rfl : l = l₀ := Option.some.inj (hl.symm.trans hl₀)
          have hsk : l.sk = x := Option.some.inj (((h.fair p).placed l hl).symm.trans hat)
          exact hne (h.eq_of_held hx (hsk ▸ hheld₀))
        simp only [update_of_ne hil]
        exact ⟨hat, hx⟩ }

/-! ### The table of calls -/

variable (hheld : r.held = a.held) (hplace : r.place = a.place)
include hheld hplace

theorem Sound.setEntry {e : Nat} {v : Option Place}
    (hfree : ∀ q ≠ p, ∀ e', (role q).entry = some e' → e' ≠ e)
    (hown : ∀ e', r.entry = some e' → e' = e ∧ ∃ l, r.place = some l ∧ v = some l)
    (hkeep : ∀ l, r.place = some l → r.entry = none → l.sk ∈ r.held) :
    Sound { b with entryAt := update b.entryAt e v } (update role p r) := by
  subst hr
  refine ⟨sem_update h.sockets (by rw [hq.inSockets]), sem_update h.calls (by rw [hq.inCalls]),
    fun i x hi t => ?_, single_update h.single ?_, fair_update ?_ fun q hne => ?_⟩
  · exact Tally.keep (C := Role.At i t) (h.counts i x hi t) (by simp only [Role.At, hplace])
  · intro q e' hne he' hq
    exact hfree q hne e' hq (hown e' he').1
  · exact
    { owner := hheld ▸ (h.fair p).owner
      nodup := hheld ▸ (h.fair p).nodup
      placed := fun l' hl' => (h.fair p).placed l' (hplace ▸ hl')
      keeps := hkeep
      entries := fun e' he' => by
        obtain ⟨rfl, l, hl, rfl⟩ := hown e' he'
        exact ⟨l, hl, by simp only [update_self]⟩
      aims := by simp [hq.aim]
      known := by simp [hq.known] }
  · exact
    { h.fair q with
      entries := fun e' he' => by
        simp only [update_of_ne (hfree q hne e' he')]
        exact (h.fair q).entries e' he' }

theorem Sound.insert {e : Nat} (he : b.entryAt e = none) (hl : a.place = some l)
    (hentry : r.entry = some e) :
    Sound { b with entryAt := update b.entryAt e (some l) }
      (update role p r) := by
  refine h.setEntry hr hq hheld hplace ?_ ?_ (by simp [hentry])
  · rintro q - e' he' rfl
    obtain ⟨l', -, hat⟩ := (h.fair q).entries e' he'
    rw [he] at hat
    cases hat
  · intro e' he'
    exact ⟨Option.some.inj (he'.symm.trans hentry), l, hplace.trans hl, rfl⟩

theorem Sound.giveUp {e : Nat} (he : a.entry = some e) (v : Option Place)
    (hkeep : ∀ l, r.place = some l → l.sk ∈ r.held) (hentry : r.entry = none) :
    Sound { b with entryAt := update b.entryAt e v } (update role p r) := by
  refine h.setEntry hr hq hheld hplace ?_ (by simp [hentry]) fun l hl _ => hkeep l hl
  rintro q hne e' he' rfl
  exact hne (h.single q p e' he' (hr ▸ he))

end

end Books

end FinsStack.Wedge.Threads
