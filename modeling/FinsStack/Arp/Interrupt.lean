import FinsStack.Lib.Run
import Mathlib.Logic.Function.Basic

/-!
# Timeouts of a module thread

`common/finstime.c`, `arp.c`, `daemon.c`, `switch.c`.

The handler of a timer sets the module's `interrupt_flag`, then the flag of the timer's owner,
and posts `event_sem`.  The module thread waits for `event_sem`, takes a frame from its queue,
and only when there is none looks at `interrupt_flag`, clears it and visits all owners: the
caches of ARP, all slots of the daemon's `calls`, used or not.  Every statement is a step, and
any number of handlers run next to the thread and the switch.

A handler that has set `interrupt_flag` and not yet its own flag loses its timeout when the
thread clears `interrupt_flag` at that moment and visits the owner before the flag is set.
`timeout_kept` says that nothing else loses one (`Prompt`).
-/

namespace FinsStack.Arp.Interrupt

open List FinsStack.Lib

/-! ### State -/

abbrev Timer := Nat

inductive HandlerPc where
  | setInterrupt | setFlag | post
deriving DecidableEq, Repr

inductive SwitchPc where
  | lock
  | write
  | post
  | unlock
deriving DecidableEq, Repr

inductive ThreadPc where
  | wait
  | lock
  | read
  | unlock (ff : Bool)
  | test (ff : Bool)
  | process
  | branch
  | clear
  /-- `daemon_interrupt` waits for `sockets_sem`. -/
  | enter
  | scan (rest : List Timer)
  | claim (t : Timer) (rest : List Timer)
  /-- `arp_handle_to` or `daemon_handle_to`. -/
  | handle (t : Timer) (rest : List Timer)
deriving DecidableEq, Repr

structure State where
  interruptFlag : Bool
  eventSem : Nat
  inputSem : Nat
  queue : Nat
  owners : List Timer
  flags : Timer → Bool
  handlers : List (Timer × HandlerPc)
  switch : SwitchPc
  thread : ThreadPc

def initial : State where
  interruptFlag := false
  eventSem := 0
  inputSem := 1
  queue := 0
  owners := []
  flags := fun _ => false
  handlers := []
  switch := .lock
  thread := .wait

/-! ### Steps -/

inductive Event where
  | fire (t : Timer)
  | handler (i : Nat)
  /-- The switch runs on; `room` says whether `write_queue` succeeds. -/
  | switch (room : Bool)
  /-- The module thread runs on; a timeout that it handles may end its owner. -/
  | thread (ends : Bool)
  /-- Owners come and go and flags are cleared, by the thread as it handles a frame or by
      another thread of the daemon; `sockets_sem` keeps the latter out of the scan. -/
  | edit (owners cleared : List Timer)
deriving DecidableEq, Repr

/-- The owners whose flag the thread has still to look at. -/
@[simp]
def ThreadPc.unvisited (owners : List Timer) : ThreadPc → List Timer
  | .enter => owners
  | .scan rest | .handle _ rest => rest
  | .claim t rest => t :: rest
  | _ => []

@[simp]
def ThreadPc.scans : ThreadPc → Bool
  | .scan _ | .claim _ _ | .handle _ _ => true
  | _ => false

namespace State

def stepHandler (s : State) (i : Nat) : State :=
  match s.handlers[i]? with
  | none => s
  | some (t, .setInterrupt) =>
    { s with interruptFlag := true, handlers := s.handlers.set i (t, .setFlag) }
  | some (t, .setFlag) =>
    { s with flags := Function.update s.flags t true, handlers := s.handlers.set i (t, .post) }
  | some (_, .post) =>
    { s with eventSem := s.eventSem + 1, handlers := s.handlers.eraseIdx i }

def stepSwitch (s : State) (room : Bool) : State :=
  match s.switch with
  | .lock =>
    if 0 < s.inputSem then { s with inputSem := s.inputSem - 1, switch := .write } else s
  | .write =>
    if room then { s with queue := s.queue + 1, switch := .post } else { s with switch := .unlock }
  | .post => { s with eventSem := s.eventSem + 1, switch := .unlock }
  | .unlock => { s with inputSem := s.inputSem + 1, switch := .lock }

def stepThread (s : State) (ends : Bool) : State :=
  match s.thread with
  | .wait => if 0 < s.eventSem then { s with eventSem := s.eventSem - 1, thread := .lock } else s
  | .lock => if 0 < s.inputSem then { s with inputSem := s.inputSem - 1, thread := .read } else s
  | .read =>
    if s.queue = 0 then { s with thread := .unlock false }
    else { s with queue := s.queue - 1, thread := .unlock true }
  | .unlock ff => { s with inputSem := s.inputSem + 1, thread := .test ff }
  | .test ff =>
    if ff then { s with thread := .process }
    else if s.interruptFlag then { s with thread := .branch } else { s with thread := .wait }
  | .process => { s with thread := .wait }
  | .branch => if s.interruptFlag then { s with thread := .clear } else { s with thread := .wait }
  | .clear => { s with interruptFlag := false, thread := .enter }
  | .enter => { s with thread := .scan s.owners }
  | .scan [] => { s with thread := .wait }
  | .scan (t :: rest) =>
    if s.flags t then { s with thread := .claim t rest } else { s with thread := .scan rest }
  | .claim t rest =>
    { s with flags := Function.update s.flags t false, thread := .handle t rest }
  | .handle t rest =>
    { s with owners := if ends then s.owners.filter (· ≠ t) else s.owners, thread := .scan rest }

end State

def step (s : State) : Event → State
  | .fire t => { s with handlers := s.handlers ++ [(t, .setInterrupt)] }
  | .handler i => s.stepHandler i
  | .switch room => s.stepSwitch room
  | .thread ends => s.stepThread ends
  | .edit owners cleared =>
    if s.thread.scans then s
    else { s with owners := owners, flags := fun t => s.flags t && !cleared.contains t }

/-! ### The property and its condition -/

def Finished (s : State) (t : Timer) : Prop := ∀ h ∈ s.handlers, h.1 ≠ t
deriving Decidable

/-- The thread has passed its wait and not yet cleared `interrupt_flag` or taken a frame. -/
@[simp]
def ThreadPc.awake : ThreadPc → Bool
  | .lock | .read | .unlock false | .test false | .branch | .clear => true
  | _ => false

/-- **The thread will look at every flag that is set.** -/
def NoneLost (s : State) : Prop :=
  ∀ t ∈ s.owners, s.flags t = true → Finished s t →
    (s.interruptFlag = true ∧ (0 < s.eventSem ∨ s.thread.awake = true)) ∨
      t ∈ s.thread.unvisited s.owners
deriving Decidable

/-- `interrupt_flag` is not cleared while a handler stands between its two flags, and what
    becomes an owner has its flag clear. -/
def Prompt (s : State) : Event → Prop
  | .thread _ => s.thread = .clear → ∀ h ∈ s.handlers, h.2 ≠ .setFlag
  | .edit owners cleared =>
    ∀ t ∈ owners, s.flags t = true → t ∈ cleared ∨ t ∈ s.owners
  | _ => True

instance (s : State) : ∀ e, Decidable (Prompt s e)
  | .thread _ => inferInstanceAs (Decidable (_ → _))
  | .edit owners _ => inferInstanceAs (Decidable (∀ t ∈ owners, _))
  | .fire _ | .handler _ | .switch _ => isTrue trivial

/-! ### The invariant -/

@[simp]
def ThreadPc.hand (pc : ThreadPc) : Nat := if pc.awake then 1 else 0

@[simp]
def ThreadPc.frameHand : ThreadPc → Nat
  | .lock | .read => 1
  | _ => 0

@[simp]
def ThreadPc.holds : ThreadPc → Nat
  | .read | .unlock _ => 1
  | _ => 0

def SwitchPc.holds : SwitchPc → Nat
  | .lock => 0
  | _ => 1

def SwitchPc.owes : SwitchPc → Nat
  | .post => 1
  | _ => 0

structure Sound (s : State) : Prop where
  input : s.inputSem + s.thread.holds + s.switch.holds = 1
  owed : s.switch.owes ≤ s.queue
  frames : s.queue ≤ s.eventSem + s.thread.frameHand + s.switch.owes
  pending : ∀ h ∈ s.handlers, h.2 = .setFlag → s.interruptFlag = true
  seen : ∀ t ∈ s.owners, s.flags t = true → s.interruptFlag = true ∨ t ∈ s.thread.unvisited s.owners
  posted : ∀ t ∈ s.owners, s.flags t = true → Finished s t → t ∉ s.thread.unvisited s.owners →
    s.queue + 1 ≤ s.eventSem + s.thread.hand + s.switch.owes

variable {s : State} {t : Timer} {i : Nat} {pc pc' : HandlerPc}

theorem Sound.noneLost (h : Sound s) : NoneLost s := by
  intro t ht hflag hdone
  by_cases hscan : t ∈ s.thread.unvisited s.owners
  · exact .inr hscan
  refine .inl ⟨(h.seen t ht hflag).resolve_right hscan, ?_⟩
  have hpost := h.posted t ht hflag hdone hscan
  have howed := h.owed
  by_cases hawake : s.thread.awake
  · exact .inr hawake
  · have hhand : s.thread.hand = 0 := if_neg hawake
    exact .inl (by omega)

theorem ThreadPc.frameHand_le_hand (pc : ThreadPc) : pc.frameHand ≤ pc.hand := by
  cases pc <;> simp [ThreadPc.frameHand, ThreadPc.hand, ThreadPc.awake]

/-! ### Handlers -/

section

variable (hi : s.handlers[i]? = some (t, pc))
include hi

theorem finished_of_set {u : Timer}
    (h : ∀ x ∈ s.handlers.set i (t, pc'), x.1 ≠ u) : Finished s u := by
  intro x hx
  obtain ⟨j, hj, rfl⟩ := getElem_of_mem hx
  by_cases hij : i = j
  · subst hij
    have hx : s.handlers[i] = (t, pc) := by simpa [hj] using hi
    have := h (t, pc') (mem_set hj _)
    simpa [hx] using this
  · refine h _ (mem_iff_getElem.mpr ⟨j, by simpa using hj, ?_⟩)
    rw [getElem_set_ne hij]

theorem finished_of_eraseIdx {u : Timer} (hu : u ≠ t)
    (h : ∀ x ∈ s.handlers.eraseIdx i, x.1 ≠ u) : Finished s u := by
  intro x hx
  obtain ⟨j, hj, rfl⟩ := getElem_of_mem hx
  by_cases hij : j = i
  · subst hij
    have hx : s.handlers[j] = (t, pc) := by simpa [hj] using hi
    simpa [hx] using Ne.symm hu
  · exact h _ (mem_eraseIdx_iff_getElem.mpr ⟨j, hj, hij, rfl⟩)

theorem not_finished_of_set : ¬ ∀ x ∈ s.handlers.set i (t, pc'), x.1 ≠ t :=
  fun h => h _ (mem_set (List.getElem?_eq_some_iff.mp hi).1 _) rfl

end

section

variable (h : Sound s)
include h

theorem Sound.fire : Sound (step s (.fire t)) where
  input := h.input
  owed := h.owed
  frames := h.frames
  pending := by
    intro x hx hpc
    rcases mem_append.mp hx with hx | hx
    · exact h.pending x hx hpc
    · simp_all
  seen := h.seen
  posted := fun u hu hflag hdone =>
    h.posted u hu hflag fun x hx => hdone x (mem_append_left _ hx)

theorem Sound.stepHandler (i : Nat) : Sound (s.stepHandler i) := by
  rcases hi : s.handlers[i]? with _ | ⟨t, pc⟩
  · simpa only [State.stepHandler, hi] using h
  cases pc <;> simp only [State.stepHandler, hi]
  case setInterrupt =>
    exact
      { h with
        pending := fun _ _ _ => rfl
        seen := fun _ _ _ => .inl rfl
        posted := fun u hu hflag hdone => h.posted u hu hflag (finished_of_set hi hdone) }
  case setFlag =>
    -- `interrupt_flag` is still set, and the handler has its post before it
    have hintr := h.pending _ (mem_of_getElem? hi) rfl
    refine
      { h with
        pending := fun _ _ _ => hintr
        seen := fun _ _ _ => .inl hintr
        posted := fun u hu hflag hdone => ?_ }
    by_cases hut : u = t
    · subst hut
      exact absurd hdone (not_finished_of_set hi)
    · exact h.posted u hu (by simpa [hut] using hflag) (finished_of_set hi hdone)
  case post =>
    refine
      { h with
        frames := by have := h.frames; simp only; omega
        pending := fun x hx => h.pending x (mem_of_mem_eraseIdx hx)
        posted := fun u hu hflag hdone hscan => ?_ }
    by_cases hut : u = t
    · have hframes := h.frames
      have hhand := s.thread.frameHand_le_hand
      simp only
      omega
    · have := h.posted u hu hflag (finished_of_eraseIdx hi hut hdone) hscan
      simp only
      omega

/-! ### The switch and the thread -/

theorem Sound.moveSwitch {m n q : Nat} {pc : SwitchPc}
    (hinput : m + pc.holds = s.inputSem + s.switch.holds) (howed : pc.owes ≤ q)
    (hposts : q + s.eventSem + s.switch.owes ≤ s.queue + n + pc.owes) :
    Sound { s with inputSem := m, eventSem := n, queue := q, switch := pc } where
  input := by have := h.input; simp only; omega
  owed := howed
  frames := by have := h.frames; simp only; omega
  pending := h.pending
  seen := h.seen
  posted := by
    intro t ht hflag hdone hscan
    have := h.posted t ht hflag hdone hscan
    simp only
    omega

theorem Sound.stepSwitch (room : Bool) : Sound (s.stepSwitch room) := by
  have howed := h.owed
  rcases hpc : s.switch <;> simp only [State.stepSwitch, hpc]
  case lock =>
    split_ifs with hsem
    · refine h.moveSwitch ?_ ?_ ?_ <;> simp only [hpc, SwitchPc.holds, SwitchPc.owes] <;> omega
    · exact h
  case write =>
    split_ifs <;> refine h.moveSwitch ?_ ?_ ?_ <;>
      simp only [hpc, SwitchPc.holds, SwitchPc.owes] <;> omega
  case post | unlock =>
    refine h.moveSwitch ?_ ?_ ?_ <;> simp only [hpc, SwitchPc.holds, SwitchPc.owes] <;> omega

/-- A step of the thread that keeps the owners it has still to visit; the post of a timeout is
    kept as long as `interrupt_flag` is set. -/
theorem Sound.moveThread {m n q : Nat} {pc : ThreadPc}
    (hinput : m + pc.holds = s.inputSem + s.thread.holds) (howed : s.switch.owes ≤ q)
    (hframes : q ≤ n + pc.frameHand + s.switch.owes) (hposts : s.interruptFlag →
      q + s.eventSem + s.thread.hand ≤ s.queue + n + pc.hand)
    (hscan : ∀ t, s.flags t → t ∈ s.thread.unvisited s.owners → t ∈ pc.unvisited s.owners) :
    Sound { s with inputSem := m, eventSem := n, queue := q, thread := pc } where
  input := by have := h.input; simp only; omega
  owed := howed
  frames := hframes
  pending := h.pending
  seen := fun t ht hflag => (h.seen t ht hflag).imp_right (hscan t hflag)
  posted := by
    intro t ht hflag hdone hnot
    have hnot' : t ∉ s.thread.unvisited s.owners := fun hin => hnot (hscan t hflag hin)
    have hintr := hposts ((h.seen t ht hflag).resolve_right hnot')
    have := h.posted t ht hflag hdone hnot'
    simp only
    omega

theorem Sound.stepThread (ends : Bool)
    (hprompt : s.thread = .clear → ∀ x ∈ s.handlers, x.2 ≠ .setFlag) :
    Sound (s.stepThread ends) := by
  have howed := h.owed
  have hframes := h.frames
  have hinput := h.input
  rcases hpc : s.thread with _ | _ | _ | ff | ff | _ | _ | _ | _ | (_ | ⟨t, rest⟩) | ⟨t, rest⟩ |
    ⟨t, rest⟩ <;> simp only [State.stepThread, hpc] <;> simp [hpc] at hframes hinput
  case wait | lock =>
    split_ifs with hsem
    · refine h.moveThread ?_ howed ?_ ?_ ?_ <;> simp [hpc] <;> omega
    · exact h
  case read =>
    -- the switch stands before its lock, so all frames in the queue are posted
    have hfree : s.switch = .lock := by
      cases hsw : s.switch <;> simp_all [SwitchPc.holds]
    simp only [hfree, SwitchPc.owes] at howed hframes
    split_ifs with hempty <;> refine h.moveThread ?_ ?_ ?_ ?_ ?_ <;>
      simp [hpc, hfree, SwitchPc.owes] <;> omega
  case unlock =>
    refine h.moveThread ?_ howed ?_ ?_ ?_ <;> cases ff <;> simp [hpc] <;> omega
  case test | branch => split_ifs <;> refine h.moveThread ?_ howed ?_ ?_ ?_ <;> simp_all
  case process | scan.nil =>
    refine h.moveThread ?_ howed ?_ ?_ ?_ <;> simp [hpc]
    omega
  case clear =>
    exact
      { input := by simpa using hinput
        owed := howed
        frames := by simpa using hframes
        pending := fun x hx hset => absurd hset (hprompt hpc x hx)
        seen := fun _ hu _ => .inr hu
        posted := fun _ hu _ _ hnot => absurd hu hnot }
  case enter => refine h.moveThread ?_ howed ?_ ?_ ?_ <;> simp_all
  case scan.cons =>
    split_ifs with hflag <;> refine h.moveThread ?_ howed ?_ ?_ ?_ <;> simp [hpc] <;> grind
  case claim =>
    have hother {u : Timer} (hu : Function.update s.flags t false u) :
        u ≠ t ∧ s.flags u := by
      by_cases hut : u = t <;> simp_all
    refine
      { input := by simpa using hinput
        owed := howed
        frames := by simpa using hframes
        pending := h.pending
        seen := fun u hu hflag => ?_
        posted := fun u hu hflag hdone hnot => ?_ }
    · simpa [hpc, (hother hflag).1] using h.seen u hu (hother hflag).2
    · have hnot' : u ∉ s.thread.unvisited s.owners := by simp_all
      simpa [hpc] using h.posted u hu (hother hflag).2 hdone hnot'
  case handle =>
    have hsub : ∀ u ∈ (if ends then s.owners.filter (· ≠ t) else s.owners), u ∈ s.owners := by
      intro u hu
      split_ifs at hu
      · exact mem_of_mem_filter hu
      · exact hu
    exact
      { input := by simpa using hinput
        owed := howed
        frames := by simpa using hframes
        pending := h.pending
        seen := fun u hu hflag => by simpa [hpc] using h.seen u (hsub u hu) hflag
        posted := fun u hu hflag hdone hnot => by
          simpa [hpc] using h.posted u (hsub u hu) hflag hdone (by simpa [hpc] using hnot) }

theorem Sound.edit {owners cleared : List Timer}
    (hprompt : ∀ t ∈ owners, s.flags t → t ∈ cleared ∨ t ∈ s.owners) :
    Sound (step s (.edit owners cleared)) := by
  simp only [step]
  split_ifs with hscan
  · exact h
  have hold {u : Timer} (hu : u ∈ owners) (hflag : (s.flags u && !cleared.contains u) = true) :
      u ∈ s.owners ∧ s.flags u := by
    simp only [Bool.and_eq_true, Bool.not_eq_true', contains_eq_mem,
      decide_eq_false_iff_not] at hflag
    exact ⟨(hprompt u hu hflag.1).resolve_left hflag.2, hflag.1⟩
  have hstill {u : Timer} (hu : u ∈ owners) (hin : u ∈ s.thread.unvisited s.owners) :
      u ∈ s.thread.unvisited owners := by
    cases hpc : s.thread <;> simp_all
  exact
    { h with
      seen := fun u hu hflag => (h.seen u (hold hu hflag).1 (hold hu hflag).2).imp_right (hstill hu)
      posted := fun u hu hflag hdone hnot =>
        h.posted u (hold hu hflag).1 (hold hu hflag).2 hdone fun hin => hnot (hstill hu hin) }

theorem Sound.step (e : Event) (hprompt : Prompt s e) : Sound (step s e) := by
  cases e with
  | fire t => exact h.fire
  | handler i => exact h.stepHandler i
  | switch room => exact h.stepSwitch room
  | thread ends => exact h.stepThread ends hprompt
  | edit owners cleared => exact h.edit hprompt

end

theorem sound_initial : Sound initial := by
  constructor <;> simp [initial, SwitchPc.holds, SwitchPc.owes]

/-! ### Runs -/

/-- **Every timeout is seen** in a run whose steps are all prompt. -/
theorem timeout_kept (es : List Event) (hes : Steps step Prompt initial es) :
    NoneLost (run step initial es) :=
  (run_invariant_of_steps (fun _ e h hp => h.step e hp) sound_initial hes).noneLost

def racingTimeouts : List Event :=
  [.edit [0, 1] [], .fire 0, .handler 0, .handler 0, .handler 0] ++
    replicate 6 (.thread false) ++ [.fire 1, .handler 0] ++
    replicate 7 (.thread false) ++ [.handler 0, .handler 0]

/-- The flag of the second cache stays set, its handler is done, `interrupt_flag` is clear and
    the thread goes back to its loop. -/
theorem racingTimeouts_loses :
    ¬ NoneLost (run step initial racingTimeouts) ∧
      (run step initial racingTimeouts).flags 1 = true ∧
      (run step initial racingTimeouts).interruptFlag = false := by
  decide

/-- The same timeouts one after the other. -/
theorem timeout_kept_apart :
    NoneLost (run step initial ([.edit [0, 1] [], .fire 0, .handler 0, .handler 0, .handler 0] ++
      replicate 6 (.thread false) ++ [.fire 1, .handler 0, .handler 0] ++
      replicate 8 (.thread false))) :=
  timeout_kept _ (by decide)

end FinsStack.Arp.Interrupt
