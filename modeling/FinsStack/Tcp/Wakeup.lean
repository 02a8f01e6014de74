import FinsStack.Lib.Run

/-!
# Sleeping and waking the main thread

`tcp/tcp.c`, `common/finstime.c`.

The main thread of a connection tests its three timer flags, then sets `main_waiting` and goes
to sleep on `main_wait_sem`.  The handlers of the retransmission timer and of the
delayed-acknowledgment timer set their flag and post the semaphore only when they see
`main_waiting`; the handler of a request's timer always posts.  Here every statement is a step
of its own, and any number of handlers run next to the main thread.  The state functions
(`tcp_main_established` and so on) are any sequence of statements that clear flags and say
whether there is a reason to wait.

A handler that runs after its flag was tested and before `main_waiting` is set leaves a flag
that nobody wakes the main thread for (`wakeup_lost`).  `no_wakeup_lost` says that this is the
only way.
-/

namespace FinsStack.Tcp.Wakeup

open Lib

inductive SemTimer where
  | gbn | delayed
deriving DecidableEq, Repr

inductive WakeFlag where
  | requestInterrupt
  | timer (t : SemTimer)
deriving DecidableEq, Repr

inductive MainPc where
  /-- `sem_wait(&conn->sem)`, before the loop and at its end. -/
  | lock
  | loop
  | body
  | testWait | testInterrupt | testGbn | testDelayed
  | clearWait | setWaiting
  | unlock
  | sleep
  | elseUnlock
  | exit
deriving DecidableEq, Repr

inductive SemPc where
  | setFlag | testWaiting | clearWaiting | post
deriving DecidableEq, Repr

inductive IntsemPc where
  | setInterrupt | setFlag | post
deriving DecidableEq, Repr

inductive ShutdownPc where
  | clearRunning | post
deriving DecidableEq, Repr

inductive Aside where
  | sem (t : SemTimer) (pc : SemPc)
  | intsem (pc : IntsemPc)
  | shutdown (pc : ShutdownPc)
deriving DecidableEq, Repr

/-- The `switch_to_tcp` thread, as far as this connection is concerned. -/
inductive SwitchPc where
  | away
  | inside
  | clearWaiting
  | post
deriving DecidableEq, Repr

structure Wake where
  pc : MainPc
  connSem : Bool
  runningFlag : Bool
  mainWaitFlag : Bool
  mainWaiting : Bool
  mainWaitSem : Nat
  flags : WakeFlag → Bool
  asides : List Aside
  switch : SwitchPc

def initial : Wake where
  pc := .lock
  connSem := true
  runningFlag := true
  mainWaitFlag := false
  mainWaiting := false
  mainWaitSem := 0
  flags := fun _ => false
  asides := []
  switch := .away

def Wake.setFlag (s : Wake) (f : WakeFlag) (b : Bool) : Wake :=
  { s with flags := fun g => if g = f then b else s.flags g }

def tcpMainThread (s : Wake) : Wake :=
  match s.pc with
  | .lock => if s.connSem then { s with connSem := false, pc := .loop } else s
  | .loop => if s.runningFlag then { s with pc := .body } else { s with pc := .exit }
  | .body => s
  | .testWait =>
    if s.mainWaitFlag then { s with pc := .testInterrupt } else { s with pc := .elseUnlock }
  | .testInterrupt =>
    if s.flags .requestInterrupt then { s with pc := .elseUnlock } else { s with pc := .testGbn }
  | .testGbn =>
    if s.flags (.timer .gbn) then { s with pc := .elseUnlock } else { s with pc := .testDelayed }
  | .testDelayed =>
    if s.flags (.timer .delayed) then { s with pc := .elseUnlock } else { s with pc := .clearWait }
  | .clearWait => { s with mainWaitFlag := false, pc := .setWaiting }
  | .setWaiting => { s with mainWaiting := true, pc := .unlock }
  | .unlock => { s with connSem := true, pc := .sleep }
  | .sleep =>
    if 0 < s.mainWaitSem then { s with mainWaitSem := s.mainWaitSem - 1, pc := .lock } else s
  | .elseUnlock => { s with connSem := true, pc := .lock }
  | .exit => s

inductive BodyStmt where
  | clearFlag (f : WakeFlag)
  | setWaitFlag (b : Bool)
  | done
deriving DecidableEq, Repr

def bodyStmt (s : Wake) : BodyStmt → Wake
  | .clearFlag f => s.setFlag f false
  | .setWaitFlag b => { s with mainWaitFlag := b }
  | .done => { s with pc := .testWait }

def Aside.stmt (s : Wake) : Aside → Wake × Option Aside
  | .sem t .setFlag => (s.setFlag (.timer t) true, some (.sem t .testWaiting))
  | .sem t .testWaiting => if s.mainWaiting then (s, some (.sem t .clearWaiting)) else (s, none)
  | .sem t .clearWaiting => ({ s with mainWaiting := false }, some (.sem t .post))
  | .sem _ .post => ({ s with mainWaitSem := s.mainWaitSem + 1 }, none)
  | .intsem .setInterrupt => (s.setFlag .requestInterrupt true, some (.intsem .setFlag))
  | .intsem .setFlag => (s, some (.intsem .post))
  | .intsem .post => ({ s with mainWaitSem := s.mainWaitSem + 1 }, none)
  | .shutdown .clearRunning => ({ s with runningFlag := false }, some (.shutdown .post))
  | .shutdown .post => ({ s with mainWaitSem := s.mainWaitSem + 1 }, none)

def stepAside (s : Wake) (i : Nat) : Wake :=
  match s.asides[i]? with
  | none => s
  | some a =>
    let r := a.stmt s
    { r.1 with asides := s.asides.eraseIdx i ++ r.2.toList }

inductive SwitchStmt where
  | lock
  | testWaiting
  | clearFlag (f : WakeFlag)
  | next
  | unlock
deriving DecidableEq, Repr

def switchStmt (s : Wake) : SwitchStmt → Wake
  | .lock =>
    if s.switch = .away ∧ s.connSem = true then { s with connSem := false, switch := .inside }
    else s
  | .testWaiting =>
    if s.switch = .inside ∧ s.mainWaiting = true then { s with switch := .clearWaiting } else s
  | .clearFlag f => if s.switch = .inside then s.setFlag f false else s
  | .next =>
    match s.switch with
    | .clearWaiting => { s with mainWaiting := false, switch := .post }
    | .post => { s with mainWaitSem := s.mainWaitSem + 1, switch := .inside }
    | _ => s
  | .unlock => if s.switch = .inside then { s with connSem := true, switch := .away } else s

inductive WakeEvent where
  | main
  | body (stmt : BodyStmt)
  | expire (f : WakeFlag)
  /-- Someone calls `tcp_conn_shutdown`: the main thread itself, the `switch_to_tcp` thread, or
      the main thread of a listening connection that ends. -/
  | stop
  | aside (i : Nat)
  | switch (stmt : SwitchStmt)
deriving DecidableEq, Repr

def handlerOf : WakeFlag → Aside
  | .requestInterrupt => .intsem .setInterrupt
  | .timer t => .sem t .setFlag

def stepWake (s : Wake) : WakeEvent → Wake
  | .main => tcpMainThread s
  | .body stmt => if s.pc = .body then bodyStmt s stmt else s
  | .expire f => { s with asides := s.asides ++ [handlerOf f] }
  | .stop => { s with asides := s.asides ++ [.shutdown .clearRunning] }
  | .aside i => stepAside s i
  | .switch stmt => switchStmt s stmt

abbrev runWake (s : Wake) (es : List WakeEvent) : Wake := run stepWake s es

/-! ### What is to be shown -/

/-- The function will post `main_wait_sem` whatever the others do. -/
def Aside.willPost : Aside → Bool
  | .sem _ .clearWaiting | .sem _ .post => true
  | .intsem .setFlag | .intsem .post => true
  | .shutdown .post => true
  | _ => false

def SwitchPc.willPost : SwitchPc → Bool
  | .clearWaiting | .post => true
  | _ => false

def Aside.testsWaiting : Aside → Bool
  | .sem _ .testWaiting => true
  | _ => false

/-- A step that can be taken leads to a post of `main_wait_sem`. -/
def AboutToPost (s : Wake) : Prop :=
  s.switch.willPost = true ∨
    ∃ a ∈ s.asides, a.willPost = true ∨ (a.testsWaiting = true ∧ s.mainWaiting = true)
deriving Decidable

def SleepsDue (s : Wake) : Prop :=
  s.pc = .sleep ∧ s.mainWaitSem = 0 ∧ ∃ f, s.flags f = true

/-- The main thread has found the flag clear and has not yet set `main_waiting`. -/
def MainPc.inWindow : MainPc → SemTimer → Bool
  | .testDelayed, .gbn => true
  | .clearWait, _ | .setWaiting, _ => true
  | _, _ => false

/-- The handler finds `main_waiting` clear in the window of its flag. -/
def looksInWindow (s : Wake) : WakeEvent → Bool
  | .aside i =>
    match s.asides[i]? with
    | some (.sem t .testWaiting) => !s.mainWaiting && s.pc.inWindow t
    | _ => false
  | _ => false

def Prompt (s : Wake) (e : WakeEvent) : Prop := looksInWindow s e = false
deriving Decidable

/-! ### The invariant -/

def Coming (s : Wake) : Prop :=
  0 < s.mainWaitSem ∨ s.switch.willPost = true ∨ ∃ a ∈ s.asides, a.willPost = true

def MainPc.pastTest : MainPc → WakeFlag → Bool
  | .testGbn, .requestInterrupt => true
  | .testDelayed, .requestInterrupt | .testDelayed, .timer .gbn => true
  | .clearWait, _ | .setWaiting, _ | .unlock, _ | .sleep, _ => true
  | _, _ => false

def Looking (s : Wake) : WakeFlag → Prop
  | .requestInterrupt => False
  | .timer t => .sem t .testWaiting ∈ s.asides

structure Rung (s : Wake) : Prop where
  /-- `main_waiting` is cleared by those only who will post. -/
  waiting : s.pc = .unlock ∨ s.pc = .sleep → s.mainWaiting = true ∨ Coming s
  /-- A flag that was set after its test comes with a post. -/
  flagged : ∀ f, s.pc.pastTest f = true → s.flags f = true → Looking s f ∨ Coming s

variable {s s' : Wake}

theorem Rung.outside (h : ∀ f, s.pc.pastTest f = false) : Rung s where
  waiting := by
    intro hpc
    have hnot := h .requestInterrupt
    rcases hpc with hpc | hpc <;> simp [hpc, MainPc.pastTest] at hnot
  flagged := by
    intro f hpast
    simp [h f] at hpast

theorem Rung.moved (h : Rung s) (hflags : s'.flags = s.flags) (hasides : s'.asides = s.asides)
    (hswitch : s'.switch = s.switch) (hsem : s'.mainWaitSem = s.mainWaitSem)
    (hpast : ∀ f, s'.pc.pastTest f → s.flags f → s.pc.pastTest f)
    (hwaiting : s'.pc = .unlock ∨ s'.pc = .sleep → s'.mainWaiting ∨ Coming s) :
    Rung s' := by
  have hcoming : Coming s' ↔ Coming s := by simp only [Coming, hsem, hswitch, hasides]
  constructor
  · intro hpc
    rw [hcoming]
    exact hwaiting hpc
  · intro f hpast' hf
    rw [hflags] at hf
    have hrung := h.flagged f (hpast f hpast' hf) hf
    rw [hcoming]
    cases f with
    | requestInterrupt => exact hrung
    | timer t => simpa only [Looking, hasides] using hrung

theorem Rung.initially : Rung initial := by
  apply Rung.outside
  intro f
  rfl

theorem Rung.tested (h : Rung s) {f : WakeFlag} {pc : MainPc}
    (hpast : ∀ g, pc.pastTest g → g = f ∨ s.pc.pastTest g)
    (hpc : pc ≠ .unlock ∧ pc ≠ .sleep) :
    Rung (if s.flags f then { s with pc := .elseUnlock } else { s with pc := pc }) := by
  split
  · exact .outside fun _ => rfl
  · rename_i hset
    refine h.moved rfl rfl rfl rfl (fun g hg hflag => ?_) (by simp [hpc])
    rcases hpast g hg with rfl | hold
    · exact absurd hflag hset
    · exact hold

theorem Rung.main (h : Rung s) : Rung (tcpMainThread s) := by
  cases hpc : s.pc <;> simp only [tcpMainThread, hpc]
  case body | exit => exact h
  case elseUnlock => exact .outside fun _ => rfl
  case lock | sleep =>
    split
    · exact .outside fun _ => rfl
    · exact h
  case loop | testWait => split <;> exact .outside fun _ => rfl
  case testInterrupt | testGbn | testDelayed =>
    refine h.tested ?_ (by simp)
    rw [hpc]
    rintro (_ | _ | _) <;> simp [MainPc.pastTest]
  case clearWait =>
    exact h.moved rfl rfl rfl rfl (by simp [hpc, MainPc.pastTest]) (by simp)
  case setWaiting =>
    exact h.moved rfl rfl rfl rfl (by simp [hpc, MainPc.pastTest]) fun _ => .inl rfl
  case unlock =>
    exact h.moved rfl rfl rfl rfl (by simp [hpc, MainPc.pastTest]) fun _ => h.waiting (.inl hpc)

theorem Rung.clearFlag (h : Rung s) (g : WakeFlag) : Rung (s.setFlag g false) where
  waiting := h.waiting
  flagged := by
    intro f hpast hf
    have hold : s.flags f := by
      by_cases hfg : f = g
      · simp [Wake.setFlag, hfg] at hf
      · simpa [Wake.setFlag, hfg] using hf
    cases f with
    | requestInterrupt | timer t => exact h.flagged _ hpast hold

theorem Rung.body (h : Rung s) (hpc : s.pc = .body) (stmt : BodyStmt) : Rung (bodyStmt s stmt) := by
  cases stmt with
  | clearFlag f => exact h.clearFlag f
  | setWaitFlag b =>
    apply Rung.outside
    simp [bodyStmt, hpc, MainPc.pastTest]
  | done =>
    apply Rung.outside
    simp [bodyStmt, MainPc.pastTest]

theorem Rung.spawn (h : Rung s) (a : Aside) : Rung { s with asides := s.asides ++ [a] } := by
  have hcoming : Coming s → Coming { s with asides := s.asides ++ [a] } := by
    rintro (hsem | hswitch | ⟨b, hb, hpost⟩)
    · exact .inl hsem
    · exact .inr (.inl hswitch)
    · exact .inr (.inr ⟨b, List.mem_append_left _ hb, hpost⟩)
  constructor
  · intro hpc
    exact (h.waiting hpc).imp id hcoming
  · intro f hpast hf
    refine (h.flagged f hpast hf).imp ?_ hcoming
    cases f with
    | requestInterrupt => exact id
    | timer t => exact fun hlook => List.mem_append_left _ hlook

/-! ### The functions aside -/

theorem mem_eraseIdx_of_ne {α : Type*} {l : List α} {i : Nat} {a b : α} (ha : l[i]? = some a)
    (hb : b ∈ l) (hne : b ≠ a) : b ∈ l.eraseIdx i := by
  obtain ⟨j, hj⟩ := List.mem_iff_getElem?.mp hb
  refine List.mem_eraseIdx_iff_getElem?.mpr ⟨j, ?_, hj⟩
  rintro rfl
  rw [ha] at hj
  exact hne (Option.some.inj hj).symm

theorem stmt_pc (s : Wake) (a : Aside) : (a.stmt s).1.pc = s.pc := by
  fun_cases Aside.stmt s a <;> rfl

theorem stmt_switch (s : Wake) (a : Aside) : (a.stmt s).1.switch = s.switch := by
  fun_cases Aside.stmt s a <;> rfl

theorem stmt_sem (s : Wake) (a : Aside) : s.mainWaitSem ≤ (a.stmt s).1.mainWaitSem := by
  fun_cases Aside.stmt s a <;> simp [Wake.setFlag]

theorem stmt_willPost (s : Wake) {a : Aside} (h : a.willPost) :
    0 < (a.stmt s).1.mainWaitSem ∨ ∃ b ∈ (a.stmt s).2, b.willPost := by
  fun_cases Aside.stmt s a <;> simp_all [Aside.willPost]

theorem Coming.aside (h : Coming s) (i : Nat) : Coming (stepAside s i) := by
  cases ha : s.asides[i]? with
  | none => simpa only [stepAside, ha] using h
  | some a =>
    simp only [stepAside, ha, Coming, stmt_switch]
    rcases h with hsem | hswitch | ⟨b, hb, hpost⟩
    · exact .inl (Nat.lt_of_lt_of_le hsem (stmt_sem s a))
    · exact .inr (.inl hswitch)
    · by_cases hba : b = a
      · subst hba
        rcases stmt_willPost s hpost with hsem | ⟨c, hc, hpost'⟩
        · exact .inl hsem
        · exact .inr (.inr ⟨c, List.mem_append_right _ (by simpa using hc), hpost'⟩)
      · exact .inr (.inr ⟨b, List.mem_append_left _ (mem_eraseIdx_of_ne ha hb hba), hpost⟩)

theorem stmt_mainWaiting {a : Aside} (h : s.mainWaiting) (hpost : a.willPost = false) :
    (a.stmt s).1.mainWaiting = true := by
  fun_cases Aside.stmt s a <;> simp_all [Aside.willPost, Wake.setFlag]

theorem stmt_flags {a : Aside} {f : WakeFlag} (h : (a.stmt s).1.flags f)
    (hold : s.flags f = false) : a = handlerOf f := by
  cases a with
  | sem t pc =>
    cases pc with
    | setFlag =>
      by_cases hf : f = .timer t
      · rw [hf]
        rfl
      · simp [Aside.stmt, Wake.setFlag, hf, hold] at h
    | testWaiting =>
      simp only [Aside.stmt] at h
      split_ifs at h <;> simp [hold] at h
    | clearWaiting | post => simp [Aside.stmt, hold] at h
  | intsem pc =>
    cases pc with
    | setInterrupt =>
      by_cases hf : f = .requestInterrupt
      · rw [hf]
        rfl
      · simp [Aside.stmt, Wake.setFlag, hf, hold] at h
    | setFlag | post => simp [Aside.stmt, hold] at h
  | shutdown pc => cases pc <;> simp [Aside.stmt, hold] at h

/-- Between its test and the sleep every flag is either in its window or `main_waiting` is set. -/
theorem MainPc.sleeping_of_not_inWindow {pc : MainPc} {t : SemTimer}
    (hpast : pc.pastTest (.timer t)) (hwindow : pc.inWindow t = false) :
    pc = .unlock ∨ pc = .sleep := by
  cases pc <;> cases t <;> simp_all [MainPc.pastTest, MainPc.inWindow]

theorem Rung.aside (h : Rung s) {i : Nat} (hprompt : Prompt s (.aside i)) :
    Rung (stepAside s i) := by
  cases ha : s.asides[i]? with
  | none => simpa only [stepAside, ha] using h
  | some a =>
    have hmem : a ∈ s.asides := List.mem_of_getElem? ha
    have hcoming : Coming s → Coming (stepAside s i) := fun hs => hs.aside i
    have hpc : (stepAside s i).pc = s.pc := by simp only [stepAside, ha, stmt_pc]
    constructor
    · rw [hpc]
      intro hsleep
      rcases h.waiting hsleep with hwaiting | hs
      · by_cases hpost : a.willPost
        · exact .inr (hcoming (.inr (.inr ⟨a, hmem, hpost⟩)))
        · simp only [stepAside, ha]
          exact .inl (stmt_mainWaiting hwaiting (Bool.eq_false_iff.mpr hpost))
      · exact .inr (hcoming hs)
    · rw [hpc]
      intro f hpast hf
      by_cases hold : s.flags f
      · rcases h.flagged f hpast hold with hlook | hs
        · cases f with
          | requestInterrupt => exact hlook.elim
          | timer t =>
            by_cases hta : .sem t .testWaiting = a
            · -- the handler looks now: it sees the sleeper, or it is late and others have seen it
              subst hta
              by_cases hwaiting : s.mainWaiting
              · refine .inr (.inr (.inr ⟨.sem t .clearWaiting, ?_, rfl⟩))
                simp [stepAside, ha, Aside.stmt, hwaiting]
              · have hwindow : s.pc.inWindow t = false := by
                  simpa [Prompt, looksInWindow, ha, hwaiting] using hprompt
                have hsleep := MainPc.sleeping_of_not_inWindow hpast hwindow
                exact .inr (hcoming ((h.waiting hsleep).resolve_left hwaiting))
            · refine .inl ?_
              simp only [Looking, stepAside, ha]
              exact List.mem_append_left _ (mem_eraseIdx_of_ne ha hlook hta)
        · exact .inr (hcoming hs)
      · simp only [stepAside, ha] at hf
        obtain rfl := stmt_flags hf (Bool.eq_false_iff.mpr hold)
        cases f with
        | requestInterrupt =>
          refine .inr (.inr (.inr ⟨.intsem .setFlag, ?_, rfl⟩))
          simp [stepAside, ha, handlerOf, Aside.stmt]
        | timer t =>
          refine .inl ?_
          simp [Looking, stepAside, ha, handlerOf, Aside.stmt]

/-! ### The `switch_to_tcp` thread -/

theorem Rung.switched (h : Rung s) (hpc : s'.pc = s.pc) (hflags : s'.flags = s.flags)
    (hasides : s'.asides = s.asides) (hcoming : Coming s → Coming s')
    (hwaiting : s.mainWaiting → s'.mainWaiting ∨ Coming s') : Rung s' := by
  constructor
  · rw [hpc]
    intro hsleep
    rcases h.waiting hsleep with hw | hs
    · exact hwaiting hw
    · exact .inr (hcoming hs)
  · rw [hpc, hflags]
    intro f hpast hf
    refine (h.flagged f hpast hf).imp ?_ hcoming
    cases f with
    | requestInterrupt => exact id
    | timer t =>
      simp only [Looking, hasides]
      exact id

theorem Rung.switch (h : Rung s) (stmt : SwitchStmt) : Rung (switchStmt s stmt) := by
  cases stmt <;> simp only [switchStmt]
  case lock =>
    split
    · rename_i hfree
      refine h.switched rfl rfl rfl ?_ .inl
      simp [Coming, hfree.1, SwitchPc.willPost]
    · exact h
  case testWaiting =>
    split
    · rename_i hsees
      exact h.switched rfl rfl rfl (fun _ => .inr (.inl rfl)) fun _ => .inl hsees.2
    · exact h
  case clearFlag f =>
    split
    · exact h.clearFlag f
    · exact h
  case next =>
    split
    · exact h.switched rfl rfl rfl (fun _ => .inr (.inl rfl)) fun _ => .inr (.inr (.inl rfl))
    · exact h.switched rfl rfl rfl (fun _ => .inl (Nat.succ_pos _)) .inl
    · exact h
  case unlock =>
    split
    · rename_i hinside
      refine h.switched rfl rfl rfl ?_ .inl
      simp [Coming, hinside, SwitchPc.willPost]
    · exact h

/-! ### Runs -/

theorem Rung.step (h : Rung s) {e : WakeEvent} (hprompt : Prompt s e) : Rung (stepWake s e) := by
  cases e with
  | main => exact h.main
  | body stmt =>
    by_cases hpc : s.pc = .body
    · simpa only [stepWake, hpc, if_true] using h.body hpc stmt
    · simpa only [stepWake, hpc, if_false] using h
  | expire f => exact h.spawn (handlerOf f)
  | stop => exact h.spawn (.shutdown .clearRunning)
  | aside i => exact h.aside hprompt
  | switch stmt => exact h.switch stmt

theorem Rung.aboutToPost (h : Rung s) (hdue : SleepsDue s) : AboutToPost s := by
  obtain ⟨hpc, hsem, f, hf⟩ := hdue
  have hcoming : Coming s → AboutToPost s := by
    rintro (hpos | hswitch | ⟨a, ha, hpost⟩)
    · omega
    · exact .inl hswitch
    · exact .inr ⟨a, ha, .inl hpost⟩
  rcases h.flagged f (by simp [hpc, MainPc.pastTest]) hf with hlook | hs
  · cases f with
    | requestInterrupt => exact hlook.elim
    | timer t =>
      rcases h.waiting (.inr hpc) with hwaiting | hs
      · exact .inr ⟨_, hlook, .inr ⟨rfl, hwaiting⟩⟩
      · exact hcoming hs
  · exact hcoming hs

/-- **No wakeup is lost outside the window** between the test of the flag and the store to
    `main_waiting`. -/
theorem no_wakeup_lost {es : List WakeEvent} (hes : Steps stepWake Prompt initial es) :
    SleepsDue (runWake initial es) → AboutToPost (runWake initial es) := by
  have h : Rung (runWake initial es) :=
    run_invariant_of_steps (fun s e hs hp => hs.step hp) Rung.initially hes
  exact h.aboutToPost

/-- The state function finds nothing to do and the main thread goes as far as to clear
    `main_wait_flag`. -/
def towardsSleep : List WakeEvent :=
  [.main, .main, .body (.setWaitFlag true), .body .done, .main, .main, .main, .main]

/-- The delayed-acknowledgment timer runs out while the main thread sleeps. -/
theorem no_wakeup_lost_delayed :
    let es := towardsSleep ++ [.main, .main, .main, .expire (.timer .delayed), .aside 0]
    Steps stepWake Prompt initial es ∧ SleepsDue (runWake initial es) ∧
      AboutToPost (runWake initial es) := by
  intro es
  have hes : Steps stepWake Prompt initial es := by decide
  have hdue : SleepsDue (runWake initial es) := ⟨by decide, by decide, .timer .delayed, by decide⟩
  exact ⟨hes, hdue, no_wakeup_lost hes hdue⟩

/-- It runs out after the flags were tested and before `main_waiting` is set. -/
theorem wakeup_lost :
    let s := runWake initial
      (towardsSleep ++ [.expire (.timer .delayed), .aside 0, .aside 0, .main, .main, .main])
    SleepsDue s ∧ ¬ AboutToPost s ∧ s.asides = [] ∧ s.switch = .away := by
  refine ⟨⟨by decide, by decide, .timer .delayed, by decide⟩, by decide, by decide, by decide⟩

end FinsStack.Tcp.Wakeup
