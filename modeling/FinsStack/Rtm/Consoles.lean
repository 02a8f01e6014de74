import FinsStack.Lib.Run

/-!
# The consoles of the run-time manager

`rtm.c`.

`accept_console` puts the descriptor of a new console into the first free slot of
`console_fds`, and `console_to_rtm` clears the slot of a console that is gone.  It polls as
many slots as `console_list` is long, from the first one on: a console behind a free slot can
be outside of them, and is not read until another one fills the gap.
-/

namespace FinsStack.Rtm

open List Lib

def MAX_CONSOLES : Nat := 20

structure RtmConsole where
  id : UInt32
  fd : Int
deriving DecidableEq, Repr

structure RtmData where
  consoleCounter : UInt32 := 0
  consoleList : List RtmConsole := []
  consoleFds : List Int := replicate MAX_CONSOLES 0
deriving DecidableEq, Repr

def fillSlot (fd : Int) : List Int → List Int
  | [] => []
  | x :: xs => if x = 0 then fd :: xs else x :: fillSlot fd xs

def acceptConsole (md : RtmData) (fd : Int) : RtmData :=
  if md.consoleList.length < MAX_CONSOLES then
    { consoleCounter := md.consoleCounter + 1
      consoleList := md.consoleList ++ [⟨md.consoleCounter, fd⟩]
      consoleFds := fillSlot fd md.consoleFds }
  else md

/-- `console_to_rtm` on `POLLERR`, `POLLNVAL` or `POLLHUP` of slot `i`.  It looks at the
    `revents` of every slot, polled or not; a slot in use is as it was when the poll began. -/
def consoleGone (md : RtmData) (i : Nat) : RtmData :=
  match md.consoleFds[i]? with
  | some fd =>
    if 0 < fd then
      match md.consoleList.find? (fun console => console.fd == fd) with
      | some console =>
        { md with
          consoleList := md.consoleList.erase console, consoleFds := md.consoleFds.set i 0 }
      | none => md
    else md
  | none => md

/-- The descriptors that the next `poll` looks at; a free slot is passed as `-1`. -/
def pollFds (md : RtmData) : List Int :=
  (md.consoleFds.take md.consoleList.length).map fun fd => if fd = 0 then -1 else fd

inductive ConsoleEvent where
  | connect (fd : Int)
  | gone (slot : Nat)
deriving DecidableEq, Repr

/-- `accept` returns a descriptor that is positive and not in use. -/
def step (md : RtmData) : ConsoleEvent → RtmData
  | .connect fd =>
    if 0 < fd ∧ ∀ console ∈ md.consoleList, console.fd ≠ fd then acceptConsole md fd else md
  | .gone i => consoleGone md i

/-- **The service.**  List and slots correspond by descriptor, and every console is polled. -/
structure Served (md : RtmData) : Prop where
  nodup : (md.consoleList.map RtmConsole.fd).Nodup
  slots : (md.consoleFds.filter (· ≠ 0)).Perm (md.consoleList.map RtmConsole.fd)
  polled : ∀ console ∈ md.consoleList, console.fd ∈ pollFds md

def ConsoleEvent.slot : ConsoleEvent → Option Nat
  | .connect _ => none
  | .gone i => some i

/-- **When it works**: no console in a later slot outlives the one that is gone. -/
def LastGone (md : RtmData) (e : ConsoleEvent) : Prop :=
  ∀ i ∈ e.slot, ∀ fd ∈ md.consoleFds.drop (i + 1), fd = 0
deriving Decidable

/-! ### No gaps -/

structure Packed (md : RtmData) : Prop where
  fds : md.consoleFds = md.consoleList.map RtmConsole.fd ++
    replicate (MAX_CONSOLES - md.consoleList.length) 0
  room : md.consoleList.length ≤ MAX_CONSOLES
  pos : ∀ console ∈ md.consoleList, 0 < console.fd
  nodup : (md.consoleList.map RtmConsole.fd).Nodup

variable {md : RtmData}

theorem Packed.fd_ne_zero (h : Packed md) : ∀ fd ∈ md.consoleList.map RtmConsole.fd, fd ≠ 0 := by
  intro fd hfd
  obtain ⟨console, hmem, rfl⟩ := mem_map.mp hfd
  exact Int.ne_of_gt (h.pos console hmem)

theorem Packed.served (h : Packed md) : Served md := by
  have hne := h.fd_ne_zero
  refine ⟨h.nodup, ?_, ?_⟩
  · rw [h.fds, filter_append, filter_eq_self.mpr (by simpa using hne),
      filter_eq_nil_iff.mpr (by simp), append_nil]
  · intro console hmem
    have hfd := mem_map_of_mem (f := RtmConsole.fd) hmem
    have htake : md.consoleFds.take md.consoleList.length = md.consoleList.map RtmConsole.fd := by
      rw [h.fds]
      exact take_left' (length_map _)
    unfold pollFds
    rw [htake]
    exact mem_map.mpr ⟨console.fd, hfd, if_neg (hne _ hfd)⟩

theorem fillSlot_append {fd : Int} {l : List Int} (hl : ∀ x ∈ l, x ≠ 0) (r : List Int) :
    fillSlot fd (l ++ 0 :: r) = l ++ fd :: r := by
  induction l with
  | nil => rfl
  | cons x l ih =>
    rw [cons_append, fillSlot, if_neg (hl x (mem_cons_self ..)),
      ih fun y hy => hl y (mem_cons_of_mem _ hy)]
    rfl

theorem Packed.connect (h : Packed md) {fd : Int} (hpos : 0 < fd)
    (hnew : ∀ console ∈ md.consoleList, console.fd ≠ fd) : Packed (acceptConsole md fd) := by
  unfold acceptConsole
  split
  · rename_i hroom
    obtain ⟨k, hk⟩ := Nat.exists_eq_add_of_lt hroom
    have hfree : MAX_CONSOLES - md.consoleList.length = k + 1 := by omega
    have hleft : MAX_CONSOLES - (md.consoleList.length + 1) = k := by omega
    refine ⟨?_, ?_, ?_, ?_⟩
    · show fillSlot fd md.consoleFds = _
      rw [h.fds, hfree, replicate_succ, fillSlot_append h.fd_ne_zero]
      simp [hleft]
    · rw [length_append]
      exact hroom
    · exact forall_mem_concat h.pos hpos
    · rw [map_append]
      refine nodup_append.mpr ⟨h.nodup, pairwise_singleton _ _, ?_⟩
      intro x hx y hy
      obtain ⟨console, hmem, rfl⟩ := mem_map.mp hx
      rw [mem_singleton.mp hy]
      exact hnew console hmem
  · exact h

theorem Packed.last_slot (h : Packed md) {i : Nat} {fd : Int} (hi : md.consoleFds[i]? = some fd)
    (hfd : 0 < fd) (hlast : ∀ x ∈ md.consoleFds.drop (i + 1), x = 0) :
    ∃ init console, md.consoleList = init ++ [console] ∧ console.fd = fd ∧ i = init.length := by
  rw [h.fds] at hi hlast
  obtain hnil | ⟨init, console, hc⟩ := eq_nil_or_concat md.consoleList
  · rw [hnil, map_nil, nil_append] at hi
    have hzero := eq_of_mem_replicate (mem_of_getElem? hi)
    omega
  · rw [concat_eq_append] at hc
    have hpos := h.pos console (by rw [hc]; simp)
    have hlen : (init.map RtmConsole.fd).length = init.length := length_map _
    refine ⟨init, console, hc, ?_⟩
    rw [hc, map_append, append_assoc] at hi hlast
    rcases Nat.lt_trichotomy i init.length with hlt | rfl | hgt
    · -- the last console would be left behind
      have hmem : console.fd ∈ ([console].map RtmConsole.fd ++
          replicate (MAX_CONSOLES - (init ++ [console]).length) 0) := mem_cons_self ..
      rw [drop_append_of_le_length (by omega)] at hlast
      have hzero := hlast console.fd (mem_append_right _ hmem)
      omega
    · rw [getElem?_append_right (by omega), hlen, Nat.sub_self] at hi
      exact ⟨Option.some.inj hi, rfl⟩
    · obtain ⟨j, rfl⟩ := Nat.exists_eq_add_of_lt hgt
      have hj : init.length + j + 1 - (init.map RtmConsole.fd).length = j + 1 := by omega
      rw [getElem?_append_right (by omega), hj] at hi
      have hfree : (replicate (MAX_CONSOLES - (init ++ [console]).length) (0 : Int))[j]? =
          some fd := hi
      have hzero := eq_of_mem_replicate (mem_of_getElem? hfree)
      omega

theorem Packed.gone (h : Packed md) {i : Nat} (hlast : ∀ x ∈ md.consoleFds.drop (i + 1), x = 0) :
    Packed (consoleGone md i) := by
  unfold consoleGone
  split
  · rename_i fd hi
    split
    · rename_i hfd
      obtain ⟨init, console, hc, rfl, rfl⟩ := h.last_slot hi hfd hlast
      have hnodup := h.nodup
      rw [hc, map_append, nodup_append] at hnodup
      have hother : ∀ x ∈ init, x.fd ≠ console.fd := fun x hx =>
        hnodup.2.2 x.fd (mem_map_of_mem hx) console.fd (mem_singleton_self _)
      have hfind : md.consoleList.find? (fun x => x.fd == console.fd) = some console := by
        rw [hc, find?_append, find?_eq_none.mpr (by simpa using hother)]
        simp
      have herase : md.consoleList.erase console = init := by
        rw [hc, erase_append_right _ fun hmem => hother console hmem rfl]
        simp
      have hroom := h.room
      rw [hc, length_append, length_singleton] at hroom
      have hfree : MAX_CONSOLES - init.length = MAX_CONSOLES - (init.length + 1) + 1 := by omega
      rw [hfind]
      refine ⟨?_, ?_, ?_, ?_⟩ <;> simp only [herase]
      · rw [h.fds, hc, hfree, replicate_succ]
        simp
      · omega
      · exact fun x hx => h.pos x (by rw [hc]; exact mem_append_left _ hx)
      · exact hnodup.1
    · exact h
  · exact h

theorem Packed.next (h : Packed md) (e : ConsoleEvent) (he : LastGone md e) :
    Packed (step md e) := by
  cases e with
  | connect fd =>
    simp only [step]
    split
    · rename_i hfd
      exact h.connect hfd.1 hfd.2
    · exact h
  | gone i => exact h.gone (he i rfl)

/-- **Every console is polled**, in every run in which only the last console goes. -/
theorem consoles_served {es : List ConsoleEvent} (hes : Steps step LastGone {} es) :
    Served (run step {} es) := by
  have hstart : Packed {} := ⟨rfl, Nat.zero_le _, forall_mem_nil _, nodup_nil⟩
  exact (run_invariant_of_steps (I := Packed) (fun _ e h => h.next e) hstart hes).served

/-- Two consoles come, the second one goes, and a third takes its slot. -/
theorem consoles_served_third :
    let md := run step {} [.connect 5, .connect 6, .gone 1, .connect 7]
    pollFds md = [5, 7] ∧ Served md :=
  ⟨by decide, consoles_served (by decide)⟩

/-- Two consoles come and the first one goes: the second one is not polled. -/
theorem console_unread :
    let md := run step {} [.connect 5, .connect 6, .gone 0]
    md.consoleList = [⟨1, 6⟩] ∧ pollFds md = [-1] ∧ ¬ Served md := by
  refine ⟨by decide, by decide, fun h => ?_⟩
  exact absurd (h.polled ⟨1, 6⟩ (by decide)) (by decide)

end FinsStack.Rtm
