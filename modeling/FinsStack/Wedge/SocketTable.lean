import FinsStack.Wedge.Books

/-!
# `wedge_sockets_sem` excludes

`execs/wedge/fins_stack_wedge.c`.

`wedge_sockets_remove` gives the semaphore back to look for a call that is counted on the
socket, and when it finds none it goes on *without* taking the semaphore again.  Its caller
gives the semaphore back once more, and two threads can be past it.  This does not happen as
long as each thread that is counted has a slot of `wedge_calls` that can be found, or holds the
lock of the sock, which the removing thread holds itself: each statement of each call keeps the
books of the wedge in order (`step_sound`).

One slot cannot be found: the one of the call with number `0xFFFFFFFF`, which is the mark of a
free slot.  `call_count` reaches it after `0xFFFFFFFF` calls.  And a socket can be mistaken for
another whose sock has the same low 32 bits of its address (`collides`).
-/

namespace FinsStack.Wedge.Threads

open List Function FinsStack.Lib

/-! ### The role of a thread -/

/-- Between `down_interruptible(&wedge_sockets_sem)` and `up(&wedge_sockets_sem)` in the text.
    A thread at `noneUp` goes on as if it had taken the semaphore. -/
def CallPc.inSockets : CallPc → Bool
  | .enter | .lockNew _ | .enterNew _ | .enterUp | .refuseUp | .clearNew | .clearUp | .leave
  | .endUp | .scan _ | .scanUp _ _ | .noneUp _ | .remove | .removeUp => true
  | _ => false

/-- Between `down_interruptible(&wedge_calls_sem)` and `up(&wedge_calls_sem)`. -/
def CallPc.inCalls : CallPc → Bool
  | .insert | .insertUp | .fullUp | .find _ _ | .foundUp _ _ _ _ | .noneUp _ => true
  | _ => false

/-- Between `threads[call_type]++` and `threads[call_type]--`. -/
def CallPc.counted : CallPc → Bool
  | .lock | .enterDown | .enter | .lockNew _ | .enterNew _ | .refuseUp | .refuse | .endUp
  | .endUnlockNew | .endUnlock | .removeUp | .destroyed | .done => false
  | _ => true

/-- Between `wedge_calls_insert` and `call_id = -1`. -/
def CallPc.listed : CallPc → Bool
  | .insertUp | .send | .abandon | .unlockNew | .unlock | .wait | .relock | .relockNew | .look
  | .readRet | .readMsg | .readLen | .readBuf | .clearDown | .clearNew | .clearUp | .free
  | .gone => true
  | _ => false

/-- At `wedge_sockets_find` or `wedge_calls_find`. -/
def CallPc.searches : CallPc → Bool
  | .enter | .find _ _ => true
  | _ => false

/-- `fins_accept` has found its socket and is not yet counted there. -/
def CallPc.aims : CallPc → Bool
  | .lockNew _ | .enterNew _ => true
  | _ => false

/-- In the loops of `wedge_sockets_remove`. -/
def CallPc.known : CallPc → Option (List CallType × Option CallType)
  | .scan rest | .noneUp rest => some (rest, none)
  | .scanUp t rest | .findDown t rest | .find t rest => some (t :: rest, some t)
  | .foundUp t rest _ _ | .wake t rest _ _ | .scanDown t rest => some (t :: rest, none)
  | .remove => some ([], none)
  | _ => none

def Call.held (c : Call) : List Sock :=
  match c.pc with
  | .lock | .destroyed | .done | .gone => []
  | .wait | .relock => if c.type = .socket then [c.sk] else []
  | .enterNew _ | .unlockNew | .endUnlockNew => [c.skNew, c.sk]
  | .enterUp | .insertDown | .insert | .insertUp | .fullUp | .send | .look | .readRet | .readMsg
  | .readLen | .readBuf | .clearDown | .clearNew | .clearUp | .free | .endDown | .leave | .endUp =>
    if c.type = .accept then [c.skNew, c.sk] else [c.sk]
  | _ => [c.sk]

def Call.role (c : Call) : Role where
  inSockets := c.pc.inSockets
  inCalls := c.pc.inCalls
  held := c.held
  place := if c.pc.counted then some ⟨c.sockIndex, c.type, c.sk⟩ else none
  entry := if c.pc.listed then some c.callIndex else none
  aim := if c.pc.aims then some (c.sockIndex, c.sk) else none
  known := c.pc.known

/-- `nl_data_ready` uses the semaphores only. -/
def visitor (inSockets inCalls : Bool) : Role := ⟨inSockets, inCalls, [], none, none, none, none⟩

def ReplyPc.inCalls : ReplyPc → Bool
  | .down | .done => false
  | _ => true

def Thread.role : Thread → Role
  | .idle => visitor false false
  | .call c => c.role
  | .reply _ pc => visitor false pc.inCalls
  | .event pc => visitor (pc == .up) false

variable {c : Call}

theorem Call.role_place {l : Place} (hl : c.role.place = some l) :
    c.pc.counted = true ∧ l = ⟨c.sockIndex, c.type, c.sk⟩ := by
  simp only [Call.role] at hl
  split at hl
  · exact ⟨‹_›, (Option.some.inj hl).symm⟩
  · cases hl

theorem Call.role_place_none (hc : c.pc.counted = false) : c.role.place = none := by
  simp only [Call.role, hc, Bool.false_eq_true, ↓reduceIte]

theorem Call.role_entry_none (hn : c.pc.listed = false) : c.role.entry = none := by
  simp only [Call.role, hn, Bool.false_eq_true, ↓reduceIte]

/-- A call that is counted and not listed is between two statements that need the lock. -/
theorem Call.sk_mem_held (hc : c.pc.counted) (hn : c.pc.listed = false) :
    c.sk ∈ c.held := by
  by_cases ht : c.type = .accept <;> cases hpc : c.pc <;>
    simp_all [CallPc.counted, CallPc.listed, Call.held]

theorem Call.role_keeps (c : Call) {l : Place} (hl : c.role.place = some l)
    (he : c.role.entry = none) : l.sk ∈ c.role.held := by
  obtain ⟨hc, rfl⟩ := Call.role_place hl
  refine Call.sk_mem_held hc ?_
  simp only [Call.role] at he
  split at he
  · cases he
  · exact Bool.eq_false_iff.mpr ‹_›

theorem Thread.role_keeps (t : Thread) {l : Place} (hl : t.role.place = some l)
    (he : t.role.entry = none) : l.sk ∈ t.role.held := by
  cases t with
  | call c => exact c.role_keeps hl he
  | idle | reply m pc | event pc => cases hl

/-! ### The books of a state -/

/-- Whom a slot of `wedge_calls` belongs to; `wedge_calls_find` finds it by this. -/
def WedgeCall.user (k : WedgeCall) (i : Nat) : Option Place :=
  if i < MAX_CALLS ∧ k.callId ≠ NO_CALL then some ⟨k.sockIndex, k.callType, k.sk⟩ else none

namespace State

def books (s : State) : Books where
  sockets := s.socketsSem
  calls := s.callsSem
  lockOf := s.locks
  sockAt := fun i => (s.sockets i).sk
  count := fun i => (s.sockets i).threads
  entryAt := fun i => (s.calls i).user i

def roles (s : State) (p : Pid) : Role := (s.threads p).role

def Sound (s : State) : Prop := s.books.Sound s.roles

variable {s : State} {p : Pid} {a t : Thread} {i : Nat}

section

variable (s) (p) (t)

theorem roles_put :
    (s.put p t).roles = update s.roles p t.role :=
  comp_update Thread.role s.threads p t

theorem books_put : (s.put p t).books = s.books := rfl

end

theorem books_setSocket (s : State) (i : Nat) (k : WedgeSocket) :
    (s.setSocket i k).books =
      { s.books with
        sockAt := update s.books.sockAt i k.sk
        count := update s.books.count i k.threads } := by
  simp only [books, setSocket, Books.mk.injEq, true_and, and_true]
  constructor
  · exact comp_update WedgeSocket.sk s.sockets i k
  · exact comp_update WedgeSocket.threads s.sockets i k

theorem books_setSocket_eq {k : WedgeSocket} (hid : k.sk = (s.sockets i).sk)
    (hthreads : k.threads = (s.sockets i).threads) : (s.setSocket i k).books = s.books := by
  have h₁ : update s.books.sockAt i k.sk = s.books.sockAt := by
    rw [hid]
    exact update_eq_self i s.books.sockAt
  have h₂ : update s.books.count i k.threads = s.books.count := by
    rw [hthreads]
    exact update_eq_self i s.books.count
  rw [books_setSocket, h₁, h₂]

theorem books_count (s : State) (i : Nat) (t : CallType) (d : Int) :
    (s.count i t d).books = s.books.bump i t d := by
  have h : update s.books.sockAt i (s.sockets i).sk = s.books.sockAt :=
    update_eq_self i s.books.sockAt
  simp only [count, books_setSocket, h]
  rfl

theorem books_setCall (s : State) (i : Nat) (k : WedgeCall) :
    (s.setCall i k).books =
      { s.books with entryAt := update s.books.entryAt i (k.user i) } := by
  simp only [books, setCall, Books.mk.injEq, true_and]
  funext j
  exact apply_update (fun j k => WedgeCall.user k j) s.calls i k j

theorem books_setCall_eq {k : WedgeCall} (hk : k.user i = (s.calls i).user i) :
    (s.setCall i k).books = s.books := by
  have h : update s.books.entryAt i (k.user i) = s.books.entryAt := by
    rw [hk]
    exact update_eq_self i s.books.entryAt
  rw [books_setCall, h]

/-! ### Statements that change one thread -/

structure Follows (b : Books) (r r' : Role) : Prop where
  held : r'.held.Sublist r.held
  place : r'.place = r.place
  entry : r'.entry = r.entry
  aim : ∀ i x, r'.aim = some (i, x) → b.sockAt i = some x ∧ x ∈ r'.held
  known : ∀ todo pending, r'.known = some (todo, pending) → b.Knows r' todo pending

section

variable (h : s.Sound) (hp : s.threads p = a)
include h hp

theorem Sound.turn {n m : Nat}
    (hn : n + t.role.inSockets.toNat = s.socketsSem + a.role.inSockets.toNat)
    (hm : m + t.role.inCalls.toNat = s.callsSem + a.role.inCalls.toNat)
    (hf : Follows s.books a.role t.role) :
    ({ s with socketsSem := n, callsSem := m }.put p t).Sound := by
  rw [Sound, roles_put]
  exact Books.Sound.turn h (congrArg Thread.role hp) hf.place hf.entry (fun l => t.role_keeps)
    hf.aim hf.known hn hm hf.held

theorem Sound.put (hs : t.role.inSockets = a.role.inSockets) (hc : t.role.inCalls = a.role.inCalls)
    (hf : Follows s.books a.role t.role) : (s.put p t).Sound :=
  h.turn hp (by rw [hs]) (by rw [hc]) hf

theorem Sound.downSockets (ha : a.role.inSockets = false) (ht : t.role.inSockets)
    (hc : t.role.inCalls = a.role.inCalls) (hf : Follows s.books a.role t.role) :
    (s.downSockets p t).Sound := by
  rw [State.downSockets]
  split
  · exact h.turn hp (by rw [ha, ht]; simp only [Bool.toNat_true, Bool.toNat_false]; omega)
      (by rw [hc]) hf
  · exact h

theorem Sound.upSockets (ha : a.role.inSockets)
    (ht : t.role.inSockets = false) (hc : t.role.inCalls = a.role.inCalls)
    (hf : Follows s.books a.role t.role) : (s.upSockets p t).Sound :=
  h.turn hp (by rw [ha, ht]; rfl) (by rw [hc]) hf

theorem Sound.downCalls (ha : a.role.inCalls = false)
    (ht : t.role.inCalls) (hs : t.role.inSockets = a.role.inSockets)
    (hf : Follows s.books a.role t.role) : (s.downCalls p t).Sound := by
  rw [State.downCalls]
  split
  · exact h.turn hp (by rw [hs])
      (by rw [ha, ht]; simp only [Bool.toNat_true, Bool.toNat_false]; omega) hf
  · exact h

theorem Sound.upCalls (ha : a.role.inCalls)
    (ht : t.role.inCalls = false) (hs : t.role.inSockets = a.role.inSockets)
    (hf : Follows s.books a.role t.role) : (s.upCalls p t).Sound :=
  h.turn hp (by rw [hs]) (by rw [ha, ht]; rfl) hf

variable {x : Sock} (hs : t.role.inSockets = a.role.inSockets)
  (hc : t.role.inCalls = a.role.inCalls)
include hs hc

theorem Sound.lockSock (hheld : t.role.held.Sublist (x :: a.role.held))
    (hplace : t.role.place = a.role.place) (hentry : t.role.entry = a.role.entry)
    (haim : ∀ i y, t.role.aim = some (i, y) → s.books.sockAt i = some y ∧ y ∈ t.role.held)
    (hknown : t.role.known = none) : (s.lockSock p x t).Sound := by
  rw [State.lockSock]
  split
  · rename_i hfree
    rw [Sound, roles_put]
    exact Books.Sound.lock h (congrArg Thread.role hp) hplace hentry (fun l => t.role_keeps) haim
      (by simp [hknown]) hs hc hfree hheld
  · exact h

theorem Sound.releaseSock (hx : x ∈ a.role.held) (hheld : t.role.held.Sublist (a.role.held.erase x))
    (hplace : t.role.place = a.role.place) (hentry : t.role.entry = a.role.entry)
    (haim : t.role.aim = none) (hknown : t.role.known = none) : (s.releaseSock p x t).Sound := by
  rw [Sound, State.releaseSock, roles_put]
  exact Books.Sound.unlock h (congrArg Thread.role hp) hplace hentry (fun l => t.role_keeps)
    (by simp [haim]) (by simp [hknown]) hs hc hx hheld

end

variable {c' : Call}

theorem follows_of_none {b : Books} (hheld : c'.held.Sublist c.held)
    (hplace : c'.role.place = c.role.place) (hentry : c'.role.entry = c.role.entry)
    (haim : c'.role.aim = none) (hknown : c'.role.known = none) : Follows b c.role c'.role :=
  ⟨hheld, hplace, hentry, fun _ _ h => absurd (h.symm.trans haim) (Option.some_ne_none _),
    fun _ _ h => absurd (h.symm.trans hknown) (Option.some_ne_none _)⟩

theorem follows_plain {b : Books}
    (h : (c'.held, c'.role.place, c'.role.entry, c'.role.aim, c'.role.known) =
      (c.held, c.role.place, c.role.entry, none, none)) : Follows b c.role c'.role := by
  simp only [Prod.mk.injEq] at h
  exact follows_of_none (h.1 ▸ Sublist.refl _) h.2.1 h.2.2.1 h.2.2.2.1 h.2.2.2.2

theorem Sound.congr {s' : State} (h : s.Sound) (hb : s'.books = s.books)
    (ht : s'.threads = s.threads) : s'.Sound := by
  have hr : s'.roles = s.roles := by
    funext q
    rw [roles, ht, roles]
  rw [Sound, hb, hr]
  exact h

/-! ### The table of sockets -/

/-- Another sock stands in one of the tables under the `sock_id` of `sk`. -/
def idTaken (s : State) (sk : Sock) : Bool :=
  (range MAX_SOCKETS).any (fun i =>
    (s.sockets i).sk.any fun x => x != sk && getUniqueSockId x == getUniqueSockId sk) ||
  (range MAX_CALLS).any fun i =>
    (s.calls i).callId != NO_CALL && (s.calls i).sk != sk &&
      (s.calls i).sockId == getUniqueSockId sk

theorem sk_of_find {sk : Sock} (hfree : s.idTaken sk = false)
    (hi : s.wedgeSocketsFind (getUniqueSockId sk) = some i) : (s.sockets i).sk = some sk := by
  have htest := find?_some hi
  simp only [Bool.and_eq_true, beq_iff_eq] at htest
  obtain ⟨x, hx, hid⟩ := Option.map_eq_some_iff.mp htest.1
  simp only [idTaken, Bool.or_eq_false_iff, any_eq_false] at hfree
  have hother := hfree.1 i (mem_of_find?_eq_some hi)
  rw [hx] at hother ⊢
  simpa [hid] using hother

theorem sk_of_free (hi : s.freeSocket = some i) : (s.sockets i).sk = none := by
  simpa [WedgeSocket.sockId] using find?_some hi

theorem Sound.wedgeSocketsInsert (h : s.Sound) (hi : s.freeSocket = some i) (sk : Sock) :
    (s.wedgeSocketsInsert i sk).Sound := by
  rw [Sound, State.wedgeSocketsInsert, books_setSocket]
  exact Books.Sound.opened h (sk_of_free hi) sk

variable {c : Call}

section

variable (h : s.Sound) (hp : s.threads p = .call c)
include h hp

section

variable (hs : c.pc.inSockets) (hc : c.pc.inCalls = false) (hn : c.pc.counted = false)
include hs hc hn

theorem Sound.enterAt
    (hheld : ({ c with sockIndex := i, pc := .enterUp } : Call).held.Sublist c.held)
    (hi : (s.sockets i).sk = some c.sk) :
    ((s.count i c.type 1).put p ({ c with sockIndex := i }.at .enterUp)).Sound := by
  rw [Sound, roles_put, books_put, books_count]
  exact Books.Sound.enter (l := ⟨i, c.type, c.sk⟩) h (congrArg Thread.role hp)
    ⟨hs.symm, hc.symm, rfl, rfl⟩ hi
    (Call.sk_mem_held (c := { c with sockIndex := i, pc := .enterUp }) rfl rfl) hheld
    (Call.role_place_none hn) rfl rfl

theorem Sound.refuse (hl : c.pc.listed = false)
    (hheld : [c.sk].Sublist c.held) : (s.put p (c.at .refuseUp)).Sound := by
  exact h.put hp hs.symm hc.symm (follows_of_none hheld (Call.role_place_none hn).symm
    (Call.role_entry_none hl).symm rfl rfl)

end

theorem enter_sound (hpc : c.pc = .enter) (hfree : s.idTaken c.sk = false) (ch : Choice) :
    (s.enter p c ch).Sound := by
  obtain ⟨type, sk, _, _, _, _, _, _, _⟩ := c
  subst hpc
  have hrefuse := h.refuse hp rfl rfl rfl rfl (Sublist.refl _)
  rw [enter]
  split
  · -- `fins_create`
    rename_i htype
    obtain rfl : type = .socket := htype
    split
    · exact hrefuse
    · rename_i i hi
      have hopen := h.wedgeSocketsInsert hi sk
      refine hopen.enterAt (i := i) hp rfl rfl rfl (Sublist.refl _) ?_
      simp only [State.wedgeSocketsInsert, setSocket, update_self]
  · -- `fins_accept`
    split
    · exact hrefuse
    · rename_i i hi
      have haim : ∀ j x, some (i, sk) = some (j, x) → s.books.sockAt j = some x ∧ x ∈ [sk] := by
        rintro j x ⟨⟩
        exact ⟨sk_of_find hfree hi, mem_singleton.mpr rfl⟩
      split
      · exact h.put hp rfl rfl ⟨Sublist.refl _, rfl, rfl, haim, nofun⟩
      · exact h.put hp rfl rfl ⟨Sublist.refl _, rfl, rfl, haim, nofun⟩
      · exact hrefuse
  · -- `fins_release`
    rename_i htype
    obtain rfl : type = .release := htype
    split
    · exact hrefuse
    · rename_i i hi
      split
      · exact hrefuse
      · have hflag : (s.setSocket i { s.sockets i with releaseFlag := true }).Sound :=
          h.congr (books_setSocket_eq rfl rfl) rfl
        refine hflag.enterAt (i := i) hp rfl rfl rfl (Sublist.refl _) ?_
        simp only [setSocket, update_self]
        exact sk_of_find hfree hi
  · split
    · exact hrefuse
    · rename_i i hi
      refine h.enterAt (i := i) hp rfl rfl rfl ?_ (sk_of_find hfree hi)
      simp_all [Call.held]

theorem enterNew_sound {made : Bool}
    (hpc : c.pc = .enterNew made) : (s.enterNew p c made).Sound := by
  obtain ⟨type, sk, _, sockIndex, skNew, _, _, _, _⟩ := c
  subst hpc
  have hr : s.roles p = (Thread.call _).role := congrArg Thread.role hp
  have hat : (s.sockets sockIndex).sk = some sk :=
    ((h.fair p).aims sockIndex sk (by rw [hr]; rfl)).1
  have hsub : (if type = .accept then [skNew, sk] else [sk]).Sublist [skNew, sk] := by
    split
    · exact Sublist.refl _
    · exact sublist_cons_self skNew [sk]
  rw [enterNew]
  split
  · split
    · exact h.refuse hp rfl rfl rfl rfl (sublist_cons_self skNew [sk])
    · rename_i i hi
      -- the new socket gets a slot of its own, and the socket of the call remembers the sock
      have hne : sockIndex ≠ i := by
        rintro rfl
        rw [sk_of_free hi] at hat
        cases hat
      have hopen := h.wedgeSocketsInsert hi skNew
      have hat' : ((s.wedgeSocketsInsert i skNew).sockets sockIndex).sk = some sk := by
        simpa only [State.wedgeSocketsInsert, setSocket, update_of_ne hne] using hat
      have hnew : ((s.wedgeSocketsInsert i skNew).setSocket sockIndex
          { (s.wedgeSocketsInsert i skNew).sockets sockIndex with skNew := some skNew }).Sound :=
        hopen.congr (books_setSocket_eq rfl rfl) rfl
      refine hnew.enterAt (i := sockIndex) hp rfl rfl rfl hsub ?_
      simpa only [setSocket, update_self] using hat'
  · exact h.enterAt (i := sockIndex) hp rfl rfl rfl hsub hat

theorem leave_sound (hpc : c.pc = .leave) :
    ((s.count c.sockIndex c.type (-1)).put p (c.at .endUp)).Sound := by
  obtain ⟨type, sk, _, sockIndex, _, _, _, _, _⟩ := c
  subst hpc
  rw [Sound, roles_put, books_put, books_count]
  refine Books.Sound.leave (l := ⟨sockIndex, type, sk⟩) h (congrArg Thread.role hp)
    ⟨?_, ?_, ?_, ?_⟩ ?_ ?_ ?_ ?_ ?_
  all_goals rfl

theorem remove_sound (hpc : c.pc = .remove) :
    ((s.setSocket c.sockIndex { s.sockets c.sockIndex with sk := none }).put p
      (c.at .removeUp)).Sound := by
  obtain ⟨type, sk, _, sockIndex, _, _, _, _, _⟩ := c
  subst hpc
  have hsame : update s.books.count sockIndex (s.sockets sockIndex).threads =
      s.books.count := update_eq_self sockIndex s.books.count
  rw [Sound, roles_put, books_put, books_setSocket, hsame]
  refine Books.Sound.closed (l := ⟨sockIndex, type, sk⟩) h (congrArg Thread.role hp)
    ⟨?_, ?_, ?_, ?_⟩ ?_ rfl ?_ ?_ ?_
  all_goals rfl

end

/-! ### The table of calls -/

theorem user_of_free (hi : s.freeCall = some i) :
    i < MAX_CALLS ∧ s.books.entryAt i = none := by
  have hmem := mem_of_find?_eq_some hi
  have hid := find?_some hi
  simp only [beq_iff_eq] at hid
  refine ⟨mem_range.mp hmem, ?_⟩
  simp only [books, WedgeCall.user, hid, ne_eq, not_true_eq_false, and_false, ↓reduceIte]

section

variable (h : s.Sound) (hp : s.threads p = .call c)
include h hp

/-- `wedge_calls_insert`; the number of the call must not be the mark of a free slot. -/
theorem insert_sound (hpc : c.pc = .insert)
    (hcount : s.callCount ≠ NO_CALL) (ch : Choice) : (s.callStep p c ch).Sound := by
  obtain ⟨type, sk, _, sockIndex, _, _, _, _, _⟩ := c
  subst hpc
  have hcalls : ({ s with callCount := s.callCount + 1 } : State).Sound := h
  simp only [callStep]
  split
  · exact hcalls.put hp rfl rfl (follows_plain rfl)
  · rename_i i hi
    obtain ⟨hlt, hfree⟩ := user_of_free hi
    have huser : ∀ w v, WedgeCall.user ⟨s.callCount, type, sk, sockIndex, w, false, v⟩ i =
        some ⟨sockIndex, type, sk⟩ := fun w v => if_pos ⟨hlt, hcount⟩
    rw [Sound, roles_put, books_put, wedgeCallsInsert, books_setCall, huser]
    refine Books.Sound.insert (e := i) h (congrArg Thread.role hp) ⟨?_, ?_, ?_, ?_⟩
      ?_ ?_ hfree ?_ ?_
    all_goals rfl

theorem giveUp_sound (hpc : c.pc = .send ∨ c.pc = .free) {s' : State} (v : Option Place)
    (hbooks : s'.books =
      { s.books with entryAt := update s.books.entryAt c.callIndex v })
    (hthreads : s'.threads = s.threads) : (s'.put p (c.at .endDown)).Sound := by
  have hroles : s'.roles = s.roles := by
    funext q
    rw [roles, hthreads, roles]
  rw [Sound, roles_put, books_put, hbooks, hroles]
  obtain ⟨_, _, pc, _, _, _, callIndex, _, _⟩ := c
  obtain rfl | rfl : pc = .send ∨ pc = .free := hpc
  all_goals
    refine Books.Sound.giveUp (e := callIndex) h (congrArg Thread.role hp) ⟨?_, ?_, ?_, ?_⟩
      ?_ ?_ ?_ v
      (fun l hl => Thread.role_keeps _ hl rfl) ?_
    all_goals rfl

theorem send_sound (hpc : c.pc = .send) (ch : Choice) : (s.send p c ch).Sound := by
  have hsend : (s.put p (c.at .endDown)).Sound :=
    giveUp_sound h hp (.inl hpc) (s.books.entryAt c.callIndex)
      (by rw [update_eq_self]) rfl
  obtain ⟨type, _, _, _, _, _, _, _, _⟩ := c
  subst hpc
  cases ch with
  | ok =>
    simp only [send, Call.afterSend]
    split
    · subst type
      exact h.put hp rfl rfl (follows_plain rfl)
    · refine h.put hp rfl rfl (follows_of_none ?_ rfl rfl rfl rfl)
      simp_all [Call.held]
  | abandon =>
    simp only [send]
    split
    · subst type
      exact h.put hp rfl rfl (follows_plain rfl)
    · split
      · exact hsend
      · exact h
  | fail | sock x => exact h.put hp rfl rfl (follows_plain rfl)

end

/-! ### The loops of `wedge_sockets_remove` -/

/-- What the loops have found out about `threads[]` of the socket. -/
def Seen (s : State) (c : Call) (todo : List CallType) (pending : Option CallType) : Prop :=
  (∀ t ∉ todo, settled c.type t ((s.sockets c.sockIndex).threads t) = true) ∧
    ∀ t, pending = some t → settled c.type t ((s.sockets c.sockIndex).threads t) = false

theorem Sound.seen (h : s.Sound) (hp : s.threads p = .call c) {todo : List CallType}
    {pending : Option CallType} (hk : c.pc.known = some (todo, pending)) :
    s.Seen c todo pending := by
  have hr : s.roles p = c.role := congrArg Thread.role hp
  obtain ⟨l, hl, -, hset, hpend⟩ := (h.fair p).known todo pending (by rw [hr]; exact hk)
  rw [hr] at hl
  obtain ⟨-, rfl⟩ := Call.role_place hl
  exact ⟨hset, hpend⟩

theorem follows_of_seen (hheld : c'.held.Sublist c.held)
    (hplace : c'.role.place = c.role.place) (hentry : c'.role.entry = c.role.entry)
    (haim : c'.role.aim = none) (hcounted : c'.pc.counted) (hlisted : c'.pc.listed = false)
    {todo : List CallType} {pending : Option CallType} (hknown : c'.pc.known = some (todo, pending))
    (hseen : s.Seen c' todo pending) : Follows s.books c.role c'.role := by
  refine ⟨hheld, hplace, hentry, fun _ _ h => absurd (h.symm.trans haim) (Option.some_ne_none _),
    fun todo' pending' hk => ?_⟩
  obtain ⟨rfl, rfl⟩ : todo = todo' ∧ pending = pending' := by
    have := hknown.symm.trans hk
    simpa using this
  refine ⟨⟨c'.sockIndex, c'.type, c'.sk⟩, ?_, Call.sk_mem_held hcounted hlisted, hseen⟩
  simp only [Call.role, hcounted, ↓reduceIte]

theorem follows_seeing {todo : List CallType} {pending : Option CallType}
    (h : (c'.held, c'.role.place, c'.role.entry, c'.role.aim, c'.pc.counted, c'.pc.listed,
        c'.pc.known) =
      (c.held, c.role.place, c.role.entry, none, true, false, some (todo, pending)))
    (hseen : s.Seen c' todo pending) : Follows s.books c.role c'.role := by
  simp only [Prod.mk.injEq] at h
  exact follows_of_seen (h.1 ▸ Sublist.refl _) h.2.1 h.2.2.1 h.2.2.2.1 h.2.2.2.2.1
    h.2.2.2.2.2.1 h.2.2.2.2.2.2 hseen

theorem scan_sound (h : s.Sound) (hp : s.threads p = .call c) {rest : List CallType}
    (hpc : c.pc = .scan rest) (ch : Choice) : (s.callStep p c ch).Sound := by
  cases c
  subst hpc
  have hseen := h.seen hp rfl
  cases rest with
  | nil => exact h.put hp rfl rfl (follows_seeing rfl hseen)
  | cons t rest =>
    simp only [callStep]
    split
    · rename_i hset
      refine h.put hp rfl rfl (follows_seeing rfl ⟨fun u hu => ?_, ?_⟩)
      · by_cases hut : u = t
        · subst hut
          exact hset
        · exact hseen.1 u (by simp [hut, hu])
      · rintro u ⟨⟩
    · rename_i hset
      refine h.put hp rfl rfl (follows_seeing rfl ⟨hseen.1, ?_⟩)
      rintro u ⟨⟩
      exact Bool.eq_false_iff.mpr hset

theorem find_sound (h : s.Sound) (hp : s.threads p = .call c) {t : CallType}
    {rest : List CallType} (hpc : c.pc = .find t rest) (ch : Choice) :
    (s.callStep p c ch).Sound := by
  cases c
  subst hpc
  have hr : s.roles p = (Thread.call _).role := congrArg Thread.role hp
  have hseen := h.seen hp rfl
  simp only [callStep]
  split
  · rename_i hnone
    have hknown : (s.roles p).known = some (t :: rest, some t) := by
      rw [hr]
      rfl
    obtain ⟨e, l, hl, hat⟩ := Books.Sound.finds h hknown
    rw [hr] at hl
    obtain ⟨-, rfl⟩ := Call.role_place hl
    simp only [books, WedgeCall.user] at hat
    split at hat
    · rename_i hlive
      have hno := find?_eq_none.mp hnone e (mem_range.mpr hlive.1)
      simp_all [WedgeCall.sockId]
    · cases hat
  · exact h.put hp rfl rfl (follows_seeing rfl ⟨hseen.1, nofun⟩)

/-! ### All steps -/

/-- The call gets the number that marks a free slot. -/
def rollsOver (s : State) : Event → Bool
  | .run p _ =>
    match s.threads p with
    | .call c => c.pc == .insert && s.callCount == NO_CALL
    | _ => false
  | _ => false

/-- A table is searched that has another sock under the `sock_id`. -/
def collides (s : State) : Event → Bool
  | .run p _ =>
    match s.threads p with
    | .call c => c.pc.searches && s.idTaken c.sk
    | _ => false
  | _ => false

theorem callStep_sound (h : s.Sound) (hp : s.threads p = .call c)
    (hcount : c.pc = .insert → s.callCount ≠ NO_CALL)
    (hid : c.pc.searches = true → s.idTaken c.sk = false) (ch : Choice) :
    (s.callStep p c ch).Sound := by
  have hfree : c.pc = .free →
      ((s.setCall c.callIndex { s.calls c.callIndex with callId := NO_CALL }).put p
        (c.at .endDown)).Sound := by
    intro hpc
    refine giveUp_sound h hp (.inr hpc) none ?_ rfl
    rw [books_setCall]
    simp only [WedgeCall.user, ne_eq, not_true_eq_false, and_false, ↓reduceIte]
  obtain ⟨type, sk, pc, sockIndex, _, _, _, _, _⟩ := c
  cases pc with
  | lock => exact h.lockSock hp rfl rfl (Sublist.refl _) rfl rfl nofun rfl
  | enterDown | clearDown => exact h.downSockets hp rfl rfl rfl (follows_plain rfl)
  | enter => exact enter_sound h hp rfl (hid rfl) ch
  | lockNew made =>
    have hr : s.roles p = (Thread.call _).role := congrArg Thread.role hp
    obtain ⟨hat, hheld⟩ := (h.fair p).aims sockIndex sk (by rw [hr]; rfl)
    refine h.lockSock hp rfl rfl (Sublist.refl _) rfl rfl ?_ rfl
    rintro i y ⟨⟩
    exact ⟨hat, mem_cons_of_mem _ (mem_singleton.mpr rfl)⟩
  | enterNew made => exact enterNew_sound h hp rfl
  | enterUp | refuseUp | clearUp => exact h.upSockets hp rfl rfl rfl (follows_plain rfl)
  | refuse =>
    simp only [callStep]
    split
    · exact h.put hp rfl rfl (follows_of_none (nil_sublist _) rfl rfl rfl rfl)
    · exact h.releaseSock hp rfl rfl (mem_singleton.mpr rfl) (nil_sublist _) rfl rfl rfl rfl
  | insertDown => exact h.downCalls hp rfl rfl rfl (follows_plain rfl)
  | insert => exact insert_sound h hp rfl (hcount rfl) ch
  | insertUp | fullUp => exact h.upCalls hp rfl rfl rfl (follows_plain rfl)
  | send => exact send_sound h hp rfl ch
  | abandon | endUnlock =>
    exact h.releaseSock hp rfl rfl (mem_singleton.mpr rfl) (nil_sublist _) rfl rfl rfl rfl
  | unlockNew | endUnlockNew =>
    refine h.releaseSock hp rfl rfl (mem_cons_self ..) ?_ rfl rfl rfl rfl
    simp [Thread.role, Call.at, Call.role, Call.held]
  | unlock =>
    simp only [callStep]
    split
    · subst type
      exact h.put hp rfl rfl (follows_plain rfl)
    · rename_i hne
      refine h.releaseSock hp rfl rfl (mem_singleton.mpr rfl) ?_ rfl rfl rfl rfl
      simp_all [Thread.role, Call.at, Call.role, Call.held]
  | wait =>
    simp only [callStep]
    split
    · refine Sound.put (h.congr (books_setCall_eq ?_) rfl) hp rfl rfl ?_
      · rfl
      · exact follows_plain rfl
    · exact h
  | relock =>
    simp only [callStep]
    split
    · subst type
      exact h.put hp rfl rfl (follows_plain rfl)
    · rename_i hne
      simp only [Call.afterLock]
      split
      · subst type
        exact h.lockSock hp rfl rfl (Sublist.refl _) rfl rfl nofun rfl
      · refine h.lockSock hp rfl rfl ?_ rfl rfl nofun rfl
        simp_all [Thread.role, Call.at, Call.role, Call.held]
  | relockNew =>
    refine h.lockSock hp rfl rfl ?_ rfl rfl nofun rfl
    simp only [Thread.role, Call.at, Call.role, Call.held]
    split <;> simp
  | look | readBuf =>
    simp only [callStep, Call.afterRead]
    split
    · exact h.put hp rfl rfl (follows_plain rfl)
    · exact h.put hp rfl rfl (follows_plain rfl)
  | readRet | readMsg | readLen => exact h.put hp rfl rfl (follows_plain rfl)
  | clearNew =>
    simp only [callStep]
    refine Sound.put (h.congr (books_setSocket_eq ?_ ?_) rfl) hp rfl rfl ?_
    · rfl
    · rfl
    · exact follows_plain rfl
  | free => exact hfree rfl
  | endDown =>
    simp only [callStep]
    split
    · refine h.downSockets hp rfl rfl rfl (follows_of_seen ?_ rfl rfl rfl rfl rfl rfl ⟨?_, ?_⟩)
      · simp only [Call.held]
        split <;> simp
      · exact fun t ht => absurd (mem_callTypes t) ht
      · rintro t ⟨⟩
    · exact h.downSockets hp rfl rfl rfl (follows_plain rfl)
  | leave => exact leave_sound h hp rfl
  | endUp =>
    simp only [callStep, Call.afterEnd]
    split
    · subst type
      exact h.upSockets hp rfl rfl rfl (follows_plain rfl)
    · refine h.upSockets hp rfl rfl rfl (follows_of_none ?_ rfl rfl rfl rfl)
      simp_all [Call.held]
  | scan rest => exact scan_sound h hp rfl ch
  | scanUp t rest => exact h.upSockets hp rfl rfl rfl (follows_seeing rfl (h.seen hp rfl))
  | findDown t rest => exact h.downCalls hp rfl rfl rfl (follows_seeing rfl (h.seen hp rfl))
  | find t rest => exact find_sound h hp rfl ch
  | foundUp t rest i id | noneUp rest =>
    exact h.upCalls hp rfl rfl rfl (follows_seeing rfl (h.seen hp rfl))
  | wake t rest i id =>
    have hlog : ({ s with removed := (id, sk) :: s.removed } : State).Sound := h
    simp only [callStep]
    refine Sound.put (hlog.congr (books_setCall_eq ?_) rfl) hp rfl rfl ?_
    · rfl
    · exact follows_seeing rfl (h.seen hp rfl)
  | scanDown t rest => exact h.downSockets hp rfl rfl rfl (follows_seeing rfl (h.seen hp rfl))
  | remove => exact remove_sound h hp rfl
  | removeUp =>
    exact h.upSockets hp rfl rfl rfl (follows_of_none (nil_sublist _) rfl rfl rfl rfl)
  | destroyed | done | gone => exact h

theorem follows_visitor (b : Books) (inSockets inCalls inSockets' inCalls' : Bool) :
    Follows b (visitor inSockets inCalls) (visitor inSockets' inCalls') where
  held := Sublist.refl _
  place := rfl
  entry := rfl
  aim := nofun
  known := nofun

/-- `nl_data_ready` and the books: it takes `wedge_calls_sem` and writes into a slot. -/
theorem replyStep_sound (h : s.Sound) {m : Reply} {pc : ReplyPc}
    (hp : s.threads p = .reply m pc) (ch : Choice) : (s.replyStep p m pc ch).Sound := by
  let k := s.calls m.callIndex
  have hset : ∀ k, k.user m.callIndex = (s.calls m.callIndex).user m.callIndex →
      ∀ pc', pc'.inCalls = pc.inCalls →
      ((s.setCall m.callIndex k).put p (.reply m pc')).Sound := fun k hk pc' hpc' =>
    Sound.put (h.congr (books_setCall_eq hk) rfl) hp rfl hpc' (follows_visitor ..)
  cases pc with
  | down => exact h.downCalls hp rfl rfl rfl (follows_visitor ..)
  | check =>
    simp only [replyStep]
    split
    · have hlog : ({ s with replies := m :: s.replies } : State).Sound := h
      exact hlog.put hp rfl rfl (follows_visitor ..)
    · exact h.put hp rfl rfl (follows_visitor ..)
  | setReply => exact hset { k with reply := true } rfl .setRet rfl
  | setRet => exact hset { k with values.ret := m.ret } rfl .setMsg rfl
  | setMsg => exact hset { k with values.msg := m.msg } rfl .setLen rfl
  | setLen => exact hset { k with values.len := m.data.length } rfl .setBuf rfl
  | setBuf =>
    simp only [replyStep]
    split
    · exact hset { k with reply := false, values.buf := [] } rfl .wake rfl
    · exact hset { k with values.buf := m.data } rfl .wake rfl
  | wake => exact hset { k with waitSem := k.waitSem + 1 } rfl .up rfl
  | up => exact h.upCalls hp rfl rfl rfl (follows_visitor ..)
  | done => exact h

theorem eventStep_sound (h : s.Sound) {pc : EventPc} (hp : s.threads p = .event pc) :
    (s.eventStep p pc).Sound := by
  cases pc with
  | down => exact h.downSockets hp rfl rfl rfl (follows_visitor ..)
  | up => exact h.upSockets hp rfl rfl rfl (follows_visitor ..)
  | done => exact h

theorem begin_sound (h : s.Sound) (ht : t.role = visitor false false) : (s.begin p t).Sound := by
  rw [begin]
  split
  · rename_i hp
    have hlog : ({ s with pids := p :: s.pids } : State).Sound := h
    refine hlog.put hp (by rw [ht]; rfl) (by rw [ht]; rfl) ?_
    rw [ht]
    exact follows_visitor ..
  · exact h

theorem interrupt_sound (h : s.Sound) (p : Pid) : (s.interrupt p).Sound := by
  rw [interrupt]
  split
  · rename_i c hp
    split
    · rename_i hwait
      obtain ⟨_, _, pc, _, _, callId, _, _, _⟩ := c
      obtain rfl : pc = .wait := hwait.1
      have hlog : ({ s with signalled := callId :: s.signalled } : State).Sound := h
      exact hlog.put hp rfl rfl (follows_plain rfl)
    · exact h
  · exact h

theorem step_sound (h : s.Sound) (e : Event) (he : s.rollsOver e = false)
    (hid : s.collides e = false) : (step s e).Sound := by
  cases e with
  | call p t sk | pollEvent p => exact begin_sound h rfl
  | reply p m =>
    rw [step]
    split
    · exact h
    · exact begin_sound h rfl
  | signal p => exact interrupt_sound h p
  | run p ch =>
    simp only [step, runThread]
    split
    · exact h
    · rename_i c hp
      refine callStep_sound h hp (fun hpc hcount => ?_) (fun hpc => ?_) ch
      · simp [rollsOver, hp, hpc, hcount] at he
      · simpa [collides, hp, hpc] using hid
    · rename_i m pc hp
      exact replyStep_sound h hp ch
    · rename_i pc hp
      exact eventStep_sound h hp

theorem initial_sound : initial.Sound where
  sockets := Tally.zero nofun
  calls := Tally.zero nofun
  counts := nofun
  single := nofun
  fair := fun _ =>
    { owner := nofun
      nodup := nodup_nil
      placed := nofun
      keeps := nofun
      entries := nofun
      aims := nofun
      known := nofun }

end State

end FinsStack.Wedge.Threads
