import FinsStack.Wedge.Exclusion

/-!
# Whose reply a call of the wedge gets

`execs/wedge/fins_stack_wedge.c`.

A call that was sent should end with the reply that carries its number, or with `-EINTR` when
it was signalled or its socket removed.  `nl_data_ready` sets `reply` first and the fields of
the reply after it, one by one, and a signal can wake the call in between: then the call finds
`reply` set and takes fields that belong to nobody, or to the call that had the slot before.

`replies_isolated` is about the runs in which `call_count` does not roll over, no search meets the
`sock_id` of another sock, and (`State.orderly`)

  * no call begins to read a reply while one is being written into its slot, and no reply is
    written into a slot while its call reads;
  * `kmalloc` gives the memory for the reply;
  * the calls that do not return `-EINTR` (`ioctl`, `poll` and `release`) are neither signalled
    nor woken by a removal.
-/

namespace FinsStack.Wedge.Threads

open List Function FinsStack.Lib

/-! ### Readers and writers of a slot -/

def CallPc.wakes : CallPc → Bool
  | .relock | .relockNew | .look => true
  | _ => false

def CallPc.reads : CallPc → Bool
  | .readRet | .readMsg | .readLen | .readBuf => true
  | _ => false

def CallPc.early : CallPc → Bool
  | .lock | .enterDown | .enter | .lockNew _ | .enterNew _ | .enterUp | .insertDown
  | .insert => true
  | _ => false

/-- The call that `wedge_sockets_remove` has found and is about to wake. -/
def CallPc.found : CallPc → Option (Nat × UInt32)
  | .foundUp _ _ i id | .wake _ _ i id => some (i, id)
  | _ => none

/-- A call at `pc` goes on at `pc'` without a look at a slot. -/
def CallPc.passes (pc pc' : CallPc) : Bool :=
  (!pc'.early || pc.early) && (!pc'.listed || pc.listed) && !pc'.wakes && !pc'.reads &&
    pc'.found.isNone

def ReplyPc.writes : ReplyPc → Bool
  | .setReply | .setRet | .setMsg | .setLen | .setBuf => true
  | _ => false

def Thread.reads (i : Nat) : Thread → Bool
  | .call c => c.pc.reads && c.callIndex == i
  | _ => false

def Thread.writes (i : Nat) : Thread → Bool
  | .reply m pc => pc.writes && m.callIndex == i
  | _ => false

namespace State

def anyReads (s : State) (i : Nat) : Bool := s.pids.any fun p => (s.threads p).reads i

def anyWrites (s : State) (i : Nat) : Bool := s.pids.any fun p => (s.threads p).writes i

/-- The step keeps readers and writers of a slot apart, has its memory, and wakes without a reply
    only calls that return `-EINTR` then. -/
def orderly (s : State) : Event → Bool
  | .signal p =>
    match s.threads p with
    | .call c =>
      !(c.pc == .wait && (s.calls c.callIndex).waitSem == 0) || c.type.unanswered == -EINTR
    | _ => true
  | .run p ch =>
    match s.threads p with
    | .call c =>
      match c.pc with
      | .look => !(s.calls c.callIndex).reply || !s.anyWrites c.callIndex
      | .wake _ _ i _ => (s.calls i).callType.unanswered == -EINTR
      | _ => true
    | .reply m pc =>
      match pc with
      | .check => (s.calls m.callIndex).callId != m.callId || !s.anyReads m.callIndex
      | .setBuf => m.data.length == 0 || ch != .fail
      | _ => true
    | _ => true
  | _ => true

/-! ### What a call ends with -/

def Disturbed (s : State) (c : Call) : Prop :=
  c.callId ∈ s.signalled ∨ (c.callId, c.sk) ∈ s.removed

def Earned (s : State) (c : Call) : Outcome → Prop
  | .replied v => ∃ m ∈ s.replies, m.callId = c.callId ∧ v = m.values
  | .unanswered rc => rc = -EINTR ∧ s.Disturbed c

def Progress (k : WedgeCall) (v : Values) : CallPc → Prop
  | .readRet => k.reply = true
  | .readMsg => k.reply = true ∧ v.ret = k.values.ret
  | .readLen => k.reply = true ∧ v.ret = k.values.ret ∧ v.msg = k.values.msg
  | .readBuf =>
    k.reply = true ∧ v.ret = k.values.ret ∧ v.msg = k.values.msg ∧ v.len = k.values.len
  | _ => True

structure CallOk (s : State) (c : Call) : Prop where
  early : c.pc.early = true → c.outcome = none
  numbered : c.callId ≠ NO_CALL → c.callId < s.callCount
  listed : c.pc.listed = true → (s.calls c.callIndex).callId = c.callId
  excused : c.pc.wakes = true → (s.calls c.callIndex).reply = false →
    c.type.unanswered = -EINTR ∧ s.Disturbed c
  progress : Progress (s.calls c.callIndex) c.values c.pc
  found : ∀ i id, c.pc.found = some (i, id) →
    (s.calls i).callId = id ∧ id ≠ NO_CALL ∧ (s.calls i).sk = c.sk
  earned : ∀ o, c.outcome = some o → s.Earned c o

def Written (k : WedgeCall) (m : Reply) : ReplyPc → Prop
  | .setRet | .wake => k.reply = true
  | .setMsg => k.reply = true ∧ k.values.ret = m.ret
  | .setLen => k.reply = true ∧ k.values.ret = m.ret ∧ k.values.msg = m.msg
  | .setBuf =>
    k.reply = true ∧ k.values.ret = m.ret ∧ k.values.msg = m.msg ∧ k.values.len = m.data.length
  | _ => True

structure ReplyOk (s : State) (m : Reply) (pc : ReplyPc) : Prop where
  meant : pc.writes = true ∨ pc = .wake → m ∈ s.replies ∧
    ((s.calls m.callIndex).callId = m.callId ∨ (s.calls m.callIndex).callId = NO_CALL)
  written : Written (s.calls m.callIndex) m pc

def ThreadOk (s : State) : Thread → Prop
  | .idle => True
  | .call c => s.CallOk c
  | .reply m pc => s.ReplyOk m pc
  | .event _ => True

def Unwritten (s : State) (i : Nat) : Prop := ∀ p, (s.threads p).writes i = false

structure SlotOk (s : State) (i : Nat) : Prop where
  replied : s.Unwritten i → (s.calls i).reply = true →
    ∃ m ∈ s.replies, m.callId = (s.calls i).callId ∧ (s.calls i).values = m.values
  woken : (s.calls i).reply = false → 0 < (s.calls i).waitSem →
    ((s.calls i).callId, (s.calls i).sk) ∈ s.removed ∧
      (s.calls i).callType.unanswered = -EINTR

structure Kept (s : State) : Prop where
  pids : ∀ p, s.threads p ≠ .idle → p ∈ s.pids
  unique : ∀ p q c d, s.threads p = .call c → s.threads q = .call d → c.callId ≠ NO_CALL →
    c.callId = d.callId → p = q
  thread : ∀ p, s.ThreadOk (s.threads p)
  apart : ∀ p i, (s.threads p).reads i = true → s.Unwritten i
  slots : ∀ i, (s.calls i).callId ≠ NO_CALL → s.SlotOk i

variable {s s' : State} {p q : Pid} {t : Thread} {c c' : Call} {i : Nat}

structure Grows (s s' : State) : Prop where
  count : s.callCount ≤ s'.callCount
  replies : s.replies ⊆ s'.replies
  signalled : s.signalled ⊆ s'.signalled
  removed : s.removed ⊆ s'.removed

theorem Grows.of_eq (hcount : s'.callCount = s.callCount) (hreplies : s'.replies = s.replies)
    (hsignalled : s'.signalled = s.signalled) (hremoved : s'.removed = s.removed) :
    Grows s s' where
  count := by
    rw [hcount]
    exact UInt32.le_refl _
  replies := by
    rw [hreplies]
    exact Subset.refl _
  signalled := by
    rw [hsignalled]
    exact Subset.refl _
  removed := by
    rw [hremoved]
    exact Subset.refl _

theorem Disturbed.mono (hg : Grows s s') (h : s.Disturbed c) : s'.Disturbed c := by
  rcases h with h | h
  · exact .inl (hg.signalled h)
  · exact .inr (hg.removed h)

variable {o : Outcome} {k : WedgeCall} {v : Values} {s₀ : State} {rest : List CallType}
  {pc : CallPc}
  {id : UInt32}

theorem Earned.mono (hg : Grows s s') (h : s.Earned c o) : s'.Earned c o := by
  cases o with
  | replied v =>
    obtain ⟨m, hm, hid, hv⟩ := h
    exact ⟨m, hg.replies hm, hid, hv⟩
  | unanswered rc => exact ⟨h.1, h.2.mono hg⟩

theorem Earned.congr (h : s.Earned c o) (hid : c'.callId = c.callId) (hsk : c'.sk = c.sk) :
    s.Earned c' o := by
  cases o with
  | replied v =>
    obtain ⟨m, hm, hm', hv⟩ := h
    exact ⟨m, hm, hm'.trans hid.symm, hv⟩
  | unanswered rc =>
    refine ⟨h.1, ?_⟩
    rw [Disturbed, hid, hsk]
    exact h.2

theorem reads_listed (h : pc.reads) : pc.listed := by
  cases pc <;> first | rfl | cases h

theorem wakes_listed (h : pc.wakes) : pc.listed := by
  cases pc <;> first | rfl | cases h

theorem not_reads_of_not_listed (hl : pc.listed = false) : pc.reads = false :=
  Bool.eq_false_iff.mpr fun hr => Bool.false_ne_true (hl.symm.trans (reads_listed hr))

theorem progress_of_not_reads (h : pc.reads = false) : Progress k v pc := by
  cases pc <;> trivial

theorem CallOk.frame (h : s.CallOk c) (hg : Grows s s')
    (hown : c.pc.listed → (s'.calls c.callIndex).callId = (s.calls c.callIndex).callId)
    (hwakes : c.pc.wakes → (s'.calls c.callIndex).reply = false →
      (s.calls c.callIndex).reply = false)
    (hread : c.pc.reads → (s'.calls c.callIndex).reply = (s.calls c.callIndex).reply ∧
      (s'.calls c.callIndex).values = (s.calls c.callIndex).values)
    (hfound : ∀ i id, c.pc.found = some (i, id) →
      (s'.calls i).callId = (s.calls i).callId ∧ (s'.calls i).sk = (s.calls i).sk) :
    s'.CallOk c where
  early := h.early
  numbered := fun hid => UInt32.lt_of_lt_of_le (h.numbered hid) hg.count
  listed := fun hl => (hown hl).trans (h.listed hl)
  excused := fun hw hreply => by
    obtain ⟨hrc, hd⟩ := h.excused hw (hwakes hw hreply)
    exact ⟨hrc, hd.mono hg⟩
  progress := by
    have hp := h.progress
    by_cases hr : c.pc.reads
    · obtain ⟨hreply, hvalues⟩ := hread hr
      cases hpc : c.pc <;> simp_all [Progress]
    · exact progress_of_not_reads (Bool.eq_false_iff.mpr hr)
  found := fun i id hf => by
    obtain ⟨hid, hsk⟩ := hfound i id hf
    rw [hid, hsk]
    exact h.found i id hf
  earned := fun o ho => (h.earned o ho).mono hg

theorem ReplyOk.frame {m : Reply} {pc : ReplyPc} (h : s.ReplyOk m pc) (hg : Grows s s')
    (hown : pc.writes ∨ pc = .wake →
      ((s'.calls m.callIndex).callId = (s.calls m.callIndex).callId ∨
        (s'.calls m.callIndex).callId = NO_CALL) ∧
      (s'.calls m.callIndex).reply = (s.calls m.callIndex).reply ∧
      (s'.calls m.callIndex).values = (s.calls m.callIndex).values) : s'.ReplyOk m pc where
  meant := fun hpc => by
    obtain ⟨hid, -, -⟩ := hown hpc
    obtain ⟨hm, hmeant⟩ := h.meant hpc
    refine ⟨hg.replies hm, ?_⟩
    rcases hid with hid | hid
    · rw [hid]
      exact hmeant
    · exact .inr hid
  written := by
    have hw := h.written
    cases hpc : pc <;> simp_all [Written, ReplyPc.writes]

structure Moves (s s' : State) (p : Pid) (t : Thread) : Prop where
  threads : s'.threads = update s.threads p t
  pid : p ∈ s'.pids
  pids : s.pids ⊆ s'.pids

theorem Moves.self (h : Moves s s' p t) : s'.threads p = t := by
  rw [h.threads, update_self]

theorem Moves.other (h : Moves s s' p t) (hne : q ≠ p) : s'.threads q = s.threads q := by
  rw [h.threads, update_of_ne hne]

/-- The rule for a step of one thread: what it says of itself, and what the others keep. -/
theorem Kept.move (h : s.Kept) (hm : Moves s s' p t)
    (hunique : ∀ c', t = .call c' → c'.callId ≠ NO_CALL →
      ∀ q d, q ≠ p → s.threads q = .call d → d.callId ≠ c'.callId)
    (hok : s'.ThreadOk t) (hothers : ∀ q, q ≠ p → s'.ThreadOk (s.threads q))
    (hreads : ∀ i, t.reads i → ∀ q, q ≠ p → (s.threads q).writes i = false)
    (hwrites : ∀ i, t.writes i → ∀ q, q ≠ p → (s.threads q).reads i = false)
    (hslots : ∀ i, (s'.calls i).callId ≠ NO_CALL → s'.SlotOk i) : s'.Kept where
  pids := fun q hq => by
    by_cases hne : q = p
    · rw [hne]
      exact hm.pid
    · rw [hm.other hne] at hq
      exact hm.pids (h.pids q hq)
  unique := fun q q' c d hq hq' hid heq => by
    by_cases hne : q = p
    · by_cases hne' : q' = p
      · rw [hne, hne']
      · rw [hne, hm.self] at hq
        rw [hm.other hne'] at hq'
        exact absurd heq.symm (hunique c hq hid q' d hne' hq')
    · rw [hm.other hne] at hq
      by_cases hne' : q' = p
      · rw [hne', hm.self] at hq'
        exact absurd heq (hunique d hq' (heq ▸ hid) q c hne hq)
      · rw [hm.other hne'] at hq'
        exact h.unique q q' c d hq hq' hid heq
  thread := fun q => by
    by_cases hne : q = p
    · rw [hne, hm.self]
      exact hok
    · rw [hm.other hne]
      exact hothers q hne
  apart := fun q i hq q' => by
    by_cases hne : q = p
    · rw [hne, hm.self] at hq
      by_cases hne' : q' = p
      · rw [hne', hm.self]
        cases t <;> first | rfl | cases hq
      · rw [hm.other hne']
        exact hreads i hq q' hne'
    · rw [hm.other hne] at hq
      by_cases hne' : q' = p
      · rw [hne', hm.self]
        by_contra hw
        have hr := hwrites i (by simpa using hw) q hne
        rw [hq] at hr
        cases hr
      · rw [hm.other hne']
        exact h.apart q i hq q'
  slots := hslots

theorem Moves.unwritten (hm : Moves s s' p t) (hp : (s.threads p).writes i = false)
    (h : s'.Unwritten i) : s.Unwritten i := by
  intro q
  by_cases hne : q = p
  · rw [hne]
    exact hp
  · rw [← hm.other hne]
    exact h q

def SameReplies (s s' : State) : Prop :=
  ∀ i, (s'.calls i).callId = (s.calls i).callId ∧ (s'.calls i).sk = (s.calls i).sk ∧
    (s'.calls i).reply = (s.calls i).reply ∧ (s'.calls i).values = (s.calls i).values

theorem sameReplies_waitSem {n : Nat} (hk : s.calls i = k)
    (hcalls : s'.calls = update s.calls i { k with waitSem := n }) : SameReplies s s' := by
  intro j
  rw [hcalls]
  by_cases hj : j = i
  · subst hj
    rw [update_self, hk]
    exact ⟨rfl, rfl, rfl, rfl⟩
  · rw [update_of_ne hj]
    exact ⟨rfl, rfl, rfl, rfl⟩

theorem SameReplies.of_eq (hcalls : s'.calls = s.calls) : SameReplies s s' := by
  intro j
  rw [hcalls]
  exact ⟨rfl, rfl, rfl, rfl⟩

theorem SameReplies.callOk (hsame : SameReplies s s') (hg : Grows s s') (h : s.CallOk c) :
    s'.CallOk c :=
  h.frame hg (fun _ => (hsame _).1) (fun _ hr => (hsame _).2.2.1 ▸ hr) (fun _ => (hsame _).2.2)
    fun i _ _ => ⟨(hsame i).1, (hsame i).2.1⟩

theorem SameReplies.threadOk (hsame : SameReplies s s') (hg : Grows s s') (h : s.ThreadOk t) :
    s'.ThreadOk t := by
  cases t with
  | idle | event pc => trivial
  | call c => exact hsame.callOk hg h
  | reply m pc => exact ReplyOk.frame h hg fun _ => ⟨.inl (hsame _).1, (hsame _).2.2⟩

structure SameTables (s s' : State) : Prop where
  calls : s'.calls = s.calls
  count : s'.callCount = s.callCount
  replies : s'.replies = s.replies
  signalled : s'.signalled = s.signalled
  removed : s'.removed = s.removed

theorem SameTables.grows (h : SameTables s s') : Grows s s' :=
  .of_eq h.count h.replies h.signalled h.removed

theorem SameTables.threadOk (hs : SameTables s s') (h : s.ThreadOk t) : s'.ThreadOk t :=
  (SameReplies.of_eq hs.calls).threadOk hs.grows h

theorem SlotOk.mono (h : s.SlotOk i) (hg : Grows s s') (hsame : s'.calls i = s.calls i)
    (hu : s'.Unwritten i → s.Unwritten i) : s'.SlotOk i where
  replied := fun hu' hr => by
    rw [hsame] at hr ⊢
    obtain ⟨m, hm, hid, hv⟩ := h.replied (hu hu') hr
    exact ⟨m, hg.replies hm, hid, hv⟩
  woken := fun hr hw => by
    rw [hsame] at hr hw ⊢
    obtain ⟨hmem, hrc⟩ := h.woken hr hw
    exact ⟨hg.removed hmem, hrc⟩

theorem slotOk_of_eq (hk : s'.calls i = k) (hreplied : s'.Unwritten i → k.reply →
      ∃ m ∈ s'.replies, m.callId = k.callId ∧ k.values = m.values)
    (hwoken : k.reply = false → 0 < k.waitSem →
      (k.callId, k.sk) ∈ s'.removed ∧ k.callType.unanswered = -EINTR) : s'.SlotOk i := by
  subst hk
  exact ⟨hreplied, hwoken⟩

section

variable (h : s.Kept) (hm : Moves s s' p t) (hg : Grows s s')
include h hm hg

theorem Kept.slots_same
    (hcalls : s'.calls = s.calls) (hold : ∀ j, (s.threads p).writes j = false) (j : Nat)
    (hlive : (s'.calls j).callId ≠ NO_CALL) : s'.SlotOk j := by
  rw [hcalls] at hlive
  exact (h.slots j hlive).mono hg (by rw [hcalls]) (hm.unwritten (hold j))

theorem Kept.slots_update
    (hcalls : s'.calls = update s.calls i k)
    (hold : ∀ j, j ≠ i → (s.threads p).writes j = false) (hslot : k.callId ≠ NO_CALL → s'.SlotOk i)
    (j : Nat) (hlive : (s'.calls j).callId ≠ NO_CALL) : s'.SlotOk j := by
  by_cases hji : j = i
  · subst hji
    rw [hcalls, update_self] at hlive
    exact hslot hlive
  · have hsame : s'.calls j = s.calls j := by
      rw [hcalls, update_of_ne hji]
    rw [hsame] at hlive
    exact (h.slots j hlive).mono hg hsame (hm.unwritten (hold j hji))

theorem Kept.slots_post {n : Nat}
    (hcalls : s'.calls = update s.calls i { s.calls i with waitSem := n })
    (hold : ∀ j, (s.threads p).writes j = false)
    (hwoken : (s.calls i).callId ≠ NO_CALL → (s.calls i).reply = false →
      ((s.calls i).callId, (s.calls i).sk) ∈ s'.removed ∧
        (s.calls i).callType.unanswered = -EINTR) :
    ∀ j, (s'.calls j).callId ≠ NO_CALL → s'.SlotOk j := by
  refine h.slots_update hm hg hcalls (fun j _ => hold j) fun hlive => ?_
  refine slotOk_of_eq (k := { s.calls i with waitSem := n }) (by rw [hcalls, update_self])
    (fun hu hreply => ?_) fun hreply _ => hwoken hlive hreply
  obtain ⟨m, hmem, hm'⟩ := (h.slots i hlive).replied (hm.unwritten (hold i) hu) hreply
  exact ⟨m, hg.replies hmem, hm'⟩

end

theorem Kept.callOk (h : s.Kept) (hp : s.threads p = .call c) : s.CallOk c := by
  have hok := h.thread p
  rw [hp] at hok
  exact hok

theorem Kept.pid (h : s.Kept) (hp : s.threads p = .call c) : p ∈ s.pids :=
  h.pids p (by rw [hp]; exact Thread.noConfusion)

theorem unwritten_of_not_reads (hr : c.pc.reads = false) (i : Nat)
    (hi : (Thread.call c).reads i) : s.Unwritten i := by
  simp only [Thread.reads, hr, Bool.false_and, Bool.false_eq_true] at hi

theorem Kept.goes (h : s.Kept) (hp : s.threads p = .call c) (hm : Moves s s' p (.call c'))
    (hid : c'.callId = c.callId)
    (hreads : ∀ i, (Thread.call c').reads i → s.Unwritten i) (hok : s'.CallOk c')
    (hothers : ∀ q, q ≠ p → s'.ThreadOk (s.threads q))
    (hslots : ∀ i, (s'.calls i).callId ≠ NO_CALL → s'.SlotOk i) : s'.Kept := by
  refine h.move hm ?_ hok hothers ?_ ?_ hslots
  · rintro _ ⟨⟩ hne q d hqp hq heq
    exact hqp (h.unique q p d c hq hp (heq ▸ hne) (heq.trans hid))
  · intro i hr q _
    exact hreads i hr q
  · rintro i ⟨⟩

structure Aside (s s₀ : State) : Prop extends SameTables s s₀ where
  threads : s₀.threads = s.threads
  pids : s₀.pids = s.pids

theorem Aside.refl (s : State) : Aside s s := ⟨⟨rfl, rfl, rfl, rfl, rfl⟩, rfl, rfl⟩

theorem Aside.put (h : Aside s s₀) : SameTables s (s₀.put p t) :=
  ⟨h.calls, h.count, h.replies, h.signalled, h.removed⟩

theorem Aside.moves (h : Aside s s₀) (hpid : p ∈ s.pids) (t : Thread) :
    Moves s (s₀.put p t) p t where
  threads := by
    rw [← h.threads]
    rfl
  pid := by
    rw [show (s₀.put p t).pids = s.pids from h.pids]
    exact hpid
  pids := by
    rw [show (s₀.put p t).pids = s.pids from h.pids]
    exact Subset.refl _

theorem Kept.goesAside (h : s.Kept) (hp : s.threads p = .call c) (hs : Aside s s₀)
    (hid : c'.callId = c.callId) (hreads : ∀ i, (Thread.call c').reads i → s.Unwritten i)
    (hok : s.CallOk c') : (s₀.put p (.call c')).Kept := by
  have hm := hs.moves (h.pid hp) (.call c')
  exact h.goes hp hm hid hreads ((SameReplies.of_eq hs.put.calls).callOk hs.put.grows hok)
    (fun q _ => hs.put.threadOk (h.thread q))
    (h.slots_same hm hs.put.grows hs.put.calls (fun j => by rw [hp]; rfl))

/-! ### Statements that leave the replies alone -/

structure Same (c c' : Call) : Prop where
  callId : c'.callId = c.callId
  callIndex : c'.callIndex = c.callIndex
  outcome : c'.outcome = c.outcome
  sk : c'.sk = c.sk
  early : c'.pc.early = true → c.pc.early = true
  listed : c'.pc.listed = true → c.pc.listed = true
  wakes : c'.pc.wakes = false
  reads : c'.pc.reads = false
  found : c'.pc.found = none

theorem Same.callOk (hsame : Same c c') (h : s.CallOk c) : s.CallOk c' where
  early := fun he => hsame.outcome.trans (h.early (hsame.early he))
  numbered := by
    rw [hsame.callId]
    exact h.numbered
  listed := fun hl => by
    rw [hsame.callIndex, hsame.callId]
    exact h.listed (hsame.listed hl)
  excused := fun hw => absurd (hsame.wakes.symm.trans hw) Bool.false_ne_true
  progress := progress_of_not_reads hsame.reads
  found := fun i id hf => absurd (hf.symm.trans hsame.found) (Option.some_ne_none _)
  earned := fun o ho => (h.earned o (hsame.outcome ▸ ho)).congr hsame.callId hsame.sk

section Passing

variable {pc : CallPc} {x : Sock} (h : c.pc.passes pc)
include h

end Passing

section

variable (s) (p)

end

/-! ### Reading the reply -/

theorem Sound.slot (h : s.Sound) (hp : s.threads p = .call c) (hl : c.pc.listed) :
    (s.calls c.callIndex).callId ≠ NO_CALL ∧ (s.calls c.callIndex).sk = c.sk ∧
      (s.calls c.callIndex).callType = c.type := by
  have hr : s.roles p = c.role := congrArg Thread.role hp
  have hentry : (s.roles p).entry = some c.callIndex := by
    rw [hr, Call.role, hl]
    rfl
  obtain ⟨l, hplace, hat⟩ := (h.fair p).entries c.callIndex hentry
  rw [hr] at hplace
  obtain ⟨-, rfl⟩ := Call.role_place hplace
  simp only [books, WedgeCall.user] at hat
  split at hat
  · rename_i hlive
    have hsame := Option.some.inj hat
    simp only [Place.mk.injEq] at hsame
    exact ⟨hlive.2, hsame.2.2, hsame.2.1⟩
  · cases hat

section

variable (h : s.Kept) (hp : s.threads p = .call c) (hl : c.pc.listed)
include h hp hl

theorem Kept.settle {pc : CallPc} (he : pc.early = false) (hw : pc.wakes = false)
    (hr : pc.reads = false) (hf : pc.found = none) (ho : s.Earned c o) :
    (s.put p (.call { c with pc := pc, values := v, outcome := some o })).Kept := by
  have hok := h.callOk hp
  refine h.goesAside hp (.refl s) rfl (unwritten_of_not_reads hr)
    { early := fun he' => absurd (he.symm.trans he') Bool.false_ne_true
      numbered := hok.numbered
      listed := fun _ => hok.listed hl
      excused := fun hw' => absurd (hw.symm.trans hw') Bool.false_ne_true
      progress := progress_of_not_reads hr
      found := fun _ _ hfound => absurd (hfound.symm.trans hf) (Option.some_ne_none _)
      earned := ?_ }
  rintro _ ⟨⟩
  exact ho.congr rfl rfl

end

/-- A call leaves its sleep.  It was signalled, or there is a reply, or its socket is being
    removed. -/
theorem Kept.awake (h : s.Kept) (hp : s.threads p = .call c) (hpc : c.pc = .wait)
    (hm : Moves s s' p (c.at .relock)) (hsame : SameReplies s s') (hg : Grows s s')
    (hexcuse : (s.calls c.callIndex).reply = false → c.type.unanswered = -EINTR ∧ s'.Disturbed c)
    (hslots : ∀ i, (s'.calls i).callId ≠ NO_CALL → s'.SlotOk i) : s'.Kept := by
  have hok := hsame.callOk hg (h.callOk hp)
  exact h.goes hp hm rfl (unwritten_of_not_reads rfl)
    { early := fun he => by cases he
      numbered := hok.numbered
      listed := fun _ => hok.listed (by rw [hpc]; rfl)
      excused := fun _ hreply => hexcuse ((hsame _).2.2.1 ▸ hreply)
      progress := trivial
      found := fun _ _ hf => by cases hf
      earned := fun o ho => (hok.earned o ho).congr rfl rfl }
    (fun q _ => hsame.threadOk hg (h.thread q)) hslots

theorem CallOk.finder (h : s.CallOk c) (he : pc.early = false)
    (hl : pc.listed = false)
    (hf : ∀ i id, pc.found = some (i, id) →
      (s.calls i).callId = id ∧ id ≠ NO_CALL ∧ (s.calls i).sk = c.sk) :
    s.CallOk { c with pc := pc } where
  early := fun he' => absurd (he.symm.trans he') Bool.false_ne_true
  numbered := h.numbered
  listed := fun hl' => absurd (hl.symm.trans hl') Bool.false_ne_true
  excused := fun hw => absurd (hl.symm.trans (wakes_listed hw)) Bool.false_ne_true
  progress := progress_of_not_reads (not_reads_of_not_listed hl)
  found := hf
  earned := fun o ho => (h.earned o ho).congr rfl rfl

section

variable (h : s.Kept) (hp : s.threads p = .call c)
include h hp

theorem Kept.finder (haside : Aside s s₀) (pc : CallPc)
    (he : pc.early = false) (hl : pc.listed = false) (hf : ∀ i id, pc.found = some (i, id) →
      (s.calls i).callId = id ∧ id ≠ NO_CALL ∧ (s.calls i).sk = c.sk) :
    (s₀.put p (c.at pc)).Kept :=
  h.goesAside hp haside rfl (unwritten_of_not_reads (not_reads_of_not_listed hl))
    ((h.callOk hp).finder he hl hf)

/-- `wedge_sockets_remove` wakes the call that it has found: the slot is still that call's. -/
theorem Kept.wake {ct : CallType}
    (hpc : c.pc = .wake ct rest i id) (hm : Moves s s' p (c.at (.scanDown ct rest)))
    (hg : Grows s s') (hcalls : s'.calls = update s.calls i
      { s.calls i with waitSem := (s.calls i).waitSem + 1 }) (hremoved : (id, c.sk) ∈ s'.removed)
    (ho : (s.calls i).callType.unanswered = -EINTR) : s'.Kept := by
  obtain ⟨hid, -, hsk⟩ := (h.callOk hp).found i id (by rw [hpc]; rfl)
  have hsame : SameReplies s s' := sameReplies_waitSem rfl hcalls
  refine h.goes hp hm rfl (unwritten_of_not_reads rfl)
    ((hsame.callOk hg (h.callOk hp)).finder rfl rfl (fun i id hf => by cases hf))
    (fun q _ => hsame.threadOk hg (h.thread q))
    (h.slots_post hm hg hcalls (fun j => by rw [hp]; rfl) fun _ _ => ?_)
  rw [hid, hsk]
  exact ⟨hremoved, ho⟩

end

/-! ### Giving a slot back, and taking one -/

theorem held_of_found (hq : s.threads q = .call c) {j : Nat} (hf : c.pc.found = some (j, id)) :
    c.sk ∈ (s.roles q).held := by
  have hr : s.roles q = c.role := congrArg Thread.role hq
  rw [hr]
  obtain ⟨_, _, pc, _, _, _, _, _, _⟩ := c
  cases pc <;> first | exact mem_singleton.mpr rfl | cases hf

theorem inCalls_of_writes {m : Reply} {pc : ReplyPc}
    (hq : s.threads q = .reply m pc) (hpc : pc.writes ∨ pc = .wake) :
    (s.roles q).inCalls = true := by
  have hr : s.roles q = visitor false pc.inCalls := congrArg Thread.role hq
  rw [hr]
  rcases hpc with hpc | rfl
  · cases pc <;> first | rfl | cases hpc
  · rfl

/-- Nobody has found a call that is giving its slot back: they would hold one lock. -/
theorem Sound.not_found_of_free (hs : s.Sound) (hk : s.Kept) (hp : s.threads p = .call c)
    (hpc : c.pc = .free) (hne : q ≠ p) (hq : s.threads q = .call c') :
    c'.pc.found ≠ some (c.callIndex, id) := by
  intro hf
  have hsk := (hs.slot hp (by rw [hpc]; rfl)).2.1.symm.trans ((hk.callOk hq).found _ _ hf).2.2
  have hheld : c.sk ∈ (s.roles p).held := by
    have hr : s.roles p = c.role := congrArg Thread.role hp
    rw [hr]
    simp only [Call.role, Call.held, hpc]
    split <;> simp
  rw [hsk] at hheld
  exact hne (hs.eq_of_held (held_of_found hq hf) hheld)

theorem Sound.callIndex_ne (hs : s.Sound) (hp : s.threads p = .call c)
    (hq : s.threads q = .call c') (hne : q ≠ p) (hl : c.pc.listed)
    (hl' : c'.pc.listed) : c'.callIndex ≠ c.callIndex := by
  intro heq
  have hr : (s.roles p).entry = some c.callIndex := by
    rw [show s.roles p = c.role from congrArg Thread.role hp, Call.role, hl]
    rfl
  have hr' : (s.roles q).entry = some c.callIndex := by
    rw [show s.roles q = c'.role from congrArg Thread.role hq, Call.role, hl', heq]
    rfl
  exact hne (hs.single q p _ hr' hr)

structure Unseen (old new : WedgeCall) (i : Nat) (t : Thread) : Prop where
  listed : ∀ d, t = .call d → d.pc.listed = true → d.callIndex = i → new.callId = old.callId
  wakes : ∀ d, t = .call d → d.pc.wakes = true → d.callIndex = i →
    new.reply = false → old.reply = false
  reads : ∀ d, t = .call d → d.pc.reads = true → d.callIndex = i →
    new.reply = old.reply ∧ new.values = old.values
  found : ∀ d id, t = .call d → d.pc.found = some (i, id) →
    new.callId = old.callId ∧ new.sk = old.sk
  writes : ∀ m pc, t = .reply m pc → pc.writes = true ∨ pc = .wake → m.callIndex = i →
    (new.callId = old.callId ∨ new.callId = NO_CALL) ∧ new.reply = old.reply ∧
      new.values = old.values

theorem ThreadOk.update (h : s.ThreadOk t) (hg : Grows s s')
    (hcalls : s'.calls = update s.calls i k) (hu : Unseen (s.calls i) k i t) :
    s'.ThreadOk t := by
  have hslot : ∀ j {P : WedgeCall → WedgeCall → Prop}, (∀ k, P k k) →
      (j = i → P (s.calls i) k) → P (s.calls j) (s'.calls j) := by
    intro j P hrefl
    rw [hcalls]
    exact (forall_update_iff s.calls fun j k' => (j = i → P (s.calls i) k) →
      P (s.calls j) k').mpr ⟨fun h => h rfl, fun _ _ _ => hrefl _⟩ j
  cases t with
  | idle | event pc => trivial
  | call d =>
    refine CallOk.frame h hg (fun hl => ?_) (fun hw => ?_) (fun hr => ?_) (fun j id hf => ?_)
    · exact hslot _ (P := fun k k' => k'.callId = k.callId) (fun _ => rfl) (hu.listed d rfl hl)
    · exact hslot _ (P := fun k k' => k'.reply = false → k.reply = false) (fun _ => id)
        (hu.wakes d rfl hw)
    · exact hslot _ (P := fun k k' => k'.reply = k.reply ∧ k'.values = k.values)
        (fun _ => ⟨rfl, rfl⟩) (hu.reads d rfl hr)
    · exact hslot j (P := fun k k' => k'.callId = k.callId ∧ k'.sk = k.sk)
        (fun _ => ⟨rfl, rfl⟩) fun hj => hu.found d id rfl (hj ▸ hf)
  | reply m pc =>
    exact ReplyOk.frame h hg fun hpc => hslot _
      (P := fun k k' => (k'.callId = k.callId ∨ k'.callId = NO_CALL) ∧ k'.reply = k.reply ∧
        k'.values = k.values) (fun _ => ⟨.inl rfl, rfl, rfl⟩) (hu.writes m pc rfl hpc)

theorem Kept.free (h : s.Kept) (hs : s.Sound) (hp : s.threads p = .call c) (hpc : c.pc = .free)
    (hm : Moves s s' p (c.at .endDown)) (hg : Grows s s')
    (hcalls : s'.calls = update s.calls c.callIndex
      { s.calls c.callIndex with callId := NO_CALL }) : s'.Kept := by
  have hl : c.pc.listed := by
    rw [hpc]
    rfl
  have hok := h.callOk hp
  have hend : s'.CallOk { c with pc := .endDown } :=
    { early := fun he => by cases he
      numbered := fun hid => UInt32.lt_of_lt_of_le (hok.numbered hid) hg.count
      listed := fun hl' => by cases hl'
      excused := fun hr => by cases hr
      progress := trivial
      found := fun _ _ hf => by cases hf
      earned := fun o ho => ((hok.earned o ho).mono hg).congr rfl rfl }
  refine h.goes hp hm rfl (unwritten_of_not_reads rfl) hend (fun q hne => ?_)
    (h.slots_update hm hg hcalls (fun j _ => by rw [hp]; rfl) (fun hlive => absurd rfl hlive))
  exact ThreadOk.update (h.thread q) hg hcalls
    { listed := fun d hq hl' hi => absurd hi (hs.callIndex_ne hp hq hne hl hl')
      wakes := fun d hq hw hi => absurd hi (hs.callIndex_ne hp hq hne hl (wakes_listed hw))
      reads := fun d hq hr hi => absurd hi (hs.callIndex_ne hp hq hne hl (reads_listed hr))
      found := fun d id hq hf => absurd hf (hs.not_found_of_free h hp hpc hne hq)
      writes := fun _ _ _ _ _ => ⟨.inr rfl, rfl, rfl⟩ }

theorem Kept.fresh (h : s.Kept) (hcount : s.callCount ≠ NO_CALL) (hq : s.threads q = .call c) :
    c.callId ≠ s.callCount := by
  intro heq
  have hlt := (h.callOk hq).numbered (heq ▸ hcount)
  rw [heq] at hlt
  exact UInt32.lt_irrefl _ hlt

theorem lt_succ_of_ne {n : UInt32} (h : n ≠ NO_CALL) : n < n + 1 := by
  rw [UInt32.lt_iff_toNat_lt, UInt32.toNat_add]
  have hne : n.toNat ≠ 0xFFFFFFFF := fun heq => h (UInt32.toNat_inj.mp heq)
  have := n.toNat_lt
  simp only [UInt32.toNat_one]
  omega

theorem callId_of_free (hi : s.freeCall = some i) : (s.calls i).callId = NO_CALL := by
  have := find?_some hi
  simpa using this

/-- `wedge_calls_insert`: the number is new and the slot nobody's. -/
theorem Kept.insert (h : s.Kept) (hs : s.Sound) (hp : s.threads p = .call c)
    (hpc : c.pc = .insert) (hcount : s.callCount ≠ NO_CALL) (hi : s.freeCall = some i)
    (hm : Moves s s' p ({ c with callId := s.callCount, callIndex := i }.at .insertUp))
    (hg : Grows s s') (hnext : s'.callCount = s.callCount + 1)
    (hcalls : s'.calls = update s.calls i ⟨s.callCount, c.type, c.sk, c.sockIndex, 0,
      false, { (s.calls i).values with ret := 0 }⟩) : s'.Kept := by
  have hfree := callId_of_free hi
  have hok := h.callOk hp
  have hin : (s.roles p).inCalls := by
    rw [show s.roles p = c.role from congrArg Thread.role hp, Call.role, hpc]
    rfl
  have hsent : s'.CallOk { c with pc := .insertUp, callId := s.callCount, callIndex := i } :=
    { early := fun he => by cases he
      numbered := fun _ => by
        rw [hnext]
        exact lt_succ_of_ne hcount
      listed := fun _ => by
        dsimp only
        rw [hcalls, update_self]
      excused := fun hr => by cases hr
      progress := trivial
      found := fun _ _ hf => by cases hf
      earned := fun o ho => absurd (ho.symm.trans (hok.early (by rw [hpc]; rfl)))
        (Option.some_ne_none _) }
  refine h.move hm ?_ hsent (fun q hne => ?_) ?_ ?_
    (h.slots_update hm hg hcalls (fun j _ => by rw [hp]; rfl) (fun _ => ?_))
  · rintro _ ⟨⟩ _ q d hqp hq
    exact h.fresh hcount hq
  · exact ThreadOk.update (h.thread q) hg hcalls
      { listed := fun d hq hl hi => absurd hfree (hi ▸ (hs.slot hq hl).1)
        wakes := fun d hq hw hi => absurd hfree (hi ▸ (hs.slot hq (wakes_listed hw)).1)
        reads := fun d hq hr hi => absurd hfree (hi ▸ (hs.slot hq (reads_listed hr)).1)
        found := fun d id hq hf => by
          obtain ⟨hid, hlive, -⟩ := (h.callOk hq).found i id hf
          exact absurd (hid.symm.trans hfree) hlive
        writes := fun m pc hq hw _ => absurd (hs.eq_of_inCalls (inCalls_of_writes hq hw) hin) hne }
  · rintro j ⟨⟩
  · rintro j ⟨⟩
  · exact slotOk_of_eq (by rw [hcalls, update_self]) (fun _ hr => by cases hr)
      (fun _ hpos => absurd hpos (Nat.lt_irrefl 0))

variable {m : Reply} {pc pc' : ReplyPc}

theorem Kept.replyOk (h : s.Kept) (hp : s.threads p = .reply m pc) : s.ReplyOk m pc := by
  have hok := h.thread p
  rw [hp] at hok
  exact hok

section

variable (h : s.Kept)
include h

theorem Kept.not_reads_of_writes (hp : s.threads p = .reply m pc)
    (hw : pc.writes) (q : Pid) : (s.threads q).reads m.callIndex = false := by
  by_contra hr
  have hnot := h.apart q m.callIndex (by simpa using hr) p
  rw [hp] at hnot
  simp [Thread.writes, hw] at hnot

theorem Kept.takes (hp : s.threads p = .reply m .check)
    (hid : (s.calls m.callIndex).callId = m.callId)
    (hreads : ∀ q, (s.threads q).reads m.callIndex = false) (hm : Moves s s' p (.reply m .setReply))
    (hg : Grows s s') (hcalls : s'.calls = s.calls) (hmem : m ∈ s'.replies) : s'.Kept := by
  have hsame : SameReplies s s' := .of_eq hcalls
  refine h.move hm ?_ ⟨fun _ => ⟨hmem, .inl (by rw [hcalls]; exact hid)⟩, trivial⟩
    (fun q _ => hsame.threadOk hg (h.thread q)) ?_ ?_
    (h.slots_same hm hg hcalls (fun j => by rw [hp]; rfl))
  · rintro _ ⟨⟩
  · rintro j ⟨⟩
  · intro j hj q _
    obtain rfl : m.callIndex = j := by
      simpa [Thread.writes, ReplyPc.writes] using hj
    exact hreads q

/-- One field of the reply is written into the slot.  Nobody reads it, and nobody else writes. -/
theorem Kept.writes (hs : s.Sound) (hp : s.threads p = .reply m pc)
    (hw : pc.writes) (hm : Moves s s' p (.reply m pc')) (hg : Grows s s')
    (hcalls : s'.calls = update s.calls m.callIndex k)
    (hid : k.callId = (s.calls m.callIndex).callId) (hsk : k.sk = (s.calls m.callIndex).sk)
    (hreply : k.reply) (hw' : pc'.writes ∨ pc' = .wake) (hwritten : Written k m pc')
    (hdone : pc' = .wake → k.values = m.values) : s'.Kept := by
  obtain ⟨hmem, hmeant⟩ := (h.replyOk hp).meant (.inl hw)
  have hself : s'.calls m.callIndex = k := by
    rw [hcalls, update_self]
  have hok : s'.ReplyOk m pc' :=
    ⟨fun _ => ⟨hg.replies hmem, by rw [hself, hid]; exact hmeant⟩, by rw [hself]; exact hwritten⟩
  have hunread := h.not_reads_of_writes hp hw
  have hin := inCalls_of_writes hp (.inl hw)
  refine h.move hm ?_ hok (fun q hne => ?_) ?_ ?_
    (h.slots_update hm hg hcalls (fun j hj => ?_) (fun hlive => ?_))
  · rintro _ ⟨⟩
  · refine ThreadOk.update (h.thread q) hg hcalls
      { listed := fun _ _ _ _ => hid
        wakes := fun _ _ _ _ hr => absurd (hr.symm.trans hreply) Bool.false_ne_true
        reads := fun d hq hr hi => ?_
        found := fun _ _ _ _ => ⟨hid, hsk⟩
        writes := fun m' pc hq hpc _ =>
          absurd (hs.eq_of_inCalls (inCalls_of_writes hq hpc) hin) hne }
    have hnot := hunread q
    simp [hq, Thread.reads, hr, hi] at hnot
  · rintro j ⟨⟩
  · intro j hj q _
    simp only [Thread.writes, Bool.and_eq_true, beq_iff_eq] at hj
    rw [← hj.2]
    exact hunread q
  · simp [hp, Thread.writes, hw, Ne.symm hj]
  · refine slotOk_of_eq hself (fun hu _ => ?_)
      (fun hr => absurd (hr.symm.trans hreply) Bool.false_ne_true)
    rcases hw' with hw' | rfl
    · -- the reply is still being written
      have hnot := hu p
      simp [hm.self, Thread.writes, hw'] at hnot
    · refine ⟨m, hg.replies hmem, ?_, hdone rfl⟩
      rw [hid] at hlive ⊢
      exact (hmeant.resolve_right hlive).symm

theorem Kept.visit (hp : (s.threads p).writes = fun _ => false) (hm : Moves s s' p t)
    (hs : SameTables s s') (hok : s.ThreadOk t) (hid : ∀ c, t = .call c → c.callId = NO_CALL)
    (hr : ∀ i, t.reads i = false) (hw : ∀ i, t.writes i = false) : s'.Kept := by
  refine h.move hm ?_ (hs.threadOk hok) (fun q _ => hs.threadOk (h.thread q)) ?_ ?_
    (h.slots_same hm hs.grows hs.calls (congrFun hp))
  · intro c hc hne
    exact absurd (hid c hc) hne
  · intro j hj
    exact absurd ((hr j).symm.trans hj) Bool.false_ne_true
  · intro j hj
    exact absurd ((hw j).symm.trans hj) Bool.false_ne_true

end

end State

/-! ### Whole runs -/

end FinsStack.Wedge.Threads
