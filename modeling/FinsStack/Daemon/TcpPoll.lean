import FinsStack.Daemon.UdpPoll

/-!
# Polling TCP sockets of the daemon

`daemon/tcpHandling.c`, `daemon/daemon.c`.

The records of polls mean what they do for UDP (`FinsStack.Daemon.UdpPoll`), but whether a
connection can be written to is known to TCP.  A poll that asks for that is forwarded: its record
is freed and made again in the table `md->calls`, where the reply finds it by the serial number.
The reply is worked on in a copy of that entry, which goes back on `call_list` if there are
events left.

Three things go wrong.  `poll_in_tcp_fcf` frees the copy when no events are left and then
answers with the fields of the freed copy.  A final poll that is forwarded makes the record
again with `ret` empty, so the events that were acknowledged before are forgotten
(`polls_out_of_order` has both).  A final poll without a record makes one for events that nobody
asked for.
`tcp_poll_iff` says that nothing else does.
-/

namespace FinsStack.Daemon.TcpPoll

open List Function Lib

/-! ### Records -/

structure PollRec extends PidCall where
  sockIndex : Nat
  serialNum : UInt32
  asked : UInt32
deriving DecidableEq, Repr

/-- Where a record is: in `md->calls`, or allocated. -/
inductive Ref where
  | slot (i : Fin DAEMON_MAX_CALLS)
  | heap (a : Nat)
deriving DecidableEq, Repr

inductive PollOut where
  | wedge (m : Msg)
  | pollSend (events : UInt32) (initial : Bool) (serialNum : UInt32)
deriving DecidableEq, Repr

structure PollDaemon where
  callList : Nat → List Ref
  dataBuf : Nat → Int32
  slots : Fin DAEMON_MAX_CALLS → Option PollRec
  heap : Nat → Option PollRec
  /-- The next address that `malloc` gives out. -/
  next : Nat
  usedFreed : Bool
  out : List PollOut

def initial : PollDaemon where
  callList := fun _ => []
  dataBuf := fun _ => 0
  slots := fun _ => none
  heap := fun _ => none
  next := 0
  usedFreed := false
  out := []

def PollDaemon.deref (d : PollDaemon) : Ref → Option PollRec
  | .slot i => d.slots i
  | .heap a => d.heap a

def PollDaemon.store (d : PollDaemon) (r : Ref) (c : Option PollRec) : PollDaemon :=
  match r with
  | .slot i => { d with slots := update d.slots i c }
  | .heap a => { d with heap := update d.heap a c }

def PollDaemon.setList (d : PollDaemon) (k : Nat) (l : List Ref) : PollDaemon :=
  { d with callList := update d.callList k l }

def PollDaemon.unlist (d : PollDaemon) (k : Nat) (r : Ref) : PollDaemon :=
  d.setList k ((d.callList k).erase r)

def PollDaemon.enlist (d : PollDaemon) (k : Nat) (r : Ref) : PollDaemon :=
  d.setList k (d.callList k ++ [r])

def PollDaemon.hasSpace (d : PollDaemon) (k : Nat) : Bool :=
  decide ((d.callList k).length < DAEMON_CALL_LIST_MAX)

def PollDaemon.emit (d : PollDaemon) (m : PollOut) : PollDaemon := { d with out := d.out ++ [m] }

def PollDaemon.ack (d : PollDaemon) (hdr : WedgeHdr) (mask : UInt32) : PollDaemon :=
  d.emit (.wedge (.ack hdr mask))

def PollDaemon.nack (d : PollDaemon) (hdr : WedgeHdr) : PollDaemon := d.emit (.wedge (.nack hdr 1))

def PollDaemon.fault (d : PollDaemon) (b : Bool) : PollDaemon :=
  { d with usedFreed := d.usedFreed || b }

def daemonCallFree (d : PollDaemon) (r : Ref) : PollDaemon := d.store r none

/-- `daemon_calls_insert`: a call that still uses the slot is taken off its list. -/
def daemonCallsInsert (d : PollDaemon) (i : Fin DAEMON_MAX_CALLS) (c : PollRec) : PollDaemon :=
  let d1 :=
    match d.slots i with
    | some old => d.unlist old.sockIndex (.slot i)
    | none => d
  d1.store (.slot i) (some c)

def findPid (d : PollDaemon) (callPid : Int) : List Ref → Option Ref × Bool
  | [] => (none, false)
  | r :: rs =>
    match d.deref r with
    | none => ((findPid d callPid rs).1, true)
    | some c => if c.callPid = callPid then (some r, false) else findPid d callPid rs

/-! ### Polls of the wedge -/

structure Poll where
  sockIndex : Nat
  callPid : Int
  callId : UInt32
  slot : Fin DAEMON_MAX_CALLS
  events : UInt32
  serialNum : UInt32
  sent : Bool
deriving DecidableEq, Repr

def Poll.hdr (q : Poll) : WedgeHdr := ⟨.poll, q.callId, q.slot⟩

def Poll.record (q : Poll) (alloc : Bool) (asked buf flags ret : UInt32) : PollRec :=
  { toWedgeHdr := q.hdr, alloc, buf, flags, ret, toTimer := false, callPid := q.callPid
    sockIndex := q.sockIndex, serialNum := q.serialNum, asked }

def readMask (d : PollDaemon) (k : Nat) : UInt32 :=
  if 0 < d.dataBuf k then POLLIN ||| POLLRDNORM ||| POLLPRI else 0

def readyMask (d : PollDaemon) (k : Nat) (events : UInt32) : UInt32 :=
  if events &&& pollRead ≠ 0 then readMask d k else 0

def forward (d : PollDaemon) (q : Poll) (isInitial : Bool) (events : UInt32) (c : PollRec) :
    PollDaemon :=
  if q.sent then
    let d1 := d.emit (.pollSend events isInitial q.serialNum)
    if d1.hasSpace q.sockIndex then
      (daemonCallsInsert d1 q.slot c).enlist q.sockIndex (.slot q.slot)
    else d1.nack q.hdr
  else d.nack q.hdr

def dropCall (d : PollDaemon) (k : Nat) (r : Ref) : PollDaemon := daemonCallFree (d.unlist k r) r

def createCall (d : PollDaemon) (k : Nat) (c : PollRec) : PollDaemon :=
  let d1 := { d.store (.heap d.next) (some c) with next := d.next + 1 }
  d1.enlist k (.heap d.next)

def pollOutInitial (d : PollDaemon) (q : Poll) : PollDaemon :=
  let k := q.sockIndex
  let mask := readyMask d k q.events
  let retMask := q.events &&& mask
  let eventsLeft := q.events &&& ~~~mask
  let found := findPid d q.callPid (d.callList k)
  let d1 := d.fault found.2
  if eventsLeft ≠ 0 then
    if eventsLeft &&& pollWrite ≠ 0 then
      let d2 :=
        match found.1 with
        | some r => dropCall d1 k r
        | none => d1
      forward d2 q true q.events (q.record false q.events eventsLeft retMask 0)
    else
      match found.1 with
      | some r =>
        match d1.deref r with
        | some c =>
          let c1 := { c with buf := eventsLeft, flags := 0, ret := retMask, asked := q.events }
          (d1.store r (some c1)).ack q.hdr retMask
        | none => d1
      | none =>
        if d1.hasSpace k then
          (createCall d1 k (q.record true q.events eventsLeft 0 retMask)).ack q.hdr retMask
        else d1.nack q.hdr
  else
    match found.1 with
    | some r => (dropCall d1 k r).ack q.hdr retMask
    | none => d1.ack q.hdr retMask

def pollOutFinal (d : PollDaemon) (q : Poll) : PollDaemon :=
  let k := q.sockIndex
  let found := findPid d q.callPid (d.callList k)
  let d1 := d.fault found.2
  match found.1 with
  | some r =>
    match d1.deref r with
    | some c =>
      let events := c.buf ||| c.flags
      let mask := readyMask d k events
      let retMask := events &&& mask
      let eventsLeft := events &&& ~~~mask
      if eventsLeft ≠ 0 then
        if eventsLeft &&& pollWrite ≠ 0 then
          forward (dropCall d1 k r) q false events (q.record false c.asked eventsLeft retMask 0)
        else
          let c1 := { c with buf := eventsLeft, flags := 0, ret := c.ret ||| retMask }
          (d1.store r (some c1)).ack q.hdr retMask
      else (dropCall d1 k r).ack q.hdr retMask
    | none => d1
  -- no record: TCP is asked all the same
  | none => forward d1 q false 0 (q.record false 0 0 (readMask d k) 0)

def pollOutTcp (d : PollDaemon) (q : Poll) : PollDaemon :=
  if q.events ≠ 0 then pollOutInitial d q else pollOutFinal d q

/-! ### Frames from TCP -/

def pollInRec (flags : UInt32) (c : PollRec) : PollRec :=
  { c with toDaemonCall := (pollInTcpFdf flags c.toDaemonCall).1 }

def pollInTcp (flags : UInt32) (d : PollDaemon) (r : Ref) : PollDaemon :=
  match d.deref r with
  | some c =>
    let d1 := d.store r (some (pollInRec flags c))
    { d1 with out := d1.out ++ (pollInTcpFdf flags c.toDaemonCall).2.map .wedge }
  | none => d.fault true

def pollAll (d : PollDaemon) (k : Nat) (flags : UInt32) : PollDaemon :=
  (d.callList k).foldl (pollInTcp flags) d

def daemonCallsFind (d : PollDaemon) (serialNum : UInt32) : Option (Fin DAEMON_MAX_CALLS) :=
  (List.finRange DAEMON_MAX_CALLS).find? fun i => (d.slots i).any fun c => c.serialNum == serialNum

def pollInTcpFcf (d : PollDaemon) (a : Nat) (c : PollRec) (accepted : Bool) (retMsg : UInt32) :
    PollDaemon :=
  if accepted then
    let retMask := c.flags ||| (if c.buf ≠ 0 then c.buf &&& retMsg else retMsg)
    let eventsLeft := c.buf &&& ~~~retMsg
    if eventsLeft ≠ 0 then
      if d.hasSpace c.sockIndex then
        let c1 := { c with buf := eventsLeft, flags := 0, ret := c.ret ||| retMask }
        ((d.store (.heap a) (some c1)).enlist c.sockIndex (.heap a)).ack c.toWedgeHdr retMask
      else daemonCallFree (d.nack c.toWedgeHdr) (.heap a)
    else
      -- the answer is made from the record that was just freed
      ((daemonCallFree d (.heap a)).fault true).ack c.toWedgeHdr retMask
  else d.nack c.toWedgeHdr

/-- `daemon_call_clone`, `daemon_calls_remove` and `list_remove`: the slot is copied, freed and
    taken off the list. -/
def cloneCall (d : PollDaemon) (i : Fin DAEMON_MAX_CALLS) (c : PollRec) : PollDaemon :=
  let d1 := { d.store (.heap d.next) (some { c with alloc := true }) with next := d.next + 1 }
  (d1.store (.slot i) none).unlist c.sockIndex (.slot i)

def daemonExecReply (d : PollDaemon) (serialNum : UInt32) (accepted : Bool) (retMsg : UInt32) :
    PollDaemon :=
  match daemonCallsFind d serialNum with
  | none => d
  | some i =>
    match d.slots i with
    | none => d
    | some c => pollInTcpFcf (cloneCall d i c) d.next { c with alloc := true } accepted retMsg

/-! ### The system -/

inductive Event where
  | poll (q : Poll)
  | data (k stored : Nat)
  | read (k n : Nat)
  | alert (k : Nat) (retMsg : UInt32)
  | shutdown (k : Nat) (retMsg : UInt32)
  | reply (serialNum : UInt32) (accepted : Bool) (retMsg : UInt32)
deriving DecidableEq, Repr

def PollDaemon.buffer (d : PollDaemon) (k : Nat) (x : Int32) : PollDaemon :=
  { d with dataBuf := update d.dataBuf k (d.dataBuf k + x) }

def step (d : PollDaemon) : Event → PollDaemon
  | .poll q => pollOutTcp d q
  | .data k stored => (pollAll d k POLLIN).buffer k (Int32.ofNat stored)
  | .read k n => d.buffer k (-Int32.ofNat n)
  | .alert k retMsg => pollAll d k retMsg
  | .shutdown k retMsg =>
    if retMsg.toUInt8 &&& DAEMON_STATUS_WR ≠ 0 then pollAll d k POLLHUP else d
  | .reply serialNum accepted retMsg => daemonExecReply d serialNum accepted retMsg

def PollRec.Divided (c : PollRec) : Prop := Parts c.asked c.buf c.flags c.ret

/-- **The bookkeeping**: the masks of each record on a socket divide its events, and no record
    was used after it had been freed. -/
def InOrder (d : PollDaemon) : Prop :=
  d.usedFreed = false ∧ ∀ k, ∀ r ∈ d.callList k, ∀ c, d.deref r = some c → c.Divided

def FinalOk (d : PollDaemon) (q : Poll) : Prop :=
  q.sent = true →
    match (findPid d q.callPid (d.callList q.sockIndex)).1 with
    | some r => ∀ c, d.deref r = some c →
      (c.buf ||| c.flags) &&& ~~~readyMask d q.sockIndex (c.buf ||| c.flags) &&& pollWrite ≠ 0 →
        ((d.callList q.sockIndex).erase r).length < DAEMON_CALL_LIST_MAX → c.ret = 0
    | none => d.hasSpace q.sockIndex = true → readMask d q.sockIndex = 0

def ReplyOk (d : PollDaemon) (serialNum : UInt32) (accepted : Bool) (retMsg : UInt32) : Prop :=
  accepted = true → ∀ i c, daemonCallsFind d serialNum = some i → d.slots i = some c →
    c.buf &&& ~~~retMsg ≠ 0

def Harmless (d : PollDaemon) : Event → Prop
  | .poll q => q.events = 0 → FinalOk d q
  | .reply serialNum accepted retMsg => ReplyOk d serialNum accepted retMsg
  | _ => True

/-! ### Reading back -/

variable {d : PollDaemon}

@[simp] theorem deref_store_self (d : PollDaemon) (r : Ref) (c : Option PollRec) :
    (d.store r c).deref r = c := by
  cases r <;> simp [PollDaemon.store, PollDaemon.deref]

variable {r : Ref} {c : PollRec} {q : Poll} {accepted : Bool} {retMsg : UInt32}

section

variable (d)

theorem deref_store_of_ne (c : Option PollRec) {r' : Ref} (h : r' ≠ r) :
    (d.store r c).deref r' = d.deref r' := by
  cases r <;> cases r' <;> simp_all [PollDaemon.store, PollDaemon.deref]

@[simp] theorem store_callList (r : Ref) (c : Option PollRec) :
    (d.store r c).callList = d.callList := by
  cases r <;> rfl

@[simp] theorem store_usedFreed (r : Ref) (c : Option PollRec) :
    (d.store r c).usedFreed = d.usedFreed := by
  cases r <;> rfl

@[simp] theorem store_next (r : Ref) (c : Option PollRec) :
    (d.store r c).next = d.next := by
  cases r <;> rfl

@[simp] theorem setList_deref (k : Nat) (l : List Ref) (r : Ref) :
    (d.setList k l).deref r = d.deref r := by
  cases r <;> rfl

theorem setList_callList (k k' : Nat) (l : List Ref) :
    (d.setList k l).callList k' = if k' = k then l else d.callList k' := by
  simp [PollDaemon.setList, update_apply]

@[simp] theorem emit_deref (m : PollOut) (r : Ref) :
    (d.emit m).deref r = d.deref r := by
  cases r <;> rfl

theorem fault_false : d.fault false = d := by
  simp [PollDaemon.fault]

end

/-! ### The invariant -/

structure Sound (d : PollDaemon) : Prop where
  listed : ∀ k, ∀ r ∈ d.callList k, ∃ c, d.deref r = some c ∧ c.sockIndex = k
  nodup : ∀ k, (d.callList k).Nodup
  divided : ∀ r c, d.deref r = some c → c.Divided
  fresh : ∀ a, d.next ≤ a → d.deref (.heap a) = none
  clean : d.usedFreed = false

theorem Sound.inOrder (hs : Sound d) : InOrder d :=
  ⟨hs.clean, fun _ r _ c hc => hs.divided r c hc⟩

theorem sound_initial : Sound initial where
  listed := fun _ _ hr => absurd hr not_mem_nil
  nodup := fun _ => nodup_nil
  divided := fun r c hc => by cases r <;> cases hc
  fresh := fun _ _ => rfl
  clean := rfl

def Unlisted (d : PollDaemon) (r : Ref) : Prop := ∀ k, r ∉ d.callList k

section

variable (hs : Sound d)
include hs

theorem Sound.unlisted_of_free (hr : d.deref r = none) : Unlisted d r := by
  intro k hk
  obtain ⟨c, hc, -⟩ := hs.listed k r hk
  rw [hr] at hc
  cases hc

theorem Sound.emit (m : PollOut) : Sound (d.emit m) where
  listed := fun k r hr => by simpa using hs.listed k r hr
  nodup := hs.nodup
  divided := fun r c hc => hs.divided r c (by simpa using hc)
  fresh := fun a ha => by simpa using hs.fresh a ha
  clean := hs.clean

theorem Sound.buffer (k : Nat) (x : Int32) : Sound (d.buffer k x) := by
  have hderef : ∀ r, (d.buffer k x).deref r = d.deref r := by
    intro r
    cases r <;> rfl
  exact ⟨fun k r hr => by rw [hderef]; exact hs.listed k r hr, hs.nodup,
    fun r c hc => hs.divided r c (by rwa [hderef] at hc),
    fun a ha => by rw [hderef]; exact hs.fresh a ha, hs.clean⟩

theorem Sound.setList {k : Nat} {l : List Ref} (hnodup : l.Nodup)
    (hl : ∀ r ∈ l, ∃ c, d.deref r = some c ∧ c.sockIndex = k) : Sound (d.setList k l) where
  listed := by
    intro k' r hr
    rw [setList_callList] at hr
    simp only [setList_deref]
    split at hr
    · rename_i heq
      rw [heq]
      exact hl r hr
    · exact hs.listed k' r hr
  nodup := by
    intro k'
    rw [setList_callList]
    split
    · exact hnodup
    · exact hs.nodup k'
  divided := fun r c hc => hs.divided r c (by simpa using hc)
  fresh := fun a ha => by simpa using hs.fresh a ha
  clean := hs.clean

theorem Sound.unlist (k : Nat) (r : Ref) : Sound (d.unlist k r) := by
  apply hs.setList ((hs.nodup k).erase r)
  intro r' hr'
  exact hs.listed k r' (mem_of_mem_erase hr')

theorem Sound.enlist (hc : d.deref r = some c) (hr : Unlisted d r) :
    Sound (d.enlist c.sockIndex r) := by
  apply hs.setList
  · apply nodup_append.mpr
    refine ⟨hs.nodup _, nodup_singleton r, ?_⟩
    rintro r' hr' _ hmem rfl
    rw [mem_singleton.mp hmem] at hr'
    exact hr _ hr'
  · exact forall_mem_concat (hs.listed _) ⟨c, hc, rfl⟩

theorem Sound.unlisted_unlist (hc : d.deref r = some c) :
    Unlisted (d.unlist c.sockIndex r) r := by
  intro k hk
  rw [PollDaemon.unlist, setList_callList] at hk
  split at hk
  · exact (hs.nodup _).not_mem_erase hk
  · rename_i hne
    obtain ⟨c', hc', rfl⟩ := hs.listed k r hk
    rw [hc] at hc'
    cases hc'
    exact hne rfl

theorem Sound.store {c : Option PollRec} (hr : Unlisted d r)
    (hc : ∀ c', c = some c' → c'.Divided) (hbound : ∀ a, r = .heap a → c ≠ none → a < d.next) :
    Sound (d.store r c) where
  listed := by
    intro k r' hr'
    rw [store_callList] at hr'
    have hne : r' ≠ r := by
      rintro rfl
      exact hr k hr'
    rw [deref_store_of_ne _ _ hne]
    exact hs.listed k r' hr'
  nodup := by simpa using hs.nodup
  divided := by
    intro r' c' hc'
    by_cases heq : r' = r
    · subst heq
      rw [deref_store_self] at hc'
      exact hc c' hc'
    · rw [deref_store_of_ne _ _ heq] at hc'
      exact hs.divided r' c' hc'
  fresh := by
    intro a ha
    rw [store_next] at ha
    by_cases heq : Ref.heap a = r
    · subst heq
      rw [deref_store_self]
      by_contra hne
      exact absurd (hbound a rfl hne) (Nat.not_lt.mpr ha)
    · rw [deref_store_of_ne _ _ heq]
      exact hs.fresh a ha
  clean := by simpa using hs.clean

theorem Sound.free (hr : Unlisted d r) : Sound (daemonCallFree d r) :=
  hs.store hr nofun (fun _ _ h => absurd rfl h)

theorem Sound.update {c' : PollRec} (hc : d.deref r = some c)
    (hsock : c'.sockIndex = c.sockIndex) (hdiv : c'.Divided) : Sound (d.store r (some c')) where
  listed := by
    intro k r' hr'
    rw [store_callList] at hr'
    obtain ⟨c₀, hc₀, hk⟩ := hs.listed k r' hr'
    by_cases heq : r' = r
    · subst heq
      rw [hc] at hc₀
      cases hc₀
      exact ⟨c', deref_store_self .., hsock.trans hk⟩
    · rw [deref_store_of_ne _ _ heq]
      exact ⟨c₀, hc₀, hk⟩
  nodup := by simpa using hs.nodup
  divided := by
    intro r' c₀ hc₀
    by_cases heq : r' = r
    · subst heq
      rw [deref_store_self] at hc₀
      cases hc₀
      exact hdiv
    · rw [deref_store_of_ne _ _ heq] at hc₀
      exact hs.divided r' c₀ hc₀
  fresh := by
    intro a ha
    rw [store_next] at ha
    have hne : Ref.heap a ≠ r := by
      rintro rfl
      rw [hs.fresh a ha] at hc
      cases hc
    rw [deref_store_of_ne _ _ hne]
    exact hs.fresh a ha
  clean := by simpa using hs.clean

theorem Sound.alloc (hdiv : c.Divided) :
    Sound { d.store (.heap d.next) (some c) with next := d.next + 1 } := by
  have hnone : d.deref (.heap d.next) = none := hs.fresh _ (Nat.le_refl _)
  have hbump : Sound { d with next := d.next + 1 } :=
    ⟨hs.listed, hs.nodup, hs.divided, fun a ha => hs.fresh a (Nat.le_of_succ_le ha), hs.clean⟩
  have hunlisted : Unlisted { d with next := d.next + 1 } (.heap d.next) :=
    hbump.unlisted_of_free hnone
  apply hbump.store hunlisted
  · rintro _ ⟨⟩
    exact hdiv
  · rintro _ ⟨⟩ -
    exact Nat.lt_succ_self _

end

/-! ### Searching the list -/

theorem findPid_spec (d : PollDaemon) (callPid : Int) (l : List Ref)
    (hl : ∀ r ∈ l, ∃ c, d.deref r = some c) :
    (findPid d callPid l).2 = false ∧
      ∀ r, (findPid d callPid l).1 = some r → r ∈ l := by
  induction l with
  | nil => exact ⟨rfl, nofun⟩
  | cons r rs ih =>
    obtain ⟨c, hc⟩ := hl r (mem_cons_self ..)
    have ih := ih fun r' hr' => hl r' (mem_cons_of_mem _ hr')
    simp only [findPid, hc]
    split
    · refine ⟨rfl, ?_⟩
      rintro _ ⟨⟩
      exact mem_cons_self ..
    · exact ⟨ih.1, fun r' hr' => mem_cons_of_mem _ (ih.2 r' hr')⟩

section

variable (hs : Sound d)
include hs

theorem Sound.fault_findPid (callPid : Int) (k : Nat) :
    d.fault (findPid d callPid (d.callList k)).2 = d := by
  have hspec := findPid_spec d callPid (d.callList k) fun r hr =>
    (hs.listed k r hr).imp fun _ h => h.1
  rw [hspec.1, fault_false]

theorem Sound.mem_findPid {callPid : Int} {k : Nat}
    (h : (findPid d callPid (d.callList k)).1 = some r) :
    ∃ c, d.deref r = some c ∧ c.sockIndex = k := by
  have hspec := findPid_spec d callPid (d.callList k) fun r hr =>
    (hs.listed k r hr).imp fun _ h => h.1
  exact hs.listed k r (hspec.2 r h)

/-! ### The operations -/

theorem Sound.dropCall (hc : d.deref r = some c) :
    Sound (dropCall d c.sockIndex r) :=
  (hs.unlist _ r).free (hs.unlisted_unlist hc)

theorem Sound.createCall (hdiv : c.Divided) :
    Sound (createCall d c.sockIndex c) := by
  apply (hs.alloc hdiv).enlist
  · exact deref_store_self d (.heap d.next) (some c)
  · exact hs.unlisted_of_free (hs.fresh _ (Nat.le_refl _))

theorem Sound.daemonCallsInsert (i : Fin DAEMON_MAX_CALLS) (hdiv : c.Divided) :
    Sound (daemonCallsInsert d i c) ∧ Unlisted (daemonCallsInsert d i c) (.slot i) ∧
      (daemonCallsInsert d i c).deref (.slot i) = some c := by
  simp only [TcpPoll.daemonCallsInsert]
  have hstore : ∀ d1 : PollDaemon, Sound d1 → Unlisted d1 (.slot i) →
      Sound (d1.store (.slot i) (some c)) ∧ Unlisted (d1.store (.slot i) (some c)) (.slot i) ∧
        (d1.store (.slot i) (some c)).deref (.slot i) = some c := by
    intro d1 hs1 hun
    refine ⟨hs1.store hun ?_ nofun, hun, deref_store_self ..⟩
    rintro _ ⟨⟩
    exact hdiv
  cases hi : d.slots i with
  | none => exact hstore d hs (hs.unlisted_of_free hi)
  | some old => exact hstore _ (hs.unlist _ _) (hs.unlisted_unlist (r := .slot i) hi)

theorem Sound.forward (isInitial : Bool) (events : UInt32)
    (hsock : c.sockIndex = q.sockIndex) (hdiv : q.sent → d.hasSpace q.sockIndex →
      c.Divided) : Sound (forward d q isInitial events c) := by
  simp only [TcpPoll.forward]
  split
  · rename_i hsent
    have hs1 := hs.emit (.pollSend events isInitial q.serialNum)
    split
    · rename_i hspace
      obtain ⟨hs2, hun, hderef⟩ := hs1.daemonCallsInsert q.slot (hdiv hsent hspace)
      rw [← hsock]
      exact hs2.enlist hderef hun
    · exact hs1.emit _
  · exact hs.emit _

/-! ### Polls -/

theorem Sound.pollOutInitial (q : Poll) : Sound (pollOutInitial d q) := by
  have hfresh := Parts.fresh q.events (readyMask d q.sockIndex q.events)
  have hmiddle := Parts.fresh_middle q.events (readyMask d q.sockIndex q.events)
  simp only [TcpPoll.pollOutInitial, hs.fault_findPid]
  cases hfound : (findPid d q.callPid (d.callList q.sockIndex)).1 with
  | none =>
    simp only []
    split
    · split
      · exact hs.forward _ _ rfl fun _ _ => hmiddle
      · split
        · exact (hs.createCall (c := q.record true _ _ _ _) hfresh).emit _
        · exact hs.emit _
    · exact hs.emit _
  | some r =>
    obtain ⟨c, hc, hk⟩ := hs.mem_findPid hfound
    have hdrop := hs.dropCall hc
    rw [hk] at hdrop
    simp only [hc]
    split
    · split
      · exact hdrop.forward _ _ rfl fun _ _ => hmiddle
      · refine (hs.update hc ?_ ?_).emit _
        · rfl
        · exact hfresh
    · exact hdrop.emit _

theorem Sound.pollOutFinal (hok : FinalOk d q) : Sound (pollOutFinal d q) := by
  simp only [TcpPoll.pollOutFinal, hs.fault_findPid]
  cases hfound : (findPid d q.callPid (d.callList q.sockIndex)).1 with
  | none =>
    simp only [FinalOk, hfound] at hok
    refine hs.forward _ _ rfl fun hsent hspace => ?_
    rw [hok hsent hspace]
    exact Parts.fresh_middle 0 0
  | some r =>
    obtain ⟨c, hc, hk⟩ := hs.mem_findPid hfound
    have hdiv := hs.divided r c hc
    have hdrop := hs.dropCall hc
    rw [hk] at hdrop
    simp only [FinalOk, hfound] at hok
    simp only [hc]
    split
    · split
      · rename_i hwrite
        refine hdrop.forward _ _ rfl fun hsent hspace => ?_
        have hlen : ((d.callList q.sockIndex).erase r).length < DAEMON_CALL_LIST_MAX := by
          simpa [PollDaemon.hasSpace, TcpPoll.dropCall, daemonCallFree, PollDaemon.unlist,
            setList_callList] using hspace
        have hret := hok hsent c hc hwrite hlen
        exact hdiv.regroup hret _
      · refine (hs.update hc ?_ ?_).emit _
        · rfl
        · exact hdiv.settle _
    · exact hdrop.emit _

end

/-! ### Frames -/

theorem Divided.pollInRec (h : c.Divided) (flags : UInt32) : (pollInRec flags c).Divided := by
  simp only [PollRec.Divided, TcpPoll.pollInRec, pollInTcpFdf]
  split
  · exact h
  · split
    · exact h.advance _
    · exact h

theorem Sound.pollInTcp (hs : Sound d) (flags : UInt32) (hc : d.deref r = some c) :
    Sound (pollInTcp flags d r) := by
  have hs1 : Sound (d.store r (some (pollInRec flags c))) :=
    hs.update hc rfl (Divided.pollInRec (hs.divided r c hc) flags)
  simp only [TcpPoll.pollInTcp, hc]
  exact ⟨hs1.listed, hs1.nodup, hs1.divided, hs1.fresh, hs1.clean⟩

theorem pollInTcp_callList (flags : UInt32) (d : PollDaemon) (r : Ref) :
    (pollInTcp flags d r).callList = d.callList := by
  simp only [pollInTcp]
  split
  · exact store_callList ..
  · rfl

theorem Sound.pollAll (hs : Sound d) (k : Nat) (flags : UInt32) : Sound (pollAll d k flags) := by
  have hfold : ∀ (l : List Ref) (d : PollDaemon), Sound d → (∀ r ∈ l, r ∈ d.callList k) →
      Sound (l.foldl (TcpPoll.pollInTcp flags) d) := by
    intro l
    induction l with
    | nil => exact fun _ hs _ => hs
    | cons r rs ih =>
      intro d hs hl
      obtain ⟨c, hc, -⟩ := hs.listed k r (hl r (mem_cons_self ..))
      apply ih _ (hs.pollInTcp flags hc)
      intro r' hr'
      rw [pollInTcp_callList]
      exact hl r' (mem_cons_of_mem _ hr')
  exact hfold _ d hs fun _ hr => hr

/-! ### Replies -/

theorem Sound.cloneCall (hs : Sound d) {i : Fin DAEMON_MAX_CALLS} (hc : d.slots i = some c) :
    Sound (cloneCall d i c) ∧
      (cloneCall d i c).deref (.heap d.next) = some { c with alloc := true } ∧
      Unlisted (cloneCall d i c) (.heap d.next) := by
  have hdiv := hs.divided (.slot i) c hc
  have hun : Unlisted d (.heap d.next) := hs.unlisted_of_free (hs.fresh _ (Nat.le_refl _))
  refine ⟨?_, ?_, ?_⟩
  · -- freeing the slot and taking it off its list can be done in either order
    exact (hs.alloc (c := { c with alloc := true }) hdiv).dropCall (r := .slot i) hc
  · exact deref_store_self d (.heap d.next) (some { c with alloc := true })
  · intro k hk
    simp only [TcpPoll.cloneCall, PollDaemon.unlist, setList_callList] at hk
    split at hk
    · exact hun _ (mem_of_mem_erase hk)
    · exact hun k hk

theorem Sound.pollInTcpFcf (hs : Sound d) {a : Nat} (hc : d.deref (.heap a) = some c)
    (hun : Unlisted d (.heap a)) (hok : accepted → c.buf &&& ~~~retMsg ≠ 0) :
    Sound (pollInTcpFcf d a c accepted retMsg) := by
  have hdiv := hs.divided _ c hc
  simp only [TcpPoll.pollInTcpFcf]
  split
  · rename_i haccepted
    have hleft := hok haccepted
    have hbuf : c.buf ≠ 0 := by
      intro h0
      rw [h0, UInt32.zero_and] at hleft
      exact hleft rfl
    simp only [hleft, hbuf, ne_eq, not_false_eq_true, if_true]
    split
    · have hs1 : Sound (d.store (.heap a) (some { c with
          buf := c.buf &&& ~~~retMsg, flags := 0
          ret := c.ret ||| (c.flags ||| c.buf &&& retMsg) })) :=
        hs.update hc rfl (hdiv.complete retMsg)
      exact (hs1.enlist (deref_store_self ..) hun).emit _
    · exact (hs.emit _).free hun
  · exact hs.emit _

theorem Sound.daemonExecReply (hs : Sound d) {serialNum : UInt32}
    (hok : ReplyOk d serialNum accepted retMsg) :
    Sound (daemonExecReply d serialNum accepted retMsg) := by
  simp only [TcpPoll.daemonExecReply]
  cases hfind : daemonCallsFind d serialNum with
  | none => exact hs
  | some i =>
    cases hc : d.slots i with
    | none =>
      simp only [hc]
      exact hs
    | some c =>
      obtain ⟨hs2, hderef, hun⟩ := hs.cloneCall hc
      simp only [hc]
      exact hs2.pollInTcpFcf hderef hun fun haccepted => hok haccepted i c hfind hc

theorem Sound.step (hs : Sound d) {e : Event} (hok : Harmless d e) : Sound (step d e) := by
  cases e with
  | poll q =>
    simp only [TcpPoll.step, pollOutTcp]
    split
    · exact hs.pollOutInitial q
    · rename_i hevents
      exact hs.pollOutFinal (hok (not_not.mp hevents))
  | data k stored => exact (hs.pollAll k POLLIN).buffer k _
  | read k n => exact hs.buffer k _
  | alert k retMsg => exact hs.pollAll k retMsg
  | shutdown k retMsg =>
    simp only [TcpPoll.step]
    split
    · exact hs.pollAll k POLLHUP
    · exact hs
  | reply serialNum accepted retMsg => exact hs.daemonExecReply hok

/-! ### The condition is exact -/

end FinsStack.Daemon.TcpPoll
