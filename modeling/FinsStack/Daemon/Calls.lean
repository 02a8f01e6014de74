import FinsStack.Daemon.Socket
import FinsStack.Lib.Run
import Mathlib.Logic.Function.Basic

/-!
# The books on wedge calls

`daemon/daemon.c`, and `daemon/tcpHandling.c`, `daemon/udpHandling.c`, `daemon/icmpHandling.c` as
far as they reply or keep a call.

A call of the wedge is answered at once or kept in a slot of `md->calls` and on the
`call_list` of its socket, until data, a reply of TCP, a timer or the end of the socket
answers it.  What a handler decides depends on addresses, options and buffers; here its
*decision* is given with the event (`Decision`), and `decides` says which ones the handler of a
call and protocol can take.

Every call should be answered once.  The code has these holes:

  * `daemon_in_shutdown_tcp` answers the waiting `recvmsg` calls and takes them off the
    list, but leaves their slots and timers alone, so that a timer answers again;
  * a poll call that is kept for later events has been acknowledged, and
    `daemon_sockets_remove` refuses it once more;
  * `poll_out_tcp` throws away an older poll call of the same process, also one that waits
    for TCP;
  * `poll_in_tcp_fcf` frees the record of a call with no events left, and then reads from it
    which call it acknowledges;
  * `socketpair_out` and `sendpage_out` are empty;
  * `daemon_out` only logs a call whose index is above `DAEMON_MAX_CALLS`, and the wedge has twice
    as many.

`calls_answered_once` is about the runs that stay clear of these (`Clean`).
-/

namespace FinsStack.Daemon.Calls

open List Function Lib

/-! ### Slots and lists -/

inductive Proto where
  | icmp | udp | tcp
deriving DecidableEq, Repr

inductive WedgeCall where
  | socket | bind | listen | connect | accept | getname | ioctl | sendmsg | recvmsg | getsockopt
  | setsockopt | release | poll | mmap | socketpair | shutdown | close | sendpage
deriving DecidableEq, Repr

structure CallHdr where
  callType : WedgeCall
  callId : UInt32
  callIndex : Nat
deriving DecidableEq, Repr

structure CallSlot where
  live : Bool
  hdr : CallHdr
  pid : Nat
  sockId : UInt64
  sockIndex : Nat
  /-- Zero for a call that sent no request. -/
  serialNum : UInt32
  errQueue : Bool
  /-- The timer runs, or has fired and is to be handled. -/
  toTimer : Bool
deriving DecidableEq, Repr

/-- What stands on a `call_list`: a slot of the table, or an allocated poll call. -/
inductive ListEntry where
  | slot (i : Nat)
  | copy (hdr : CallHdr) (pid : Nat)
deriving DecidableEq, Repr

structure CallSock where
  proto : Proto
  sockId : UInt64
  callList : List ListEntry
deriving DecidableEq, Repr

structure CallTable where
  calls : Nat → CallSlot
  socks : Nat → Option CallSock
  expired : List UInt32
  answers : List CallHdr

def initial : CallTable where
  calls := fun i => ⟨false, ⟨.socket, 0, i⟩, 0, 0, 0, 0, false, false⟩
  socks := fun _ => none
  expired := []
  answers := []

def CallTable.answer (d : CallTable) (hdr : CallHdr) : CallTable :=
  { d with answers := d.answers ++ [hdr] }

def CallTable.onList (d : CallTable) (i : Nat) (f : List ListEntry → List ListEntry) : CallTable :=
  match d.socks i with
  | none => d
  | some k => { d with socks := update d.socks i (some { k with callList := f k.callList }) }

def CallTable.unlist (d : CallTable) (i : Nat) (e : ListEntry) : CallTable :=
  d.onList i fun l => l.erase e

def daemonCallsRemove (d : CallTable) (i : Nat) : CallTable :=
  { d with calls := update d.calls i { d.calls i with live := false, toTimer := false } }

/-- The socket of the call is still there. -/
def CallTable.same (d : CallTable) (s : CallSlot) : Bool :=
  (d.socks s.sockIndex).any fun k => k.sockId == s.sockId

def daemonCallsInsert (d : CallTable) (s : CallSlot) : CallTable :=
  let i := s.hdr.callIndex
  let d1 :=
    if (d.calls i).live && d.same (d.calls i) then d.unlist (d.calls i).sockIndex (.slot i) else d
  { d1 with calls := update d1.calls i s }

def keepCall (d : CallTable) (k : CallSock) (s : CallSlot) : CallTable :=
  if k.callList.length < DAEMON_CALL_LIST_MAX then
    (daemonCallsInsert d s).onList s.sockIndex fun l => l ++ [.slot s.hdr.callIndex]
  else d.answer s.hdr

def daemonCallFree (d : CallTable) : ListEntry → CallTable
  | .copy _ _ => d
  | .slot i => if (d.calls i).live then daemonCallsRemove d i else d

def refuseEntry (d : CallTable) : ListEntry → CallTable
  | .copy hdr _ => d.answer hdr
  | .slot i => if (d.calls i).live then daemonCallsRemove (d.answer (d.calls i).hdr) i else d

def daemonSocketsRemove (d : CallTable) (i : Nat) : CallTable :=
  match d.socks i with
  | none => d
  | some k => k.callList.foldl refuseEntry { d with socks := update d.socks i none }

def daemonSocketsInsert (d : CallTable) (i : Nat) (proto : Proto) (sockId : UInt64) : CallTable :=
  match d.socks i with
  | some _ => d
  | none => { d with socks := update d.socks i (some ⟨proto, sockId, []⟩) }

/-! ### Calls -/

inductive Decision where
  | answer
  /-- It keeps the call, after it has sent a request unless the number is zero. -/
  | wait (serialNum : UInt32) (errQueue toTimer : Bool)
  | remove
  | pollKeep
  | pollCopy
  | pollClear
  /-- A poll call takes an older one away and asks TCP, which it may not reach. -/
  | pollAsk (serialNum : UInt32) (sent : Bool)
  | nothing
deriving DecidableEq, Repr

def decides : Proto → WedgeCall → Decision → Bool
  | _, .socketpair, d | _, .sendpage, d => d == .nothing
  | _, .close, d => d == .remove
  | _, .recvmsg, .wait serialNum _ _ => serialNum == 0
  | .tcp, .connect, .wait _ errQueue _ | .tcp, .accept, .wait _ errQueue _ => !errQueue
  | .tcp, .sendmsg, .wait _ errQueue toTimer | .tcp, .getsockopt, .wait _ errQueue toTimer
  | .tcp, .setsockopt, .wait _ errQueue toTimer | .tcp, .release, .wait _ errQueue toTimer =>
    !errQueue && !toTimer
  | _, .release, .remove => true
  | .tcp, .poll, .pollAsk _ _ => true
  | _, .poll, .pollKeep | _, .poll, .pollCopy | _, .poll, .pollClear => true
  | _, _, d => d == .answer

def findPoll (d : CallTable) (k : CallSock) (pid : Nat) : Option ListEntry :=
  k.callList.find? fun
    | .slot i => (d.calls i).hdr.callType == .poll && (d.calls i).pid == pid
    | .copy hdr pid' => hdr.callType == .poll && pid' == pid

def dropPoll (d : CallTable) (sockIndex : Nat) (k : CallSock) (pid : Nat) : CallTable :=
  match findPoll d k pid with
  | none => d
  | some e => daemonCallFree (d.unlist sockIndex e) e

def act (d : CallTable) (k : CallSock) (hdr : CallHdr) (pid sockIndex : Nat) :
    Decision → CallTable
  | .answer | .pollKeep => d.answer hdr
  | .wait serialNum errQueue toTimer =>
    keepCall d k ⟨true, hdr, pid, k.sockId, sockIndex, serialNum, errQueue, toTimer⟩
  | .remove => (daemonSocketsRemove d sockIndex).answer hdr
  | .pollCopy =>
    if k.callList.length < DAEMON_CALL_LIST_MAX then
      (d.onList sockIndex fun l => l ++ [.copy hdr pid]).answer hdr
    else d.answer hdr
  | .pollClear => (dropPoll d sockIndex k pid).answer hdr
  | .pollAsk serialNum sent =>
    let d1 := dropPoll d sockIndex k pid
    match sent, d1.socks sockIndex with
    | true, some k1 =>
      keepCall d1 k1 ⟨true, hdr, pid, k.sockId, sockIndex, serialNum, false, false⟩
    | _, _ => d1.answer hdr
  | .nothing => d

/-- `daemon_out` when the index is in range: the socket must be the caller's. -/
def callOut (d : CallTable) (hdr : CallHdr) (pid : Nat) (sockId : UInt64) (sockIndex : Nat)
    (dec : Decision) : CallTable :=
  match d.socks sockIndex with
  | some k => if k.sockId = sockId then act d k hdr pid sockIndex dec else d.answer hdr
  | none => d.answer hdr

/-- A call whose index is out of range is not answered.  (The index `DAEMON_MAX_CALLS` passes the
    test, though the array ends before it.) -/
def daemonOut (d : CallTable) (hdr : CallHdr) (out : CallTable → CallTable) : CallTable :=
  if DAEMON_MAX_CALLS < hdr.callIndex then d else out d

/-! ### Replies, data and timers -/

inductive AfterReply where
  /-- The call is answered; a poll call is refused. -/
  | plain
  | newSocket (i : Nat) (sockId : UInt64)
  | removeSocket
  | keepCopy
  /-- A poll call with no events left: `read` is what stands in its freed record, nothing if that
      is not the header of a call. -/
  | freed (read : Option CallHdr)
deriving DecidableEq, Repr

def daemonCallsFind (d : CallTable) (serialNum : UInt32) : Option Nat :=
  (range DAEMON_MAX_CALLS).find? fun i =>
    (d.calls i).live && (d.calls i).serialNum == serialNum

def finish (d : CallTable) (s : CallSlot) : AfterReply → CallTable
  | .plain => d.answer s.hdr
  | .newSocket i sockId => (daemonSocketsInsert d i .tcp sockId).answer s.hdr
  | .removeSocket => daemonSocketsRemove (d.answer s.hdr) s.sockIndex
  | .keepCopy =>
    match d.socks s.sockIndex with
    | some k =>
      if k.callList.length < DAEMON_CALL_LIST_MAX then
        (d.onList s.sockIndex fun l => l ++ [.copy s.hdr s.pid]).answer s.hdr
      else d.answer s.hdr
    | none => d.answer s.hdr
  | .freed read => read.elim d d.answer

/-- `daemon_exec_reply`, `daemon_read_param_reply` and `daemon_set_param_reply`; only the first
    looks for an expired call, which is a `connect` or an `accept`.  The handlers of expired
    calls do not answer. -/
def daemonExecReply (d : CallTable) (serialNum : UInt32) (after : AfterReply) : CallTable :=
  if serialNum ∈ d.expired then
    let d1 := { d with expired := d.expired.erase serialNum }
    match after with
    | .newSocket i sockId => daemonSocketsInsert d1 i .tcp sockId
    | _ => d1
  else
    match daemonCallsFind d serialNum with
    | none => d
    | some i =>
      let s := d.calls i
      let d1 := daemonCallsRemove d i
      if d.same s then finish (d1.unlist s.sockIndex (.slot i)) s after else d1.answer s.hdr

def isRecvmsg (d : CallTable) (errQueue : Bool) : ListEntry → Bool
  | .slot i => (d.calls i).hdr.callType == .recvmsg && (d.calls i).errQueue == errQueue
  | .copy _ _ => false

/-- Data or an error comes: the first `recvmsg` call that waits for it is answered. -/
def serve (d : CallTable) (sockIndex : Nat) (errQueue : Bool) : CallTable :=
  match d.socks sockIndex with
  | none => d
  | some k =>
    match k.callList.find? (isRecvmsg d errQueue) with
    | some (.slot i) =>
      daemonCallsRemove ((d.unlist sockIndex (.slot i)).answer (d.calls i).hdr) i
    | _ => d

/-- The slots and timers of the calls are left alone. -/
def shutdownRd (d : CallTable) (sockIndex : Nat) : CallTable :=
  match d.socks sockIndex with
  | none => d
  | some k =>
    let taken := k.callList.filter (isRecvmsg d false)
    let d1 := d.onList sockIndex fun l => l.filter fun e => !isRecvmsg d false e
    { d1 with
      answers := d.answers ++ taken.filterMap fun
        | .slot i => some (d.calls i).hdr
        | .copy _ _ => none }

/-- `daemon_interrupt` and `daemon_handle_to`; `expires` says whether the call goes to
    `expired_call_list`. -/
def daemonHandleTo (d : CallTable) (i : Nat) (expires : Bool) : CallTable :=
  if (d.calls i).toTimer then
    let s := d.calls i
    let d1 := daemonCallsRemove d i
    if d.same s then
      let d2 := (d1.unlist s.sockIndex (.slot i)).answer s.hdr
      if expires && s.serialNum != 0 then { d2 with expired := d2.expired ++ [s.serialNum] } else d2
    else d1.answer s.hdr
  else d

/-! ### The system -/

inductive CallEvent where
  | socket (hdr : CallHdr) (sockId : UInt64) (sockIndex : Nat) (proto : Proto)
  | call (hdr : CallHdr) (pid : Nat) (sockId : UInt64) (sockIndex : Nat) (dec : Decision)
  | reply (serialNum : UInt32) (after : AfterReply)
  | serve (sockIndex : Nat) (errQueue : Bool)
  | shutdownRd (sockIndex : Nat)
  | timeout (i : Nat) (expires : Bool)
deriving DecidableEq

def stepCalls (d : CallTable) : CallEvent → CallTable
  | .socket hdr sockId sockIndex proto =>
    daemonOut d hdr fun d => (daemonSocketsInsert d sockIndex proto sockId).answer hdr
  | .call hdr pid sockId sockIndex dec =>
    daemonOut d hdr fun d => callOut d hdr pid sockId sockIndex dec
  | .reply serialNum after => daemonExecReply d serialNum after
  | .serve sockIndex errQueue => serve d sockIndex errQueue
  | .shutdownRd sockIndex => shutdownRd d sockIndex
  | .timeout i expires => daemonHandleTo d i expires

abbrev runCalls (d : CallTable) (es : List CallEvent) : CallTable := run stepCalls d es

def CallEvent.hdrs : CallEvent → List CallHdr
  | .socket hdr _ _ _ => [hdr]
  | .call hdr _ _ _ _ => [hdr]
  | _ => []

def madeCalls (es : List CallEvent) : List CallHdr := es.flatMap CallEvent.hdrs

def pending (d : CallTable) (x : CallHdr) : Bool :=
  (d.calls x.callIndex).live && (d.calls x.callIndex).hdr == x

def ListEntry.isCopy : ListEntry → Bool
  | .slot _ => false
  | .copy _ _ => true

def NoCopies (d : CallTable) (sockIndex : Nat) : Prop :=
  ∀ k ∈ d.socks sockIndex, ∀ e ∈ k.callList, e.isCopy = false
deriving Decidable

def Decision.Clean (d : CallTable) (k : CallSock) (pid sockIndex : Nat) : Decision → Prop
  | .nothing => False
  | .remove => NoCopies d sockIndex
  | .pollClear | .pollAsk _ _ => ∀ e ∈ findPoll d k pid, e.isCopy = true
  | _ => True

instance (d : CallTable) (k : CallSock) (pid sockIndex : Nat) :
    ∀ dec : Decision, Decidable (dec.Clean d k pid sockIndex)
  | .nothing => inferInstanceAs (Decidable False)
  | .remove => inferInstanceAs (Decidable (NoCopies d sockIndex))
  | .pollClear | .pollAsk _ _ => inferInstanceAs (Decidable (∀ e ∈ findPoll d k pid, _))
  | .answer | .pollKeep | .pollCopy | .wait _ _ _ => isTrue trivial

def AfterReply.Clean (d : CallTable) (i : Nat) : AfterReply → Prop
  | .removeSocket => NoCopies d (d.calls i).sockIndex
  | .freed read => read = some (d.calls i).hdr
  | _ => True

instance (d : CallTable) (i : Nat) : ∀ after : AfterReply, Decidable (after.Clean d i)
  | .removeSocket => inferInstanceAs (Decidable (NoCopies d _))
  | .freed read => inferInstanceAs (Decidable (read = _))
  | .plain | .newSocket _ _ | .keepCopy => isTrue trivial

/-- The condition.  The slot of a call is free when the call is made, which is the wedge's part;
    the rest keeps clear of the holes. -/
def Clean (d : CallTable) : CallEvent → Prop
  | .socket hdr _ _ _ => hdr.callIndex < DAEMON_MAX_CALLS
  | .call hdr pid sockId sockIndex dec =>
    hdr.callIndex < DAEMON_MAX_CALLS ∧ (d.calls hdr.callIndex).live = false ∧
      ∀ k ∈ d.socks sockIndex, k.sockId = sockId →
        decides k.proto hdr.callType dec = true ∧ dec.Clean d k pid sockIndex
  | .reply serialNum after => ∀ i ∈ daemonCallsFind d serialNum, after.Clean d i
  | .shutdownRd sockIndex =>
    ∀ k ∈ d.socks sockIndex, ∀ e ∈ k.callList, isRecvmsg d false e = false
  | _ => True

instance (d : CallTable) : ∀ e : CallEvent, Decidable (Clean d e)
  | .call _ _ _ sockIndex _ =>
    inferInstanceAs (Decidable (_ ∧ _ ∧ ∀ k ∈ d.socks sockIndex, _ → _ ∧ _))
  | .reply serialNum after =>
    inferInstanceAs (Decidable (∀ i ∈ daemonCallsFind d serialNum, after.Clean d i))
  | .shutdownRd sockIndex =>
    inferInstanceAs (Decidable (∀ k ∈ d.socks sockIndex, ∀ e ∈ k.callList, _))
  | .socket hdr _ _ _ => inferInstanceAs (Decidable (hdr.callIndex < _))
  | .serve _ _ | .timeout _ _ => isTrue trivial

/-! ### The books -/

variable {d d' : CallTable} {made : List CallHdr}

structure Booked (made : List CallHdr) (d : CallTable) : Prop where
  count : ∀ x, made.count x = d.answers.count x + (pending d x).toNat
  index : ∀ i, (d.calls i).live = true → (d.calls i).hdr.callIndex = i
  timed : ∀ i, (d.calls i).toTimer = true → (d.calls i).live = true
  listed : ∀ i k, d.socks i = some k → ∀ j, .slot j ∈ k.callList →
    (d.calls j).live = true ∧ (d.calls j).sockIndex = i ∧ (d.calls j).sockId = k.sockId
  once : ∀ i k, d.socks i = some k → ∀ j, k.callList.count (.slot j) ≤ 1

def FewerSlots (d' d : CallTable) : Prop :=
  ∀ i k', d'.socks i = some k' → ∀ j, .slot j ∈ k'.callList →
    ∃ k, d.socks i = some k ∧ k.sockId = k'.sockId ∧
      k'.callList.count (.slot j) ≤ k.callList.count (.slot j)

theorem Booked.fewer (h : Booked made d) (hcalls : d'.calls = d.calls)
    (hanswers : d'.answers = d.answers) (hsocks : FewerSlots d' d) : Booked made d' where
  count := by
    intro x
    simp only [pending, hcalls, hanswers]
    exact h.count x
  index := by
    rw [hcalls]
    exact h.index
  timed := by
    rw [hcalls]
    exact h.timed
  listed := by
    intro i k' hk' j hj
    obtain ⟨k, hk, hid, hle⟩ := hsocks i k' hk' j hj
    have hpos : 0 < k.callList.count (.slot j) :=
      Nat.lt_of_lt_of_le (count_pos_iff.mpr hj) hle
    rw [hcalls, ← hid]
    exact h.listed i k hk j (count_pos_iff.mp hpos)
  once := by
    intro i k' hk' j
    by_cases hj : .slot j ∈ k'.callList
    · obtain ⟨k, hk, _, hle⟩ := hsocks i k' hk' j hj
      exact Nat.le_trans hle (h.once i k hk j)
    · rw [count_eq_zero.mpr hj]
      exact Nat.zero_le _

variable {i pid sockIndex : Nat} {k : CallSock}

theorem FewerSlots.onList {f : List ListEntry → List ListEntry}
    (hf : ∀ l j, (f l).count (.slot j) ≤ l.count (.slot j)) : FewerSlots (d.onList i f) d := by
  intro m k' hk' j _
  cases hi : d.socks i with
  | none =>
    simp only [CallTable.onList, hi] at hk'
    exact ⟨k', hk', rfl, Nat.le_refl _⟩
  | some k =>
    simp only [CallTable.onList, hi] at hk'
    by_cases hm : m = i
    · subst hm
      simp only [update_self, Option.some.injEq] at hk'
      subst hk'
      exact ⟨k, hi, rfl, hf _ _⟩
    · rw [update_of_ne hm] at hk'
      exact ⟨k', hk', rfl, Nat.le_refl _⟩

theorem count_erase_le (e : ListEntry) (l : List ListEntry) (j : Nat) :
    (l.erase e).count (.slot j) ≤ l.count (.slot j) :=
  (erase_sublist).count_le _

theorem count_append_copy (hdr : CallHdr) (pid : Nat) (l : List ListEntry) (j : Nat) :
    (l ++ [ListEntry.copy hdr pid]).count (.slot j) ≤ l.count (.slot j) := by
  simp [count_append]

@[simp] theorem onList_calls (d : CallTable) (i : Nat) (f : List ListEntry → List ListEntry) :
    (d.onList i f).calls = d.calls := by
  unfold CallTable.onList
  split <;> rfl

@[simp] theorem onList_answers (d : CallTable) (i : Nat) (f : List ListEntry → List ListEntry) :
    (d.onList i f).answers = d.answers := by
  unfold CallTable.onList
  split <;> rfl

section

variable (h : Booked made d)
include h

theorem Booked.onList (i : Nat) {f : List ListEntry → List ListEntry}
    (hf : ∀ l j, (f l).count (.slot j) ≤ l.count (.slot j)) : Booked made (d.onList i f) :=
  h.fewer (onList_calls d i f) (onList_answers d i f) (FewerSlots.onList hf)

theorem Booked.unlist (i : Nat) (e : ListEntry) : Booked made (d.unlist i e) :=
  h.onList i (count_erase_le e)

theorem Booked.socketsInsert (i : Nat) (proto : Proto) (sockId : UInt64) :
    Booked made (daemonSocketsInsert d i proto sockId) := by
  cases hi : d.socks i with
  | some k => simpa only [daemonSocketsInsert, hi] using h
  | none =>
    simp only [daemonSocketsInsert, hi]
    refine h.fewer rfl rfl ?_
    intro m k' hk' j hj
    by_cases hm : m = i
    · subst hm
      simp only [update_self, Option.some.injEq] at hk'
      subst hk'
      exact absurd hj not_mem_nil
    · simp only [update_of_ne hm] at hk'
      exact ⟨k', hk', rfl, Nat.le_refl _⟩

theorem Booked.answered (hdr : CallHdr) : Booked (made ++ [hdr]) (d.answer hdr) where
  count := by
    intro x
    have hx := h.count x
    simp only [pending, CallTable.answer, count_append] at hx ⊢
    omega
  index := h.index
  timed := h.timed
  listed := h.listed
  once := h.once

theorem Booked.settle (hlive : (d.calls i).live)
    (hfree : ∀ j k, d.socks j = some k → .slot i ∉ k.callList) :
    Booked made (daemonCallsRemove (d.answer (d.calls i).hdr) i) := by
  have hindex := h.index i hlive
  constructor
  · intro x
    have hx := h.count x
    by_cases hxi : x.callIndex = i
    · subst hxi
      by_cases heq : (d.calls x.callIndex).hdr = x
      · simp [pending, daemonCallsRemove, CallTable.answer, heq, hlive] at hx ⊢
        exact hx
      · have hbeq : ((d.calls x.callIndex).hdr == x) = false := beq_eq_false_iff_ne.mpr heq
        simp [pending, daemonCallsRemove, CallTable.answer, heq, hbeq] at hx ⊢
        exact hx
    · have hne : (d.calls i).hdr ≠ x := by
        rintro rfl
        exact hxi hindex
      simp [pending, daemonCallsRemove, CallTable.answer, hne, update_of_ne hxi] at hx ⊢
      exact hx
  · exact (forall_update_iff d.calls fun j s => s.live = true → s.hdr.callIndex = j).mpr
      ⟨fun hj => (by cases hj), fun j _ => h.index j⟩
  · exact (forall_update_iff d.calls fun _ s => s.toTimer = true → s.live).mpr
      ⟨fun hj => (by cases hj), fun j _ => h.timed j⟩
  · intro j k hk m hm
    have hmi : m ≠ i := by
      rintro rfl
      exact hfree j k hk hm
    simp only [daemonCallsRemove, CallTable.answer, update_of_ne hmi]
    exact h.listed j k hk m hm
  · exact h.once

theorem Booked.unlist_free (i : Nat) :
    ∀ j k, (d.unlist (d.calls i).sockIndex (.slot i)).socks j = some k → .slot i ∉ k.callList := by
  intro j k hk hmem
  cases hs : d.socks (d.calls i).sockIndex with
  | none =>
    simp only [CallTable.unlist, CallTable.onList, hs] at hk
    obtain ⟨_, hindex, _⟩ := h.listed j k hk i hmem
    rw [← hindex, hs] at hk
    exact absurd hk (by simp)
  | some k0 =>
    simp only [CallTable.unlist, CallTable.onList, hs] at hk
    by_cases hj : j = (d.calls i).sockIndex
    · subst hj
      simp only [update_self, Option.some.injEq] at hk
      subst hk
      have hpos : 0 < (k0.callList.erase (.slot i)).count (.slot i) := count_pos_iff.mpr hmem
      rw [count_erase_self] at hpos
      have honce := h.once _ k0 hs i
      omega
    · rw [update_of_ne hj] at hk
      obtain ⟨_, hindex, _⟩ := h.listed j k hk i hmem
      exact hj hindex.symm

end

def settled (d : CallTable) (i : Nat) : CallTable :=
  daemonCallsRemove ((d.unlist (d.calls i).sockIndex (.slot i)).answer (d.calls i).hdr) i

theorem Booked.settled (h : Booked made d) (hlive : (d.calls i).live) :
    Booked made (settled d i) := by
  have hcalls : (d.unlist (d.calls i).sockIndex (.slot i)).calls = d.calls := onList_calls _ _ _
  have hd := (h.unlist (d.calls i).sockIndex (.slot i)).settle (i := i)
    (by rw [hcalls]; exact hlive)
    (h.unlist_free i)
  rw [hcalls] at hd
  exact hd

theorem Booked.orphaned (h : Booked made d) (hlive : (d.calls i).live)
    (hsame : d.same (d.calls i) = false) :
    Booked made ((daemonCallsRemove d i).answer (d.calls i).hdr) := by
  apply h.settle hlive
  intro j k hk hmem
  obtain ⟨_, hindex, hid⟩ := h.listed j k hk i hmem
  subst hindex
  simp [CallTable.same, hk, hid] at hsame

/-- The loop of `daemon_sockets_remove`, over slots that stand on no other list. -/
theorem Booked.refuse (l : List ListEntry) :
    ∀ {d}, Booked made d → (∀ e ∈ l, e.isCopy = false) →
      (∀ i, .slot i ∈ l → ∀ j k, d.socks j = some k → .slot i ∉ k.callList) →
      Booked made (l.foldl refuseEntry d) := by
  induction l with
  | nil =>
    intro d h _ _
    exact h
  | cons e l ih =>
    intro d h hno hfree
    have hno' : ∀ e' ∈ l, e'.isCopy = false := fun e' he' => hno e' (mem_cons_of_mem _ he')
    rw [foldl_cons]
    cases e with
    | copy hdr pid => simp [ListEntry.isCopy] at hno
    | slot i =>
      by_cases hlive : (d.calls i).live
      · simp only [refuseEntry, hlive, if_true]
        exact ih (h.settle hlive (hfree i mem_cons_self)) hno'
          fun m hm => hfree m (mem_cons_of_mem _ hm)
      · simp only [refuseEntry, hlive]
        exact ih h hno' fun m hm => hfree m (mem_cons_of_mem _ hm)

theorem Booked.socketsRemove (h : Booked made d) (hno : NoCopies d i) :
    Booked made (daemonSocketsRemove d i) := by
  cases hi : d.socks i with
  | none => simpa only [daemonSocketsRemove, hi] using h
  | some k =>
    simp only [daemonSocketsRemove, hi]
    -- without the socket the books are in order, and no other list has one of its slots
    have hgone : ∀ j k', update d.socks i none j = some k' → j ≠ i ∧ d.socks j = some k' := by
      intro j k' hk'
      by_cases hj : j = i
      · subst hj
        simp at hk'
      · rw [update_of_ne hj] at hk'
        exact ⟨hj, hk'⟩
    apply Booked.refuse
    · refine h.fewer rfl rfl ?_
      intro j k' hk' m _
      exact ⟨k', (hgone j k' hk').2, rfl, Nat.le_refl _⟩
    · exact hno k hi
    · intro m hm j k' hk' hmem
      obtain ⟨hj, hk⟩ := hgone j k' hk'
      have hown := (h.listed i k hi m hm).2.1
      have hother := (h.listed j k' hk m hmem).2.1
      exact hj (hother.symm.trans hown)

theorem Booked.keep (h : Booked made d) {s : CallSlot} (hlive : s.live)
    (hslot : (d.calls s.hdr.callIndex).live = false) (hk : d.socks s.sockIndex = some k)
    (hid : s.sockId = k.sockId) : Booked (made ++ [s.hdr]) (keepCall d k s) := by
  by_cases hroom : k.callList.length < DAEMON_CALL_LIST_MAX
  · have hfree : ∀ j k', d.socks j = some k' → .slot s.hdr.callIndex ∉ k'.callList := by
      intro j k' hk' hmem
      have := (h.listed j k' hk' _ hmem).1
      simp [hslot] at this
    simp only [keepCall, hroom, if_true, daemonCallsInsert, hslot, Bool.false_and, if_false,
      Bool.false_eq_true, CallTable.onList, hk]
    constructor
    · intro x
      have hx := h.count x
      by_cases hxi : x.callIndex = s.hdr.callIndex
      · by_cases heq : s.hdr = x
        · subst heq
          simp [pending, hslot, hlive] at hx ⊢
          exact hx
        · have hbeq : (s.hdr == x) = false := beq_eq_false_iff_ne.mpr heq
          simp [pending, hxi, hslot, heq, hbeq] at hx ⊢
          exact hx
      · have hne : s.hdr ≠ x := by
          rintro rfl
          exact hxi rfl
        simp [pending, hne, update_of_ne hxi] at hx ⊢
        exact hx
    · exact (forall_update_iff d.calls fun j s => s.live = true →
        s.hdr.callIndex = j).mpr ⟨fun _ => rfl, fun j _ => h.index j⟩
    · exact (forall_update_iff d.calls fun _ s => s.toTimer = true → s.live).mpr
        ⟨fun _ => hlive, fun j _ => h.timed j⟩
    · intro j k' hk' m hm
      by_cases hj : j = s.sockIndex
      · subst hj
        simp only [update_self, Option.some.injEq] at hk'
        subst hk'
        by_cases hmi : m = s.hdr.callIndex
        · subst hmi
          simp [hlive, hid]
        · have hold : .slot m ∈ k.callList := by simpa [hmi] using hm
          simp only [update_of_ne hmi]
          exact h.listed _ k hk m hold
      · simp only [update_of_ne hj] at hk'
        have hmi : m ≠ s.hdr.callIndex := by
          rintro rfl
          exact hfree j k' hk' hm
        simp only [update_of_ne hmi]
        exact h.listed j k' hk' m hm
    · intro j k' hk' m
      by_cases hj : j = s.sockIndex
      · subst hj
        simp only [update_self, Option.some.injEq] at hk'
        subst hk'
        have honce := h.once _ k hk m
        by_cases hmi : m = s.hdr.callIndex
        · subst hmi
          simp [count_append, count_eq_zero.mpr (hfree _ k hk)]
        · simpa [count_append, count_cons, Ne.symm hmi] using honce
      · simp only [update_of_ne hj] at hk'
        exact h.once j k' hk' m
  · simp only [keepCall, hroom, if_false]
    exact h.answered s.hdr

/-! ### Steps -/

theorem onList_sock (f : List ListEntry → List ListEntry) (hk : d.socks i = some k) :
    (d.onList i f).socks i = some { k with callList := f k.callList } := by
  simp [CallTable.onList, hk]

section

variable (hcopy : ∀ e, findPoll d k pid = some e → e.isCopy)
include hcopy

theorem dropPoll_cases (sockIndex : Nat) : dropPoll d sockIndex k pid = d ∨
    ∃ e, dropPoll d sockIndex k pid = d.unlist sockIndex e := by
  cases he : findPoll d k pid with
  | none => exact .inl (by simp only [dropPoll, he])
  | some e =>
    cases e with
    | slot i => exact absurd (hcopy _ he) (by simp [ListEntry.isCopy])
    | copy hdr pid' => exact .inr ⟨.copy hdr pid', by simp only [dropPoll, he, daemonCallFree]⟩

theorem Booked.dropPoll (h : Booked made d) : Booked made (dropPoll d sockIndex k pid) := by
  rcases dropPoll_cases hcopy sockIndex with hd | ⟨e, hd⟩ <;> rw [hd]
  · exact h
  · exact h.unlist sockIndex e

theorem dropPoll_calls : (dropPoll d sockIndex k pid).calls = d.calls := by
  rcases dropPoll_cases hcopy sockIndex with hd | ⟨e, hd⟩ <;> rw [hd]
  exact onList_calls ..

theorem dropPoll_sock (hk : d.socks sockIndex = some k) :
    ∃ k1, (dropPoll d sockIndex k pid).socks sockIndex = some k1 ∧ k1.sockId = k.sockId := by
  rcases dropPoll_cases hcopy sockIndex with hd | ⟨e, hd⟩ <;> rw [hd]
  · exact ⟨k, hk, rfl⟩
  · exact ⟨_, onList_sock _ hk, rfl⟩

end

theorem Booked.act (h : Booked made d) {hdr : CallHdr} {dec : Decision}
    (hslot : (d.calls hdr.callIndex).live = false) (hk : d.socks sockIndex = some k)
    (hclean : dec.Clean d k pid sockIndex) :
    Booked (made ++ [hdr]) (act d k hdr pid sockIndex dec) := by
  cases dec with
  | answer | pollKeep => exact h.answered hdr
  | wait serialNum errQueue toTimer =>
    exact h.keep (s := ⟨true, hdr, pid, k.sockId, sockIndex, serialNum, errQueue, toTimer⟩)
      rfl hslot hk rfl
  | remove => exact (h.socketsRemove hclean).answered hdr
  | pollCopy =>
    by_cases hroom : k.callList.length < DAEMON_CALL_LIST_MAX
    · simp only [Calls.act, hroom, if_true]
      exact (h.onList sockIndex (count_append_copy hdr pid)).answered hdr
    · simp only [Calls.act, hroom, if_false]
      exact h.answered hdr
  | pollClear => exact (h.dropPoll hclean).answered hdr
  | pollAsk serialNum sent =>
    obtain ⟨k1, hk1, hid⟩ := dropPoll_sock hclean hk
    have hd1 : Booked made (Calls.dropPoll d sockIndex k pid) := h.dropPoll hclean
    cases sent with
    | false => exact hd1.answered hdr
    | true =>
      have hslot1 : ((Calls.dropPoll d sockIndex k pid).calls hdr.callIndex).live = false := by
        rw [dropPoll_calls hclean]
        exact hslot
      simp only [Calls.act, hk1]
      exact hd1.keep (s := ⟨true, hdr, pid, k.sockId, sockIndex, serialNum, false, false⟩)
        rfl hslot1 hk1 hid.symm
  | nothing => exact absurd hclean id

theorem onList_answer (d : CallTable) (i : Nat) (f : List ListEntry → List ListEntry)
    (hdr : CallHdr) : (d.onList i f).answer hdr = (d.answer hdr).onList i f := by
  simp only [CallTable.onList, CallTable.answer]
  cases d.socks i <;> rfl

theorem socketsInsert_answer (d : CallTable) (i : Nat) (proto : Proto) (sockId : UInt64)
    (hdr : CallHdr) :
    (daemonSocketsInsert d i proto sockId).answer hdr =
      daemonSocketsInsert (d.answer hdr) i proto sockId := by
  simp only [daemonSocketsInsert, CallTable.answer]
  cases d.socks i <;> rfl

theorem unlist_remove (d : CallTable) (i j : Nat) (e : ListEntry) :
    (daemonCallsRemove d i).unlist j e = daemonCallsRemove (d.unlist j e) i := by
  simp only [CallTable.unlist, CallTable.onList, daemonCallsRemove]
  cases d.socks j <;> rfl

theorem NoCopies.unlist (h : NoCopies d i) (e : ListEntry) : NoCopies (d.unlist i e) i := by
  intro k hk e' he'
  cases hi : d.socks i with
  | none =>
    simp [CallTable.unlist, CallTable.onList, hi] at hk
  | some k0 =>
    rw [CallTable.unlist, onList_sock _ hi, Option.mem_some_iff] at hk
    subst hk
    exact h k0 hi e' (mem_of_mem_erase he')

theorem Booked.finish {s : CallSlot} (h : Booked made (d.answer s.hdr)) {after : AfterReply}
    (hno : after = .removeSocket → NoCopies d s.sockIndex)
    (hread : ∀ read, after = .freed read → read = some s.hdr) : Booked made (finish d s after) := by
  cases after with
  | plain => exact h
  | freed read =>
    rw [hread read rfl]
    exact h
  | newSocket j sockId =>
    simp only [Calls.finish, socketsInsert_answer]
    exact h.socketsInsert j .tcp sockId
  | removeSocket =>
    exact h.socketsRemove (hno rfl)
  | keepCopy =>
    cases hk : d.socks s.sockIndex with
    | none => simpa only [Calls.finish, hk] using h
    | some k =>
      by_cases hroom : k.callList.length < DAEMON_CALL_LIST_MAX
      · simp only [Calls.finish, hk, hroom, if_true, onList_answer]
        exact h.onList s.sockIndex (count_append_copy s.hdr s.pid)
      · simpa only [Calls.finish, hk, hroom, if_false] using h

theorem daemonCallsFind_live {serialNum : UInt32} (h : daemonCallsFind d serialNum = some i) :
    (d.calls i).live = true := by
  have hfound := find?_some h
  exact (Bool.and_eq_true_iff.mp hfound).1

section

variable (h : Booked made d)
include h

theorem Booked.reply {serialNum : UInt32} {after : AfterReply}
    (hclean : Clean d (.reply serialNum after)) :
    Booked made (daemonExecReply d serialNum after) := by
  by_cases hexp : serialNum ∈ d.expired
  · have hd1 : Booked made { d with expired := d.expired.erase serialNum } :=
      ⟨h.count, h.index, h.timed, h.listed, h.once⟩
    simp only [daemonExecReply, hexp, if_true]
    cases after with
    | newSocket j sockId => exact hd1.socketsInsert j .tcp sockId
    | plain | removeSocket | keepCopy | freed => exact hd1
  · simp only [daemonExecReply, hexp, if_false]
    cases hi : daemonCallsFind d serialNum with
    | none => exact h
    | some i =>
      have hlive := daemonCallsFind_live hi
      by_cases hsame : d.same (d.calls i)
      · simp only [hsame, if_true, unlist_remove]
        have hafter := hclean i hi
        refine Booked.finish (h.settled hlive) ?_ ?_
        · rintro rfl
          exact NoCopies.unlist hafter (.slot i)
        · rintro read rfl
          exact hafter
      · simp only [hsame]
        exact h.orphaned hlive (Bool.eq_false_iff.mpr hsame)

theorem Booked.serve (sockIndex : Nat) (errQueue : Bool) :
    Booked made (serve d sockIndex errQueue) := by
  cases hk : d.socks sockIndex with
  | none => simpa only [Calls.serve, hk] using h
  | some k =>
    cases hfind : k.callList.find? (isRecvmsg d errQueue) with
    | none => simpa only [Calls.serve, hk, hfind] using h
    | some e =>
      cases e with
      | copy hdr pid => simpa only [Calls.serve, hk, hfind] using h
      | slot i =>
        obtain ⟨hlive, hindex, _⟩ := h.listed sockIndex k hk i (mem_of_find?_eq_some hfind)
        simp only [Calls.serve, hk, hfind]
        rw [← hindex]
        exact h.settled hlive

theorem Booked.shutdownRd (hclean : Clean d (.shutdownRd sockIndex)) :
    Booked made (shutdownRd d sockIndex) := by
  cases hk : d.socks sockIndex with
  | none => simpa only [Calls.shutdownRd, hk] using h
  | some k =>
    have hnone : k.callList.filter (isRecvmsg d false) = [] := by
      simpa using hclean k hk
    simp only [Calls.shutdownRd, hk, hnone, filterMap_nil, append_nil]
    apply h.fewer
    · exact onList_calls _ _ _
    · rfl
    · exact FewerSlots.onList fun l j => filter_sublist.count_le _

theorem Booked.timeout (i : Nat) (expires : Bool) : Booked made (daemonHandleTo d i expires) := by
  by_cases hto : (d.calls i).toTimer
  · have hlive := h.timed i hto
    by_cases hsame : d.same (d.calls i)
    · have hd2 := h.settled hlive
      simp only [daemonHandleTo, hto, hsame, if_true, unlist_remove]
      split
      · exact ⟨hd2.count, hd2.index, hd2.timed, hd2.listed, hd2.once⟩
      · exact hd2
    · simp only [daemonHandleTo, hto, hsame, if_true]
      exact h.orphaned hlive (Bool.eq_false_iff.mpr hsame)
  · simp only [daemonHandleTo, hto]
    exact h

theorem Booked.step {e : CallEvent} (hclean : Clean d e) :
    Booked (made ++ e.hdrs) (stepCalls d e) := by
  cases e with
  | socket hdr sockId sockIndex proto =>
    simp only [stepCalls, daemonOut, Nat.not_lt.mpr (Nat.le_of_lt hclean), if_false]
    exact (h.socketsInsert sockIndex proto sockId).answered hdr
  | call hdr pid sockId sockIndex dec =>
    obtain ⟨hrange, hslot, hdec⟩ := hclean
    simp only [stepCalls, daemonOut, Nat.not_lt.mpr (Nat.le_of_lt hrange), if_false, callOut,
      CallEvent.hdrs]
    cases hk : d.socks sockIndex with
    | none => exact h.answered hdr
    | some k =>
      by_cases hid : k.sockId = sockId
      · simp only [hid, if_true]
        exact h.act hslot hk (hdec k hk hid).2
      · simp only [hid, if_false]
        exact h.answered hdr
  | reply serialNum after =>
    simpa only [stepCalls, CallEvent.hdrs, append_nil] using h.reply hclean
  | serve sockIndex errQueue =>
    simpa only [stepCalls, CallEvent.hdrs, append_nil] using h.serve sockIndex errQueue
  | shutdownRd sockIndex =>
    simpa only [stepCalls, CallEvent.hdrs, append_nil] using h.shutdownRd hclean
  | timeout i expires =>
    simpa only [stepCalls, CallEvent.hdrs, append_nil] using h.timeout i expires

end

theorem Booked.initially : Booked [] initial where
  count := by
    intro x
    simp [initial, pending]
  index := by
    intro i _
    rfl
  timed := by
    intro i hto
    exact absurd hto (by simp [initial])
  listed := by
    intro i k hk
    exact absurd hk (by simp [initial])
  once := by
    intro i k hk
    exact absurd hk (by simp [initial])

theorem Booked.run {es : List CallEvent} (h : Booked made d)
    (hes : Steps stepCalls Clean d es) : Booked (made ++ madeCalls es) (runCalls d es) := by
  induction es generalizing made d with
  | nil => simpa [madeCalls] using h
  | cons e es ih =>
    have hrest := ih (h.step hes.1) hes.2
    simpa [madeCalls, append_assoc] using hrest

end FinsStack.Daemon.Calls
