import FinsStack.Lib.Run
import Mathlib.Logic.Function.Basic

/-!
# The threads of the wedge

`execs/wedge/fins_stack_wedge.c`.

A socket call of an application takes a slot of `wedge_calls`, sends a message to the daemon,
and sleeps on the `wait_sem` of its slot.  A message of the daemon runs `nl_data_ready`, which
writes the reply into the slot field by field and wakes the call.  `wedge_calls_sem` and
`wedge_sockets_sem` guard the two tables, and each call holds the lock of its sock
(`lock_sock`) but for the time it sleeps.

A step of a thread is one statement that another thread can see.  All calls have the same
text but for

  * `fins_create`, which inserts the socket and keeps the lock while it sleeps;
  * `fins_accept`, which makes and locks a second sock;
  * `fins_release`, which sets `release_flag` and ends with `wedge_sockets_remove`, as a
    `fins_create` that failed does;
  * `fins_ioctl` and `fins_getsockopt`, which have ways out that give nothing back.

The daemon stays connected: the messages by which `nl_data_ready` learns that it starts or stops,
and what `wedge_calls_remove_all` and `wedge_sockets_remove_all` then do, are left out.  So is
what a call sends, and what it makes of a reply but for
`checkConfirmation`.
-/

namespace FinsStack.Wedge.Threads

/-! ### The tables -/

/-- The calls that `threads[]` counts.  Nothing is counted under the other numbers below
    `MAX_CALL_TYPES`. -/
inductive CallType where
  | socket | bind | listen | connect | accept | getname | ioctl | sendmsg | recvmsg | getsockopt
  | setsockopt | release | poll | mmap | shutdown | sendpage
deriving DecidableEq, Repr

def callTypes : List CallType :=
  [.socket, .bind, .listen, .connect, .accept, .getname, .ioctl, .sendmsg, .recvmsg, .getsockopt,
    .setsockopt, .release, .poll, .mmap, .shutdown, .sendpage]

theorem mem_callTypes (t : CallType) : t ∈ callTypes := by
  cases t <;> decide

/-- A sock, by the address of its `__sk_common`: what `lock_sock` locks. -/
abbrev Sock := Nat

/-- What the tables of the wedge know a sock by. -/
abbrev SockId := UInt32

/-- The address is cut to `__u32`, so two socks of a 64-bit kernel can have one `sock_id`. -/
def getUniqueSockId (sk : Sock) : SockId := UInt32.ofNat sk

/-- A thread: one call, or one message that `nl_data_ready` was called with. -/
abbrev Pid := Nat

def MAX_SOCKETS : Nat := 100

def MAX_CALLS : Nat := 100

def ACK : UInt32 := 200

def NACK : UInt32 := 6666

/-- The `call_id` of a slot that is not in use, `-1`. -/
def NO_CALL : UInt32 := 0xFFFFFFFF

def EINTR : Int32 := 4

/-- An entry of `wedge_sockets`. -/
structure WedgeSocket where
  /-- `none` is a `sock_id` of `-1`; the two are written together. -/
  sk : Option Sock
  threads : CallType → Int
  releaseFlag : Bool
  skNew : Option Sock

def WedgeSocket.sockId (k : WedgeSocket) : Option SockId := k.sk.map getUniqueSockId

structure Values where
  ret : UInt32
  msg : UInt32
  len : Nat
  buf : List UInt8
deriving DecidableEq, Repr

structure WedgeCall where
  callId : UInt32
  callType : CallType
  /-- The sock of the call; the slot has its `sock_id`. -/
  sk : Sock
  sockIndex : Nat
  waitSem : Nat
  reply : Bool
  values : Values
deriving DecidableEq, Repr

def WedgeCall.sockId (k : WedgeCall) : SockId := getUniqueSockId k.sk

def checkConfirmation (v : Values) : Int32 :=
  if v.ret = ACK then
    if v.len = 0 then v.msg.toInt32 else -1
  else if v.ret = NACK then (0 - v.msg).toInt32
  else -1

structure Reply where
  callId : UInt32
  callIndex : Nat
  ret : UInt32
  msg : UInt32
  data : List UInt8
deriving DecidableEq, Repr

def Reply.values (m : Reply) : Values := ⟨m.ret, m.msg, m.data.length, m.data⟩

/-! ### Where a thread is -/

inductive CallPc where
  | lock
  | enterDown
  /-- `wedge_sockets_find` or `wedge_sockets_insert`, and `threads[call_type]++`. -/
  | enter
  /-- `fins_accept`: `lock_sock(sk_new)`, of a sock made just now or left from before. -/
  | lockNew (made : Bool)
  /-- `fins_accept`: `wedge_sockets_insert` for the new sock, and `threads[call_type]++`. -/
  | enterNew (made : Bool)
  | enterUp
  | refuseUp
  | refuse
  | insertDown
  | insert
  | insertUp
  | fullUp
  | send
  /-- `fins_ioctl`: `release_sock(sk); return -1`. -/
  | abandon
  | unlockNew
  | unlock
  | wait
  | relock
  | relockNew
  | look
  | readRet
  | readMsg
  | readLen
  | readBuf
  /-- `fins_accept` has its connection: `wedge_sockets[sock_index].sk_new = NULL`. -/
  | clearDown
  | clearNew
  | clearUp
  | free
  | endDown
  | leave
  | endUp
  | endUnlockNew
  | endUnlock
  | scan (rest : List CallType)
  /-- Some thread is counted under `t`: `up(&wedge_sockets_sem)`. -/
  | scanUp (t : CallType) (rest : List CallType)
  | findDown (t : CallType) (rest : List CallType)
  | find (t : CallType) (rest : List CallType)
  | foundUp (t : CallType) (rest : List CallType) (callIndex : Nat) (callId : UInt32)
  | wake (t : CallType) (rest : List CallType) (callIndex : Nat) (callId : UInt32)
  | scanDown (t : CallType) (rest : List CallType)
  /-- No call was found: `up(&wedge_calls_sem)` and `break`. -/
  | noneUp (rest : List CallType)
  | remove
  | removeUp
  | destroyed
  | done
  | gone
deriving DecidableEq, Repr

inductive Outcome where
  | replied (v : Values)
  | unanswered (rc : Int32)
deriving DecidableEq, Repr

/-- A system call under way, with its local variables. -/
structure Call where
  type : CallType
  sk : Sock
  pc : CallPc
  sockIndex : Nat
  skNew : Sock
  callId : UInt32
  callIndex : Nat
  values : Values
  outcome : Option Outcome
deriving DecidableEq, Repr

inductive ReplyPc where
  | down
  | check
  | setReply
  | setRet
  | setMsg
  | setLen
  | setBuf
  | wake
  | up
  | done
deriving DecidableEq, Repr

/-- Where `nl_data_ready` is with a poll event; it only looks at the socket. -/
inductive EventPc where
  | down | up | done
deriving DecidableEq, Repr

inductive Thread where
  | idle
  | call (c : Call)
  | reply (m : Reply) (pc : ReplyPc)
  | event (pc : EventPc)
deriving DecidableEq, Repr

structure State where
  socketsSem : Nat
  callsSem : Nat
  /-- Who holds the lock of a sock. -/
  locks : Sock → Option Pid
  sockets : Nat → WedgeSocket
  calls : Nat → WedgeCall
  callCount : UInt32
  threads : Pid → Thread
  pids : List Pid
  replies : List Reply
  signalled : List UInt32
  /-- The calls that `wedge_sockets_remove` woke, and the sock whose socket it was removing. -/
  removed : List (UInt32 × Sock)

def initial : State where
  socketsSem := 1
  callsSem := 1
  locks := fun _ => none
  sockets := fun _ => ⟨none, fun _ => 0, false, none⟩
  calls := fun _ => ⟨NO_CALL, .socket, 0, 0, 0, false, ⟨0, 0, 0, []⟩⟩
  callCount := 0
  threads := fun _ => .idle
  pids := []
  replies := []
  signalled := []
  removed := []

/-! ### Single statements -/

namespace State

def put (s : State) (p : Pid) (t : Thread) : State :=
  { s with threads := Function.update s.threads p t }

def downSockets (s : State) (p : Pid) (t : Thread) : State :=
  if 0 < s.socketsSem then { s with socketsSem := s.socketsSem - 1 }.put p t else s

def upSockets (s : State) (p : Pid) (t : Thread) : State :=
  { s with socketsSem := s.socketsSem + 1 }.put p t

def downCalls (s : State) (p : Pid) (t : Thread) : State :=
  if 0 < s.callsSem then { s with callsSem := s.callsSem - 1 }.put p t else s

def upCalls (s : State) (p : Pid) (t : Thread) : State :=
  { s with callsSem := s.callsSem + 1 }.put p t

def lockSock (s : State) (p : Pid) (sk : Sock) (t : Thread) : State :=
  if s.locks sk = none then { s with locks := Function.update s.locks sk (some p) }.put p t else s

def releaseSock (s : State) (p : Pid) (sk : Sock) (t : Thread) : State :=
  { s with locks := Function.update s.locks sk none }.put p t

def setSocket (s : State) (i : Nat) (k : WedgeSocket) : State :=
  { s with sockets := Function.update s.sockets i k }

def setCall (s : State) (i : Nat) (k : WedgeCall) : State :=
  { s with calls := Function.update s.calls i k }

def count (s : State) (i : Nat) (t : CallType) (d : Int) : State :=
  let k := s.sockets i
  s.setSocket i { k with threads := Function.update k.threads t (k.threads t + d) }

def wedgeSocketsFind (s : State) (sockId : SockId) : Option Nat :=
  (List.range MAX_SOCKETS).find? fun i =>
    (s.sockets i).sockId == some sockId && !(s.sockets i).releaseFlag

def freeSocket (s : State) : Option Nat :=
  (List.range MAX_SOCKETS).find? fun i => (s.sockets i).sockId == none

def wedgeSocketsInsert (s : State) (i : Nat) (sk : Sock) : State :=
  s.setSocket i ⟨some sk, fun _ => 0, false, none⟩

def freeCall (s : State) : Option Nat :=
  (List.range MAX_CALLS).find? fun i => (s.calls i).callId == NO_CALL

/-- What `wedge_calls_insert` writes into it; `msg`, `len` and `buf` keep what they had. -/
def wedgeCallsInsert (s : State) (i : Nat) (callId : UInt32) (c : Call) : State :=
  let k := s.calls i
  s.setCall i
    ⟨callId, c.type, c.sk, c.sockIndex, 0, false, { k.values with ret := 0 }⟩

def wedgeCallsFind (s : State) (sockId : SockId) (sockIndex : Nat) (t : CallType) : Option Nat :=
  (List.range MAX_CALLS).find? fun i =>
    (s.calls i).callId != NO_CALL && (s.calls i).sockId == sockId &&
      (s.calls i).sockIndex == sockIndex && (s.calls i).callType == t

end State

/-! ### Calls -/

/-- What the world decides in a step: memory, user memory and `nl_send` can fail, and
    `fins_sk_create` gives a sock. -/
inductive Choice where
  | ok | fail
  /-- `copy_from_user` fails where nothing is given back. -/
  | abandon
  | sock (sk : Sock)
deriving DecidableEq, Repr

def CallType.unanswered : CallType → Int32
  | .ioctl => -1
  | .release | .poll => 0
  | _ => -EINTR

def Call.at (c : Call) (pc : CallPc) : Thread := .call { c with pc := pc }

def Call.failed (c : Call) : Bool :=
  match c.outcome with
  | some (.replied v) => checkConfirmation v != 0
  | _ => true

def Call.removes (c : Call) : Bool :=
  c.type == .release || (c.type == .socket && c.failed)

-- After the message was sent, after the sleep and at the end `fins_accept` has a second lock.
def Call.afterSend (c : Call) : CallPc := if c.type = .accept then .unlockNew else .unlock

def Call.afterLock (c : Call) : CallPc := if c.type = .accept then .relockNew else .look

def Call.afterRead (c : Call) (v : Values) : CallPc :=
  if c.type = .accept ∧ checkConfirmation v = 0 then .clearDown else .free

def Call.afterEnd (c : Call) : CallPc := if c.type = .accept then .endUnlockNew else .endUnlock

/-- `if (threads[i] < 1 || (i == call_type && threads[i] < 2)) break;`. -/
def settled (own t : CallType) (n : Int) : Bool := n < 1 || (t == own && n < 2)

theorem settled_iff {own t : CallType} {n : Int} :
    settled own t n = true ↔ n < if t = own then 2 else 1 := by
  by_cases h : t = own <;> simp [settled, h]
  omega

theorem not_settled_iff {own t : CallType} {n : Int} :
    settled own t n = false ↔ (if t = own then 2 else 1) ≤ n := by
  rw [← Bool.not_eq_true, settled_iff]
  omega

namespace State

def enter (s : State) (p : Pid) (c : Call) (ch : Choice) : State :=
  match c.type with
  | .socket =>
    match s.freeSocket with
    | none => s.put p (c.at .refuseUp)
    | some i =>
      ((s.wedgeSocketsInsert i c.sk).count i .socket 1).put p
        ({ c with sockIndex := i }.at .enterUp)
  | .accept =>
    match s.wedgeSocketsFind (getUniqueSockId c.sk) with
    | none => s.put p (c.at .refuseUp)
    | some i =>
      match (s.sockets i).skNew, ch with
      | some x, _ => s.put p ({ c with sockIndex := i, skNew := x }.at (.lockNew false))
      | none, .sock x => s.put p ({ c with sockIndex := i, skNew := x }.at (.lockNew true))
      | none, _ => s.put p (c.at .refuseUp)
  | .release =>
    match s.wedgeSocketsFind (getUniqueSockId c.sk) with
    | none => s.put p (c.at .refuseUp)
    | some i =>
      if (s.sockets i).releaseFlag then s.put p (c.at .refuseUp)
      else
        ((s.setSocket i { s.sockets i with releaseFlag := true }).count i .release 1).put p
          ({ c with sockIndex := i }.at .enterUp)
  | t =>
    match s.wedgeSocketsFind (getUniqueSockId c.sk) with
    | none => s.put p (c.at .refuseUp)
    | some i => (s.count i t 1).put p ({ c with sockIndex := i }.at .enterUp)

def enterNew (s : State) (p : Pid) (c : Call) (made : Bool) : State :=
  if made then
    match s.freeSocket with
    | none => s.put p (c.at .refuseUp)
    | some i =>
      let s1 := s.wedgeSocketsInsert i c.skNew
      let s2 := s1.setSocket c.sockIndex { s1.sockets c.sockIndex with skNew := some c.skNew }
      (s2.count c.sockIndex c.type 1).put p (c.at .enterUp)
  else (s.count c.sockIndex c.type 1).put p (c.at .enterUp)

def send (s : State) (p : Pid) (c : Call) : Choice → State
  | .ok => s.put p (c.at c.afterSend)
  | .abandon =>
    if c.type = .ioctl then s.put p (c.at .abandon)
    else if c.type = .getsockopt then s.put p (c.at .endDown)
    else s
  | _ => s.put p (c.at .free)

/-- The next statement of a call. -/
def callStep (s : State) (p : Pid) (c : Call) (ch : Choice) : State :=
  match c.pc with
  | .lock => s.lockSock p c.sk (c.at .enterDown)
  | .enterDown => s.downSockets p (c.at .enter)
  | .enter => s.enter p c ch
  | .lockNew made => s.lockSock p c.skNew (c.at (.enterNew made))
  | .enterNew made => s.enterNew p c made
  | .enterUp => s.upSockets p (c.at .insertDown)
  | .refuseUp => s.upSockets p (c.at .refuse)
  | .refuse =>
    -- `fins_create` and `fins_release` destroy the sock as it is
    if c.type = .socket ∨ c.type = .release then s.put p (c.at .destroyed)
    else s.releaseSock p c.sk (c.at .done)
  | .insertDown => s.downCalls p (c.at .insert)
  | .insert =>
    let s1 := { s with callCount := s.callCount + 1 }
    let c1 := { c with callId := s.callCount }
    match s.freeCall with
    | none => s1.put p (c1.at .fullUp)
    | some i =>
      (s1.wedgeCallsInsert i s.callCount c).put p ({ c1 with callIndex := i }.at .insertUp)
  | .insertUp => s.upCalls p (c.at .send)
  | .fullUp => s.upCalls p (c.at .endDown)
  | .send => s.send p c ch
  | .abandon => s.releaseSock p c.sk (c.at .gone)
  | .unlockNew => s.releaseSock p c.skNew (c.at .unlock)
  | .unlock =>
    -- `fins_create`: `//release_sock(sk); //no one else can use, since socket creates`
    if c.type = .socket then s.put p (c.at .wait) else s.releaseSock p c.sk (c.at .wait)
  | .wait =>
    let k := s.calls c.callIndex
    if 0 < k.waitSem then
      (s.setCall c.callIndex { k with waitSem := k.waitSem - 1 }).put p (c.at .relock)
    else s
  | .relock =>
    if c.type = .socket then s.put p (c.at .look) else s.lockSock p c.sk (c.at c.afterLock)
  | .relockNew => s.lockSock p c.skNew (c.at .look)
  | .look =>
    if (s.calls c.callIndex).reply then s.put p (c.at .readRet)
    else s.put p ({ c with outcome := some (.unanswered c.type.unanswered) }.at .free)
  | .readRet =>
    s.put p ({ c with values.ret := (s.calls c.callIndex).values.ret }.at .readMsg)
  | .readMsg =>
    s.put p ({ c with values.msg := (s.calls c.callIndex).values.msg }.at .readLen)
  | .readLen =>
    s.put p ({ c with values.len := (s.calls c.callIndex).values.len }.at .readBuf)
  | .readBuf =>
    let v := { c.values with buf := (s.calls c.callIndex).values.buf }
    s.put p ({ c with values := v, outcome := some (.replied v) }.at (c.afterRead v))
  | .clearDown => s.downSockets p (c.at .clearNew)
  | .clearNew =>
    (s.setSocket c.sockIndex { s.sockets c.sockIndex with skNew := none }).put p (c.at .clearUp)
  | .clearUp => s.upSockets p (c.at .free)
  | .free =>
    (s.setCall c.callIndex { s.calls c.callIndex with callId := NO_CALL }).put p (c.at .endDown)
  | .endDown => s.downSockets p (c.at (if c.removes then .scan callTypes else .leave))
  | .leave => (s.count c.sockIndex c.type (-1)).put p (c.at .endUp)
  | .endUp => s.upSockets p (c.at c.afterEnd)
  | .endUnlockNew => s.releaseSock p c.skNew (c.at .endUnlock)
  | .endUnlock => s.releaseSock p c.sk (c.at .done)
  | .scan [] => s.put p (c.at .remove)
  | .scan (t :: rest) =>
    if settled c.type t ((s.sockets c.sockIndex).threads t) then s.put p (c.at (.scan rest))
    else s.put p (c.at (.scanUp t rest))
  | .scanUp t rest => s.upSockets p (c.at (.findDown t rest))
  | .findDown t rest => s.downCalls p (c.at (.find t rest))
  | .find t rest =>
    match s.wedgeCallsFind (getUniqueSockId c.sk) c.sockIndex t with
    | none => s.put p (c.at (.noneUp rest))
    | some i => s.put p (c.at (.foundUp t rest i (s.calls i).callId))
  | .foundUp t rest i callId => s.upCalls p (c.at (.wake t rest i callId))
  | .wake t rest i callId =>
    let k := s.calls i
    ({ s with removed := (callId, c.sk) :: s.removed }.setCall i
      { k with waitSem := k.waitSem + 1 }).put p (c.at (.scanDown t rest))
  | .scanDown t rest => s.downSockets p (c.at (.scan (t :: rest)))
  -- the loop goes on without `wedge_sockets_sem`
  | .noneUp rest => s.upCalls p (c.at (.scan rest))
  | .remove =>
    (s.setSocket c.sockIndex { s.sockets c.sockIndex with sk := none }).put p (c.at .removeUp)
  | .removeUp => s.upSockets p (c.at .destroyed)
  | .destroyed | .done | .gone => s

/-! ### Messages of the daemon -/

/-- `nl_data_ready` on a reply. -/
def replyStep (s : State) (p : Pid) (m : Reply) (pc : ReplyPc) (ch : Choice) : State :=
  let i := m.callIndex
  let k := s.calls i
  match pc with
  | .down => s.downCalls p (.reply m .check)
  | .check =>
    if k.callId = m.callId then { s with replies := m :: s.replies }.put p (.reply m .setReply)
    else s.put p (.reply m .up)
  | .setReply => (s.setCall i { k with reply := true }).put p (.reply m .setRet)
  | .setRet => (s.setCall i { k with values.ret := m.ret }).put p (.reply m .setMsg)
  | .setMsg => (s.setCall i { k with values.msg := m.msg }).put p (.reply m .setLen)
  | .setLen => (s.setCall i { k with values.len := m.data.length }).put p (.reply m .setBuf)
  | .setBuf =>
    if m.data.length ≠ 0 ∧ ch = .fail then
      -- `kmalloc` has failed
      (s.setCall i { k with reply := false, values.buf := [] }).put p (.reply m .wake)
    else (s.setCall i { k with values.buf := m.data }).put p (.reply m .wake)
  | .wake => (s.setCall i { k with waitSem := k.waitSem + 1 }).put p (.reply m .up)
  | .up => s.upCalls p (.reply m .done)
  | .done => s

def eventStep (s : State) (p : Pid) : EventPc → State
  | .down => s.downSockets p (.event .up)
  | .up => s.upSockets p (.event .done)
  | .done => s

def runThread (s : State) (p : Pid) (ch : Choice) : State :=
  match s.threads p with
  | .idle => s
  | .call c => s.callStep p c ch
  | .reply m pc => s.replyStep p m pc ch
  | .event pc => s.eventStep p pc

def begin (s : State) (p : Pid) (t : Thread) : State :=
  match s.threads p with
  | .idle => { s with pids := p :: s.pids }.put p t
  | _ => s

def interrupt (s : State) (p : Pid) : State :=
  match s.threads p with
  | .call c =>
    if c.pc = .wait ∧ (s.calls c.callIndex).waitSem = 0 then
      { s with signalled := c.callId :: s.signalled }.put p (c.at .relock)
    else s
  | _ => s

end State

/-! ### Runs -/

inductive Event where
  | call (p : Pid) (t : CallType) (sk : Sock)
  | reply (p : Pid) (m : Reply)
  | pollEvent (p : Pid)
  | signal (p : Pid)
  | run (p : Pid) (ch : Choice)
deriving DecidableEq, Repr

def newCall (t : CallType) (sk : Sock) : Call where
  type := t
  sk := sk
  pc := .lock
  sockIndex := 0
  skNew := 0
  callId := NO_CALL
  callIndex := 0
  values := ⟨0, 0, 0, []⟩
  outcome := none

def step (s : State) : Event → State
  | .call p t sk => s.begin p (.call (newCall t sk))
  | .reply p m => if m.callIndex > MAX_CALLS then s else s.begin p (.reply m .down)
  | .pollEvent p => s.begin p (.event .down)
  | .signal p => s.interrupt p
  | .run p ch => s.runThread p ch

end FinsStack.Wedge.Threads
