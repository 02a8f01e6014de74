import FinsStack.Lib.Run
import FinsStack.Tcp.Types

/-!
# The threads of the TCP module and their locks

`tcp/tcp.c`, `tcp/tcp_in.c`, `tcp/tcp_out.c`.

One thread, `switch_to_tcp`, takes the frames; every connection has a main thread.  A frame
is handled by looking up its connection in `conn_list` or `conn_stub_list` under
`conn_list_sem`, counting the visit in `conn->threads`, and then working under `conn->sem`.
The main thread that ends takes the connection off its list, waits until nobody else is
counted, and frees it.

A step runs a thread from one operation on a lock to the next.  What happens in between is
kept as far as it decides which locks are taken and which connections live; what depends on
the rest of the connection, or on the segment, is a choice that comes with the step.
-/

namespace FinsStack.Tcp.Threads

/-- `conn->state`, as far as the locks depend on it. -/
inductive Phase where
  | closed | listen | synSent | synRecv
  | later
deriving DecidableEq, Repr

/-- Where a main thread is.  In the states from `loop` on, but for `asleep` and `stopRelock`, it
    holds `conn->sem`. -/
inductive MainPc where
  /-- `sem_wait(&conn->sem)`, before the loop and at its end. -/
  | lock
  | loop
  | body
  | unlock
  /-- It has released `conn->sem`, and may wait for `main_wait_sem`. -/
  | asleep
  | exitLock
  | exitHold
  | stop
  /-- The loop of `tcp_conn_stop`: `sem_wait(&md->conn_list_sem)`. -/
  | stopLock
  | stopHold
  | stopUnlock
  | stopRelock
  | free
  | gone
deriving DecidableEq, Repr

structure TConn where
  addr : ConnAddr
  stubList : Bool
  running : Bool
  phase : Phase
  activeOpen : Bool
  parent : Option Nat
  backlog : List Nat
  threads : Nat
  pc : MainPc
deriving DecidableEq, Repr

inductive Op where
  | close (a : ConnAddr)
  | closeStub (hostIp : UInt32) (hostPort : UInt16)
  | listen (hostIp : UInt32) (hostPort : UInt16)
  | accept (hostIp : UInt32) (hostPort : UInt16)
  | connect (a : ConnAddr)
  | use (a : ConnAddr)
  | useStub (hostIp : UInt32) (hostPort : UInt16)
  /-- A segment; `syn` when it has SYN and neither RST, ACK nor FIN. -/
  | segment (a : ConnAddr) (syn : Bool)
deriving DecidableEq, Repr

inductive Visit where
  | close
  | listen
  | accept
  | connect
  | recv
  /-- `tcp_write`, `tcp_poll`, `tcp_poll_stub`, `tcp_conn_fcf`. -/
  | other
deriving DecidableEq, Repr

inductive Nest where
  /-- `tcp_conn_search_func` on a child; the children still to be visited. -/
  | search (rest : List Nat)
  | child
  | parent
deriving DecidableEq, Repr

/-- Where `switch_to_tcp` is.  `c` is the connection it found, `d` a second one. -/
inductive SwitchPc where
  | idle
  | wantList (op : Op)
  | haveList (op : Op)
  /-- `tcp_exec_connect` has found a stub and waits for its `sem`, with `conn_list_sem`. -/
  | promote (p : Nat) (a : ConnAddr)
  | promoting (p : Nat) (a : ConnAddr)
  | enter (c : Nat) (v : Visit)
  | inside (c : Nat) (v : Visit)
  | search (c : Nat) (rest : List Nat)
  /-- `tcp_recv_listen` wants `conn_list_sem` to create a child. -/
  | createWant (c : Nat) (a : ConnAddr)
  | createHave (c : Nat) (a : ConnAddr)
  | nestWant (c d : Nat) (n : Nest)
  | nestHave (c d : Nat) (n : Nest)
  | nestEnter (c d : Nat) (n : Nest)
  | nestInside (c d : Nat) (n : Nest)
  | nestLeave (c d : Nat) (n : Nest)
  | nestUncount (c d : Nat) (n : Nest)
  | nestUnlock (c d : Nat) (n : Nest)
  | leave (c : Nat)
  | uncount (c : Nat)
  | unlock (c : Nat)
deriving DecidableEq, Repr

structure Sys where
  conns : Nat → TConn
  next : Nat
  connList : List Nat
  stubList : List Nat
  switch : SwitchPc

def tcpConnCreate (a : ConnAddr) (stubList : Bool) : TConn where
  addr := a
  stubList := stubList
  running := true
  phase := .closed
  activeOpen := false
  parent := none
  backlog := []
  threads := 2
  pc := .lock

def initial : Sys where
  conns := fun _ => tcpConnCreate ⟨0, 0, 0, 0⟩ false
  next := 0
  connList := []
  stubList := []
  switch := .idle

/-! ### Locks -/

inductive Thread where
  | switch
  | main (c : Nat)
deriving DecidableEq, Repr

inductive Lock where
  | list
  | conn (c : Nat)
deriving DecidableEq, Repr

def SwitchPc.holdsList : SwitchPc → Bool
  | .haveList _ | .promote _ _ | .promoting _ _ | .createHave _ _ | .nestHave _ _ _
  | .nestUncount _ _ _ | .uncount _ => true
  | _ => false

/-- The connections whose `sem` it holds. -/
def SwitchPc.holdsConns : SwitchPc → List Nat
  | .promoting p _ => [p]
  | .inside c _ | .search c _ | .createWant c _ | .createHave c _ | .nestWant c _ _
  | .nestHave c _ _ | .nestEnter c _ _ | .leave c | .uncount c | .unlock c => [c]
  | .nestInside c d _ | .nestLeave c d _ | .nestUncount c d _ | .nestUnlock c d _ => [c, d]
  | _ => []

def SwitchPc.waits : SwitchPc → Option Lock
  | .wantList _ | .createWant _ _ | .nestWant _ _ _ | .nestLeave _ _ _ | .leave _ => some .list
  | .promote p _ => some (.conn p)
  | .enter c _ => some (.conn c)
  | .nestEnter _ d _ => some (.conn d)
  | _ => none

def MainPc.holdsList : MainPc → Bool
  | .exitHold | .stopHold => true
  | _ => false

def MainPc.holdsConn : MainPc → Bool
  | .lock | .asleep | .stopRelock | .gone => false
  | _ => true

/-- The lock that the next operation of the main thread of `c` takes. -/
def MainPc.waits (c : Nat) : MainPc → Option Lock
  | .exitLock | .stopLock => some .list
  | .lock | .stopRelock => some (.conn c)
  | _ => none

def Holds (s : Sys) : Thread → Lock → Prop
  | .switch, .list => s.switch.holdsList = true
  | .switch, .conn c => c ∈ s.switch.holdsConns
  | .main c, .list => (s.conns c).pc.holdsList = true
  | .main c, .conn d => c = d ∧ (s.conns c).pc.holdsConn = true

def Waits (s : Sys) : Thread → Lock → Prop
  | .switch, l => s.switch.waits = some l
  | .main c, l => (s.conns c).pc.waits c = some l

def Sys.listFree (s : Sys) : Bool :=
  !s.switch.holdsList && (List.range s.next).all fun c => !(s.conns c).pc.holdsList

def Sys.connFree (s : Sys) (c : Nat) : Bool :=
  !s.switch.holdsConns.contains c && !(s.conns c).pc.holdsConn

/-! ### Changes of connections -/

def Sys.upd (s : Sys) (c : Nat) (f : TConn → TConn) : Sys :=
  { s with conns := Function.update s.conns c (f (s.conns c)) }

def tcpConnShutdown (c : TConn) : TConn := { c with running := false }

def Sys.shutdownAll (s : Sys) (l : List Nat) : Sys :=
  { s with conns := fun c => if c ∈ l then tcpConnShutdown (s.conns c) else s.conns c }

def TConn.count (c : TConn) : TConn := { c with threads := c.threads + 1 }

def TConn.uncount (c : TConn) : TConn := { c with threads := c.threads - 1 }

def Sys.findConn (s : Sys) (a : ConnAddr) : Option Nat :=
  s.connList.find? fun c => (s.conns c).addr == a

def Sys.findStub (s : Sys) (hostIp : UInt32) (hostPort : UInt16) : Option Nat :=
  s.stubList.find? fun c =>
    (s.conns c).addr.hostIp == hostIp && (s.conns c).addr.hostPort == hostPort

def Sys.createConn (s : Sys) (a : ConnAddr) (pc : SwitchPc) : Sys :=
  { s with
    conns := Function.update s.conns s.next (tcpConnCreate a false)
    next := s.next + 1
    connList := s.connList ++ [s.next]
    switch := pc }

def Sys.createStub (s : Sys) (a : ConnAddr) (pc : SwitchPc) : Sys :=
  { s with
    conns := Function.update s.conns s.next (tcpConnCreate a true)
    next := s.next + 1
    stubList := s.stubList ++ [s.next]
    switch := pc }

def Sys.visit (s : Sys) (c : Nat) (v : Visit) : Sys :=
  { s.upd c TConn.count with switch := .enter c v }

/-- The lookup, and what is done under `conn_list_sem`.  A write that finds no connection ends
    the process; here it is dropped. -/
def lookup (s : Sys) : Op → Sys
  | .close a =>
    match s.findConn a with
    | some c => s.visit c .close
    | none => { s with switch := .idle }
  | .closeStub hostIp hostPort =>
    match s.findStub hostIp hostPort with
    | some c => { s with stubList := s.stubList.erase c }.visit c .close
    | none => { s with switch := .idle }
  | .listen hostIp hostPort =>
    match s.findStub hostIp hostPort with
    | some _ => { s with switch := .idle }
    | none =>
      if s.stubList.length < TCP_CONN_MAX then
        s.createStub ⟨hostIp, hostPort, 0, 0⟩ (.enter s.next .listen)
      else { s with switch := .idle }
  | .accept hostIp hostPort =>
    match s.findStub hostIp hostPort with
    | some c => s.visit c .accept
    | none => { s with switch := .idle }
  | .connect a =>
    match s.findConn a with
    | some _ => { s with switch := .idle }
    | none =>
      if s.connList.length < TCP_CONN_MAX then
        match s.findStub a.hostIp a.hostPort with
        | some p => { s.upd p TConn.count with switch := .promote p a }
        | none => s.createConn a (.enter s.next .connect)
      else { s with switch := .idle }
  | .use a =>
    match s.findConn a with
    | some c => s.visit c .other
    | none => { s with switch := .idle }
  | .useStub hostIp hostPort =>
    match s.findStub hostIp hostPort with
    | some c => s.visit c .other
    | none => { s with switch := .idle }
  | .segment a syn =>
    match s.findConn a with
    | some c => s.visit c .recv
    | none =>
      if syn then
        match s.findStub a.hostIp a.hostPort with
        | some c => s.visit c .recv
        | none => { s with switch := .idle }
      else { s with switch := .idle }

/-- The part of `tcp_exec_connect` with both locks: a stub that runs becomes the connection, and
    keeps its flag `stub_list`; another one is dropped and a connection created. -/
def promoteStub (s : Sys) (p : Nat) (a : ConnAddr) : Sys :=
  let c := s.conns p
  let s1 := { s with stubList := s.stubList.erase p }
  if c.running then
    let s2 := if c.phase = .listen then s1.shutdownAll c.backlog else s1
    { s2.upd p fun c => { c with addr := a } with
      connList := s1.connList ++ [p], switch := .enter p .connect }
  else
    (s1.upd p TConn.uncount).createConn a (.enter s.next .connect)

/-! ### Under `conn->sem` -/

inductive Choice where
  | nothing
  | search
  | syn (a : ConnAddr)
  /-- The handshake completes; or a child is given to an `accept`. -/
  | complete
  /-- A SYN without ACK in SYN_SENT; a timeout in SYN_RECV of an active open. -/
  | simultaneous
  | fin
  /-- A reset, the last acknowledgment, a timeout, a shutdown in SYN_SENT. -/
  | shutdown
deriving DecidableEq, Repr

def tcpClose (s : Sys) (c : Nat) : Sys :=
  match (s.conns c).phase with
  | .closed | .later => s
  | .listen =>
    (s.shutdownAll (s.conns c).backlog).upd c fun x => tcpConnShutdown { x with phase := .closed }
  | .synSent => s.upd c fun x => tcpConnShutdown { x with phase := .closed }
  | .synRecv => s.upd c fun x => { x with phase := .later }

def completeOpen (s : Sys) (c : Nat) : Sys :=
  let s1 := s.upd c fun x => { x with phase := .later }
  match (s.conns c).activeOpen, (s.conns c).parent with
  | false, some p => { s1 with switch := .nestWant c p .parent }
  | _, _ => { s1 with switch := .leave c }

def tcpRecv (s : Sys) (c : Nat) (b : Choice) : Sys :=
  match (s.conns c).phase, b with
  | .listen, .syn a => { s with switch := .createWant c a }
  | .synSent, .complete | .synRecv, .complete => completeOpen s c
  | .synSent, .simultaneous =>
    { s.upd c fun x => { x with phase := .synRecv } with switch := .leave c }
  | .later, .shutdown => { s.upd c tcpConnShutdown with switch := .leave c }
  | _, _ => { s with switch := .leave c }

def visitBody (s : Sys) (c : Nat) (b : Choice) : Visit → Sys
  | .close => { tcpClose s c with switch := .leave c }
  | .listen =>
    if (s.conns c).phase = .closed then
      { s.upd c fun x => { x with phase := .listen } with switch := .leave c }
    else { s with switch := .leave c }
  | .accept =>
    if (s.conns c).phase = .listen ∧ b = .search then
      { s with switch := .search c (s.conns c).backlog }
    else { s with switch := .leave c }
  | .connect =>
    if (s.conns c).phase = .closed ∨ (s.conns c).phase = .listen then
      { s.upd c fun x => { x with phase := .synSent, activeOpen := true } with switch := .leave c }
    else { s with switch := .leave c }
  | .recv => tcpRecv s c b
  | .other =>
    match (s.conns c).phase, b with
    | .synSent, .shutdown =>
      { s.upd c fun x => tcpConnShutdown { x with phase := .closed } with switch := .leave c }
    | .synRecv, .fin => { s.upd c fun x => { x with phase := .later } with switch := .leave c }
    | _, _ => { s with switch := .leave c }

def nestBody (s : Sys) (c d : Nat) (b : Choice) : Nest → Sys
  | .search _ =>
    if (s.conns d).running ∧ (s.conns d).phase = .later ∧ b = .complete then
      s.upd c fun x => { x with backlog := x.backlog.erase d }
    else s
  | .child =>
    if (s.conns d).running then
      (s.upd d fun x => { x with phase := .synRecv, activeOpen := false, parent := some c }).upd c
        fun x => { x with backlog := x.backlog ++ [d] }
    else s
  | .parent =>
    if (s.conns d).running ∧ (s.conns d).phase = .listen ∧ b = .complete then
      s.upd d fun x => { x with backlog := x.backlog.erase c }
    else s

def Nest.next (c : Nat) : Nest → SwitchPc
  | .search rest => .search c rest
  | .child | .parent => .leave c

def stepSwitch (s : Sys) (b : Choice) : Sys :=
  match s.switch with
  | .idle => s
  | .wantList op => if s.listFree then { s with switch := .haveList op } else s
  | .haveList op => lookup s op
  | .promote p a => if s.connFree p then { s with switch := .promoting p a } else s
  | .promoting p a => promoteStub s p a
  | .enter c v => if s.connFree c then { s with switch := .inside c v } else s
  | .inside c v =>
    if (s.conns c).running then visitBody s c b v else { s with switch := .leave c }
  | .search c [] => { s with switch := .leave c }
  | .search c (d :: rest) => { s with switch := .nestWant c d (.search rest) }
  | .createWant c a => if s.listFree then { s with switch := .createHave c a } else s
  | .createHave c a =>
    match s.findConn a with
    | some _ => { s with switch := .leave c }
    | none =>
      if s.connList.length < TCP_CONN_MAX then s.createConn a (.nestEnter c s.next .child)
      else { s with switch := .leave c }
  | .nestWant c d n => if s.listFree then { s with switch := .nestHave c d n } else s
  | .nestHave c d n => { s.upd d TConn.count with switch := .nestEnter c d n }
  | .nestEnter c d n => if s.connFree d then { s with switch := .nestInside c d n } else s
  | .nestInside c d n => { nestBody s c d b n with switch := .nestLeave c d n }
  | .nestLeave c d n => if s.listFree then { s with switch := .nestUncount c d n } else s
  | .nestUncount c d n => { s.upd d TConn.uncount with switch := .nestUnlock c d n }
  | .nestUnlock c _ n => { s with switch := n.next c }
  | .leave c => if s.listFree then { s with switch := .uncount c } else s
  | .uncount c => { s.upd c TConn.uncount with switch := .unlock c }
  | .unlock _ => { s with switch := .idle }

/-! ### Main threads -/

def Sys.goto (s : Sys) (c : Nat) (pc : MainPc) : Sys := s.upd c fun x => { x with pc := pc }

def mainBody (c : TConn) (b : Choice) : TConn :=
  match c.phase, b with
  | .synSent, .shutdown | .synRecv, .shutdown | .later, .shutdown => tcpConnShutdown c
  | .synRecv, .simultaneous => { c with phase := .synSent }
  | _, _ => c

def stepMain (s : Sys) (c : Nat) (b : Choice) : Sys :=
  match (s.conns c).pc with
  | .lock => if s.connFree c then s.goto c .loop else s
  | .loop => s.goto c (if (s.conns c).running then .body else .exitLock)
  | .body => s.upd c fun x => { mainBody x b with pc := .unlock }
  | .unlock => s.goto c .asleep
  | .asleep => s.goto c .lock
  | .exitLock => if s.listFree then s.goto c .exitHold else s
  | .exitHold =>
    if (s.conns c).stubList then { s.goto c .stop with stubList := s.stubList.erase c }
    else { s.goto c .stop with connList := s.connList.erase c }
  | .stop =>
    (s.shutdownAll (s.conns c).backlog).upd c fun x => { tcpConnShutdown x with pc := .stopLock }
  | .stopLock => if s.listFree then s.goto c .stopHold else s
  | .stopHold => s.goto c (if (s.conns c).threads ≤ 1 then .free else .stopUnlock)
  | .stopUnlock => s.goto c .stopRelock
  | .stopRelock => if s.connFree c then s.goto c .stopLock else s
  | .free => s.goto c .gone
  | .gone => s

inductive ThreadEvent where
  | frame (op : Op)
  | switch (b : Choice)
  | main (c : Nat) (b : Choice)
deriving DecidableEq, Repr

def stepThreads (s : Sys) : ThreadEvent → Sys
  | .frame op => if s.switch = .idle then { s with switch := .wantList op } else s
  | .switch b => stepSwitch s b
  | .main c b => if c < s.next then stepMain s c b else s

abbrev runThreads (s : Sys) (es : List ThreadEvent) : Sys := Lib.run stepThreads s es

end FinsStack.Tcp.Threads
