import FinsStack.Tcp.AccountView
import FinsStack.Tcp.RecvQueue

/-!
# The TCP module: all its connections and its two lists

`tcp/tcp_out.c`, `tcp/tcp_in.c`, `tcp/tcp.c`.

A connection is what the model of one connection says (`step`); this file puts many of them
together.  A frame is handled by looking up its connection in `conn_list` or
`conn_stub_list`; what it does to the parent, to the children and to the lists is done in the
same event.  The main thread that has left its loop takes its connection off the list that
`stub_list` names, stops the children and frees the connection.

A connection that was freed keeps its number and what it has sent, and nothing happens to it
any more: what the code does with a connection it finds in a list after it was freed is not
modelled.
-/

namespace FinsStack.Tcp

def POLLERR : UInt32 := 8

structure Slot where
  conn : TcpConn
  stubList : Bool
  parent : Option Nat
  freed : Bool

structure TcpModule where
  slots : Nat → Slot
  next : Nat
  connList : List Nat
  connStubList : List Nat
  out : List Out
  /-- History: the frames given to the module that are to be answered. -/
  given : List Request

/-! ### Changes -/

def Slot.act (x : Slot) (md : TcpData) (a : Action) : Slot :=
  if x.freed then x else { x with conn := step x.conn ⟨md, a⟩ }

def TcpModule.act (s : TcpModule) (md : TcpData) (i : Nat) (a : Action) : TcpModule :=
  { s with slots := Function.update s.slots i ((s.slots i).act md a) }

def TcpModule.shutdownAll (s : TcpModule) (md : TcpData) (l : List Nat) : TcpModule :=
  { s with slots := fun i => if i ∈ l then (s.slots i).act md .shutdown else s.slots i }

def TcpModule.addConn (s : TcpModule) (c : TcpConn) (parent : Option Nat) : TcpModule :=
  { s with
    slots := Function.update s.slots s.next ⟨c, false, parent, false⟩
    next := s.next + 1
    connList := s.connList ++ [s.next] }

def TcpModule.addStub (s : TcpModule) (c : TcpConn) : TcpModule :=
  { s with
    slots := Function.update s.slots s.next ⟨c, true, none, false⟩
    next := s.next + 1
    connStubList := s.connStubList ++ [s.next] }

def TcpModule.send (s : TcpModule) (o : Out) : TcpModule := { s with out := s.out ++ [o] }

def TcpModule.give (s : TcpModule) (r : Request) : TcpModule := { s with given := s.given ++ [r] }

def TcpModule.findConn (s : TcpModule) (a : ConnAddr) : Option Nat :=
  s.connList.find? fun i => (s.slots i).conn.addr == a

def TcpModule.findStub (s : TcpModule) (hostIp : UInt32) (hostPort : UInt16) : Option Nat :=
  s.connStubList.find? fun i =>
    (s.slots i).conn.addr.hostIp == hostIp && (s.slots i).conn.addr.hostPort == hostPort

def TcpModule.hasRoom (s : TcpModule) : Bool := decide (s.connList.length < TCP_CONN_MAX)

def Slot.listens (x : Slot) : Bool := !x.freed && x.conn.runningFlag && x.conn.state == .listen

/-- `tcp_conn_search_func` takes this child. -/
def Slot.ready (x : Slot) : Bool :=
  !x.freed && x.conn.runningFlag && x.conn.state == .established && !x.conn.signaled

/-! ### Segments -/

def TcpSeg.target (seg : TcpSeg) : ConnAddr := ⟨seg.dstIp, seg.dstPort, seg.srcIp, seg.srcPort⟩

def TcpModule.recvEnv (s : TcpModule) (i : Nat) (seg : TcpSeg) (rand : UInt32) : RecvEnv where
  rand := rand
  parent := (s.slots i).parent.map fun p => (s.slots p).conn
  known := (s.findConn seg.target).isSome
  room := s.hasRoom
  child := s.next

def Slot.completes (x : Slot) (c' : TcpConn) : Bool :=
  (x.conn.state == .synSent || x.conn.state == .synRecv) && c'.state == .established &&
    x.conn.ff.isNone && !x.conn.activeOpen

/-- `tcp_recv`, with the child that a listener creates and with the parent of a connection that
    opens. -/
def TcpModule.recv (s : TcpModule) (md : TcpData) (i : Nat) (seg : TcpSeg) (rand : UInt32) :
    TcpModule :=
  let x := s.slots i
  let env := s.recvEnv i seg rand
  let s1 := s.act md i (.recv seg env)
  if x.freed then s
  else if x.conn.takesChild seg env.known env.room then
    s1.addConn (tcpListenChild md x.conn seg rand) (some i)
  else if x.completes (s1.slots i).conn then
    match x.parent with
    | some p => s1.act md p (.childAccepted i)
    | none => s1
  else s1

def tcpInFdf (s : TcpModule) (md : TcpData) (seg : TcpSeg) (rand : UInt32) : TcpModule :=
  match s.findConn seg.target with
  | some i => s.recv md i seg rand
  | none =>
    if hasFlag seg.flags FLAG_SYN && !hasFlag seg.flags (FLAG_RST ||| FLAG_ACK ||| FLAG_FIN) then
      match s.findStub seg.dstIp seg.dstPort with
      | some i => s.recv md i seg rand
      | none => s.send (.seg .control (rstReply seg))
    else if hasFlag seg.flags FLAG_RST then s
    else s.send (.seg .control (rstReply seg))

/-! ### Calls of the application -/

/-- `tcp_out_fdf`.  Without a connection the source dereferences NULL; here the frame is lost. -/
def tcpOutFdf (s : TcpModule) (md : TcpData) (a : ConnAddr) (d : Pdu) (flags serialNum : UInt32) :
    TcpModule :=
  match s.findConn a with
  | some i => s.act md i (.write d flags serialNum)
  | none => s

def TcpModule.close (s : TcpModule) (md : TcpData) (i : Nat) (ff : Fcf) : TcpModule :=
  let s1 := s.act md i (.close ff)
  if (s.slots i).listens then s1.shutdownAll md (s.slots i).conn.backlog else s1

def tcpExecClose (s : TcpModule) (md : TcpData) (a : ConnAddr) (ff : Fcf) : TcpModule :=
  match s.findConn a with
  | some i => s.close md i ff
  | none => s

def tcpExecCloseStub (s : TcpModule) (md : TcpData) (hostIp : UInt32) (hostPort : UInt16)
    (ff : Fcf) : TcpModule :=
  match s.findStub hostIp hostPort with
  | some i => { s with connStubList := s.connStubList.erase i }.close md i ff
  | none => s

def tcpExecListen (s : TcpModule) (md : TcpData) (hostIp : UInt32) (hostPort : UInt16)
    (backlog : Nat) : TcpModule :=
  match s.findStub hostIp hostPort with
  | some _ => s
  | none =>
    if s.connStubList.length < TCP_CONN_MAX then
      s.addStub (step (tcpConnCreate md ⟨hostIp, hostPort, 0, 0⟩) ⟨md, .listen backlog⟩)
    else s

/-- `tcp_accept`: the first child of the backlog that is ready answers, or the call waits. -/
def TcpModule.accept (s : TcpModule) (md : TcpData) (i : Nat) (ff : Fcf) : TcpModule :=
  let c := (s.slots i).conn
  if (s.slots i).listens && c.ff.isNone then
    match c.backlog.find? fun d => (s.slots d).ready with
    | some d => (s.act md d (.search ff)).act md i (.accept ff (some d))
    | none => s.act md i (.accept ff none)
  else s.act md i (.accept ff none)

def tcpExecAccept (s : TcpModule) (md : TcpData) (hostIp : UInt32) (hostPort : UInt16) (ff : Fcf) :
    TcpModule :=
  match s.findStub hostIp hostPort with
  | some i => s.accept md i ff
  | none => s.send (.reply ff FCF_FALSE 1)

def TcpModule.connectNew (s : TcpModule) (md : TcpData) (a : ConnAddr) (ff : Fcf) (rand : UInt32) :
    TcpModule :=
  s.addConn (step (tcpConnCreate md a) ⟨md, .connect ff rand⟩) none

def TcpModule.promote (s : TcpModule) (md : TcpData) (p : Nat) (a : ConnAddr) (ff : Fcf)
    (rand : UInt32) : TcpModule :=
  let s1 := { s with connStubList := s.connStubList.erase p }
  if !(s.slots p).freed && (s.slots p).conn.runningFlag then
    let s2 := if (s.slots p).conn.state = .listen then
        s1.shutdownAll md (s.slots p).conn.backlog
      else s1
    let s3 := (s2.act md p (.stubConnect a.remIp a.remPort)).act md p (.connect ff rand)
    { s3 with connList := s3.connList ++ [p] }
  else s1.connectNew md a ff rand

def tcpExecConnect (s : TcpModule) (md : TcpData) (a : ConnAddr) (ff : Fcf) (rand : UInt32) :
    TcpModule :=
  match s.findConn a with
  | some _ => s
  | none =>
    if s.hasRoom then
      match s.findStub a.hostIp a.hostPort with
      | some p => s.promote md p a ff rand
      | none => s.connectNew md a ff rand
    else s

def TcpModule.find (s : TcpModule) (connected : Bool) (a : ConnAddr) : Option Nat :=
  if connected then s.findConn a else s.findStub a.hostIp a.hostPort

def tcpExecPoll (s : TcpModule) (md : TcpData) (connected : Bool) (a : ConnAddr) (ff : Fcf)
    (initial events : UInt32) : TcpModule :=
  match s.find connected a with
  | some i =>
    s.act md i (if connected then .poll ff initial events else .pollStub ff initial events)
  | none => s.send (.reply ff FCF_TRUE POLLERR)

def tcpFcfMatch (s : TcpModule) (md : TcpData) (connected : Bool) (a : ConnAddr) (ff : Fcf)
    (op : FcfOp) : TcpModule :=
  match s.find connected a with
  | some i => s.act md i (.fcf ff op)
  | none => s.send (.reply ff FCF_FALSE 0)

def TcpModule.answersFcf (s : TcpModule) (connected : Bool) (a : ConnAddr) (op : FcfOp) : Bool :=
  match s.find connected a with
  | some i => !((s.slots i).conn.runningFlag && op.unanswered)
  | none => true

/-! ### Main threads -/

/-- `tcp_main_thread` after its loop: `list_remove`, `tcp_conn_stop`, `tcp_conn_free`. -/
def tcpMainExit (s : TcpModule) (md : TcpData) (i : Nat) : TcpModule :=
  let x := s.slots i
  let s1 := if x.stubList then { s with connStubList := s.connStubList.erase i }
    else { s with connList := s.connList.erase i }
  let s2 := s1.shutdownAll md x.conn.backlog
  { s2 with slots := Function.update s2.slots i { s2.slots i with freed := true } }

inductive OwnAct where
  | main (rand : UInt32)
  | gbnFire
  | delayedFire
  | requestFire (addr : Nat)
  | tick (clock : Nat)
  | round (congWindow threshhold rttEst rttDev : Rat)

def OwnAct.action : OwnAct → Action
  | .main rand => .main rand
  | .gbnFire => .gbnFire
  | .delayedFire => .delayedFire
  | .requestFire addr => .requestFire addr
  | .tick clock => .tick clock
  | .round congWindow threshhold rttEst rttDev => .round congWindow threshhold rttEst rttDev

/-! ### Steps -/

inductive ModuleOp where
  /-- A segment, as `fdf_to_tcp` makes it. -/
  | segment (seg : TcpSeg) (parsed : Parsed seg) (rand : UInt32)
  | write (a : ConnAddr) (d : Pdu) (flags serialNum : UInt32)
  | close (a : ConnAddr) (ff : Fcf)
  | closeStub (hostIp : UInt32) (hostPort : UInt16) (ff : Fcf)
  | listen (hostIp : UInt32) (hostPort : UInt16) (backlog : Nat)
  | accept (hostIp : UInt32) (hostPort : UInt16) (ff : Fcf)
  | connect (a : ConnAddr) (ff : Fcf) (rand : UInt32)
  | poll (connected : Bool) (a : ConnAddr) (ff : Fcf) (initial events : UInt32)
  | fcf (connected : Bool) (a : ConnAddr) (ff : Fcf) (op : FcfOp)
  | own (i : Nat) (a : OwnAct)
  /-- The main thread of `i`, past its loop. -/
  | exit (i : Nat)

structure ModuleEvent where
  md : TcpData
  op : ModuleOp

def stepModule (s : TcpModule) (e : ModuleEvent) : TcpModule :=
  match e.op with
  | .segment seg _ rand => tcpInFdf s e.md seg rand
  | .write a d flags serialNum => tcpOutFdf (s.give (.send serialNum)) e.md a d flags serialNum
  | .close a ff => tcpExecClose (s.give (.fcf ff)) e.md a ff
  | .closeStub hostIp hostPort ff => tcpExecCloseStub (s.give (.fcf ff)) e.md hostIp hostPort ff
  | .listen hostIp hostPort backlog => tcpExecListen s e.md hostIp hostPort backlog
  | .accept hostIp hostPort ff => tcpExecAccept (s.give (.fcf ff)) e.md hostIp hostPort ff
  | .connect a ff rand => tcpExecConnect (s.give (.fcf ff)) e.md a ff rand
  | .poll connected a ff initial events =>
    tcpExecPoll (s.give (.fcf ff)) e.md connected a ff initial events
  | .fcf connected a ff op =>
    tcpFcfMatch (if s.answersFcf connected a op then s.give (.fcf ff) else s) e.md connected a ff op
  | .own i a => s.act e.md i a.action
  | .exit i =>
    if !(s.slots i).freed && (s.slots i).conn.mainPc == .done then tcpMainExit s e.md i else s

def TcpModule.initial (md : TcpData) : TcpModule where
  slots := fun _ => ⟨tcpConnCreate md ⟨0, 0, 0, 0⟩, false, none, true⟩
  next := 0
  connList := []
  connStubList := []
  out := []
  given := []

abbrev runModule (s : TcpModule) (es : List ModuleEvent) : TcpModule := Lib.run stepModule s es

/-! ### Sample runs -/

def sampleOp (op : ModuleOp) : ModuleEvent := ⟨sampleData, op⟩

def sampleModule : TcpModule := TcpModule.initial sampleData

def sampleListen : ModuleEvent := sampleOp (.listen 1 10 5)

def sampleSyn : ModuleEvent :=
  sampleOp (.segment { srcIp := 2, srcPort := 20, dstIp := 1, dstPort := 10, seqNum := 500,
                       seqEnd := 500, flags := FLAG_SYN, winSize := 4000 } (by decide) 100)

def sampleSynAck : ModuleEvent :=
  sampleOp (.segment { srcIp := 2, srcPort := 20, dstIp := 1, dstPort := 10, seqNum := 501,
                       seqEnd := 501, ackNum := 101, flags := FLAG_ACK, winSize := 4000 }
    (by decide) 0)

end FinsStack.Tcp
