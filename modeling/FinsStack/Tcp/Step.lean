import FinsStack.Lib.Run
import FinsStack.Tcp.Main

/-!
# A connection as a state machine

Every function of the connection runs with the connection's lock held, so a run is
a sequence of such calls: a segment arrives, the application calls, a timer fires,
the main thread takes a round.  Each event carries the module values (`TcpData`)
it runs under, so they may change between calls.
-/

namespace FinsStack.Tcp

inductive Action where
  | recv (seg : TcpSeg) (env : RecvEnv)
  | write (d : Pdu) (flags serialNum : UInt32)
  | close (ff : Fcf)
  | listen (backlog : Nat)
  | accept (ff : Fcf) (ready : Option Nat)
  | search (ff : Fcf)
  | connect (ff : Fcf) (rand : UInt32)
  | stubConnect (remIp : UInt32) (remPort : UInt16)
  | poll (ff : Fcf) (initial events : UInt32)
  | pollStub (ff : Fcf) (initial events : UInt32)
  | fcf (ff : Fcf) (op : FcfOp)
  | shutdown
  /-- A child of this listening connection was accepted on arrival of its last
      handshake segment. -/
  | childAccepted (child : Nat)
  | main (rand : UInt32)
  | gbnFire
  | delayedFire
  /-- The timer of a write request fires; a timer outlives a refused request. -/
  | requestFire (addr : Nat)
  | tick (clock : Nat)
  /-- Rounding of the `double` quantities. -/
  | round (congWindow threshhold rttEst rttDev : Rat)

structure Event where
  md : TcpData
  act : Action

def gbnFire (c : TcpConn) : TcpConn :=
  if c.toGbnTimer then wakeMain { c with toGbnTimer := false, toGbnFlag := true } else c

def delayedFire (c : TcpConn) : TcpConn :=
  if c.toDelayedTimer then wakeMain { c with toDelayedTimer := false, toDelayedFlag := true }
  else c

def requestFire (c : TcpConn) (a : Nat) : TcpConn :=
  { c with
    requestInterrupt := true
    mainWaitSem := c.mainWaitSem + 1
    requestQueue := { c.requestQueue with
      nodes := c.requestQueue.nodes.map fun n =>
        if n.addr = a ∧ n.data.toData then { n with data := { n.data with toFlag := true } }
        else n } }

/-- The listener's side of `signalOpen` on its child. -/
def childAccepted (c : TcpConn) (child : Nat) : TcpConn :=
  if c.runningFlag ∧ c.state = .listen ∧ c.ff.isSome then
    { c with backlog := c.backlog.erase child, ff := none }
  else c

def step (c : TcpConn) (e : Event) : TcpConn :=
  match e.act with
  | .recv seg env => tcpRecv e.md c seg env
  | .write d flags serialNum => tcpWrite c d flags serialNum
  | .close ff => tcpClose c ff
  | .listen backlog => tcpListen c backlog
  | .accept ff ready => tcpAccept c ff ready
  | .search ff => tcpConnSearch c ff
  | .connect ff rand => tcpConnect c ff rand
  | .stubConnect remIp remPort => tcpStubConnect c remIp remPort
  | .poll ff initial events => tcpPoll c ff initial events
  | .pollStub ff initial events => tcpPollStub c ff initial events
  | .fcf ff op => tcpConnFcf c ff op
  | .shutdown => tcpConnShutdown c
  | .childAccepted child => childAccepted c child
  | .main rand => tcpMainThread e.md c rand
  | .gbnFire => gbnFire c
  | .delayedFire => delayedFire c
  | .requestFire a => requestFire c a
  | .tick clock => { c with clock := clock }
  | .round congWindow threshhold rttEst rttDev =>
    { c with
      congWindow := congWindow, threshhold := threshhold, rttEst := rttEst, rttDev := rttDev }

inductive Initial : TcpConn → Prop
  | fresh (md : TcpData) (a : ConnAddr) : Initial (tcpConnCreate md a)
  | child (md : TcpData) (parent : TcpConn) (seg : TcpSeg) (rand : UInt32) :
      Initial (tcpListenChild md parent seg rand)

def Event.arriving : Event → Option TcpSeg
  | ⟨_, .recv seg _⟩ => some seg
  | _ => none

theorem Event.arriving_of_act {e : Event} {seg : TcpSeg} {env : RecvEnv}
    (h : e.act = .recv seg env) : seg ∈ e.arriving := by
  obtain ⟨md, act⟩ := e
  cases h
  rfl

theorem Event.act_of_arriving {e : Event} {seg : TcpSeg} (h : seg ∈ e.arriving) :
    ∃ env, e.act = .recv seg env := by
  obtain ⟨md, act⟩ := e
  cases act <;> cases h
  exact ⟨_, rfl⟩

abbrev runConn (c : TcpConn) (es : List Event) : TcpConn := Lib.run step c es

/-! ### A sample connection

Module values, an address and a few segments for concrete runs. -/

def sampleData : TcpData where
  fastEnabled := true
  fastDuplicates := 3
  mss := 1460
  flowDaemon := true

def sampleConn : TcpConn := tcpConnCreate sampleData ⟨1, 10, 2, 20⟩

def sampleEvent (act : Action) : Event := ⟨sampleData, act⟩

def sampleRecv (seg : TcpSeg) : Event := sampleEvent (.recv seg ⟨0, none, false, false, 0⟩)

def sampleFcf : Fcf := ⟨0, 0⟩

/-- The three-way handshake of an active open: the next byte to send is 101, the next
    one expected 501. -/
def sampleOpen : List Event :=
  [sampleEvent (.connect sampleFcf 100),
   sampleRecv { seqNum := 500, seqEnd := 500, ackNum := 101, flags := FLAG_SYN ||| FLAG_ACK,
                winSize := 4000 }]

def sampleWrite (bytes : List UInt8) (h : bytes.length < 2 ^ 31) : Event :=
  sampleEvent (.write ⟨bytes, h⟩ 0 0)

def sampleRound : Event := sampleEvent (.main 0)

/-- Ten bytes are written and sent, from 101 to 110. -/
def sampleSend : List Event :=
  [sampleWrite [1, 2, 3, 4, 5, 6, 7, 8, 9, 10] (by decide), sampleRound]

end FinsStack.Tcp
