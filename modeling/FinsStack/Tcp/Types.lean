import Mathlib.Data.UInt

/-!
# The data a TCP connection is made of

`tcp_internal.h`.

Segments, write requests, queues and the connection record carry the source's
fields under the source's words.  `uint32_t` and `uint16_t` are `UInt32` and
`UInt16`, so sequence arithmetic wraps exactly as in the code; a C `int` is an
`Int`.  The congestion and round-trip quantities, `double` in the source, are
rationals; what rounding may do to them is left to an event of the
environment (`Step.lean`).

A connection also carries `out`, the list of everything it has handed to other
modules so far.  Next to real frames the list holds *history notes* for the
assignments that leave no frame behind (a change of `state`, a consumed FIN, an
accepted write request); no function of the model reads `out`.
-/

namespace FinsStack.Tcp

/-! ### Header flags and constants -/

def FLAG_FIN : UInt16 := 0x01
def FLAG_SYN : UInt16 := 0x02
def FLAG_RST : UInt16 := 0x04
def FLAG_ACK : UInt16 := 0x10
def FLAG_DATAOFFSET : UInt16 := 0xF000
def FLAG_ECN : UInt16 := 0x01C0
def FLAG_CONTROL : UInt16 := 0x003F
/-- Tells `tcp_handle_reply` to acknowledge at once. -/
def FLAG_ACK_NOW : UInt16 := 0x1000
/-- Tells `tcp_handle_reply` to resend the last ACK segment unchanged. -/
def FLAG_ACK_SAME : UInt16 := 0x2000

def hasFlag (flags m : UInt16) : Bool := flags &&& m != 0

def TCP_CONN_MAX : Nat := 512
def TCP_MAX_QUEUE_DEFAULT : UInt32 := 131072
def TCP_REQUEST_LIST_MAX : UInt32 := 30
def TCP_BACKLOG_LIST_MAX : Nat := 256
def TCP_GBN_TO_MIN : Rat := 100
def TCP_GBN_TO_MAX : Rat := 64000
def TCP_GBN_TO_DEFAULT : Rat := 5000
def TCP_DELAYED_TO_DEFAULT : Rat := 200
def TCP_MSL_TO_DEFAULT : Rat := 120000
def TCP_MAX_WINDOW_DEFAULT : UInt32 := 65535
def TCP_OPT_WS_DEFAULT : UInt8 := 2
def TCP_OPT_WS_MAX : UInt8 := 14
def TCP_ALERT_POLL : UInt32 := 0
def TCP_ALERT_SHUTDOWN : UInt32 := 1
def FCF_TRUE : UInt32 := 1
def FCF_FALSE : UInt32 := 0

/-! ### States -/

inductive TcpState where
  | closed | synSent | listen | synRecv | established | finWait1 | finWait2
  | closing | timeWait | closeWait | lastAck
deriving DecidableEq, Repr

inductive RenoState where
  | slowstart | avoidance | recovery
deriving DecidableEq, Repr

/-! ### Segments, requests and queues -/

/-- `struct tcp_seg`.  `secure_malloc` clears a new segment, hence the defaults.
    `dataLen` is an `int` of its own: for a frame whose header claims more bytes
    than the frame has it is negative while `data` stays empty. -/
structure TcpSeg where
  srcIp : UInt32 := 0
  dstIp : UInt32 := 0
  srcPort : UInt16 := 0
  dstPort : UInt16 := 0
  seqNum : UInt32 := 0
  ackNum : UInt32 := 0
  flags : UInt16 := 0
  winSize : UInt16 := 0
  checksum : UInt16 := 0
  urgPointer : UInt16 := 0
  options : List UInt8 := []
  optLen : Int := 0
  data : List UInt8 := []
  dataLen : Int := 0
  seqEnd : UInt32 := 0
deriving DecidableEq, Repr

/-- `struct tcp_request`: a write waiting for room in `write_queue`. -/
structure TcpRequest where
  data : List UInt8
  len : UInt32
  flags : UInt32
  serialNum : UInt32
  toData : Bool
  toFlag : Bool
deriving DecidableEq, Repr

/-- `struct tcp_node`.  `addr` is the address of the node, where the source
    compares or keeps pointers to nodes. -/
structure TcpNode (α : Type) where
  data : α
  len : UInt32
  seqNum : UInt32
  seqEnd : UInt32
  addr : Nat
deriving DecidableEq, Repr

/-- `struct tcp_queue`, the chain from `front` to `end` as a list. -/
structure TcpQueue (α : Type) where
  max : UInt32
  len : UInt32
  nodes : List (TcpNode α)
deriving DecidableEq, Repr

/-! ### What a connection leaves behind -/

/-- The address quadruple every frame of a connection carries. -/
structure ConnAddr where
  hostIp : UInt32
  hostPort : UInt16
  remIp : UInt32
  remPort : UInt16
deriving DecidableEq, Repr

/-- A control frame of the daemon that is answered later (`conn->ff`). -/
structure Fcf where
  senderId : UInt32
  serialNum : UInt32
deriving DecidableEq, Repr

/-- Which call of `tcp_seg_send` a segment left by: first transmission of data,
    retransmission of a `send_queue` node, a bare acknowledgment (`ack_seg`), or
    connection control (SYN, FIN, RST and their answers). -/
inductive SegKind where
  | fresh | resend | ack | control
deriving DecidableEq, Repr

inductive Out where
  | seg (kind : SegKind) (seg : TcpSeg)
  | data (addr : ConnAddr) (bytes : List UInt8)
  /-- `tcp_conn_send_fcf` with `CTRL_ALERT`. -/
  | alert (addr : ConnAddr) (paramId retVal retMsg : UInt32)
  /-- `tcp_conn_send_exec_reply` with `TCP_EXEC_SEND`; `req` is the address of the
      request it answers. -/
  | execReply (req : Nat) (serialNum retVal retMsg : UInt32)
  | connReply (ff : Fcf) (addr : ConnAddr) (state : TcpState) (retVal retMsg : UInt32)
  | reply (ff : Fcf) (retVal retMsg : UInt32)
  /-- History: `conn->state` was assigned. -/
  | edge (old new : TcpState)
  /-- History: a FIN on the segment with sequence number `seqNum` was consumed
      while `recv_seq_num` was `recvSeqNum`. -/
  | fin (seqNum recvSeqNum : UInt32)
  /-- History: the write request at address `req` was appended to `request_queue`. -/
  | accept (req : Nat) (data : List UInt8)
  /-- History: `tcp_handle_ACK` took an acknowledgment of the FIN. -/
  | finAck
deriving DecidableEq, Repr

/-! ### The module and the connection -/

/-- The values of `struct tcp_data` the connection code reads. -/
structure TcpData where
  fastEnabled : Bool
  fastDuplicates : UInt32
  mss : UInt32
  /-- `module_send_flow` finds a link for `TCP_FLOW_DAEMON`. -/
  flowDaemon : Bool
deriving DecidableEq, Repr

/-- Where the connection's main thread is: about to run an iteration of its loop,
    blocked on `main_wait_sem`, or past the loop. -/
inductive MainPc where
  | ready | waiting | done
deriving DecidableEq, Repr

/-! `struct tcp_conn`, its fields grouped by the functions that assign them: a function's
frame is then a statement about whole groups. -/

structure ConnCtl where
  runningFlag : Bool
  state : TcpState
  addr : ConnAddr
  listening : Bool
  backlogMax : Nat
  backlog : List Nat
  activeOpen : Bool
  signaled : Bool
  ff : Option Fcf
  pollEvents : UInt32

structure MainCtl where
  mainPc : MainPc
  mainWaitFlag : Bool
  mainWaitSem : Nat
  mainWaiting : Bool
  requestInterrupt : Bool

structure WriteSide where
  requestQueue : TcpQueue TcpRequest
  requestIndex : Int
  writeQueue : TcpQueue (List UInt8)
  writeIndex : UInt32

structure SendSide where
  sendQueue : TcpQueue TcpSeg
  issn : UInt32
  sendSeqNum : UInt32
  sendSeqEnd : UInt32

structure FinSide where
  finSent : Bool
  finSep : Bool
  fsse : UInt32

/-- The peer's window, and the segment it was last taken from. -/
structure SendWindow where
  sendMaxWin : UInt32
  sendWin : UInt32
  sendWinSeq : UInt32
  sendWinAck : UInt32

/-- Data received: the next expected byte and what is stored beyond it. -/
structure RecvSide where
  recvQueue : TcpQueue TcpSeg
  irsn : UInt32
  recvMaxWin : UInt32
  recvSeqNum : UInt32
  recvSeqEnd : UInt32

structure RecvWindow where
  recvWin : UInt32
  flowStopped : Bool

structure GbnState where
  toGbnTimer : Bool
  toGbnFlag : Bool
  gbnFlag : Bool
  gbnNode : Option Nat
  firstFlag : Bool

structure AckState where
  toDelayedTimer : Bool
  toDelayedFlag : Bool
  delayedFlag : Bool
  delayedAckFlags : UInt16
  ackSeg : TcpSeg

structure CongCtl where
  duplicate : UInt32
  fastFlag : Bool
  restoreSeqEnd : UInt32
  congState : RenoState
  congWindow : Rat
  threshhold : Rat

/-- Round-trip measurement and the host's clock in microseconds. -/
structure RttState where
  rttFlag : Bool
  rttFirst : Bool
  rttSeqNum : UInt32
  rttSeqEnd : UInt32
  rttStamp : Nat
  rttEst : Rat
  rttDev : Rat
  timeout : Rat
  clock : Nat

structure ConnOpts where
  mss : UInt16
  tsoptAttempt : Bool
  tsoptEnabled : Bool
  sackAttempt : Bool
  sackEnabled : Bool
  wsoptAttempt : Bool
  wsoptEnabled : Bool
  wsSend : UInt8
  wsRecv : UInt8

/-- `struct tcp_conn`; `nextAddr` is the next free node address. -/
structure TcpConn extends ConnCtl, MainCtl, WriteSide, SendSide, FinSide, SendWindow, RecvSide,
    RecvWindow, GbnState, AckState, CongCtl, RttState, ConnOpts where
  nextAddr : Nat
  out : List Out

def TcpConn.emit (c : TcpConn) (o : Out) : TcpConn := { c with out := c.out ++ [o] }

def TcpConn.setState (c : TcpConn) (s : TcpState) : TcpConn :=
  { c with state := s, out := c.out ++ [.edge c.state s] }

/-! ### Shared integer helpers (`finstypes.c`) and timers (`finstime.c`) -/

def uint32Increase (data value max : UInt32) : UInt32 :=
  if data + value < data ∨ max < data + value then max else data + value

def uint32Decrease (data value : UInt32) : UInt32 :=
  if value < data then data - value else 0

/-- Whether `timer_once_start` with this many milliseconds leaves the timer armed:
    a zero interval disarms it. -/
def timerOnceStart (millis : Rat) : Bool := decide (0 < millis)

/-! ### `math.h` on rationals -/

def fmin (a b : Rat) : Rat := if a ≤ b then a else b

def fmax (a b : Rat) : Rat := if a ≤ b then b else a

def fabs (a : Rat) : Rat := if 0 ≤ a then a else -a

end FinsStack.Tcp
