import FinsStack.Tcp.Recv

/-!
# Calls of the application

`tcp_out.c`; `tcp.c`: `handle_interrupt`, `tcp_handle_requests`.

A write is a request in `request_queue` until `tcpHandleRequests` has copied all
of it into `write_queue`; a request that times out on the way keeps what was
copied and loses the rest.
-/

namespace FinsStack.Tcp

def TCP_STATUS_WR : UInt32 := 2
def TCP_STATUS_RDWR : UInt32 := 3
def EAGAIN : UInt32 := 11
def ETIMEDOUT : UInt32 := 110
def MSG_DONTWAIT : UInt32 := 0x40
def POLLHUP : UInt32 := 0x10
def POLL_WRITE : UInt32 := 0x304

def asInt (x : UInt32) : Int := if x.toNat < 2 ^ 31 then x.toNat else (x.toNat : Int) - 2 ^ 32

/-- The data of a write as the daemon hands it over.  Its length arrives in a message
    whose own length is an `int`. -/
structure Pdu where
  bytes : List UInt8
  length_lt : bytes.length < 2 ^ 31

/-! ### Moving requests into the write queue -/

def writeSpace (c : TcpConn) : Int :=
  asInt (c.writeQueue.max - (c.writeQueue.len - c.writeIndex))

def alertPollWrite (c : TcpConn) (space : Int) : TcpConn :=
  if c.pollEvents &&& POLL_WRITE ≠ 0 ∧ 0 < space then
    { c with
      pollEvents := c.pollEvents &&& ~~~ POLL_WRITE
      out := c.out ++ [.alert c.addr TCP_ALERT_POLL FCF_TRUE POLL_WRITE] }
  else c

/-- The loop of `tcp_handle_requests`; the list is the chain of `request_queue`.  It
    returns the room left and the connection. -/
def tcpHandleRequestsLoop : List (TcpNode TcpRequest) → Int → TcpConn → Int × TcpConn
  | [], space, c => (space, c)
  | n :: ns, space, c =>
    if space = 0 then (space, c)
    else
      let rest := n.data.data.drop c.requestIndex.toNat
      let avail := asInt (n.data.len - UInt32.ofInt c.requestIndex)
      if space < avail then
        (0, { c with
          requestIndex := c.requestIndex + space
          writeQueue := tcpQueueAppend c.writeQueue
            { data := rest.take space.toNat, len := UInt32.ofInt space
              seqNum := UInt32.ofInt c.requestIndex
              seqEnd := UInt32.ofInt (c.requestIndex + space - 1), addr := 0 } })
      else
        tcpHandleRequestsLoop ns (space - avail)
          { c with
            requestIndex := 0
            writeQueue := tcpQueueAppend c.writeQueue
              { data := rest.take avail.toNat, len := UInt32.ofInt avail
                seqNum := n.data.len - UInt32.ofInt avail, seqEnd := n.data.len - 1, addr := 0 }
            requestQueue := tcpQueueRemoveFront c.requestQueue
            out := c.out ++ [.execReply n.addr n.data.serialNum FCF_TRUE n.data.len] }

def tcpHandleRequests (c : TcpConn) : TcpConn :=
  let r := tcpHandleRequestsLoop c.requestQueue.nodes (writeSpace c) c
  alertPollWrite r.2 r.1

/-! ### Timed-out requests -/

/-- The loop of `handle_interrupt`; `front` is the address of the first request when
    the loop started, the only one that can be half copied. -/
def handleInterruptLoop (front : Nat) : List (TcpNode TcpRequest) → TcpConn → TcpConn
  | [], c => c
  | n :: ns, c =>
    if n.data.toFlag then
      let q := tcpQueueRemove c.requestQueue n
      if n.addr = front ∧ c.requestIndex ≠ 0 then
        handleInterruptLoop front ns
          { c with
            requestQueue := q
            requestIndex := 0
            out := c.out ++ [.execReply n.addr n.data.serialNum FCF_TRUE
              (UInt32.ofInt c.requestIndex)] }
      else
        handleInterruptLoop front ns
          { c with
            requestQueue := q
            out := c.out ++ [.execReply n.addr n.data.serialNum FCF_FALSE EAGAIN] }
    else handleInterruptLoop front ns c

def handleInterrupt (c : TcpConn) : TcpConn :=
  match c.requestQueue.nodes with
  | [] => c
  | n :: ns => handleInterruptLoop n.addr (n :: ns) c

/-! ### Writing -/

/-- `tcp_write` before the connection is established: all or nothing. -/
def writePreConnected (c : TcpConn) (d : Pdu) (serialNum : UInt32) : TcpConn :=
  let len := UInt32.ofNat d.bytes.length
  let space := writeSpace c
  let node : TcpNode (List UInt8) :=
    { data := d.bytes, len := len, seqNum := 0, seqEnd := len - 1, addr := 0 }
  if (d.bytes.length : Int) ≤ space then
    let c1 := wakeMain { c with
      writeQueue := tcpQueueAppend c.writeQueue node
      nextAddr := c.nextAddr + 1
      out := c.out ++ [.accept c.nextAddr d.bytes, .execReply c.nextAddr serialNum FCF_TRUE len] }
    if tcpQueueIsEmpty c1.requestQueue then alertPollWrite c1 (space - d.bytes.length) else c1
  else
    let c1 := { c with
      nextAddr := c.nextAddr + 1
      out := c.out ++ [.execReply c.nextAddr serialNum FCF_FALSE EAGAIN] }
    if tcpQueueIsEmpty c1.requestQueue then alertPollWrite c1 space else c1

def writeConnected (c : TcpConn) (d : Pdu) (flags serialNum : UInt32) : TcpConn :=
  let request : TcpRequest :=
    { data := d.bytes, len := UInt32.ofNat d.bytes.length, flags := flags
      serialNum := serialNum, toData := flags &&& MSG_DONTWAIT ≠ 0, toFlag := false }
  if tcpQueueHasSpace c.requestQueue 1 then
    wakeMain <| tcpHandleRequests { c with
      requestQueue := tcpQueueAppend c.requestQueue
        { data := request, len := 1, seqNum := 0, seqEnd := 0, addr := c.nextAddr }
      nextAddr := c.nextAddr + 1
      out := c.out ++ [.accept c.nextAddr d.bytes] }
  else
    { c with
      nextAddr := c.nextAddr + 1
      out := c.out ++ [.execReply c.nextAddr serialNum FCF_FALSE 0] }

def tcpWrite (c : TcpConn) (d : Pdu) (flags serialNum : UInt32) : TcpConn :=
  let refused := { c with
    nextAddr := c.nextAddr + 1
    out := c.out ++ [.execReply c.nextAddr serialNum FCF_FALSE 0] }
  if c.runningFlag then
    match c.state with
    | .synSent | .synRecv => writePreConnected c d serialNum
    | .established | .closeWait => writeConnected c d flags serialNum
    | _ => refused
  else refused

/-! ### Closing -/

def sendFin (c : TcpConn) : TcpConn :=
  sendControl { c with finSent := true, finSep := true, fsse := c.sendSeqEnd + 1 }
    (FLAG_FIN ||| FLAG_ACK)

def finIfFinished (c : TcpConn) : TcpConn := if tcpConnIsFinished c then sendFin c else c

def refusePending (c : TcpConn) : TcpConn :=
  match c.ff with
  | some ff => { c with ff := none, out := c.out ++ [.reply ff FCF_FALSE 0] }
  | none => c

def tcpClose (c : TcpConn) (ff : Fcf) : TcpConn :=
  if c.runningFlag then
    match c.state with
    | .closed | .timeWait => c.emit (.reply ff FCF_TRUE 0)
    | .listen =>
      let c1 := (refusePending (c.setState .closed)).emit (.reply ff FCF_TRUE 0)
      tcpConnShutdown { c1 with listening := false }
    | .synSent =>
      tcpConnShutdown ((refusePending (c.setState .closed)).emit (.reply ff FCF_TRUE 0))
    | .synRecv | .established =>
      finIfFinished ((refusePending (c.setState .finWait1)).emit (.reply ff FCF_TRUE 0))
    | .closeWait => finIfFinished ((c.setState .lastAck).emit (.reply ff FCF_TRUE 0))
    | .finWait1 | .finWait2 | .closing | .lastAck => c
  else c

/-- `tcp_conn_alert` for `TCP_ALERT_SHUTDOWN`: `shutdown(SHUT_WR)` of the application. -/
def tcpConnAlert (c : TcpConn) (value : UInt32) : TcpConn :=
  if value = TCP_STATUS_WR ∨ value = TCP_STATUS_RDWR then
    match c.state with
    | .established | .synRecv => finIfFinished (c.setState .finWait1)
    | .closeWait => finIfFinished (c.setState .lastAck)
    | .synSent => tcpConnShutdown (c.setState .closed)
    | .closed | .timeWait | .listen | .finWait1 | .finWait2 | .closing | .lastAck => c
  else c

/-! ### Opening, polling, window -/

def tcpListen (c : TcpConn) (backlog : Nat) : TcpConn :=
  if c.runningFlag ∧ c.state = .closed then
    { c.setState .listen with listening := true, backlogMax := backlog }
  else c

/-- `tcp_accept`; `ready` is the first child of the backlog found established and not
    yet signaled. -/
def tcpAccept (c : TcpConn) (ff : Fcf) (ready : Option Nat) : TcpConn :=
  if c.runningFlag then
    if c.state = .listen then
      match c.ff, ready with
      | some _, _ => c
      | none, some child =>
        if c.backlog = [] then { c with ff := some ff }
        else { c with backlog := c.backlog.erase child }
      | none, none => { c with ff := some ff }
    else c.emit (.reply ff FCF_FALSE 0)
  else c.emit (.reply ff FCF_FALSE 1)

def tcpConnSearch (c : TcpConn) (ff : Fcf) : TcpConn :=
  if c.runningFlag ∧ c.state = .established ∧ c.signaled = false then
    { c with signaled := true, out := c.out ++ [.connReply ff c.addr c.state FCF_TRUE 0] }
  else c

def tcpConnect (c : TcpConn) (ff : Fcf) (rand : UInt32) : TcpConn :=
  if c.runningFlag then
    if c.state = .closed ∨ c.state = .listen then
      let c1 := startSend { c.setState .synSent with activeOpen := true, ff := some ff } rand
      { sendControl c1 FLAG_SYN with timeout := TCP_GBN_TO_DEFAULT }
    else c.emit (.reply ff FCF_FALSE 0)
  else c.emit (.reply ff FCF_FALSE 1)

/-- The part of `tcp_exec_connect` that turns a listening stub into a connection: the
    pending `accept` is refused and the remote address filled in. -/
def tcpStubConnect (c : TcpConn) (remIp : UInt32) (remPort : UInt16) : TcpConn :=
  if c.runningFlag then
    let c1 := if c.state = .listen then
        match c.ff with
        | some ff =>
          { c with
            listening := false, ff := none
            out := c.out ++ [.connReply ff c.addr c.state FCF_FALSE 0] }
        | none => { c with listening := false }
      else c
    { c1 with addr := { c1.addr with remIp := remIp, remPort := remPort } }
  else c

def tcpPoll (c : TcpConn) (ff : Fcf) (initial events : UInt32) : TcpConn :=
  if c.runningFlag then
    if initial ≠ 0 ∧ events &&& POLL_WRITE ≠ 0 then
      if tcpQueueIsEmpty c.requestQueue ∧ 0 < writeSpace c then
        c.emit (.reply ff FCF_TRUE POLL_WRITE)
      else { c with pollEvents := c.pollEvents ||| POLL_WRITE }.emit (.reply ff FCF_TRUE 0)
    else c.emit (.reply ff FCF_TRUE 0)
  else c.emit (.reply ff FCF_TRUE POLLHUP)

def tcpPollStub (c : TcpConn) (ff : Fcf) (initial events : UInt32) : TcpConn :=
  if c.runningFlag then
    if events &&& POLL_WRITE ≠ 0 then
      let pe := if initial ≠ 0 then c.pollEvents ||| POLL_WRITE
        else c.pollEvents &&& ~~~ POLL_WRITE
      if tcpQueueIsEmpty c.requestQueue ∧ 0 < writeSpace c then
        { c with pollEvents := pe }.emit (.reply ff FCF_TRUE POLL_WRITE)
      else { c with pollEvents := pe ||| POLL_WRITE }.emit (.reply ff FCF_TRUE 0)
    else c.emit (.reply ff FCF_TRUE 0)
  else c.emit (.reply ff FCF_TRUE POLLHUP)

/-- `tcp_conn_set_param` for `TCP_SET_HOST_WINDOW`: the daemon has read `value` bytes. -/
def tcpSetHostWindow (c : TcpConn) (value : UInt32) : TcpConn :=
  let c1 := { c with recvWin := uint32Increase c.recvWin value c.recvMaxWin }
  if c1.flowStopped then sendControl { c1 with flowStopped := false } FLAG_ACK else c1

inductive FcfOp where
  | alertShutdown (value : UInt32)
  | readHostWindow
  | readSockOpt
  | setHostWindow (value : UInt32)
  | setSockOpt (value : UInt32)
deriving DecidableEq, Repr

def tcpConnFcf (c : TcpConn) (ff : Fcf) (op : FcfOp) : TcpConn :=
  if c.runningFlag then
    match op with
    | .alertShutdown value => tcpConnAlert c value
    | .readHostWindow => c.emit (.reply ff FCF_TRUE c.recvWin)
    | .readSockOpt => c.emit (.reply ff FCF_TRUE 0)
    | .setHostWindow value => tcpSetHostWindow c value
    | .setSockOpt value => c.emit (.reply ff FCF_TRUE value)
  else c.emit (.reply ff FCF_FALSE 0)

end FinsStack.Tcp
