import FinsStack.Tcp.Data

/-!
# A segment arrives

`tcp_in.c`: `tcp_recv` and its handlers, one per state; `tcp.c`: `tcp_conn_create`.

The handlers of the three handshake states build the connection's sequence
variables; the later ones are compositions of `tcpHandleAck`, `tcpHandleData` and
`tcpHandleReply`.
-/

namespace FinsStack.Tcp

/-! ### A new connection -/

/-- `tcp_conn_create`: everything not set here is cleared by `secure_malloc`. -/
def tcpConnCreate (md : TcpData) (a : ConnAddr) : TcpConn where
  runningFlag := true
  state := .closed
  addr := a
  listening := false
  backlogMax := TCP_BACKLOG_LIST_MAX
  backlog := []
  activeOpen := false
  signaled := false
  ff := none
  requestQueue := tcpQueueCreate TCP_REQUEST_LIST_MAX
  writeQueue := tcpQueueCreate TCP_MAX_QUEUE_DEFAULT
  sendQueue := tcpQueueCreate TCP_MAX_QUEUE_DEFAULT
  recvQueue := tcpQueueCreate TCP_MAX_QUEUE_DEFAULT
  mainPc := .ready
  mainWaitFlag := false
  mainWaitSem := 0
  mainWaiting := false
  requestInterrupt := false
  requestIndex := 0
  writeIndex := 0
  pollEvents := 0
  firstFlag := true
  duplicate := 0
  fastFlag := false
  restoreSeqEnd := 0
  toGbnTimer := false
  toGbnFlag := false
  gbnFlag := false
  gbnNode := none
  toDelayedTimer := false
  toDelayedFlag := false
  delayedFlag := false
  delayedAckFlags := 0
  ackSeg := tcpSegCreate a 0 0
  finSent := false
  finSep := false
  issn := 0
  fsse := 0
  irsn := 0
  sendMaxWin := TCP_MAX_WINDOW_DEFAULT
  sendWin := TCP_MAX_WINDOW_DEFAULT
  sendWinSeq := 0
  sendWinAck := 0
  sendSeqNum := 0
  sendSeqEnd := 0
  recvMaxWin := TCP_MAX_WINDOW_DEFAULT
  recvWin := TCP_MAX_WINDOW_DEFAULT
  recvSeqNum := 0
  recvSeqEnd := TCP_MAX_WINDOW_DEFAULT
  flowStopped := false
  mss := md.mss.toUInt16
  congState := .slowstart
  congWindow := md.mss.toUInt16.toNat
  threshhold := 0
  rttFlag := false
  rttFirst := true
  rttSeqNum := 0
  rttSeqEnd := 0
  rttStamp := 0
  rttEst := 0
  rttDev := 0
  timeout := TCP_GBN_TO_DEFAULT
  tsoptAttempt := false
  tsoptEnabled := false
  sackAttempt := false
  sackEnabled := false
  wsoptAttempt := false
  wsoptEnabled := false
  wsSend := TCP_OPT_WS_DEFAULT
  wsRecv := TCP_OPT_WS_DEFAULT
  clock := 0
  nextAddr := 0
  out := []

/-! ### Handshake -/

def startSend (c : TcpConn) (rand : UInt32) : TcpConn :=
  { c with issn := rand, sendSeqNum := rand, sendSeqEnd := rand }

def takeSyn (c : TcpConn) (seg : TcpSeg) : TcpConn :=
  { c with
    sendMaxWin := seg.winSize.toUInt32
    sendWin := seg.winSize.toUInt32
    irsn := seg.seqNum
    recvSeqNum := seg.seqNum + 1
    recvSeqEnd := seg.seqNum + 1 + c.recvMaxWin }

/-- What every entry into ESTABLISHED sets; `recvSeqNum` is where the handlers differ. -/
def enterEstablished (c : TcpConn) (seg : TcpSeg) (recvSeqNum : UInt32) : TcpConn :=
  let c1 := c.setState .established
  { c1 with
    sendSeqNum := seg.ackNum
    sendSeqEnd := seg.ackNum
    sendMaxWin := seg.winSize.toUInt32
    sendWin := seg.winSize.toUInt32
    recvSeqNum := recvSeqNum
    recvSeqEnd := recvSeqNum + c1.recvMaxWin
    firstFlag := true
    fastFlag := false
    gbnFlag := false
    toGbnTimer := false
    timeout := TCP_GBN_TO_DEFAULT
    congState := .slowstart
    congWindow := c1.mss.toNat
    threshhold := (seg.winSize.toNat : Rat) / 2 }

/-- Tell the application: the waiting `connect`, or the `accept` waiting at the
    listening parent. -/
def signalOpen (c : TcpConn) (parent : Option TcpConn) : TcpConn :=
  match c.ff with
  | some ff =>
    let o := if c.activeOpen then .reply ff FCF_TRUE 0
      else .connReply ff c.addr c.state FCF_TRUE 0
    { c with signaled := true, ff := none, out := c.out ++ [o] }
  | none =>
    if c.activeOpen then c
    else
      match parent with
      | none => c
      | some p =>
        if p.runningFlag && p.state == .listen then
          match p.ff with
          | some pff =>
            { c with signaled := true, out := c.out ++ [.connReply pff c.addr c.state FCF_TRUE 0] }
          | none => c
        else c

def rstReply (seg : TcpSeg) : TcpSeg :=
  let a : ConnAddr := ⟨seg.dstIp, seg.dstPort, seg.srcIp, seg.srcPort⟩
  if hasFlag seg.flags FLAG_ACK then
    { tcpSegCreate a seg.ackNum (seg.ackNum + 1) with flags := FLAG_RST ||| 0x5000 }
  else
    { tcpSegCreate a 0 seg.dataLen32 with
      flags := FLAG_RST ||| FLAG_ACK ||| 0x5000, ackNum := seg.seqEnd }

def tcpRecvSynSent (c : TcpConn) (seg : TcpSeg) (parent : Option TcpConn) : TcpConn :=
  if hasFlag seg.flags FLAG_RST then c
  else if hasFlag seg.flags FLAG_FIN then c
  else if hasFlag seg.flags FLAG_SYN then
    if hasFlag seg.flags FLAG_ACK then
      if seg.ackNum = c.sendSeqNum + 1 then
        let c1 := enterEstablished (tcpProcessOptions c seg) seg (seg.seqNum + 1)
        signalOpen (sendControl { c1 with irsn := seg.seqNum, duplicate := 0 } FLAG_ACK) parent
      else
        c.emit (.seg .control
          { tcpSegCreate c.addr seg.ackNum (seg.ackNum + 1) with flags := FLAG_RST ||| 0x5000 })
    else
      let c1 := takeSyn ((tcpProcessOptions c seg).setState .synRecv) seg
      { sendControl c1 (FLAG_SYN ||| FLAG_ACK) with
        timeout := TCP_GBN_TO_MIN
        toGbnTimer := timerOnceStart TCP_GBN_TO_MIN
        toGbnFlag := false }
  else c.emit (.seg .control (rstReply seg))

/-- `tcp_recv_syn_recv`.  The source's `tcp_handle_data` call in the two completing
    branches is guarded by the absence of the ACK flag they require. -/
def tcpRecvSynRecv (c : TcpConn) (seg : TcpSeg) (rand : UInt32) (parent : Option TcpConn) :
    TcpConn :=
  if hasFlag seg.flags FLAG_RST then c
  else if hasFlag seg.flags FLAG_FIN then c
  else if hasFlag seg.flags FLAG_SYN then
    if hasFlag seg.flags FLAG_ACK then
      if seg.ackNum = c.sendSeqNum + 1 then
        signalOpen (enterEstablished (tcpProcessOptions c seg) seg seg.seqNum) parent
      else c
    else
      let c1 := takeSyn (startSend (tcpProcessOptions c seg) rand) seg
      { sendControl c1 (FLAG_SYN ||| FLAG_ACK) with
        toGbnTimer := timerOnceStart TCP_MSL_TO_DEFAULT
        toGbnFlag := false }
  else if hasFlag seg.flags FLAG_ACK then
    if seg.ackNum = c.sendSeqNum + 1 then
      signalOpen (enterEstablished (tcpProcessOptions c seg) seg seg.seqNum) parent
    else c
  else c.emit (.seg .control (rstReply seg))

/-- The child connection `tcp_recv_listen` creates for a SYN. -/
def tcpListenChild (md : TcpData) (parent : TcpConn) (seg : TcpSeg) (rand : UInt32) : TcpConn :=
  let c := tcpConnCreate md ⟨seg.dstIp, seg.dstPort, seg.srcIp, seg.srcPort⟩
  let c1 := { c.setState .synRecv with activeOpen := false, pollEvents := parent.pollEvents }
  let c2 := tcpProcessOptions (takeSyn (startSend c1 rand) seg) seg
  { sendControl c2 (FLAG_SYN ||| FLAG_ACK) with
    timeout := TCP_GBN_TO_MIN
    toGbnTimer := timerOnceStart TCP_GBN_TO_MIN
    toGbnFlag := false }

/-- `tcp_recv_listen`, the listener: a child is added to the backlog when the SYN is
    for no known connection and both lists have room. -/
def tcpRecvListen (c : TcpConn) (seg : TcpSeg) (known room : Bool) (child : Nat) : TcpConn :=
  if hasFlag seg.flags FLAG_RST then c
  else if hasFlag seg.flags FLAG_SYN then
    if c.listening && decide (c.backlog.length < c.backlogMax) && !known && room then
      { c with backlog := c.backlog ++ [child] }
    else c
  else c

/-! ### Established and later states -/

def handleAckFlag (md : TcpData) (c : TcpConn) (seg : TcpSeg) : TcpConn :=
  if hasFlag seg.flags FLAG_ACK then tcpHandleAck md c seg else c

/-- The body `tcp_recv_established`, `_fin_wait_1`, `_closing` and `_time_wait` share. -/
def recvAckData (md : TcpData) (c : TcpConn) (seg : TcpSeg) : TcpConn :=
  if hasFlag seg.flags FLAG_RST then tcpHandleRst c seg
  else handleDataAndReply md (handleAckFlag md c seg) seg

def tcpRecvEstablished := recvAckData
def tcpRecvFinWait1 := recvAckData
def tcpRecvClosing := recvAckData
def tcpRecvTimeWait := recvAckData

def tcpRecvFinWait2 (md : TcpData) (c : TcpConn) (seg : TcpSeg) : TcpConn :=
  if hasFlag seg.flags FLAG_RST then tcpHandleRst c seg else handleDataAndReply md c seg

def tcpRecvCloseWait (md : TcpData) (c : TcpConn) (seg : TcpSeg) : TcpConn :=
  if hasFlag seg.flags FLAG_RST then tcpHandleRst c seg else handleAckFlag md c seg

def tcpRecvLastAck (md : TcpData) (c : TcpConn) (seg : TcpSeg) : TcpConn :=
  if hasFlag seg.flags FLAG_RST then tcpHandleRst c seg
  else
    let r := tcpHandleData md (handleAckFlag md c seg) seg
    let c1 := if r.1.state = .closed then tcpConnShutdown r.1 else r.1
    if r.2 ≠ 0 then tcpHandleReply c1 r.2 else c1

/-! ### Dispatch -/

/-- What the code outside the connection supplies while a segment is handled:
    `tcp_rand`, the listening parent as it is found, and the state of the module's
    connection list. -/
structure RecvEnv where
  rand : UInt32
  parent : Option TcpConn
  known : Bool
  room : Bool
  child : Nat

def tcpRecvState (md : TcpData) (c : TcpConn) (seg : TcpSeg) (env : RecvEnv) : TcpConn :=
  match c.state with
  | .closed => c
  | .listen => tcpRecvListen c seg env.known env.room env.child
  | .synSent => tcpRecvSynSent c seg env.parent
  | .synRecv => tcpRecvSynRecv c seg env.rand env.parent
  | .established => tcpRecvEstablished md c seg
  | .finWait1 => tcpRecvFinWait1 md c seg
  | .finWait2 => tcpRecvFinWait2 md c seg
  | .closing => tcpRecvClosing md c seg
  | .timeWait => tcpRecvTimeWait md c seg
  | .closeWait => tcpRecvCloseWait md c seg
  | .lastAck => tcpRecvLastAck md c seg

/-- `tcp_recv`: a stopped connection and a wrong checksum drop the segment; a zero
    checksum is not verified. -/
def tcpRecv (md : TcpData) (c : TcpConn) (seg : TcpSeg) (env : RecvEnv) : TcpConn :=
  if c.runningFlag && (seg.checksum == 0 || tcpSegChecksum seg == 0) then
    tcpRecvState md c seg env
  else c

end FinsStack.Tcp
