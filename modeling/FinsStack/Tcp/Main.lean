import FinsStack.Tcp.Requests

/-!
# The main thread of a connection

`tcp.c`.

Each round of the thread takes the first of these that applies: a timed-out write
request, a go-back-N timeout, a fast retransmission, the next segment of a
go-back-N pass, new data.  `tcp_main_established` and `tcp_main_fin_wait_1` share
the middle of that list and differ in what an empty queue means (the FIN) and in
whether a sent segment is recorded as having closed the receive window.
-/

namespace FinsStack.Tcp

def noteFlow (c : TcpConn) : TcpConn :=
  { c with flowStopped := c.flowStopped || c.recvWin == 0 }

/-! ### Retransmission -/

def resendNode (note : TcpConn → TcpConn) (c : TcpConn) (n : TcpNode TcpSeg) : TcpConn :=
  let r := tcpSegUpdate n.data c FLAG_ACK
  let c1 := note { r.2 with
    sendQueue := tcpQueueSet r.2.sendQueue n.addr r.1
    out := r.2.out ++ [.seg .resend r.1] }
  { c1 with sendWin := uint32Decrease c1.sendWin r.1.dataLen32 }

def timeoutCong (c : TcpConn) : TcpConn :=
  match c.congState with
  | .slowstart =>
    { c with
      congState := .avoidance
      threshhold := lossThreshhold c
      congWindow := lossThreshhold c + 3 * (c.mss.toNat : Rat) }
  | .avoidance | .recovery =>
    { c with
      congState := .slowstart
      threshhold := c.sendMaxWin.toNat
      congWindow := c.mss.toNat }

def mainTimeout (note : TcpConn → TcpConn) (c : TcpConn) (front : TcpNode TcpSeg) : TcpConn :=
  let c1 := timeoutCong { c with gbnFlag := true, rttFlag := false }
  let c2 := resendNode note { c1 with gbnNode := some front.addr } front
  { c2 with toGbnTimer := timerOnceStart c2.timeout, mainWaitFlag := false }

def mainFast (note : TcpConn → TcpConn) (c : TcpConn) : TcpConn :=
  match c.sendQueue.nodes with
  | [] => { c with fastFlag := false }
  | n :: _ => resendNode note { c with fastFlag := false } n

def flightSize (c : TcpConn) : UInt32 := c.sendSeqEnd - c.sendSeqNum

def recvSpace (c : TcpConn) : Int := (c.sendWin.toNat : Int) - (flightSize c).toNat

def congSpace (c : TcpConn) : Rat := c.congWindow - (flightSize c).toNat

/-- The node a go-back-N pass sends next: the front after an acknowledgment moved it,
    otherwise the one behind the last. -/
def nextGbnNode (c : TcpConn) : Option (TcpNode TcpSeg) :=
  if c.firstFlag then c.sendQueue.nodes.head?
  else c.gbnNode.bind (tcpNodeNext c.sendQueue)

def mainGbn (note : TcpConn → TcpConn) (c : TcpConn) : TcpConn :=
  if tcpQueueIsEmpty c.sendQueue then { c with gbnFlag := false }
  else if 1 < recvSpace c ∧ 1 < congSpace c then
    match nextGbnNode c with
    | some n => resendNode note { c with gbnNode := some n.addr } n
    | none => { c with gbnNode := none, gbnFlag := false }
  else { c with mainWaitFlag := true }

/-! ### New data -/

def unsentLen (c : TcpConn) : UInt32 := c.writeQueue.len - c.writeIndex

def nextDataLen (c : TcpConn) : UInt32 :=
  let d0 := if c.mss.toUInt32 < unsentLen c then c.mss.toUInt32 else unsentLen c
  let d1 := if c.sendWin < d0 then c.sendWin else d0
  if congSpace c < (d1.toNat : Rat) then UInt32.ofNat (congSpace c).floor.toNat else d1

def canSend (c : TcpConn) : Bool :=
  decide (0 < unsentLen c ∧ 1 < recvSpace c ∧ 1 < congSpace c)

def cutSegment (c : TcpConn) (dataLen : UInt32) : TcpSeg × TcpConn :=
  let r := tcpSegAddData (tcpSegCreate c.addr c.sendSeqEnd c.sendSeqEnd) c.writeQueue
    c.writeIndex dataLen
  (r.1, tcpHandleRequests { c with writeQueue := r.2.1, writeIndex := r.2.2 })

/-- Put the sent segment on `send_queue` and start what it starts: the round-trip
    measurement, the timer if this is the first segment, a waiting poll. -/
def queueSent (c : TcpConn) (seg : TcpSeg) (dataLen : UInt32) : TcpConn :=
  let c1 := { c with
    sendQueue := tcpQueueAppend c.sendQueue
      { data := seg, len := dataLen, seqNum := seg.seqNum
        seqEnd := seg.seqNum + dataLen - 1, addr := c.nextAddr }
    nextAddr := c.nextAddr + 1
    sendSeqEnd := c.sendSeqEnd + dataLen
    sendWin := uint32Decrease c.sendWin dataLen }
  let c2 := if c1.rttFlag then c1 else
    { c1 with
      rttFlag := true, rttStamp := c1.clock
      rttSeqNum := seg.seqNum, rttSeqEnd := c1.sendSeqEnd }
  let c3 := if c2.firstFlag then
      { c2 with firstFlag := false, toGbnTimer := timerOnceStart c2.timeout, toGbnFlag := false }
    else c2
  if tcpQueueIsEmpty c3.requestQueue then alertPollWrite c3 (writeSpace c3) else c3

def sendNewEstablished (c : TcpConn) : TcpConn :=
  let dataLen := nextDataLen c
  let s := cutSegment c dataLen
  let r := tcpSegUpdate s.1 s.2 FLAG_ACK
  queueSent (noteFlow (r.2.emit (.seg .fresh r.1))) r.1 dataLen

/-- The sending part of `tcp_main_fin_wait_1`: the FIN rides on the last segment. -/
def sendNewFinWait1 (c : TcpConn) : TcpConn :=
  let dataLen := nextDataLen c
  let s := cutSegment c dataLen
  let last := tcpQueueIsEmpty s.2.requestQueue && tcpQueueIsEmpty s.2.writeQueue
  let c1 := if last then
      { s.2 with finSent := true, finSep := false, fsse := s.1.seqEnd + 1 }
    else s.2
  let r := tcpSegUpdate s.1 c1 (if last then FLAG_ACK ||| FLAG_FIN else FLAG_ACK)
  queueSent (r.2.emit (.seg .fresh r.1)) r.1 dataLen

/-! ### The handlers -/

def mainDelayedAck (c : TcpConn) : TcpConn :=
  if c.toDelayedFlag then
    sendAckSeg { c with toDelayedFlag := false, delayedFlag := false } c.delayedAckFlags
  else c

def clearInterrupt (c : TcpConn) : TcpConn := { c with requestInterrupt := false }

/-- `tcp_main_closed` and `tcp_main_listen`. -/
def tcpMainClosed (c : TcpConn) : TcpConn :=
  { clearInterrupt c with toGbnFlag := false, toDelayedFlag := false, mainWaitFlag := true }

def tcpMainListen := tcpMainClosed

def resendSyn (c : TcpConn) (rand : UInt32) : TcpConn :=
  let c1 := sendControl (startSend c rand) FLAG_SYN
  let t := fmin (2 * c1.timeout) TCP_GBN_TO_MAX
  { c1 with mainWaitFlag := false, timeout := t, toGbnTimer := timerOnceStart t }

def tcpMainSynSent (c : TcpConn) (rand : UInt32) : TcpConn :=
  let c1 := clearInterrupt c
  if c1.toGbnFlag then
    let c2 := { c1 with toGbnFlag := false }
    match c2.ff with
    | some ff =>
      if c2.timeout = TCP_GBN_TO_MAX then
        tcpConnShutdown { c2 with
          ff := none
          out := c2.out ++ [.connReply ff c2.addr c2.state FCF_FALSE ETIMEDOUT] }
      else { resendSyn c2 rand with toDelayedFlag := false }
    | none => { resendSyn c2 rand with toDelayedFlag := false }
  else { c1 with mainWaitFlag := true, toDelayedFlag := false }

/-- The timeout of `tcp_main_syn_recv` on a connection opened by a peer's SYN. -/
def synRecvTimeout (c : TcpConn) : TcpConn :=
  if c.timeout = TCP_MSL_TO_DEFAULT then
    match c.ff with
    | some ff =>
      tcpConnShutdown { c with
        ff := none
        out := c.out ++ [.connReply ff c.addr c.state FCF_FALSE ETIMEDOUT] }
    | none => c
  else
    let c1 := sendControl c (FLAG_SYN ||| FLAG_ACK)
    let t := fmin (2 * c1.timeout) TCP_MSL_TO_DEFAULT
    { c1 with timeout := t, toGbnTimer := timerOnceStart t, toGbnFlag := false }

def tcpMainSynRecv (c : TcpConn) (rand : UInt32) : TcpConn :=
  let c1 := clearInterrupt c
  let c2 := if c1.toGbnFlag then
      let c2 := { c1 with toGbnFlag := false }
      if c2.activeOpen then resendSyn (c2.setState .synSent) rand else synRecvTimeout c2
    else { c1 with mainWaitFlag := true }
  { c2 with toDelayedFlag := false }

def mainEstablished (md : TcpData) (c : TcpConn) : TcpConn :=
  if c.requestInterrupt then handleInterrupt (clearInterrupt c)
  else if c.toGbnFlag then
    let c1 := { c with toGbnFlag := false, firstFlag := false, fastFlag := false }
    match c1.sendQueue.nodes with
    | [] => { c1 with gbnFlag := false }
    | n :: _ => mainTimeout noteFlow c1 n
  else if c.fastFlag && md.fastEnabled then mainFast noteFlow c
  else if c.gbnFlag then mainGbn noteFlow c
  else if tcpQueueIsEmpty c.requestQueue && tcpQueueIsEmpty c.writeQueue then
    { c with mainWaitFlag := true }
  else if canSend c then sendNewEstablished c
  else { c with mainWaitFlag := true }

def tcpMainEstablished (md : TcpData) (c : TcpConn) : TcpConn :=
  mainDelayedAck (mainEstablished md c)

def mainFinWait1 (md : TcpData) (c : TcpConn) : TcpConn :=
  if c.requestInterrupt then handleInterrupt (clearInterrupt c)
  else if c.toGbnFlag then
    let c1 := { c with toGbnFlag := false, firstFlag := false, fastFlag := false }
    match c1.sendQueue.nodes with
    | [] =>
      let c2 := { c1 with gbnFlag := false }
      if c2.finSent && tcpConnIsFinished c2 then sendFin c2 else c2
    | n :: _ => mainTimeout id c1 n
  else if c.fastFlag && md.fastEnabled then mainFast id c
  else if c.gbnFlag then mainGbn id c
  else if tcpQueueIsEmpty c.requestQueue && tcpQueueIsEmpty c.writeQueue then
    if c.finSent then { c with mainWaitFlag := true } else sendFin c
  else if canSend c then sendNewFinWait1 c
  else { c with mainWaitFlag := true }

def tcpMainFinWait1 (md : TcpData) (c : TcpConn) : TcpConn :=
  mainDelayedAck (mainFinWait1 md c)

def tcpMainFinWait2 (c : TcpConn) : TcpConn :=
  { mainDelayedAck { clearInterrupt c with toGbnFlag := false } with mainWaitFlag := true }

/-- `tcp_main_time_wait`: the timeout closes the connection, after an acknowledgment
    that is still due. -/
def tcpMainTimeWait (c : TcpConn) : TcpConn :=
  let c1 := clearInterrupt c
  if c1.toGbnFlag then
    let c2 := { c1 with toGbnFlag := false }
    let c3 := if c2.delayedFlag then
        sendAckSeg { c2 with toDelayedTimer := false, delayedFlag := false, toDelayedFlag := false }
          c2.delayedAckFlags
      else c2
    tcpConnShutdown { c3.setState .closed with mainWaitFlag := false }
  else mainDelayedAck { c1 with mainWaitFlag := true }

def tcpMainClosing := tcpMainFinWait1
def tcpMainCloseWait := tcpMainEstablished
def tcpMainLastAck := tcpMainFinWait1

def tcpMainState (md : TcpData) (c : TcpConn) (rand : UInt32) : TcpConn :=
  match c.state with
  | .closed => tcpMainClosed c
  | .listen => tcpMainListen c
  | .synSent => tcpMainSynSent c rand
  | .synRecv => tcpMainSynRecv c rand
  | .established => tcpMainEstablished md c
  | .finWait1 => tcpMainFinWait1 md c
  | .finWait2 => tcpMainFinWait2 c
  | .closing => tcpMainClosing md c
  | .timeWait => tcpMainTimeWait c
  | .closeWait => tcpMainCloseWait md c
  | .lastAck => tcpMainLastAck md c

/-- One move of `tcp_main_thread`: wake up if a post is there, run a round and decide
    whether to sleep, or leave the loop and stop the timers (`tcp_conn_stop`). -/
def tcpMainThread (md : TcpData) (c : TcpConn) (rand : UInt32) : TcpConn :=
  match c.mainPc with
  | .done => c
  | .waiting =>
    if 0 < c.mainWaitSem then { c with mainWaitSem := c.mainWaitSem - 1, mainPc := .ready } else c
  | .ready =>
    if c.runningFlag then
      let c1 := tcpMainState md c rand
      if c1.mainWaitFlag ∧ ¬ c1.requestInterrupt ∧ ¬ c1.toGbnFlag ∧ ¬ c1.toDelayedFlag then
        { c1 with mainWaitFlag := false, mainWaiting := true, mainPc := .waiting }
      else c1
    else { c with mainPc := .done, toGbnTimer := false, toDelayedTimer := false }

end FinsStack.Tcp
