import FinsStack.Tcp.Ack

/-!
# Receiving data

`tcp_in.c`.

A segment that starts at `recv_seq_num` is processed at once and then drains
`recv_queue`; any other segment inside the window is stored.  Processing decides
by the connection's state whether the bytes count, whether a FIN is consumed and
which state follows.
-/

namespace FinsStack.Tcp

def TCP_STATUS_RD : UInt32 := 1

def TcpSeg.dataLen32 (seg : TcpSeg) : UInt32 := UInt32.ofInt seg.dataLen

/-! ### Flags -/

def advanceRecv (c : TcpConn) (n : UInt32) : TcpConn :=
  { c with recvSeqNum := c.recvSeqNum + n, recvSeqEnd := c.recvSeqNum + n + c.recvMaxWin }

def consumeFin (c : TcpConn) (seg : TcpSeg) : TcpConn :=
  (advanceRecv c (seg.dataLen32 + 1)).emit (.fin seg.seqNum c.recvSeqNum)

def alertShutdownRd (c : TcpConn) : TcpConn :=
  c.emit (.alert c.addr TCP_ALERT_SHUTDOWN FCF_FALSE TCP_STATUS_RD)

def startMslTimer (c : TcpConn) : TcpConn :=
  { c with toGbnTimer := timerOnceStart (2 * TCP_MSL_TO_DEFAULT), toGbnFlag := false }

/-- The return value of `tcp_process_flags`: -1 drop, 0 nothing for the daemon, 1 hand
    the data on. -/
inductive FlagsRet where
  | drop | silent | deliver
deriving DecidableEq, Repr

def acceptData (c : TcpConn) (seg : TcpSeg) (sf : UInt16) : FlagsRet × TcpConn × UInt16 :=
  if seg.dataLen ≠ 0 then (.deliver, advanceRecv c seg.dataLen32, sf ||| FLAG_ACK)
  else (.silent, c, sf)

def refuseData (c : TcpConn) (seg : TcpSeg) (sf : UInt16) : FlagsRet × TcpConn × UInt16 :=
  if seg.dataLen ≠ 0 then (.deliver, c, sf ||| FLAG_ACK) else (.silent, c, sf)

def processFlagsFinWait1 (c : TcpConn) (seg : TcpSeg) (sf : UInt16) :
    FlagsRet × TcpConn × UInt16 :=
  if hasFlag seg.flags FLAG_SYN then (.drop, c, sf)
  else if hasFlag seg.flags FLAG_FIN then
    let c1 := consumeFin c seg
    if hasFlag seg.flags FLAG_ACK && tcpConnIsFinished c1 then
      if c1.finSent then
        (.deliver, alertShutdownRd (startMslTimer (c1.setState .timeWait)), sf ||| FLAG_ACK)
      else
        (.deliver, alertShutdownRd (c1.setState .closing), sf ||| FLAG_FIN ||| FLAG_ACK)
    else (.deliver, alertShutdownRd (c1.setState .closing), sf ||| FLAG_ACK)
  else if hasFlag seg.flags FLAG_ACK && tcpConnIsFinished c then
    if c.finSent then acceptData (c.setState .finWait2) seg sf
    else
      let c1 := if seg.dataLen ≠ 0 then advanceRecv c seg.dataLen32 else c
      (.deliver, c1, sf ||| FLAG_FIN ||| FLAG_ACK)
  else acceptData c seg sf

def processFlagsClosing (c : TcpConn) (seg : TcpSeg) (sf : UInt16) :
    FlagsRet × TcpConn × UInt16 :=
  if hasFlag seg.flags FLAG_SYN then (.drop, c, sf)
  else if hasFlag seg.flags FLAG_ACK && tcpConnIsFinished c then
    if c.finSent then (.silent, startMslTimer (c.setState .timeWait), sf)
    else (.deliver, c, sf ||| FLAG_FIN ||| FLAG_ACK)
  else if hasFlag seg.flags FLAG_FIN || seg.dataLen ≠ 0 then (.deliver, c, sf ||| FLAG_ACK)
  else (.deliver, c, sf)

def processFlagsLastAck (c : TcpConn) (seg : TcpSeg) (sf : UInt16) :
    FlagsRet × TcpConn × UInt16 :=
  if hasFlag seg.flags FLAG_ACK && tcpConnIsFinished c then
    if c.finSent then refuseData (c.setState .closed) seg sf
    else (.deliver, c, sf ||| FLAG_ACK ||| FLAG_FIN)
  else refuseData c seg sf

def tcpProcessFlags (c : TcpConn) (seg : TcpSeg) (sf : UInt16) : FlagsRet × TcpConn × UInt16 :=
  match c.state with
  | .established =>
    if hasFlag seg.flags FLAG_SYN then (.drop, c, sf)
    else if hasFlag seg.flags FLAG_FIN then
      (.deliver, alertShutdownRd ((consumeFin c seg).setState .closeWait), sf ||| FLAG_ACK)
    else acceptData c seg sf
  | .finWait1 => processFlagsFinWait1 c seg sf
  | .finWait2 =>
    if hasFlag seg.flags FLAG_SYN then (.drop, c, sf)
    else if hasFlag seg.flags FLAG_FIN then
      (.deliver, startMslTimer (alertShutdownRd ((consumeFin c seg).setState .timeWait)),
        sf ||| FLAG_ACK)
    else acceptData c seg sf
  | .closing => processFlagsClosing c seg sf
  | .timeWait =>
    if hasFlag seg.flags FLAG_SYN then (.drop, c, sf)
    else if hasFlag seg.flags FLAG_FIN then (.deliver, c, sf ||| FLAG_ACK)
    else (.silent, c, sf)
  | .closeWait =>
    if hasFlag seg.flags FLAG_SYN then (.drop, c, sf)
    else if hasFlag seg.flags FLAG_FIN then (.deliver, c, sf ||| FLAG_ACK)
    else refuseData c seg sf
  | .lastAck => processFlagsLastAck c seg sf
  | .closed | .listen | .synSent | .synRecv => (.silent, c, sf)

/-! ### Options -/

def negotiating (c : TcpConn) : Bool := c.state == .synRecv || c.state == .synSent

def optMss (c : TcpConn) (mss : UInt16) : TcpConn :=
  { c with mss := if negotiating c ∧ mss < c.mss then mss else c.mss }

def optWs (c : TcpConn) (ws : UInt8) : TcpConn :=
  if negotiating c ∧ c.wsoptAttempt ∧ ws ≠ 0 then
    { c with wsoptEnabled := true, wsSend := if ws < TCP_OPT_WS_MAX then ws else TCP_OPT_WS_MAX }
  else c

def optSackPerm (c : TcpConn) : TcpConn :=
  { c with sackEnabled := c.sackEnabled || (negotiating c && c.sackAttempt) }

def optTs (c : TcpConn) : TcpConn :=
  { c with tsoptEnabled := c.tsoptEnabled || (negotiating c && c.tsoptAttempt) }

/-- The loop of `tcp_process_options` at byte `i`.  Every round moves `i` forward, so
    `opt_len` rounds reach the end.  Bytes past the stored ones are the cleared rest
    of the 40-byte array. -/
def tcpProcessOptionsLoop (seg : TcpSeg) : Nat → Nat → TcpConn → TcpConn
  | 0, _, c => c
  | fuel + 1, i, c =>
    if (i : Int) < seg.optLen then
      let pt := fun j => seg.options.getD j 0
      let kind := pt i
      let len := pt (i + 1)
      if kind = 0 then c
      else if kind = 1 then tcpProcessOptionsLoop seg fuel (i + 1) c
      else if kind = 2 then
        if len = 4 then
          tcpProcessOptionsLoop seg fuel (i + 4)
            (optMss c (((pt (i + 2)).toUInt16 <<< 8) ||| (pt (i + 3)).toUInt16))
        else tcpProcessOptionsLoop seg fuel (i + 2) c
      else if kind = 3 then
        if len = 3 then tcpProcessOptionsLoop seg fuel (i + 3) (optWs c (pt (i + 2)))
        else tcpProcessOptionsLoop seg fuel (i + 2) c
      else if kind = 4 then
        tcpProcessOptionsLoop seg fuel (i + 2) (if len = 2 then optSackPerm c else c)
      else if kind = 5 then tcpProcessOptionsLoop seg fuel (i + 2) c
      else if kind = 8 then
        -- `ts_rem` is never written, so the source's early return on it is not taken
        if len = 10 then tcpProcessOptionsLoop seg fuel (i + 10) (optTs c)
        else tcpProcessOptionsLoop seg fuel (i + 2) c
      else tcpProcessOptionsLoop seg fuel (i + 1) c
    else c

/-- `if (seg->opt_len) tcp_process_options(conn, seg)`. -/
def tcpProcessOptions (c : TcpConn) (seg : TcpSeg) : TcpConn :=
  tcpProcessOptionsLoop seg seg.optLen.toNat 0 c

/-! ### One segment -/

/-- `tcp_process_seg`: whether it succeeded, the connection, and the reply flags. -/
def tcpProcessSeg (md : TcpData) (c : TcpConn) (seg : TcpSeg) (sf : UInt16) :
    Bool × TcpConn × UInt16 :=
  match tcpProcessFlags c seg sf with
  | (.drop, c1, sf1) => (false, c1, sf1)
  | (.silent, c1, sf1) => (true, tcpProcessOptions c1 seg, sf1)
  | (.deliver, c1, sf1) =>
    if seg.dataLen ≠ 0 then
      if md.flowDaemon then (true, c1.emit (.data c1.addr seg.data), sf1)
      else (false, c1, sf1)
    else (true, c1, sf1)

/-! ### Draining the stored segments -/

/-- What the drain loop does with the front of `recv_queue`. -/
inductive DrainStep where
  | stop | discard | process
deriving DecidableEq, Repr

def drainStep (c : TcpConn) (front : TcpNode TcpSeg) : DrainStep :=
  if front.seqNum < c.recvSeqNum then
    if c.recvSeqNum ≤ c.recvSeqEnd then .discard
    else if front.seqNum < c.recvSeqEnd then .stop else .discard
  else if front.seqNum = c.recvSeqNum then .process
  else if c.recvSeqNum ≤ c.recvSeqEnd then
    if front.seqNum < c.recvSeqEnd then .stop else .discard
  else .stop

def drainLoop (md : TcpData) : List (TcpNode TcpSeg) → TcpConn → UInt16 → TcpConn × UInt16
  | [], c, sf => (c, sf)
  | n :: ns, c, sf =>
    let popped := { c with recvQueue := tcpQueueRemoveFront c.recvQueue }
    match drainStep c n with
    | .stop => (c, sf)
    | .discard =>
      drainLoop md ns
        { popped with recvWin := uint32Increase c.recvWin n.data.dataLen32 c.recvMaxWin } sf
    | .process =>
      let r := tcpProcessSeg md popped n.data sf
      drainLoop md ns r.2.1 (if r.1 then r.2.2 ||| FLAG_ACK_NOW else r.2.2)

def handleInOrder (md : TcpData) (c : TcpConn) (seg : TcpSeg) : TcpConn × UInt16 :=
  let r := tcpProcessSeg md c seg 0
  let c1 := if r.1 then { r.2.1 with recvWin := uint32Decrease r.2.1.recvWin seg.dataLen32 }
    else r.2.1
  let d := drainLoop md c1.recvQueue.nodes c1 r.2.2
  (wakeMain d.1, d.2)

/-- The reordered branch: the reply asks the peer again, and a segment inside the
    window is stored unless it overlaps what is stored already. -/
def handleOutOfOrder (c : TcpConn) (seg : TcpSeg) : TcpConn × UInt16 :=
  let sf : UInt16 :=
    if seg.dataLen ≠ 0 then FLAG_ACK ||| FLAG_ACK_NOW ||| FLAG_ACK_SAME
    else if hasFlag seg.flags FLAG_FIN then FLAG_ACK else 0
  if c.recvWin ≠ 0 then
    if tcpInWindow seg.seqNum seg.seqEnd c.recvSeqNum c.recvSeqEnd then
      let node : TcpNode TcpSeg :=
        { data := seg, len := seg.dataLen32, seqNum := seg.seqNum, seqEnd := seg.seqEnd,
          addr := c.nextAddr }
      match tcpQueueInsert c.recvQueue node c.recvSeqNum c.recvSeqEnd with
      | some q =>
        ({ c with
            recvQueue := q
            recvWin := uint32Decrease c.recvWin seg.dataLen32
            nextAddr := c.nextAddr + 1 }, sf)
      | none => (c, sf)
    else (c, sf)
  else (c, sf)

def tcpHandleData (md : TcpData) (c : TcpConn) (seg : TcpSeg) : TcpConn × UInt16 :=
  if seg.seqNum = c.recvSeqNum then handleInOrder md c seg else handleOutOfOrder c seg

/-! ### The reply -/

def sendControlReply (c : TcpConn) (flags : UInt16) : TcpConn :=
  let c1 := sendControl c flags
  { c1 with flowStopped := c1.flowStopped || c1.recvWin == 0 }

def replyAck (c : TcpConn) (flags : UInt16) : TcpConn :=
  if hasFlag flags FLAG_ACK_NOW || c.delayedFlag then
    let c1 := { c with toDelayedTimer := false, toDelayedFlag := false }
    if hasFlag flags FLAG_ACK_SAME && !c1.delayedFlag then
      -- resend `ack_seg` exactly as it last went out
      { c1 with
        flowStopped := c1.flowStopped || c1.recvWin == 0
        out := c1.out ++ [.seg .ack c1.ackSeg] }
    else { sendAckSeg c1 flags with delayedFlag := false }
  else
    { c with
      delayedFlag := true
      delayedAckFlags := flags
      toDelayedTimer := timerOnceStart TCP_DELAYED_TO_DEFAULT
      toDelayedFlag := false }

def tcpHandleReply (c : TcpConn) (flags : UInt16) : TcpConn :=
  if hasFlag flags FLAG_RST then sendControlReply c flags
  else if hasFlag flags FLAG_FIN then
    let flags1 := if c.finSent then flags &&& ~~~ FLAG_FIN else flags
    let c1 := if c.finSent then c
      else { c with finSent := true, finSep := true, fsse := c.sendSeqEnd + 1 }
    sendControlReply
      { c1 with toDelayedTimer := false, delayedFlag := false, toDelayedFlag := false } flags1
  else if hasFlag flags FLAG_ACK then replyAck c flags
  else sendControlReply c flags

def handleDataAndReply (md : TcpData) (c : TcpConn) (seg : TcpSeg) : TcpConn :=
  let r := tcpHandleData md c seg
  if r.2 ≠ 0 then tcpHandleReply r.1 r.2 else r.1

end FinsStack.Tcp
