import FinsStack.Tcp.Seg

/-!
# Acknowledgments and resets

`tcp_in.c`.

`tcpHandleAck` has four ways to take an acknowledgment number: it repeats
`send_seq_num` (`ackDuplicate`), reaches `send_seq_end` (`ackAll`), is the start of
a queued segment (`ackTo`), or covers the FIN (`ackFin`).  Each is a function of
its own here, in the order of the source's branches.
-/

namespace FinsStack.Tcp

def wakeMain (c : TcpConn) : TcpConn :=
  { c with
    mainWaiting := false
    mainWaitSem := if c.mainWaiting then c.mainWaitSem + 1 else c.mainWaitSem }

def tcpConnShutdown (c : TcpConn) : TcpConn :=
  { c with runningFlag := false, mainWaitSem := c.mainWaitSem + 1 }

/-- `tcp_conn_is_finished`: nothing is waiting to be sent or acknowledged.  A FIN
    takes no room in `send_seq_end`, so it does not count. -/
def tcpConnIsFinished (c : TcpConn) : Bool :=
  tcpQueueIsEmpty c.requestQueue && tcpQueueIsEmpty c.writeQueue && c.sendSeqNum == c.sendSeqEnd

/-! ### Round-trip time -/

def clampTimeout (timeout : Rat) : Rat :=
  if timeout < TCP_GBN_TO_MIN then TCP_GBN_TO_MIN
  else if TCP_GBN_TO_MAX < timeout then TCP_GBN_TO_MAX else timeout

/-- `tcp_calc_rtt` with `alpha = 1/8` and `beta = 1/4`. -/
def tcpCalcRtt (c : TcpConn) : TcpConn :=
  let samp : Rat := ((c.clock : Rat) - c.rttStamp) / 1000
  let est : Rat := if c.rttFirst then samp else (1 - 1 / 8) * c.rttEst + 1 / 8 * samp
  let dev : Rat :=
    if c.rttFirst then samp / 2 else (1 - 1 / 4) * c.rttDev + 1 / 4 * fabs (samp - est)
  { c with
    rttFlag := false
    rttFirst := false
    rttEst := est
    rttDev := dev
    timeout := clampTimeout (est + dev / (1 / 4)) }

/-! ### Resets -/

/-- `tcp_handle_RST`: a reset inside the receive window, or one that acknowledges
    outstanding data, stops the connection. -/
def tcpHandleRst (c : TcpConn) (seg : TcpSeg) : TcpConn :=
  if tcpInWindow seg.seqNum seg.seqEnd c.recvSeqNum c.recvSeqEnd
      || (seg.seqNum == 0 && hasFlag seg.flags FLAG_ACK
        && tcpInWindow seg.ackNum seg.ackNum c.sendSeqNum c.sendSeqEnd) then
    tcpConnShutdown c
  else c

/-! ### Send window updates -/

def scaledWin (c : TcpConn) (seg : TcpSeg) : UInt32 :=
  if c.wsoptEnabled then seg.winSize.toUInt32 <<< c.wsSend.toUInt32 else seg.winSize.toUInt32

def isWinUpdate (c : TcpConn) (seg : TcpSeg) : Bool :=
  decide (c.sendWinSeq < seg.seqNum ∨ (c.sendWinSeq = seg.seqNum ∧ c.sendWinAck ≤ seg.ackNum))

def takeWindow (c : TcpConn) (seg : TcpSeg) : TcpConn :=
  { c with
    sendMaxWin := scaledWin c seg
    sendWin := scaledWin c seg
    sendWinSeq := seg.seqNum
    sendWinAck := seg.ackNum }

def updateWindow (c : TcpConn) (seg : TcpSeg) : TcpConn :=
  if isWinUpdate c seg then takeWindow c seg else c

/-! ### The four branches of `tcp_handle_ACK` -/

def lossThreshhold (c : TcpConn) : Rat :=
  fmax (((c.sendSeqEnd - c.sendSeqNum).toNat : Rat) / 2) (2 * (c.mss.toNat : Rat))

/-- A duplicate acknowledgment as congestion control sees it: fast retransmit after
    `fast_duplicates` of them, window inflation during recovery. -/
def countDuplicate (md : TcpData) (c : TcpConn) : TcpConn :=
  let dup := c.duplicate + 1
  match c.congState with
  | .slowstart | .avoidance =>
    if md.fastEnabled ∧ md.fastDuplicates ≤ dup then
      { c with
        duplicate := 0
        rttFlag := false
        toGbnTimer := timerOnceStart c.timeout
        toGbnFlag := false
        congState := .recovery
        fastFlag := true
        restoreSeqEnd := c.sendSeqEnd
        threshhold := lossThreshhold c
        congWindow := lossThreshhold c + 3 * (c.mss.toNat : Rat) }
    else { c with duplicate := dup }
  | .recovery => { c with duplicate := dup, congWindow := c.congWindow + (c.mss.toNat : Rat) }

def ackDuplicate (md : TcpData) (c : TcpConn) (seg : TcpSeg) : TcpConn :=
  let updated := isWinUpdate c seg && scaledWin c seg != c.sendMaxWin
  let c1 := updateWindow c seg
  if !updated && seg.dataLen == 0 then countDuplicate md c1 else c1

def tcpQueueRemoveAll {α : Type} : List (TcpNode α) → TcpQueue α → TcpQueue α
  | [], q => q
  | _ :: ns, q => tcpQueueRemoveAll ns (tcpQueueRemoveFront q)

/-- Remove nodes from the front until the one `tcp_queue_find` found for `seqNum`:
    that is the first node starting there, so `front != node` is a test on the
    sequence number. -/
def tcpQueueRemoveUntil {α : Type} (seqNum : UInt32) : List (TcpNode α) → TcpQueue α → TcpQueue α
  | [], q => q
  | n :: ns, q =>
    if n.seqNum = seqNum then q else tcpQueueRemoveUntil seqNum ns (tcpQueueRemoveFront q)

def growCongWindow (c : TcpConn) : TcpConn :=
  match c.congState with
  | .slowstart =>
    let w := c.congWindow + (c.mss.toNat : Rat)
    { c with congWindow := w, congState := if c.threshhold ≤ w then .avoidance else .slowstart }
  | _ =>
    { c with congWindow :=
        c.congWindow + fmax ((c.mss.toNat : Rat) * (c.mss.toNat : Rat) / c.congWindow) 1 }

def settleAll (c : TcpConn) : TcpConn :=
  let c1 := { c with fastFlag := false, gbnFlag := false }
  let c2 := if c1.rttFlag then tcpCalcRtt c1 else c1
  let c3 := { c2 with toGbnTimer := false }
  match c3.congState with
  | .slowstart | .avoidance => growCongWindow c3
  | .recovery => { c3 with congState := .avoidance, congWindow := c3.threshhold }

def ackAll (c : TcpConn) (seg : TcpSeg) : TcpConn :=
  let c1 := { c with
    sendQueue := tcpQueueRemoveAll c.sendQueue.nodes c.sendQueue
    sendSeqNum := seg.ackNum }
  let c2 := { updateWindow c1 seg with duplicate := 0 }
  if seg.dataLen == 0 then settleAll c2 else c2

def settlePartial (c : TcpConn) (numNodes : Nat) : TcpConn :=
  let c1 := { c with firstFlag := c.firstFlag || c.gbnFlag }
  let c2 := if c1.rttFlag
      && !tcpInWindow c1.rttSeqNum c1.rttSeqNum c1.sendSeqNum c1.sendSeqEnd then
    tcpCalcRtt c1 else c1
  let c3 := if c2.gbnFlag then c2
    else { c2 with toGbnTimer := timerOnceStart c2.timeout, toGbnFlag := false }
  match c3.congState with
  | .slowstart | .avoidance => growCongWindow c3
  | .recovery =>
    if c3.sendSeqNum = c3.restoreSeqEnd then
      { c3 with congState := .avoidance, congWindow := c3.threshhold }
    else
      { c3 with
        congState := .avoidance
        congWindow := c3.congWindow + (numNodes : Rat) * (c3.mss.toNat : Rat)
        fastFlag := true }

/-- `ack_num` lies strictly between: it is taken when a queued segment starts there,
    and reported as never sent otherwise. -/
def ackTo (c : TcpConn) (seg : TcpSeg) : TcpConn :=
  match tcpQueueFind c.sendQueue seg.ackNum with
  | none => c
  | some _ =>
    let q := tcpQueueRemoveUntil seg.ackNum c.sendQueue.nodes c.sendQueue
    let numNodes := 1 + (c.sendQueue.nodes.length - q.nodes.length)
    let c1 := { c with sendQueue := q, sendSeqNum := seg.ackNum }
    settlePartial { takeWindow c1 seg with duplicate := 0 } numNodes

def ackFin (c : TcpConn) (seg : TcpSeg) : TcpConn :=
  let c1 := { c with
    sendQueue := tcpQueueRemoveAll c.sendQueue.nodes c.sendQueue
    sendSeqNum := seg.ackNum
    sendSeqEnd := seg.ackNum
    out := c.out ++ [.finAck] }
  updateWindow c1 seg

def tcpHandleAck (md : TcpData) (c : TcpConn) (seg : TcpSeg) : TcpConn :=
  if tcpInWindow seg.ackNum seg.ackNum c.sendSeqNum c.sendSeqEnd then
    wakeMain <|
      if seg.ackNum = c.sendSeqNum then ackDuplicate md c seg
      else if seg.ackNum = c.sendSeqEnd then ackAll c seg
      else ackTo c seg
  else if c.finSent ∧ seg.ackNum = c.fsse then ackFin c seg
  else c

end FinsStack.Tcp
