import FinsStack.Tcp.Queue

/-!
# Building segments

`tcp.c`.

A segment is cut from the front of `write_queue` by `tcpSegAddData` and gets its
acknowledgment number, window, options and data offset from the connection in
`tcpSegUpdate`, both when it is first sent and on every retransmission.
-/

namespace FinsStack.Tcp

/-! ### Creating a segment and filling it with data -/

def tcpSegCreate (a : ConnAddr) (seqNum seqEnd : UInt32) : TcpSeg :=
  { srcIp := a.hostIp, srcPort := a.hostPort, dstIp := a.remIp, dstPort := a.remPort,
    seqNum := seqNum, seqEnd := seqEnd }

/-- The copying loop of `tcp_seg_add_data`.  The list is the chain of `q`; what is
    returned is the bytes copied, the queue left and the new index into its front. -/
def tcpSegAddDataLoop :
    List (TcpNode (List UInt8)) → TcpQueue (List UInt8) → UInt32 → UInt32 → List UInt8 →
      List UInt8 × TcpQueue (List UInt8) × UInt32
  | [], q, index, _, acc => (acc, q, index)
  | n :: ns, q, index, dataLen, acc =>
    if dataLen = 0 then (acc, q, index)
    else
      let avail := n.len - index
      if dataLen < avail then
        (acc ++ (n.data.drop index.toNat).take dataLen.toNat, q, index + dataLen)
      else
        tcpSegAddDataLoop ns (tcpQueueRemoveFront q) 0 (dataLen - avail)
          (acc ++ (n.data.drop index.toNat).take avail.toNat)

/-- `tcp_seg_add_data`: move `dataLen` bytes from `q` into the segment.  The buffer
    is allocated cleared, so bytes the queue cannot supply are zero. -/
def tcpSegAddData (seg : TcpSeg) (q : TcpQueue (List UInt8)) (index dataLen : UInt32) :
    TcpSeg × TcpQueue (List UInt8) × UInt32 :=
  let r := tcpSegAddDataLoop q.nodes q index dataLen []
  ({ seg with
      dataLen := dataLen.toNat
      seqEnd := seg.seqNum + dataLen
      data := r.1 ++ List.replicate (dataLen.toNat - r.1.length) 0 }, r.2)

/-! ### Options -/

def be16 (x : UInt16) : List UInt8 := [(x >>> 8).toUInt8, x.toUInt8]

def be32 (x : UInt32) : List UInt8 :=
  [(x >>> 24).toUInt8, (x >>> 16).toUInt8, (x >>> 8).toUInt8, x.toUInt8]

/-- The option bytes of a SYN or SYN+ACK; `sack`, `ts` and `ws` say which options
    are attempted or enabled. -/
def synOptions (c : TcpConn) (sack ts ws : Bool) : List UInt8 :=
  [2, 4] ++ be16 c.mss
    ++ (if sack then (if ts then [] else [1, 1]) ++ [4, 2] else [])
    ++ (if ts then (if sack then [] else [1, 1]) ++ [8, 10]
          ++ be32 (UInt32.ofNat (c.clock / 1000000)) ++ [0, 0, 0, 0] else [])
    ++ (if ws then [1, 3, 3, c.wsRecv] else [])

/-- The selective-acknowledgment blocks: runs of `recv_queue` nodes merged while
    the next one starts inside the current block.  The loop stops once the option
    bytes exceed 32. -/
def sackBlocks (optLen : Nat) (left right : UInt32) :
    List (TcpNode TcpSeg) → List (UInt32 × UInt32)
  | [] => [(left, right)]
  | n :: ns =>
    if n.seqNum ≤ right ∨ (right < left ∧ left < n.seqNum) then
      sackBlocks optLen left n.seqEnd ns
    else
      (left, right) ::
        if 32 < optLen + 8 then [] else sackBlocks (optLen + 8) n.seqNum n.seqEnd ns

def sackOption (c : TcpConn) (optLen : Nat) : List UInt8 :=
  match c.recvQueue.nodes with
  | [] => []
  | n :: ns =>
    let blocks := sackBlocks (optLen + 4) n.seqNum n.seqEnd ns
    [1, 1, 5, UInt8.ofNat (2 + 8 * blocks.length)]
      ++ blocks.flatMap fun b => be32 b.1 ++ be32 b.2

def tcpOptions (c : TcpConn) : List UInt8 :=
  match c.state with
  | .synSent => synOptions c c.sackAttempt c.tsoptAttempt c.wsoptAttempt
  | .synRecv => synOptions c c.sackEnabled c.tsoptEnabled c.wsoptEnabled
  | .established =>
    let ts := if c.tsoptEnabled then
        [1, 1, 8, 10] ++ be32 (UInt32.ofNat (c.clock / 1000000)) ++ [0, 0, 0, 0]
      else []
    ts ++ (if c.sackEnabled then sackOption c ts.length else [])
  | _ => []

def tcpSegAddOptions (seg : TcpSeg) (c : TcpConn) : TcpSeg :=
  { seg with options := tcpOptions c, optLen := (tcpOptions c).length }

/-! ### Refreshing a segment before it is sent -/

/-- `tcp_seg_delayed_ack`: a pending delayed acknowledgment rides on `seg`. -/
def tcpSegDelayedAck (seg : TcpSeg) (c : TcpConn) : TcpSeg × TcpConn :=
  if c.delayedFlag then
    ({ seg with flags := seg.flags ||| c.delayedAckFlags },
      { c with toDelayedTimer := false, delayedFlag := false, toDelayedFlag := false })
  else (seg, c)

def addFin (seg : TcpSeg) (c : TcpConn) : TcpSeg :=
  if c.finSent ∧ ¬ c.finSep ∧ seg.seqNum + UInt32.ofInt seg.dataLen = c.sendSeqEnd then
    { seg with flags := seg.flags ||| FLAG_FIN }
  else seg

def tcpSegUpdateState (seg : TcpSeg) (c : TcpConn) : TcpSeg × TcpConn :=
  match c.state with
  | .established | .closing | .closeWait => tcpSegDelayedAck seg c
  | .finWait1 | .lastAck =>
    let r := tcpSegDelayedAck seg c
    (addFin r.1 r.2, r.2)
  | .closed | .listen | .synSent | .synRecv | .finWait2 | .timeWait => (seg, c)

/-- `tcp_seg_update`: flags, acknowledgment number, window, options, data offset. -/
def tcpSegUpdate (seg : TcpSeg) (c : TcpConn) (flags : UInt16) : TcpSeg × TcpConn :=
  let r := tcpSegUpdateState { seg with flags := flags &&& (FLAG_CONTROL ||| FLAG_ECN) } c
  let seg1 := { r.1 with
    ackNum := if hasFlag r.1.flags FLAG_ACK then r.2.recvSeqNum else 0
    winSize := (if r.2.wsoptEnabled then r.2.recvWin >>> r.2.wsRecv.toUInt32
      else r.2.recvWin).toUInt16 }
  let seg2 := tcpSegAddOptions seg1 r.2
  let offset := UInt16.ofInt (seg2.optLen / 4)
  ({ seg2 with flags := seg2.flags ||| (((5 + offset) <<< 12) &&& FLAG_DATAOFFSET) }, r.2)

def sendControl (c : TcpConn) (flags : UInt16) : TcpConn :=
  let r := tcpSegUpdate (tcpSegCreate c.addr c.sendSeqEnd c.sendSeqEnd) c flags
  r.2.emit (.seg .control r.1)

/-- Refresh the connection's own `ack_seg` at `send_seq_end`, send it, and remember
    when it closed the window. -/
def sendAckSeg (c : TcpConn) (flags : UInt16) : TcpConn :=
  let r := tcpSegUpdate { c.ackSeg with seqNum := c.sendSeqEnd, seqEnd := c.sendSeqEnd } c flags
  { r.2 with
    ackSeg := r.1
    flowStopped := r.2.flowStopped || r.2.recvWin == 0
    out := r.2.out ++ [.seg .ack r.1] }

/-! ### Checksum -/

/-- Sum of the 16-bit words of a byte string, an odd last byte counting as the
    high half of a word. -/
def sumWords : List UInt8 → UInt32
  | a :: b :: rest => (a.toUInt32 <<< 8) + b.toUInt32 + sumWords rest
  | [a] => a.toUInt32 <<< 8
  | [] => 0

def foldCarry (sum : UInt32) : UInt32 :=
  if _h : sum >>> 16 = 0 then sum else foldCarry ((sum &&& (0xFFFF : UInt32)) + (sum >>> 16))
termination_by sum.toNat
decreasing_by
  have hs := sum.toNat_lt
  have hne : sum.toNat / 2 ^ 16 ≠ 0 := by
    intro h0
    apply _h
    apply UInt32.toNat.inj
    simpa [Nat.shiftRight_eq_div_pow] using h0
  have hlow : (sum &&& (0xFFFF : UInt32)).toNat = sum.toNat % 2 ^ 16 := by
    simpa using Nat.and_two_pow_sub_one_eq_mod sum.toNat 16
  have hhigh : (sum >>> 16).toNat = sum.toNat / 2 ^ 16 := by
    simp [Nat.shiftRight_eq_div_pow]
  rw [UInt32.toNat_add, hlow, hhigh, Nat.mod_eq_of_lt (by omega)]
  omega

def htons (x : UInt16) : UInt16 := (x <<< 8) ||| (x >>> 8)

/-- `tcp_seg_checksum` over the pseudo header, the header, the options and the data. -/
def tcpSegChecksum (seg : TcpSeg) : UInt16 :=
  let hdrLen := ((seg.flags &&& FLAG_DATAOFFSET) >>> 12) * 4
  let pkt := be32 seg.srcIp ++ be32 seg.dstIp ++ [0, 6]
    ++ be16 (hdrLen + UInt16.ofInt seg.dataLen)
    ++ be16 seg.srcPort ++ be16 seg.dstPort ++ be32 seg.seqNum ++ be32 seg.ackNum
    ++ be16 seg.flags ++ be16 seg.winSize ++ be16 seg.checksum ++ be16 seg.urgPointer
  htons (~~~ (foldCarry (sumWords pkt + sumWords (seg.options.take seg.optLen.toNat)
    + sumWords (seg.data.take seg.dataLen.toNat)))).toUInt16

end FinsStack.Tcp
