import FinsStack.Tcp.Requests

/-!
# The reading side of a TCP socket of the daemon

`daemon/tcpHandling.c`, `daemon/daemon.c`.

Frames from the TCP module go to the `recvmsg` calls that wait in `call_list`, or to
`data_list` when none does; a later `recvmsg` takes them from there.  Everything runs
under `sockets_sem`, so each function is one step on the socket.
-/

namespace FinsStack.Daemon

def MAX_QUEUE_SIZE : Nat := 100000
def DAEMON_CALL_LIST_MAX : Nat := 30
def DAEMON_MAX_CALLS : Nat := 50

def DAEMON_STATUS_RD : UInt8 := 0x1
def DAEMON_STATUS_WR : UInt8 := 0x2
def DAEMON_STATUS_RDWR : UInt8 := DAEMON_STATUS_RD ||| DAEMON_STATUS_WR

def DAEMON_ALERT_POLL : UInt32 := 0
def DAEMON_ALERT_SHUTDOWN : UInt32 := 1

def MSG_ERRQUEUE : UInt32 := 0x2000

def POLLIN : UInt32 := 0x1
def POLLPRI : UInt32 := 0x2
def POLLOUT : UInt32 := 0x4
def POLLERR : UInt32 := 0x8
def POLLHUP : UInt32 := 0x10
def POLLRDNORM : UInt32 := 0x40
def POLLRDBAND : UInt32 := 0x80
def POLLWRNORM : UInt32 := 0x100
def POLLWRBAND : UInt32 := 0x200

def EINVAL : UInt32 := 22
def ENOTCONN : UInt32 := 107

/-! ### The socket -/

inductive SockState where
  | free | unconnected | connecting | connected | disconnecting
deriving DecidableEq, Repr

inductive CallType where
  | connect | accept | ioctl | sendmsg | recvmsg | getsockopt | setsockopt | poll | shutdown
deriving DecidableEq, Repr

structure WedgeHdr where
  callType : CallType
  callId : UInt32
  callIndex : Nat
deriving DecidableEq, Repr

/-- `struct daemon_call`; its first fields are a `wedge_to_daemon_hdr`. -/
structure DaemonCall extends WedgeHdr where
  /-- A copy, and not an entry of `md->calls`. -/
  alloc : Bool
  buf : UInt32
  flags : UInt32
  ret : UInt32
  toTimer : Bool
deriving DecidableEq, Repr

structure DaemonStore where
  pdu : List UInt8
  pos : Nat
deriving DecidableEq, Repr

inductive Msg where
  /-- `send_wedge_recvmsg` with `data`, for a call whose buffer has `buf` bytes. -/
  | recvmsg (hdr : WedgeHdr) (buf : UInt32) (data : List UInt8)
  | ack (hdr : WedgeHdr) (msg : UInt32)
  | nack (hdr : WedgeHdr) (msg : UInt32)
  | pollEvent (mask : UInt32)
  | hostWindow (value : UInt32)
  | alertShutdown (value : UInt32)
deriving DecidableEq, Repr

structure DaemonSocket where
  state : SockState
  status : UInt8
  callList : List DaemonCall
  dataList : List DaemonStore
  dataBuf : Int32
  out : List Msg
deriving DecidableEq, Repr

def DaemonSocket.emit (k : DaemonSocket) (m : Msg) : DaemonSocket := { k with out := k.out ++ [m] }

def connectedSocket : DaemonSocket where
  state := .connected
  status := DAEMON_STATUS_RDWR
  callList := []
  dataList := []
  dataBuf := 0
  out := []

/-! ### Calls -/

def daemonCallRecvmsgTest (flag : UInt32) (call : DaemonCall) : Bool :=
  call.callType == .recvmsg &&
    (if flag ≠ 0 then call.flags &&& MSG_ERRQUEUE != 0 else call.flags &&& MSG_ERRQUEUE == 0)

def removeCall (k : DaemonSocket) (index : Nat) : DaemonSocket :=
  { k with callList := k.callList.eraseP fun call => !call.alloc && call.callIndex == index }

/-- `daemon_calls_insert`, which takes a call that still uses the index off the list, and
    `list_append`. -/
def daemonCallsInsert (k : DaemonSocket) (call : DaemonCall) : DaemonSocket :=
  let k1 := removeCall k call.callIndex
  { k1 with callList := k1.callList ++ [call] }

def sendWedgeRecvmsg (wedge : Bool) (k : DaemonSocket) (hdr : WedgeHdr) (buf : UInt32)
    (data : List UInt8) : DaemonSocket :=
  k.emit (if wedge then .recvmsg hdr buf data else .nack hdr 1)

/-! ### Calls of the application -/

def recvmsgStore (wedge : Bool) (k : DaemonSocket) (hdr : WedgeHdr) (bufLen : UInt32)
    (store : DaemonStore) : DaemonSocket :=
  let left := store.pdu.length - store.pos
  let msgLen := if bufLen.toNat < left then bufLen.toNat else left
  let k1 := sendWedgeRecvmsg wedge k hdr bufLen ((store.pdu.drop store.pos).take msgLen)
  let k2 :=
    if msgLen = left then k1
    else
      let pos := store.pos + msgLen
      { k1 with
        dataList := { store with pos := pos } :: k1.dataList
        dataBuf := k1.dataBuf + Int32.ofNat (store.pdu.length - pos) }
  k2.emit (.hostWindow (UInt32.ofNat msgLen))

def recvmsgOutTcp (wedge : Bool) (k : DaemonSocket) (hdr : WedgeHdr)
    (bufLen controllen flags : UInt32) : DaemonSocket :=
  match k.state with
  | .connecting | .connected =>
    if flags &&& MSG_ERRQUEUE ≠ 0 then k.emit (.nack hdr 1)
    else if 0 < k.dataBuf then
      match k.dataList with
      -- the source reads the front without a test
      | [] => k
      | store :: stores =>
        recvmsgStore wedge
          { k with
            dataList := stores
            dataBuf := k.dataBuf - Int32.ofNat (store.pdu.length - store.pos) }
          hdr bufLen store
    else if k.status &&& DAEMON_STATUS_RD = 0 then sendWedgeRecvmsg wedge k hdr bufLen []
    else if k.callList.length < DAEMON_CALL_LIST_MAX then
      daemonCallsInsert k
        { hdr with
          alloc := false, buf := bufLen, flags := flags, ret := controllen
          toTimer := flags &&& Tcp.MSG_DONTWAIT ≠ 0 }
    else k.emit (.nack hdr 1)
  | _ => k.emit (.nack hdr 1)

inductive ShutHow where
  | rd | wr | rdwr
  | other (how : Int)
deriving DecidableEq, Repr

def ShutHow.status : ShutHow → Option UInt8
  | .rd => some DAEMON_STATUS_RD
  | .wr => some DAEMON_STATUS_WR
  | .rdwr => some DAEMON_STATUS_RDWR
  | .other _ => none

/-- `shutdown_out_tcp`; `flow` says whether TCP can be reached. -/
def shutdownOutTcp (flow : Bool) (k : DaemonSocket) (hdr : WedgeHdr) (how : ShutHow) :
    DaemonSocket :=
  match how.status with
  | none => k.emit (.nack hdr EINVAL)
  | some howDaemon =>
    if k.state = .connected then
      let andTest := k.status &&& howDaemon
      if andTest ≠ 0 then
        let k1 := { k with status := k.status &&& ~~~andTest }
        if flow then (k1.emit (.alertShutdown andTest.toUInt32)).emit (.ack hdr 0)
        else k1.emit (.nack hdr 1)
      else k.emit (.ack hdr 0)
    else k.emit (.nack hdr ENOTCONN)

def recvmsgTimeoutTcp (k : DaemonSocket) (call : DaemonCall) : DaemonSocket :=
  match k.state with
  | .connected => k.emit (.nack call.toWedgeHdr Tcp.EAGAIN)
  | _ => k.emit (.nack call.toWedgeHdr 1)

def daemonHandleTo (k : DaemonSocket) (call : DaemonCall) : DaemonSocket :=
  recvmsgTimeoutTcp (removeCall k call.callIndex) call

/-! ### Frames from TCP -/

def pollMask (flags events : UInt32) : UInt32 :=
  let read := POLLIN ||| POLLRDNORM ||| POLLPRI ||| POLLRDBAND
  let write := POLLOUT ||| POLLWRNORM ||| POLLWRBAND
  let err := if flags &&& POLLERR ≠ 0 ∧ events &&& POLLERR ≠ 0 then POLLERR else 0
  let hup := if flags &&& POLLHUP ≠ 0 ∧ events &&& POLLHUP ≠ 0 then POLLHUP else 0
  let rd :=
    if flags &&& read ≠ 0 ∧ events &&& read ≠ 0 then POLLIN ||| POLLRDNORM ||| POLLPRI else 0
  let wr := if flags &&& write ≠ 0 ∧ events &&& write ≠ 0 then write else 0
  err ||| hup ||| rd ||| wr

def pollInTcpFdf (flags : UInt32) (call : DaemonCall) : DaemonCall × List Msg :=
  if call.callType ≠ .poll then (call, [])
  else
    let mask := pollMask flags call.buf
    let retMask := call.buf &&& mask
    if retMask ≠ 0 then
      ({ call with buf := call.buf &&& ~~~mask, flags := call.flags ||| retMask },
        [.pollEvent retMask])
    else (call, [])

def pollAll (k : DaemonSocket) (flags : UInt32) : DaemonSocket :=
  { k with
    callList := k.callList.map fun call => (pollInTcpFdf flags call).1
    out := k.out ++ k.callList.flatMap fun call => (pollInTcpFdf flags call).2 }

def recvmsgInTcpFdf (wedge : Bool) (k : DaemonSocket) (call : DaemonCall) (data : List UInt8) :
    DaemonSocket × Nat :=
  let dataLen := if call.buf.toNat < data.length then call.buf.toNat else data.length
  ((sendWedgeRecvmsg wedge k call.toWedgeHdr call.buf (data.take dataLen)).emit
    (.hostWindow (UInt32.ofNat dataLen)), dataLen)

def takeRecvmsg (k : DaemonSocket) : Option (DaemonCall × DaemonSocket) :=
  (k.callList.find? (daemonCallRecvmsgTest 0)).map fun call =>
    (call, { k with callList := k.callList.erase call })

/-- The loop of `daemon_in_fdf_tcp`: the position the frame is left at, or nothing when
    it was used up.  Each round takes a call off the list, which bounds the rounds. -/
def fdfLoop (wedge : DaemonCall → Bool) (data : List UInt8) :
    Nat → DaemonSocket → Nat → DaemonSocket × Option Nat
  | 0, k, pos => (k, some pos)
  | rounds + 1, k, pos =>
    match takeRecvmsg k with
    | none => (k, some pos)
    | some (call, k1) =>
      let r := recvmsgInTcpFdf (wedge call) k1 call (data.drop pos)
      if pos + r.2 = data.length then (r.1, none) else fdfLoop wedge data rounds r.1 (pos + r.2)

def daemonInFdfTcp (wedge : DaemonCall → Bool) (k : DaemonSocket) (data : List UInt8) :
    DaemonSocket :=
  let k1 := pollAll k POLLIN
  match fdfLoop wedge data k1.callList.length k1 0 with
  | (k2, none) => k2
  | (k2, some pos) =>
    if k2.dataList.length < MAX_QUEUE_SIZE then
      { k2 with
        dataList := k2.dataList ++ [{ pdu := data, pos := pos }]
        dataBuf := k2.dataBuf + Int32.ofNat (data.length - pos) }
    else k2

def shutdownLoop (wedge : DaemonCall → Bool) : Nat → DaemonSocket → DaemonSocket
  | 0, k => k
  | rounds + 1, k =>
    match takeRecvmsg k with
    | none => k
    | some (call, k1) =>
      shutdownLoop wedge rounds (sendWedgeRecvmsg (wedge call) k1 call.toWedgeHdr call.buf [])

def daemonInShutdownTcp (wedge : DaemonCall → Bool) (k : DaemonSocket) (retMsg : UInt32) :
    DaemonSocket :=
  let k1 := { k with status := k.status &&& ~~~retMsg.toUInt8 }
  let k2 := if retMsg.toUInt8 &&& DAEMON_STATUS_WR ≠ 0 then pollAll k1 POLLHUP else k1
  if retMsg.toUInt8 &&& DAEMON_STATUS_RD ≠ 0 then shutdownLoop wedge k2.callList.length k2 else k2

def daemonAlert (wedge : DaemonCall → Bool) (k : DaemonSocket) (paramId retMsg : UInt32) :
    DaemonSocket :=
  if paramId = DAEMON_ALERT_POLL then pollAll k retMsg
  else if paramId = DAEMON_ALERT_SHUTDOWN then daemonInShutdownTcp wedge k retMsg
  else k

end FinsStack.Daemon
