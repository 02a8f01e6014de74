import FinsStack.Lib.Traced
import Mathlib.Algebra.Order.Ring.Int

/-!
# From a wedge message to a handler

`daemon_out.c`.

`daemon_out` looks at the header of a message, and the decoder it selects takes the payload
apart and hands the arguments to the handler of the socket's protocol.  The decoders are
traced: every element of an array they index, every copy with the size of its destination
and every stretch of the payload they read is logged (`Access`), at the point where the
source does it.  A handler indexes `md->sockets` and `md->calls` with the indices of the
header, so handing the header on counts as both.

The payload lies in memory with other bytes around it (`Msg.around`), for the decoders read
before they compare the length.  Of the interfaces `ioctl` is told which indices there are and
whether one is running; what it puts into its replies is left out.
-/

namespace FinsStack.Daemon.Dispatch

open Lib (Traced)
open Lib.Traced (log stop)

/-! ### Messages -/

structure Msg where
  bytes : List UInt8
  around : Int → UInt8
  length_lt : bytes.length < 2 ^ 31

def Msg.byteAt (m : Msg) (i : Int) : UInt8 :=
  if 0 ≤ i then m.bytes.getD i.toNat (m.around i) else m.around i

def Msg.u32At (m : Msg) (i : Int) : Nat :=
  (m.byteAt i).toNat + 256 * (m.byteAt (i + 1)).toNat + 65536 * (m.byteAt (i + 2)).toNat
    + 16777216 * (m.byteAt (i + 3)).toNat

def Msg.i32At (m : Msg) (i : Int) : Int :=
  if m.u32At i < 2 ^ 31 then m.u32At i else (m.u32At i : Int) - 2 ^ 32

def Msg.slice (m : Msg) (i : Int) (n : Nat) : List UInt8 :=
  (List.range n).map fun (k : Nat) => m.byteAt (i + k)

/-- `struct wedge_to_daemon_hdr`, without the fields that are only passed on. -/
structure WedgeHdr where
  sockId : UInt64
  sockIndex : Int
  callType : Nat
  callIndex : Int
deriving DecidableEq, Repr

/-! ### Constants -/

def DAEMON_MAX_SOCKETS : Int := 50
def DAEMON_MAX_CALLS : Int := 50

def CALL_OUTS : Nat := 19

def SOCKET_CALL : Nat := 1
def BIND_CALL : Nat := 2
def LISTEN_CALL : Nat := 3
def CONNECT_CALL : Nat := 4
def ACCEPT_CALL : Nat := 5
def GETNAME_CALL : Nat := 6
def IOCTL_CALL : Nat := 7
def SENDMSG_CALL : Nat := 8
def RECVMSG_CALL : Nat := 9
def GETSOCKOPT_CALL : Nat := 10
def SETSOCKOPT_CALL : Nat := 11
def RELEASE_CALL : Nat := 12
def POLL_CALL : Nat := 13
def MMAP_CALL : Nat := 14
def SHUTDOWN_CALL : Nat := 16
def CLOSE_CALL : Nat := 17
/-- 19 to 21 are only sent from the daemon to the wedge. -/
def MAX_CALL_TYPES : Nat := 22

def AF_INET : Int := 2
def AF_INET6 : Int := 10

def SIOCGIFNAME : Nat := 0x8910
def SIOCGIFCONF : Nat := 0x8912
def SIOCGIFFLAGS : Nat := 0x8913
def SIOCGIFADDR : Nat := 0x8915
def SIOCGIFDSTADDR : Nat := 0x8917
def SIOCGIFBRDADDR : Nat := 0x8919
def SIOCGIFNETMASK : Nat := 0x891b
def SIOCGIFMTU : Nat := 0x8921

def SOCKADDR_STORAGE : Nat := 128

def REPLY_HDR_SIZE : Nat := 32

/-- The size of the array `name` of an interface. -/
def IFNAMSIZ : Nat := 16

/-- `sizeof(struct ifreq)`. -/
def IFREQ_SIZE : Nat := 40

def asU32 (n : Int) : Nat := (n % 2 ^ 32).toNat

def asSize (n : Int) : Nat := (n % 2 ^ 64).toNat

/-! ### What is logged -/

inductive OutCall where
  | socket (domain : Int)
  | bind (addr : List UInt8)
  | listen (backlog : Int)
  | connect (addr : List UInt8) (flags : Int)
  | accept (sockIdNew : Nat) (sockIndexNew : Int) (flags : Int)
  | getname (peer : Int)
  | ioctl (cmd : Nat)
  | sendmsg (msg : List UInt8) (msgFlags : Nat) (addr : List UInt8)
  | recvmsg (bufLen : Int) (msgControllen : Nat) (flags : Int)
  | getsockopt (level optname optlen : Int) (optval : List UInt8)
  | setsockopt (level optname optlen : Int) (optval : List UInt8)
  | release
  | poll (events : Int)
  | shutdown (how : Int)
deriving DecidableEq, Repr

inductive Access where
  | socket (i : Int)
  | callOut (i : Nat)
  /-- A handler is called, which may keep the call in `md->calls[i]`. -/
  | handler (i : Int) (c : OutCall)
  /-- `n` bytes are stored in an object of `size` bytes. -/
  | copy (n size : Nat)
  /-- `n` bytes are read from an object of `size` bytes. -/
  | source (n size : Nat)
  /-- A field of an interface is read through a `NULL` pointer. -/
  | null
  | read (pos : Int) (n : Nat)
  | cstring (bytes : List UInt8)
deriving DecidableEq, Repr

/-- A decoder: its cursor is `pt - buf`. -/
abbrev Decoder (α : Type) := Traced Access Int α

structure DaemonView where
  /-- `md->sockets[i].sock_id`, or what lies there if there is no such element -/
  sockId : Int → UInt64
  /-- `md->sockets[i].out_ops` has a handler for the call type -/
  hasOp : Int → Nat → Bool
  /-- a protocol takes sockets of this domain, type and protocol number -/
  protoTakes : Int → Int → Int → Bool
  ifIndexes : List Int
  /-- some interface of `if_list` has `IFF_RUNNING` -/
  ifRunning : Bool

section Decoders

variable (md : DaemonView) (hdr : WedgeHdr) (m : Msg)

def readU32 : Decoder Nat := fun pos => ([.read pos 4], some (m.u32At pos, pos + 4))

def readInt : Decoder Int := fun pos => ([.read pos 4], some (m.i32At pos, pos + 4))

def readU64 : Decoder Nat := fun pos =>
  ([.read pos 8], some (m.u32At pos + 2 ^ 32 * m.u32At (pos + 4), pos + 8))

/-- `memcpy(dst, pt, len); pt += len;` with a destination of `size` bytes. -/
def copyTo (len : Int) (size : Nat) : Decoder (List UInt8) := fun pos =>
  ([.read pos (asSize len), .copy (asSize len) size],
    some (m.slice pos len.toNat, pos + len))

def checkEnd : Decoder Unit := fun pos =>
  ([], if pos = m.bytes.length then some ((), pos) else none)

/-- `(md->sockets[hdr->sock_index].out_ops->X_out)(module, hdr, ...)`, if there is one. -/
def handOver (callType : Nat) (c : OutCall) : Decoder Unit := do
  log (.socket hdr.sockIndex)
  if md.hasOp hdr.sockIndex callType then log (.handler hdr.callIndex c) else stop

/-! ### Decoders -/

def socketOut : Decoder Unit := do
  let domain ← readInt m
  let type ← readInt m
  let protocol ← readInt m
  checkEnd m
  if domain ≠ AF_INET ∧ domain ≠ AF_INET6 then stop
  else if md.protoTakes domain type protocol then do
    log (.socket hdr.sockIndex)
    log (.handler hdr.callIndex (.socket domain))
  else stop

def bindOut : Decoder Unit := do
  let addrLen ← readInt m
  if addrLen ≤ 0 then stop
  else do
    let addr ← copyTo m addrLen SOCKADDR_STORAGE
    let _reuseaddr ← readInt m
    checkEnd m
    log (.socket hdr.sockIndex)
    handOver md hdr BIND_CALL (.bind addr)

def listenOut : Decoder Unit := do
  let backlog ← readInt m
  checkEnd m
  handOver md hdr LISTEN_CALL (.listen backlog)

def connectOut : Decoder Unit := do
  let addrlen ← readU32 m
  if addrlen ≤ 0 then stop
  else do
    let addr ← copyTo m addrlen SOCKADDR_STORAGE
    let flags ← readInt m
    checkEnd m
    handOver md hdr CONNECT_CALL (.connect addr flags)

def acceptOut : Decoder Unit := do
  let sockIdNew ← readU64 m
  let sockIndexNew ← readInt m
  let flags ← readInt m
  checkEnd m
  handOver md hdr ACCEPT_CALL (.accept sockIdNew sockIndexNew flags)

def getnameOut : Decoder Unit := do
  let peer ← readInt m
  checkEnd m
  handOver md hdr GETNAME_CALL (.getname peer)

/-- The `ioctl` commands that ask for something of the interface with a given name.  The name
    is compared with those of the interfaces, and printed if it is none of them. -/
def ioctlByName : Decoder Unit := do
  let len ← readInt m
  let temp ← copyTo m len (asU32 len)
  checkEnd m
  log (.cstring temp)

/-- `SIOCGIFCONF`: the header of the reply and the word behind it are stored in a buffer for
    them and `len` more bytes.  The loop over the running interfaces starts when there are none,
    and copies the name of `NULL` if a record fits. -/
def ioctlIfConf : Decoder Unit := do
  let len ← readInt m
  checkEnd m
  log (.copy (REPLY_HDR_SIZE + 4) (asU32 (REPLY_HDR_SIZE + 4 + len)))
  if md.ifRunning = false ∧ IFREQ_SIZE ≤ asSize len then log .null else stop

/-- `SIOCGIFNAME`; a reply of length 0 is taken for no reply. -/
def ioctlIfName : Decoder Unit := do
  let len ← readInt m
  let index ← readInt m
  checkEnd m
  if index ∈ md.ifIndexes then do
    log (.copy REPLY_HDR_SIZE (asU32 (REPLY_HDR_SIZE + len)))
    log (.source (asSize len) IFNAMSIZ)
    log (.copy (asSize len) (asU32 (REPLY_HDR_SIZE + len) - REPLY_HDR_SIZE))
    if REPLY_HDR_SIZE + len = 0 then handOver md hdr IOCTL_CALL (.ioctl SIOCGIFNAME) else stop
  else stop

def ioctlOut : Decoder Unit := do
  let cmd ← readU32 m
  if cmd = SIOCGIFCONF then ioctlIfConf md m
  else if cmd = SIOCGIFNAME then ioctlIfName md hdr m
  else if cmd = SIOCGIFADDR ∨ cmd = SIOCGIFDSTADDR ∨ cmd = SIOCGIFBRDADDR
      ∨ cmd = SIOCGIFNETMASK ∨ cmd = SIOCGIFFLAGS ∨ cmd = SIOCGIFMTU then ioctlByName m
  else handOver md hdr IOCTL_CALL (.ioctl cmd)

def copyNew (len : Int) : Decoder (List UInt8) :=
  if len > 0 then copyTo m len (asU32 len) else pure []

/-- `sendmsg_out`; `addr_len` is not checked. -/
def sendmsgOut : Decoder Unit := do
  let _skFlags ← readU32 m
  let addrLen ← readInt m
  let addr ← copyTo m addrLen SOCKADDR_STORAGE
  let msgFlags ← readU32 m
  let msgControllen ← readU32 m
  let _msgControl ← copyNew m msgControllen
  let msgLen ← readU32 m
  let msg ← copyNew m msgLen
  checkEnd m
  log (.socket hdr.sockIndex)
  handOver md hdr SENDMSG_CALL (.sendmsg msg msgFlags addr)

def recvmsgOut : Decoder Unit := do
  let _skFlags ← readU32 m
  let msgLen ← readInt m
  let msgControllen ← readU32 m
  let flags ← readInt m
  checkEnd m
  log (.socket hdr.sockIndex)
  handOver md hdr RECVMSG_CALL (.recvmsg msgLen msgControllen flags)

def getsockoptOut : Decoder Unit := do
  let level ← readInt m
  let optname ← readInt m
  let optlen ← readInt m
  let optval ← copyNew m optlen
  checkEnd m
  handOver md hdr GETSOCKOPT_CALL (.getsockopt level optname optlen optval)

def setsockoptOut : Decoder Unit := do
  let level ← readInt m
  let optname ← readInt m
  let optlen ← readInt m
  let optval ← copyNew m optlen
  checkEnd m
  handOver md hdr SETSOCKOPT_CALL (.setsockopt level optname optlen optval)

def releaseOut : Decoder Unit := do
  checkEnd m
  handOver md hdr RELEASE_CALL .release

def pollOut : Decoder Unit := do
  let events ← readInt m
  checkEnd m
  log (.socket hdr.sockIndex)
  if md.sockId hdr.sockIndex ≠ hdr.sockId then stop
  else handOver md hdr POLL_CALL (.poll events)

def mmapOut : Decoder Unit := do
  checkEnd m
  log (.socket hdr.sockIndex)

def shutdownOut : Decoder Unit := do
  let how ← readInt m
  checkEnd m
  handOver md hdr SHUTDOWN_CALL (.shutdown how)

def closeOut : Decoder Unit := log (.socket hdr.sockIndex)

/-- `call_outs[call_type]`; behind its end there is no function to follow. -/
def callOuts (callType : Nat) : Decoder Unit :=
  if callType = BIND_CALL then bindOut md hdr m
  else if callType = LISTEN_CALL then listenOut md hdr m
  else if callType = CONNECT_CALL then connectOut md hdr m
  else if callType = ACCEPT_CALL then acceptOut md hdr m
  else if callType = GETNAME_CALL then getnameOut md hdr m
  else if callType = IOCTL_CALL then ioctlOut md hdr m
  else if callType = SENDMSG_CALL then sendmsgOut md hdr m
  else if callType = RECVMSG_CALL then recvmsgOut md hdr m
  else if callType = GETSOCKOPT_CALL then getsockoptOut md hdr m
  else if callType = SETSOCKOPT_CALL then setsockoptOut md hdr m
  else if callType = RELEASE_CALL then releaseOut md hdr m
  else if callType = POLL_CALL then pollOut md hdr m
  else if callType = MMAP_CALL then mmapOut hdr m
  else if callType = SHUTDOWN_CALL then shutdownOut md hdr m
  else if callType = CLOSE_CALL then closeOut hdr
  -- `socketpair_out` and `sendpage_out` are empty
  else stop

def daemonOut : Decoder Unit :=
  if hdr.callIndex < 0 ∨ hdr.callIndex > DAEMON_MAX_CALLS then stop
  else if hdr.callType = 0 ∨ MAX_CALL_TYPES ≤ hdr.callType then stop
  else if hdr.callType = SOCKET_CALL then socketOut md hdr m
  else if hdr.sockIndex < 0 ∨ DAEMON_MAX_SOCKETS < hdr.sockIndex then stop
  else do
    log (.socket hdr.sockIndex)
    if md.sockId hdr.sockIndex ≠ hdr.sockId then stop
    else do
      log (.callOut hdr.callType)
      callOuts md hdr m hdr.callType

end Decoders

end FinsStack.Daemon.Dispatch
