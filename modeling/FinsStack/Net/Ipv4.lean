import FinsStack.Net.Frame
import FinsStack.Tcp.Seg

/-!
# The IPv4 module

`ipv4_in.c`, `ipv4_out.c`, `ipv4_send.c`, `ipv4_checksum.c`.

`ipv4InFdf` and `ipv4OutFdf` follow the two data handlers test by test and give the log of
what they do with their frame.  Forwarding is switched off in the source (`ipv4_forward`
returns 0) and fragments are not reassembled.  `unique_id` is left out because both sending
paths overwrite the field it fills, and so is the time stamp of frames that loop back.

`ipv4InFdf_cases` says everything the input handler can do.
-/

namespace FinsStack.Net

open FinsStack.Tcp (be16 be32)

/-! ### Constants -/

def IP4_VERSION : UInt8 := 4
def IP4_MIN_HLEN : Nat := 20
def IP4_INIT_TTL : UInt8 := 255
def IP4_MF : UInt16 := 0x1
def IP4_DF : UInt16 := 0x2
def IP4_FRAGOFF : UInt16 := 0x1fff

def IP4_PT_ICMP : UInt8 := 1
def IP4_PT_TCP : UInt8 := 6
def IP4_PT_UDP : UInt8 := 17

def AF_INET : UInt32 := 2
def IP4_ETH_TYPE : UInt32 := 0x0800

def IPV4_FLOW_INTERFACE : Nat := 0
def IPV4_FLOW_ICMP : Nat := 1
def IPV4_FLOW_TCP : Nat := 2
def IPV4_FLOW_UDP : Nat := 3

def IPV4_ADDR_ANY_IP : UInt32 := 0
def IPV4_ADDR_EVERY_IP : UInt32 := 0xffffffff

/-! ### State -/

/-- `struct addr_record`; an address that is not of family `AF_INET` is `none`. -/
structure AddrRecord where
  ifIndex : Int
  ip : Option UInt32
  bdc : Option UInt32
deriving DecidableEq, Repr

def addrIpv4Test (addr : AddrRecord) (ip : UInt32) : Bool := addr.ip == some ip

def addrBdcv4Test (addr : AddrRecord) (ip : UInt32) : Bool := addr.bdc == some ip

structure RouteRecord where
  ifIndex : Int
  dst : UInt32
  mask : UInt32
  gw : UInt32
deriving DecidableEq, Repr

def ipv4RouteDstTest (route : RouteRecord) (dst : UInt32) : Bool :=
  (route.dst &&& route.mask == dst &&& route.mask) || route.dst == IPV4_ADDR_ANY_IP

structure Ipv4Data where
  flows : List ModuleFlow
  addrList : List AddrRecord
  addrLoopback : Option AddrRecord
  routeList : List RouteRecord
deriving Repr

/-! ### Checksum -/

/-- `*w` at offset `i`: the half word in the byte order of a little-endian host. -/
def hostWord (b : Nat → UInt8) (i : Nat) : Nat := (b i).toNat + 256 * (b (i + 1)).toNat

/-- The loop of `ipv4_checksum`; the `int` sum of at most 30 words does not overflow. -/
def ipv4ChecksumLoop (b : Nat → UInt8) : Nat → Nat → Nat → Nat
  | nleft + 2, pos, sum => ipv4ChecksumLoop b nleft (pos + 2) (sum + hostWord b pos)
  | _, _, sum => sum

def ipv4Checksum (b : Nat → UInt8) (length : Nat) : UInt16 :=
  let sum := ipv4ChecksumLoop b length 0 0
  let sum := sum / 65536 + sum % 65536
  let sum := sum + sum / 65536
  ~~~ UInt16.ofNat sum

/-! ### Input -/

/-- `struct ip4_header`, without the fields that are only printed. -/
structure Ip4Header where
  source : UInt32
  destination : UInt32
  version : UInt8
  headerLength : UInt8
  packetLength : UInt16
  flags : UInt16
  fragmentationOffset : UInt16
  ttl : UInt8
  protocol : UInt8
deriving DecidableEq, Repr

def ip4Header (p : Pdu) : Ip4Header :=
  { source := p.u32At 12
    destination := p.u32At 16
    version := p.byteAt 0 >>> 4
    headerLength := (p.byteAt 0 &&& 0xf) <<< 2
    packetLength := p.u16At 2
    flags := (p.u16At 6 >>> 13) &&& 0x7
    fragmentationOffset := p.u16At 6 &&& IP4_FRAGOFF
    ttl := p.byteAt 8
    protocol := p.byteAt 9 }

def Ip4Header.recvMeta (header : Ip4Header) (m : Metadata) : Metadata :=
  { m with
    recvProtocol := some header.protocol.toUInt32
    recvFamily := some AF_INET
    recvSrcIpv4 := some header.source
    recvDstIpv4 := some header.destination
    recvTtl := some header.ttl.toUInt32 }

/-- `ipv4_send_fdf_in`.  The payload is copied from `ppacket->ip_data`, the byte after the
    fixed part of the header. -/
def ipv4SendFdfIn (flows : List ModuleFlow) (header : Ip4Header) (ff : DataFrame) :
    List FrameOp :=
  if header.packetLength.toNat < header.headerLength.toNat then [.free]
  else
    let pduLength := header.packetLength.toNat - header.headerLength.toNat
    let metaData := header.recvMeta ff.metaData
    if header.protocol = IP4_PT_ICMP then
      -- the PDU is left as it is
      .use :: sendOrFree flows IPV4_FLOW_ICMP ff.pdu.bytes metaData
    else if header.protocol = IP4_PT_TCP then
      .read IP4_MIN_HLEN pduLength :: .use
        :: sendOrFree flows IPV4_FLOW_TCP (ff.pdu.slice IP4_MIN_HLEN pduLength) metaData
    else if header.protocol = IP4_PT_UDP then
      .read IP4_MIN_HLEN pduLength :: .use
        :: sendOrFree flows IPV4_FLOW_UDP (ff.pdu.slice IP4_MIN_HLEN pduLength) metaData
    else [.free]

def Ipv4Data.foreign (md : Ipv4Data) (dst : UInt32) : Bool :=
  dst != IPV4_ADDR_ANY_IP && dst != IPV4_ADDR_EVERY_IP
    && (md.addrList.find? fun addr => addrIpv4Test addr dst).isNone
    && (md.addrList.find? fun addr => addrBdcv4Test addr dst).isNone

def ipv4InFdf (md : Ipv4Data) (ff : DataFrame) : List FrameOp :=
  let p := ff.pdu
  let header := ip4Header p
  .use :: .read 0 IP4_MIN_HLEN ::
  if header.version ≠ IP4_VERSION then []
  else if header.headerLength.toNat < IP4_MIN_HLEN then [.free]
  else .read 0 header.headerLength.toNat ::
    if ipv4Checksum p.byteAt header.headerLength.toNat ≠ 0 then [.free]
    else if (header.packetLength.toNat : Int) ≠ p.len
        ∧ (header.packetLength.toNat : Int) > p.len then [.free]
    else if header.ttl = 0 then [.free]
    -- `ipv4_forward` is disabled
    else if md.foreign header.destination then [.free]
    else if header.flags &&& (IP4_DF ||| IP4_MF) = (IP4_DF ||| IP4_MF) then [.free]
    else if (header.flags &&& IP4_MF) ||| header.fragmentationOffset = 0 then
      ipv4SendFdfIn md.flows header ff
    -- `ppacket_reassembled` is always NULL
    else []

/-! ### Output -/

/-- What `ipv4_out_fdf` takes from the metadata of its frame before it does anything. -/
structure OutRequest where
  protocol : UInt32
  family : UInt32
  srcIp : UInt32
  dstIp : UInt32
deriving DecidableEq, Repr

def outRequest (m : Metadata) : Option OutRequest := do
  let protocol ← m.sendProtocol
  let family ← m.sendFamily
  let srcIp ← m.sendSrcIpv4
  let dstIp ← m.sendDstIpv4
  return { protocol, family, srcIp, dstIp }

/-- The header `ipv4_const_header` and `ipv4_out_fdf` fill in; the checksum is stored in the
    byte order of the host. -/
def ip4PacketHeader (ff : DataFrame) (r : OutRequest) (cksum : UInt16) : List UInt8 :=
  [(0x45 : UInt8), 0] ++ be16 (UInt16.ofNat ff.pdu.bytes.length + 20) ++ be16 0 ++ be16 0
    ++ [(ff.metaData.sendTtl.map UInt32.toUInt8).getD IP4_INIT_TTL, r.protocol.toUInt8]
    ++ [cksum.toUInt8, (cksum >>> 8).toUInt8] ++ be32 r.srcIp ++ be32 r.dstIp

def ipv4ConstHeader (ff : DataFrame) (r : OutRequest) : List UInt8 :=
  ip4PacketHeader ff r
    (ipv4Checksum (fun i => (ip4PacketHeader ff r 0).getD i 0) IP4_MIN_HLEN)

def nextHop (route : RouteRecord) (dst : UInt32) : UInt32 :=
  if route.gw = IPV4_ADDR_ANY_IP then dst else route.gw

def Ipv4Data.loopsBack (md : Ipv4Data) (route : RouteRecord) (dst : UInt32) : Bool :=
  match md.addrLoopback with
  | some addr => addr.ifIndex == route.ifIndex
  | none => (md.addrList.find? fun addr => addrIpv4Test addr (nextHop route dst)).isSome

/-- The PDU of an ICMP frame that loops back.  Only `(uint16_t) pduLength` bytes are copied
    into the new buffer; `fresh` is what the rest of it holds. -/
def loopbackPdu (fresh : Nat → UInt8) (ff : DataFrame) (r : OutRequest) : List UInt8 :=
  let length := (UInt16.ofNat ff.pdu.bytes.length).toNat
  ipv4ConstHeader ff r ++ ff.pdu.slice 0 length
    ++ (List.range (ff.pdu.bytes.length - length)).map fresh

/-- The metadata written on the way back up.  A TTL or TOS of 0 counts as none. -/
def OutRequest.loopbackMeta (r : OutRequest) (m : Metadata) : Metadata :=
  { m with
    recvProtocol := some r.protocol
    recvFamily := some r.family
    recvSrcIpv4 := some r.srcIp
    recvDstIpv4 := some r.dstIp
    recvTtl := if m.sendTtl.getD 0 = 0 then m.recvTtl else m.sendTtl
    recvTos := if m.sendTos.getD 0 = 0 then m.recvTos else m.sendTos }

def ipv4Loopback (flows : List ModuleFlow) (fresh : Nat → UInt8) (ff : DataFrame)
    (r : OutRequest) : List FrameOp :=
  let metaData := r.loopbackMeta ff.metaData
  if r.protocol = IP4_PT_ICMP.toUInt32 then
    .read 0 (UInt16.ofNat ff.pdu.bytes.length).toNat :: .use
      :: sendOrFree flows IPV4_FLOW_ICMP (loopbackPdu fresh ff r) metaData
  else if r.protocol = IP4_PT_TCP.toUInt32 then
    .use :: sendOrFree flows IPV4_FLOW_TCP ff.pdu.bytes metaData
  else if r.protocol = IP4_PT_UDP.toUInt32 then
    .use :: sendOrFree flows IPV4_FLOW_UDP ff.pdu.bytes metaData
  else [.free]

/-- `ipv4_send_fdf_out`; it frees the old PDU after the frame is gone, not the frame. -/
def ipv4SendFdfOut (flows : List ModuleFlow) (ff : DataFrame) (r : OutRequest)
    (address : UInt32) (ifIndex : Int) : List FrameOp :=
  .read 0 ff.pdu.bytes.length :: .use
    :: sendOrFree flows IPV4_FLOW_INTERFACE (ipv4ConstHeader ff r ++ ff.pdu.bytes)
      { ff.metaData with
        sendEtherType := some IP4_ETH_TYPE
        sendIfIndex := some ifIndex
        sendDstIpv4 := some address }

def ipv4OutFdf (md : Ipv4Data) (fresh : Nat → UInt8) (ff : DataFrame) : List FrameOp :=
  .use ::
  match outRequest ff.metaData with
  | none => [.exit]
  | some r =>
    match md.routeList.find? fun route => ipv4RouteDstTest route r.dstIp with
    | some route =>
      if md.loopsBack route r.dstIp then ipv4Loopback md.flows fresh ff r
      else ipv4SendFdfOut md.flows ff r (nextHop route r.dstIp) route.ifIndex
    -- no route to send the frame
    | none => []

/-! ### What the input handler can do -/

structure PassesTests (md : Ipv4Data) (p : Pdu) : Prop where
  checksum : ipv4Checksum p.byteAt (ip4Header p).headerLength.toNat = 0
  length : ((ip4Header p).packetLength.toNat : Int) ≤ p.len
  alive : (ip4Header p).ttl ≠ 0
  ours : md.foreign (ip4Header p).destination = false
  flags : (ip4Header p).flags &&& (IP4_DF ||| IP4_MF) ≠ (IP4_DF ||| IP4_MF)

def Unfragmented (header : Ip4Header) : Prop :=
  (header.flags &&& IP4_MF) ||| header.fragmentationOffset = 0
deriving Decidable

/-- The ways through `ipv4_in_fdf`, each with the tests that lead there. -/
inductive Ipv4In (md : Ipv4Data) (ff : DataFrame) : List FrameOp → Prop where
  | version (hv : (ip4Header ff.pdu).version ≠ IP4_VERSION) :
      Ipv4In md ff [.use, .read 0 IP4_MIN_HLEN]
  | short (hv : (ip4Header ff.pdu).version = IP4_VERSION)
      (hl : (ip4Header ff.pdu).headerLength.toNat < IP4_MIN_HLEN) :
      Ipv4In md ff [.use, .read 0 IP4_MIN_HLEN, .free]
  | dropped (hv : (ip4Header ff.pdu).version = IP4_VERSION)
      (hl : IP4_MIN_HLEN ≤ (ip4Header ff.pdu).headerLength.toNat) (hp : ¬ PassesTests md ff.pdu) :
      Ipv4In md ff
        [.use, .read 0 IP4_MIN_HLEN, .read 0 (ip4Header ff.pdu).headerLength.toNat, .free]
  | fragment (hv : (ip4Header ff.pdu).version = IP4_VERSION)
      (hl : IP4_MIN_HLEN ≤ (ip4Header ff.pdu).headerLength.toNat) (hp : PassesTests md ff.pdu)
      (hf : ¬ Unfragmented (ip4Header ff.pdu)) :
      Ipv4In md ff [.use, .read 0 IP4_MIN_HLEN, .read 0 (ip4Header ff.pdu).headerLength.toNat]
  | whole (hv : (ip4Header ff.pdu).version = IP4_VERSION)
      (hl : IP4_MIN_HLEN ≤ (ip4Header ff.pdu).headerLength.toNat) (hp : PassesTests md ff.pdu)
      (hf : Unfragmented (ip4Header ff.pdu)) :
      Ipv4In md ff (.use :: .read 0 IP4_MIN_HLEN :: .read 0 (ip4Header ff.pdu).headerLength.toNat
        :: ipv4SendFdfIn md.flows (ip4Header ff.pdu) ff)

theorem ipv4InFdf_cases (md : Ipv4Data) (ff : DataFrame) :
    Ipv4In md ff (ipv4InFdf md ff) := by
  simp only [ipv4InFdf]
  by_cases hv : (ip4Header ff.pdu).version ≠ IP4_VERSION
  · rw [if_pos hv]
    exact .version hv
  rw [if_neg hv]
  have hv' := not_not.mp hv
  by_cases hl : (ip4Header ff.pdu).headerLength.toNat < IP4_MIN_HLEN
  · rw [if_pos hl]
    exact .short hv' hl
  rw [if_neg hl]
  have hl' := Nat.le_of_not_lt hl
  by_cases hc : ipv4Checksum ff.pdu.byteAt (ip4Header ff.pdu).headerLength.toNat ≠ 0
  · rw [if_pos hc]
    exact .dropped hv' hl' fun hp => hc hp.checksum
  rw [if_neg hc]
  by_cases hlen : ((ip4Header ff.pdu).packetLength.toNat : Int) ≠ ff.pdu.len
      ∧ ((ip4Header ff.pdu).packetLength.toNat : Int) > ff.pdu.len
  · rw [if_pos hlen]
    exact .dropped hv' hl' fun hp => absurd hp.length (Int.not_le.mpr hlen.2)
  rw [if_neg hlen]
  by_cases ht : (ip4Header ff.pdu).ttl = 0
  · rw [if_pos ht]
    exact .dropped hv' hl' fun hp => hp.alive ht
  rw [if_neg ht]
  by_cases ho : md.foreign (ip4Header ff.pdu).destination
  · rw [if_pos ho]
    refine .dropped hv' hl' fun hp => ?_
    rw [hp.ours] at ho
    cases ho
  rw [if_neg ho]
  by_cases hd : (ip4Header ff.pdu).flags &&& (IP4_DF ||| IP4_MF) = (IP4_DF ||| IP4_MF)
  · rw [if_pos hd]
    exact .dropped hv' hl' fun hp => hp.flags hd
  rw [if_neg hd]
  have hp : PassesTests md ff.pdu :=
    { checksum := not_not.mp hc
      length := by omega
      alive := ht
      ours := by simpa using ho
      flags := hd }
  by_cases hf : ((ip4Header ff.pdu).flags &&& IP4_MF) ||| (ip4Header ff.pdu).fragmentationOffset = 0
  · rw [if_pos hf]
    exact .whole hv' hl' hp hf
  · rw [if_neg hf]
    exact .fragment hv' hl' hp hf

end FinsStack.Net
