import FinsStack.Net.Ipv4Input
import FinsStack.Tcp.Wire

/-!
# Datagrams and segments over IPv4

`udp_out.c`, `udp_in.c`, `UDP_checksum.c`, with the modules below them.

`udpOutFdf` puts the UDP header before the data of the daemon's frame and `udpInFdf` takes it
off again after its tests.  Between them is IPv4, on the host that sends and on the one that
receives (`overIpv4`): the link may add bytes behind a packet, as Ethernet does with a short
one.  The clones in `sent_packet_list` and the statistics are left out.
-/

namespace FinsStack.Net

open List FinsStack.Tcp Lib

/-! ### UDP -/

def U_HEADER_LEN : Nat := 8
def UDP_FLOW_IPV4 : Nat := 0
def UDP_FLOW_DAEMON : Nat := 2
def UDP_PT_UDP : UInt32 := 17

/-- `UDP_checksum`, where `packet` is the first `u_len` bytes. -/
def udpChecksum (uLen : UInt16) (packet : List UInt8) (srcIp dstIp : UInt32) : UInt16 :=
  (~~~ foldCarry (sumWords (be32 srcIp ++ be32 dstIp ++ [0, 17] ++ be16 uLen)
    + sumWords packet)).toUInt16

/-- The buffer of `packet_length` bytes; what is copied behind its end is not part of it. -/
def udpPacket (srcPort dstPort : UInt32) (data : List UInt8) (cksum : UInt16) : List UInt8 :=
  let packetLength := UInt16.ofNat data.length + 8
  (be16 srcPort.toUInt16 ++ be16 dstPort.toUInt16 ++ be16 packetLength ++ be16 cksum
    ++ data).take packetLength.toNat

/-- `udp_out_fdf`; `srcPort` and `dstPort` are `send_src_port` and `send_dst_port`. -/
def udpOutFdf (flows : List ModuleFlow) (ff : DataFrame) (srcPort dstPort : Option UInt32) :
    List FrameOp :=
  match ff.metaData.sendFamily, ff.metaData.sendSrcIpv4, srcPort, ff.metaData.sendDstIpv4,
    dstPort with
  | some _, some srcIp, some srcPort, some dstIp, some dstPort =>
    let data := ff.pdu.bytes
    let cksum := udpChecksum (UInt16.ofNat data.length + 8) (udpPacket srcPort dstPort data 0)
      srcIp dstIp
    .read 0 data.length :: .use
      :: sendOrFree flows UDP_FLOW_IPV4 (udpPacket srcPort dstPort data cksum)
        { ff.metaData with sendProtocol := some UDP_PT_UDP }
  | _, _, _, _, _ => [.exit]

/-- `udp_in_fdf`, with `recv_src_port` and `recv_dst_port` as it writes them. -/
def udpInFdf (flows : List ModuleFlow) (ff : DataFrame) : List FrameOp × Option (UInt32 × UInt32) :=
  let p := ff.pdu
  match ff.metaData.recvProtocol, ff.metaData.recvFamily, ff.metaData.recvSrcIpv4,
    ff.metaData.recvDstIpv4 with
  | some protocol, some _, some srcIp, some dstIp =>
    if protocol ≠ UDP_PT_UDP then ([.use, .free], none)
    else if p.bytes.length ≠ (p.u16At 4).toNat then ([.use, .read 4 2, .free], none)
    else
      let pre : List FrameOp := [.use, .read 4 2, .read 0 p.bytes.length, .read 0 U_HEADER_LEN]
      if p.u16At 6 ≠ 0 ∧ udpChecksum (p.u16At 4) (p.slice 0 p.bytes.length) srcIp dstIp ≠ 0 then
        (pre ++ [.free], none)
      else
        let pduLength := (UInt32.ofNat p.bytes.length - 8).toNat
        (pre ++ .read U_HEADER_LEN pduLength
            :: sendOrFree flows UDP_FLOW_DAEMON (p.slice U_HEADER_LEN pduLength) ff.metaData,
          some ((p.u16At 0).toUInt32, (p.u16At 2).toUInt32))
  | _, _, _, _ => ([.exit], none)

/-! ### From host to host -/

/-- The PDU and the metadata of the frame that `flow` took. -/
def handed (flow : Nat) (ops : List FrameOp) : Option (List UInt8 × Metadata) :=
  if .pass ∈ ops then
    ops.findSome? fun
      | .offer f pdu m => if f = flow then some (pdu, m) else none
      | _ => none
  else none

def frameOf (beyond : Nat → UInt8) (pdu : List UInt8) (m : Metadata) : Option DataFrame :=
  if h : pdu.length < 2 ^ 32 then some ⟨⟨pdu, beyond, h⟩, m⟩ else none

/-- The frame `ff` through IPv4 of the host `md`, a link that adds `pad`, and IPv4 of `md'`. -/
def overIpv4 (md md' : Ipv4Data) (fresh beyond : Nat → UInt8) (pad : List UInt8) (flow : Nat)
    (ff : DataFrame) : Option DataFrame := do
  let (packet, _) ← handed IPV4_FLOW_INTERFACE (ipv4OutFdf md fresh ff)
  let ff' ← frameOf beyond (packet ++ pad) {}
  let (pdu, m) ← handed flow (ipv4InFdf md' ff')
  frameOf beyond pdu m

/-- There is a way to `dst`: a route out of the first host to the second one, whose address it
    is and where `flow` is linked. -/
structure Path (md md' : Ipv4Data) (dst : UInt32) (flow : Nat) : Prop where
  route : ∃ route, md.routeList.find? (fun route => ipv4RouteDstTest route dst) = some route ∧
    md.loopsBack route dst = false
  link : moduleSendFlow md.flows IPV4_FLOW_INTERFACE ≠ 0
  ours : Ours md' dst
  up : moduleSendFlow md'.flows flow ≠ 0

/-- A datagram of the daemon to the daemon of the other host: the data, the ports and the
    metadata. -/
def overUdp (md md' : Ipv4Data) (udp udp' : List ModuleFlow) (fresh beyond : Nat → UInt8)
    (pad : List UInt8) (srcPort dstPort : Option UInt32) (ff : DataFrame) :
    Option (List UInt8 × Metadata × Option (UInt32 × UInt32)) := do
  let (pdu, m) ← handed UDP_FLOW_IPV4 (udpOutFdf udp ff srcPort dstPort)
  let ff' ← frameOf beyond pdu m
  let ff' ← overIpv4 md md' fresh beyond pad IPV4_FLOW_UDP ff'
  let (data, m) ← handed UDP_FLOW_DAEMON (udpInFdf udp' ff').1
  return (data, m, (udpInFdf udp' ff').2)

@[simp] theorem handed_use {flow : Nat} {ops : List FrameOp} :
    handed flow (.use :: ops) = handed flow ops := by
  simp [handed]

@[simp] theorem handed_read {flow pos n : Nat} {ops : List FrameOp} :
    handed flow (.read pos n :: ops) = handed flow ops := by
  simp [handed]

theorem handed_sendOrFree {flows : List ModuleFlow} {flow : Nat} (pdu : List UInt8) (m : Metadata)
    (h : moduleSendFlow flows flow ≠ 0) :
    handed flow (sendOrFree flows flow pdu m) = some (pdu, m) := by
  simp [handed, sendOrFree, h]

theorem frameOf_eq (beyond : Nat → UInt8) {pdu : List UInt8} (m : Metadata)
    (h : pdu.length < 2 ^ 32) :
    frameOf beyond pdu m = some ⟨⟨pdu, beyond, h⟩, m⟩ := dif_pos h

/-! ### IPv4 -/

/-- What the other host reads in the header that `ipv4_out_fdf` fills in. -/
def sentHeader (ff : DataFrame) (r : OutRequest) : Ip4Header :=
  { source := r.srcIp
    destination := r.dstIp
    version := IP4_VERSION
    headerLength := 20
    packetLength := UInt16.ofNat ff.pdu.bytes.length + 20
    flags := 0
    fragmentationOffset := 0
    ttl := (ff.metaData.sendTtl.map UInt32.toUInt8).getD IP4_INIT_TTL
    protocol := r.protocol.toUInt8 }

variable {md md' : Ipv4Data} {ff ff' : DataFrame} {r : OutRequest} {rest pad : List UInt8}

theorem halves_be32 (x : UInt32) :
    ((((x >>> 24).toUInt8.toUInt16 <<< 8) + (x >>> 16).toUInt8.toUInt16).toUInt32 <<< 16)
      + (((x >>> 8).toUInt8.toUInt16 <<< 8) + x.toUInt8.toUInt16).toUInt32 = x := by
  apply UInt32.toNat_inj.mp
  have hx := x.toNat_lt
  simp [Nat.shiftRight_eq_div_pow, Nat.shiftLeft_eq]
  omega

theorem ip4Header_sent {p : Pdu} {cksum : UInt16}
    (h : p.bytes = ip4PacketHeader ff r cksum ++ rest) :
    ip4Header p = sentHeader ff r := by
  obtain ⟨bytes, beyond, fits⟩ := p
  obtain rfl : bytes = _ := h
  rw [ip4Header, sentHeader, Ip4Header.mk.injEq]
  have hzero : Pdu.u16At ⟨ip4PacketHeader ff r cksum ++ rest, beyond, fits⟩ 6 = 0 :=
    (by decide : ((0 : UInt8).toUInt16 <<< 8) + (0 : UInt8).toUInt16 = 0)
  rw [hzero]
  exact ⟨halves_be32 _, halves_be32 _, (by decide : (0x45 : UInt8) >>> 4 = 4),
    (by decide : ((0x45 : UInt8) &&& 0xf) <<< 2 = 20), bytes_be16 _, by decide, by decide, rfl, rfl⟩

theorem hostSum_cksum (ff : DataFrame) (r : OutRequest) (cksum : UInt16) :
    hostSum (fun i => (ip4PacketHeader ff r cksum).getD i 0) IP4_MIN_HLEN 0 =
      hostSum (fun i => (ip4PacketHeader ff r 0).getD i 0) IP4_MIN_HLEN 0 + cksum.toNat := by
  have hck := cksum.toNat_lt
  simp [hostSum, hostWord, ip4PacketHeader, IP4_MIN_HLEN, be16, be32, Nat.shiftRight_eq_div_pow]
  omega

theorem hostSum_congr {b b' : Nat → UInt8} {n pos : Nat} (h : ∀ i < pos + n, b i = b' i) :
    hostSum b n pos = hostSum b' n pos := by
  fun_induction hostSum b n pos with
  | case1 n pos ih =>
    rw [hostSum, ih fun i hi => h i (by omega), hostWord, hostWord, h pos (by omega),
      h (pos + 1) (by omega)]
  | case2 n pos hn =>
    rw [hostSum]
    exact hn

/-- **The header checksum verifies.** -/
theorem ipv4Checksum_sent {p : Pdu} (h : p.bytes = ipv4ConstHeader ff r ++ rest) :
    ipv4Checksum p.byteAt IP4_MIN_HLEN = 0 := by
  unfold ipv4ConstHeader at h
  generalize hck :
    ipv4Checksum (fun i => (ip4PacketHeader ff r 0).getD i 0) IP4_MIN_HLEN = cksum at h
  have hbyte : ∀ i < 0 + IP4_MIN_HLEN, p.byteAt i = (ip4PacketHeader ff r cksum).getD i 0 := by
    intro i hi
    have hlt : i < (ip4PacketHeader ff r cksum).length := by rwa [Nat.zero_add] at hi
    rw [Pdu.byteAt, h, getD_append _ _ _ _ hlt, getD_eq_getElem _ _ hlt,
      getD_eq_getElem _ _ hlt]
  have hsum := (hostSum_congr hbyte).trans (hostSum_cksum ff r cksum)
  have hle := hostSum_le (fun i => (ip4PacketHeader ff r 0).getD i 0) IP4_MIN_HLEN 0
  have hbound := cksum.toNat_lt
  simp only [ipv4Checksum, ipv4ChecksumLoop_eq, Nat.zero_add] at hck ⊢
  generalize hostSum (fun i => (ip4PacketHeader ff r 0).getD i 0) IP4_MIN_HLEN 0 = n at *
  unfold IP4_MIN_HLEN at *
  have hword : cksum.toNat = 65535 - onesFold n := by
    rw [← hck, ← twice_folded (by omega)]
    simp
    omega
  rw [complement_eq_zero_iff, twice_folded (by omega), hsum, hword, onesFold_add_complement]

theorem UInt16.toNat_ofNat_add {n k : Nat} (h : n + k < 2 ^ 16) :
    (UInt16.ofNat n + UInt16.ofNat k).toNat = n + k := by
  rw [← UInt16.ofNat_add, UInt16.toNat_ofNat_of_lt' h]

/-- **IPv4 takes the packets that IPv4 sends.** -/
theorem ipv4InFdf_sent (h : ff'.pdu.bytes = ipv4ConstHeader ff r ++ ff.pdu.bytes ++ pad)
    (hlen : ff.pdu.bytes.length + 20 < 2 ^ 16) (hlong : ff'.pdu.bytes.length < 2 ^ 31)
    (httl : (sentHeader ff r).ttl ≠ 0) (hours : Ours md r.dstIp) :
    ipv4InFdf md ff' = .use :: .read 0 IP4_MIN_HLEN :: .read 0 IP4_MIN_HLEN
      :: ipv4SendFdfIn md.flows (sentHeader ff r) ff' := by
  rw [append_assoc] at h
  have hhdr : ip4Header ff'.pdu = sentHeader ff r := ip4Header_sent h
  have hpasses : PassesTests md ff'.pdu :=
    { checksum := by
        rw [hhdr]
        exact ipv4Checksum_sent h
      length := by
        have hbytes : ff'.pdu.bytes.length = 20 + (ff.pdu.bytes.length + pad.length) := by
          rw [h, length_append, length_append]
          rfl
        have hpacket : (sentHeader ff r).packetLength.toNat = ff.pdu.bytes.length + 20 :=
          UInt16.toNat_ofNat_add hlen
        rw [Pdu.len, if_pos hlong, hhdr, hpacket]
        omega
      alive := by rwa [hhdr]
      ours := by
        rw [hhdr]
        exact (foreign_eq_false_iff md r.dstIp).mpr hours
      flags := by
        rw [hhdr]
        exact (by decide : (0 : UInt16) &&& (IP4_DF ||| IP4_MF) ≠ IP4_DF ||| IP4_MF) }
  have hcases := ipv4InFdf_cases md ff'
  generalize ipv4InFdf md ff' = ops at hcases ⊢
  cases hcases with
  | version hv => exact absurd (congrArg Ip4Header.version hhdr) hv
  | short _ hl =>
    rw [hhdr] at hl
    exact absurd hl (Nat.lt_irrefl 20)
  | dropped _ _ hp => exact absurd hpasses hp
  | fragment _ _ _ hf =>
    rw [hhdr] at hf
    exact absurd (by decide : (0 : UInt16) &&& IP4_MF ||| 0 = 0) hf
  | whole =>
    rw [hhdr]
    rfl

theorem handed_ipv4SendFdfIn {flows : List ModuleFlow} {flow : Nat}
    (h : ff'.pdu.bytes = ipv4ConstHeader ff r ++ ff.pdu.bytes ++ pad)
    (hlen : ff.pdu.bytes.length + 20 < 2 ^ 16) (hup : moduleSendFlow flows flow ≠ 0)
    (hflow : payloadFlow r.protocol.toUInt8 = some flow) :
    handed flow (ipv4SendFdfIn flows (sentHeader ff r) ff') =
      some (ff.pdu.bytes, (sentHeader ff r).recvMeta ff'.metaData) := by
  have hpacket : (sentHeader ff r).packetLength.toNat = ff.pdu.bytes.length + 20 :=
    UInt16.toNat_ofNat_add hlen
  have hhdr : (sentHeader ff r).headerLength.toNat = 20 := rfl
  have hslice : ff'.pdu.slice IP4_MIN_HLEN ff.pdu.bytes.length = ff.pdu.bytes := by
    have hmin : (ipv4ConstHeader ff r).length = IP4_MIN_HLEN := rfl
    rw [Pdu.slice_eq (by rw [h]; simp [hmin]), h, append_assoc, ← hmin, drop_left,
      take_left]
  have hproto : (sentHeader ff r).protocol = r.protocol.toUInt8 := rfl
  unfold ipv4SendFdfIn
  simp only [hpacket, hhdr, hproto, Nat.add_sub_cancel, hslice]
  rw [if_neg (by omega)]
  generalize r.protocol.toUInt8 = protocol at hflow ⊢
  unfold payloadFlow at hflow
  split_ifs at hflow with ht hu
  · obtain rfl : IPV4_FLOW_TCP = flow := Option.some.inj hflow
    rw [ht, if_neg (by decide), if_pos rfl, handed_read, handed_use, handed_sendOrFree _ _ hup]
  · obtain rfl : IPV4_FLOW_UDP = flow := Option.some.inj hflow
    rw [hu, if_neg (by decide), if_neg (by decide), if_pos rfl, handed_read, handed_use,
      handed_sendOrFree _ _ hup]

variable (fresh beyond : Nat → UInt8)

/-- **Through IPv4.**  A frame of TCP or UDP arrives with the PDU that it had and the addresses of
    its packet. -/
theorem overIpv4_eq {flow : Nat} (h : Path md md' r.dstIp flow)
    (hr : outRequest ff.metaData = some r) (hlen : ff.pdu.bytes.length + 20 < 2 ^ 16)
    (hpad : pad.length < 2 ^ 30) (httl : (sentHeader ff r).ttl ≠ 0)
    (hflow : payloadFlow r.protocol.toUInt8 = some flow) :
    overIpv4 md md' fresh beyond pad flow ff =
      frameOf beyond ff.pdu.bytes ((sentHeader ff r).recvMeta {}) := by
  obtain ⟨route, hroute, hout⟩ := h.route
  obtain ⟨m, hsent⟩ : ∃ m, handed IPV4_FLOW_INTERFACE (ipv4OutFdf md fresh ff) =
      some (ipv4ConstHeader ff r ++ ff.pdu.bytes, m) := by
    simp only [ipv4OutFdf, hr, hroute, hout, Bool.false_eq_true, if_false, ipv4SendFdfOut]
    rw [handed_use, handed_read, handed_use, handed_sendOrFree _ _ h.link]
    exact ⟨_, rfl⟩
  have hbytes : (ipv4ConstHeader ff r ++ ff.pdu.bytes ++ pad).length =
      20 + ff.pdu.bytes.length + pad.length := by
    rw [length_append, length_append]
    rfl
  have hlong : (ipv4ConstHeader ff r ++ ff.pdu.bytes ++ pad).length < 2 ^ 31 := by omega
  have hfits : (ipv4ConstHeader ff r ++ ff.pdu.bytes ++ pad).length < 2 ^ 32 := by omega
  simp only [overIpv4, hsent, frameOf_eq beyond {} hfits, Option.bind_eq_bind, Option.bind_some]
  rw [ipv4InFdf_sent rfl hlen hlong httl h.ours, handed_use, handed_read, handed_read,
    handed_ipv4SendFdfIn rfl hlen h.up hflow]
  rfl

/-! ### Datagrams -/

section Udp

variable {srcPort dstPort : UInt32} {data : List UInt8}

theorem udpPacket_eq (h : data.length + 8 < 2 ^ 16) (cksum : UInt16) :
    udpPacket srcPort dstPort data cksum = be16 srcPort.toUInt16 ++ be16 dstPort.toUInt16
      ++ be16 (UInt16.ofNat data.length + 8) ++ be16 cksum ++ data := by
  have hlen : (UInt16.ofNat data.length + 8).toNat = data.length + 8 := UInt16.toNat_ofNat_add h
  unfold udpPacket
  apply take_of_length_le
  simp [hlen, be16]

theorem udpPacket_length (h : data.length + 8 < 2 ^ 16) (cksum : UInt16) :
    (udpPacket srcPort dstPort data cksum).length = data.length + 8 := by
  rw [udpPacket_eq h, length_append]
  exact Nat.add_comm _ _

theorem sumWords_udpPacket (h : data.length + 8 < 2 ^ 16) (cksum : UInt16) :
    sumWords (udpPacket srcPort dstPort data cksum) =
      sumWords (udpPacket srcPort dstPort data 0) + cksum.toUInt32 := by
  have split : ∀ k : UInt16, sumWords (udpPacket srcPort dstPort data k) =
      sumWords (be16 srcPort.toUInt16 ++ be16 dstPort.toUInt16
        ++ be16 (UInt16.ofNat data.length + 8)) + k.toUInt32 + sumWords data := by
    intro k
    rw [udpPacket_eq h, sumWords_append (by simp [be16]), sumWords_append (by simp [be16]),
      sumWords_be16]
  rw [split cksum, split 0, show (0 : UInt16).toUInt32 = 0 from rfl]
  grind

/-- The words of a pseudo header and of a packet leave room for one more. -/
theorem sums_lt {l l' : List UInt8} (h : l.length = 12) (h' : l'.length < 2 ^ 16) :
    (sumWords l + sumWords l').toNat + 65535 < 2 ^ 32 := by
  have hle := wordSum_le l
  have hle' := wordSum_le l'
  rw [h] at hle
  rw [UInt32.toNat_add, sumWords_toNat (by omega), sumWords_toNat (by omega),
    Nat.mod_eq_of_lt (by omega)]
  omega

/-- **The receiver's sum is all ones.** -/
theorem udpChecksum_completes (h : data.length + 8 < 2 ^ 16) (uLen : UInt16)
    (srcIp dstIp : UInt32) :
    udpChecksum uLen (udpPacket srcPort dstPort data
      (udpChecksum uLen (udpPacket srcPort dstPort data 0) srcIp dstIp)) srcIp dstIp = 0 := by
  unfold udpChecksum
  rw [sumWords_udpPacket h, ← UInt32.add_assoc]
  exact complement_completes (sums_lt rfl (by rw [udpPacket_length h]; exact h))

theorem udpPacket_reads {p : Pdu} {cksum : UInt16} (h : data.length + 8 < 2 ^ 16)
    (hp : p.bytes = udpPacket srcPort dstPort data cksum) :
    (p.u16At 0 = srcPort.toUInt16 ∧ p.u16At 2 = dstPort.toUInt16) ∧
      (p.u16At 4 = UInt16.ofNat data.length + 8 ∧ p.u16At 6 = cksum) ∧
      p.slice U_HEADER_LEN data.length = data := by
  have hlength := congrArg List.length hp
  rw [udpPacket_length h] at hlength
  rw [udpPacket_eq h] at hp
  obtain ⟨bytes, beyond, fits⟩ := p
  obtain rfl : bytes = _ := hp
  refine ⟨⟨bytes_be16 _, bytes_be16 _⟩, ⟨bytes_be16 _, bytes_be16 _⟩, ?_⟩
  rw [Pdu.slice_eq (by rw [hlength, U_HEADER_LEN]; omega)]
  exact take_length

/-- **UDP takes the datagrams that UDP sends.** -/
theorem udpInFdf_sent {flows : List ModuleFlow} (p : Pdu) (header : Ip4Header) (m : Metadata)
    (h : data.length + 8 < 2 ^ 16)
    (hpdu : p.bytes = udpPacket srcPort dstPort data (udpChecksum (UInt16.ofNat data.length + 8)
      (udpPacket srcPort dstPort data 0) header.source header.destination))
    (hproto : header.protocol = IP4_PT_UDP) (hup : moduleSendFlow flows UDP_FLOW_DAEMON ≠ 0) :
    let ops := udpInFdf flows ⟨p, header.recvMeta m⟩
    handed UDP_FLOW_DAEMON ops.1 = some (data, header.recvMeta m) ∧
      ops.2 = some (srcPort.toUInt16.toUInt32, dstPort.toUInt16.toUInt32) := by
  have hlength := congrArg List.length hpdu
  rw [udpPacket_length h] at hlength
  obtain ⟨⟨hport, hport'⟩, ⟨hlen, -⟩, hdata⟩ := udpPacket_reads h hpdu
  have huLen : (UInt16.ofNat data.length + 8).toNat = data.length + 8 := UInt16.toNat_ofNat_add h
  have hall : p.slice 0 (data.length + 8) = p.bytes := by
    rw [Pdu.slice_eq (by omega), ← hlength]
    exact take_length
  have hrest : (UInt32.ofNat (data.length + 8) - 8).toNat = data.length := by
    have hdiff : UInt32.ofNat (data.length + 8) - 8 = UInt32.ofNat data.length := by
      rw [UInt32.ofNat_add]
      grind
    rw [hdiff, UInt32.toNat_ofNat_of_lt' (show data.length < 2 ^ 32 by omega)]
  have hsum := @udpChecksum_completes srcPort dstPort data h (UInt16.ofNat data.length + 8)
    header.source header.destination
  rw [← hpdu] at hsum
  have hudp : IP4_PT_UDP.toUInt32 = UDP_PT_UDP := rfl
  simp only [udpInFdf, Ip4Header.recvMeta, hproto, hudp, hlength, hlen, huLen, hall, hsum,
    hrest, hdata, hport, hport', ne_eq, not_true_eq_false, if_false, and_false]
  refine ⟨?_, trivial⟩
  simp [handed_sendOrFree _ _ hup]

/-- **A datagram from daemon to daemon.**  Every datagram that fits an IPv4 packet arrives with
    its data, its addresses and its ports, whatever the link adds behind the packet. -/
theorem datagram_crosses {udp udp' : List ModuleFlow} {family srcIp dstIp : UInt32}
    (h : Path md md' dstIp IPV4_FLOW_UDP) (hlink : moduleSendFlow udp UDP_FLOW_IPV4 ≠ 0)
    (hlink' : moduleSendFlow udp' UDP_FLOW_DAEMON ≠ 0)
    (hfamily : ff.metaData.sendFamily = some family) (hsrc : ff.metaData.sendSrcIpv4 = some srcIp)
    (hdst : ff.metaData.sendDstIpv4 = some dstIp) (hlen : ff.pdu.bytes.length + 28 < 2 ^ 16)
    (hpad : pad.length < 2 ^ 30) (httl : ff.metaData.sendTtl.map UInt32.toUInt8 ≠ some 0) :
    overUdp md md' udp udp' fresh beyond pad (some srcPort) (some dstPort) ff =
      some (ff.pdu.bytes,
        { recvProtocol := some 17, recvFamily := some AF_INET, recvSrcIpv4 := some srcIp
          recvDstIpv4 := some dstIp
          recvTtl := some ((ff.metaData.sendTtl.map UInt32.toUInt8).getD IP4_INIT_TTL).toUInt32 },
        some (srcPort.toUInt16.toUInt32, dstPort.toUInt16.toUInt32)) := by
  have hshort : ff.pdu.bytes.length + 8 < 2 ^ 16 := by omega
  obtain ⟨packet, hpkt⟩ : ∃ packet, packet = udpPacket srcPort dstPort ff.pdu.bytes (udpChecksum
    (UInt16.ofNat ff.pdu.bytes.length + 8) (udpPacket srcPort dstPort ff.pdu.bytes 0)
    srcIp dstIp) :=
    ⟨_, rfl⟩
  have hsent : handed UDP_FLOW_IPV4 (udpOutFdf udp ff (some srcPort) (some dstPort)) =
      some (packet, { ff.metaData with sendProtocol := some UDP_PT_UDP }) := by
    simp only [udpOutFdf, hfamily, hsrc, hdst, ← hpkt]
    rw [handed_read, handed_use, handed_sendOrFree _ _ hlink]
  have hlength : packet.length = ff.pdu.bytes.length + 8 := by rw [hpkt, udpPacket_length hshort]
  have hfits : packet.length < 2 ^ 32 := by omega
  have hpacket : packet.length + 20 < 2 ^ 16 := by omega
  have halive : (ff.metaData.sendTtl.map UInt32.toUInt8).getD IP4_INIT_TTL ≠ 0 := by
    cases hm : ff.metaData.sendTtl.map UInt32.toUInt8 with
    | none => decide
    | some ttl =>
      rintro rfl
      exact httl hm
  have hr : outRequest { ff.metaData with sendProtocol := some UDP_PT_UDP } =
      some ⟨UDP_PT_UDP, family, srcIp, dstIp⟩ := by
    simp only [outRequest, hfamily, hsrc, hdst]
    rfl
  simp only [overUdp, hsent, frameOf_eq beyond _ hfits, Option.bind_eq_bind, Option.bind_some]
  rw [@overIpv4_eq md md' ⟨⟨packet, beyond, hfits⟩, _⟩ ⟨UDP_PT_UDP, family, srcIp, dstIp⟩ pad fresh
    beyond _ h hr hpacket hpad halive rfl, frameOf_eq beyond _ hfits, Option.bind_some]
  obtain ⟨hdata, hports⟩ := udpInFdf_sent ⟨packet, beyond, hfits⟩ (sentHeader
    ⟨⟨packet, beyond, hfits⟩, { ff.metaData with sendProtocol := some UDP_PT_UDP }⟩
    ⟨UDP_PT_UDP, family, srcIp, dstIp⟩) {} hshort hpkt rfl hlink'
  rw [hdata, hports]
  rfl

/-- A host with one address and a default route. -/
def sampleHost (ip : UInt32) : Ipv4Data :=
  { oneAddress with addrList := [⟨1, some ip, none⟩], routeList := [⟨1, 0, 0, 0⟩] }

theorem sampleHost_path {flow : Nat} (h : flow < 4) :
    Path (sampleHost 1) (sampleHost 2) 2 flow := by
  refine ⟨⟨_, rfl, rfl⟩, by decide, .inr (.inr ⟨_, mem_cons_self, .inl rfl⟩), ?_⟩
  revert flow
  decide

theorem datagram_crosses_three :
    (overUdp (sampleHost 1) (sampleHost 2) oneAddress.flows oneAddress.flows (fun _ => 0)
      (fun _ => 0) [0, 0] (some 4000) (some 80) ⟨⟨[1, 2, 3], fun _ => 0, by decide⟩,
        { sendFamily := some 2, sendSrcIpv4 := some 1, sendDstIpv4 := some 2 }⟩).map
      (fun x => (x.1, x.2.2)) = some ([1, 2, 3], some (4000, 80)) := by
  rw [datagram_crosses _ _ (sampleHost_path (by decide)) (by decide) (by decide) rfl rfl rfl
    (by decide) (by decide) (by decide)]
  rfl

end Udp

/-! ### Segments -/

/-- The metadata that `tcp_to_fdf` writes. -/
def Fdf.metaData (ff : Fdf) : Metadata :=
  { sendProtocol := some ff.protocol
    sendFamily := some AF_INET
    sendSrcIpv4 := some ff.srcIp
    sendDstIpv4 := some ff.dstIp }

/-- A segment from `tcp_to_fdf` to `fdf_to_tcp` of the other host. -/
def overTcp (md md' : Ipv4Data) (fresh beyond : Nat → UInt8) (pad : List UInt8) (seg : TcpSeg) :
    Option TcpSeg := do
  let ff ← frameOf beyond (tcpToFdf seg).pdu (Fdf.metaData (tcpToFdf seg))
  let ff ← overIpv4 md md' fresh beyond pad IPV4_FLOW_TCP ff
  let protocol ← ff.metaData.recvProtocol
  let srcIp ← ff.metaData.recvSrcIpv4
  let dstIp ← ff.metaData.recvDstIpv4
  fdfToTcp { protocol, srcIp, dstIp, pdu := ff.pdu.bytes }

theorem overTcp_framed {s : TcpSeg} (hs : Framed s) (h : Path md md' s.dstIp IPV4_FLOW_TCP)
    (hlen : wireLength s + 20 < 2 ^ 16) (hpad : pad.length < 2 ^ 30) :
    overTcp md md' fresh beyond pad s = fdfToTcp (tcpToFdf s) := by
  have hpdu : (tcpToFdf s).pdu.length = wireLength s := by
    show (tcpPdu s (tcpPduChecksum s)).length = _
    rw [hs.pdu (by omega), length_append, length_append, tcpv4Header_length, wireLength,
      hs.offset]
    omega
  have hfits : (tcpToFdf s).pdu.length < 2 ^ 32 := by omega
  have hshort : (tcpToFdf s).pdu.length + 20 < 2 ^ 16 := by omega
  simp only [overTcp, frameOf_eq beyond _ hfits, Option.bind_eq_bind, Option.bind_some]
  rw [@overIpv4_eq md md' ⟨⟨_, beyond, hfits⟩, Fdf.metaData (tcpToFdf s)⟩
    ⟨IPPROTO_TCP, AF_INET, s.srcIp, s.dstIp⟩ pad fresh beyond _ h rfl hshort hpad
    (by decide : IP4_INIT_TTL ≠ 0) rfl, frameOf_eq beyond _ hfits]
  rfl

/-- **A segment from TCP to TCP.**  What `tcp_seg_update` prepared arrives with its fields, its
    options and its data, and its checksum verifies. -/
theorem segment_crosses {c : TcpConn} (seg : TcpSeg) (flags : UInt16)
    (hbits : AckBits c.delayedAckFlags) (hdata : seg.dataLen = seg.data.length)
    (h : Path md md' (tcpSegUpdate seg c flags).1.dstIp IPV4_FLOW_TCP)
    (hlen : wireLength (tcpSegUpdate seg c flags).1 + 20 < 2 ^ 16) (hpad : pad.length < 2 ^ 30) :
    let s := (tcpSegUpdate seg c flags).1
    let p := { s with checksum := tcpPduChecksum s, seqEnd := s.seqNum + s.dataLen32 }
    overTcp md md' fresh beyond pad s = some p ∧ tcpSegChecksum p = 0 := by
  intro s p
  have hframed : Framed s := tcpSegUpdate_framed flags hbits hdata
  have hwire : wireLength s < 2 ^ 16 - 20 := Nat.lt_sub_of_add_lt hlen
  exact ⟨(overTcp_framed fresh beyond hframed h hlen hpad).trans (hframed.parsed (by omega)),
    hframed.checksum (by omega) _⟩

theorem segment_crosses_three :
    let s := (tcpSegUpdate { tcpSegCreate ⟨1, 10, 2, 20⟩ 101 104 with
      data := [1, 2, 3], dataLen := 3 } (runConn sampleConn sampleOpen) FLAG_ACK).1
    (overTcp (sampleHost 1) (sampleHost 2) (fun _ => 0) (fun _ => 0) [] s).map TcpSeg.data =
      some [1, 2, 3] := by
  intro s
  have hbits := (runConn_delayInv (.fresh sampleData ⟨1, 10, 2, 20⟩) sampleOpen).bits
  obtain ⟨hcross, -⟩ := segment_crosses (fun _ => 0) (fun _ => 0)
    { tcpSegCreate ⟨1, 10, 2, 20⟩ 101 104
    with data := [1, 2, 3], dataLen := 3 } FLAG_ACK hbits rfl (sampleHost_path (by decide))
    (by decide +kernel) (by decide : ([] : List UInt8).length < 2 ^ 30)
  have hdata : s.data = [1, 2, 3] := by decide +kernel
  exact (congrArg (Option.map TcpSeg.data) hcross).trans (congrArg some hdata)

end FinsStack.Net
