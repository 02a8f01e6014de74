import FinsStack.Net.Frame
import FinsStack.Tcp.Seg

/-!
# The ICMP module's input

`icmp.c`.

Besides the log of what happens to the frame it was given, a call makes frames of its own (an
error for the quoted sender, the reply to a ping) and may use up an entry of `sent_list`.
`icmpInFdf` gives all three.  Every packet goes on to the daemon in the end; the helpers do
that on the caller's behalf, and the caller must return after them.
-/

namespace FinsStack.Net

open FinsStack.Tcp (be16 sumWords foldCarry)

/-! ### Constants -/

def ICMP_TYPE_ECHOREPLY : UInt8 := 0
def ICMP_TYPE_DESTUNREACH : UInt8 := 3
def ICMP_TYPE_ECHOREQUEST : UInt8 := 8
def ICMP_TYPE_TTLEXCEED : UInt8 := 11

def ICMP_CODE_ECHO : UInt8 := 0
def ICMP_CODE_HOSTUNREACH : UInt8 := 1
def ICMP_CODE_PORTUNREACH : UInt8 := 3
def ICMP_CODE_TTLEXCEEDED : UInt8 := 0

def ICMP_PT_ICMP : UInt32 := 1
def ICMP_PT_UDP : UInt32 := 17

def ICMP_HEADER_SIZE : Nat := 8
def IPV4_MIN_HLEN : Nat := 20
def FRAG_SIZE : UInt16 := 8

def ICMP_FLOW_IPV4 : Nat := 0
def ICMP_FLOW_UDP : Nat := 2
def ICMP_FLOW_DAEMON : Nat := 3

inductive IcmpError where
  | ttl
  | destUnreach
deriving DecidableEq, Repr

def SO_EE_ORIGIN_ICMP : UInt32 := 2

/-! ### State and results -/

/-- `struct icmp_sent`: a frame kept for the errors that may quote it. -/
structure IcmpSent where
  pdu : Pdu
  metaData : Metadata

structure IcmpData where
  flows : List ModuleFlow
  sentList : List IcmpSent

inductive MadeFrame where
  | error (flow : Nat) (paramId : IcmpError) (data : List UInt8) (metaData : Metadata)
  | reply (flow : Nat) (pdu : List UInt8) (metaData : Metadata)
deriving DecidableEq, Repr

structure IcmpResult where
  ops : List FrameOp
  made : List MadeFrame
  sentList : List IcmpSent

/-! ### Packets -/

def icmpChecksum (bytes : List UInt8) : UInt16 := (~~~ foldCarry (sumWords bytes)).toUInt16

def ipv4Hlen (p : Pdu) (pos : Nat) : UInt32 := ((p.byteAt pos &&& 0xf) <<< 2).toUInt32

def icmpLen (p : Pdu) : UInt32 := (p.u16At 2).toUInt32 - ipv4Hlen p 0

/-- `icmp_pkt` is `ipv4_pkt->ip_data`, whatever the header length. -/
def icmpType (p : Pdu) : UInt8 := p.byteAt 20
def icmpCode (p : Pdu) : UInt8 := p.byteAt 21

def icmpVerifies (p : Pdu) : Bool :=
  p.u16At 22 == 0 || icmpChecksum (p.slice IPV4_MIN_HLEN (icmpLen p).toNat) == 0

def strncmpEq (a b : Nat → UInt8) : Nat → Nat → Bool
  | 0, _ => true
  | n + 1, i => a i == b i && (a i == 0 || strncmpEq a b n (i + 1))

def icmpSentMatchTest (dataLen : Nat) (data : Nat → UInt8) (sent : IcmpSent) : Bool :=
  if sent.pdu.bytes.length ≥ dataLen then strncmpEq sent.pdu.byteAt data dataLen 0
  else strncmpEq sent.pdu.byteAt data sent.pdu.bytes.length 0

/-! ### Handlers -/

def quotedPos : Nat := IPV4_MIN_HLEN + ICMP_HEADER_SIZE

def sentErrorMeta (ff : DataFrame) (m : Metadata) (src ttl : UInt32) : Metadata :=
  { m with
    recvSrcIpv4 := some src
    recvTtl := some ttl
    recvEeOrigin := some SO_EE_ORIGIN_ICMP
    recvIcmpType := some (icmpType ff.pdu).toUInt32
    recvIcmpCode := some (icmpCode ff.pdu).toUInt32 }

/-- `icmp_handle_error`.  `sent_data_len` is a `uint16_t` that the match test reads as a
    `uint32_t`: `upper` is what lies behind it. -/
def icmpHandleError (md : IcmpData) (upper : UInt16) (ff : DataFrame) (dataLen : UInt32)
    (paramId : IcmpError) : IcmpResult :=
  let send := sendOrFree md.flows ICMP_FLOW_DAEMON ff.pdu.bytes
  if dataLen.toNat < IPV4_MIN_HLEN then ⟨send ff.metaData, [], md.sentList⟩
  else
    let sentDataLen : UInt16 := (dataLen - ipv4Hlen ff.pdu quotedPos).toUInt16
    let protocol := (ff.pdu.byteAt (quotedPos + 9)).toUInt32
    let data : Nat := quotedPos + IPV4_MIN_HLEN
    if protocol = ICMP_PT_ICMP then
      if sentDataLen < FRAG_SIZE then
        ⟨.read quotedPos IPV4_MIN_HLEN :: send ff.metaData, [], md.sentList⟩
      else
        match md.sentList.findIdx? (icmpSentMatchTest (sentDataLen.toNat + 65536 * upper.toNat)
            fun i => ff.pdu.byteAt (data + i)) with
        | none => ⟨.read quotedPos IPV4_MIN_HLEN :: send ff.metaData, [], md.sentList⟩
        | some i =>
          match ff.metaData.recvSrcIpv4, ff.metaData.recvTtl, md.sentList[i]? with
          | some src, some ttl, some sent =>
            ⟨.read quotedPos IPV4_MIN_HLEN :: .use :: send ff.metaData,
              [.error ICMP_FLOW_DAEMON paramId sent.pdu.bytes
                (sentErrorMeta ff sent.metaData src ttl)],
              md.sentList.eraseIdx i⟩
          | _, _, _ => ⟨[.read quotedPos IPV4_MIN_HLEN, .use, .exit], [], md.sentList⟩
    else if protocol = ICMP_PT_UDP then
      if sentDataLen < FRAG_SIZE then
        ⟨.read quotedPos IPV4_MIN_HLEN :: send ff.metaData, [], md.sentList⟩
      else
        -- the origin goes into the metadata of the packet, not of the error
        ⟨.read quotedPos IPV4_MIN_HLEN :: .use :: .read data sentDataLen.toNat
            :: send { ff.metaData with recvEeOrigin := some SO_EE_ORIGIN_ICMP },
          [.error ICMP_FLOW_UDP paramId (ff.pdu.slice data sentDataLen.toNat) ff.metaData],
          md.sentList⟩
    else ⟨.read quotedPos IPV4_MIN_HLEN :: send ff.metaData, [], md.sentList⟩

def pingReplyPdu (p : Pdu) (dataLen : Nat) (checksum : List UInt8) : List UInt8 :=
  [ICMP_TYPE_ECHOREPLY, ICMP_CODE_ECHO] ++ checksum ++ p.slice 24 4 ++ p.slice quotedPos dataLen

def icmpPingReply (md : IcmpData) (ff : DataFrame) (dataLen : UInt32) : IcmpResult :=
  let unsummed := pingReplyPdu ff.pdu dataLen.toNat [0, 0]
  let pdu := pingReplyPdu ff.pdu dataLen.toNat (be16 (icmpChecksum unsummed))
  match ff.metaData.recvFamily, ff.metaData.recvSrcIpv4, ff.metaData.recvDstIpv4 with
  | some family, some src, some dst =>
    ⟨.read 24 4 :: .read quotedPos dataLen.toNat :: .use
        :: sendOrFree md.flows ICMP_FLOW_DAEMON ff.pdu.bytes ff.metaData,
      [.reply ICMP_FLOW_IPV4 pdu
        { sendProtocol := some ICMP_PT_ICMP
          sendFamily := some family
          sendSrcIpv4 := some dst
          sendDstIpv4 := some src }],
      md.sentList⟩
  | _, _, _ => ⟨[.read 24 4, .read quotedPos dataLen.toNat, .use, .exit], [], md.sentList⟩

def IcmpResult.after (r : IcmpResult) (pre : List FrameOp) : IcmpResult :=
  { r with ops := pre ++ r.ops }

def icmpSwitch (md : IcmpData) (upper : UInt16) (ff : DataFrame) (dataLen : UInt32) :
    IcmpResult :=
  let send := sendOrFree md.flows ICMP_FLOW_DAEMON ff.pdu.bytes ff.metaData
  let type := icmpType ff.pdu
  let code := icmpCode ff.pdu
  if type = ICMP_TYPE_DESTUNREACH ∧ code = ICMP_CODE_HOSTUNREACH then
    -- no return here
    let r := icmpHandleError md upper ff dataLen .destUnreach
    { r with ops := if .exit ∈ r.ops then r.ops else r.ops ++ send }
  else if type = ICMP_TYPE_DESTUNREACH ∧ code = ICMP_CODE_PORTUNREACH then
    icmpHandleError md upper ff dataLen .destUnreach
  else if type = ICMP_TYPE_ECHOREQUEST ∧ code = ICMP_CODE_ECHO then
    icmpPingReply md ff dataLen
  else if type = ICMP_TYPE_TTLEXCEED ∧ code = ICMP_CODE_TTLEXCEEDED then
    icmpHandleError md upper ff dataLen .ttl
  else ⟨send, [], md.sentList⟩

def withIcmpMeta (ff : DataFrame) : DataFrame :=
  { ff with metaData :=
    { ff.metaData with
      recvIcmpType := some (icmpType ff.pdu).toUInt32
      recvIcmpCode := some (icmpCode ff.pdu).toUInt32 } }

def icmpInFdf (md : IcmpData) (upper : UInt16) (ff : DataFrame) : IcmpResult :=
  let pre := [.use, .read 0 IPV4_MIN_HLEN]
  if (icmpLen ff.pdu).toNat < ICMP_HEADER_SIZE then ⟨pre ++ [.free], [], md.sentList⟩
  else
    match ff.metaData.recvProtocol with
    | none => ⟨pre ++ [.use, .exit], [], md.sentList⟩
    | some protocol =>
      if protocol ≠ ICMP_PT_ICMP then ⟨pre ++ [.use, .free], [], md.sentList⟩
      else
        let pre := pre ++ [.use, .read IPV4_MIN_HLEN (icmpLen ff.pdu).toNat]
        if icmpVerifies ff.pdu = false then ⟨pre ++ [.free], [], md.sentList⟩
        else
          (icmpSwitch md upper (withIcmpMeta ff)
            (icmpLen ff.pdu - UInt32.ofNat ICMP_HEADER_SIZE)).after (pre ++ [.use])

end FinsStack.Net
