import FinsStack.Net.Icmp
import FinsStack.Net.Ipv4Input
import FinsStack.Tcp.Wire

/-!
# The echo service

`icmp/icmp.c`: `icmp_in_fdf`, `icmp_ping_reply`, on what `ipv4_in_fdf` hands up.

An echo request that verifies goes up to the daemon as it is and is answered with its own
identifier, sequence number and data, under a checksum that verifies.
-/

namespace FinsStack.Net

open List

open FinsStack.Tcp (be16 sumWords foldCarry sumWords_append sumWords_be16 sumWords_toNat
  complement_completes)

/-- The frame as ICMP gets it: the PDU is left as it is. -/
def atIcmp (ff : DataFrame) : DataFrame :=
  { ff with metaData := (ip4Header ff.pdu).recvMeta ff.metaData }

def icmpBytes (p : Pdu) : List UInt8 :=
  (p.bytes.drop IPV4_MIN_HLEN).take ((ip4Header p).packetLength.toNat - IPV4_MIN_HLEN)

/-- `ipv4_in_fdf` accepts the packet, which has no options and carries an echo request. -/
def EchoRequest (md : Ipv4Data) (ff : DataFrame) : Prop :=
  .offer IPV4_FLOW_ICMP ff.pdu.bytes (atIcmp ff).metaData ∈ ipv4InFdf md ff ∧
  (ip4Header ff.pdu).headerLength = 20 ∧ ICMP_HEADER_SIZE ≤ (icmpBytes ff.pdu).length ∧
  (icmpBytes ff.pdu).take 2 = [ICMP_TYPE_ECHOREQUEST, ICMP_CODE_ECHO]
deriving Decidable

def FlowsLinked (md : IcmpData) : Prop :=
  moduleSendFlow md.flows ICMP_FLOW_DAEMON = 1 ∧ moduleSendFlow md.flows ICMP_FLOW_IPV4 = 1
deriving Decidable

def Verifies (p : Pdu) : Prop := p.u16At 22 = 0 ∨ icmpChecksum (icmpBytes p) = 0

def offers (ops : List FrameOp) : List (Nat × List UInt8) :=
  ops.filterMap fun
    | .offer flow pdu _ => some (flow, pdu)
    | _ => none

def Echoed (ff : DataFrame) (r : IcmpResult) : Prop :=
  offers r.ops = [(ICMP_FLOW_DAEMON, ff.pdu.bytes)] ∧ r.ops.filter FrameOp.consumes = [.pass] ∧
  ∃ reply m, r.made = [.reply ICMP_FLOW_IPV4 reply m] ∧
    reply.take 2 = [ICMP_TYPE_ECHOREPLY, ICMP_CODE_ECHO] ∧
    reply.drop 4 = (icmpBytes ff.pdu).drop 4 ∧ reply.length = (icmpBytes ff.pdu).length ∧
    icmpChecksum reply = 0 ∧ m.sendSrcIpv4 = some (ip4Header ff.pdu).destination ∧
    m.sendDstIpv4 = some (ip4Header ff.pdu).source

def Discarded (r : IcmpResult) : Prop :=
  offers r.ops = [] ∧ r.ops.filter FrameOp.consumes = [.free] ∧ r.made = []

variable {md4 : Ipv4Data} {ff : DataFrame}

/-! ### The checksum -/

theorem icmpChecksum_completes {l m : List UInt8} (heven : l.length % 2 = 0)
    (hlen : l.length + m.length ≤ 65535) :
    icmpChecksum (l ++ be16 (icmpChecksum (l ++ [0, 0] ++ m)) ++ m) = 0 := by
  have hsum : ∀ k : UInt16, sumWords (l ++ be16 k ++ m) =
      sumWords l + k.toUInt32 + sumWords m := by
    intro k
    rw [sumWords_append (by simp [be16, heven]), sumWords_append heven, sumWords_be16]
  have hzero : sumWords (l ++ [0, 0] ++ m) = sumWords l + sumWords m := by
    rw [show ([0, 0] : List UInt8) = be16 0 from rfl, hsum]
    simp
  have hlt : (sumWords (l ++ [0, 0] ++ m)).toNat + 65535 < 2 ^ 32 := by
    rw [sumWords_toNat (by simp; omega)]
    have hle := Lib.wordSum_le (l ++ [0, 0] ++ m)
    simp only [length_append, length_cons, length_nil] at hle
    omega
  have hdone := complement_completes hlt
  rw [hzero] at hdone
  rw [icmpChecksum, hsum, icmpChecksum, hzero, UInt32.add_assoc,
    UInt32.add_comm _ (sumWords m), ← UInt32.add_assoc]
  exact hdone

/-! ### Requests -/

theorem Pdu.len_le (p : Pdu) : p.len ≤ p.bytes.length := by
  unfold Pdu.len
  split <;> omega

section

variable (h : EchoRequest md4 ff)
include h

theorem EchoRequest.inside :
    (ip4Header ff.pdu).protocol = IP4_PT_ICMP ∧
      (ip4Header ff.pdu).packetLength.toNat ≤ ff.pdu.bytes.length := by
  have hoffer := h.1
  have hin := ipv4InFdf_cases md4 ff
  generalize ipv4InFdf md4 ff = ops at hoffer hin
  cases hin with
  | version | short | dropped | fragment => simp at hoffer
  | whole hv hl hp hf =>
    refine ⟨?_, Int.ofNat_le.mp (Int.le_trans hp.length (Pdu.len_le _))⟩
    simp only [mem_cons, reduceCtorEq, false_or, ipv4SendFdfIn] at hoffer
    split at hoffer
    · simp at hoffer
    split_ifs at hoffer with hi ht hu
    · exact hi
    · simp [mem_sendOrFree_offer, IPV4_FLOW_ICMP, IPV4_FLOW_TCP] at hoffer
    · simp [mem_sendOrFree_offer, IPV4_FLOW_ICMP, IPV4_FLOW_UDP] at hoffer
    · simp at hoffer

theorem EchoRequest.length : (icmpBytes ff.pdu).length =
    (ip4Header ff.pdu).packetLength.toNat - IPV4_MIN_HLEN := by
  have hlen := h.inside.2
  rw [icmpBytes, length_take, length_drop]
  omega

theorem EchoRequest.len_eq :
    (icmpLen ff.pdu).toNat = (icmpBytes ff.pdu).length := by
  have hlong := h.2.2.1
  rw [h.length] at hlong ⊢
  have hhl : ipv4Hlen ff.pdu 0 = 20 := by
    show (ip4Header ff.pdu).headerLength.toUInt32 = 20
    rw [h.2.1]
    rfl
  have hle : (20 : UInt32) ≤ (ff.pdu.u16At 2).toUInt32 := by
    rw [UInt32.le_iff_toNat_le, UInt16.toNat_toUInt32]
    show 20 ≤ (ip4Header ff.pdu).packetLength.toNat
    unfold ICMP_HEADER_SIZE IPV4_MIN_HLEN at hlong
    omega
  rw [icmpLen, hhl, UInt32.toNat_sub_of_le _ _ hle, UInt16.toNat_toUInt32]
  rfl

theorem EchoRequest.slice {i n : Nat}
    (hn : i + n ≤ (icmpBytes ff.pdu).length) :
    ff.pdu.slice (IPV4_MIN_HLEN + i) n = ((icmpBytes ff.pdu).drop i).take n := by
  have hlong : 8 ≤ (icmpBytes ff.pdu).length := h.2.2.1
  have hlen := h.length
  have hin := h.inside.2
  rw [Pdu.slice_eq (by omega), icmpBytes, drop_take, drop_drop, take_take,
    Nat.min_eq_left (by omega)]

theorem icmpInFdf_request (md : IcmpData) (upper : UInt16) :
    icmpInFdf md upper (atIcmp ff) =
      let pre := [.use, .read 0 IPV4_MIN_HLEN, .use, .read IPV4_MIN_HLEN (icmpLen ff.pdu).toNat]
      if icmpVerifies ff.pdu = false then ⟨pre ++ [.free], [], md.sentList⟩
      else (icmpPingReply md (withIcmpMeta (atIcmp ff))
        (icmpLen ff.pdu - UInt32.ofNat ICMP_HEADER_SIZE)).after (pre ++ [.use]) := by
  have hproto : (atIcmp ff).metaData.recvProtocol = some ICMP_PT_ICMP := by
    show some ((ip4Header ff.pdu).protocol.toUInt32) = _
    rw [h.inside.1]
    rfl
  have hlong : ¬ (icmpLen (atIcmp ff).pdu).toNat < ICMP_HEADER_SIZE :=
    Nat.not_lt.mpr (h.len_eq ▸ h.2.2.1)
  have hhead : [icmpType ff.pdu, icmpCode ff.pdu] = [ICMP_TYPE_ECHOREQUEST, ICMP_CODE_ECHO] :=
    (h.slice (i := 0) (n := 2) (Nat.le_trans (by decide) h.2.2.1)).trans h.2.2.2
  obtain ⟨htype, hcode⟩ : icmpType ff.pdu = _ ∧ icmpCode ff.pdu = _ := by
    simpa only [List.cons.injEq, and_true] using hhead
  have hswitch : ∀ n, icmpSwitch md upper (withIcmpMeta (atIcmp ff)) n =
      icmpPingReply md (withIcmpMeta (atIcmp ff)) n := by
    intro n
    simp only [icmpSwitch, show icmpType (withIcmpMeta (atIcmp ff)).pdu = _ from htype,
      show icmpCode (withIcmpMeta (atIcmp ff)).pdu = _ from hcode]
    rw [if_neg (by decide), if_neg (by decide), if_pos (by decide)]
  simp only [icmpInFdf, hproto, if_neg hlong, hswitch, ne_eq, not_true_eq_false, if_false]
  rfl

theorem EchoRequest.verifies :
    icmpVerifies ff.pdu = true ↔ Verifies ff.pdu := by
  have hslice : ff.pdu.slice IPV4_MIN_HLEN (icmpLen ff.pdu).toNat = icmpBytes ff.pdu := by
    rw [h.len_eq]
    exact (h.slice (i := 0) (Nat.le_of_eq (Nat.zero_add _))).trans take_length
  simp [icmpVerifies, Verifies, hslice]

theorem EchoRequest.dataLen :
    (icmpLen ff.pdu - UInt32.ofNat ICMP_HEADER_SIZE).toNat = (icmpBytes ff.pdu).length - 8 := by
  have hle : UInt32.ofNat ICMP_HEADER_SIZE ≤ icmpLen ff.pdu := by
    rw [UInt32.le_iff_toNat_le, h.len_eq]
    exact h.2.2.1
  rw [UInt32.toNat_sub_of_le _ _ hle, h.len_eq]
  rfl

theorem EchoRequest.body : ff.pdu.slice 24 4 ++ ff.pdu.slice quotedPos
    (icmpLen ff.pdu - UInt32.ofNat ICMP_HEADER_SIZE).toNat = (icmpBytes ff.pdu).drop 4 := by
  have hlong : 8 ≤ (icmpBytes ff.pdu).length := h.2.2.1
  rw [h.dataLen]
  show ff.pdu.slice (IPV4_MIN_HLEN + 4) 4 ++ ff.pdu.slice (IPV4_MIN_HLEN + 8) _ = _
  rw [h.slice (by omega), h.slice (by omega),
    take_of_length_le (l := (icmpBytes ff.pdu).drop 8) (by simp),
    show (icmpBytes ff.pdu).drop 8 = ((icmpBytes ff.pdu).drop 4).drop 4 by simp]
  exact take_append_drop 4 _

end

/-- **Echo service.**  A request that verifies is passed up and answered; any other one is
    discarded. -/
theorem echo_service (md4 : Ipv4Data) (md : IcmpData) (upper : UInt16) (ff : DataFrame)
    (h : EchoRequest md4 ff) (hl : FlowsLinked md) :
    (Verifies ff.pdu → Echoed ff (icmpInFdf md upper (atIcmp ff))) ∧
      (¬ Verifies ff.pdu → Discarded (icmpInFdf md upper (atIcmp ff))) := by
  rw [icmpInFdf_request h md upper]
  constructor
  · intro hv
    have hbody := congrArg List.length h.body
    have hlong : 8 ≤ (icmpBytes ff.pdu).length := h.2.2.1
    have hpkt := (ip4Header ff.pdu).packetLength.toNat_lt
    have hlen := h.length
    simp only [length_append, length_drop] at hbody
    have hone : ¬ (1 : UInt32) = 0 := by decide
    simp only [h.verifies.mpr hv, Bool.true_eq_false, if_false, icmpPingReply, IcmpResult.after,
      withIcmpMeta, atIcmp, Ip4Header.recvMeta, sendOrFree, hl.1, hone]
    refine ⟨rfl, rfl, _, _, rfl, rfl, h.body, ?_, ?_, rfl, rfl⟩
    · simp only [pingReplyPdu, be16, length_append, length_cons, length_nil]
      omega
    · have hdone := icmpChecksum_completes (l := [ICMP_TYPE_ECHOREPLY, ICMP_CODE_ECHO])
        (m := ff.pdu.slice 24 4 ++ ff.pdu.slice quotedPos
          (icmpLen ff.pdu - UInt32.ofNat ICMP_HEADER_SIZE).toNat) rfl
        (by simp only [length_append, length_cons, length_nil]; omega)
      simpa only [pingReplyPdu, append_assoc] using hdone
  · intro hv
    have hfails : icmpVerifies ff.pdu = false :=
      Bool.eq_false_iff.mpr fun ht => hv (h.verifies.mp ht)
    simp only [hfails, if_true]
    exact ⟨rfl, rfl, rfl⟩

def ping : Pdu where
  bytes := [0x45, 0, 0, 31, 0, 0, 0, 0, 64, 1, 102, 220, 10, 0, 0, 1, 10, 0, 0, 2,
    8, 0, 243, 250, 0, 1, 0, 2, 1, 2, 3]
  beyond := fun _ => 0
  fits := by decide

theorem ping_echoed : Echoed ⟨ping, {}⟩
    (icmpInFdf ⟨oneAddress.flows, []⟩ 0 (atIcmp ⟨ping, {}⟩)) :=
  (echo_service oneAddress ⟨oneAddress.flows, []⟩ 0 ⟨ping, {}⟩ (by decide +kernel) (by decide)).1
    (.inr (by decide +kernel))

end FinsStack.Net
