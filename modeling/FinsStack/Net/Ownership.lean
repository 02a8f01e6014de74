import FinsStack.Net.Icmp
import FinsStack.Net.Ipv4

/-!
# Who owns a frame when a handler of the network layer returns

A handler that is given a data frame has to free it or pass it on, once, and leave it alone
after that (`Owned`; a handler that ends the process owes nothing).  Four ways through the
handlers do not:

- `ipv4_in_fdf` returns on a wrong version, and after a fragment, with the frame in hand;
- `ipv4_out_fdf` does the same when no route matches;
- `icmp_in_fdf` does not return after `icmp_handle_error` for a host that is unreachable, and
  sends the frame a second time.

`owned_iff_good` says that there are no others.
-/

namespace FinsStack.Net

/-! ### Owned logs -/

def Owned (ops : List FrameOp) : Prop := .exit ∈ ops ∨ Linear ops
deriving Decidable

@[simp] theorem owned_use {ops : List FrameOp} : Owned (.use :: ops) ↔ Owned ops := by
  simp [Owned, linear_use]

@[simp] theorem owned_read {ops : List FrameOp} {pos n : Nat} :
    Owned (.read pos n :: ops) ↔ Owned ops := by
  simp [Owned, linear_read]

@[simp] theorem owned_free : Owned [.free] := .inr linear_free

@[simp] theorem owned_exit : Owned [.exit] := .inl List.mem_cons_self

@[simp] theorem not_owned_nil : ¬ Owned [] := by
  simp [Owned, not_linear_nil]

variable (flows : List ModuleFlow) (md : IcmpData) (upper : UInt16) (ff : DataFrame)

@[simp] theorem owned_sendOrFree (flow : Nat) (pdu : List UInt8)
    (m : Metadata) : Owned (sendOrFree flows flow pdu m) :=
  .inr (linear_sendOrFree flows flow pdu m)

theorem exit_not_mem_sendOrFree (flow : Nat) (pdu : List UInt8)
    (m : Metadata) : .exit ∉ sendOrFree flows flow pdu m := by
  simp only [sendOrFree]
  split <;> simp

theorem not_owned_append_sendOrFree {ops : List FrameOp} (h : Owned ops) (hexit : .exit ∉ ops)
    (flows : List ModuleFlow) (flow : Nat) (pdu : List UInt8) (m : Metadata) :
    ¬ Owned (ops ++ sendOrFree flows flow pdu m) := by
  have hlinear : Linear ops := h.resolve_left hexit
  rintro (hmem | hlin)
  · rcases List.mem_append.mp hmem with hmem | hmem
    · exact hexit hmem
    · exact exit_not_mem_sendOrFree flows flow pdu m hmem
  · exact Lib.not_once_append hlinear (by simp [sendOrFree]) hlin

/-! ### The helpers consume the frame -/

theorem owned_ipv4SendFdfIn (header : Ip4Header) (ff : DataFrame) :
    Owned (ipv4SendFdfIn flows header ff) := by
  simp only [ipv4SendFdfIn]
  split_ifs <;> simp

theorem owned_ipv4Loopback (fresh : Nat → UInt8) (ff : DataFrame)
    (r : OutRequest) : Owned (ipv4Loopback flows fresh ff r) := by
  simp only [ipv4Loopback]
  split_ifs <;> simp

theorem owned_ipv4SendFdfOut (r : OutRequest)
    (address : UInt32) (ifIndex : Int) :
    Owned (ipv4SendFdfOut flows ff r address ifIndex) := by
  simp [ipv4SendFdfOut]

theorem owned_icmpHandleError
    (dataLen : UInt32) (paramId : IcmpError) :
    Owned (icmpHandleError md upper ff dataLen paramId).ops := by
  simp only [icmpHandleError]
  split_ifs
  · simp
  · simp
  · split
    · simp
    · split <;> simp
  · simp
  · simp
  · simp

theorem owned_icmpPingReply (dataLen : UInt32) :
    Owned (icmpPingReply md ff dataLen).ops := by
  simp only [icmpPingReply]
  split <;> simp

/-! ### When the handlers own up -/

/-- The frames `ipv4_in_fdf` gets rid of: of version 4, and not a fragment that passes all
    tests. -/
def InOwned (md : Ipv4Data) (p : Pdu) : Prop :=
  (ip4Header p).version = IP4_VERSION
    ∧ (IP4_MIN_HLEN ≤ (ip4Header p).headerLength.toNat → PassesTests md p →
        Unfragmented (ip4Header p))

def OutOwned (md : Ipv4Data) (m : Metadata) : Prop :=
  ∀ r, outRequest m = some r → ∃ route ∈ md.routeList, ipv4RouteDstTest route r.dstIp = true

structure IcmpAccepted (ff : DataFrame) : Prop where
  length : ICMP_HEADER_SIZE ≤ (icmpLen ff.pdu).toNat
  protocol : ff.metaData.recvProtocol = some ICMP_PT_ICMP
  verifies : icmpVerifies ff.pdu = true

/-- The process ends in `icmp_handle_error`: the packet quotes a frame of `sent_list` and came
    without a source or a TTL in its metadata (a frame that looped back has no TTL). -/
structure ErrorExits (md : IcmpData) (upper : UInt16) (ff : DataFrame) (dataLen : UInt32) :
    Prop where
  length : IPV4_MIN_HLEN ≤ dataLen.toNat
  protocol : (ff.pdu.byteAt (quotedPos + 9)).toUInt32 = ICMP_PT_ICMP
  fragment : FRAG_SIZE ≤ (dataLen - ipv4Hlen ff.pdu quotedPos).toUInt16
  quoted : ∃ sent ∈ md.sentList, icmpSentMatchTest
    ((dataLen - ipv4Hlen ff.pdu quotedPos).toUInt16.toNat + 65536 * upper.toNat)
    (fun i => ff.pdu.byteAt (quotedPos + IPV4_MIN_HLEN + i)) sent = true
  metaData : ff.metaData.recvSrcIpv4 = none ∨ ff.metaData.recvTtl = none

def IcmpOwned (md : IcmpData) (upper : UInt16) (ff : DataFrame) : Prop :=
  IcmpAccepted ff → icmpType ff.pdu = ICMP_TYPE_DESTUNREACH →
    icmpCode ff.pdu = ICMP_CODE_HOSTUNREACH →
      ErrorExits md upper ff (icmpLen ff.pdu - UInt32.ofNat ICMP_HEADER_SIZE)

theorem owned_ipv4InFdf_iff (md : Ipv4Data) (ff : DataFrame) :
    Owned (ipv4InFdf md ff) ↔ InOwned md ff.pdu := by
  have hcases := ipv4InFdf_cases md ff
  generalize ipv4InFdf md ff = ops at hcases
  cases hcases with
  | version hv => simp [InOwned, hv]
  | short hv hl =>
    have hl' : ¬ IP4_MIN_HLEN ≤ (ip4Header ff.pdu).headerLength.toNat := Nat.not_le.mpr hl
    simp [InOwned, hv, hl']
  | dropped hv hl hp => simp [InOwned, hv, hp]
  | fragment hv hl hp hf => simp [InOwned, hv, hl, hp, hf]
  | whole hv hl hp hf => simp [InOwned, hv, hf, owned_ipv4SendFdfIn]

theorem owned_ipv4OutFdf_iff (md : Ipv4Data) (fresh : Nat → UInt8) (ff : DataFrame) :
    Owned (ipv4OutFdf md fresh ff) ↔ OutOwned md ff.metaData := by
  simp only [ipv4OutFdf, OutOwned, owned_use]
  cases hreq : outRequest ff.metaData with
  | none => simp
  | some r =>
    simp only [Option.some.injEq, forall_eq']
    rw [← List.find?_isSome]
    cases hroute : md.routeList.find? fun route => ipv4RouteDstTest route r.dstIp with
    | none => simp
    | some route =>
      simp only [Option.isSome_some, iff_true]
      split
      · exact owned_ipv4Loopback md.flows fresh ff r
      · exact owned_ipv4SendFdfOut md.flows ff r _ _

theorem exit_mem_icmpHandleError_iff
    (dataLen : UInt32) (paramId : IcmpError) :
    .exit ∈ (icmpHandleError md upper ff dataLen paramId).ops
      ↔ ErrorExits md upper ff dataLen := by
  have hsend := exit_not_mem_sendOrFree
  simp only [icmpHandleError]
  by_cases hlen : dataLen.toNat < IPV4_MIN_HLEN
  · rw [if_pos hlen]
    exact iff_of_false (hsend _ _ _ _) fun h => absurd h.length (Nat.not_le.mpr hlen)
  rw [if_neg hlen]
  by_cases hicmp : (ff.pdu.byteAt (quotedPos + 9)).toUInt32 = ICMP_PT_ICMP
  · rw [if_pos hicmp]
    by_cases hfrag : (dataLen - ipv4Hlen ff.pdu quotedPos).toUInt16 < FRAG_SIZE
    · rw [if_pos hfrag]
      apply iff_of_false
      · simp [hsend]
      · exact fun h => absurd h.fragment (UInt16.not_le.mpr hfrag)
    rw [if_neg hfrag]
    cases hfind : md.sentList.findIdx? _ with
    | none =>
      apply iff_of_false
      · simp [hsend]
      · intro h
        obtain ⟨sent, hmem, hmatch⟩ := h.quoted
        have hno := List.findIdx?_eq_none_iff.mp hfind sent hmem
        rw [hmatch] at hno
        cases hno
    | some i =>
      obtain ⟨hi, hmatch, _⟩ := List.findIdx?_eq_some_iff_getElem.mp hfind
      have hquoted := List.getElem_mem hi
      have hget : md.sentList[i]? = some md.sentList[i] := List.getElem?_eq_getElem hi
      have hexits : ff.metaData.recvSrcIpv4 = none ∨ ff.metaData.recvTtl = none →
          ErrorExits md upper ff dataLen :=
        fun hmeta => ⟨Nat.le_of_not_lt hlen, hicmp, UInt16.not_lt.mp hfrag,
          ⟨_, hquoted, hmatch⟩, hmeta⟩
      cases hsrc : ff.metaData.recvSrcIpv4 with
      | none => exact iff_of_true (by simp) (hexits (.inl hsrc))
      | some src =>
        cases httl : ff.metaData.recvTtl with
        | none => exact iff_of_true (by simp) (hexits (.inr httl))
        | some ttl =>
          apply iff_of_false
          · simp [hget, hsend]
          · intro h
            rcases h.metaData with hnone | hnone
            · rw [hsrc] at hnone
              cases hnone
            · rw [httl] at hnone
              cases hnone
  · rw [if_neg hicmp]
    apply iff_of_false
    · split_ifs <;> simp [hsend]
    · exact fun h => hicmp h.protocol

theorem owned_icmpSwitch_iff
    (dataLen : UInt32) :
    Owned (icmpSwitch md upper ff dataLen).ops
      ↔ (icmpType ff.pdu = ICMP_TYPE_DESTUNREACH → icmpCode ff.pdu = ICMP_CODE_HOSTUNREACH →
          ErrorExits md upper ff dataLen) := by
  simp only [icmpSwitch]
  by_cases hhost : icmpType ff.pdu = ICMP_TYPE_DESTUNREACH
      ∧ icmpCode ff.pdu = ICMP_CODE_HOSTUNREACH
  · rw [if_pos hhost, ← exit_mem_icmpHandleError_iff md upper ff dataLen .destUnreach]
    simp only [hhost.1, hhost.2, forall_const]
    split
    · rename_i hexit
      exact iff_of_true (.inl hexit) hexit
    · rename_i hexit
      have howned := owned_icmpHandleError md upper ff dataLen .destUnreach
      exact iff_of_false (not_owned_append_sendOrFree howned hexit _ _ _ _) hexit
  · rw [if_neg hhost]
    apply iff_of_true
    · split_ifs
      · exact owned_icmpHandleError md upper ff dataLen .destUnreach
      · exact owned_icmpPingReply md ff dataLen
      · exact owned_icmpHandleError md upper ff dataLen .ttl
      · exact owned_sendOrFree _ _ _ _
    · exact fun htype hcode => absurd ⟨htype, hcode⟩ hhost

theorem errorExits_withIcmpMeta {md : IcmpData} {upper : UInt16} {ff : DataFrame}
    {dataLen : UInt32} :
    ErrorExits md upper (withIcmpMeta ff) dataLen ↔ ErrorExits md upper ff dataLen :=
  ⟨fun h => ⟨h.length, h.protocol, h.fragment, h.quoted, h.metaData⟩,
    fun h => ⟨h.length, h.protocol, h.fragment, h.quoted, h.metaData⟩⟩

theorem owned_icmpInFdf_iff :
    Owned (icmpInFdf md upper ff).ops ↔ IcmpOwned md upper ff := by
  simp only [icmpInFdf, IcmpOwned]
  by_cases hlen : (icmpLen ff.pdu).toNat < ICMP_HEADER_SIZE
  · rw [if_pos hlen]
    apply iff_of_true
    · simp
    · exact fun h => absurd h.length (Nat.not_le.mpr hlen)
  rw [if_neg hlen]
  cases hproto : ff.metaData.recvProtocol with
  | none =>
    apply iff_of_true
    · simp
    · intro h
      have hsome := h.protocol
      rw [hproto] at hsome
      cases hsome
  | some protocol =>
    by_cases hne : protocol ≠ ICMP_PT_ICMP
    · simp only [if_pos hne]
      apply iff_of_true
      · simp
      · intro h
        have hsome := h.protocol
        rw [hproto] at hsome
        exact absurd (Option.some.inj hsome) hne
    simp only [if_neg hne]
    by_cases hsum : icmpVerifies ff.pdu = false
    · rw [if_pos hsum]
      apply iff_of_true
      · simp
      · intro h
        have htrue := h.verifies
        rw [hsum] at htrue
        cases htrue
    rw [if_neg hsum]
    have haccepted : IcmpAccepted ff :=
      ⟨Nat.le_of_not_lt hlen, by rw [hproto, not_not.mp hne], by simpa using hsum⟩
    have hswitch := owned_icmpSwitch_iff md upper (withIcmpMeta ff)
      (icmpLen ff.pdu - UInt32.ofNat ICMP_HEADER_SIZE)
    rw [errorExits_withIcmpMeta] at hswitch
    simp only [IcmpResult.after, List.cons_append, List.nil_append, owned_use, owned_read,
      haccepted, forall_const]
    exact hswitch

/-! ### The three handlers -/

inductive HandlerCall where
  | ipv4In (md : Ipv4Data) (ff : DataFrame)
  | ipv4Out (md : Ipv4Data) (fresh : Nat → UInt8) (ff : DataFrame)
  | icmpIn (md : IcmpData) (upper : UInt16) (ff : DataFrame)

def HandlerCall.ops : HandlerCall → List FrameOp
  | ipv4In md ff => ipv4InFdf md ff
  | ipv4Out md fresh ff => ipv4OutFdf md fresh ff
  | icmpIn md upper ff => (icmpInFdf md upper ff).ops

def HandlerCall.Good : HandlerCall → Prop
  | ipv4In md ff => InOwned md ff.pdu
  | ipv4Out md _ ff => OutOwned md ff.metaData
  | icmpIn md upper ff => IcmpOwned md upper ff

/-- **Frame ownership is linear** exactly for the good calls. -/
theorem owned_iff_good (c : HandlerCall) : Owned c.ops ↔ c.Good := by
  cases c with
  | ipv4In md ff => exact owned_ipv4InFdf_iff md ff
  | ipv4Out md fresh ff => exact owned_ipv4OutFdf_iff md fresh ff
  | icmpIn md upper ff => exact owned_icmpInFdf_iff md upper ff

/-- A host-unreachable packet of 28 bytes with a zero checksum field. -/
def hostUnreachable : DataFrame where
  pdu :=
    { bytes := [0x45, 0, 0, 28, 0, 0, 0, 0, 64, 1, 0, 0, 10, 0, 0, 1, 10, 0, 0, 2,
        3, 1, 0, 0, 0, 0, 0, 0]
      beyond := fun _ => 0
      fits := by decide }
  metaData := { recvProtocol := some 1 }

/-- The frame is passed to the daemon twice. -/
theorem hostUnreachable_passed_twice :
    ¬ Owned (HandlerCall.icmpIn
      { flows := List.replicate 4 { linkId := 1, link := some 1 }, sentList := [] } 0
      hostUnreachable).ops := by
  decide +kernel

end FinsStack.Net
