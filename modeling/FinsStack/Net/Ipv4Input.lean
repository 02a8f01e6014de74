import FinsStack.Lib.OnesSum
import FinsStack.Net.Ipv4

/-!
# What IPv4 hands to TCP and UDP

`Deliverable` is the packet that has to be handed on, in terms of the bytes of the PDU: the
header is complete and its one's-complement sum is all ones, the lengths nest, and the packet
is alive, whole and for this host.  The handler decides by the same facts
(`ipv4Checksum_eq_zero_iff` for the checksum, which it sums in host order), but

- it reads the fixed header and sums the declared one before it compares any length,
- it takes the length of the PDU as an `int`, and
- it copies the payload from offset 20, whatever the header length.

`inputCorrect_iff` says that these are the only deviations.
-/

namespace FinsStack.Net

open Lib

/-! ### The checksum in network order -/

def hostSum (b : Nat → UInt8) : Nat → Nat → Nat
  | n + 2, pos => hostWord b pos + hostSum b n (pos + 2)
  | _, _ => 0

theorem ipv4ChecksumLoop_eq (b : Nat → UInt8) (n pos sum : Nat) :
    ipv4ChecksumLoop b n pos sum = sum + hostSum b n pos := by
  fun_induction ipv4ChecksumLoop b n pos sum with
  | case1 n pos sum ih =>
    rw [ih, hostSum, Nat.add_assoc]
  | case2 n pos sum hn =>
    rw [hostSum]
    · rfl
    · exact hn

theorem hostSum_le (b : Nat → UInt8) (n pos : Nat) : hostSum b n pos ≤ 65535 * (n / 2) := by
  fun_induction hostSum b n pos with
  | case1 n pos ih =>
    have hlow := (b pos).toNat_lt
    have hhigh := (b (pos + 1)).toNat_lt
    simp only [hostWord]
    omega
  | case2 => exact Nat.zero_le _

variable {flow n pos : Nat} {p : Pdu} {flows : List ModuleFlow} {pdu : List UInt8} {ff : DataFrame}
  {md : Ipv4Data}

/-- **Swapping the bytes of every word multiplies the sum by 256**, modulo 2^16 - 1; the sums
    are zero together, since `k` is a sum of low bytes. -/
theorem hostSum_swapped {b : Nat → UInt8} {l : List UInt8} (heven : l.length % 2 = 0)
    (hl : ∀ i (h : i < l.length), b (pos + i) = l.get ⟨i, h⟩) :
    ∃ k ≤ wordSum l, 256 * hostSum b l.length pos = wordSum l + 65535 * k := by
  induction l using wordSum.induct generalizing pos with
  | case1 x y rest ih =>
    have hrest : rest.length % 2 = 0 := by
      simp only [List.length_cons] at heven
      omega
    have htail : ∀ i (h : i < rest.length), b (pos + 2 + i) = rest.get ⟨i, h⟩ := by
      intro i h
      have hi := hl (i + 2) (by simp only [List.length_cons]; omega)
      rw [show pos + 2 + i = pos + (i + 2) by omega, hi]
      rfl
    obtain ⟨k, hle, hk⟩ := ih hrest htail
    have hx : b pos = x := hl 0 (by simp)
    have hy : b (pos + 1) = y := hl 1 (by simp)
    refine ⟨k + y.toNat, ?_, ?_⟩
    · rw [wordSum_pair]
      omega
    · simp only [List.length_cons, hostSum, hostWord, hx, hy, wordSum_pair]
      omega
  | case2 x => simp at heven
  | case3 => exact ⟨0, Nat.le_refl 0, rfl⟩

/-- The two folds of `ipv4_checksum` fold the carries of a sum of header words completely. -/
theorem twice_folded (h : n < 65536 * 65534) :
    (n / 65536 + n % 65536 + (n / 65536 + n % 65536) / 65536) % 65536 = onesFold n := by
  rw [← onesFold_round n, Nat.add_comm (n / 65536)]
  have hfold : n % 65536 + n / 65536 < 131070 := by omega
  generalize n % 65536 + n / 65536 = m at hfold ⊢
  by_cases hlow : m < 65536
  · rw [onesFold_of_lt hlow]
    omega
  · have hcarry : m / 65536 = 1 := by omega
    rw [onesFold_pos (by omega), hcarry]
    omega

theorem onesFold_eq_all_ones_iff (n : Nat) : onesFold n = 65535 ↔ 0 < n ∧ n % 65535 = 0 := by
  rcases Nat.eq_zero_or_pos n with rfl | hn
  · simp
  · rw [onesFold_pos hn]
    omega

theorem complement_eq_zero_iff (n : Nat) : ~~~ UInt16.ofNat n = 0 ↔ n % 65536 = 65535 := by
  rw [← UInt16.toNat_inj]
  simp
  omega

/-- **The header checksum verifies** exactly when the words of the header, in network order,
    sum to all ones. -/
theorem ipv4Checksum_eq_zero_iff (heven : n % 2 = 0) (hn : n ≤ 60) (hlen : n ≤ p.bytes.length) :
    ipv4Checksum p.byteAt n = 0 ↔ onesFold (wordSum (p.bytes.take n)) = 65535 := by
  have htake : (p.bytes.take n).length = n := List.length_take_of_le hlen
  have hbytes : ∀ i (h : i < (p.bytes.take n).length),
      p.byteAt (0 + i) = (p.bytes.take n).get ⟨i, h⟩ := by
    intro i h
    have hi : 0 + i < p.bytes.length := by omega
    rw [Pdu.byteAt_of_lt hi]
    simp
  have heven' : (p.bytes.take n).length % 2 = 0 := by rwa [htake]
  obtain ⟨k, hk, hswap⟩ := hostSum_swapped heven' hbytes
  rw [htake] at hswap
  have hle := hostSum_le p.byteAt n 0
  simp only [ipv4Checksum, ipv4ChecksumLoop_eq, Nat.zero_add]
  rw [complement_eq_zero_iff, twice_folded (by omega), onesFold_eq_all_ones_iff,
    onesFold_eq_all_ones_iff]
  omega

/-! ### The packets to hand on -/

def Ours (md : Ipv4Data) (dst : UInt32) : Prop :=
  dst = IPV4_ADDR_ANY_IP ∨ dst = IPV4_ADDR_EVERY_IP
    ∨ ∃ addr ∈ md.addrList, addr.ip = some dst ∨ addr.bdc = some dst

theorem foreign_eq_false_iff (md : Ipv4Data) (dst : UInt32) :
    md.foreign dst = false ↔ Ours md dst := by
  simp only [Ipv4Data.foreign, Ours, addrIpv4Test, addrBdcv4Test, Bool.and_eq_false_iff,
    bne_eq_false_iff_eq, Option.isNone_eq_false_iff, List.find?_isSome, beq_iff_eq]
  constructor
  · rintro (((hany | hevery) | ⟨addr, hmem, hip⟩) | ⟨addr, hmem, hbdc⟩)
    · exact .inl hany
    · exact .inr (.inl hevery)
    · exact .inr (.inr ⟨addr, hmem, .inl hip⟩)
    · exact .inr (.inr ⟨addr, hmem, .inr hbdc⟩)
  · rintro (hany | hevery | ⟨addr, hmem, hip | hbdc⟩)
    · exact .inl (.inl (.inl hany))
    · exact .inl (.inl (.inr hevery))
    · exact .inl (.inr ⟨addr, hmem, hip⟩)
    · exact .inr ⟨addr, hmem, hbdc⟩

structure Deliverable (md : Ipv4Data) (p : Pdu) : Prop where
  version : (ip4Header p).version = IP4_VERSION
  minimum : 20 ≤ (ip4Header p).headerLength.toNat
  maximum : (ip4Header p).headerLength.toNat ≤ 60
  complete : (ip4Header p).headerLength.toNat ≤ p.bytes.length
  verifies : onesFold
    (wordSum (p.bytes.take (ip4Header p).headerLength.toNat)) = 65535
  header_le : (ip4Header p).headerLength.toNat ≤ (ip4Header p).packetLength.toNat
  packet_le : (ip4Header p).packetLength.toNat ≤ p.bytes.length
  alive : 0 < (ip4Header p).ttl.toNat
  ours : Ours md (ip4Header p).destination
  moreFragments : (ip4Header p).flags &&& IP4_MF = 0
  offset : (ip4Header p).fragmentationOffset = 0

/-- The bytes `[header_length, packet_length)` of the packet. -/
def payload (p : Pdu) : List UInt8 :=
  (p.bytes.take (ip4Header p).packetLength.toNat).drop (ip4Header p).headerLength.toNat

def payloadFlow (protocol : UInt8) : Option Nat :=
  if protocol = IP4_PT_TCP then some IPV4_FLOW_TCP
  else if protocol = IP4_PT_UDP then some IPV4_FLOW_UDP
  else none

def InputCorrect (md : Ipv4Data) (ff : DataFrame) : Prop :=
  (∀ pos n, .read pos n ∈ ipv4InFdf md ff → pos + n ≤ ff.pdu.bytes.length)
    ∧ ∀ flow pdu, flow = IPV4_FLOW_TCP ∨ flow = IPV4_FLOW_UDP →
      ((∃ metaData, .offer flow pdu metaData ∈ ipv4InFdf md ff)
        ↔ Deliverable md ff.pdu ∧ payloadFlow (ip4Header ff.pdu).protocol = some flow
          ∧ pdu = payload ff.pdu)

/-- The PDU has the header the handler reads, the copy from offset 20 finds the payload, and
    the length is not negative as an `int`. -/
structure InputGood (md : Ipv4Data) (p : Pdu) : Prop where
  fixed : IP4_MIN_HLEN ≤ p.bytes.length
  declared : (ip4Header p).version = IP4_VERSION →
    IP4_MIN_HLEN ≤ (ip4Header p).headerLength.toNat →
      (ip4Header p).headerLength.toNat ≤ p.bytes.length
  payload : Deliverable md p → (payloadFlow (ip4Header p).protocol).isSome = true →
    p.bytes.length < 2 ^ 31
      ∧ (p.bytes.drop IP4_MIN_HLEN).take
          ((ip4Header p).packetLength.toNat - (ip4Header p).headerLength.toNat) = payload p

/-! ### What is read and offered -/

theorem headerLength_le (p : Pdu) : (ip4Header p).headerLength.toNat ≤ 60 := by
  have hlow : (p.byteAt 0 &&& 0xf).toNat ≤ 15 := by
    rw [UInt8.toNat_and]
    exact Nat.and_le_right
  simp only [ip4Header, UInt8.toNat_shiftLeft, Nat.shiftLeft_eq]
  have hmod := Nat.mod_le ((p.byteAt 0 &&& 0xf).toNat * 2 ^ ((2 : UInt8).toNat % 8)) (2 ^ 8)
  have htwo : (2 : UInt8).toNat % 8 = 2 := rfl
  rw [htwo] at hmod ⊢
  omega

theorem headerLength_even (p : Pdu) : (ip4Header p).headerLength.toNat % 2 = 0 := by
  have htwo : (2 : UInt8).toNat % 8 = 2 := rfl
  simp only [ip4Header, UInt8.toNat_shiftLeft, Nat.shiftLeft_eq, htwo]
  omega

theorem mem_sendOrFree_offer {flow' : Nat} {pdu' : List UInt8} {m m' : Metadata} :
    .offer flow pdu m ∈ sendOrFree flows flow' pdu' m' ↔ flow = flow' ∧ pdu = pdu' ∧ m = m' := by
  simp only [sendOrFree]
  split <;> simp

theorem not_mem_sendOrFree_read {m : Metadata} : .read pos n ∉ sendOrFree flows flow pdu m := by
  simp only [sendOrFree]
  split <;> simp

theorem mem_ipv4SendFdfIn_read {header : Ip4Header}
    (h : .read pos n ∈ ipv4SendFdfIn flows header ff) :
    header.headerLength.toNat ≤ header.packetLength.toNat ∧ pos = IP4_MIN_HLEN
      ∧ n = header.packetLength.toNat - header.headerLength.toNat := by
  simp only [ipv4SendFdfIn] at h
  split at h
  · simp at h
  · rename_i hlen
    have hle := Nat.le_of_not_lt hlen
    split_ifs at h with hi ht hu
    · simp [not_mem_sendOrFree_read] at h
    · simp only [List.mem_cons, FrameOp.read.injEq, reduceCtorEq,
        not_mem_sendOrFree_read, or_false] at h
      exact ⟨hle, h⟩
    · simp only [List.mem_cons, FrameOp.read.injEq, reduceCtorEq,
        not_mem_sendOrFree_read, or_false] at h
      exact ⟨hle, h⟩
    · simp at h

theorem mem_ipv4SendFdfIn_offer {header : Ip4Header}
    (hflow : flow = IPV4_FLOW_TCP ∨ flow = IPV4_FLOW_UDP) :
    (∃ m, .offer flow pdu m ∈ ipv4SendFdfIn flows header ff)
      ↔ header.headerLength.toNat ≤ header.packetLength.toNat
        ∧ payloadFlow header.protocol = some flow
        ∧ pdu = ff.pdu.slice IP4_MIN_HLEN
            (header.packetLength.toNat - header.headerLength.toNat) := by
  simp only [ipv4SendFdfIn]
  split
  · rename_i hlen
    simp [Nat.not_le.mpr hlen]
  · rename_i hlen
    have hle := Nat.le_of_not_lt hlen
    split_ifs with hi ht hu
    · have hflow' : flow ≠ IPV4_FLOW_ICMP := by
        rcases hflow with rfl | rfl <;> decide
      have hnone : payloadFlow header.protocol = none := by
        rw [hi]
        rfl
      simp [mem_sendOrFree_offer, hflow', hnone]
    · simp [mem_sendOrFree_offer, payloadFlow, ht, hle, eq_comm]
    · have hudp : payloadFlow header.protocol = some IPV4_FLOW_UDP := by
        rw [hu]
        rfl
      simp [mem_sendOrFree_offer, hudp, hle, eq_comm]
    · simp [payloadFlow, ht, hu]

/-! ### The handler and the packets it has to hand on -/

theorem Deliverable.passes (h : Deliverable md p) (hlen : p.bytes.length < 2 ^ 31) :
    PassesTests md p where
  checksum :=
    (ipv4Checksum_eq_zero_iff (headerLength_even p) h.maximum h.complete).mpr h.verifies
  length := by
    have hle := h.packet_le
    rw [Pdu.len, if_pos hlen]
    omega
  alive := by
    intro hzero
    have halive := h.alive
    rw [hzero] at halive
    exact absurd halive (by decide)
  ours := (foreign_eq_false_iff md _).mpr h.ours
  flags := by
    intro hboth
    have hmf : (ip4Header p).flags &&& IP4_MF = 0 := h.moreFragments
    have hand : ((ip4Header p).flags &&& (IP4_DF ||| IP4_MF)) &&& IP4_MF
        = (ip4Header p).flags &&& IP4_MF := by
      rw [UInt16.and_assoc]
      rfl
    rw [hboth, hmf] at hand
    exact absurd hand (by decide)

theorem Deliverable.unfragmented (h : Deliverable md p) : Unfragmented (ip4Header p) := by
  simp only [Unfragmented, h.moreFragments, h.offset]
  rfl

theorem PassesTests.deliverable (h : PassesTests md p) (hv : (ip4Header p).version = IP4_VERSION)
    (hl : IP4_MIN_HLEN ≤ (ip4Header p).headerLength.toNat)
    (hin : (ip4Header p).headerLength.toNat ≤ p.bytes.length)
    (hle : (ip4Header p).headerLength.toNat ≤ (ip4Header p).packetLength.toNat)
    (hf : Unfragmented (ip4Header p)) : Deliverable md p ∧ p.bytes.length < 2 ^ 31 := by
  have hlen := h.length
  have hfits := p.fits
  -- a negative length would be below every packet length
  have hshort : p.bytes.length < 2 ^ 31 := by
    by_contra hlong
    rw [Pdu.len, if_neg hlong] at hlen
    omega
  rw [Pdu.len, if_pos hshort] at hlen
  obtain ⟨hmf, hoff⟩ := UInt16.or_eq_zero_iff.mp hf
  refine ⟨⟨hv, hl, headerLength_le p, hin, ?_, hle, by omega, ?_, ?_, hmf, hoff⟩, hshort⟩
  · exact (ipv4Checksum_eq_zero_iff (headerLength_even p) (headerLength_le p) hin).mp h.checksum
  · apply Nat.pos_of_ne_zero
    intro hzero
    exact h.alive (UInt8.toNat_inj.mp hzero)
  · exact (foreign_eq_false_iff md _).mp h.ours

theorem offer_iff (hdecl : (ip4Header ff.pdu).version = IP4_VERSION →
      IP4_MIN_HLEN ≤ (ip4Header ff.pdu).headerLength.toNat →
        (ip4Header ff.pdu).headerLength.toNat ≤ ff.pdu.bytes.length)
    (hflow : flow = IPV4_FLOW_TCP ∨ flow = IPV4_FLOW_UDP) :
    (∃ m, .offer flow pdu m ∈ ipv4InFdf md ff)
      ↔ (Deliverable md ff.pdu ∧ ff.pdu.bytes.length < 2 ^ 31)
        ∧ payloadFlow (ip4Header ff.pdu).protocol = some flow
        ∧ pdu = (ff.pdu.bytes.drop IP4_MIN_HLEN).take
            ((ip4Header ff.pdu).packetLength.toNat - (ip4Header ff.pdu).headerLength.toNat) := by
  have hslice : Deliverable md ff.pdu →
      ff.pdu.slice IP4_MIN_HLEN
          ((ip4Header ff.pdu).packetLength.toNat - (ip4Header ff.pdu).headerLength.toNat)
        = (ff.pdu.bytes.drop IP4_MIN_HLEN).take
          ((ip4Header ff.pdu).packetLength.toNat - (ip4Header ff.pdu).headerLength.toNat) := by
    intro h
    have hmin := h.minimum
    have hle := h.packet_le
    have hle' := h.header_le
    apply Pdu.slice_eq
    simp only [IP4_MIN_HLEN]
    omega
  constructor
  · intro hmem
    have hcases := ipv4InFdf_cases md ff
    generalize ipv4InFdf md ff = ops at hcases hmem
    cases hcases with
    | version hv | short hv hl | dropped hv hl hp | fragment hv hl hp hf => simp at hmem
    | whole hv hl hp hf =>
      simp only [List.mem_cons, reduceCtorEq, false_or] at hmem
      obtain ⟨hle, hproto, hpdu⟩ := (mem_ipv4SendFdfIn_offer hflow).mp hmem
      have hd := hp.deliverable hv hl (hdecl hv hl) hle hf
      exact ⟨hd, hproto, hpdu.trans (hslice hd.1)⟩
  · rintro ⟨⟨hd, hlen⟩, hproto, rfl⟩
    have hcases := ipv4InFdf_cases md ff
    generalize ipv4InFdf md ff = ops at hcases
    cases hcases with
    | version hv => exact absurd hd.version hv
    | short hv hl => exact absurd hd.minimum (Nat.not_le.mpr hl)
    | dropped hv hl hp => exact absurd (hd.passes hlen) hp
    | fragment hv hl hp hf => exact absurd hd.unfragmented hf
    | whole hv hl hp hf =>
      simp only [List.mem_cons, reduceCtorEq, false_or]
      exact (mem_ipv4SendFdfIn_offer hflow).mpr ⟨hd.header_le, hproto, (hslice hd).symm⟩

theorem reads_inside_iff (md : Ipv4Data) (ff : DataFrame) :
    (∀ pos n, .read pos n ∈ ipv4InFdf md ff → pos + n ≤ ff.pdu.bytes.length)
      ↔ IP4_MIN_HLEN ≤ ff.pdu.bytes.length
        ∧ ((ip4Header ff.pdu).version = IP4_VERSION →
            IP4_MIN_HLEN ≤ (ip4Header ff.pdu).headerLength.toNat →
              (ip4Header ff.pdu).headerLength.toNat ≤ ff.pdu.bytes.length) := by
  have hcases := ipv4InFdf_cases md ff
  generalize ipv4InFdf md ff = ops at hcases
  constructor
  · intro hreads
    have hfixed : .read 0 IP4_MIN_HLEN ∈ ops := by
      cases hcases <;> simp
    have hdeclared : (ip4Header ff.pdu).version = IP4_VERSION →
        IP4_MIN_HLEN ≤ (ip4Header ff.pdu).headerLength.toNat →
          .read 0 (ip4Header ff.pdu).headerLength.toNat ∈ ops := by
      intro hv hl
      cases hcases with
      | version hv' => exact absurd hv hv'
      | short _ hl' => exact absurd hl (Nat.not_le.mpr hl')
      | dropped | fragment | whole => simp
    refine ⟨?_, fun hv hl => ?_⟩
    · simpa using hreads 0 _ hfixed
    · simpa using hreads 0 _ (hdeclared hv hl)
  · rintro ⟨hfixed, hdecl⟩ pos n hmem
    cases hcases with
    | version hv | short hv hl =>
      simp at hmem
      omega
    | dropped hv hl hp | fragment hv hl hp hf =>
      have hin := hdecl hv hl
      simp at hmem
      omega
    | whole hv hl hp hf =>
      have hin := hdecl hv hl
      simp only [List.mem_cons, reduceCtorEq, FrameOp.read.injEq, false_or] at hmem
      rcases hmem with h | h | h
      · omega
      · omega
      · obtain ⟨hle, rfl, rfl⟩ := mem_ipv4SendFdfIn_read h
        have hd := (hp.deliverable hv hl hin hle hf).1
        have hpkt := hd.packet_le
        omega

/-- **IPv4 input is correct exactly on good PDUs.** -/
theorem inputCorrect_iff (md : Ipv4Data) (ff : DataFrame) :
    InputCorrect md ff ↔ InputGood md ff.pdu := by
  constructor
  · rintro ⟨hreads, hoffers⟩
    obtain ⟨hfixed, hdecl⟩ := (reads_inside_iff md ff).mp hreads
    refine ⟨hfixed, hdecl, fun hd hsome => ?_⟩
    obtain ⟨flow, hproto⟩ := Option.isSome_iff_exists.mp hsome
    have hflow : flow = IPV4_FLOW_TCP ∨ flow = IPV4_FLOW_UDP := by
      simp only [payloadFlow] at hproto
      split_ifs at hproto with ht hu
      · exact .inl (Option.some.inj hproto).symm
      · exact .inr (Option.some.inj hproto).symm
    have hoffer := (hoffers flow (payload ff.pdu) hflow).mpr ⟨hd, hproto, rfl⟩
    obtain ⟨⟨_, hlen⟩, _, heq⟩ := (offer_iff hdecl hflow).mp hoffer
    exact ⟨hlen, heq.symm⟩
  · intro h
    refine ⟨(reads_inside_iff md ff).mpr ⟨h.fixed, h.declared⟩, fun flow pdu hflow => ?_⟩
    rw [offer_iff h.declared hflow]
    constructor
    · rintro ⟨⟨hd, _⟩, hproto, rfl⟩
      have hsome : (payloadFlow (ip4Header ff.pdu).protocol).isSome = true := by rw [hproto]; rfl
      exact ⟨hd, hproto, (h.payload hd hsome).2⟩
    · rintro ⟨hd, hproto, rfl⟩
      have hsome : (payloadFlow (ip4Header ff.pdu).protocol).isSome = true := by rw [hproto]; rfl
      obtain ⟨hlen, heq⟩ := h.payload hd hsome
      exact ⟨⟨hd, hlen⟩, hproto, heq.symm⟩

def optionsPdu : Pdu where
  bytes := [0x46, 0, 0, 28, 0, 0, 0, 0, 64, 17, 99, 205, 10, 0, 0, 1, 10, 0, 0, 2,
    1, 1, 1, 1, 1, 2, 3, 4]
  beyond := fun _ => 0
  fits := by decide

def oneAddress : Ipv4Data where
  flows := List.replicate 4 { linkId := 1, link := some 1 }
  addrList := [{ ifIndex := 1, ip := some 0x0a000002, bdc := none }]
  addrLoopback := none
  routeList := []

/-- UDP is handed the option word in the place of the payload. -/
theorem options_handed_up : ¬ InputCorrect oneAddress { pdu := optionsPdu, metaData := {} } := by
  intro h
  have hoffer : FrameOp.offer IPV4_FLOW_UDP [1, 1, 1, 1] ((ip4Header optionsPdu).recvMeta {})
      ∈ ipv4InFdf oneAddress { pdu := optionsPdu, metaData := {} } := by
    decide +kernel
  have hpayload := ((h.2 IPV4_FLOW_UDP _ (.inr rfl)).mp ⟨_, hoffer⟩).2.2
  exact absurd hpayload (by decide +kernel)

end FinsStack.Net
