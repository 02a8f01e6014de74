import FinsStack.Tcp.Module
import FinsStack.Tcp.Wire

/-!
# What arriving bytes are taken for

`tcp.c`, `tcp_in.c`.

`fdf_to_tcp` checks that a PDU holds the fixed header and trusts the data offset in it.  With
an offset below five or past the end of the PDU the lengths come out negative, and what is
copied, summed and delivered is not what arrived.

`tcp_process_options` skips an option that it does not know by one byte, and one that it
ignores by two, whatever the length byte says: what is inside of them is taken for options.
It also reads the length and the value of an option that is cut off.
-/

namespace FinsStack.Tcp

/-! ### Buffers -/

structure Access where
  size : Nat
  start : Int
  len : Nat
deriving DecidableEq, Repr

def Access.Inside (a : Access) : Prop := 0 ≤ a.start ∧ a.start + a.len ≤ a.size

def MAX_TCP_OPTIONS_BYTES : Nat := 40

/-- The two `memcpy` of `fdf_to_tcp`, each as it reads and as it writes.  The data go to a buffer
    of `data_len` bytes. -/
def parseAccesses (ff : Fdf) (seg : TcpSeg) : List Access :=
  (if 0 < seg.optLen then
    [⟨ff.pdu.length, MIN_TCP_HEADER_BYTES, seg.optLen.toNat⟩,
      ⟨MAX_TCP_OPTIONS_BYTES, 0, seg.optLen.toNat⟩] else []) ++
  if 0 < seg.dataLen then
    [⟨ff.pdu.length, MIN_TCP_HEADER_BYTES + seg.optLen, seg.dataLen.toNat⟩,
      ⟨seg.dataLen.toNat, 0, seg.dataLen.toNat⟩] else []

/-- The words that `tcp_seg_checksum` reads of the options and of the data, and the odd byte. -/
def checksumAccesses (seg : TcpSeg) : List Access :=
  (List.range ((seg.optLen.toNat + 1) / 2)).map (fun k => ⟨MAX_TCP_OPTIONS_BYTES, 2 * k, 2⟩) ++
  (List.range (seg.dataLen.toNat / 2)).map (fun k => ⟨seg.dataLen.toNat, 2 * k, 2⟩) ++
  if seg.dataLen % 2 = 1 then [⟨seg.dataLen.toNat, 2 * (seg.dataLen.toNat / 2 : Nat), 1⟩] else []

def deliveryAccesses (seg : TcpSeg) : List Access :=
  if seg.dataLen ≠ 0 then [⟨seg.dataLen.toNat, 0, seg.dataLen32.toNat⟩] else []

def tcpInFrame (s : TcpModule) (md : TcpData) (ff : Fdf) (rand : UInt32) : TcpModule :=
  match fdfToTcp ff with
  | some seg => tcpInFdf s md seg rand
  | none => s

structure ParsedRight (ff : Fdf) (seg : TcpSeg) : Prop where
  offset : MIN_TCP_HEADER_BYTES ≤ tcpHeaderBytes seg.flags
  fits : tcpHeaderBytes seg.flags ≤ ff.pdu.length
  optLen : seg.optLen = tcpHeaderBytes seg.flags - MIN_TCP_HEADER_BYTES
  options : seg.options = (ff.pdu.take (tcpHeaderBytes seg.flags)).drop MIN_TCP_HEADER_BYTES
  dataLen : seg.dataLen = ff.pdu.length - tcpHeaderBytes seg.flags
  data : seg.data = ff.pdu.drop (tcpHeaderBytes seg.flags)
  inside : ∀ a ∈ parseAccesses ff seg ++ checksumAccesses seg ++ deliveryAccesses seg, a.Inside

def FrameParsed (ff : Fdf) : Prop :=
  (fdfToTcp ff = none ∧ ∀ s md rand, tcpInFrame s md ff rand = s) ∨
    ∃ seg, fdfToTcp ff = some seg ∧ ParsedRight ff seg

/-- **When it is.**  The frame is rejected, or its data offset lies between the fixed header and
    the end, and an `int` holds the length of the data. -/
def OffsetFits (ff : Fdf) : Prop :=
  let hdr := tcpHeaderBytes (readBe16 ff.pdu 12)
  ff.pdu.length < MIN_TCP_HEADER_BYTES ∨ ff.protocol ≠ IPPROTO_TCP ∨
    MIN_TCP_HEADER_BYTES ≤ hdr ∧ hdr ≤ ff.pdu.length ∧ ff.pdu.length - hdr < 2 ^ 31

theorem fdfToTcp_eq_none {ff : Fdf} :
    fdfToTcp ff = none ↔ ff.pdu.length < MIN_TCP_HEADER_BYTES ∨ ff.protocol ≠ IPPROTO_TCP := by
  unfold fdfToTcp
  split
  · simp [*]
  · split
    · simp [*]
    · simp [*]

theorem accesses_inside {ff : Fdf} {seg : TcpSeg} {o n : Nat} (ho : seg.optLen = (4 * o : Nat))
    (hmax : o ≤ 10) (hn : seg.dataLen = n) (hlt : n < 2 ^ 31)
    (hpdu : ff.pdu.length = MIN_TCP_HEADER_BYTES + 4 * o + n) :
    ∀ a ∈ parseAccesses ff seg ++ checksumAccesses seg ++ deliveryAccesses seg, a.Inside := by
  have h32 : seg.dataLen32.toNat = n := by
    rw [TcpSeg.dataLen32, hn, Lib.ofInt_natCast, UInt32.toNat_ofNat']
    exact Nat.mod_eq_of_lt (by omega)
  simp only [parseAccesses, checksumAccesses, deliveryAccesses, h32, ho, hn, hpdu,
    Int.toNat_natCast,
    MIN_TCP_HEADER_BYTES, MAX_TCP_OPTIONS_BYTES, List.forall_mem_append, List.forall_mem_map,
    List.mem_range]
  refine ⟨⟨⟨?_, ?_⟩, ⟨?_, ?_⟩, ?_⟩, ?_⟩
  · split <;> simp [Access.Inside]
    omega
  · split <;> simp [Access.Inside]
    omega
  · intro k hk
    simp only [Access.Inside]
    omega
  · intro k hk
    simp only [Access.Inside]
    omega
  · split <;> simp [Access.Inside]
    omega
  · split <;> simp [Access.Inside]

theorem fdfToTcp_eq_some {ff : Fdf} {seg : TcpSeg} (h : fdfToTcp ff = some seg) :
    let hdr := tcpHeaderBytes seg.flags
    seg.flags = readBe16 ff.pdu 12 ∧ seg.optLen = (hdr : Int) - MIN_TCP_HEADER_BYTES ∧
      seg.options = (ff.pdu.drop MIN_TCP_HEADER_BYTES).take seg.optLen.toNat ∧
      seg.dataLen = (UInt32.ofNat ff.pdu.length - UInt32.ofNat hdr).toInt32.toInt ∧
      seg.data =
        (ff.pdu.drop (MIN_TCP_HEADER_BYTES + seg.optLen).toNat).take seg.dataLen.toNat := by
  unfold fdfToTcp at h
  split at h
  · cases h
  · split at h
    · cases h
    · cases h
      exact ⟨rfl, rfl, rfl, rfl, rfl⟩

theorem tcpHeaderBytes_words (flags : UInt16) : ∃ w ≤ 15, tcpHeaderBytes flags = 4 * w := by
  refine ⟨((flags &&& FLAG_DATAOFFSET) >>> 12).toNat, ?_, Nat.mul_comm _ _⟩
  have hlt := (flags &&& FLAG_DATAOFFSET).toNat_lt
  have hshift : UInt16.toNat 12 % 16 = 12 := rfl
  rw [UInt16.toNat_shiftRight, Nat.shiftRight_eq_div_pow, hshift]
  omega

theorem parsedRight_of_fits {ff : Fdf} {seg : TcpSeg} (h : fdfToTcp ff = some seg)
    (hmin : MIN_TCP_HEADER_BYTES ≤ tcpHeaderBytes seg.flags)
    (hfits : tcpHeaderBytes seg.flags ≤ ff.pdu.length)
    (hlt : ff.pdu.length - tcpHeaderBytes seg.flags < 2 ^ 31) : ParsedRight ff seg := by
  obtain ⟨-, hopt, hoptions, hdlen, hdata⟩ := fdfToTcp_eq_some h
  obtain ⟨w, hw, hwords⟩ := tcpHeaderBytes_words seg.flags
  obtain ⟨n, hn⟩ := Nat.exists_eq_add_of_le hfits
  rw [hn, dataLen_of_lengths _ (by omega)] at hdlen
  have hfive : MIN_TCP_HEADER_BYTES = 20 := rfl
  have hskip : (MIN_TCP_HEADER_BYTES + seg.optLen).toNat = tcpHeaderBytes seg.flags := by omega
  refine ⟨hmin, hfits, hopt, ?_, by omega, ?_,
    accesses_inside (o := w - 5) (n := n) (by omega) (by omega) hdlen (by omega) (by omega)⟩
  · rw [hoptions, hopt, List.drop_take]
    congr 1
    omega
  · rw [hdata, hskip, hdlen, Int.toNat_natCast, List.take_of_length_le]
    rw [List.length_drop]
    omega

/-- **Arriving segments are parsed right exactly if their data offset fits.** -/
theorem frameParsed_iff (ff : Fdf) : FrameParsed ff ↔ OffsetFits ff := by
  cases hseg : fdfToTcp ff with
  | none =>
    have hrej := fdfToTcp_eq_none.mp hseg
    refine ⟨fun _ => ?_, fun _ => .inl ⟨hseg, fun s md rand => by rw [tcpInFrame, hseg]⟩⟩
    exact hrej.elim .inl fun h => .inr (.inl h)
  | some seg =>
    have hflags := (fdfToTcp_eq_some hseg).1
    constructor
    · rintro (⟨hnone, -⟩ | ⟨seg', hseg', h⟩)
      · exact nomatch hseg.symm.trans hnone
      · obtain rfl : seg = seg' := Option.some.inj (hseg.symm.trans hseg')
        have hlt : seg.dataLen < 2 ^ 31 := by
          rw [(fdfToTcp_eq_some hseg).2.2.2.1]
          exact Int32.toInt_lt _
        rw [h.dataLen] at hlt
        refine .inr (.inr ⟨hflags ▸ h.offset, hflags ▸ h.fits, ?_⟩)
        rw [← hflags]
        omega
    · rintro (hshort | hproto | ⟨hmin, hfits, hlt⟩)
      · exact nomatch hseg.symm.trans (fdfToTcp_eq_none.mpr (.inl hshort))
      · exact nomatch hseg.symm.trans (fdfToTcp_eq_none.mpr (.inr hproto))
      · rw [← hflags] at hmin hfits hlt
        exact .inr ⟨seg, hseg, parsedRight_of_fits hseg hmin hfits hlt⟩

def longOffset : Fdf := ⟨IPPROTO_TCP, 1, 2, List.replicate 12 0 ++ 0xF0 :: List.replicate 7 0⟩

/-- Forty bytes of options are read behind the PDU, and `data_len` is negative. -/
theorem longOffset_not_parsed :
    (fdfToTcp longOffset).map (fun seg => (seg.optLen, seg.dataLen)) = some (40, -40) ∧
      ¬ FrameParsed longOffset := by
  have hflags : (fdfToTcp longOffset).map (fun seg => seg.flags) = some 0xF000 := by decide
  refine ⟨by decide, ?_⟩
  rintro (⟨hnone, -⟩ | ⟨seg, hseg, h⟩)
  · rw [hnone] at hflags
    cases hflags
  · rw [hseg, Option.map_some, Option.some.injEq] at hflags
    have hfits := h.fits
    rw [hflags] at hfits
    exact absurd hfits (by decide)

/-! ### Options -/

variable {area : List UInt8} {seg : TcpSeg} {i : Nat}

/-- The bytes that the loop of `tcp_process_options` reads from byte `i` on: a round reads those
    that it moves over. -/
def optionReads (area : List UInt8) : Nat → Nat → List Nat
  | 0, _ => []
  | fuel + 1, i =>
    if i < area.length then
      List.range' i (optStride area i) ++
        if optByte area i = 0 then [] else optionReads area fuel (i + optStride area i)
    else []

def tlvStride (area : List UInt8) (i : Nat) : Option Nat :=
  let len := (optByte area (i + 1)).toNat
  if optByte area i = 1 then some 1
  else if i + 1 < area.length ∧ 2 ≤ len ∧ i + len ≤ area.length then some len
  else none

/-- What an option of `n` bytes at byte `i` sets; an option of another size than its kind has
    sets nothing. -/
def tlvEffect (area : List UInt8) (i n : Nat) (c : TcpConn) : TcpConn :=
  match (optByte area i).toNat, n with
  | 2, 4 => optMss c (((optByte area (i + 2)).toUInt16 <<< 8) ||| (optByte area (i + 3)).toUInt16)
  | 3, 3 => optWs c (optByte area (i + 2))
  | 4, 2 => optSackPerm c
  | 8, 10 => optTs c
  | _, _ => c

/-- **The reference**: options of type, length and value, up to EOL. -/
def tlvOptions (area : List UInt8) : Nat → Nat → TcpConn → TcpConn
  | 0, _, c => c
  | fuel + 1, i, c =>
    if i < area.length ∧ optByte area i ≠ 0 then
      match tlvStride area i with
      | some n => tlvOptions area fuel (i + n) (tlvEffect area i n c)
      | none => c
    else c

/-- The options are read within their bytes, in no more rounds than there are bytes, and have the
    effect that they have in the reference. -/
structure OptionsRight (c : TcpConn) (seg : TcpSeg) : Prop where
  inside : ∀ j ∈ optionReads seg.options seg.options.length 0, (j : Int) < seg.optLen
  ends : ∀ fuel, seg.options.length ≤ fuel →
    tcpProcessOptionsLoop seg fuel 0 c = tcpProcessOptions c seg
  effect : tcpProcessOptions c seg = tlvOptions seg.options seg.options.length 0 c

/-- MSS, window scale, SACK-permitted, SACK and time stamps. -/
def knownKind (kind : UInt8) : Bool := kind == 2 || kind == 3 || kind == 4 || kind == 5 || kind == 8

/-- Kind and length of MSS, window scale and time stamps, which are skipped as a whole. -/
def skippedWhole (kind len : UInt8) : Bool :=
  kind == 2 && len == 4 || kind == 3 && len == 3 || kind == 8 && len == 10

/-- **When they are.**  From option to option there is a NOP, one that is skipped as a whole or
    one of a known kind with length 2.  What is cut off, or has a length below 2, is two bytes of a
    known kind or one byte of another, at the end. -/
def inStep (area : List UInt8) : Nat → Nat → Bool
  | 0, _ => true
  | fuel + 1, i =>
    if i < area.length ∧ optByte area i ≠ 0 then
      let kind := optByte area i
      let len := optByte area (i + 1)
      match tlvStride area i with
      | some n =>
        (kind == 1 || skippedWhole kind len || knownKind kind && len == 2) &&
          inStep area fuel (i + n)
      | none =>
        if knownKind kind then !skippedWhole kind len && i + 2 == area.length
        else i + 1 == area.length
    else true

theorem optStride_pos (area : List UInt8) (i : Nat) : 0 < optStride area i := by
  unfold optStride
  dsimp only
  split_ifs <;> decide

theorem tcpProcessOptionsLoop_fuel (hlen : seg.optLen = seg.options.length) {fuel fuel' : Nat}
    (h : seg.options.length ≤ i + fuel) (h' : seg.options.length ≤ i + fuel') (c : TcpConn) :
    tcpProcessOptionsLoop seg fuel i c = tcpProcessOptionsLoop seg fuel' i c := by
  induction fuel generalizing i fuel' c with
  | zero =>
    cases fuel' with
    | zero => rfl
    | succ fuel' =>
      rw [tcpProcessOptionsLoop_succ, if_neg (by omega)]
      rfl
  | succ fuel ih =>
    have hpos := optStride_pos seg.options i
    cases fuel' with
    | zero =>
      rw [tcpProcessOptionsLoop_succ, if_neg (by omega)]
      rfl
    | succ fuel' =>
      rw [tcpProcessOptionsLoop_succ, tcpProcessOptionsLoop_succ,
        ih (by omega) (by omega : seg.options.length ≤ _ + fuel')]

theorem optStride_of_step {n : Nat} (hn : tlvStride area i = some n)
    (h : (optByte area i == 1 || skippedWhole (optByte area i) (optByte area (i + 1)) ||
      knownKind (optByte area i) && optByte area (i + 1) == 2) = true) :
    optStride area i = n ∧ ∀ c, optEffect area i c = tlvEffect area i n c := by
  simp only [skippedWhole, knownKind, Bool.or_eq_true, Bool.and_eq_true, beq_iff_eq] at h
  unfold tlvStride at hn
  unfold optStride optEffect tlvEffect
  rcases h with (h | (⟨h, hl⟩ | ⟨h, hl⟩) | ⟨h, hl⟩) | ⟨(((h | h) | h) | h) | h, hl⟩
  · simp only [h, if_true, Option.some.injEq] at hn
    subst hn
    simp [h]
  all_goals
    simp [h, hl] at hn
    obtain ⟨-, rfl⟩ := hn
    simp [h, hl]

theorem optStride_of_cut (hend : (if knownKind (optByte area i) then
      !skippedWhole (optByte area i) (optByte area (i + 1)) && i + 2 == area.length
    else i + 1 == area.length) = true) : i + optStride area i = area.length := by
  unfold knownKind skippedWhole at hend
  unfold optStride
  dsimp only
  split_ifs at hend ⊢ <;> simp_all

theorem optEffect_of_cut (h : tlvStride area i = none) (hend : i + optStride area i = area.length)
    (c : TcpConn) : optEffect area i c = c := by
  unfold tlvStride at h
  dsimp only at h
  split_ifs at h with h1 hlen
  unfold optStride at hend
  unfold optEffect
  dsimp only at hend ⊢
  split_ifs at hend ⊢ <;> simp_all
  all_goals omega

theorem tlvStride_le {n : Nat} (h : tlvStride area i = some n) (hi : i < area.length) :
    i + n ≤ area.length := by
  unfold tlvStride at h
  dsimp only at h
  split_ifs at h
  · cases h
    exact hi
  · rename_i hlen
    cases h
    exact hlen.2.2

/-- **The two readers in step.** -/
theorem loop_eq_of_inStep (hlen : seg.optLen = seg.options.length) {fuel : Nat}
    (h : inStep seg.options fuel i) (c : TcpConn) :
    tcpProcessOptionsLoop seg fuel i c = tlvOptions seg.options fuel i c := by
  induction fuel generalizing i c with
  | zero => rfl
  | succ fuel ih =>
    rw [tcpProcessOptionsLoop_succ, tlvOptions, hlen]
    by_cases hgo : i < seg.options.length ∧ optByte seg.options i ≠ 0
    · rw [inStep, if_pos hgo] at h
      rw [if_pos hgo, if_pos (by simpa using hgo)]
      cases hn : tlvStride seg.options i with
      | some n =>
        simp only [hn] at h
        obtain ⟨hstep, hrest⟩ := Bool.and_eq_true_iff.mp h
        obtain ⟨hstride, heffect⟩ := optStride_of_step hn hstep
        rw [hstride, heffect]
        exact ih hrest _
      | none =>
        simp only [hn] at h
        have hend := optStride_of_cut h
        rw [optEffect_of_cut hn hend, hend]
        cases fuel with
        | zero => rfl
        | succ fuel => rw [tcpProcessOptionsLoop_succ, if_neg (by omega)]
    · rw [if_neg hgo, if_neg (by simpa using hgo)]

theorem reads_lt_of_inStep {fuel : Nat} (h : inStep area fuel i) :
    ∀ j ∈ optionReads area fuel i, j < area.length := by
  induction fuel generalizing i with
  | zero => simp [optionReads]
  | succ fuel ih =>
    rw [optionReads]
    split
    · rename_i hi
      have hround : i + optStride area i ≤ area.length →
          ∀ j ∈ List.range' i (optStride area i), j < area.length := by
        intro hle j hj
        have := List.mem_range'_1.mp hj
        omega
      by_cases h0 : optByte area i = 0
      · rw [if_pos h0, List.append_nil]
        exact hround (by simp [optStride, h0]; omega)
      rw [if_neg h0, List.forall_mem_append]
      rw [inStep, if_pos ⟨hi, h0⟩] at h
      cases hn : tlvStride area i with
      | some n =>
        simp only [hn] at h
        obtain ⟨hstep, hrest⟩ := Bool.and_eq_true_iff.mp h
        rw [(optStride_of_step hn hstep).1] at hround ⊢
        exact ⟨hround (tlvStride_le hn hi), ih hrest⟩
      | none =>
        simp only [hn] at h
        have hend := optStride_of_cut h
        refine ⟨hround hend.le, ?_⟩
        rw [hend]
        cases fuel <;> simp [optionReads]
    · simp

/-- **Options are read right** as long as every option, up to EOL or the end, is one that the code
    skips by its length. -/
theorem options_right {c : TcpConn} {seg : TcpSeg} (hlen : seg.optLen = seg.options.length)
    (h : inStep seg.options seg.options.length 0 = true) : OptionsRight c seg where
  inside := fun j hj => by
    rw [hlen]
    exact Int.ofNat_lt.mpr (reads_lt_of_inStep h j hj)
  ends := fun fuel hfuel => by
    rw [tcpProcessOptions, hlen, Int.toNat_natCast]
    exact tcpProcessOptionsLoop_fuel hlen (by omega) (by omega) c
  effect := by
    rw [tcpProcessOptions, hlen, Int.toNat_natCast]
    exact loop_eq_of_inStep hlen h c

/-- A connection in SYN_SENT reads an MSS of 536, a window scale of 7, SACK-permitted and a time
    stamp. -/
theorem options_right_syn :
    let seg : TcpSeg := { options := [2, 4, 2, 24, 1, 3, 3, 7, 4, 2, 8, 10, 0, 0, 0, 1, 0, 0, 0, 0]
                          optLen := 20 }
    inStep seg.options 20 0 = true ∧ OptionsRight (runConn sampleConn (sampleOpen.take 1)) seg := by
  intro seg
  have h : inStep seg.options 20 0 = true := by decide
  exact ⟨h, options_right rfl h⟩

/-- An MSS inside of an unknown option is taken for one, and the length of an MSS behind the
    options is read. -/
theorem options_misread :
    let c := runConn sampleConn (sampleOpen.take 1)
    let inner : TcpSeg := { options := [30, 6, 2, 4, 0, 100, 0, 0], optLen := 8 }
    let cut : TcpSeg := { options := [1, 1, 1, 2], optLen := 4 }
    ((tcpProcessOptions c inner).mss = 100 ∧ (tlvOptions inner.options 8 0 c).mss = 1460 ∧
      ¬ OptionsRight c inner) ∧ 4 ∈ optionReads cut.options 4 0 ∧ ¬ OptionsRight c cut := by
  intro c inner cut
  have hmss : (tcpProcessOptions c inner).mss = 100 := by decide
  have href : (tlvOptions inner.options 8 0 c).mss = 1460 := by decide
  have hread : 4 ∈ optionReads cut.options 4 0 := by decide
  refine ⟨⟨hmss, href, fun h => ?_⟩, hread, fun h => ?_⟩
  · have heffect := congrArg (fun d => d.mss) h.effect
    exact absurd (hmss.symm.trans (heffect.trans href)) (by decide)
  · exact absurd (h.inside 4 hread) (by decide)

end FinsStack.Tcp
