import FinsStack.Lib.OnesSum
import FinsStack.Tcp.SegHeaders

/-!
# Segments as frames

`tcp.c`.

`tcp_to_fdf` lays a segment out as the bytes of a PDU and sums them in one pass over the flat
buffer; `fdf_to_tcp` takes the fields apart again, and `tcp_seg_checksum` sums the header,
the options and the data of what it found one after the other.  The two sums agree because
the header and the options fill whole words.

`wire_round_trip` puts the two together for every segment that `tcp_seg_update` prepared.
-/

namespace FinsStack.Tcp

open List Lib

/-! ### Frames -/

def IPPROTO_TCP : UInt32 := 6

/-- A data frame between TCP and IP: what TCP writes into its metadata (`send_protocol`,
    `send_src_ipv4`, `send_dst_ipv4`) or reads from it (`recv_…`), and the PDU. -/
structure Fdf where
  protocol : UInt32
  srcIp : UInt32
  dstIp : UInt32
  pdu : List UInt8
deriving DecidableEq, Repr

def MIN_TCP_HEADER_BYTES : Nat := 20

def tcpHeaderBytes (flags : UInt16) : Nat := ((flags &&& FLAG_DATAOFFSET) >>> 12).toNat * 4

/-- The fixed part of `struct tcpv4_header`, as it is stored. -/
def tcpv4Header (seg : TcpSeg) (checksum : UInt16) : List UInt8 :=
  be16 seg.srcPort ++ be16 seg.dstPort ++ be32 seg.seqNum ++ be32 seg.ackNum
    ++ be16 seg.flags ++ be16 seg.winSize ++ be16 checksum ++ be16 seg.urgPointer

/-- `struct ipv4_header`, which is summed and not sent. -/
def pseudoHeader (seg : TcpSeg) (tcpLen : UInt16) : List UInt8 :=
  be32 seg.srcIp ++ be32 seg.dstIp ++ [0, 6] ++ be16 tcpLen

def tcpPduLength (seg : TcpSeg) : UInt32 := UInt32.ofInt (seg.dataLen + tcpHeaderBytes seg.flags)

/-- The cleared buffer of `pduLength` bytes after the header, the options and the data were
    copied into it. -/
def tcpPdu (seg : TcpSeg) (checksum : UInt16) : List UInt8 :=
  let bytes := tcpv4Header seg checksum ++ seg.options.take seg.optLen.toNat
    ++ seg.data.take seg.dataLen.toNat
  bytes.take (tcpPduLength seg).toNat ++ replicate ((tcpPduLength seg).toNat - bytes.length) 0

/-- The checksum `tcp_to_fdf` computes, over a header in which it is zero. -/
def tcpPduChecksum (seg : TcpSeg) : UInt16 :=
  (~~~ foldCarry (sumWords (pseudoHeader seg (tcpPduLength seg).toUInt16)
    + sumWords (tcpPdu seg 0))).toUInt16

def tcpToFdf (seg : TcpSeg) : Fdf :=
  { protocol := IPPROTO_TCP, srcIp := seg.srcIp, dstIp := seg.dstIp
    pdu := tcpPdu seg (tcpPduChecksum seg) }

def readBe16 (bytes : List UInt8) (i : Nat) : UInt16 :=
  ((bytes.getD i 0).toUInt16 <<< 8) + (bytes.getD (i + 1) 0).toUInt16

def readBe32 (bytes : List UInt8) (i : Nat) : UInt32 :=
  ((bytes.getD i 0).toUInt32 <<< 24) + ((bytes.getD (i + 1) 0).toUInt32 <<< 16)
    + ((bytes.getD (i + 2) 0).toUInt32 <<< 8) + (bytes.getD (i + 3) 0).toUInt32

/-- `fdf_to_tcp`.  `opt_len` and `data_len` are of type `int`; nothing is copied when they are
    not positive. -/
def fdfToTcp (ff : Fdf) : Option TcpSeg :=
  if ff.pdu.length < MIN_TCP_HEADER_BYTES then none
  else if ff.protocol ≠ IPPROTO_TCP then none
  else
    let flags := readBe16 ff.pdu 12
    let optLen : Int := (tcpHeaderBytes flags : Int) - MIN_TCP_HEADER_BYTES
    let dataLen : Int :=
      (UInt32.ofNat ff.pdu.length - UInt32.ofNat (tcpHeaderBytes flags)).toInt32.toInt
    let seqNum := readBe32 ff.pdu 4
    some
      { srcIp := ff.srcIp
        dstIp := ff.dstIp
        srcPort := readBe16 ff.pdu 0
        dstPort := readBe16 ff.pdu 2
        seqNum := seqNum
        ackNum := readBe32 ff.pdu 8
        flags := flags
        winSize := readBe16 ff.pdu 14
        checksum := readBe16 ff.pdu 16
        urgPointer := readBe16 ff.pdu 18
        options := (ff.pdu.drop MIN_TCP_HEADER_BYTES).take optLen.toNat
        optLen := optLen
        data := (ff.pdu.drop (MIN_TCP_HEADER_BYTES + optLen).toNat).take dataLen.toNat
        dataLen := dataLen
        seqEnd := seqNum + UInt32.ofInt dataLen }

/-! ### Words in network order -/

theorem bytes_be16 (x : UInt16) :
    ((x >>> 8).toUInt8.toUInt16 <<< 8) + x.toUInt8.toUInt16 = x := by
  apply UInt16.toNat_inj.mp
  have hx := x.toNat_lt
  simp [Nat.shiftRight_eq_div_pow, Nat.shiftLeft_eq]
  omega

theorem bytes_be32 (x : UInt32) :
    ((x >>> 24).toUInt8.toUInt32 <<< 24) + ((x >>> 16).toUInt8.toUInt32 <<< 16)
      + ((x >>> 8).toUInt8.toUInt32 <<< 8) + x.toUInt8.toUInt32 = x := by
  apply UInt32.toNat_inj.mp
  have hx := x.toNat_lt
  simp [Nat.shiftRight_eq_div_pow, Nat.shiftLeft_eq]
  omega

theorem wordSum_be16 (x : UInt16) : wordSum (be16 x) = x.toNat := by
  have hx := x.toNat_lt
  simp [be16, Nat.shiftRight_eq_div_pow]
  omega

/-! ### The bytes of a frame -/

structure Framed (seg : TcpSeg) : Prop where
  optLen : seg.optLen = seg.options.length
  words : seg.options.length % 4 = 0
  offset : tcpHeaderBytes seg.flags = MIN_TCP_HEADER_BYTES + seg.options.length
  dataLen : seg.dataLen = seg.data.length

def wireLength (seg : TcpSeg) : Nat := tcpHeaderBytes seg.flags + seg.data.length

theorem tcpv4Header_length (seg : TcpSeg) (checksum : UInt16) :
    (tcpv4Header seg checksum).length = MIN_TCP_HEADER_BYTES := rfl

theorem pseudoHeader_length (seg : TcpSeg) (tcpLen : UInt16) :
    (pseudoHeader seg tcpLen).length = 12 := rfl

theorem tcpv4Header_reads (seg : TcpSeg) (checksum : UInt16) (rest : List UInt8) :
    let bytes := tcpv4Header seg checksum ++ rest
    (readBe16 bytes 0 = seg.srcPort ∧ readBe16 bytes 2 = seg.dstPort) ∧
      (readBe32 bytes 4 = seg.seqNum ∧ readBe32 bytes 8 = seg.ackNum) ∧
      readBe16 bytes 12 = seg.flags ∧ readBe16 bytes 14 = seg.winSize ∧
      readBe16 bytes 16 = checksum ∧ readBe16 bytes 18 = seg.urgPointer :=
  ⟨⟨bytes_be16 _, bytes_be16 _⟩, ⟨bytes_be32 _, bytes_be32 _⟩, bytes_be16 _, bytes_be16 _,
    bytes_be16 _, bytes_be16 _⟩

variable {seg : TcpSeg}

theorem Framed.pduLength (h : Framed seg) (hlen : wireLength seg < 2 ^ 32) :
    (tcpPduLength seg).toNat = wireLength seg := by
  unfold tcpPduLength wireLength at *
  have hcast : seg.dataLen + (tcpHeaderBytes seg.flags : Int) =
      ((tcpHeaderBytes seg.flags + seg.data.length : Nat) : Int) := by
    rw [h.dataLen]
    omega
  rw [hcast, ofInt_natCast, UInt32.toNat_ofNat_of_lt' hlen]

theorem Framed.takes_all (h : Framed seg) : seg.options.take seg.optLen.toNat = seg.options ∧
    seg.data.take seg.dataLen.toNat = seg.data := by
  rw [h.optLen, h.dataLen, Int.toNat_natCast, Int.toNat_natCast]
  exact ⟨take_length, take_length⟩

theorem Framed.pdu (h : Framed seg) (hlen : wireLength seg < 2 ^ 32) (checksum : UInt16) :
    tcpPdu seg checksum = tcpv4Header seg checksum ++ (seg.options ++ seg.data) := by
  obtain ⟨hopts, hdata⟩ := h.takes_all
  have hall : (tcpv4Header seg checksum ++ seg.options ++ seg.data).length = wireLength seg := by
    rw [length_append, length_append, tcpv4Header_length, wireLength, h.offset]
  unfold tcpPdu
  simp only [hopts, hdata, h.pduLength hlen]
  rw [← hall, take_length, Nat.sub_self, replicate_zero, append_nil,
    append_assoc]

theorem dataLen_of_lengths (hdr : Nat) {n : Nat} (hn : n < 2 ^ 31) :
    (UInt32.ofNat (hdr + n) - UInt32.ofNat hdr).toInt32.toInt = n := by
  have hdiff : UInt32.ofNat (hdr + n) - UInt32.ofNat hdr = UInt32.ofNat n := by
    rw [UInt32.ofNat_add]
    grind
  rw [hdiff, UInt32.toInt32_ofNat', Int32.toInt_ofNat_of_lt hn]

/-- **What is parsed.**  The segment comes back with the checksum it was sent with and the end
    `fdf_to_tcp` gives it. -/
theorem Framed.parsed (h : Framed seg) (hlen : wireLength seg < 2 ^ 31) :
    fdfToTcp (tcpToFdf seg) = some { seg with
      checksum := tcpPduChecksum seg, seqEnd := seg.seqNum + seg.dataLen32 } := by
  generalize hck : tcpPduChecksum seg = checksum
  have hframe : tcpToFdf seg = ⟨IPPROTO_TCP, seg.srcIp, seg.dstIp,
      tcpv4Header seg checksum ++ (seg.options ++ seg.data)⟩ := by
    rw [tcpToFdf, hck, h.pdu (by omega)]
  have hall : (tcpv4Header seg checksum ++ (seg.options ++ seg.data)).length = wireLength seg := by
    rw [length_append, length_append, tcpv4Header_length, wireLength, h.offset]
    omega
  have hmin : ¬ wireLength seg < MIN_TCP_HEADER_BYTES := by
    rw [wireLength, h.offset]
    omega
  have hopt : (tcpHeaderBytes seg.flags : Int) - MIN_TCP_HEADER_BYTES = seg.optLen := by
    rw [h.optLen, h.offset]
    omega
  have hlength : (UInt32.ofNat (wireLength seg) -
      UInt32.ofNat (tcpHeaderBytes seg.flags)).toInt32.toInt = seg.dataLen := by
    unfold wireLength at hlen ⊢
    rw [dataLen_of_lengths _ (by omega), h.dataLen]
  have hoptions : ((tcpv4Header seg checksum ++ (seg.options ++ seg.data)).drop
      MIN_TCP_HEADER_BYTES).take seg.optLen.toNat = seg.options := by
    rw [← tcpv4Header_length seg checksum, drop_left, h.optLen, Int.toNat_natCast,
      take_left]
  have hbytes : ((tcpv4Header seg checksum ++ (seg.options ++ seg.data)).drop
      (MIN_TCP_HEADER_BYTES + seg.optLen).toNat).take seg.dataLen.toNat = seg.data := by
    have hskip : ((MIN_TCP_HEADER_BYTES : Int) + seg.optLen).toNat =
        (tcpv4Header seg checksum ++ seg.options).length := by
      rw [length_append, tcpv4Header_length, h.optLen]
      omega
    rw [← append_assoc, hskip, drop_left, h.dataLen, Int.toNat_natCast,
      take_length]
  obtain ⟨⟨hsrc, hdst⟩, ⟨hseq, hack⟩, hflags, hwin, hsum, hurg⟩ :=
    tcpv4Header_reads seg checksum (seg.options ++ seg.data)
  rw [hframe]
  generalize tcpv4Header seg checksum ++ (seg.options ++ seg.data) = pdu at *
  unfold fdfToTcp
  simp only [hall, if_neg hmin, ne_eq, not_true_eq_false, if_false, hsrc, hdst, hseq, hack, hflags,
    hwin, hsum, hurg, hopt, hlength, hoptions, hbytes]
  rfl

/-! ### The checksum -/

theorem sumWords_toNat {l : List UInt8} (h : l.length ≤ 65600) :
    (sumWords l).toNat = wordSum l := by
  have hle := wordSum_le l
  induction l using wordSum.induct with
  | case1 a b rest ih =>
    simp only [length_cons] at h
    have hrest := ih (by omega) (wordSum_le rest)
    have ha := a.toNat_lt
    have hb := b.toNat_lt
    have hword : ((a.toUInt32 <<< 8) + b.toUInt32).toNat = a.toNat * 256 + b.toNat := by
      simp [Nat.shiftLeft_eq]
      omega
    have hbound : wordSum (a :: b :: rest) < 2 ^ 32 := by
      simp only [length_cons] at hle
      omega
    rw [wordSum_pair] at hbound ⊢
    show (((a.toUInt32 <<< 8) + b.toUInt32) + sumWords rest).toNat = _
    rw [UInt32.toNat_add, hword, hrest, Nat.mod_eq_of_lt hbound]
  | case2 a =>
    have ha := a.toNat_lt
    simp [sumWords, wordSum, Nat.shiftLeft_eq]
    omega
  | case3 => rfl

theorem foldCarry_toNat (x : UInt32) : (foldCarry x).toNat = onesFold x.toNat := by
  have hhigh : ∀ y : UInt32, (y >>> 16).toNat = y.toNat / 65536 := by
    intro y
    simp [Nat.shiftRight_eq_div_pow]
  induction x using foldCarry.induct with
  | case1 x h =>
    have hlow : x.toNat < 65536 := by
      have hzero := hhigh x
      rw [h] at hzero
      have hx : (0 : UInt32).toNat = 0 := rfl
      omega
    rw [foldCarry, dif_pos h, onesFold_of_lt hlow]
  | case2 x h ih =>
    have hx := x.toNat_lt
    have hlow : (x &&& (0xFFFF : UInt32)).toNat = x.toNat % 65536 := by
      simpa using Nat.and_two_pow_sub_one_eq_mod x.toNat 16
    have hround : ((x &&& (0xFFFF : UInt32)) + (x >>> 16)).toNat =
        x.toNat % 65536 + x.toNat / 65536 := by
      rw [UInt32.toNat_add, hlow, hhigh, Nat.mod_eq_of_lt (by omega)]
    rw [foldCarry, dif_neg h, ih, hround, onesFold_round]

/-- **The complement of a sum makes it all ones.** -/
theorem complement_completes {x : UInt32} (hlt : x.toNat + 65535 < 2 ^ 32) :
    (~~~ foldCarry (x + (~~~ foldCarry x).toUInt16.toUInt32)).toUInt16 = 0 := by
  have complement : ∀ y : UInt32, y.toNat ≤ 65535 → (~~~ y).toUInt16.toNat = 65535 - y.toNat := by
    intro y hy
    simp
    omega
  have hfold := foldCarry_toNat x
  have hle := onesFold_le x.toNat
  have hword : (~~~ foldCarry x).toUInt16.toUInt32.toNat = 65535 - onesFold x.toNat := by
    rw [UInt16.toNat_toUInt32, complement _ (by omega), hfold]
  have hsum : (foldCarry (x + (~~~ foldCarry x).toUInt16.toUInt32)).toNat = 65535 := by
    rw [foldCarry_toNat, UInt32.toNat_add, hword, Nat.mod_eq_of_lt (by omega)]
    exact onesFold_add_complement _
  apply UInt16.toNat_inj.mp
  rw [complement _ (by omega), hsum]
  rfl

theorem sumWords_append {l l' : List UInt8} (h : l.length % 2 = 0) :
    sumWords (l ++ l') = sumWords l + sumWords l' := by
  induction l using sumWords.induct with
  | case1 a b rest ih =>
    have hrest : rest.length % 2 = 0 := by
      simp only [length_cons] at h
      omega
    show (a.toUInt32 <<< 8) + b.toUInt32 + sumWords (rest ++ l') = _
    rw [ih hrest, ← UInt32.add_assoc]
    rfl
  | case2 a => simp at h
  | case3 => exact (UInt32.zero_add _).symm

theorem sumWords_be16 (x : UInt16) : sumWords (be16 x) = x.toUInt32 := by
  apply UInt32.toNat_inj.mp
  rw [sumWords_toNat (by simp [be16]), wordSum_be16, UInt16.toNat_toUInt32]

theorem sumWords_tcpv4Header (seg : TcpSeg) (checksum : UInt16) :
    sumWords (tcpv4Header seg checksum) = sumWords (tcpv4Header seg 0) + checksum.toUInt32 := by
  have split : ∀ k : UInt16, sumWords (tcpv4Header seg k) =
      sumWords (be16 seg.srcPort ++ be16 seg.dstPort ++ be32 seg.seqNum ++ be32 seg.ackNum
        ++ be16 seg.flags ++ be16 seg.winSize) + k.toUInt32 + sumWords (be16 seg.urgPointer) := by
    intro k
    unfold tcpv4Header
    rw [sumWords_append (by simp [be16, be32]), sumWords_append (by simp [be16, be32]),
      sumWords_be16 k]
  have hzero : (0 : UInt16).toUInt32 = 0 := rfl
  rw [split checksum, split 0, hzero]
  grind

theorem Framed.tcpLen (h : Framed seg) (hlen : wireLength seg ≤ 65535) :
    ((seg.flags &&& FLAG_DATAOFFSET) >>> 12) * 4 + UInt16.ofInt seg.dataLen =
      (tcpPduLength seg).toUInt16 := by
  have hpdu := h.pduLength (by omega)
  have hhdr : (((seg.flags &&& FLAG_DATAOFFSET) >>> 12) * 4).toNat = tcpHeaderBytes seg.flags := by
    have hle : tcpHeaderBytes seg.flags ≤ wireLength seg := Nat.le_add_right _ _
    rw [UInt16.toNat_mul]
    exact Nat.mod_eq_of_lt (Nat.lt_of_le_of_lt (Nat.le_trans hle hlen) (by decide))
  have hdata : (UInt16.ofInt seg.dataLen).toNat = seg.data.length := by
    have hle : seg.data.length ≤ wireLength seg := Nat.le_add_left _ _
    have hmod : (seg.dataLen % 2 ^ 16).toNat = seg.data.length := by
      rw [h.dataLen]
      omega
    have hlt : seg.data.length < UInt16.size :=
      Nat.lt_of_le_of_lt (Nat.le_trans hle hlen) (by decide)
    rw [UInt16.ofInt, hmod, UInt16.toNat_ofNat_of_lt' hlt]
  apply UInt16.toNat_inj.mp
  rw [UInt16.toNat_add, hhdr, hdata, UInt32.toNat_toUInt16, hpdu]
  rfl

/-- **The receiver's sum is all ones.** -/
theorem Framed.checksum (h : Framed seg) (hlen : wireLength seg ≤ 65535) (seqEnd : UInt32) :
    tcpSegChecksum { seg with checksum := tcpPduChecksum seg, seqEnd := seqEnd } = 0 := by
  obtain ⟨hopts, hdata⟩ := h.takes_all
  have heven : seg.options.length % 2 = 0 := by
    have := h.words
    omega
  -- the sender sums the flat buffer, the receiver one part after the other
  obtain ⟨x, hx⟩ : ∃ x, x = sumWords (pseudoHeader seg (tcpPduLength seg).toUInt16)
      + sumWords (tcpPdu seg 0) := ⟨_, rfl⟩
  have hck : tcpPduChecksum seg = (~~~ foldCarry x).toUInt16 := by rw [hx, tcpPduChecksum]
  have hparts : x = sumWords (pseudoHeader seg (tcpPduLength seg).toUInt16)
      + (sumWords (tcpv4Header seg 0) + (sumWords seg.options + sumWords seg.data)) := by
    rw [hx, h.pdu (by omega), sumWords_append (by rw [tcpv4Header_length]; rfl),
      sumWords_append heven]
  have hrecv : tcpSegChecksum { seg with checksum := tcpPduChecksum seg, seqEnd := seqEnd } =
      htons (~~~ foldCarry (x + (~~~ foldCarry x).toUInt16.toUInt32)).toUInt16 := by
    have hpkt : be32 seg.srcIp ++ be32 seg.dstIp ++ [0, 6] ++ be16 (tcpPduLength seg).toUInt16
        ++ be16 seg.srcPort ++ be16 seg.dstPort ++ be32 seg.seqNum ++ be32 seg.ackNum
        ++ be16 seg.flags ++ be16 seg.winSize ++ be16 (tcpPduChecksum seg) ++ be16 seg.urgPointer
        = pseudoHeader seg (tcpPduLength seg).toUInt16 ++ tcpv4Header seg (tcpPduChecksum seg) :=
      rfl
    unfold tcpSegChecksum
    simp only [h.tcpLen hlen, hpkt, hopts, hdata]
    rw [sumWords_append (by rw [pseudoHeader_length]), sumWords_tcpv4Header, hck]
    congr 4
    rw [hparts]
    grind
  have hlt : x.toNat + 65535 < 2 ^ 32 := by
    have hshort : seg.options.length + seg.data.length ≤ 65515 := by
      rw [wireLength, h.offset] at hlen
      unfold MIN_TCP_HEADER_BYTES at hlen
      omega
    have hb₁ := wordSum_le (pseudoHeader seg (tcpPduLength seg).toUInt16)
    have hb₂ := wordSum_le (tcpPdu seg 0)
    have hall : (tcpPdu seg 0).length = wireLength seg := by
      rw [h.pdu (by omega), length_append, length_append, tcpv4Header_length, wireLength,
        h.offset]
      omega
    rw [pseudoHeader_length] at hb₁
    rw [hall] at hb₂
    have hsum : x.toNat = wordSum (pseudoHeader seg (tcpPduLength seg).toUInt16) +
        wordSum (tcpPdu seg 0) := by
      rw [hx, UInt32.toNat_add, sumWords_toNat (by rw [pseudoHeader_length]; omega),
        sumWords_toNat (by omega), Nat.mod_eq_of_lt (by omega)]
    omega
  rw [hrecv, complement_completes hlt]
  rfl

/-! ### Segments that `tcp_seg_update` prepared -/

theorem tcpSegUpdate_framed {c : TcpConn} (flags : UInt16)
    (h : AckBits c.delayedAckFlags) (hdata : seg.dataLen = seg.data.length) :
    Framed (tcpSegUpdate seg c flags).1 := by
  have hr := tcpSegUpdate_refreshed seg c flags h
  obtain ⟨f, k, w, o, ol, hsame⟩ := hr.same
  have hopt : OptBytesOk (tcpSegUpdate seg c flags).1.options ∧
      (tcpSegUpdate seg c flags).1.optLen = (tcpSegUpdate seg c flags).1.options.length :=
    ⟨tcpOptions_ok _, rfl⟩
  refine ⟨hopt.2, hopt.1.1, ?_, ?_⟩
  · obtain ⟨hoff, -⟩ := hr.offset
    obtain ⟨⟨hmod, -⟩, hlen⟩ := hopt
    unfold dataOffset at hoff
    unfold tcpHeaderBytes MIN_TCP_HEADER_BYTES
    omega
  · rw [hsame]
    exact hdata

/-- **The round trip over the wire.**  Every segment that is prepared for a connection comes back
    from its frame with the fields, options and data it had, and its checksum verifies. -/
theorem wire_round_trip :
    (∀ c₀, Initial c₀ → ∀ es, AckBits (runConn c₀ es).delayedAckFlags) ∧
      ∀ (c : TcpConn) (seg : TcpSeg) (flags : UInt16), AckBits c.delayedAckFlags →
        seg.dataLen = seg.data.length → wireLength (tcpSegUpdate seg c flags).1 ≤ 65535 →
        let s := (tcpSegUpdate seg c flags).1
        let p := { s with checksum := tcpPduChecksum s, seqEnd := s.seqNum + s.dataLen32 }
        fdfToTcp (tcpToFdf s) = some p ∧ tcpSegChecksum p = 0 := by
  constructor
  · intro c₀ h₀ es
    exact (runConn_delayInv h₀ es).bits
  · intro c seg flags hbits hdata hlen s p
    have hframed : Framed s := tcpSegUpdate_framed flags hbits hdata
    exact ⟨hframed.parsed (Nat.lt_of_le_of_lt hlen (by omega)), hframed.checksum hlen _⟩

/-- Three bytes on an established connection. -/
theorem wire_round_trip_three :
    let s := (tcpSegUpdate { tcpSegCreate ⟨1, 10, 2, 20⟩ 101 104 with
      data := [1, 2, 3], dataLen := 3 } (runConn sampleConn sampleOpen) FLAG_ACK).1
    (fdfToTcp (tcpToFdf s)).map (fun p => (p.data, tcpSegChecksum p)) = some ([1, 2, 3], 0) := by
  intro s
  obtain ⟨hparsed, hsum⟩ := wire_round_trip.2 (runConn sampleConn sampleOpen)
    { tcpSegCreate ⟨1, 10, 2, 20⟩ 101 104 with data := [1, 2, 3], dataLen := 3 } FLAG_ACK
    (wire_round_trip.1 _ (.fresh sampleData ⟨1, 10, 2, 20⟩) sampleOpen) rfl (by decide +kernel)
  have hdata : s.data = [1, 2, 3] := by decide +kernel
  rw [hparsed, Option.map_some, hsum]
  exact congrArg (fun d => some (d, (0 : UInt16))) hdata

end FinsStack.Tcp
