import FinsStack.Tcp.Frame

/-!
# What `tcp_seg_update` writes into a header

The option bytes fill whole words and leave room for the fixed part
(`tcpOptions_ok`), so the data offset can be stored in its four bits
(`tcpSegUpdate_offset`).  The flags are those asked for, with those of a pending delayed
acknowledgment and a FIN that rides on the last segment; the acknowledgment number is
`recv_seq_num` whenever the ACK flag is among them.
-/

namespace FinsStack.Tcp

open List

/-! ### Options fill whole words -/

def OptBytesOk (l : List UInt8) : Prop := l.length % 4 = 0 ∧ l.length ≤ 40

theorem synOptions_ok (c : TcpConn) (sack ts ws : Bool) : OptBytesOk (synOptions c sack ts ws) := by
  cases sack <;> cases ts <;> cases ws <;> simp [OptBytesOk, synOptions, be16, be32]

theorem sackBlocks_length {optLen : Nat} (left right : UInt32) (ns : List (TcpNode TcpSeg))
    (h : optLen ≤ 32) :
    optLen + 8 * (sackBlocks optLen left right ns).length ≤ 40 := by
  induction ns generalizing optLen left right with
  | nil =>
    simp only [sackBlocks, length_singleton]
    omega
  | cons n ns ih =>
    unfold sackBlocks
    split
    · exact ih left _ h
    · simp only [length_cons]
      split
      · simp only [length_nil]
        omega
      · have hrest : optLen + 8 + 8 * (sackBlocks (optLen + 8) n.seqNum n.seqEnd ns).length ≤ 40 :=
          ih _ _ (by omega)
        omega

theorem blockBytes_length (blocks : List (UInt32 × UInt32)) :
    (blocks.flatMap fun b => be32 b.1 ++ be32 b.2).length = 8 * blocks.length := by
  induction blocks with
  | nil => rfl
  | cons b blocks ih =>
    simp only [flatMap_cons, length_append, length_cons, ih]
    simp only [be32, length_cons, length_nil]
    omega

theorem sackOption_length (c : TcpConn) {optLen : Nat} (h : optLen ≤ 28) :
    (sackOption c optLen).length % 4 = 0 ∧ optLen + (sackOption c optLen).length ≤ 40 := by
  unfold sackOption
  cases c.recvQueue.nodes with
  | nil =>
    simp
    omega
  | cons n ns =>
    have hblocks := sackBlocks_length n.seqNum n.seqEnd ns (show optLen + 4 ≤ 32 by omega)
    simp only [length_append, blockBytes_length, length_cons, length_nil]
    omega

/-- The options of an established connection: timestamps, then selective acknowledgments. -/
theorem withSack_ok (c : TcpConn) (sack : Bool) {ts : List UInt8} (hmod : ts.length % 4 = 0)
    (hle : ts.length ≤ 12) :
    OptBytesOk (ts ++ if sack then sackOption c ts.length else []) := by
  have hsack := sackOption_length c (show ts.length ≤ 28 by omega)
  unfold OptBytesOk
  rw [length_append]
  split
  · omega
  · rw [length_nil]
    omega

theorem tcpOptions_ok (c : TcpConn) : OptBytesOk (tcpOptions c) := by
  unfold tcpOptions
  split
  · exact synOptions_ok ..
  · exact synOptions_ok ..
  · by_cases hts : c.tsoptEnabled
    · apply withSack_ok <;> simp [hts, be32]
    · apply withSack_ok <;> simp [hts]
  · simp [OptBytesOk]

/-! ### Flags -/

theorem and_or_right (a b m : UInt16) : (a ||| b) &&& m = (a &&& m) ||| (b &&& m) := by
  apply UInt16.toBitVec_inj.mp
  simp only [UInt16.toBitVec_and, UInt16.toBitVec_or]
  exact BitVec.and_or_distrib_right

theorem hasFlag_and {f k m : UInt16} (h : k &&& m = m) : hasFlag (f &&& k) m = hasFlag f m := by
  unfold hasFlag
  rw [UInt16.and_assoc, h]

theorem hasFlag_disjoint {f k m : UInt16} (h : k &&& m = 0) : hasFlag (f &&& k) m = false := by
  unfold hasFlag
  rw [UInt16.and_assoc, h, UInt16.and_zero]
  rfl

def dataOffset (seg : TcpSeg) : Nat := ((seg.flags &&& FLAG_DATAOFFSET) >>> 12).toNat

def OffsetOk (seg : TcpSeg) : Prop := (dataOffset seg : Int) = 5 + seg.optLen / 4 ∧ 0 ≤ seg.optLen
deriving Decidable

theorem offset_bits (k : Nat) (h : k ≤ 10) :
    (((((5 + UInt16.ofInt (k : Int)) <<< 12) &&& FLAG_DATAOFFSET) &&& FLAG_DATAOFFSET) >>>
      12).toNat = 5 + k := by
  have hall : ∀ k : Fin 11, (((((5 + UInt16.ofInt (k : Int)) <<< 12) &&& FLAG_DATAOFFSET) &&&
      FLAG_DATAOFFSET) >>> 12).toNat = 5 + k := by decide
  exact hall ⟨k, by omega⟩

/-! ### `tcp_seg_update` -/

def AckBits (f : UInt16) : Prop := f = 0 ∨ f = FLAG_ACK

def FinRides (s : TcpState) : Prop := s = .finWait1 ∨ s = .lastAck

theorem tcpSegUpdateState_flags (seg : TcpSeg) (c : TcpConn) (h : AckBits c.delayedAckFlags) :
    ∃ k j, (tcpSegUpdateState seg c).1.flags = (seg.flags ||| k) ||| j ∧ AckBits k ∧
      (j = 0 ∨ j = FLAG_FIN ∧ c.finSent ∧ c.finSep = false ∧ FinRides c.state ∧
        seg.seqNum + seg.dataLen32 = c.sendSeqEnd) := by
  have hdelayed : ∃ k a, tcpSegDelayedAck seg c =
      ({ seg with flags := seg.flags ||| k }, { c with toAckState := a }) ∧ AckBits k := by
    unfold tcpSegDelayedAck
    split
    · exact ⟨c.delayedAckFlags, _, rfl, h⟩
    · exact ⟨0, _, by rw [UInt16.or_zero], .inl rfl⟩
  obtain ⟨k, a, hk, hbits⟩ := hdelayed
  have plain : (tcpSegDelayedAck seg c).1.flags = (seg.flags ||| k) ||| 0 := by
    rw [hk, UInt16.or_zero]
  have same : seg.flags = (seg.flags ||| 0) ||| 0 := by
    rw [UInt16.or_zero, UInt16.or_zero]
  have finished : FinRides c.state → ∃ j,
      (addFin (tcpSegDelayedAck seg c).1 (tcpSegDelayedAck seg c).2).flags =
        (seg.flags ||| k) ||| j ∧
        (j = 0 ∨ j = FLAG_FIN ∧ c.finSent ∧ c.finSep = false ∧
        FinRides c.state ∧ seg.seqNum + seg.dataLen32 = c.sendSeqEnd) := by
    intro hs
    rw [hk]
    unfold addFin
    split
    · rename_i hfin
      obtain ⟨hsent, hsep, hend⟩ := hfin
      exact ⟨FLAG_FIN, rfl, .inr ⟨rfl, hsent, by simpa using hsep, hs, hend⟩⟩
    · exact ⟨0, by rw [UInt16.or_zero], .inl rfl⟩
  unfold tcpSegUpdateState
  split
  iterate 3 exact ⟨k, 0, plain, hbits, .inl rfl⟩
  case h_4 hs =>
    obtain ⟨j, hj, hfin⟩ := finished (.inl hs)
    exact ⟨k, j, hj, hbits, hfin⟩
  case h_5 hs =>
    obtain ⟨j, hj, hfin⟩ := finished (.inr hs)
    exact ⟨k, j, hj, hbits, hfin⟩
  iterate 6 exact ⟨0, 0, same, .inl rfl, .inl rfl⟩

structure Refreshed (seg : TcpSeg) (c : TcpConn) (flags : UInt16) (seg' : TcpSeg) : Prop where
  offset : OffsetOk seg'
  ackNum : hasFlag seg'.flags FLAG_ACK = true → seg'.ackNum = c.recvSeqNum
  ack : hasFlag flags FLAG_ACK = true → hasFlag seg'.flags FLAG_ACK = true
  fin : hasFlag seg'.flags FLAG_FIN = true → hasFlag flags FLAG_FIN = true ∨
    c.finSent = true ∧ c.finSep = false ∧ FinRides c.state ∧
      seg.seqNum + seg.dataLen32 = c.sendSeqEnd
  rst : hasFlag seg'.flags FLAG_RST = true → hasFlag flags FLAG_RST = true
  same : ∃ f k w o ol, seg' = reheaded seg f k w o ol

theorem tcpSegUpdate_refreshed (seg : TcpSeg) (c : TcpConn) (flags : UInt16)
    (h : AckBits c.delayedAckFlags) : Refreshed seg c flags (tcpSegUpdate seg c flags).1 := by
  obtain ⟨k, j, hflags, hk, hj⟩ := tcpSegUpdateState_flags
    { seg with flags := flags &&& (FLAG_CONTROL ||| FLAG_ECN) } c h
  obtain ⟨f, a, hstate⟩ := tcpSegUpdateState_frame
    { seg with flags := flags &&& (FLAG_CONTROL ||| FLAG_ECN) } c
  rw [hstate] at hflags
  have hf : f = ((flags &&& (FLAG_CONTROL ||| FLAG_ECN)) ||| k) ||| j := hflags
  have hjbits : j = 0 ∨ j = FLAG_FIN := hj.imp_right And.left
  -- the bits of the offset are none of the flags asked for
  have hlow : f &&& FLAG_DATAOFFSET = 0 := by
    have hctl : (FLAG_CONTROL ||| FLAG_ECN) &&& FLAG_DATAOFFSET = 0 := by decide
    have hk0 : k &&& FLAG_DATAOFFSET = 0 := by rcases hk with rfl | rfl <;> decide
    have hj0 : j &&& FLAG_DATAOFFSET = 0 := by rcases hjbits with rfl | rfl <;> decide
    rw [hf, and_or_right, and_or_right, UInt16.and_assoc, hctl, hk0, hj0]
    simp
  have upper : ∀ (x m : UInt16), FLAG_DATAOFFSET &&& m = 0 →
      hasFlag (f ||| (x &&& FLAG_DATAOFFSET)) m = hasFlag f m := by
    intro x m hm
    rw [hasFlag_or, hasFlag_disjoint hm, Bool.or_false]
  have asked : ∀ m : UInt16, (FLAG_CONTROL ||| FLAG_ECN) &&& m = m →
      hasFlag f m = (hasFlag flags m || hasFlag k m || hasFlag j m) := by
    intro m hm
    rw [hf, hasFlag_or, hasFlag_or, hasFlag_and hm]
  have hsame : (tcpSegUpdate seg c flags).1 = { seg with
      flags := f ||| (((5 + UInt16.ofInt
          (((tcpOptions { c with toAckState := a }).length : Int) / 4))
        <<< 12) &&& FLAG_DATAOFFSET)
      ackNum := if hasFlag f FLAG_ACK then c.recvSeqNum else 0
      winSize := (if c.wsoptEnabled then c.recvWin >>> c.wsRecv.toUInt32 else c.recvWin).toUInt16
      options := tcpOptions { c with toAckState := a }
      optLen := (tcpOptions { c with toAckState := a }).length } := by
    unfold tcpSegUpdate
    rw [hstate]
    rfl
  rw [hsame]
  constructor
  · obtain ⟨hmod, hle⟩ := tcpOptions_ok { c with toAckState := a }
    unfold OffsetOk dataOffset
    simp only []
    generalize (tcpOptions { c with toAckState := a }).length = len at hmod hle
    have hdiv : (len : Int) / 4 = ((len / 4 : Nat) : Int) := by omega
    rw [and_or_right, hlow, UInt16.zero_or, hdiv, offset_bits (len / 4) (by omega)]
    omega
  · intro hack
    rw [upper _ _ (by decide)] at hack
    exact if_pos hack
  · intro hack
    rw [upper _ _ (by decide), asked _ (by decide), hack]
    rfl
  · intro hfin
    rw [upper _ _ (by decide), asked _ (by decide)] at hfin
    have hkfin : hasFlag k FLAG_FIN = false := by rcases hk with rfl | rfl <;> decide
    rw [hkfin, Bool.or_false, Bool.or_eq_true] at hfin
    rcases hfin with hfin | hfin
    · exact .inl hfin
    · rcases hj with rfl | ⟨-, hj⟩
      · rw [hasFlag_zero] at hfin
        cases hfin
      · exact .inr hj
  · intro hrst
    rw [upper _ _ (by decide), asked _ (by decide)] at hrst
    have hkrst : hasFlag k FLAG_RST = false := by rcases hk with rfl | rfl <;> decide
    have hjrst : hasFlag j FLAG_RST = false := by rcases hjbits with rfl | rfl <;> decide
    rwa [hkrst, hjrst, Bool.or_false, Bool.or_false] at hrst
  · exact ⟨_, _, _, _, _, rfl⟩

theorem tcpSegUpdate_conn (seg : TcpSeg) (c : TcpConn) (flags : UInt16) :
    ∃ a, (tcpSegUpdate seg c flags).2 = { c with toAckState := a } ∧
      (a = c.toAckState ∨ a = { c.toAckState with
        toDelayedTimer := false, delayedFlag := false, toDelayedFlag := false }) := by
  have hdelayed : ∀ s : TcpSeg, ∃ a, (tcpSegDelayedAck s c).2 = { c with toAckState := a } ∧
      (a = c.toAckState ∨ a = { c.toAckState with
        toDelayedTimer := false, delayedFlag := false, toDelayedFlag := false }) := by
    intro s
    unfold tcpSegDelayedAck
    split
    · exact ⟨_, rfl, .inr rfl⟩
    · exact ⟨_, rfl, .inl rfl⟩
  have hconn : (tcpSegUpdate seg c flags).2 = (tcpSegUpdateState
      { seg with flags := flags &&& (FLAG_CONTROL ||| FLAG_ECN) } c).2 := rfl
  rw [hconn]
  unfold tcpSegUpdateState
  split
  iterate 5 exact hdelayed _
  iterate 6 exact ⟨_, rfl, .inl rfl⟩

end FinsStack.Tcp
