import FinsStack.Tcp.FinPlace
import FinsStack.Tcp.Handshake
import FinsStack.Tcp.RecvStream

/-!
# From one application to the other

Two connections, and a network between them that loses, repeats and reorders segments.  Every
segment with data that a connection sends, for the first time or again, carries the bytes of
its stream at its own number (`Laid`), and a FIN stands behind the last of them.  So what
arrives at the other side are pieces of that stream, and what is handed over there is a prefix
of what was written here: all of it, once the FIN has been taken.  On the way back every
acknowledgment has a number up to which the stream was handed over.

Any order of the steps of both sides is covered: a segment that arrives is one that the other
side has sent by the end of its run.
-/

namespace FinsStack.Tcp

open List Lib

/-! ### The place of every byte -/

/-- The data of `s` are the bytes of the stream `bytes` at its number; the first byte has the
    number `isn`. -/
def InPlace (isn : UInt32) (bytes : List UInt8) (s : TcpSeg) : Prop :=
  ∃ p, p ≤ bytes.length ∧ s.seqNum = isn + UInt32.ofNat p ∧ s.data <+: bytes.drop p ∧
    s.dataLen = s.data.length

/-- **Invariant of the sender**: what is sent lies in place, and nothing is sent before the
    connection is established. -/
structure Laid (c : TcpConn) : Prop where
  early : Early c → Conveys (fun _ => False) c
  placed : Conveys (InPlace (c.issn + 1) (payloads c.out)) c

variable {c c' d : TcpConn} {e : Event} {seg : TcpSeg} {isn : UInt32} {bytes : List UInt8}

theorem Conveys.mono {Q Q' : TcpSeg → Prop} (h : Conveys Q c) (hQ : ∀ s, Q s → Q' s) :
    Conveys Q' c :=
  ⟨fun n hn => hQ _ (h.queued n hn), fun x hx hk => hQ _ (h.sent x hx hk)⟩

theorem InPlace.append (h : InPlace isn bytes seg) (rest : List UInt8) :
    InPlace isn (bytes ++ rest) seg := by
  obtain ⟨p, hp, hseq, hdata, hlen⟩ := h
  refine ⟨p, ?_, hseq, ?_, hlen⟩
  · rw [length_append]
    omega
  · rw [drop_append_of_le_length hp]
    exact hdata.trans (prefix_append ..)

theorem PlaceMove.open (h : PlaceMove c c') (hne : ¬ Early c) :
    (c'.issn = c.issn ∧ ¬ Early c') ∨ ClosedEarly c' := by
  cases h with
  | keep h => exact .inl ⟨h.issn, fun he => hne (h.early he).1⟩
  | start rand he | opened he => exact absurd he hne
  | fin hs hst hissn =>
    exact .inl ⟨hissn, not_early_of_retransmits (hst ▸ .inr (.inr hs))⟩
  | tooEarly h => exact .inr h

theorem SendMoves.open (h : SendMoves c c') (hne : ¬ Early c) :
    (c'.issn = c.issn ∧ ¬ Early c') ∨ ClosedEarly c' := by
  induction h with
  | refl => exact .inl ⟨rfl, hne⟩
  | tail _ hlast ih =>
    rcases ih with ⟨hissn, hopen⟩ | hc
    · exact (hlast.placeMove.open hopen).imp_left fun h => ⟨h.1.trans hissn, h.2⟩
    · obtain ⟨l, -, hout⟩ := hlast.extends
      right
      unfold ClosedEarly
      rw [hout]
      exact mem_append_left _ hc

theorem step_open (hlater : ¬ ClosedEarly (step c e)) (hne : ¬ Early c) :
    (step c e).issn = c.issn ∧ ¬ Early (step c e) := by
  cases step_sendStep c e with
  | moves _ hm => exact (hm.open hne).resolve_right hlater
  | fresh rand hact hnew ha =>
    obtain ⟨seg, hf⟩ := sendNew_fresh hnew.2.2.1
    have hopen : ¬ Early (sendNew c) := not_early_of_retransmits (hf.state ▸ hnew.2.2.1)
    obtain ⟨hissn, hopen'⟩ := (SendMoves.open ha.moves hopen).resolve_right hlater
    exact ⟨hissn.trans (by rw [hf.send]), hopen'⟩
  | ack seg env d hact hin hs hflag had hm =>
    have hopen : ¬ Early d := by
      rintro ⟨he, hoff⟩
      rw [had.inert.state] at he
      rcases hs with (h | h | h) | h | h | h | h <;> simp [EarlyState, h] at he
    have hissn : d.issn = c.issn := by
      rcases had.place hs with hk | ht
      · exact hk.issn
      · exact ht.issn
    obtain ⟨hissn', hopen'⟩ := (hm.open hopen).resolve_right hlater
    exact ⟨hissn'.trans hissn, hopen'⟩

theorem FreshSend.payloads (h : FreshSend c seg c') :
    payloads c'.out = payloads c.out ++ seg.data := by
  obtain ⟨w, pe, l, hl, hcut⟩ := cutSegment_frame c (nextDataLen c)
  obtain ⟨l', hl', hout⟩ := h.out
  have hcutOut : Tcp.payloads (cutSegment c (nextDataLen c)).2.out = Tcp.payloads c.out := by
    apply WriteMove.keepsPlace _ |>.stream
    exact ⟨w, pe, c.toMainCtl, c.nextAddr, l, Nat.le_refl _, hl, hcut⟩
  have hrest : Tcp.payloads l' = [] := (quiet_notes fun o ho => (hl' o ho).not_onStream).2
  rw [hout, payloads_append, payloads_append, hcutOut, hrest, append_nil]
  simp [Tcp.payloads, payloadOf]

theorem cut_inPlace (h : FinPlace c) (hnew : SendsNew e.md c)
    (hf : FreshSend c seg (sendNew c)) :
    InPlace (c.issn + 1) (payloads (sendNew c).out) (cutSegment c (nextDataLen c)).1 := by
  obtain ⟨-, -, hs, hround⟩ := hnew
  have hlen := hf.data_length hround.2.2.2.2.2 h.writing.write.buf
  have hend : c.sendSeqEnd = afterStream c := by
    rcases h.numbered.settled (not_earlyState_of_retransmits hs) with h | ⟨-, -, hnot⟩
    · exact h
    · exact absurd hs hnot
  rw [hf.payloads]
  obtain ⟨f, k, w, o, ol, rfl⟩ := hf.segment
  refine ⟨(payloads c.out).length, ?_, hend, ?_, ?_⟩
  · rw [length_append]
    exact Nat.le_add_right ..
  · rw [drop_left]
    exact prefix_refl _
  · show ((nextDataLen c).toNat : Int) = _
    rw [← hlen]
    rfl

theorem step_laid (h : FinPlace c) (hok : FinPlaceOk c e) (hl : Laid c) : Laid (step c e) := by
  have hlater := (step_finPlace h hok).later
  have hreh : ∀ {isn bytes} s f k w o ol, InPlace isn bytes s →
      InPlace isn bytes (reheaded s f k w o ol) := fun _ _ _ _ _ _ h => h
  by_cases he : Early c
  · -- nothing has been sent, and nothing is sent now
    have hnone : Conveys (fun _ => False) (step c e) :=
      step_conveys (fun _ _ _ _ _ _ hf => hf)
        (fun hnew => absurd he (not_early_of_retransmits hnew.2.2.1)) (hl.early he)
    exact ⟨fun _ => hnone, hnone.mono fun _ hf => hf.elim⟩
  · obtain ⟨hissn, hopen⟩ := step_open hlater he
    refine ⟨fun h => absurd h hopen, ?_⟩
    obtain ⟨l, hout⟩ := step_out c e
    rw [hissn]
    have hold : Conveys (InPlace (c.issn + 1) (payloads (step c e).out)) c := by
      rw [← hout, payloads_append]
      exact hl.placed.mono fun s hs => hs.append _
    apply step_send_invariant (fun _ _ hm h => h.move hreh hm) ?_
      (fun _ _ _ _ ha h => h.ack ha) hold
    intro rand seg hact hnew hf hi
    refine hi.fresh hreh hf ?_
    cases step_sendStep c e with
    | moves hnot => exact absurd hnew (hnot rand hact)
    | fresh _ _ _ ha =>
      rw [ha.out.payloads]
      exact cut_inPlace h hnew hf
    | ack _ _ _ hact' =>
      rw [hact] at hact'
      cases hact'

theorem initial_laid (h₀ : Initial c) : Laid c := by
  have hnone := (initial_sendStart h₀).conveys (fun _ => False)
  exact ⟨fun _ => hnone, hnone.mono fun _ hf => hf.elim⟩

theorem runConn_laid (h₀ : Initial c) {es : List Event} (hes : Steps step FinPlaceOk c es) :
    FinPlace (runConn c es) ∧ Laid (runConn c es) :=
  run_invariant_of_steps (I := fun c => FinPlace c ∧ Laid c)
    (fun _ _ h hok => ⟨step_finPlace h.1 hok, step_laid h.1 hok h.2⟩)
    ⟨initial_finPlace h₀, initial_laid h₀⟩ hes

theorem FinPlace.balance (h : FinPlace c) :
    payloads c.out ++ c.unsent ++ c.unconsumed = owed (notes c.out) := by
  have hbalance := h.writing.ok.balance
  unfold TcpConn.outlet at hbalance
  rwa [drop_zero, append_nil] at hbalance

/-- **Every byte goes out under its number**, when it is sent for the first time and when again. -/
theorem sent_in_place (h₀ : Initial c) {es : List Event} (hes : Steps step FinPlaceOk c es)
    {x : SegKind × TcpSeg} (hx : x ∈ (runConn c es).sent) (hk : x.1.OfStream) :
    InPlace ((runConn c es).issn + 1) (owed (notes (runConn c es).out)) x.2 := by
  obtain ⟨hplace, hlaid⟩ := runConn_laid h₀ hes
  rw [← hplace.balance, append_assoc]
  exact (hlaid.placed.sent x hx hk).append _

/-- Ten bytes and the FIN. -/
theorem sent_in_place_closed :
    (∃ x ∈ (runConn sampleConn closeAfterTen).sent, x.1 = .fresh) ∧
      ∀ x ∈ (runConn sampleConn closeAfterTen).sent, x.1.OfStream →
        InPlace ((runConn sampleConn closeAfterTen).issn + 1)
          (owed (notes (runConn sampleConn closeAfterTen).out)) x.2 :=
  ⟨by decide +kernel,
    fun _ hx hk => sent_in_place (.fresh sampleData ⟨1, 10, 2, 20⟩) (by decide +kernel) hx hk⟩

/-! ### Across the network -/

/-- What `fdf_to_tcp` makes of the frame of `s`: the number, the flags and `data_len` bytes. -/
structure Copy (s seg : TcpSeg) : Prop where
  seqNum : seg.seqNum = s.seqNum
  flags : seg.flags = s.flags
  data : seg.data = s.data.take s.dataLen.toNat
  dataLen : seg.dataLen = seg.data.length

/-- `seg` is a copy of a segment of `a` with data or a FIN, or of an empty one that has a number
    of the stream. -/
def Carried (a : TcpConn) (seg : TcpSeg) : Prop :=
  ∃ x ∈ a.sent, Copy x.2 seg ∧ (x.1.OfStream ∨ x.2.dataLen = 0 ∧
    (hasFlag x.2.flags FLAG_FIN = true ∨
      (x.2.seqNum - (a.issn + 1)).toNat ≤ streamSpan (payloads a.out) a.finSent))

variable {a : TcpConn}

theorem FinPlace.fin_at (h : FinPlace a) {x : SegKind × TcpSeg} (hx : x ∈ a.sent)
    (hf : hasFlag x.2.flags FLAG_FIN) :
    a.finSent = true ∧ x.2.seqNum + x.2.dataLen32 = afterStream a := by
  obtain ⟨hsent, hnum⟩ := h.segs.sent x hx hf
  refine ⟨hsent, ?_⟩
  rw [h.numbered.fin hsent, finNumber] at hnum
  grind

theorem Carried.piece (h : Carried a seg) (hplace : FinPlace a) (hlaid : Laid a)
    (hspan : streamSpan (payloads a.out) a.finSent < 2 ^ 32) :
    Piece (payloads a.out) (a.issn + 1) a.finSent seg := by
  obtain ⟨x, hx, hcopy, hkind⟩ := h
  -- the place of the segment, and what it carries
  obtain ⟨p, hp, hseq, hdata, hlen⟩ : ∃ p, p ≤ streamSpan (payloads a.out) a.finSent ∧
      x.2.seqNum = a.issn + 1 + UInt32.ofNat p ∧ seg.data <+: (payloads a.out).drop p ∧
      x.2.dataLen32 = UInt32.ofNat seg.data.length := by
    rcases hkind with hk | ⟨hzero, hk⟩
    · obtain ⟨p, hp, hseq, hdata, hlen⟩ := hlaid.placed.sent x hx hk
      have hall : seg.data = x.2.data := by
        rw [hcopy.data, hlen, Int.toNat_natCast, take_length]
      refine ⟨p, hp.trans (Nat.le_add_right ..), hseq, hall ▸ hdata, ?_⟩
      rw [dataLen32_of_length hlen, hall]
    · have hnil : seg.data = [] := by
        rw [hcopy.data, hzero]
        rfl
      have hzero32 : x.2.dataLen32 = 0 := by
        rw [TcpSeg.dataLen32, hzero]
        rfl
      refine ⟨(x.2.seqNum - (a.issn + 1)).toNat, ?_, ?_, by simp [hnil], by simp [hnil, hzero32]⟩
      · rcases hk with hf | hin
        · have hend := (hplace.fin_at hx hf).2
          rw [hzero32, UInt32.add_zero] at hend
          unfold streamSpan at hspan ⊢
          rw [hend, afterStream, toNat_seq_sub _ (by omega)]
          exact Nat.le_add_right ..
        · exact hin
      · rw [UInt32.ofNat_toNat]
        grind
  have hfit : p + seg.data.length ≤ streamSpan (payloads a.out) a.finSent := by
    have := hdata.length_le
    rw [length_drop] at this
    unfold streamSpan at *
    omega
  refine ⟨p, hp, hcopy.seqNum.trans hseq, prefix_iff_eq_take.mp hdata, hcopy.dataLen, ?_⟩
  intro hf
  rw [hcopy.flags] at hf
  obtain ⟨hsent, hend⟩ := hplace.fin_at hx hf
  rw [hseq, hlen, seq_add] at hend
  refine ⟨hsent, seq_inj (by omega) ?_ hend⟩
  unfold streamSpan at hspan
  omega

/-- A FIN follows all that was written. -/
theorem FinPlace.sent_all (h : FinPlace a) {p : Nat} (hlt : (payloads a.out).length < p)
    (hp : p ≤ streamSpan (payloads a.out) a.finSent) :
    payloads a.out = owed (notes a.out) := by
  have hsent : a.finSent = true := by
    cases hf : a.finSent with
    | true => rfl
    | false =>
      simp [streamSpan, hf] at hp
      omega
  obtain ⟨hunsent, hrest⟩ := h.fin.nothing_left hsent
  rw [← h.balance, hunsent, hrest, append_nil, append_nil]

theorem FinPlace.take_written (h : FinPlace a) {p : Nat}
    (hp : p ≤ streamSpan (payloads a.out) a.finSent) :
    (owed (notes a.out)).take p = (payloads a.out).take p := by
  by_cases hle : p ≤ (payloads a.out).length
  · rw [← h.balance, append_assoc, take_append_of_le_length hle]
  · rw [← h.sent_all (by omega) hp]

/-- **From one application to the other.**  Whatever the network loses, repeats or reorders, the
    receiver hands over a prefix of what was written, and all of it once it has taken the FIN. -/
theorem transfer_faithful {b : TcpConn} (h₀ : Initial a) (es fs : List Event)
    (hes : Steps step FinPlaceOk a es)
    (hspan : streamSpan (payloads (runConn a es).out) (runConn a es).finSent < 2 ^ 32)
    (hb : AtStart ((runConn a es).issn + 1) b)
    (hfs : ∀ e ∈ fs, e.md.flowDaemon = true ∧
      ∀ seg env, e.act = .recv seg env → Carried (runConn a es) seg) :
    let written := owed (notes (runConn a es).out)
    delivered (runConn b fs).out <+: written ∧
      (PeerDone (runConn b fs).state → delivered (runConn b fs).out = written) := by
  obtain ⟨hplace, hlaid⟩ := runConn_laid h₀ hes
  generalize runConn a es = a at *
  obtain ⟨⟨r, hr⟩, -⟩ : Streams (payloads a.out) (a.issn + 1) a.finSent (runConn b fs) :=
    run_invariant_of_forall (fun _ _ h he => step_streams hspan he.1
      (fun seg env hact => (he.2 seg env hact).piece hplace hlaid hspan) h) hb.streams hfs
  intro written
  rw [hr.data]
  constructor
  · rw [← hplace.take_written hr.span]
    exact take_prefix ..
  · intro hdone
    have hlen := hr.done hdone
    exact (take_of_length_le (by omega)).trans (hplace.sent_all (by omega) hr.span)

/-- The other side, which expects 101 next. -/
def sampleOther : TcpConn :=
  runConn sampleConn [sampleEvent (.connect sampleFcf 500),
    sampleRecv { seqNum := 100, seqEnd := 100, ackNum := 501, flags := FLAG_SYN ||| FLAG_ACK,
                 winSize := 4000 }]

/-- The data and the FIN arrive in reverse order. -/
def crossing : List Event :=
  ((runConn sampleConn closeAfterTen).sent.drop 2).reverse.map fun x => sampleRecv x.2

theorem crossing_carried (h : ∀ x ∈ (runConn sampleConn closeAfterTen).sent.drop 2, x ∈ a.sent) :
    ∀ e ∈ crossing, e.md.flowDaemon = true ∧
      ∀ seg env, e.act = .recv seg env → Parsed seg ∧ Carried a seg := by
  have hsent : ∀ x ∈ (runConn sampleConn closeAfterTen).sent.drop 2,
      x.2.seqEnd = x.2.seqNum + x.2.dataLen32 ∧ x.2.dataLen < 2 ^ 31 ∧
      x.2.data = x.2.data.take x.2.dataLen.toNat ∧ x.2.dataLen = x.2.data.length ∧
      ((x.1 = .fresh ∨ x.1 = .resend) ∨ x.2.dataLen = 0 ∧ hasFlag x.2.flags FLAG_FIN = true) := by
    decide +kernel
  intro e he
  obtain ⟨x, hx, rfl⟩ := mem_map.mp he
  rw [mem_reverse] at hx
  obtain ⟨hstop, hint, hdata, hlen, hkind⟩ := hsent x hx
  refine ⟨rfl, ?_⟩
  rintro seg env ⟨⟩
  exact ⟨⟨hstop, by omega, hint⟩, x, h x hx, ⟨rfl, rfl, hdata, hlen⟩,
    hkind.imp_right fun h => ⟨h.1, .inl h.2⟩⟩

theorem transfer_faithful_crossing :
    (runConn sampleOther crossing).state = .closeWait ∧
      delivered (runConn sampleOther crossing).out = [1, 2, 3, 4, 5, 6, 7, 8, 9, 10] := by
  have hdone : (runConn sampleOther crossing).state = .closeWait := by decide +kernel
  have hcross := crossing_carried (a := runConn sampleConn closeAfterTen)
    fun _ => mem_of_mem_drop
  have h := transfer_faithful (.fresh sampleData ⟨1, 10, 2, 20⟩) (b := sampleOther) closeAfterTen
    crossing (by decide +kernel) (by decide +kernel)
    ⟨by decide +kernel, by decide +kernel, by decide +kernel, by decide +kernel⟩
    fun e he => ⟨(hcross e he).1, fun seg env hact => ((hcross e he).2 seg env hact).2⟩
  exact ⟨hdone, (h.2 (.inr (.inr (.inl hdone)))).trans (by decide +kernel)⟩

/-! ### What is acknowledged has been handed over -/

/-- Every acknowledgment that was sent or is kept in `ack_seg` has a number with `K`. -/
structure Acks (K : UInt32 → Prop) (c : TcpConn) : Prop where
  ackSeg : hasFlag c.ackSeg.flags FLAG_ACK = true → K c.ackSeg.ackNum
  sent : ∀ x ∈ c.sent, hasFlag x.2.flags FLAG_ACK = true → K x.2.ackNum

/-- The stream before the number `k` has been handed over. -/
def Confirmed (s : List UInt8) (isn : UInt32) (closes : Bool) (c : TcpConn) (k : UInt32) : Prop :=
  ∃ p, p ≤ streamSpan s closes ∧ k = isn + UInt32.ofNat p ∧ s.take p <+: delivered c.out

/-- **Invariant of the receiver.** -/
structure Confirms (s : List UInt8) (isn : UInt32) (closes : Bool) (c : TcpConn) : Prop where
  say : SayInv c
  recv : RecvInv c
  early : NothingEarly c
  streams : Streams s isn closes c
  acks : Acks (Confirmed s isn closes c) c

variable {K K' : UInt32 → Prop} {s : List UInt8} {closes : Bool}

theorem Acks.mono (h : Acks K c) (hK : ∀ k, K k → K' k) : Acks K' c :=
  ⟨fun hf => hK _ (h.ackSeg hf), fun x hx hf => hK _ (h.sent x hx hf)⟩

theorem Acks.added (h : Acks K c) {l : List (SegKind × TcpSeg)} (hl : d.sent = c.sent ++ l)
    (hnew : ∀ x ∈ l, hasFlag x.2.flags FLAG_ACK = true → K x.2.ackNum)
    (hack : d.ackSeg = c.ackSeg ∨ (.ack, d.ackSeg) ∈ l) : Acks K d := by
  constructor
  · rcases hack with hack | hack
    · rw [hack]
      exact h.ackSeg
    · exact hnew _ hack
  · rw [hl]
    exact forall_mem_append.mpr ⟨h.sent, hnew⟩

theorem Speaks.acks (h : Speaks c d) (ha : Acks K c) (hr : K d.recvSeqNum) : Acks K d := by
  obtain ⟨l, hl, hsaid, -, hack⟩ := h.segs
  refine ha.added hl ?_ hack
  intro x hx hf
  rw [(hsaid x hx).ackNum hf]
  exact hr

theorem Heard.acks (h : Heard c seg d) (ha : Acks K c) (hr : K d.recvSeqNum)
    (hs : ¬ Resets c seg) : Acks K d := by
  cases h with
  | again _ _ _ h =>
    -- `ack_seg` goes out as it is, with the number of the last acknowledgment
    refine ha.added h.sent ?_ (.inl h.ackSeg)
    intro x hx
    rw [mem_singleton.mp hx]
    exact ha.ackSeg
  | now _ _ _ h => exact h.speaks.acks ha hr
  | reset h => exact absurd h hs
  | closeWait _ h => exact h.speaks.acks ha hr
  | speaks _ _ _ h => exact h.acks ha hr

theorem step_confirms (hspan : streamSpan s closes < 2 ^ 32) (hflow : e.md.flowDaemon)
    (hseg : ∀ seg env, e.act = .recv seg env → Parsed seg ∧ Piece s isn closes seg)
    (h : Confirms s isn closes c) : Confirms s isn closes (step c e) := by
  have hparsed : ParsedStep c e := by
    intro seg hin
    obtain ⟨env, hact⟩ := Event.act_of_arriving hin
    exact (hseg seg env hact).1
  have hstreams := step_streams hspan hflow (fun seg env hact => (hseg seg env hact).2) h.streams
  refine ⟨step_sayInv e h.say h.recv.noneDue, step_recvInv h.recv h.early hparsed,
    step_nothingEarly c e h.early, hstreams, ?_⟩
  obtain ⟨⟨r, hr⟩, -⟩ := hstreams
  have hnow : Confirmed s isn closes (step c e) (step c e).recvSeqNum :=
    ⟨r, hr.span, hr.seq, hr.data ▸ prefix_refl _⟩
  have hold : Acks (Confirmed s isn closes (step c e)) c := by
    obtain ⟨l, hout⟩ := step_out c e
    apply h.acks.mono
    rintro k ⟨p, hp, hk, hpre⟩
    refine ⟨p, hp, hk, hpre.trans ?_⟩
    rw [← hout, delivered_append]
    exact prefix_append ..
  by_cases ht : ∃ seg, e.taken c seg
  · obtain ⟨seg, ht⟩ := ht
    refine (step_heard h.say.delay h.recv.noneDue ht).acks hold hnow ?_
    rintro ⟨-, -, hs⟩
    obtain ⟨⟨q, hq⟩, -⟩ := h.streams
    rcases hs with ⟨hs, -⟩ | ⟨hs, -⟩ <;> have := hq.states <;>
      simp [hs, Receiving, PeerDone] at this
  · exact (step_speaks h.say.delay fun seg hs => ht ⟨seg, hs⟩).acks hold hnow

/-- The numbers that `send_seq_num` takes: the initial one, the next, and those of the
    acknowledgments that arrive. -/
def AckedTo (K : UInt32 → Prop) (c : TcpConn) : Prop :=
  c.sendSeqNum = c.issn ∨ c.sendSeqNum = c.issn + 1 ∨ K c.sendSeqNum

theorem AckedTo.congr (h : AckedTo K c) (hs : c'.toSendSide = c.toSendSide) : AckedTo K c' := by
  unfold AckedTo
  rw [hs]
  exact h

theorem SendMove.ackedTo (h : SendMove c c') (hi : AtIssn c) (hf : AckedTo K c) : AckedTo K c' := by
  have written {c' : TcpConn} (hm : WriteMove c c') : AckedTo K c' := by
    obtain ⟨w, pe, m, n, l, -, -, rfl⟩ := hm
    exact hf
  have resent {c' : TcpConn} {n : TcpNode TcpSeg} (hr : Resend c n c') : AckedTo K c' := by
    obtain ⟨f, k, w, o, ol, hsend, -⟩ := hr.segment
    unfold AckedTo
    rw [hsend]
    exact hf
  cases h with
  | same h | close h | stop h => exact hf.congr h.send
  | data h => exact hf.congr h.send
  | early h =>
    rcases h.send with hs | ⟨rand, hs⟩
    · exact hf.congr hs
    · exact .inl (by rw [hs])
  | opened seg h =>
    have he : Early c := by
      rcases h.before with hs | hs <;> simp [Early, EarlyState, hs]
    refine .inr (.inl ?_)
    rw [h.send]
    show seg.ackNum = c.issn + 1
    rw [h.ack, hi he]
  | fin | gbn => exact hf
  | timeout n h | fast n h | next n h => exact resent h
  | write | writeEarly | refuse | interrupt | requestFire => exact written (by simp)

theorem SendMoves.ackedTo (h : SendMoves c c') (hi : AtIssn c) (hf : AckedTo K c) :
    AckedTo K c' := by
  have both : AtIssn c' ∧ AckedTo K c' := by
    induction h with
    | refl => exact ⟨hi, hf⟩
    | tail _ hlast ih => exact ⟨hlast.atIssn ih.1, hlast.ackedTo ih.1 ih.2⟩
  exact both.2

theorem AckStep.ackedTo (h : AckStep c seg d) (hf : AckedTo K c) (hk : K seg.ackNum) :
    AckedTo K d := by
  cases h with
  | outside | unsent | duplicate => exact hf
  | all | upTo | fin => exact .inr (.inr hk)

theorem step_ackedTo (hk : ∀ seg env, e.act = .recv seg env → hasFlag seg.flags FLAG_ACK = true →
    K seg.ackNum) (hi : AtIssn c) (h : AckedTo K c) : AckedTo K (step c e) := by
  cases step_sendStep c e with
  | moves _ hm => exact hm.ackedTo hi h
  | fresh _ _ hnew ha =>
    obtain ⟨seg, hf⟩ := sendNew_fresh hnew.2.2.1
    refine AckedTo.congr (c := sendNew c) ?_ (congrArg SendPart.toSendSide ha.part)
    unfold AckedTo
    rw [hf.send]
    exact h
  | ack seg env d hact _ _ hflag had _ hkept =>
    exact (had.ackedTo h (hk seg env hact hflag)).congr hkept.send

/-- **What is acknowledged has been handed over.**  Two connections, and a network that loses,
    repeats and reorders what both send: when the sender takes bytes as acknowledged, and drops
    them, the application at the other side has been given them. -/
theorem acked_delivered {b : TcpConn} (h₀ : Initial a) (hb₀ : Initial b) (es gs fs : List Event)
    (hes : Steps step FinPlaceOk a es) (hgs : Steps step ParsedStep b gs)
    (hspan : streamSpan (payloads (runConn a es).out) (runConn a es).finSent < 2 ^ 32)
    (hb : AtStart ((runConn a es).issn + 1) (runConn b gs))
    (hnone : Acks (· = (runConn a es).issn + 1) (runConn b gs))
    (hfs : ∀ e ∈ fs, e.md.flowDaemon = true ∧
      ∀ seg env, e.act = .recv seg env → Parsed seg ∧ Carried (runConn a es) seg)
    (hback : ∀ e ∈ es, ∀ seg env, e.act = .recv seg env → hasFlag seg.flags FLAG_ACK = true →
      ∃ x ∈ (runConn (runConn b gs) fs).sent,
        hasFlag x.2.flags FLAG_ACK = true ∧ seg.ackNum = x.2.ackNum)
    (hsyn : (runConn a es).sendSeqNum ≠ (runConn a es).issn) :
    (owed (notes (runConn a es).out)).take
        ((runConn a es).sendSeqNum - ((runConn a es).issn + 1)).toNat <+:
      delivered (runConn (runConn b gs) fs).out := by
  obtain ⟨hplace, hlaid⟩ := runConn_laid h₀ hes
  have hacked : ∀ {K : UInt32 → Prop}, (∀ e ∈ es, ∀ seg env, e.act = .recv seg env →
      hasFlag seg.flags FLAG_ACK = true → K seg.ackNum) → AckedTo K (runConn a es) := by
    intro K hK
    exact (run_invariant_of_forall (I := fun c => AtIssn c ∧ AckedTo K c)
      (fun c e h he => ⟨step_atIssn c e h.1, step_ackedTo he h.1 h.2⟩)
      ⟨runConn_atIssn h₀ [], .inl (initial_sendStart h₀).seqNum⟩ hK).2
  generalize runConn a es = a at *
  have hstart : Confirms (payloads a.out) (a.issn + 1) a.finSent (runConn b gs) := by
    obtain ⟨hrecv, hearly⟩ := runConn_recvInv hb₀ hgs
    refine ⟨(runConn_sayInv hb₀ hgs).1, hrecv, hearly, hb.streams, hnone.mono ?_⟩
    rintro k rfl
    exact ⟨0, Nat.zero_le _, (UInt32.add_zero _).symm, nil_prefix⟩
  have hend : Confirms _ _ _ (runConn (runConn b gs) fs) :=
    run_invariant_of_forall (fun _ _ h he => step_confirms hspan he.1
      (fun seg env hact => ⟨(he.2 seg env hact).1,
        (he.2 seg env hact).2.piece hplace hlaid hspan⟩) h) hstart hfs
  have hnums := hacked fun e he seg env hact hflag => by
    obtain ⟨x, hx, hf, hnum⟩ := hback e he seg env hact hflag
    exact hnum ▸ hend.acks.sent x hx hf
  rcases hnums with h | h | ⟨p, hp, hnum, hpre⟩
  · exact absurd h hsyn
  · rw [h, UInt32.sub_self]
    exact nil_prefix
  · rw [hnum, toNat_seq_sub _ (by omega), hplace.take_written hp]
    exact hpre

/-- The other side of `sampleOpen`, which has answered the SYN. -/
def sampleAnswer : TcpConn :=
  tcpListenChild sampleData sampleConn
    { seqNum := 100, seqEnd := 100, flags := FLAG_SYN, winSize := 4000 } 500

def closeAcked : List Event := closeAfterTen ++ [sampleRecv (sampleAck 501 112)]

/-- The FIN is acknowledged, and with it the data. -/
theorem acked_delivered_crossing :
    let b := runConn sampleAnswer [sampleRecv (sampleAck 101 501)]
    (runConn sampleConn closeAcked).sendSeqNum = 112 ∧
      [1, 2, 3, 4, 5, 6, 7, 8, 9, 10] <+: delivered (runConn b crossing).out := by
  have hback : ∀ e ∈ closeAcked, ∀ seg ∈ e.arriving, hasFlag seg.flags FLAG_ACK = true →
      ∃ x ∈ (runConn (runConn sampleAnswer [sampleRecv (sampleAck 101 501)]) crossing).sent,
        hasFlag x.2.flags FLAG_ACK = true ∧ seg.ackNum = x.2.ackNum := by
    decide +kernel
  have h := acked_delivered (.fresh sampleData ⟨1, 10, 2, 20⟩) (b := sampleAnswer)
    (.child sampleData sampleConn _ 500) closeAcked [sampleRecv (sampleAck 101 501)] crossing
    (by decide +kernel) (by decide +kernel) (by decide +kernel)
    ⟨by decide +kernel, by decide +kernel, by decide +kernel, by decide +kernel⟩
    ⟨by decide +kernel, by decide +kernel⟩ (crossing_carried (by decide +kernel))
    (fun e he seg env hact => hback e he seg (Event.arriving_of_act hact)) (by decide +kernel)
  exact ⟨by decide +kernel, .trans (by decide +kernel) h⟩

end FinsStack.Tcp
