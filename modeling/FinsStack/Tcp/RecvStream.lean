import FinsStack.Lib.Seq32
import FinsStack.Tcp.StateMachine

/-!
# The received stream

The peer's stream is a byte string `s` whose position 0 has the sequence number
`isn`, ended by a FIN or not.  However it is cut into segments, repeated, lost and
reordered, what a connection hands to the daemon is the prefix of `s` up to
`recv_seq_num`.  The invariant `Received` carries the position of `recv_seq_num`
through every segment of the drain loop and every event of a run.
-/

namespace FinsStack.Tcp

open List Lib

/-! ### Streams and their pieces -/

def delivered (l : List Out) : List UInt8 :=
  l.flatMap fun
    | .data _ bytes => bytes
    | _ => []

@[simp] theorem delivered_append (l l' : List Out) :
    delivered (l ++ l') = delivered l ++ delivered l' :=
  flatMap_append

theorem delivered_setState (c : TcpConn) (new : TcpState) :
    delivered (c.setState new).out = delivered c.out := by
  show delivered (c.out ++ [.edge c.state new]) = _
  rw [delivered_append]
  exact append_nil _

theorem delivered_sending {l : List Out} (hl : ∀ o ∈ l, Sending o) : delivered l = [] := by
  apply flatMap_eq_nil_iff.mpr
  intro o ho
  have hs := hl o ho
  cases o with
  | data addr bytes => exact hs.elim
  | _ => rfl

def streamSpan (s : List UInt8) (closes : Bool) : Nat := s.length + closes.toNat

/-- `seg` carries a contiguous piece of the stream, possibly none of it; a FIN is at
    the end of the stream only. -/
def Piece (s : List UInt8) (isn : UInt32) (closes : Bool) (seg : TcpSeg) : Prop :=
  ∃ p, p ≤ streamSpan s closes ∧ seg.seqNum = isn + UInt32.ofNat p ∧
    seg.data = (s.drop p).take seg.data.length ∧ seg.dataLen = seg.data.length ∧
    (hasFlag seg.flags FLAG_FIN = true → closes = true ∧ p + seg.data.length = s.length)

variable {seg : TcpSeg} {isn : UInt32} {c : TcpConn} {len : Nat}

theorem dataLen32_of_length (h : seg.dataLen = seg.data.length) :
    seg.dataLen32 = UInt32.ofNat seg.data.length := by
  rw [TcpSeg.dataLen32, h]
  exact ofInt_natCast _

section

variable {s : List UInt8} {isn : UInt32} {closes : Bool}

variable {seg : TcpSeg} {r : Nat} {c c' : TcpConn} {md : TcpData}

theorem Piece.at_pos (hspan : streamSpan s closes < 2 ^ 32) (h : Piece s isn closes seg)
    (hr : r ≤ streamSpan s closes) (hseq : seg.seqNum = isn + UInt32.ofNat r) :
    seg.data = (s.drop r).take seg.data.length ∧ seg.dataLen = seg.data.length ∧
      (hasFlag seg.flags FLAG_FIN → closes ∧ r + seg.data.length = s.length) := by
  obtain ⟨p, hp, hpseq, hdata, hlen, hfin⟩ := h
  have hpr : p = r := seq_inj (by omega) (by omega) (hpseq.symm.trans hseq)
  rw [hpr] at hdata hfin
  exact ⟨hdata, hlen, hfin⟩

/-- The invariant: `recv_seq_num` stands at position `r` of the stream, everything
    before it has been handed over, and what is stored are pieces of the stream. -/
structure Received (s : List UInt8) (isn : UInt32) (closes : Bool) (r : Nat) (c : TcpConn) :
    Prop where
  seq : c.recvSeqNum = isn + UInt32.ofNat r
  data : delivered c.out = s.take r
  stored : ∀ n ∈ c.recvQueue.nodes, n.seqNum = n.data.seqNum ∧ Piece s isn closes n.data
  span : r ≤ streamSpan s closes
  receiving : Receiving c.state → r ≤ s.length
  done : PeerDone c.state → r = s.length + 1
  states : Receiving c.state ∨ PeerDone c.state ∨ c.state = .closed

theorem take_append_piece {n : Nat} (hdata : ((s.drop r).take n).length = n) :
    s.take r ++ (s.drop r).take n = s.take (r + n) ∧ (n ≠ 0 → r + n ≤ s.length) := by
  refine ⟨(take_add ..).symm, ?_⟩
  intro hn
  rw [length_take, length_drop] at hdata
  omega

theorem not_peerDone_of_receiving {st : TcpState} (h : Receiving st) : ¬ PeerDone st := by
  rcases h with rfl | rfl | rfl <;> rintro (h | h | h | h) <;> cases h

section

variable (h : Received s isn closes r c)
include h

theorem Received.congr
    (hrecv : Receiving c'.state → Receiving c.state) (hdone : PeerDone c'.state → PeerDone c.state)
    (hst : Receiving c'.state ∨ PeerDone c'.state ∨ c'.state = .closed)
    (hseq : c'.recvSeqNum = c.recvSeqNum) (hq : c'.recvQueue = c.recvQueue)
    (hout : delivered c'.out = delivered c.out) : Received s isn closes r c' where
  seq := hseq.trans h.seq
  data := hout.trans h.data
  stored := hq ▸ h.stored
  span := h.span
  receiving := fun hs => h.receiving (hrecv hs)
  done := fun hs => h.done (hdone hs)
  states := hst

theorem Received.same (hst : c'.state = c.state)
    (hseq : c'.recvSeqNum = c.recvSeqNum) (hq : c'.recvQueue = c.recvQueue)
    (hout : delivered c'.out = delivered c.out) : Received s isn closes r c' :=
  h.congr (hst ▸ id) (hst ▸ id) (hst ▸ h.states) hseq hq hout

theorem Received.advance (hd : seg.dataLen ≠ 0)
    (hdata : seg.data = (s.drop r).take seg.data.length) (hlen : seg.dataLen = seg.data.length)
    (hst : Receiving c'.state) (hseq : c'.recvSeqNum = c.recvSeqNum + seg.dataLen32)
    (hq : c'.recvQueue = c.recvQueue) (hout : delivered c'.out = delivered c.out ++ seg.data) :
    Received s isn closes (r + seg.data.length) c' := by
  have hne : seg.data.length ≠ 0 := by omega
  obtain ⟨htake, hle⟩ := take_append_piece (s := s) (r := r) (n := seg.data.length)
    (by rw [← hdata])
  have hle := hle hne
  rw [← hdata] at htake
  refine ⟨?_, ?_, hq ▸ h.stored, ?_, fun _ => hle, ?_, .inl hst⟩
  · rw [hseq, h.seq, dataLen32_of_length hlen, seq_add]
  · rw [hout, h.data, htake]
  · exact Nat.le_trans hle (Nat.le_add_right _ _)
  · intro hdone
    exact absurd hdone (not_peerDone_of_receiving hst)

theorem Received.finish (hdata : seg.data = (s.drop r).take seg.data.length)
    (hlen : seg.dataLen = seg.data.length) (hfin : closes ∧ r + seg.data.length = s.length)
    (hst : PeerDone c'.state) (hseq : c'.recvSeqNum = c.recvSeqNum + (seg.dataLen32 + 1))
    (hq : c'.recvQueue = c.recvQueue) (hout : delivered c'.out = delivered c.out ++ seg.data) :
    Received s isn closes (s.length + 1) c' := by
  obtain ⟨hcloses, hend⟩ := hfin
  refine ⟨?_, ?_, hq ▸ h.stored, ?_, ?_, fun _ => rfl, .inr (.inl hst)⟩
  · rw [hseq, h.seq, dataLen32_of_length hlen, ← hend]
    show _ + (_ + UInt32.ofNat 1) = _
    rw [← UInt32.ofNat_add, seq_add, Nat.add_assoc]
  · have hall : s.take r ++ (s.drop r).take seg.data.length = s := by
      rw [← take_add, hend, take_length]
    rw [← hdata] at hall
    rw [hout, h.data, take_of_length_le (Nat.le_succ _)]
    exact hall
  · rw [streamSpan, hcloses]
    exact Nat.le_refl _
  · intro hrecv
    exact absurd hst (not_peerDone_of_receiving hrecv)

theorem Received.no_data (hs : PeerDone c.state)
    (hdata : seg.data = (s.drop r).take seg.data.length) : seg.data = [] := by
  have hnil : s.drop r = [] := by
    rw [h.done hs]
    exact drop_eq_nil_of_le (Nat.le_succ _)
  rw [hnil, take_nil] at hdata
  exact hdata

end

def handed (ret : FlagsRet) (seg : TcpSeg) : List UInt8 := if ret = .deliver then seg.data else []

/-- A segment at `recv_seq_num` is processed: `c1` is the connection after its flags,
    `c'` the one after what they let through was handed over. -/
theorem FlagsStep.received {c1 : TcpConn} {ret : FlagsRet} (hspan : streamSpan s closes < 2 ^ 32)
    (hstep : FlagsStep c seg ret c1) (hseg : Piece s isn closes seg)
    (hplace : seg.seqNum = c.recvSeqNum) (h : Received s isn closes r c) (hst : c'.state = c1.state)
    (hseq : c'.recvSeqNum = c1.recvSeqNum) (hq : c'.recvQueue = c1.recvQueue)
    (hout : delivered c'.out = delivered c1.out ++ handed ret seg) :
    ∃ r', Received s isn closes r' c' := by
  obtain ⟨hdata, hlen, hfin⟩ := hseg.at_pos hspan h.span (hplace.trans h.seq)
  have hempty : seg.dataLen = 0 → seg.data = [] := by
    intro h0
    exact eq_nil_of_length_eq_zero (by omega)
  cases hstep with
  | keep _ hk =>
    refine ⟨r, h.same hst hseq hq ?_⟩
    have hnone : handed ret seg = [] := by
      unfold handed
      split
      · by_cases hd : seg.dataLen = 0
        · exact hempty hd
        · exact h.no_data (hk ‹_› hd) hdata
      · rfl
    rw [hout, hnone, append_nil]
  | data hs hd =>
    exact ⟨_, h.advance hd hdata hlen (hst ▸ hs) hseq hq hout⟩
  | finWait2 hs ht hd =>
    refine ⟨r, h.congr ?_ ?_ (.inl (.inr (.inr hst))) hseq hq ?_⟩
    · intro _
      exact .inr (.inl hs)
    · rw [hst]
      exact fun hdone => absurd hdone (not_peerDone_of_receiving (.inr (.inr rfl)))
    · rw [hout, delivered_setState]
      exact append_nil _
  | finWait2Data hs ht hd =>
    refine ⟨_, h.advance hd hdata hlen (.inr (.inr hst)) hseq hq ?_⟩
    rw [hout]
    exact congrArg (· ++ seg.data) (delivered_setState c .finWait2)
  | timeWait hs ht =>
    refine ⟨r, h.congr ?_ (fun _ => .inl hs) (.inr (.inl (.inr (.inl hst)))) hseq hq ?_⟩
    · rw [hst]
      exact fun hr => absurd (.inr (.inl rfl)) (not_peerDone_of_receiving hr)
    · rw [hout]
      exact (append_nil _).trans (delivered_setState c .timeWait)
  | closed _ hs ht =>
    have hdone : PeerDone c.state := .inr (.inr (.inr hs))
    refine ⟨r, h.congr ?_ (fun _ => hdone) (.inr (.inr hst)) hseq hq ?_⟩
    · rw [hst]
      rintro (hr | hr | hr) <;> cases hr
    · have hnone : handed ret seg = [] := by
        unfold handed
        split
        · exact h.no_data hdone hdata
        · rfl
      rw [hout, hnone, append_nil, delivered_setState]
  | fin new g he hf =>
    refine ⟨_, h.finish hdata hlen (hfin hf) (hst ▸ finEdge_peerDone he) hseq hq ?_⟩
    rw [hout]
    refine congrArg (· ++ seg.data) ?_
    show delivered (((c.out ++ [.fin _ _]) ++ [.edge _ _]) ++ [.alert _ _ _ _]) = _
    rw [delivered_append, delivered_append, delivered_append]
    simp [delivered]

theorem SegStep.received (hspan : streamSpan s closes < 2 ^ 32) (hflow : md.flowDaemon)
    (hstep : SegStep md c seg c') (hseg : Piece s isn closes seg)
    (hplace : seg.seqNum = c.recvSeqNum) (h : Received s isn closes r c) :
    ∃ r', Received s isn closes r' c' := by
  cases hstep with
  | options c1 o hf =>
    exact hf.received hspan hseg hplace h rfl rfl rfl (append_nil _).symm
  | handOff c1 hf hd =>
    refine hf.received hspan hseg hplace h rfl rfl rfl ?_
    show delivered (c1.out ++ [.data c1.addr seg.data]) = _
    rw [delivered_append]
    exact congrArg (delivered c1.out ++ ·) (append_nil _)
  | bare ret c1 hf hdeliver =>
    refine hf.received hspan hseg hplace h rfl rfl rfl ?_
    have hnone : handed ret seg = [] := by
      unfold handed
      split
      · obtain ⟨-, hlen, -⟩ := hseg.at_pos hspan h.span (hplace.trans h.seq)
        by_cases hd : seg.dataLen = 0
        · exact eq_nil_of_length_eq_zero (by omega)
        · rw [hdeliver ‹_› hd] at hflow
          cases hflow
      · rfl
    rw [hnone, append_nil]

theorem Received.popRecv (h : Received s isn closes r c) : Received s isn closes r c.popRecv :=
  ⟨h.seq, h.data, fun n hn => h.stored n (tcpQueueRemoveFront_mem hn), h.span, h.receiving,
    h.done, h.states⟩

theorem Received.drained {n : TcpNode TcpSeg} {ns : List (TcpNode TcpSeg)}
    (h : Received s isn closes r c) (hspan : streamSpan s closes < 2 ^ 32)
    (hflow : md.flowDaemon) (hns : c.recvQueue.nodes = n :: ns)
    (hseq : n.seqNum = c.recvSeqNum) (hstep : SegStep md c.popRecv n.data c') :
    ∃ r', Received s isn closes r' c' := by
  obtain ⟨hn, hpiece⟩ := h.stored n (by rw [hns]; exact mem_cons_self ..)
  exact hstep.received hspan hflow hpiece (hn.symm.trans hseq) h.popRecv

theorem Received.store {q : TcpQueue TcpSeg} (h : Received s isn closes r c)
    (hseg : Piece s isn closes seg)
    (hins : tcpQueueInsert c.recvQueue (storedNode c seg) c.recvSeqNum c.recvSeqEnd = some q) :
    Received s isn closes r { c with recvQueue := q, nextAddr := c.nextAddr + 1 } := by
  refine ⟨h.seq, h.data, ?_, h.span, h.receiving, h.done, h.states⟩
  intro n hn
  rcases tcpQueueInsert_mem hins n hn with hn | hn
  · rw [hn]
    exact ⟨rfl, hseg⟩
  · exact h.stored n hn

/-- **Handling one segment** keeps the stream: the segment itself, and every stored one
    the drain loop reaches. -/
theorem tcpHandleData_received (hspan : streamSpan s closes < 2 ^ 32) (hflow : md.flowDaemon)
    (hseg : Piece s isn closes seg) (h : ∃ r, Received s isn closes r c) :
    ∃ r, Received s isn closes r (tcpHandleData md c seg).1 := by
  refine tcpHandleData_induct (P := fun c => ∃ r, Received s isn closes r c) ?_ ?_ ?_ ?_ ?_ ?_ h
  · rintro c w ⟨r, h⟩
    exact ⟨r, h.same rfl rfl rfl rfl⟩
  · rintro c m ⟨r, h⟩
    exact ⟨r, h.same rfl rfl rfl rfl⟩
  · rintro c n ns - ⟨r, h⟩
    exact ⟨r, h.popRecv⟩
  · rintro c n ns c' hns hseq hstep ⟨r, h⟩
    exact h.drained hspan hflow hns hseq hstep
  · rintro c' hseq hstep ⟨r, h⟩
    exact hstep.received hspan hflow hseg hseq h
  · rintro q - - hins ⟨r, h⟩
    exact ⟨r, h.store hseg hins⟩

/-! ### Whole runs -/

theorem Received.inert (h : Received s isn closes r c) (hi : Inert c c') :
    Received s isn closes r c' := by
  obtain ⟨l, hl, ho⟩ := hi.out
  refine h.same hi.state (by rw [hi.recv]) (by rw [hi.recv]) ?_
  rw [ho, delivered_append, delivered_sending hl, append_nil]

/-- The invariant of a run; a CLOSED connection is stopped. -/
def Streams (s : List UInt8) (isn : UInt32) (closes : Bool) (c : TcpConn) : Prop :=
  (∃ r, Received s isn closes r c) ∧ (c.state = .closed → c.runningFlag = false)

theorem Streams.inert (h : Streams s isn closes c) (hi : Inert c c') : Streams s isn closes c' := by
  obtain ⟨⟨r, hr⟩, hoff⟩ := h
  refine ⟨⟨r, hr.inert hi⟩, ?_⟩
  intro hs
  have hoff := hoff (hi.state ▸ hs)
  cases hrun : c'.runningFlag with
  | false => rfl
  | true =>
    rw [hi.running hrun] at hoff
    cases hoff

theorem Streams.not_closed (h : Streams s isn closes c) (hrun : c.runningFlag) :
    Receiving c.state ∨ PeerDone c.state := by
  obtain ⟨⟨r, hr⟩, hoff⟩ := h
  rcases hr.states with hs | hs | hs
  · exact .inl hs
  · exact .inr hs
  · rw [hoff hs] at hrun
    cases hrun

theorem ownEdge_open {old new : TcpState} {stop : Bool} (he : OwnEdge old new stop)
    (hs : Receiving old ∨ PeerDone old) :
    (Receiving new → Receiving old) ∧ (PeerDone new → PeerDone old) ∧
      (Receiving new ∨ PeerDone new ∨ new = .closed) ∧ (new = .closed → stop) := by
  cases he with
  | closeEstablished =>
    exact ⟨fun _ => .inl rfl, fun h => absurd h (not_peerDone_of_receiving (.inr (.inl rfl))),
      .inl (.inr (.inl rfl)), fun h => nomatch h⟩
  | closeCloseWait =>
    refine ⟨fun h => ?_, fun _ => .inr (.inr (.inl rfl)), .inr (.inl (.inr (.inr (.inr rfl)))),
      fun h => nomatch h⟩
    exact absurd (.inr (.inr (.inr rfl))) (not_peerDone_of_receiving h)
  | timeWaitDone =>
    refine ⟨fun h => ?_, fun _ => .inr (.inl rfl), .inr (.inr rfl), fun _ => rfl⟩
    rcases h with h | h | h <;> cases h
  | _ => rcases hs with (h | h | h) | (h | h | h | h) <;> cases h

theorem Received.not_opening (h : Received s isn closes r c) :
    c.state ≠ .synRecv ∧ ∀ new, ¬ OpenEdge c.state new := by
  have hs := h.states
  generalize c.state = old at hs
  constructor
  · rintro rfl
    rcases hs with (h | h | h) | (h | h | h | h) | h <;> cases h
  · rintro new ⟨⟩ <;> rcases hs with (h | h | h) | (h | h | h | h) | h <;> cases h

theorem step_streams {e : Event} (hspan : streamSpan s closes < 2 ^ 32)
    (hflow : e.md.flowDaemon)
    (hseg : ∀ seg env, e.act = .recv seg env → Piece s isn closes seg)
    (h : Streams s isn closes c) : Streams s isn closes (step c e) := by
  obtain ⟨⟨r, hr⟩, hoff⟩ := id h
  cases step_view c e with
  | inert hi => exact h.inert hi
  | move new stop c1 hrun he h₁ h₂ hstop =>
    obtain ⟨hrecv, hdone, hnew, hclosed⟩ := ownEdge_open he (h.not_closed hrun)
    have hr1 := hr.inert h₁
    rw [← h₁.state] at hrecv hdone
    have hr2 : Received s isn closes r (c1.setState new) :=
      hr1.congr hrecv hdone hnew rfl rfl (delivered_setState c1 new)
    refine ⟨⟨r, hr2.inert h₂⟩, ?_⟩
    intro hs
    exact hstop (hclosed (h₂.state.symm.trans hs))
  | opening new d he => exact absurd he (hr.not_opening.2 new)
  | restart d hs => exact absurd hs hr.not_opening.1
  | data seg env hact _ _ hi hstop =>
    obtain ⟨r', hr'⟩ := tcpHandleData_received hspan hflow (hseg seg env hact)
      ⟨r, hr.inert (ackFirst_inert e.md c seg)⟩
    exact ⟨⟨r', hr'.inert hi⟩, hstop⟩
  | credit _ value _ _ hi =>
    have hcredit : Streams s isn closes (c.credit value) := ⟨⟨r, hr.same rfl rfl rfl rfl⟩, hoff⟩
    exact hcredit.inert hi

def Receives (s : List UInt8) (isn : UInt32) (closes : Bool) (e : Event) : Prop :=
  e.md.flowDaemon = true ∧ ∀ seg env, e.act = .recv seg env → Piece s isn closes seg

/-- The start of the stream: ESTABLISHED, `recv_seq_num` at position 0, nothing stored. -/
structure AtStart (isn : UInt32) (c : TcpConn) : Prop where
  state : c.state = .established
  seq : c.recvSeqNum = isn
  stored : c.recvQueue.nodes = []
  data : delivered c.out = []

theorem AtStart.streams (h : AtStart isn c) : Streams s isn closes c := by
  refine ⟨⟨0, ?_, h.data, ?_, Nat.zero_le _, fun _ => Nat.zero_le _, ?_, ?_⟩, ?_⟩
  · rw [h.seq]
    exact (UInt32.add_zero isn).symm
  · intro n hn
    rw [h.stored] at hn
    cases hn
  · rw [h.state]
    exact fun hdone => absurd hdone (not_peerDone_of_receiving (.inl rfl))
  · exact .inl (.inl h.state)
  · rw [h.state]
    exact fun hc => nomatch hc

end

/-- **Receive-side stream integrity.**  In every run whose segments are pieces of a stream, what
    was handed to the daemon is the prefix of the length `recv_seq_num` has advanced, the FIN
    counting one. -/
theorem delivered_eq_take (s : List UInt8) (isn : UInt32) (closes : Bool)
    (hspan : streamSpan s closes < 2 ^ 32) (c₀ : TcpConn) (h₀ : AtStart isn c₀)
    (es : List Event) (hes : ∀ e ∈ es, Receives s isn closes e) :
    delivered (runConn c₀ es).out = s.take ((runConn c₀ es).recvSeqNum - isn).toNat ∧
      ((runConn c₀ es).recvSeqNum - isn).toNat ≤ streamSpan s closes := by
  obtain ⟨⟨r, h⟩, -⟩ : Streams s isn closes (runConn c₀ es) :=
    run_invariant_of_forall (fun _ _ h he => step_streams hspan he.1 he.2 h) h₀.streams hes
  have hpos : ((runConn c₀ es).recvSeqNum - isn).toNat = r := by
    rw [h.seq, toNat_seq_sub isn (Nat.lt_of_le_of_lt h.span hspan)]
  rw [hpos]
  exact ⟨h.data, h.span⟩

theorem receives_sampleRecv {s : List UInt8} {closes : Bool} (h : Piece s isn closes seg) :
    Receives s isn closes (sampleRecv seg) := by
  refine ⟨rfl, ?_⟩
  intro seg' env hact
  injection hact with hseg _
  exact hseg ▸ h

def reordered : List Event :=
  [sampleRecv { seqNum := 503, seqEnd := 504, data := [3], dataLen := 1, flags := FLAG_FIN },
   sampleRecv { seqNum := 501, seqEnd := 503, data := [1, 2], dataLen := 2 }]

theorem delivered_eq_take_reordered :
    delivered (runConn (runConn sampleConn sampleOpen) reordered).out = [1, 2, 3] := by
  have h := delivered_eq_take [1, 2, 3] 501 true (by decide) (runConn sampleConn sampleOpen)
    ⟨by decide +kernel, by decide +kernel, by decide +kernel, by decide +kernel⟩ reordered (by
      intro e he
      simp only [reordered, mem_cons, not_mem_nil, or_false] at he
      rcases he with rfl | rfl
      · exact receives_sampleRecv ⟨2, by decide, by decide, by decide, by decide, by decide⟩
      · exact receives_sampleRecv ⟨0, by decide, by decide, by decide, by decide, by decide⟩)
  exact h.1.trans (by decide +kernel)

/-! ### A stream that fills the sequence space

With 2^32 - 1 bytes the FIN takes the last sequence number, and the byte after it has
the number of the first one: a repeated first byte is stored while the FIN is missing
and handed over a second time once it is there. -/

structure AfterBytes (isn : UInt32) (n : Nat) (c : TcpConn) : Prop where
  state : c.state = .established
  running : c.runningFlag = true
  seq : c.recvSeqNum = isn + UInt32.ofNat n
  window : c.recvSeqEnd = c.recvSeqNum + c.recvMaxWin
  maxWin : c.recvMaxWin = TCP_MAX_WINDOW_DEFAULT
  stored : c.recvQueue.nodes = []
  data : (delivered c.out).length = n

def byteSeg (isn : UInt32) (n : Nat) : TcpSeg :=
  { seqNum := isn + UInt32.ofNat n, seqEnd := isn + UInt32.ofNat n + 1, data := [0], dataLen := 1 }

theorem handleDataAndReply_after (c : TcpConn) (seg : TcpSeg) :
    let d := (tcpHandleData sampleData c seg).1
    let c' := handleDataAndReply sampleData c seg
    c'.toConnCtl = d.toConnCtl ∧ c'.toRecvSide = d.toRecvSide ∧
      delivered c'.out = delivered d.out := by
  intro d c'
  show (handleDataAndReply sampleData c seg).toConnCtl = _ ∧ _
  unfold c' handleDataAndReply
  simp only []
  split
  · obtain ⟨f, a, w, l, hl, -, h⟩ :=
      tcpHandleReply_frame d (tcpHandleData sampleData c seg).2
    rw [h]
    refine ⟨rfl, rfl, ?_⟩
    show delivered (d.out ++ l) = _
    rw [delivered_append, delivered_sending fun o ho => (hl o ho).sending, append_nil]
  · exact ⟨rfl, rfl, rfl⟩

theorem step_recv_established (hs : c.state = .established) (hrun : c.runningFlag)
    (hsum : seg.checksum = 0) (hrst : hasFlag seg.flags FLAG_RST = false)
    (hack : hasFlag seg.flags FLAG_ACK = false) :
    step c (sampleRecv seg) = handleDataAndReply sampleData c seg := by
  show tcpRecv sampleData c seg _ = _
  unfold tcpRecv
  rw [hrun, hsum]
  simp [tcpRecvState, hs, tcpRecvEstablished, recvAckData, hrst, handleAckFlag, hack]

theorem step_byteSeg {n : Nat} (hs : c.state = .established) (hrun : c.runningFlag) :
    step c (sampleRecv (byteSeg isn n)) = handleDataAndReply sampleData c (byteSeg isn n) :=
  step_recv_established hs hrun rfl (hasFlag_zero _) (hasFlag_zero _)

theorem AfterBytes.handled {n : Nat} (h : AfterBytes isn n c) :
    (tcpHandleData sampleData c (byteSeg isn n)).1 =
      wakeMain { (advanceRecv c 1).emit (.data c.addr [0]) with
        recvWin := uint32Decrease c.recvWin 1 } := by
  have hseq : (byteSeg isn n).seqNum = c.recvSeqNum := h.seq.symm
  unfold tcpHandleData
  rw [if_pos hseq]
  unfold handleInOrder tcpProcessSeg tcpProcessFlags
  simp [h.state, byteSeg, hasFlag_zero, acceptData, sampleData, TcpConn.emit, drainLoop,
    advanceRecv, h.stored, TcpSeg.dataLen32]

theorem AfterBytes.next {n : Nat} (h : AfterBytes isn n c) :
    AfterBytes isn (n + 1) (step c (sampleRecv (byteSeg isn n))) := by
  have hafter := handleDataAndReply_after c (byteSeg isn n)
  rw [h.handled] at hafter
  obtain ⟨hctl, hrecv, hout⟩ := hafter
  rw [step_byteSeg h.state h.running]
  refine ⟨?_, ?_, ?_, ?_, ?_, ?_, ?_⟩
  · rw [hctl]
    exact h.state
  · rw [hctl]
    exact h.running
  · rw [hrecv]
    show c.recvSeqNum + UInt32.ofNat 1 = _
    rw [h.seq, seq_add]
  · rw [hrecv]
    rfl
  · rw [hrecv]
    exact h.maxWin
  · rw [hrecv]
    exact h.stored
  · rw [hout]
    show (delivered (c.out ++ [.data c.addr [0]])).length = _
    rw [delivered_append, length_append, h.data]
    rfl

def bytesFrom (isn : UInt32) (n : Nat) : List Event :=
  (range n).map fun i => sampleRecv (byteSeg isn i)

theorem run_bytesFrom_succ (c : TcpConn) (isn : UInt32) (n : Nat) :
    runConn c (bytesFrom isn (n + 1)) =
      step (runConn c (bytesFrom isn n)) (sampleRecv (byteSeg isn n)) := by
  have hsplit : bytesFrom isn (n + 1) = bytesFrom isn n ++ [sampleRecv (byteSeg isn n)] := by
    rw [bytesFrom, range_succ, map_append]
    rfl
  rw [hsplit]
  exact run_concat step c _ _

theorem AfterBytes.run (h : AfterBytes isn 0 c) (n : Nat) :
    AfterBytes isn n (runConn c (bytesFrom isn n)) := by
  induction n with
  | zero => exact h
  | succ n ih =>
    rw [run_bytesFrom_succ]
    exact ih.next

theorem sampleOpen_atStart : AtStart 501 (runConn sampleConn sampleOpen) :=
  ⟨by decide +kernel, by decide +kernel, by decide +kernel, by decide +kernel⟩

theorem sampleOpen_afterBytes : AfterBytes 501 0 (runConn sampleConn sampleOpen) :=
  ⟨sampleOpen_atStart.state, by decide +kernel, sampleOpen_atStart.seq, by decide +kernel,
    by decide +kernel, sampleOpen_atStart.stored, by rw [sampleOpen_atStart.data]; rfl⟩

def wrapEnd : List Event :=
  [sampleEvent (.fcf sampleFcf (.setHostWindow TCP_MAX_WINDOW_DEFAULT)),
   sampleRecv (byteSeg 501 0),
   sampleRecv { seqNum := 500, seqEnd := 500, flags := FLAG_FIN }]

theorem tcpSetHostWindow_after (c : TcpConn) (value : UInt32) :
    let c' := tcpSetHostWindow c value
    c'.toConnCtl = c.toConnCtl ∧ c'.toRecvSide = c.toRecvSide ∧
      c'.recvWin = uint32Increase c.recvWin value c.recvMaxWin ∧
      delivered c'.out = delivered c.out := by
  unfold tcpSetHostWindow
  simp only []
  split
  · obtain ⟨a, seg, h⟩ := sendControl_frame
      { c with recvWin := uint32Increase c.recvWin value c.recvMaxWin, flowStopped := false }
      FLAG_ACK
    rw [h]
    refine ⟨rfl, rfl, rfl, ?_⟩
    show delivered (c.out ++ [.seg .control seg]) = _
    rw [delivered_append]
    exact append_nil _
  · exact ⟨rfl, rfl, rfl, rfl⟩

theorem setHostWindow_after (c : TcpConn) (hrun : c.runningFlag)
    (hmax : c.recvMaxWin = TCP_MAX_WINDOW_DEFAULT) :
    let c' := step c (sampleEvent (.fcf sampleFcf (.setHostWindow TCP_MAX_WINDOW_DEFAULT)))
    c'.toConnCtl = c.toConnCtl ∧ c'.toRecvSide = c.toRecvSide ∧ c'.recvWin ≠ 0 ∧
      delivered c'.out = delivered c.out := by
  have hwin : uint32Increase c.recvWin TCP_MAX_WINDOW_DEFAULT TCP_MAX_WINDOW_DEFAULT ≠ 0 := by
    unfold uint32Increase
    split
    · decide
    · grind [TCP_MAX_WINDOW_DEFAULT]
  intro c'
  have hc' : c' = tcpSetHostWindow c TCP_MAX_WINDOW_DEFAULT := if_pos hrun
  obtain ⟨hctl, hrecv, hval, hout⟩ := tcpSetHostWindow_after c TCP_MAX_WINDOW_DEFAULT
  rw [hc', hval, hmax]
  exact ⟨hctl, hrecv, hwin, hout⟩

theorem repeated_byte_stored (hs : c.state = .established) (hrun : c.runningFlag)
    (hwin : c.recvWin ≠ 0) (hseq : c.recvSeqNum = 500) (hend : c.recvSeqEnd = 500 + 65535)
    (hq : c.recvQueue.nodes = []) : let c' := step c (sampleRecv (byteSeg 501 0))
    c'.state = .established ∧ c'.runningFlag ∧ c'.recvSeqNum = 500 ∧
      c'.recvQueue.nodes = [storedNode c (byteSeg 501 0)] ∧
      delivered c'.out = delivered c.out := by
  have hne : (byteSeg 501 0).seqNum ≠ c.recvSeqNum := by
    rw [hseq]
    decide
  have hin : tcpInWindow (byteSeg 501 0).seqNum (byteSeg 501 0).seqEnd c.recvSeqNum
      c.recvSeqEnd = true := by
    rw [hseq, hend]
    decide
  have hd : (tcpHandleData sampleData c (byteSeg 501 0)).1 =
      { c with
        recvQueue := tcpQueuePrepend c.recvQueue (storedNode c (byteSeg 501 0))
        recvWin := uint32Decrease c.recvWin 1
        nextAddr := c.nextAddr + 1 } := by
    unfold tcpHandleData handleOutOfOrder
    rw [if_neg hne]
    simp only [hwin, hin, tcpQueueInsert, hq, ne_eq, not_false_eq_true, if_true]
    rfl
  obtain ⟨hctl, hrecv, hout⟩ := handleDataAndReply_after c (byteSeg 501 0)
  rw [hd] at hctl hrecv hout
  intro c'
  have hc' : c' = handleDataAndReply sampleData c (byteSeg 501 0) := step_byteSeg hs hrun
  rw [hc', hctl, hrecv, hout]
  refine ⟨hs, hrun, hseq, ?_, rfl⟩
  show storedNode c (byteSeg 501 0) :: c.recvQueue.nodes = _
  rw [hq]

theorem fin_drains_stored {n : TcpNode TcpSeg} (hs : c.state = .established)
    (hrun : c.runningFlag) (hseq : c.recvSeqNum = 500) (hq : c.recvQueue.nodes = [n])
    (hn : n.seqNum = 501) (hdata : n.data = byteSeg 501 0) :
    delivered (step c (sampleRecv { seqNum := 500, seqEnd := 500, flags := FLAG_FIN })).out =
      delivered c.out ++ [0] := by
  rw [step_recv_established hs hrun rfl (by decide) (by decide)]
  obtain ⟨-, -, hout⟩ := handleDataAndReply_after c
    { seqNum := 500, seqEnd := 500, flags := FLAG_FIN }
  rw [hout]
  unfold tcpHandleData
  rw [if_pos hseq.symm]
  have hsyn : hasFlag FLAG_FIN FLAG_SYN = false := by decide
  have hfin : hasFlag FLAG_FIN FLAG_FIN := by decide
  have hnext : (500 : UInt32) + (UInt32.ofInt 0 + 1) = 501 := by decide
  simp [handleInOrder, tcpProcessSeg, tcpProcessFlags, hs, hsyn, hfin, consumeFin, advanceRecv,
    alertShutdownRd, TcpConn.emit, TcpConn.setState, TcpSeg.dataLen32, hq, drainLoop, drainStep,
    hn, hseq, hnext, hdata, byteSeg, hasFlag_zero, refuseData, sampleData, wakeMain, delivered]

theorem byteSeg_piece {i : Nat} (hi : i < len) (isn : UInt32) (closes : Bool) :
    Piece (replicate len 0) isn closes (byteSeg isn i) := by
  refine ⟨i, ?_, rfl, ?_, rfl, ?_⟩
  · rw [streamSpan, length_replicate]
    omega
  · show [0] = ((replicate len 0).drop i).take 1
    rw [drop_replicate, take_replicate, Nat.min_eq_left (by omega)]
    rfl
  · intro hfin
    have hno : hasFlag (byteSeg isn i).flags FLAG_FIN = false := hasFlag_zero _
    rw [hno] at hfin
    cases hfin

theorem wrapRun_receives (hlen : len = 2 ^ 32 - 1) :
    ∀ e ∈ bytesFrom 501 len ++ wrapEnd, Receives (replicate len 0) 501 true e := by
  intro e he
  rcases mem_append.mp he with he | he
  · obtain ⟨i, hi, rfl⟩ := mem_map.mp he
    exact receives_sampleRecv (byteSeg_piece (mem_range.mp hi) 501 true)
  · simp only [wrapEnd, mem_cons, not_mem_nil, or_false] at he
    rcases he with rfl | rfl | rfl
    · exact ⟨rfl, fun seg env hact => nomatch hact⟩
    · exact receives_sampleRecv (byteSeg_piece (by omega) 501 true)
    · refine receives_sampleRecv ⟨len, ?_, ?_, ?_, rfl, ?_⟩
      · rw [streamSpan, length_replicate]
        omega
      · rw [hlen]
        decide
      · rw [length_nil, take_zero]
      · intro _
        exact ⟨rfl, by rw [length_replicate]; rfl⟩

theorem wrapEnd_delivers (hlen : len = 2 ^ 32 - 1) (h : AfterBytes 501 len c) :
    delivered (runConn c wrapEnd).out = delivered c.out ++ [0] := by
  have hseq : c.recvSeqNum = 500 := by
    rw [h.seq, hlen]
    decide
  have hend : c.recvSeqEnd = 500 + 65535 := by
    rw [h.window, hseq, h.maxWin]
    rfl
  obtain ⟨hctl, hrecv, hwin, hout⟩ := setHostWindow_after c h.running h.maxWin
  obtain ⟨hs2, hrun2, hseq2, hq2, hout2⟩ := repeated_byte_stored (by rw [hctl]; exact h.state)
    (by rw [hctl]; exact h.running) hwin (by rw [hrecv]; exact hseq) (by rw [hrecv]; exact hend)
    (by rw [hrecv]; exact h.stored)
  have hlast := fin_drains_stored hs2 hrun2 hseq2 hq2 rfl rfl
  simp only [runConn, wrapEnd, run_cons, run_nil]
  rw [hlast, hout2, hout]

/-- A stream of 2^32 - 1 bytes whose first byte is handed over twice. -/
theorem delivered_beyond_stream :
    ∃ (s : List UInt8) (isn : UInt32) (c₀ : TcpConn) (es : List Event),
      s.length < 2 ^ 32 ∧ AtStart isn c₀ ∧ (∀ e ∈ es, Receives s isn true e) ∧
      ¬ ∃ n, delivered (runConn c₀ es).out = s.take n := by
  obtain ⟨len, hlen⟩ : ∃ len, len = 2 ^ 32 - 1 := ⟨_, rfl⟩
  refine ⟨replicate len 0, 501, runConn sampleConn sampleOpen, bytesFrom 501 len ++ wrapEnd,
    by rw [length_replicate]; omega, sampleOpen_atStart, wrapRun_receives hlen, ?_⟩
  rintro ⟨n, hn⟩
  have hafter := sampleOpen_afterBytes.run len
  have hlast := wrapEnd_delivers hlen hafter
  have hall : (delivered (runConn (runConn sampleConn sampleOpen)
      (bytesFrom 501 len ++ wrapEnd)).out).length = len + 1 := by
    show (delivered (run step _ _).out).length = _
    rw [run_append, hlast, length_append, hafter.data]
    rfl
  rw [hn, length_take, length_replicate] at hall
  omega

end FinsStack.Tcp
