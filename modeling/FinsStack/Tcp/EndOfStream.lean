import FinsStack.Tcp.RecvStream

/-!
# The end of the received stream

When the peer's FIN is consumed, an alert tells the daemon that nothing more will be
read.  `tcp_process_flags` sends it, before `tcp_process_seg` hands over the data of the
same segment; so the alert is the last word about the stream as long as the FIN comes
on a segment of its own.  `Ending` carries that through every run.
-/

namespace FinsStack.Tcp

open List

/-! ### Histories -/

def isRdAlert : Out → Bool
  | .alert _ paramId _ retMsg => paramId == TCP_ALERT_SHUTDOWN && retMsg &&& TCP_STATUS_RD != 0
  | _ => false

def BeforeEnd : Out → Prop
  | .data _ bytes => bytes ≠ []
  | .fin _ _ => False
  | o => isRdAlert o = false

def AfterEnd : Out → Prop
  | .data _ _ => False
  | o => BeforeEnd o

instance : DecidablePred AfterEnd
  | .data _ _ | .fin _ _ => isFalse id
  | .alert a p v m => inferInstanceAs (Decidable (isRdAlert (.alert a p v m) = false))
  | .seg _ _ | .execReply _ _ _ _ | .connReply _ _ _ _ _ | .reply _ _ _ | .edge _ _
  | .accept _ _ | .finAck => isTrue rfl

variable {o : Out} {s : List UInt8} {l : List Out} {c c' : TcpConn}

theorem AfterEnd.early (h : AfterEnd o) : BeforeEnd o := by
  cases o with
  | data addr bytes => exact h.elim
  | _ => exact h

theorem BeforeEnd.not_alert (h : BeforeEnd o) : isRdAlert o = false := by
  cases o with
  | alert addr paramId retVal retMsg => exact h
  | _ => rfl

theorem Sending.late (h : Sending o) : AfterEnd o := by
  cases o with
  | data addr bytes | fin seqNum recvSeqNum => exact h.elim
  | alert addr paramId retVal retMsg =>
    have hpoll : paramId = TCP_ALERT_POLL := h
    show (paramId == TCP_ALERT_SHUTDOWN && _) = false
    rw [hpoll]
    rfl
  | _ => rfl

/-- A history with the end of the stream in it: the FIN, the change of state it causes
    and the alert, behind all of the stream and before nothing of it. -/
inductive Ended (s : List UInt8) : List Out → Prop
  | intro (l₁ l₂ : List Out) (seqNum recvSeqNum : UInt32) (old new : TcpState) (addr : ConnAddr)
      (hearly : ∀ o ∈ l₁, BeforeEnd o) (hall : delivered l₁ = s) (hlate : ∀ o ∈ l₂, AfterEnd o) :
      Ended s (l₁ ++ .fin seqNum recvSeqNum :: .edge old new ::
        .alert addr TCP_ALERT_SHUTDOWN FCF_FALSE TCP_STATUS_RD :: l₂)

theorem Ended.append {l' : List Out} (h : Ended s l) (hl' : ∀ o ∈ l', AfterEnd o) :
    Ended s (l ++ l') := by
  obtain ⟨l₁, l₂, q, r, old, new, a, hearly, hall, hlate⟩ := h
  rw [append_assoc]
  refine .intro l₁ (l₂ ++ l') q r old new a hearly hall ?_
  exact forall_mem_append.mpr ⟨hlate, hl'⟩

structure EndsLast (s : List UInt8) (l : List Out) : Prop where
  alerts : (l.filter isRdAlert).length = (finsOf l).length
  once : (finsOf l).length ≤ 1
  last : ∀ l₁ o l₂, l = l₁ ++ o :: l₂ → isRdAlert o = true →
    delivered l₁ = s ∧ ∀ addr bytes, .data addr bytes ∉ l₂

section

variable (h : ∀ o ∈ l, BeforeEnd o)
include h

theorem finsOf_early : finsOf l = [] := by
  apply filterMap_eq_nil_iff.mpr
  intro o ho
  have he := h o ho
  cases o with
  | fin seqNum recvSeqNum => exact he.elim
  | _ => rfl

theorem alerts_early : l.filter isRdAlert = [] := by
  apply filter_eq_nil_iff.mpr
  intro o ho
  rw [(h o ho).not_alert]
  exact Bool.false_ne_true

theorem endsLast_of_early : EndsLast s l where
  alerts := by rw [alerts_early h, finsOf_early h]; rfl
  once := by rw [finsOf_early h]; exact Nat.zero_le _
  last := by
    intro l₁ o l₂ heq ho
    have he := h o (by rw [heq]; exact mem_append_right _ (mem_cons_self ..))
    rw [he.not_alert] at ho
    cases ho

end

theorem eq_of_split {β : Type*} {P : β → Prop} {l₁ l₂ l₁' l₂' : List β} {a b : β}
    (h : l₁ ++ a :: l₂ = l₁' ++ b :: l₂') (hb : P b) (h₁ : ∀ x ∈ l₁, ¬ P x)
    (h₂ : ∀ x ∈ l₂, ¬ P x) : l₁ = l₁' ∧ l₂ = l₂' := by
  rcases append_eq_append_iff.mp h with ⟨m, hm, hm'⟩ | ⟨m, hm, hm'⟩
  · cases m with
    | nil =>
      rw [append_nil] at hm
      exact ⟨hm.symm, (List.cons.inj hm').2⟩
    | cons x m =>
      have hmem : b ∈ l₂ := by
        rw [(List.cons.inj hm').2]
        exact mem_append_right _ (mem_cons_self ..)
      exact absurd hb (h₂ b hmem)
  · cases m with
    | nil =>
      rw [append_nil] at hm
      exact ⟨hm, (List.cons.inj hm').2.symm⟩
    | cons x m =>
      have hmem : b ∈ l₁ := by
        rw [hm, (List.cons.inj hm').1]
        exact mem_append_right _ (mem_cons_self ..)
      exact absurd hb (h₁ b hmem)

theorem Ended.endsLast (h : Ended s l) : EndsLast s l := by
  obtain ⟨l₁, l₂, q, r, old, new, a, hearly, hall, hlate⟩ := h
  have hlate' : ∀ o ∈ l₂, BeforeEnd o := fun o ho => (hlate o ho).early
  have hfins : finsOf (l₁ ++ .fin q r :: .edge old new ::
      .alert a TCP_ALERT_SHUTDOWN FCF_FALSE TCP_STATUS_RD :: l₂) = [(q, r)] := by
    show List.filterMap _ _ = _
    rw [filterMap_append]
    show finsOf l₁ ++ (q, r) :: finsOf l₂ = _
    rw [finsOf_early hearly, finsOf_early hlate']
    rfl
  refine ⟨?_, by rw [hfins]; exact Nat.le_refl _, ?_⟩
  · rw [hfins, filter_append, alerts_early hearly]
    show (_ :: l₂.filter isRdAlert).length = _
    rw [alerts_early hlate']
    rfl
  · intro m₁ o m₂ heq ho
    have heq' : (l₁ ++ [.fin q r, .edge old new]) ++
        .alert a TCP_ALERT_SHUTDOWN FCF_FALSE TCP_STATUS_RD :: l₂ = m₁ ++ o :: m₂ := by
      rw [append_assoc]
      exact heq
    have hbefore : ∀ x ∈ l₁ ++ [.fin q r, .edge old new], ¬ isRdAlert x := by
      intro x hx
      rcases mem_append.mp hx with hx | hx
      · rw [(hearly x hx).not_alert]
        exact Bool.false_ne_true
      · simp only [mem_cons, not_mem_nil, or_false] at hx
        rcases hx with rfl | rfl <;> exact Bool.false_ne_true
    have hafter : ∀ x ∈ l₂, ¬ isRdAlert x := by
      intro x hx
      rw [(hlate' x hx).not_alert]
      exact Bool.false_ne_true
    obtain ⟨h₁, h₂⟩ := eq_of_split heq' ho hbefore hafter
    rw [← h₁, ← h₂]
    refine ⟨?_, fun addr bytes hd => hlate _ hd⟩
    rw [delivered_append, hall]
    exact append_nil s

/-! ### Handling data -/

def BareFin (seg : TcpSeg) : Prop := hasFlag seg.flags FLAG_FIN = true → seg.data = []

structure Ending (s : List UInt8) (c : TcpConn) : Prop where
  stored : ∀ n ∈ c.recvQueue.nodes, BareFin n.data
  early : Receiving c.state → ∀ o ∈ c.out, BeforeEnd o
  ended : ¬ Receiving c.state → Ended s c.out

section

variable (h : Ending s c)
include h

theorem Ending.endsLast : EndsLast s c.out := by
  by_cases hs : Receiving c.state
  · exact endsLast_of_early (h.early hs)
  · exact (h.ended hs).endsLast

theorem Ending.frame_ne_nil {addr : ConnAddr} {bytes : List UInt8}
    (hmem : .data addr bytes ∈ c.out) : bytes ≠ [] := by
  by_cases hs : Receiving c.state
  · exact h.early hs _ hmem
  · have hended := h.ended hs
    generalize c.out = l at hmem hended
    obtain ⟨l₁, l₂, q, r, old, new, a, hearly, -, hlate⟩ := hended
    simp only [mem_append, mem_cons, reduceCtorEq, false_or] at hmem
    rcases hmem with hmem | hmem
    · exact hearly _ hmem
    · exact (hlate _ hmem).elim

theorem Ending.late (hs : Receiving c'.state ↔ Receiving c.state) (hq : c'.recvQueue = c.recvQueue)
    (hl : ∀ o ∈ l, AfterEnd o) (ho : c'.out = c.out ++ l) : Ending s c' where
  stored := hq ▸ h.stored
  early := by
    intro hopen
    rw [ho]
    exact forall_mem_append.mpr ⟨h.early (hs.mp hopen), fun o hmem => (hl o hmem).early⟩
  ended := by
    intro hdone
    rw [ho]
    exact (h.ended (fun hopen => hdone (hs.mpr hopen))).append hl

theorem Ending.same (hs : c'.state = c.state) (hq : c'.recvQueue = c.recvQueue)
    (ho : c'.out = c.out) : Ending s c' :=
  h.late (l := []) (by rw [hs]) hq nofun (by rw [ho, append_nil])

theorem Ending.inert (hi : Inert c c') : Ending s c' := by
  obtain ⟨l, hl, ho⟩ := hi.out
  exact h.late (by rw [hi.state]) (by rw [hi.recv]) (fun o hmem => (hl o hmem).late) ho

theorem Ending.handOff (hs : Receiving c.state) {bytes : List UInt8}
    (hne : bytes ≠ []) : Ending s (c.emit (.data c.addr bytes)) where
  stored := h.stored
  early := fun _ => Lib.forall_mem_concat (h.early hs) hne
  ended := fun hdone => absurd hs hdone

end

theorem not_receiving_of_peerDone {st : TcpState} (h : PeerDone st) : ¬ Receiving st :=
  fun hr => not_peerDone_of_receiving hr h

section

variable {s : List UInt8} {isn : UInt32} {closes : Bool}

variable {c c' : TcpConn} {seg : TcpSeg} {md : TcpData}

section

variable (hspan : streamSpan s closes < 2 ^ 32)
include hspan

theorem FlagsStep.ending {r : Nat} {c1 : TcpConn} {ret : FlagsRet} (hstep : FlagsStep c seg ret c1)
    (hseg : Piece s isn closes seg) (hbare : BareFin seg) (hplace : seg.seqNum = c.recvSeqNum)
    (hr : Received s isn closes r c) (h : Ending s c) :
    Ending s c1 ∧ (ret = .deliver → seg.dataLen ≠ 0 → Receiving c1.state) := by
  obtain ⟨hdata, hlen, hfin⟩ := hseg.at_pos hspan hr.span (hplace.trans hr.seq)
  have hnone : seg.data = [] → ¬ seg.dataLen ≠ 0 := by
    intro hnil
    rw [hlen, hnil]
    exact fun hne => hne rfl
  have hedge : ∀ new o, o ∈ [Out.edge c.state new] → AfterEnd o := by
    intro new o ho
    rw [mem_singleton.mp ho]
    rfl
  cases hstep with
  | keep _ hk =>
    exact ⟨h, fun hret hd => absurd hd (hnone (hr.no_data (hk hret hd) hdata))⟩
  | data hs hd => exact ⟨h.same rfl rfl rfl, fun _ _ => hs⟩
  | finWait2 hs ht hd =>
    refine ⟨h.late ?_ rfl (hedge .finWait2) rfl, nofun⟩
    exact iff_of_true (.inr (.inr rfl)) (.inr (.inl hs))
  | finWait2Data hs ht hd =>
    refine ⟨h.late ?_ rfl (hedge .finWait2) rfl, fun _ _ => .inr (.inr rfl)⟩
    exact iff_of_true (.inr (.inr rfl)) (.inr (.inl hs))
  | timeWait hs ht =>
    refine ⟨h.late ?_ rfl (hedge .timeWait) rfl, nofun⟩
    exact iff_of_false (not_receiving_of_peerDone (.inr (.inl rfl)))
      (not_receiving_of_peerDone (.inl hs))
  | closed _ hs ht =>
    have hdone : PeerDone c.state := .inr (.inr (.inr hs))
    refine ⟨h.late ?_ rfl (hedge .closed) rfl,
      fun _ hd => absurd hd (hnone (hr.no_data hdone hdata))⟩
    refine iff_of_false ?_ (not_receiving_of_peerDone hdone)
    rintro (hc | hc | hc) <;> cases hc
  | fin new g he hf =>
    have hopen := (finEdge_successor he).1
    have hnil := hbare hf
    have hdone := not_receiving_of_peerDone (finEdge_peerDone he)
    refine ⟨⟨h.stored, fun hs => absurd hs hdone, fun _ => ?_⟩,
      fun _ hd => absurd hd (hnone hnil)⟩
    -- the FIN is alone, so all of the stream has been handed over
    have hall : delivered c.out = s := by
      have hend := (hfin hf).2
      rw [hnil, length_nil, Nat.add_zero] at hend
      rw [hr.data, hend, take_length]
    show Ended s (((c.out ++ [.fin _ _]) ++ [.edge _ _]) ++ [.alert _ _ _ _])
    rw [append_assoc, append_assoc]
    exact .intro c.out [] _ _ _ _ _ (h.early hopen) hall nofun

theorem SegStep.ending {r : Nat}
    (hstep : SegStep md c seg c') (hseg : Piece s isn closes seg) (hbare : BareFin seg)
    (hplace : seg.seqNum = c.recvSeqNum) (hr : Received s isn closes r c) (h : Ending s c) :
    Ending s c' := by
  cases hstep with
  | options c1 o hf => exact (hf.ending hspan hseg hbare hplace hr h).1.same rfl rfl rfl
  | handOff c1 hf hd =>
    obtain ⟨h1, hopen⟩ := hf.ending hspan hseg hbare hplace hr h
    refine h1.handOff (hopen rfl hd) ?_
    intro hnil
    obtain ⟨-, hlen, -⟩ := hseg.at_pos hspan hr.span (hplace.trans hr.seq)
    rw [hlen, hnil] at hd
    exact hd rfl
  | bare ret c1 hf => exact (hf.ending hspan hseg hbare hplace hr h).1

theorem tcpHandleData_ending (hflow : md.flowDaemon)
    (hseg : Piece s isn closes seg) (hbare : BareFin seg) (hr : ∃ r, Received s isn closes r c)
    (h : Ending s c) : Ending s (tcpHandleData md c seg).1 := by
  have hpop : ∀ c : TcpConn, Ending s c → Ending s c.popRecv := by
    intro c h
    exact ⟨fun n hn => h.stored n (tcpQueueRemoveFront_mem hn), h.early, h.ended⟩
  refine (tcpHandleData_induct
    (P := fun c => (∃ r, Received s isn closes r c) ∧ Ending s c) ?_ ?_ ?_ ?_ ?_ ?_ ⟨hr, h⟩).2
  · rintro c w ⟨⟨r, hr⟩, h⟩
    exact ⟨⟨r, hr.same rfl rfl rfl rfl⟩, h.same rfl rfl rfl⟩
  · rintro c m ⟨⟨r, hr⟩, h⟩
    exact ⟨⟨r, hr.same rfl rfl rfl rfl⟩, h.same rfl rfl rfl⟩
  · rintro c n ns - ⟨⟨r, hr⟩, h⟩
    exact ⟨⟨r, hr.popRecv⟩, hpop c h⟩
  · rintro c n ns c' hns hseq hstep ⟨⟨r, hr⟩, h⟩
    have hmem : n ∈ c.recvQueue.nodes := by
      rw [hns]
      exact mem_cons_self ..
    obtain ⟨hn, hpiece⟩ := hr.stored n hmem
    exact ⟨hr.drained hspan hflow hns hseq hstep,
      hstep.ending hspan hpiece (h.stored n hmem) (hn.symm.trans hseq) hr.popRecv (hpop c h)⟩
  · rintro c' hseq hstep ⟨⟨r, hr⟩, h⟩
    exact ⟨hstep.received hspan hflow hseg hseq hr, hstep.ending hspan hseg hbare hseq hr h⟩
  · rintro q - - hins ⟨⟨r, hr⟩, h⟩
    refine ⟨⟨r, hr.store hseg hins⟩, ?_, h.early, h.ended⟩
    intro n hn
    rcases tcpQueueInsert_mem hins n hn with hn | hn
    · rw [hn]
      exact hbare
    · exact h.stored n hn

/-! ### Whole runs -/

def BareFins (e : Event) : Prop := ∀ seg env, e.act = .recv seg env → BareFin seg

theorem step_ending {e : Event}
    (he : Receives s isn closes e) (hbare : BareFins e) (hr : Streams s isn closes c)
    (h : Ending s c) : Ending s (step c e) := by
  obtain ⟨r, hrec⟩ := hr.1
  cases step_view c e with
  | inert hi => exact h.inert hi
  | move new stop c1 hrun he h₁ h₂ hstop =>
    have hside : Receiving new ↔ Receiving c.state := by
      have hopen := hr.not_closed hrun
      generalize c.state = old at he hopen
      cases he <;> rcases hopen with (hs | hs | hs) | (hs | hs | hs | hs) <;> cases hs <;>
        simp [Receiving]
    refine Ending.inert ?_ h₂
    refine (h.inert h₁).late (l := [.edge c1.state new]) ?_ rfl ?_ rfl
    · rw [h₁.state]
      exact hside
    · exact forall_mem_singleton.mpr rfl
  | opening new d he => exact absurd he (hrec.not_opening.2 new)
  | restart d hs => exact absurd hs hrec.not_opening.1
  | data seg env hact _ _ hi =>
    have hack := ackFirst_inert e.md c seg
    exact (tcpHandleData_ending hspan he.1 (he.2 seg env hact) (hbare seg env hact)
      ⟨r, hrec.inert hack⟩ (h.inert hack)).inert hi
  | credit _ value _ _ hi =>
    have hcredit : Ending s (c.credit value) := h.same rfl rfl rfl
    exact hcredit.inert hi

end

end

end FinsStack.Tcp
