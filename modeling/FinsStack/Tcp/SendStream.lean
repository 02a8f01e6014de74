import FinsStack.Tcp.WriteStream

/-!
# The sent stream

`send_queue` holds the last segments that were sent for the first time, so what a timeout
or a fast retransmission sends again is what was sent under these numbers before.  With
the balance of `WriteStream.lean` this describes all data that leaves a connection.
-/

namespace FinsStack.Tcp

open List Lib

/-! ### Retransmissions in a history -/

def Apart (s s' : TcpSeg) : Prop :=
  ∀ i < s.data.length, ∀ j < s'.data.length,
    s.seqNum + UInt32.ofNat i ≠ s'.seqNum + UInt32.ofNat j

/-- The segment repeats one that was sent for the first time in `before`, and none of its
    numbers was used again since. -/
def Repeats (before : List Out) (s : TcpSeg) : Prop :=
  ∃ a s₀ b, before = a ++ .seg .fresh s₀ :: b ∧ s₀.seqNum = s.seqNum ∧ s₀.data = s.data ∧
    ∀ s', .seg .fresh s' ∈ b → Apart s s'

def ResendsRepeat (l : List Out) : Prop :=
  ∀ a s b, l = a ++ .seg .resend s :: b → Repeats a s

def DataSeg : Out → Prop
  | .seg .fresh _ | .seg .resend _ => True
  | _ => False

def freshSeg : Out → Option TcpSeg
  | .seg .fresh s => some s
  | _ => none

variable {s seg : TcpSeg} {l : List Out} {c c' : TcpConn} {n : Nat}

theorem freshSeg_eq_some {o : Out} (h : freshSeg o = some s) : o = .seg .fresh s := by
  cases o with
  | seg kind seg =>
    cases kind with
    | fresh =>
      cases h
      rfl
    | _ => cases h
  | _ => cases h

def freshSegs (l : List Out) : List TcpSeg := l.filterMap freshSeg

theorem freshSegs_append (l₁ l₂ : List Out) : freshSegs (l₁ ++ l₂) = freshSegs l₁ ++ freshSegs l₂ :=
  filterMap_append

theorem freshSegs_of_none (h : ∀ o ∈ l, ¬ DataSeg o) : freshSegs l = [] := by
  refine filterMap_eq_nil_iff.mpr fun o ho => ?_
  have hd := h o ho
  cases o with
  | seg kind seg => cases kind <;> first | rfl | exact absurd trivial hd
  | _ => rfl

theorem mem_freshSegs (h : .seg .fresh s ∈ l) : s ∈ freshSegs l :=
  mem_filterMap.mpr ⟨_, h, rfl⟩

theorem resendsRepeat_append {l' : List Out} (h : ResendsRepeat l)
    (h' : ∀ a s b, l' = a ++ .seg .resend s :: b → Repeats (l ++ a) s) :
    ResendsRepeat (l ++ l') := by
  intro a s b heq
  rcases append_eq_append_iff.mp heq with ⟨t, rfl, hl'⟩ | ⟨t, hl, hb⟩
  · exact h' t s b hl'
  · cases t with
    | nil =>
      rw [append_nil] at hl
      rw [← hl, ← append_nil l]
      exact h' [] s b hb.symm
    | cons o t =>
      cases hb
      exact h a s t hl

theorem resendsRepeat_append_quiet {l' : List Out} (h : ResendsRepeat l)
    (hl' : ∀ o ∈ l', ¬ DataSeg o) : ResendsRepeat (l ++ l') := by
  refine resendsRepeat_append h fun a s b heq => ?_
  refine absurd trivial (hl' (.seg .resend s) ?_)
  rw [heq]
  exact mem_append_right _ (mem_cons_self ..)

theorem resendsRepeat_append_one {o : Out} (h : ResendsRepeat l)
    (ho : ∀ s, o = .seg .resend s → Repeats l s) : ResendsRepeat (l ++ [o]) := by
  refine resendsRepeat_append h fun a s b heq => ?_
  cases a with
  | nil =>
    rw [append_nil]
    exact ho s (List.cons.inj heq).1
  | cons o' a =>
    exact absurd (List.cons.inj heq).2.symm
      (append_ne_nil_of_right_ne_nil _ (cons_ne_nil _ _))

/-! ### `send_queue` and the history -/

def labelled (s : TcpSeg) : UInt32 × List UInt8 := (s.seqNum, s.data)

/-- **Invariant of retransmission**, since the first `n` outputs. -/
structure Repeating (n : Nat) (c : TcpConn) : Prop extends SendInv c, Writing n c where
  queue : ∃ old, (freshSegs (c.out.drop n)).map labelled =
    old ++ c.sendQueue.nodes.map fun m => labelled m.data
  node : ∀ m ∈ c.sendQueue.nodes, m.data.seqNum = m.seqNum ∧ m.data.data.length = m.len.toNat
  addrs : (c.sendQueue.nodes.map TcpNode.addr).Nodup
  below : ∀ m ∈ c.sendQueue.nodes, m.addr < c.nextAddr
  repeats : ResendsRepeat (c.out.drop n)

structure Carries (c c' : TcpConn) : Prop where
  queue : c'.sendQueue = c.sendQueue
  nextAddr : c.nextAddr ≤ c'.nextAddr
  out : ∃ l, (∀ o ∈ l, ¬ DataSeg o) ∧ c'.out = c.out ++ l

theorem QuietOut.no_data (h : QuietOut c c') :
    ∃ l, (∀ o ∈ l, ¬ DataSeg o) ∧ c'.out = c.out ++ l := by
  obtain ⟨l, hl, hout⟩ := h
  refine ⟨l, fun o ho hd => hl o ho ?_, hout⟩
  cases o with
  | seg kind seg => cases kind <;> trivial
  | _ => exact hd.elim

theorem WriteMove.carries (h : WriteMove c c') : Carries c c' := by
  obtain ⟨w, pe, m, a, l, ha, hl, rfl⟩ := h
  refine ⟨rfl, ha, l, fun o ho hd => ?_, rfl⟩
  have hw := hl o ho
  cases o with
  | seg kind seg => exact hw.elim
  | _ => exact hd.elim

theorem SameSend.carries (h : SameSend c c') : Carries c c' :=
  ⟨by rw [h.send], Nat.le_of_eq h.nextAddr.symm, h.out.no_data⟩

theorem SendMove.carries (h : SendMove c c') : Carries c c' ∨ ∃ m, Resend c m c' := by
  cases h with
  | same h _ _ | close h _ _ | stop h _ _ => exact .inl h.carries
  | early h =>
    refine .inl ⟨?_, Nat.le_of_eq h.nextAddr.symm, h.out.no_data⟩
    rcases h.send with hs | ⟨rand, hs⟩
    · rw [hs]
    · rw [hs]
  | opened seg h =>
    exact .inl ⟨by rw [h.send], Nat.le_of_eq h.nextAddr.symm, h.out.no_data⟩
  | data h _ _ => exact .inl ⟨by rw [h.send], h.nextAddr, h.out.no_data⟩
  | fin sep hs hr hw | gbn g h => exact .inl ⟨rfl, Nat.le_refl _, (QuietOut.of_eq rfl).no_data⟩
  | timeout m h | fast m h | next m h => exact .inr ⟨m, h⟩
  | write | writeEarly | refuse | interrupt | requestFire =>
    exact .inl (WriteMove.carries (by simp))

theorem Repeating.carried (h : Repeating n c) (hc : Carries c c') (hsend : SendInv c')
    (hwrite : Writing n c') : Repeating n c' := by
  obtain ⟨l, hl, hout⟩ := hc.out
  have hdrop : c'.out.drop n = c.out.drop n ++ l := by
    rw [hout, h.toStreamInv.drop_append]
  refine ⟨hsend, hwrite, ?_, hc.queue ▸ h.node, hc.queue ▸ h.addrs, ?_, ?_⟩
  · rw [hdrop, freshSegs_append, freshSegs_of_none hl, append_nil, hc.queue]
    exact h.queue
  · rw [hc.queue]
    exact fun m hm => Nat.lt_of_lt_of_le (h.below m hm) hc.nextAddr
  · rw [hdrop]
    exact resendsRepeat_append_quiet h.repeats hl

theorem Repeating.repeats_node (h : Repeating n c) {m : TcpNode TcpSeg} (hm : m ∈ c.sendQueue.nodes)
    (hs : labelled s = labelled m.data) : Repeats (c.out.drop n) s := by
  obtain ⟨old, hold⟩ := h.queue
  obtain ⟨before, after, hsplit⟩ := append_of_mem hm
  have hlabels : (freshSegs (c.out.drop n)).map labelled =
      (old ++ before.map fun m => labelled m.data) ++
        labelled m.data :: after.map fun m => labelled m.data := by
    rw [hold, hsplit, map_append, append_assoc]
    rfl
  -- the place of the segment in the history
  obtain ⟨fs, rest, hfs, -, hrest⟩ := map_eq_append_iff.mp hlabels
  obtain ⟨s₀, later, rfl, hs₀, hlater⟩ := map_eq_cons_iff.mp hrest
  obtain ⟨a, b', hab, -, hb'⟩ := filterMap_eq_append_iff.mp hfs
  obtain ⟨gap, o, b, rfl, -, ho, hb⟩ := filterMap_eq_cons_iff.mp hb'
  cases freshSeg_eq_some ho
  have hlabel : labelled s₀ = labelled s := hs₀.trans hs.symm
  refine ⟨a ++ gap, s₀, b, ?_, congrArg Prod.fst hlabel, congrArg Prod.snd hlabel, ?_⟩
  · rw [hab, append_assoc]
  · intro s' hs' i hi j hj
    have hmem : s' ∈ later := hb ▸ mem_freshSegs hs'
    have hlab : labelled s' ∈ after.map fun m => labelled m.data :=
      hlater ▸ mem_map_of_mem hmem
    obtain ⟨m', hm', heq⟩ := mem_map.mp hlab
    have hcov := h.covers
    have hlt := h.toSendInv.span_lt
    rw [hsplit] at hcov hlt
    have hnode := h.node m hm
    have hnode' := h.node m' (by
      rw [hsplit]
      exact mem_append_right _ (mem_cons_of_mem _ hm'))
    have hnum : s.seqNum = m.seqNum := (congrArg Prod.fst hs).trans hnode.1
    have hnum' : s'.seqNum = m'.seqNum := (congrArg Prod.fst heq).symm.trans hnode'.1
    have hdata : s.data = m.data.data := congrArg Prod.snd hs
    have hdata' : s'.data = m'.data.data := (congrArg Prod.snd heq).symm
    rw [hnum, hnum']
    rw [hdata, hnode.2] at hi
    rw [hdata', hnode'.2] at hj
    exact hcov.apart (by omega) hm' hi hj

theorem Repeating.resent {m : TcpNode TcpSeg} (h : Repeating n c) (hr : Resend c m c')
    (hsend : SendInv c') (hwrite : Writing n c') : Repeating n c' := by
  obtain ⟨f, k, w, o, ol, hside, hout⟩ := hr.segment
  have hdrop : c'.out.drop n = c.out.drop n ++ [.seg .resend (reheaded m.data f k w o ol)] := by
    rw [hout, h.toStreamInv.drop_append]
  -- the header of one segment changes, its number and payload stay
  obtain ⟨g, hnodes, hsame⟩ : ∃ g : TcpNode TcpSeg → TcpNode TcpSeg,
      c'.sendQueue.nodes = c.sendQueue.nodes.map g ∧ ∀ m' ∈ c.sendQueue.nodes,
        labelled (g m').data = labelled m'.data ∧ (g m').addr = m'.addr ∧
          (g m').seqNum = m'.seqNum ∧ (g m').len = m'.len := by
    rw [hside]
    refine ⟨_, rfl, fun m' hm' => ?_⟩
    split
    · rename_i heq
      rw [inj_on_of_nodup_map h.addrs hm' hr.mem heq]
      exact ⟨rfl, rfl, rfl, rfl⟩
    · exact ⟨rfl, rfl, rfl, rfl⟩
  refine ⟨hsend, hwrite, ?_, ?_, ?_, ?_, ?_⟩
  · obtain ⟨old, hold⟩ := h.queue
    refine ⟨old, ?_⟩
    rw [hdrop, freshSegs_append, show freshSegs [.seg .resend _] = [] from rfl, append_nil,
      hold, hnodes, map_map]
    congr 1
    exact map_congr_left fun m' hm' => (hsame m' hm').1.symm
  · rw [hnodes]
    intro m' hm'
    obtain ⟨m₀, hm₀, rfl⟩ := mem_map.mp hm'
    obtain ⟨hlab, -, hseq, hlen⟩ := hsame m₀ hm₀
    have hnum := congrArg Prod.fst hlab
    have hdata := congrArg Prod.snd hlab
    simp only [labelled] at hnum hdata
    rw [hnum, hdata, hseq, hlen]
    exact h.node m₀ hm₀
  · have haddr : c.sendQueue.nodes.map (TcpNode.addr ∘ g) = c.sendQueue.nodes.map TcpNode.addr :=
      map_congr_left fun m' hm' => (hsame m' hm').2.1
    rw [hnodes, map_map, haddr]
    exact h.addrs
  · rw [hnodes, hr.nextAddr]
    intro m' hm'
    obtain ⟨m₀, hm₀, rfl⟩ := mem_map.mp hm'
    rw [(hsame m₀ hm₀).2.1]
    exact h.below m₀ hm₀
  · rw [hdrop]
    refine resendsRepeat_append_one h.repeats ?_
    rintro s ⟨⟩
    exact h.repeats_node hr.mem rfl

theorem SendMove.repeating (h : SendMove c c') (hi : Repeating n c) : Repeating n c' := by
  have hsend := h.sendInv hi.toSendInv
  have hwrite := h.writing hi.toWriting
  rcases h.carries with hc | ⟨m, hr⟩
  · exact hi.carried hc hsend hwrite
  · exact hi.resent hr hsend hwrite

/-! ### Acknowledgments and new data -/

theorem Repeating.acked (h : Repeating n c) (dropped : List (TcpNode TcpSeg))
    (hq : c.sendQueue.nodes = dropped ++ c'.sendQueue.nodes) (hn : c'.nextAddr = c.nextAddr)
    (hl : ∀ o ∈ l, ¬ DataSeg o) (hout : c'.out = c.out ++ l) (hsend : SendInv c')
    (hwrite : Writing n c') : Repeating n c' := by
  have hdrop : c'.out.drop n = c.out.drop n ++ l := by
    rw [hout, h.toStreamInv.drop_append]
  have hmem : ∀ m ∈ c'.sendQueue.nodes, m ∈ c.sendQueue.nodes := by
    intro m hm
    rw [hq]
    exact mem_append_right _ hm
  refine ⟨hsend, hwrite, ?_, fun m hm => h.node m (hmem m hm), ?_, ?_, ?_⟩
  · obtain ⟨old, hold⟩ := h.queue
    refine ⟨old ++ dropped.map fun m => labelled m.data, ?_⟩
    rw [hdrop, freshSegs_append, freshSegs_of_none hl, append_nil, hold, hq, map_append,
      append_assoc]
  · have hnd := h.addrs
    rw [hq, map_append] at hnd
    exact (nodup_append.mp hnd).2.1
  · intro m hm
    rw [hn]
    exact h.below m (hmem m hm)
  · rw [hdrop]
    exact resendsRepeat_append_quiet h.repeats hl

theorem AckStep.repeating (h : AckStep c seg c') (hi : Repeating n c) : Repeating n c' := by
  have hsend := h.sendInv hi.toSendInv
  have hwrite := h.writing hi.toWriting
  have none : ∀ o ∈ ([] : List Out), ¬ DataSeg o := nofun
  cases h with
  | outside hwin hfin => exact hi
  | unsent m hwin hne hend hfind | duplicate m w g k rf heq hw hg =>
    exact hi.acked [] rfl rfl none (append_nil _).symm hsend hwrite
  | all m w g k r hne heq hw hg hr =>
    refine hi.acked c.sendQueue.nodes ?_ rfl none (append_nil _).symm hsend hwrite
    rw [(tcpQueueRemoveAll_spec hi.counted).1, append_nil]
  | upTo m k r node hwin hne hend hfind hr =>
    obtain ⟨hnum, pre, post, hns, hpre⟩ := tcpQueueFind_split hfind
    refine hi.acked pre ?_ rfl none (append_nil _).symm hsend hwrite
    rw [(tcpQueueRemoveUntil_spec hns hpre hnum hi.counted).1]
    exact hns
  | fin w hwin hsent hack hw =>
    refine hi.acked c.sendQueue.nodes (l := [.finAck]) ?_ rfl ?_ rfl hsend hwrite
    · rw [(tcpQueueRemoveAll_spec hi.counted).1, append_nil]
    · intro o ho
      rw [mem_singleton.mp ho]
      exact fun hd => hd

theorem FreshSend.repeating (h : FreshSend c seg c') (hcan : canSend c)
    (hs : Retransmits c.state) (hi : Repeating n c) : Repeating n c' := by
  obtain ⟨l, hl, hout⟩ := h.out
  obtain ⟨w, pe, l', hl', hcut⟩ := cutSegment_frame c (nextDataLen c)
  -- replies to requests, the segment, and a poll alert
  have hdrop : c'.out.drop n = c.out.drop n ++ l' ++ [.seg .fresh seg] ++ l := by
    rw [hout, hcut, append_assoc, append_assoc, hi.toStreamInv.drop_append]
    simp only [append_assoc]
  have hbefore : ∀ o ∈ l', ¬ DataSeg o := by
    intro o ho hd
    have hw := hl' o ho
    cases o with
    | seg kind seg => exact hw.elim
    | _ => exact hd.elim
  have hafter : ∀ o ∈ l, ¬ DataSeg o := by
    intro o ho hd
    have hn := (hl o ho).not_onStream
    cases o with
    | seg kind seg => cases kind <;> first | exact hd.elim | exact hn trivial
    | _ => exact hd.elim
  have hnodes : c'.sendQueue.nodes =
      c.sendQueue.nodes ++ [sentNode c seg (nextDataLen c)] := by
    rw [h.send]
    rfl
  refine ⟨h.sendInv hcan hs hi.toSendInv, h.writing hcan hs hi.toWriting, ?_, ?_, ?_, ?_, ?_⟩
  · obtain ⟨old, hold⟩ := hi.queue
    refine ⟨old, ?_⟩
    rw [hdrop, freshSegs_append, freshSegs_append, freshSegs_append, freshSegs_of_none hbefore,
      freshSegs_of_none hafter, append_nil, append_nil, map_append, hold, hnodes,
      map_append, append_assoc]
    rfl
  · rw [hnodes]
    exact Lib.forall_mem_concat hi.node ⟨rfl, h.data_length hcan hi.write.buf⟩
  · rw [hnodes, map_append]
    refine List.Nodup.append hi.addrs (nodup_singleton _) ?_
    intro a ha hnew
    obtain ⟨m, hm, rfl⟩ := mem_map.mp ha
    have hlt := hi.below m hm
    rw [show m.addr = c.nextAddr from mem_singleton.mp hnew] at hlt
    exact Nat.lt_irrefl _ hlt
  · rw [hnodes, h.nextAddr]
    exact Lib.forall_mem_concat (fun m hm => Nat.lt_succ_of_lt (hi.below m hm))
      (Nat.lt_succ_self _)
  · rw [hdrop]
    refine resendsRepeat_append_quiet ?_ hafter
    refine resendsRepeat_append_one (resendsRepeat_append_quiet hi.repeats hbefore) ?_
    exact nofun

theorem step_repeating (c : TcpConn) (e : Event) (hi : Repeating n c) : Repeating n (step c e) := by
  apply step_send_invariant (fun c c' hm => hm.repeating) ?_ ?_ hi
  · rintro _ seg _ ⟨-, -, hs, hround⟩ hfresh hi
    exact hfresh.repeating hround.2.2.2.2.2 hs hi
  · intro seg d _ _ hack hi
    exact hack.repeating hi

/-! ### The result -/

def Idle (c : TcpConn) : Prop :=
  c.requestQueue.nodes = [] ∧ c.writeQueue.nodes = [] ∧ c.sendQueue.nodes = []
deriving Decidable

theorem Idle.repeating (h : Idle c) (hsend : SendInv c) (hwrite : Writing 0 c) :
    Repeating c.out.length c := by
  obtain ⟨hrequest, hwritten, hsent⟩ := h
  have hwait : c.waiting = [] := waiting_of_nodes hrequest
  have hindex : c.requestIndex.toNat = 0 := hwrite.ok.idle hwait
  have hunsent : c.unsent = [] := by
    unfold TcpConn.unsent unsentOf bytesOf
    rw [hwritten]
    exact drop_nil
  have hnone : c.out.drop c.out.length = [] := drop_length
  refine ⟨hsend, ⟨⟨hwrite.write, ?_, ?_, Nat.le_refl _⟩, hwrite.unopened⟩, ⟨[], ?_⟩, ?_, ?_, ?_, ?_⟩
  · unfold TcpConn.outlet
    rw [hnone, hunsent, hwait, hindex]
    exact Lib.Outlet.ok_empty
  · rw [hnone]
    exact nofun
  · rw [hnone, hsent]
    rfl
  · rw [hsent]
    exact nofun
  · rw [hsent]
    exact nodup_nil
  · rw [hsent]
    exact nofun
  · rw [hnone]
    intro a s b heq
    exact absurd heq.symm (append_ne_nil_of_right_ne_nil _ (cons_ne_nil _ _))

/-- **The sent stream is the written stream.**  From a reached state with empty queues, with `l`
    what is put out since: the payloads in order of first transmission and the bytes still
    held are the accepted requests, less what the replies say did not enter. -/
theorem sent_stream_conserved {c₀ : TcpConn} (h₀ : Initial c₀) (es₀ es : List Event)
    (hidle : Idle (runConn c₀ es₀)) :
    ∃ l, (runConn c₀ (es₀ ++ es)).out = (runConn c₀ es₀).out ++ l ∧
      payloads l ++ (runConn c₀ (es₀ ++ es)).unsent ++ (runConn c₀ (es₀ ++ es)).unconsumed =
        owed (notes l) ∧
      (replies (notes l)).Nodup ∧
      (∀ r ∈ accepted (notes l), ∀ count, answer r.1 (notes l) = some (some count) →
        count ≤ r.2.length) ∧
      ResendsRepeat l := by
  have happ : runConn c₀ (es₀ ++ es) = runConn (runConn c₀ es₀) es := Lib.run_append ..
  have hwrite : Writing 0 (runConn c₀ es₀) :=
    Lib.run_invariant step_writing (initial_sendStart h₀).writing es₀
  have hidle' := hidle.repeating (runConn_sendInv h₀ es₀) hwrite
  rw [happ]
  have hrep : Repeating (runConn c₀ es₀).out.length (runConn (runConn c₀ es₀) es) :=
    Lib.run_invariant step_repeating hidle' es
  obtain ⟨l, hl⟩ := runConn_out (runConn c₀ es₀) es
  have hdrop : (runConn (runConn c₀ es₀) es).out.drop (runConn c₀ es₀).out.length = l := by
    rw [← hl, drop_left]
  generalize runConn (runConn c₀ es₀) es = c at hrep hl hdrop
  have hbalance : payloads l ++ [] ++ c.unsent ++ c.unconsumed = owed (notes l) := by
    rw [← hdrop]
    exact hrep.ok.balance
  rw [append_nil] at hbalance
  refine ⟨l, hl.symm, hbalance, ?_, ?_, ?_⟩
  · rw [← hdrop]
    exact hrep.ok.once
  · rw [← hdrop]
    exact hrep.ok.count
  · rw [← hdrop]
    exact hrep.repeats

/-- Ten bytes are written and sent, the timer fires, and they are sent again. -/
theorem sent_stream_conserved_sample :
    let c := runConn sampleConn
      (sampleOpen ++ (sampleSend ++ [sampleEvent .gbnFire, sampleRound]))
    (∃ s, .seg .resend s ∈ c.out) ∧
      ∃ l, c.out = (runConn sampleConn sampleOpen).out ++ l ∧
        payloads l ++ c.unsent ++ c.unconsumed = owed (notes l) ∧ ResendsRepeat l := by
  refine ⟨?_, ?_⟩
  · -- the front of `send_queue` is what the timeout sends again
    refine ⟨((runConn sampleConn (sampleOpen ++ (sampleSend ++
      [sampleEvent .gbnFire, sampleRound]))).sendQueue.nodes.map TcpNode.data).headD {}, ?_⟩
    decide +kernel
  · obtain ⟨l, hout, hbal, -, -, hrep⟩ := sent_stream_conserved
      (.fresh sampleData ⟨1, 10, 2, 20⟩) sampleOpen
      (sampleSend ++ [sampleEvent .gbnFire, sampleRound]) (by decide +kernel)
    exact ⟨l, hout, hbal, hrep⟩

end FinsStack.Tcp
