import FinsStack.Tcp.StateView

/-!
# The state diagram and the history of a connection

`successors` is the diagram.  `replay` is the abstract machine: it reads the history
a connection leaves in `out` and accepts it when every change of state follows the
diagram, every consumed FIN lies at `recv_seq_num`, and the states after the peer's
FIN are entered with exactly one FIN consumed.  Every run of a connection leaves a
history that `replay` accepts and that ends in the connection's state.
-/

namespace FinsStack.Tcp

open List

/-! ### The diagram -/

def successors : TcpState → List TcpState
  | .closed => [.listen, .synSent, .synRecv]
  | .listen => [.synSent, .closed]
  | .synSent => [.synRecv, .established, .closed]
  | .synRecv => [.synSent, .established, .finWait1]
  | .established => [.closeWait, .finWait1]
  | .finWait1 => [.finWait2, .closing, .timeWait]
  | .finWait2 => [.timeWait]
  | .closing => [.timeWait]
  | .closeWait => [.lastAck]
  | .lastAck => [.closed]
  | .timeWait => [.closed]

def afterFin : TcpState → Bool
  | .closeWait | .closing | .lastAck | .timeWait => true
  | _ => false

def finCount (s : TcpState) : Nat := if afterFin s then 1 else 0

/-! ### The abstract machine -/

/-- A point of a history: the state, and the FINs consumed so far. -/
structure History where
  state : TcpState
  fins : Nat
deriving DecidableEq, Repr

def observe (h : History) : Out → Option History
  | .edge old new =>
    if h.state = old ∧ new ∈ successors old ∧ (afterFin new → h.fins = 1) then
      some { h with state := new }
    else none
  | .fin seqNum recvSeqNum =>
    if seqNum = recvSeqNum then some { h with fins := h.fins + 1 } else none
  | _ => some h

def replay (h : History) (l : List Out) : Option History := l.foldlM observe h

variable {h h' : History} {l : List Out} {new old : TcpState} {c c' : TcpConn} {seg : TcpSeg}
  {md : TcpData}

theorem replay_append {l' : List Out} (hl : replay h l = some h') :
    replay h (l ++ l') = replay h' l' := by
  unfold replay at hl ⊢
  rw [foldlM_append, hl]
  rfl

theorem observe_sending {o : Out} (ho : Sending o) : observe h o = some h := by
  cases o with
  | data addr bytes | edge old new | fin seqNum recvSeqNum => exact ho.elim
  | _ => rfl

theorem replay_sending (hl : ∀ o ∈ l, Sending o) : replay h l = some h := by
  induction l with
  | nil => rfl
  | cons o l ih =>
    have ho := observe_sending (h := h) (hl o (mem_cons_self ..))
    have hrest := ih fun o' ho' => hl o' (mem_cons_of_mem _ ho')
    unfold replay at hrest ⊢
    rw [foldlM_cons, ho]
    exact hrest

theorem replay_edge (hs : h.state = old) (he : new ∈ successors old)
    (hf : afterFin new → h.fins = 1) :
    replay h [.edge old new] = some { h with state := new } := by
  unfold replay
  rw [foldlM_cons, observe, if_pos ⟨hs, he, hf⟩]
  rfl

/-! ### What a history tells -/

/-- The FINs a history notes: where each lay, and `recv_seq_num` when it was consumed. -/
def finsOf (l : List Out) : List (UInt32 × UInt32) :=
  l.filterMap fun
    | .fin seqNum recvSeqNum => some (seqNum, recvSeqNum)
    | _ => none

def changesOf (l : List Out) : List (TcpState × TcpState) :=
  l.filterMap fun
    | .edge old new => some (old, new)
    | _ => none

theorem replay_fins (hl : replay h l = some h') :
    h'.fins = h.fins + (finsOf l).length ∧ ∀ q ∈ finsOf l, q.1 = q.2 := by
  induction l generalizing h with
  | nil =>
    cases hl
    exact ⟨rfl, nofun⟩
  | cons o l ih =>
    unfold replay at hl
    rw [foldlM_cons] at hl
    rcases ho : observe h o with _ | h1
    · rw [ho] at hl
      cases hl
    rw [ho] at hl
    obtain ⟨hlen, hall⟩ := ih (h := h1) hl
    cases o with
    | edge old new =>
      simp only [observe] at ho
      split at ho
      · cases ho
        exact ⟨hlen, hall⟩
      · cases ho
    | fin seqNum recvSeqNum =>
      simp only [observe] at ho
      split at ho
      · rename_i heq
        cases ho
        refine ⟨?_, ?_⟩
        · simp only [finsOf, filterMap_cons, length_cons] at hlen ⊢
          omega
        · intro q hq
          rcases mem_cons.mp hq with hq | hq
          · rw [hq]
            exact heq
          · exact hall q hq
      · cases ho
    | _ =>
      cases ho
      exact ⟨hlen, hall⟩

theorem replay_change {l₁ l₂ : List Out} (hl : replay h (l₁ ++ .edge old new :: l₂) = some h')
    (h0 : h.fins = 0) :
    new ∈ successors old ∧ (afterFin new = true → ∃ q, finsOf l₁ = [(q, q)]) := by
  unfold replay at hl
  rw [foldlM_append] at hl
  rcases h1 : List.foldlM observe h l₁ with _ | hm
  · rw [h1] at hl
    cases hl
  rw [h1, Option.bind_eq_bind, Option.bind_some, foldlM_cons] at hl
  obtain ⟨hlen, hall⟩ := replay_fins (l := l₁) h1
  simp only [observe] at hl
  split at hl
  · rename_i hedge
    refine ⟨hedge.2.1, ?_⟩
    intro hafter
    have hone : (finsOf l₁).length = 1 := by
      have := hedge.2.2 hafter
      omega
    obtain ⟨⟨p, r⟩, hq⟩ := length_eq_one_iff.mp hone
    have hpr : p = r := hall (p, r) (by rw [hq]; exact mem_singleton_self _)
    exact ⟨p, by rw [hq, hpr]⟩
  · cases hl

/-! ### Handling data keeps the history -/

def NodesInPlace (q : TcpQueue TcpSeg) : Prop := ∀ n ∈ q.nodes, n.seqNum = n.data.seqNum

def Logged (c : TcpConn) : Prop :=
  ∃ n, replay ⟨.closed, 0⟩ c.out = some ⟨c.state, n⟩ ∧ (c.state ≠ .closed → n = finCount c.state)

structure Handled (c : TcpConn) : Prop where
  logged : Logged c
  nodes : NodesInPlace c.recvQueue
  once : (∃ old, .edge old .closed ∈ c.out) → c.state = .closed

theorem Logged.setState (h : Logged c) (hs : c.state ≠ .closed) (he : new ∈ successors c.state)
    (hf : new ≠ .closed → finCount new = finCount c.state) : Logged (c.setState new) := by
  obtain ⟨n, hr, hn⟩ := h
  have hcount := hn hs
  refine ⟨n, ?_, ?_⟩
  · show replay _ (c.out ++ [.edge c.state new]) = _
    rw [replay_append hr, replay_edge rfl he]
    · rfl
    · intro hafter
      have hnew : finCount new = 1 := by simp only [finCount, hafter, if_true]
      have hne : new ≠ .closed := by
        intro h
        rw [h] at hafter
        cases hafter
      show n = 1
      rw [hcount, ← hf hne, hnew]
  · intro hne
    rw [hcount]
    exact (hf hne).symm

theorem Logged.fin (h : Logged c) (hplace : seg.seqNum = c.recvSeqNum) (hs : Receiving c.state)
    (he : new ∈ successors c.state) (hnew : afterFin new) :
    Logged ((consumeFin c seg).setState new) := by
  obtain ⟨n, hr, hn⟩ := h
  have hzero : n = 0 := by
    rcases hs with hs | hs | hs
    all_goals
      rw [hs] at hn
      exact hn (by decide)
  refine ⟨1, ?_, ?_⟩
  · show replay _ ((c.out ++ [.fin seg.seqNum c.recvSeqNum]) ++ [.edge c.state new]) = _
    have hfin : replay ⟨c.state, n⟩ [.fin seg.seqNum c.recvSeqNum] = some ⟨c.state, 1⟩ := by
      rw [hplace, hzero]
      simp [replay, observe]
    have hout : replay ⟨.closed, 0⟩ (c.out ++ [.fin seg.seqNum c.recvSeqNum]) =
        some ⟨c.state, 1⟩ := by
      rw [replay_append hr, hfin]
    rw [replay_append hout, replay_edge rfl he (fun _ => rfl)]
    rfl
  · intro _
    show 1 = finCount new
    simp only [finCount, hnew, if_true]

theorem Logged.append (h : Logged c) (hl : ∀ h, replay h l = some h) (hs : c'.state = c.state)
    (ho : c'.out = c.out ++ l) : Logged c' := by
  obtain ⟨n, hr, hn⟩ := h
  refine ⟨n, ?_, ?_⟩
  · rw [ho, replay_append hr, hl, hs]
  · rw [hs]
    exact hn

theorem finEdge_successor (h : FinEdge c seg new) :
    Receiving c.state ∧ new ∈ successors c.state ∧ afterFin new := by
  rcases h with ⟨hs, rfl⟩ | ⟨hs, rfl⟩ | ⟨hs, rfl, -⟩ | ⟨hs, rfl⟩
  · exact ⟨.inl hs, by rw [hs]; decide, rfl⟩
  · exact ⟨.inr (.inl hs), by rw [hs]; decide, rfl⟩
  · exact ⟨.inr (.inl hs), by rw [hs]; decide, rfl⟩
  · exact ⟨.inr (.inr hs), by rw [hs]; decide, rfl⟩

theorem Handled.setState (h : Handled c) (new : TcpState) (hs : c.state ≠ .closed)
    (he : new ∈ successors c.state) (hf : new ≠ .closed → finCount new = finCount c.state) :
    Handled (c.setState new) where
  logged := h.logged.setState hs he hf
  nodes := h.nodes
  once := by
    rintro ⟨old, ho⟩
    rcases mem_append.mp ho with ho | ho
    · exact absurd (h.once ⟨old, ho⟩) hs
    · rw [mem_singleton] at ho
      injection ho with _ hnew
      exact hnew.symm

theorem FlagsStep.handled {r : FlagsRet} (hstep : FlagsStep c seg r c')
    (hplace : seg.seqNum = c.recvSeqNum) (h : Handled c) : Handled c' := by
  cases hstep with
  | keep _ => exact h
  | data hs hd => exact ⟨h.logged, h.nodes, h.once⟩
  | finWait2 hs ht hd =>
    exact h.setState .finWait2 (by rw [hs]; decide) (by rw [hs]; decide)
      (fun _ => by rw [hs]; decide)
  | finWait2Data hs ht hd =>
    have h' := h.setState .finWait2 (by rw [hs]; decide) (by rw [hs]; decide)
      (fun _ => by rw [hs]; decide)
    exact ⟨h'.logged, h'.nodes, h'.once⟩
  | timeWait hs ht =>
    have h' := h.setState .timeWait (by rw [hs]; decide) (by rw [hs]; decide)
      (fun _ => by rw [hs]; decide)
    exact ⟨h'.logged, h'.nodes, h'.once⟩
  | closed _ hs ht =>
    exact h.setState .closed (by rw [hs]; decide) (by rw [hs]; decide) (fun h => absurd rfl h)
  | fin new g he hf =>
    obtain ⟨hrecv, hsucc, hafter⟩ := finEdge_successor he
    have hopen : c.state ≠ .closed := by
      intro hc
      rw [hc] at hrecv
      rcases hrecv with h | h | h <;> cases h
    refine ⟨?_, h.nodes, ?_⟩
    · exact (h.logged.fin hplace hrecv hsucc hafter).append (l := [.alert _ _ _ _])
        (fun _ => rfl) rfl rfl
    · rintro ⟨old, ho⟩
      simp only [alertShutdownRd, TcpConn.emit, TcpConn.setState, consumeFin, advanceRecv,
        append_assoc, cons_append, nil_append, mem_append, mem_cons,
        not_mem_nil, or_false, reduceCtorEq, false_or] at ho
      rcases ho with ho | ho
      · exact absurd (h.once ⟨old, ho⟩) hopen
      · injection ho with _ heq
        exact heq.symm

theorem SegStep.handled (hstep : SegStep md c seg c') (hplace : seg.seqNum = c.recvSeqNum)
    (h : Handled c) : Handled c' := by
  cases hstep with
  | options c1 o hf =>
    have h' := hf.handled hplace h
    exact ⟨h'.logged, h'.nodes, h'.once⟩
  | handOff c1 hf hd hflow =>
    have h' := hf.handled hplace h
    refine ⟨h'.logged.append (l := [.data _ _]) (fun _ => rfl) rfl rfl, h'.nodes, ?_⟩
    rintro ⟨old, ho⟩
    rcases mem_append.mp ho with ho | ho
    · exact h'.once ⟨old, ho⟩
    · rw [mem_singleton] at ho
      cases ho
  | bare r c1 hf h1 => exact hf.handled hplace h

theorem tcpHandleData_handled (md : TcpData) (seg : TcpSeg) (h : Handled c) :
    Handled (tcpHandleData md c seg).1 := by
  have popped : ∀ c : TcpConn, Handled c → Handled c.popRecv := by
    intro c h
    exact ⟨h.logged, fun n hn => h.nodes n (tcpQueueRemoveFront_mem hn), h.once⟩
  refine tcpHandleData_induct ?_ ?_ ?_ ?_ ?_ ?_ h
  · intro c w h
    exact ⟨h.logged, h.nodes, h.once⟩
  · intro c m h
    exact ⟨h.logged, h.nodes, h.once⟩
  · intro c n ns _ h
    exact popped c h
  · intro c n ns c' hns hseq hstep h
    have hplace : n.data.seqNum = c.recvSeqNum := by
      rw [← h.nodes n (by rw [hns]; exact mem_cons_self ..)]
      exact hseq
    exact hstep.handled hplace (popped c h)
  · intro c' hseq hstep h
    exact hstep.handled hseq h
  · intro q _ _ hins h
    refine ⟨h.logged, ?_, h.once⟩
    intro n hn
    rcases tcpQueueInsert_mem hins n hn with hn | hn
    · rw [hn]
      rfl
    · exact h.nodes n hn

/-! ### Whole runs -/

structure Conforms (c : TcpConn) : Prop where
  history : ∃ n, replay ⟨.closed, 0⟩ c.out = some ⟨c.state, n⟩ ∧
    (c.state ≠ .closed ∨ c.runningFlag = true → n = finCount c.state)
  nodes : NodesInPlace c.recvQueue
  once : (∃ old, .edge old .closed ∈ c.out) → c.state = .closed ∧ c.runningFlag = false

theorem Conforms.logged (h : Conforms c) : Logged c := by
  obtain ⟨n, hr, hn⟩ := h.history
  exact ⟨n, hr, fun hs => hn (.inl hs)⟩

theorem Conforms.inert (h : Conforms c) (hi : Inert c c') : Conforms c' := by
  obtain ⟨n, hr, hn⟩ := h.history
  obtain ⟨l, hl, ho⟩ := hi.out
  refine ⟨⟨n, ?_, ?_⟩, ?_, ?_⟩
  · rw [ho, replay_append hr, replay_sending hl, hi.state]
  · intro hs
    rw [hi.state] at hs ⊢
    exact hn (hs.imp id hi.running)
  · rw [show c'.recvQueue = c.recvQueue by rw [hi.recv]]
    exact h.nodes
  · rintro ⟨old, hold⟩
    rw [ho] at hold
    rcases mem_append.mp hold with hold | hold
    · obtain ⟨hs, hrun⟩ := h.once ⟨old, hold⟩
      refine ⟨hi.state.trans hs, ?_⟩
      cases hr' : c'.runningFlag with
      | false => rfl
      | true =>
        rw [hi.running hr'] at hrun
        cases hrun
    · exact (hl _ hold).elim

/-- A change of state in a call of its own: along the diagram, not into a state that
    needs another FIN, and stopping the connection if it is CLOSED. -/
theorem Conforms.change {d : TcpConn} {p : List Out} (h : Conforms c)
    (hrun : c.state = .closed → c.runningFlag) (he : new ∈ successors c.state)
    (hf : new ≠ .closed → finCount new = finCount c.state) (hst : d.state = new)
    (hq : d.recvQueue = c.recvQueue) (hp : ∀ o ∈ p, Sending o)
    (ho : d.out = c.out ++ p ++ [.edge c.state new]) (hi : Inert d c')
    (hstop : new = .closed → c'.runningFlag = false) : Conforms c' := by
  obtain ⟨n, hr, hn⟩ := h.history
  obtain ⟨l, hl, hl'⟩ := hi.out
  have hs' : c'.state = new := hi.state.trans hst
  have hcount : n = finCount c.state := by
    by_cases hc : c.state = .closed
    · exact hn (.inr (hrun hc))
    · exact hn (.inl hc)
  have hedge : replay ⟨.closed, 0⟩ d.out = some ⟨new, n⟩ := by
    have hpre : replay ⟨.closed, 0⟩ (c.out ++ p) = some ⟨c.state, n⟩ := by
      rw [replay_append hr, replay_sending hp]
    rw [ho, replay_append hpre, replay_edge rfl he]
    intro hafter
    have hnew : new ≠ .closed := by
      intro hc
      rw [hc] at hafter
      cases hafter
    show n = 1
    rw [hcount, ← hf hnew]
    simp only [finCount, hafter, if_true]
  refine ⟨⟨n, ?_, ?_⟩, ?_, ?_⟩
  · rw [hl', replay_append hedge, replay_sending hl, hs']
  · rw [hs']
    rintro (hnew | hrun')
    · rw [hcount, hf hnew]
    · by_cases hnew : new = .closed
      · rw [hstop hnew] at hrun'
        cases hrun'
      · rw [hcount, hf hnew]
  · rw [show c'.recvQueue = d.recvQueue by rw [hi.recv], hq]
    exact h.nodes
  · rintro ⟨old, hold⟩
    rw [hl', ho] at hold
    simp only [mem_append, mem_singleton] at hold
    rcases hold with ((hold | hold) | hold) | hold
    · -- nothing leads out of CLOSED once it was entered again
      obtain ⟨hs, hoff⟩ := h.once ⟨old, hold⟩
      rw [hrun hs] at hoff
      cases hoff
    · exact (hp _ hold).elim
    · injection hold with _ hnew
      exact ⟨hs'.trans hnew.symm, hstop hnew.symm⟩
    · exact (hl _ hold).elim

theorem ownEdge_successor {stop : Bool} (h : OwnEdge old new stop) :
    new ∈ successors old ∧ (new ≠ .closed → finCount new = finCount old) ∧
      (new = .closed → stop) := by
  cases h <;> decide

theorem openEdge_successor (h : OpenEdge old new) :
    new ∈ successors old ∧ finCount new = finCount old ∧ new ≠ .closed ∧ old ≠ .closed := by
  cases h <;> decide

theorem Conforms.handled (h : Conforms c) : Handled c :=
  ⟨h.logged, h.nodes, fun hold => (h.once hold).1⟩

theorem step_conforms (c : TcpConn) (e : Event) (h : Conforms c) : Conforms (step c e) := by
  cases step_view c e with
  | inert hi => exact h.inert hi
  | move new stop c1 hrun he h₁ h₂ hstop =>
    obtain ⟨hsucc, hcount, hclosed⟩ := ownEdge_successor he
    obtain ⟨p, hp, ho⟩ := h₁.out
    refine h.change (d := c1.setState new) (fun _ => hrun) hsucc hcount rfl ?_ hp ?_ h₂
      (fun hc => hstop (hclosed hc))
    · show c1.recvQueue = c.recvQueue
      rw [h₁.recv]
    · show c1.out ++ [.edge c1.state new] = _
      rw [ho, h₁.state]
  | opening new d he hst hq ho hi =>
    obtain ⟨hsucc, hcount, hnew, hold⟩ := openEdge_successor he
    exact h.change (p := []) (fun hc => absurd hc hold) hsucc (fun _ => hcount) hst hq
      nofun (by rw [ho, append_nil]) hi (fun hc => absurd hc hnew)
  | restart d hs hst hq ho hi =>
    obtain ⟨n, hr, hn⟩ := h.history
    have hd : Conforms d := by
      refine ⟨⟨n, by rw [ho, hst, hr, hs], ?_⟩, hq ▸ h.nodes, ?_⟩
      · intro _
        rw [hst, ← hs]
        exact hn (.inl (by rw [hs]; decide))
      · rintro ⟨old, hold⟩
        have hclosed := (h.once ⟨old, ho ▸ hold⟩).1
        rw [hs] at hclosed
        cases hclosed
    exact hd.inert hi
  | data seg _ _ _ _ hi hstop =>
    have hh := tcpHandleData_handled e.md seg (h.inert (ackFirst_inert e.md c seg)).handled
    obtain ⟨n, hr, hn⟩ := hh.logged
    obtain ⟨l, hl, ho⟩ := hi.out
    refine ⟨⟨n, ?_, ?_⟩, ?_, ?_⟩
    · rw [ho, replay_append hr, replay_sending hl, hi.state]
    · intro hopen
      have hne : (step c e).state ≠ .closed := by
        intro hc
        rcases hopen with hopen | hopen
        · exact hopen hc
        · rw [hstop hc] at hopen
          cases hopen
      rw [hi.state] at hne ⊢
      exact hn hne
    · rw [show (step c e).recvQueue = _ by rw [hi.recv]]
      exact hh.nodes
    · rintro ⟨old, hold⟩
      rw [ho] at hold
      rcases mem_append.mp hold with hold | hold
      · have hc := hi.state.trans (hh.once ⟨old, hold⟩)
        exact ⟨hc, hstop hc⟩
      · exact (hl _ hold).elim
  | credit _ value _ _ hi =>
    have hcredit : Conforms (c.credit value) := ⟨h.history, h.nodes, h.once⟩
    exact hcredit.inert hi

theorem initial_conforms (h : Initial c) : Conforms c := by
  cases h with
  | fresh md a =>
    exact ⟨⟨0, rfl, fun _ => rfl⟩, fun n hn => (nomatch hn), fun ⟨_, h⟩ => (nomatch h)⟩
  | child md parent seg rand =>
    obtain ⟨d, hs, hq, -, ho, hi⟩ := tcpListenChild_inert md parent seg rand
    have hd : Conforms d := by
      refine ⟨⟨0, by rw [ho, hs]; rfl, fun _ => by rw [hs]; rfl⟩, ?_, ?_⟩
      · intro n hn
        rw [hq] at hn
        cases hn
      · rintro ⟨old, hold⟩
        rw [ho, mem_singleton] at hold
        cases hold
    exact hd.inert hi

theorem runConn_conforms (h : Conforms c) (es : List Event) : Conforms (runConn c es) :=
  Lib.run_invariant (fun c e hc => step_conforms c e hc) h es

/-! ### A connection that is CLOSED again -/

theorem changesOf_sending (hl : ∀ o ∈ l, Sending o) : changesOf l = [] := by
  apply filterMap_eq_nil_iff.mpr
  intro o ho
  have hs := hl o ho
  cases o with
  | edge old new => exact hs.elim
  | _ => rfl

theorem runConn_of_stopped (hs : c.state = .closed) (hoff : c.runningFlag = false)
    (es : List Event) :
    (runConn c es).state = .closed ∧ (runConn c es).runningFlag = false ∧
      changesOf (runConn c es).out = changesOf c.out := by
  refine Lib.run_invariant (I := fun d : TcpConn => d.state = .closed ∧ d.runningFlag = false ∧
    changesOf d.out = changesOf c.out) ?_ ⟨hs, hoff, rfl⟩ es
  rintro d e ⟨hd, hdoff, hdout⟩
  have hi : Inert d (step d e) := by
    cases step_view d e with
    | inert hi => exact hi
    | move _ _ _ hrun | credit _ _ _ hrun =>
      rw [hdoff] at hrun
      cases hrun
    | opening _ _ he =>
      rw [hd] at he
      cases he
    | restart _ hs' =>
      rw [hd] at hs'
      cases hs'
    | data _ _ _ hs' =>
      rw [hd] at hs'
      rcases hs' with (h | h | h) | h | h | h <;> cases h
  obtain ⟨l, hl, ho⟩ := hi.out
  refine ⟨hi.state.trans hd, ?_, ?_⟩
  · cases hr : (step d e).runningFlag with
    | false => rfl
    | true =>
      rw [hi.running hr] at hdoff
      cases hdoff
  · have hsplit : changesOf (d.out ++ l) = changesOf d.out ++ changesOf l :=
      filterMap_append
    rw [ho, hsplit, changesOf_sending hl, append_nil, hdout]

/-- **State-machine conformance.**  The history is a path through the diagram that ends in the
    connection's state; the edges into CLOSE_WAIT, CLOSING, LAST_ACK and TIME_WAIT come after
    exactly one FIN consumed at `recv_seq_num`; and CLOSED is not left once entered again. -/
theorem run_follows_diagram (c₀ : TcpConn) (h₀ : Initial c₀) (es : List Event) :
    (∃ n, replay ⟨.closed, 0⟩ (runConn c₀ es).out = some ⟨(runConn c₀ es).state, n⟩) ∧
    (∀ l₁ old new l₂, (runConn c₀ es).out = l₁ ++ .edge old new :: l₂ →
      new ∈ successors old ∧
      (new ∈ [.closeWait, .closing, .lastAck, .timeWait] → ∃ q, finsOf l₁ = [(q, q)])) ∧
    ((∃ old, .edge old .closed ∈ (runConn c₀ es).out) →
      (runConn c₀ es).runningFlag = false ∧
      ∀ es', (runConn (runConn c₀ es) es').state = (runConn c₀ es).state ∧
        changesOf (runConn (runConn c₀ es) es').out = changesOf (runConn c₀ es).out) := by
  have hinv := runConn_conforms (initial_conforms h₀) es
  obtain ⟨n, hr, -⟩ := hinv.history
  refine ⟨⟨n, hr⟩, ?_, ?_⟩
  · intro l₁ old new l₂ hout
    rw [hout] at hr
    obtain ⟨hsucc, hfin⟩ := replay_change hr rfl
    refine ⟨hsucc, ?_⟩
    intro hnew
    apply hfin
    simp only [mem_cons, not_mem_nil, or_false] at hnew
    rcases hnew with rfl | rfl | rfl | rfl <;> rfl
  · intro hclosed
    obtain ⟨hs, hoff⟩ := hinv.once hclosed
    refine ⟨hoff, ?_⟩
    intro es'
    obtain ⟨hs', -, hch⟩ := runConn_of_stopped hs hoff es'
    exact ⟨hs'.trans hs.symm, hch⟩

/-- A passive close: the peer's FIN, `close`, and the acknowledgment of the own FIN. -/
def passiveClose : List Event :=
  sampleOpen ++
  [sampleRecv { seqNum := 501, seqEnd := 501, ackNum := 101, flags := FLAG_FIN ||| FLAG_ACK },
   sampleEvent (.close sampleFcf),
   sampleRecv { seqNum := 502, seqEnd := 502, ackNum := 102, flags := FLAG_ACK }]

theorem run_follows_diagram_passiveClose :
    (runConn sampleConn passiveClose).state = .closed ∧
      (runConn sampleConn passiveClose).runningFlag = false :=
  ⟨by decide +kernel,
    ((run_follows_diagram sampleConn (.fresh _ _) passiveClose).2.2
      ⟨.lastAck, by decide +kernel⟩).1⟩

end FinsStack.Tcp
