import FinsStack.Tcp.SendStream

/-!
# A go-back-N pass

After a timeout the main thread sends the front of `send_queue`, keeps it as `gbn_node`, and
sends the node behind `gbn_node` in every later round, until there is none.  An acknowledgment
that removes nodes meanwhile sets `first_flag`: the next round is to start at the new front.
Only the round that sends new data clears that flag again, and it is not reached during a pass:

  * with `first_flag` clear the pass sends each node behind `gbn_node` once, in order, and ends
    (`gbn_pass_in_order`);
  * with `first_flag` set every round sends the front again (`partialAck_not_inOrder`).
-/

namespace FinsStack.Tcp

open List Lib

/-! ### What is sent again, and what is still to send -/

def resentSeg : Out → Option TcpSeg
  | .seg .resend s => some s
  | _ => none

def resentSegs (l : List Out) : List TcpSeg := l.filterMap resentSeg

theorem resentSegs_append (l₁ l₂ : List Out) :
    resentSegs (l₁ ++ l₂) = resentSegs l₁ ++ resentSegs l₂ :=
  filterMap_append

def behind (q : TcpQueue TcpSeg) (a : Nat) : List (TcpNode TcpSeg) :=
  (q.nodes.dropWhile fun n => n.addr != a).tail

/-- The nodes that a pass has still to send: all of `send_queue` if the timeout has not been
    handled yet, otherwise those behind `gbn_node`. -/
def remaining (c : TcpConn) : List (TcpNode TcpSeg) :=
  if c.toGbnFlag then c.sendQueue.nodes
  else if c.gbnFlag then c.gbnNode.elim [] (behind c.sendQueue)
  else []

theorem behind_suffix (q : TcpQueue TcpSeg) (a : Nat) : behind q a <:+ q.nodes :=
  (tail_suffix _).trans (dropWhile_suffix _)

theorem remaining_suffix (c : TcpConn) : remaining c <:+ c.sendQueue.nodes := by
  unfold remaining
  split
  · exact suffix_refl _
  split
  · cases c.gbnNode with
    | none => exact nil_suffix
    | some a => exact behind_suffix _ a
  · exact nil_suffix

def PassOver (c : TcpConn) : Prop := c.toGbnFlag = false ∧ c.gbnFlag = false

variable {c : TcpConn}

theorem PassOver.remaining (h : PassOver c) : remaining c = [] := by
  simp only [Tcp.remaining, h.1, h.2, Bool.false_eq_true, if_false]

def PassOk (c : TcpConn) : Prop :=
  c.toGbnFlag = true ∨ (c.fastFlag = false ∧ (c.gbnFlag = true → c.firstFlag = false))
deriving Decidable

def WindowsOpen (c : TcpConn) : Prop := 1 < recvSpace c ∧ 1 < congSpace c
deriving Decidable

/-! ### Rounds that leave a pass alone -/

def TcpConn.passFlags (c : TcpConn) : Bool × Bool × Option Nat × Bool :=
  (c.toGbnFlag, c.gbnFlag, c.gbnNode, c.firstFlag)

structure PassKept (c c' : TcpConn) : Prop where
  queue : c'.sendQueue = c.sendQueue
  flags : c'.passFlags = c.passFlags
  fast : c'.fastFlag = c.fastFlag
  out : ∃ l, resentSegs l = [] ∧ c'.out = c.out ++ l

section

variable {c c' : TcpConn}

section

variable (h : PassKept c c')
include h

theorem PassKept.toGbnFlag : c'.toGbnFlag = c.toGbnFlag :=
  congrArg Prod.fst h.flags

theorem PassKept.gbnFlag : c'.gbnFlag = c.gbnFlag :=
  congrArg (fun f => f.2.1) h.flags

theorem PassKept.gbnNode : c'.gbnNode = c.gbnNode :=
  congrArg (fun f => f.2.2.1) h.flags

theorem PassKept.firstFlag : c'.firstFlag = c.firstFlag :=
  congrArg (fun f => f.2.2.2) h.flags

theorem PassKept.remaining : remaining c' = remaining c := by
  simp only [Tcp.remaining, h.toGbnFlag, h.gbnFlag, h.gbnNode, h.queue]

end

theorem PassKept.silent (hq : c'.sendQueue = c.sendQueue) (hg : c'.passFlags = c.passFlags)
    (hf : c'.fastFlag = c.fastFlag) (ho : c'.out = c.out) : PassKept c c' :=
  ⟨hq, hg, hf, [], rfl, by rw [ho, append_nil]⟩

theorem resentSegs_of_neutral {l : List Out} (hl : NeutralList l) : resentSegs l = [] := by
  refine filterMap_eq_nil_iff.mpr fun o ho => ?_
  have hn := hl o ho
  cases o with
  | seg kind seg => cases kind <;> first | rfl | exact hn.elim
  | _ => rfl

theorem PassKept.trans {c'' : TcpConn} (h₁ : PassKept c c') (h₂ : PassKept c' c'') :
    PassKept c c'' := by
  obtain ⟨l₁, hl₁, ho₁⟩ := h₁.out
  obtain ⟨l₂, hl₂, ho₂⟩ := h₂.out
  refine ⟨h₂.queue.trans h₁.queue, h₂.flags.trans h₁.flags, h₂.fast.trans h₁.fast, l₁ ++ l₂, ?_, ?_⟩
  · rw [resentSegs_append, hl₁, hl₂]
    rfl
  · rw [ho₂, ho₁, append_assoc]

end

theorem mainDelayedAck_passKept (c : TcpConn) :
    PassKept c (mainDelayedAck c) ∧ (mainDelayedAck c).requestInterrupt = c.requestInterrupt := by
  obtain ⟨a, w, l, hl, h⟩ := mainDelayedAck_frame c
  rw [h]
  exact ⟨⟨rfl, rfl, rfl, l, resentSegs_of_neutral hl, rfl⟩, rfl⟩

theorem handleInterrupt_passKept (c : TcpConn) :
    PassKept c (handleInterrupt (clearInterrupt c)) ∧
      (handleInterrupt (clearInterrupt c)).requestInterrupt = false := by
  obtain ⟨w, l, hl, h⟩ := handleInterrupt_served (clearInterrupt c)
  have hresent : resentSegs l = [] := filterMap_eq_nil_iff.mpr fun o ho => by
    obtain ⟨_, _, _, _, rfl⟩ := hl o ho
    rfl
  rw [h]
  exact ⟨⟨rfl, rfl, rfl, l, hresent, rfl⟩, rfl⟩

/-! ### One round -/

inductive PassStep (c c' : TcpConn) : Prop
  | keep (h : PassKept c c')
      (hwhy : (c.requestInterrupt = true ∧ c'.requestInterrupt = false) ∨ ¬ WindowsOpen c)
  | resend (n : TcpNode TcpSeg) (rest : List (TcpNode TcpSeg)) (x : TcpSeg)
      (hrem : remaining c = n :: rest) (hx : labelled x = labelled n.data)
      (hq : c'.sendQueue = tcpQueueSet c.sendQueue n.addr x)
      (hg : c'.passFlags = (false, true, some n.addr, false)) (hf : c'.fastFlag = false)
      (hi : c'.requestInterrupt = false)
      (hout : ∃ l, resentSegs l = [x] ∧ c'.out = c.out ++ l)
  | over (hrem : remaining c = []) (h : PassOver c') (hf : c'.fastFlag = false)
      (hi : c'.requestInterrupt = false)
      (hout : ∃ l, resentSegs l = [] ∧ c'.out = c.out ++ l)

theorem timeoutCong_fast (c : TcpConn) : (timeoutCong c).fastFlag = c.fastFlag := by
  unfold timeoutCong
  split <;> rfl

section

variable {c c' : TcpConn} {note : TcpConn → TcpConn} (hnote : note = noteFlow ∨ note = id)
include hnote

theorem resendNode_fast (n : TcpNode TcpSeg) : (resendNode note c n).fastFlag = c.fastFlag := by
  obtain ⟨f, k, w, o, ol, a, fs, h⟩ := resendNode_frame note hnote c n
  rw [h]

theorem mainTimeout_fast (n : TcpNode TcpSeg) : (mainTimeout note c n).fastFlag = c.fastFlag :=
  (resendNode_fast hnote n).trans (timeoutCong_fast _)

theorem mainTimeout_passStep {n : TcpNode TcpSeg} {ns : List (TcpNode TcpSeg)}
    (hq : c.sendQueue.nodes = n :: ns) (hint : c.requestInterrupt = false)
    (hto : c.toGbnFlag) : PassStep c (mainTimeout note
      { c with toGbnFlag := false, firstFlag := false, fastFlag := false } n) := by
  have hrem : remaining c = n :: ns := by
    simp only [remaining, hto, if_true, hq]
  have hfast := mainTimeout_fast (c := { c with
    toGbnFlag := false, firstFlag := false, fastFlag := false }) hnote n
  obtain ⟨f, k, w, o, ol, a, fs, cc, h⟩ := mainTimeout_frame note hnote
    { c with toGbnFlag := false, firstFlag := false, fastFlag := false } n
  rw [h] at hfast ⊢
  exact .resend n ns (reheaded n.data f k w o ol) hrem rfl rfl rfl hfast hint ⟨_, rfl, rfl⟩

theorem mainGbn_passStep (hint : c.requestInterrupt = false) (hto : c.toGbnFlag = false)
    (hgbn : c.gbnFlag) (hfast : c.fastFlag = false) (hfirst : c.firstFlag = false) :
    PassStep c (mainGbn note c) := by
  have hrem : remaining c = c.gbnNode.elim [] (behind c.sendQueue) := by
    simp only [remaining, hto, hgbn, Bool.false_eq_true, if_false, if_true]
  have hnext : nextGbnNode c = (remaining c).head? := by
    rw [hrem, nextGbnNode, hfirst]
    cases c.gbnNode with
    | none | some a => rfl
  unfold mainGbn
  split
  · rename_i hempty
    refine .over ?_ ⟨hto, rfl⟩ hfast hint ⟨[], rfl, (append_nil _).symm⟩
    exact suffix_nil.mp (nodes_eq_nil_of_isEmpty hempty ▸ remaining_suffix c)
  split
  · split
    · rename_i n hn
      rw [hnext] at hn
      obtain ⟨rest, hrest⟩ : ∃ rest, remaining c = n :: rest := by
        cases hlist : remaining c with
        | nil =>
          rw [hlist] at hn
          cases hn
        | cons m rest =>
          rw [hlist] at hn
          cases hn
          exact ⟨rest, rfl⟩
      obtain ⟨f, k, w, o, ol, a, fs, h⟩ :=
        resendNode_frame note hnote { c with gbnNode := some n.addr } n
      rw [h]
      refine .resend n rest (reheaded n.data f k w o ol) hrest rfl rfl ?_ hfast hint
        ⟨_, rfl, rfl⟩
      simp only [TcpConn.passFlags, hto, hgbn, hfirst]
    · rename_i hn
      rw [hnext] at hn
      exact .over (head?_eq_none_iff.mp hn) ⟨hto, rfl⟩ hfast hint
        ⟨[], rfl, (append_nil _).symm⟩
  · rename_i hshut
    exact .keep (.silent rfl rfl rfl rfl) (.inr hshut)

end

theorem wait_passStep (hint : c.requestInterrupt = false) (ho : PassOver c)
    (hf : c.fastFlag = false) : PassStep c { c with mainWaitFlag := true } :=
  .over ho.remaining ho hf hint ⟨[], rfl, (append_nil _).symm⟩

theorem sendFin_frame (c : TcpConn) :
    ∃ f a seg, sendFin c =
      { c with toFinSide := f, toAckState := a, out := c.out ++ [.seg .control seg] } := by
  obtain ⟨a, seg, h⟩ := sendControl_frame
    { c with finSent := true, finSep := true, fsse := c.sendSeqEnd + 1 } (FLAG_FIN ||| FLAG_ACK)
  exact ⟨_, a, seg, h⟩

theorem sendFin_passStep (hint : c.requestInterrupt = false) (ho : PassOver c)
    (hf : c.fastFlag = false) : PassStep c (sendFin c) := by
  obtain ⟨f, a, seg, h⟩ := sendFin_frame c
  rw [h]
  exact .over ho.remaining ho hf hint ⟨_, rfl, rfl⟩

theorem queueSent_ctl (c : TcpConn) (seg : TcpSeg) (dataLen : UInt32) :
    (queueSent c seg dataLen).toMainCtl = c.toMainCtl ∧
      (queueSent c seg dataLen).toCongCtl = c.toCongCtl := by
  obtain ⟨r, pe, l, -, -, h⟩ := startSent_frame { c with
    sendQueue := tcpQueueAppend c.sendQueue (sentNode c seg dataLen)
    nextAddr := c.nextAddr + 1
    sendSeqEnd := c.sendSeqEnd + dataLen
    sendWin := uint32Decrease c.sendWin dataLen } seg
  rw [queueSent_eq, h]
  exact ⟨rfl, rfl⟩

theorem tcpSegUpdate_ctl (seg : TcpSeg) (c : TcpConn) (flags : UInt16) :
    (tcpSegUpdate seg c flags).2.toMainCtl = c.toMainCtl ∧
      (tcpSegUpdate seg c flags).2.toCongCtl = c.toCongCtl := by
  obtain ⟨f, k, w, o, ol, a, h⟩ := tcpSegUpdate_frame seg c flags
  rw [h]
  exact ⟨rfl, rfl⟩

theorem cutSegment_ctl (c : TcpConn) (dataLen : UInt32) :
    (cutSegment c dataLen).2.toMainCtl = c.toMainCtl ∧
      (cutSegment c dataLen).2.toCongCtl = c.toCongCtl := by
  obtain ⟨w, pe, l, -, h⟩ := cutSegment_frame c dataLen
  rw [h]
  exact ⟨rfl, rfl⟩

theorem sendNew_ctl (c : TcpConn) :
    (sendNew c).toMainCtl = c.toMainCtl ∧ (sendNew c).toCongCtl = c.toCongCtl := by
  have hcut := cutSegment_ctl c (nextDataLen c)
  have hplain := tcpSegUpdate_ctl (cutSegment c (nextDataLen c)).1
    (cutSegment c (nextDataLen c)).2 FLAG_ACK
  unfold sendNew
  split
  · exact ⟨(queueSent_ctl ..).1.trans (hplain.1.trans hcut.1),
      (queueSent_ctl ..).2.trans (hplain.2.trans hcut.2)⟩
  · simp only [sendNewFinWait1]
    split
    · have hupd := tcpSegUpdate_ctl (cutSegment c (nextDataLen c)).1
        { (cutSegment c (nextDataLen c)).2 with
          finSent := true, finSep := false, fsse := (cutSegment c (nextDataLen c)).1.seqEnd + 1 }
        (FLAG_ACK ||| FLAG_FIN)
      exact ⟨(queueSent_ctl ..).1.trans (hupd.1.trans hcut.1),
        (queueSent_ctl ..).2.trans (hupd.2.trans hcut.2)⟩
    · exact ⟨(queueSent_ctl ..).1.trans (hplain.1.trans hcut.1),
        (queueSent_ctl ..).2.trans (hplain.2.trans hcut.2)⟩

theorem resentSegs_of_writeOuts {l : List Out} (hl : WriteOuts l) : resentSegs l = [] := by
  refine filterMap_eq_nil_iff.mpr fun o ho => ?_
  have hw := hl o ho
  cases o with
  | seg kind seg => exact hw.elim
  | _ => rfl

theorem sendNew_passStep (hs : Retransmits c.state) (hint : c.requestInterrupt = false)
    (ho : PassOver c) (hf : c.fastFlag = false) : PassStep c (sendNew c) := by
  obtain ⟨seg, hfresh⟩ := sendNew_fresh hs
  obtain ⟨l, hl, hout⟩ := hfresh.out
  obtain ⟨w, pe, l', hl', hcut⟩ := cutSegment_frame c (nextDataLen c)
  obtain ⟨hmain, hcong⟩ := sendNew_ctl c
  have ho' : PassOver (sendNew c) := by
    have hg := hfresh.gbn
    unfold GbnState.afterSend at hg
    split at hg
    · exact ⟨congrArg GbnState.toGbnFlag hg, (congrArg GbnState.gbnFlag hg).trans ho.2⟩
    · exact ⟨(congrArg GbnState.toGbnFlag hg).trans ho.1, (congrArg GbnState.gbnFlag hg).trans ho.2⟩
  refine .over ho.remaining ho' ((congrArg CongCtl.fastFlag hcong).trans hf)
    ((congrArg MainCtl.requestInterrupt hmain).trans hint) ⟨l' ++ [.seg .fresh seg] ++ l, ?_, ?_⟩
  · rw [resentSegs_append, resentSegs_append, resentSegs_of_writeOuts hl', resentSegs_of_neutral hl]
    rfl
  · rw [hout, hcut]
    simp only [append_assoc]

theorem timeoutIdle_passStep (hq : c.sendQueue.nodes = []) (hint : c.requestInterrupt = false)
    (hto : c.toGbnFlag) :
    PassStep c { c with
      toGbnFlag := false, firstFlag := false, fastFlag := false, gbnFlag := false } := by
  refine .over ?_ ⟨rfl, rfl⟩ rfl hint ⟨[], rfl, (append_nil _).symm⟩
  simp only [remaining, hto, if_true, hq]

theorem mainRound_passStep (md : TcpData) {note send : TcpConn → TcpConn} (fins : Bool)
    (hnote : note = noteFlow ∨ note = id) (hok : PassOk c)
    (hsend : c.requestInterrupt = false → PassOver c → c.fastFlag = false → PassStep c (send c)) :
    PassStep c (mainRound md note send fins c) := by
  unfold mainRound
  split
  · rename_i hint
    exact .keep (handleInterrupt_passKept c).1 (.inl ⟨hint, (handleInterrupt_passKept c).2⟩)
  rename_i hint
  simp only [Bool.not_eq_true] at hint
  split
  · rename_i hto
    dsimp only
    split
    · rename_i hq
      split
      · obtain ⟨f, a, seg, h⟩ := sendFin_frame { c with
          toGbnFlag := false, firstFlag := false, fastFlag := false, gbnFlag := false }
        rw [h]
        refine .over ?_ ⟨rfl, rfl⟩ rfl hint ⟨_, rfl, rfl⟩
        simp only [remaining, hto, if_true, hq]
      · exact timeoutIdle_passStep hq hint hto
    · exact mainTimeout_passStep hnote ‹_› hint hto
  rename_i hto
  obtain ⟨hfast, hfirst⟩ := hok.resolve_left hto
  simp only [Bool.not_eq_true] at hto
  split
  · rename_i hf
    rw [hfast] at hf
    cases hf
  split
  · rename_i hgbn
    exact mainGbn_passStep hnote hint hto hgbn hfast (hfirst hgbn)
  rename_i hgbn
  have ho : PassOver c := ⟨hto, by simpa using hgbn⟩
  split
  · split
    · exact wait_passStep hint ho hfast
    · exact sendFin_passStep hint ho hfast
  split
  · exact hsend hint ho hfast
  · exact wait_passStep hint ho hfast

theorem PassStep.after {d c' : TcpConn} (h : PassStep c d) (hk : PassKept d c')
    (hint : c'.requestInterrupt = d.requestInterrupt) : PassStep c c' := by
  obtain ⟨l', hl', hout'⟩ := hk.out
  have hsent : ∀ r, (∃ l, resentSegs l = r ∧ d.out = c.out ++ l) →
      ∃ l, resentSegs l = r ∧ c'.out = c.out ++ l := by
    rintro r ⟨l, hl, hout⟩
    refine ⟨l ++ l', ?_, by rw [hout', hout, append_assoc]⟩
    rw [resentSegs_append, hl, hl', append_nil]
  cases h with
  | keep h hwhy =>
    refine .keep (h.trans hk) ?_
    rw [hint]
    exact hwhy
  | resend n rest x hrem hx hq hg hf hi hout =>
    exact .resend n rest x hrem hx (hk.queue.trans hq) (hk.flags.trans hg) (hk.fast.trans hf)
      (hint.trans hi) (hsent _ hout)
  | «over» hrem h hf hi hout =>
    exact .over hrem ⟨hk.toGbnFlag.trans h.1, hk.gbnFlag.trans h.2⟩ (hk.fast.trans hf)
      (hint.trans hi) (hsent _ hout)

theorem tcpMainState_passStep (md : TcpData) (rand : UInt32) (hs : Retransmits c.state)
    (hok : PassOk c) :
    PassStep c (tcpMainState md c rand) ∧ (tcpMainState md c rand).state = c.state := by
  have established : c.state = .established ∨ c.state = .closeWait →
      PassStep c (tcpMainEstablished md c) ∧ (tcpMainEstablished md c).state = c.state := by
    intro hest
    have hnew := sendNew_passStep hs
    rw [sendNew, if_pos hest] at hnew
    obtain ⟨hk, hint⟩ := mainDelayedAck_passKept (mainEstablished md c)
    exact ⟨(mainRound_passStep md false (.inl rfl) hok hnew).after hk hint,
      (mainDelayedAck_view .inert _).state.trans
        (mainEstablished_view .inert (handleInterrupt_inert _) md).state⟩
  have finWait1 : Awaiting c.state →
      PassStep c (tcpMainFinWait1 md c) ∧ (tcpMainFinWait1 md c).state = c.state := by
    intro hwait
    have hnew := sendNew_passStep hs
    rw [sendNew, if_neg (by rcases hwait with h | h | h <;> simp [h])] at hnew
    obtain ⟨hk, hint⟩ := mainDelayedAck_passKept (mainFinWait1 md c)
    exact ⟨(mainRound_passStep md true (.inr rfl) hok hnew).after hk hint,
      (mainDelayedAck_view .inert _).state.trans
        (mainFinWait1_view .inert (handleInterrupt_inert _) md).state⟩
  unfold tcpMainState
  rcases hs with hs | hs | hs | hs | hs
  · simpa only [hs] using established (.inl hs)
  · simpa only [hs, tcpMainCloseWait] using established (.inr hs)
  · simpa only [hs] using finWait1 (.inl hs)
  · simpa only [hs, tcpMainClosing] using finWait1 (.inr (.inl hs))
  · simpa only [hs, tcpMainLastAck] using finWait1 (.inr (.inr hs))

theorem tcpMainThread_pass (md : TcpData) (rand : UInt32) (hs : Retransmits c.state)
    (hok : PassOk c) :
    (tcpMainThread md c rand).state = c.state ∧
      (PassStep c (tcpMainThread md c rand) ∨
        (PassKept c (tcpMainThread md c rand) ∧
          ¬ (c.mainPc = .ready ∧ c.runningFlag))) := by
  unfold tcpMainThread
  split
  · rename_i hpc
    exact ⟨rfl, .inr ⟨.silent rfl rfl rfl rfl, by simp [hpc]⟩⟩
  · rename_i hpc
    split
    · exact ⟨rfl, .inr ⟨.silent rfl rfl rfl rfl, by simp [hpc]⟩⟩
    · exact ⟨rfl, .inr ⟨.silent rfl rfl rfl rfl, by simp [hpc]⟩⟩
  · split
    · obtain ⟨hstep, hstate⟩ := tcpMainState_passStep md rand hs hok
      dsimp only
      split
      · exact ⟨hstate, .inl (hstep.after (.silent rfl rfl rfl rfl) rfl)⟩
      · exact ⟨hstate, .inl hstep⟩
    · rename_i hrun
      exact ⟨rfl, .inr ⟨.silent rfl rfl rfl rfl, fun h => hrun h.2⟩⟩

/-! ### What a round takes from a pass -/

def nodeLabel (n : TcpNode TcpSeg) : UInt32 × List UInt8 := labelled n.data

def rounds (c : TcpConn) : Nat :=
  c.requestInterrupt.toNat + (remaining c).length + (c.toGbnFlag || c.gbnFlag).toNat

theorem PassOver.of_rounds (h : rounds c = 0) : PassOver c := by
  unfold rounds at h
  have hflags : (c.toGbnFlag || c.gbnFlag).toNat = 0 := by omega
  simpa [PassOver] using hflags

section

variable {c c' : TcpConn}

theorem PassOver.rounds (h : PassOver c) (hint : c.requestInterrupt = false) : rounds c = 0 := by
  simp [Tcp.rounds, h.remaining, h.1, h.2, hint]

theorem behind_set {q : TcpQueue TcpSeg} (hnd : (q.nodes.map TcpNode.addr).Nodup)
    {n : TcpNode TcpSeg} {rest : List (TcpNode TcpSeg)} (hsuf : n :: rest <:+ q.nodes)
    (x : TcpSeg) :
    behind (tcpQueueSet q n.addr x) n.addr = rest := by
  obtain ⟨pre, hq⟩ := hsuf
  rw [← hq, map_append, map_cons] at hnd
  obtain ⟨-, htail, hdisj⟩ := nodup_append.mp hnd
  have hpre : ∀ m ∈ pre, m.addr ≠ n.addr := fun m hm heq =>
    hdisj m.addr (mem_map_of_mem hm) n.addr (mem_cons_self ..) heq
  have hrest : ∀ m ∈ rest, m.addr ≠ n.addr := fun m hm heq =>
    (nodup_cons.mp htail).1 (heq ▸ mem_map_of_mem hm)
  have hkeep : ∀ l : List (TcpNode TcpSeg), (∀ m ∈ l, m.addr ≠ n.addr) →
      l.map (fun m => if m.addr = n.addr then { m with data := x } else m) = l := fun l hl =>
    (map_congr_left fun m hm => if_neg (hl m hm)).trans (map_id l)
  simp only [behind, tcpQueueSet, ← hq, map_append, map_cons, hkeep pre hpre,
    hkeep rest hrest, if_true]
  rw [dropWhile_append_of_pos (fun m hm => by simpa using hpre m hm),
    dropWhile_cons_of_neg (by simp), tail_cons]

theorem remaining_of_flags {a : Nat} (hg : c'.passFlags = (false, true, some a, false)) :
    remaining c' = behind c'.sendQueue a := by
  simp only [TcpConn.passFlags, Prod.mk.injEq] at hg
  simp [remaining, hg.1, hg.2.1, hg.2.2.1]

theorem PassStep.takes (h : PassStep c c') (hnd : (c.sendQueue.nodes.map TcpNode.addr).Nodup) :
    ∃ l, c'.out = c.out ++ l ∧
      (remaining c).map nodeLabel =
        (resentSegs l).map labelled ++ (remaining c').map nodeLabel := by
  cases h with
  | keep h hwhy =>
    obtain ⟨l, hl, hout⟩ := h.out
    exact ⟨l, hout, by rw [hl, h.remaining]; rfl⟩
  | resend n rest x hrem hx hq hg hf hi hout =>
    obtain ⟨l, hl, hout⟩ := hout
    refine ⟨l, hout, ?_⟩
    rw [remaining_of_flags hg, hq, behind_set hnd (hrem ▸ remaining_suffix c), hrem, hl,
      map_cons, map_cons, hx]
    rfl
  | «over» hrem h hf hi hout =>
    obtain ⟨l, hl, hout⟩ := hout
    exact ⟨l, hout, by rw [hl, hrem, h.remaining]; rfl⟩

theorem PassKept.ok (h : PassKept c c') (hok : PassOk c) : PassOk c' := by
  unfold PassOk
  rw [h.toGbnFlag, h.fast, h.gbnFlag, h.firstFlag]
  exact hok

theorem PassStep.ok (h : PassStep c c') (hok : PassOk c) : PassOk c' := by
  cases h with
  | keep h hwhy => exact h.ok hok
  | resend n rest x hrem hx hq hg hf hi hout =>
    exact .inr ⟨hf, fun _ => congrArg (fun f => f.2.2.2) hg⟩
  | «over» hrem h hf hi hout =>
    exact .inr ⟨hf, fun hg => absurd (h.2.symm.trans hg) Bool.false_ne_true⟩

theorem PassStep.fewer (h : PassStep c c') (hnd : (c.sendQueue.nodes.map TcpNode.addr).Nodup)
    (hopen : WindowsOpen c) : rounds c' ≤ rounds c - 1 := by
  cases h with
  | keep h hwhy =>
    obtain ⟨hold, hnew⟩ := hwhy.resolve_right (not_not_intro hopen)
    simp only [rounds, hold, hnew, h.remaining, h.toGbnFlag, h.gbnFlag, Bool.toNat_true,
      Bool.toNat_false]
    omega
  | resend n rest x hrem hx hq hg hf hi hout =>
    have hrem' : remaining c' = rest := by
      rw [remaining_of_flags hg, hq, behind_set hnd (hrem ▸ remaining_suffix c)]
    have hflags : (c.toGbnFlag || c.gbnFlag) = true := by
      by_contra hnot
      have ho : PassOver c := by simpa [PassOver] using hnot
      rw [ho.remaining] at hrem
      cases hrem
    simp only [rounds, hi, hrem', hrem, hflags, length_cons, Bool.toNat_true, Bool.toNat_false]
    have := Bool.toNat_le (c'.toGbnFlag || c'.gbnFlag)
    omega
  | «over» hrem h hf hi hout =>
    rw [h.rounds hi]
    exact Nat.zero_le _

end

/-! ### A stretch of rounds -/

def Event.IsMain (e : Event) : Prop := ∃ rand, e.act = .main rand

def SendsOn (c : TcpConn) : Prop :=
  c.mainPc = .ready ∧ c.runningFlag = true ∧ WindowsOpen c
deriving Decidable

theorem pass_run {n : Nat} (hrep : Repeating n c) (hs : Retransmits c.state) (hok : PassOk c)
    {es : List Event} (hmain : ∀ e ∈ es, e.IsMain) :
    ∃ l, (runConn c es).out = c.out ++ l ∧
      (remaining c).map nodeLabel =
        (resentSegs l).map labelled ++ (remaining (runConn c es)).map nodeLabel ∧
      (Steps step (fun d _ => SendsOn d) c es → rounds c ≤ es.length →
        PassOver (runConn c es)) := by
  induction es generalizing c with
  | nil => exact ⟨[], (append_nil _).symm, rfl, fun _ hle => .of_rounds (Nat.le_zero.mp hle)⟩
  | cons e es ih =>
    obtain ⟨rand, hact⟩ := hmain e (mem_cons_self ..)
    have hstep : step c e = tcpMainThread e.md c rand := by
      simp only [step, hact]
    obtain ⟨hstate, hpass⟩ := tcpMainThread_pass e.md rand hs hok
    rw [← hstep] at hstate hpass
    have hok' : PassOk (step c e) := by
      rcases hpass with h | h
      · exact h.ok hok
      · exact h.1.ok hok
    obtain ⟨l, hout, htakes, hend⟩ := ih (step_repeating c e hrep) (hstate ▸ hs) hok'
      fun e' he' => hmain e' (mem_cons_of_mem _ he')
    have hfirst : ∃ l, (step c e).out = c.out ++ l ∧ (remaining c).map nodeLabel =
        (resentSegs l).map labelled ++ (remaining (step c e)).map nodeLabel := by
      rcases hpass with h | h
      · exact h.takes hrep.addrs
      · obtain ⟨l, hl, hout⟩ := h.1.out
        exact ⟨l, hout, by rw [hl, h.1.remaining]; rfl⟩
    obtain ⟨l₀, hout₀, htakes₀⟩ := hfirst
    have hrun : runConn c (e :: es) = runConn (step c e) es := rfl
    refine ⟨l₀ ++ l, ?_, ?_, fun hsteps hle => ?_⟩
    · rw [hrun, hout, hout₀, append_assoc]
    · rw [hrun, htakes₀, htakes, resentSegs_append, map_append, append_assoc]
    · obtain ⟨⟨hpc, hon, hopen⟩, hsteps⟩ := hsteps
      have hround : PassStep c (step c e) := hpass.resolve_right fun h => h.2 ⟨hpc, hon⟩
      refine hend hsteps ?_
      have hfewer := hround.fewer hrep.addrs hopen
      rw [length_cons] at hle
      omega

/-- **A go-back-N pass in order**: along the stretch `es` of main-thread steps the segments that
    are sent again are consecutive nodes of `send_queue`; in a stretch that is long enough and
    always finds the windows open, they go on to the last node, and the pass ends. -/
structure PassInOrder (c : TcpConn) (es : List Event) : Prop where
  consecutive : ∃ l, (runConn c es).out = c.out ++ l ∧
    (resentSegs l).map labelled <:+: c.sendQueue.nodes.map nodeLabel
  ends : Steps step (fun d _ => SendsOn d) c es → c.sendQueue.nodes.length + 2 ≤ es.length →
    (runConn c es).gbnFlag = false ∧ ∃ l, (runConn c es).out = c.out ++ l ∧
      (resentSegs l).map labelled <:+ c.sendQueue.nodes.map nodeLabel

theorem rounds_le (c : TcpConn) : rounds c ≤ c.sendQueue.nodes.length + 2 := by
  have hlen := (remaining_suffix c).length_le
  have hint := Bool.toNat_le c.requestInterrupt
  have hflags := Bool.toNat_le (c.toGbnFlag || c.gbnFlag)
  unfold rounds
  omega

theorem Initial.repeating {c₀ : TcpConn} (h₀ : Initial c₀) : Repeating c₀.out.length c₀ := by
  have hstart := initial_sendStart h₀
  refine Idle.repeating ⟨?_, ?_, ?_⟩ (runConn_sendInv h₀ []) hstart.writing
  · exact congrArg (fun w => w.requestQueue.nodes) hstart.write
  · exact congrArg (fun w => w.writeQueue.nodes) hstart.write
  · exact congrArg TcpQueue.nodes hstart.queue

/-- **Go-back-N recovery** with the timeout still to be handled, or with `first_flag` and
    `fast_flag` clear. -/
theorem gbn_pass_in_order {c₀ : TcpConn} (h₀ : Initial c₀) (es₀ es : List Event)
    (hs : Retransmits (runConn c₀ es₀).state) (hok : PassOk (runConn c₀ es₀))
    (hmain : ∀ e ∈ es, e.IsMain) : PassInOrder (runConn c₀ es₀) es := by
  have hrep : Repeating c₀.out.length (runConn c₀ es₀) :=
    run_invariant step_repeating h₀.repeating es₀
  obtain ⟨l, hout, htakes, hend⟩ := pass_run hrep hs hok hmain
  have hsuf := (remaining_suffix (runConn c₀ es₀)).map nodeLabel
  refine ⟨⟨l, hout, ?_⟩, fun hsteps hlen => ?_⟩
  · exact (prefix_append ..).isInfix.trans (htakes ▸ hsuf.isInfix)
  · have hover := hend hsteps (Nat.le_trans (rounds_le _) hlen)
    rw [hover.remaining, map_nil, append_nil] at htakes
    exact ⟨hover.2, l, hout, htakes ▸ hsuf⟩

def sendThree : List Event := sampleOpen ++ sampleSend ++ sampleSend ++ sampleSend

/-- The timer fires, and the pass takes its five rounds. -/
theorem gbn_pass_in_order_sample :
    let c := runConn sampleConn (sendThree ++ [sampleEvent .gbnFire])
    Steps step (fun d _ => SendsOn d) c (replicate 5 sampleRound) ∧
      PassInOrder c (replicate 5 sampleRound) := by
  refine ⟨by decide +kernel, gbn_pass_in_order (.fresh sampleData ⟨1, 10, 2, 20⟩) _ _
    (by decide +kernel) (by decide +kernel) fun e he => ⟨0, ?_⟩⟩
  rw [eq_of_mem_replicate he]
  rfl

def partialAck : List Event :=
  sendThree ++ [sampleEvent .gbnFire, sampleRound,
    sampleRecv { seqNum := 501, seqEnd := 501, ackNum := 111, flags := FLAG_ACK, winSize := 4000 }]

/-- **The flag that stays**: two rounds later the new front was sent twice. -/
theorem partialAck_not_inOrder :
    ¬ PassInOrder (runConn sampleConn partialAck) (replicate 2 sampleRound) := by
  intro h
  obtain ⟨l, hout, hinfix⟩ := h.consecutive
  have hl : l = (runConn (runConn sampleConn partialAck) (replicate 2 sampleRound)).out.drop
      (runConn sampleConn partialAck).out.length := by
    rw [hout, drop_left]
  rw [hl] at hinfix
  exact absurd hinfix (by decide +kernel)

end FinsStack.Tcp
