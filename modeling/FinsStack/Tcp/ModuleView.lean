import FinsStack.Tcp.ModuleLists

/-!
# What a step of the module does to its connections

Every connection of the module is a run of the one-connection model, so an invariant of that
model holds of each of them (`stepModule_each`).  What `tcp_recv` does around the connection
it is called on is taken apart once (`TcpModule.recv_cases`): the segment is the
connection's own business, or a listener takes on a child, or the handshake completes and an
`accept` is answered, by the connection's own `ff` or by its parent's.
-/

namespace FinsStack.Tcp

variable {s : TcpModule} {md : TcpData} {i j : Nat} {a : Action}

/-! ### All connections -/

def TcpModule.promotes (s : TcpModule) : ModuleOp → Bool
  | .connect a _ _ =>
    (s.findConn a).isNone && s.hasRoom && (s.findStub a.hostIp a.hostPort).isSome
  | _ => false

/-- What the module makes of its connections: a segment is for the connection it is given to
    unless that one listens, and the address changes only when a stub is connected. -/
def Permitted (P : Prop) (c : TcpConn) : Action → Prop
  | .recv seg _ => Parsed seg ∧ (seg.target = c.addr ∨ c.state = .listen)
  | .stubConnect _ _ => P
  | _ => True

variable {c : TcpConn}

theorem Permitted.parsed {P : Prop} (h : Permitted P c a) : ParsedStep c ⟨md, a⟩ := by
  intro seg hseg
  cases a <;> cases hseg
  exact h.1

def Each (Q : Slot → Prop) (s : TcpModule) : Prop := ∀ i, Q (s.slots i)

section

variable {Q : Slot → Prop}

theorem Each.set (h : Each Q s) {x : Slot} (hx : Q x) (k : Nat) (j : Nat) :
    Q (Function.update s.slots k x j) :=
  (Function.forall_update_iff s.slots fun _ y => Q y).mpr ⟨hx, fun i _ => h i⟩ j

variable {P : Prop} (hact : ∀ (x : Slot) (md : TcpData) (a : Action), Q x →
  Permitted P x.conn a → Q (x.act md a))
include hact

theorem Each.act (h : Each Q s) (hp : Permitted P (s.slots i).conn a) :
    Each Q (s.act md i a) :=
  h.set (hact _ md a (h i) hp) i

theorem Each.shutdownAll (h : Each Q s) (md : TcpData) (l : List Nat) :
    Each Q (s.shutdownAll md l) := by
  intro j
  simp only [TcpModule.shutdownAll]
  split
  · exact hact _ md .shutdown (h j) trivial
  · exact h j

theorem Each.close (h : Each Q s) (ff : Fcf) : Each Q (s.close md i ff) := by
  have hclose : Each Q (s.act md i (.close ff)) := h.act hact trivial
  simp only [TcpModule.close]
  split
  · exact hclose.shutdownAll hact _ _
  · exact hclose

theorem Each.accept (h : Each Q s) (ff : Fcf) : Each Q (s.accept md i ff) := by
  have hplain : Each Q (s.act md i (.accept ff none)) := h.act hact trivial
  simp only [TcpModule.accept]
  split
  · split
    · rename_i d _
      have hsearch : Each Q (s.act md d (.search ff)) := h.act hact trivial
      exact hsearch.act hact trivial
    · exact hplain
  · exact hplain

theorem tcpMainExit_each (h : Each Q s)
    (hfree : ∀ x : Slot, Q x → x.conn.shared = (s.slots i).conn.shared →
      Q { x with freed := true }) : Each Q (tcpMainExit s md i) := by
  have hlist : Each Q (if (s.slots i).stubList then
        ({ s with connStubList := s.connStubList.erase i } : TcpModule)
      else { s with connList := s.connList.erase i }) := by
    split <;> exact h
  have hshut := Each.shutdownAll hact hlist md (s.slots i).conn.backlog
  apply hshut.set
  apply hfree _ (hshut i)
  rw [TcpModule.shutdownAll_shared]
  split <;> rfl

variable (hnew : ∀ c stub parent, Initial c → Q ⟨c, stub, parent, false⟩)
include hnew

theorem Each.recv (h : Each Q s) {seg : TcpSeg} (hparsed : Parsed seg)
    (hto : seg.target = (s.slots i).conn.addr ∨ (s.slots i).conn.state = .listen) (rand : UInt32) :
    Each Q (s.recv md i seg rand) := by
  have hrecv : Each Q (s.act md i (.recv seg (s.recvEnv i seg rand))) :=
    h.act hact ⟨hparsed, hto⟩
  simp only [TcpModule.recv]
  split
  · exact h
  split
  · exact hrecv.set (hnew _ _ _ (.child md _ seg rand)) _
  split
  · split
    · exact hrecv.act hact trivial
    · exact hrecv
  · exact hrecv

theorem Each.connectNew (h : Each Q s) (addr : ConnAddr) (ff : Fcf) (rand : UInt32) :
    Each Q (s.connectNew md addr ff rand) := by
  apply h.set
  exact hact _ md (.connect ff rand) (hnew _ false none (.fresh md addr)) trivial

theorem Each.promote (h : Each Q s) (hp : P) {p : Nat} (addr : ConnAddr) (ff : Fcf)
    (rand : UInt32) : Each Q (s.promote md p addr ff rand) := by
  simp only [TcpModule.promote]
  split
  · have hboth : ∀ s1 : TcpModule, Each Q s1 → Each Q
        ((s1.act md p (.stubConnect addr.remIp addr.remPort)).act md p (.connect ff rand)) := by
      intro s1 h1
      have hstub : Each Q (s1.act md p (.stubConnect addr.remIp addr.remPort)) := h1.act hact hp
      exact hstub.act hact trivial
    apply hboth
    split
    · exact Each.shutdownAll (s := { s with connStubList := _ }) hact h _ _
    · exact h
  · exact Each.connectNew (s := { s with connStubList := _ }) hact hnew h addr ff rand

/-- **What every call keeps of one connection, every step keeps of all of them.** -/
theorem stepModule_each (hlist : Listing s) (h : Each Q s) (e : ModuleEvent)
    (hpromotes : s.promotes e.op → P)
    (hexit : ∀ i, e.op = .exit i → (s.slots i).freed = false → (s.slots i).conn.mainPc = .done →
      ∀ x : Slot, Q x → x.conn.shared = (s.slots i).conn.shared → Q { x with freed := true }) :
    Each Q (stepModule s e) := by
  have hmove := stepModule_move s e
  generalize stepModule s e = s' at hmove ⊢
  cases hmove with
  | noted out given => exact h
  | single given i ha =>
    refine Each.act (s := { s with given := given }) hact h ?_
    cases ‹Action› <;> trivial
  | recv hparsed rand hi =>
    refine h.recv hact hnew hparsed (hi.imp (fun hi => ?_) fun hi => ?_) rand
    · exact (TcpModule.findConn_mem hi).2.symm
    · exact hlist.stubListen _ (TcpModule.findStub_mem hi).1
  | close hi ff => exact Each.close (s := s.give (.fcf ff)) hact h ff
  | closeStub hop hi => exact Each.close (s := { s.give _ with connStubList := _ }) hact h _
  | listen hostIp hostPort backlog =>
    exact h.set (hact _ e.md (.listen backlog) (hnew _ true none (.fresh e.md _)) trivial) _
  | accept hi ff => exact Each.accept (s := s.give (.fcf ff)) hact h ff
  | promote hop hnone hroom hp =>
    refine Each.promote (s := s.give _) hact hnew h (hpromotes ?_) _ _ _
    simp [TcpModule.promotes, hop, hnone, hroom, hp]
  | connect hnone ff rand => exact Each.connectNew (s := s.give (.fcf ff)) hact hnew h _ ff rand
  | exit hop hlive hpc => exact tcpMainExit_each hact h (hexit _ hop hlive hpc)

end

/-- **An invariant of one connection is one of all connections.** -/
theorem stepModule_eachConn {P : TcpConn → Prop}
    (hstep : ∀ c e, P c → ParsedStep c e → P (step c e)) (hinit : ∀ c, Initial c → P c)
    (hlist : Listing s) (h : Each (fun x => P x.conn) s) (e : ModuleEvent) :
    Each (fun x => P x.conn) (stepModule s e) := by
  apply stepModule_each (P := True) ?_ (fun c _ _ hc => hinit c hc) hlist h e
    (fun _ => trivial) fun _ _ _ _ _ hx _ => hx
  intro x md a hx hp
  simp only [Slot.act]
  split
  · exact hx
  · exact hstep _ _ hx hp.parsed

/-! ### What a connection does by itself -/

theorem own_calm (own : OwnAct) (hapart : RequestsApart c) : Calm c (step c ⟨md, own.action⟩) := by
  cases own with
  | main rand => exact tcpMainThread_calm md c rand hapart
  | gbnFire => exact gbnFire_view .calm c
  | delayedFire => exact delayedFire_view .calm c
  | requestFire addr => exact requestFire_calm c addr
  | tick clock | round congWindow threshhold rttEst rttDev => exact .silent rfl id rfl

def Action.plain : Action → Bool
  | .recv _ _ | .accept _ _ | .search _ | .connect _ _ | .stubConnect _ _
  | .childAccepted _ => false
  | _ => true

theorem step_plain (md : TcpData) (hapart : RequestsApart c) (hplain : a.plain) :
    ∃ rs, Takes rs c (step c ⟨md, a⟩) := by
  cases a with
  | write d flags serialNum => exact ⟨_, tcpWrite_takes c d flags serialNum⟩
  | close ff => exact ⟨_, tcpClose_takes c ff⟩
  | listen backlog => exact ⟨_, tcpListen_calm c backlog⟩
  | poll ff initial events => exact ⟨_, tcpPoll_takes c ff initial events⟩
  | pollStub ff initial events => exact ⟨_, tcpPollStub_takes c ff initial events⟩
  | fcf ff op => exact ⟨_, tcpConnFcf_takes c ff op⟩
  | shutdown => exact ⟨_, tcpConnShutdown_view .calm c⟩
  | main rand => exact ⟨_, own_calm (.main rand) hapart⟩
  | gbnFire => exact ⟨_, own_calm .gbnFire hapart⟩
  | delayedFire => exact ⟨_, own_calm .delayedFire hapart⟩
  | requestFire addr => exact ⟨_, own_calm (.requestFire addr) hapart⟩
  | tick clock => exact ⟨_, own_calm (.tick clock) hapart⟩
  | round congWindow threshhold rttEst rttDev =>
    exact ⟨_, own_calm (.round congWindow threshhold rttEst rttDev) hapart⟩
  | recv seg env | accept ff ready | search ff | connect ff rand | stubConnect remIp remPort
  | childAccepted child => cases hplain

theorem Signal.frame {c' : TcpConn} {parent : Option TcpConn} (h : Signal c parent c') :
    c'.addr = c.addr ∧ c'.runningFlag = c.runningFlag := by
  rcases h with ⟨h, -⟩ | ⟨ff, o, -, -, -, h⟩ | ⟨p, ff, -, -, -, -, -, -, h⟩ <;> rw [h] <;>
    exact ⟨rfl, rfl⟩

theorem step_frame (md : TcpData) (hapart : RequestsApart c)
    (hstub : ∀ remIp remPort, a ≠ .stubConnect remIp remPort) :
    (step c ⟨md, a⟩).addr = c.addr ∧
      ((step c ⟨md, a⟩).runningFlag = true → c.runningFlag) := by
  cases hplain : a.plain with
  | true =>
    obtain ⟨rs, htakes⟩ := step_plain md hapart hplain
    exact ⟨htakes.addr, htakes.running⟩
  | false =>
    cases a with
    | recv seg env =>
      cases htakes : c.takesChild seg env.known env.room with
      | true =>
        simp only [step, (tcpRecv_child md htakes).2.2, imp_self, and_self]
      | false =>
        rcases tcpRecv_arrival md htakes with ⟨hcalm, -⟩ | ⟨d, -, -, -, -, hd, hsignal⟩
        · exact ⟨hcalm.addr, hcalm.running⟩
        · obtain ⟨haddr, hrun⟩ := hsignal.frame
          refine ⟨haddr.trans hd.addr, fun h => hd.running ?_⟩
          rw [← hrun]
          exact h
    | accept ff ready =>
      simp only [step, tcpAccept]
      split
      · split
        · split
          · exact ⟨rfl, id⟩
          · split <;> exact ⟨rfl, id⟩
          · exact ⟨rfl, id⟩
        · exact ⟨rfl, id⟩
      · exact ⟨rfl, id⟩
    | search ff =>
      simp only [step, tcpConnSearch]
      split <;> exact ⟨rfl, id⟩
    | connect ff rand =>
      simp only [step]
      rcases tcpConnect_frame c ff rand with ⟨⟨n, h⟩, -⟩ | ⟨-, a, seg, h⟩ <;>
        rw [h] <;> exact ⟨rfl, id⟩
    | stubConnect remIp remPort => exact absurd rfl (hstub remIp remPort)
    | childAccepted child =>
      simp only [step, childAccepted]
      split <;> exact ⟨rfl, id⟩
    | _ => cases hplain

abbrev AllWriting (s : TcpModule) : Prop := Each (fun x => Writing 0 x.conn) s

theorem AllWriting.act (h : AllWriting s) : AllWriting (s.act md i a) := by
  apply h.set
  simp only [Slot.act]
  split
  · exact h i
  · exact step_writing _ _ (h i)

theorem stepModule_writing (hlist : Listing s) (h : AllWriting s) (e : ModuleEvent) :
    AllWriting (stepModule s e) :=
  stepModule_eachConn (fun c e hc _ => step_writing c e hc)
    (fun _ hc => (initial_sendStart hc).writing) hlist h e

/-! ### An arriving segment -/

/-- **What `tcp_recv` does**: the connection `i` was `c` and is `c'` now. -/
inductive ModuleRecv (s : TcpModule) (md : TcpData) (i : Nat) (seg : TcpSeg) (rand : UInt32)
    (c c' : TcpConn) : TcpModule → Prop
  | calm (h : Calm c c') : ModuleRecv s md i seg rand c c'
      (s.act md i (.recv seg (s.recvEnv i seg rand)))
  | child (hrun : c.runningFlag = true) (hs : c.state = .listen)
      (hnew : s.findConn seg.target = none) (hroom : s.hasRoom = true)
      (h : c' = { c with backlog := c.backlog ++ [s.next] }) :
      ModuleRecv s md i seg rand c c'
        ((s.act md i (.recv seg (s.recvEnv i seg rand))).addConn (tcpListenChild md c seg rand)
          (some i))
  | own (d : TcpConn) (ff : Fcf) (o : Out) (hs : c.state = .synSent ∨ c.state = .synRecv)
      (hopen : d.state = .established) (hshared : d.shared = c.shared) (hd : Calm c d)
      (hff : d.ff = some ff)
      (hanswers : o.answers = some (.fcf ff)) (hreturns : d.activeOpen = true → o.returns = false)
      (h : c' = { d with signaled := true, ff := none, out := d.out ++ [o] }) :
      ModuleRecv s md i seg rand c c' (s.act md i (.recv seg (s.recvEnv i seg rand)))
  | parent (d : TcpConn) (p : Nat) (ff : Fcf) (hs : c.state = .synSent ∨ c.state = .synRecv)
      (hself : c.runningFlag = true) (hopen : d.state = .established)
      (hshared : d.shared = c.shared) (hd : Calm c d) (hnone : d.ff = none)
      (hpassive : d.activeOpen = false) (hp : (s.slots i).parent = some p)
      (hrun : (s.slots p).conn.runningFlag = true) (hlisten : (s.slots p).conn.state = .listen)
      (hff : (s.slots p).conn.ff = some ff)
      (h : c' = { d with
        signaled := true, out := d.out ++ [.connReply ff d.addr d.state FCF_TRUE 0] }) :
      ModuleRecv s md i seg rand c c'
        ((s.act md i (.recv seg (s.recvEnv i seg rand))).act md p (.childAccepted i))

theorem childAccepted_idle (h : ¬ (c.runningFlag = true ∧ c.state = .listen ∧ c.ff.isSome))
    (child : Nat) : childAccepted c child = c := by
  simp only [childAccepted, if_neg h]

theorem TcpModule.recv_cases (md : TcpData) (hlive : (s.slots i).freed = false) (seg : TcpSeg)
    (rand : UInt32) : ModuleRecv s md i seg rand (s.slots i).conn
      (step (s.slots i).conn ⟨md, .recv seg (s.recvEnv i seg rand)⟩) (s.recv md i seg rand) := by
  have hslot : ((s.act md i (.recv seg (s.recvEnv i seg rand))).slots i).conn =
      step (s.slots i).conn ⟨md, .recv seg (s.recvEnv i seg rand)⟩ := by
    rw [TcpModule.act_self, Slot.act_live hlive]
  simp only [TcpModule.recv, hlive, Bool.false_eq_true, if_false, hslot]
  cases htakes : (s.slots i).conn.takesChild seg (s.recvEnv i seg rand).known
      (s.recvEnv i seg rand).room with
  | true =>
    obtain ⟨hrun, hs, hc⟩ := tcpRecv_child md htakes
    simp only [TcpConn.takesChild, Bool.and_eq_true, Bool.not_eq_true'] at htakes
    have hnew : (s.findConn seg.target).isSome = false := htakes.1.2
    exact .child hrun hs (by simpa using hnew) htakes.2 hc
  | false =>
    simp only [Bool.false_eq_true, if_false]
    rcases tcpRecv_arrival md htakes with
      ⟨hcalm, hshut⟩ | ⟨d, hs, hself, hopen, hshared, hd, hsignal⟩
    · -- the handshake does not complete
      have hstay : (s.slots i).completes (tcpRecv md (s.slots i).conn seg
          (s.recvEnv i seg rand)) = false := by
        by_contra hcompletes
        simp only [Slot.completes, Bool.not_eq_false, Bool.and_eq_true, Bool.or_eq_true,
          beq_iff_eq] at hcompletes
        exact hshut hcompletes.1.1.1 hcompletes.1.1.2
      simp only [step, hstay, Bool.false_eq_true, if_false]
      exact .calm hcalm
    · have hff : d.ff = (s.slots i).conn.ff := congrArg (fun t => t.2.2.2.2.1) hshared
      have hactive : d.activeOpen = (s.slots i).conn.activeOpen :=
        congrArg (fun t => t.2.2.1) hshared
      have hstates : ((s.slots i).conn.state == .synSent || (s.slots i).conn.state == .synRecv) =
          true := by simpa using hs
      rcases hsignal with ⟨h, hidle⟩ | ⟨ff, o, hsome, hanswers, hreturns, h⟩ |
        ⟨p, ff, hnone, hpassive, hparent, hrun, hlisten, hpff, h⟩
      · have hcalm : Calm (s.slots i).conn (tcpRecv md (s.slots i).conn seg
            (s.recvEnv i seg rand)) := h ▸ hd
        split
        · rename_i hcompletes
          simp only [Slot.completes, Bool.and_eq_true, Option.isNone_iff_eq_none,
            Bool.not_eq_true'] at hcompletes
          split
          · -- the parent is looked at and left alone
            rename_i p hp
            rw [TcpModule.act_idle]
            · exact .calm hcalm
            apply childAccepted_idle
            by_cases hpi : p = i
            · subst hpi
              rw [hslot]
              simp [step, h, hopen]
            · rw [TcpModule.act_other hpi]
              apply hidle (hff.trans hcompletes.1.2) (hactive.trans hcompletes.2)
              simp only [TcpModule.recvEnv, hp, Option.map_some, Option.mem_def]
          · exact .calm hcalm
        · exact .calm hcalm
      · have hbusy : (s.slots i).completes (step (s.slots i).conn
            ⟨md, .recv seg (s.recvEnv i seg rand)⟩) = false := by
          simp only [Slot.completes, ← hff, hsome, Option.isNone_some, Bool.and_false,
            Bool.false_and]
        rw [hbusy]
        exact .own d ff o hs hopen hshared hd hsome hanswers hreturns h
      · obtain ⟨p, hp, rfl⟩ : ∃ q, (s.slots i).parent = some q ∧ (s.slots q).conn = p := by
          simpa only [TcpModule.recvEnv, Option.map_eq_some_iff] using hparent
        have hcompletes : (s.slots i).completes (step (s.slots i).conn
            ⟨md, .recv seg (s.recvEnv i seg rand)⟩) = true := by
          have hstate : (tcpRecv md (s.slots i).conn seg (s.recvEnv i seg rand)).state =
              .established := by
            rw [h]
            exact hopen
          simp only [Slot.completes, step, hstates, hstate, ← hff, hnone, ← hactive, hpassive,
            Option.isNone_none, beq_self_eq_true, Bool.not_false, Bool.and_self]
        rw [hcompletes, if_pos rfl, hp]
        exact .parent d p ff hs hself hopen hshared hd hnone hpassive hp hrun hlisten hpff h

end FinsStack.Tcp
