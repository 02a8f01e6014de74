import FinsStack.Tcp.Listed

/-!
# A connection that was looked up is not freed under its finder

`switch_to_tcp` counts a connection in `threads` while it holds `conn_list_sem`, and gives the
count back with `conn->sem` held.  The main thread that ends takes the connection off its list
and then frees it once it sees `threads <= 1` with both locks.  That is safe when the
connection is really off the lists by then.

It is not when `tcp_exec_connect` turned a listening stub into the connection: the flag
`stub_list` stays set, the main thread looks for the connection on `conn_stub_list`, and it
stays on `conn_list` while it is freed (`found_conn_freed`).
-/

namespace FinsStack.Tcp.Threads

open List Function

/-- The connection that `switch_to_tcp` found or made, from the lookup to the release of its
    `sem`. -/
def SwitchPc.found : SwitchPc → Option Nat
  | .enter c _ | .inside c _ | .search c _ | .createWant c _ | .createHave c _ | .nestWant c _ _
  | .nestHave c _ _ | .nestEnter c _ _ | .nestInside c _ _ | .nestLeave c _ _ | .nestUncount c _ _
  | .nestUnlock c _ _ | .leave c | .uncount c | .unlock c => some c
  | .promote p _ | .promoting p _ => some p
  | _ => none

def SwitchPc.counted : SwitchPc → List Nat
  | .enter c _ | .inside c _ | .search c _ | .createWant c _ | .createHave c _ | .nestWant c _ _
  | .nestHave c _ _ | .nestUnlock c _ _ | .leave c | .uncount c => [c]
  | .nestEnter c d _ | .nestInside c d _ | .nestLeave c d _ | .nestUncount c d _ => [c, d]
  | .promote p _ | .promoting p _ => [p]
  | _ => []

def MainPc.pastLists : MainPc → Bool
  | .stop | .stopLock | .stopHold | .stopUnlock | .stopRelock | .free | .gone => true
  | _ => false

def MainPc.freeing : MainPc → Bool
  | .free | .gone => true
  | _ => false

def Sys.promotes (s : Sys) : Bool :=
  match s.switch with
  | .haveList (.connect a) =>
    (s.findConn a).isNone && decide (s.connList.length < TCP_CONN_MAX) &&
      (s.findStub a.hostIp a.hostPort).isSome
  | _ => false

def NoPromotion (s : Sys) : ThreadEvent → Prop
  | .switch _ => s.promotes = false
  | _ => True

instance (s : Sys) : ∀ e : ThreadEvent, Decidable (NoPromotion s e)
  | .switch _ => inferInstanceAs (Decidable (s.promotes = false))
  | .frame _ | .main _ _ => inferInstanceAs (Decidable True)

structure Guarded (s : Sys) : Prop where
  listed : Listed s
  threads : ∀ c < s.next, (s.conns c).threads = 1 + s.switch.counted.count c
  connFlag : ∀ c ∈ s.connList, (s.conns c).stubList = false
  stubFlag : ∀ c ∈ s.stubList, (s.conns c).stubList = true
  connNodup : s.connList.Nodup
  /-- Past the removal the connection is on no list. -/
  off : ∀ c < s.next, (s.conns c).pc.pastLists = true → c ∉ s.connList ∧ c ∉ s.stubList
  apart : ∀ c, (s.conns c).pc.holdsConn = true → c ∉ s.switch.holdsConns
  found : ∀ c, (s.conns c).pc.freeing = true → s.switch.found ≠ some c
  plain : ∀ p a, s.switch ≠ .promote p a ∧ s.switch ≠ .promoting p a

theorem Guarded.initially : Guarded initial := by
  constructor
  · exact Listed.initially
  all_goals simp [initial, tcpConnCreate, MainPc.pastLists, MainPc.holdsConn, MainPc.freeing]

variable {s s' : Sys}

structure SwitchOnly (s s' : Sys) : Prop where
  same : SameLists s s'
  flag : ∀ c, (s'.conns c).stubList = (s.conns c).stubList
  pc : ∀ c, (s'.conns c).pc = (s.conns c).pc

/-- Where `switch_to_tcp` goes: what it newly has in hand is not being freed, and what it newly
    holds was free. -/
structure Goes (s : Sys) (old pc : SwitchPc) : Prop where
  found : ∀ c, pc.found = some c → old.found = some c ∨ (s.conns c).pc.freeing = false
  holds : ∀ c ∈ pc.holdsConns, c ∈ old.holdsConns ∨ (s.conns c).pc.holdsConn = false
  plain : ∀ p a, pc ≠ .promote p a ∧ pc ≠ .promoting p a

theorem Goes.keep {old pc : SwitchPc} (hfound : pc.found = old.found)
    (hholds : pc.holdsConns = old.holdsConns)
    (hplain : ∀ p a, pc ≠ .promote p a ∧ pc ≠ .promoting p a) : Goes s old pc :=
  ⟨fun _ hc => .inl (hfound ▸ hc), fun _ hc => .inl (hholds ▸ hc), hplain⟩

theorem Guarded.moved (h : Guarded s) (hl : Listed s') (ho : SwitchOnly s s')
    (hthreads : ∀ c < s.next, (s'.conns c).threads = 1 + s'.switch.counted.count c)
    (hg : Goes s s.switch s'.switch) : Guarded s' where
  listed := hl
  threads := by
    rw [ho.same.next]
    exact hthreads
  connFlag := by
    rw [ho.same.connList]
    intro c hc
    rw [ho.flag]
    exact h.connFlag c hc
  stubFlag := by
    rw [ho.same.stubList]
    intro c hc
    rw [ho.flag]
    exact h.stubFlag c hc
  connNodup := by
    rw [ho.same.connList]
    exact h.connNodup
  off := by
    rw [ho.same.next, ho.same.connList, ho.same.stubList]
    intro c hc
    rw [ho.pc]
    exact h.off c hc
  apart := by
    intro c hconn hmem
    rw [ho.pc] at hconn
    rcases hg.holds c hmem with hold | hfree
    · exact h.apart c hconn hold
    · simp [hfree] at hconn
  found := by
    intro c hfree heq
    rw [ho.pc] at hfree
    rcases hg.found c heq with hold | hnot
    · exact h.found c hfree hold
    · simp [hnot] at hfree
  plain := hg.plain

/-! Under the locks the connections change, but not their counts. -/

def Quiet (f : TConn → TConn) : Prop :=
  ∀ x, (f x).threads = x.threads ∧ (f x).stubList = x.stubList ∧ (f x).pc = x.pc

structure QuietSys (s s' : Sys) : Prop extends SwitchOnly s s' where
  threads : ∀ c, (s'.conns c).threads = (s.conns c).threads

theorem QuietSys.refl (s : Sys) : QuietSys s s :=
  ⟨⟨⟨rfl, rfl, rfl⟩, fun _ => rfl, fun _ => rfl⟩, fun _ => rfl⟩

theorem QuietSys.upd (s : Sys) (c : Nat) {f : TConn → TConn} (hf : Quiet f) :
    QuietSys s (s.upd c f) := by
  refine ⟨⟨⟨rfl, rfl, rfl⟩, ?_, ?_⟩, ?_⟩
  all_goals
    intro d
    by_cases hd : d = c
    · subst hd
      simp [Sys.upd, hf (s.conns d)]
    · simp [Sys.upd, update_of_ne hd]

theorem QuietSys.shutdownAll (s : Sys) (l : List Nat) : QuietSys s (s.shutdownAll l) := by
  refine ⟨⟨⟨rfl, rfl, rfl⟩, ?_, ?_⟩, ?_⟩
  all_goals
    intro d
    by_cases hd : d ∈ l <;> simp [Sys.shutdownAll, tcpConnShutdown, hd]

theorem QuietSys.trans {s₁ s₂ s₃ : Sys} (h : QuietSys s₁ s₂) (h' : QuietSys s₂ s₃) :
    QuietSys s₁ s₃ where
  same := ⟨h'.same.next.trans h.same.next, h'.same.connList.trans h.same.connList,
    h'.same.stubList.trans h.same.stubList⟩
  threads := fun c => (h'.threads c).trans (h.threads c)
  flag := fun c => (h'.flag c).trans (h.flag c)
  pc := fun c => (h'.pc c).trans (h.pc c)

theorem QuietSys.move (h : QuietSys s s') (pc : SwitchPc) : QuietSys s { s' with switch := pc } :=
  ⟨⟨⟨h.same.next, h.same.connList, h.same.stubList⟩, h.flag, h.pc⟩, h.threads⟩

theorem quiet_tcpClose (s : Sys) (c : Nat) : QuietSys s (tcpClose s c) := by
  simp only [tcpClose]
  split
  · exact QuietSys.refl s
  · exact QuietSys.refl s
  · exact (QuietSys.shutdownAll s _).trans (QuietSys.upd _ c fun _ => ⟨rfl, rfl, rfl⟩)
  · exact QuietSys.upd s c fun _ => ⟨rfl, rfl, rfl⟩
  · exact QuietSys.upd s c fun _ => ⟨rfl, rfl, rfl⟩

structure WorksIn (c : Nat) (pc : SwitchPc) : Prop where
  counted : pc.counted = [c]
  found : pc.found = some c
  holdsConns : pc.holdsConns = [c]
  plain : ∀ p a, pc ≠ .promote p a ∧ pc ≠ .promoting p a

theorem WorksIn.leave (c : Nat) : WorksIn c (.leave c) :=
  ⟨rfl, rfl, rfl, by simp⟩

def StaysIn (s : Sys) (c : Nat) (s' : Sys) : Prop := QuietSys s s' ∧ WorksIn c s'.switch

theorem StaysIn.leave (h : QuietSys s s') (c : Nat) : StaysIn s c { s' with switch := .leave c } :=
  ⟨h.move _, .leave c⟩

section

variable (s) (c)

theorem StaysIn.updLeave (f : TConn → TConn) (hf : Quiet f) :
    StaysIn s c { s.upd c f with switch := .leave c } :=
  StaysIn.leave (QuietSys.upd s c hf) c

theorem staysIn_completeOpen : StaysIn s c (completeOpen s c) := by
  have hq := QuietSys.upd s c (f := fun x => { x with phase := .later }) fun _ => ⟨rfl, rfl, rfl⟩
  simp only [completeOpen]
  split
  · exact ⟨hq.move _, rfl, rfl, rfl, by simp⟩
  · exact StaysIn.leave hq c

theorem staysIn_tcpRecv (b : Choice) : StaysIn s c (tcpRecv s c b) := by
  simp only [tcpRecv]
  split
  · exact ⟨(QuietSys.refl s).move _, rfl, rfl, rfl, by simp⟩
  · exact staysIn_completeOpen s c
  · exact staysIn_completeOpen s c
  · exact StaysIn.updLeave s c _ fun _ => ⟨rfl, rfl, rfl⟩
  · exact StaysIn.updLeave s c _ fun _ => ⟨rfl, rfl, rfl⟩
  · exact StaysIn.leave (QuietSys.refl s) c

theorem staysIn_visitBody (b : Choice) (v : Visit) :
    StaysIn s c (visitBody s c b v) := by
  cases v <;> simp only [visitBody]
  case close => exact StaysIn.leave (quiet_tcpClose s c) c
  case recv => exact staysIn_tcpRecv s c b
  case accept =>
    split
    · exact ⟨(QuietSys.refl s).move _, rfl, rfl, rfl, by simp⟩
    · exact StaysIn.leave (QuietSys.refl s) c
  all_goals
    split
    all_goals first
      | exact StaysIn.updLeave s c _ fun _ => ⟨rfl, rfl, rfl⟩
      | exact StaysIn.leave (QuietSys.refl s) c

end

theorem quiet_nestBody (s : Sys) (c d : Nat) (b : Choice) (n : Nest) :
    QuietSys s (nestBody s c d b n) := by
  cases n <;> simp only [nestBody] <;> split
  case child.isTrue =>
    refine QuietSys.trans (QuietSys.upd s d ?_) (QuietSys.upd _ c ?_)
    · exact fun _ => ⟨rfl, rfl, rfl⟩
    · exact fun _ => ⟨rfl, rfl, rfl⟩
  all_goals first
    | exact QuietSys.refl s
    | exact QuietSys.upd s _ fun _ => ⟨rfl, rfl, rfl⟩

/-! ### The `switch_to_tcp` thread -/

variable {pc old : SwitchPc} {c : Nat}

theorem Guarded.quiet (h : Guarded s) (hl : Listed s') (hq : QuietSys s s')
    (hcounted : s'.switch.counted = s.switch.counted) (hg : Goes s s.switch s'.switch) :
    Guarded s' := by
  refine h.moved hl hq.toSwitchOnly (fun c hc => ?_) hg
  rw [hq.threads, hcounted]
  exact h.threads c hc

theorem Guarded.goOn (h : Guarded s) (hpc : s.switch = old) (hl : Listed { s with switch := pc })
    (hcounted : pc.counted = old.counted) (hg : Goes s old pc) : Guarded { s with switch := pc } :=
  h.quiet hl ((QuietSys.refl s).move pc) (hpc ▸ hcounted) (hpc ▸ hg)

theorem switchOnly_threads (s : Sys) (c : Nat) (pc : SwitchPc) {f : TConn → TConn}
    (hf : ∀ x, (f x).stubList = x.stubList ∧ (f x).pc = x.pc) :
    SwitchOnly s { s.upd c f with switch := pc } := by
  refine ⟨⟨rfl, rfl, rfl⟩, ?_, ?_⟩
  all_goals
    intro d
    by_cases hd : d = c
    · subst hd
      simp [Sys.upd, hf (s.conns d)]
    · simp [Sys.upd, update_of_ne hd]

theorem Guarded.counts (h : Guarded s) (hpc : s.switch = old)
    (hl : Listed { s.upd c TConn.count with switch := pc })
    (hcounted : pc.counted = old.counted ++ [c]) (hg : Goes s old pc) :
    Guarded { s.upd c TConn.count with switch := pc } := by
  subst hpc
  refine h.moved hl (switchOnly_threads s c pc fun _ => ⟨rfl, rfl⟩) (fun d hd => ?_) hg
  have hold := h.threads d hd
  simp only [hcounted, count_append]
  by_cases hdc : d = c
  · subst hdc
    simp [Sys.upd, TConn.count, hold, Nat.add_assoc]
  · simp [Sys.upd, update_of_ne hdc, hold, Ne.symm hdc]

theorem Guarded.uncounts (h : Guarded s) (hpc : s.switch = old)
    (hl : Listed { s.upd c TConn.uncount with switch := pc })
    (hcounted : old.counted = pc.counted ++ [c]) (hg : Goes s old pc) :
    Guarded { s.upd c TConn.uncount with switch := pc } := by
  subst hpc
  refine h.moved hl (switchOnly_threads s c pc fun _ => ⟨rfl, rfl⟩) (fun d hd => ?_) hg
  have hold := h.threads d hd
  simp only [hcounted, count_append] at hold
  by_cases hdc : d = c
  · subst hdc
    simp only [count_singleton_self] at hold
    simp only [Sys.upd, update_self, TConn.uncount, hold]
    omega
  · simp [Sys.upd, update_of_ne hdc, hold, Ne.symm hdc]

theorem Guarded.visit (h : Guarded s) {v : Visit} {op : Op} (hop : s.switch = .haveList op)
    (hl : Listed (s.visit c v)) (hlists : (s.conns c).pc.pastLists = false) :
    Guarded (s.visit c v) := by
  have hfreeing : (s.conns c).pc.freeing = false := by
    cases hpc : (s.conns c).pc <;> simp_all [MainPc.pastLists, MainPc.freeing]
  refine h.counts hop hl rfl ⟨fun d hd => .inr ?_, by simp [SwitchPc.holdsConns], by simp⟩
  have hcd : c = d := by simpa [SwitchPc.found] using hd
  exact hcd ▸ hfreeing

theorem Guarded.shrink (h : Guarded s) {connList stubList : List Nat}
    (hl : Listed { s with connList := connList, stubList := stubList })
    (hconn : connList.Sublist s.connList) (hstub : stubList.Sublist s.stubList) :
    Guarded { s with connList := connList, stubList := stubList } where
  listed := hl
  threads := h.threads
  connFlag := fun d hd => h.connFlag d (hconn.subset hd)
  stubFlag := fun d hd => h.stubFlag d (hstub.subset hd)
  connNodup := h.connNodup.sublist hconn
  off := by
    intro d hd hpast
    have hold := h.off d hd hpast
    exact ⟨fun hmem => hold.1 (hconn.subset hmem), fun hmem => hold.2 (hstub.subset hmem)⟩
  apart := h.apart
  found := h.found
  plain := h.plain

structure Creates (s : Sys) (old pc : SwitchPc) : Prop where
  counted : pc.counted = old.counted ++ [s.next]
  found : ∀ c, pc.found = some c → old.found = some c ∨ c = s.next
  holdsConns : ∀ c ∈ pc.holdsConns, c ∈ old.holdsConns
  plain : ∀ p a, pc ≠ .promote p a ∧ pc ≠ .promoting p a

theorem Creates.enter (op : Op) (v : Visit) : Creates s (.haveList op) (.enter s.next v) :=
  ⟨rfl, by simp [SwitchPc.found, eq_comm], by simp [SwitchPc.holdsConns], by simp⟩

theorem Guarded.create (h : Guarded s) (hold : s.switch = old) {a : ConnAddr} {flag : Bool}
    {connList stubList : List Nat} (hl : Listed (s.create a flag connList stubList pc))
    (hcounted : s.next ∉ old.counted) (hpc : Creates s old pc)
    (he : Enters s flag connList stubList) : Guarded (s.create a flag connList stubList pc) := by
  subst hold
  have hconn : ∀ {c}, c ≠ s.next → c ∈ connList → c ∈ s.connList := fun hne hc =>
    (he.conn _ hc).resolve_right fun hn => hne hn.1
  have hstub : ∀ {c}, c ≠ s.next → c ∈ stubList → c ∈ s.stubList := fun hne hc =>
    (he.stub _ hc).resolve_right fun hn => hne hn.1
  refine ⟨hl, fun c hc => ?_, fun c hc => ?_, fun c hc => ?_, he.connNodup h.connNodup,
    fun c hc hpast => ?_, fun c hholds hmem => ?_, fun c hfree heq => ?_, hpc.plain⟩
  all_goals by_cases hnew : c = s.next
  · simp [Sys.create, hnew, tcpConnCreate, hpc.counted, count_eq_zero.mpr hcounted]
  · have hold := h.threads c (Nat.lt_of_le_of_ne (Nat.le_of_lt_succ hc) hnew)
    simp [Sys.create, update_of_ne hnew, hpc.counted, hold, count_append, Ne.symm hnew]
  · rcases he.conn c hc with hold | ⟨rfl, hflag⟩
    · exact absurd hnew (Nat.ne_of_lt (h.listed.connNext c hold))
    · simp [Sys.create, tcpConnCreate, hflag]
  · simpa [Sys.create, update_of_ne hnew] using h.connFlag c (hconn hnew hc)
  · rcases he.stub c hc with hold | ⟨rfl, hflag⟩
    · exact absurd hnew (Nat.ne_of_lt (h.listed.stubNext c hold))
    · simp [Sys.create, tcpConnCreate, hflag]
  · simpa [Sys.create, update_of_ne hnew] using h.stubFlag c (hstub hnew hc)
  · simp [Sys.create, hnew, tcpConnCreate, MainPc.pastLists] at hpast
  · simp only [Sys.create, update_of_ne hnew] at hpast
    have hold := h.off c (Nat.lt_of_le_of_ne (Nat.le_of_lt_succ hc) hnew) hpast
    exact ⟨fun hmem => hold.1 (hconn hnew hmem), fun hmem => hold.2 (hstub hnew hmem)⟩
  · simp [Sys.create, hnew, tcpConnCreate, MainPc.holdsConn] at hholds
  · simp only [Sys.create, update_of_ne hnew] at hholds
    exact h.apart c hholds (hpc.holdsConns c hmem)
  · simp [Sys.create, hnew, tcpConnCreate, MainPc.freeing] at hfree
  · simp only [Sys.create, update_of_ne hnew] at hfree
    exact h.found c hfree ((hpc.found c heq).resolve_right hnew)

theorem Guarded.lookup (h : Guarded s) {op : Op} (hop : s.switch = .haveList op)
    (hno : s.promotes = false) : Guarded (lookup s op) := by
  have hl := h.listed.lookup op
  have hidle : Guarded { s with switch := .idle } :=
    h.goOn hop (h.listed.move .idle trivial) rfl (.keep rfl rfl (by simp))
  have honConn : ∀ {a c}, s.findConn a = some c → (s.conns c).pc.pastLists = false := by
    intro a c hc
    have hmem := findConn_mem hc
    by_contra hpast
    exact (h.off c (h.listed.connNext c hmem) (by simpa using hpast)).1 hmem
  have honStub : ∀ {ip port c}, s.findStub ip port = some c → (s.conns c).pc.pastLists = false := by
    intro ip port c hc
    have hmem := findStub_mem hc
    by_contra hpast
    exact (h.off c (h.listed.stubNext c hmem) (by simpa using hpast)).2 hmem
  revert hl
  cases op <;> simp only [Threads.lookup]
  case close a | use a =>
    split <;> intro hl
    · exact h.visit hop hl (honConn ‹_›)
    · exact hidle
  case accept ip port | useStub ip port =>
    split <;> intro hl
    · exact h.visit hop hl (honStub ‹_›)
    · exact hidle
  case closeStub ip port =>
    split <;> intro hl
    · rename_i c hc
      have hoff : Listed { s with stubList := s.stubList.erase c } := by
        refine h.listed.shrink rfl rfl (fun _ hx => hx) erase_sublist ?_
        simp [hop, Sys.SwitchOk]
      exact (h.shrink hoff (Sublist.refl _) erase_sublist).visit hop hl (honStub hc)
    · exact hidle
  case listen ip port =>
    split
    · exact fun _ => hidle
    split <;> intro hl
    · exact h.create hop hl (by simp [SwitchPc.counted]) (.enter _ _) h.listed.entersStub
    · exact hidle
  case connect a =>
    split
    · exact fun _ => hidle
    split
    · split <;> intro hl
      · -- this connect would turn a stub into a connection
        simp_all [Sys.promotes]
      · exact h.create hop hl (by simp [SwitchPc.counted]) (.enter _ _) h.listed.entersConn
    · exact fun _ => hidle
  case segment a syn =>
    split
    · exact fun hl => h.visit hop hl (honConn ‹_›)
    split
    · split <;> intro hl
      · exact h.visit hop hl (honStub ‹_›)
      · exact hidle
    · exact fun _ => hidle

theorem connFree_holds (h : s.connFree c) :
    c ∉ s.switch.holdsConns ∧ (s.conns c).pc.holdsConn = false := by
  simpa [Sys.connFree] using h

theorem Guarded.stepSwitch (h : Guarded s) (b : Choice) (hno : s.promotes = false) :
    Guarded (stepSwitch s b) := by
  have hl := h.listed.stepSwitch b
  have hplain := h.plain
  have hok := h.listed.switch
  cases hpc : s.switch <;> rw [hpc] at hok <;> simp only [Threads.stepSwitch, hpc] at hl ⊢
  case idle => exact h
  case haveList op => exact h.lookup hpc hno
  case promote p a => exact absurd hpc (hplain p a).1
  case promoting p a => exact absurd hpc (hplain p a).2
  case enter c v =>
    revert hl
    split <;> intro hl
    · rename_i hfree
      refine h.goOn hpc hl rfl ⟨fun _ hx => .inl hx, fun d hd => .inr ?_, by simp⟩
      rw [mem_singleton.mp hd]
      exact (connFree_holds hfree).2
    · exact h
  case nestEnter c d n =>
    revert hl
    split <;> intro hl
    · rename_i hfree
      refine h.goOn hpc hl rfl ⟨fun _ hx => .inl hx, fun x hx => ?_, by simp⟩
      rcases mem_cons.mp hx with rfl | hx
      · exact .inl mem_cons_self
      · rw [mem_singleton.mp hx]
        exact .inr (connFree_holds hfree).2
    · exact h
  case inside c v =>
    have hin : ∀ {t}, Listed t → StaysIn s c t → Guarded t := by
      intro t hl ht
      refine h.quiet hl ht.1 ?_ (.keep ?_ ?_ ht.2.plain) <;> rw [hpc]
      · exact ht.2.counted
      · exact ht.2.found
      · exact ht.2.holdsConns
    revert hl
    split <;> intro hl
    · exact hin hl (staysIn_visitBody s c b v)
    · exact hin hl (StaysIn.leave (QuietSys.refl s) c)
  case search c rest =>
    cases rest with
    | nil | cons d rest => exact h.goOn hpc hl rfl (.keep rfl rfl (by simp))
  case createHave c a =>
    revert hl
    split
    · exact fun hl => h.goOn hpc hl rfl (.keep rfl rfl (by simp))
    split <;> intro hl
    · refine h.create hpc hl ?_ ⟨rfl, fun _ => .inl, fun _ => id, by simp⟩ h.listed.entersConn
      exact fun hmem => Nat.ne_of_gt hok (mem_singleton.mp hmem)
    · exact h.goOn hpc hl rfl (.keep rfl rfl (by simp))
  case nestHave c d n => exact h.counts hpc hl rfl (.keep rfl rfl (by simp))
  case nestInside c d n =>
    refine h.quiet hl ((quiet_nestBody s c d b n).move _) ?_ (.keep ?_ ?_ (by simp)) <;>
      rw [hpc] <;> rfl
  case nestUncount c d n | uncount c => exact h.uncounts hpc hl rfl (.keep rfl rfl (by simp))
  case nestUnlock c d n =>
    cases n with
    | search rest | child | parent =>
      exact h.goOn hpc hl rfl ⟨fun _ => .inl, fun x hx => .inl (mem_cons.mpr (.inl
        (mem_singleton.mp hx))), by simp [Nest.next]⟩
  case unlock c =>
    exact h.goOn hpc hl rfl ⟨by simp [SwitchPc.found], by simp [SwitchPc.holdsConns], by simp⟩
  -- `conn_list_sem` is taken, with everything else kept
  all_goals
    revert hl
    split <;> intro hl
    · exact h.goOn hpc hl rfl (.keep rfl rfl (by simp))
    · exact h

/-! ### Main threads -/

theorem Guarded.mainMoved (h : Guarded s) {f : TConn → TConn} (hl : Listed (s.upd c f))
    (hthreads : (f (s.conns c)).threads = (s.conns c).threads)
    (hflag : (f (s.conns c)).stubList = (s.conns c).stubList)
    (hoff : (f (s.conns c)).pc.pastLists → c ∉ s.connList ∧ c ∉ s.stubList)
    (hholds : (f (s.conns c)).pc.holdsConn → c ∉ s.switch.holdsConns)
    (hfound : (f (s.conns c)).pc.freeing → s.switch.found ≠ some c) :
    Guarded (s.upd c f) := by
  have hflags : ∀ d, ((s.upd c f).conns d).stubList = (s.conns d).stubList := by
    intro d
    by_cases hd : d = c
    · subst hd
      simpa [Sys.upd] using hflag
    · simp [Sys.upd, update_of_ne hd]
  constructor
  · exact hl
  · intro d hd
    by_cases hdc : d = c
    · subst hdc
      simpa [Sys.upd, hthreads] using h.threads d hd
    · simpa [Sys.upd, update_of_ne hdc] using h.threads d hd
  · intro d hd
    rw [hflags]
    exact h.connFlag d hd
  · intro d hd
    rw [hflags]
    exact h.stubFlag d hd
  · exact h.connNodup
  · intro d hd
    by_cases hdc : d = c
    · subst hdc
      simpa [Sys.upd] using hoff
    · simpa [Sys.upd, update_of_ne hdc] using h.off d hd
  · intro d
    by_cases hdc : d = c
    · subst hdc
      simpa [Sys.upd] using hholds
    · simpa [Sys.upd, update_of_ne hdc] using h.apart d
  · intro d
    by_cases hdc : d = c
    · subst hdc
      simpa [Sys.upd] using hfound
    · simpa [Sys.upd, update_of_ne hdc] using h.found d
  · exact h.plain

theorem SwitchPc.found_counted (h : pc.found = some c) : c ∈ pc.counted ∨ c ∈ pc.holdsConns := by
  cases pc <;> simp_all [SwitchPc.found, SwitchPc.counted, SwitchPc.holdsConns]

theorem mainBody_kept (x : TConn) (b : Choice) :
    (mainBody x b).threads = x.threads ∧ (mainBody x b).stubList = x.stubList := by
  simp only [mainBody]
  split <;> exact ⟨rfl, rfl⟩

attribute [local simp] MainPc.pastLists MainPc.holdsConn MainPc.freeing in
theorem Guarded.stepMain (h : Guarded s) (hc : c < s.next) (b : Choice) :
    Guarded (stepMain s c b) := by
  have hl := h.listed.stepMain c b
  have hheld := h.apart c
  have hoff := h.off c hc
  -- a move of the thread that keeps its side of the lists
  have hgoto : ∀ {pc}, Listed (s.goto c pc) → (pc.pastLists = true → (s.conns c).pc.pastLists) →
      (pc.holdsConn → c ∉ s.switch.holdsConns) →
      (pc.freeing → s.switch.found ≠ some c) → Guarded (s.goto c pc) :=
    fun hl hpast hholds hfound =>
      h.mainMoved hl rfl rfl (fun hp => h.off c hc (hpast hp)) hholds hfound
  revert hl
  cases hpc : (s.conns c).pc <;> rw [hpc] at hheld hoff <;> simp only [Threads.stepMain, hpc]
  case lock | stopRelock =>
    split <;> intro hl
    · exact hgoto hl (by simp [hpc]) (fun _ => (connFree_holds ‹_›).1)
        (by simp)
    · exact h
  case exitLock | stopLock =>
    split <;> intro hl
    · exact hgoto hl (by simp [hpc]) (fun _ => hheld rfl) (by simp)
    · exact h
  all_goals intro hl
  case loop =>
    apply hgoto hl
    · split <;> simp
    · exact fun _ => hheld rfl
    · split <;> simp
  case body =>
    apply h.mainMoved hl
    · exact (mainBody_kept _ b).1
    · exact (mainBody_kept _ b).2
    · simp
    · exact fun _ => hheld rfl
    · simp
  case unlock | asleep | stopUnlock =>
    exact hgoto hl (by simp [hpc]) (by simp) (by simp)
  case exitHold =>
    have hstub : c ∉ s.stubList := fun hmem => by
      simpa [hpc, MainPc.looping] using (h.listed.stub c hmem).2.2
    cases hflag : (s.conns c).stubList with
    | true =>
      -- the flag says that the connection is not on `conn_list` either
      have hconn : c ∉ s.connList := fun hmem => by simpa [hflag] using h.connFlag c hmem
      simp only [hflag, if_true, erase_of_not_mem hstub] at hl ⊢
      exact h.mainMoved (c := c) (f := fun x => { x with pc := .stop }) hl rfl rfl
        (fun _ => ⟨hconn, hstub⟩) (fun _ => hheld rfl) (by simp)
    | false =>
      simp only [hflag, Bool.false_eq_true, if_false] at hl ⊢
      have hoff : Listed { s with connList := s.connList.erase c } :=
        h.listed.shrink rfl rfl (fun _ => mem_of_mem_erase) (Sublist.refl _) h.listed.switch
      exact (h.shrink hoff erase_sublist (Sublist.refl _)).mainMoved (c := c)
        (f := fun x => { x with pc := .stop }) hl rfl rfl
        (fun _ => ⟨h.connNodup.not_mem_erase, hstub⟩) (fun _ => hheld rfl) (by simp)
  case stop =>
    have hquiet := h.quiet
      (h.listed.shutdownAll (l := (s.conns c).backlog) fun d hd => (h.listed.backlog c d hd).2.2)
      (QuietSys.shutdownAll s _) rfl (.keep rfl rfl h.plain)
    exact hquiet.mainMoved hl rfl rfl (fun _ => hoff rfl) (fun _ => hheld rfl)
      (by simp)
  case stopHold =>
    refine hgoto hl (by simp [hpc]) (fun _ => hheld rfl) fun hfreeing hfound => ?_
    -- with `threads <= 1` the finder is not counted, and so it would hold `conn->sem`
    have hone : (s.conns c).threads ≤ 1 := by
      by_contra hmore
      simp [hmore] at hfreeing
    have hcount := h.threads c hc
    have hnone : c ∉ s.switch.counted := count_eq_zero.mp (by omega)
    rcases SwitchPc.found_counted hfound with hmem | hmem
    · exact hnone hmem
    · exact hheld rfl hmem
  case free =>
    exact hgoto hl (by simp [hpc]) (by simp)
      (fun _ => h.found c (by rw [hpc]; rfl))
  case gone => exact h

/-! ### Runs -/

theorem Guarded.step (h : Guarded s) {e : ThreadEvent} (hno : NoPromotion s e) :
    Guarded (stepThreads s e) := by
  cases e with
  | frame op =>
    simp only [stepThreads]
    split
    · rename_i hidle
      exact h.goOn hidle (h.listed.move (.wantList op) trivial) rfl (.keep rfl rfl (by simp))
    · exact h
  | switch b => exact h.stepSwitch b hno
  | main c b =>
    simp only [stepThreads]
    split
    · rename_i hc
      exact h.stepMain hc b
    · exact h

/-- **Reference safety**, without a connect that turns a stub into a connection. -/
theorem found_conn_not_freed (es : List ThreadEvent)
    (hes : Lib.Steps stepThreads NoPromotion initial es) (c : Nat)
    (hc : (runThreads initial es).switch.found = some c) :
    ((runThreads initial es).conns c).pc ≠ .gone := by
  have h : Guarded (runThreads initial es) :=
    Lib.run_invariant_of_steps (fun _ _ h hno => h.step hno) Guarded.initially hes
  intro hgone
  exact h.found c (by rw [hgone]; rfl) hc

def handle (op : Op) (n : Nat) : List ThreadEvent :=
  .frame op :: replicate n (.switch .nothing)

def runMain (c n : Nat) : List ThreadEvent := replicate n (.main c .nothing)

/-- A connection is closed; a segment for it is looked up before its main thread looks at
    `threads`. -/
def foundWhileStopping (a : ConnAddr) : List ThreadEvent :=
  handle (.connect a) 7 ++ handle (.close a) 7 ++ handle (.segment a false) 2 ++ runMain 0 8

set_option maxRecDepth 2000 in
theorem found_conn_not_freed_stopping :
    Lib.Steps stepThreads NoPromotion initial (foundWhileStopping ⟨10, 5000, 20, 80⟩) ∧
    (runThreads initial (foundWhileStopping ⟨10, 5000, 20, 80⟩)).switch.found = some 0 ∧
    ((runThreads initial (foundWhileStopping ⟨10, 5000, 20, 80⟩)).conns 0).pc = .stopRelock ∧
    ((runThreads initial (foundWhileStopping ⟨10, 5000, 20, 80⟩)).conns 0).pc ≠ .gone :=
  ⟨by decide, by decide, by decide, found_conn_not_freed _ (by decide) 0 (by decide)⟩

/-- A listening stub connects and is closed; a segment for the connection is looked up after its
    main thread has looked at `threads`. -/
def promotedThenFound (a : ConnAddr) : List ThreadEvent :=
  handle (.listen a.hostIp a.hostPort) 7 ++ handle (.connect a) 9 ++ handle (.close a) 7 ++
    runMain 0 7 ++ handle (.segment a false) 2

set_option maxRecDepth 2000 in
/-- The main thread took the connection off `conn_stub_list`, where it was not; it is found in
    `conn_list`, counted, and freed under its finder. -/
theorem found_conn_freed :
    (runThreads initial (promotedThenFound ⟨10, 80, 20, 5000⟩)).switch = .enter 0 .recv ∧
    ((runThreads initial (promotedThenFound ⟨10, 80, 20, 5000⟩)).conns 0).threads = 2 ∧
    ((runThreads initial (promotedThenFound ⟨10, 80, 20, 5000⟩)).conns 0).pc = .free ∧
    (runThreads initial (promotedThenFound ⟨10, 80, 20, 5000⟩ ++ runMain 0 1)).switch.found =
      some 0 ∧
    ((runThreads initial (promotedThenFound ⟨10, 80, 20, 5000⟩ ++ runMain 0 1)).conns 0).pc =
      .gone := by
  decide

end FinsStack.Tcp.Threads
