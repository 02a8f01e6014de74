import FinsStack.Tcp.Threads

/-!
# What is on the lists of the module

`conn_stub_list` holds listening stubs only: connections that run, in the states CLOSED or
LISTEN, whose main thread is in its loop.  For a stub can only be shut down by a close, and
`tcp_exec_close_stub` takes it off the list first; the children that are shut down with a
listener are never on this list.  `Listed` says this for every state the threads can reach,
together with what the `switch_to_tcp` thread knows about the connections it has in hand.
-/

namespace FinsStack.Tcp.Threads

open List Function Lib

def MainPc.looping : MainPc → Bool
  | .lock | .loop | .body | .unlock | .asleep => true
  | _ => false

def TConn.IsStub (c : TConn) : Prop :=
  c.running = true ∧ (c.phase = .closed ∨ c.phase = .listen) ∧ c.pc.looping = true

/-- A connection other than `c` that exists and is no stub. -/
def Sys.NoStub (s : Sys) (c d : Nat) : Prop := d ≠ c ∧ d < s.next ∧ d ∉ s.stubList

def Sys.NestOk (s : Sys) (c d : Nat) : Nest → Prop
  | .search rest => s.NoStub c d ∧ ∀ b ∈ rest, s.NoStub c b
  | .child => s.NoStub c d
  | .parent => d ≠ c ∧ d < s.next

/-- What `switch_to_tcp` knows. -/
def Sys.SwitchOk (s : Sys) : SwitchPc → Prop
  | .idle | .wantList _ | .haveList _ => True
  | .promote p _ | .promoting p _ => p ∈ s.stubList
  | .enter c v | .inside c v => c < s.next ∧ (v = .close ∨ v = .connect → c ∉ s.stubList)
  | .search c rest => c < s.next ∧ ∀ b ∈ rest, s.NoStub c b
  | .createWant c _ | .createHave c _ | .leave c | .uncount c | .unlock c => c < s.next
  | .nestWant c d n | .nestHave c d n | .nestEnter c d n | .nestInside c d n | .nestLeave c d n
  | .nestUncount c d n | .nestUnlock c d n => c < s.next ∧ s.NestOk c d n

structure Listed (s : Sys) : Prop where
  connNext : ∀ c ∈ s.connList, c < s.next
  stubNext : ∀ c ∈ s.stubList, c < s.next
  disjoint : ∀ c ∈ s.connList, c ∉ s.stubList
  nodup : s.stubList.Nodup
  stub : ∀ c ∈ s.stubList, (s.conns c).IsStub
  backlog : ∀ c, ∀ b ∈ (s.conns c).backlog, s.NoStub c b
  parent : ∀ c p, (s.conns c).parent = some p → p ≠ c ∧ p < s.next
  switch : s.SwitchOk s.switch

theorem Listed.initially : Listed initial := by
  constructor <;> simp [initial, tcpConnCreate, Sys.SwitchOk]

variable {s s' : Sys}

/-! ### Kinds of changes -/

structure SameLists (s s' : Sys) : Prop where
  next : s'.next = s.next
  connList : s'.connList = s.connList
  stubList : s'.stubList = s.stubList

variable {c d : Nat} {v : Visit}

theorem SameLists.noStub (h : SameLists s s') : s'.NoStub c d ↔ s.NoStub c d := by
  simp only [Sys.NoStub, h.next, h.stubList]

theorem SameLists.switchOk (h : SameLists s s') {pc : SwitchPc} :
    s'.SwitchOk pc ↔ s.SwitchOk pc := by
  cases pc with
  | nestWant c d n | nestHave c d n | nestEnter c d n | nestInside c d n | nestLeave c d n
  | nestUncount c d n | nestUnlock c d n =>
    cases n <;> simp only [Sys.SwitchOk, Sys.NestOk, h.noStub, h.next]
  | _ => simp only [Sys.SwitchOk, h.noStub, h.next, h.stubList]

theorem Listed.changed (h : Listed s) (hsame : SameLists s s')
    (hstub : ∀ c ∈ s.stubList, (s'.conns c).IsStub)
    (hbacklog : ∀ c, ∀ b ∈ (s'.conns c).backlog, s.NoStub c b)
    (hparent : ∀ c p, (s'.conns c).parent = some p → p ≠ c ∧ p < s.next)
    (hswitch : s.SwitchOk s'.switch) : Listed s' where
  connNext := by
    rw [hsame.connList, hsame.next]
    exact h.connNext
  stubNext := by
    rw [hsame.stubList, hsame.next]
    exact h.stubNext
  disjoint := by
    rw [hsame.connList, hsame.stubList]
    exact h.disjoint
  nodup := by
    rw [hsame.stubList]
    exact h.nodup
  stub := by
    rw [hsame.stubList]
    exact hstub
  backlog := by
    intro c b hb
    exact hsame.noStub.mpr (hbacklog c b hb)
  parent := by
    rw [hsame.next]
    exact hparent
  switch := hsame.switchOk.mpr hswitch

theorem Listed.move (h : Listed s) (pc : SwitchPc) (hpc : s.SwitchOk pc) :
    Listed { s with switch := pc } :=
  h.changed ⟨rfl, rfl, rfl⟩ h.stub h.backlog h.parent hpc

theorem Listed.upd (h : Listed s) {f : TConn → TConn}
    (hstub : c ∈ s.stubList → (f (s.conns c)).IsStub)
    (hbacklog : ∀ b ∈ (f (s.conns c)).backlog, s.NoStub c b)
    (hparent : ∀ p, (f (s.conns c)).parent = some p → p ≠ c ∧ p < s.next) : Listed (s.upd c f) := by
  refine h.changed ⟨rfl, rfl, rfl⟩ ?_ ?_ ?_ ?_
  · intro d hd
    by_cases hdc : d = c
    · subst hdc
      simpa [Sys.upd] using hstub hd
    · simpa [Sys.upd, update_of_ne hdc] using h.stub d hd
  · intro d
    by_cases hdc : d = c
    · subst hdc
      simpa [Sys.upd] using hbacklog
    · simpa [Sys.upd, update_of_ne hdc] using h.backlog d
  · intro d
    by_cases hdc : d = c
    · subst hdc
      simpa [Sys.upd] using hparent
    · simpa [Sys.upd, update_of_ne hdc] using h.parent d
  · exact h.switch

theorem Listed.shutdownAll (h : Listed s) {l : List Nat} (hl : ∀ b ∈ l, b ∉ s.stubList) :
    Listed (s.shutdownAll l) := by
  refine h.changed ⟨rfl, rfl, rfl⟩ ?_ ?_ ?_ ?_
  · intro c hc
    have hcl : c ∉ l := fun hmem => hl c hmem hc
    simpa [Sys.shutdownAll, hcl] using h.stub c hc
  · intro c b hb
    apply h.backlog c b
    by_cases hcl : c ∈ l <;> simpa [Sys.shutdownAll, tcpConnShutdown, hcl] using hb
  · intro c p hp
    apply h.parent c p
    by_cases hcl : c ∈ l <;> simpa [Sys.shutdownAll, tcpConnShutdown, hcl] using hp
  · exact h.switch

/-! A connection is added or taken off: what is known about the others stays. -/

theorem Sys.NoStub.grow (h : s.NoStub c d) (hnext : s.next ≤ s'.next)
    (hstub : ∀ x < s.next, x ∈ s'.stubList → x ∈ s.stubList) : s'.NoStub c d :=
  ⟨h.1, Nat.lt_of_lt_of_le h.2.1 hnext, fun hmem => h.2.2 (hstub d h.2.1 hmem)⟩

def Sys.create (s : Sys) (a : ConnAddr) (flag : Bool) (connList stubList : List Nat)
    (pc : SwitchPc) : Sys where
  conns := update s.conns s.next (tcpConnCreate a flag)
  next := s.next + 1
  connList := connList
  stubList := stubList
  switch := pc

structure Enters (s : Sys) (flag : Bool) (connList stubList : List Nat) : Prop where
  conn : ∀ c ∈ connList, c ∈ s.connList ∨ (c = s.next ∧ flag = false)
  stub : ∀ c ∈ stubList, c ∈ s.stubList ∨ (c = s.next ∧ flag = true)
  connNodup : s.connList.Nodup → connList.Nodup
  stubNodup : s.stubList.Nodup → stubList.Nodup

theorem nodup_concat {l : List Nat} {n : Nat} (h : ∀ x ∈ l, x < n) (hl : l.Nodup) :
    (l ++ [n]).Nodup := by
  refine nodup_append.mpr ⟨hl, nodup_singleton _, fun x hx y hy => ?_⟩
  rw [mem_singleton.mp hy]
  exact Nat.ne_of_lt (h x hx)

section

variable (h : Listed s)
include h

theorem Listed.entersConn : Enters s false (s.connList ++ [s.next]) s.stubList :=
  ⟨by simp, fun _ => .inl, nodup_concat h.connNext, id⟩

theorem Listed.entersStub : Enters s true s.connList (s.stubList ++ [s.next]) :=
  ⟨fun _ => .inl, by simp, id, nodup_concat h.stubNext⟩

theorem Listed.create {a : ConnAddr} {flag : Bool} {connList stubList : List Nat}
    {pc : SwitchPc} (he : Enters s flag connList stubList)
    (hpc : (s.create a flag connList stubList pc).SwitchOk pc) :
    Listed (s.create a flag connList stubList pc) := by
  constructor
  · intro c hc
    rcases he.conn c hc with hold | ⟨rfl, -⟩
    · exact Nat.lt_succ_of_lt (h.connNext c hold)
    · exact Nat.lt_succ_self _
  · intro c hc
    rcases he.stub c hc with hold | ⟨rfl, -⟩
    · exact Nat.lt_succ_of_lt (h.stubNext c hold)
    · exact Nat.lt_succ_self _
  · intro c hc hmem
    rcases he.conn c hc with hold | ⟨rfl, hflag⟩
    · rcases he.stub c hmem with hstub | ⟨rfl, -⟩
      · exact h.disjoint c hold hstub
      · exact Nat.lt_irrefl _ (h.connNext _ hold)
    · rcases he.stub _ hmem with hstub | ⟨-, hflag'⟩
      · exact Nat.lt_irrefl _ (h.stubNext _ hstub)
      · simp [hflag] at hflag'
  · exact he.stubNodup h.nodup
  · intro c hc
    rcases he.stub c hc with hold | ⟨rfl, -⟩
    · have hne := Nat.ne_of_lt (h.stubNext c hold)
      simpa [Sys.create, update_of_ne hne] using h.stub c hold
    · simp [Sys.create, tcpConnCreate, TConn.IsStub, MainPc.looping]
  · intro c b hb
    by_cases hne : c = s.next
    · subst hne
      simp [Sys.create, tcpConnCreate] at hb
    · simp only [Sys.create, update_of_ne hne] at hb
      refine (h.backlog c b hb).grow (Nat.le_succ _) fun x hx hmem => ?_
      exact (he.stub x hmem).resolve_right fun hnew => Nat.ne_of_lt hx hnew.1
  · intro c p hp
    by_cases hne : c = s.next
    · subst hne
      simp [Sys.create, tcpConnCreate] at hp
    · simp only [Sys.create, update_of_ne hne] at hp
      exact ⟨(h.parent c p hp).1, Nat.lt_succ_of_lt (h.parent c p hp).2⟩
  · exact hpc

theorem Listed.createConn (a : ConnAddr) (pc : SwitchPc)
    (hpc : (s.createConn a pc).SwitchOk pc) : Listed (s.createConn a pc) :=
  h.create h.entersConn hpc

theorem Listed.shrink (hnext : s'.next = s.next) (hconns : s'.conns = s.conns)
    (hconn : ∀ c ∈ s'.connList, c ∈ s.connList) (hstub : s'.stubList.Sublist s.stubList)
    (hswitch : s'.SwitchOk s'.switch) : Listed s' where
  connNext := by
    rw [hnext]
    exact fun c hc => h.connNext c (hconn c hc)
  stubNext := by
    rw [hnext]
    exact fun c hc => h.stubNext c (hstub.subset hc)
  disjoint := fun c hc hmem => h.disjoint c (hconn c hc) (hstub.subset hmem)
  nodup := h.nodup.sublist hstub
  stub := by
    rw [hconns]
    exact fun c hc => h.stub c (hstub.subset hc)
  backlog := by
    rw [hconns]
    intro c b hb
    exact (h.backlog c b hb).grow (Nat.le_of_eq hnext.symm) fun x _ hx => hstub.subset hx
  parent := by
    rw [hconns, hnext]
    exact h.parent
  switch := hswitch

theorem Listed.append (hc : c < s.next) (hstub : c ∉ s.stubList) :
    Listed { s with connList := s.connList ++ [c] } where
  connNext := forall_mem_concat h.connNext hc
  stubNext := h.stubNext
  disjoint := forall_mem_concat h.disjoint hstub
  nodup := h.nodup
  stub := h.stub
  backlog := h.backlog
  parent := h.parent
  switch := h.switch

end

def KeepsLinks (f : TConn → TConn) : Prop :=
  ∀ x, (f x).backlog = x.backlog ∧ (f x).parent = x.parent

theorem Listed.kept (h : Listed s) {f : TConn → TConn} (hf : KeepsLinks f)
    (hstub : c ∈ s.stubList → (s.conns c).IsStub → (f (s.conns c)).IsStub) :
    Listed (s.upd c f) := by
  apply h.upd
  · exact fun hc => hstub hc (h.stub c hc)
  · rw [(hf _).1]
    exact h.backlog c
  · rw [(hf _).2]
    exact h.parent c

/-! ### The `switch_to_tcp` thread -/

theorem Listed.count (h : Listed s) (c : Nat) : Listed (s.upd c TConn.count) :=
  h.kept (fun _ => ⟨rfl, rfl⟩) fun _ hc => hc

theorem Listed.uncount (h : Listed s) (c : Nat) : Listed (s.upd c TConn.uncount) :=
  h.kept (fun _ => ⟨rfl, rfl⟩) fun _ hc => hc

theorem Listed.visit (h : Listed s) (hc : c < s.next)
    (hv : v = .close ∨ v = .connect → c ∉ s.stubList) : Listed (s.visit c v) :=
  (h.count c).move (.enter c v) ⟨hc, hv⟩

theorem findConn_mem {a : ConnAddr} (h : s.findConn a = some c) : c ∈ s.connList :=
  mem_of_find?_eq_some h

theorem findStub_mem {ip : UInt32} {port : UInt16} (h : s.findStub ip port = some c) :
    c ∈ s.stubList :=
  mem_of_find?_eq_some h

section

variable (h : Listed s)
include h

theorem Listed.visitConn {a : ConnAddr} (hc : s.findConn a = some c) (v : Visit) :
    Listed (s.visit c v) :=
  h.visit (h.connNext c (findConn_mem hc)) fun _ => h.disjoint c (findConn_mem hc)

theorem Listed.visitStub {ip : UInt32} {port : UInt16}
    (hc : s.findStub ip port = some c) (hv : v ≠ .close ∧ v ≠ .connect) : Listed (s.visit c v) :=
  h.visit (h.stubNext c (findStub_mem hc)) fun hor => by
    rcases hor with hor | hor
    · exact absurd hor hv.1
    · exact absurd hor hv.2

theorem Listed.fresh : s.next ∉ s.stubList :=
  fun hmem => Nat.lt_irrefl _ (h.stubNext _ hmem)

theorem Listed.lookup (op : Op) : Listed (lookup s op) := by
  have hidle : Listed { s with switch := .idle } := h.move _ trivial
  cases op <;> simp only [Threads.lookup]
  case close a | use a =>
    split
    · exact h.visitConn ‹_› _
    · exact hidle
  case accept ip port | useStub ip port =>
    split
    · exact h.visitStub ‹_› (by simp)
    · exact hidle
  case closeStub ip port =>
    split
    · rename_i c hc
      have hoff : Listed { s with stubList := s.stubList.erase c, switch := .idle } :=
        h.shrink rfl rfl (fun _ hx => hx) erase_sublist trivial
      exact hoff.visit (v := .close) (h.stubNext c (findStub_mem hc)) fun _ => h.nodup.not_mem_erase
    · exact hidle
  case listen ip port =>
    split
    · exact hidle
    split
    · exact h.create h.entersStub ⟨Nat.lt_succ_self _, by simp⟩
    · exact hidle
  case connect a =>
    split
    · exact hidle
    split
    · split
      · rename_i p hp
        have hmem := findStub_mem hp
        exact (h.count p).move (.promote p a) hmem
      · exact h.createConn a _ ⟨Nat.lt_succ_self _, fun _ => h.fresh⟩
    · exact hidle
  case segment a syn =>
    split
    · exact h.visitConn ‹_› .recv
    split
    · split
      · exact h.visitStub ‹_› (by simp)
      · exact hidle
    · exact hidle

theorem Listed.promoteStub {p : Nat} (a : ConnAddr) (hp : p ∈ s.stubList) :
    Listed (promoteStub s p a) := by
  have hnext := h.stubNext p hp
  have hoff : p ∉ s.stubList.erase p := h.nodup.not_mem_erase
  have hs1 : Listed { s with stubList := s.stubList.erase p, switch := .idle } :=
    h.shrink rfl rfl (fun _ hx => hx) erase_sublist trivial
  by_cases hrun : (s.conns p).running
  · have hrest : ∀ {t : Sys}, Listed t → t.next = s.next → t.stubList = s.stubList.erase p →
        Listed { t.upd p fun c => { c with addr := a } with
          connList := t.connList ++ [p], switch := .enter p .connect } := by
      intro t ht htnext htstub
      have hkept := ht.kept (c := p) (f := fun c => { c with addr := a }) (fun _ => ⟨rfl, rfl⟩)
        fun _ hx => hx
      have hpt : p < t.next := by
        rw [htnext]
        exact hnext
      have hpoff : p ∉ t.stubList := by
        rw [htstub]
        exact hoff
      exact (hkept.append (c := p) hpt hpoff).move (.enter p .connect) ⟨hpt, fun _ => hpoff⟩
    simp only [Threads.promoteStub, hrun, if_true]
    by_cases hlisten : (s.conns p).phase = .listen
    · simp only [hlisten, if_true]
      have hs2 := hs1.shutdownAll (l := (s.conns p).backlog) fun b hb hmem =>
        (h.backlog p b hb).2.2 (mem_of_mem_erase hmem)
      have hdone := hrest hs2 rfl rfl
      exact hdone
    · simp only [hlisten, if_false]
      have hdone := hrest hs1 rfl rfl
      exact hdone
  · simp only [Threads.promoteStub, hrun]
    have hfresh : s.next ∉ s.stubList.erase p := fun hmem =>
      Nat.lt_irrefl _ (h.stubNext _ (mem_of_mem_erase hmem))
    exact (hs1.uncount p).createConn a (.enter s.next .connect)
      ⟨Nat.lt_succ_self _, fun _ => hfresh⟩

theorem Listed.offStub {f : TConn → TConn} (hf : KeepsLinks f)
    (hc : c ∉ s.stubList) : Listed (s.upd c f) :=
  h.kept hf fun hmem => absurd hmem hc

theorem Listed.offStubLeave (f : TConn → TConn) (hf : KeepsLinks f)
    (hoff : c ∉ s.stubList) (hc : c < s.next) : Listed { s.upd c f with switch := .leave c } :=
  (h.offStub hf hoff).move (.leave c) hc

theorem Listed.not_stub {p : Phase} (hp : (s.conns c).phase = p)
    (hopen : p ≠ .closed ∧ p ≠ .listen) : c ∉ s.stubList := by
  intro hmem
  rcases (h.stub c hmem).2.1 with hclosed | hlisten
  · exact hopen.1 (hp.symm.trans hclosed)
  · exact hopen.2 (hp.symm.trans hlisten)

theorem Listed.close (hc : c ∉ s.stubList) : Listed (tcpClose s c) := by
  cases hphase : (s.conns c).phase with
  | closed | later => simpa only [tcpClose, hphase] using h
  | listen =>
    have hback := h.shutdownAll (l := (s.conns c).backlog) fun b hb => (h.backlog c b hb).2.2
    simp only [tcpClose, hphase]
    exact hback.offStub (fun _ => ⟨rfl, rfl⟩) hc
  | synSent | synRecv =>
    simp only [tcpClose, hphase]
    exact h.offStub (fun _ => ⟨rfl, rfl⟩) hc

end

theorem tcpClose_same (s : Sys) (c : Nat) : SameLists s (tcpClose s c) := by
  simp only [tcpClose]
  split <;> exact ⟨rfl, rfl, rfl⟩

section

variable (h : Listed s) (hc : c < s.next)
include h hc

theorem Listed.complete (hoff : c ∉ s.stubList) : Listed (completeOpen s c) := by
  have hs1 :=
    h.offStub (c := c) (f := fun x => { x with phase := .later }) (fun _ => ⟨rfl, rfl⟩) hoff
  have hleave := hs1.move (.leave c) hc
  simp only [completeOpen]
  cases hopen : (s.conns c).activeOpen with
  | true => exact hleave
  | false =>
    cases hp : (s.conns c).parent with
    | none => exact hleave
    | some p => exact hs1.move (.nestWant c p .parent) ⟨hc, h.parent c p hp⟩

theorem Listed.recv (b : Choice) : Listed (tcpRecv s c b) := by
  simp only [tcpRecv]
  split
  · exact h.move (.createWant c _) hc
  · exact h.complete hc (h.not_stub ‹_› (by decide))
  · exact h.complete hc (h.not_stub ‹_› (by decide))
  · exact h.offStubLeave _ (fun _ => ⟨rfl, rfl⟩) (h.not_stub ‹_› (by decide)) hc
  · exact h.offStubLeave _ (fun _ => ⟨rfl, rfl⟩) (h.not_stub ‹_› (by decide)) hc
  · exact h.move (.leave c) hc

theorem Listed.visited (hv : v = .close ∨ v = .connect → c ∉ s.stubList) (b : Choice) :
    Listed (visitBody s c b v) := by
  have hleave : Listed { s with switch := .leave c } := h.move (.leave c) hc
  cases v <;> simp only [visitBody]
  case close =>
    have hok : (tcpClose s c).SwitchOk (.leave c) := (tcpClose_same s c).switchOk.mpr hc
    exact (h.close (hv (.inl rfl))).move _ hok
  case listen =>
    split
    · have hkept := h.kept (c := c) (f := fun x => { x with phase := .listen })
        (fun _ => ⟨rfl, rfl⟩) fun _ hstub => ⟨hstub.1, .inr rfl, hstub.2.2⟩
      exact hkept.move (.leave c) hc
    · exact hleave
  case accept =>
    split
    · exact h.move (.search c (s.conns c).backlog) ⟨hc, h.backlog c⟩
    · exact hleave
  case connect =>
    split
    · exact h.offStubLeave _ (fun _ => ⟨rfl, rfl⟩) (hv (.inr rfl)) hc
    · exact hleave
  case recv => exact h.recv hc b
  case other =>
    split
    · exact h.offStubLeave _ (fun _ => ⟨rfl, rfl⟩) (h.not_stub ‹_› (by decide)) hc
    · exact h.offStubLeave _ (fun _ => ⟨rfl, rfl⟩) (h.not_stub ‹_› (by decide)) hc
    · exact hleave

end

theorem Listed.eraseBacklog (h : Listed s) (c d : Nat) :
    Listed (s.upd c fun x => { x with backlog := x.backlog.erase d }) := by
  apply h.upd
  · exact fun hc => h.stub c hc
  · exact fun b hb => h.backlog c b (mem_of_mem_erase hb)
  · exact h.parent c

theorem Listed.nested (h : Listed s) {n : Nest} (hc : c < s.next) (hn : s.NestOk c d n)
    (b : Choice) : Listed (nestBody s c d b n) := by
  cases n with
  | search rest =>
    simp only [nestBody]
    split
    · exact h.eraseBacklog c d
    · exact h
  | parent =>
    simp only [nestBody]
    split
    · exact h.eraseBacklog d c
    · exact h
  | child =>
    simp only [nestBody]
    split
    · have hchild : Listed (s.upd d fun x =>
          { x with phase := .synRecv, activeOpen := false, parent := some c }) := by
        apply h.upd
        · exact fun hmem => absurd hmem hn.2.2
        · exact h.backlog d
        · rintro p ⟨⟩
          exact ⟨hn.1.symm, hc⟩
      apply hchild.upd
      · exact fun hmem => hchild.stub c hmem
      · exact forall_mem_concat (hchild.backlog c) hn
      · exact hchild.parent c
    · exact h

theorem nestBody_same (s : Sys) (c d : Nat) (b : Choice) (n : Nest) :
    SameLists s (nestBody s c d b n) := by
  cases n <;> simp only [nestBody] <;> split <;> exact ⟨rfl, rfl, rfl⟩

theorem Listed.stepSwitch (h : Listed s) (b : Choice) : Listed (stepSwitch s b) := by
  have hok := h.switch
  -- taking a lock does not change what the thread knows
  have htake : ∀ (p : Bool) {pc}, s.SwitchOk pc →
      Listed (if p then { s with switch := pc } else s) := by
    intro p pc hpc
    cases p with
    | true => exact h.move _ hpc
    | false => exact h
  cases hpc : s.switch <;> rw [hpc] at hok <;> simp only [Threads.stepSwitch, hpc]
  case idle => exact h
  case haveList op => exact h.lookup op
  case promoting p a => exact h.promoteStub a hok
  case inside c v =>
    split
    · exact h.visited hok.1 hok.2 b
    · exact h.move (.leave c) hok.1
  case search c rest =>
    cases rest with
    | nil => exact h.move (.leave c) hok.1
    | cons d rest =>
      exact h.move (.nestWant c d (.search rest))
        ⟨hok.1, hok.2 d mem_cons_self, fun x hx => hok.2 x (mem_cons_of_mem _ hx)⟩
  case createHave c a =>
    have hleave := h.move (.leave c) hok
    split
    · exact hleave
    split
    · exact h.createConn a _
        ⟨Nat.lt_succ_of_lt hok, Nat.ne_of_gt hok, Nat.lt_succ_self _, h.fresh⟩
    · exact hleave
  case nestHave c d n => exact (h.count d).move (.nestEnter c d n) hok
  case nestInside c d n =>
    exact (h.nested hok.1 hok.2 b).move _ ((nestBody_same s c d b n).switchOk.mpr hok)
  case nestUncount c d n => exact (h.uncount d).move (.nestUnlock c d n) hok
  case nestUnlock c d n =>
    apply h.move
    cases n with
    | search rest => exact ⟨hok.1, hok.2.2⟩
    | child | parent => exact hok.1
  case uncount c => exact (h.uncount c).move (.unlock c) hok
  case unlock c => exact h.move _ trivial
  all_goals exact htake _ hok

/-! ### Main threads -/

theorem Listed.goto (h : Listed s) {pc : MainPc} (hpc : c ∈ s.stubList → pc.looping) :
    Listed (s.goto c pc) :=
  h.kept (fun _ => ⟨rfl, rfl⟩) fun hc hstub => ⟨hstub.1, hstub.2.1, hpc hc⟩

theorem mainBody_links (x : TConn) (b : Choice) :
    (mainBody x b).backlog = x.backlog ∧ (mainBody x b).parent = x.parent := by
  simp only [mainBody]
  split <;> exact ⟨rfl, rfl⟩

theorem mainBody_stub {x : TConn} (h : x.IsStub) (b : Choice) : mainBody x b = x := by
  rcases h.2.1 with hp | hp <;> simp [mainBody, hp]

theorem Listed.stepMain (h : Listed s) (c : Nat) (b : Choice) : Listed (stepMain s c b) := by
  -- past the loop the connection is no stub, and its thread goes anywhere
  have hoff : (s.conns c).pc.looping = false → c ∉ s.stubList := fun hloop hc => by
    simpa [hloop] using (h.stub c hc).2.2
  have hgoto : ∀ pc, (s.conns c).pc.looping = false → Listed (s.goto c pc) := fun pc hloop =>
    h.goto fun hc => absurd hc (hoff hloop)
  cases hpc : (s.conns c).pc <;> rw [hpc] at hoff hgoto <;> simp only [Threads.stepMain, hpc]
  case lock =>
    split
    · exact h.goto fun _ => rfl
    · exact h
  case loop => exact h.goto fun hc => by simp [(h.stub c hc).1, MainPc.looping]
  case body =>
    refine h.kept (fun x => mainBody_links x b) fun _ hstub => ?_
    rw [mainBody_stub hstub]
    exact ⟨hstub.1, hstub.2.1, rfl⟩
  case unlock | asleep => exact h.goto fun _ => rfl
  case exitLock | stopLock | stopRelock =>
    split
    · exact hgoto _ rfl
    · exact h
  case exitHold =>
    have hstop := hgoto .stop rfl
    split
    · rw [erase_of_not_mem (hoff rfl)]
      exact hstop
    · exact hstop.shrink rfl rfl (fun _ hx => mem_of_mem_erase hx) (Sublist.refl _)
        hstop.switch
  case stop =>
    have hback := h.shutdownAll (l := (s.conns c).backlog) fun b hb => (h.backlog c b hb).2.2
    exact hback.offStub (fun _ => ⟨rfl, rfl⟩) (hoff rfl)
  case stopHold | stopUnlock | free => exact hgoto _ rfl
  case gone => exact h

theorem Listed.step (h : Listed s) (e : ThreadEvent) : Listed (stepThreads s e) := by
  cases e with
  | frame op =>
    simp only [stepThreads]
    split
    · exact h.move _ trivial
    · exact h
  | switch b => exact h.stepSwitch b
  | main c b =>
    simp only [stepThreads]
    split
    · exact h.stepMain c b
    · exact h

theorem listed_run (es : List ThreadEvent) : Listed (runThreads initial es) :=
  run_invariant (fun _ e h => h.step e) Listed.initially es

end FinsStack.Tcp.Threads
