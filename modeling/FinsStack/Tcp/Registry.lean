import FinsStack.Tcp.ModuleView
import FinsStack.Tcp.SegHeaders

/-!
# The registry of connections

`conn_list` holds the connections and `conn_stub_list` the listeners; `stub_list` says which
list a connection is on, and the main thread that ends trusts it.  Two calls break this.  A
`connect` from the address of a listener moves the listener to `conn_list` and leaves
`stub_list` set (and `ack_seg` with the old remote address), so that the connection stays on
`conn_list` after it was freed.  A `close` of a listener takes it off `conn_stub_list` at once,
while it is freed only when its main thread ends.

Nothing else does (`registered_iff_orderly`), and a closed listener alone does no harm
(`enrolled_unless_promoted`).
-/

namespace FinsStack.Tcp

open TcpModule List Lib

/-! ### Addresses in segments -/

structure Addressed (c : TcpConn) : Prop where
  ackSeg : c.ackSeg.addr = c.addr
  queued : ∀ n ∈ c.sendQueue.nodes, n.data.addr = c.addr
  sent : ∀ x ∈ c.sent, x.2.addr = c.addr

theorem rstReply_addr (seg : TcpSeg) : (rstReply seg).addr = seg.target := by
  simp only [rstReply]
  split <;> rfl

variable {c : TcpConn} {x : Slot}

theorem resetFor_addr {seg : TcpSeg} (h : seg.target = c.addr) :
    (resetFor c seg).addr = c.addr := by
  simp only [resetFor]
  split
  · rfl
  · rw [rstReply_addr, h]

section

variable {c d : TcpConn} (h : Addressed c) (haddr : d.addr = c.addr)
include h haddr

theorem Addressed.speaks (hs : Speaks c d) (hconvey : Conveys (fun s => s.addr = c.addr) d) :
    Addressed d := by
  have hack : d.ackSeg.addr = c.ackSeg.addr := congrArg Prod.fst hs.ackBody
  obtain ⟨l, hl, hsaid, hbody, -⟩ := hs.segs
  constructor
  · rw [hack, haddr]
    exact h.ackSeg
  · rw [haddr]
    exact hconvey.queued
  · rintro ⟨k, s⟩ hx
    have hmem := hx
    rw [hl] at hx
    rw [haddr]
    rcases mem_append.mp hx with hx | hx
    · exact h.sent _ hx
    · cases k with
      | fresh => exact hconvey.sent _ hmem (.inl rfl)
      | resend => exact hconvey.sent _ hmem (.inr rfl)
      | ack =>
        have hsame : s.addr = c.ackSeg.addr := congrArg Prod.fst (hbody _ hx rfl)
        rw [hsame]
        exact h.ackSeg
      | control =>
        rw [← haddr]
        exact (hsaid _ hx).addr (.inl rfl)

theorem Addressed.one {x : SegKind × TcpSeg} (hsent : d.sent = c.sent ++ [x])
    (hx : x.2.addr = c.addr) (hack : d.ackSeg = c.ackSeg)
    (hconvey : Conveys (fun s => s.addr = c.addr) d) : Addressed d := by
  constructor
  · rw [hack, haddr]
    exact h.ackSeg
  · rw [haddr]
    exact hconvey.queued
  · rw [hsent, haddr]
    exact forall_mem_concat h.sent hx

theorem Addressed.heard {seg : TcpSeg} (hh : Heard c seg d)
    (hto : Resets c seg → seg.target = c.addr)
    (hconvey : Conveys (fun s => s.addr = c.addr) d) : Addressed d := by
  cases hh with
  | again _ _ _ hagain => exact h.one haddr hagain.sent h.ackSeg hagain.ackSeg hconvey
  | now _ _ _ hnow => exact h.speaks haddr hnow.speaks hconvey
  | reset hr hd =>
    apply h.one haddr (x := (.control, resetFor c seg)) ?_ (resetFor_addr (hto hr)) ?_ hconvey
    · rw [hd]
      exact sent_append (l := [.seg .control (resetFor c seg)]) rfl
    · rw [hd]
      rfl
  | closeWait _ hush => exact h.speaks haddr hush.speaks hconvey
  | speaks _ _ _ hs => exact h.speaks haddr hs hconvey

end

structure Speech (c : TcpConn) : Prop where
  say : SayInv c
  recv : RecvInv c
  early : NothingEarly c
  writing : Writing 0 c

theorem Speech.step (h : Speech c) (e : Event) (hp : ParsedStep c e) : Speech (step c e) where
  say := step_sayInv e h.say h.recv.noneDue
  recv := step_recvInv h.recv h.early hp
  early := step_nothingEarly c e h.early
  writing := step_writing c e h.writing

theorem initial_speech (h : Initial c) : Speech c where
  say := (initial_said h).1
  recv := (initial_recvInv h).1
  early := fun _ => (initial_recvInv h).2
  writing := (initial_sendStart h).writing

theorem step_addressed {md : TcpData} {a : Action} (h : Addressed c) (hs : Speech c)
    (hstub : ∀ remIp remPort, a ≠ .stubConnect remIp remPort)
    (hto : ∀ seg env, a = .recv seg env → seg.target = c.addr ∨ c.state = .listen) :
    Addressed (step c ⟨md, a⟩) := by
  obtain ⟨haddr, -⟩ := step_frame md hs.writing.addrs_nodup hstub
  have hconvey : Conveys (fun s => s.addr = c.addr) (step c ⟨md, a⟩) := by
    apply step_conveys (fun _ _ _ _ _ _ hq => hq)
    · exact fun _ => rfl
    · exact ⟨h.queued, fun x hx _ => h.sent x hx⟩
  by_cases ht : ∃ seg, Event.taken c ⟨md, a⟩ seg
  · obtain ⟨seg, ht⟩ := ht
    apply h.heard haddr (step_heard hs.say.delay hs.recv.noneDue ht) ?_ hconvey
    intro hr
    obtain ⟨env, hact⟩ := Event.act_of_arriving ht.1
    rcases hto seg env hact with hto | hlisten
    · exact hto
    · -- a listener resets nothing
      rcases hr.2.2 with ⟨hst, -⟩ | ⟨hst, -⟩ <;> rw [hst] at hlisten <;> cases hlisten
  · exact h.speaks haddr (step_speaks hs.say.delay fun seg hseg => ht ⟨seg, hseg⟩) hconvey

theorem initial_addressed (h : Initial c) : Addressed c := by
  obtain ⟨c₀, -, hempty, -, hack, hsay⟩ := initial_speaks h
  have hconvey := (initial_sendStart h).conveys fun s => s.addr = c.addr
  have hown : c.ackSeg.addr = c₀.ackSeg.addr := congrArg Prod.fst hsay.ackBody
  obtain ⟨l, hl, hsaid, hbody, -⟩ := hsay.segs
  constructor
  · rw [hown, hack]
  · exact hconvey.queued
  · rintro ⟨k, s⟩ hx
    have hmem := hx
    rw [hl, hempty, nil_append] at hmem
    cases k with
    | fresh => exact hconvey.sent _ hx (.inl rfl)
    | resend => exact hconvey.sent _ hx (.inr rfl)
    | ack =>
      have hsame : s.addr = c₀.ackSeg.addr := congrArg Prod.fst (hbody _ hmem rfl)
      rw [hsame, hack]
    | control => exact (hsaid _ hmem).addr (.inl rfl)

/-! ### The registry -/

variable {s : TcpModule} {md : TcpData} {i j : Nat} {a : Action} {K : Prop}

structure Registered (s : TcpModule) : Prop where
  listed : ∀ i, (s.slots i).freed = false →
    (i ∈ s.connList ∧ i ∉ s.connStubList) ∨ (i ∈ s.connStubList ∧ i ∉ s.connList)
  flag : ∀ i, (s.slots i).freed = false → (i ∈ s.connStubList ↔ (s.slots i).stubList = true)
  freed : ∀ i, (s.slots i).freed = true → i ∉ s.connList ∧ i ∉ s.connStubList
  addrs : (s.connList.map fun i => (s.slots i).conn.addr).Nodup
  segments : ∀ i, (s.slots i).freed = false → Addressed (s.slots i).conn

def TcpModule.closesStub (s : TcpModule) : ModuleOp → Bool
  | .closeStub hostIp hostPort _ => (s.findStub hostIp hostPort).isSome
  | _ => false

def Orderly (s : TcpModule) (e : ModuleEvent) : Prop :=
  s.promotes e.op = false ∧ s.closesStub e.op = false
deriving Decidable

/-- What holds of the lists unless a stub is connected; `K` is whether listeners are closed. -/
structure Enrolled (K : Prop) (s : TcpModule) : Prop extends Listing s where
  connLive : ∀ i ∈ s.connList, (s.slots i).freed = false
  connFlag : ∀ i ∈ s.connList, (s.slots i).stubList = false
  onConn : ∀ i, (s.slots i).freed = false → (s.slots i).stubList = false → i ∈ s.connList
  onStub : ∀ i, (s.slots i).freed = false → (s.slots i).stubList = true →
    i ∈ s.connStubList ∨ K ∧ (s.slots i).conn.runningFlag = false
  addrs : (s.connList.map fun i => (s.slots i).conn.addr).Nodup

theorem Enrolled.congr {s' : TcpModule} (h : Enrolled K s) (hslots : s'.slots = s.slots)
    (hnext : s'.next = s.next) (hconn : s'.connList = s.connList)
    (hstub : s'.connStubList = s.connStubList) : Enrolled K s' := by
  refine ⟨h.toListing.congr hslots hnext hconn hstub, ?_, ?_, ?_, ?_, ?_⟩ <;>
    simp only [hslots, hconn, hstub]
  · exact h.connLive
  · exact h.connFlag
  · exact h.onConn
  · exact h.onStub
  · exact h.addrs

structure Slot.Framed (x y : Slot) : Prop where
  addr : y.conn.addr = x.conn.addr
  running : y.conn.runningFlag = true → x.conn.runningFlag = true
  freed : y.freed = x.freed
  flag : y.stubList = x.stubList

theorem Slot.Framed.refl (x : Slot) : x.Framed x := ⟨rfl, id, rfl, rfl⟩

theorem Slot.Framed.trans {y z : Slot} (h₁ : x.Framed y) (h₂ : y.Framed z) : x.Framed z :=
  ⟨h₂.addr.trans h₁.addr, fun h => h₁.running (h₂.running h), h₂.freed.trans h₁.freed,
    h₂.flag.trans h₁.flag⟩

theorem Slot.Framed.stopped {y : Slot} (h : x.Framed y) (hoff : x.conn.runningFlag = false) :
    y.conn.runningFlag = false := by
  apply Bool.eq_false_iff.mpr
  intro hrun
  rw [h.running hrun] at hoff
  cases hoff

theorem Slot.act_framed (hapart : RequestsApart x.conn)
    (hstub : ∀ remIp remPort, a ≠ .stubConnect remIp remPort) : x.Framed (x.act md a) := by
  cases hx : x.freed with
  | true =>
    rw [Slot.act_freed hx]
    exact .refl x
  | false =>
    obtain ⟨haddr, hrun⟩ := step_frame md hapart hstub
    rw [Slot.act_live hx]
    exact ⟨haddr, hrun, rfl, rfl⟩

theorem Slot.shutdown_framed (x : Slot) : x.Framed (x.act md .shutdown) := by
  cases hx : x.freed with
  | true =>
    rw [Slot.act_freed hx]
    exact .refl x
  | false =>
    rw [Slot.act_live hx]
    exact ⟨rfl, (tcpConnShutdown_view .calm x.conn).running, rfl, rfl⟩

theorem TcpModule.act_framed (hw : AllWriting s)
    (hstub : ∀ remIp remPort, a ≠ .stubConnect remIp remPort) (j : Nat) :
    (s.slots j).Framed ((s.act md i a).slots j) := by
  by_cases hj : j = i
  · subst hj
    rw [act_self]
    exact Slot.act_framed (hw j).addrs_nodup hstub
  · rw [act_other hj]
    exact .refl _

theorem TcpModule.shutdownAll_framed (md : TcpData) (l : List Nat) (j : Nat) :
    (s.slots j).Framed ((s.shutdownAll md l).slots j) := by
  simp only [TcpModule.shutdownAll]
  split
  · exact Slot.shutdown_framed _
  · exact .refl _

theorem Enrolled.of_framed {s' : TcpModule} (h : Enrolled K s) (hlist : Listing s')
    (hf : ∀ j, (s'.slots j).freed = false ∨ j ∈ s'.connList → (s.slots j).Framed (s'.slots j))
    (hsub : s'.connList.Sublist s.connList)
    (hconn : ∀ j ∈ s.connList, (s'.slots j).freed = false → j ∈ s'.connList)
    (hstub : ∀ j ∈ s.connStubList, (s'.slots j).freed = false →
      j ∈ s'.connStubList ∨ K ∧ (s'.slots j).conn.runningFlag = false) : Enrolled K s' := by
  refine ⟨hlist, ?_, ?_, ?_, ?_, ?_⟩
  · intro j hj
    rw [(hf j (.inr hj)).freed]
    exact h.connLive j (hsub.subset hj)
  · intro j hj
    rw [(hf j (.inr hj)).flag]
    exact h.connFlag j (hsub.subset hj)
  · intro j hlive hflag
    have hj := hf j (.inl hlive)
    exact hconn j (h.onConn j (hj.freed.symm.trans hlive) (hj.flag.symm.trans hflag)) hlive
  · intro j hlive hflag
    have hj := hf j (.inl hlive)
    rcases h.onStub j (hj.freed.symm.trans hlive) (hj.flag.symm.trans hflag) with hmem | ⟨hk, hoff⟩
    · exact hstub j hmem hlive
    · exact .inr ⟨hk, hj.stopped hoff⟩
  · have haddrs : (s'.connList.map fun i => (s'.slots i).conn.addr) =
        s'.connList.map fun i => (s.slots i).conn.addr :=
      map_congr_left fun j hj => (hf j (.inr hj)).addr
    rw [haddrs]
    exact h.addrs.sublist (hsub.map _)

theorem tcpMainExit_freed : ((tcpMainExit s md i).slots i).freed := by
  simp only [tcpMainExit, Function.update_self]

theorem tcpMainExit_framed (hj : j ≠ i) : (s.slots j).Framed ((tcpMainExit s md i).slots j) := by
  simp only [tcpMainExit, Function.update_of_ne hj]
  generalize hs1 : (if (s.slots i).stubList then
      ({ s with connStubList := s.connStubList.erase i } : TcpModule)
    else { s with connList := s.connList.erase i }) = s1
  have hslots : s1.slots = s.slots := by
    rw [← hs1]
    split <;> rfl
  rw [← hslots]
  exact shutdownAll_framed md _ j

theorem tcpMainExit_connList : (tcpMainExit s md i).connList =
    if (s.slots i).stubList then s.connList else s.connList.erase i := by
  simp only [tcpMainExit, TcpModule.shutdownAll]
  split <;> rfl

theorem tcpMainExit_connStubList : (tcpMainExit s md i).connStubList =
    if (s.slots i).stubList then s.connStubList.erase i else s.connStubList := by
  simp only [tcpMainExit, TcpModule.shutdownAll]
  split <;> rfl

theorem tcpListenChild_addr (parent : TcpConn) (seg : TcpSeg) (rand : UInt32) :
    (tcpListenChild md parent seg rand).addr = seg.target := by
  obtain ⟨o, a, ack, h⟩ := tcpListenChild_frame md parent seg rand
  rw [h]
  rfl

theorem tcpClose_stops (hs : c.state = .listen) (ff : Fcf) :
    (tcpClose c ff).runningFlag = false := by
  cases hrun : c.runningFlag with
  | true =>
    simp only [tcpClose, hrun, hs, if_true]
    rfl
  | false =>
    simp only [tcpClose, hrun, Bool.false_eq_true, if_false]

section

variable (h : Enrolled K s)
include h

theorem Enrolled.act (hw : AllWriting s)
    (hstub : ∀ remIp remPort, a ≠ .stubConnect remIp remPort)
    (ha : a.keepsListen ∨ i ∉ s.connStubList) : Enrolled K (s.act md i a) :=
  h.of_framed (h.toListing.act ha) (fun j _ => act_framed hw hstub j)
    (Sublist.refl _) (fun _ hj _ => hj) fun _ hj _ => .inl hj

theorem Enrolled.shutdownAll (md : TcpData) (l : List Nat) : Enrolled K (s.shutdownAll md l) :=
  h.of_framed (h.toListing.shutdownAll md l) (fun j _ => shutdownAll_framed md l j)
    (Sublist.refl _) (fun _ hj _ => hj) fun _ hj _ => .inl hj

theorem Enrolled.close (hw : AllWriting s) (hi : i ∉ s.connStubList)
    (ff : Fcf) : Enrolled K (s.close md i ff) := by
  have hact : Enrolled K (s.act md i (.close ff)) := h.act hw (by simp) (.inr hi)
  simp only [TcpModule.close]
  split
  · exact hact.shutdownAll md _
  · exact hact

theorem Enrolled.accept (hw : AllWriting s) (ff : Fcf) :
    Enrolled K (s.accept md i ff) := by
  have hplain : Enrolled K (s.act md i (.accept ff none)) := h.act hw (by simp) (.inl rfl)
  simp only [TcpModule.accept]
  split
  · split
    · rename_i d _
      have hsearch : Enrolled K (s.act md d (.search ff)) := h.act hw (by simp) (.inl rfl)
      exact hsearch.act hw.act (by simp) (.inl rfl)
    · exact hplain
  · exact hplain

theorem Enrolled.add {s' : TcpModule} (hlist : Listing s')
    (hfreed : (s'.slots s.next).freed = false) (hold : ∀ j, j ≠ s.next → s'.slots j = s.slots j)
    (hconn : s'.connList =
      if (s'.slots s.next).stubList then s.connList else s.connList ++ [s.next])
    (hstub : s'.connStubList =
      if (s'.slots s.next).stubList then s.connStubList ++ [s.next] else s.connStubList)
    (hnew : (s'.slots s.next).stubList = false →
      s.findConn (s'.slots s.next).conn.addr = none) : Enrolled K s' := by
  have hslot : ∀ j ∈ s.connList, s'.slots j = s.slots j := fun j hj =>
    hold j (ne_of_mem_of_not_mem hj h.toListing.next_notMem.1)
  have haddrs : (s.connList.map fun i => (s'.slots i).conn.addr) =
      s.connList.map fun i => (s.slots i).conn.addr :=
    map_congr_left fun j hj => by rw [hslot j hj]
  have hmem : ∀ j ∈ s'.connList, j ∈ s.connList ∨ j = s.next ∧ (s'.slots j).stubList = false := by
    intro j hj
    rw [hconn] at hj
    split at hj
    · exact .inl hj
    · rename_i hflag
      refine (mem_append.mp hj).imp_right fun hj => ?_
      rw [mem_singleton.mp hj]
      exact ⟨rfl, Bool.eq_false_iff.mpr hflag⟩
  refine ⟨hlist, ?_, ?_, ?_, ?_, ?_⟩
  · intro j hj
    rcases hmem j hj with hj | ⟨rfl, -⟩
    · rw [hslot j hj]
      exact h.connLive j hj
    · exact hfreed
  · intro j hj
    rcases hmem j hj with hj | ⟨-, hflag⟩
    · rw [hslot j hj]
      exact h.connFlag j hj
    · exact hflag
  · intro j hlive hflag
    by_cases hj : j = s.next
    · subst hj
      simp [hconn, hflag]
    · rw [hold j hj] at hlive hflag
      rw [hconn]
      split <;> simp [h.onConn j hlive hflag]
  · intro j hlive hflag
    by_cases hj : j = s.next
    · subst hj
      simp [hstub, hflag]
    · rw [hold j hj] at hlive hflag ⊢
      refine (h.onStub j hlive hflag).imp_left fun hj => ?_
      rw [hstub]
      split <;> simp [hj]
  · rw [hconn]
    split
    · rw [haddrs]
      exact h.addrs
    · rename_i hflag
      rw [map_append, haddrs, map_singleton]
      refine nodup_append.mpr ⟨h.addrs, nodup_singleton _, ?_⟩
      rintro b hb b' hb' rfl
      obtain ⟨j, hj, rfl⟩ := mem_map.mp hb
      have hnone := find?_eq_none.mp (hnew (Bool.eq_false_iff.mpr hflag)) j hj
      exact hnone (beq_iff_eq.mpr (mem_singleton.mp hb'))

theorem Enrolled.addConn (hnew : s.findConn c.addr = none) (parent : Option Nat) :
    Enrolled K (s.addConn c parent) := by
  refine h.add (h.toListing.addConn c parent) ?_ (fun _ => addConn_old) ?_ ?_ ?_ <;>
    rw [addConn_new]
  · rfl
  · rfl
  · exact fun _ => hnew

theorem Enrolled.addStub (hs : c.state = .listen) : Enrolled K (s.addStub c) := by
  refine h.add (h.toListing.addStub hs) ?_ (fun _ => addStub_old) ?_ ?_ ?_ <;>
    rw [addStub_new]
  · rfl
  · rfl
  · exact fun hflag => absurd hflag Bool.noConfusion

theorem Enrolled.closeStub (hK : K) (hw : AllWriting s) (hi : i ∈ s.connStubList) (ff : Fcf) :
    Enrolled K (({ s with connStubList := s.connStubList.erase i } : TcpModule).close md i ff) := by
  generalize hs1 : ({ s with connStubList := s.connStubList.erase i } : TcpModule) = s1
  have hslots : s1.slots = s.slots := by rw [← hs1]
  have hlist1 : Listing s1 := hs1 ▸ h.toListing.eraseStub i
  have hgone : i ∉ s1.connStubList := by
    rw [← hs1]
    exact h.toListing.erased
  have hclosed : ((s1.act md i (.close ff)).slots i).conn.runningFlag = false := by
    rw [act_self, hslots, Slot.act_live (h.stubLive i hi)]
    exact tcpClose_stops (h.stubListen i hi) ff
  have hact : ∀ j, (s.slots j).Framed ((s1.act md i (.close ff)).slots j) := by
    intro j
    have hw1 : AllWriting s1 := fun j => by
      rw [hslots]
      exact hw j
    rw [← hslots]
    exact act_framed hw1 (by simp) j
  have hclose : ∀ j, ((s1.act md i (.close ff)).slots j).Framed ((s1.close md i ff).slots j) := by
    intro j
    simp only [TcpModule.close]
    split
    · exact shutdownAll_framed md _ j
    · exact .refl _
  have hlists : (s1.close md i ff).connList = s.connList ∧
      (s1.close md i ff).connStubList = s.connStubList.erase i := by
    rw [← hs1]
    simp only [TcpModule.close]
    split <;> exact ⟨rfl, rfl⟩
  refine h.of_framed (hlist1.close hgone ff) (fun j _ => (hact j).trans (hclose j))
    (hlists.1 ▸ Sublist.refl _) (fun j hj _ => hlists.1.symm ▸ hj) fun j hj _ => ?_
  by_cases hji : j = i
  · rw [hji]
    exact .inr ⟨hK, (hclose i).stopped hclosed⟩
  · rw [hlists.2]
    exact .inl ((mem_erase_of_ne hji).mpr hj)

theorem Enrolled.exit : Enrolled K (tcpMainExit s md i) := by
  have hother : ∀ j, ((tcpMainExit s md i).slots j).freed = false → j ≠ i := by
    rintro j hlive rfl
    rw [tcpMainExit_freed] at hlive
    cases hlive
  refine h.of_framed h.toListing.exit (fun j hj => tcpMainExit_framed ?_) ?_ ?_ ?_
  · -- the list that the flag names is the one that holds the connection
    rcases hj with hlive | hmem
    · exact hother j hlive
    rw [tcpMainExit_connList] at hmem
    rintro rfl
    split at hmem
    · rename_i hflag
      rw [h.connFlag j hmem] at hflag
      cases hflag
    · exact h.connNodup.not_mem_erase hmem
  · rw [tcpMainExit_connList]
    split
    · exact Sublist.refl _
    · exact erase_sublist
  · intro j hj hlive
    rw [tcpMainExit_connList]
    split
    · exact hj
    · exact (mem_erase_of_ne (hother j hlive)).mpr hj
  · intro j hj hlive
    rw [tcpMainExit_connStubList]
    split
    · exact .inl ((mem_erase_of_ne (hother j hlive)).mpr hj)
    · exact .inl hj

theorem Enrolled.recv (hw : AllWriting s) (seg : TcpSeg) (rand : UInt32) :
    Enrolled K (s.recv md i seg rand) := by
  have hact : Enrolled K (s.act md i (.recv seg (s.recvEnv i seg rand))) :=
    h.act hw (by simp) (.inl rfl)
  simp only [TcpModule.recv]
  split
  · exact h
  split
  · rename_i htakes
    refine hact.addConn ?_ (some i)
    simp only [TcpConn.takesChild, Bool.and_eq_true, Bool.not_eq_true'] at htakes
    have hnone : s.findConn seg.target = none := by
      simpa only [TcpModule.recvEnv, Option.isSome_eq_false_iff, Option.isNone_iff_eq_none]
        using htakes.1.2
    apply find?_eq_none.mpr
    intro j hj
    rw [(act_framed hw (by simp) j).addr, tcpListenChild_addr]
    exact find?_eq_none.mp hnone j hj
  split
  · split
    · exact hact.act hw.act (by simp) (.inl rfl)
    · exact hact
  · exact hact

theorem Enrolled.step (hw : AllWriting s) (e : ModuleEvent) (hpromotes : s.promotes e.op = false)
    (hcloses : s.closesStub e.op → K) : Enrolled K (stepModule s e) := by
  have hgive : ∀ r, Enrolled K (s.give r) := fun r => h.congr rfl rfl rfl rfl
  have hmove := stepModule_move s e
  generalize stepModule s e = s' at hmove ⊢
  cases hmove with
  | noted out given => exact h.congr rfl rfl rfl rfl
  | single given i ha =>
    have hgiven : Enrolled K { s with given := given } := h.congr rfl rfl rfl rfl
    refine hgiven.act hw ?_ (.inl (Action.single_keepsListen ha))
    rintro _ _ rfl
    cases ha
  | recv hparsed rand hi => exact h.recv hw _ rand
  | close hi ff => exact (hgive _).close hw (h.toListing.conn_not_stub hi) ff
  | closeStub hop hi =>
    have hK : K := hcloses (by rw [hop]; exact Option.isSome_of_eq_some hi)
    exact (hgive _).closeStub hK hw (findStub_mem hi).1 _
  | listen hostIp hostPort backlog => exact h.addStub rfl
  | accept hi ff => exact (hgive _).accept hw ff
  | promote hop hnone hroom hp => simp [TcpModule.promotes, hop, hnone, hroom, hp] at hpromotes
  | connect hnone ff rand =>
    refine (hgive _).addConn ?_ none
    exact hnone
  | exit hop hlive hpc => exact h.exit

end

/-! ### Runs -/

structure Registry (K : Prop) (s : TcpModule) : Prop where
  enrolled : Enrolled K s
  speech : Each (fun x => Speech x.conn) s
  addressed : Each (fun x => Addressed x.conn) s

theorem Registry.writing (h : Registry K s) : AllWriting s := fun i => (h.speech i).writing

theorem Registry.step (h : Registry K s) (e : ModuleEvent) (hpromotes : s.promotes e.op = false)
    (hcloses : s.closesStub e.op → K) : Registry K (stepModule s e) := by
  have hspeech : Each (fun x => Speech x.conn) (stepModule s e) :=
    stepModule_eachConn (fun _ e hc hp => hc.step e hp) (fun _ hc => initial_speech hc)
      h.enrolled.toListing h.speech e
  refine ⟨h.enrolled.step h.writing e hpromotes hcloses, hspeech, ?_⟩
  -- the two facts about one connection go together
  have hboth : Each (fun x => Speech x.conn ∧ Addressed x.conn) (stepModule s e) := by
    refine stepModule_each (P := False) ?_ ?_ h.enrolled.toListing
      (fun i => ⟨h.speech i, h.addressed i⟩) e ?_ (fun _ _ _ _ _ hx _ => hx)
    · intro x md a hx hp
      simp only [Slot.act]
      split
      · exact hx
      · refine ⟨hx.1.step _ hp.parsed, step_addressed hx.2 hx.1 ?_ ?_⟩
        · rintro remIp remPort rfl
          exact hp
        · rintro seg env rfl
          exact hp.2
    · exact fun c _ _ hc => ⟨initial_speech hc, initial_addressed hc⟩
    · simp [hpromotes]
  exact fun i => (hboth i).2

theorem Registry.initially (md : TcpData) : Registry K (TcpModule.initial md) := by
  refine ⟨⟨initial_listing md, ?_, ?_, ?_, ?_, nodup_nil⟩, fun _ => initial_speech (.fresh md _),
    fun _ => initial_addressed (.fresh md _)⟩
  · intro i hi
    cases hi
  · intro i hi
    cases hi
  · intro i hlive
    cases hlive
  · intro i hlive
    cases hlive

theorem Registry.registered (h : Registry False s) : Registered s := by
  have hen := h.enrolled
  constructor
  · intro i hlive
    cases hflag : (s.slots i).stubList with
    | true =>
      have hi := (hen.onStub i hlive hflag).resolve_right fun hk => hk.1
      exact .inr ⟨hi, hen.apart i hi⟩
    | false =>
      have hi := hen.onConn i hlive hflag
      exact .inl ⟨hi, hen.conn_not_stub hi⟩
  · intro i hlive
    exact ⟨hen.stubFlag i, fun hflag => (hen.onStub i hlive hflag).resolve_right fun hk => hk.1⟩
  · intro i hfreed
    constructor
    · intro hi
      rw [hen.connLive i hi] at hfreed
      cases hfreed
    · intro hi
      rw [hen.stubLive i hi] at hfreed
      cases hfreed
  · exact hen.addrs
  · exact fun i _ => h.addressed i

theorem TcpModule.promote_after (md : TcpData) (h : Listing s) {p : Nat} (hp : p ∈ s.connStubList)
    (addr : ConnAddr) (ff : Fcf) (rand : UInt32) :
    ((s.promote md p addr ff rand).slots p).freed = false ∧
      ((s.promote md p addr ff rand).slots p).stubList = true ∧
      (s.promote md p addr ff rand).connStubList = s.connStubList.erase p := by
  simp only [TcpModule.promote, h.stubLive p hp, h.stubListen p hp, Bool.not_false, Bool.true_and,
    if_true]
  split
  · have hshut := shutdownAll_framed md
      (s := { s with connStubList := s.connStubList.erase p }) (s.slots p).conn.backlog p
    simp only [act_self, Slot.act_isFreed, Slot.act_stubList]
    exact ⟨hshut.freed.trans (h.stubLive p hp), hshut.flag.trans (h.stubFlag p hp), rfl⟩
  · have hold : (({ s with connStubList := s.connStubList.erase p } : TcpModule).connectNew md addr
        ff rand).slots p = s.slots p :=
      addConn_old (Nat.ne_of_lt (h.stubBound p hp))
    rw [hold]
    exact ⟨h.stubLive p hp, h.stubFlag p hp, rfl⟩

theorem TcpModule.close_after (md : TcpData) (hlive : (s.slots i).freed = false) (ff : Fcf) :
    ((s.close md i ff).slots i).freed = false ∧
      ((s.close md i ff).slots i).stubList = (s.slots i).stubList ∧
      (s.close md i ff).connStubList = s.connStubList := by
  simp only [TcpModule.close]
  split
  · have hshut := shutdownAll_framed md (s := s.act md i (.close ff))
      (s.slots i).conn.backlog i
    rw [hshut.freed, hshut.flag, act_self, Slot.act_isFreed, Slot.act_stubList]
    exact ⟨hlive, rfl, rfl⟩
  · rw [act_self, Slot.act_isFreed, Slot.act_stubList]
    exact ⟨hlive, rfl, rfl⟩

theorem Registered.orderly (h : Listing s) {e : ModuleEvent} (hr : Registered (stepModule s e)) :
    Orderly s e := by
  obtain ⟨md, op⟩ := e
  have hgive : ∀ r, Listing (s.give r) := fun r => h.congr rfl rfl rfl rfl
  constructor
  · cases op with
    | connect addr ff rand =>
      apply Bool.eq_false_iff.mpr
      intro hpromotes
      simp only [TcpModule.promotes, Bool.and_eq_true, Option.isNone_iff_eq_none,
        Option.isSome_iff_exists] at hpromotes
      obtain ⟨⟨hnone, hroom⟩, p, hfind⟩ := hpromotes
      have hstep : stepModule s ⟨md, .connect addr ff rand⟩ =
          (s.give (.fcf ff)).promote md p addr ff rand := by
        have hconn : (s.give (.fcf ff)).findConn addr = none := hnone
        have hspace : (s.give (.fcf ff)).hasRoom := hroom
        have hstub : (s.give (.fcf ff)).findStub addr.hostIp addr.hostPort = some p := hfind
        simp only [stepModule, tcpExecConnect, hconn, hspace, hstub, if_true]
      rw [hstep] at hr
      obtain ⟨hlive, hflag, hlist⟩ :=
        promote_after md (hgive (.fcf ff)) (findStub_mem hfind).1 addr ff rand
      have hmem := (hr.flag p hlive).mpr hflag
      rw [hlist] at hmem
      exact h.erased hmem
    | _ => rfl
  · cases op with
    | closeStub hostIp hostPort ff =>
      apply Bool.eq_false_iff.mpr
      intro hcloses
      obtain ⟨i, hfind⟩ := Option.isSome_iff_exists.mp hcloses
      have hmem := (findStub_mem hfind).1
      have hstep : stepModule s ⟨md, .closeStub hostIp hostPort ff⟩ =
          ({ s.give (.fcf ff) with connStubList := s.connStubList.erase i } : TcpModule).close md i
            ff := by
        have hstub : (s.give (.fcf ff)).findStub hostIp hostPort = some i := hfind
        simp only [stepModule, tcpExecCloseStub, hstub]
        rfl
      rw [hstep] at hr
      obtain ⟨hlive, hflag, hlist⟩ := close_after md
        (s := { s.give (.fcf ff) with connStubList := s.connStubList.erase i })
        (h.stubLive i hmem) ff
      have hstays := (hr.flag i hlive).mpr (hflag.trans (h.stubFlag i hmem))
      rw [hlist] at hstays
      exact h.erased hstays
    | _ => rfl

/-- **The registry is right in every state of a run exactly if no step connects or closes a
    listener.** -/
theorem registered_iff_orderly (md : TcpData) (es : List ModuleEvent) :
    Steps stepModule Orderly (TcpModule.initial md) es ↔
      ∀ es₁, es₁ <+: es → Registered (runModule (TcpModule.initial md) es₁) := by
  apply steps_iff_everywhere (I := Registry False)
  · exact fun s e h he => h.step e he.1 fun hcloses => by simp [he.2] at hcloses
  · exact fun s h => h.registered
  · exact fun s e h hr => Registered.orderly h.enrolled.toListing hr
  · exact Registry.initially md

/-- **Without a listener that is connected** what is on no list is a listener that was stopped,
    and no freed connection is on a list. -/
theorem enrolled_unless_promoted (md : TcpData) {es : List ModuleEvent}
    (h : Steps stepModule (fun s e => s.promotes e.op = false) (TcpModule.initial md) es) :
    Registry True (runModule (TcpModule.initial md) es) :=
  run_invariant_of_steps (fun _ e hs he => hs.step e he fun _ => trivial)
    (Registry.initially md) h

/-- A listener is closed, and its main thread ends. -/
theorem enrolled_unless_promoted_closed :
    Registry True (runModule (TcpModule.initial sampleData) [sampleListen,
      sampleOp (.closeStub 1 10 ⟨1, 2⟩), sampleOp (.own 0 (.main 0)), sampleOp (.exit 0)]) :=
  enrolled_unless_promoted sampleData (by decide +kernel)

def promotedStub : TcpModule :=
  runModule sampleModule [sampleListen, sampleOp (.connect ⟨1, 10, 2, 20⟩ ⟨1, 1⟩ 100)]

def promotedEnd : TcpModule :=
  runModule promotedStub
    [sampleOp (.close ⟨1, 10, 2, 20⟩ ⟨1, 2⟩), sampleOp (.own 0 (.main 0)), sampleOp (.exit 0)]

set_option maxRecDepth 4000 in
/-- **The registry is wrong after such a `connect`**: what is freed stays on `conn_list`. -/
theorem registry_wrong :
    ((promotedStub.slots 0).freed = false ∧ 0 ∈ promotedStub.connList ∧
        (promotedStub.slots 0).stubList = true ∧
        (promotedStub.slots 0).conn.ackSeg.addr ≠ (promotedStub.slots 0).conn.addr) ∧
      ((promotedEnd.slots 0).freed = true ∧ 0 ∈ promotedEnd.connList) ∧
      ¬ Registered promotedStub ∧ ¬ Registered promotedEnd := by
  have hstub : (promotedStub.slots 0).freed = false ∧ 0 ∈ promotedStub.connList ∧
      (promotedStub.slots 0).stubList = true ∧
      (promotedStub.slots 0).conn.ackSeg.addr ≠ (promotedStub.slots 0).conn.addr := by
    decide +kernel
  have hend : (promotedEnd.slots 0).freed = true ∧ 0 ∈ promotedEnd.connList := by decide +kernel
  refine ⟨hstub, hend, fun h => ?_, fun h => ?_⟩
  · exact hstub.2.2.2 (h.segments 0 hstub.1).ackSeg
  · exact (h.freed 0 hend.1).1 hend.2

end FinsStack.Tcp
