import Mathlib.Algebra.BigOperators.Group.Finset.Basic
import FinsStack.Tcp.ModuleView

/-!
# Every request is answered once or held once

A `connect`, `accept`, `close` or `send` frame is owned by the module from the moment it is
given to it.  The law is a count: every request was given as often as it was answered and is
held, in `ff` or on `request_queue` of a connection that was not freed.

The code keeps the law only along the paths that its authors finished.  A `close` for an
unknown connection or for one that is already closing, an `accept` while another one waits, a
`connect` to a known address or with a full list, a `send` on an unknown connection and
everything a connection still holds when it is freed are lost (`request_lost`).  These are all
the ways: without them the law holds in every state (`requests_answered_or_held`).
-/

namespace FinsStack.Tcp

open TcpModule List Function Lib

def Slot.held (x : Slot) : List Request := if x.freed then [] else x.conn.held

def TcpModule.answered (s : TcpModule) : List Request :=
  s.out.filterMap Out.answers ++ (range s.next).flatMap fun i => (s.slots i).conn.answered

def TcpModule.held (s : TcpModule) : List Request :=
  (range s.next).flatMap fun i => (s.slots i).held

/-- The step answers the request or keeps it, and loses none that is held. -/
def TcpModule.accounts (s : TcpModule) : ModuleOp → Bool
  | .segment _ _ _ | .listen _ _ _ | .own _ _ => true
  | .write a _ _ _ => (s.findConn a).any fun i => !(s.slots i).freed
  | .close a _ =>
    (s.findConn a).any fun i => !(s.slots i).freed && (s.slots i).conn.answersClose
  | .closeStub hostIp hostPort _ =>
    (s.findStub hostIp hostPort).any fun i => (s.slots i).conn.answersClose
  | .accept hostIp hostPort _ =>
    (s.findStub hostIp hostPort).all fun i =>
      !((s.slots i).conn.runningFlag && (s.slots i).conn.ff.isSome)
  | .connect a _ _ => (s.findConn a).isNone && s.hasRoom
  | .poll connected a _ _ _ | .fcf connected a _ _ =>
    (s.find connected a).all fun i => !(s.slots i).freed
  | .exit i => (s.slots i).held.isEmpty || (s.slots i).conn.mainPc != .done

def Accounts (s : TcpModule) (e : ModuleEvent) : Prop := s.accounts e.op = true
deriving Decidable

/-! ### Counting -/

variable {s : TcpModule} {md : TcpData} {i : Nat} {a : Action} {r : Request}

def Slot.account (x : Slot) (r : Request) : Nat := x.conn.answered.count r + x.held.count r

def TcpModule.account (s : TcpModule) (r : Request) : Nat := s.answered.count r + s.held.count r

theorem Slot.account_live {x : Slot} (h : x.freed = false) : x.account r = x.conn.account r := by
  simp only [Slot.account, Slot.held, h, Bool.false_eq_true, if_false, TcpConn.account]

theorem count_flatMap_range (n : Nat) (f : Nat → List Request) :
    ((range n).flatMap f).count r = ∑ i ∈ Finset.range n, (f i).count r := by
  rw [count_flatMap]
  rfl

theorem TcpModule.account_eq_sum : s.account r =
    (s.out.filterMap Out.answers).count r + ∑ i ∈ Finset.range s.next, (s.slots i).account r := by
  simp only [TcpModule.account, TcpModule.answered, TcpModule.held, count_append,
    count_flatMap_range, Slot.account, Finset.sum_add_distrib]
  omega

theorem TcpModule.account_set (hi : i < s.next) (x : Slot) :
    ({ s with slots := update s.slots i x } : TcpModule).account r +
      (s.slots i).account r = s.account r + x.account r := by
  have hmem : i ∈ Finset.range s.next := Finset.mem_range.mpr hi
  have hold := Finset.add_sum_erase _ (fun j => (s.slots j).account r) hmem
  have hnew := Finset.add_sum_erase _ (fun j => (update s.slots i x j).account r) hmem
  have hrest : ∑ j ∈ (Finset.range s.next).erase i, (update s.slots i x j).account r =
      ∑ j ∈ (Finset.range s.next).erase i, (s.slots j).account r := by
    apply Finset.sum_congr rfl
    intro j hj
    rw [update_of_ne (Finset.ne_of_mem_erase hj)]
  simp only [update_self] at hnew
  simp only [account_eq_sum]
  omega

section

variable (h : Listing s) (hlive : (s.slots i).freed = false)
include h hlive

theorem TcpModule.account_act_add {n m : Nat}
    (ha : (step (s.slots i).conn ⟨md, a⟩).account r + n = (s.slots i).conn.account r + m) :
    (s.act md i a).account r + n = s.account r + m := by
  have hset := account_set (r := r) (h.live_lt hlive) ((s.slots i).act md a)
  have hnew : ((s.slots i).act md a).account r + n = (s.slots i).account r + m := by
    rw [Slot.account_live (by rw [Slot.act_isFreed, hlive]), Slot.account_live hlive,
      Slot.act_live hlive, ha]
  simp only [TcpModule.act]
  omega

theorem TcpModule.account_act (rs : List Request)
    (ha : (step (s.slots i).conn ⟨md, a⟩).account r = (s.slots i).conn.account r + rs.count r) :
    (s.act md i a).account r = s.account r + rs.count r :=
  account_act_add (n := 0) h hlive ha

theorem TcpModule.account_takes
    {rs : List Request} (ha : Takes rs (s.slots i).conn (step (s.slots i).conn ⟨md, a⟩)) :
    (s.act md i a).account r = s.account r + rs.count r :=
  account_act h hlive rs (ha.account r)

end

theorem Slot.account_calm {x : Slot} (h : Calm x.conn (step x.conn ⟨md, a⟩)) :
    (x.act md a).account r = x.account r := by
  cases hx : x.freed with
  | true => rw [Slot.act_freed hx]
  | false =>
    rw [Slot.account_live (by rw [Slot.act_isFreed, hx]), Slot.account_live hx, Slot.act_live hx]
    exact h.account r

theorem TcpModule.account_shutdownAll (l : List Nat) :
    (s.shutdownAll md l).account r = s.account r := by
  simp only [account_eq_sum, TcpModule.shutdownAll]
  congr 1
  apply Finset.sum_congr rfl
  intro j _
  split
  · exact Slot.account_calm (tcpConnShutdown_view .calm _)
  · rfl

theorem sum_account_new (n : Nat) (f : Nat → Slot) (x : Slot) :
    ∑ j ∈ Finset.range (n + 1), (update f n x j).account r =
      ∑ j ∈ Finset.range n, (f j).account r + x.account r := by
  rw [Finset.sum_range_succ, update_self]
  congr 1
  apply Finset.sum_congr rfl
  intro j hj
  rw [update_of_ne (Nat.ne_of_lt (Finset.mem_range.mp hj))]

theorem TcpModule.account_addConn (c : TcpConn) (parent : Option Nat) :
    (s.addConn c parent).account r = s.account r + c.account r := by
  have hx : (⟨c, false, parent, false⟩ : Slot).account r = c.account r := Slot.account_live rfl
  simp only [account_eq_sum, TcpModule.addConn, sum_account_new]
  omega

theorem TcpModule.account_addStub (c : TcpConn) :
    (s.addStub c).account r = s.account r + c.account r := by
  have hx : (⟨c, true, none, false⟩ : Slot).account r = c.account r := Slot.account_live rfl
  simp only [account_eq_sum, TcpModule.addStub, sum_account_new]
  omega

theorem TcpModule.account_send (ff : Fcf) (retVal retMsg : UInt32) :
    (s.send (.reply ff retVal retMsg)).account r = s.account r + [Request.fcf ff].count r := by
  simp only [account_eq_sum, TcpModule.send, filterMap_append, count_append]
  simp only [filterMap_cons, Out.answers, filterMap_nil]
  omega

/-! ### Calls that move a request -/

section

variable {c : TcpConn} {ff : Fcf}

theorem tcpAccept_account (h : (c.runningFlag && c.ff.isSome) = false) :
    (tcpAccept c ff none).account r = c.account r + [Request.fcf ff].count r := by
  simp only [tcpAccept]
  split
  · rename_i hrun
    have hff : c.ff = none := by simpa [hrun] using h
    split
    · simp only [hff, TcpConn.account, TcpConn.answered, TcpConn.held, Option.toList, map_cons,
        map_nil, count_append, count_nil]
      omega
    · exact (Takes.reply c ff FCF_FALSE 0).account r
  · exact (Takes.reply c ff FCF_FALSE 1).account r

theorem tcpAccept_found {d : Nat} (hrun : c.runningFlag) (hs : c.state = .listen)
    (hff : c.ff = none) (hd : d ∈ c.backlog) :
    tcpAccept c ff (some d) = { c with backlog := c.backlog.erase d } := by
  have hne : c.backlog ≠ [] := ne_nil_of_mem hd
  simp only [tcpAccept, hrun, hs, hff, hne, if_true, if_false]

theorem tcpConnSearch_account (hrun : c.runningFlag) (hs : c.state = .established)
    (hsignaled : c.signaled = false) :
    (tcpConnSearch c ff).account r = c.account r + [Request.fcf ff].count r := by
  have hout : (tcpConnSearch c ff).out = c.out ++ [.connReply ff c.addr c.state FCF_TRUE 0] := by
    simp only [tcpConnSearch, hrun, hs, hsignaled, and_self, if_true]
  have hheld : (tcpConnSearch c ff).held = c.held := by
    simp only [tcpConnSearch, hrun, hs, hsignaled, and_self, if_true]
    rfl
  simp only [TcpConn.account, answered_append hout, hheld, count_append, filterMap_cons,
    Out.answers, filterMap_nil]
  omega

theorem tcpStubConnect_account (hs : c.state = .listen) (remIp : UInt32) (remPort : UInt16) :
    (tcpStubConnect c remIp remPort).account r = c.account r := by
  simp only [tcpStubConnect, if_pos hs]
  split
  · split
    · rename_i ff hff
      simp only [TcpConn.account, TcpConn.answered, TcpConn.held, hff, filterMap_append,
        filterMap_cons, Out.answers, filterMap_nil, Option.toList, map_cons,
        map_nil, count_append, count_nil]
      omega
    · rfl
  · rfl

theorem tcpStubConnect_ff (hs : c.state = .listen) (remIp : UInt32) (remPort : UInt16)
    (hrun : (tcpStubConnect c remIp remPort).runningFlag) :
    (tcpStubConnect c remIp remPort).ff = none := by
  simp only [tcpStubConnect, if_pos hs] at hrun ⊢
  split
  · split
    · rfl
    · assumption
  · rename_i hstopped
    rw [if_neg hstopped] at hrun
    exact absurd hrun hstopped

theorem tcpConnect_account (hs : c.state = .closed ∨ c.state = .listen)
    (hff : c.runningFlag → c.ff = none) (rand : UInt32) :
    (tcpConnect c ff rand).account r = c.account r + [Request.fcf ff].count r := by
  cases hrun : c.runningFlag with
  | true => exact (tcpConnect_connects ff rand hrun hs (hff hrun)).account r
  | false =>
    simp only [tcpConnect, hrun, Bool.false_eq_true, if_false]
    exact (Takes.reply c ff FCF_FALSE 1).account r

theorem childAccepted_account (child : Nat) (hrun : c.runningFlag) (hs : c.state = .listen)
    (hff : c.ff = some ff) :
    (childAccepted c child).account r + [Request.fcf ff].count r = c.account r := by
  simp only [childAccepted, hrun, hs, hff, Option.isSome_some, and_self, if_true, TcpConn.account,
    TcpConn.answered, TcpConn.held, Option.toList, map_cons, map_nil, count_append,
    count_nil]
  omega

end

theorem tcpConnCreate_account (addr : ConnAddr) : (tcpConnCreate md addr).account r = 0 := rfl

theorem tcpListenChild_account (parent : TcpConn) (seg : TcpSeg) (rand : UInt32) :
    (tcpListenChild md parent seg rand).account r = 0 := by
  obtain ⟨o, a, ack, h⟩ := tcpListenChild_frame md parent seg rand
  rw [h]
  rfl

/-! ### The handlers -/

section

variable (h : Listing s)
include h

theorem TcpModule.account_close {ff : Fcf} (hlive : (s.slots i).freed = false)
    (hanswers : (s.slots i).conn.answersClose) :
    (s.close md i ff).account r = s.account r + [Request.fcf ff].count r := by
  have htakes := tcpClose_takes (s.slots i).conn ff
  rw [hanswers, if_pos rfl] at htakes
  have hact : (s.act md i (.close ff)).account r = s.account r + [Request.fcf ff].count r :=
    account_takes h hlive htakes
  simp only [TcpModule.close]
  split
  · rw [account_shutdownAll]
    exact hact
  · exact hact

theorem TcpModule.account_accept {ff : Fcf} (hlive : (s.slots i).freed = false)
    (hidle : ((s.slots i).conn.runningFlag && (s.slots i).conn.ff.isSome) = false) :
    (s.accept md i ff).account r = s.account r + [Request.fcf ff].count r := by
  have hplain : (s.act md i (.accept ff none)).account r = s.account r + [Request.fcf ff].count r :=
    account_act h hlive _ (tcpAccept_account hidle)
  simp only [TcpModule.accept]
  split
  · rename_i hlistens
    simp only [Slot.listens, Bool.and_eq_true, beq_iff_eq, Option.isNone_iff_eq_none] at hlistens
    obtain ⟨⟨⟨-, hrun⟩, hs⟩, hff⟩ := hlistens
    split
    · rename_i d hfind
      have hready := find?_some hfind
      simp only [Slot.ready, Bool.and_eq_true, Bool.not_eq_true', beq_iff_eq] at hready
      obtain ⟨⟨⟨hdlive, hdrun⟩, hdopen⟩, hdsignaled⟩ := hready
      have hne : i ≠ d := by
        rintro rfl
        rw [hs] at hdopen
        cases hdopen
      -- the child answers, the listener forgets it
      have hchild : (s.act md d (.search ff)).account r = s.account r + [Request.fcf ff].count r :=
        account_act h hdlive _ (tcpConnSearch_account hdrun hdopen hdsignaled)
      have hkeep : Listing (s.act md d (.search ff)) := h.act (.inl rfl)
      have hslot : (s.act md d (.search ff)).slots i = s.slots i := act_other hne
      rw [account_act hkeep (hslot ▸ hlive) [], hchild]
      · simp only [count_nil, Nat.add_zero]
      · rw [hslot]
        simp only [step, tcpAccept_found hrun hs hff (mem_of_find?_eq_some hfind)]
        rfl
    · exact hplain
  · exact hplain

theorem TcpModule.account_promote {ff : Fcf} (hi : i ∈ s.connStubList) (addr : ConnAddr)
    (rand : UInt32) :
    (s.promote md i addr ff rand).account r = s.account r + [Request.fcf ff].count r := by
  have hs := h.stubListen i hi
  have hlive := h.stubLive i hi
  simp only [TcpModule.promote, hlive, hs, Bool.not_false, Bool.true_and, if_true]
  split
  · -- the backlog is stopped, then the stub is connected
    have hshut := (h.eraseStub i).shutdownAll md (s.slots i).conn.backlog
    generalize hs1 : ({ s with connStubList := s.connStubList.erase i } : TcpModule).shutdownAll md
      (s.slots i).conn.backlog = s1 at hshut
    have hacc : s1.account r = s.account r := by
      rw [← hs1, account_shutdownAll]
      rfl
    have hlive1 : (s1.slots i).freed = false := by
      rw [← hs1]
      simp only [TcpModule.shutdownAll]
      split
      · rw [Slot.act_isFreed, hlive]
      · exact hlive
    have hs1 : (s1.slots i).conn.state = .listen := by
      rw [← hs1]
      simp only [TcpModule.shutdownAll]
      split
      · exact Slot.act_listen hs rfl
      · exact hs
    have hstub : (s1.act md i (.stubConnect addr.remIp addr.remPort)).account r = s.account r := by
      rw [← hacc]
      exact account_act hshut hlive1 [] (tcpStubConnect_account hs1 _ _)
    rw [← hstub]
    apply account_act (hshut.act (.inl rfl))
    · rw [act_self, Slot.act_isFreed, hlive1]
    · rw [act_self, Slot.act_live hlive1]
      have hlisten : (tcpStubConnect (s1.slots i).conn addr.remIp addr.remPort).state = .listen :=
        (tcpStubConnect_tells _ _ _).state.trans hs1
      exact tcpConnect_account (.inr hlisten) (tcpStubConnect_ff hs1 _ _) rand
  · have hnew := account_addConn (s := { s with connStubList := s.connStubList.erase i })
      (r := r) (tcpConnect (tcpConnCreate md addr) ff rand) none
    rw [tcpConnect_account (.inl rfl) (fun _ => rfl), tcpConnCreate_account, Nat.zero_add] at hnew
    exact hnew

theorem TcpModule.account_recv (hempty : ∀ j, (s.slots j).freed → (s.slots j).conn.held = [])
    (seg : TcpSeg) (rand : UInt32) : (s.recv md i seg rand).account r = s.account r := by
  cases hlive : (s.slots i).freed with
  | true => simp only [TcpModule.recv, hlive, if_true]
  | false =>
    generalize hs' : s.recv md i seg rand = s'
    have hcases := recv_cases md hlive seg rand
    rw [hs'] at hcases
    cases hcases with
    | calm hcalm => exact account_takes h hlive hcalm
    | child hrun hs hnew hroom hc =>
      rw [account_addConn, tcpListenChild_account]
      apply account_act h hlive []
      rw [hc]
      rfl
    | own d ff o hs hopen hshared hd hff hanswers hreturns hc =>
      apply account_act h hlive []
      rw [hc, ← hd.account r]
      simp only [TcpConn.account, TcpConn.answered, TcpConn.held, hff, filterMap_append,
        filterMap_cons, hanswers, filterMap_nil, Option.toList, map_cons,
        map_nil, count_append, count_nil]
      omega
    | parent d p ff hs hself hopen hshared hd hnone hpassive hp hrun hlisten hff hc =>
      have hplive : (s.slots p).freed = false := by
        by_contra hfreed
        have hheld := hempty p (by simpa using hfreed)
        simp [TcpConn.held, hff] at hheld
      have hne : p ≠ i := by
        rintro rfl
        rcases hs with hs | hs <;> rw [hs] at hlisten <;> cases hlisten
      -- the child answers what the parent keeps
      have hchild : (s.act md i (.recv seg (s.recvEnv i seg rand))).account r =
          s.account r + [Request.fcf ff].count r := by
        apply account_act h hlive
        have hacc := hd.account r
        rw [hc]
        simp only [TcpConn.account, TcpConn.answered, TcpConn.held, filterMap_append,
          filterMap_cons, Out.answers, filterMap_nil, count_append,
          count_nil] at hacc ⊢
        omega
      have hkeep : Listing (s.act md i (.recv seg (s.recvEnv i seg rand))) := h.act (.inl rfl)
      have hslot : (s.act md i (.recv seg (s.recvEnv i seg rand))).slots p = s.slots p :=
        act_other hne
      have hparent : ((s.act md i (.recv seg (s.recvEnv i seg rand))).act md p
          (.childAccepted i)).account r + [Request.fcf ff].count r =
          (s.act md i (.recv seg (s.recvEnv i seg rand))).account r + 0 := by
        apply account_act_add hkeep (hslot ▸ hplive)
        rw [hslot]
        exact childAccepted_account i hrun hlisten hff
      omega

end

/-! ### The law -/

structure Settled (s : TcpModule) : Prop where
  listing : Listing s
  writing : Each (fun x => Writing 0 x.conn) s
  emptied : Each (fun x => x.freed = true → x.conn.held = []) s
  balanced : ∀ r, s.given.count r = s.account r

theorem Settled.apart (h : Settled s) (i : Nat) : RequestsApart (s.slots i).conn :=
  (h.writing i).addrs_nodup

theorem balanced_give {s' : TcpModule} {q : Request} (h : Settled s)
    (hgiven : s'.given = s.given ++ [q])
    (haccount : s'.account r = s.account r + [q].count r) : s'.given.count r = s'.account r := by
  rw [hgiven, count_append, haccount, h.balanced]

theorem TcpModule.recv_given (seg : TcpSeg) (rand : UInt32) :
    (s.recv md i seg rand).given = s.given := by
  simp only [TcpModule.recv]
  split
  · rfl
  split
  · rfl
  split
  · split <;> rfl
  · rfl

theorem TcpModule.close_given (ff : Fcf) : (s.close md i ff).given = s.given := by
  simp only [TcpModule.close]
  split <;> rfl

theorem TcpModule.accept_given (ff : Fcf) : (s.accept md i ff).given = s.given := by
  simp only [TcpModule.accept]
  split
  · split <;> rfl
  · rfl

theorem TcpModule.promote_given (addr : ConnAddr) (ff : Fcf) (rand : UInt32) :
    (s.promote md i addr ff rand).given = s.given := by
  simp only [TcpModule.promote]
  split
  · split <;> rfl
  · rfl

theorem tcpInFdf_account (h : Settled s) (seg : TcpSeg) (rand : UInt32) :
    (tcpInFdf s md seg rand).given = s.given ∧
      (tcpInFdf s md seg rand).account r = s.account r := by
  have hrecv : ∀ i, (s.recv md i seg rand).given = s.given ∧
      (s.recv md i seg rand).account r = s.account r := fun i =>
    ⟨recv_given seg rand, account_recv h.listing h.emptied seg rand⟩
  have hreset : (s.send (.seg .control (rstReply seg))).account r = s.account r := by
    simp only [account_eq_sum, TcpModule.send, filterMap_append,
      filterMap_cons, Out.answers, filterMap_nil, append_nil]
  simp only [tcpInFdf]
  split
  · exact hrecv _
  split
  · split
    · exact hrecv _
    · exact ⟨rfl, hreset⟩
  split
  · exact ⟨rfl, rfl⟩
  · exact ⟨rfl, hreset⟩

theorem tcpExecConnect_account (h : Listing s) {addr : ConnAddr} (hnew : s.findConn addr = none)
    (hroom : s.hasRoom) (ff : Fcf) (rand : UInt32) :
    (tcpExecConnect s md addr ff rand).given = s.given ∧
      (tcpExecConnect s md addr ff rand).account r = s.account r + [Request.fcf ff].count r := by
  simp only [tcpExecConnect, hnew, hroom, if_true]
  split
  · rename_i p hfind
    exact ⟨promote_given addr ff rand,
      account_promote h (findStub_mem hfind).1 addr rand⟩
  · refine ⟨rfl, ?_⟩
    have hadd := account_addConn (s := s) (r := r)
      (tcpConnect (tcpConnCreate md addr) ff rand) none
    rw [tcpConnect_account (.inl rfl) (fun _ => rfl), tcpConnCreate_account, Nat.zero_add] at hadd
    exact hadd

theorem held_of_shared {c c' : TcpConn} (h : c'.shared = c.shared) : c'.held = c.held := by
  simp only [TcpConn.shared, Prod.mk.injEq] at h
  obtain ⟨-, -, -, -, hff, hqueue⟩ := h
  simp only [TcpConn.held, hff, hqueue]

theorem tcpMainExit_account (h : Listing s) (hlive : (s.slots i).freed = false)
    (hheld : (s.slots i).held = []) :
    (tcpMainExit s md i).given = s.given ∧ (tcpMainExit s md i).account r = s.account r := by
  have hempty : (s.slots i).conn.held = [] := by
    simpa only [Slot.held, hlive, Bool.false_eq_true, if_false] using hheld
  -- the list it is taken off plays no part in the count
  generalize hs1 : (if (s.slots i).stubList then
      ({ s with connStubList := s.connStubList.erase i } : TcpModule)
    else { s with connList := s.connList.erase i }) = s1
  have hsame : s1.slots = s.slots ∧ s1.next = s.next ∧ s1.out = s.out ∧ s1.given = s.given := by
    rw [← hs1]
    split <;> exact ⟨rfl, rfl, rfl, rfl⟩
  obtain ⟨hslots, hnext, hout, hgiven⟩ := hsame
  have hacc1 : s1.account r = s.account r := by
    simp only [account_eq_sum, hslots, hnext, hout]
  generalize hs2 : s1.shutdownAll md (s.slots i).conn.backlog = s2
  have hacc2 : s2.account r = s.account r := by
    rw [← hs2, account_shutdownAll, hacc1]
  have hheld2 : (s2.slots i).held = [] := by
    have hconn : (s2.slots i).conn.held = [] := by
      rw [← hs2, held_of_shared (shutdownAll_shared md _ i), hslots, hempty]
    simp only [Slot.held, hconn, ite_self]
  have hnext2 : i < s2.next := by
    rw [← hs2]
    exact hnext ▸ h.live_lt hlive
  have hset := account_set (r := r) hnext2
    ⟨(s2.slots i).conn, (s2.slots i).stubList, (s2.slots i).parent, true⟩
  have hfreed : Slot.account ⟨(s2.slots i).conn, (s2.slots i).stubList, (s2.slots i).parent, true⟩ r
      = (s2.slots i).account r := by
    simp only [Slot.account, hheld2]
    rfl
  constructor
  · simp only [tcpMainExit, hs1]
    exact hgiven
  · rw [hfreed, hacc2] at hset
    simp only [tcpMainExit, hs1, hs2]
    exact Nat.add_right_cancel hset

theorem Listing.give (h : Listing s) (q : Request) : Listing (s.give q) :=
  h.congr rfl rfl rfl rfl

theorem give_findConn (q : Request) (a : ConnAddr) : (s.give q).findConn a = s.findConn a := rfl

theorem give_findStub (q : Request) (ip : UInt32) (port : UInt16) :
    (s.give q).findStub ip port = s.findStub ip port := rfl

theorem give_find (q : Request) (connected : Bool) (a : ConnAddr) :
    (s.give q).find connected a = s.find connected a := rfl

theorem stepModule_fcf_balanced (h : Settled s) {connected : Bool} {addr : ConnAddr} {op : FcfOp}
    (hcond : Accounts s ⟨md, .fcf connected addr ff op⟩) (r : Request) :
    let s' := stepModule s ⟨md, .fcf connected addr ff op⟩
    s'.given.count r = s'.account r := by
  cases hfind : s.find connected addr with
  | none =>
    have hanswers : s.answersFcf connected addr op := by
      simp only [TcpModule.answersFcf, hfind]
    simp only [stepModule, hanswers, if_true, tcpFcfMatch, give_find, hfind]
    exact balanced_give h rfl (account_send ff FCF_FALSE 0)
  | some i =>
    have hlive : (s.slots i).freed = false := by
      simpa [Accounts, TcpModule.accounts, hfind] using hcond
    have htakes := tcpConnFcf_takes (s.slots i).conn ff op
    cases hun : (s.slots i).conn.runningFlag && op.unanswered with
    | true =>
      simp only [hun, if_true] at htakes
      simp only [stepModule, TcpModule.answersFcf, hfind, hun, Bool.not_true, Bool.false_eq_true,
        if_false, tcpFcfMatch]
      rw [account_takes h.listing hlive htakes]
      exact h.balanced r
    | false =>
      simp only [hun, Bool.false_eq_true, if_false] at htakes
      simp only [stepModule, TcpModule.answersFcf, hfind, hun, Bool.not_false, if_true,
        tcpFcfMatch, give_find]
      exact balanced_give h rfl (account_takes (h.listing.give _) hlive htakes)

theorem stepModule_balanced (h : Settled s) (e : ModuleEvent) (hcond : Accounts s e) (r : Request) :
    (stepModule s e).given.count r = (stepModule s e).account r := by
  obtain ⟨md, op⟩ := e
  cases op with
  | segment seg hparsed rand =>
    obtain ⟨hgiven, haccount⟩ := tcpInFdf_account (r := r) h seg rand
    simp only [stepModule]
    rw [hgiven, haccount, h.balanced]
  | write addr d flags serialNum =>
    cases hfind : s.findConn addr with
    | none => simp [Accounts, TcpModule.accounts, hfind] at hcond
    | some i =>
      have hlive : (s.slots i).freed = false := by
        simpa [Accounts, TcpModule.accounts, hfind] using hcond
      simp only [stepModule, tcpOutFdf, give_findConn, hfind]
      exact balanced_give h rfl
        (account_takes (h.listing.give _) hlive (tcpWrite_takes _ d flags serialNum))
  | close addr ff =>
    cases hfind : s.findConn addr with
    | none => simp [Accounts, TcpModule.accounts, hfind] at hcond
    | some i =>
      obtain ⟨hlive, hanswers⟩ : (s.slots i).freed = false ∧
          (s.slots i).conn.answersClose = true := by
        simpa [Accounts, TcpModule.accounts, hfind] using hcond
      simp only [stepModule, tcpExecClose, give_findConn, hfind]
      exact balanced_give h (close_given ff)
        (account_close (h.listing.give _) hlive hanswers)
  | closeStub hostIp hostPort ff =>
    cases hfind : s.findStub hostIp hostPort with
    | none => simp [Accounts, TcpModule.accounts, hfind] at hcond
    | some i =>
      have hanswers : (s.slots i).conn.answersClose := by
        simpa [Accounts, TcpModule.accounts, hfind] using hcond
      have hlive := h.listing.stubLive i (findStub_mem hfind).1
      simp only [stepModule, tcpExecCloseStub, give_findStub, hfind]
      exact balanced_give h (close_given ff)
        (account_close ((h.listing.give _).eraseStub i) hlive hanswers)
  | listen hostIp hostPort backlog =>
    simp only [stepModule, tcpExecListen]
    split
    · exact h.balanced r
    split
    · rw [account_addStub]
      exact h.balanced r
    · exact h.balanced r
  | accept hostIp hostPort ff =>
    cases hfind : s.findStub hostIp hostPort with
    | none =>
      simp only [stepModule, tcpExecAccept, give_findStub, hfind]
      exact balanced_give h rfl (account_send ff FCF_FALSE 1)
    | some i =>
      have hidle : ((s.slots i).conn.runningFlag && (s.slots i).conn.ff.isSome) = false := by
        simpa only [Accounts, TcpModule.accounts, hfind, Option.all_some, Bool.not_eq_true']
          using hcond
      have hlive := h.listing.stubLive i (findStub_mem hfind).1
      simp only [stepModule, tcpExecAccept, give_findStub, hfind]
      exact balanced_give h (accept_given ff)
        (account_accept (h.listing.give _) hlive hidle)
  | connect addr ff rand =>
    obtain ⟨hnew, hroom⟩ : s.findConn addr = none ∧ s.hasRoom := by
      simpa [Accounts, TcpModule.accounts] using hcond
    simp only [stepModule]
    obtain ⟨hgiven, haccount⟩ := tcpExecConnect_account (r := r) (h.listing.give _) hnew
      hroom ff rand
    exact balanced_give h hgiven haccount
  | poll connected addr ff initial events =>
    cases hfind : s.find connected addr with
    | none =>
      simp only [stepModule, tcpExecPoll, give_find, hfind]
      exact balanced_give h rfl (account_send ff FCF_TRUE POLLERR)
    | some i =>
      have hlive : (s.slots i).freed = false := by
        simpa [Accounts, TcpModule.accounts, hfind] using hcond
      simp only [stepModule, tcpExecPoll, give_find, hfind]
      refine balanced_give h rfl ?_
      apply account_takes (h.listing.give _) hlive
      split
      · exact tcpPoll_takes _ ff initial events
      · exact tcpPollStub_takes _ ff initial events
  | fcf connected addr ff op => exact stepModule_fcf_balanced h hcond r
  | own i own =>
    have haccount : (s.act md i own.action).account r = s.account r := by
      cases hx : (s.slots i).freed with
      | true => rw [act_freed hx]
      | false => exact account_takes h.listing hx (own_calm own (h.apart i))
    simp only [stepModule]
    rw [haccount]
    exact h.balanced r
  | exit i =>
    simp only [stepModule]
    split
    · rename_i hdone
      obtain ⟨hlive, hpc⟩ : (s.slots i).freed = false ∧ (s.slots i).conn.mainPc = .done := by
        simpa using hdone
      have hheld : (s.slots i).held = [] := by
        simpa [Accounts, TcpModule.accounts, hpc] using hcond
      obtain ⟨hgiven, haccount⟩ := tcpMainExit_account (r := r) h.listing hlive hheld
      rw [hgiven, haccount, h.balanced]
    · exact h.balanced r

theorem Settled.step (h : Settled s) (e : ModuleEvent) (hcond : Accounts s e) :
    Settled (stepModule s e) where
  listing := stepModule_listing h.listing e
  writing := stepModule_writing h.listing h.writing e
  emptied := by
    apply stepModule_each ?_ ?_ h.listing h.emptied e (fun _ => trivial)
    · intro i hexit hlive hpc x _ hshared _
      have hheld : (s.slots i).conn.held = [] := by
        simpa [Accounts, TcpModule.accounts, hexit, hpc, Slot.held, hlive] using hcond
      rw [held_of_shared hshared, hheld]
    · intro x md a hx _ hfreed
      rw [Slot.act_isFreed] at hfreed
      rw [Slot.act_freed hfreed]
      exact hx hfreed
    · intro c stub parent _ hfreed
      cases hfreed
  balanced := stepModule_balanced h e hcond

theorem Settled.initially (md : TcpData) : Settled (TcpModule.initial md) where
  listing := initial_listing md
  writing := fun _ => (initial_sendStart (.fresh md _)).writing
  emptied := fun _ _ => rfl
  balanced := fun _ => rfl

/-- **Every request was answered as often as it was given, up to those that are held**, in every
    run whose steps account for what they are given. -/
theorem requests_answered_or_held (md : TcpData) {es : List ModuleEvent}
    (h : Steps stepModule Accounts (TcpModule.initial md) es) (r : Request) :
    (runModule (TcpModule.initial md) es).given.count r =
        (runModule (TcpModule.initial md) es).answered.count r +
          (runModule (TcpModule.initial md) es).held.count r ∧
      ((runModule (TcpModule.initial md) es).given.count r = 1 →
        (runModule (TcpModule.initial md) es).answered.count r = 1 ∧
            r ∉ (runModule (TcpModule.initial md) es).held ∨
          r ∉ (runModule (TcpModule.initial md) es).answered ∧
            (runModule (TcpModule.initial md) es).held.count r = 1) := by
  have hsettled : Settled (runModule (TcpModule.initial md) es) :=
    run_invariant_of_steps (fun _ e hs he => hs.step e he) (Settled.initially md) h
  have hlaw := hsettled.balanced r
  refine ⟨hlaw, fun honce => ?_⟩
  rw [← count_eq_zero, ← count_eq_zero]
  simp only [TcpModule.account] at hlaw
  omega

def acceptedRun : List ModuleEvent :=
  [sampleListen, sampleOp (.accept 1 10 ⟨1, 1⟩), sampleSyn, sampleSynAck,
   sampleOp (.write ⟨1, 10, 2, 20⟩ ⟨[1, 2, 3], by decide⟩ 0 7), sampleOp (.own 1 (.main 0)),
   sampleOp (.accept 1 10 ⟨1, 2⟩), sampleOp (.close ⟨1, 10, 2, 20⟩ ⟨1, 3⟩),
   sampleOp (.closeStub 1 10 ⟨1, 4⟩), sampleOp (.own 0 (.main 0)), sampleOp (.exit 0)]

set_option maxRecDepth 4000 in
/-- The law in the run: the first `accept` was answered by the child, and nothing is held. -/
theorem requests_answered_or_held_accepted :
    Steps stepModule Accounts sampleModule acceptedRun ∧
      (runModule sampleModule acceptedRun).given.count (.fcf ⟨1, 1⟩) =
        (runModule sampleModule acceptedRun).answered.count (.fcf ⟨1, 1⟩) +
          (runModule sampleModule acceptedRun).held.count (.fcf ⟨1, 1⟩) ∧
      ((runModule sampleModule acceptedRun).slots 0).freed = true := by
  have hsteps : Steps stepModule Accounts sampleModule acceptedRun := by decide +kernel
  exact ⟨hsteps, (requests_answered_or_held sampleData hsteps _).1, by decide +kernel⟩

/-- A `connect` whose connection is shut down by the application before the handshake is over. -/
def abandonedConnect : List ModuleEvent :=
  [sampleOp (.connect ⟨1, 10, 2, 20⟩ ⟨1, 1⟩ 100),
   sampleOp (.fcf true ⟨1, 10, 2, 20⟩ ⟨1, 2⟩ (.alertShutdown TCP_STATUS_RDWR)),
   sampleOp (.own 0 (.main 0)), sampleOp (.exit 0)]

set_option maxRecDepth 4000 in
/-- **Requests are lost**: an unknown `close`, a second `accept`, a `connect` still held. -/
theorem request_lost :
    let afterClose := runModule sampleModule [sampleOp (.close ⟨1, 10, 2, 20⟩ ⟨1, 1⟩)]
    let afterAccept := runModule sampleModule
      [sampleListen, sampleOp (.accept 1 10 ⟨1, 1⟩), sampleOp (.accept 1 10 ⟨1, 2⟩)]
    let afterConnect := runModule sampleModule abandonedConnect
    (afterClose.given = [.fcf ⟨1, 1⟩] ∧ afterClose.answered = [] ∧ afterClose.held = []) ∧
      (afterAccept.given = [.fcf ⟨1, 1⟩, .fcf ⟨1, 2⟩] ∧ afterAccept.answered = [] ∧
        afterAccept.held = [.fcf ⟨1, 1⟩]) ∧
      (afterConnect.given = [.fcf ⟨1, 1⟩] ∧ afterConnect.answered = [] ∧
        afterConnect.held = []) := by
  decide +kernel

end FinsStack.Tcp
