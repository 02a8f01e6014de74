import FinsStack.Lib.Outlet
import FinsStack.Tcp.WriteQueue

/-!
# From write requests to data segments

The path of the written bytes is an outlet in the sense of `Lib/Outlet.lean`: requests
wait in `request_queue`, the stream is what was sent for the first time followed by what
waits in `write_queue`, and `request_index` counts what was taken of the front request.
Each function on that path is one or two steps of the outlet, so its balance holds in
every run.
-/

namespace FinsStack.Tcp

open List Lib

open Lib (Outlet)

/-! ### The history of a run -/

/-- What is noted about write requests.  Any reply but `FCF_TRUE` is a failure. -/
def noteOf : Out → Option (Note UInt8)
  | .accept req data => some (.accept req data)
  | .execReply req _ retVal retMsg =>
    some (.reply req (if retVal = FCF_TRUE then some retMsg.toNat else none))
  | _ => none

def notes (l : List Out) : List (Note UInt8) := l.filterMap noteOf

def payloadOf : Out → List UInt8
  | .seg .fresh seg => seg.data
  | _ => []

def payloads (l : List Out) : List UInt8 := l.flatMap payloadOf

@[simp] theorem notes_append (l₁ l₂ : List Out) : notes (l₁ ++ l₂) = notes l₁ ++ notes l₂ :=
  filterMap_append

@[simp] theorem payloads_append (l₁ l₂ : List Out) :
    payloads (l₁ ++ l₂) = payloads l₁ ++ payloads l₂ := flatMap_append

theorem quiet_notes {l : List Out} (h : ∀ o ∈ l, ¬ OnStream o) :
    notes l = [] ∧ payloads l = [] := by
  constructor
  · refine filterMap_eq_nil_iff.mpr fun o ho => ?_
    have hq := h o ho
    cases o <;> first | rfl | exact absurd trivial hq
  · refine flatMap_eq_nil_iff.mpr fun o ho => ?_
    have hq := h o ho
    cases o with
    | seg kind seg => cases kind <;> first | rfl | exact absurd trivial hq
    | _ => rfl

/-! ### The outlet of a connection -/

def TcpConn.unsent (c : TcpConn) : List UInt8 := unsentOf c.writeQueue c.writeIndex

def TcpConn.waiting (c : TcpConn) : List (Nat × List UInt8) :=
  c.requestQueue.nodes.map fun n => (n.addr, n.data.data)

def TcpConn.unconsumed (c : TcpConn) : List UInt8 :=
  (c.waiting.flatMap Prod.snd).drop c.requestIndex.toNat

/-- The outlet as it is since the first `n` outputs; `held` is cut from `write_queue` but not
    yet sent. -/
def TcpConn.outlet (c : TcpConn) (n : Nat) (held : List UInt8) : Outlet UInt8 where
  log := notes (c.out.drop n)
  stream := payloads (c.out.drop n) ++ held ++ c.unsent
  pending := c.waiting
  taken := c.requestIndex.toNat

structure WriteOk (w : WriteSide) : Prop where
  requests : ∀ n ∈ w.requestQueue.nodes,
    n.data.len.toNat = n.data.data.length ∧ n.data.data.length < 2 ^ 31
  nonneg : 0 ≤ w.requestIndex
  buf : BufOk w.writeQueue w.writeIndex
  max : w.writeQueue.max = TCP_MAX_QUEUE_DEFAULT
  room : (unsentOf w.writeQueue w.writeIndex).length ≤ TCP_MAX_QUEUE_DEFAULT.toNat

structure StreamInv (n : Nat) (held : List UInt8) (c : TcpConn) : Prop where
  write : WriteOk c.toWriteSide
  ok : (c.outlet n held).Ok
  fresh : ∀ i ∈ (notes (c.out.drop n)).map Note.id, i < c.nextAddr
  base : n ≤ c.out.length

section

variable {n : Nat} {held : List UInt8} {c : TcpConn}

theorem StreamInv.drop_append (h : StreamInv n held c) (l : List Out) :
    (c.out ++ l).drop n = c.out.drop n ++ l := drop_append_of_le_length h.base

theorem StreamInv.not_mem_ids (h : StreamInv n held c) :
    c.nextAddr ∉ (notes (c.out.drop n)).map Note.id :=
  fun hmem => Nat.lt_irrefl _ (h.fresh _ hmem)

variable {c' : TcpConn} {l : List Out} {m : TcpNode TcpRequest} {ms : List (TcpNode TcpRequest)}
  {q : TcpQueue TcpRequest}

section

variable (h : StreamInv n held c)
include h

theorem StreamInv.below {r : Nat × List UInt8} (hr : r ∈ c.waiting) : r.1 < c.nextAddr :=
  h.fresh _ (mem_ids_of_accepted (h.ok.waiting hr).1)

theorem StreamInv.noted {held' : List UInt8} (hout : c'.out = c.out ++ l) (hpay : payloads l = [])
    (hn : c.nextAddr ≤ c'.nextAddr) (hids : ∀ i ∈ (notes l).map Note.id, i < c'.nextAddr)
    (hw : WriteOk c'.toWriteSide)
    (hok : Outlet.Ok ⟨notes (c.out.drop n) ++ notes l,
      payloads (c.out.drop n) ++ held' ++ c'.unsent,
      c'.waiting, c'.requestIndex.toNat⟩) : StreamInv n held' c' := by
  have hdrop : c'.out.drop n = c.out.drop n ++ l := by rw [hout, h.drop_append]
  refine ⟨hw, ?_, ?_, ?_⟩
  · unfold TcpConn.outlet
    rw [hdrop, notes_append, payloads_append, hpay, append_nil]
    exact hok
  · rw [hdrop, notes_append, map_append]
    exact forall_mem_append.mpr ⟨fun i hi => Nat.lt_of_lt_of_le (h.fresh i hi) hn, hids⟩
  · rw [hout, length_append]
    exact Nat.le_trans h.base (Nat.le_add_right _ _)

theorem StreamInv.unnoted (hw : c'.toWriteSide = c.toWriteSide)
    (hout : c'.out = c.out ++ l) (hnotes : notes l = []) (hpay : payloads l = [])
    (hn : c.nextAddr ≤ c'.nextAddr) : StreamInv n held c' := by
  refine h.noted hout hpay hn ?_ (hw ▸ h.write) ?_
  · rw [hnotes]
    exact nofun
  · rw [hnotes, append_nil]
    unfold TcpConn.unsent TcpConn.waiting
    rw [hw]
    exact h.ok

theorem StreamInv.quiet (hw : c'.toWriteSide = c.toWriteSide)
    (hout : QuietOut c c') (hn : c.nextAddr ≤ c'.nextAddr) : StreamInv n held c' := by
  obtain ⟨l, hl, ho⟩ := hout
  obtain ⟨hnotes, hpay⟩ := quiet_notes hl
  exact h.unnoted hw ho hnotes hpay hn

/-! ### Requests -/

theorem StreamInv.front_le (hq : c.requestQueue.nodes = m :: ms) :
    c.requestIndex.toNat ≤ m.data.data.length := by
  refine h.ok.taken (m.addr, m.data.data) ?_
  show (c.requestQueue.nodes.map _).head? = _
  rw [hq]
  rfl

end

theorem waiting_of_nodes {ns : List (TcpNode TcpRequest)}
    (hq : c.requestQueue.nodes = ns) : c.waiting = ns.map fun n => (n.addr, n.data.data) := by
  rw [← hq]
  rfl

section

variable (h : StreamInv n held c)
include h

theorem StreamInv.accept (d : Pdu) (request : TcpRequest)
    (hdata : request.data = d.bytes) (hlen : request.len = UInt32.ofNat d.bytes.length) :
    StreamInv n held { c with
      requestQueue := tcpQueueAppend c.requestQueue
        { data := request, len := 1, seqNum := 0, seqEnd := 0, addr := c.nextAddr }
      nextAddr := c.nextAddr + 1
      out := c.out ++ [.accept c.nextAddr d.bytes] } := by
  have hd := d.length_lt
  refine h.noted rfl rfl (Nat.le_succ _) ?_
    ⟨?_, h.write.nonneg, h.write.buf, h.write.max, h.write.room⟩ ?_
  · exact forall_mem_singleton.mpr (Nat.lt_succ_self _)
  · refine forall_mem_concat h.write.requests ?_
    show request.len.toNat = request.data.length ∧ request.data.length < 2 ^ 31
    rw [hlen, hdata, toNat_ofNat_of_lt (by omega)]
    exact ⟨rfl, hd⟩
  · have hok := (Outlet.Step.accept (c.outlet n held) c.nextAddr d.bytes h.not_mem_ids).ok h.ok
    show Outlet.Ok ⟨_, _, (c.requestQueue.nodes ++ [_]).map _, _⟩
    rw [map_append, map_cons, map_nil, hdata]
    exact hok

theorem StreamInv.refuse (serialNum retVal retMsg : UInt32) :
    StreamInv n held { c with
      nextAddr := c.nextAddr + 1
      out := c.out ++ [.execReply c.nextAddr serialNum retVal retMsg] } := by
  refine h.noted rfl rfl (Nat.le_succ _) ?_ h.write ?_
  · exact forall_mem_singleton.mpr (Nat.lt_succ_self _)
  · exact (Outlet.Step.refuse (c.outlet n held) c.nextAddr _ h.not_mem_ids).ok h.ok

theorem StreamInv.copy (hq : c.requestQueue.nodes = m :: ms) {k : Nat}
    (hk : c.requestIndex.toNat + k ≤ m.data.data.length)
    (hroom : c.unsent.length + k ≤ TCP_MAX_QUEUE_DEFAULT.toNat) (seqNum seqEnd : UInt32) :
    StreamInv n held { c with
      requestIndex := c.requestIndex + k
      writeQueue := tcpQueueAppend c.writeQueue
        { data := (m.data.data.drop c.requestIndex.toNat).take k, len := UInt32.ofNat k
          seqNum := seqNum, seqEnd := seqEnd, addr := 0 } } := by
  have hnn := h.write.nonneg
  have hidx : (c.requestIndex + k).toNat = c.requestIndex.toNat + k := by omega
  have hlen : ((m.data.data.drop c.requestIndex.toNat).take k).length = k := by
    rw [length_take, length_drop]
    omega
  have hmax : TCP_MAX_QUEUE_DEFAULT.toNat = 131072 := rfl
  have hnode : (UInt32.ofNat k).toNat =
      ((m.data.data.drop c.requestIndex.toNat).take k).length := by
    rw [toNat_ofNat_of_lt (by omega), hlen]
  have hfits : (unsentOf c.writeQueue c.writeIndex ++
      (m.data.data.drop c.requestIndex.toNat).take k).length ≤ TCP_MAX_QUEUE_DEFAULT.toNat := by
    rw [length_append, hlen]
    exact hroom
  refine h.noted (l := []) (append_nil _).symm rfl (Nat.le_refl _) nofun
    ⟨h.write.requests, ?_, ?_, h.write.max, ?_⟩ ?_
  · show 0 ≤ c.requestIndex + k
    omega
  · exact h.write.buf.append hnode hfits
  · show (unsentOf (tcpQueueAppend c.writeQueue _) c.writeIndex).length ≤ _
    rw [unsentOf_append h.write.buf]
    exact hfits
  · have hpend : c.waiting = (m.addr, m.data.data) ::
        ms.map (fun n => (n.addr, n.data.data)) := waiting_of_nodes hq
    have hok := (Outlet.Step.take (c.outlet n held) k _ _ hpend hk).ok h.ok
    unfold TcpConn.unsent
    show Outlet.Ok ⟨_ ++ [], _ ++ unsentOf (tcpQueueAppend c.writeQueue _) c.writeIndex, c.waiting,
      (c.requestIndex + k).toNat⟩
    rw [unsentOf_append h.write.buf, hidx, append_nil, ← append_assoc]
    exact hok

theorem StreamInv.finish (hq : c.requestQueue.nodes = m :: ms)
    (hq' : q.nodes = ms) (serialNum retMsg : UInt32) (hmsg : retMsg.toNat = c.requestIndex.toNat) :
    StreamInv n held { c with
      requestQueue := q, requestIndex := 0
      out := c.out ++ [.execReply m.addr serialNum FCF_TRUE retMsg] } := by
  have hpend : c.waiting = (m.addr, m.data.data) ::
      ms.map (fun n => (n.addr, n.data.data)) := waiting_of_nodes hq
  have hin : (m.addr, m.data.data) ∈ c.waiting := by
    rw [hpend]
    exact mem_cons_self ..
  refine h.noted rfl rfl (Nat.le_refl _) ?_
    ⟨?_, Int.le_refl 0, h.write.buf, h.write.max, h.write.room⟩ ?_
  · exact forall_mem_singleton.mpr (h.below hin)
  · intro m' hm'
    refine h.write.requests m' ?_
    rw [hq, ← hq']
    exact mem_cons_of_mem _ hm'
  · have hok := (Outlet.Step.finish (c.outlet n held) _ _ hpend).ok h.ok
    rw [waiting_of_nodes hq']
    show Outlet.Ok ⟨_ ++ [.reply m.addr (some retMsg.toNat)], _, _, _⟩
    rw [hmsg]
    exact hok

theorem StreamInv.fail (ps : List (TcpNode TcpRequest)) (hq : c.requestQueue.nodes = ps ++ m :: ms)
    (hfront : ps = [] → c.requestIndex = 0) (hq' : q.nodes = ps ++ ms) (serialNum retMsg : UInt32) :
    StreamInv n held { c with
      requestQueue := q
      out := c.out ++ [.execReply m.addr serialNum FCF_FALSE retMsg] } := by
  have hpend : c.waiting = ps.map (fun n => (n.addr, n.data.data)) ++
      (m.addr, m.data.data) :: ms.map (fun n => (n.addr, n.data.data)) := by
    rw [waiting_of_nodes hq, map_append]
    rfl
  have hin : (m.addr, m.data.data) ∈ c.waiting := by
    rw [hpend]
    exact mem_append_right _ (mem_cons_self ..)
  refine h.noted rfl rfl (Nat.le_refl _) ?_
    ⟨?_, h.write.nonneg, h.write.buf, h.write.max, h.write.room⟩ ?_
  · exact forall_mem_singleton.mpr (h.below hin)
  · intro m' hm'
    refine h.write.requests m' ?_
    rw [hq]
    rw [show m' ∈ q.nodes ↔ m' ∈ ps ++ ms by rw [hq']] at hm'
    rcases mem_append.mp hm' with hm' | hm'
    · exact mem_append_left _ hm'
    · exact mem_append_right _ (mem_cons_of_mem _ hm')
  · have htaken : ps.map (fun n => (n.addr, n.data.data)) = [] → (c.outlet n held).taken = 0 := by
      intro hnil
      show c.requestIndex.toNat = 0
      rw [hfront (map_eq_nil_iff.mp hnil)]
      rfl
    have hok := (Outlet.Step.fail (c.outlet n held) _ _ _ hpend htaken).ok h.ok
    rw [waiting_of_nodes hq', map_append]
    exact hok

end

theorem asInt_avail {len : UInt32} {index : Int} {data : List UInt8}
    (hlen : len.toNat = data.length)
    (hlt : data.length < 2 ^ 31) (hnn : 0 ≤ index) (hle : index.toNat ≤ data.length) :
    asInt (len - UInt32.ofInt index) = ((data.length - index.toNat : Nat) : Int) := by
  have hidx : UInt32.ofInt index = UInt32.ofNat index.toNat := by
    rw [← ofInt_natCast, Int.toNat_of_nonneg hnn]
  have hnat : (UInt32.ofNat index.toNat).toNat = index.toNat := toNat_ofNat_of_lt (by omega)
  have hsub : (len - UInt32.ofNat index.toNat).toNat = data.length - index.toNat := by
    rw [UInt32.toNat_sub_of_le _ _ (by rw [UInt32.le_iff_toNat_le]; omega), hlen, hnat]
  rw [hidx, asInt, hsub, if_pos (by omega)]

theorem writeSpace_eq (h : WriteOk c.toWriteSide) :
    writeSpace c = ((TCP_MAX_QUEUE_DEFAULT.toNat - c.unsent.length : Nat) : Int) := by
  have hmax : TCP_MAX_QUEUE_DEFAULT.toNat = 131072 := rfl
  have hroom := h.room
  have hlen := h.buf.length_unsent
  have hsub : (TCP_MAX_QUEUE_DEFAULT - (c.writeQueue.len - c.writeIndex)).toNat =
      TCP_MAX_QUEUE_DEFAULT.toNat - c.unsent.length := by
    rw [UInt32.toNat_sub_of_le _ _ (by rw [UInt32.le_iff_toNat_le, hlen]; exact hroom), hlen]
    rfl
  rw [writeSpace, h.max, asInt, hsub, if_pos (by omega)]

theorem tcpHandleRequestsLoop_streamInv {ns : List (TcpNode TcpRequest)} {space : Int}
    (h : StreamInv n held c) (hq : c.requestQueue.nodes = ns)
    (hspace : space = ((TCP_MAX_QUEUE_DEFAULT.toNat - c.unsent.length : Nat) : Int)) :
    StreamInv n held (tcpHandleRequestsLoop ns space c).2 := by
  induction ns generalizing space c with
  | nil => exact h
  | cons m ms ih =>
    obtain ⟨hlen, hlt⟩ := h.write.requests m (by rw [hq]; exact mem_cons_self ..)
    have hle := h.front_le hq
    have hnn := h.write.nonneg
    have hroom : c.unsent.length ≤ TCP_MAX_QUEUE_DEFAULT.toNat := h.write.room
    have havail := asInt_avail hlen hlt hnn hle
    unfold tcpHandleRequestsLoop
    split
    · exact h
    simp only [havail]
    split
    · rename_i hfew
      have hcopy := h.copy hq (k := TCP_MAX_QUEUE_DEFAULT.toNat - c.unsent.length) (by omega)
        (by omega) (UInt32.ofInt c.requestIndex) (UInt32.ofInt (c.requestIndex + space - 1))
      rw [hspace, ofInt_natCast, Int.toNat_natCast]
      rw [hspace] at hcopy
      exact hcopy
    · rename_i hall
      rw [hspace] at hall
      have hcopy := h.copy hq (k := m.data.data.length - c.requestIndex.toNat) (by omega)
        (by omega) (m.data.len - UInt32.ofInt ↑(m.data.data.length - c.requestIndex.toNat))
        (m.data.len - 1)
      have hfinish := hcopy.finish hq (q := tcpQueueRemoveFront c.requestQueue)
        (by unfold tcpQueueRemoveFront; rw [hq]) m.data.serialNum m.data.len (by
          show m.data.len.toNat = (c.requestIndex + _).toNat
          omega)
      rw [ofInt_natCast, Int.toNat_natCast]
      rw [ofInt_natCast] at hfinish
      refine ih hfinish (by unfold tcpQueueRemoveFront; rw [hq]) ?_
      show space - _ = ((TCP_MAX_QUEUE_DEFAULT.toNat -
        (unsentOf (tcpQueueAppend c.writeQueue _) c.writeIndex).length : Nat) : Int)
      rw [unsentOf_append h.write.buf, length_append, length_take, length_drop,
        hspace]
      show _ = ((TCP_MAX_QUEUE_DEFAULT.toNat - (c.unsent.length + _) : Nat) : Int)
      omega

section

variable (h : StreamInv n held c)
include h

theorem tcpHandleRequests_streamInv : StreamInv n held (tcpHandleRequests c) := by
  have hloop := tcpHandleRequestsLoop_streamInv h rfl (writeSpace_eq h.write)
  obtain ⟨pe, l, -, hl, heq⟩ := alertPollWrite_frame
    (tcpHandleRequestsLoop c.requestQueue.nodes (writeSpace c) c).2
    (tcpHandleRequestsLoop c.requestQueue.nodes (writeSpace c) c).1
  unfold tcpHandleRequests
  rw [heq]
  exact hloop.quiet rfl ⟨l, fun o ho => (hl o ho).not_onStream, rfl⟩ (Nat.le_refl _)

theorem writeConnected_streamInv (d : Pdu) (flags serialNum : UInt32) :
    StreamInv n held (writeConnected c d flags serialNum) := by
  unfold writeConnected
  split
  · have hqueued := tcpHandleRequests_streamInv (h.accept d
      { data := d.bytes, len := UInt32.ofNat d.bytes.length, flags := flags
        serialNum := serialNum, toData := flags &&& MSG_DONTWAIT ≠ 0, toFlag := false } rfl rfl)
    exact hqueued.quiet rfl (.of_eq rfl) (Nat.le_refl _)
  · exact h.refuse serialNum _ _

theorem StreamInv.prewrite (hnil : c.requestQueue.nodes = []) (d : Pdu)
    (hroom : c.unsent.length + d.bytes.length ≤ TCP_MAX_QUEUE_DEFAULT.toNat)
    (serialNum seqEnd : UInt32) :
    StreamInv n held { c with
      writeQueue := tcpQueueAppend c.writeQueue
        { data := d.bytes, len := UInt32.ofNat d.bytes.length, seqNum := 0, seqEnd := seqEnd
          addr := 0 }
      nextAddr := c.nextAddr + 1
      out := c.out ++ [.accept c.nextAddr d.bytes,
        .execReply c.nextAddr serialNum FCF_TRUE (UInt32.ofNat d.bytes.length)] } := by
  have hd := d.length_lt
  have hlen : (UInt32.ofNat d.bytes.length).toNat = d.bytes.length :=
    toNat_ofNat_of_lt (by omega)
  have hfits : (unsentOf c.writeQueue c.writeIndex ++ d.bytes).length ≤
      TCP_MAX_QUEUE_DEFAULT.toNat := by
    rw [length_append]
    exact hroom
  have hpend : (c.outlet n held).pending = [] := waiting_of_nodes hnil
  refine h.noted rfl rfl (Nat.le_succ _) ?_
    ⟨h.write.requests, h.write.nonneg, h.write.buf.append hlen hfits, h.write.max, ?_⟩ ?_
  · intro i hi
    have hi' : i = c.nextAddr := by
      simpa [notes, noteOf, Note.id] using hi
    rw [hi']
    exact Nat.lt_succ_self _
  · show (unsentOf (tcpQueueAppend c.writeQueue _) c.writeIndex).length ≤ _
    rw [unsentOf_append h.write.buf]
    exact hfits
  · have htaken : c.requestIndex.toNat = 0 := h.ok.idle hpend
    have haccept := (Outlet.Step.accept (c.outlet n held) c.nextAddr d.bytes h.not_mem_ids).ok h.ok
    have htake := (Outlet.Step.take _ d.bytes.length (c.nextAddr, d.bytes) []
      (by rw [hpend]; rfl) (by show c.requestIndex.toNat + _ ≤ d.bytes.length; omega)).ok haccept
    have hfinish := (Outlet.Step.finish _ (c.nextAddr, d.bytes) [] (by rw [hpend]; rfl)).ok htake
    have hunsent : unsentOf (tcpQueueAppend c.writeQueue
        { data := d.bytes, len := UInt32.ofNat d.bytes.length, seqNum := 0, seqEnd := seqEnd
          addr := 0 }) c.writeIndex = c.unsent ++ d.bytes := unsentOf_append h.write.buf _
    have hwhole : (d.bytes.drop (c.outlet n held).taken).take d.bytes.length = d.bytes := by
      rw [show (c.outlet n held).taken = 0 from htaken, drop_zero, take_length]
    have hcount : (c.outlet n held).taken + d.bytes.length = d.bytes.length := by
      rw [show (c.outlet n held).taken = 0 from htaken, Nat.zero_add]
    simp only [hwhole, hcount, append_assoc _ [_] [_]] at hfinish
    have hlog : notes [.accept c.nextAddr d.bytes,
        .execReply c.nextAddr serialNum FCF_TRUE (UInt32.ofNat d.bytes.length)] =
        [.accept c.nextAddr d.bytes] ++ [.reply c.nextAddr (some d.bytes.length)] := by
      simp [notes, noteOf, hlen]
    have hwait : c.waiting = [] := hpend
    show Outlet.Ok ⟨_, _ ++ unsentOf (tcpQueueAppend c.writeQueue _) c.writeIndex, c.waiting,
      c.requestIndex.toNat⟩
    rw [hunsent, hlog, hwait, htaken, ← append_assoc _ c.unsent]
    exact hfinish

theorem writePreConnected_streamInv (hnil : c.requestQueue.nodes = [])
    (d : Pdu) (serialNum : UInt32) : StreamInv n held (writePreConnected c d serialNum) := by
  have poll : ∀ (b : Bool) (c' : TcpConn) (space : Int), StreamInv n held c' →
      StreamInv n held (if b then alertPollWrite c' space else c') := by
    intro b c' space h'
    split
    · obtain ⟨pe, l, -, hl, heq⟩ := alertPollWrite_frame c' space
      rw [heq]
      exact h'.quiet rfl ⟨l, fun o ho => (hl o ho).not_onStream, rfl⟩ (Nat.le_refl _)
    · exact h'
  simp only [writePreConnected]
  split
  · rename_i hle
    rw [writeSpace_eq h.write] at hle
    have hroom : c.unsent.length ≤ TCP_MAX_QUEUE_DEFAULT.toNat := h.write.room
    have hwritten := h.prewrite hnil d (by omega) serialNum (UInt32.ofNat d.bytes.length - 1)
    exact poll _ _ _ (hwritten.quiet rfl (.of_eq rfl) (Nat.le_refl _))
  · exact poll _ _ _ (h.refuse serialNum _ _)

end

theorem writePreConnected_requestQueue (c : TcpConn) (d : Pdu) (serialNum : UInt32) :
    (writePreConnected c d serialNum).requestQueue = c.requestQueue := by
  have poll : ∀ (b : Bool) (c' : TcpConn) (space : Int),
      (if b then alertPollWrite c' space else c').requestQueue = c'.requestQueue := by
    intro b c' space
    split
    · obtain ⟨pe, l, -, -, heq⟩ := alertPollWrite_frame c' space
      rw [heq]
    · rfl
  simp only [writePreConnected]
  split
  · rw [poll]
    rfl
  · rw [poll]

/-! ### Timed-out requests -/

theorem tcpQueueRemove_nodes (ps : List (TcpNode TcpRequest)) (hq : q.nodes = ps ++ m :: ms)
    (hps : ∀ p ∈ ps, p.addr ≠ m.addr) : (tcpQueueRemove q m).nodes = ps ++ ms := by
  have hany : q.nodes.any (fun n => n.addr == m.addr) = true := by
    rw [hq]
    simp
  unfold tcpQueueRemove
  rw [if_pos hany]
  show q.nodes.eraseP _ = _
  rw [hq, eraseP_append_right _ (by simpa using hps)]
  simp

theorem StreamInv.addrs_nodup (h : StreamInv n held c) :
    (c.requestQueue.nodes.map TcpNode.addr).Nodup := by
  have hnd : (c.waiting.map Prod.fst).Nodup := h.ok.pending_nodup
  unfold TcpConn.waiting at hnd
  rw [map_map] at hnd
  exact hnd

/-- The loop of `handle_interrupt` behind the first request: `ps` are the requests it kept. -/
theorem handleInterruptLoop_streamInv {front : Nat} (ps : List (TcpNode TcpRequest))
    (h : StreamInv n held c) (hq : c.requestQueue.nodes = ps ++ ms)
    (hfront : ∀ m ∈ ms, m.addr ≠ front) (hidx : ps = [] → c.requestIndex = 0) :
    StreamInv n held (handleInterruptLoop front ms c) := by
  induction ms generalizing ps c with
  | nil => exact h
  | cons m ms ih =>
    have hrest : ∀ m' ∈ ms, m'.addr ≠ front := fun m' hm' =>
      hfront m' (mem_cons_of_mem _ hm')
    unfold handleInterruptLoop
    split
    · have hother : ¬ (m.addr = front ∧ c.requestIndex ≠ 0) := fun hc =>
        hfront m (mem_cons_self ..) hc.1
      simp only [hother, if_false]
      have hnodes : (tcpQueueRemove c.requestQueue m).nodes = ps ++ ms := by
        refine tcpQueueRemove_nodes ps hq ?_
        intro p hp heq
        have hnd := h.addrs_nodup
        rw [hq, map_append, map_cons, nodup_append] at hnd
        exact hnd.2.2 p.addr (mem_map_of_mem hp) m.addr (mem_cons_self ..) heq
      exact ih ps (h.fail ps hq hidx hnodes m.data.serialNum EAGAIN) hnodes hrest hidx
    · refine ih (ps ++ [m]) h ?_ hrest ?_
      · rw [hq, append_assoc]
        rfl
      · intro hnil
        exact absurd hnil (append_ne_nil_of_right_ne_nil _ (cons_ne_nil _ _))

theorem handleInterrupt_streamInv (h : StreamInv n held c) :
    StreamInv n held (handleInterrupt c) := by
  unfold handleInterrupt
  split
  · exact h
  · rename_i m ms hq
    have hnd := h.addrs_nodup
    rw [hq, map_cons, nodup_cons] at hnd
    have hother : ∀ m' ∈ ms, m'.addr ≠ m.addr := by
      intro m' hm' heq
      exact hnd.1 (heq ▸ mem_map_of_mem hm')
    have hnodes : (tcpQueueRemove c.requestQueue m).nodes = ms :=
      tcpQueueRemove_nodes [] hq (by intro _ hp; cases hp)
    unfold handleInterruptLoop
    split
    · simp only [true_and]
      split
      · have hle := h.front_le hq
        have hlt := (h.write.requests m (by rw [hq]; exact mem_cons_self ..)).2
        have hmsg : (UInt32.ofInt c.requestIndex).toNat = c.requestIndex.toNat := by
          rw [← Int.toNat_of_nonneg h.write.nonneg, ofInt_natCast,
            toNat_ofNat_of_lt (by omega), Int.toNat_natCast]
        exact handleInterruptLoop_streamInv []
          (h.finish hq hnodes m.data.serialNum _ hmsg) hnodes hother (fun _ => rfl)
      · rename_i hzero
        have hindex : c.requestIndex = 0 := by simpa using hzero
        exact handleInterruptLoop_streamInv []
          (h.fail [] hq (fun _ => hindex) hnodes m.data.serialNum EAGAIN) hnodes hother
          (fun _ => hindex)
    · exact handleInterruptLoop_streamInv [m] h hq hother (by intro hnil; cases hnil)

theorem requestFire_streamInv (h : StreamInv n held c) (a : Nat) :
    StreamInv n held (requestFire c a) := by
  -- only `to_flag` changes
  obtain ⟨g, hnodes, hsame⟩ : ∃ g : TcpNode TcpRequest → TcpNode TcpRequest,
      (requestFire c a).requestQueue.nodes = c.requestQueue.nodes.map g ∧
        ∀ m, (g m).addr = m.addr ∧ (g m).data.data = m.data.data ∧ (g m).data.len = m.data.len := by
    refine ⟨_, rfl, fun m => ?_⟩
    dsimp only
    split
    · exact ⟨rfl, rfl, rfl⟩
    · exact ⟨rfl, rfl, rfl⟩
  have hwait : (requestFire c a).waiting = c.waiting := by
    unfold TcpConn.waiting
    rw [hnodes, map_map]
    refine map_congr_left fun m _ => ?_
    simp only [Function.comp_apply, (hsame m).1, (hsame m).2.1]
  refine h.noted (l := []) (append_nil _).symm rfl (Nat.le_refl _) nofun
    ⟨?_, h.write.nonneg, h.write.buf, h.write.max, h.write.room⟩ ?_
  · rw [hnodes]
    intro m' hm'
    obtain ⟨m, hm, rfl⟩ := mem_map.mp hm'
    rw [(hsame m).2.1, (hsame m).2.2]
    exact h.write.requests m hm
  · rw [hwait, show notes [] = [] from rfl, append_nil]
    exact h.ok

/-! ### Sending -/

theorem StreamInv.cut (h : StreamInv n [] c) {dataLen : UInt32} (hlen : dataLen ≤ unsentLen c) :
    StreamInv n (cutSegment c dataLen).1.data (cutSegment c dataLen).2 := by
  have hfits : dataLen.toNat ≤ (unsentOf c.writeQueue c.writeIndex).length := by
    rw [← h.write.buf.length_unsent]
    exact UInt32.le_iff_toNat_le.mp hlen
  obtain ⟨hdata, hbuf, hleft, hmax⟩ := tcpSegAddData_spec
    (tcpSegCreate c.addr c.sendSeqEnd c.sendSeqEnd) h.write.buf hfits
  refine tcpHandleRequests_streamInv ?_
  refine h.noted (l := []) (append_nil _).symm rfl (Nat.le_refl _) nofun
    ⟨h.write.requests, h.write.nonneg, hbuf, hmax.trans h.write.max, ?_⟩ ?_
  · rw [hleft, length_drop]
    exact Nat.le_trans (Nat.sub_le _ _) h.write.room
  · have hstream : (cutSegment c dataLen).1.data ++ unsentOf (tcpSegAddData
        (tcpSegCreate c.addr c.sendSeqEnd c.sendSeqEnd) c.writeQueue c.writeIndex dataLen).2.1
        (tcpSegAddData (tcpSegCreate c.addr c.sendSeqEnd c.sendSeqEnd) c.writeQueue c.writeIndex
          dataLen).2.2 = c.unsent := by
      rw [hleft, show (cutSegment c dataLen).1.data = _ from hdata]
      exact take_append_drop _ _
    have hok := h.ok
    unfold TcpConn.outlet at hok
    rw [append_nil] at hok
    rw [show notes [] = [] from rfl, append_nil, append_assoc]
    unfold TcpConn.unsent
    rw [hstream]
    exact hok

theorem StreamInv.sent (h : StreamInv n held c) {seg : TcpSeg} (hseg : seg.data = held)
    (hl : NeutralList l) (hout : c'.out = c.out ++ [.seg .fresh seg] ++ l)
    (hw : c'.toWriteSide = c.toWriteSide) (hn : c.nextAddr ≤ c'.nextAddr) : StreamInv n [] c' := by
  obtain ⟨hnotes, hpay⟩ := quiet_notes fun o ho => (hl o ho).not_onStream
  have hdrop : c'.out.drop n = c.out.drop n ++ ([.seg .fresh seg] ++ l) := by
    rw [hout, append_assoc, h.drop_append]
  have hlog : notes (c'.out.drop n) = notes (c.out.drop n) := by
    rw [hdrop, notes_append, notes_append, hnotes]
    exact append_nil _
  have hstream : payloads (c'.out.drop n) = payloads (c.out.drop n) ++ held := by
    rw [hdrop, payloads_append, payloads_append, hpay, ← hseg]
    simp [payloads, payloadOf]
  refine ⟨hw ▸ h.write, ?_, ?_, ?_⟩
  · have hok := h.ok
    unfold TcpConn.outlet TcpConn.unsent TcpConn.waiting at hok ⊢
    rw [hlog, hstream, hw, append_nil]
    exact hok
  · rw [hlog]
    exact fun i hi => Nat.lt_of_lt_of_le (h.fresh i hi) hn
  · rw [hout, length_append, length_append]
    exact Nat.le_trans h.base (by omega)

end

/-! ### Runs -/

structure Writing (n : Nat) (c : TcpConn) : Prop extends StreamInv n [] c where
  unopened : Early c → c.requestQueue.nodes = []

variable {n : Nat} {c c' : TcpConn}

theorem Writing.quiet (h : Writing n c) (hw : c'.toWriteSide = c.toWriteSide) (hout : QuietOut c c')
    (hn : c.nextAddr ≤ c'.nextAddr) (he : Early c' → Early c) : Writing n c' := by
  refine ⟨h.toStreamInv.quiet hw hout hn, fun hc => ?_⟩
  rw [hw]
  exact h.unopened (he hc)

theorem Writing.resend {m : TcpNode TcpSeg} (h : Writing n c) (hr : Resend c m c')
    (hs : Retransmits c.state) : Writing n c' := by
  obtain ⟨f, k, w, o, ol, -, hout⟩ := hr.segment
  refine ⟨h.toStreamInv.unnoted hr.write hout rfl rfl (Nat.le_of_eq hr.nextAddr.symm), ?_⟩
  exact fun hc => absurd hc (not_early_of_retransmits (hr.state ▸ hs))

theorem SendMove.writing (h : SendMove c c') (hi : Writing n c) : Writing n c' := by
  have same : ∀ {d : TcpConn}, SameSend c d → (Early d → Early c) → Writing n d := fun h =>
    hi.quiet h.write h.out (Nat.le_of_eq h.nextAddr.symm)
  cases h with
  | same h hs hrun =>
    refine same h ?_
    rintro ⟨he, hr⟩
    exact ⟨hs ▸ he, fun hc => hrun (hr (hs.trans hc))⟩
  | close h he _ => exact same h fun hc => absurd hc (not_early_of_closeEdge he)
  | stop h hs hoff => exact same h fun hc => absurd hc (not_early_of_stopped hs hoff)
  | early h => exact hi.quiet h.write h.out (Nat.le_of_eq h.nextAddr.symm) (fun _ => h.early)
  | opened seg h =>
    exact hi.quiet h.write h.out (Nat.le_of_eq h.nextAddr.symm)
      (fun hc => absurd hc (not_early_of_retransmits (.inl h.state)))
  | data h _ hoff =>
    exact hi.quiet h.write h.out h.nextAddr
      (fun hc => absurd hc (not_early_of_handled h.state hoff))
  | fin sep hs hr hw | gbn g h => exact hi.quiet rfl (.of_eq rfl) (Nat.le_refl _) id
  | timeout m h hs | fast m h hs | next m h hs => exact hi.resend h hs
  | write d flags serialNum hrun hs =>
    refine ⟨writeConnected_streamInv hi.toStreamInv d flags serialNum, fun hc => ?_⟩
    obtain ⟨w, pe, m, a, l, -, -, heq⟩ := writeConnected_writeMove c d flags serialNum
    rw [heq] at hc
    refine absurd hc (not_early_of_retransmits ?_)
    rcases hs with hs | hs
    · exact .inl hs
    · exact .inr (.inl hs)
  | writeEarly d serialNum hrun hs =>
    have hnil : c.requestQueue.nodes = [] := by
      rcases hs with hs | hs
      · exact hi.unopened (early_of_synSent hs)
      · exact hi.unopened (early_of_synRecv hs)
    refine ⟨writePreConnected_streamInv hi.toStreamInv hnil d serialNum, fun _ => ?_⟩
    rw [writePreConnected_requestQueue]
    exact hnil
  | refuse serialNum => exact ⟨hi.toStreamInv.refuse serialNum _ _, hi.unopened⟩
  | interrupt =>
    refine ⟨handleInterrupt_streamInv hi.toStreamInv, fun hc => ?_⟩
    obtain ⟨w, pe, m, a, l, -, -, heq⟩ := handleInterrupt_writeMove c
    have hnil := hi.unopened (by rw [heq] at hc; exact hc)
    rw [handleInterrupt_of_nil hnil]
    exact hnil
  | requestFire a =>
    refine ⟨requestFire_streamInv hi.toStreamInv a, fun hc => ?_⟩
    show c.requestQueue.nodes.map _ = []
    rw [hi.unopened hc]
    rfl

theorem AckStep.writing {seg : TcpSeg} (h : AckStep c seg c') (hi : Writing n c) :
    Writing n c' := by
  cases h with
  | outside hwin hfin => exact hi
  | fin w hwin hsent hack hw =>
    exact ⟨hi.toStreamInv.unnoted rfl rfl rfl rfl (Nat.le_refl _), hi.unopened⟩
  | _ => exact hi.quiet rfl (.of_eq rfl) (Nat.le_refl _) id

theorem FreshSend.data_length {seg : TcpSeg} (h : FreshSend c seg c')
    (hcan : canSend c) (hbuf : BufOk c.writeQueue c.writeIndex) :
    seg.data.length = (nextDataLen c).toNat := by
  obtain ⟨f, k, w, o, ol, rfl⟩ := h.segment
  have hfits : (nextDataLen c).toNat ≤ (unsentOf c.writeQueue c.writeIndex).length := by
    rw [← hbuf.length_unsent]
    exact UInt32.le_iff_toNat_le.mp (nextDataLen_bounds hcan).2.1
  have hdata := (tcpSegAddData_spec (tcpSegCreate c.addr c.sendSeqEnd c.sendSeqEnd) hbuf hfits).1
  exact (congrArg List.length hdata).trans (length_take_of_le hfits)

theorem FreshSend.writing {seg : TcpSeg} (h : FreshSend c seg c') (hcan : canSend c)
    (hs : Retransmits c.state) (hi : Writing n c) : Writing n c' := by
  obtain ⟨f, k, w, o, ol, hseg⟩ := h.segment
  obtain ⟨l, hl, hout⟩ := h.out
  obtain ⟨w', pe, l', -, hcut⟩ := cutSegment_frame c (nextDataLen c)
  have hnext : (cutSegment c (nextDataLen c)).2.nextAddr ≤ c'.nextAddr := by
    rw [hcut, h.nextAddr]
    exact Nat.le_succ _
  have hdata : seg.data = (cutSegment c (nextDataLen c)).1.data := by
    rw [hseg]
    rfl
  refine ⟨(hi.toStreamInv.cut (nextDataLen_bounds hcan).2.1).sent hdata hl hout h.write hnext, ?_⟩
  exact fun hc => absurd hc (not_early_of_retransmits (h.state ▸ hs))

theorem step_writing (c : TcpConn) (e : Event) (hi : Writing n c) : Writing n (step c e) := by
  apply step_send_invariant (fun c c' hm => hm.writing) ?_ ?_ hi
  · rintro _ seg _ ⟨-, -, hs, hround⟩ hfresh hi
    exact hfresh.writing hround.2.2.2.2.2 hs hi
  · intro seg d _ _ hack hi
    exact hack.writing hi

theorem SendStart.writing (h : SendStart c) : Writing 0 c := by
  obtain ⟨hnotes, hpay⟩ := quiet_notes h.out
  have hrequest : c.requestQueue = tcpQueueCreate TCP_REQUEST_LIST_MAX := by rw [h.write]
  have hwait : c.waiting = [] := by
    unfold TcpConn.waiting
    rw [hrequest]
    rfl
  have hwrite : WriteOk c.toWriteSide := by
    rw [h.write]
    exact ⟨fun _ hm => (nomatch hm), Int.le_refl 0, ⟨fun _ hm => (nomatch hm),
      fun _ hm => (nomatch hm), rfl, Nat.le_refl 0⟩, rfl, Nat.zero_le _⟩
  have hunsent : c.unsent = [] := by
    unfold TcpConn.unsent
    rw [h.write]
    rfl
  have hindex : c.requestIndex.toNat = 0 := by
    rw [h.write]
    rfl
  refine ⟨⟨hwrite, ?_, ?_, Nat.zero_le _⟩, ?_⟩
  · unfold TcpConn.outlet
    rw [drop_zero, hnotes, hpay, hunsent, hwait, hindex]
    exact Outlet.ok_empty
  · rw [drop_zero, hnotes]
    exact nofun
  · intro _
    rw [hrequest]
    rfl

end FinsStack.Tcp
