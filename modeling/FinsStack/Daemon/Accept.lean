import FinsStack.Daemon.Socket
import FinsStack.Lib.Run
import Mathlib.Logic.Function.Basic
import Mathlib.Data.List.Forall2

/-!
# Accepting connections

`daemon/tcpHandling.c`, `daemon/daemon.c`.

An accept call on a listening socket asks TCP for a connection and waits on `call_list`.
The reply makes the socket that the call named and is acknowledged to the call.  A call that
must not block has a timer; when that fires first the call is refused with `EAGAIN` and kept
on `expired_call_list`, because TCP will still answer the request.

What such a late answer brings is noted in `sock_id_new`, for the next call to pick up.
`accept_out_tcp` does not look there: the next call asks TCP for another connection, and the
noted one is returned to nobody (`accepted_connection_lost`).
-/

namespace FinsStack.Daemon

open List Function Lib

def DAEMON_EXEC_TCP_ACCEPT : UInt32 := 2

def NONBLOCK : UInt32 := 0x800

def ECONNREFUSED : UInt32 := 111

/-! ### The listening socket -/

structure AcceptCall extends WedgeHdr where
  /-- Zero for a call that sent no request. -/
  serialNum : UInt32
  flags : UInt32
  sockIdNew : UInt64
  sockIndexNew : Nat
  toTimer : Bool
deriving DecidableEq, Repr

structure NewSocket where
  sockId : UInt64
  hostIp : UInt32
  hostPort : UInt16
  remIp : UInt32
  remPort : UInt16
deriving DecidableEq, Repr

/-- The listening socket, the accept calls in `md->calls` (in the order of its `call_list`) and
    on `expired_call_list`, and the other sockets of the daemon. -/
structure Listener where
  state : SockState
  listening : Bool
  hostIp : UInt32
  hostPort : UInt16
  /-- `error_call`, where nothing stands for zero. -/
  errorCall : Option CallType
  errorMsg : UInt32
  /-- `sock_id_new` and `sock_index_new`, where nothing stands for -1. -/
  sockIdNew : Option UInt64
  sockIndexNew : Option Nat
  calls : List AcceptCall
  expired : List AcceptCall
  sockets : Nat → Option NewSocket
  out : List Msg

def Listener.emit (k : Listener) (m : Msg) : Listener := { k with out := k.out ++ [m] }

def Listener.ack (k : Listener) (hdr : WedgeHdr) (msg : UInt32) : Listener := k.emit (.ack hdr msg)

def Listener.nack (k : Listener) (hdr : WedgeHdr) (msg : UInt32) : Listener :=
  k.emit (.nack hdr msg)

structure AcceptReply where
  serialNum : UInt32
  paramId : UInt32
  retVal : Bool
  retMsg : UInt32
  remIp : UInt32
  remPort : UInt32
deriving DecidableEq, Repr

def AcceptReply.Success (r : AcceptReply) : Prop :=
  r.paramId = DAEMON_EXEC_TCP_ACCEPT ∧ r.retVal = true
deriving Decidable

/-! ### Calls -/

/-- `daemon_calls_remove`, and off `call_list`. -/
def Listener.drop (k : Listener) (index : Nat) : Listener :=
  { k with calls := k.calls.eraseP fun call => call.callIndex == index }

def Listener.insert (k : Listener) (call : AcceptCall) : Listener :=
  let k1 := k.drop call.callIndex
  { k1 with calls := k1.calls ++ [call] }

def daemonCallsFind (k : Listener) (serialNum : UInt32) : Option AcceptCall :=
  (range DAEMON_MAX_CALLS).findSome? fun i =>
    k.calls.find? fun call => call.callIndex == i && call.serialNum == serialNum

def sentCall (hdr : WedgeHdr) (sockIdNew : UInt64) (sockIndexNew : Nat) (flags serialNum : UInt32) :
    AcceptCall :=
  { hdr with
    serialNum := serialNum, flags := flags, sockIdNew := sockIdNew, sockIndexNew := sockIndexNew
    toTimer := flags &&& NONBLOCK ≠ 0 }

def socketsInsert (k : Listener) (call : AcceptCall) (r : AcceptReply) : Option Listener :=
  match k.sockets call.sockIndexNew with
  | some _ => none
  | none => some { k with
      sockets := update k.sockets call.sockIndexNew
        (some ⟨call.sockIdNew, k.hostIp, k.hostPort, r.remIp, r.remPort.toUInt16⟩) }

def acceptFailed (k : Listener) (errorMsg : UInt32) : Listener :=
  { k with state := .unconnected, errorCall := some .accept, errorMsg := errorMsg }

def acceptInTcp (k : Listener) (r : AcceptReply) (call : AcceptCall) : Listener :=
  if r.paramId ≠ DAEMON_EXEC_TCP_ACCEPT then k.nack call.toWedgeHdr 1
  else if r.retVal then
    match socketsInsert k call r with
    | some k1 =>
      { k1 with state := .unconnected, sockIdNew := none, sockIndexNew := none }.ack
        call.toWedgeHdr r.retMsg
    | none => (acceptFailed k 0).nack call.toWedgeHdr 1
  else (acceptFailed k r.retMsg).nack call.toWedgeHdr ECONNREFUSED

def acceptExpiredTcp (k : Listener) (r : AcceptReply) (call : AcceptCall) : Listener :=
  if r.paramId ≠ DAEMON_EXEC_TCP_ACCEPT then k
  else if r.retVal then
    match socketsInsert k call r with
    | some k1 =>
      { k1 with
        state := .unconnected, sockIdNew := some call.sockIdNew
        sockIndexNew := some call.sockIndexNew }
    | none => acceptFailed k 0
  else acceptFailed k r.retMsg

def daemonExecReply (k : Listener) (r : AcceptReply) : Listener :=
  match k.expired.find? fun call => call.serialNum == r.serialNum with
  | some call => acceptExpiredTcp { k with expired := k.expired.erase call } r call
  | none =>
    match daemonCallsFind k r.serialNum with
    | none => k
    | some call => acceptInTcp (k.drop call.callIndex) r call

inductive AcceptEvent where
  | accept (callId : UInt32) (callIndex : Nat) (sockIdNew : UInt64) (sockIndexNew : Nat)
      (flags serialNum : UInt32) (sent : Bool)
  | timeout (callIndex : Nat)
  | reply (r : AcceptReply)
deriving DecidableEq

def acceptCalls (es : List AcceptEvent) : List AcceptCall :=
  es.filterMap fun
    | .accept callId callIndex sockIdNew sockIndexNew flags serialNum _ =>
      some (sentCall ⟨.accept, callId, callIndex⟩ sockIdNew sockIndexNew flags serialNum)
    | _ => none

def reported (es : List AcceptEvent) : List AcceptReply :=
  es.filterMap fun
    | .reply r => if r.Success then some r else none
    | _ => none

def acknowledged (l : List Msg) : List WedgeHdr :=
  l.filterMap fun
    | .ack hdr _ => some hdr
    | _ => none

/-- The condition.  A request has a number that no waiting call has, and a connection is
    reported while the call that asked for it waits and the socket it named is free. -/
def Prompt (k : Listener) : AcceptEvent → Prop
  | .accept _ callIndex _ _ _ serialNum sent =>
    callIndex < DAEMON_MAX_CALLS ∧
      (k.state = .unconnected → sent = true →
        ∀ call ∈ k.calls ++ k.expired, call.serialNum ≠ serialNum)
  | .timeout _ => True
  | .reply r =>
    r.Success → r.serialNum ≠ 0 ∧
      ∃ call ∈ k.calls, call.serialNum = r.serialNum ∧ k.sockets call.sockIndexNew = none

instance (k : Listener) (e : AcceptEvent) : Decidable (Prompt k e) :=
  match e with
  | .accept .. => inferInstanceAs (Decidable (_ ∧ (_ → _ → _)))
  | .timeout _ => isTrue trivial
  | .reply _ => inferInstanceAs (Decidable (_ → _ ∧ ∃ call ∈ _, _ ∧ _))

def ReturnedTo (made : List AcceptCall) (k : Listener) (r : AcceptReply) (hdr : WedgeHdr) : Prop :=
  ∃ call ∈ made, call.toWedgeHdr = hdr ∧ call.serialNum = r.serialNum ∧
    k.sockets call.sockIndexNew =
      some ⟨call.sockIdNew, k.hostIp, k.hostPort, r.remIp, r.remPort.toUInt16⟩

/-! ### One step -/

variable {k k' : Listener} {made : List AcceptCall}

structure Asked (made : List AcceptCall) (k : Listener) : Prop where
  made : ∀ call ∈ k.calls, call.serialNum ≠ 0 → call ∈ made
  index : ∀ call ∈ k.calls, call.callIndex < DAEMON_MAX_CALLS
  alone : (k.calls.map fun call => call.callIndex).Nodup
  distinct : ∀ call ∈ k.calls, ∀ call' ∈ k.calls, call.serialNum = call'.serialNum →
    call.serialNum ≠ 0 → call = call'
  /-- No call that waits has a number of one that expired. -/
  apart : ∀ call ∈ k.calls, ∀ call' ∈ k.expired, call.serialNum = call'.serialNum →
    call.serialNum = 0
  nothingNew : k.sockIdNew = none

structure NothingReturned (k k' : Listener) : Prop where
  sockets : k'.sockets = k.sockets
  hostIp : k'.hostIp = k.hostIp
  hostPort : k'.hostPort = k.hostPort
  acks : acknowledged k'.out = acknowledged k.out

theorem Asked.mono (h : Asked made k) {made' : List AcceptCall} (hsub : made ⊆ made') :
    Asked made' k :=
  { h with made := fun call hcall hserial => hsub (h.made call hcall hserial) }

theorem Asked.fewer (h : Asked made k) (hcalls : k'.calls.Sublist k.calls)
    (hexpired : k'.expired ⊆ k.expired) (hnew : k'.sockIdNew = none) : Asked made k' where
  made := fun call hcall => h.made call (hcalls.subset hcall)
  index := fun call hcall => h.index call (hcalls.subset hcall)
  alone := (hcalls.map _).nodup h.alone
  distinct := fun call hcall call' hcall' =>
    h.distinct call (hcalls.subset hcall) call' (hcalls.subset hcall')
  apart := fun call hcall call' hcall' => h.apart call (hcalls.subset hcall) call' (hexpired hcall')
  nothingNew := hnew

variable {call : AcceptCall} {r : AcceptReply} {es : List AcceptEvent}

theorem Asked.expire (h : Asked made k) (hcall : call ∈ k.calls) (hcalls : k'.calls.Sublist k.calls)
    (hgone : call ∉ k'.calls) (hexpired : k'.expired = k.expired ++ [call])
    (hnew : k'.sockIdNew = none) : Asked made k' := by
  have hfewer : Asked made { k' with expired := k.expired } :=
    h.fewer hcalls (Subset.refl _) hnew
  refine { hfewer with apart := ?_ }
  intro c hc c' hc' heq
  rw [hexpired] at hc'
  rcases mem_append.mp hc' with hc' | hc'
  · exact hfewer.apart c hc c' hc' heq
  · rw [mem_singleton] at hc'
    subst hc'
    by_contra hserial
    exact hgone (h.distinct c (hcalls.subset hc) _ hcall heq hserial ▸ hc)

theorem drop_sublist (k : Listener) (index : Nat) : (k.drop index).calls.Sublist k.calls :=
  eraseP_sublist

theorem Asked.not_mem_drop (h : Asked made k) (hcall : call ∈ k.calls) :
    call ∉ (k.drop call.callIndex).calls := by
  intro hmem
  obtain ⟨front, back, hsplit⟩ := append_of_mem hcall
  have halone := h.alone
  rw [hsplit, map_append, map_cons, nodup_append, nodup_cons] at halone
  obtain ⟨-, ⟨hback, -⟩, hfront⟩ := halone
  have hnot : ∀ c ∈ front, ¬ (c.callIndex == call.callIndex) = true := by
    intro c hc
    rw [beq_iff_eq]
    exact hfront _ (mem_map_of_mem hc) _ (mem_cons_self ..)
  have hdrop : (k.drop call.callIndex).calls = front ++ back := by
    simp only [Listener.drop, hsplit, eraseP_append_right _ hnot]
    simp
  rw [hdrop] at hmem
  rcases mem_append.mp hmem with hmem | hmem
  · exact hnot call hmem (beq_self_eq_true _)
  · exact hback (mem_map_of_mem hmem)

theorem Asked.index_ne (h : Asked made k) {index : Nat} (hcall : call ∈ (k.drop index).calls) :
    call.callIndex ≠ index := by
  rintro rfl
  exact h.not_mem_drop ((drop_sublist k _).subset hcall) hcall

theorem Asked.insert (h : Asked made k) (hindex : call.callIndex < DAEMON_MAX_CALLS)
    (hmade : call.serialNum ≠ 0 → call ∈ made)
    (hfresh : ∀ c ∈ k.calls ++ k.expired, c.serialNum = call.serialNum → call.serialNum = 0) :
    Asked made (k.insert call) := by
  have hcases : ∀ c ∈ (k.insert call).calls, c ∈ k.calls ∨ c = call := by
    exact forall_mem_concat (fun c hc => .inl ((drop_sublist k _).subset hc)) (.inr rfl)
  constructor
  · intro c hc hserial
    rcases hcases c hc with hc | rfl
    · exact h.made c hc hserial
    · exact hmade hserial
  · intro c hc
    rcases hcases c hc with hc | rfl
    · exact h.index c hc
    · exact hindex
  · simp only [Listener.insert, map_append, nodup_append]
    refine ⟨((drop_sublist k _).map _).nodup h.alone, by simp, ?_⟩
    intro i hi j hj
    obtain ⟨c, hc, rfl⟩ := mem_map.mp hi
    rw [mem_singleton.mp hj]
    exact h.index_ne hc
  · intro c hc c' hc' heq hserial
    rcases hcases c hc with hold | rfl <;> rcases hcases c' hc' with hold' | rfl
    · exact h.distinct c hold c' hold' heq hserial
    · exact absurd (heq.trans (hfresh c (mem_append_left _ hold) heq)) hserial
    · exact absurd (hfresh c' (mem_append_left _ hold') heq.symm) hserial
    · rfl
  · intro c hc c' hc' heq
    rcases hcases c hc with hc | rfl
    · exact h.apart c hc c' hc' heq
    · exact hfresh c' (mem_append_right _ hc') heq.symm
  · exact h.nothingNew

theorem daemonCallsFind_some {serialNum : UInt32} (h : daemonCallsFind k serialNum = some call) :
    call ∈ k.calls ∧ call.serialNum = serialNum := by
  obtain ⟨i, -, hfind⟩ := exists_of_findSome?_eq_some h
  have htest := find?_some hfind
  simp only [Bool.and_eq_true, beq_iff_eq] at htest
  exact ⟨mem_of_find?_eq_some hfind, htest.2⟩

theorem Asked.find (h : Asked made k) (hcall : call ∈ k.calls) (hserial : call.serialNum ≠ 0) :
    daemonCallsFind k call.serialNum = some call := by
  cases hfind : daemonCallsFind k call.serialNum with
  | some call' =>
    obtain ⟨hmem, heq⟩ := daemonCallsFind_some hfind
    rw [h.distinct call hcall call' hmem heq.symm hserial]
  | none =>
    have hnone := findSome?_eq_none_iff.mp hfind call.callIndex
      (mem_range.mpr (h.index call hcall))
    exact absurd (find?_eq_none.mp hnone call hcall) (by simp)

structure Accepting (es : List AcceptEvent) (k : Listener) : Prop where
  asked : Asked (acceptCalls es) k
  returned : List.Forall₂ (ReturnedTo (acceptCalls es) k) (reported es) (acknowledged k.out)

theorem acceptCalls_append (es es' : List AcceptEvent) :
    acceptCalls (es ++ es') = acceptCalls es ++ acceptCalls es' := filterMap_append

theorem reported_append (es es' : List AcceptEvent) :
    reported (es ++ es') = reported es ++ reported es' := filterMap_append

theorem ReturnedTo.mono {made' : List AcceptCall} {hdr : WedgeHdr} (h : ReturnedTo made k r hdr)
    (hmade : made ⊆ made') (hip : k'.hostIp = k.hostIp) (hport : k'.hostPort = k.hostPort)
    (hsock : ∀ i x, k.sockets i = some x → k'.sockets i = some x) : ReturnedTo made' k' r hdr := by
  obtain ⟨call, hcall, hhdr, hserial, hnew⟩ := h
  refine ⟨call, hmade hcall, hhdr, hserial, ?_⟩
  rw [hip, hport]
  exact hsock _ _ hnew

theorem Accepting.quiet {e : AcceptEvent} (h : Accepting es k) (hrep : reported [e] = [])
    (hasked : Asked (acceptCalls (es ++ [e])) k') (hret : NothingReturned k k') :
    Accepting (es ++ [e]) k' := by
  refine ⟨hasked, ?_⟩
  rw [reported_append, hrep, append_nil, hret.acks]
  refine h.returned.imp ?_
  intro r hdr hto
  refine hto.mono ?_ hret.hostIp hret.hostPort ?_
  · rw [acceptCalls_append]
    exact subset_append_left ..
  · intro i x hx
    rw [hret.sockets]
    exact hx

end FinsStack.Daemon
