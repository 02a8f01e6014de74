import FinsStack.Daemon.Accept
import FinsStack.Daemon.Calls
import FinsStack.Daemon.TcpPoll

/-!
# One table of calls

`daemon/daemon.c`.

`md->calls` is modelled with all calls (`Calls`), with the accept calls of a listening socket, and
with the polls that wait for TCP.  `daemon_calls_find` is one search in all three.
-/

namespace FinsStack.Daemon

open List

/-- The first slot in use with this `serial_num`. -/
def findSerial (slots : Nat → Option UInt32) (serialNum : UInt32) : Option Nat :=
  (range DAEMON_MAX_CALLS).find? fun i => slots i == some serialNum

theorem Calls.daemonCallsFind_eq (d : CallTable) (serialNum : UInt32) :
    daemonCallsFind d serialNum = findSerial
      (fun i => if (d.calls i).live then some (d.calls i).serialNum else none) serialNum := by
  unfold daemonCallsFind findSerial
  congr 1
  funext i
  cases h : (d.calls i).live <;> simp [h]

theorem TcpPoll.daemonCallsFind_eq (d : PollDaemon) (serialNum : UInt32) :
    (daemonCallsFind d serialNum).map Fin.val = findSerial
      (fun i => if h : i < DAEMON_MAX_CALLS then (d.slots ⟨i, h⟩).map (·.serialNum) else none)
      serialNum := by
  rw [daemonCallsFind, findSerial, ← map_coe_finRange_eq_range, find?_map]
  congr 2
  funext i
  cases hc : d.slots i <;> simp [hc]

theorem Asked.daemonCallsFind_eq {k : Listener} {made : List AcceptCall} (h : Asked made k)
    (serialNum : UInt32) :
    (daemonCallsFind k serialNum).map (·.callIndex) = findSerial
      (fun i => (k.calls.find? (·.callIndex == i)).map (·.serialNum)) serialNum := by
  rw [daemonCallsFind, findSerial, map_findSome?, find?_eq_findSome?_guard]
  congr 1
  funext i
  -- a slot has one call, so that the index alone finds it
  have hone : ∀ c ∈ k.calls, ∀ c' ∈ k.calls, c.callIndex = c'.callIndex → c = c' :=
    fun c hc c' hc' => inj_on_of_nodup_map h.alone hc hc'
  cases hindex : k.calls.find? (·.callIndex == i) with
  | none =>
    have hnone : (k.calls.find? fun c => c.callIndex == i && c.serialNum == serialNum) = none := by
      grind [find?_eq_none]
    simp [hnone, hindex, Option.guard]
  | some c =>
    have hc := mem_of_find?_eq_some hindex
    have hi := find?_some hindex
    cases hfind : k.calls.find? fun c => c.callIndex == i && c.serialNum == serialNum with
    | none => grind [Option.guard, find?_eq_none]
    | some c' => grind [Option.guard]

end FinsStack.Daemon
