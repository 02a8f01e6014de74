import FinsStack.Wedge.SocketTable

/-!
# Mutual exclusion on `wedge_sockets`, and where it ends

`wedge_sockets_remove` waits for the calls that it finds counted in `threads[]`.  One that it
cannot find in `wedge_calls` makes it leave its loop without the semaphore and remove the socket
under the call, and the semaphore ends with count two (`count_two`).  Only a call with number
`0xFFFFFFFF`, or one on another sock with the same `sock_id`, is counted and not found.
-/

namespace FinsStack.Wedge.Threads

open List FinsStack.Lib

/-- One thread at a time is past `wedge_sockets_sem`, and a socket is given up only when the
    thread that does it is the only one left in `threads[]`. -/
structure State.Exclusive (s : State) : Prop where
  count : s.socketsSem ≤ 1
  one : ∀ p q, (s.threads p).role.inSockets = true → (s.threads q).role.inSockets = true → p = q
  last : ∀ p c, s.threads p = .call c → c.pc = .remove →
    ∀ t, (s.sockets c.sockIndex).threads t = if t = c.type then 1 else 0

theorem State.Sound.exclusive {s : State} (h : s.Sound) : s.Exclusive where
  count := Books.Sound.sockets_le_one h
  one := fun _ _ hp hq => Books.Sound.eq_of_inSockets h hp hq
  last := fun p c hp hpc => by
    have hr : s.roles p = c.role := congrArg Thread.role hp
    have hknown : (s.roles p).known = some ([], none) := by
      rw [hr, Call.role, hpc]
      rfl
    obtain ⟨l, hl, hcount⟩ := Books.Sound.alone h hknown
    rw [hr] at hl
    obtain ⟨-, rfl⟩ := Call.role_place hl
    exact hcount

/-- **Mutual exclusion on the table of sockets**, in every run in which no call gets the number
    that marks a free slot of `wedge_calls` and no search meets another sock's `sock_id`. -/
theorem socket_table_exclusive {es : List Event}
    (hes : Steps step (fun s e => s.rollsOver e = false ∧ s.collides e = false) initial es) :
    (run step initial es).Exclusive :=
  (run_invariant_of_steps (I := State.Sound)
    (fun _ e hs he => State.step_sound hs e he.1 he.2) State.initial_sound hes).exclusive

def createSocket : List Event :=
  .call 0 .socket 7 :: replicate 9 (.run 0 .ok) ++ .reply 1 ⟨0, 0, ACK, 0, []⟩ ::
    replicate 9 (.run 1 .ok) ++ replicate 13 (.run 0 .ok)

theorem createSocket_exclusive :
    Steps step (fun s e => s.rollsOver e = false ∧ s.collides e = false) initial createSocket ∧
      (run step initial createSocket).Exclusive :=
  have hes : Steps step (fun s e => s.rollsOver e = false ∧ s.collides e = false) initial
      createSocket := by
    decide +kernel
  ⟨hes, socket_table_exclusive hes⟩

/-! ### Two socks with one `sock_id` -/

/-- A sock whose address differs from that of sock 7 above the 32 bits that
    `get_unique_sock_id` keeps. -/
def twin : Sock := 0x100000007

def createTwin : List Event :=
  .call 2 .socket twin :: replicate 9 (.run 2 .ok) ++ .reply 3 ⟨1, 0, ACK, 0, []⟩ ::
    replicate 9 (.run 3 .ok) ++ replicate 13 (.run 2 .ok)

/-- A bind on the twin that is past `wedge_sockets_find`, which gave it the slot of sock 7.  It is
    counted there and holds the lock of the twin. -/
def strayBind : List Event := .call 4 .bind twin :: replicate 4 (.run 4 .ok)

/-- The release of sock 7.  The bind it finds counted is in no slot of `wedge_calls` yet, so
    `wedge_sockets_remove` goes on without the semaphore. -/
def releaseUnder : List Event := .call 5 .release 7 :: replicate 33 (.run 5 .fail)

/-- **The count of `wedge_sockets_sem` can become two.** -/
theorem count_two : ∃ es, (run step initial es).socketsSem = 2 :=
  ⟨createSocket ++ createTwin ++ strayBind ++ releaseUnder, by decide +kernel⟩

end FinsStack.Wedge.Threads
