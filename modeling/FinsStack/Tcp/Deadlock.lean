import FinsStack.Lib.WaitGraph
import FinsStack.Tcp.Listed

/-!
# The locks of the TCP module do not deadlock

Most handlers take `conn_list_sem` with `conn->sem` held, and `tcp_exec_connect` takes
`conn->sem` of a listening stub with `conn_list_sem` held.  The two orders do not meet: a main
thread takes `conn_list_sem` only after its loop, and the main thread of a connection on
`conn_stub_list` is in its loop (`Listed`).  Two `conn->sem` are held at once by
`switch_to_tcp` alone, and never the same one twice.

The threads are ranked by what they wait for: nothing, a stub (with `conn_list_sem`),
`conn_list_sem`, a connection, and last the main threads that wait for their own connection.
-/

namespace FinsStack.Tcp.Threads

variable {s : Sys}

def SwitchPc.rank (pc : SwitchPc) : Nat :=
  match pc.waits with
  | none => 0
  | some .list => 2
  | some (.conn _) => if pc.holdsList then 1 else 3

def MainPc.rank (c : Nat) (pc : MainPc) : Nat :=
  match pc.waits c with
  | none => 0
  | some .list => 2
  | some (.conn _) => 4

def rank (s : Sys) : Thread → Nat
  | .switch => s.switch.rank
  | .main c => (s.conns c).pc.rank c

theorem SwitchPc.rank_of_holdsList {pc : SwitchPc} (h : pc.holdsList) : pc.rank ≤ 1 := by
  cases pc <;> simp_all [SwitchPc.holdsList, SwitchPc.rank, SwitchPc.waits]

theorem SwitchPc.rank_le (pc : SwitchPc) : pc.rank ≤ 3 := by
  simp only [SwitchPc.rank]
  split
  · omega
  · omega
  · split <;> omega

variable {c : Nat} {pc : MainPc} {t : Thread}

theorem MainPc.rank_of_holdsList (h : pc.holdsList) : pc.rank c = 0 := by
  cases pc <;> simp_all [MainPc.holdsList, MainPc.rank, MainPc.waits]

theorem MainPc.rank_of_holdsConn (h : pc.holdsConn) : pc.rank c ≤ 2 := by
  cases pc <;> simp_all [MainPc.holdsConn, MainPc.rank, MainPc.waits]

theorem MainPc.rank_of_looping (hloop : pc.looping) (h : pc.holdsConn) :
    pc.rank c = 0 := by
  cases pc <;> simp_all [MainPc.holdsConn, MainPc.rank, MainPc.waits, MainPc.looping]

/-- Whoever holds `conn_list_sem` waits for a stub at most. -/
theorem rank_of_holds_list (h : Holds s t .list) : rank s t ≤ 1 := by
  cases t with
  | switch => exact SwitchPc.rank_of_holdsList h
  | main c => exact Nat.le_trans (Nat.le_of_eq (MainPc.rank_of_holdsList h)) (Nat.zero_le _)

theorem rank_lt_of_switch (h : Listed s) (hwait : s.switch.waits = some (.conn c))
    (hhold : Holds s t (.conn c)) : rank s t < rank s .switch := by
  have hok := h.switch
  cases t with
  | switch =>
    -- it does not hold what it waits for
    cases hpc : s.switch with
    | promote p a | enter x v => simp [Holds, hpc, SwitchPc.holdsConns] at hhold
    | nestEnter x d n =>
      have hcd : c = d := by simpa [hpc, SwitchPc.waits, eq_comm] using hwait
      have hcx : c = x := by simpa [Holds, hpc, SwitchPc.holdsConns] using hhold
      simp only [hpc, Sys.SwitchOk] at hok
      have hdx : d ≠ x := by
        cases n with
        | search rest => exact hok.2.1.1
        | child | parent => exact hok.2.1
      exact absurd (hcd.symm.trans hcx) hdx
    | _ => simp [hpc, SwitchPc.waits] at hwait
  | main x =>
    obtain ⟨rfl, hconn⟩ := hhold
    have hle : rank s (.main x) ≤ 2 := MainPc.rank_of_holdsConn hconn
    cases hpc : s.switch with
    | promote p a =>
      -- the stub's main thread is in its loop
      have hpx : p = x := by simpa [hpc, SwitchPc.waits] using hwait
      have hmem : x ∈ s.stubList := by
        simpa only [hpc, Sys.SwitchOk, hpx] using hok
      have hzero : rank s (.main x) = 0 := MainPc.rank_of_looping (h.stub x hmem).2.2 hconn
      have hone : rank s .switch = 1 := by
        simp [rank, hpc, SwitchPc.rank, SwitchPc.waits, SwitchPc.holdsList]
      omega
    | enter y v | nestEnter y d n =>
      have hthree : rank s .switch = 3 := by
        simp [rank, hpc, SwitchPc.rank, SwitchPc.waits, SwitchPc.holdsList]
      omega
    | _ => simp [hpc, SwitchPc.waits] at hwait

theorem rank_lt_of_main {d : Nat} (hwait : (s.conns c).pc.waits c = some (.conn d))
    (hhold : Holds s t (.conn d)) : rank s t < rank s (.main c) := by
  have hfour : rank s (.main c) = 4 := by simp [rank, MainPc.rank, hwait]
  cases t with
  | switch =>
    have hle : rank s .switch ≤ 3 := SwitchPc.rank_le s.switch
    omega
  | main x =>
    obtain ⟨rfl, hconn⟩ := hhold
    have hle : rank s (.main x) ≤ 2 := MainPc.rank_of_holdsConn hconn
    omega

/-- **No deadlock.**  In no state that the threads can reach is there a cycle of threads each of
    which waits for a lock that the next one holds. -/
theorem threads_not_deadlocked (es : List ThreadEvent) :
    ¬ Lib.Deadlocked (Waits (runThreads initial es)) (Holds (runThreads initial es)) := by
  have h := listed_run es
  apply Lib.not_deadlocked_of_rank (rank (runThreads initial es))
  intro t t' l hwait hhold
  cases l with
  | list =>
    have hle := rank_of_holds_list hhold
    have htwo : rank (runThreads initial es) t = 2 := by
      cases t with
      | switch =>
        simp only [Waits] at hwait
        simp only [rank, SwitchPc.rank, hwait]
      | main c =>
        simp only [Waits] at hwait
        simp only [rank, MainPc.rank, hwait]
    omega
  | conn c =>
    cases t with
    | switch => exact rank_lt_of_switch h hwait hhold
    | main x => exact rank_lt_of_main hwait hhold

end FinsStack.Tcp.Threads
