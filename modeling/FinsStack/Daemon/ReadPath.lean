import FinsStack.Daemon.Reader
import FinsStack.Lib.Run

/-!
# What goes into a socket comes out of it

A socket that is fed by TCP and read by the application: the bytes returned and the bytes
still stored are, in order, the bytes handed up; `data_buf` counts the stored ones; the
window credits sent to TCP add up to the bytes returned; and no `recvmsg` call waits while
there is something to return.

`data_buf` is an `int`.  Nothing bounds the bytes of `data_list` but the number of its
entries, and once there are 2^31 of them the count is negative, so that the socket looks
empty (`socket_looks_empty`).
-/

namespace FinsStack.Daemon

open List Lib

/-! ### The system -/

inductive SockEvent where
  | frame (wedge : DaemonCall → Bool) (data : List UInt8)
  | recvmsg (wedge : Bool) (hdr : WedgeHdr) (bufLen controllen flags : UInt32)
  | timeout (call : DaemonCall)

def stepSock (k : DaemonSocket) : SockEvent → DaemonSocket
  | .frame wedge data => daemonInFdfTcp wedge k data
  | .recvmsg wedge hdr bufLen controllen flags =>
    recvmsgOutTcp wedge k hdr bufLen controllen flags
  | .timeout call => daemonHandleTo k call

abbrev runSock (k : DaemonSocket) (es : List SockEvent) : DaemonSocket := run stepSock k es

def handedUp (es : List SockEvent) : List UInt8 :=
  es.flatMap fun
    | .frame _ data => data
    | _ => []

theorem handedUp_cons (e : SockEvent) (es : List SockEvent) :
    handedUp (e :: es) = handedUp [e] ++ handedUp es := by
  simp [handedUp]

def HasRoom (k : DaemonSocket) : SockEvent → Prop
  | .frame wedge data =>
    (∀ call, wedge call = true) ∧ data ≠ [] ∧ k.dataList.length < MAX_QUEUE_SIZE
  | .recvmsg wedge _ _ _ _ => wedge = true ∧ k.callList.length < DAEMON_CALL_LIST_MAX
  | .timeout _ => True

/-- What a step must meet in addition: `data_buf` can count the bytes. -/
def Counts (k : DaemonSocket) (e : SockEvent) : Prop :=
  HasRoom k e ∧ k.dataBuf.toInt + (handedUp [e]).length < 2 ^ 31

/-! ### Credits -/

def credits (l : List Msg) : Nat :=
  (l.map fun
    | .hostWindow value => value.toNat
    | _ => 0).sum

@[simp] theorem credits_append (l l' : List Msg) : credits (l ++ l') = credits l + credits l' := by
  simp [credits]

@[simp] theorem returned_append (l l' : List Msg) :
    returned (l ++ l') = returned l ++ returned l' :=
  flatMap_append

def Paid (k : DaemonSocket) : Prop := credits k.out = (returned k.out).length

variable {k : DaemonSocket}

theorem Paid.more {l : List Msg} {k' : DaemonSocket} (h : Paid k) (ho : k'.out = k.out ++ l)
    (hl : credits l = (returned l).length) : Paid k' := by
  unfold Paid at *
  rw [ho, credits_append, returned_append, length_append, h, hl]

theorem credits_reply (hdr : WedgeHdr) (buf : UInt32) {data : List UInt8} {n : Nat}
    (hn : n ≤ data.length) (hbuf : n ≤ buf.toNat) :
    credits [.recvmsg hdr buf (data.take n), .hostWindow (UInt32.ofNat n)] =
      (returned [.recvmsg hdr buf (data.take n), .hostWindow (UInt32.ofNat n)]).length := by
  have hlt : n < 2 ^ 32 := Nat.lt_of_le_of_lt hbuf buf.toNat_lt
  simp [credits, returned, UInt32.toNat_ofNat_of_lt' hlt, Nat.min_eq_left hn]

theorem Paid.emit {m : Msg} (h : Paid k) (hm : credits [m] = (returned [m]).length) :
    Paid (k.emit m) := h.more rfl hm

theorem Paid.pollAll (h : Paid k) (flags : UInt32) : Paid (Daemon.pollAll k flags) := by
  refine h.more rfl ?_
  have hone : ∀ call : DaemonCall, credits (pollInTcpFdf flags call).2 = 0 ∧
      returned (pollInTcpFdf flags call).2 = [] := by
    intro call
    unfold pollInTcpFdf
    split
    · exact ⟨rfl, rfl⟩
    · simp only []
      split <;> exact ⟨rfl, rfl⟩
  induction k.callList with
  | nil => rfl
  | cons call l ih =>
    rw [flatMap_cons, credits_append, returned_append, (hone call).1, (hone call).2, ih]
    simp

theorem Paid.recvmsgInTcpFdf (h : Paid k) (call : DaemonCall) (data : List UInt8) :
    Paid (Daemon.recvmsgInTcpFdf true k call data).1 := by
  refine h.more (l := [_, _]) (append_assoc ..) (credits_reply call.toWedgeHdr call.buf ?_ ?_)
  · split <;> omega
  · split <;> omega

theorem Paid.fdfLoop {wedge : DaemonCall → Bool} (hwedge : ∀ call, wedge call)
    (data : List UInt8) (rounds : Nat) (pos : Nat) (h : Paid k) :
    Paid (Daemon.fdfLoop wedge data rounds k pos).1 := by
  induction rounds generalizing k pos with
  | zero => exact h
  | succ rounds ih =>
    unfold Daemon.fdfLoop
    split
    · exact h
    · rename_i call k1 htake
      obtain ⟨-, rfl, -⟩ := takeRecvmsg_some htake
      have hpaid : Paid (Daemon.recvmsgInTcpFdf true { k with callList := k.callList.erase call }
        call (data.drop pos)).1 := Paid.recvmsgInTcpFdf h call _
      rw [hwedge call]
      simp only []
      split
      · exact hpaid
      · exact ih _ hpaid

theorem Paid.recvmsgStore (h : Paid k) (hdr : WedgeHdr) (bufLen : UInt32) (store : DaemonStore) :
    Paid (Daemon.recvmsgStore true k hdr bufLen store) := by
  simp only [Daemon.recvmsgStore]
  generalize hn : (if bufLen.toNat < store.pdu.length - store.pos then bufLen.toNat
    else store.pdu.length - store.pos) = n
  have hle : n ≤ (store.pdu.drop store.pos).length ∧ n ≤ bufLen.toNat := by
    rw [length_drop, ← hn]
    split <;> omega
  have hreply := credits_reply hdr bufLen hle.1 hle.2
  split
  · exact h.more (l := [_, _]) (append_assoc ..) hreply
  · exact h.more (l := [_, _]) (append_assoc ..) hreply

theorem stepSock_paid {e : SockEvent} (h : Paid k) (hroom : HasRoom k e) :
    Paid (stepSock k e) := by
  cases e with
  | frame wedge data =>
    have hloop := (h.pollAll POLLIN).fdfLoop hroom.1 data (pollAll k POLLIN).callList.length 0
    show Paid (daemonInFdfTcp wedge k data)
    simp only [daemonInFdfTcp]
    generalize fdfLoop wedge data (pollAll k POLLIN).callList.length (pollAll k POLLIN) 0 = r at *
    obtain ⟨k2, left⟩ := r
    cases left with
    | none => exact hloop
    | some pos =>
      simp only []
      split
      · exact hloop
      · exact hloop
  | recvmsg wedge hdr bufLen controllen flags =>
    obtain ⟨rfl, -⟩ := hroom
    show Paid (recvmsgOutTcp true k hdr bufLen controllen flags)
    have refused : Paid (k.emit (.nack hdr 1)) := h.emit rfl
    unfold recvmsgOutTcp
    split
    case h_3 => exact refused
    all_goals
      split
      · exact refused
      split
      · split
        · exact h
        · rename_i store stores _
          have hpaid : Paid { k with
              dataList := stores
              dataBuf := k.dataBuf - Int32.ofNat (store.pdu.length - store.pos) } := h
          exact hpaid.recvmsgStore hdr bufLen store
      split
      · exact h.emit (m := .recvmsg hdr bufLen []) rfl
      split
      · exact h
      · exact refused
  | timeout call =>
    show Paid (daemonHandleTo k call)
    unfold daemonHandleTo recvmsgTimeoutTcp
    split
    · exact Paid.emit (k := removeCall k call.callIndex) h rfl
    · exact Paid.emit (k := removeCall k call.callIndex) h rfl

/-! ### Runs -/

structure Served (fed : List UInt8) (k : DaemonSocket) : Prop where
  reader : Reader fed k
  paid : Paid k
  reading : k.status &&& DAEMON_STATUS_RD ≠ 0

theorem stepSock_served {fed : List UInt8} {e : SockEvent} (h : Served fed k) (he : Counts k e) :
    Served (fed ++ handedUp [e]) (stepSock k e) := by
  obtain ⟨hroom, hcount⟩ := he
  have hpaid := stepSock_paid h.paid hroom
  cases e with
  | frame wedge data =>
    have hdata : handedUp [.frame wedge data] = data := append_nil data
    rw [hdata] at hcount ⊢
    obtain ⟨hread, hstatus, -⟩ := daemonInFdfTcp_reads hroom.1 hroom.2.1 h.reader
      ⟨hroom.2.2, hcount⟩ h.reading
    refine ⟨hread, hpaid, ?_⟩
    show (daemonInFdfTcp wedge k data).status &&& _ ≠ 0
    rw [hstatus]
    exact h.reading
  | recvmsg wedge hdr bufLen controllen flags =>
    have hwedge : wedge := hroom.1
    have hnone : handedUp [.recvmsg wedge hdr bufLen controllen flags] = [] := rfl
    obtain ⟨hread, hstatus, -⟩ := recvmsgOutTcp_reads h.reader hdr bufLen controllen flags
    rw [hnone, append_nil]
    subst hwedge
    refine ⟨hread, hpaid, ?_⟩
    show (recvmsgOutTcp true k hdr bufLen controllen flags).status &&& _ ≠ 0
    rw [hstatus]
    exact h.reading
  | timeout call =>
    have hnone : handedUp [.timeout call] = [] := rfl
    rw [hnone, append_nil]
    refine ⟨(h.reader.timeout call).1, hpaid, ?_⟩
    show (daemonHandleTo k call).status &&& _ ≠ 0
    unfold daemonHandleTo recvmsgTimeoutTcp
    split <;> exact h.reading

theorem runSock_served {fed : List UInt8} {es : List SockEvent} (h : Served fed k)
    (hes : Steps stepSock Counts k es) : Served (fed ++ handedUp es) (runSock k es) := by
  induction es generalizing k fed with
  | nil =>
    have hnone : handedUp [] = [] := rfl
    rw [hnone, append_nil]
    exact h
  | cons e es ih =>
    rw [handedUp_cons, ← append_assoc]
    exact ih (stepSock_served h hes.1) hes.2

theorem connectedSocket_served : Served [] connectedSocket := by
  refine ⟨⟨rfl, ?_, rfl, by decide, fun _ => rfl⟩, rfl, by decide⟩
  intro store hstore
  cases hstore

theorem unread_length (l : List DaemonStore) :
    (unread l).length = (l.map fun store => store.pdu.length - store.pos).sum := by
  induction l with
  | nil => rfl
  | cons store l ih =>
    rw [unread_cons, length_append, ih, map_cons, sum_cons]
    exact congrArg (· + _) length_drop

/-- **The read path of a TCP socket.** -/
theorem socket_returns_in_order {es : List SockEvent}
    (hes : Steps stepSock Counts connectedSocket es) :
    let k := runSock connectedSocket es
    returned k.out ++ unread k.dataList = handedUp es ∧
      k.dataBuf.toInt = ((k.dataList.map fun store => store.pdu.length - store.pos).sum : Nat) ∧
      credits k.out = (returned k.out).length ∧
      (Waiting k → unread k.dataList = []) := by
  intro k
  have h : Served (handedUp es) k := runSock_served connectedSocket_served hes
  refine ⟨?_, ?_, h.paid, h.reader.waiting⟩
  · rw [← handedOut_answers]
    exact h.reader.bytes
  · rw [h.reader.buf, Int32.toInt_ofNat_of_lt h.reader.small, unread_length]

def readThree : List SockEvent :=
  [.recvmsg true ⟨.recvmsg, 1, 0⟩ 2 0 0, .frame (fun _ => true) [1, 2, 3],
   .recvmsg true ⟨.recvmsg, 2, 1⟩ 10 0 0]

theorem socket_returns_in_order_readThree :
    let k := runSock connectedSocket readThree
    returned k.out = [1, 2, 3] ∧ k.dataList = [] ∧
      returned k.out ++ unread k.dataList = handedUp readThree ∧ credits k.out = 3 := by
  have hes : Steps stepSock Counts connectedSocket readThree :=
    ⟨⟨⟨rfl, by decide⟩, by decide⟩, ⟨⟨fun _ => rfl, by decide, by decide⟩, by decide⟩,
      ⟨⟨rfl, by decide⟩, by decide⟩, trivial⟩
  obtain ⟨hbytes, -, hpaid, -⟩ := socket_returns_in_order hes
  have hout : returned (runSock connectedSocket readThree).out = [1, 2, 3] := by decide +kernel
  refine ⟨hout, by decide +kernel, hbytes, ?_⟩
  rw [hpaid, hout]
  rfl

/-! ### More bytes than an `int` can count -/

def flood (data : List UInt8) (n : Nat) : List SockEvent :=
  replicate n (.frame (fun _ => true) data)

def floodedSocket (data : List UInt8) (n : Nat) : DaemonSocket :=
  { connectedSocket with
    dataList := replicate n ⟨data, 0⟩, dataBuf := Int32.ofNat (n * data.length) }

theorem stepSock_flooded (data : List UInt8) {n : Nat} (hn : n < MAX_QUEUE_SIZE) :
    stepSock (floodedSocket data n) (.frame (fun _ => true) data) = floodedSocket data (n + 1) := by
  have hspace : (replicate n (⟨data, 0⟩ : DaemonStore)).length < MAX_QUEUE_SIZE := by
    rw [length_replicate]
    exact hn
  have hlist : replicate n (⟨data, 0⟩ : DaemonStore) ++ [⟨data, 0⟩] =
      replicate (n + 1) ⟨data, 0⟩ := (replicate_succ' ..).symm
  have hbuf : Int32.ofNat (n * data.length) + Int32.ofNat (data.length - 0) =
      Int32.ofNat ((n + 1) * data.length) := by
    rw [Nat.sub_zero, ← Int32.ofNat_add, Nat.succ_mul]
  show daemonInFdfTcp (fun _ => true) (floodedSocket data n) data = _
  unfold daemonInFdfTcp floodedSocket
  simp only [pollAll, connectedSocket, length_nil, map_nil, fdfLoop, hspace, if_true,
    hlist, hbuf, flatMap_nil, append_nil]

theorem runSock_flood (data : List UInt8) {n : Nat} (hn : n ≤ MAX_QUEUE_SIZE) (hne : data ≠ []) :
    Steps stepSock HasRoom connectedSocket (flood data n) ∧
      runSock connectedSocket (flood data n) = floodedSocket data n := by
  induction n with
  | zero =>
    refine ⟨trivial, ?_⟩
    show connectedSocket = floodedSocket data 0
    unfold floodedSocket
    rw [Nat.zero_mul]
    rfl
  | succ n ih =>
    obtain ⟨hsteps, hrun⟩ := ih (by omega)
    unfold runSock at hrun
    have hsplit : flood data (n + 1) = flood data n ++ [.frame (fun _ => true) data] :=
      replicate_succ' ..
    have hspace : (floodedSocket data n).dataList.length < MAX_QUEUE_SIZE := by
      show (replicate n (⟨data, 0⟩ : DaemonStore)).length < _
      rw [length_replicate]
      omega
    rw [hsplit]
    constructor
    · refine steps_append.mpr ⟨hsteps, ?_, trivial⟩
      rw [hrun]
      exact ⟨fun _ => rfl, hne, hspace⟩
    · show run stepSock _ _ = _
      rw [run_concat, hrun]
      exact stepSock_flooded data (by omega)

theorem recvmsg_waits {data : List UInt8} {n : Nat} (h : ¬ 0 < Int32.ofNat (n * data.length)) :
    recvmsgOutTcp true (floodedSocket data n) ⟨.recvmsg, 1, 0⟩ 10 0 0 =
      { floodedSocket data n with
        callList := [⟨⟨.recvmsg, 1, 0⟩, false, 10, 0, 0, false⟩] } := by
  have hflags : ¬ (0 &&& MSG_ERRQUEUE : UInt32) ≠ 0 := by decide
  have hopen : ¬ DAEMON_STATUS_RDWR &&& DAEMON_STATUS_RD = 0 := by decide
  have hroom : ([] : List DaemonCall).length < DAEMON_CALL_LIST_MAX := by decide
  unfold recvmsgOutTcp floodedSocket connectedSocket
  simp only [hflags, h, hopen, hroom, if_false, if_true]
  rfl

theorem unread_floodedSocket (data : List UInt8) (n : Nat) :
    (unread (floodedSocket data n).dataList).length = n * data.length := by
  rw [unread_length]
  show ((replicate n (⟨data, 0⟩ : DaemonStore)).map _).sum = _
  rw [map_replicate, sum_replicate_nat]
  rfl

/-- A peer that sends on while nothing is read, in segments of 65495 bytes: the count is
    negative, and a call waits beside all of the data. -/
theorem socket_looks_empty :
    ∃ es, Steps stepSock HasRoom connectedSocket es ∧
      let k := runSock connectedSocket es
      k.dataBuf.toInt ≠ ((k.dataList.map fun store => store.pdu.length - store.pos).sum : Nat) ∧
        Waiting k ∧ unread k.dataList ≠ [] := by
  have hdata : (replicate 65495 (0 : UInt8)).length = 65495 := length_replicate
  generalize replicate 65495 (0 : UInt8) = data at hdata
  have htotal : 32789 * data.length = 2147515555 := by rw [hdata]
  have hnot : ¬ 0 < Int32.ofNat (32789 * data.length) := by
    rw [htotal]
    decide
  obtain ⟨hsteps, hrun⟩ := runSock_flood data (n := 32789) (by decide)
    (ne_nil_of_length_pos (by rw [hdata]; decide))
  have hunread := unread_floodedSocket data 32789
  unfold runSock at hrun
  refine ⟨flood data 32789 ++ [.recvmsg true ⟨.recvmsg, 1, 0⟩ 10 0 0], ?_, ?_⟩
  · refine steps_append.mpr ⟨hsteps, ⟨rfl, ?_⟩, trivial⟩
    rw [hrun]
    exact (by decide : ([] : List DaemonCall).length < DAEMON_CALL_LIST_MAX)
  · intro k
    have hk : k = { floodedSocket data 32789 with
        callList := [⟨⟨.recvmsg, 1, 0⟩, false, 10, 0, 0, false⟩] } := by
      show run stepSock _ _ = _
      rw [run_concat, hrun]
      exact recvmsg_waits hnot
    rw [hk]
    refine ⟨?_, ⟨_, mem_singleton_self _, rfl⟩, fun hnil => ?_⟩
    · rw [← unread_length, hunread, htotal]
      show (Int32.ofNat (32789 * data.length)).toInt ≠ _
      rw [htotal]
      decide
    · rw [hnil, htotal] at hunread
      cases hunread

end FinsStack.Daemon
