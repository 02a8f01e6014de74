import FinsStack.Daemon.Socket
import FinsStack.Lib.Pipe

/-!
# A socket is a pipe

`DaemonSocket.pipe` reads a socket as the pipe of `Lib.Pipe`: what TCP handed over goes
in, the replies to `recvmsg` calls come out, and a reply without bytes to a call with a
buffer is the end of file.  `Reader` is the invariant of `data_list`, `data_buf` and
`call_list`: what was handed over and not returned is stored, and no call waits while
something is.  Every function of the socket keeps it and is a number of pipe steps.
-/

namespace FinsStack.Daemon

open List Lib

/-! ### The pipe of a socket -/

def answerOf : Msg → Option (Lib.Answer UInt8)
  | .recvmsg _ buf data => some (if data = [] ∧ buf ≠ 0 then .eof else .values data)
  | _ => none

def answers (l : List Msg) : List (Lib.Answer UInt8) := l.filterMap answerOf

@[simp] theorem answers_append (l l' : List Msg) : answers (l ++ l') = answers l ++ answers l' :=
  filterMap_append

def returned (l : List Msg) : List UInt8 :=
  l.flatMap fun
    | .recvmsg _ _ data => data
    | _ => []

theorem handedOut_answers (l : List Msg) : handedOut (answers l) = returned l := by
  induction l with
  | nil => rfl
  | cons m l ih =>
    show handedOut (answers ([m] ++ l)) = returned ([m] ++ l)
    rw [answers_append, handedOut_append, ih]
    refine congrArg (· ++ returned l) ?_
    cases m with
    | recvmsg hdr buf data =>
      show handedOut [if data = [] ∧ buf ≠ 0 then .eof else .values data] = data
      split
      · rename_i hc
        rw [hc.1]
        rfl
      · exact handedOut_values data
    | _ => rfl

def DaemonStore.rest (store : DaemonStore) : List UInt8 := store.pdu.drop store.pos

def unread (l : List DaemonStore) : List UInt8 := l.flatMap DaemonStore.rest

@[simp] theorem unread_cons (store : DaemonStore) (l : List DaemonStore) :
    unread (store :: l) = store.rest ++ unread l := rfl

@[simp] theorem unread_append (l l' : List DaemonStore) :
    unread (l ++ l') = unread l ++ unread l' :=
  flatMap_append

def Waiting (k : DaemonSocket) : Prop := ∃ call ∈ k.callList, daemonCallRecvmsgTest 0 call = true

def DaemonSocket.pipe (k : DaemonSocket) (fed : List UInt8) : Lib.Pipe UInt8 where
  fed := fed
  ended := k.status &&& DAEMON_STATUS_RD == 0
  answers := answers k.out

structure Reader (fed : List UInt8) (k : DaemonSocket) : Prop where
  bytes : Lib.handedOut (answers k.out) ++ unread k.dataList = fed
  stores : ∀ store ∈ k.dataList, store.rest ≠ []
  buf : k.dataBuf = Int32.ofNat (unread k.dataList).length
  small : (unread k.dataList).length < 2 ^ 31
  waiting : Waiting k → unread k.dataList = []

variable {fed : List UInt8} {k k' : DaemonSocket}

theorem Reader.congr (h : Reader fed k) (hl : k'.dataList = k.dataList)
    (hb : k'.dataBuf = k.dataBuf) (ho : answers k'.out = answers k.out)
    (hw : Waiting k' → Waiting k) : Reader fed k' where
  bytes := by rw [ho, hl]; exact h.bytes
  stores := hl ▸ h.stores
  buf := by rw [hb, hl]; exact h.buf
  small := hl ▸ h.small
  waiting := fun hwait => hl ▸ h.waiting (hw hwait)

theorem pipe_congr (hs : k'.status &&& DAEMON_STATUS_RD = k.status &&& DAEMON_STATUS_RD)
    (ho : answers k'.out = answers k.out) : k'.pipe fed = k.pipe fed := by
  unfold DaemonSocket.pipe
  rw [hs, ho]

theorem Reader.all_returned (h : Reader fed k) (hnil : unread k.dataList = []) :
    handedOut (answers k.out) = fed := by
  rw [← h.bytes, hnil, append_nil]

theorem Reader.dataBuf_pos_iff (h : Reader fed k) : 0 < k.dataBuf ↔ k.dataList ≠ [] := by
  rw [h.buf, Int32.lt_iff_toInt_lt, Int32.toInt_ofNat_of_lt h.small, Int32.toInt_zero]
  constructor
  · intro hpos hnil
    rw [hnil] at hpos
    exact absurd hpos (by decide)
  · intro hne
    obtain ⟨store, stores, hl⟩ := exists_cons_of_ne_nil hne
    have hrest := h.stores store (by rw [hl]; exact mem_cons_self ..)
    have hlen := length_pos_of_ne_nil hrest
    rw [hl, unread_cons, length_append]
    omega

/-! ### Calls that answer no reader -/

theorem answers_emit {m : Msg} (hm : answerOf m = none) :
    answers (k.emit m).out = answers k.out := by
  show answers (k.out ++ [m]) = _
  rw [answers_append]
  simp [answers, hm]

theorem Reader.emit (h : Reader fed k) {m : Msg} (hm : answerOf m = none) :
    Reader fed (k.emit m) :=
  h.congr rfl rfl (answers_emit hm) id

theorem waiting_of_removeCall {index : Nat} (h : Waiting (removeCall k index)) : Waiting k := by
  obtain ⟨call, hmem, htest⟩ := h
  exact ⟨call, mem_of_mem_eraseP hmem, htest⟩

theorem Reader.removeCall (h : Reader fed k) (index : Nat) :
    Reader fed (Daemon.removeCall k index) :=
  h.congr rfl rfl rfl waiting_of_removeCall

variable {call : DaemonCall} {data : List UInt8}

theorem Reader.insertCall (h : Reader fed k)
    (hcall : daemonCallRecvmsgTest 0 call → unread k.dataList = []) :
    Reader fed (daemonCallsInsert k call) := by
  refine ⟨h.bytes, h.stores, h.buf, h.small, ?_⟩
  rintro ⟨call', hmem, htest⟩
  rcases mem_append.mp hmem with hmem | hmem
  · exact h.waiting (waiting_of_removeCall ⟨call', hmem, htest⟩)
  · rw [mem_singleton.mp hmem] at htest
    exact hcall htest

theorem Reader.timeout (h : Reader fed k) (call : DaemonCall) :
    Reader fed (daemonHandleTo k call) ∧ (daemonHandleTo k call).pipe fed = k.pipe fed := by
  have hr := h.removeCall call.callIndex
  unfold daemonHandleTo recvmsgTimeoutTcp
  split
  · exact ⟨hr.emit rfl, pipe_congr rfl (answers_emit rfl)⟩
  · exact ⟨hr.emit rfl, pipe_congr rfl (answers_emit rfl)⟩

theorem pollInTcpFdf_test (flags : UInt32) (call : DaemonCall) :
    daemonCallRecvmsgTest 0 (pollInTcpFdf flags call).1 = daemonCallRecvmsgTest 0 call := by
  unfold pollInTcpFdf
  split
  · rfl
  · rename_i htype
    have hpoll : call.callType = .poll := not_not.mp htype
    simp only []
    split
    · simp only [daemonCallRecvmsgTest, hpoll]
      rfl
    · rfl

theorem answers_pollInTcpFdf (flags : UInt32) (call : DaemonCall) :
    answers (pollInTcpFdf flags call).2 = [] := by
  unfold pollInTcpFdf
  split
  · rfl
  · simp only []
    split <;> rfl

theorem answers_pollAll (flags : UInt32) : answers (pollAll k flags).out = answers k.out := by
  have hnone : ∀ l : List DaemonCall,
      answers (l.flatMap fun call => (pollInTcpFdf flags call).2) = [] := by
    intro l
    induction l with
    | nil => rfl
    | cons call l ih => rw [flatMap_cons, answers_append, answers_pollInTcpFdf, ih]; rfl
  show answers (k.out ++ _) = _
  rw [answers_append, hnone, append_nil]

theorem waiting_of_pollAll {flags : UInt32} (h : Waiting (pollAll k flags)) : Waiting k := by
  obtain ⟨call, hmem, htest⟩ := h
  obtain ⟨call', hmem', rfl⟩ := mem_map.mp hmem
  exact ⟨call', hmem', (pollInTcpFdf_test flags call').symm.trans htest⟩

theorem Reader.pollAll (h : Reader fed k) (flags : UInt32) : Reader fed (Daemon.pollAll k flags) :=
  h.congr rfl rfl (answers_pollAll flags) waiting_of_pollAll

/-! ### Replies -/

theorem pipe_answer {a : Answer UInt8} (hs : k'.status = k.status)
    (ho : answers k'.out = answers k.out ++ [a])
    (h : Pipe.Step (k.pipe fed) { k.pipe fed with answers := answers k.out ++ [a] }) :
    Pipe.Steps (k.pipe fed) (k'.pipe fed) := by
  have heq : k'.pipe fed = { k.pipe fed with answers := answers k.out ++ [a] } := by
    unfold DaemonSocket.pipe
    rw [hs, ho]
  rw [heq]
  exact .single h

theorem answers_recvmsg (k : DaemonSocket) (hdr : WedgeHdr) {buf : UInt32}
    (h : data = [] → buf = 0) :
    answers (sendWedgeRecvmsg true k hdr buf data).out = answers k.out ++ [.values data] := by
  have hvalues : ¬ (data = [] ∧ buf ≠ 0) := fun hc => hc.2 (h hc.1)
  show answers (k.out ++ [.recvmsg hdr buf data]) = _
  rw [answers_append]
  simp [answers, answerOf, hvalues]

/-- A call gets no bytes when everything was returned and the end is known: the end of
    file, unless it has no buffer or the wedge is gone. -/
theorem pipe_eof (wedge : Bool) (hdr : WedgeHdr) (buf : UInt32)
    (hend : k.status &&& DAEMON_STATUS_RD = 0) (hall : handedOut (answers k.out) = fed) :
    Pipe.Steps (k.pipe fed) ((sendWedgeRecvmsg wedge k hdr buf []).pipe fed) ∧
      handedOut (answers (sendWedgeRecvmsg wedge k hdr buf []).out) = fed := by
  cases wedge with
  | false =>
    have ho : answers (sendWedgeRecvmsg false k hdr buf []).out = answers k.out :=
      answers_emit (m := .nack hdr 1) rfl
    have hpipe : (sendWedgeRecvmsg false k hdr buf []).pipe fed = k.pipe fed := pipe_congr rfl ho
    rw [hpipe, ho]
    exact ⟨.refl, hall⟩
  | true =>
    by_cases hbuf : buf = 0
    · have ho := answers_recvmsg k hdr (fun _ : ([] : List UInt8) = [] => hbuf)
      refine ⟨pipe_answer rfl ho (.give _ [] ?_), ?_⟩
      · rw [append_nil]
        exact ⟨[], by rw [append_nil]; exact hall⟩
      · rw [ho, handedOut_append, hall]
        exact append_nil fed
    · have ho : answers (sendWedgeRecvmsg true k hdr buf []).out = answers k.out ++ [.eof] := by
        show answers (k.out ++ [.recvmsg hdr buf []]) = _
        rw [answers_append]
        simp [answers, answerOf, hbuf]
      refine ⟨pipe_answer rfl ho (.eof _ (beq_iff_eq.mpr hend) hall), ?_⟩
      rw [ho, handedOut_append, hall]
      exact append_nil fed

theorem buf_eq_zero {rest : List UInt8} {buf : UInt32} {n : Nat} (hrest : rest ≠ [])
    (hn : (if buf.toNat < rest.length then buf.toNat else rest.length) = n)
    (hempty : rest.take n = []) : buf = 0 := by
  rcases take_eq_nil_iff.mp hempty with hzero | hzero
  · rw [hzero] at hn
    split at hn
    · exact UInt32.toNat_inj.mp hn
    · exact absurd (length_eq_zero_iff.mp hn) hrest
  · exact absurd hzero hrest

/-! ### Frames for waiting calls -/

theorem takeRecvmsg_none (h : takeRecvmsg k = none) : ¬ Waiting k := by
  rintro ⟨call, hmem, htest⟩
  unfold takeRecvmsg at h
  rw [Option.map_eq_none_iff, find?_eq_none] at h
  exact h call hmem htest

theorem takeRecvmsg_some {k1 : DaemonSocket} (h : takeRecvmsg k = some (call, k1)) :
    Waiting k ∧ k1 = { k with callList := k.callList.erase call } ∧
      k1.callList.length + 1 = k.callList.length := by
  unfold takeRecvmsg at h
  obtain ⟨call', hfind, heq⟩ := Option.map_eq_some_iff.mp h
  cases heq
  have hmem := mem_of_find?_eq_some hfind
  refine ⟨⟨call, hmem, find?_some hfind⟩, rfl, ?_⟩
  show (k.callList.erase call).length + 1 = _
  rw [length_erase_of_mem hmem]
  have hpos := length_pos_of_mem hmem
  omega

theorem waiting_of_erase (h : Waiting { k with callList := k.callList.erase call }) :
    Waiting k := by
  obtain ⟨call', hmem, htest⟩ := h
  exact ⟨call', mem_of_mem_erase hmem, htest⟩

theorem recvmsgInTcpFdf_reads {rest : List UInt8} (h : Reader fed k)
    (hnil : unread k.dataList = []) (hrest : rest ≠ []) (call : DaemonCall) :
    let r := recvmsgInTcpFdf true k call rest
    r.2 ≤ rest.length ∧ Reader (fed ++ rest.take r.2) r.1 ∧ r.1.status = k.status ∧
      r.1.dataList = k.dataList ∧ r.1.callList = k.callList ∧
      Pipe.Steps (k.pipe (fed ++ rest)) (r.1.pipe (fed ++ rest)) := by
  intro r
  have hlen : r.2 = if call.buf.toNat < rest.length then call.buf.toNat else rest.length := rfl
  have hle : r.2 ≤ rest.length := by
    rw [hlen]
    split <;> omega
  have hsend := answers_recvmsg k call.toWedgeHdr (buf_eq_zero hrest hlen.symm)
  have hout : answers r.1.out = answers k.out ++ [.values (rest.take r.2)] :=
    (answers_emit (m := .hostWindow (UInt32.ofNat r.2)) rfl).trans hsend
  have hreturned := h.all_returned hnil
  refine ⟨hle, ⟨?_, h.stores, h.buf, h.small, h.waiting⟩, rfl, rfl, rfl, ?_⟩
  · show handedOut (answers r.1.out) ++ unread k.dataList = _
    rw [hout, hnil, handedOut_append, hreturned, handedOut_values, append_nil]
  · refine pipe_answer rfl hout (.give _ _ ?_)
    show handedOut (answers k.out) ++ rest.take r.2 <+: fed ++ rest
    rw [hreturned]
    exact ⟨rest.drop r.2, by rw [append_assoc, take_append_drop]⟩

/-- What the loop of `daemon_in_fdf_tcp` leaves: the whole frame has been returned, or no
    call waits and the frame goes on at some position. -/
structure FdfLeft (fed data : List UInt8) (k : DaemonSocket) (r : DaemonSocket × Option Nat) :
    Prop where
  status : r.1.status = k.status
  steps : Lib.Pipe.Steps (k.pipe fed) (r.1.pipe fed)
  used : r.2 = none → Reader fed r.1
  left : ∀ pos, r.2 = some pos → ¬ Waiting r.1 ∧ pos < data.length ∧
    r.1.dataList = k.dataList ∧ ∃ given, Reader given r.1 ∧ given ++ data.drop pos = fed

theorem fdfLeft_of_not_waiting {given : List UInt8} {pos : Nat} (hnone : ¬ Waiting k)
    (hpos : pos < data.length) (h : Reader given k) (hfed : given ++ data.drop pos = fed) :
    FdfLeft fed data k (k, some pos) := by
  refine ⟨rfl, .refl, fun hc => (nomatch hc), ?_⟩
  intro pos' heq
  cases heq
  exact ⟨hnone, hpos, rfl, given, h, hfed⟩

theorem fdfLoop_reads {wedge : DaemonCall → Bool} (hwedge : ∀ call, wedge call)
    (rounds : Nat) {pos : Nat} {given : List UInt8} (hrounds : k.callList.length ≤ rounds)
    (hpos : pos < data.length) (h : Reader given k) (hfed : given ++ data.drop pos = fed) :
    FdfLeft fed data k (fdfLoop wedge data rounds k pos) := by
  induction rounds generalizing k pos given with
  | zero =>
    refine fdfLeft_of_not_waiting ?_ hpos h hfed
    rintro ⟨call, hmem, -⟩
    exact absurd (length_pos_of_mem hmem) (by omega)
  | succ rounds ih =>
    unfold fdfLoop
    split
    · rename_i hnone
      exact fdfLeft_of_not_waiting (takeRecvmsg_none hnone) hpos h hfed
    · rename_i call k1 htake
      obtain ⟨hwait, hk1, hlen⟩ := takeRecvmsg_some htake
      have hnil := h.waiting hwait
      have hk1r : Reader given k1 := by
        rw [hk1]
        exact h.congr rfl rfl rfl waiting_of_erase
      have hrest : data.drop pos ≠ [] := by
        rw [ne_eq, drop_eq_nil_iff]
        omega
      rw [hwedge call]
      obtain ⟨hle, hread, hstatus, hlist, hcalls, hsteps⟩ :=
        recvmsgInTcpFdf_reads hk1r (by rw [hk1]; exact hnil) hrest call
      simp only []
      generalize recvmsgInTcpFdf true k1 call (data.drop pos) = r at *
      have hstart : k1.pipe fed = k.pipe fed := by
        rw [hk1]
        exact pipe_congr rfl rfl
      rw [hfed, hstart] at hsteps
      have hstat : r.1.status = k.status := by rw [hstatus, hk1]
      have hsame : r.1.dataList = k.dataList := by rw [hlist, hk1]
      rw [length_drop] at hle
      split
      · rename_i hend
        refine ⟨hstat, hsteps, fun _ => ?_, nofun⟩
        have hall : (data.drop pos).take r.2 = data.drop pos :=
          take_of_length_le (by rw [length_drop]; omega)
        rw [hall, hfed] at hread
        exact hread
      · rename_i hmore
        have hgiven : given ++ (data.drop pos).take r.2 ++ data.drop (pos + r.2) = fed := by
          rw [append_assoc, ← drop_drop, take_append_drop]
          exact hfed
        have hnext := ih (k := r.1) (by rw [hcalls]; omega) (by omega) hread hgiven
        refine ⟨hnext.status.trans hstat, hsteps.trans hnext.steps, hnext.used, ?_⟩
        intro pos' heq
        obtain ⟨hw, hp, hd, hg⟩ := hnext.left pos' heq
        exact ⟨hw, hp, hd.trans hsame, hg⟩

def Room (k : DaemonSocket) (data : List UInt8) : Prop :=
  k.dataList.length < MAX_QUEUE_SIZE ∧ k.dataBuf.toInt + data.length < 2 ^ 31
deriving Decidable

theorem daemonInFdfTcp_reads {wedge : DaemonCall → Bool} (hwedge : ∀ call, wedge call)
    (hne : data ≠ []) (h : Reader fed k) (hroom : Room k data)
    (hopen : k.status &&& DAEMON_STATUS_RD ≠ 0) :
    Reader (fed ++ data) (daemonInFdfTcp wedge k data) ∧
      (daemonInFdfTcp wedge k data).status = k.status ∧
      Pipe.Steps (k.pipe fed) ((daemonInFdfTcp wedge k data).pipe (fed ++ data)) := by
  have hpoll := h.pollAll POLLIN
  have hloop := fdfLoop_reads hwedge _ (Nat.le_refl _) (length_pos_of_ne_nil hne) hpoll
    (show fed ++ data.drop 0 = fed ++ data from rfl)
  have hfeed : Pipe.Steps (k.pipe fed) ((pollAll k POLLIN).pipe (fed ++ data)) := by
    have heq : (pollAll k POLLIN).pipe (fed ++ data) = k.pipe (fed ++ data) :=
      pipe_congr rfl (answers_pollAll POLLIN)
    rw [heq]
    exact .single (.feed (k.pipe fed) data (beq_eq_false_iff_ne.mpr hopen))
  have hsteps := hfeed.trans hloop.steps
  simp only [daemonInFdfTcp]
  generalize fdfLoop wedge data (pollAll k POLLIN).callList.length (pollAll k POLLIN) 0 = r at *
  obtain ⟨k2, left⟩ := r
  cases left with
  | none => exact ⟨hloop.used rfl, hloop.status, hsteps⟩
  | some pos =>
    obtain ⟨hnone, hpos, hlist, given, hread, hfed⟩ := hloop.left pos rfl
    have hlist' : k2.dataList = k.dataList := hlist
    have hspace : k2.dataList.length < MAX_QUEUE_SIZE := by
      rw [hlist']
      exact hroom.1
    simp only [hspace, if_true]
    have hrest : (⟨data, pos⟩ : DaemonStore).rest = data.drop pos := rfl
    have hlen : (unread (k2.dataList ++ [⟨data, pos⟩])).length =
        (unread k2.dataList).length + (data.length - pos) := by
      simp [hrest, unread]
    refine ⟨⟨?_, ?_, ?_, ?_, fun hw => absurd hw hnone⟩, hloop.status, hsteps⟩
    · rw [unread_append, unread_cons, hrest, ← hfed, ← hread.bytes]
      simp [unread]
    · refine forall_mem_append.mpr ⟨hread.stores, forall_mem_singleton.mpr ?_⟩
      rw [hrest, ne_eq, drop_eq_nil_iff]
      omega
    · rw [hlen, Int32.ofNat_add, ← hread.buf]
    · have hbuf : k.dataBuf.toInt = (unread k.dataList).length := by
        rw [h.buf, Int32.toInt_ofNat_of_lt h.small]
      have hsum := hroom.2
      rw [hbuf] at hsum
      rw [hlen, hlist']
      omega

/-! ### `recvmsg` -/

theorem Reader.serves {store : DaemonStore} {stores : List DaemonStore} {n : Nat} (h : Reader fed k)
    (hl : k.dataList = store :: stores) (hstatus : k'.status = k.status)
    (hout : answers k'.out = answers k.out ++ [.values (store.rest.take n)])
    (hleft : unread k'.dataList = store.rest.drop n ++ unread stores)
    (hstores : ∀ st ∈ k'.dataList, st.rest ≠ [])
    (hbuf : k'.dataBuf = Int32.ofNat (unread k'.dataList).length) (hw : Waiting k' → Waiting k) :
    Reader fed k' ∧ k'.status = k.status ∧ Pipe.Steps (k.pipe fed) (k'.pipe fed) := by
  have hgiven : handedOut (answers k'.out) ++ (store.rest.drop n ++ unread stores) = fed := by
    have hbytes := h.bytes
    rw [hl, unread_cons] at hbytes
    rw [hout, handedOut_append, handedOut_values, append_assoc,
      ← append_assoc (store.rest.take n), take_append_drop]
    exact hbytes
  refine ⟨⟨hleft ▸ hgiven, hstores, hbuf, ?_, fun hwait => ?_⟩, hstatus, ?_⟩
  · have hsmall := h.small
    rw [hl, unread_cons, length_append] at hsmall
    rw [hleft, length_append, length_drop]
    omega
  · have hnil := h.waiting (hw hwait)
    rw [hl, unread_cons, append_eq_nil_iff] at hnil
    rw [hleft, hnil.1, hnil.2, drop_nil, append_nil]
  · refine pipe_answer hstatus hout (.give _ _ ⟨store.rest.drop n ++ unread stores, ?_⟩)
    rw [hout, handedOut_append, handedOut_values] at hgiven
    exact hgiven

theorem recvmsgStore_reads {store : DaemonStore} {stores : List DaemonStore} (h : Reader fed k)
    (hl : k.dataList = store :: stores) (hdr : WedgeHdr) (bufLen : UInt32) :
    let k1 := recvmsgStore true
      { k with
        dataList := stores
        dataBuf := k.dataBuf - Int32.ofNat (store.pdu.length - store.pos) } hdr bufLen store
    Reader fed k1 ∧ k1.status = k.status ∧ Pipe.Steps (k.pipe fed) (k1.pipe fed) := by
  obtain ⟨hrest, hothers⟩ := forall_mem_cons.mp (hl ▸ h.stores)
  have hlen : store.rest.length = store.pdu.length - store.pos := length_drop
  have hbuf : k.dataBuf - Int32.ofNat store.rest.length = Int32.ofNat (unread stores).length := by
    rw [h.buf, hl, unread_cons, length_append, Int32.ofNat_add, Int32.add_comm,
      Int32.add_sub_cancel]
  unfold recvmsgStore
  simp only [← hlen]
  generalize hn : (if bufLen.toNat < store.rest.length then bufLen.toNat else store.rest.length) = n
  have hout : answers ((k.out ++ [.recvmsg hdr bufLen (store.rest.take n)]) ++
      [.hostWindow (UInt32.ofNat n)]) = answers k.out ++ [.values (store.rest.take n)] := by
    rw [answers_append]
    exact (append_nil _).trans (answers_recvmsg k hdr (buf_eq_zero hrest hn))
  split
  · rename_i hall
    refine h.serves hl rfl hout ?_ hothers hbuf id
    rw [hall, drop_length]
    rfl
  · rename_i hpart
    have hleft : (⟨store.pdu, store.pos + n⟩ : DaemonStore).rest = store.rest.drop n :=
      drop_drop.symm
    have hlen' : store.pdu.length - (store.pos + n) = (store.rest.drop n).length := by
      rw [length_drop]
      omega
    refine h.serves hl rfl hout (congrArg (· ++ unread stores) hleft) ?_ ?_ id
    · refine forall_mem_cons.mpr ⟨?_, hothers⟩
      rw [hleft, ne_eq, drop_eq_nil_iff]
      have hle : n ≤ store.rest.length := by
        rw [← hn]
        split <;> omega
      omega
    · show k.dataBuf - _ + Int32.ofNat _ =
        Int32.ofNat (unread (⟨store.pdu, store.pos + n⟩ :: stores)).length
      rw [hbuf, hlen', unread_cons, hleft, length_append, Int32.ofNat_add, Int32.add_comm]

theorem recvmsgOutTcp_reads (h : Reader fed k) (hdr : WedgeHdr)
    (bufLen controllen flags : UInt32) :
    let k1 := recvmsgOutTcp true k hdr bufLen controllen flags
    Reader fed k1 ∧ k1.status = k.status ∧ Pipe.Steps (k.pipe fed) (k1.pipe fed) := by
  have refused : Reader fed (k.emit (.nack hdr 1)) ∧ (k.emit (.nack hdr 1)).status = k.status ∧
      Pipe.Steps (k.pipe fed) ((k.emit (.nack hdr 1)).pipe fed) := by
    have hpipe : (k.emit (.nack hdr 1)).pipe fed = k.pipe fed := pipe_congr rfl (answers_emit rfl)
    rw [hpipe]
    exact ⟨h.emit rfl, rfl, .refl⟩
  intro k1
  unfold k1 recvmsgOutTcp
  split
  case h_3 => exact refused
  all_goals
    split
    · exact refused
    split
    · rename_i hpos
      obtain ⟨store, stores, hl⟩ := exists_cons_of_ne_nil (h.dataBuf_pos_iff.mp hpos)
      rw [hl]
      exact recvmsgStore_reads h hl hdr bufLen
    rename_i hzero
    have hnil : unread k.dataList = [] := by
      have hempty : k.dataList = [] := by
        by_contra hne
        exact hzero (h.dataBuf_pos_iff.mpr hne)
      rw [hempty]
      rfl
    split
    · rename_i hend
      obtain ⟨hsteps, hall⟩ := pipe_eof true hdr bufLen hend (h.all_returned hnil)
      refine ⟨⟨?_, h.stores, h.buf, h.small, h.waiting⟩, rfl, hsteps⟩
      show handedOut _ ++ unread k.dataList = fed
      rw [hnil, append_nil]
      exact hall
    split
    · exact ⟨h.insertCall fun _ => hnil, rfl, .refl⟩
    · exact refused

/-! ### The end of the stream -/

theorem compl_and_rd (m : UInt8) :
    (m &&& DAEMON_STATUS_RD = 0 → ~~~m &&& DAEMON_STATUS_RD = DAEMON_STATUS_RD) ∧
      (m &&& DAEMON_STATUS_RD ≠ 0 → ~~~m &&& DAEMON_STATUS_RD = 0) := by
  have hm := m.toNat_lt
  have hsize : UInt8.size = 256 := rfl
  simp only [DAEMON_STATUS_RD, ne_eq, ← UInt8.toNat_inj, UInt8.toNat_and, UInt8.toNat_not,
    UInt8.toNat_one, Nat.and_one_is_mod, UInt8.toNat_zero]
  omega

theorem status_keep_rd {status m : UInt8} (hm : m &&& DAEMON_STATUS_RD = 0) :
    (status &&& ~~~m) &&& DAEMON_STATUS_RD = status &&& DAEMON_STATUS_RD := by
  rw [UInt8.and_assoc, (compl_and_rd m).1 hm]

theorem status_clear_rd {status m : UInt8} (hm : m &&& DAEMON_STATUS_RD ≠ 0) :
    (status &&& ~~~m) &&& DAEMON_STATUS_RD = 0 := by
  rw [UInt8.and_assoc, (compl_and_rd m).2 hm, UInt8.and_zero]

theorem shutdownLoop_reads (wedge : DaemonCall → Bool) (rounds : Nat) (h : Reader fed k)
    (hend : k.status &&& DAEMON_STATUS_RD = 0) :
    Reader fed (shutdownLoop wedge rounds k) ∧
      (shutdownLoop wedge rounds k).status = k.status ∧
      Pipe.Steps (k.pipe fed) ((shutdownLoop wedge rounds k).pipe fed) := by
  induction rounds generalizing k with
  | zero => exact ⟨h, rfl, .refl⟩
  | succ rounds ih =>
    unfold shutdownLoop
    split
    · exact ⟨h, rfl, .refl⟩
    · rename_i call k1 htake
      obtain ⟨hwait, rfl, -⟩ := takeRecvmsg_some htake
      have hnil := h.waiting hwait
      obtain ⟨hsteps, hall⟩ := pipe_eof (k := { k with callList := k.callList.erase call })
        (wedge call) call.toWedgeHdr call.buf hend (h.all_returned hnil)
      have hread : Reader fed (sendWedgeRecvmsg (wedge call)
          { k with callList := k.callList.erase call } call.toWedgeHdr call.buf []) := by
        refine ⟨?_, h.stores, h.buf, h.small, fun _ => hnil⟩
        show handedOut _ ++ unread k.dataList = fed
        rw [hnil, append_nil]
        exact hall
      obtain ⟨hread', hstatus, hsteps'⟩ := ih hread hend
      exact ⟨hread', hstatus, Relation.ReflTransGen.trans hsteps hsteps'⟩

theorem daemonInShutdownTcp_reads (wedge : DaemonCall → Bool) (retMsg : UInt32)
    (h : Reader fed k) :
    let k1 := daemonInShutdownTcp wedge k retMsg
    Reader fed k1 ∧ Pipe.Steps (k.pipe fed) (k1.pipe fed) ∧
      (k1.status &&& DAEMON_STATUS_RD = 0 →
        k.status &&& DAEMON_STATUS_RD = 0 ∨ retMsg.toUInt8 &&& DAEMON_STATUS_RD ≠ 0) := by
  intro k1
  -- the socket before the waiting calls are told
  have hbefore : ∃ k2, Reader fed k2 ∧ answers k2.out = answers k.out ∧
      k2.status = k.status &&& ~~~retMsg.toUInt8 ∧
      k1 = if retMsg.toUInt8 &&& DAEMON_STATUS_RD ≠ 0 then shutdownLoop wedge k2.callList.length k2
        else k2 := by
    have h1 : Reader fed { k with status := k.status &&& ~~~retMsg.toUInt8 } :=
      h.congr rfl rfl rfl id
    by_cases hwr : retMsg.toUInt8 &&& DAEMON_STATUS_WR ≠ 0
    · refine ⟨_, h1.pollAll POLLHUP, answers_pollAll POLLHUP, rfl, ?_⟩
      unfold k1 daemonInShutdownTcp
      simp only [hwr, if_true, ne_eq, not_false_eq_true]
    · refine ⟨_, h1, rfl, rfl, ?_⟩
      unfold k1 daemonInShutdownTcp
      simp only [hwr, if_false]
  obtain ⟨k2, hread, hout, hstatus, hk1⟩ := hbefore
  rw [hk1]
  by_cases hrd : retMsg.toUInt8 &&& DAEMON_STATUS_RD ≠ 0
  · have hend : k2.status &&& DAEMON_STATUS_RD = 0 := by
      rw [hstatus]
      exact status_clear_rd hrd
    have hclose : Pipe.Steps (k.pipe fed) (k2.pipe fed) := by
      have heq : k2.pipe fed = { k.pipe fed with ended := true } := by
        unfold DaemonSocket.pipe
        rw [hout, hend]
        rfl
      rw [heq]
      exact .single (.close (k.pipe fed))
    obtain ⟨hread', -, hsteps⟩ := shutdownLoop_reads wedge k2.callList.length hread hend
    rw [if_pos hrd]
    exact ⟨hread', hclose.trans hsteps, fun _ => .inr hrd⟩
  · have hkeep : k2.status &&& DAEMON_STATUS_RD = k.status &&& DAEMON_STATUS_RD := by
      rw [hstatus]
      exact status_keep_rd (not_not.mp hrd)
    rw [if_neg hrd, hkeep, pipe_congr hkeep hout]
    exact ⟨hread, .refl, .inl⟩

theorem shutdownOutTcp_reads (flow : Bool) (hdr : WedgeHdr) {how : ShutHow} (h : Reader fed k)
    (hhow : how ≠ .rd ∧ how ≠ .rdwr) :
    let k1 := shutdownOutTcp flow k hdr how
    Reader fed k1 ∧ k1.pipe fed = k.pipe fed ∧
      k1.status &&& DAEMON_STATUS_RD = k.status &&& DAEMON_STATUS_RD := by
  intro k1
  have hshape : k1.dataList = k.dataList ∧ k1.dataBuf = k.dataBuf ∧ k1.callList = k.callList ∧
      answers k1.out = answers k.out ∧
      k1.status &&& DAEMON_STATUS_RD = k.status &&& DAEMON_STATUS_RD := by
    unfold k1 shutdownOutTcp
    cases how with
    | rd => exact absurd rfl hhow.1
    | rdwr => exact absurd rfl hhow.2
    | other n => exact ⟨rfl, rfl, rfl, answers_emit rfl, rfl⟩
    | wr =>
      have hbit : (k.status &&& DAEMON_STATUS_WR) &&& DAEMON_STATUS_RD = 0 := by
        rw [UInt8.and_assoc]
        exact UInt8.and_zero
      simp only [ShutHow.status]
      split
      · split
        · split
          · exact ⟨rfl, rfl, rfl, (answers_emit rfl).trans (answers_emit rfl),
              status_keep_rd hbit⟩
          · exact ⟨rfl, rfl, rfl, answers_emit rfl, status_keep_rd hbit⟩
        · exact ⟨rfl, rfl, rfl, answers_emit rfl, rfl⟩
      · exact ⟨rfl, rfl, rfl, answers_emit rfl, rfl⟩
  obtain ⟨hlist, hbuf, hcalls, hout, hstatus⟩ := hshape
  refine ⟨h.congr hlist hbuf hout ?_, pipe_congr hstatus hout, hstatus⟩
  unfold Waiting
  rw [hcalls]
  exact id

end FinsStack.Daemon
