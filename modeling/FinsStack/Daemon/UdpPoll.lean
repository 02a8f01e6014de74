import FinsStack.Daemon.Udp
import FinsStack.Lib.Keyed
import FinsStack.Lib.Mask

/-!
# Polling a UDP socket of the daemon

`daemon/udpHandling.c`.

The wedge polls twice: an *initial* poll names the events it asks for, a *final* one, without
events, asks what has become of them.  In between the daemon keeps a record of the poll on
`call_list`.  The source says what its three masks mean:

    buf              events not yet triggered
    flags            events triggered but not ACK'd
    ret              events already triggered & ACK'd
    buf|flags|ret    original events received

`udp_poll_bookkeeping` proves it of every socket that can be reached, whatever the interleaving.
-/

namespace FinsStack.Daemon

open List Function Lib

open Lib (AtMostOne updateFirst Parts Within)

/-! ### The socket -/

structure PidCall extends DaemonCall where
  callPid : Int
deriving DecidableEq, Repr

structure PidHdr extends WedgeHdr where
  callPid : Int
deriving DecidableEq, Repr

structure PolledUdp where
  fipRecverr : Bool
  callList : List PidCall
  dataList : List Nat
  dataBuf : Int32
  errorLen : Nat
deriving DecidableEq, Repr

def polledUdp (fipRecverr : Bool) : PolledUdp := ⟨fipRecverr, [], [], 0, 0⟩

inductive PollAnswer where
  | ack (mask : UInt32)
  | nack (msg : UInt32)
deriving DecidableEq, Repr

def PollAnswer.mask : PollAnswer → UInt32
  | .ack mask => mask
  | .nack _ => 0

/-! ### Polls of the wedge -/

def pollRead : UInt32 := POLLIN ||| POLLRDNORM ||| POLLPRI ||| POLLRDBAND
def pollWrite : UInt32 := POLLOUT ||| POLLWRNORM ||| POLLWRBAND

def daemonCallPidTest (callPid : Int) (callType : CallType) (call : PidCall) : Bool :=
  call.callPid == callPid && call.callType == callType

def readyMask (k : PolledUdp) (events : UInt32) : UInt32 :=
  let err := if events &&& POLLERR ≠ 0 ∧ k.fipRecverr ∧ 0 < k.errorLen then POLLERR else 0
  let rd := if events &&& pollRead ≠ 0 ∧ 0 < k.dataBuf then POLLIN ||| POLLRDNORM ||| POLLPRI else 0
  let wr := if events &&& pollWrite ≠ 0 then pollWrite else 0
  err ||| rd ||| wr

def pollOutInitial (k : PolledUdp) (hdr : PidHdr) (events : UInt32) : PolledUdp × PollAnswer :=
  let mask := readyMask k events
  let retMask := events &&& mask
  let eventsLeft := events &&& ~~~mask
  let test := daemonCallPidTest hdr.callPid hdr.callType
  if eventsLeft ≠ 0 then
    match k.callList.find? test with
    | some _ =>
      let update (call : PidCall) : PidCall :=
        { call with buf := eventsLeft, flags := 0, ret := retMask }
      ({ k with callList := updateFirst test update k.callList }, .ack retMask)
    | none =>
      if k.callList.length < DAEMON_CALL_LIST_MAX then
        -- `daemon_call_create`
        let call : PidCall :=
          { hdr with
            alloc := true, buf := eventsLeft, flags := 0, ret := retMask, toTimer := false }
        ({ k with callList := k.callList ++ [call] }, .ack retMask)
      else (k, .nack 1)
  else ({ k with callList := k.callList.eraseP test }, .ack retMask)

def pollOutFinal (k : PolledUdp) (hdr : PidHdr) : PolledUdp × PollAnswer :=
  let test := daemonCallPidTest hdr.callPid hdr.callType
  match k.callList.find? test with
  | some call =>
    let events := call.buf ||| call.flags
    let mask := readyMask k events
    let retMask := events &&& mask
    let eventsLeft := events &&& ~~~mask
    if eventsLeft ≠ 0 then
      let update (call : PidCall) : PidCall :=
        { call with buf := eventsLeft, flags := 0, ret := call.ret ||| retMask }
      ({ k with callList := updateFirst test update k.callList }, .ack retMask)
    else ({ k with callList := k.callList.eraseP test }, .ack retMask)
  -- all that the socket is ready for
  | none => (k, .ack (readyMask k (POLLERR ||| pollRead ||| pollWrite)))

def pollOutUdp (k : PolledUdp) (hdr : PidHdr) (events : UInt32) : PolledUdp × PollAnswer :=
  if events ≠ 0 then pollOutInitial k hdr events else pollOutFinal k hdr

/-! ### Frames and readers -/

def pollInCall (flags : UInt32) (call : PidCall) : PidCall :=
  { call with toDaemonCall := (pollInUdp flags call.toDaemonCall).1 }

def pollInAll (k : PolledUdp) (flags : UInt32) : PolledUdp :=
  { k with callList := k.callList.map (pollInCall flags) }

def inDatagram (k : PolledUdp) (len : Nat) : PolledUdp :=
  match k.callList.find? fun call => daemonCallRecvmsgTest 0 call.toDaemonCall with
  | some call => { k with callList := k.callList.erase call }
  | none =>
    let k1 := pollInAll k POLLIN
    if k1.dataList.length < MAX_QUEUE_SIZE then
      { k1 with dataList := k1.dataList ++ [len], dataBuf := k1.dataBuf + Int32.ofNat len }
    else k1

def storeError (k : PolledUdp) : PolledUdp :=
  if k.errorLen < MAX_QUEUE_SIZE then
    { k with errorLen := if k.fipRecverr then k.errorLen + 1 else 1 }
  else k

def inError (k : PolledUdp) : PolledUdp :=
  if k.fipRecverr then
    match k.callList.find? fun call => daemonCallRecvmsgTest 1 call.toDaemonCall with
    | some call => { k with callList := k.callList.erase call }
    | none => storeError (pollInAll k POLLERR)
  else storeError k

def outRecvmsg (k : PolledUdp) (hdr : PidHdr) (bufLen msgControllen flags : UInt32) : PolledUdp :=
  if flags &&& MSG_ERRQUEUE ≠ 0 then { k with errorLen := k.errorLen - 1 }
  else if 0 < k.dataBuf then
    match k.dataList with
    | [] => k
    | len :: lens => { k with dataList := lens, dataBuf := k.dataBuf - Int32.ofNat len }
  else if k.callList.length < DAEMON_CALL_LIST_MAX then
    let others := k.callList.eraseP fun call => !call.alloc && call.callIndex == hdr.callIndex
    let call : PidCall :=
      { hdr with
        alloc := false, buf := bufLen, flags := flags, ret := msgControllen
        toTimer := flags &&& Tcp.MSG_DONTWAIT ≠ 0 }
    { k with callList := others ++ [call] }
  else k

/-! ### The system -/

inductive PollEvent where
  | poll (callPid : Int) (callId : UInt32) (callIndex : Nat) (events : UInt32)
  | datagram (len : Nat)
  | error
  | recvmsg (callPid : Int) (callId : UInt32) (callIndex : Nat)
      (bufLen msgControllen flags : UInt32)
deriving DecidableEq, Repr

structure PollWatch where
  sock : PolledUdp
  asked : Int → UInt32
  acked : Int → UInt32

def pollHdr (callPid : Int) (callId : UInt32) (callIndex : Nat) : PidHdr :=
  ⟨⟨.poll, callId, callIndex⟩, callPid⟩

def stepPoll (w : PollWatch) : PollEvent → PollWatch
  | .poll callPid callId callIndex events =>
    let r := pollOutUdp w.sock (pollHdr callPid callId callIndex) events
    { sock := r.1
      asked := if events ≠ 0 then update w.asked callPid events else w.asked
      acked := update w.acked callPid
        ((if events ≠ 0 then 0 else w.acked callPid) ||| r.2.mask) }
  | .datagram len => { w with sock := inDatagram w.sock len }
  | .error => { w with sock := inError w.sock }
  | .recvmsg callPid callId callIndex bufLen msgControllen flags =>
    { w with
      sock :=
        outRecvmsg w.sock ⟨⟨.recvmsg, callId, callIndex⟩, callPid⟩ bufLen msgControllen flags }

abbrev runPoll (fipRecverr : Bool) (es : List PollEvent) : PollWatch :=
  run stepPoll ⟨polledUdp fipRecverr, fun _ => 0, fun _ => 0⟩ es

def pollOf (callPid : Int) : PidCall → Bool := daemonCallPidTest callPid .poll

/-- The masks of a record divide the events its process asked for, and `ret` is what it was
    told. -/
structure Recorded (asked acked : UInt32) (call : PidCall) : Prop where
  parts : Parts asked call.buf call.flags call.ret
  acked : call.ret = acked

structure Booked (w : PollWatch) : Prop where
  single : ∀ callPid, AtMostOne (pollOf callPid) w.sock.callList
  recorded : ∀ call ∈ w.sock.callList, call.callType = .poll →
    Recorded (w.asked call.callPid) (w.acked call.callPid) call

/-! ### Records that are not polled -/

variable {w : PollWatch} {k : PolledUdp}

variable {callPid : Int} {call : PidCall} {sock : PolledUdp} {acked asked : UInt32}

theorem pollOf_iff :
    pollOf callPid call = true ↔ call.callPid = callPid ∧ call.callType = .poll := by
  simp [pollOf, daemonCallPidTest]

theorem Booked.of_sublist (hb : Booked w) (hl : sock.callList.Sublist w.sock.callList) :
    Booked { w with sock := sock } where
  single := fun callPid => (hb.single callPid).sublist hl
  recorded := fun call hcall => hb.recorded call (hl.subset hcall)

theorem Booked.of_callList (hb : Booked w) (hl : sock.callList = w.sock.callList) :
    Booked { w with sock := sock } :=
  hb.of_sublist (hl ▸ Sublist.refl _)

theorem Booked.concat (hb : Booked w) (hcall : call.callType ≠ .poll)
    (hl : sock.callList = w.sock.callList ++ [call]) : Booked { w with sock := sock } where
  single := by
    intro callPid
    rw [hl]
    apply (hb.single callPid).concat
    intro h
    exact absurd (pollOf_iff.mp h).2 hcall
  recorded := by
    intro c hc hpoll
    rw [hl] at hc
    rcases mem_append.mp hc with hc | hc
    · exact hb.recorded c hc hpoll
    · rw [mem_singleton.mp hc] at hpoll
      exact absurd hpoll hcall

/-! ### Events that are triggered -/

theorem pollInCall_callPid (flags : UInt32) (call : PidCall) :
    (pollInCall flags call).callPid = call.callPid := rfl

theorem pollInCall_callType (flags : UInt32) (call : PidCall) :
    (pollInCall flags call).callType = call.callType := by
  simp only [pollInCall, pollInUdp, pollInTcpFdf]
  split
  · rfl
  · split <;> rfl

theorem Recorded.pollInCall (h : Recorded asked acked call) (flags : UInt32) :
    Recorded asked acked (pollInCall flags call) := by
  simp only [Daemon.pollInCall, pollInUdp, pollInTcpFdf]
  split
  · exact h
  · split
    · exact ⟨h.parts.advance _, h.acked⟩
    · exact h

theorem Booked.pollInAll (hb : Booked w) (flags : UInt32) :
    Booked { w with sock := pollInAll w.sock flags } where
  single := by
    intro callPid
    apply (hb.single callPid).map
    intro call
    simp only [pollOf, daemonCallPidTest, pollInCall_callPid, pollInCall_callType]
  recorded := by
    intro call hcall hpoll
    obtain ⟨old, hold, rfl⟩ := mem_map.mp hcall
    rw [pollInCall_callType] at hpoll
    exact (hb.recorded old hold hpoll).pollInCall flags

theorem Booked.inDatagram (hb : Booked w) (len : Nat) :
    Booked { w with sock := inDatagram w.sock len } := by
  simp only [Daemon.inDatagram]
  split
  · exact hb.of_sublist (erase_sublist ..)
  · have hin := hb.pollInAll POLLIN
    split
    · exact hin.of_callList rfl
    · exact hin

theorem storeError_callList (k : PolledUdp) : (storeError k).callList = k.callList := by
  simp only [storeError]
  split <;> rfl

theorem Booked.inError (hb : Booked w) : Booked { w with sock := inError w.sock } := by
  simp only [Daemon.inError]
  split
  · split
    · exact hb.of_sublist (erase_sublist ..)
    · exact (hb.pollInAll POLLERR).of_callList (storeError_callList _)
  · exact hb.of_callList (storeError_callList _)

theorem Booked.outRecvmsg (hb : Booked w) (callPid : Int) (callId : UInt32) (callIndex : Nat)
    (bufLen msgControllen flags : UInt32) :
    Booked { w with
      sock := outRecvmsg w.sock ⟨⟨.recvmsg, callId, callIndex⟩, callPid⟩ bufLen msgControllen
        flags } := by
  simp only [Daemon.outRecvmsg]
  split
  · exact hb.of_callList rfl
  · split
    · split
      · exact hb
      · exact hb.of_callList rfl
    · split
      · have hothers : Booked { w with sock := { w.sock with
            callList := w.sock.callList.eraseP fun call =>
              !call.alloc && call.callIndex == callIndex } } :=
          hb.of_sublist (eraseP_sublist ..)
        exact hothers.concat (by simp) rfl
      · exact hb

/-! ### Polls -/

theorem Booked.polled (hb : Booked w)
    (hsingle : ∀ pid, AtMostOne (pollOf pid) sock.callList)
    (hmem : ∀ call ∈ sock.callList,
      (call ∈ w.sock.callList ∧ pollOf callPid call = false) ∨
        (call.callPid = callPid ∧ Recorded asked acked call)) :
    Booked ⟨sock, update w.asked callPid asked, update w.acked callPid acked⟩ where
  single := hsingle
  recorded := by
    intro call hcall hpoll
    rcases hmem call hcall with ⟨hold, hother⟩ | ⟨rfl, hrec⟩
    · have hne : call.callPid ≠ callPid := by
        intro heq
        rw [pollOf_iff.mpr ⟨heq, hpoll⟩] at hother
        cases hother
      simp only [update_of_ne hne]
      exact hb.recorded call hold hpoll
    · simp only [update_self]
      exact hrec

theorem Booked.updated {f : PidCall → PidCall} (hb : Booked w)
    (hl : sock.callList = updateFirst (pollOf callPid) f w.sock.callList)
    (hpid : ∀ call, (f call).callPid = call.callPid)
    (htype : ∀ call, (f call).callType = call.callType)
    (hrec : ∀ call, w.sock.callList.find? (pollOf callPid) = some call →
      Recorded asked acked (f call)) :
    Booked ⟨sock, update w.asked callPid asked, update w.acked callPid acked⟩ := by
  apply hb.polled
  · intro pid
    rw [hl]
    apply (hb.single pid).updateFirst
    intro call
    simp only [pollOf, daemonCallPidTest, hpid, htype]
  · intro call hcall
    rw [hl] at hcall
    rcases mem_updateFirst (hb.single callPid) hcall with h | ⟨old, hold, rfl⟩
    · exact .inl h
    · have hfound := (pollOf_iff.mp (find?_some hold)).1
      exact .inr ⟨(hpid old).trans hfound, hrec old hold⟩

section

variable (hb : Booked w)
include hb

theorem Booked.erased (asked acked : UInt32)
    (hl : sock.callList = w.sock.callList.eraseP (pollOf callPid)) :
    Booked ⟨sock, update w.asked callPid asked, update w.acked callPid acked⟩ := by
  apply hb.polled
  · intro pid
    rw [hl]
    exact (hb.single pid).sublist (eraseP_sublist ..)
  · intro call hcall
    rw [hl] at hcall
    exact .inl (mem_eraseP (hb.single callPid) hcall)

theorem Booked.created (hnone : w.sock.callList.find? (pollOf callPid) = none)
    (hl : sock.callList = w.sock.callList ++ [call]) (hpid : call.callPid = callPid)
    (hrec : Recorded asked acked call) :
    Booked ⟨sock, update w.asked callPid asked, update w.acked callPid acked⟩ := by
  apply hb.polled
  · intro pid
    rw [hl]
    apply (hb.single pid).concat
    intro hcall
    rw [← (pollOf_iff.mp hcall).1, hpid]
    exact hnone
  · intro c hc
    rw [hl] at hc
    rcases mem_append.mp hc with hc | hc
    · have := find?_eq_none.mp hnone c hc
      exact .inl ⟨hc, by simpa using this⟩
    · rw [mem_singleton.mp hc]
      exact .inr ⟨hpid, hrec⟩

theorem Booked.refused (asked acked : UInt32)
    (hnone : w.sock.callList.find? (pollOf callPid) = none) :
    Booked ⟨w.sock, update w.asked callPid asked,
      update w.acked callPid acked⟩ := by
  apply hb.polled hb.single
  intro call hcall
  have := find?_eq_none.mp hnone call hcall
  exact .inl ⟨hcall, by simpa using this⟩

theorem Booked.initial (callPid : Int) (callId : UInt32) (callIndex : Nat) (events : UInt32) :
    Booked ⟨(pollOutInitial w.sock (pollHdr callPid callId callIndex) events).1,
      update w.asked callPid events,
      update w.acked callPid
        (pollOutInitial w.sock (pollHdr callPid callId callIndex) events).2.mask⟩ := by
  have hfresh := Parts.fresh events (readyMask w.sock events)
  simp only [pollOutInitial, pollHdr]
  split
  · split
    · exact hb.updated rfl (fun _ => rfl) (fun _ => rfl) (fun _ _ => ⟨hfresh, rfl⟩)
    · rename_i hnone
      split
      · exact hb.created hnone rfl rfl ⟨hfresh, rfl⟩
      · exact hb.refused _ _ hnone
  · exact hb.erased _ _ rfl

theorem Booked.final (callPid : Int) (callId : UInt32) (callIndex : Nat) :
    Booked ⟨(pollOutFinal w.sock (pollHdr callPid callId callIndex)).1, w.asked,
      update w.acked callPid
        (w.acked callPid |||
          (pollOutFinal w.sock (pollHdr callPid callId callIndex)).2.mask)⟩ := by
  rw [← update_eq_self callPid w.asked]
  simp only [pollOutFinal, pollHdr]
  split
  · rename_i call hfound
    split
    · refine hb.updated rfl (fun _ => rfl) (fun _ => rfl) ?_
      intro call' hfound'
      cases hfound.symm.trans hfound'
      have hpoll := pollOf_iff.mp (find?_some hfound)
      have hrec := hb.recorded call (mem_of_find?_eq_some hfound) hpoll.2
      rw [hpoll.1] at hrec
      refine ⟨hrec.parts.settle _, ?_⟩
      simp only [hrec.acked, PollAnswer.mask]
    · exact hb.erased _ _ rfl
  · rename_i hnone
    exact hb.refused _ _ hnone

theorem Booked.step (e : PollEvent) : Booked (stepPoll w e) := by
  cases e with
  | poll callPid callId callIndex events =>
    by_cases hevents : events = 0
    · simpa only [stepPoll, pollOutUdp, hevents, ne_eq, not_true, if_false] using
        hb.final callPid callId callIndex
    · simpa only [stepPoll, pollOutUdp, hevents, ne_eq, not_false_eq_true, if_true,
        UInt32.zero_or] using hb.initial callPid callId callIndex events
  | datagram len => exact hb.inDatagram len
  | error => exact hb.inError
  | recvmsg callPid callId callIndex bufLen msgControllen flags =>
    exact hb.outRecvmsg callPid callId callIndex bufLen msgControllen flags

end

/-! ### Answers -/

theorem pollOutInitial_within {hdr : PidHdr} {events mask : UInt32}
    (h : (pollOutInitial k hdr events).2 = .ack mask) : Within mask events := by
  have hready : mask = events &&& readyMask k events := by
    simp only [pollOutInitial] at h
    split at h
    · split at h
      · cases h
        rfl
      · split at h <;> cases h
        rfl
    · cases h
      rfl
  rw [hready]
  exact and_within ..

theorem Booked.final_within (hb : Booked w) {callId : UInt32} {callIndex : Nat} {mask : UInt32}
    (hstored : ∃ call ∈ w.sock.callList, pollOf callPid call)
    (h : (pollOutFinal w.sock (pollHdr callPid callId callIndex)).2 = .ack mask) :
    Within mask (w.asked callPid) ∧ mask &&& w.acked callPid = 0 := by
  obtain ⟨call, hfound⟩ : ∃ call, w.sock.callList.find? (pollOf callPid) = some call := by
    apply Option.isSome_iff_exists.mp
    simpa using hstored
  have hpoll := pollOf_iff.mp (find?_some hfound)
  have hrec := hb.recorded call (mem_of_find?_eq_some hfound) hpoll.2
  rw [hpoll.1] at hrec
  have hmask : mask = (call.buf ||| call.flags) &&&
      readyMask w.sock (call.buf ||| call.flags) := by
    have hfound' : w.sock.callList.find? (daemonCallPidTest callPid .poll) = some call := hfound
    simp only [pollOutFinal, pollHdr, hfound'] at h
    split at h <;> cases h <;> rfl
  rw [hmask, ← hrec.acked]
  exact ⟨hrec.parts.selected_within _, hrec.parts.selected_disjoint _⟩

theorem Recorded.notified (h : Recorded asked acked call) {flags mask : UInt32}
    (hm : .plain (.pollEvent mask) ∈ (pollInUdp flags call.toDaemonCall).2) :
    Within mask asked ∧ mask &&& acked = 0 := by
  have hmask : mask = call.buf &&& pollMask flags call.buf := by
    simp only [pollInUdp, pollInTcpFdf] at hm
    split at hm
    · simp at hm
    · split at hm
      · simpa using hm
      · simp at hm
  rw [hmask, ← h.acked]
  exact ⟨h.parts.first_within _, h.parts.first_disjoint _⟩

/-- **Polling a UDP socket.**  A process has one record at most, whose masks divide the events of
    its last initial poll; an initial poll is told of events that it names, and a final poll that
    finds a record, like a notification, of events asked for and not told of before. -/
theorem udp_poll_bookkeeping (fipRecverr : Bool) (es : List PollEvent) :
    let w := runPoll fipRecverr es
    (∀ callPid, AtMostOne (pollOf callPid) w.sock.callList) ∧
    (∀ call ∈ w.sock.callList, call.callType = .poll →
      Parts (w.asked call.callPid) call.buf call.flags call.ret) ∧
    (∀ callPid callId callIndex events mask,
      (pollOutUdp w.sock (pollHdr callPid callId callIndex) events).2 = .ack mask →
      (events ≠ 0 → Within mask events) ∧
      (events = 0 → (∃ call ∈ w.sock.callList, pollOf callPid call = true) →
        Within mask (w.asked callPid) ∧ mask &&& w.acked callPid = 0)) ∧
    ∀ call ∈ w.sock.callList, call.callType = .poll → ∀ flags mask,
      .plain (.pollEvent mask) ∈ (pollInUdp flags call.toDaemonCall).2 →
      Within mask (w.asked call.callPid) ∧ mask &&& w.acked call.callPid = 0 := by
  intro w
  have hstart : Booked ⟨polledUdp fipRecverr, fun _ => 0, fun _ => 0⟩ :=
    ⟨fun _ => Nat.zero_le _, fun call hcall => absurd hcall not_mem_nil⟩
  have hb : Booked w := run_invariant (fun w e (hw : Booked w) => hw.step e) hstart es
  refine ⟨hb.single, fun call hcall hpoll => (hb.recorded call hcall hpoll).parts, ?_, ?_⟩
  · intro callPid callId callIndex events mask h
    constructor
    · intro hevents
      rw [pollOutUdp, if_pos hevents] at h
      exact pollOutInitial_within h
    · intro hevents hstored
      rw [pollOutUdp, if_neg (not_not.mpr hevents)] at h
      exact hb.final_within hstored h
  · intro call hcall hpoll flags mask hm
    exact (hb.recorded call hcall hpoll).notified hm

end FinsStack.Daemon
