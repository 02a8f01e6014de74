import FinsStack.Daemon.Reader
import FinsStack.Lib.Run

/-!
# The reading side of a UDP socket of the daemon

`daemon/udpHandling.c`, `daemon/daemon_netlink.c`.

A datagram goes to the first `recvmsg` call that waits, or to `data_list` when none does.
One reply carries one datagram: as much of it as the buffer takes, where it came from, and
`MSG_TRUNC` when the rest is lost.

A call decides by `data_buf`, the number of *bytes* in `data_list`, whether there is a
datagram for it.  Datagrams may be empty.  With nothing but empty ones stored a call waits
beside them, and the next datagram overtakes them (`udp_empty_datagram_overtaken`).
-/

namespace FinsStack.Daemon

open List Lib

def MSG_CTRUNC : UInt32 := 0x8
def MSG_TRUNC : UInt32 := 0x20

def DAEMON_CONTROL_LEN_MAX : UInt32 := 10240
def DAEMON_CONTROL_LEN_DEFAULT : UInt32 := 1024

def EHOSTUNREACH : UInt32 := 113

/-! ### The socket -/

structure SockOpts where
  fsoTimestamp : Bool
  fipRecvttl : Bool
  fipRecverr : Bool
deriving DecidableEq, Repr

/-- The elements of a frame's metadata that `recvmsg_control` reads.  Those after the first
    are there for the frames of `error_list`. -/
structure RecvMeta where
  recvTtl : Option Int32
  recvSrcIpv4 : UInt32
  recvEeOrigin : UInt32
  recvIcmpType : UInt32
  recvIcmpCode : UInt32
deriving DecidableEq, Repr

structure UdpStore where
  ip : UInt32
  port : UInt16
  pdu : List UInt8
  md : RecvMeta
deriving DecidableEq, Repr

/-- A control message, without the time of `SO_TIMESTAMP`. -/
inductive Cmsg where
  | timestamp
  | ttl (recvTtl : Int32)
  | recverr (errno origin type code : UInt32) (offender : List UInt8)
deriving DecidableEq, Repr

/-- What `send_wedge_recvmsg` sends: the address is the `sockaddr_in` as it lies in memory.
    `buf` is the buffer size of the call, which is not part of the message. -/
structure RecvReply where
  hdr : WedgeHdr
  buf : UInt32
  msgFlags : UInt32
  sinAddr : List UInt8
  sinPort : List UInt8
  data : List UInt8
  control : List Cmsg
deriving DecidableEq, Repr

inductive UdpMsg where
  | recvmsg (r : RecvReply)
  | plain (m : Msg)
deriving DecidableEq, Repr

structure UdpSocket where
  state : SockState
  opts : SockOpts
  callList : List DaemonCall
  dataList : List UdpStore
  dataBuf : Int32
  errorList : List UdpStore
  out : List UdpMsg
deriving DecidableEq, Repr

def UdpSocket.emit (k : UdpSocket) (m : UdpMsg) : UdpSocket := { k with out := k.out ++ [m] }

def udpSocket (opts : SockOpts) : UdpSocket where
  state := .unconnected
  opts := opts
  callList := []
  dataList := []
  dataBuf := 0
  errorList := []
  out := []

/-! ### Replies -/

def htonl (x : UInt32) : List UInt8 := Tcp.be32 x
def htons (x : UInt16) : List UInt8 := Tcp.be16 x

structure Control where
  msgFlags : UInt32
  controlLen : Nat
  control : List Cmsg
deriving DecidableEq, Repr

/-- One control message of `cmsg_space` bytes, if it fits. -/
def Control.put (r : Control) (msgControllen : UInt32) (cmsgSpace : Nat) (m : Cmsg) : Control :=
  if r.controlLen + cmsgSpace ≤ msgControllen.toNat then
    { r with controlLen := r.controlLen + cmsgSpace, control := r.control ++ [m] }
  else { r with msgFlags := r.msgFlags ||| MSG_CTRUNC }

/-- The sizes are those of `CMSG_SPACE` on a 64-bit machine. -/
def recvmsgControl (opts : SockOpts) (msgFlags : UInt32) (md : RecvMeta)
    (msgControllen flags : UInt32) : Control :=
  if DAEMON_CONTROL_LEN_MAX < msgControllen then ⟨msgFlags, 0, []⟩
  else
    let len := if msgControllen = 0 then DAEMON_CONTROL_LEN_DEFAULT else msgControllen
    let r0 : Control := ⟨msgFlags, 0, []⟩
    let r1 := if opts.fsoTimestamp then r0.put len 32 .timestamp else r0
    let r2 :=
      match opts.fipRecvttl, md.recvTtl with
      | true, some recvTtl => r1.put len 24 (.ttl recvTtl)
      | _, _ => r1
    if opts.fipRecverr ∧ flags &&& MSG_ERRQUEUE ≠ 0 then
      r2.put len 48 (.recverr EHOSTUNREACH md.recvEeOrigin md.recvIcmpType md.recvIcmpCode
        (htonl md.recvSrcIpv4))
    else r2

/-- What `recvmsg_out_udp` and `recvmsg_in_udp` have in common: the reply with a datagram.
    The lengths are compared as unsigned numbers. -/
def recvmsgReply (opts : SockOpts) (hdr : WedgeHdr) (bufLen msgControllen flags : UInt32)
    (store : UdpStore) : RecvReply :=
  let queue := if flags &&& MSG_ERRQUEUE ≠ 0 then MSG_ERRQUEUE else 0
  let short := bufLen.toNat < store.pdu.length
  let msgFlags := if short then queue ||| MSG_TRUNC else queue
  let msgLen := if short then bufLen.toNat else store.pdu.length
  let r := recvmsgControl opts msgFlags store.md msgControllen flags
  { hdr := hdr
    buf := bufLen
    msgFlags := r.msgFlags
    sinAddr := htonl store.ip
    sinPort := htons store.port
    data := store.pdu.take msgLen
    control := r.control }

def sendWedgeRecvmsgUdp (wedge : Bool) (k : UdpSocket) (r : RecvReply) : UdpSocket :=
  k.emit (if wedge then .recvmsg r else .plain (.nack r.hdr 1))

/-! ### Calls and datagrams -/

def recvmsgOutUdp (wedge : Bool) (k : UdpSocket) (hdr : WedgeHdr)
    (bufLen msgControllen flags : UInt32) : UdpSocket :=
  if flags &&& MSG_ERRQUEUE ≠ 0 then
    match k.errorList with
    | [] => k.emit (.plain (.nack hdr Tcp.EAGAIN))
    | store :: stores =>
      sendWedgeRecvmsgUdp wedge { k with errorList := stores }
        (recvmsgReply k.opts hdr bufLen msgControllen flags store)
  else if 0 < k.dataBuf then
    match k.dataList with
    -- the source reads the front without a test
    | [] => k
    | store :: stores =>
      sendWedgeRecvmsgUdp wedge
        { k with dataList := stores, dataBuf := k.dataBuf - Int32.ofNat store.pdu.length }
        (recvmsgReply k.opts hdr bufLen msgControllen flags store)
  else if k.callList.length < DAEMON_CALL_LIST_MAX then
    let others := k.callList.eraseP fun call => !call.alloc && call.callIndex == hdr.callIndex
    { k with
      callList := others ++
        [{ hdr with
           alloc := false, buf := bufLen, flags := flags, ret := msgControllen
           toTimer := flags &&& Tcp.MSG_DONTWAIT ≠ 0 }] }
  else k.emit (.plain (.nack hdr 1))

def pollInUdp (flags : UInt32) (call : DaemonCall) : DaemonCall × List UdpMsg :=
  ((pollInTcpFdf flags call).1, (pollInTcpFdf flags call).2.map .plain)

def recvmsgInUdp (wedge : Bool) (k : UdpSocket) (call : DaemonCall) (store : UdpStore)
    (flags : UInt32) : UdpSocket :=
  sendWedgeRecvmsgUdp wedge k
    (recvmsgReply k.opts call.toWedgeHdr call.buf call.ret flags store)

def daemonInFdfUdp (wedge : Bool) (k : UdpSocket) (store : UdpStore) : UdpSocket :=
  match k.callList.find? (daemonCallRecvmsgTest 0) with
  | some call =>
    recvmsgInUdp wedge { k with callList := k.callList.erase call } call store 0
  | none =>
    let k1 :=
      { k with
        callList := k.callList.map fun call => (pollInUdp POLLIN call).1
        out := k.out ++ k.callList.flatMap fun call => (pollInUdp POLLIN call).2 }
    if k1.dataList.length < MAX_QUEUE_SIZE then
      { k1 with
        dataList := k1.dataList ++ [store]
        dataBuf := k1.dataBuf + Int32.ofNat store.pdu.length }
    else k1

def recvmsgTimeoutUdp (k : UdpSocket) (call : DaemonCall) : UdpSocket :=
  match k.state with
  | .unconnected | .connecting | .connected =>
    k.emit (.plain (.nack call.toWedgeHdr Tcp.EAGAIN))
  | _ => k.emit (.plain (.nack call.toWedgeHdr 1))

def daemonHandleToUdp (k : UdpSocket) (call : DaemonCall) : UdpSocket :=
  let others := k.callList.eraseP fun c => !c.alloc && c.callIndex == call.callIndex
  recvmsgTimeoutUdp { k with callList := others } call

/-! ### The system -/

inductive UdpEvent where
  | datagram (wedge : Bool) (srcIp srcPort : UInt32) (pdu : List UInt8) (md : RecvMeta)
  | recvmsg (wedge : Bool) (callId : UInt32) (callIndex : Nat)
      (bufLen msgControllen flags : UInt32)
  | timeout (call : DaemonCall)
deriving DecidableEq

def stepUdp (k : UdpSocket) : UdpEvent → UdpSocket
  | .datagram wedge srcIp srcPort pdu md =>
    daemonInFdfUdp wedge k ⟨srcIp, srcPort.toUInt16, pdu, md⟩
  | .recvmsg wedge callId callIndex bufLen msgControllen flags =>
    recvmsgOutUdp wedge k ⟨.recvmsg, callId, callIndex⟩ bufLen msgControllen flags
  | .timeout call => daemonHandleToUdp k call

abbrev runUdp (k : UdpSocket) (es : List UdpEvent) : UdpSocket := run stepUdp k es

def datagrams (es : List UdpEvent) : List UdpStore :=
  es.filterMap fun
    | .datagram _ srcIp srcPort pdu md => some ⟨srcIp, srcPort.toUInt16, pdu, md⟩
    | _ => none

def udpReplies (l : List UdpMsg) : List RecvReply :=
  l.filterMap fun
    | .recvmsg r => some r
    | .plain _ => none

def UdpRoom (k : UdpSocket) : UdpEvent → Prop
  | .datagram wedge _ _ _ _ => wedge = true ∧ k.dataList.length < MAX_QUEUE_SIZE
  | .recvmsg wedge _ _ _ _ flags =>
    wedge = true ∧ k.callList.length < DAEMON_CALL_LIST_MAX ∧ flags &&& MSG_ERRQUEUE = 0
  | .timeout _ => True

/-- The condition: the count of bytes tells a call whether there are datagrams. -/
def CountTells (k : UdpSocket) : UdpEvent → Prop
  | .recvmsg .. => k.dataList = [] ∨ 0 < k.dataBuf
  | _ => True

instance (k : UdpSocket) (e : UdpEvent) : Decidable (UdpRoom k e) :=
  match e with
  | .datagram .. => inferInstanceAs (Decidable (_ ∧ _))
  | .recvmsg .. => inferInstanceAs (Decidable (_ ∧ _ ∧ _))
  | .timeout _ => isTrue trivial

instance (k : UdpSocket) (e : UdpEvent) : Decidable (CountTells k e) :=
  match e with
  | .datagram .. => isTrue trivial
  | .recvmsg .. => inferInstanceAs (Decidable (_ ∨ _))
  | .timeout _ => isTrue trivial

def UdpWaiting (k : UdpSocket) : Prop :=
  ∃ call ∈ k.callList, daemonCallRecvmsgTest 0 call = true

structure Carries (d : UdpStore) (r : RecvReply) : Prop where
  data : r.data = d.pdu.take (min r.buf.toNat d.pdu.length)
  sinAddr : r.sinAddr = Tcp.be32 d.ip
  sinPort : r.sinPort = Tcp.be16 d.port
  trunc : r.msgFlags &&& MSG_TRUNC ≠ 0 ↔ r.buf.toNat < d.pdu.length

/-! ### One reply -/

theorem put_trunc (r : Control) (len : UInt32) (space : Nat) (m : Cmsg) :
    (r.put len space m).msgFlags &&& MSG_TRUNC = r.msgFlags &&& MSG_TRUNC := by
  have hbits : MSG_CTRUNC &&& MSG_TRUNC = 0 := by decide
  unfold Control.put
  split
  · rfl
  · have hdistrib : (r.msgFlags ||| MSG_CTRUNC) &&& MSG_TRUNC =
        (r.msgFlags &&& MSG_TRUNC) ||| (MSG_CTRUNC &&& MSG_TRUNC) := by
      apply UInt32.toBitVec_inj.mp
      simp only [UInt32.toBitVec_and, UInt32.toBitVec_or]
      exact BitVec.and_or_distrib_right
    rw [hdistrib, hbits, UInt32.or_zero]

theorem recvmsgControl_trunc (opts : SockOpts) (msgFlags : UInt32) (md : RecvMeta)
    (len flags : UInt32) :
    (recvmsgControl opts msgFlags md len flags).msgFlags &&& MSG_TRUNC =
      msgFlags &&& MSG_TRUNC := by
  unfold recvmsgControl
  split
  · rfl
  · simp only []
    split <;> split <;> split <;> simp only [put_trunc]

theorem recvmsgReply_carries (opts : SockOpts) (hdr : WedgeHdr) (bufLen len : UInt32)
    {flags : UInt32} (hflags : flags &&& MSG_ERRQUEUE = 0) (d : UdpStore) :
    Carries d (recvmsgReply opts hdr bufLen len flags d) := by
  have hqueue : (if flags &&& MSG_ERRQUEUE ≠ 0 then MSG_ERRQUEUE else 0) = 0 := by simp [hflags]
  by_cases hshort : bufLen.toNat < d.pdu.length
  · constructor
    · simp [recvmsgReply, hshort, Nat.min_eq_left (Nat.le_of_lt hshort)]
    · rfl
    · rfl
    · simp only [recvmsgReply, recvmsgControl_trunc, hqueue, hshort, if_true, iff_true]
      decide
  · constructor
    · simp [recvmsgReply, hshort, Nat.min_eq_right (Nat.le_of_not_lt hshort)]
    · rfl
    · rfl
    · simp only [recvmsgReply, recvmsgControl_trunc, hqueue, hshort, if_false, iff_false]
      decide

/-! ### One step -/

variable {k : UdpSocket}

def storedLength (l : List UdpStore) : Nat := (l.map fun d => d.pdu.length).sum

structure UdpQueued (k : UdpSocket) : Prop where
  buf : k.dataBuf = Int32.ofNat (storedLength k.dataList)
  waiting : UdpWaiting k → k.dataList = []

def Delivered (arrived : List UdpStore) (k : UdpSocket) : Prop :=
  ∃ served, arrived = served ++ k.dataList ∧ List.Forall₂ Carries served (udpReplies k.out)

@[simp] theorem udpReplies_append (l l' : List UdpMsg) :
    udpReplies (l ++ l') = udpReplies l ++ udpReplies l' := filterMap_append

theorem udpReplies_poll (l : List DaemonCall) :
    udpReplies (l.flatMap fun call => (pollInUdp POLLIN call).2) = [] := by
  apply filterMap_eq_nil_iff.mpr
  intro m hm
  obtain ⟨call, -, hm⟩ := mem_flatMap.mp hm
  obtain ⟨m', -, rfl⟩ := mem_map.mp hm
  rfl

theorem not_waiting_of_find (h : k.callList.find? (daemonCallRecvmsgTest 0) = none) :
    ¬ UdpWaiting k := by
  rintro ⟨call, hmem, htest⟩
  exact find?_eq_none.mp h call hmem htest

theorem UdpQueued.not_pos (h : UdpQueued k) (hnil : k.dataList = []) : ¬ 0 < k.dataBuf := by
  rw [h.buf, hnil]
  decide

theorem recvmsgOutUdp_front {store : UdpStore} {stores : List UdpStore} {hdr : WedgeHdr}
    {bufLen len flags : UInt32} (hflags : flags &&& MSG_ERRQUEUE = 0) (hpos : 0 < k.dataBuf)
    (hlist : k.dataList = store :: stores) :
    recvmsgOutUdp true k hdr bufLen len flags =
      { k with
        dataList := stores, dataBuf := k.dataBuf - Int32.ofNat store.pdu.length
        out := k.out ++ [.recvmsg (recvmsgReply k.opts hdr bufLen len flags store)] } := by
  have hnot : ¬ flags &&& MSG_ERRQUEUE ≠ 0 := not_not.mpr hflags
  simp only [recvmsgOutUdp, hnot, hpos, hlist, if_false, if_true, sendWedgeRecvmsgUdp,
    UdpSocket.emit]

theorem recvmsgOutUdp_waits (wedge : Bool) (hdr : WedgeHdr) (bufLen len : UInt32) {flags : UInt32}
    (hflags : flags &&& MSG_ERRQUEUE = 0) (hpos : ¬ 0 < k.dataBuf)
    (hroom : k.callList.length < DAEMON_CALL_LIST_MAX) :
    ∃ call others, recvmsgOutUdp wedge k hdr bufLen len flags =
        { k with callList := others ++ [call] } ∧
      call.toWedgeHdr = hdr ∧ call.flags = flags := by
  have hnot : ¬ flags &&& MSG_ERRQUEUE ≠ 0 := not_not.mpr hflags
  simp only [recvmsgOutUdp, hnot, hpos, hroom, if_false, if_true]
  exact ⟨_, _, rfl, rfl, rfl⟩

theorem int32_add_sub (a b : Nat) : Int32.ofNat (a + b) - Int32.ofNat a = Int32.ofNat b := by
  rw [Int32.ofNat_add]
  grind

theorem stepUdp_queued {e : UdpEvent} (h : UdpQueued k) (hroom : UdpRoom k e)
    (htells : CountTells k e) : UdpQueued (stepUdp k e) := by
  cases e with
  | datagram wedge srcIp srcPort pdu md =>
    simp only [stepUdp, daemonInFdfUdp]
    split
    · rename_i call hfind
      have hwait : UdpWaiting k :=
        ⟨call, mem_of_find?_eq_some hfind, find?_some hfind⟩
      constructor
      · exact h.buf
      · intro _
        exact h.waiting hwait
    · rename_i hfind
      simp only [hroom.2, if_true]
      constructor
      · simp [storedLength, h.buf, Int32.ofNat_add]
      · rintro ⟨call, hmem, htest⟩
        obtain ⟨call', hmem', rfl⟩ := mem_map.mp hmem
        have hwait : UdpWaiting k :=
          ⟨call', hmem', (pollInTcpFdf_test POLLIN call').symm.trans htest⟩
        exact absurd hwait (not_waiting_of_find hfind)
  | recvmsg wedge callId callIndex bufLen len flags =>
    obtain ⟨rfl, hcalls, hflags⟩ := hroom
    simp only [stepUdp]
    by_cases hpos : 0 < k.dataBuf
    · cases hlist : k.dataList with
      | nil => exact absurd hpos (h.not_pos hlist)
      | cons store stores =>
        rw [recvmsgOutUdp_front hflags hpos hlist]
        constructor
        · simp only [h.buf, hlist, storedLength, map_cons, sum_cons]
          exact int32_add_sub _ _
        · intro hwait
          have hnil := h.waiting hwait
          rw [hlist] at hnil
          cases hnil
    · obtain ⟨call, others, heq, -⟩ :=
          recvmsgOutUdp_waits true ⟨.recvmsg, callId, callIndex⟩ bufLen len hflags hpos hcalls
      rw [heq]
      constructor
      · exact h.buf
      · intro _
        exact htells.resolve_right hpos
  | timeout call =>
    have hout : ∀ m, UdpQueued (UdpSocket.emit { k with callList := k.callList.eraseP fun c =>
        !c.alloc && c.callIndex == call.callIndex } m) := by
      intro m
      constructor
      · exact h.buf
      · rintro ⟨call', hmem, htest⟩
        exact h.waiting ⟨call', mem_of_mem_eraseP hmem, htest⟩
    simp only [stepUdp, daemonHandleToUdp, recvmsgTimeoutUdp]
    split <;> apply hout

theorem countTells_of_waiting {e : UdpEvent} (hroom : UdpRoom k e)
    (hwaits : UdpWaiting (stepUdp k e) → (stepUdp k e).dataList = []) : CountTells k e := by
  cases e with
  | datagram wedge srcIp srcPort pdu md | timeout call => trivial
  | recvmsg wedge callId callIndex bufLen len flags =>
    obtain ⟨-, hcalls, hflags⟩ := hroom
    simp only [CountTells]
    by_cases hpos : 0 < k.dataBuf
    · exact .inr hpos
    · obtain ⟨call, others, heq, hhdr, hcall⟩ :=
        recvmsgOutUdp_waits wedge ⟨.recvmsg, callId, callIndex⟩ bufLen len hflags hpos hcalls
      simp only [stepUdp, heq] at hwaits
      refine .inl (hwaits ⟨call, mem_append_right _ (mem_singleton_self _), ?_⟩)
      simp [daemonCallRecvmsgTest, hcall, hflags, hhdr]

theorem stepUdp_delivered {arrived : List UdpStore} {e : UdpEvent} (hq : UdpQueued k)
    (h : Delivered arrived k) (hroom : UdpRoom k e) :
    Delivered (arrived ++ datagrams [e]) (stepUdp k e) := by
  obtain ⟨served, harr, hserved⟩ := h
  cases e with
  | datagram wedge srcIp srcPort pdu md =>
    obtain ⟨rfl, hspace⟩ := hroom
    simp only [stepUdp, daemonInFdfUdp, datagrams, filterMap_cons, filterMap_nil]
    split
    · rename_i call hfind
      -- the call takes the datagram, and `data_list` was empty because the call waited
      have hnil : k.dataList = [] :=
        hq.waiting ⟨call, mem_of_find?_eq_some hfind, find?_some hfind⟩
      refine ⟨served ++ [⟨srcIp, srcPort.toUInt16, pdu, md⟩], ?_, ?_⟩
      · rw [harr, hnil]
        simp [recvmsgInUdp, sendWedgeRecvmsgUdp, UdpSocket.emit]
      · simp only [recvmsgInUdp, sendWedgeRecvmsgUdp, UdpSocket.emit, udpReplies_append, if_true]
        refine rel_append hserved (List.Forall₂.cons ?_ .nil)
        exact recvmsgReply_carries _ _ _ _ (by decide) _
    · simp only [hspace, if_true]
      refine ⟨served, ?_, ?_⟩
      · rw [harr, append_assoc]
      · simp only [udpReplies_append, udpReplies_poll, append_nil]
        exact hserved
  | recvmsg wedge callId callIndex bufLen len flags =>
    obtain ⟨rfl, hcalls, hflags⟩ := hroom
    simp only [stepUdp, datagrams, filterMap_cons, filterMap_nil, append_nil]
    by_cases hpos : 0 < k.dataBuf
    · cases hlist : k.dataList with
      | nil => exact absurd hpos (hq.not_pos hlist)
      | cons store stores =>
        rw [recvmsgOutUdp_front hflags hpos hlist]
        refine ⟨served ++ [store], ?_, ?_⟩
        · rw [harr, hlist]
          simp
        · simp only [udpReplies_append]
          refine rel_append hserved (List.Forall₂.cons ?_ .nil)
          exact recvmsgReply_carries _ _ _ _ hflags store
    · obtain ⟨call, others, heq, -⟩ :=
          recvmsgOutUdp_waits true ⟨.recvmsg, callId, callIndex⟩ bufLen len hflags hpos hcalls
      rw [heq]
      exact ⟨served, harr, hserved⟩
  | timeout call =>
    simp only [stepUdp, daemonHandleToUdp, recvmsgTimeoutUdp, datagrams, filterMap_cons,
      filterMap_nil, append_nil]
    split
    all_goals
      refine ⟨served, harr, ?_⟩
      simp only [UdpSocket.emit, udpReplies_append]
      simpa [udpReplies] using hserved

/-! ### Runs -/

theorem udpSocket_queued (opts : SockOpts) : UdpQueued (udpSocket opts) := by
  constructor
  · rfl
  · intro _
    rfl

theorem datagrams_cons (e : UdpEvent) (es : List UdpEvent) :
    datagrams (e :: es) = datagrams [e] ++ datagrams es := by
  simp only [datagrams]
  rw [← filterMap_append]
  rfl

theorem runUdp_delivered {arrived : List UdpStore} {es : List UdpEvent} (hq : UdpQueued k)
    (h : Delivered arrived k) (hroom : Steps stepUdp UdpRoom k es)
    (htells : Steps stepUdp CountTells k es) :
    Delivered (arrived ++ datagrams es) (runUdp k es) := by
  induction es generalizing k arrived with
  | nil => simpa [datagrams] using h
  | cons e es ih =>
    rw [datagrams_cons, ← append_assoc]
    exact ih (stepUdp_queued hq hroom.1 htells.1) (stepUdp_delivered hq h hroom.1) hroom.2 htells.2

/-- **Delivery on a UDP socket.**  No call ever waits beside a stored datagram exactly if the byte
    count tells every call whether there are datagrams. -/
theorem udp_delivery {opts : SockOpts} {es : List UdpEvent}
    (hroom : Steps stepUdp UdpRoom (udpSocket opts) es) :
    (Steps stepUdp CountTells (udpSocket opts) es ↔
      ∀ es₁, es₁ <+: es → UdpWaiting (runUdp (udpSocket opts) es₁) →
        (runUdp (udpSocket opts) es₁).dataList = []) ∧
      (Steps stepUdp CountTells (udpSocket opts) es →
        ∃ served, datagrams es = served ++ (runUdp (udpSocket opts) es).dataList ∧
          List.Forall₂ Carries served (udpReplies (runUdp (udpSocket opts) es).out)) := by
  constructor
  · apply steps_iff_everywhere_within (I := UdpQueued)
      (W := fun k => UdpWaiting k → k.dataList = []) _ _ _ (udpSocket_queued opts) hroom
    · intro s e hs hD hP
      exact stepUdp_queued hs hD hP
    · intro s hs
      exact hs.waiting
    · intro s e _ hD hW
      exact countTells_of_waiting hD hW
  · intro htells
    have hnone : Delivered [] (udpSocket opts) := ⟨[], rfl, .nil⟩
    exact runUdp_delivered (udpSocket_queued opts) hnone hroom htells

def plainMeta : RecvMeta := ⟨none, 0, 0, 0, 0⟩

def plainOpts : SockOpts := ⟨false, false, false⟩

def threeDatagrams : List UdpEvent :=
  [.recvmsg true 1 0 2 0 0, .datagram true 0x0a000001 53 [1, 2, 3] plainMeta,
   .datagram true 0x0a000002 53 [4] plainMeta, .datagram true 0x0a000003 53 [] plainMeta,
   .recvmsg true 2 1 10 0 0]

theorem udp_delivery_threeDatagrams :
    let k := runUdp (udpSocket plainOpts) threeDatagrams
    (udpReplies k.out).map (fun r => r.data) = [[1, 2], [4]] ∧
      ∃ served, datagrams threeDatagrams = served ++ k.dataList ∧
        List.Forall₂ Carries served (udpReplies k.out) := by
  have hroom : Steps stepUdp UdpRoom (udpSocket plainOpts) threeDatagrams := by decide
  have htells : Steps stepUdp CountTells (udpSocket plainOpts) threeDatagrams := by decide
  exact ⟨by decide, (udp_delivery hroom).2 htells⟩

/-- An empty datagram is stored; a call does not see it and waits; the next datagram is the
    first to be replied with. -/
theorem udp_empty_datagram_overtaken :
    ∃ es, Steps stepUdp UdpRoom (udpSocket plainOpts) es ∧
      let k := runUdp (udpSocket plainOpts) es
      datagrams es = [⟨0x0a000001, 53, [], plainMeta⟩, ⟨0x0a000002, 53, [7], plainMeta⟩] ∧
        (udpReplies k.out).map (fun r => (r.sinAddr, r.data)) = [([10, 0, 0, 2], [7])] ∧
        k.dataList = [⟨0x0a000001, 53, [], plainMeta⟩] :=
  ⟨[.datagram true 0x0a000001 53 [] plainMeta, .recvmsg true 1 0 10 0 0,
    .datagram true 0x0a000002 53 [7] plainMeta], by decide, by decide, by decide, by decide⟩

end FinsStack.Daemon
