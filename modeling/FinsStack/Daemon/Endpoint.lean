import FinsStack.Daemon.Reader
import FinsStack.Tcp.EndOfStream
import FinsStack.Tcp.NewData

/-!
# A connection and its socket

The frames and alerts of a connection reach the daemon through one queue, in the order
they were sent: the endpoint holds the connection, how much of its output the daemon
has taken, and the socket.  The main result is about the end of the peer's stream: the
alert for it is sent once and after all data, and no reader is told end of file before
all of the stream was returned -- provided that the FIN comes on a segment of its own.
With data on the FIN's segment the alert overtakes that data.
-/

namespace FinsStack.Daemon

open List FinsStack.Tcp Lib

/-! ### The joint system -/

structure Endpoint where
  conn : TcpConn
  taken : Nat
  sock : DaemonSocket

inductive EndpointEvent where
  | tcp (e : Event)
  | deliver (wedge : DaemonCall → Bool)
  | recvmsg (wedge : Bool) (hdr : WedgeHdr) (bufLen controllen flags : UInt32)
  | shutdown (flow : Bool) (hdr : WedgeHdr) (how : ShutHow)
  | timeout (call : DaemonCall)
  | insertCall (call : { call : DaemonCall // call.callType ≠ .recvmsg })
  | removeCall (index : Nat)

/-- `daemon_get_ff` on an output of the connection; the replies to other calls concern no
    reader. -/
def daemonGetFf (wedge : DaemonCall → Bool) (k : DaemonSocket) : Out → DaemonSocket
  | .data _ bytes => daemonInFdfTcp wedge k bytes
  | .alert _ paramId _ retMsg => daemonAlert wedge k paramId retMsg
  | _ => k

def stepEndpoint (w : Endpoint) : EndpointEvent → Endpoint
  | .tcp e => { w with conn := step w.conn e }
  | .deliver wedge =>
    match w.conn.out[w.taken]? with
    | none => w
    | some o => { w with taken := w.taken + 1, sock := daemonGetFf wedge w.sock o }
  | .recvmsg wedge hdr bufLen controllen flags =>
    { w with sock := recvmsgOutTcp wedge w.sock hdr bufLen controllen flags }
  | .shutdown flow hdr how => { w with sock := shutdownOutTcp flow w.sock hdr how }
  | .timeout call => { w with sock := daemonHandleTo w.sock call }
  | .insertCall call => { w with sock := daemonCallsInsert w.sock call.1 }
  | .removeCall index => { w with sock := removeCall w.sock index }

abbrev runEndpoint (w : Endpoint) (es : List EndpointEvent) : Endpoint := run stepEndpoint w es

def Endpoint.fed (w : Endpoint) : List UInt8 := delivered (w.conn.out.take w.taken)

structure Endpoint.Start (isn : UInt32) (w : Endpoint) : Prop where
  conn : AtStart isn w.conn
  quiet : ∀ o ∈ w.conn.out, AfterEnd o
  taken : w.taken ≤ w.conn.out.length
  status : w.sock.status &&& DAEMON_STATUS_RD ≠ 0
  data : w.sock.dataList = [] ∧ w.sock.dataBuf = 0
  replies : answers w.sock.out = []

def Endpoint.nextFrame (w : Endpoint) : Option (List UInt8) :=
  match w.conn.out[w.taken]? with
  | some (.data _ bytes) => some bytes
  | _ => none

def EndInOrder (s : List UInt8) (isn : UInt32) (closes : Bool) (w : Endpoint) :
    EndpointEvent → Prop
  | .tcp e => Receives s isn closes e ∧ BareFins e
  | .deliver wedge =>
    (∀ call, wedge call = true) ∧ ∀ bytes ∈ w.nextFrame, Room w.sock bytes
  | .recvmsg wedge _ _ _ _ => wedge = true
  | .shutdown _ _ how => how ≠ .rd ∧ how ≠ .rdwr
  | _ => True

/-! ### The invariant -/

structure EndpointInv (s : List UInt8) (isn : UInt32) (closes : Bool) (w : Endpoint) : Prop where
  streams : Streams s isn closes w.conn
  ending : Ending s w.conn
  taken : w.taken ≤ w.conn.out.length
  reader : Reader w.fed w.sock
  pipe : (w.sock.pipe w.fed).Ok
  ended : w.sock.status &&& DAEMON_STATUS_RD = 0 →
    ∃ o ∈ w.conn.out.take w.taken, isRdAlert o = true

variable {s : List UInt8} {isn : UInt32} {closes : Bool} {w : Endpoint}

theorem Endpoint.Start.inv (h : w.Start isn) : EndpointInv s isn closes w where
  streams := h.conn.streams
  ending := by
    refine ⟨?_, fun _ o ho => (h.quiet o ho).early, fun hs => absurd (.inl h.conn.state) hs⟩
    intro n hn
    rw [h.conn.stored] at hn
    cases hn
  taken := h.taken
  reader := by
    have hfed : w.fed = [] := by
      unfold Endpoint.fed
      apply flatMap_eq_nil_iff.mpr
      intro o ho
      have hq := h.quiet o (mem_of_mem_take ho)
      cases o with
      | data addr bytes => exact hq.elim
      | _ => rfl
    have hnil : unread w.sock.dataList = [] := by rw [h.data.1]; rfl
    refine ⟨?_, ?_, ?_, ?_, fun _ => hnil⟩
    · rw [h.replies, hnil, hfed]
      rfl
    · intro store hmem
      rw [h.data.1] at hmem
      cases hmem
    · rw [h.data.2, hnil]
      rfl
    · rw [hnil]
      decide
  pipe := Pipe.Ok.start _ h.replies
  ended := fun hend => absurd hend h.status

theorem EndpointInv.fed_of_ended (h : EndpointInv s isn closes w)
    (hend : w.sock.status &&& DAEMON_STATUS_RD = 0) :
    w.fed = s ∧ ∀ addr bytes, .data addr bytes ∉ w.conn.out.drop w.taken := by
  obtain ⟨o, ho, halert⟩ := h.ended hend
  obtain ⟨l₁, l₂, hsplit⟩ := append_of_mem ho
  have hout : w.conn.out = l₁ ++ o :: (l₂ ++ w.conn.out.drop w.taken) := by
    rw [← cons_append, ← append_assoc, ← hsplit, take_append_drop]
  obtain ⟨hall, hnone⟩ := h.ending.endsLast.last _ _ _ hout halert
  refine ⟨?_, fun addr bytes hmem => hnone addr bytes (mem_append_right _ hmem)⟩
  unfold Endpoint.fed
  rw [hsplit, delivered_append, hall]
  have hrest : delivered (o :: l₂) = [] := by
    apply flatMap_eq_nil_iff.mpr
    intro x hx
    cases x with
    | data addr bytes =>
      rcases mem_cons.mp hx with hx | hx
      · rw [← hx] at halert
        cases halert
      · exact absurd (mem_append_left _ hx) (hnone addr bytes)
    | _ => rfl
  rw [hrest, append_nil]

theorem EndpointInv.sock (h : EndpointInv s isn closes w) {k : DaemonSocket}
    (hread : Reader w.fed k) (hsteps : Pipe.Steps (w.sock.pipe w.fed) (k.pipe w.fed))
    (hstatus : k.status &&& DAEMON_STATUS_RD = w.sock.status &&& DAEMON_STATUS_RD) :
    EndpointInv s isn closes { w with sock := k } :=
  ⟨h.streams, h.ending, h.taken, hread, hsteps.ok h.pipe, fun hend => h.ended (hstatus ▸ hend)⟩

theorem EndpointInv.tcp (hspan : streamSpan s closes < 2 ^ 32) (h : EndpointInv s isn closes w)
    {e : Event} (he : Receives s isn closes e) (hbare : BareFins e) :
    EndpointInv s isn closes { w with conn := step w.conn e } := by
  obtain ⟨l, hl⟩ := step_out w.conn e
  have htake : (step w.conn e).out.take w.taken = w.conn.out.take w.taken := by
    rw [← hl, take_append_of_le_length h.taken]
  have hfed : Endpoint.fed { w with conn := step w.conn e } = w.fed := by
    unfold Endpoint.fed
    rw [htake]
  refine ⟨step_streams hspan he.1 he.2 h.streams, step_ending hspan he hbare h.streams h.ending,
    ?_, ?_, ?_, ?_⟩
  · show w.taken ≤ (step w.conn e).out.length
    rw [← hl, length_append]
    exact Nat.le_add_right_of_le h.taken
  · rw [hfed]
    exact h.reader
  · rw [hfed]
    exact h.pipe
  · intro hend
    show ∃ o ∈ (step w.conn e).out.take w.taken, _
    rw [htake]
    exact h.ended hend

theorem EndpointInv.deliver (h : EndpointInv s isn closes w) {o : Out}
    (ho : w.conn.out[w.taken]? = some o) {k : DaemonSocket}
    (hread : Reader (w.fed ++ delivered [o]) k)
    (hsteps : Pipe.Steps (w.sock.pipe w.fed) (k.pipe (w.fed ++ delivered [o])))
    (hstatus : k.status &&& DAEMON_STATUS_RD = 0 →
      w.sock.status &&& DAEMON_STATUS_RD = 0 ∨ isRdAlert o) :
    EndpointInv s isn closes { w with taken := w.taken + 1, sock := k } := by
  have htake : w.conn.out.take (w.taken + 1) = w.conn.out.take w.taken ++ [o] := by
    rw [take_add_one, ho]
    rfl
  have hfed : Endpoint.fed { w with taken := w.taken + 1, sock := k } =
      w.fed ++ delivered [o] := by
    unfold Endpoint.fed
    rw [htake, delivered_append]
  refine ⟨h.streams, h.ending, ?_, hfed ▸ hread, ?_, ?_⟩
  · exact (List.getElem?_eq_some_iff.mp ho).1
  · rw [hfed]
    exact hsteps.ok h.pipe
  · intro hend
    show ∃ x ∈ w.conn.out.take (w.taken + 1), _
    rw [htake]
    rcases hstatus hend with hend | halert
    · obtain ⟨x, hx, halert⟩ := h.ended hend
      exact ⟨x, mem_append_left _ hx, halert⟩
    · exact ⟨o, mem_append_right _ (mem_singleton_self o), halert⟩

theorem EndpointInv.frame (h : EndpointInv s isn closes w) {wedge : DaemonCall → Bool}
    (hwedge : ∀ call, wedge call) {addr : ConnAddr} {bytes : List UInt8}
    (ho : w.conn.out[w.taken]? = some (.data addr bytes)) (hroom : Room w.sock bytes) :
    EndpointInv s isn closes
      { w with taken := w.taken + 1, sock := daemonInFdfTcp wedge w.sock bytes } := by
  have hopen : w.sock.status &&& DAEMON_STATUS_RD ≠ 0 := by
    intro hend
    refine (h.fed_of_ended hend).2 addr bytes ?_
    refine mem_of_getElem? (i := 0) ?_
    rw [getElem?_drop]
    exact ho
  obtain ⟨hread, hstatus, hsteps⟩ := daemonInFdfTcp_reads hwedge
    (h.ending.frame_ne_nil (mem_of_getElem? ho)) h.reader hroom hopen
  have hone : delivered [.data addr bytes] = bytes := append_nil bytes
  refine h.deliver ho (by rw [hone]; exact hread) (by rw [hone]; exact hsteps) ?_
  rw [hstatus]
  exact .inl

theorem daemonAlert_reads (wedge : DaemonCall → Bool) {fed : List UInt8} {k : DaemonSocket}
    (addr : ConnAddr) (paramId retVal retMsg : UInt32) (h : Reader fed k) :
    let k1 := daemonAlert wedge k paramId retMsg
    Reader fed k1 ∧ Pipe.Steps (k.pipe fed) (k1.pipe fed) ∧
      (k1.status &&& DAEMON_STATUS_RD = 0 → k.status &&& DAEMON_STATUS_RD = 0 ∨
        isRdAlert (.alert addr paramId retVal retMsg) = true) := by
  intro k1
  unfold k1 daemonAlert
  split
  · have hpipe : (pollAll k retMsg).pipe fed = k.pipe fed := pipe_congr rfl (answers_pollAll retMsg)
    rw [hpipe]
    exact ⟨h.pollAll retMsg, .refl, .inl⟩
  split
  · rename_i hparam
    obtain ⟨hread, hsteps, hstatus⟩ := daemonInShutdownTcp_reads wedge retMsg h
    refine ⟨hread, hsteps, fun hend => (hstatus hend).imp_right ?_⟩
    intro hrd
    show (paramId == TCP_ALERT_SHUTDOWN && retMsg &&& TCP_STATUS_RD != 0) = true
    have hbit : retMsg &&& TCP_STATUS_RD ≠ 0 := by
      intro hzero
      apply hrd
      have hcast := congrArg UInt32.toUInt8 hzero
      rwa [UInt32.toUInt8_and] at hcast
    rw [hparam, Bool.and_eq_true]
    exact ⟨rfl, bne_iff_ne.mpr hbit⟩
  · exact ⟨h, .refl, .inl⟩

theorem stepEndpoint_inv (hspan : streamSpan s closes < 2 ^ 32) {e : EndpointEvent}
    (h : EndpointInv s isn closes w) (he : EndInOrder s isn closes w e) :
    EndpointInv s isn closes (stepEndpoint w e) := by
  cases e with
  | tcp e => exact h.tcp hspan he.1 he.2
  | deliver wedge =>
    simp only [stepEndpoint]
    split
    · exact h
    · rename_i o ho
      have skipped : delivered [o] = [] → daemonGetFf wedge w.sock o = w.sock →
          EndpointInv s isn closes
            { w with taken := w.taken + 1, sock := daemonGetFf wedge w.sock o } := by
        intro hnone hsame
        rw [hsame]
        refine h.deliver ho ?_ ?_ .inl
        · rw [hnone, append_nil]
          exact h.reader
        · rw [hnone, append_nil]
      cases o with
      | data addr bytes =>
        refine h.frame he.1 ho (he.2 bytes ?_)
        rw [Endpoint.nextFrame, ho]
        rfl
      | alert addr paramId retVal retMsg =>
        obtain ⟨hread, hsteps, hstatus⟩ := daemonAlert_reads wedge addr paramId retVal retMsg
          h.reader
        have hnone : delivered [.alert addr paramId retVal retMsg] = [] := rfl
        refine h.deliver ho ?_ ?_ hstatus
        · rw [hnone, append_nil]
          exact hread
        · rw [hnone, append_nil]
          exact hsteps
      | _ => exact skipped rfl rfl
  | recvmsg wedge hdr bufLen controllen flags =>
    have hwedge : wedge := he
    obtain ⟨hread, hstatus, hsteps⟩ := recvmsgOutTcp_reads h.reader hdr bufLen controllen flags
    rw [hwedge]
    exact h.sock hread hsteps (by rw [hstatus])
  | shutdown flow hdr how =>
    obtain ⟨hread, hpipe, hstatus⟩ := shutdownOutTcp_reads flow hdr h.reader he
    exact h.sock hread (by rw [hpipe]) hstatus
  | timeout call =>
    obtain ⟨hread, hpipe⟩ := h.reader.timeout call
    refine h.sock hread (by rw [hpipe]) ?_
    unfold daemonHandleTo recvmsgTimeoutTcp
    split <;> rfl
  | insertCall call =>
    refine h.sock (h.reader.insertCall ?_) .refl rfl
    intro htest
    have htype : call.1.callType = .recvmsg := by
      unfold daemonCallRecvmsgTest at htest
      rw [Bool.and_eq_true, beq_iff_eq] at htest
      exact htest.1
    exact absurd htype call.2
  | removeCall index => exact h.sock (h.reader.removeCall index) .refl rfl

/-! ### The end of the stream -/

/-- **The end of the stream comes last.**  The read-shutdown alert is sent behind every data
    frame, and a reader with a buffer is told end of file only when all of the stream has been
    returned. -/
theorem end_of_stream_last (s : List UInt8) (isn : UInt32) (closes : Bool)
    (hspan : streamSpan s closes < 2 ^ 32) (w₀ : Endpoint) (h₀ : w₀.Start isn)
    (es : List EndpointEvent) (hes : Steps stepEndpoint (EndInOrder s isn closes) w₀ es) :
    EndsLast s (runEndpoint w₀ es).conn.out ∧
      ∀ l₁ l₂ hdr buf, (runEndpoint w₀ es).sock.out = l₁ ++ .recvmsg hdr buf [] :: l₂ →
        buf ≠ 0 → returned l₁ = s := by
  have h : EndpointInv s isn closes (runEndpoint w₀ es) :=
    run_invariant_of_steps (fun _ _ h he => stepEndpoint_inv hspan h he) h₀.inv hes
  refine ⟨h.ending.endsLast, ?_⟩
  intro l₁ l₂ hdr buf heq hbuf
  have hanswers : answers (runEndpoint w₀ es).sock.out = answers l₁ ++ .eof :: answers l₂ := by
    rw [heq, answers_append]
    simp [answers, answerOf, hbuf]
  obtain ⟨hend, hall⟩ := h.pipe.last _ _ hanswers
  rw [← handedOut_answers, hall]
  exact (h.fed_of_ended (beq_iff_eq.mp hend)).1

/-! ### Concrete runs -/

def sampleEndpoint : Endpoint := ⟨runConn sampleConn sampleOpen, 5, connectedSocket⟩

theorem sampleEndpoint_start : sampleEndpoint.Start 501 where
  conn := ⟨by decide +kernel, by decide +kernel, by decide +kernel, by decide +kernel⟩
  quiet := by decide +kernel
  taken := by decide +kernel
  status := by decide
  data := ⟨rfl, rfl⟩
  replies := rfl

def sampleRead : EndpointEvent := .recvmsg true ⟨.recvmsg, 1, 0⟩ 10 0 0

def sampleDeliver : EndpointEvent := .deliver fun _ => true

def lateFin : List EndpointEvent :=
  [.tcp (sampleRecv { seqNum := 501, seqEnd := 504, data := [1, 2, 3], dataLen := 3 }),
   .tcp (sampleRecv { seqNum := 504, seqEnd := 504, flags := FLAG_FIN }),
   sampleDeliver, sampleDeliver, sampleDeliver, sampleDeliver, sampleRead, sampleRead]

theorem bareFins_sampleRecv {seg : TcpSeg} (h : BareFin seg) : BareFins (sampleRecv seg) := by
  intro seg' env hact
  injection hact with hseg _
  exact hseg ▸ h

theorem end_of_stream_last_lateFin :
    EndsLast [1, 2, 3] (runEndpoint sampleEndpoint lateFin).conn.out ∧
      ∃ l₁ hdr, (runEndpoint sampleEndpoint lateFin).sock.out = l₁ ++ [.recvmsg hdr 10 []] ∧
        returned l₁ = [1, 2, 3] := by
  have hes : Steps stepEndpoint (EndInOrder [1, 2, 3] 501 true) sampleEndpoint lateFin := by
    refine ⟨⟨receives_sampleRecv ?_, bareFins_sampleRecv nofun⟩,
      ⟨receives_sampleRecv ?_, bareFins_sampleRecv (fun _ => rfl)⟩,
      ⟨fun _ => rfl, by decide +kernel⟩, ⟨fun _ => rfl, by decide +kernel⟩,
      ⟨fun _ => rfl, by decide +kernel⟩, ⟨fun _ => rfl, by decide +kernel⟩, rfl, rfl, trivial⟩
    · exact ⟨0, by decide, by decide, by decide, by decide, by decide⟩
    · exact ⟨3, by decide, by decide, by decide, by decide, by decide⟩
  obtain ⟨hlast, heof⟩ := end_of_stream_last [1, 2, 3] 501 true (by decide) sampleEndpoint
    sampleEndpoint_start lateFin hes
  have hout : (runEndpoint sampleEndpoint lateFin).sock.out =
      [.recvmsg ⟨.recvmsg, 1, 0⟩ 10 [1, 2, 3], .hostWindow 3] ++
        [.recvmsg ⟨.recvmsg, 1, 0⟩ 10 []] := by
    decide +kernel
  exact ⟨hlast, _, _, hout, heof _ _ _ _ hout (by decide)⟩

def earlyFin : List EndpointEvent :=
  [sampleRead,
   .tcp (sampleRecv
    { seqNum := 501, seqEnd := 504, data := [1, 2, 3], dataLen := 3, flags := FLAG_FIN }),
   sampleDeliver, sampleDeliver, sampleDeliver]

/-- The alert comes before the data of the FIN's segment, and the waiting call is told end
    of file with nothing returned. -/
theorem end_of_file_before_data :
    sampleEndpoint.Start 501 ∧
      Receives [1, 2, 3] 501 true (sampleRecv
        { seqNum := 501, seqEnd := 504, data := [1, 2, 3], dataLen := 3, flags := FLAG_FIN }) ∧
      (∃ addr, (runEndpoint sampleEndpoint earlyFin).conn.out =
        sampleEndpoint.conn.out ++ [.fin 501 501, .edge .established .closeWait,
          .alert addr TCP_ALERT_SHUTDOWN FCF_FALSE TCP_STATUS_RD, .data addr [1, 2, 3]]) ∧
      (runEndpoint sampleEndpoint earlyFin).sock.out = [.recvmsg ⟨.recvmsg, 1, 0⟩ 10 []] := by
  refine ⟨sampleEndpoint_start, receives_sampleRecv ?_, ⟨⟨1, 10, 2, 20⟩, ?_⟩, ?_⟩
  · exact ⟨0, by decide, by decide, by decide, by decide, by decide⟩
  · decide +kernel
  · decide +kernel

end FinsStack.Daemon
