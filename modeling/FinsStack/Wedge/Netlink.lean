import FinsStack.Lib.Buffer
import FinsStack.Lib.Run
import Mathlib.Algebra.Group.Nat.Defs

/-!
# Messages between the wedge and the daemon

`fins_stack_wedge.c`, `daemon.c`.

`nl_send` cuts a message into parts of at most 4084 bytes, numbers them and marks the last one
`NLMSG_DONE`.  `wedge_to_daemon` keeps its reassembly state across messages: the length of the
message it is in, the buffer and the place of the next byte.  It learns of a new message by its
first part; but a part whose message length is not the one it remembers is dropped before that,
and the remembered length is only forgotten when a message is finished.  So a send that fails
after some part was delivered blocks every later message of another length.

The two sides meet at `Tiles`, the parts of a message from some position on.
-/

namespace FinsStack.Wedge

open List Lib

/-! ### Sending -/

def RECV_BUFFER_SIZE : Nat := 4096

def NL_HDR_SIZE : Nat := 12

def PART_LEN : Nat := RECV_BUFFER_SIZE - NL_HDR_SIZE

def WEDGE_HDR_SIZE : Nat := 32

/-- One netlink message: its number, whether its type is `NLMSG_DONE`, the fields of
    `struct nl_wedge_to_daemon_hdr` and the bytes behind it. -/
structure Part where
  seq : Nat
  done : Bool
  msgLen : Nat
  partLen : Nat
  pos : Nat
  data : List UInt8
deriving DecidableEq, Repr

/-- The loop of `nl_send`: `rest` is the message from `msg_pt` on, so that its length is
    `msg_len - pos`. -/
def nlSendLoop (msgLen : Nat) (rest : List UInt8) (pos seq : Nat) : List Part :=
  if PART_LEN < rest.length then
    { seq := seq, done := false, msgLen := msgLen, partLen := PART_LEN, pos := pos
      data := rest.take PART_LEN }
      :: nlSendLoop msgLen (rest.drop PART_LEN) (pos + PART_LEN) (seq + 1)
  else
    [{ seq := seq, done := true, msgLen := msgLen, partLen := rest.length, pos := pos
       data := rest }]
termination_by rest.length
decreasing_by
  simp only [length_drop, PART_LEN, RECV_BUFFER_SIZE, NL_HDR_SIZE] at *
  omega

def nlSend (msg : List UInt8) : List Part := nlSendLoop msg.length msg 0 0

/-! ### Receiving -/

/-- The variables of `wedge_to_daemon` that live across parts; `msg_len` is -1 and a pointer is
    NULL when it is `none`.  `msgPt` is the offset of `msg_pt` in the buffer. -/
structure Reassembly where
  msgLen : Option Nat := none
  msgBuf : Option (List UInt8) := none
  msgPt : Option Nat := none
deriving DecidableEq, Repr

inductive DaemonEvent where
  | write (pos len size : Nat)
  | out (hdr payload : List UInt8)
  /-- `daemon_out` is called with a NULL header. -/
  | outNull
deriving DecidableEq, Repr

section Receive

-- what newly allocated memory holds
variable (fresh : Nat → UInt8)

def newBuffer (size : Nat) : List UInt8 := (range size).map fresh

def Reassembly.begin (s : Reassembly) (p : Part) : Reassembly :=
  if p.seq = 0 then { s with msgBuf := some (newBuffer fresh p.msgLen), msgPt := some 0 } else s

def Reassembly.copy (s : Reassembly) (p : Part) : Reassembly × List DaemonEvent :=
  match s.msgPt, s.msgBuf with
  | some _, some buf =>
    ({ s with msgBuf := some (patch buf p.pos p.data), msgPt := some (p.pos + p.partLen) },
      [.write p.pos p.partLen buf.length])
  | _, _ => (s, [])

def Reassembly.finish (s : Reassembly) : Reassembly × List DaemonEvent :=
  ({}, [match s.msgBuf with
    | some buf => .out (buf.take WEDGE_HDR_SIZE) (buf.drop WEDGE_HDR_SIZE)
    | none => .outNull])

def wedgeToDaemon (s : Reassembly) (p : Part) : Reassembly × List DaemonEvent :=
  let s := { s with msgLen := some (s.msgLen.getD p.msgLen) }
  if s.msgLen ≠ some p.msgLen then (s, [])
  else
    let (s, events) := (s.begin fresh p).copy p
    if p.done then
      let (s, more) := s.finish
      (s, events ++ more)
    else (s, events)

def wedgeToDaemonAll (s : Reassembly) : List Part → Reassembly × List DaemonEvent
  | [] => (s, [])
  | p :: ps =>
    let (s, events) := wedgeToDaemon fresh s p
    let (s, more) := wedgeToDaemonAll s ps
    (s, events ++ more)

end Receive

/-! ### The transport -/

structure Send where
  msg : List UInt8
  delivered : Nat
  header_le : WEDGE_HDR_SIZE ≤ msg.length
  length_lt : msg.length < 2 ^ 31
  delivered_le : delivered ≤ (nlSend msg).length

def Send.Complete (x : Send) : Prop := x.delivered = (nlSend x.msg).length
deriving Decidable

structure Transport where
  daemon : Reassembly := {}
  events : List DaemonEvent := []
  sent : List (List UInt8) := []

def Transport.step (fresh : Nat → UInt8) (t : Transport) (x : Send) : Transport :=
  let (s, events) := wedgeToDaemonAll fresh t.daemon ((nlSend x.msg).take x.delivered)
  { daemon := s
    events := t.events ++ events
    sent := if x.Complete then t.sent ++ [x.msg] else t.sent }

/-- The call of `daemon_out`, if the event is one. -/
def DaemonEvent.out? : DaemonEvent → Option (List UInt8 × List UInt8)
  | out hdr payload => some (hdr, payload)
  | _ => none

def DaemonEvent.Inside : DaemonEvent → Prop
  | write pos len size => pos + len ≤ size
  | out _ _ => True
  | outNull => False

/-- `daemon_out` was called once for each completely sent message, in order and with its header
    and payload, and no copy went outside the buffer. -/
structure Faithful (t : Transport) : Prop where
  outs : t.events.filterMap DaemonEvent.out?
    = t.sent.map fun m => (m.take WEDGE_HDR_SIZE, m.drop WEDGE_HDR_SIZE)
  inside : ∀ e ∈ t.events, e.Inside

/-! ### The parts of a message -/

/-- The parts of the message `m` from position `pos` and number `seq` on. -/
inductive Tiles (m : List UInt8) : Nat → Nat → List Part → Prop where
  | last {pos seq : Nat} (hpos : pos ≤ m.length) :
      Tiles m pos seq [{ seq := seq, done := true, msgLen := m.length
                         partLen := m.length - pos, pos := pos, data := m.drop pos }]
  | cons {pos seq : Nat} {ps : List Part} (hpos : pos + PART_LEN ≤ m.length)
      (hps : Tiles m (pos + PART_LEN) (seq + 1) ps) :
      Tiles m pos seq ({ seq := seq, done := false, msgLen := m.length, partLen := PART_LEN
                         pos := pos, data := (m.drop pos).take PART_LEN } :: ps)

variable {m : List UInt8} {pos : Nat} {s : Reassembly} {t : Transport} {x : Send}

theorem tiles_nlSendLoop {rest : List UInt8} (seq : Nat) (hpos : pos ≤ m.length)
    (hrest : rest = m.drop pos) : Tiles m pos seq (nlSendLoop m.length rest pos seq) := by
  fun_induction nlSendLoop m.length rest pos seq with
  | case1 rest pos seq hlong ih =>
    subst hrest
    rw [length_drop] at hlong
    have hnext : pos + PART_LEN ≤ m.length := by omega
    apply Tiles.cons hnext
    apply ih hnext
    rw [drop_drop]
  | case2 rest pos seq hshort =>
    subst hrest
    rw [length_drop]
    exact .last hpos

/-- **What `nl_send` sends is the message, part by part.** -/
theorem tiles_nlSend (m : List UInt8) : Tiles m 0 0 (nlSend m) :=
  tiles_nlSendLoop 0 (Nat.zero_le _) drop_zero.symm

theorem Tiles.msgLen {seq : Nat} {ps : List Part} (h : Tiles m pos seq ps) :
    ∀ p ∈ ps, p.msgLen = m.length := by
  induction h with
  | last hpos => simp
  | cons hpos hps ih =>
    intro p hp
    rcases mem_cons.mp hp with rfl | hp
    · rfl
    · exact ih p hp

/-! ### One part -/

def Open (s : Reassembly) (n : Nat) : Prop := s.msgLen = none ∨ s.msgLen = some n
deriving Decidable

structure Holding (s : Reassembly) (m : List UInt8) (pos : Nat) : Prop where
  msgLen : s.msgLen = some m.length
  msgBuf : ∃ buf, s.msgBuf = some buf ∧ buf.length = m.length ∧ buf.take pos = m.take pos
  msgPt : s.msgPt = some pos

/-- The daemon can go on with the part of `m` at `pos`, which has number `seq`. -/
def Ready (s : Reassembly) (m : List UInt8) (pos seq : Nat) : Prop :=
  seq = 0 ∧ pos = 0 ∧ Open s m.length ∨ seq ≠ 0 ∧ Holding s m pos

structure NextPart (m : List UInt8) (p : Part) : Prop where
  msgLen : p.msgLen = m.length
  inside : p.pos + p.partLen ≤ m.length
  data : p.data = (m.drop p.pos).take p.partLen

theorem NextPart.length {p : Part} (h : NextPart m p) : p.data.length = p.partLen := by
  have hin := h.inside
  rw [h.data, length_take, length_drop]
  omega

theorem Ready.open_ {seq : Nat} (h : Ready s m pos seq) : Open s m.length := by
  rcases h with ⟨_, _, hopen⟩ | ⟨_, hhold⟩
  · exact hopen
  · exact .inr hhold.msgLen

theorem Open.getD {n : Nat} (h : Open s n) : s.msgLen.getD n = n := by
  rcases h with hnone | hsome
  · rw [hnone]
    rfl
  · rw [hsome]
    rfl

section Receive

variable (fresh : Nat → UInt8) {s : Reassembly} {m : List UInt8}

variable {p : Part} {ps : List Part}

theorem Ready.begin (hp : NextPart m p) (h : Ready s m p.pos p.seq) :
    Holding (Reassembly.begin fresh { s with msgLen := some m.length } p) m p.pos := by
  rcases h with ⟨hseq, hpos, _⟩ | ⟨hseq, hhold⟩
  · simp only [Reassembly.begin, if_pos hseq, hp.msgLen, hpos]
    refine ⟨rfl, ⟨_, rfl, ?_, rfl⟩, rfl⟩
    simp [newBuffer]
  · simp only [Reassembly.begin, if_neg hseq]
    exact ⟨rfl, hhold.msgBuf, hhold.msgPt⟩

theorem Holding.copy (hp : NextPart m p) (h : Holding s m p.pos) :
    ∃ s', s.copy p = (s', [.write p.pos p.partLen m.length])
      ∧ Holding s' m (p.pos + p.partLen) := by
  obtain ⟨buf, hbuf, hlen, htake⟩ := h.msgBuf
  have hdata := hp.length
  have hin := hp.inside
  refine ⟨{ s with msgBuf := some (patch buf p.pos p.data)
                   msgPt := some (p.pos + p.partLen) }, ?_, h.msgLen, ⟨_, rfl, ?_, ?_⟩, rfl⟩
  · simp only [Reassembly.copy, h.msgPt, hbuf, hlen]
  · rw [length_patch (by omega), hlen]
  · have hfill := take_patch (by omega) htake (by rw [hdata]; exact hp.data)
    rwa [hdata] at hfill

theorem Ready.wedgeToDaemon (hp : NextPart m p) (h : Ready s m p.pos p.seq)
    (hdone : p.done = false) :
    ∃ s', wedgeToDaemon fresh s p = (s', [.write p.pos p.partLen m.length])
      ∧ Holding s' m (p.pos + p.partLen) := by
  obtain ⟨s', hcopy, hhold⟩ := (h.begin fresh hp).copy hp
  refine ⟨s', ?_, hhold⟩
  simp [Wedge.wedgeToDaemon, hp.msgLen, h.open_.getD, hcopy, hdone]

theorem Ready.wedgeToDaemon_done (hp : NextPart m p) (h : Ready s m p.pos p.seq)
    (hdone : p.done) (hend : p.pos + p.partLen = m.length) :
    Wedge.wedgeToDaemon fresh s p = ({}, [.write p.pos p.partLen m.length,
      .out (m.take WEDGE_HDR_SIZE) (m.drop WEDGE_HDR_SIZE)]) := by
  obtain ⟨s', hcopy, hhold⟩ := (h.begin fresh hp).copy hp
  obtain ⟨buf, hbuf, hlen, htake⟩ := hhold.msgBuf
  have hfull : buf = m := by
    rw [hend, take_length, ← hlen, take_length] at htake
    exact htake
  simp [Wedge.wedgeToDaemon, hp.msgLen, h.open_.getD, hcopy, hdone, Reassembly.finish, hbuf, hfull]

/-! ### A whole message -/

def Copies (events : List DaemonEvent) : Prop := ∀ e ∈ events, e.Inside ∧ e.out? = none

theorem Copies.cons {events : List DaemonEvent} (hp : NextPart m p) (h : Copies events) :
    Copies (.write p.pos p.partLen m.length :: events) := by
  intro e he
  rcases mem_cons.mp he with rfl | he
  · exact ⟨hp.inside, rfl⟩
  · exact h e he

/-- **A message that arrives completely is handed on**, from every state that is ready for it. -/
theorem Ready.complete {pos seq : Nat} (hps : Tiles m pos seq ps) (h : Ready s m pos seq) :
    ∃ events, Copies events ∧ wedgeToDaemonAll fresh s ps
      = ({}, events ++ [.out (m.take WEDGE_HDR_SIZE) (m.drop WEDGE_HDR_SIZE)]) := by
  induction hps generalizing s with
  | @last pos seq hpos =>
    have hp : NextPart m { seq := seq, done := true, msgLen := m.length
                           partLen := m.length - pos, pos := pos, data := m.drop pos } :=
      ⟨rfl, by simp only; omega, by rw [← length_drop, take_length]⟩
    have hdone := h.wedgeToDaemon_done fresh hp rfl (by simp only; omega)
    have hnil : Copies [] := by simp [Copies]
    refine ⟨_, hnil.cons hp, ?_⟩
    simp [wedgeToDaemonAll, hdone]
  | @cons pos seq ps hpos hps ih =>
    have hp : NextPart m { seq := seq, done := false, msgLen := m.length, partLen := PART_LEN
                           pos := pos, data := (m.drop pos).take PART_LEN } :=
      ⟨rfl, hpos, rfl⟩
    obtain ⟨s', hpart, hhold⟩ := h.wedgeToDaemon fresh hp rfl
    obtain ⟨events, hcopies, hall⟩ := ih (.inr ⟨Nat.succ_ne_zero seq, hhold⟩)
    refine ⟨_, hcopies.cons hp, ?_⟩
    simp [wedgeToDaemonAll, hpart, hall]

theorem Ready.aborted {pos seq : Nat} (hps : Tiles m pos seq ps) (h : Ready s m pos seq) {k : Nat}
    (hk : k < ps.length) :
    Copies (wedgeToDaemonAll fresh s (ps.take k)).2
      ∧ (0 < k → (wedgeToDaemonAll fresh s (ps.take k)).1.msgLen = some m.length) := by
  induction hps generalizing s k with
  | last hpos =>
    have hk0 : k = 0 := by simpa using hk
    simp [hk0, wedgeToDaemonAll, Copies]
  | @cons pos seq ps hpos hps ih =>
    cases k with
    | zero => simp [wedgeToDaemonAll, Copies]
    | succ k =>
      have hp : NextPart m { seq := seq, done := false, msgLen := m.length, partLen := PART_LEN
                             pos := pos, data := (m.drop pos).take PART_LEN } :=
        ⟨rfl, hpos, rfl⟩
      obtain ⟨s', hpart, hhold⟩ := h.wedgeToDaemon fresh hp rfl
      obtain ⟨hcopies, hlen⟩ := ih (.inr ⟨Nat.succ_ne_zero seq, hhold⟩)
        (Nat.lt_of_succ_lt_succ hk)
      simp only [take_succ_cons, wedgeToDaemonAll, hpart, singleton_append]
      refine ⟨hcopies.cons hp, fun _ => ?_⟩
      rcases Nat.eq_zero_or_pos k with rfl | hpos'
      · exact hhold.msgLen
      · exact hlen hpos'

theorem blocked {n : Nat} (hs : s.msgLen = some n) (hn : n ≠ m.length)
    (hps : ∀ p ∈ ps, p.msgLen = m.length) : wedgeToDaemonAll fresh s ps = (s, []) := by
  induction ps with
  | nil => rfl
  | cons p ps ih =>
    have hlen : p.msgLen = m.length := hps p mem_cons_self
    have hdrop : wedgeToDaemon fresh s p = (s, []) := by
      obtain ⟨len, buf, pt⟩ := s
      subst hs
      simp [wedgeToDaemon, hlen, hn]
    simp only [wedgeToDaemonAll, hdrop, nil_append]
    exact ih fun p' hp' => hps p' (mem_cons_of_mem p hp')

end Receive

/-! ### Runs -/

def Unblocked (t : Transport) (x : Send) : Prop := x.Complete → Open t.daemon x.msg.length
deriving Decidable

theorem filterMap_copies {events : List DaemonEvent} (h : Copies events) :
    events.filterMap DaemonEvent.out? = [] :=
  filterMap_eq_nil_iff.mpr fun e he => (h e he).2

theorem Open.ready (h : Open s m.length) : Ready s m 0 0 :=
  .inl ⟨rfl, rfl, h⟩

theorem Faithful.step_incomplete {fresh : Nat → UInt8} (h : Faithful t) (hx : ¬ x.Complete) :
    Faithful (t.step fresh x) := by
  have htiles := tiles_nlSend x.msg
  have hcopies : Copies
      (wedgeToDaemonAll fresh t.daemon ((nlSend x.msg).take x.delivered)).2 := by
    by_cases hopen : Open t.daemon x.msg.length
    · have hlt : x.delivered < (nlSend x.msg).length := Nat.lt_of_le_of_ne x.delivered_le hx
      exact (hopen.ready.aborted fresh htiles hlt).1
    · obtain ⟨n, hn⟩ := Option.ne_none_iff_exists'.mp fun hnone => hopen (.inl hnone)
      have hne : n ≠ x.msg.length := fun heq => hopen (.inr (heq ▸ hn))
      rw [blocked fresh hn hne fun p hp => htiles.msgLen p (mem_of_mem_take hp)]
      simp [Copies]
  simp only [Transport.step, if_neg hx]
  refine ⟨?_, ?_⟩
  · rw [filterMap_append, filterMap_copies hcopies, append_nil]
    exact h.outs
  · exact forall_mem_append.mpr ⟨h.inside, fun e he => (hcopies e he).1⟩

theorem Faithful.step_complete {fresh : Nat → UInt8} (h : Faithful t) (hx : x.Complete)
    (hopen : Open t.daemon x.msg.length) : Faithful (t.step fresh x) := by
  obtain ⟨events, hcopies, hall⟩ := hopen.ready.complete fresh (tiles_nlSend x.msg)
  have hparts : (nlSend x.msg).take x.delivered = nlSend x.msg := by
    rw [hx, take_length]
  simp only [Transport.step, if_pos hx, hparts, hall]
  refine ⟨?_, ?_⟩
  · rw [filterMap_append, filterMap_append, filterMap_copies hcopies, h.outs,
      map_append]
    rfl
  · refine forall_mem_append.mpr ⟨h.inside, ?_⟩
    exact forall_mem_concat (fun e he => (hcopies e he).1) trivial

theorem Faithful.not_step {fresh : Nat → UInt8} (h : Faithful t) (hx : x.Complete)
    (hopen : ¬ Open t.daemon x.msg.length) : ¬ Faithful (t.step fresh x) := by
  obtain ⟨n, hn⟩ := Option.ne_none_iff_exists'.mp fun hnone => hopen (.inl hnone)
  have hne : n ≠ x.msg.length := fun heq => hopen (.inr (heq ▸ hn))
  have hblocked := blocked fresh hn hne fun p hp =>
    (tiles_nlSend x.msg).msgLen p (mem_of_mem_take (i := x.delivered) hp)
  intro hstep
  have houts := hstep.outs
  simp only [Transport.step, if_pos hx, hblocked, append_nil, h.outs] at houts
  have hlen := congrArg List.length houts
  simp at hlen

/-- **The transport is faithful in every state of a run exactly when no message is sent
    completely while the daemon remembers another length.** -/
theorem faithful_iff_unblocked (fresh : Nat → UInt8) (xs : List Send) :
    (∀ xs₁, xs₁ <+: xs → Faithful (run (Transport.step fresh) {} xs₁))
      ↔ Steps (Transport.step fresh) Unblocked {} xs := by
  refine (steps_iff_everywhere (I := Faithful) ?_ (fun _ h => h) ?_ ⟨rfl, by simp⟩).symm
  · intro t x h hx
    by_cases hc : x.Complete
    · exact h.step_complete hc (hx hc)
    · exact h.step_incomplete hc
  · intro t x h hstep hc
    by_contra hopen
    exact h.not_step hc hopen hstep

def zeros (n : Nat) : List UInt8 := replicate n 0

def cutShort : Send where
  msg := zeros 4085
  delivered := 1
  header_le := by decide +kernel
  length_lt := by decide +kernel
  delivered_le := by decide +kernel

def headerOnly : Send where
  msg := zeros 32
  delivered := 1
  header_le := by decide +kernel
  length_lt := by decide +kernel
  delivered_le := by decide +kernel

/-- The complete message behind the one that was cut short never reaches `daemon_out`. -/
theorem cutShort_blocks :
    ¬ Faithful (run (Transport.step fun _ => 0) {} [cutShort, headerOnly]) :=
  fun h => absurd h.outs (by decide +kernel)

end FinsStack.Wedge
