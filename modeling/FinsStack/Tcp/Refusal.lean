import FinsStack.Tcp.Parse
import FinsStack.Tcp.Registry

/-!
# Resets for segments that fit nowhere

`tcp_in.c`.

A reset acknowledges all that the refused segment holds, or its sender ignores it.  `seq_end`
counts the data only, so that the reset for a SYN or a FIN is one short.  In the handshake a FIN
is dropped silently, and in SYN_RECV also a wrong ACK.
-/

namespace FinsStack.Tcp

/-- `r` is a reset that the sender of `seg` accepts. -/
structure Refuses (seg r : TcpSeg) : Prop where
  rst : hasFlag r.flags FLAG_RST = true
  swapped : r.addr = seg.target
  ack : hasFlag r.flags FLAG_ACK = !hasFlag seg.flags FLAG_ACK
  seqNum : r.seqNum = if hasFlag seg.flags FLAG_ACK then seg.ackNum else 0
  ackNum : hasFlag seg.flags FLAG_ACK = false → r.ackNum = seg.seqNum + seg.dataLen32 +
    ((hasFlag seg.flags FLAG_SYN).toUInt32 + (hasFlag seg.flags FLAG_FIN).toUInt32)

def Refused (seg : TcpSeg) (out out' : List Out) : Prop :=
  if hasFlag seg.flags FLAG_RST then out' = out
  else ∃ r, out' = out ++ [.seg .control r] ∧ Refuses seg r

def Unmatched (s : TcpModule) (seg : TcpSeg) : Prop :=
  s.findConn seg.target = none ∧ (plainSyn seg = true → s.findStub seg.dstIp seg.dstPort = none)

def Unacceptable (c : TcpConn) (seg : TcpSeg) : Prop :=
  (c.state = .synSent ∨ c.state = .synRecv) ∧
    (hasFlag seg.flags FLAG_ACK = true ∧ seg.ackNum ≠ c.sendSeqNum + 1 ∨
      hasFlag seg.flags FLAG_SYN = false ∧
        (c.state = .synRecv → hasFlag seg.flags FLAG_ACK = false))

variable {c : TcpConn} {s : TcpModule} {seg : TcpSeg}

theorem reset_flags :
    hasFlag (FLAG_RST ||| 0x5000) FLAG_RST = true ∧ hasFlag (FLAG_RST ||| 0x5000) FLAG_ACK = false ∧
      hasFlag (FLAG_RST ||| FLAG_ACK ||| 0x5000) FLAG_RST = true ∧
      hasFlag (FLAG_RST ||| FLAG_ACK ||| 0x5000) FLAG_ACK = true := by decide

theorem refuses_ack {a : ConnAddr} (hto : a = seg.target)
    (hack : hasFlag seg.flags FLAG_ACK) : Refuses seg
      { tcpSegCreate a seg.ackNum (seg.ackNum + 1) with flags := FLAG_RST ||| 0x5000 } := by
  refine ⟨?_, hto, ?_, ?_, ?_⟩ <;> simp [reset_flags, hack, tcpSegCreate]

section

variable (hend : seg.seqEnd = seg.seqNum + seg.dataLen32)
include hend

theorem rstReply_refuses : Refuses seg (rstReply seg) ↔ hasFlag seg.flags FLAG_ACK ∨
    hasFlag seg.flags FLAG_SYN = false ∧ hasFlag seg.flags FLAG_FIN = false := by
  have hlen : ((hasFlag seg.flags FLAG_SYN).toUInt32 + (hasFlag seg.flags FLAG_FIN).toUInt32 = 0) ↔
      hasFlag seg.flags FLAG_SYN = false ∧ hasFlag seg.flags FLAG_FIN = false := by
    cases hasFlag seg.flags FLAG_SYN <;> cases hasFlag seg.flags FLAG_FIN <;> decide
  unfold rstReply
  split
  · rename_i hack
    exact iff_of_true (refuses_ack rfl hack) (.inl hack)
  · rename_i hack
    rw [or_iff_right hack, ← hlen]
    constructor
    · intro h
      have hnum := h.ackNum (by simpa using hack)
      rw [hend] at hnum
      exact left_eq_add.mp hnum
    · intro h
      refine ⟨?_, rfl, ?_, ?_, ?_⟩ <;> simp [reset_flags, hack, tcpSegCreate, h, hend]

theorem resetFor_refuses (hr : Resets c seg) (hto : c.addr = seg.target) :
    Refuses seg (resetFor c seg) := by
  obtain ⟨-, hfin, hcase⟩ := hr
  unfold resetFor
  split
  · rename_i hsyn
    rcases hcase with ⟨-, h⟩ | ⟨-, h, -⟩
    · exact refuses_ack hto (h hsyn).1
    · rw [hsyn] at h
      cases h
  · rename_i hsyn
    exact (rstReply_refuses hend).mpr (.inr ⟨by simpa using hsyn, hfin⟩)

theorem tcpInFdf_refused (md : TcpData) (rand : UInt32) (h : Unmatched s seg) :
    Refused seg s.out (tcpInFdf s md seg rand).out ↔ hasFlag seg.flags FLAG_RST ∨
      hasFlag seg.flags FLAG_ACK ∨
      hasFlag seg.flags FLAG_SYN = false ∧ hasFlag seg.flags FLAG_FIN = false := by
  have hcomm : ∀ m, hasFlag seg.flags m = hasFlag m seg.flags := fun m => by
    rw [hasFlag, UInt16.and_comm, hasFlag]
  have hplain : (hasFlag seg.flags FLAG_SYN &&
      !hasFlag seg.flags (FLAG_RST ||| FLAG_ACK ||| FLAG_FIN)) = plainSyn seg := by
    simp only [plainSyn, hcomm, hasFlag_or]
    grind
  have hout : (tcpInFdf s md seg rand).out =
      if hasFlag seg.flags FLAG_RST then s.out else s.out ++ [.seg .control (rstReply seg)] := by
    simp only [tcpInFdf, h.1, hplain]
    split
    · rename_i hsyn
      have hrst : hasFlag seg.flags FLAG_RST = false := by
        cases hrst : hasFlag seg.flags FLAG_RST <;> simp [plainSyn, hrst] at hsyn ⊢
      simp [h.2 hsyn, hrst, TcpModule.send]
    · split <;> rfl
  rw [Refused, hout]
  split
  · rename_i hrst
    simp [hrst]
  · rename_i hrst
    simp [hrst, rstReply_refuses hend]

theorem tcpRecvState_refused (md : TcpData) (env : RecvEnv) (h : Unacceptable c seg)
    (hto : c.addr = seg.target) :
    Refused seg c.out (tcpRecvState md c seg env).out ↔ hasFlag seg.flags FLAG_RST ∨
      hasFlag seg.flags FLAG_FIN = false ∧
        (c.state = .synRecv → hasFlag seg.flags FLAG_ACK = false) := by
  have hresets : Resets c seg ↔ hasFlag seg.flags FLAG_RST = false ∧
      hasFlag seg.flags FLAG_FIN = false ∧
        (c.state = .synRecv → hasFlag seg.flags FLAG_ACK = false) := by
    obtain ⟨hs | hs, h⟩ := h <;> simp only [Resets, hs] at h ⊢ <;> grind
  by_cases hr : Resets c seg
  · have hwell := hresets.mp hr
    rw [tcpRecvState_reset md env hr]
    exact iff_of_true (by simp [Refused, hwell.1, TcpConn.emit, resetFor_refuses hend hr hto])
      (.inr hwell.2)
  · have hkept : tcpRecvState md c seg env = c := by
      obtain ⟨hs | hs, h⟩ := h <;>
        simp only [tcpRecvState, hs, tcpRecvSynSent, tcpRecvSynRecv] <;>
        simp only [Resets, hs] at hr h <;> split_ifs <;> simp_all
    rw [hkept]
    cases hrst : hasFlag seg.flags FLAG_RST with
    | true => simp [Refused, hrst]
    | false =>
      have hwell := fun h => hr (hresets.mpr ⟨hrst, h⟩)
      simpa [Refused, hrst] using hwell

end

theorem unfit_refused_iff (ff : Fdf) (hff : fdfToTcp ff = some seg) (md : TcpData) (rand : UInt32)
    (env : RecvEnv) :
    (Unmatched s seg → (Refused seg s.out (tcpInFdf s md seg rand).out ↔
      hasFlag seg.flags FLAG_RST = true ∨ hasFlag seg.flags FLAG_ACK = true ∨
        hasFlag seg.flags FLAG_SYN = false ∧ hasFlag seg.flags FLAG_FIN = false)) ∧
    ∀ i, s.findConn seg.target = some i → Unacceptable (s.slots i).conn seg →
      (Refused seg (s.slots i).conn.out (tcpRecvState md (s.slots i).conn seg env).out ↔
        hasFlag seg.flags FLAG_RST = true ∨ hasFlag seg.flags FLAG_FIN = false ∧
          ((s.slots i).conn.state = .synRecv → hasFlag seg.flags FLAG_ACK = false)) := by
  have hend : seg.seqEnd = seg.seqNum + seg.dataLen32 := by
    unfold fdfToTcp at hff
    split_ifs at hff
    cases hff
    rfl
  exact ⟨tcpInFdf_refused hend md rand, fun i hfind hbad =>
    tcpRecvState_refused hend md env hbad (TcpModule.findConn_mem hfind).2⟩

def bareFrame (flags : UInt8) : Fdf :=
  ⟨IPPROTO_TCP, 2, 1, [0, 20, 0, 10, 0, 0, 0, 7, 0, 0, 0, 9, 0x50, flags, 1, 0, 0, 0, 0, 0]⟩

theorem ack_refused : ∃ seg, fdfToTcp (bareFrame 16) = some seg ∧
    Refused seg [] (tcpInFdf (.initial sampleData) sampleData seg 0).out :=
  ⟨_, rfl, ((unfit_refused_iff (bareFrame 16) rfl sampleData 0 ⟨0, none, false, true, 0⟩).1
    ⟨rfl, fun _ => rfl⟩).mpr (by decide)⟩

theorem syn_reset_short : ∃ seg, fdfToTcp (bareFrame 2) = some seg ∧
    Unmatched (.initial sampleData) seg ∧
      ¬ Refused seg [] (tcpInFdf (.initial sampleData) sampleData seg 0).out := by
  refine ⟨_, rfl, ⟨rfl, fun _ => rfl⟩, ?_⟩
  rw [show [] = (TcpModule.initial sampleData).out from rfl,
    tcpInFdf_refused rfl sampleData 0 ⟨rfl, fun _ => rfl⟩]
  decide

end FinsStack.Tcp
