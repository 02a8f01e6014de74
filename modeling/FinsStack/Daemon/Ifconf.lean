import FinsStack.Daemon.DispatchSafety
import FinsStack.Net.Ipv4

/-!
# Which interfaces there are

`daemon_out.c`, `finstypes.c`.

The reply is to hold a `struct ifreq` for each running interface, as far as the buffer of the
caller takes them.  The loop that packs them runs while the list is empty: with an interface
running it does not start, and without one it reads through the `NULL` that
`list_remove_front` returns, or takes the whole buffer as filled.  In the last case the check
behind the `switch` finds fewer bytes written than announced, and the call is refused.

The buffer of the reply is as long as the `uint32_t` that `secure_malloc` is given says; an
allocation does not fail here, and `send_wedge` succeeds.
-/

namespace FinsStack.Daemon.Ifconf

open Dispatch (REPLY_HDR_SIZE IFNAMSIZ IFREQ_SIZE asU32 asSize ifConf_fits_iff ifReq_fits_iff)
open Net (AddrRecord)

def IFF_RUNNING : UInt32 := 0x40

/-- `struct if_record`, as far as the enumeration reads it; `name` is a string in an array of
    `IFNAMSIZ` bytes. -/
structure IfRecord where
  name : List UInt8
  flags : UInt32
  addrList : List AddrRecord
  name_lt : name.length < IFNAMSIZ

def ifrRunningTest (ifr : IfRecord) : Bool := ifr.flags &&& IFF_RUNNING != 0

structure IfReq where
  name : List UInt8
  family : Nat
  port : Nat
  addr : UInt32
deriving DecidableEq, Repr

def ifReq (ifr : IfRecord) : IfReq :=
  { name := ifr.name
    family := 2 -- AF_INET
    port := 0
    addr := ((ifr.addrList.find? fun addr => addr.ip.isSome).bind AddrRecord.ip).getD 0 }

/-- The reply while it is written, and where: offsets into the buffer, with lengths. -/
structure IfConf where
  total : Int := 0
  reqs : List IfReq := []
  stores : List (Nat × Nat) := [(0, REPLY_HDR_SIZE)]
deriving DecidableEq, Repr

def IfConf.fits (conf : IfConf) (len : Int) : Bool := asSize (conf.total + IFREQ_SIZE) ≤ asSize len

def IfConf.add (conf : IfConf) (ifr : IfRecord) : IfConf where
  total := conf.total + IFREQ_SIZE
  reqs := conf.reqs ++ [ifReq ifr]
  stores := conf.stores ++ [(REPLY_HDR_SIZE + 4 + IFREQ_SIZE * conf.reqs.length, IFREQ_SIZE)]

/-- The loop; `none` is an access to an interface through `NULL`. -/
def ifConfLoop (len : Int) : List IfRecord → IfConf → Option IfConf
  | [], conf =>
    if ([] : List IfRecord).isEmpty then
      if conf.fits len then none else some { conf with total := len }
    else some conf
  | ifr :: running, conf =>
    if (ifr :: running).isEmpty then
      if conf.fits len then ifConfLoop len running (conf.add ifr)
      else some { conf with total := len }
    else some conf

/-- What the wedge is sent: the message, or a refusal with the error number `1`. -/
inductive IoctlReply where
  | ack (conf : IfConf)
  | nack (conf : IfConf)
deriving DecidableEq, Repr

/-- `pt - msg` and `msg_len` when the `switch` of `ioctl_out` is left. -/
def IfConf.written (conf : IfConf) : Int := REPLY_HDR_SIZE + 4 + IFREQ_SIZE * conf.reqs.length

def IfConf.msgLen (conf : IfConf) : Int := REPLY_HDR_SIZE + 4 + conf.total

/-- The case `SIOCGIFCONF` of `ioctl_out`; `msg_len` is not zero there. -/
def ioctlIfConf (ifList : List IfRecord) (len : Int32) : Option IoctlReply := do
  let conf ← ifConfLoop len.toInt (ifList.filter ifrRunningTest) {}
  let conf := { conf with stores := conf.stores ++ [(REPLY_HDR_SIZE, 4)] }
  return if conf.written ≠ conf.msgLen then .nack conf else .ack conf

def replySize (len : Int32) : Nat := asU32 (REPLY_HDR_SIZE + 4 + len.toInt)

/-- **The enumeration**: as many of the running interfaces, from the first one on, as have
    room in `len` bytes. -/
structure Enumerates (ifList : List IfRecord) (len : Int32) (conf : IfConf) : Prop where
  reqs : conf.reqs =
    ((ifList.filter ifrRunningTest).take (len.toInt.toNat / IFREQ_SIZE)).map ifReq
  total : conf.total = IFREQ_SIZE * conf.reqs.length
  inside : ∀ s ∈ conf.stores, s.1 + s.2 ≤ replySize len

def bareReply (total : Int) : IfConf where
  total := total
  stores := [(0, REPLY_HDR_SIZE), (REPLY_HDR_SIZE, 4)]

variable {ifList : List IfRecord} {len : Int32}

theorem any_iff_filter_ne_nil :
    ifList.any ifrRunningTest ↔ ifList.filter ifrRunningTest ≠ [] := by
  simp [List.filter_eq_nil_iff]

theorem fits_start_iff :
    IfConf.fits {} len.toInt ↔ ¬ (0 ≤ len.toInt ∧ len.toInt < IFREQ_SIZE) := by
  have hlo := len.le_toInt
  have hhi := len.toInt_lt
  rw [IfConf.fits, decide_eq_true_iff]
  exact ifReq_fits_iff hlo hhi

theorem bareReply_written_iff {total : Int} :
    (bareReply total).written ≠ (bareReply total).msgLen ↔ total ≠ 0 := by
  simp only [bareReply, IfConf.written, IfConf.msgLen, REPLY_HDR_SIZE, IFREQ_SIZE,
    List.length_nil]
  omega

/-- No record is ever written. -/
theorem ioctlIfConf_eq : ioctlIfConf ifList len =
    if ifList.any ifrRunningTest then some (.ack (bareReply 0))
    else if 0 ≤ len.toInt ∧ len.toInt < IFREQ_SIZE then
      some (if len.toInt ≠ 0 then .nack (bareReply len.toInt) else .ack (bareReply len.toInt))
    else none := by
  have hany : ifList.any ifrRunningTest ↔ _ := any_iff_filter_ne_nil
  rw [ioctlIfConf]
  cases hrun : ifList.filter ifrRunningTest with
  | nil =>
    rw [if_neg (fun h => hany.mp h hrun)]
    simp only [ifConfLoop, List.isEmpty_nil, if_true]
    by_cases hlen : 0 ≤ len.toInt ∧ len.toInt < IFREQ_SIZE
    · rw [if_pos hlen, if_neg (fun h => fits_start_iff.mp h hlen)]
      refine congrArg some ?_
      simp only [← bareReply_written_iff]
      rfl
    · rw [if_neg hlen, if_pos (fits_start_iff.mpr hlen)]
      rfl
  | cons ifr running =>
    rw [if_pos (hany.mpr (by simp [hrun]))]
    rfl

theorem bareReply_enumerates_iff {total : Int} :
    Enumerates ifList len (bareReply total) ↔
      (ifList.any ifrRunningTest → len.toInt < IFREQ_SIZE) ∧ total = 0 ∧
        (0 ≤ len.toInt ∨ len.toInt < -(REPLY_HDR_SIZE + 4 : Int)) := by
  have hfits : REPLY_HDR_SIZE + 4 ≤ replySize len ↔ _ :=
    ifConf_fits_iff len.le_toInt len.toInt_lt
  rw [← hfits, any_iff_filter_ne_nil]
  constructor
  · rintro ⟨hreqs, htotal, hinside⟩
    refine ⟨?_, htotal, hinside (REPLY_HDR_SIZE, 4) (by simp [bareReply])⟩
    intro hrun
    rcases List.take_eq_nil_iff.mp (List.map_eq_nil_iff.mp hreqs.symm) with hzero | hnil
    · simp only [IFREQ_SIZE] at hzero ⊢
      omega
    · exact absurd hnil hrun
  · rintro ⟨hlen, rfl, hsize⟩
    refine ⟨(List.map_eq_nil_iff.mpr (List.take_eq_nil_iff.mpr ?_)).symm, rfl, ?_⟩
    · rw [or_iff_not_imp_right]
      intro hrun
      have hlt := hlen hrun
      simp only [IFREQ_SIZE] at hlt ⊢
      omega
    · intro s hs
      simp only [bareReply, List.mem_cons, List.not_mem_nil, or_false] at hs
      rcases hs with rfl | rfl
      · exact Nat.le_trans (Nat.le_add_right _ 4) hsize
      · exact hsize

/-- The reply is right only where it has nothing to list. -/
theorem ioctlIfConf_enumerates_iff :
    (∃ conf, ioctlIfConf ifList len = some (.ack conf) ∧ Enumerates ifList len conf) ↔
      (ifList.any ifrRunningTest ∧ len.toInt < IFREQ_SIZE ∧
        (0 ≤ len.toInt ∨ len.toInt < -(REPLY_HDR_SIZE + 4 : Int))) ∨
      (¬ ifList.any ifrRunningTest ∧ len.toInt = 0) := by
  rw [ioctlIfConf_eq]
  by_cases hany : ifList.any ifrRunningTest
  · simp [hany, bareReply_enumerates_iff]
  by_cases hlen : 0 ≤ len.toInt ∧ len.toInt < IFREQ_SIZE
  · rw [if_neg hany, if_pos hlen]
    by_cases hzero : len.toInt = 0 <;> simp [hany, bareReply_enumerates_iff, hzero]
  · have hne : len.toInt ≠ 0 := by
      intro hzero
      rw [hzero] at hlen
      exact hlen (by decide)
    simp [hany, hlen, hne]

/-- The loopback interface runs, and there is room for two records: none is listed. -/
def loopback : IfRecord := ⟨[108, 111], IFF_RUNNING, [⟨0, some 0x7f000001, none⟩], by decide⟩

theorem ioctlIfConf_loopback_missing :
    ¬ ∃ conf, ioctlIfConf [loopback] 80 = some (.ack conf) ∧ Enumerates [loopback] 80 conf := by
  rintro ⟨conf, hconf, henum⟩
  rw [ioctlIfConf_eq, if_pos (by decide), Option.some.injEq, IoctlReply.ack.injEq] at hconf
  subst hconf
  exact absurd ((bareReply_enumerates_iff.mp henum).1 (by decide)) (by decide)

end FinsStack.Daemon.Ifconf
