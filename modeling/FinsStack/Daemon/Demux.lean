import FinsStack.Daemon.Bind

/-!
# Which socket gets a UDP packet

`daemon/udpHandling.c`.

The table is scanned four times, each time for a socket with exactly the given addresses.
`packet_socket` says that this finds the lowest of the most specific sockets.
-/

namespace FinsStack.Daemon.Bind

structure UdpSock extends Sock where
  remIp : UInt32
  remPort : UInt16
deriving DecidableEq, Repr

structure Packet where
  srcIp : UInt32
  srcPort : UInt16
  dstIp : UInt32
  dstPort : UInt16
deriving DecidableEq, Repr

variable (t : Index → UdpSock) (p : Packet)

def UdpSock.has (s : UdpSock) (hostIp : UInt32) (hostPort : UInt16) (remIp : UInt32)
    (remPort : UInt16) : Bool :=
  s.live && s.protocol == .udp && s.family == .inet &&
    (s.hostPort == hostPort && s.remPort == remPort && s.hostIp == hostIp && s.remIp == remIp)

def matchConnAddr4Udp (hostIp : UInt32) (hostPort : UInt16) (remIp : UInt32) (remPort : UInt16) :
    Option Index :=
  Fin.find? fun i => (t i).has hostIp hostPort remIp remPort

def matchPacketAddr4Udp : Option Index :=
  matchConnAddr4Udp t p.dstIp p.dstPort p.srcIp p.srcPort <|>
    matchConnAddr4Udp t DAEMON_ADDR_ANY p.dstPort p.srcIp p.srcPort <|>
    matchConnAddr4Udp t p.dstIp p.dstPort DAEMON_ADDR_ANY DAEMON_PORT_ANY <|>
    matchConnAddr4Udp t DAEMON_ADDR_ANY p.dstPort DAEMON_ADDR_ANY DAEMON_PORT_ANY

def UdpSock.Accepts (s : UdpSock) : Prop :=
  (s.live = true ∧ s.protocol = .udp ∧ s.family = .inet) ∧ s.hostPort = p.dstPort ∧
    (s.hostIp = p.dstIp ∨ s.hostIp = DAEMON_ADDR_ANY) ∧
    (s.remIp = p.srcIp ∧ s.remPort = p.srcPort ∨
      s.remIp = DAEMON_ADDR_ANY ∧ s.remPort = DAEMON_PORT_ANY)

def UdpSock.rank (s : UdpSock) : Nat :=
  (if s.hostIp = p.dstIp then 0 else 1) + if s.remIp = p.srcIp ∧ s.remPort = p.srcPort then 0 else 2

/-- The lowest of the most specific sockets. -/
def Best (i : Index) : Prop :=
  (t i).Accepts p ∧ ∀ j, (t j).Accepts p →
    (t i).rank p < (t j).rank p ∨ (t i).rank p = (t j).rank p ∧ i ≤ j

def UdpSock.fits (s : UdpSock) (k : Nat) : Bool :=
  s.has (if k % 2 = 0 then p.dstIp else DAEMON_ADDR_ANY) p.dstPort
    (if k < 2 then p.srcIp else DAEMON_ADDR_ANY) (if k < 2 then p.srcPort else DAEMON_PORT_ANY)

variable {t p} {s : UdpSock} {i j : Index}

theorem matchPacketAddr4Udp_eq : matchPacketAddr4Udp t p =
    Fin.findSome? fun k : Fin 4 => Fin.find? fun i => (t i).fits p k := by
  simp [Fin.findSome?_succ, matchPacketAddr4Udp, matchConnAddr4Udp, UdpSock.fits]

theorem UdpSock.rank_lt (s : UdpSock) : s.rank p < 4 := by
  unfold rank
  split_ifs <;> decide

theorem UdpSock.fits_rank (h : s.Accepts p) : s.fits p (s.rank p) := by
  obtain ⟨hkind, hport, hlocal, hrem⟩ := h
  unfold rank
  split_ifs <;> simp_all [fits, has]

theorem UdpSock.rank_le {k : Nat} (h : s.fits p k) : s.Accepts p ∧ s.rank p ≤ k := by
  simp only [fits, has, Bool.and_eq_true, beq_iff_eq] at h
  unfold Accepts rank
  grind

theorem rank_ne {k : Nat} (h : Fin.find? (fun i => (t i).fits p k) = none)
    (hj : (t j).Accepts p) : (t j).rank p ≠ k := by
  rintro rfl
  exact Bool.false_ne_true ((Fin.find?_eq_none_iff.mp h j).symm.trans (UdpSock.fits_rank hj))

theorem best_of_scan {k : Fin 4} (hi : Fin.find? (fun i => (t i).fits p k) = some i)
    (hnone : ∀ k' < k, Fin.find? (fun i => (t i).fits p k') = none) : Best t p i := by
  obtain ⟨hfits, hfirst⟩ := Fin.find?_eq_some_iff.mp hi
  obtain ⟨hok, hle⟩ := UdpSock.rank_le hfits
  have hlow : ∀ j, (t j).Accepts p → ↑k ≤ (t j).rank p := by
    intro j hj
    by_contra hlt
    exact rank_ne (hnone ⟨_, (t j).rank_lt⟩ (Nat.lt_of_not_le hlt)) hj rfl
  have hrank : (t i).rank p = k := Nat.le_antisymm hle (hlow i hok)
  refine ⟨hok, fun j hj => ?_⟩
  rw [hrank]
  rcases Nat.lt_or_eq_of_le (hlow j hj) with hlt | heq
  · exact .inl hlt
  · refine .inr ⟨heq, Nat.le_of_not_lt fun hji => ?_⟩
    have hno := hfirst j hji
    rw [heq, UdpSock.fits_rank hj] at hno
    cases hno

theorem Best.unique (hi : Best t p i) (hj : Best t p j) : i = j := by
  rcases hi.2 j hj.1 with h | ⟨h, hij⟩
  · rcases hj.2 i hi.1 with h' | ⟨h', -⟩ <;> omega
  · rcases hj.2 i hi.1 with h' | ⟨-, hji⟩
    · omega
    · exact Fin.le_antisymm hij hji

/-- **Demultiplexing.**  A packet goes to the lowest of the most specific sockets that accept it,
    and to nobody only if there is none. -/
theorem packet_socket (t : Index → UdpSock) (p : Packet) :
    (∀ i, matchPacketAddr4Udp t p = some i ↔ Best t p i) ∧
      (matchPacketAddr4Udp t p = none ↔ ∀ i, ¬ (t i).Accepts p) := by
  rw [matchPacketAddr4Udp_eq]
  cases hm : Fin.findSome? fun k : Fin 4 => Fin.find? fun i => (t i).fits p k with
  | none =>
    have hno : ∀ i, ¬ (t i).Accepts p := fun i hi =>
      rank_ne (Fin.findSome?_eq_none_iff.mp hm ⟨(t i).rank p, (t i).rank_lt⟩) hi rfl
    exact ⟨fun i => ⟨fun h => (by cases h), fun h => absurd h.1 (hno i)⟩, fun _ => hno,
      fun _ => rfl⟩
  | some j =>
    obtain ⟨k, hk, hbefore⟩ := Fin.findSome?_eq_some_iff.mp hm
    have hj : Best t p j := best_of_scan hk hbefore
    refine ⟨fun i => ⟨fun h => Option.some.inj h ▸ hj, fun hi => by rw [hj.unique hi]⟩, ?_, ?_⟩
    · intro h
      cases h
    · exact fun h => absurd hj.1 (h j)

end FinsStack.Daemon.Bind
