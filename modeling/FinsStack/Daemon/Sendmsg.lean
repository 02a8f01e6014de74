import FinsStack.Daemon.Demux

/-!
# A connected send and an addressed send

`daemon/udpHandling.c`, `daemon/daemon.c`, `daemon/daemon_out.c`.

A send to an address uses the bound local address, and that of the main interface only in place
of the wildcard.  The branch for a connected socket is written a second time, and there the
address of the interface replaces the bound one in any case.  `sendsAlike_iff` says when that
makes no difference.
-/

namespace FinsStack.Daemon.Bind

def EAFNOSUPPORT : Nat := 97

structure UdpEnd extends UdpSock where
  connected : Bool
  ttl : UInt32
  tos : UInt32
deriving DecidableEq, Repr

structure SendMeta extends Packet where
  family : Family
  ttl : UInt32
  tos : UInt32
deriving DecidableEq, Repr

/-- What a send leaves behind.  The payload is `released` when it is freed or goes with the
    frame. -/
structure Sent where
  sock : UdpEnd
  ack : Bool
  retMsg : Nat
  frame : Option SendMeta
  released : Bool
deriving DecidableEq, Repr

/-- The address of a send.  Where there is none the family is 0, because `sendmsg_out` clears the
    address first. -/
inductive Dest where
  | inet (ip : UInt32) (port : UInt16)
  | inet6
  | absent
deriving DecidableEq, Repr

/-- `connect_out_udp` to an IPv4 address; an unbound socket gets the port `drawn` that the search
    of `connectOutUdp` ends with.  There is no socket where the call is refused. -/
def connectUdp (u : UdpEnd) (ip : UInt32) (port drawn : UInt16) : Option UdpEnd :=
  if u.family ≠ .unspec ∧ u.family ≠ .inet then none
  else some { u with
    connected := true, remIp := ip, remPort := port, family := .inet
    hostPort := if u.family = .unspec then drawn else u.hostPort }

def refuseSend (u : UdpEnd) (code : Nat) : Sent := ⟨u, false, code, none, true⟩

def sendFrame (u : UdpEnd) (taken : Bool) (len : Nat) (p : Packet) : Sent :=
  if taken then ⟨u, true, len, some ⟨p, u.family, u.ttl, u.tos⟩, true⟩ else refuseSend u 1

section

variable (mainIp : Option UInt32) (stale : UInt32) (drawn : UInt16) (taken : Bool) (u : UdpEnd)
  (len : Nat)

/-- `sendmsg_out_udp`.  `mainIp` is the IPv4 address of the main interface.  An unbound socket
    gets the port `drawn`, and sends from the unset `stale` if the interface has no address. -/
def sendmsgUdp (dest : Dest) : Sent :=
  -- `sendmsg_out` allocates nothing for an empty payload
  if len = 0 then ⟨u, true, 0, none, true⟩
  else match dest with
    | .inet ip port =>
      if u.family ≠ .unspec ∧ u.family ≠ .inet then refuseSend u EAFNOSUPPORT
      else if u.family ≠ .unspec then
        let hostIp := if u.hostIp = DAEMON_ADDR_ANY then mainIp.getD u.hostIp else u.hostIp
        sendFrame u taken len ⟨hostIp, u.hostPort, ip, port⟩
      else
        let u := { u with family := .inet, hostPort := drawn }
        sendFrame u taken len ⟨mainIp.getD stale, drawn, ip, port⟩
    | .inet6 =>
      if u.family ≠ .unspec ∧ u.family ≠ .inet6 then refuseSend u EAFNOSUPPORT
      else refuseSend u 1
    | .absent =>
      if !u.connected then refuseSend u EAFNOSUPPORT
      else if u.family = .inet then
        sendFrame u taken len ⟨mainIp.getD u.hostIp, u.hostPort, u.remIp, u.remPort⟩
      else refuseSend u 1

/-- After `connect`, a send without an address does what a send to that address does; both use
    the bound local address and leave no payload behind. -/
def SendsAlike (ip : UInt32) (port : UInt16) : Prop :=
  ∀ u' ∈ connectUdp u ip port drawn,
    let connected := sendmsgUdp mainIp stale drawn taken u' len .absent
    let addressed := sendmsgUdp mainIp stale drawn taken u' len (.inet ip port)
    connected = addressed ∧ connected.released = true ∧
      (u.hostIp ≠ DAEMON_ADDR_ANY → ∀ f ∈ connected.frame, f.srcIp = u.hostIp)
deriving Decidable

/-- The call is refused, nothing is sent, no address is bound, or the interface has no other
    address than the bound one. -/
def LocalKept : Prop :=
  (u.family ≠ .unspec ∧ u.family ≠ .inet) ∨ len = 0 ∨ taken = false ∨
    u.hostIp = DAEMON_ADDR_ANY ∨ mainIp.getD u.hostIp = u.hostIp
deriving Decidable

variable {mainIp stale drawn taken u len}

theorem sendmsgUdp_addressed (hfam : u.family = .inet) (hlen : len ≠ 0) (ip : UInt32)
    (port : UInt16) : sendmsgUdp mainIp stale drawn taken u len (.inet ip port) =
      sendFrame u taken len
        ⟨if u.hostIp = DAEMON_ADDR_ANY then mainIp.getD u.hostIp else u.hostIp, u.hostPort, ip,
          port⟩ := by
  simp [sendmsgUdp, hlen, hfam]

theorem sendmsgUdp_connected (hfam : u.family = .inet) (hlen : len ≠ 0) (hc : u.connected) :
    sendmsgUdp mainIp stale drawn taken u len .absent =
      sendFrame u taken len ⟨mainIp.getD u.hostIp, u.hostPort, u.remIp, u.remPort⟩ := by
  simp [sendmsgUdp, hlen, hfam, hc]

theorem sendFrame_released (p : Packet) : (sendFrame u taken len p).released = true := by
  cases taken <;> rfl

theorem sendFrame_inj {p q : Packet} :
    sendFrame u taken len p = sendFrame u taken len q ↔ taken = false ∨ p = q := by
  cases taken <;> simp [sendFrame]

theorem mem_sendFrame {p : Packet} {f : SendMeta} (h : f ∈ (sendFrame u taken len p).frame) :
    f.toPacket = p := by
  cases taken with
  | false => cases h
  | true =>
    cases h
    rfl

/-- **Connected and addressed sends.**  They agree exactly where the address of the main
    interface does not replace another one. -/
theorem sendsAlike_iff (mainIp : Option UInt32) (stale : UInt32) (drawn : UInt16) (taken : Bool)
    (u : UdpEnd) (len : Nat) (ip : UInt32) (port : UInt16) :
    SendsAlike mainIp stale drawn taken u len ip port ↔ LocalKept mainIp taken u len := by
  unfold SendsAlike LocalKept connectUdp
  by_cases hfam : u.family ≠ .unspec ∧ u.family ≠ .inet
  · simp [hfam]
  by_cases hlen : len = 0
  · simp [hlen, sendmsgUdp]
  simp only [hfam, hlen, if_false, Option.mem_some_iff, forall_eq', false_or]
  rw [sendmsgUdp_addressed rfl hlen, sendmsgUdp_connected rfl hlen rfl, sendFrame_inj]
  constructor
  · rintro ⟨hsame, -, -⟩
    rcases hsame with htaken | hsame
    · exact .inl htaken
    · by_cases hany : u.hostIp = DAEMON_ADDR_ANY
      · exact .inr (.inl hany)
      · rw [if_neg hany] at hsame
        exact .inr (.inr (congrArg Packet.srcIp hsame))
  · intro hkept
    refine ⟨?_, sendFrame_released _, fun hbound f hf => ?_⟩
    · rcases hkept with htaken | hany | hmain
      · exact .inl htaken
      · exact .inr (by rw [if_pos hany])
      · exact .inr (by rw [hmain, ite_self])
    · rw [mem_sendFrame hf]
      rcases hkept with rfl | hany | hmain
      · cases hf
      · exact absurd hany hbound
      · exact hmain

end

def secondAddress : UdpEnd :=
  ⟨⟨⟨true, .udp, .inet, 0x0a000002, 5000, false⟩, 0, 0⟩, false, 64, 0⟩

/-- The main interface has 10.0.0.1, and the connected send leaves with it. -/
theorem interface_replaces_bound :
    ¬ SendsAlike (some 0x0a000001) 0 0 true secondAddress 1 0x0a000009 7 := by
  decide

end FinsStack.Daemon.Bind
