import FinsStack.Lib.Once
import Mathlib.Algebra.Order.Ring.Int
import Mathlib.Data.List.GetD

/-!
# Data frames in the network layer

`finsmodule.c`, `finstypes.c`.

A handler of the network layer is given one data frame and is judged by what it does with it.
Its model is therefore the log of those operations (`FrameOp`), in order: which bytes of the
PDU it reads, where it offers the frame to a flow, and how it gets rid of it.  The bytes
behind the PDU are part of the frame's model (`Pdu.beyond`), because the handlers read header
fields before they know how long the PDU is.
-/

namespace FinsStack.Net

open List Lib

/-! ### PDUs -/

/-- The PDU of a data frame, and what lies in memory behind it. -/
structure Pdu where
  bytes : List UInt8
  beyond : Nat → UInt8
  fits : bytes.length < 2 ^ 32

def Pdu.byteAt (p : Pdu) (i : Nat) : UInt8 := p.bytes.getD i (p.beyond i)

def Pdu.u16At (p : Pdu) (i : Nat) : UInt16 :=
  ((p.byteAt i).toUInt16 <<< 8) + (p.byteAt (i + 1)).toUInt16

def Pdu.u32At (p : Pdu) (i : Nat) : UInt32 :=
  ((p.u16At i).toUInt32 <<< 16) + (p.u16At (i + 2)).toUInt32

def Pdu.slice (p : Pdu) (pos n : Nat) : List UInt8 :=
  (range n).map fun i => p.byteAt (pos + i)

def Pdu.len (p : Pdu) : Int :=
  if p.bytes.length < 2 ^ 31 then p.bytes.length else p.bytes.length - 2 ^ 32

theorem Pdu.byteAt_of_lt {p : Pdu} {i : Nat} (h : i < p.bytes.length) :
    p.byteAt i = p.bytes.get ⟨i, h⟩ := by
  simp only [Pdu.byteAt, getD_eq_getElem _ _ h, get_eq_getElem]

theorem Pdu.slice_eq {p : Pdu} {pos n : Nat} (h : pos + n ≤ p.bytes.length) :
    p.slice pos n = (p.bytes.drop pos).take n := by
  have hlen : (p.slice pos n).length = ((p.bytes.drop pos).take n).length := by
    simp only [Pdu.slice, length_map, length_range, length_take, length_drop]
    omega
  apply ext_getElem hlen
  intro i hi hi'
  have hn : i < n := by simpa [Pdu.slice] using hi
  have hlt : pos + i < p.bytes.length := by omega
  simp only [Pdu.slice, getElem_map, getElem_range, getElem_take,
    getElem_drop, Pdu.byteAt_of_lt hlt, get_eq_getElem]

/-! ### Frames -/

structure Metadata where
  recvProtocol : Option UInt32 := none
  recvFamily : Option UInt32 := none
  recvSrcIpv4 : Option UInt32 := none
  recvDstIpv4 : Option UInt32 := none
  recvTtl : Option UInt32 := none
  recvTos : Option UInt32 := none
  recvEeOrigin : Option UInt32 := none
  recvIcmpType : Option UInt32 := none
  recvIcmpCode : Option UInt32 := none
  sendProtocol : Option UInt32 := none
  sendFamily : Option UInt32 := none
  sendSrcIpv4 : Option UInt32 := none
  sendDstIpv4 : Option UInt32 := none
  sendTtl : Option UInt32 := none
  sendTos : Option UInt32 := none
  sendEtherType : Option UInt32 := none
  sendIfIndex : Option Int := none
deriving DecidableEq, Repr

structure DataFrame where
  pdu : Pdu
  metaData : Metadata

/-! ### Operations on a frame -/

inductive FrameOp where
  | use
  | read (pos n : Nat)
  | offer (flow : Nat) (pdu : List UInt8) (metaData : Metadata)
  | pass
  | free
  /-- A metadata element the handler cannot do without is missing: `exit(-1)`. -/
  | exit
deriving DecidableEq, Repr

def FrameOp.consumes : FrameOp → Bool
  | pass => true
  | free => true
  | _ => false

/-! ### Flows -/

def LINK_NULL : UInt32 := 0

/-- `struct fins_module_flow`: the number of destinations of the link, if there is one. -/
structure ModuleFlow where
  linkId : UInt32
  link : Option UInt32
deriving DecidableEq, Repr

/-- `module_send_flow`, without the frame: the number of destinations, and 0 when the frame was
    not sent. -/
def moduleSendFlow (flows : List ModuleFlow) (flow : Nat) : UInt32 :=
  match flows[flow]? with
  | none => 0
  | some f =>
    if f.linkId = LINK_NULL then 0
    else match f.link with
      | none => 0
      | some dstsNum => dstsNum

/-- `if (!module_send_flow(module, ff, flow)) freeFinsFrame(ff);` -/
def sendOrFree (flows : List ModuleFlow) (flow : Nat) (pdu : List UInt8) (metaData : Metadata) :
    List FrameOp :=
  .offer flow pdu metaData :: if moduleSendFlow flows flow = 0 then [.free] else [.pass]

def Linear (ops : List FrameOp) : Prop := Once FrameOp.consumes ops
deriving Decidable

theorem linear_sendOrFree (flows : List ModuleFlow) (flow : Nat) (pdu : List UInt8)
    (metaData : Metadata) : Linear (sendOrFree flows flow pdu metaData) := by
  simp only [sendOrFree]
  split
  · exact ⟨rfl, rfl⟩
  · exact ⟨rfl, rfl⟩

theorem linear_free : Linear [.free] := rfl

theorem linear_use {ops : List FrameOp} : Linear (.use :: ops) ↔ Linear ops :=
  once_cons_of_use rfl

theorem linear_read {ops : List FrameOp} {pos n : Nat} :
    Linear (.read pos n :: ops) ↔ Linear ops :=
  once_cons_of_use rfl

theorem not_linear_nil : ¬ Linear [] := not_once_nil

end FinsStack.Net
