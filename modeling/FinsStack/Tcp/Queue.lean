import FinsStack.Tcp.Types

/-!
# Queues and the receive window

`tcp.c`.

The four queues of a connection share one implementation.  `tcpNodeCompare`
orders two nodes relative to a window that may cross the end of the 32-bit
sequence space, and `tcpQueueInsert` uses it to keep `recv_queue` sorted.
-/

namespace FinsStack.Tcp

variable {α : Type}

/-! ### Comparing nodes -/

/-- `tcp_node_compare`: `.lt` for -1 (before), `.eq` for 0 (the nodes overlap),
    `.gt` for 1 (after).  Touching nodes do not overlap. -/
def tcpNodeCompare (node cmp : TcpNode α) (winSeqNum _winSeqEnd : UInt32) : Ordering :=
  if winSeqNum ≤ node.seqNum then
    if winSeqNum ≤ node.seqEnd then
      if winSeqNum ≤ cmp.seqNum then
        if winSeqNum ≤ cmp.seqEnd then
          if node.seqNum < cmp.seqNum then
            if node.seqEnd ≤ cmp.seqNum then .lt else .eq
          else if node.seqNum = cmp.seqNum then .eq
          else if cmp.seqEnd ≤ node.seqNum then .gt else .eq
        else if node.seqNum < cmp.seqNum then
          if node.seqEnd ≤ cmp.seqNum then .lt else .eq
        else .eq
      else .lt
    else
      if winSeqNum ≤ cmp.seqNum then
        if node.seqNum ≤ cmp.seqNum then .eq
        else if cmp.seqEnd ≤ node.seqNum then .gt else .eq
      else if node.seqEnd ≤ cmp.seqNum then .lt else .eq
  else
    if winSeqNum ≤ cmp.seqNum then
      if winSeqNum ≤ cmp.seqEnd then .gt
      else if cmp.seqEnd ≤ node.seqNum then .gt else .eq
    else
      if node.seqNum < cmp.seqNum then
        if node.seqEnd ≤ cmp.seqNum then .lt else .eq
      else if node.seqNum = cmp.seqNum then .eq
      else if cmp.seqEnd ≤ node.seqNum then .gt else .eq

/-! ### Queue operations -/

def tcpQueueCreate (max : UInt32) : TcpQueue α := { max := max, len := 0, nodes := [] }

def tcpQueueIsEmpty (q : TcpQueue α) : Bool := q.nodes.isEmpty

def tcpQueueHasSpace (q : TcpQueue α) (len : UInt32) : Bool := decide (q.len + len ≤ q.max)

def tcpQueueAppend (q : TcpQueue α) (node : TcpNode α) : TcpQueue α :=
  { q with nodes := q.nodes ++ [node], len := q.len + node.len }

def tcpQueuePrepend (q : TcpQueue α) (node : TcpNode α) : TcpQueue α :=
  { q with nodes := node :: q.nodes, len := q.len + node.len }

/-- The loop of `tcp_queue_insert` over the nodes behind the front: the place
    before the first node that `node` precedes, unless an overlap comes first. -/
def tcpQueueInsertLoop (node : TcpNode α) (winSeqNum winSeqEnd : UInt32) :
    List (TcpNode α) → Option (List (TcpNode α))
  | [] => none
  | n :: ns =>
    match tcpNodeCompare node n winSeqNum winSeqEnd with
    | .lt => some (node :: n :: ns)
    | .eq => none
    | .gt => (tcpQueueInsertLoop node winSeqNum winSeqEnd ns).map (n :: ·)

/-- `tcp_queue_insert`; `none` stands for the return value 0, on which the queue
    is unchanged. -/
def tcpQueueInsert (q : TcpQueue α) (node : TcpNode α) (winSeqNum winSeqEnd : UInt32) :
    Option (TcpQueue α) :=
  match q.nodes with
  | [] => some (tcpQueuePrepend q node)
  | front :: rest =>
    match tcpNodeCompare node front winSeqNum winSeqEnd with
    | .lt => some (tcpQueuePrepend q node)
    | .eq => none
    | .gt =>
      match tcpNodeCompare node (rest.getLastD front) winSeqNum winSeqEnd with
      | .gt => some (tcpQueueAppend q node)
      | .eq => none
      | .lt =>
        -- `tcp_queue_add` links the node behind its predecessor
        (tcpQueueInsertLoop node winSeqNum winSeqEnd rest).map fun ns =>
          { q with nodes := front :: ns, len := q.len + node.len }

def tcpQueueFind (q : TcpQueue α) (seqNum : UInt32) : Option (TcpNode α) :=
  q.nodes.find? (fun n => n.seqNum == seqNum)

def tcpQueueRemoveFront (q : TcpQueue α) : TcpQueue α :=
  match q.nodes with
  | [] => { q with len := 0 }
  | n :: ns => { q with nodes := ns, len := q.len - n.len }

def tcpQueueRemove (q : TcpQueue α) (node : TcpNode α) : TcpQueue α :=
  if q.nodes.any (fun n => n.addr == node.addr) then
    { q with nodes := q.nodes.eraseP (fun n => n.addr == node.addr), len := q.len - node.len }
  else q

def tcpNodeNext (q : TcpQueue α) (a : Nat) : Option (TcpNode α) :=
  (q.nodes.dropWhile (fun n => n.addr != a)).tail.head?

def tcpQueueSet (q : TcpQueue α) (a : Nat) (x : α) : TcpQueue α :=
  { q with nodes := q.nodes.map fun n => if n.addr = a then { n with data := x } else n }

/-! ### The window test -/

/-- `tcp_in_window`: does `[seqNum, seqEnd]` lie in the window
    `[winSeqNum, winSeqEnd]`, either of which may wrap? -/
def tcpInWindow (seqNum seqEnd winSeqNum winSeqEnd : UInt32) : Bool :=
  if winSeqNum ≤ winSeqEnd then
    if seqNum ≤ seqEnd then decide (winSeqNum ≤ seqNum ∧ seqEnd ≤ winSeqEnd) else false
  else if seqNum ≤ seqEnd then decide (winSeqNum ≤ seqNum ∨ seqEnd ≤ winSeqEnd)
  else decide (winSeqNum ≤ seqNum ∧ seqEnd ≤ winSeqEnd)

end FinsStack.Tcp
