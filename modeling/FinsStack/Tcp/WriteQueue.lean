import FinsStack.Tcp.SendQueue

/-!
# The bytes of `write_queue`

`write_queue` and `write_index` stand for one list of bytes, `unsentOf`.  Appending a node
adds its data at the end, and `tcp_seg_add_data` takes bytes from the front, whole nodes
first and then a part of the next one.
-/

namespace FinsStack.Tcp

open List

def bytesOf (ns : List (TcpNode (List UInt8))) : List UInt8 := ns.flatMap TcpNode.data

def unsentOf (q : TcpQueue (List UInt8)) (index : UInt32) : List UInt8 :=
  (bytesOf q.nodes).drop index.toNat

structure BufOk (q : TcpQueue (List UInt8)) (index : UInt32) : Prop where
  lens : ∀ n ∈ q.nodes, n.len.toNat = n.data.length
  small : ∀ n ∈ q.nodes, n.data.length ≤ TCP_MAX_QUEUE_DEFAULT.toNat
  len : q.len.toNat = (bytesOf q.nodes).length
  index : index.toNat ≤ (q.nodes.head?.elim 0 fun n => n.data.length)

variable {q : TcpQueue (List UInt8)} {index : UInt32}

theorem BufOk.index_le (h : BufOk q index) :
    index.toNat ≤ (bytesOf q.nodes).length ∧ index.toNat ≤ TCP_MAX_QUEUE_DEFAULT.toNat := by
  have hi := h.index
  cases hq : q.nodes with
  | nil =>
    rw [hq] at hi
    exact ⟨Nat.le_trans hi (Nat.zero_le _), Nat.le_trans hi (Nat.zero_le _)⟩
  | cons n ns =>
    rw [hq] at hi
    have hi' : index.toNat ≤ n.data.length := hi
    have hsmall := h.small n (by rw [hq]; exact mem_cons_self ..)
    simp only [bytesOf, flatMap_cons, length_append]
    omega

theorem BufOk.length_unsent (h : BufOk q index) :
    (q.len - index).toNat = (unsentOf q index).length := by
  have hle : index ≤ q.len := by
    rw [UInt32.le_iff_toNat_le, h.len]
    exact h.index_le.1
  rw [UInt32.toNat_sub_of_le _ _ hle, h.len]
  exact length_drop.symm

/-! ### Appending -/

theorem bytesOf_append (ns : List (TcpNode (List UInt8))) (n : TcpNode (List UInt8)) :
    bytesOf (ns ++ [n]) = bytesOf ns ++ n.data := by
  simp [bytesOf]

theorem unsentOf_append (h : BufOk q index) (n : TcpNode (List UInt8)) :
    unsentOf (tcpQueueAppend q n) index = unsentOf q index ++ n.data := by
  show (bytesOf (q.nodes ++ [n])).drop index.toNat = _
  rw [bytesOf_append, drop_append_of_le_length h.index_le.1]
  rfl

theorem BufOk.append (h : BufOk q index) {n : TcpNode (List UInt8)}
    (hlen : n.len.toNat = n.data.length)
    (hroom : (unsentOf q index ++ n.data).length ≤ TCP_MAX_QUEUE_DEFAULT.toNat) :
    BufOk (tcpQueueAppend q n) index := by
  have hmax : TCP_MAX_QUEUE_DEFAULT.toNat = 131072 := rfl
  have hidx := h.index_le
  have hfull : (unsentOf q index).length = (bytesOf q.nodes).length - index.toNat :=
    length_drop
  rw [length_append] at hroom
  refine ⟨?_, ?_, ?_, ?_⟩
  · exact Lib.forall_mem_concat h.lens hlen
  · exact Lib.forall_mem_concat h.small (by omega)
  · show (q.len + n.len).toNat = (bytesOf (q.nodes ++ [n])).length
    have hq := h.len
    rw [bytesOf_append, length_append, UInt32.toNat_add, Nat.mod_eq_of_lt (by omega)]
    omega
  · show index.toNat ≤ ((q.nodes ++ [n]).head?.elim 0 fun n => n.data.length)
    have hi := h.index
    cases hq : q.nodes with
    | nil =>
      rw [hq] at hi
      exact Nat.le_trans hi (Nat.zero_le _)
    | cons m ms =>
      rw [hq] at hi
      exact hi

/-! ### Taking bytes for a segment -/

theorem BufOk.removeFront (h : BufOk q index) {n : TcpNode (List UInt8)}
    {ns : List (TcpNode (List UInt8))} (hq : q.nodes = n :: ns) :
    BufOk (tcpQueueRemoveFront q) 0 ∧ (tcpQueueRemoveFront q).nodes = ns := by
  have hfront : tcpQueueRemoveFront q = { q with nodes := ns, len := q.len - n.len } := by
    unfold tcpQueueRemoveFront
    rw [hq]
  have hn := h.lens n (by rw [hq]; exact mem_cons_self ..)
  have htotal : q.len.toNat = n.data.length + (bytesOf ns).length := by
    rw [h.len, hq]
    exact length_append
  rw [hfront]
  refine ⟨⟨?_, ?_, ?_, Nat.zero_le _⟩, rfl⟩
  · exact fun m hm => h.lens m (by rw [hq]; exact mem_cons_of_mem _ hm)
  · exact fun m hm => h.small m (by rw [hq]; exact mem_cons_of_mem _ hm)
  · show (q.len - n.len).toNat = (bytesOf ns).length
    rw [UInt32.toNat_sub_of_le _ _ (by rw [UInt32.le_iff_toNat_le]; omega)]
    omega

theorem tcpSegAddDataLoop_spec {ns : List (TcpNode (List UInt8))} {dataLen : UInt32}
    (acc : List UInt8) (hq : q.nodes = ns) (h : BufOk q index)
    (hlen : dataLen.toNat ≤ (unsentOf q index).length) :
    let r := tcpSegAddDataLoop ns q index dataLen acc
    r.1 = acc ++ (unsentOf q index).take dataLen.toNat ∧ BufOk r.2.1 r.2.2 ∧
      unsentOf r.2.1 r.2.2 = (unsentOf q index).drop dataLen.toNat ∧ r.2.1.max = q.max := by
  induction ns generalizing q index dataLen acc with
  | nil =>
    have hnil : unsentOf q index = [] := by
      unfold unsentOf bytesOf
      rw [hq]
      exact drop_nil
    simp only [tcpSegAddDataLoop, hnil, take_nil, drop_nil, append_nil, true_and,
      and_true]
    exact h
  | cons n ns ih =>
    have hn := h.lens n (by rw [hq]; exact mem_cons_self ..)
    have hidx : index.toNat ≤ n.data.length := by
      have hi := h.index
      rw [hq] at hi
      exact hi
    have havail : (n.len - index).toNat = n.data.length - index.toNat := by
      rw [UInt32.toNat_sub_of_le _ _ (by rw [UInt32.le_iff_toNat_le]; omega), hn]
    -- the bytes left of the front node, and those behind it
    have hsplit : unsentOf q index = n.data.drop index.toNat ++ bytesOf ns := by
      unfold unsentOf bytesOf
      rw [hq, flatMap_cons, drop_append_of_le_length hidx]
    have hleft : (n.data.drop index.toNat).length = n.data.length - index.toNat :=
      length_drop
    unfold tcpSegAddDataLoop
    split
    · rename_i hzero
      rw [hzero]
      simp only [UInt32.toNat_zero, take_zero, drop_zero, append_nil, true_and,
        and_true]
      exact h
    simp only []
    split
    · rename_i hlt
      rw [UInt32.lt_iff_toNat_lt, havail] at hlt
      have hsum : (index + dataLen).toNat = index.toNat + dataLen.toNat := by
        have hsmall := h.small n (by rw [hq]; exact mem_cons_self ..)
        have hmax : TCP_MAX_QUEUE_DEFAULT.toNat = 131072 := rfl
        rw [UInt32.toNat_add, Nat.mod_eq_of_lt (by omega)]
      refine ⟨?_, ⟨h.lens, h.small, h.len, ?_⟩, ?_, rfl⟩
      · rw [hsplit, take_append_of_le_length (by omega)]
      · rw [hsum, hq]
        show _ ≤ n.data.length
        omega
      · unfold unsentOf
        rw [hsum, drop_drop]
    · rename_i hge
      rw [UInt32.lt_iff_toNat_lt, havail] at hge
      obtain ⟨hrest, hnodes⟩ := h.removeFront hq
      have hmax : (tcpQueueRemoveFront q).max = q.max := by
        unfold tcpQueueRemoveFront
        rw [hq]
      have hunsent : unsentOf (tcpQueueRemoveFront q) 0 = bytesOf ns := by
        unfold unsentOf
        rw [hnodes]
        rfl
      have hmore : (dataLen - (n.len - index)).toNat =
          dataLen.toNat - (n.data.drop index.toNat).length := by
        rw [UInt32.toNat_sub_of_le _ _ (by rw [UInt32.le_iff_toNat_le]; omega), havail, hleft]
      have hfits : (dataLen - (n.len - index)).toNat ≤
          (unsentOf (tcpQueueRemoveFront q) 0).length := by
        rw [hsplit, length_append] at hlen
        rw [hunsent, hmore]
        omega
      obtain ⟨hdata, hok, hleft', hmax'⟩ := ih
        (acc ++ (n.data.drop index.toNat).take (n.len - index).toNat) hnodes hrest hfits
      have hall : (n.data.drop index.toNat).take (n.len - index).toNat = n.data.drop index.toNat :=
        take_of_length_le (by omega)
      have htake : (n.data.drop index.toNat).take dataLen.toNat = n.data.drop index.toNat :=
        take_of_length_le (by omega)
      have hdrop : (n.data.drop index.toNat).drop dataLen.toNat = [] :=
        drop_of_length_le (by omega)
      refine ⟨?_, hok, ?_, hmax'.trans hmax⟩
      · rw [hdata, hall, hunsent, hmore, hsplit, take_append, htake, append_assoc]
      · rw [hleft', hunsent, hmore, hsplit, List.drop_append, hdrop, nil_append]

/-- **`tcp_seg_add_data`** moves the next `dataLen` unsent bytes into the segment. -/
theorem tcpSegAddData_spec {dataLen : UInt32} (seg : TcpSeg) (h : BufOk q index)
    (hlen : dataLen.toNat ≤ (unsentOf q index).length) : let r := tcpSegAddData seg q index dataLen
    r.1.data = (unsentOf q index).take dataLen.toNat ∧ BufOk r.2.1 r.2.2 ∧
      unsentOf r.2.1 r.2.2 = (unsentOf q index).drop dataLen.toNat ∧ r.2.1.max = q.max := by
  obtain ⟨hdata, hrest⟩ := tcpSegAddDataLoop_spec [] rfl h hlen
  refine ⟨?_, hrest⟩
  show (tcpSegAddDataLoop q.nodes q index dataLen []).1 ++ replicate _ 0 = _
  rw [hdata, nil_append, length_take, Nat.min_eq_left hlen, Nat.sub_self]
  exact append_nil _

end FinsStack.Tcp
