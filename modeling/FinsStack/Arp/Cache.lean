import FinsStack.Lib.Run
import Mathlib.Data.List.Nodup

/-!
# Address resolution

`arp/arp_in_out.c`, `arp/arp.c`.

A cache holds the GET_ADDR frames for its address while it seeks; a valid reply answers them
all, and so does the third timeout, with FCF_FALSE.

The retry timer is started again only if the retry could be sent, so a cache whose retry
fails seeks for ever (`failed_retry_sticks`); while retries can be sent, none does
(`seeking_woken`).
-/

namespace FinsStack.Arp

open List FinsStack.Lib

def ARP_OP_REQUEST : Nat := 1
def ARP_OP_REPLY : Nat := 2
def ARP_REQUEST_LIST_MAX : Nat := 131072
def ARP_CACHE_LIST_MAX : Nat := 8192
def ARP_RETRIES : Nat := 2
/-- In microseconds. -/
def ARP_CACHE_TO_DEFAULT : Int := 50000000

/-! ### Messages -/

structure ArpMessage where
  hardwareType : Nat
  protocolType : Nat
  hardwareAddrsLength : Nat
  protocolAddrsLength : Nat
  operation : Nat
  senderMac : Nat
  senderIp : Nat
  targetIp : Nat
deriving DecidableEq, Repr

/-- Bytes in network order: `ntohs`, `gen_MAC_addrs`, `gen_IP_addrs`. -/
def genAddrs (pdu : List UInt8) (pos len : Nat) : Nat :=
  ((pdu.drop pos).take len).foldl (fun n b => 256 * n + b.toNat) 0

def fdfToArp (pdu : List UInt8) : Option ArpMessage :=
  if pdu.length < 28 then none
  else some
    { hardwareType := genAddrs pdu 0 2
      protocolType := genAddrs pdu 2 2
      hardwareAddrsLength := genAddrs pdu 4 1
      protocolAddrsLength := genAddrs pdu 5 1
      operation := genAddrs pdu 6 2
      senderMac := genAddrs pdu 8 6
      senderIp := genAddrs pdu 14 4
      targetIp := genAddrs pdu 24 4 }

def checkValidArp (msg : ArpMessage) : Bool :=
  msg.hardwareType == 1 && (msg.operation == ARP_OP_REQUEST || msg.operation == ARP_OP_REPLY) &&
    msg.hardwareAddrsLength == 6 && msg.protocolAddrsLength == 4 && msg.protocolType == 0x800 &&
    msg.senderMac != 0 && msg.senderIp != 0 && msg.targetIp != 0

/-! ### State -/

structure ArpCache where
  ip : Nat
  mac : Nat
  seeking : Bool
  updatedStamp : Int
  retries : Nat
  requests : List Nat
  timer : Bool
  toFlag : Bool
deriving DecidableEq, Repr

/-- History: a reply that was waited for, and the answers. -/
inductive Note where
  | heard (ip mac : Nat)
  | answer (ff : Nat) (mac : Option Nat)
deriving DecidableEq, Repr

structure ArpData where
  /-- MAC address and IPv4 addresses of each interface. -/
  ifList : List (Nat × List Nat)
  cacheList : List ArpCache
  log : List Note
  /-- The `dst_ip` of each GET_ADDR frame so far; a frame is known by its place here. -/
  given : List Nat

def ArpData.initial (ifList : List (Nat × List Nat)) : ArpData := ⟨ifList, [], [], []⟩

namespace ArpData

/-- `list_find1(md->if_list, ifr_ipv4_test, ...)` finds an interface. -/
def ours (s : ArpData) (ip : Nat) : Bool := s.ifList.any fun i => i.2.contains ip

def find (s : ArpData) (ip : Nat) : Option ArpCache := s.cacheList.find? fun c => c.ip == ip

/-- The cache of `ip` is changed; there is one (`Sound.nodup`). -/
def update (s : ArpData) (ip : Nat) (f : ArpCache → ArpCache) : ArpData :=
  { s with cacheList := s.cacheList.map fun c => if c.ip = ip then f c else c }

def say (s : ArpData) (notes : List Note) : ArpData := { s with log := s.log ++ notes }

def answers (mac : Option Nat) (ffs : List Nat) : List Note := ffs.map fun ff => .answer ff mac

def start (s : ArpData) (ff ip : Nat) (clock : Int) : ArpData :=
  { s with cacheList := s.cacheList ++ [⟨ip, 0, true, clock, 0, [ff], true, false⟩] }

end ArpData

open ArpData

/-! ### Handlers -/

/-- `sent` is what `module_send_flow` returns, here and below. -/
def arpExecGetAddr (s : ArpData) (ff srcIp dstIp : Nat) (clock : Int) (sent : Nat) : ArpData :=
  if s.ours srcIp then
    match s.find dstIp with
    | some cache =>
      if cache.seeking then
        if cache.requests.length < ARP_REQUEST_LIST_MAX then
          s.update dstIp fun c => { c with requests := c.requests ++ [ff] }
        else s.say [.answer ff none]
      else if clock - cache.updatedStamp ≤ ARP_CACHE_TO_DEFAULT then
        s.say [.answer ff (some cache.mac)]
      else if 0 < sent then
        let s1 := s.update dstIp fun c =>
          { c with seeking := true, retries := 0, updatedStamp := clock, timer := true }
        if cache.requests.length < ARP_REQUEST_LIST_MAX then
          s1.update dstIp fun c => { c with requests := c.requests ++ [ff] }
        else s1.say [.answer ff none]
      else s.say [.answer ff none]
    | none =>
      if 0 < sent then
        if s.cacheList.length < ARP_CACHE_LIST_MAX then s.start ff dstIp clock
        else
          match s.cacheList.find? fun c => !c.seeking with
          | some temp =>
            ArpData.start (ArpData.say
              { s with cacheList := s.cacheList.filter fun c => c.ip != temp.ip }
              (answers none temp.requests)) ff dstIp clock
          | none => s.say [.answer ff none]
      else s.say [.answer ff none]
  else s.say [.answer ff none]

/-- A request is answered by a message and changes nothing here. -/
def arpInFdf (s : ArpData) (pdu : List UInt8) (clock : Int) : ArpData :=
  match fdfToArp pdu with
  | some msg =>
    if checkValidArp msg && s.ours msg.targetIp && msg.operation != ARP_OP_REQUEST then
      match s.find msg.senderIp with
      | some cache =>
        if cache.seeking then
          (s.update msg.senderIp fun c => { c with
            timer := false, toFlag := false, updatedStamp := clock, seeking := false
            mac := msg.senderMac, requests := [] }).say
            (answers (some msg.senderMac) cache.requests)
        else s
      | none => s
    else s
  | none => s

def arpHandleTo (c : ArpCache) (sent : Nat) : Option ArpCache × List Note :=
  if c.seeking then
    if c.retries < ARP_RETRIES then
      if c.requests.isEmpty then (some c, [])
      else if 0 < sent then (some { c with retries := c.retries + 1, timer := true }, [])
      else (some c, [])
    else (none, answers none c.requests)
  else (some c, [])

def arpToFunc (c : ArpCache) (sent : Nat) : Option ArpCache × List Note :=
  if c.toFlag then arpHandleTo { c with toFlag := false } sent else (some c, [])

def arpInterrupt (s : ArpData) (sent : Nat → Nat) : ArpData :=
  { s with
    cacheList := s.cacheList.filterMap fun c => (arpToFunc c (sent c.ip)).1
    log := s.log ++ s.cacheList.flatMap fun c => (arpToFunc c (sent c.ip)).2 }

/-! ### Runs -/

inductive Event where
  | getAddr (srcIp dstIp : Nat) (clock : Int) (sent : Nat)
  | packet (pdu : List UInt8) (clock : Int)
  | expire (ip : Nat)
  | interrupt (sent : Nat → Nat)

def heard (s : ArpData) : Event → Option (Nat × Nat)
  | .packet pdu _ =>
    (fdfToArp pdu).bind fun msg =>
      if checkValidArp msg && msg.operation == ARP_OP_REPLY && s.ours msg.targetIp &&
          (s.find msg.senderIp).any ArpCache.seeking then
        some (msg.senderIp, msg.senderMac)
      else none
  | _ => none

def stepArp (s : ArpData) (e : Event) : ArpData :=
  let s1 := s.say ((heard s e).toList.map fun x => .heard x.1 x.2)
  match e with
  | .getAddr srcIp dstIp clock sent =>
    arpExecGetAddr { s1 with given := s.given ++ [dstIp] } s.given.length srcIp dstIp clock sent
  | .packet pdu clock => arpInFdf s1 pdu clock
  | .expire ip =>
    s1.update ip fun c => if c.timer then { c with timer := false, toFlag := true } else c
  | .interrupt sent => arpInterrupt s1 sent

/-! ### The property -/

def Note.answered : Note → Option Nat
  | .answer ff _ => some ff
  | .heard _ _ => none

def lastHeard (log : List Note) (ip : Nat) : Option Nat :=
  (log.filterMap fun
    | .heard i mac => if i = ip then some mac else none
    | .answer _ _ => none).getLast?

/-- After `l`, `mac` is what was heard last for the address that frame `ff` asked for. -/
def Resolved (given : List Nat) (l : List Note) (ff mac : Nat) : Prop :=
  ∃ ip, given[ff]? = some ip ∧ lastHeard l ip = some mac

/-- Every FCF_TRUE carries what was heard last before it for the address its frame asked for. -/
def Truthful (given : List Nat) (log : List Note) : Prop :=
  ∀ l ff mac, l ++ [.answer ff (some mac)] <+: log → Resolved given l ff mac

/-- How often a frame is held or was answered. -/
def ArpData.account (s : ArpData) (ff : Nat) : Nat :=
  (s.cacheList.flatMap ArpCache.requests).count ff + (s.log.filterMap Note.answered).count ff

structure Sound (s : ArpData) : Prop where
  nodup : (s.cacheList.map ArpCache.ip).Nodup
  room : s.cacheList.length ≤ ARP_CACHE_LIST_MAX
  seeking : ∀ c ∈ s.cacheList, c.seeking = true ↔ c.requests ≠ []
  /-- A cache holds only frames that asked for its address. -/
  asked : ∀ c ∈ s.cacheList, ∀ ff ∈ c.requests, s.given[ff]? = some c.ip
  once : ∀ ff, s.account ff = if ff < s.given.length then 1 else 0
  known : ∀ c ∈ s.cacheList, c.seeking = false → lastHeard s.log c.ip = some c.mac
  truthful : Truthful s.given s.log

variable {s s' : ArpData} {c : ArpCache} {l ns : List Note} {ip mac ff : Nat}
  {given given' new : List Nat}

/-! ### The log -/

/-- Answers that are refusals or carry the address heard last. -/
def Backed (given : List Nat) (l ns : List Note) : Prop :=
  ∀ n ∈ ns, ∃ ff m, n = .answer ff m ∧ ∀ mac, m = some mac → Resolved given l ff mac

theorem lastHeard_answer (m : Option Nat) (i : Nat) :
    lastHeard (l ++ [.answer ff m]) i = lastHeard l i := by
  simp [lastHeard]

theorem Truthful.concat (h : Truthful given l) {n : Note}
    (hn : ∀ ff mac, n = .answer ff (some mac) → Resolved given l ff mac) :
    Truthful given (l ++ [n]) := by
  intro l₁ ff mac hpre
  rcases prefix_concat_iff.mp hpre with heq | hpre
  · obtain ⟨rfl, hlast⟩ := append_inj' heq rfl
    exact hn ff mac (singleton_inj.mp hlast).symm
  · exact h l₁ ff mac hpre

theorem Truthful.append (h : Truthful given l) (hns : Backed given l ns) :
    Truthful given (l ++ ns) ∧ ∀ i, lastHeard (l ++ ns) i = lastHeard l i := by
  induction ns generalizing l with
  | nil => simpa using h
  | cons n ns ih =>
    obtain ⟨ff, m, rfl, hm⟩ := hns n mem_cons_self
    have hone : Truthful given (l ++ [.answer ff m]) := h.concat fun ff' mac heq => by
      obtain ⟨rfl, rfl⟩ := Note.answer.inj heq
      exact hm mac rfl
    have hrest : Backed given (l ++ [.answer ff m]) ns := fun n' hn' => by
      simpa only [Resolved, lastHeard_answer] using hns n' (mem_cons_of_mem _ hn')
    simpa only [append_assoc, singleton_append, lastHeard_answer] using ih hone hrest

theorem backed_refusals (ffs : List Nat) : Backed given l (answers none ffs) := by
  intro n hn
  obtain ⟨ff, -, rfl⟩ := mem_map.mp hn
  exact ⟨ff, none, rfl, nofun⟩

theorem backed_answers {ffs : List Nat} (hasked : ∀ ff ∈ ffs, given[ff]? = some ip)
    (hmac : lastHeard l ip = some mac) : Backed given l (answers (some mac) ffs) := by
  intro n hn
  obtain ⟨ff, hff, rfl⟩ := mem_map.mp hn
  refine ⟨ff, some mac, rfl, fun mac' hm => ⟨ip, hasked ff hff, ?_⟩⟩
  rw [← Option.some.inj hm, hmac]

@[simp] theorem answered_answers (m : Option Nat) (ffs : List Nat) :
    (answers m ffs).filterMap Note.answered = ffs := by
  simp [answers, filterMap_map, Function.comp_def, Note.answered]

/-! ### Steps -/

/-- The frames that come in with a step. -/
inductive Takes (given : List Nat) : List Nat → List Nat → Prop
  | nothing : Takes given given []
  | frame (ip : Nat) : Takes given (given ++ [ip]) [given.length]

theorem Takes.asked (h : Takes given given' new) (hip : given[ff]? = some ip) :
    given'[ff]? = some ip := by
  cases h with
  | nothing => exact hip
  | frame ip' => rw [getElem?_append_left (List.getElem?_eq_some_iff.mp hip).1, hip]

theorem Takes.count (h : Takes given given' new) (ff : Nat) :
    new.count ff = if ff < given'.length ∧ given.length ≤ ff then 1 else 0 := by
  cases h with
  | nothing => simp
  | frame ip =>
    simp only [count_singleton, length_append, length_singleton, beq_iff_eq]
    split_ifs <;> omega

theorem Takes.length_le (h : Takes given given' new) : given.length ≤ given'.length := by
  cases h <;> simp

/-- What `Sound` says of a single cache. -/
structure CacheOk (given : List Nat) (log : List Note) (c : ArpCache) : Prop where
  seeking : c.seeking = true ↔ c.requests ≠ []
  asked : ∀ ff ∈ c.requests, given[ff]? = some c.ip
  known : c.seeking = false → lastHeard log c.ip = some c.mac

theorem Sound.cacheOk (h : Sound s) (hc : c ∈ s.cacheList) : CacheOk s.given s.log c :=
  ⟨h.seeking c hc, h.asked c hc, h.known c hc⟩

theorem CacheOk.takes (h : CacheOk given l c) (hnew : Takes given given' new) :
    CacheOk given' l c :=
  ⟨h.seeking, fun ff hff => hnew.asked (h.asked ff hff), h.known⟩

/-- `new` is the frame that comes in, `ns` are the answers that go out. -/
theorem Sound.change (h : Sound s) (hnew : Takes s.given s'.given new)
    (hlog : s'.log = s.log ++ ns) (hns : Backed s'.given s.log ns)
    (hnodup : (s'.cacheList.map ArpCache.ip).Nodup)
    (hroom : s'.cacheList.length ≤ ARP_CACHE_LIST_MAX)
    (hcache : ∀ c ∈ s'.cacheList, CacheOk s'.given s.log c)
    (honce : ∀ ff, (s'.cacheList.flatMap ArpCache.requests).count ff +
      (ns.filterMap Note.answered).count ff =
      (s.cacheList.flatMap ArpCache.requests).count ff + new.count ff) : Sound s' := by
  have hkept : Truthful s'.given s.log := fun l ff mac hpre =>
    (h.truthful l ff mac hpre).imp fun _ hip => ⟨hnew.asked hip.1, hip.2⟩
  obtain ⟨htrue, hlast⟩ := hkept.append hns
  refine ⟨hnodup, hroom, fun c hc => (hcache c hc).seeking, fun c hc => (hcache c hc).asked,
    fun ff => ?_, fun c hc hs => ?_, ?_⟩
  · have hold := h.once ff
    have hmore := honce ff
    have hone := hnew.count ff
    have hlen := hnew.length_le
    rw [ArpData.account, hlog, filterMap_append, count_append]
    rw [ArpData.account] at hold
    split_ifs at hold hone ⊢ <;> omega
  · rw [hlog, hlast]
    exact (hcache c hc).known hs
  · rw [hlog]
    exact htrue

/-- The frame is answered at once. -/
theorem Sound.tell (h : Sound s) {m : Option Nat}
    (hm : ∀ mac, m = some mac → lastHeard s.log ip = some mac) :
    Sound (ArpData.say { s with given := s.given ++ [ip] } [.answer s.given.length m]) := by
  have hback : Backed (s.given ++ [ip]) s.log [.answer s.given.length m] :=
    forall_mem_singleton.mpr ⟨_, m, rfl, fun mac hmac => ⟨ip, by simp, hm mac hmac⟩⟩
  exact h.change (.frame ip) rfl hback h.nodup h.room
    (fun c hc => (h.cacheOk hc).takes (.frame ip)) (by simp [ArpData.say, Note.answered])

theorem find_split (h : Sound s) (hc : s.find ip = some c) :
    c.ip = ip ∧ ∃ l₁ l₂, s.cacheList = l₁ ++ c :: l₂ ∧
      ∀ f, (s.update ip f).cacheList = l₁ ++ f c :: l₂ := by
  obtain ⟨hip, l₁, l₂, hl, hnot⟩ := find?_eq_some_iff_append.mp hc
  have hip : c.ip = ip := by simpa using hip
  refine ⟨hip, l₁, l₂, hl, fun f => ?_⟩
  have hnd := h.nodup
  rw [hl, map_append, map_cons, nodup_append, nodup_cons] at hnd
  have h₁ : ∀ x ∈ l₁, (if x.ip = ip then f x else x) = x :=
    fun x hx => if_neg (by simpa using hnot x hx)
  have h₂ : ∀ x ∈ l₂, (if x.ip = ip then f x else x) = x := fun x hx => if_neg fun heq =>
    hnd.2.1.1 (mem_map.mpr ⟨x, hx, heq.trans hip.symm⟩)
  simp only [ArpData.update, hl, map_append, map_cons, hip, if_true]
  rw [map_congr_left h₁, map_congr_left h₂, map_id', map_id']

theorem Sound.update (h : Sound s) (hc : s.find ip = some c) {f : ArpCache → ArpCache}
    (hnew : Takes s.given s'.given new) (hlog : s'.log = s.log ++ ns)
    (hns : Backed s'.given s.log ns) (hlist : s'.cacheList = (s.update ip f).cacheList)
    (hip : (f c).ip = c.ip) (hok : CacheOk s'.given s.log (f c))
    (honce : ∀ ff, (f c).requests.count ff + (ns.filterMap Note.answered).count ff =
      c.requests.count ff + new.count ff) : Sound s' := by
  obtain ⟨-, l₁, l₂, hl, hupd⟩ := find_split h hc
  rw [hupd f] at hlist
  refine h.change hnew hlog hns ?_ ?_ ?_ fun ff => ?_
  · have := h.nodup
    rw [hl] at this
    simpa [hlist, hip] using this
  · have := h.room
    rw [hl] at this
    simpa [hlist] using this
  · intro x hx
    rw [hlist, mem_append, mem_cons] at hx
    rcases hx with hx | rfl | hx
    · exact (h.cacheOk (by simp [hl, hx])).takes hnew
    · exact hok
    · exact (h.cacheOk (by simp [hl, hx])).takes hnew
  · have := honce ff
    rw [hlist, hl]
    simp only [flatMap_append, flatMap_cons, count_append]
    omega

/-- The frame is put on the request_list of the cache, which seeks. -/
theorem Sound.enqueue (h : Sound s) (hc : s.find ip = some c) {f : ArpCache → ArpCache}
    (hgiven : s'.given = s.given ++ [ip]) (hlog : s'.log = s.log)
    (hlist : s'.cacheList = (s.update ip f).cacheList) (hip : (f c).ip = c.ip)
    (hseek : (f c).seeking = true) (hreq : (f c).requests = c.requests ++ [s.given.length]) :
    Sound s' := by
  have hcip := (find_split h hc).1
  have hnew : Takes s.given s'.given [s.given.length] := hgiven ▸ .frame ip
  have hsame : s'.log = s.log ++ [] := by rw [hlog, append_nil]
  refine h.update hc hnew hsame nofun hlist hip ?_ ?_
  · refine ⟨by simp [hseek, hreq], ?_, by simp [hseek]⟩
    rw [hreq, hip]
    refine Lib.forall_mem_concat (fun ff hff => hnew.asked ?_) ?_
    · exact h.asked c (mem_of_find?_eq_some hc) ff hff
    · simp [hgiven, hcip]
  · simp [hreq]

theorem find_none (h : s.find ip = none) : ∀ c ∈ s.cacheList, c.ip ≠ ip := fun c hc => by
  simpa using find?_eq_none.mp h c hc

theorem Sound.start (h : Sound s) (hnone : s.find ip = none)
    (hroom : s.cacheList.length < ARP_CACHE_LIST_MAX) (clock : Int) :
    Sound (ArpData.start { s with given := s.given ++ [ip] } s.given.length ip clock) := by
  have hnew := find_none hnone
  refine h.change (.frame ip) (append_nil _).symm nofun ?_ ?_ ?_ ?_
  · simp only [ArpData.start, map_append, map_cons, map_nil]
    refine nodup_append.mpr ⟨h.nodup, nodup_singleton _, ?_⟩
    rintro i hi j hj rfl
    obtain ⟨c, hc, rfl⟩ := mem_map.mp hi
    exact hnew c hc (mem_singleton.mp hj)
  · simpa [ArpData.start] using Nat.succ_le_of_lt hroom
  · exact Lib.forall_mem_concat (fun c hc => (h.cacheOk hc).takes (.frame ip))
      ⟨by simp, by simp [ArpData.start], by simp⟩
  · intro ff
    simp [ArpData.start]

theorem Sound.evict (h : Sound s) (hc : c ∈ s.cacheList) (hs : c.seeking = false) :
    Sound (ArpData.say { s with cacheList := s.cacheList.filter fun x => x.ip != c.ip }
      (answers none c.requests)) := by
  have hempty : ∀ x ∈ s.cacheList, x.ip = c.ip → x.requests = [] := by
    intro x hx hip
    obtain rfl : x = c := inj_on_of_nodup_map h.nodup hx hc hip
    have := h.seeking x hx
    simp_all
  have hcount : ∀ cs : List ArpCache, (∀ x ∈ cs, x.ip = c.ip → x.requests = []) →
      (cs.filter fun x => x.ip != c.ip).flatMap ArpCache.requests =
        cs.flatMap ArpCache.requests := by
    intro cs hcs
    induction cs with
    | nil => rfl
    | cons x cs ih =>
      have hrest := ih fun y hy => hcs y (mem_cons_of_mem _ hy)
      by_cases hip : x.ip = c.ip
      · simp [hip, hrest, hcs x mem_cons_self hip]
      · simp [hip, hrest]
  refine h.change .nothing rfl (backed_refusals _) ?_ ?_ ?_ fun ff => ?_
  · exact h.nodup.sublist (filter_sublist.map _)
  · exact Nat.le_trans (length_filter_le _ _) h.room
  · exact fun x hx => h.cacheOk (mem_of_mem_filter hx)
  · rw [answered_answers, hempty c hc rfl]
    exact congrArg (List.count ff) (hcount _ hempty)

theorem Sound.getAddr (h : Sound s) (srcIp dstIp : Nat) (clock : Int) (sent : Nat) :
    Sound (arpExecGetAddr { s with given := s.given ++ [dstIp] } s.given.length srcIp dstIp clock
      sent) := by
  have hrefused : Sound (ArpData.say { s with given := s.given ++ [dstIp] }
      [.answer s.given.length none]) := h.tell (by simp)
  simp only [arpExecGetAddr]
  split
  swap
  · exact hrefused
  split
  · rename_i cache hfind
    have hfind : s.find dstIp = some cache := hfind
    have hmem : cache ∈ s.cacheList := mem_of_find?_eq_some hfind
    have hip := (find_split h hfind).1
    split
    · rename_i hseek
      split
      · exact h.enqueue hfind rfl rfl rfl rfl hseek rfl
      · exact hrefused
    · rename_i hseek
      have hseek : cache.seeking = false := by simpa using hseek
      have hempty : cache.requests = [] := by
        have := h.seeking cache hmem
        simp_all
      split
      · exact h.tell (m := some cache.mac) fun mac hm => by
          obtain rfl := Option.some.inj hm
          exact hip ▸ h.known cache hmem hseek
      split
      · rw [hempty]
        simp only [length_nil, ARP_REQUEST_LIST_MAX, Nat.zero_lt_succ, if_true]
        refine h.enqueue hfind (f := fun c => { c with
            seeking := true, retries := 0, updatedStamp := clock, timer := true
            requests := c.requests ++ [s.given.length] }) rfl rfl ?_ rfl rfl rfl
        simp only [ArpData.update, map_map]
        refine map_congr_left fun c _ => ?_
        by_cases hip : c.ip = dstIp <;> simp [hip]
      · exact hrefused
  · rename_i hnone
    have hnone : s.find dstIp = none := hnone
    split
    · split
      · rename_i hroom
        exact h.start hnone hroom clock
      split
      · rename_i temp htemp
        have hmem : temp ∈ s.cacheList := mem_of_find?_eq_some htemp
        have hs : temp.seeking = false := by simpa using find?_some htemp
        have hroom : (s.cacheList.filter fun x => x.ip != temp.ip).length < s.cacheList.length :=
          length_filter_lt_length_iff_exists.mpr ⟨temp, hmem, by simp⟩
        refine (h.evict hmem hs).start ?_ (Nat.lt_of_lt_of_le hroom h.room) clock
        exact find?_eq_none.mpr fun x hx => by
          simpa using find_none hnone x (mem_of_mem_filter hx)
      · exact hrefused
    · exact hrefused

theorem Sound.hear (h : Sound s) (hc : s.find ip = some c) (hs : c.seeking) (mac : Nat) :
    Sound (s.say [.heard ip mac]) := by
  have hmem : c ∈ s.cacheList := mem_of_find?_eq_some hc
  have hip := (find_split h hc).1
  have hother : ∀ i, i ≠ ip → lastHeard (s.log ++ [.heard ip mac]) i = lastHeard s.log i := by
    intro i hi
    simp [lastHeard, Ne.symm hi]
  refine ⟨h.nodup, h.room, h.seeking, h.asked, fun ff => ?_, fun x hx hxs => ?_, ?_⟩
  · have hlog : (s.say [.heard ip mac]).log.filterMap Note.answered =
        s.log.filterMap Note.answered := by
      simp [ArpData.say, filterMap_cons, Note.answered]
    rw [ArpData.account, hlog]
    exact h.once ff
  · have hne : x.ip ≠ ip := by
      rintro heq
      obtain rfl : x = c := inj_on_of_nodup_map h.nodup hx hmem (heq.trans hip.symm)
      simp [hs] at hxs
    exact (hother x.ip hne).trans (h.known x hx hxs)
  · exact h.truthful.concat nofun

theorem Sound.packet (h : Sound s) (pdu : List UInt8) (clock : Int) :
    Sound (stepArp s (.packet pdu clock)) := by
  -- what is heard is noted first
  have hsaid :
      Sound (s.say ((heard s (.packet pdu clock)).toList.map fun x => .heard x.1 x.2)) := by
    cases hheard : heard s (.packet pdu clock) with
    | none => simpa [ArpData.say] using h
    | some x =>
      obtain ⟨msg, -, hx⟩ := Option.bind_eq_some_iff.mp hheard
      obtain ⟨hcond, ⟨⟩⟩ := Option.ite_none_right_eq_some.mp hx
      rw [Bool.and_eq_true, Option.any_eq_true] at hcond
      obtain ⟨-, c, hc, hs⟩ := hcond
      exact h.hear hc hs msg.senderMac
  simp only [stepArp, arpInFdf]
  split
  · rename_i msg hmsg
    split
    · rename_i hok
      have hok : (checkValidArp msg && s.ours msg.targetIp && msg.operation != ARP_OP_REQUEST) =
        true := hok
      split
      · rename_i cache hfind
        have hfind : s.find msg.senderIp = some cache := hfind
        split
        · rename_i hseek
          have hop : msg.operation = ARP_OP_REPLY := by
            simp only [checkValidArp, Bool.and_eq_true, Bool.or_eq_true, bne_iff_ne, beq_iff_eq]
              at hok
            exact hok.1.1.1.1.1.1.1.1.2.resolve_left hok.2
          have hheard : heard s (.packet pdu clock) = some (msg.senderIp, msg.senderMac) := by
            simp_all [heard]
          have hlast : lastHeard (s.log ++ [.heard msg.senderIp msg.senderMac]) msg.senderIp =
              some msg.senderMac := by simp [lastHeard]
          rw [hheard] at hsaid ⊢
          have hip := (find_split h hfind).1
          have hasked := h.asked cache (mem_of_find?_eq_some hfind)
          exact hsaid.update hfind .nothing rfl (backed_answers (hip ▸ hasked) hlast) rfl rfl
            ⟨by simp, by simp, fun _ => hip ▸ hlast⟩ (by simp)
        · exact hsaid
      · exact hsaid
    · exact hsaid
  · exact hsaid

theorem arpToFunc_cases (c : ArpCache) (sent : Nat) :
    (∃ r b f, arpToFunc c sent = (some { c with retries := r, timer := b, toFlag := f }, [])) ∨
      arpToFunc c sent = (none, answers none c.requests) := by
  simp only [arpToFunc, arpHandleTo]
  split_ifs
  all_goals first
    | exact .inr rfl
    | exact .inl ⟨_, _, _, rfl⟩

theorem Sound.interrupt (h : Sound s) (sent : Nat → Nat) : Sound (arpInterrupt s sent) := by
  have hall : ∀ cs : List ArpCache,
      ((cs.filterMap fun c => (arpToFunc c (sent c.ip)).1).map ArpCache.ip).Sublist
        (cs.map ArpCache.ip) ∧
      (∀ x ∈ cs.filterMap fun c => (arpToFunc c (sent c.ip)).1, ∃ c ∈ cs, x.ip = c.ip ∧
        x.mac = c.mac ∧ x.seeking = c.seeking ∧ x.requests = c.requests) ∧
      (∀ ff,
        ((cs.filterMap fun c => (arpToFunc c (sent c.ip)).1).flatMap ArpCache.requests).count ff +
        ((cs.flatMap fun c => (arpToFunc c (sent c.ip)).2).filterMap Note.answered).count ff =
        (cs.flatMap ArpCache.requests).count ff) ∧
      Backed s.given s.log (cs.flatMap fun c => (arpToFunc c (sent c.ip)).2) := by
    intro cs
    induction cs with
    | nil => exact ⟨by simp, by simp, by simp, nofun⟩
    | cons c cs ih =>
      obtain ⟨hsub, hmem, hcount, hback⟩ := ih
      rcases arpToFunc_cases c (sent c.ip) with ⟨r, b, f, heq⟩ | heq
      · simp only [filterMap_cons, heq, flatMap_cons, nil_append, map_cons,
          count_append]
        refine ⟨hsub.cons_cons _, ?_, fun ff => ?_, hback⟩
        · intro x hx
          rcases mem_cons.mp hx with rfl | hx
          · exact ⟨c, mem_cons_self, rfl, rfl, rfl, rfl⟩
          · obtain ⟨y, hy, hsame⟩ := hmem x hx
            exact ⟨y, mem_cons_of_mem _ hy, hsame⟩
        · have := hcount ff
          omega
      · simp only [filterMap_cons, heq, flatMap_cons, map_cons, count_append,
          filterMap_append, answered_answers]
        refine ⟨hsub.cons _, ?_, fun ff => ?_, ?_⟩
        · intro x hx
          obtain ⟨y, hy, hsame⟩ := hmem x hx
          exact ⟨y, mem_cons_of_mem _ hy, hsame⟩
        · have := hcount ff
          omega
        · exact forall_mem_append.mpr ⟨backed_refusals _, hback⟩
  obtain ⟨hsub, hmem, hcount, hback⟩ := hall s.cacheList
  refine h.change .nothing rfl hback (h.nodup.sublist hsub) ?_ ?_ hcount
  · exact Nat.le_trans (by simpa [arpInterrupt] using hsub.length_le) h.room
  · intro x hx
    obtain ⟨c, hc, hip, hmac, hs, hreq⟩ := hmem x hx
    obtain ⟨hseek, hasked, hknown⟩ := h.cacheOk hc
    exact ⟨by rw [hs, hreq, hseek], by rwa [hip, hreq], by rwa [hip, hmac, hs]⟩

theorem Sound.expire (h : Sound s) (ip : Nat) : Sound (stepArp s (.expire ip)) := by
  have hlog : (stepArp s (.expire ip)).log = s.log ++ [] := rfl
  cases hfind : s.find ip with
  | none =>
    have hsame : (stepArp s (.expire ip)).cacheList = s.cacheList := by
      have : ∀ c ∈ s.cacheList, (if c.ip = ip then
          (if c.timer then { c with timer := false, toFlag := true } else c) else c) = c :=
        fun c hc => if_neg (find_none hfind c hc)
      exact (map_congr_left this).trans (map_id' _)
    exact h.change .nothing hlog nofun (hsame ▸ h.nodup)
      (hsame ▸ h.room) (fun c hc => h.cacheOk (hsame ▸ hc)) (by simp [hsame])
  | some c =>
    obtain ⟨hseek, hasked, hknown⟩ := h.cacheOk (mem_of_find?_eq_some hfind)
    refine h.update hfind .nothing hlog nofun rfl ?_ ?_ ?_ <;>
      cases c.timer
    · rfl
    · rfl
    · exact ⟨hseek, hasked, hknown⟩
    · exact ⟨hseek, hasked, hknown⟩
    · simp
    · simp

theorem Sound.step (h : Sound s) (e : Event) : Sound (stepArp s e) := by
  have hquiet : s.say [] = s := by simp [ArpData.say]
  cases e with
  | getAddr srcIp dstIp clock sent =>
    have := h.getAddr srcIp dstIp clock sent
    simpa only [stepArp, heard, Option.toList, map_nil, hquiet] using this
  | packet pdu clock => exact h.packet pdu clock
  | expire ip => exact h.expire ip
  | interrupt sent =>
    simpa only [stepArp, heard, Option.toList, map_nil, hquiet] using h.interrupt sent

theorem sound_initial (ifList : List (Nat × List Nat)) : Sound (ArpData.initial ifList) where
  nodup := nodup_nil
  room := Nat.zero_le _
  seeking := by simp [ArpData.initial]
  asked := by simp [ArpData.initial]
  once := by simp [ArpData.initial, ArpData.account]
  known := by simp [ArpData.initial]
  truthful := by
    intro l ff mac hpre
    simp [ArpData.initial] at hpre

/-- **Every run resolves addresses properly.** -/
theorem resolution (ifList : List (Nat × List Nat)) (es : List Event) :
    Sound (run stepArp (ArpData.initial ifList) es) :=
  run_invariant (fun _ e h => h.step e) (sound_initial ifList) es

/-! ### Retries -/

/-- **Whoever seeks will be woken.** -/
def Woken (s : ArpData) : Prop :=
  ∀ c ∈ s.cacheList, c.seeking = true → c.timer = true ∨ c.toFlag = true
deriving Decidable

def RetrySent (s : ArpData) : Event → Prop
  | .interrupt sent => ∀ c ∈ s.cacheList, c.toFlag = true → c.seeking = true →
      c.retries < ARP_RETRIES → 0 < sent c.ip
  | _ => True

instance (s : ArpData) : ∀ e, Decidable (RetrySent s e)
  | .interrupt _ => inferInstanceAs (Decidable (∀ c ∈ s.cacheList, _))
  | .getAddr _ _ _ _ | .packet _ _ | .expire _ => isTrue trivial

section

variable (h : Woken s)
include h

theorem Woken.update {f : ArpCache → ArpCache}
    (hf : ∀ c ∈ s.cacheList, (f c).seeking → (f c).timer ∨ (f c).toFlag) :
    Woken (s.update ip f) := by
  intro x hx
  obtain ⟨c, hc, rfl⟩ := mem_map.mp hx
  by_cases hip : c.ip = ip
  · simpa [hip] using hf c hc
  · simpa [hip] using h c hc

theorem Woken.start (ff ip : Nat) (clock : Int) : Woken (s.start ff ip clock) := by
  exact Lib.forall_mem_concat h fun _ => .inl rfl

theorem Woken.getAddr (ff srcIp dstIp : Nat) (clock : Int) (sent : Nat) :
    Woken (arpExecGetAddr s ff srcIp dstIp clock sent) := by
  simp only [arpExecGetAddr]
  split
  swap
  · exact h
  split
  · split
    · split
      · exact h.update fun c hc => h c hc
      · exact h
    split
    · exact h
    split
    · have hstart : Woken (s.update dstIp fun c =>
          { c with seeking := true, retries := 0, updatedStamp := clock, timer := true }) :=
        h.update fun _ _ _ => .inl rfl
      split
      · exact hstart.update fun c hc => hstart c hc
      · exact hstart
    · exact h
  · split
    · split
      · exact h.start ff dstIp clock
      split
      · refine Woken.start (fun c hc => ?_) ff dstIp clock
        exact h c (mem_of_mem_filter hc)
      · exact h
    · exact h

theorem Woken.packet (pdu : List UInt8) (clock : Int) : Woken (arpInFdf s pdu clock) := by
  simp only [arpInFdf]
  split
  · split
    · split
      · split
        · exact h.update nofun
        · exact h
      · exact h
    · exact h
  · exact h

theorem Woken.interrupt (hs : Sound s) {sent : Nat → Nat} (hsent : RetrySent s (.interrupt sent)) :
    Woken (arpInterrupt s sent) := by
  intro x hx hseek
  obtain ⟨c, hc, hx⟩ := mem_filterMap.mp hx
  have hreq := hs.seeking c hc
  have hwoken := h c hc
  have hretry := hsent c hc
  simp only [arpToFunc, arpHandleTo] at hx
  split_ifs at hx <;> simp_all <;> grind

theorem Woken.step (hs : Sound s) (e : Event) (hsent : RetrySent s e) : Woken (stepArp s e) := by
  have hquiet : s.say [] = s := by simp [ArpData.say]
  cases e with
  | getAddr srcIp dstIp clock sent =>
    exact Woken.getAddr (s := ArpData.say { s with given := s.given ++ [dstIp] } _) h _ _ _ _ _
  | packet pdu clock => exact Woken.packet (s := s.say _) h _ _
  | expire ip =>
    refine Woken.update (s := s.say _) h fun c hc hseek => ?_
    have := h c hc
    cases htimer : c.timer <;> simp_all
  | interrupt sent =>
    simpa only [stepArp, heard, Option.toList, map_nil, hquiet] using
      h.interrupt hs hsent

end

/-- **No cache is stuck** in a run whose retries can be sent. -/
theorem seeking_woken (ifList : List (Nat × List Nat)) (es : List Event)
    (hes : Steps stepArp RetrySent (ArpData.initial ifList) es) :
    Woken (run stepArp (ArpData.initial ifList) es) :=
  (run_invariant_of_steps (I := fun s => Sound s ∧ Woken s)
    (fun _ e h he => ⟨h.1.step e, h.2.step h.1 e he⟩)
    ⟨sound_initial ifList, nofun⟩ hes).2

def sampleSeek (sent : Nat) : List Event :=
  [.getAddr 1 2 0 1, .expire 2, .interrupt fun _ => sent]

/-- **A retry that cannot be sent** leaves the cache seeking without timer or flag. -/
theorem failed_retry_sticks :
    ¬ Woken (run stepArp (ArpData.initial [(7, [1])]) (sampleSeek 0)) := by
  decide

theorem seeking_woken_sample :
    Woken (run stepArp (ArpData.initial [(7, [1])]) (sampleSeek 1)) :=
  seeking_woken _ _ (by decide)

end FinsStack.Arp
