import Mathlib.Data.List.Basic
import Mathlib.Data.List.Nodup
import Mathlib.Logic.Relation

/-!
# A stream fed by requests

Requests are accepted in order and taken into a stream piece by piece, from the front
one.  A request leaves by a reply: with the number of elements that were taken when it
was at the front, or with a failure when nothing of it was.  `Outlet.Step` lists what can
happen, and `Outlet.Ok.balance` is what it is for: the stream and what is still waiting
are what was accepted, less what the replies say was not taken.
-/

namespace FinsStack.Lib

open List

variable {α : Type*}

/-! ### The log -/

/-- What is noted about a request: it was accepted, or it was answered, with a count or with
    a failure. -/
inductive Note (α : Type*) where
  | accept (id : Nat) (data : List α)
  | reply (id : Nat) (count : Option Nat)

def Note.id : Note α → Nat
  | .accept id _ => id
  | .reply id _ => id

def accepted : List (Note α) → List (Nat × List α)
  | [] => []
  | .accept id d :: ns => (id, d) :: accepted ns
  | .reply _ _ :: ns => accepted ns

def answer (id : Nat) : List (Note α) → Option (Option Nat)
  | [] => none
  | .accept _ _ :: ns => answer id ns
  | .reply i c :: ns => if i = id then some c else answer id ns

def replies : List (Note α) → List Nat
  | [] => []
  | .accept _ _ :: ns => replies ns
  | .reply id _ :: ns => id :: replies ns

/-- What a request adds to the stream sooner or later: all of it while it is unanswered, then
    as much as its answer says. -/
def share (log : List (Note α)) (r : Nat × List α) : List α :=
  match answer r.1 log with
  | none => r.2
  | some none => []
  | some (some n) => r.2.take n

def owed (log : List (Note α)) : List α := (accepted log).flatMap (share log)

@[simp] theorem accepted_append (l₁ l₂ : List (Note α)) :
    accepted (l₁ ++ l₂) = accepted l₁ ++ accepted l₂ := by
  induction l₁ with
  | nil => rfl
  | cons n ns ih => cases n <;> simp [accepted, ih]

@[simp] theorem replies_append (l₁ l₂ : List (Note α)) :
    replies (l₁ ++ l₂) = replies l₁ ++ replies l₂ := by
  induction l₁ with
  | nil => rfl
  | cons n ns ih => cases n <;> simp [replies, ih]

theorem answer_append (id : Nat) (l₁ l₂ : List (Note α)) :
    answer id (l₁ ++ l₂) = (answer id l₁).or (answer id l₂) := by
  induction l₁ with
  | nil => rfl
  | cons n ns ih =>
    cases n with
    | accept i d => exact ih
    | reply i c =>
      by_cases h : i = id
      · simp [answer, h]
      · simpa [answer, h] using ih

variable {log : List (Note α)} {r : Nat × List α} {rs : List (Nat × List α)}

theorem mem_ids_of_accepted (h : r ∈ accepted log) : r.1 ∈ log.map Note.id := by
  induction log with
  | nil => cases h
  | cons n ns ih =>
    cases n with
    | accept i d =>
      rcases mem_cons.mp h with rfl | h
      · exact mem_cons_self ..
      · exact mem_cons_of_mem _ (ih h)
    | reply i c => exact mem_cons_of_mem _ (ih h)

theorem mem_ids_of_replies {id : Nat} (h : id ∈ replies log) : id ∈ log.map Note.id := by
  induction log with
  | nil => cases h
  | cons n ns ih =>
    cases n with
    | accept i d => exact mem_cons_of_mem _ (ih h)
    | reply i c =>
      rcases mem_cons.mp h with rfl | h
      · exact mem_cons_self ..
      · exact mem_cons_of_mem _ (ih h)

theorem answer_eq_none_iff {id : Nat} : answer id log = none ↔ id ∉ replies log := by
  induction log with
  | nil => simp [answer, replies]
  | cons n ns ih =>
    cases n with
    | accept i d => exact ih
    | reply i c =>
      by_cases h : i = id
      · simp [answer, replies, h]
      · simp only [answer, replies, h, if_false, mem_cons, not_or, ih]
        exact ⟨fun hn => ⟨fun he => h he.symm, hn⟩, fun hn => hn.2⟩

theorem answer_eq_none {id : Nat} (h : id ∉ log.map Note.id) : answer id log = none :=
  answer_eq_none_iff.mpr (fun hr => h (mem_ids_of_replies hr))

theorem answer_accept (log : List (Note α)) (id i : Nat) (d : List α) :
    answer i (log ++ [.accept id d]) = answer i log := by
  rw [answer_append]
  simp [answer]

theorem answer_reply_of_ne (log : List (Note α)) {id i : Nat} (h : id ≠ i) (c : Option Nat) :
    answer i (log ++ [.reply id c]) = answer i log := by
  rw [answer_append]
  simp [answer, h]

theorem answer_reply_self {id : Nat} (h : answer id log = none)
    (c : Option Nat) : answer id (log ++ [.reply id c]) = some c := by
  rw [answer_append, h]
  simp [answer]

theorem share_congr {log' : List (Note α)}
    (h : answer r.1 log' = answer r.1 log) : share log' r = share log r := by
  unfold share
  rw [h]

/-! ### The outlet -/

structure Outlet (α : Type*) where
  log : List (Note α)
  stream : List α
  /-- The requests that wait, and how much of the front one has been taken. -/
  pending : List (Nat × List α)
  taken : Nat

def Outlet.rest (o : Outlet α) : List α := (o.pending.flatMap Prod.snd).drop o.taken

/-- The part of the front request that has been taken. -/
def Outlet.begun (o : Outlet α) : List α := (o.pending.flatMap Prod.snd).take o.taken

inductive Outlet.Step : Outlet α → Outlet α → Prop
  | accept (o : Outlet α) (id : Nat) (d : List α) (h : id ∉ o.log.map Note.id) :
      Step o { o with log := o.log ++ [.accept id d], pending := o.pending ++ [(id, d)] }
  | refuse (o : Outlet α) (id : Nat) (c : Option Nat) (h : id ∉ o.log.map Note.id) :
      Step o { o with log := o.log ++ [.reply id c] }
  | take (o : Outlet α) (k : Nat) (r : Nat × List α) (rs : List (Nat × List α))
      (hp : o.pending = r :: rs) (h : o.taken + k ≤ r.2.length) :
      Step o { o with stream := o.stream ++ (r.2.drop o.taken).take k, taken := o.taken + k }
  | finish (o : Outlet α) (r : Nat × List α) (rs : List (Nat × List α))
      (hp : o.pending = r :: rs) :
      Step o { o with log := o.log ++ [.reply r.1 (some o.taken)], pending := rs, taken := 0 }
  | fail (o : Outlet α) (ps : List (Nat × List α)) (r : Nat × List α) (rs : List (Nat × List α))
      (hp : o.pending = ps ++ r :: rs) (h : ps = [] → o.taken = 0) :
      Step o { o with log := o.log ++ [.reply r.1 none], pending := ps ++ rs }

/-- **Invariant of an outlet.**  The requests are answered from the front on, except that any
    of them may have failed. -/
structure Outlet.Ok (o : Outlet α) : Prop where
  split : ∃ done open', accepted o.log = done ++ open' ∧
    (∀ r ∈ done, answer r.1 o.log ≠ none) ∧
    (∀ r ∈ open', answer r.1 o.log = none ∨ answer r.1 o.log = some none) ∧
    o.pending = open'.filter (fun r => (answer r.1 o.log).isNone) ∧
    o.stream = done.flatMap (share o.log) ++ o.begun
  nodup : ((accepted o.log).map Prod.fst).Nodup
  taken : ∀ r, o.pending.head? = some r → o.taken ≤ r.2.length
  idle : o.pending = [] → o.taken = 0
  count : ∀ r ∈ accepted o.log, ∀ n, answer r.1 o.log = some (some n) → n ≤ r.2.length
  once : (replies o.log).Nodup

variable {o : Outlet α}

theorem Outlet.ok_empty : Outlet.Ok (⟨[], [], [], 0⟩ : Outlet α) := by
  refine ⟨⟨[], [], rfl, ?_, ?_, rfl, rfl⟩, nodup_nil, ?_, fun _ => rfl, ?_, nodup_nil⟩
  · exact nofun
  · exact nofun
  · exact nofun
  · exact nofun

/-! ### What the invariant says -/

theorem flatMap_share_open (h : ∀ r ∈ rs, answer r.1 log = none ∨ answer r.1 log = some none) :
    rs.flatMap (share log) =
      (rs.filter (fun r => (answer r.1 log).isNone)).flatMap Prod.snd := by
  induction rs with
  | nil => rfl
  | cons r rs ih =>
    have hrest := ih (fun r' hr' => h r' (mem_cons_of_mem _ hr'))
    rcases h r (mem_cons_self ..) with hr | hr
    · simp [share, hr, hrest]
    · simp [share, hr, hrest]

theorem Outlet.Ok.taken_le (h : o.Ok) : o.taken ≤ (o.pending.flatMap Prod.snd).length := by
  cases hp : o.pending with
  | nil =>
    rw [h.idle hp]
    exact Nat.zero_le _
  | cons r rs =>
    have hr := h.taken r (by rw [hp]; rfl)
    simp only [flatMap_cons, length_append]
    omega

theorem Outlet.Ok.begun_cons (h : o.Ok) (hp : o.pending = r :: rs) :
    o.begun = r.2.take o.taken := by
  have hr := h.taken r (by rw [hp]; rfl)
  unfold Outlet.begun
  rw [hp, flatMap_cons, take_append_of_le_length hr]

theorem Outlet.begun_of_zero (h : o.taken = 0) : o.begun = [] := by
  unfold Outlet.begun
  rw [h, take_zero]

/-- **Nothing is lost and nothing invented.** -/
theorem Outlet.Ok.balance (h : o.Ok) : o.stream ++ o.rest = owed o.log := by
  obtain ⟨done, open', hacc, -, hopen, hpend, hstream⟩ := h.split
  have hsplit : o.begun ++ o.rest = o.pending.flatMap Prod.snd := take_append_drop _ _
  unfold owed
  rw [hstream, append_assoc, hsplit, hacc, flatMap_append, flatMap_share_open hopen,
    ← hpend]

/-! ### What the steps keep -/

theorem flatMap_share_congr {log' : List (Note α)}
    (h : ∀ r ∈ rs, answer r.1 log' = answer r.1 log) :
    rs.flatMap (share log') = rs.flatMap (share log) :=
  flatMap_congr fun r hr => share_congr (h r hr)

theorem Outlet.Ok.noted (h : o.Ok) (n : Note α) (hacc : accepted [n] = [])
    (hans : ∀ r ∈ accepted o.log, answer r.1 (o.log ++ [n]) = answer r.1 o.log)
    (hrep : (replies (o.log ++ [n])).Nodup) : Outlet.Ok { o with log := o.log ++ [n] } := by
  obtain ⟨done, open', heq, hdone, hopen, hpend, hstream⟩ := h.split
  have hsame : accepted (o.log ++ [n]) = accepted o.log := by
    rw [accepted_append, hacc, append_nil]
  have hmem : ∀ r, r ∈ done ∨ r ∈ open' → r ∈ accepted o.log := by
    intro r hr
    rw [heq]
    exact mem_append.mpr hr
  refine ⟨⟨done, open', hsame.trans heq, ?_, ?_, ?_, ?_⟩, ?_, h.taken, h.idle, ?_, hrep⟩
  · intro r hr
    show answer r.1 (o.log ++ [n]) ≠ none
    rw [hans r (hmem r (.inl hr))]
    exact hdone r hr
  · intro r hr
    show answer r.1 (o.log ++ [n]) = none ∨ answer r.1 (o.log ++ [n]) = some none
    rw [hans r (hmem r (.inr hr))]
    exact hopen r hr
  · rw [show o.pending = _ from hpend]
    refine filter_congr fun r hr => ?_
    rw [hans r (hmem r (.inr hr))]
  · show o.stream = done.flatMap (share (o.log ++ [n])) ++ o.begun
    rw [flatMap_share_congr fun r hr => hans r (hmem r (.inl hr))]
    exact hstream
  · rw [hsame]
    exact h.nodup
  · show ∀ r ∈ accepted (o.log ++ [n]), ∀ k, answer r.1 (o.log ++ [n]) = some (some k) → _
    rw [hsame]
    intro r hr k hk
    rw [hans r hr] at hk
    exact h.count r hr k hk

theorem Outlet.Ok.accept (h : o.Ok) {id : Nat} (d : List α) (hid : id ∉ o.log.map Note.id) :
    Outlet.Ok { o with log := o.log ++ [.accept id d], pending := o.pending ++ [(id, d)] } := by
  obtain ⟨done, open', heq, hdone, hopen, hpend, hstream⟩ := h.split
  have hans : ∀ i, answer i (o.log ++ [.accept id d]) = answer i o.log :=
    fun i => answer_accept o.log id i d
  have hacc : accepted (o.log ++ [.accept id d]) = accepted o.log ++ [(id, d)] := by
    rw [accepted_append]
    rfl
  have hbegun : ((o.pending ++ [(id, d)]).flatMap Prod.snd).take o.taken = o.begun := by
    rw [flatMap_append, take_append_of_le_length h.taken_le]
    rfl
  refine ⟨⟨done, open' ++ [(id, d)], ?_, ?_, ?_, ?_, ?_⟩, ?_, ?_, ?_, ?_, ?_⟩
  · rw [hacc, heq, append_assoc]
  · intro r hr
    rw [hans]
    exact hdone r hr
  · intro r hr
    rw [hans]
    rcases mem_append.mp hr with hr | hr
    · exact hopen r hr
    · rw [mem_singleton.mp hr]
      exact .inl (answer_eq_none hid)
  · simp only [hans, filter_append, hpend]
    congr 1
    simp [answer_eq_none hid]
  · show o.stream = _ ++ ((o.pending ++ [(id, d)]).flatMap Prod.snd).take o.taken
    rw [hbegun, flatMap_share_congr fun r _ => hans r.1]
    exact hstream
  · rw [hacc, map_append]
    refine List.Nodup.append h.nodup (nodup_singleton id) ?_
    rintro i hi hid'
    obtain ⟨r, hr, rfl⟩ := mem_map.mp hi
    have hid'' : r.1 = id := mem_singleton.mp hid'
    exact hid (hid'' ▸ mem_ids_of_accepted hr)
  · intro r hr
    cases hp : o.pending with
    | nil =>
      show o.taken ≤ _
      rw [h.idle hp]
      exact Nat.zero_le _
    | cons r' rs =>
      have hr' : (o.pending ++ [(id, d)]).head? = some r := hr
      rw [hp] at hr'
      exact h.taken r (by rw [hp]; exact hr')
  · intro hnil
    exact absurd hnil (append_ne_nil_of_right_ne_nil _ (cons_ne_nil _ _))
  · intro r hr k hk
    rw [hans] at hk
    rw [hacc] at hr
    rcases mem_append.mp hr with hr | hr
    · exact h.count r hr k hk
    · rw [mem_singleton.mp hr, answer_eq_none hid] at hk
      cases hk
  · rw [replies_append]
    simpa [replies] using h.once

theorem Outlet.Ok.take (h : o.Ok) {k : Nat} (hp : o.pending = r :: rs)
    (hk : o.taken + k ≤ r.2.length) :
    Outlet.Ok { o with
      stream := o.stream ++ (r.2.drop o.taken).take k, taken := o.taken + k } := by
  obtain ⟨done, open', heq, hdone, hopen, hpend, hstream⟩ := h.split
  refine ⟨⟨done, open', heq, hdone, hopen, hpend, ?_⟩, h.nodup, ?_, ?_, h.count, h.once⟩
  · show o.stream ++ _ = done.flatMap (share o.log) ++ (o.pending.flatMap Prod.snd).take _
    rw [hstream, h.begun_cons hp, hp, flatMap_cons, take_append_of_le_length hk,
      take_add, append_assoc]
  · intro r' hr'
    have hr'' : o.pending.head? = some r' := hr'
    rw [hp] at hr''
    cases hr''
    exact hk
  · intro hnil
    exact nomatch hp.symm.trans hnil

theorem Outlet.Ok.waiting (h : o.Ok) (hr : r ∈ o.pending) :
    r ∈ accepted o.log ∧ answer r.1 o.log = none := by
  obtain ⟨done, open', heq, -, -, hpend, -⟩ := h.split
  rw [hpend, mem_filter] at hr
  refine ⟨?_, Option.isNone_iff_eq_none.mp hr.2⟩
  rw [heq]
  exact mem_append_right _ hr.1

theorem Outlet.Ok.pending_nodup (h : o.Ok) : (o.pending.map Prod.fst).Nodup := by
  obtain ⟨done, open', heq, -, -, hpend, -⟩ := h.split
  have hall := h.nodup
  rw [heq, map_append] at hall
  rw [hpend]
  exact (nodup_append.mp hall).2.1.sublist (filter_sublist.map _)

theorem Outlet.Ok.answer_other (h : o.Ok)
    {before after : List (Nat × List α)} (hacc : accepted o.log = before ++ r :: after)
    (c : Option Nat) {r' : Nat × List α} (hr' : r' ∈ before ∨ r' ∈ after) :
    answer r'.1 (o.log ++ [.reply r.1 c]) = answer r'.1 o.log := by
  apply answer_reply_of_ne
  intro heq
  have hnd := h.nodup
  rw [hacc, map_append, map_cons, nodup_append] at hnd
  obtain ⟨-, htail, hdisj⟩ := hnd
  rcases hr' with hr' | hr'
  · exact hdisj r'.1 (mem_map_of_mem hr') r.1 (mem_cons_self ..) heq.symm
  · exact (nodup_cons.mp htail).1 (heq ▸ mem_map_of_mem hr')

theorem Outlet.Ok.count_reply (h : o.Ok)
    {before after : List (Nat × List α)} (hacc : accepted o.log = before ++ r :: after)
    (hnone : answer r.1 o.log = none) {c : Option Nat} (hc : ∀ n, c = some n → n ≤ r.2.length) :
    ∀ r' ∈ accepted o.log, ∀ n, answer r'.1 (o.log ++ [.reply r.1 c]) = some (some n) →
      n ≤ r'.2.length := by
  intro r' hr' n hn
  have hcases : (r' ∈ before ∨ r' ∈ after) ∨ r' = r := by
    rw [hacc, mem_append, mem_cons] at hr'
    rcases hr' with hr' | hr' | hr'
    · exact .inl (.inl hr')
    · exact .inr hr'
    · exact .inl (.inr hr')
  rcases hcases with hother | rfl
  · rw [h.answer_other hacc c hother] at hn
    exact h.count r' hr' n hn
  · rw [answer_reply_self hnone] at hn
    exact hc n (Option.some.inj hn)

theorem Outlet.Ok.once_reply (h : o.Ok) {id : Nat} (hans : answer id o.log = none)
    (c : Option Nat) : (replies (o.log ++ [.reply id c])).Nodup := by
  rw [replies_append]
  refine List.Nodup.append h.once (nodup_singleton id) ?_
  intro i hi hid
  rw [show i = id from mem_singleton.mp hid] at hi
  exact answer_eq_none_iff.mp hans hi

theorem accepted_reply (log : List (Note α)) (id : Nat) (c : Option Nat) :
    accepted (log ++ [.reply id c]) = accepted log := by
  rw [accepted_append]
  exact append_nil _

theorem Outlet.Ok.finish (h : o.Ok) (hp : o.pending = r :: rs) :
    Outlet.Ok { o with
      log := o.log ++ [.reply r.1 (some o.taken)], pending := rs, taken := 0 } := by
  obtain ⟨-, hnone⟩ := h.waiting (r := r) (by rw [hp]; exact mem_cons_self ..)
  obtain ⟨done, open', heq, hdone, hopen, hpend, hstream⟩ := h.split
  -- everything before the front request has been answered
  obtain ⟨before, after, hsplit, hbefore, -, hafter⟩ :=
    filter_eq_cons_iff.mp (hpend.symm.trans hp)
  have hparts : accepted o.log = (done ++ before) ++ r :: after := by
    rw [heq, hsplit, append_assoc]
  have hself : answer r.1 (o.log ++ [.reply r.1 (some o.taken)]) = some (some o.taken) :=
    answer_reply_self hnone _
  have hother : ∀ r', r' ∈ done ++ before ∨ r' ∈ after →
      answer r'.1 (o.log ++ [.reply r.1 (some o.taken)]) = answer r'.1 o.log :=
    fun r' hr' => h.answer_other hparts _ hr'
  have hfailed : before.flatMap (share o.log) = [] := by
    rw [flatMap_share_open fun r' hr' => hopen r' (by rw [hsplit]; exact mem_append_left _ hr'),
      filter_eq_nil_iff.mpr hbefore]
    rfl
  refine ⟨⟨done ++ before ++ [r], after, ?_, ?_, ?_, ?_, ?_⟩, ?_, ?_, ?_, ?_,
    h.once_reply hnone _⟩
  · rw [accepted_reply, hparts, append_assoc (done ++ before)]
    rfl
  · intro r' hr'
    show answer r'.1 (o.log ++ [.reply r.1 (some o.taken)]) ≠ none
    rcases mem_append.mp hr' with hr' | hr'
    · rw [hother r' (.inl hr')]
      rcases mem_append.mp hr' with hr' | hr'
      · exact hdone r' hr'
      · have hb := hbefore r' hr'
        simpa using hb
    · rw [mem_singleton.mp hr', hself]
      exact nofun
  · intro r' hr'
    show answer r'.1 (o.log ++ [.reply r.1 (some o.taken)]) = none ∨ _ = some none
    rw [hother r' (.inr hr')]
    exact hopen r' (by rw [hsplit]; exact mem_append_right _ (mem_cons_of_mem _ hr'))
  · show rs = after.filter _
    rw [← hafter]
    refine filter_congr fun r' hr' => ?_
    rw [hother r' (.inr hr')]
  · show o.stream = (done ++ before ++ [r]).flatMap (share (o.log ++ [.reply r.1 _])) ++ _
    rw [flatMap_append, flatMap_share_congr fun r' hr' => hother r' (.inl hr'),
      flatMap_append, hfailed, append_nil, hstream, h.begun_cons hp,
      Outlet.begun_of_zero rfl, append_nil]
    simp [share, hself]
  · rw [accepted_reply]
    exact h.nodup
  · intro _ _
    exact Nat.zero_le _
  · exact fun _ => rfl
  · rw [accepted_reply]
    refine h.count_reply hparts hnone ?_
    rintro n ⟨⟩
    exact h.taken r (by rw [hp]; rfl)

theorem Outlet.Ok.fail (h : o.Ok) {ps : List (Nat × List α)}
    (hp : o.pending = ps ++ r :: rs) (hfront : ps = [] → o.taken = 0) :
    Outlet.Ok { o with log := o.log ++ [.reply r.1 none], pending := ps ++ rs } := by
  obtain ⟨-, hnone⟩ := h.waiting (r := r)
    (by rw [hp]; exact mem_append_right _ (mem_cons_self ..))
  obtain ⟨done, open', heq, hdone, hopen, hpend, hstream⟩ := h.split
  obtain ⟨front, tail, hsplit, hps, htail⟩ := filter_eq_append_iff.mp (hpend.symm.trans hp)
  obtain ⟨failed, after, rfl, hfailed, -, hrs⟩ := filter_eq_cons_iff.mp htail
  have hopen' : open' = (front ++ failed) ++ r :: after := by rw [hsplit, append_assoc]
  have hparts : accepted o.log = (done ++ (front ++ failed)) ++ r :: after := by
    rw [heq, hopen', ← append_assoc]
  have hself : answer r.1 (o.log ++ [.reply r.1 none]) = some none := answer_reply_self hnone _
  have hother : ∀ r', r' ∈ done ∨ r' ∈ front ++ failed ∨ r' ∈ after →
      answer r'.1 (o.log ++ [.reply r.1 none]) = answer r'.1 o.log := by
    intro r' hr'
    refine h.answer_other hparts none ?_
    rw [mem_append]
    rcases hr' with hr' | hr' | hr'
    · exact .inl (.inl hr')
    · exact .inl (.inr hr')
    · exact .inr hr'
  have hbegun : ((ps ++ rs).flatMap Prod.snd).take o.taken = o.begun := by
    cases hps : ps with
    | nil =>
      rw [hfront hps, take_zero]
      exact (Outlet.begun_of_zero (hfront hps)).symm
    | cons p ps' =>
      have hle : o.taken ≤ p.2.length := h.taken p (by rw [hp, hps]; rfl)
      rw [h.begun_cons (r := p) (show o.pending = p :: (ps' ++ r :: rs) by rw [hp, hps]; rfl),
        cons_append, flatMap_cons, take_append_of_le_length hle]
  refine ⟨⟨done, open', ?_, ?_, ?_, ?_, ?_⟩, ?_, ?_, ?_, ?_, h.once_reply hnone _⟩
  · rw [accepted_reply]
    exact heq
  · intro r' hr'
    show answer r'.1 (o.log ++ [.reply r.1 none]) ≠ none
    rw [hother r' (.inl hr')]
    exact hdone r' hr'
  · intro r' hr'
    show answer r'.1 (o.log ++ [.reply r.1 none]) = none ∨ _ = some none
    have hcases := hr'
    rw [hopen', mem_append, mem_cons] at hcases
    rcases hcases with hr'' | rfl | hr''
    · rw [hother r' (.inr (.inl hr''))]
      exact hopen r' hr'
    · exact .inr hself
    · rw [hother r' (.inr (.inr hr''))]
      exact hopen r' hr'
  · -- the failed request is the only one whose answer changed
    show ps ++ rs = open'.filter _
    rw [hopen', filter_append, filter_cons_of_neg (by simp [hself])]
    congr 1
    · rw [← hps, ← append_nil (front.filter _), ← filter_eq_nil_iff.mpr hfailed,
        ← filter_append]
      refine filter_congr fun r' hr' => ?_
      rw [hother r' (.inr (.inl hr'))]
    · rw [← hrs]
      refine filter_congr fun r' hr' => ?_
      rw [hother r' (.inr (.inr hr'))]
  · show o.stream = done.flatMap (share (o.log ++ [.reply r.1 none])) ++
      ((ps ++ rs).flatMap Prod.snd).take o.taken
    rw [hbegun, flatMap_share_congr fun r' hr' => hother r' (.inl hr')]
    exact hstream
  · rw [accepted_reply]
    exact h.nodup
  · intro r' hr'
    show o.taken ≤ _
    cases hps' : ps with
    | nil =>
      rw [hfront hps']
      exact Nat.zero_le _
    | cons p ps' =>
      have hr'' : (ps ++ rs).head? = some r' := hr'
      rw [hps'] at hr''
      exact h.taken r' (by rw [hp, hps']; exact hr'')
  · intro hnil
    exact hfront (append_eq_nil_iff.mp hnil).1
  · rw [accepted_reply]
    exact h.count_reply hparts hnone nofun

/-- **Every step keeps the invariant.** -/
theorem Outlet.Step.ok {o' : Outlet α} (h : Step o o') (hok : o.Ok) : o'.Ok := by
  cases h with
  | accept id d hid => exact hok.accept d hid
  | refuse id c hid =>
    refine hok.noted _ rfl ?_ (hok.once_reply (answer_eq_none hid) c)
    intro r hr
    apply answer_reply_of_ne
    rintro rfl
    exact hid (mem_ids_of_accepted hr)
  | take k r rs hp hk => exact hok.take hp hk
  | finish r rs hp => exact hok.finish hp
  | fail ps r rs hp hfront => exact hok.fail hp hfront

end FinsStack.Lib
