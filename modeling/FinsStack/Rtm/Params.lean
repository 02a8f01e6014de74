import Mathlib.Algebra.Order.Ring.Int
import Mathlib.Data.List.TakeWhile

/-!
# Parameters between a console and a module

`rtm_process.c`, `metadata.c`, `rtm.c`.

The last word of `set` is scanned by the type of the parameter and put into the metadata of a
frame, from which the module reads it.  On the way back the module writes a value of that
type, and the console is sent a text with it.  Here the module and the parameter of a command
have been found, and the metadata has no element `value` before it is written.

`metadata_readFromElement` has no case for `META_TYPE_FLOAT`, and its callers end the process
when it fails.  A string is written from the address of the pointer to the word.  An integer
is what `sscanf` makes of the word: a number in front of other characters is taken, and one
that does not fit is cut down.  The text for the console is printed into 100 bytes.
-/

namespace FinsStack.Rtm.Params

/-- A string without its final byte 0; a byte is the character with that code. -/
abbrev Text := List Char

inductive MetaType where
  | int32
  | int64
  | float
  | string
deriving DecidableEq, Repr

/-- An element of the metadata; `F` is the type of floating-point numbers. -/
inductive MetaValue (F : Type) where
  | int32 (v : Int32)
  | int64 (v : Int64)
  | float (v : F)
  | string (s : Text)

inductive Source (F : Type) where
  | int32 (v : Int32)
  | int64 (v : Int64)
  | float (v : F)
  | memory (bytes : List Char)

structure Word where
  ptr : UInt64
  text : Text

variable {F : Type}

/-! ### Metadata -/

def cString (memory : List Char) : Text := memory.takeWhile (· ≠ Char.ofNat 0)

def metadataWriteToElement : Source F → MetaValue F
  | .int32 v => .int32 v
  | .int64 v => .int64 v
  | .float v => .float v
  | .memory bytes => .string (cString bytes)

/-- `none` is `META_FALSE`, which is `exit(-1)` in `secure_metadata_readFromElement`. -/
def metadataReadFromElement : MetaValue F → Option (MetaValue F)
  | .int32 v => some (.int32 v)
  | .int64 v => some (.int64 v)
  | .string s => some (.string s)
  | .float _ => none

/-! ### `sscanf` -/

def isSpace (c : Char) : Bool := c.toNat == 32 || (9 ≤ c.toNat && c.toNat ≤ 13)

def scanSign : Text → Int × Text
  | '-' :: text => (-1, text)
  | '+' :: text => (1, text)
  | text => (1, text)

def scanInt (text : Text) : Option (Int × Text) :=
  let (sign, text) := scanSign (text.dropWhile isSpace)
  let digits := text.takeWhile Char.isDigit
  if digits.isEmpty then none
  else some (sign * Nat.ofDigitChars 10 digits 0, text.dropWhile Char.isDigit)

/-- The range of `strtol` with a `long` of 64 bits. -/
def clampLong (v : Int) : Int := max (-2 ^ 63) (min v (2 ^ 63 - 1))

def scanInt32 (text : Text) : Option Int32 :=
  (scanInt text).map fun r => Int32.ofInt (clampLong r.1)

def scanInt64 (text : Text) : Option Int64 :=
  (scanInt text).map fun r => Int64.ofInt (clampLong r.1)

/-! ### The two ways -/

/-- The frame of a `set`, or the text that refuses it. -/
inductive SetReply (F : Type) where
  | refused (text : String)
  | sent (value : MetaValue F)

def ptrBytes (p : UInt64) : List Char :=
  (List.range 8).map fun i => Char.ofNat (p.toNat / 256 ^ i % 256)

/-- `&cmd->words[cmd->words_num - 1]`: the pointer to the last word, and a null pointer. -/
def lastWordSlot (word : Word) : List Char := ptrBytes word.ptr ++ ptrBytes 0

/-- The end of `rtm_process_set`; `scanFloat` is `sscanf` with `"%f"`. -/
def rtmProcessSet (scanFloat : Text → Option F) (word : Word) : MetaType → SetReply F
  | .int32 =>
    match scanInt32 word.text with
    | none => .refused "Incorrect value format, expected int32_t"
    | some v => .sent (metadataWriteToElement (.int32 v))
  | .int64 =>
    match scanInt64 word.text with
    | none => .refused "Incorrect value format, expected int64_t"
    | some v => .sent (metadataWriteToElement (.int64 v))
  | .float =>
    match scanFloat word.text with
    | none => .refused "Incorrect value format, expected float"
    | some v => .sent (metadataWriteToElement (.float v))
  | .string => .sent (metadataWriteToElement (.memory (lastWordSlot word)))

def quote : Char := Char.ofNat 39

def printValue (printFloat : F → Text) : MetaValue F → Text
  | .int32 v => (toString v.toInt).toList
  | .int64 v => (toString v.toInt).toList
  | .float v => printFloat v
  | .string s => quote :: s ++ [quote]

def TEMP_SIZE : Nat := 100

/-- `rtm_read_param_reply` for a value of the type of the command: what is printed into `temp`.
    `none` is `exit(-1)`. -/
def rtmReadParamReply (printFloat : F → Text) (paramStr : Text) (value : MetaValue F) :
    Option Text := do
  let value ← metadataReadFromElement value
  return quote :: paramStr ++ [quote, '='] ++ printValue printFloat value

/-! ### Transport -/

section Transport

variable (scanFloat : Text → Option F) (printFloat : F → Text)

/-- The value of a word: of all of it, and without any loss. -/
def Denotes (text : Text) : MetaValue F → Prop
  | .int32 v => scanInt text = some (v.toInt, [])
  | .int64 v => scanInt text = some (v.toInt, [])
  | .float v => scanFloat text = some v
  | .string s => s = text

/-- **The way there.**  If the word is taken, the module reads its value. -/
def SetRight (word : Word) (type : MetaType) : Prop :=
  ∀ value, rtmProcessSet scanFloat word type = .sent value →
    ∃ v, metadataReadFromElement value = some v ∧ Denotes scanFloat word.text v

def Shows (text : Text) : MetaValue F → Prop
  | .int32 v => scanInt text = some (v.toInt, [])
  | .int64 v => scanInt text = some (v.toInt, [])
  | .float v => text = printFloat v
  | .string s => text = quote :: s ++ [quote]

/-- **The way back.**  The text shows the value, and has room in `temp`, with a byte 0. -/
def ReadRight (paramStr : Text) (value : MetaValue F) : Prop :=
  ∃ temp shown, rtmReadParamReply printFloat paramStr value = some temp ∧
    temp = quote :: paramStr ++ [quote, '='] ++ shown ∧ Shows printFloat shown value ∧
    temp.length < TEMP_SIZE

/-- The whole text is a number from `-bound` to `bound - 1`, or does not start with one. -/
def NumeralWithin (bound : Int) (text : Text) : Prop :=
  ∀ v rest, scanInt text = some (v, rest) → rest = [] ∧ -bound ≤ v ∧ v < bound

def Settable (word : Word) : MetaType → Prop
  | .int32 => NumeralWithin (2 ^ 31) word.text
  | .int64 => NumeralWithin (2 ^ 63) word.text
  | .float => scanFloat word.text = none
  | .string => cString (lastWordSlot word) = word.text

def Readable (paramStr : Text) : MetaValue F → Prop
  | .float _ => False
  | value => paramStr.length + (printValue printFloat value).length + 3 < TEMP_SIZE

end Transport

/-! ### Numbers as text -/

theorem isSpace_of_isDigit {c : Char} (hc : c.isDigit) : isSpace c = false := by
  have hrange : 48 ≤ c.toNat ∧ c.toNat ≤ 57 := by
    simpa [Char.isDigit, UInt32.le_iff_toNat_le] using hc
  simp only [isSpace, Bool.or_eq_false_iff, beq_eq_false_iff_ne, Bool.and_eq_false_iff,
    decide_eq_false_iff_not]
  exact ⟨by omega, Or.inr (by omega)⟩

theorem scanSign_digits {digits : Text} (hd : ∀ c ∈ digits, c.isDigit) :
    scanSign (digits.dropWhile isSpace) = (1, digits) := by
  have hdrop : digits.dropWhile isSpace = digits := by
    cases digits with
    | nil => rfl
    | cons c digits =>
      rw [List.dropWhile_cons_of_neg]
      rw [isSpace_of_isDigit (hd c List.mem_cons_self)]
      exact Bool.false_ne_true
  rw [hdrop]
  unfold scanSign
  split
  · exact absurd (hd '-' List.mem_cons_self) (by decide)
  · exact absurd (hd '+' List.mem_cons_self) (by decide)
  · rfl

theorem scanInt_of_digits {text digits : Text} {s : Int} (hne : digits ≠ [])
    (hd : ∀ c ∈ digits, c.isDigit) (hs : scanSign (text.dropWhile isSpace) = (s, digits)) :
    scanInt text = some (s * Nat.ofDigitChars 10 digits 0, []) := by
  have htake : digits.takeWhile Char.isDigit = digits := List.takeWhile_eq_self_iff.mpr hd
  have hdrop : digits.dropWhile Char.isDigit = [] := List.dropWhile_eq_nil_iff.mpr hd
  simp [scanInt, hs, htake, hdrop, hne]

theorem scanInt_toString (v : Int) : scanInt (toString v).toList = some (v, []) := by
  have hd : ∀ n, ∀ c ∈ Nat.toDigits 10 n, c.isDigit := fun n c hc =>
    Nat.isDigit_of_mem_toDigits (by decide) (by decide) hc
  have hv : ∀ n, Nat.ofDigitChars 10 (Nat.toDigits 10 n) 0 = n := fun n =>
    Nat.ofDigitChars_toDigits (by decide) (by decide)
  rw [Int.toString_eq_repr, Int.repr_eq_if]
  by_cases hneg : 0 ≤ v
  · rw [if_pos hneg, Nat.repr_eq_ofList_toDigits, String.toList_ofList]
    rw [scanInt_of_digits Nat.toDigits_ne_nil (hd _) (scanSign_digits (hd _)), hv, Int.one_mul,
      Int.toNat_of_nonneg hneg]
  · rw [if_neg hneg, Nat.repr_eq_ofList_toDigits]
    have hlist : ("-" ++ String.ofList (Nat.toDigits 10 (-v).toNat)).toList =
        '-' :: Nat.toDigits 10 (-v).toNat := by simp
    rw [hlist, scanInt_of_digits (s := -1) Nat.toDigits_ne_nil (hd _) rfl, hv,
      Int.toNat_of_nonneg (by omega)]
    simp

/-! ### What arrives -/

theorem clampLong_of_within {v : Int} (hlo : -2 ^ 63 ≤ v) (hhi : v < 2 ^ 63) :
    clampLong v = v := by
  rw [clampLong]
  omega

theorem toInt_ofInt32_iff {v : Int} :
    (Int32.ofInt (clampLong v)).toInt = v ↔ -2 ^ 31 ≤ v ∧ v < 2 ^ 31 := by
  constructor
  · intro h
    rw [← h]
    exact ⟨Int32.le_toInt _, Int32.toInt_lt _⟩
  · rintro ⟨hlo, hhi⟩
    rw [clampLong_of_within (by omega) (by omega), Int32.toInt_ofInt_of_le hlo hhi]

theorem toInt_ofInt64_iff {v : Int} :
    (Int64.ofInt (clampLong v)).toInt = v ↔ -2 ^ 63 ≤ v ∧ v < 2 ^ 63 := by
  constructor
  · intro h
    rw [← h]
    exact ⟨Int64.le_toInt _, Int64.toInt_lt _⟩
  · rintro ⟨hlo, hhi⟩
    rw [clampLong_of_within hlo hhi, Int64.toInt_ofInt_of_le hlo hhi]

theorem numeral_iff {text : Text} {r : Int × Text} {x bound : Int}
    (hscan : scanInt text = some r) (hx : x = r.1 ↔ -bound ≤ r.1 ∧ r.1 < bound) :
    scanInt text = some (x, []) ↔ NumeralWithin bound text := by
  constructor
  · rintro h v rest hv
    obtain ⟨rfl, rfl⟩ := Prod.mk.inj (Option.some.inj (h.symm.trans hv))
    obtain rfl := Option.some.inj (h.symm.trans hscan)
    exact ⟨rfl, hx.mp rfl⟩
  · intro h
    obtain ⟨hrest, hrange⟩ := h r.1 r.2 hscan
    rw [hscan, hx.mpr hrange, ← hrest]

section Results

variable {scanFloat : Text → Option F} {printFloat : F → Text} {word : Word} {type : MetaType}
  {paramStr : Text} {value : MetaValue F}

theorem setRight_of_refused {text : String}
    (hset : rtmProcessSet scanFloat word type = .refused text) : SetRight scanFloat word type := by
  intro value hsent
  rw [hset] at hsent
  cases hsent

theorem setRight_of_sent (hset : rtmProcessSet scanFloat word type = .sent value) :
    SetRight scanFloat word type ↔
      ∃ v, metadataReadFromElement value = some v ∧ Denotes scanFloat word.text v := by
  constructor
  · intro h
    exact h value hset
  · intro h value' hsent
    obtain rfl := SetReply.sent.inj (hset.symm.trans hsent)
    exact h

theorem numeralWithin_of_none {bound : Int} {text : Text} (hscan : scanInt text = none) :
    NumeralWithin bound text := by
  intro v rest hv
  rw [hscan] at hv
  cases hv

theorem setRight_iff : SetRight scanFloat word type ↔ Settable scanFloat word type := by
  cases type with
  | int32 =>
    cases hscan : scanInt word.text with
    | none =>
      exact iff_of_true (setRight_of_refused (by rw [rtmProcessSet, scanInt32, hscan]; rfl))
        (numeralWithin_of_none hscan)
    | some r =>
      rw [setRight_of_sent (by rw [rtmProcessSet, scanInt32, hscan]; rfl)]
      simp only [metadataWriteToElement, metadataReadFromElement, Option.some.injEq,
        exists_eq_left', Denotes]
      exact numeral_iff hscan toInt_ofInt32_iff
  | int64 =>
    cases hscan : scanInt word.text with
    | none =>
      exact iff_of_true (setRight_of_refused (by rw [rtmProcessSet, scanInt64, hscan]; rfl))
        (numeralWithin_of_none hscan)
    | some r =>
      rw [setRight_of_sent (by rw [rtmProcessSet, scanInt64, hscan]; rfl)]
      simp only [metadataWriteToElement, metadataReadFromElement, Option.some.injEq,
        exists_eq_left', Denotes]
      exact numeral_iff hscan toInt_ofInt64_iff
  | float =>
    cases hscan : scanFloat word.text with
    | none => exact iff_of_true (setRight_of_refused (by rw [rtmProcessSet, hscan])) hscan
    | some v =>
      rw [setRight_of_sent (by rw [rtmProcessSet, hscan])]
      simp [metadataWriteToElement, metadataReadFromElement, Settable, hscan]
  | string =>
    rw [setRight_of_sent rfl]
    simp [metadataWriteToElement, metadataReadFromElement, Denotes, Settable]

theorem shows_printValue : Shows printFloat (printValue printFloat value) value := by
  cases value with
  | int32 v => exact scanInt_toString v.toInt
  | int64 v => exact scanInt_toString v.toInt
  | float v => rfl
  | string s => rfl

theorem readRight_of_read (hread : metadataReadFromElement value = some value) :
    ReadRight printFloat paramStr value ↔
      paramStr.length + (printValue printFloat value).length + 3 < TEMP_SIZE := by
  have hreply : rtmReadParamReply printFloat paramStr value =
      some (quote :: paramStr ++ [quote, '='] ++ printValue printFloat value) := by
    rw [rtmReadParamReply, hread]
    rfl
  have hlen : (quote :: paramStr ++ [quote, '='] ++ printValue printFloat value).length =
      paramStr.length + (printValue printFloat value).length + 3 := by
    simp
    omega
  constructor
  · rintro ⟨temp, shown, htemp, -, -, hlt⟩
    obtain rfl := Option.some.inj (hreply.symm.trans htemp)
    rwa [hlen] at hlt
  · intro hlt
    exact ⟨_, _, hreply, rfl, shows_printValue, by rwa [hlen]⟩

theorem readRight_iff :
    ReadRight printFloat paramStr value ↔ Readable printFloat paramStr value := by
  cases value with
  | int32 v => exact readRight_of_read rfl
  | int64 v => exact readRight_of_read rfl
  | float v => simp [ReadRight, Readable, rtmReadParamReply, metadataReadFromElement]
  | string s => exact readRight_of_read rfl

end Results

/-- A word arrives if it is settable, and a value comes back if it is readable. -/
theorem transport_right_iff (scanFloat : Text → Option F) (printFloat : F → Text) (word : Word)
    (type : MetaType) (paramStr : Text) (value : MetaValue F) :
    (SetRight scanFloat word type ↔ Settable scanFloat word type) ∧
      (ReadRight printFloat paramStr value ↔ Readable printFloat paramStr value) :=
  ⟨setRight_iff, readRight_iff⟩

/-- `set logger interval 2`: the word is taken, and reading it ends the process. -/
theorem transport_float_exits :
    ¬ SetRight (fun _ => some (2 : Int)) ⟨0x7f0000001000, ['2']⟩ .float ∧
    ¬ SetRight (fun _ => some (2 : Int)) ⟨0x7f0000001000, ['o', 'n']⟩ .string ∧
    ¬ SetRight (fun _ => some (2 : Int)) ⟨0x7f0000001000, "3000000000".toList⟩ .int32 ∧
    ¬ ReadRight (fun _ => ['2']) "interval".toList (.float (2 : Int)) := by
  refine ⟨?_, ?_, ?_, ?_⟩
  · rw [setRight_iff]
    intro h
    cases h
  · rw [setRight_iff]
    have hne : cString (lastWordSlot ⟨0x7f0000001000, ['o', 'n']⟩) ≠ ['o', 'n'] := by decide
    exact hne
  · rw [setRight_iff]
    intro h
    exact absurd (h 3000000000 [] (by decide)).2.2 (by decide)
  · rw [readRight_iff]
    exact id

end FinsStack.Rtm.Params
