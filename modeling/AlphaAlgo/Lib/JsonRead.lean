import AlphaAlgo.Lib.Json
import AlphaAlgo.Lib.Loop

/-!
# JsonRead — the value of `json.loads`

`loads` reads a text a character at a time, with a stack of the arrays and objects that are open.  Python reads such a
text by recursion: it refuses a level beyond the interpreter's limit, and an integer with more digits than `int` reads.

* `step`, `finish`, `loads`: the reader; a number ends at the first character after it.
* `run_escape`, `run_quoted`: a quoted string is read back.
* `run_int`, `run_written`: so is an integer, and so is every written value; a number is open until the next separator.
* `loads_written`, `loads_dumps`: `loads` of what `dumps` wrote.
* `loads_eq_recursion`, `loads_eq_digits`: the texts on which it raises something else than `JSONDecodeError`.
-/

namespace AlphaAlgo

/-- A value that is read; a fraction or an exponent makes a `float`, which is kept as its text. -/
inductive JsonValue where
  | null
  | bool (b : Bool)
  | int (n : ℤ)
  | float (text : String)
  | str (s : String)
  | arr (l : List JsonValue)
  | obj (l : List (String × JsonValue))

namespace JsonRead

open Loop

/-- `JSONDecodeError`, the `ValueError` of an integer with too many digits, `RecursionError`. -/
inductive LoadsError where
  | decode
  | digits
  | recursion
deriving DecidableEq

/-! ### Strings -/

def isHigh (u : ℕ) : Bool := 0xd800 ≤ u && u ≤ 0xdbff

def isLow (u : ℕ) : Bool := 0xdc00 ≤ u && u ≤ 0xdfff

/-- The character of a code; a surrogate that stands alone is none. -/
def toChar (u : ℕ) : Char := if isHigh u || isLow u then '\ufffd' else Char.ofNat u

/-- The characters of the codes of a string; a pair of surrogates is one character. -/
def decodeUnits : List ℕ → List Char
  | [] => []
  | [u] => [toChar u]
  | u :: v :: rest =>
    if isHigh u && isLow v then Char.ofNat (0x10000 + (u - 0xd800) * 1024 + (v - 0xdc00)) :: decodeUnits rest
    else toChar u :: decodeUnits (v :: rest)

/-- The character of a two-character escape. -/
def unescape : Char → Option ℕ
  | '"' => some '"'.toNat
  | '\\' => some '\\'.toNat
  | '/' => some '/'.toNat
  | 'b' => some 8
  | 'f' => some 12
  | 'n' => some 10
  | 'r' => some 13
  | 't' => some 9
  | _ => none

def hexValue (c : Char) : Option ℕ :=
  if c.isDigit then some (c.toNat - 48)
  else if 'a' ≤ c ∧ c ≤ 'f' then some (c.toNat - 87)
  else if 'A' ≤ c ∧ c ≤ 'F' then some (c.toNat - 55)
  else none

/-- Where a string is: between characters, after a backslash, or with digits of a code still to come. -/
inductive Escape where
  | outside
  | backslash
  | unicode (n left : ℕ)

/-! ### Numbers -/

/-- What the characters of a number so far end with. -/
inductive Phase where
  | minus
  | zero
  | int
  | dot
  | frac
  | exp
  | expSign
  | expDigits
deriving DecidableEq

/-- The characters of a number so far, last first, the number of the digits before a point, and whether a point with
digits was read. -/
structure Number where
  phase : Phase
  text : List Char
  digits : ℕ
  fraction : Bool

/-- The digits that `int` reads at most. -/
def maxDigits : ℕ := 4300

def intValue (text : List Char) : ℤ :=
  let n : ℤ := Nat.ofDigitChars 10 (text.reverse.filter Char.isDigit) 0
  if text.getLast? = some '-' then -n else n

/-- The value of a number that ends here.  What cannot go on is read up to where it could: that is an integer with too
many digits, or text follows a number. -/
def Number.value (n : Number) : Except LoadsError JsonValue :=
  match n.phase with
  | .minus => .error .decode
  | .zero | .int => if maxDigits < n.digits then .error .digits else .ok (.int (intValue n.text))
  | .frac | .expDigits => .ok (.float (String.ofList n.text.reverse))
  | .dot | .exp | .expSign =>
    if n.fraction = false ∧ maxDigits < n.digits then .error .digits else .error .decode

/-- The number with one character more, where the character goes on with it. -/
def Number.next (n : Number) (c : Char) : Option Number :=
  let go (phase : Phase) : Option Number := some { n with phase := phase, text := c :: n.text }
  match n.phase with
  | .minus => if c = '0' then some ⟨.zero, c :: n.text, 1, false⟩ else if c.isDigit then some ⟨.int, c :: n.text, 1, false⟩ else none
  | .zero => if c = '.' then go .dot else if c = 'e' ∨ c = 'E' then go .exp else none
  | .int =>
    if c.isDigit then some ⟨.int, c :: n.text, n.digits + 1, false⟩
    else if c = '.' then go .dot
    else if c = 'e' ∨ c = 'E' then go .exp
    else none
  | .dot => if c.isDigit then some ⟨.frac, c :: n.text, n.digits, true⟩ else none
  | .frac => if c.isDigit then go .frac else if c = 'e' ∨ c = 'E' then go .exp else none
  | .exp => if c = '+' ∨ c = '-' then go .expSign else if c.isDigit then go .expDigits else none
  | .expSign => if c.isDigit then go .expDigits else none
  | .expDigits => if c.isDigit then go .expDigits else none

/-! ### The reader -/

/-- An open array with its items so far, last first, or an open object with its fields and the key of the next. -/
inductive Frame where
  | arr (items : List JsonValue)
  | obj (fields : List (String × JsonValue)) (key : String)

/-- What is due. -/
inductive Mode where
  | value
  | firstItem
  | afterItem (items : List JsonValue)
  | firstKey
  | key (fields : List (String × JsonValue))
  | colon (fields : List (String × JsonValue)) (key : String)
  | afterField (fields : List (String × JsonValue))
  | text (keyOf : Option (List (String × JsonValue))) (units : List ℕ) (escape : Escape)
  | literal (rest : List Char) (v : JsonValue)
  | number (n : Number)
  | done (v : JsonValue)

structure State where
  mode : Mode
  stack : List Frame

/-- The whitespace of JSON. -/
def isBlank (c : Char) : Bool := c == ' ' || c == '\t' || c == '\n' || c == '\r'

/-- A value is complete. -/
def deliver (v : JsonValue) : List Frame → State
  | [] => ⟨.done v, []⟩
  | .arr items :: stack => ⟨.afterItem (v :: items), stack⟩
  | .obj fields key :: stack => ⟨.afterField ((key, v) :: fields), stack⟩

/-- The first character of a value; a level beyond the limit is refused. -/
def startValue (limit : ℕ) (stack : List Frame) (c : Char) : Except LoadsError State :=
  match c with
  | '"' => .ok ⟨.text none [] .outside, stack⟩
  | '[' => if limit ≤ stack.length then .error .recursion else .ok ⟨.firstItem, stack⟩
  | '\x7b' => if limit ≤ stack.length then .error .recursion else .ok ⟨.firstKey, stack⟩
  | 'n' => .ok ⟨.literal "ull".toList .null, stack⟩
  | 't' => .ok ⟨.literal "rue".toList (.bool true), stack⟩
  | 'f' => .ok ⟨.literal "alse".toList (.bool false), stack⟩
  | 'N' => .ok ⟨.literal "aN".toList (.float "NaN"), stack⟩
  | 'I' => .ok ⟨.literal "nfinity".toList (.float "Infinity"), stack⟩
  | '-' => .ok ⟨.number ⟨.minus, ['-'], 0, false⟩, stack⟩
  | '0' => .ok ⟨.number ⟨.zero, ['0'], 1, false⟩, stack⟩
  | c => if c.isDigit then .ok ⟨.number ⟨.int, [c], 1, false⟩, stack⟩ else .error .decode

/-- A character after a value. -/
def stepAfter (s : State) (c : Char) : Except LoadsError State :=
  if isBlank c then .ok s
  else
    match s.mode with
    | .afterItem items =>
      if c = ',' then .ok ⟨.value, .arr items :: s.stack⟩
      else if c = ']' then .ok (deliver (.arr items.reverse) s.stack)
      else .error .decode
    | .afterField fields =>
      if c = ',' then .ok ⟨.key fields, s.stack⟩
      else if c = '\x7d' then .ok (deliver (.obj fields.reverse) s.stack)
      else .error .decode
    | _ => .error .decode

/-- A character of a string; a control character is refused. -/
def stepText (keyOf : Option (List (String × JsonValue))) (units : List ℕ) (escape : Escape) (stack : List Frame)
    (c : Char) : Except LoadsError State :=
  match escape with
  | .outside =>
    if c = '"' then
      let s := String.ofList (decodeUnits units.reverse)
      match keyOf with
      | none => .ok (deliver (.str s) stack)
      | some fields => .ok ⟨.colon fields s, stack⟩
    else if c = '\\' then .ok ⟨.text keyOf units .backslash, stack⟩
    else if c < ' ' then .error .decode
    else .ok ⟨.text keyOf (c.toNat :: units) .outside, stack⟩
  | .backslash =>
    if c = 'u' then .ok ⟨.text keyOf units (.unicode 0 4), stack⟩
    else
      match unescape c with
      | some u => .ok ⟨.text keyOf (u :: units) .outside, stack⟩
      | none => .error .decode
  | .unicode n left =>
    match hexValue c with
    | none => .error .decode
    | some d =>
      if left = 1 then .ok ⟨.text keyOf ((n * 16 + d) :: units) .outside, stack⟩
      else .ok ⟨.text keyOf units (.unicode (n * 16 + d) (left - 1)), stack⟩

def stepKey (fields : List (String × JsonValue)) (stack : List Frame) (c : Char) : Except LoadsError State :=
  if c = '"' then .ok ⟨.text (some fields) [] .outside, stack⟩ else .error .decode

/-- The reader takes a character. -/
def step (limit : ℕ) (s : State) (c : Char) : Except LoadsError State :=
  match s.mode with
  | .value => if isBlank c then .ok s else startValue limit s.stack c
  | .firstItem =>
    if isBlank c then .ok s
    else if c = ']' then .ok (deliver (.arr []) s.stack)
    else startValue limit (.arr [] :: s.stack) c
  | .firstKey =>
    if isBlank c then .ok s
    else if c = '\x7d' then .ok (deliver (.obj []) s.stack)
    else stepKey [] s.stack c
  | .key fields => if isBlank c then .ok s else stepKey fields s.stack c
  | .colon fields key =>
    if isBlank c then .ok s else if c = ':' then .ok ⟨.value, .obj fields key :: s.stack⟩ else .error .decode
  | .text keyOf units escape => stepText keyOf units escape s.stack c
  | .literal [] _ => .error .decode
  | .literal [d] v => if c = d then .ok (deliver v s.stack) else .error .decode
  | .literal (d :: rest) v => if c = d then .ok ⟨.literal rest v, s.stack⟩ else .error .decode
  | .number n =>
    if n.phase = .minus ∧ c = 'I' then .ok ⟨.literal "nfinity".toList (.float "-Infinity"), s.stack⟩
    else
      match n.next c with
      | some n' => .ok ⟨.number n', s.stack⟩
      | none => do
        let v ← n.value
        stepAfter (deliver v s.stack) c
  | _ => stepAfter s c

/-- The end of the text. -/
def finish (s : State) : Except LoadsError JsonValue :=
  match s.mode with
  | .done v => .ok v
  | .number n => do
    let v ← n.value
    if s.stack = [] then .ok v else .error .decode
  | _ => .error .decode

/-- `json.loads`. -/
def loads (limit : ℕ) (text : String) : Except LoadsError JsonValue := do
  let s ← run (step limit) ⟨.value, []⟩ text.toList
  finish s

/-! ### Strings are read back -/

/-- The codes of a character as it is written: itself, or its two surrogates. -/
def units (c : Char) : List ℕ :=
  if c.toNat < 0x10000 then [c.toNat] else [highSurrogate c.toNat, lowSurrogate c.toNat]

theorem isHigh_toNat (c : Char) : isHigh c.toNat = false := by
  have h := toNat_ne_surrogate c
  simp only [isHigh, Bool.and_eq_false_iff, decide_eq_false_iff_not]
  omega

theorem isLow_toNat (c : Char) : isLow c.toNat = false := by
  have h := toNat_ne_surrogate c
  simp only [isLow, Bool.and_eq_false_iff, decide_eq_false_iff_not]
  omega

theorem toChar_toNat (c : Char) : toChar c.toNat = c := by
  simp [toChar, isHigh_toNat, isLow_toNat]

theorem decodeUnits_cons {u : ℕ} (hu : isHigh u = false) (rest : List ℕ) :
    decodeUnits (u :: rest) = toChar u :: decodeUnits rest := by
  cases rest with
  | nil => rfl
  | cons v rest => simp [decodeUnits, hu]

theorem decodeUnits_units (c : Char) (rest : List ℕ) : decodeUnits (units c ++ rest) = c :: decodeUnits rest := by
  unfold units
  by_cases hc : c.toNat < 0x10000
  · rw [if_pos hc, List.singleton_append, decodeUnits_cons (isHigh_toNat c), toChar_toNat]
  · rw [if_neg hc]
    have hmax := toNat_lt_max c
    have hhigh : isHigh (highSurrogate c.toNat) = true :=
      Bool.and_eq_true_iff.mpr ⟨decide_eq_true (by unfold highSurrogate; omega), decide_eq_true (by unfold highSurrogate; omega)⟩
    have hlow : isLow (lowSurrogate c.toNat) = true :=
      Bool.and_eq_true_iff.mpr ⟨decide_eq_true (by unfold lowSurrogate; omega), decide_eq_true (by unfold lowSurrogate; omega)⟩
    have hcode : 0x10000 + (highSurrogate c.toNat - 0xd800) * 1024 + (lowSurrogate c.toNat - 0xdc00) = c.toNat := by
      unfold highSurrogate lowSurrogate
      omega
    simp only [List.cons_append, List.nil_append, decodeUnits, hhigh, hlow, Bool.and_self, if_true, hcode,
      Char.ofNat_toNat]

theorem decodeUnits_flatMap (s : List Char) : decodeUnits (s.flatMap units) = s := by
  induction s with
  | nil => rfl
  | cons c s ih => rw [List.flatMap_cons, decodeUnits_units, ih]

theorem hexValue_hexDigit (d : ℕ) : hexValue (hexDigit d) = some (d % 16) := by
  have key : ∀ a < 16, hexValue (Nat.digitChar a) = some a := by decide
  exact key _ (Nat.mod_lt _ (by omega))

theorem unescape_shortEscape {c x : Char} (h : shortEscape c = some x) : unescape x = some c.toNat := by
  unfold shortEscape at h
  split at h <;> cases h <;> rfl

section Text

variable (limit : ℕ) (keyOf : Option (List (String × JsonValue))) (us : List ℕ) (stack : List Frame)

theorem step_hexDigit (n d left : ℕ) : step limit ⟨.text keyOf us (.unicode n left), stack⟩ (hexDigit d) =
    if left = 1 then .ok ⟨.text keyOf ((n * 16 + d % 16) :: us) .outside, stack⟩
    else .ok ⟨.text keyOf us (.unicode (n * 16 + d % 16) (left - 1)), stack⟩ := by
  simp only [step, stepText, hexValue_hexDigit]

/-- Four digits are read as their code. -/
theorem run_hex4 {n : ℕ} (hn : n < 65536) :
    run (step limit) ⟨.text keyOf us (.unicode 0 4), stack⟩ (hex4 n) = .ok ⟨.text keyOf (n :: us) .outside, stack⟩ := by
  have hcode : (((0 * 16 + n / 4096 % 16) * 16 + n / 256 % 16) * 16 + n / 16 % 16) * 16 + n % 16 = n := by omega
  refine run_cons_ok.mpr ⟨_, step_hexDigit limit keyOf us stack 0 _ 4, ?_⟩
  refine run_cons_ok.mpr ⟨_, step_hexDigit limit keyOf us stack _ _ 3, ?_⟩
  refine run_cons_ok.mpr ⟨_, step_hexDigit limit keyOf us stack _ _ 2, ?_⟩
  refine run_cons_ok.mpr ⟨_, step_hexDigit limit keyOf us stack _ _ 1, ?_⟩
  rw [hcode]
  rfl

theorem run_unicode {n : ℕ} (hn : n < 65536) : run (step limit) ⟨.text keyOf us .outside, stack⟩ ('\\' :: 'u' :: hex4 n) =
    .ok ⟨.text keyOf (n :: us) .outside, stack⟩ := by
  refine run_cons_ok.mpr ⟨⟨.text keyOf us .backslash, stack⟩, rfl, ?_⟩
  exact run_cons_ok.mpr ⟨⟨.text keyOf us (.unicode 0 4), stack⟩, rfl, run_hex4 limit keyOf us stack hn⟩

/-- **A written character is read.** -/
theorem run_escape (c : Char) : run (step limit) ⟨.text keyOf us .outside, stack⟩ (escapeChar c) =
    .ok ⟨.text keyOf ((units c).reverse ++ us) .outside, stack⟩ := by
  have hmax := toNat_lt_max c
  by_cases hp : Char.plain c = true
  · have hplain := hp
    simp only [Char.plain, Bool.and_eq_true, bne_iff_ne, ne_eq, decide_eq_true_eq] at hplain
    obtain ⟨⟨⟨hlow, hhigh⟩, hquote⟩, hslash⟩ := hplain
    have hbasic : c.toNat < 0x10000 := by
      have hle : c.toNat ≤ '~'.toNat := hhigh
      have htilde : '~'.toNat = 126 := by decide
      omega
    rw [escapeChar, if_pos hp, units, if_pos hbasic]
    refine run_cons_ok.mpr ⟨_, ?_, rfl⟩
    show stepText keyOf us .outside stack c = _
    simp [stepText, hquote, hslash, show ¬c < ' ' from Char.not_lt.mpr hlow]
  · cases hs : shortEscape c with
    | some x =>
      have hbasic : c.toNat < 0x10000 := by
        unfold shortEscape at hs
        split at hs <;> first | decide | cases hs
      have hunits : units c = [c.toNat] := if_pos hbasic
      rw [escapeChar, if_neg hp, hs, hunits]
      refine run_cons_ok.mpr ⟨⟨.text keyOf us .backslash, stack⟩, rfl, ?_⟩
      refine run_cons_ok.mpr ⟨_, ?_, rfl⟩
      show stepText keyOf us .backslash stack x = _
      simp [stepText, shortEscape_ne_u hs, unescape_shortEscape hs]
    | none =>
      rw [escapeChar, if_neg hp, hs]
      by_cases hbasic : c.toNat < 0x10000
      · rw [units, if_pos hbasic, if_pos hbasic]
        exact run_unicode limit keyOf us stack hbasic
      · rw [units, if_neg hbasic, if_neg hbasic]
        have hhigh : highSurrogate c.toNat < 65536 := by unfold highSurrogate; omega
        have hlow : lowSurrogate c.toNat < 65536 := by unfold lowSurrogate; omega
        exact run_append_ok.mpr ⟨_, run_unicode limit keyOf us stack hhigh, run_unicode limit keyOf _ stack hlow⟩

/-- A written text is read. -/
theorem run_escapes (s : List Char) : run (step limit) ⟨.text keyOf us .outside, stack⟩ (s.flatMap escapeChar) =
    .ok ⟨.text keyOf ((s.flatMap units).reverse ++ us) .outside, stack⟩ := by
  induction s generalizing us with
  | nil => rfl
  | cons c s ih =>
    rw [List.flatMap_cons, List.flatMap_cons, List.reverse_append, List.append_assoc]
    exact run_append_ok.mpr ⟨_, run_escape limit keyOf us stack c, ih _⟩

end Text

/-- The state after a string. -/
def afterText (s : String) : Option (List (String × JsonValue)) → List Frame → State
  | none, stack => deliver (.str s) stack
  | some fields, stack => ⟨.colon fields s, stack⟩

/-- **A quoted string is read back**, from its first character on. -/
theorem run_quoted (limit : ℕ) (keyOf : Option (List (String × JsonValue))) (stack : List Frame) (s : String) :
    run (step limit) ⟨.text keyOf [] .outside, stack⟩ (s.toList.flatMap escapeChar ++ ['"']) =
      .ok (afterText s keyOf stack) := by
  refine run_append_ok.mpr ⟨_, run_escapes limit keyOf [] stack s.toList, run_cons_ok.mpr ⟨_, ?_, rfl⟩⟩
  have hread : decodeUnits (s.toList.flatMap units) = s.toList := decodeUnits_flatMap _
  show stepText keyOf _ .outside stack '"' = _
  cases keyOf with
  | none => simp [stepText, afterText, hread]
  | some fields => simp [stepText, afterText, hread]

/-! ### Integers are read back -/

/-- The digits of an integer as it is written. -/
def digitCount (n : ℤ) : ℕ := (Nat.toDigits 10 n.natAbs).length

/-- A written number has no leading zero. -/
theorem toDigits_cons {m : ℕ} (hm : 0 < m) : ∃ c l, Nat.toDigits 10 m = c :: l ∧ c.isDigit = true ∧ c ≠ '0' := by
  induction m using Nat.strongRec with
  | ind m ih =>
    by_cases hlt : m < 10
    · rw [Nat.toDigits_of_lt_base hlt]
      interval_cases m <;> exact ⟨_, [], rfl, by decide, by decide⟩
    · obtain ⟨c, l, hl, hc⟩ := ih (m / 10) (by omega) (by omega)
      refine ⟨c, l ++ [Nat.digitChar (m % 10)], ?_, hc⟩
      rw [Nat.toDigits_of_base_le (by omega) (by omega), hl]
      rfl

/-- The text of a number is its digits, after a minus where it is negative. -/
theorem intValue_toString (n : ℤ) : intValue (toString n).toList.reverse = n := by
  have hfilter : ∀ m : ℕ, (Nat.toDigits 10 m).filter Char.isDigit = Nat.toDigits 10 m := fun m =>
    List.filter_eq_self.mpr fun c hc => Nat.isDigit_of_mem_toDigits (by omega) (by omega) hc
  have hvalue : ∀ m : ℕ, Nat.ofDigitChars 10 (Nat.toDigits 10 m) 0 = m := fun m =>
    Nat.ofDigitChars_toDigits (by omega) (by omega)
  have hhead : ∀ m : ℕ, (Nat.toDigits 10 m).head? ≠ some '-' := by
    intro m h
    exact absurd (Nat.isDigit_of_mem_toDigits (by omega) (by omega) (List.mem_of_mem_head? h)) (by decide)
  unfold intValue
  rw [List.reverse_reverse, List.getLast?_reverse]
  rcases toString_int n with ⟨m, rfl, htext⟩ | ⟨m, rfl, htext⟩
  · rw [htext, Nat.toList_repr, hfilter, hvalue, if_neg (hhead m)]
  · rw [htext, Nat.toList_repr, List.filter_cons_of_neg (by decide), hfilter, hvalue, if_pos (by rfl)]
    push_cast
    ring

section Integers

variable {limit : ℕ} {stack : List Frame}

theorem step_digit {text : List Char} {d : ℕ} {c : Char} (hc : c.isDigit = true) :
    step limit ⟨.number ⟨.int, text, d, false⟩, stack⟩ c = .ok ⟨.number ⟨.int, c :: text, d + 1, false⟩, stack⟩ := by
  simp [step, Number.next, hc]

theorem run_digits : ∀ {l : List Char} {text : List Char} {d : ℕ}, (∀ c ∈ l, c.isDigit = true) →
    run (step limit) ⟨.number ⟨.int, text, d, false⟩, stack⟩ l =
      .ok ⟨.number ⟨.int, l.reverse ++ text, d + l.length, false⟩, stack⟩
  | [], _, _, _ => rfl
  | c :: l, text, d, h => by
    have hrest := @run_digits l (c :: text) (d + 1) fun x hx => h x (List.mem_cons_of_mem c hx)
    rw [List.reverse_cons, List.append_assoc, List.length_cons, Nat.add_comm l.length, ← Nat.add_assoc]
    exact run_cons_ok.mpr ⟨_, step_digit (h c List.mem_cons_self), hrest⟩

/-- The digits of a positive number, from a state that takes the first of them. -/
theorem run_toDigits {m : ℕ} (hm : 0 < m) {s : State} {text : List Char}
    (hs : ∀ c : Char, c.isDigit = true → c ≠ '0' →
      step limit s c = .ok ⟨.number ⟨.int, c :: text, 1, false⟩, stack⟩) :
    run (step limit) s (Nat.toDigits 10 m) =
      .ok ⟨.number ⟨.int, (Nat.toDigits 10 m).reverse ++ text, (Nat.toDigits 10 m).length, false⟩, stack⟩ := by
  obtain ⟨c, l, hl, hc, hzero⟩ := toDigits_cons hm
  have hdigits : ∀ x ∈ l, x.isDigit = true := fun x hx =>
    Nat.isDigit_of_mem_toDigits (b := 10) (n := m) (by omega) (by omega) (by rw [hl]; exact List.mem_cons_of_mem c hx)
  rw [hl, List.reverse_cons, List.append_assoc, List.length_cons, Nat.add_comm]
  exact run_cons_ok.mpr ⟨_, hs c hc hzero, run_digits hdigits⟩

theorem startValue_digit {c : Char} (hc : c.isDigit = true) (hzero : c ≠ '0') :
    startValue limit stack c = .ok ⟨.number ⟨.int, [c], 1, false⟩, stack⟩ := by
  unfold startValue
  split
  all_goals first | exact absurd hc (by decide) | exact absurd rfl hzero | rw [if_pos hc]

theorem isBlank_of_isDigit {c : Char} (hc : c.isDigit = true) : isBlank c = false := by
  by_contra h
  simp only [isBlank, Bool.not_eq_false, Bool.or_eq_true, beq_iff_eq] at h
  rcases h with ((rfl | rfl) | rfl) | rfl <;> exact absurd hc (by decide)

/-- **A written integer is read** as a number that is still open. -/
theorem run_int {n : ℤ} (hn : digitCount n ≤ maxDigits) : ∃ k : Number,
    run (step limit) ⟨.value, stack⟩ (toString n).toList = .ok ⟨.number k, stack⟩ ∧
      (k.phase = .zero ∨ k.phase = .int) ∧ k.value = .ok (.int n) := by
  have hread : ∀ {phase : Phase} {l : List Char}, (phase = .zero ∨ phase = .int) → l = (toString n).toList.reverse →
      (Number.mk phase l (digitCount n) false).value = .ok (.int n) := by
    rintro phase l hphase rfl
    rcases hphase with rfl | rfl <;> simp only [Number.value, intValue_toString, if_neg (Nat.not_lt.mpr hn)]
  rcases toString_int n with ⟨m, rfl, htext⟩ | ⟨m, rfl, htext⟩
  · rw [Nat.toList_repr] at htext
    rcases Nat.eq_zero_or_pos m with rfl | hm
    · exact ⟨⟨.zero, ['0'], 1, false⟩, rfl, .inl rfl, hread (.inl rfl) rfl⟩
    · refine ⟨_, ?_, .inr rfl, hread (.inr rfl) rfl⟩
      have hstart : ∀ c : Char, c.isDigit = true → c ≠ '0' →
          step limit ⟨.value, stack⟩ c = .ok ⟨.number ⟨.int, [c], 1, false⟩, stack⟩ := by
        intro c hc hzero
        simp [step, isBlank_of_isDigit hc, startValue_digit hc hzero]
      rw [htext, run_toDigits hm hstart, List.append_nil, digitCount, Int.natAbs_natCast]
  · rw [Nat.toList_repr] at htext
    refine ⟨_, ?_, .inr rfl, hread (.inr rfl) rfl⟩
    have hminus : ∀ c : Char, c.isDigit = true → c ≠ '0' →
        step limit ⟨.number ⟨.minus, ['-'], 0, false⟩, stack⟩ c = .ok ⟨.number ⟨.int, [c, '-'], 1, false⟩, stack⟩ := by
      intro c hc hzero
      have hne : c ≠ 'I' := by
        rintro rfl
        exact absurd hc (by decide)
      simp [step, Number.next, hc, hzero, hne]
    have hcount : digitCount (-(m : ℤ) - 1) = (Nat.toDigits 10 (m + 1)).length := by
      rw [digitCount, show (-(m : ℤ) - 1).natAbs = m + 1 by omega]
    rw [htext, List.reverse_cons, hcount]
    exact run_cons_ok.mpr ⟨_, rfl, run_toDigits (Nat.succ_pos m) hminus⟩

/-- The state after a value, up to a number that is still open: what follows is taken in the same way. -/
structure Settles (limit : ℕ) (s t : State) : Prop where
  step : ∀ c, c = ',' ∨ c = ']' ∨ c = '\x7d' → step limit s c = step limit t c
  finish : finish s = finish t

theorem Settles.refl (s : State) : Settles limit s s where
  step _ _ := rfl
  finish := rfl

theorem Settles.run_eq {s t : State} (h : Settles limit s t) {c : Char} (hc : c = ',' ∨ c = ']' ∨ c = '\x7d')
    (l : List Char) : run (JsonRead.step limit) s (c :: l) = run (JsonRead.step limit) t (c :: l) := by
  rw [run_cons, run_cons, h.step c hc]

theorem settles_number {k : Number} {v : JsonValue} (hphase : k.phase = .zero ∨ k.phase = .int) (hv : k.value = .ok v) :
    Settles limit ⟨.number k, stack⟩ (deliver v stack) := by
  have hminus : k.phase ≠ .minus := by rcases hphase with h | h <;> rw [h] <;> decide
  constructor
  · intro c hc
    have hnext : k.next c = none := by
      rcases hphase with h | h <;> rcases hc with rfl | rfl | rfl <;> simp [Number.next, h]
    have hnow : JsonRead.step limit ⟨.number k, stack⟩ c = stepAfter (deliver v stack) c := by
      simp only [JsonRead.step, hminus, false_and, if_false, hnext, hv]
      rfl
    rw [hnow]
    cases stack with
    | nil => rfl
    | cons frame stack => cases frame <;> rfl
  · cases stack with
    | nil => simp [JsonRead.finish, hv, deliver, bind, Except.bind]
    | cons frame stack => cases frame <;> simp [JsonRead.finish, hv, deliver, bind, Except.bind]

end Integers

/-! ### Written values are read back -/

mutual

/-- The value that is read from what `dumps` writes. -/
def valueOf : Json → JsonValue
  | .null => .null
  | .bool b => .bool b
  | .int n => .int n
  | .str s => .str s
  | .arr l => .arr (valuesOf l)
  | .obj l => .obj (fieldsOf l)

def valuesOf : List Json → List JsonValue
  | [] => []
  | j :: l => valueOf j :: valuesOf l

def fieldsOf : List (String × Json) → List (String × JsonValue)
  | [] => []
  | (k, j) :: l => (k, valueOf j) :: fieldsOf l

end

mutual

/-- The value has no numbers, and at most `n` levels. -/
def Fits : ℕ → Json → Prop
  | _, .int _ => False
  | 0, .arr _ => False
  | n + 1, .arr l => FitsItems n l
  | 0, .obj _ => False
  | n + 1, .obj l => FitsFields n l
  | _, _ => True

def FitsItems : ℕ → List Json → Prop
  | _, [] => True
  | n, j :: l => Fits n j ∧ FitsItems n l

def FitsFields : ℕ → List (String × Json) → Prop
  | _, [] => True
  | n, (_, j) :: l => Fits n j ∧ FitsFields n l

end

mutual

/-- The value has at most `n` levels, and integers that `int` reads. -/
def Sized : ℕ → Json → Prop
  | _, .int k => digitCount k ≤ maxDigits
  | 0, .arr _ => False
  | n + 1, .arr l => SizedItems n l
  | 0, .obj _ => False
  | n + 1, .obj l => SizedFields n l
  | _, _ => True

def SizedItems : ℕ → List Json → Prop
  | _, [] => True
  | n, j :: l => Sized n j ∧ SizedItems n l

def SizedFields : ℕ → List (String × Json) → Prop
  | _, [] => True
  | n, (_, j) :: l => Sized n j ∧ SizedFields n l

end

mutual

theorem Fits.sized : ∀ {n : ℕ} {j : Json}, Fits n j → Sized n j
  | n, .null, _ => by cases n <;> trivial
  | n, .bool _, _ => by cases n <;> trivial
  | n, .int _, h => by cases n <;> exact h.elim
  | n, .str _, _ => by cases n <;> trivial
  | 0, .arr _, h => h.elim
  | n + 1, .arr _, h => FitsItems.sized h
  | 0, .obj _, h => h.elim
  | n + 1, .obj _, h => FitsFields.sized h

theorem FitsItems.sized : ∀ {n : ℕ} {l : List Json}, FitsItems n l → SizedItems n l
  | n, [], _ => by cases n <;> trivial
  | _, _ :: _, h => ⟨Fits.sized h.1, FitsItems.sized h.2⟩

theorem FitsFields.sized : ∀ {n : ℕ} {l : List (String × Json)}, FitsFields n l → SizedFields n l
  | n, [], _ => by cases n <;> trivial
  | _, (_, _) :: _, h => ⟨Fits.sized h.1, FitsFields.sized h.2⟩

end

theorem fitsItems_of_forall {n : ℕ} : ∀ {l : List Json}, (∀ j ∈ l, Fits n j) → FitsItems n l
  | [], _ => by cases n <;> trivial
  | j :: l, h => by
    have hj := h j List.mem_cons_self
    have hl := fitsItems_of_forall fun i hi => h i (List.mem_cons_of_mem j hi)
    exact ⟨hj, hl⟩

theorem valuesOf_eq : ∀ l : List Json, valuesOf l = l.map valueOf
  | [] => rfl
  | j :: l => by rw [valuesOf, valuesOf_eq l, List.map_cons]

/-- A comma and a colon with whitespace after them. -/
structure Spaced (sep : Separators) : Prop where
  item : ∃ blanks, sep.item.toList = ',' :: blanks ∧ ∀ c ∈ blanks, isBlank c = true
  key : ∃ blanks, sep.key.toList = ':' :: blanks ∧ ∀ c ∈ blanks, isBlank c = true

theorem spaced_default : Spaced .default where
  item := ⟨[' '], by decide, List.forall_mem_singleton.mpr rfl⟩
  key := ⟨[' '], by decide, List.forall_mem_singleton.mpr rfl⟩

section Values

variable {limit : ℕ} {sep : Separators}

/-- Whitespace where it is skipped. -/
theorem run_blanks {s : State} (hs : ∀ c, isBlank c = true → step limit s c = .ok s) {l : List Char}
    (hl : ∀ c ∈ l, isBlank c = true) : run (step limit) s l = .ok s := by
  induction l with
  | nil => rfl
  | cons c l ih =>
    exact run_cons_ok.mpr ⟨s, hs c (hl c List.mem_cons_self), ih fun d hd => hl d (List.mem_cons_of_mem _ hd)⟩

theorem step_value_blank (stack : List Frame) (c : Char) (hc : isBlank c = true) :
    step limit ⟨.value, stack⟩ c = .ok ⟨.value, stack⟩ := by
  simp [step, hc]

theorem step_key_blank (fields : List (String × JsonValue)) (stack : List Frame) (c : Char) (hc : isBlank c = true) :
    step limit ⟨.key fields, stack⟩ c = .ok ⟨.key fields, stack⟩ := by
  simp [step, hc]

/-- The first character of a written value. -/
theorem chars_start (j : Json) : ∃ c rest, j.chars sep = c :: rest ∧ isBlank c = false ∧ c ≠ ']' := by
  cases j with
  | null => exact ⟨'n', _, rfl, by decide, by decide⟩
  | bool b =>
    cases b with
    | true => exact ⟨'t', _, rfl, by decide, by decide⟩
    | false => exact ⟨'f', _, rfl, by decide, by decide⟩
  | int k =>
    rcases toString_int k with ⟨m, -, htext⟩ | ⟨m, -, htext⟩
    · obtain ⟨c, rest, hc⟩ := List.exists_cons_of_ne_nil (Nat.toDigits_ne_nil (n := m) (b := 10))
      have hdigit : c.isDigit = true :=
        Nat.isDigit_of_mem_toDigits (b := 10) (n := m) (by omega) (by omega) (by rw [hc]; exact List.mem_cons_self)
      refine ⟨c, rest, by rw [Json.chars, htext, Nat.toList_repr, hc], isBlank_of_isDigit hdigit, ?_⟩
      rintro rfl
      exact absurd hdigit (by decide)
    · exact ⟨'-', _, by rw [Json.chars, htext], by decide, by decide⟩
  | str s => exact ⟨'"', _, rfl, by decide, by decide⟩
  | arr l => exact ⟨'[', _, rfl, by decide, by decide⟩
  | obj l => exact ⟨'\x7b', _, rfl, by decide, by decide⟩

/-- The first item of an array is read as a value in it. -/
theorem run_firstItem (j : Json) (stack : List Frame) :
    run (step limit) ⟨.firstItem, stack⟩ (j.chars sep) = run (step limit) ⟨.value, .arr [] :: stack⟩ (j.chars sep) := by
  obtain ⟨c, rest, hc, hblank, hbracket⟩ := @chars_start sep j
  rw [hc, run_cons, run_cons]
  have hstep : step limit ⟨.firstItem, stack⟩ c = step limit ⟨.value, .arr [] :: stack⟩ c := by
    simp [step, hblank, hbracket]
  rw [hstep]

theorem run_item_sep (hsep : Spaced sep) (items : List JsonValue) (stack : List Frame) :
    run (step limit) ⟨.afterItem items, stack⟩ sep.item.toList = .ok ⟨.value, .arr items :: stack⟩ := by
  obtain ⟨blanks, hitem, hblanks⟩ := hsep.item
  rw [hitem]
  exact run_cons_ok.mpr ⟨_, rfl, run_blanks (step_value_blank _) hblanks⟩

theorem run_field_sep (hsep : Spaced sep) (fields : List (String × JsonValue)) (stack : List Frame) :
    run (step limit) ⟨.afterField fields, stack⟩ sep.item.toList = .ok ⟨.key fields, stack⟩ := by
  obtain ⟨blanks, hitem, hblanks⟩ := hsep.item
  rw [hitem]
  exact run_cons_ok.mpr ⟨_, rfl, run_blanks (step_key_blank _ _) hblanks⟩

theorem run_key_sep (hsep : Spaced sep) (fields : List (String × JsonValue)) (key : String) (stack : List Frame) :
    run (step limit) ⟨.colon fields key, stack⟩ sep.key.toList = .ok ⟨.value, .obj fields key :: stack⟩ := by
  obtain ⟨blanks, hkey, hblanks⟩ := hsep.key
  rw [hkey]
  exact run_cons_ok.mpr ⟨_, rfl, run_blanks (step_value_blank _) hblanks⟩

theorem step_open {stack : List Frame} {n : ℕ} (hn : stack.length + (n + 1) ≤ limit) :
    step limit ⟨.value, stack⟩ '[' = .ok ⟨.firstItem, stack⟩ ∧
      step limit ⟨.value, stack⟩ '\x7b' = .ok ⟨.firstKey, stack⟩ := by
  have hlt : ¬limit ≤ stack.length := by omega
  constructor
  · show startValue limit stack '[' = _
    simp [startValue, hlt]
  · show startValue limit stack '\x7b' = _
    simp [startValue, hlt]

/-- A separator after a value, where a number may still be open. -/
theorem Settles.run_item {s t : State} (hsep : Spaced sep) (h : Settles limit s t) {u : State}
    (ht : run (JsonRead.step limit) t sep.item.toList = .ok u) : run (JsonRead.step limit) s sep.item.toList = .ok u := by
  obtain ⟨blanks, hitem, -⟩ := hsep.item
  rw [hitem] at ht ⊢
  rw [h.run_eq (.inl rfl), ht]

mutual

/-- **A written value is read back**, in an array or an object that is open. -/
theorem run_written (hsep : Spaced sep) : ∀ {n : ℕ} {j : Json}, Sized n j → ∀ {stack : List Frame},
    stack.length + n ≤ limit →
      ∃ s, run (step limit) ⟨.value, stack⟩ (j.chars sep) = .ok s ∧ Settles limit s (deliver (valueOf j) stack)
  | _, .null, _, stack, _ => ⟨_, rfl, .refl _⟩
  | _, .bool true, _, stack, _ => ⟨_, rfl, .refl _⟩
  | _, .bool false, _, stack, _ => ⟨_, rfl, .refl _⟩
  | n, .int k, hj, stack, _ => by
    have hcount : digitCount k ≤ maxDigits := by cases n <;> exact hj
    obtain ⟨num, hrun, hphase, hvalue⟩ := @run_int limit stack k hcount
    exact ⟨_, hrun, settles_number hphase hvalue⟩
  | _, .str s, _, stack, _ => ⟨_, run_cons_ok.mpr ⟨_, rfl, run_quoted limit none stack s⟩, .refl _⟩
  | 0, .arr _, hj, _, _ => hj.elim
  | 0, .obj _, hj, _, _ => hj.elim
  | n + 1, .arr [], _, stack, hn => ⟨_, run_cons_ok.mpr ⟨_, (step_open hn).1, rfl⟩, .refl _⟩
  | n + 1, .arr (j :: l), hj, stack, hn => by
    have hlevel : (Frame.arr [] :: stack).length + n ≤ limit := by simp only [List.length_cons]; omega
    obtain ⟨s, hvalue, hs⟩ := run_written hsep hj.1 hlevel
    obtain ⟨s', hrest, hs'⟩ := run_writtenItems hsep hj.2 hs (by omega)
    have hitems : run (step limit) ⟨.firstItem, stack⟩ (Json.items sep true (j :: l)) = .ok s' :=
      run_append_ok.mpr ⟨_, (run_firstItem j stack).trans hvalue, hrest⟩
    have hclose : step limit s' ']' = .ok (deliver (valueOf (.arr (j :: l))) stack) := by
      rw [hs'.step _ (.inr (.inl rfl))]
      show Except.ok (deliver (.arr ((valuesOf l).reverse ++ [valueOf j]).reverse) stack) = _
      rw [List.reverse_append, List.reverse_reverse]
      rfl
    refine ⟨_, run_cons_ok.mpr ⟨_, (step_open hn).1, run_append_ok.mpr ⟨_, hitems, ?_⟩⟩, .refl _⟩
    exact run_cons_ok.mpr ⟨_, hclose, rfl⟩
  | n + 1, .obj [], _, stack, hn => ⟨_, run_cons_ok.mpr ⟨_, (step_open hn).2, rfl⟩, .refl _⟩
  | n + 1, .obj ((k, j) :: l), hj, stack, hn => by
    have hlevel : (Frame.obj [] k :: stack).length + n ≤ limit := by simp only [List.length_cons]; omega
    obtain ⟨s, hvalue, hs⟩ := run_written hsep hj.1 hlevel
    obtain ⟨s', hrest, hs'⟩ := run_writtenFields hsep hj.2 hs (by omega)
    have hquote : run (step limit) ⟨.firstKey, stack⟩ (quote k) = .ok ⟨.colon [] k, stack⟩ :=
      run_cons_ok.mpr ⟨_, rfl, run_quoted limit (some []) stack k⟩
    have hfields : run (step limit) ⟨.firstKey, stack⟩ (Json.fields sep true ((k, j) :: l)) = .ok s' := by
      refine run_append_ok.mpr ⟨_, run_append_ok.mpr ⟨_, ?_, hvalue⟩, hrest⟩
      exact run_append_ok.mpr ⟨_, hquote, run_key_sep hsep _ _ _⟩
    have hclose : step limit s' '\x7d' = .ok (deliver (valueOf (.obj ((k, j) :: l))) stack) := by
      rw [hs'.step _ (.inr (.inr rfl))]
      show Except.ok (deliver (.obj ((fieldsOf l).reverse ++ [(k, valueOf j)]).reverse) stack) = _
      rw [List.reverse_append, List.reverse_reverse]
      rfl
    refine ⟨_, run_cons_ok.mpr ⟨_, (step_open hn).2, run_append_ok.mpr ⟨_, hfields, ?_⟩⟩, .refl _⟩
    exact run_cons_ok.mpr ⟨_, hclose, rfl⟩

/-- The further items of an array. -/
theorem run_writtenItems (hsep : Spaced sep) : ∀ {n : ℕ} {l : List Json}, SizedItems n l → ∀ {items : List JsonValue}
    {stack : List Frame} {s : State}, Settles limit s ⟨.afterItem items, stack⟩ → stack.length + 1 + n ≤ limit →
      ∃ s', run (step limit) s (Json.items sep false l) = .ok s' ∧
        Settles limit s' ⟨.afterItem ((valuesOf l).reverse ++ items), stack⟩
  | _, [], _, items, stack, s, hs, _ => ⟨s, rfl, hs⟩
  | n, j :: l, hj, items, stack, s, hs, hn => by
    have hlevel : (Frame.arr items :: stack).length + n ≤ limit := by simp only [List.length_cons]; omega
    obtain ⟨s', hvalue, hs'⟩ := run_written hsep hj.1 hlevel
    obtain ⟨s'', hrest, hs''⟩ := run_writtenItems hsep hj.2 hs' hn
    rw [valuesOf, List.reverse_cons, List.append_assoc]
    refine ⟨s'', run_append_ok.mpr ⟨_, run_append_ok.mpr ⟨_, ?_, hvalue⟩, hrest⟩, hs''⟩
    exact hs.run_item hsep (run_item_sep hsep _ _)

/-- The further fields of an object. -/
theorem run_writtenFields (hsep : Spaced sep) : ∀ {n : ℕ} {l : List (String × Json)}, SizedFields n l →
    ∀ {fields : List (String × JsonValue)} {stack : List Frame} {s : State}, Settles limit s ⟨.afterField fields, stack⟩ →
      stack.length + 1 + n ≤ limit → ∃ s', run (step limit) s (Json.fields sep false l) = .ok s' ∧
        Settles limit s' ⟨.afterField ((fieldsOf l).reverse ++ fields), stack⟩
  | _, [], _, fields, stack, s, hs, _ => ⟨s, rfl, hs⟩
  | n, (k, j) :: l, hj, fields, stack, s, hs, hn => by
    have hlevel : (Frame.obj fields k :: stack).length + n ≤ limit := by simp only [List.length_cons]; omega
    obtain ⟨s', hvalue, hs'⟩ := run_written hsep hj.1 hlevel
    obtain ⟨s'', hrest, hs''⟩ := run_writtenFields hsep hj.2 hs' hn
    have hquote : run (step limit) ⟨.key fields, stack⟩ (quote k) = .ok ⟨.colon fields k, stack⟩ :=
      run_cons_ok.mpr ⟨_, rfl, run_quoted limit (some fields) stack k⟩
    rw [fieldsOf, List.reverse_cons, List.append_assoc]
    refine ⟨s'', run_append_ok.mpr ⟨_, run_append_ok.mpr ⟨_, run_append_ok.mpr ⟨_, ?_, run_key_sep hsep _ _ _⟩, hvalue⟩,
      hrest⟩, hs''⟩
    exact run_append_ok.mpr ⟨_, hs.run_item hsep (run_field_sep hsep _ _), hquote⟩

end

/-- **`loads` of what `dumps` wrote**, with integers. -/
theorem loads_written (hsep : Spaced sep) {n : ℕ} {j : Json} (hj : Sized n j) (hn : n ≤ limit) :
    loads limit (j.dumps sep) = .ok (valueOf j) := by
  obtain ⟨s, hrun, hs⟩ := @run_written limit sep hsep n j hj [] (by simpa using hn)
  refine bind_eq_ok.mpr ⟨s, ?_, hs.finish⟩
  rw [Json.dumps, String.toList_ofList]
  exact hrun

/-- **`loads` of what `dumps` wrote.** -/
theorem loads_dumps (hsep : Spaced sep) {n : ℕ} {j : Json} (hj : Fits n j) (hn : n ≤ limit) :
    loads limit (j.dumps sep) = .ok (valueOf j) := loads_written hsep hj.sized hn

end Values

/-! ### The other errors -/

/-- What was read is an integer, where a point or an exponent does not go on. -/
def Number.isInt (n : Number) : Bool :=
  match n.phase with
  | .zero | .int => true
  | .dot | .exp | .expSign => !n.fraction
  | .minus | .frac | .expDigits => false

/-- The levels that are open where a value is due. -/
def State.due (s : State) : Option ℕ :=
  match s.mode with
  | .value => some s.stack.length
  | .firstItem => some (s.stack.length + 1)
  | _ => none

/-- An integer of the text has more digits than `int` reads. -/
def TooLong (limit : ℕ) (text : String) : Prop :=
  ∃ l rest s n, text.toList = l ++ rest ∧ run (step limit) ⟨.value, []⟩ l = .ok s ∧ s.mode = .number n ∧
    n.isInt = true ∧ maxDigits < n.digits ∧ ∀ c ∈ rest.head?, n.next c = none

/-- An array or an object of the text is on a level beyond the limit. -/
def TooDeep (limit : ℕ) (text : String) : Prop :=
  ∃ l c rest s d, text.toList = l ++ c :: rest ∧ run (step limit) ⟨.value, []⟩ l = .ok s ∧ s.due = some d ∧
    (c = '[' ∨ c = '\x7b') ∧ limit ≤ d

theorem value_eq_digits {n : Number} : n.value = .error .digits ↔ n.isInt = true ∧ maxDigits < n.digits := by
  unfold Number.value Number.isInt
  cases n.phase with
  | minus => simp
  | zero => simp
  | int => simp
  | frac => simp
  | expDigits => simp
  | dot =>
    by_cases h : n.fraction = false ∧ maxDigits < n.digits
    · simp [h]
    · simp [h]
  | exp =>
    by_cases h : n.fraction = false ∧ maxDigits < n.digits
    · simp [h]
    · simp [h]
  | expSign =>
    by_cases h : n.fraction = false ∧ maxDigits < n.digits
    · simp [h]
    · simp [h]

section Errors

variable {limit : ℕ} {stack : List Frame} {s : State} {c : Char} {e : LoadsError}

theorem value_ne_recursion (n : Number) : n.value ≠ .error .recursion := by
  unfold Number.value
  cases n.phase with
  | minus => simp
  | zero => dsimp only; split_ifs <;> simp
  | int => dsimp only; split_ifs <;> simp
  | frac => simp
  | expDigits => simp
  | dot => dsimp only; split_ifs <;> simp
  | exp => dsimp only; split_ifs <;> simp
  | expSign => dsimp only; split_ifs <;> simp

theorem startValue_eq_error (h : startValue limit stack c = .error e) : e = .decode ∨
    e = .recursion ∧ (c = '[' ∨ c = '\x7b') ∧ limit ≤ stack.length := by
  unfold startValue at h
  split at h
  case h_2 =>
    split_ifs at h with hlimit
    exact Or.inr ⟨(Except.error.inj h).symm, Or.inl rfl, hlimit⟩
  case h_3 =>
    split_ifs at h with hlimit
    exact Or.inr ⟨(Except.error.inj h).symm, Or.inr rfl, hlimit⟩
  case h_11 =>
    split_ifs at h
    exact Or.inl (Except.error.inj h).symm
  all_goals cases h

theorem stepAfter_eq_error (h : stepAfter s c = .error e) : e = .decode := by
  unfold stepAfter at h
  split at h
  · cases h
  · split at h
    · split at h
      · cases h
      · split at h
        · cases h
        · exact (Except.error.inj h).symm
    · split at h
      · cases h
      · split at h
        · cases h
        · exact (Except.error.inj h).symm
    · exact (Except.error.inj h).symm

theorem stepText_eq_error {keyOf : Option (List (String × JsonValue))} {us : List ℕ} {escape : Escape}
    (h : stepText keyOf us escape stack c = .error e) : e = .decode := by
  unfold stepText at h
  split at h
  · split_ifs at h
    · cases keyOf <;> cases h
    · exact (Except.error.inj h).symm
  · split_ifs at h
    cases hu : unescape c with
    | none =>
      rw [hu] at h
      exact (Except.error.inj h).symm
    | some u =>
      rw [hu] at h
      cases h
  · cases hd : hexValue c with
    | none =>
      rw [hd] at h
      exact (Except.error.inj h).symm
    | some d =>
      rw [hd] at h
      dsimp only at h
      split_ifs at h

theorem stepKey_eq_error {fields : List (String × JsonValue)} (h : stepKey fields stack c = .error e) : e = .decode := by
  unfold stepKey at h
  split_ifs at h
  exact (Except.error.inj h).symm

/-- **The errors of a step.** -/
theorem step_eq_error (h : step limit s c = .error e) : e = .decode ∨
    (e = .recursion ∧ ∃ d, s.due = some d ∧ (c = '[' ∨ c = '\x7b') ∧ limit ≤ d) ∨
      (e = .digits ∧ ∃ n, s.mode = .number n ∧ n.isInt = true ∧ maxDigits < n.digits ∧ n.next c = none) := by
  obtain ⟨mode, stack⟩ := s
  cases mode with
  | value =>
    simp only [step] at h
    split_ifs at h
    rcases startValue_eq_error h with rfl | ⟨rfl, hc, hlimit⟩
    · exact Or.inl rfl
    · exact Or.inr (Or.inl ⟨rfl, _, rfl, hc, hlimit⟩)
  | firstItem =>
    simp only [step] at h
    split_ifs at h
    rcases startValue_eq_error h with rfl | ⟨rfl, hc, hlimit⟩
    · exact Or.inl rfl
    · exact Or.inr (Or.inl ⟨rfl, _, rfl, hc, hlimit⟩)
  | afterItem items => exact Or.inl (stepAfter_eq_error h)
  | firstKey =>
    simp only [step] at h
    split_ifs at h
    exact Or.inl (stepKey_eq_error h)
  | key fields =>
    simp only [step] at h
    split_ifs at h
    exact Or.inl (stepKey_eq_error h)
  | colon fields key =>
    simp only [step] at h
    split_ifs at h
    exact Or.inl (Except.error.inj h).symm
  | afterField fields => exact Or.inl (stepAfter_eq_error h)
  | text keyOf us escape => exact Or.inl (stepText_eq_error h)
  | literal rest v =>
    match rest with
    | [] => exact Or.inl (Except.error.inj h).symm
    | [d] =>
      simp only [step] at h
      split_ifs at h
      exact Or.inl (Except.error.inj h).symm
    | d :: d' :: rest =>
      simp only [step] at h
      split_ifs at h
      exact Or.inl (Except.error.inj h).symm
  | number n =>
    simp only [step] at h
    split_ifs at h
    cases hnext : n.next c with
    | some n' =>
      rw [hnext] at h
      cases h
    | none =>
      rw [hnext] at h
      rcases bind_eq_error.mp h with hvalue | ⟨v, -, hafter⟩
      · cases e with
        | decode => exact Or.inl rfl
        | recursion => exact absurd hvalue (value_ne_recursion n)
        | digits =>
          obtain ⟨hint, hdigits⟩ := value_eq_digits.mp hvalue
          exact Or.inr (Or.inr ⟨rfl, n, rfl, hint, hdigits, hnext⟩)
      · exact Or.inl (stepAfter_eq_error hafter)
  | done v => exact Or.inl (stepAfter_eq_error h)

theorem step_tooDeep {d : ℕ} (hd : s.due = some d) (hc : c = '[' ∨ c = '\x7b') (hlimit : limit ≤ d) :
    step limit s c = .error .recursion := by
  obtain ⟨mode, stack⟩ := s
  have hstart : ∀ stack' : List Frame, limit ≤ stack'.length → startValue limit stack' c = .error .recursion := by
    intro stack' hle
    rcases hc with rfl | rfl
    · exact if_pos hle
    · exact if_pos hle
  have hblank : isBlank c = false := by rcases hc with rfl | rfl <;> rfl
  have hclose : c ≠ ']' := by rcases hc with rfl | rfl <;> decide
  cases mode with
  | value =>
    cases hd
    simpa [step, hblank] using hstart stack hlimit
  | firstItem =>
    cases hd
    simpa [step, hblank, hclose] using hstart (.arr [] :: stack) hlimit
  | _ => cases hd

theorem step_tooLong {n : Number} (hs : s.mode = .number n) (hint : n.isInt = true) (hdigits : maxDigits < n.digits)
    (hnext : n.next c = none) : step limit s c = .error .digits := by
  have hphase : n.phase ≠ .minus := by
    intro hm
    simp [Number.isInt, hm] at hint
  have hvalue : n.value = .error .digits := value_eq_digits.mpr ⟨hint, hdigits⟩
  simp only [step, hs, hphase, hnext, hvalue, false_and, if_false]
  rfl

theorem finish_eq_error (h : finish s = .error e) : e = .decode ∨
    (e = .digits ∧ ∃ n, s.mode = .number n ∧ n.isInt = true ∧ maxDigits < n.digits) := by
  unfold finish at h
  split at h
  · cases h
  · next n hmode =>
    rcases bind_eq_error.mp h with hvalue | ⟨v, -, hend⟩
    · cases e with
      | decode => exact Or.inl rfl
      | recursion => exact absurd hvalue (value_ne_recursion n)
      | digits => exact Or.inr ⟨rfl, n, hmode, value_eq_digits.mp hvalue⟩
    · split_ifs at hend
      exact Or.inl (Except.error.inj hend).symm
  · exact Or.inl (Except.error.inj h).symm

/-- **`RecursionError`**: a level beyond the limit. -/
theorem loads_eq_recursion {text : String} : loads limit text = .error .recursion ↔ TooDeep limit text := by
  constructor
  · intro h
    rcases bind_eq_error.mp h with h | ⟨s, -, h⟩
    · obtain ⟨l, c, rest, s, hl, hs, hc⟩ := run_eq_error.mp h
      rcases step_eq_error hc with he | ⟨-, d, hd, hopen, hlimit⟩ | ⟨he, -⟩
      · cases he
      · exact ⟨l, c, rest, s, d, hl, hs, hd, hopen, hlimit⟩
      · cases he
    · rcases finish_eq_error h with he | ⟨he, -⟩
      · cases he
      · cases he
  · rintro ⟨l, c, rest, s, d, hl, hs, hd, hopen, hlimit⟩
    refine bind_eq_error.mpr (Or.inl (run_eq_error.mpr ⟨l, c, rest, s, hl, hs, step_tooDeep hd hopen hlimit⟩))

/-- **The `ValueError` of `int`**: an integer with too many digits. -/
theorem loads_eq_digits {text : String} : loads limit text = .error .digits ↔ TooLong limit text := by
  constructor
  · intro h
    rcases bind_eq_error.mp h with h | ⟨s, hs, h⟩
    · obtain ⟨l, c, rest, s, hl, hs, hc⟩ := run_eq_error.mp h
      rcases step_eq_error hc with he | ⟨he, -⟩ | ⟨-, n, hn, hint, hdigits, hnext⟩
      · cases he
      · cases he
      · exact ⟨l, c :: rest, s, n, hl, hs, hn, hint, hdigits, fun d hd => by cases hd; exact hnext⟩
    · rcases finish_eq_error h with he | ⟨-, n, hn, hint, hdigits⟩
      · cases he
      · exact ⟨text.toList, [], s, n, (List.append_nil _).symm, hs, hn, hint, hdigits, nofun⟩
  · rintro ⟨l, rest, s, n, hl, hs, hn, hint, hdigits, hnext⟩
    cases rest with
    | nil =>
      rw [List.append_nil] at hl
      refine bind_eq_error.mpr (Or.inr ⟨s, hl ▸ hs, ?_⟩)
      simp only [finish, hn, value_eq_digits.mpr ⟨hint, hdigits⟩]
      rfl
    | cons c rest =>
      have hstep := @step_tooLong limit s c n hn hint hdigits (hnext c rfl)
      exact bind_eq_error.mpr (Or.inl (run_eq_error.mpr ⟨l, c, rest, s, hl, hs, hstep⟩))

end Errors

end JsonRead

end AlphaAlgo
