import Mathlib.Data.BitVec
import AlphaAlgo.Lib.Json

/-!
# Values — identifiers, instants and texts shared by the services

`UUID` and `DateTime` carry what the services read of them: equality, their text (`str`, `isoformat`), whether an
instant is timezone-aware and the order of instants, all with fixed offsets from UTC.  `upper` and `blank` are the two
text operations the validators use.
-/

namespace AlphaAlgo

/-! ### Identifiers -/

/-- A 128-bit identifier. -/
structure UUID where
  bits : BitVec 128
deriving DecidableEq, Repr

/-- `str(uuid)`: 32 hexadecimal digits in groups of 8, 4, 4, 4 and 12. -/
def UUID.str (u : UUID) : String :=
  let hex := (List.range 32).map fun i => hexDigit (u.bits.toNat >>> (4 * (31 - i)))
  String.ofList (hex.take 8 ++ '-' :: (hex.drop 8).take 4 ++ '-' :: (hex.drop 12).take 4 ++
    '-' :: (hex.drop 16).take 4 ++ '-' :: hex.drop 20)

example : (UUID.mk 0x12345678abcd).str = "00000000-0000-0000-0000-12345678abcd" := by decide +kernel

/-- Two numbers with the same hexadecimal digits below `16 ^ n`. -/
theorem eq_of_hexDigits {n x y : ℕ} (hx : x < 2 ^ (4 * n)) (hy : y < 2 ^ (4 * n))
    (h : ∀ k < n, (x >>> (4 * k)) % 16 = (y >>> (4 * k)) % 16) : x = y := by
  apply Nat.eq_of_testBit_eq
  intro j
  by_cases hj : j < 4 * n
  · have hk := congrArg (fun m => m.testBit (j % 4)) (h (j / 4) (by omega))
    have h16 : (16 : ℕ) = 2 ^ 4 := rfl
    have hlt : j % 4 < 4 := Nat.mod_lt _ (by omega)
    have hsum : 4 * (j / 4) + j % 4 = j := Nat.div_add_mod j 4
    simp only [h16, Nat.testBit_mod_two_pow, hlt, decide_true, Bool.true_and, Nat.testBit_shiftRight, hsum] at hk
    exact hk
  · have hle : 2 ^ (4 * n) ≤ 2 ^ j := Nat.pow_le_pow_right (by omega) (by omega)
    rw [Nat.testBit_lt_two_pow (lt_of_lt_of_le hx hle), Nat.testBit_lt_two_pow (lt_of_lt_of_le hy hle)]

theorem hexDigit_ne_dash (d : ℕ) : hexDigit d ≠ '-' := by
  have key : ∀ a < 16, Nat.digitChar a ≠ '-' := by decide
  exact key _ (Nat.mod_lt _ (by omega))

/-- The 32 hexadecimal digits of an identifier. -/
def UUID.hex (u : UUID) : List Char := (List.range 32).map fun i => hexDigit (u.bits.toNat >>> (4 * (31 - i)))

/-- Without its dashes the text is the digits. -/
theorem UUID.filter_str (u : UUID) : u.str.toList.filter (· ≠ '-') = u.hex := by
  have h : ∀ l : List Char, (∀ c ∈ l, c ≠ '-') → l.filter (· ≠ '-') = l := by
    intro l hl
    exact List.filter_eq_self.mpr fun c hc => decide_eq_true (hl c hc)
  have hex : ∀ c ∈ u.hex, c ≠ '-' := by
    intro c hc
    obtain ⟨i, -, rfl⟩ := List.mem_map.mp hc
    exact hexDigit_ne_dash _
  have hs : u.str.toList = u.hex.take 8 ++ '-' :: (u.hex.drop 8).take 4 ++ '-' :: (u.hex.drop 12).take 4 ++
      '-' :: (u.hex.drop 16).take 4 ++ '-' :: u.hex.drop 20 := by
    rw [UUID.str, String.toList_ofList]; rfl
  have hsub : ∀ a b : ℕ, (((u.hex.drop a).take b).filter (· ≠ '-')) = (u.hex.drop a).take b := fun a b =>
    h _ fun c hc => hex c (List.mem_of_mem_drop (List.mem_of_mem_take hc))
  rw [hs]
  simp only [List.filter_append, List.filter_cons]
  rw [h _ fun c hc => hex c (List.mem_of_mem_take hc), hsub, hsub, hsub, h _ fun c hc => hex c (List.mem_of_mem_drop hc)]
  simp only [ne_eq, not_true_eq_false, decide_false, Bool.false_eq_true, if_false]
  have e : ∀ l : List Char, ∀ a b : ℕ, (l.drop a).take b ++ l.drop (a + b) = l.drop a := by
    intro l a b
    rw [← List.drop_drop, List.take_append_drop]
  rw [List.append_assoc, List.append_assoc, List.append_assoc, e _ 16 4, e _ 12 4, e _ 8 4, List.take_append_drop]

theorem UUID.str_inj {u v : UUID} (h : u.str = v.str) : u = v := by
  have hh : u.hex = v.hex := by rw [← u.filter_str, ← v.filter_str, h]
  have hd : ∀ i ∈ List.range 32, hexDigit (u.bits.toNat >>> (4 * (31 - i))) =
      hexDigit (v.bits.toNat >>> (4 * (31 - i))) := List.map_inj_left.mp hh
  have hb : u.bits.toNat = v.bits.toNat := by
    refine eq_of_hexDigits (n := 32) u.bits.isLt v.bits.isLt fun k hk => ?_
    have := hexDigit_inj (hd (31 - k) (List.mem_range.mpr (by omega)))
    rwa [show 31 - (31 - k) = k by omega] at this
  cases u; cases v
  rw [UUID.mk.injEq]
  exact BitVec.eq_of_toNat_eq hb

/-! ### Instants -/

/-- A `datetime`: wall-clock fields and the offset from UTC in microseconds (`none`: a naive value).  The offset is fixed.
Outside the model are zones whose offset changes: there `fold` tells apart the two instants of a repeated hour, and times
of one `tzinfo` compare and add by the wall clock. -/
structure DateTime where
  year : ℕ
  month : ℕ
  day : ℕ
  hour : ℕ
  minute : ℕ
  second : ℕ
  microsecond : ℕ
  utcoffset : Option ℤ
deriving DecidableEq, Repr

namespace DateTime

/-- The test of `_require_timezone`. -/
def aware (t : DateTime) : Bool := t.utcoffset.isSome

/-- A number padded with zeros to `w` digits. -/
def padded (w n : ℕ) : String := String.ofList (List.replicate (w - (toString n).length) '0') ++ toString n

/-- The offset as `isoformat` writes it: seconds and microseconds only when they are not zero. -/
def offsetText (o : ℤ) : String :=
  let a := o.natAbs
  let s := a / 1000000
  (if o < 0 then "-" else "+") ++ padded 2 (s / 3600) ++ ":" ++ padded 2 (s / 60 % 60) ++
    (if a % 60000000 = 0 then "" else ":" ++ padded 2 (s % 60)) ++
    (if a % 1000000 = 0 then "" else "." ++ padded 6 (a % 1000000))

/-- `t.isoformat()`. -/
def isoformat (t : DateTime) : String :=
  padded 4 t.year ++ "-" ++ padded 2 t.month ++ "-" ++ padded 2 t.day ++ "T" ++
    padded 2 t.hour ++ ":" ++ padded 2 t.minute ++ ":" ++ padded 2 t.second ++
    (if t.microsecond = 0 then "" else "." ++ padded 6 t.microsecond) ++
    (match t.utcoffset with
      | none => ""
      | some o => offsetText o)

example : isoformat ⟨2026, 8, 12, 9, 30, 0, 0, some 0⟩ = "2026-08-12T09:30:00+00:00" := by decide +kernel

def isLeap (year : ℕ) : Bool := year % 4 = 0 && (year % 100 ≠ 0 || year % 400 = 0)

/-- The days of the year before its month `m`. -/
def daysBeforeMonth (year m : ℕ) : ℕ :=
  (([31, if isLeap year then 29 else 28, 31, 30, 31, 30, 31, 31, 30, 31, 30, 31] : List ℕ).take (m - 1)).sum

/-- The days since the first of January of year 1. -/
def ordinal (t : DateTime) : ℕ :=
  let y := t.year - 1
  y * 365 + y / 4 - y / 100 + y / 400 + daysBeforeMonth t.year t.month + t.day

/-- The wall-clock fields in microseconds. -/
def wallClock (t : DateTime) : ℤ :=
  (((t.ordinal * 24 + t.hour) * 60 + t.minute) * 60 + t.second : ℕ) * 1000000 + t.microsecond

/-- `t <= u`; a naive and an aware value do not compare (`TypeError`). -/
def le? (t u : DateTime) : Option Bool :=
  match t.utcoffset, u.utcoffset with
  | none, none => some (t.wallClock ≤ u.wallClock)
  | some a, some b => some (t.wallClock - a ≤ u.wallClock - b)
  | _, _ => none

/-- `t - u` in microseconds; a naive and an aware value have no difference (`TypeError`). -/
def sub? (t u : DateTime) : Option ℤ :=
  match t.utcoffset, u.utcoffset with
  | none, none => some (t.wallClock - u.wallClock)
  | some a, some b => some (t.wallClock - a - (u.wallClock - b))
  | _, _ => none

/-- The year, the month and the day with a given number of days since the first of January of year 1. -/
def ofOrdinal (n : ℕ) : ℕ × ℕ × ℕ :=
  let n400 := (n - 1) / 146097
  let r400 := (n - 1) % 146097
  let n100 := r400 / 36524
  let r100 := r400 % 36524
  let n4 := r100 / 1461
  let r4 := r100 % 1461
  let n1 := r4 / 365
  let r1 := r4 % 365
  let year := n400 * 400 + 1 + n100 * 100 + n4 * 4 + n1
  if n1 = 4 ∨ n100 = 4 then (year - 1, 12, 31)
  else
    let month := ((List.range 12).filter fun i => daysBeforeMonth year (i + 1) ≤ r1).length
    (year, month, r1 - daysBeforeMonth year month + 1)

/-- `t + timedelta(microseconds=d)`; a sum out of the years 1 to 9999 is refused (`OverflowError`). -/
def add? (t : DateTime) (d : ℤ) : Option DateTime :=
  let total := t.wallClock + d
  let days := total / 86400000000
  let rest := (total % 86400000000).toNat
  if 1 ≤ days ∧ days ≤ 3652059 then
    let (year, month, day) := ofOrdinal days.toNat
    some ⟨year, month, day, rest / 3600000000, rest / 60000000 % 60, rest / 1000000 % 60, rest % 1000000, t.utcoffset⟩
  else none

example : add? ⟨2024, 2, 28, 23, 59, 59, 999999, some 0⟩ 1 = some ⟨2024, 2, 29, 0, 0, 0, 0, some 0⟩ ∧
    add? ⟨2000, 12, 31, 23, 59, 40, 5, none⟩ 30000000 = some ⟨2001, 1, 1, 0, 0, 10, 5, none⟩ ∧
    add? ⟨1, 1, 1, 0, 0, 0, 0, none⟩ (-1) = none := by decide

example : le? ⟨2024, 2, 29, 23, 59, 59, 999999, some 0⟩ ⟨2024, 3, 1, 1, 0, 0, 0, some 3600000000⟩ = some true := by
  decide

end DateTime

/-! ### Texts -/

/-- The characters `str.strip` removes. -/
def isSpace (c : Char) : Bool :=
  let n := c.toNat
  (9 ≤ n && n ≤ 13) || (28 ≤ n && n ≤ 32) || n == 0x85 || n == 0xa0 || n == 0x1680 ||
    (0x2000 ≤ n && n ≤ 0x200a) || n == 0x2028 || n == 0x2029 || n == 0x202f || n == 0x205f || n == 0x3000

/-- `not s.strip()`. -/
def blank (s : String) : Bool := s.toList.all isSpace

/-- Upper case of one character.  Outside ASCII only the characters whose upper case is ASCII are listed; every
other character is left as it is. -/
def upperChar (c : Char) : List Char :=
  match c.toNat with
  | 0xdf => ['S', 'S']
  | 0x131 => ['I']
  | 0x17f => ['S']
  | 0xfb00 => ['F', 'F']
  | 0xfb01 => ['F', 'I']
  | 0xfb02 => ['F', 'L']
  | 0xfb03 => ['F', 'F', 'I']
  | 0xfb04 => ['F', 'F', 'L']
  | 0xfb05 => ['S', 'T']
  | 0xfb06 => ['S', 'T']
  | _ => [c.toUpper]

/-- `s.upper()`. -/
def upper (s : String) : String := String.ofList (s.toList.flatMap upperChar)

theorem upperChar_toUpper {c : Char} (h : upperChar c = [c.toUpper]) : upperChar c.toUpper = [c.toUpper] := by
  by_cases hl : c.toNat ≤ 122
  · have key : ∀ n ≤ 122, upperChar (Char.ofNat n).toUpper = [(Char.ofNat n).toUpper] := by decide
    have := key c.toNat hl
    rwa [Char.ofNat_toNat] at this
  · have hu : c.toUpper = c := by
      unfold Char.toUpper
      rw [dif_neg]
      intro hc
      have := hc.2
      rw [UInt32.le_iff_toNat_le] at this
      exact hl this
    rw [hu] at h ⊢
    exact h

/-- What the upper case of a character consists of is in upper case. -/
theorem upperChar_mem {c d : Char} (h : d ∈ upperChar c) : upperChar d = [d] := by
  have hcases : upperChar c = [c.toUpper] ∨ ∀ e ∈ upperChar c, e ∈ ['S', 'I', 'F', 'L', 'T'] := by
    unfold upperChar
    split
    all_goals first
      | exact Or.inl rfl
      | exact Or.inr (by simp)
  have hkept : ∀ e ∈ ['S', 'I', 'F', 'L', 'T'], upperChar e = [e] := by
    intro e he
    simp only [List.mem_cons, List.not_mem_nil, or_false] at he
    rcases he with rfl | rfl | rfl | rfl | rfl <;> decide
  rcases hcases with hu | hs
  · rw [hu, List.mem_singleton] at h
    rw [h]
    exact upperChar_toUpper hu
  · exact hkept d (hs d h)

theorem upper_upper (s : String) : upper (upper s) = upper s := by
  unfold upper
  rw [String.toList_ofList]
  congr 1
  have h : ∀ l : List Char, (∀ d ∈ l, upperChar d = [d]) → l.flatMap upperChar = l := by
    intro l hl
    induction l with
    | nil => rfl
    | cons d l ih =>
      rw [List.flatMap_cons, hl d List.mem_cons_self, ih fun e he => hl e (List.mem_cons_of_mem _ he)]
      rfl
  refine h _ fun d hd => ?_
  obtain ⟨c, -, hc⟩ := List.mem_flatMap.mp hd
  exact upperChar_mem hc

/-- `s or t` for strings that may be absent: an empty string counts as absent. -/
def orElse (s t : Option String) : Option String :=
  match s with
  | some x => if x = "" then t else some x
  | none => t

/-- A value of a metadata dictionary: the scalars that a JSON column stores. -/
inductive Scalar where
  | none
  | bool (b : Bool)
  | int (n : ℤ)
  | str (s : String)
deriving DecidableEq, Repr

/-- `bool(v)`. -/
def Scalar.truthy : Scalar → Bool
  | .none => false
  | .bool b => b
  | .int n => n != 0
  | .str s => s != ""

/-- `str(v)`, as a formatted string shows it. -/
def Scalar.text : Scalar → String
  | .none => "None"
  | .bool b => if b then "True" else "False"
  | .int n => toString n
  | .str s => s

/-! ### Trading modes -/

/-- The modes the engines accept. -/
def allowedModes : List String := ["BACKTEST", "PAPER"]

end AlphaAlgo
