import Mathlib.Data.Nat.Bitwise
import Mathlib.Tactic

/-!
# Json — the text of `json.dumps`

`Json.dumps sep j` writes a JSON value as Python's `json.dumps` does with `ensure_ascii` (the default): the
separators between items and after keys are the caller's, object fields stand in the order of the list, and every
character outside the printable ASCII range is escaped.

Quoted text is uniquely readable (`quote_append_inj`): a quoted string followed by anything determines the string
and the rest.  So the text of an object with fixed keys and string (or null) values determines these values.
-/

namespace AlphaAlgo

/-! ### Escaped characters -/

/-- A lower-case hexadecimal digit. -/
def hexDigit (d : ℕ) : Char := Nat.digitChar (d % 16)

/-- Four hexadecimal digits. -/
def hex4 (n : ℕ) : List Char := [hexDigit (n / 4096), hexDigit (n / 256), hexDigit (n / 16), hexDigit n]

/-- Characters written as they are: printable ASCII, without the quote and the backslash. -/
def Char.plain (c : Char) : Bool := ' ' ≤ c && c ≤ '~' && c != '"' && c != '\\'

/-- The two-character escapes. -/
def shortEscape : Char → Option Char
  | '"' => some '"'
  | '\\' => some '\\'
  | '\n' => some 'n'
  | '\r' => some 'r'
  | '\t' => some 't'
  | '\x08' => some 'b'
  | '\x0c' => some 'f'
  | _ => none

/-- A character above the basic plane, less `0x10000`, is split in ten high and ten low bits. -/
def highSurrogate (n : ℕ) : ℕ := 0xd800 + (n - 0x10000) / 1024

def lowSurrogate (n : ℕ) : ℕ := 0xdc00 + (n - 0x10000) % 1024

def escapeChar (c : Char) : List Char :=
  if Char.plain c then [c]
  else match shortEscape c with
    | some x => ['\\', x]
    | none =>
      if c.toNat < 0x10000 then '\\' :: 'u' :: hex4 c.toNat
      else '\\' :: 'u' :: hex4 (highSurrogate c.toNat) ++ '\\' :: 'u' :: hex4 (lowSurrogate c.toNat)

/-- A string between quotes. -/
def quote (s : String) : List Char := '"' :: s.toList.flatMap escapeChar ++ ['"']

theorem hexDigit_inj {d d' : ℕ} (h : hexDigit d = hexDigit d') : d % 16 = d' % 16 := by
  have key : ∀ a < 16, ∀ b < 16, Nat.digitChar a = Nat.digitChar b → a = b := by decide
  exact key _ (Nat.mod_lt _ (by omega)) _ (Nat.mod_lt _ (by omega)) h

theorem hex4_append_inj {n n' : ℕ} {r r' : List Char} (hn : n < 65536) (hn' : n' < 65536)
    (h : hex4 n ++ r = hex4 n' ++ r') : n = n' ∧ r = r' := by
  simp only [hex4, List.cons_append, List.nil_append, List.cons.injEq] at h
  obtain ⟨h1, h2, h3, h4, h5⟩ := h
  have e1 := hexDigit_inj h1
  have e2 := hexDigit_inj h2
  have e3 := hexDigit_inj h3
  have e4 := hexDigit_inj h4
  exact ⟨by omega, h5⟩

theorem shortEscape_inj {c c' x : Char} (h : shortEscape c = some x) (h' : shortEscape c' = some x) :
    c = c' := by
  unfold shortEscape at h h'
  split at h <;> cases h <;> split at h' <;> simp_all

theorem shortEscape_ne_u {c x : Char} (h : shortEscape c = some x) : x ≠ 'u' := by
  unfold shortEscape at h
  split at h <;> cases h <;> decide

/-- Code points of characters are not surrogates. -/
theorem toNat_ne_surrogate (c : Char) : c.toNat < 0xd800 ∨ 0xdfff < c.toNat := by
  rcases c.valid with h | h
  · exact Or.inl h
  · exact Or.inr h.1

theorem toNat_lt_max (c : Char) : c.toNat < 0x110000 := by
  rcases c.valid with h | h
  · exact h.trans (by norm_num)
  · exact h.2

/-- How a character is escaped. -/
theorem escapeChar_cases (c : Char) :
    (escapeChar c = [c] ∧ c ≠ '\\' ∧ c ≠ '"') ∨
    (∃ x, shortEscape c = some x ∧ escapeChar c = ['\\', x]) ∨
    (c.toNat < 0x10000 ∧ escapeChar c = '\\' :: 'u' :: hex4 c.toNat) ∨
    (0x10000 ≤ c.toNat ∧ escapeChar c =
      '\\' :: 'u' :: (hex4 (highSurrogate c.toNat) ++ '\\' :: 'u' :: hex4 (lowSurrogate c.toNat))) := by
  unfold escapeChar
  by_cases hp : Char.plain c = true
  · rw [if_pos hp]
    simp only [Char.plain, Bool.and_eq_true, bne_iff_ne] at hp
    exact Or.inl ⟨rfl, hp.2, hp.1.2⟩
  · rw [if_neg hp]
    cases hs : shortEscape c with
    | some x => exact Or.inr (Or.inl ⟨x, rfl, rfl⟩)
    | none =>
      by_cases hn : c.toNat < 0x10000
      · exact Or.inr (Or.inr (Or.inl ⟨hn, by simp [hn]⟩))
      · exact Or.inr (Or.inr (Or.inr ⟨by omega, by simp [hn]⟩))

theorem char_eq_of_toNat {c c' : Char} (h : c.toNat = c'.toNat) : c = c' :=
  Char.ext (UInt32.toNat_inj.mp h)

/-- Escaped characters are uniquely readable. -/
theorem escapeChar_append_inj {c c' : Char} {r r' : List Char}
    (h : escapeChar c ++ r = escapeChar c' ++ r') : c = c' ∧ r = r' := by
  have hm := toNat_lt_max c
  have hm' := toNat_lt_max c'
  rcases escapeChar_cases c with ⟨e, hb, -⟩ | ⟨x, hx, e⟩ | ⟨hn, e⟩ | ⟨hn, e⟩ <;>
  rcases escapeChar_cases c' with ⟨e', hb', -⟩ | ⟨x', hx', e'⟩ | ⟨hn', e'⟩ | ⟨hn', e'⟩ <;>
  rw [e, e'] at h <;>
  simp only [List.cons_append, List.nil_append, List.append_assoc, List.cons.injEq, true_and] at h
  · exact h
  · exact absurd h.1 hb
  · exact absurd h.1 hb
  · exact absurd h.1 hb
  · exact absurd h.1.symm hb'
  · obtain ⟨rfl, hr⟩ := h
    exact ⟨shortEscape_inj hx hx', hr⟩
  · exact absurd h.1 (shortEscape_ne_u hx)
  · exact absurd h.1 (shortEscape_ne_u hx)
  · exact absurd h.1.symm hb'
  · exact absurd h.1.symm (shortEscape_ne_u hx')
  · obtain ⟨hc, hr⟩ := hex4_append_inj hn hn' h
    exact ⟨char_eq_of_toNat hc, hr⟩
  · -- a code point of the basic plane is no surrogate
    obtain ⟨hc, -⟩ := hex4_append_inj hn (by unfold highSurrogate; omega) h
    have := toNat_ne_surrogate c
    unfold highSurrogate at hc
    omega
  · exact absurd h.1.symm hb'
  · exact absurd h.1.symm (shortEscape_ne_u hx')
  · obtain ⟨hc, -⟩ := hex4_append_inj (by unfold highSurrogate; omega) hn' h
    have := toNat_ne_surrogate c'
    unfold highSurrogate at hc
    omega
  · obtain ⟨hc, h2⟩ := hex4_append_inj (by unfold highSurrogate; omega) (by unfold highSurrogate; omega) h
    simp only [List.cons.injEq, true_and] at h2
    obtain ⟨hl, hr⟩ := hex4_append_inj (by unfold lowSurrogate; omega) (by unfold lowSurrogate; omega) h2
    unfold highSurrogate at hc
    unfold lowSurrogate at hl
    exact ⟨char_eq_of_toNat (by omega), hr⟩

theorem escapeChar_ne_quote (c : Char) {r r' : List Char} : escapeChar c ++ r ≠ '"' :: r' := by
  intro h
  rcases escapeChar_cases c with ⟨e, -, hq⟩ | ⟨x, -, e⟩ | ⟨-, e⟩ | ⟨-, e⟩ <;>
  rw [e] at h <;> simp at h
  exact hq h.1

theorem escape_append_inj : ∀ (s s' : List Char) {r r' : List Char},
    s.flatMap escapeChar ++ '"' :: r = s'.flatMap escapeChar ++ '"' :: r' → s = s' ∧ r = r'
  | [], [], _, _, h => by simpa using h
  | [], c :: s, _, _, h => by
    simp only [List.flatMap_nil, List.nil_append, List.flatMap_cons, List.append_assoc] at h
    exact absurd h.symm (escapeChar_ne_quote c)
  | c :: s, [], _, _, h => by
    simp only [List.flatMap_nil, List.nil_append, List.flatMap_cons, List.append_assoc] at h
    exact absurd h (escapeChar_ne_quote c)
  | c :: s, c' :: s', _, _, h => by
    simp only [List.flatMap_cons, List.append_assoc] at h
    obtain ⟨rfl, h2⟩ := escapeChar_append_inj h
    obtain ⟨rfl, h3⟩ := escape_append_inj s s' h2
    exact ⟨rfl, h3⟩

/-- **Quoted text is uniquely readable.** -/
theorem quote_append_inj {s s' : String} {r r' : List Char} (h : quote s ++ r = quote s' ++ r') :
    s = s' ∧ r = r' := by
  simp only [quote, List.cons_append, List.append_assoc, List.cons.injEq, true_and, List.nil_append] at h
  obtain ⟨hs, hr⟩ := escape_append_inj _ _ h
  exact ⟨String.toList_inj.mp hs, hr⟩

/-! ### Values -/

/-- JSON values without fractions. -/
inductive Json where
  | null
  | bool (b : Bool)
  | int (n : ℤ)
  | str (s : String)
  | arr (l : List Json)
  | obj (l : List (String × Json))

/-- The separators of `json.dumps`: between items, and after a key. -/
structure Separators where
  item : String
  key : String

/-- The default separators. -/
def Separators.default : Separators := ⟨", ", ": "⟩

/-- `separators=(",", ":")`. -/
def Separators.compact : Separators := ⟨",", ":"⟩

mutual

def Json.chars (sep : Separators) : Json → List Char
  | .null => "null".toList
  | .bool b => (if b then "true" else "false").toList
  | .int n => (toString n).toList
  | .str s => quote s
  | .arr l => '[' :: Json.items sep true l ++ [']']
  | .obj l => '\x7b' :: Json.fields sep true l ++ ['\x7d']

def Json.items (sep : Separators) : Bool → List Json → List Char
  | _, [] => []
  | first, j :: l => (if first then [] else sep.item.toList) ++ Json.chars sep j ++ Json.items sep false l

def Json.fields (sep : Separators) : Bool → List (String × Json) → List Char
  | _, [] => []
  | first, (k, j) :: l => (if first then [] else sep.item.toList) ++ quote k ++ sep.key.toList ++
      Json.chars sep j ++ Json.fields sep false l

end

mutual

/-- The value with the fields of every object in the order of their keys, as `sort_keys=True` writes it. -/
def Json.sortKeys : Json → Json
  | .arr l => .arr (sortItems l)
  | .obj l => .obj ((sortFields l).insertionSort fun e e' => e.1 ≤ e'.1)
  | j => j

def Json.sortItems : List Json → List Json
  | [] => []
  | j :: l => j.sortKeys :: sortItems l

def Json.sortFields : List (String × Json) → List (String × Json)
  | [] => []
  | (k, j) :: l => (k, j.sortKeys) :: sortFields l

end

/-- `json.dumps(j, separators=sep)`. -/
def Json.dumps (sep : Separators) (j : Json) : String := String.ofList (j.chars sep)

/-- A string or `None`. -/
def Json.ofOption : Option String → Json
  | none => .null
  | some s => .str s

theorem str_append_inj (sep : Separators) {s s' : String} {r r' : List Char}
    (h : (Json.str s).chars sep ++ r = (Json.str s').chars sep ++ r') : s = s' ∧ r = r' :=
  quote_append_inj (by simpa only [Json.chars] using h)

theorem ofOption_append_inj (sep : Separators) {o o' : Option String} {r r' : List Char}
    (h : (Json.ofOption o).chars sep ++ r = (Json.ofOption o').chars sep ++ r') : o = o' ∧ r = r' := by
  have hnull : "null".toList = ['n', 'u', 'l', 'l'] := by decide
  cases o with
  | none =>
    cases o' with
    | none => exact ⟨rfl, List.append_cancel_left h⟩
    | some s' => simp [Json.ofOption, Json.chars, quote, hnull] at h
  | some s =>
    cases o' with
    | none => simp [Json.ofOption, Json.chars, quote, hnull] at h
    | some s' =>
      obtain ⟨rfl, hr⟩ := str_append_inj sep h
      exact ⟨rfl, hr⟩

/-! ### Written integers -/

theorem repr_inj {m n : ℕ} (h : Nat.repr m = Nat.repr n) : m = n := by
  have hd : Nat.toDigits 10 m = Nat.toDigits 10 n := String.ofList_inj.mp h
  rw [← Nat.ofDigitChars_toDigits (b := 10) (n := m) (by omega) (by omega), hd,
    Nat.ofDigitChars_toDigits (by omega) (by omega)]

theorem isDigit_of_mem_repr {n : ℕ} {c : Char} (h : c ∈ (Nat.repr n).toList) : c.isDigit = true := by
  have hc : c ∈ Nat.toDigits 10 n := by simpa [Nat.repr] using h
  exact Nat.isDigit_of_mem_toDigits (by omega) (by omega) hc

/-- A written integer is digits after an optional minus sign. -/
theorem toString_int (n : ℤ) : (∃ m : ℕ, n = m ∧ (toString n).toList = (Nat.repr m).toList) ∨
    (∃ m : ℕ, n = -(m : ℤ) - 1 ∧ (toString n).toList = '-' :: (Nat.repr (m + 1)).toList) := by
  cases n with
  | ofNat m => exact Or.inl ⟨m, rfl, rfl⟩
  | negSucc m => exact Or.inr ⟨m, by omega, by show ("-" ++ Nat.repr (m + 1)).toList = _; simp⟩

theorem comma_notMem_toString (n : ℤ) : ',' ∉ (toString n).toList := by
  intro h
  rcases toString_int n with ⟨m, -, e⟩ | ⟨m, -, e⟩ <;> rw [e] at h
  · exact absurd (isDigit_of_mem_repr h) (by decide)
  · rcases List.mem_cons.mp h with h | h
    · exact absurd h (by decide)
    · exact absurd (isDigit_of_mem_repr h) (by decide)

theorem toString_int_inj {n n' : ℤ} (h : (toString n).toList = (toString n').toList) : n = n' := by
  have hdash : ∀ (k : ℕ) (l : List Char), (Nat.repr k).toList ≠ '-' :: l := by
    intro k l hk
    have : '-' ∈ (Nat.repr k).toList := by rw [hk]; exact List.mem_cons_self
    exact absurd (isDigit_of_mem_repr this) (by decide)
  rcases toString_int n with ⟨m, hm, e⟩ | ⟨m, hm, e⟩ <;>
  rcases toString_int n' with ⟨m', hm', e'⟩ | ⟨m', hm', e'⟩ <;> rw [e, e'] at h
  · have := repr_inj (String.toList_inj.mp h)
    omega
  · exact absurd h (hdash _ _)
  · exact absurd h.symm (hdash _ _)
  · have := repr_inj (String.toList_inj.mp (List.cons.inj h).2)
    omega

/-- Text up to a character that does not occur in it is uniquely readable. -/
theorem append_cons_inj {c : Char} : ∀ {a b r r' : List Char}, c ∉ a → c ∉ b → a ++ c :: r = b ++ c :: r' →
    a = b ∧ r = r'
  | [], [], _, _, _, _, h => by simpa using h
  | [], d :: b, _, _, _, hb, h => by
    simp only [List.nil_append, List.cons_append, List.cons.injEq] at h
    exact absurd (h.1 ▸ List.mem_cons_self) hb
  | d :: a, [], _, _, ha, _, h => by
    simp only [List.nil_append, List.cons_append, List.cons.injEq] at h
    exact absurd (h.1 ▸ List.mem_cons_self) ha
  | d :: a, d' :: b, _, _, ha, hb, h => by
    simp only [List.cons_append, List.cons.injEq] at h
    obtain ⟨rfl, h⟩ := h
    obtain ⟨rfl, hr⟩ := append_cons_inj (fun m => ha (List.mem_cons_of_mem _ m)) (fun m => hb (List.mem_cons_of_mem _ m)) h
    exact ⟨rfl, hr⟩

/-- An integer before a compact separator is uniquely readable. -/
theorem int_append_inj {n n' : ℤ} {r r' : List Char}
    (h : (toString n).toList ++ (Separators.compact.item.toList ++ r) =
      (toString n').toList ++ (Separators.compact.item.toList ++ r')) : n = n' ∧ r = r' := by
  have hc : Separators.compact.item.toList = [','] := by decide
  rw [hc] at h
  obtain ⟨h1, h2⟩ := append_cons_inj (comma_notMem_toString n) (comma_notMem_toString n') h
  exact ⟨toString_int_inj h1, h2⟩

end AlphaAlgo
