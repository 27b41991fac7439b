import AlphaAlgo.Lib.JsonRead

/-!
# JsonBytes — `json.loads` of bytes

`json.loads` takes the encoding of bytes from the mark at their start, or from the zeros among the first four of them.  The
decoders let surrogates pass; one that stands alone is no character here either.

* `decodeBytes_ascii`: bytes of ASCII without zeros are their text.
* `ascii_chars`: `dumps` writes ASCII.
* `loadsBytes_written`: `loads` of the bytes that `dumps` wrote.
-/

namespace AlphaAlgo.JsonRead

/-! ### Encodings -/

inductive Encoding where
  | utf8
  | utf16 (big : Bool)
  | utf32 (big : Bool)

/-- The encoding of bytes without a mark. -/
def guessEncoding : List ℕ → Encoding
  | a :: b :: c :: d :: _ =>
    if a = 0 then if b = 0 then .utf32 true else .utf16 true
    else if b = 0 then if c = 0 ∧ d = 0 then .utf32 false else .utf16 false
    else .utf8
  | [a, b] => if a = 0 then .utf16 true else if b = 0 then .utf16 false else .utf8
  | _ => .utf8

/-- `json.detect_encoding`, with the bytes after the mark. -/
def detectEncoding : List ℕ → Encoding × List ℕ
  | 0x00 :: 0x00 :: 0xfe :: 0xff :: l => (.utf32 true, l)
  | 0xff :: 0xfe :: 0x00 :: 0x00 :: l => (.utf32 false, l)
  | 0xfe :: 0xff :: l => (.utf16 true, l)
  | 0xff :: 0xfe :: l => (.utf16 false, l)
  | 0xef :: 0xbb :: 0xbf :: l => (.utf8, l)
  | l => (guessEncoding l, l)

/-- How many bytes of a sequence are still to come, the range of the next of them, and the bits so far. -/
structure Sequence where
  left : ℕ
  low : ℕ
  high : ℕ
  code : ℕ

/-- Between sequences. -/
def Sequence.none : Sequence := ⟨0, 0x80, 0xbf, 0⟩

/-- What the first byte of a sequence announces; the surrogates are among the codes. -/
def leading (a : ℕ) : Option Sequence :=
  if 0xc2 ≤ a ∧ a ≤ 0xdf then some ⟨1, 0x80, 0xbf, a - 0xc0⟩
  else if a = 0xe0 then some ⟨2, 0xa0, 0xbf, 0⟩
  else if 0xe1 ≤ a ∧ a ≤ 0xef then some ⟨2, 0x80, 0xbf, a - 0xe0⟩
  else if a = 0xf0 then some ⟨3, 0x90, 0xbf, 0⟩
  else if 0xf1 ≤ a ∧ a ≤ 0xf3 then some ⟨3, 0x80, 0xbf, a - 0xf0⟩
  else if a = 0xf4 then some ⟨3, 0x80, 0x8f, 4⟩
  else Option.none

/-- The codes of UTF-8. -/
def utf8Codes : Sequence → List ℕ → Option (List ℕ)
  | s, [] => if s.left = 0 then some [] else none
  | s, b :: l =>
    if s.left = 0 then
      if b < 0x80 then (utf8Codes s l).map fun codes => b :: codes
      else (leading b).bind fun s' => utf8Codes s' l
    else if s.low ≤ b ∧ b ≤ s.high then
      let code := s.code * 64 + (b - 0x80)
      if s.left = 1 then (utf8Codes .none l).map fun codes => code :: codes
      else utf8Codes ⟨s.left - 1, 0x80, 0xbf, code⟩ l
    else none

/-- The units of UTF-16. -/
def utf16Units (big : Bool) : List ℕ → Option (List ℕ)
  | [] => some []
  | [_] => none
  | a :: b :: l => (utf16Units big l).map fun units => (if big then a * 256 + b else b * 256 + a) :: units

/-- The codes of UTF-32. -/
def utf32Codes (big : Bool) : List ℕ → Option (List ℕ)
  | [] => some []
  | a :: b :: c :: d :: l =>
    let code := if big then ((a * 256 + b) * 256 + c) * 256 + d else ((d * 256 + c) * 256 + b) * 256 + a
    if code < 0x110000 then (utf32Codes big l).map fun codes => code :: codes else none
  | _ => none

/-- `b.decode(detect_encoding(b), "surrogatepass")`; `none` is a `UnicodeDecodeError`. -/
def decodeBytes (b : List ℕ) : Option String :=
  match detectEncoding b with
  | (.utf8, l) => (utf8Codes .none l).map fun codes => String.ofList (codes.map toChar)
  | (.utf16 big, l) => (utf16Units big l).map fun units => String.ofList (decodeUnits units)
  | (.utf32 big, l) => (utf32Codes big l).map fun codes => String.ofList (codes.map toChar)

/-- `json.loads` of bytes; a `UnicodeDecodeError` is a `ValueError`, as a `JSONDecodeError` is. -/
def loadsBytes (limit : ℕ) (b : List ℕ) : Except LoadsError JsonValue :=
  match decodeBytes b with
  | some text => loads limit text
  | none => .error .decode

example : decodeBytes [0xe2, 0x82, 0xac, 0xf0, 0x9f, 0x98, 0x80] = some "€😀" ∧ decodeBytes [0xc0, 0x80] = none ∧
    decodeBytes [0xff, 0xfe, 0x7b, 0x00, 0x7d, 0x00] = some "\x7b\x7d" := by
  decide +kernel

/-! ### ASCII -/

/-- ASCII without zeros. -/
def Plain (s : List Char) : Prop := ∀ c ∈ s, 0 < c.toNat ∧ c.toNat < 128

theorem plain_nil : Plain [] := fun _ hc => absurd hc List.not_mem_nil

theorem plain_cons {c : Char} {s : List Char} : Plain (c :: s) ↔ (0 < c.toNat ∧ c.toNat < 128) ∧ Plain s :=
  List.forall_mem_cons

theorem plain_append {s t : List Char} : Plain (s ++ t) ↔ Plain s ∧ Plain t := List.forall_mem_append

theorem utf8Codes_ascii : ∀ {l : List ℕ}, (∀ b ∈ l, b < 128) → utf8Codes .none l = some l
  | [], _ => rfl
  | a :: l, h => by
    have ha := h a List.mem_cons_self
    rw [utf8Codes, if_pos (show Sequence.none.left = 0 from rfl), if_pos ha,
      utf8Codes_ascii fun b hb => h b (List.mem_cons_of_mem a hb)]
    rfl

theorem detectEncoding_ascii {l : List ℕ} (h : ∀ b ∈ l, 0 < b ∧ b < 128) : detectEncoding l = (.utf8, l) := by
  have hguess : guessEncoding l = .utf8 := by
    unfold guessEncoding
    split
    · next a b c d l =>
      have ha := h a (by simp)
      have hb := h b (by simp)
      rw [if_neg (by omega), if_neg (by omega)]
    · next a b =>
      have ha := h a (by simp)
      have hb := h b (by simp)
      rw [if_neg (by omega), if_neg (by omega)]
    · rfl
  unfold detectEncoding
  split
  · exact absurd (h 0 (by simp)).1 (by omega)
  · exact absurd (h 255 (by simp)).2 (by omega)
  · exact absurd (h 254 (by simp)).2 (by omega)
  · exact absurd (h 255 (by simp)).2 (by omega)
  · exact absurd (h 239 (by simp)).2 (by omega)
  · rw [hguess]

/-- **Bytes of ASCII** are their text. -/
theorem decodeBytes_ascii {s : List Char} (h : Plain s) : decodeBytes (s.map Char.toNat) = some (String.ofList s) := by
  have hbytes : ∀ b ∈ s.map Char.toNat, 0 < b ∧ b < 128 := by
    intro b hb
    obtain ⟨c, hc, rfl⟩ := List.mem_map.mp hb
    exact h c hc
  have hchars : (s.map Char.toNat).map toChar = s := by
    rw [List.map_map]
    exact (List.map_congr_left fun c _ => toChar_toNat c).trans (List.map_id' s)
  unfold decodeBytes
  rw [detectEncoding_ascii hbytes]
  simp only [utf8Codes_ascii fun b hb => (hbytes b hb).2, Option.map_some, hchars]

/-! ### Written values -/

theorem plain_hexDigit (n : ℕ) : 0 < (hexDigit n).toNat ∧ (hexDigit n).toNat < 128 := by
  have hall : ∀ d < 16, 0 < (Nat.digitChar d).toNat ∧ (Nat.digitChar d).toNat < 128 := by decide
  exact hall _ (Nat.mod_lt n (by omega))

theorem plain_escape (c : Char) : Plain (escapeChar c) := by
  have hunicode : ∀ n : ℕ, Plain ('\\' :: 'u' :: hex4 n) := by
    intro n
    rw [plain_cons, plain_cons]
    refine ⟨by decide, by decide, ?_⟩
    simp only [hex4, plain_cons]
    exact ⟨plain_hexDigit _, plain_hexDigit _, plain_hexDigit _, plain_hexDigit _, plain_nil⟩
  unfold escapeChar
  by_cases hp : Char.plain c = true
  · rw [if_pos hp]
    simp only [Char.plain, Bool.and_eq_true, decide_eq_true_eq] at hp
    have hlow : ' '.toNat ≤ c.toNat := hp.1.1.1
    have hhigh : c.toNat ≤ '~'.toNat := hp.1.1.2
    have hspace : ' '.toNat = 32 := rfl
    have htilde : '~'.toNat = 126 := rfl
    exact plain_cons.mpr ⟨by omega, plain_nil⟩
  · rw [if_neg hp]
    cases hs : shortEscape c with
    | some x =>
      have hx : 0 < x.toNat ∧ x.toNat < 128 := by
        unfold shortEscape at hs
        split at hs <;> cases hs <;> decide
      exact plain_cons.mpr ⟨by decide, plain_cons.mpr ⟨hx, plain_nil⟩⟩
    | none =>
      dsimp only
      split_ifs
      · exact hunicode _
      · exact plain_append.mpr ⟨hunicode _, hunicode _⟩

theorem plain_quote (s : String) : Plain (quote s) := by
  have hbody : Plain (s.toList.flatMap escapeChar) := by
    intro d hd
    obtain ⟨c, -, hc⟩ := List.mem_flatMap.mp hd
    exact plain_escape c d hc
  exact plain_append.mpr ⟨plain_cons.mpr ⟨by decide, hbody⟩, plain_cons.mpr ⟨by decide, plain_nil⟩⟩

theorem plain_int (n : ℤ) : Plain (toString n).toList := by
  have hdigits : ∀ m : ℕ, Plain (Nat.repr m).toList := by
    intro m c hc
    have hdigit := isDigit_of_mem_repr hc
    simp only [Char.isDigit, Bool.and_eq_true, decide_eq_true_eq, ge_iff_le, UInt32.le_iff_toNat_le] at hdigit
    have hlow : 48 ≤ c.toNat := hdigit.1
    have hhigh : c.toNat ≤ 57 := hdigit.2
    omega
  rcases toString_int n with ⟨m, -, htext⟩ | ⟨m, -, htext⟩
  · rw [htext]
    exact hdigits m
  · rw [htext]
    exact plain_cons.mpr ⟨by decide, hdigits _⟩

/-- The separators are ASCII. -/
structure PlainSeparators (sep : Separators) : Prop where
  item : Plain sep.item.toList
  key : Plain sep.key.toList

section Written

variable {sep : Separators}

mutual

/-- **`dumps` writes ASCII.** -/
theorem plain_chars (hsep : PlainSeparators sep) : ∀ j : Json, Plain (j.chars sep)
  | .null => by rw [Json.chars]; simp [Plain]
  | .bool true => by rw [Json.chars]; simp [Plain]
  | .bool false => by rw [Json.chars]; simp [Plain]
  | .int n => plain_int n
  | .str s => plain_quote s
  | .arr l => plain_append.mpr ⟨plain_cons.mpr ⟨by decide, plain_items hsep true l⟩, plain_cons.mpr ⟨by decide, plain_nil⟩⟩
  | .obj l => plain_append.mpr ⟨plain_cons.mpr ⟨by decide, plain_fields hsep true l⟩, plain_cons.mpr ⟨by decide, plain_nil⟩⟩

theorem plain_items (hsep : PlainSeparators sep) : ∀ (first : Bool) (l : List Json), Plain (Json.items sep first l)
  | _, [] => plain_nil
  | first, j :: l => by
    have hitem : Plain (if first = true then [] else sep.item.toList) := by
      cases first
      · exact hsep.item
      · exact plain_nil
    exact plain_append.mpr ⟨plain_append.mpr ⟨hitem, plain_chars hsep j⟩, plain_items hsep false l⟩

theorem plain_fields (hsep : PlainSeparators sep) : ∀ (first : Bool) (l : List (String × Json)),
    Plain (Json.fields sep first l)
  | _, [] => plain_nil
  | first, (k, j) :: l => by
    have hitem : Plain (if first = true then [] else sep.item.toList) := by
      cases first
      · exact hsep.item
      · exact plain_nil
    have hkey : Plain ((if first = true then [] else sep.item.toList) ++ quote k ++ sep.key.toList) :=
      plain_append.mpr ⟨plain_append.mpr ⟨hitem, plain_quote k⟩, hsep.key⟩
    exact plain_append.mpr ⟨plain_append.mpr ⟨hkey, plain_chars hsep j⟩, plain_fields hsep false l⟩

end

/-- **`loads` of the bytes that `dumps` wrote.** -/
theorem loadsBytes_written (hspaced : Spaced sep) (hsep : PlainSeparators sep) {limit n : ℕ} {j : Json} (hj : Sized n j)
    (hn : n ≤ limit) : loadsBytes limit ((j.dumps sep).toList.map Char.toNat) = .ok (valueOf j) := by
  have htext : (j.dumps sep).toList = j.chars sep := String.toList_ofList
  have hread := loads_written hspaced hj hn
  rw [Json.dumps] at hread
  rw [htext, loadsBytes, decodeBytes_ascii (plain_chars hsep j)]
  exact hread

end Written

end AlphaAlgo.JsonRead
