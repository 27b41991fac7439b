import AlphaAlgo.Broker.Updates
import AlphaAlgo.Lib.JsonRead

/-!
# Tracing — trace contexts and the `traceparent` header

`begin_trace` and `start_span` take the ids of the trace and of the span from what is active, or make new ones of 16
characters; `parse_traceparent` wants a trace id of 32 characters, and reads its fields with `int(.., 16)`.

* `isSome_intBase16_iff`: what `int(.., 16)` reads, in characters: hexadecimal digits, and with them a sign, a prefix,
  underscores and white space.
* `issued_ids`: the ids of this module, a trace id being either read from a header or new.
* `traceparent_iff`: the contexts that survive the header are those with a trace id of 32 characters, and the texts on which
  the parser is exact are those that are not lax.
-/

namespace AlphaAlgo.Observability

open Broker (digitValue strip)
open JsonRead (hexValue)

/-! ### `int(text, 16)` -/

/-- What `int` makes of a character: the decimal digits and the spaces of all scripts become those of ASCII. -/
def toAscii (c : Char) : Char :=
  if c.toNat < 127 then c
  else if isSpace c then ' '
  else
    match digitValue c with
    | some d => Nat.digitChar d
    | none => '?'

/-- The white space of C. -/
def isSpaceC (c : Char) : Bool := c == ' ' || (9 ≤ c.toNat && c.toNat ≤ 13)

/-- Digits after the first, each perhaps after one underscore, and what follows them. -/
def hexRun : ℕ → List Char → Option (ℕ × List Char)
  | n, '_' :: c :: l => (hexValue c).bind fun d => hexRun (16 * n + d) l
  | _, ['_'] => none
  | n, c :: l =>
    match hexValue c with
    | some d => hexRun (16 * n + d) l
    | none => some (n, c :: l)
  | n, [] => some (n, [])

/-- The prefix `0x`, with one underscore perhaps. -/
def dropHexPrefix : List Char → List Char
  | '0' :: 'x' :: '_' :: l => l
  | '0' :: 'X' :: '_' :: l => l
  | '0' :: 'x' :: l => l
  | '0' :: 'X' :: l => l
  | l => l

/-- The number of the digits, up to trailing white space. -/
def readHex (l : List Char) : Option ℕ :=
  match dropHexPrefix l with
  | [] => none
  | c :: l =>
    (hexValue c).bind fun d =>
      (hexRun d l).bind fun p => if p.2.all isSpaceC = true then some p.1 else none

/-- `int(s, 16)`. -/
def intBase16 (s : List Char) : Option ℤ :=
  match (s.map toAscii).dropWhile isSpaceC with
  | '+' :: l => (readHex l).map Int.ofNat
  | '-' :: l => (readHex l).map fun n => -Int.ofNat n
  | l => (readHex l).map Int.ofNat

example : intBase16 " +0x_1_f".toList = some 31 ∧ intBase16 "1__f".toList = none := by decide +kernel

/-! ### Contexts -/

structure SpanContext where
  traceId : String
  spanId : String
  sampled : Bool := true
deriving DecidableEq

structure TraceContext where
  traceId : String
  sampled : Bool := true

structure Span where
  name : String
  traceId : String
  spanId : String
  parentSpanId : Option String := none

/-- `_new_id`, by the `uuid4` it reads. -/
def newId (u : UUID) : String := String.ofList (u.hex.take 16)

/-- `begin_trace`; an empty trace id counts as none. -/
def beginTrace (traceId : Option String) (sampled : Bool) (u : UUID) : TraceContext :=
  match traceId with
  | some tid => ⟨if tid = "" then newId u else tid, sampled⟩
  | none => ⟨newId u, sampled⟩

/-- The span of `start_span`, with the active span and the active context. -/
def startSpan (name : String) (parent current : Option Span) (context : Option TraceContext) (u u' : UUID) : Span :=
  let parent := parent <|> current
  let traceId :=
    match parent with
    | some p => p.traceId
    | none =>
      match context with
      | some c => c.traceId
      | none => newId u
  { name := name, traceId := traceId, spanId := newId u', parentSpanId := parent.map Span.spanId }

/-- `parse_traceparent`; without a header there is no context. -/
def parseTraceparent (header : Option String) : Option SpanContext :=
  header.bind fun header =>
    match (strip header.toList).splitOn '-' with
    | [version, traceId, spanId, flags] =>
      if version ≠ ['0', '0'] then none
      else if traceId.length ≠ 32 ∨ spanId.length ≠ 16 then none
      else
        (intBase16 traceId).bind fun _ =>
          (intBase16 spanId).bind fun _ =>
            (intBase16 flags).map fun flag => ⟨String.ofList traceId, String.ofList spanId, decide (flag % 2 = 1)⟩
    | _ => none

def formatTraceparent (context : SpanContext) : String :=
  "00-" ++ context.traceId ++ "-" ++ context.spanId ++ "-" ++ if context.sampled then "01" else "00"

example : parseTraceparent (some " 00-4bf92f3577b34da6a3ce929d0e0e4736-00f067aa0ba902b7-01\n") =
    some ⟨"4bf92f3577b34da6a3ce929d0e0e4736", "00f067aa0ba902b7", true⟩ := by decide +kernel

/-! ### Ids -/

/-- The trace contexts of this module. -/
inductive IsTrace : TraceContext → Prop where
  | new (sampled : Bool) (u : UUID) : IsTrace (beginTrace none sampled u)
  | adopted {header : Option String} {c : SpanContext} (h : parseTraceparent header = some c) (sampled : Bool) (u : UUID) :
    IsTrace (beginTrace (some c.traceId) sampled u)

/-- The spans of this module, whatever is active when they start. -/
inductive IsSpan : Span → Prop where
  | start (name : String) {parent current : Option Span} {context : Option TraceContext} (u u' : UUID)
    (hparent : ∀ p, parent = some p → IsSpan p) (hcurrent : ∀ p, current = some p → IsSpan p)
    (hcontext : ∀ t, context = some t → IsTrace t) : IsSpan (startSpan name parent current context u u')

/-- The ids of a context come from this module: from traces and spans, or from parsed headers. -/
structure Issued (c : SpanContext) : Prop where
  trace : (∃ t, IsTrace t ∧ t.traceId = c.traceId) ∨ (∃ s, IsSpan s ∧ s.traceId = c.traceId) ∨
    ∃ header p, parseTraceparent header = some p ∧ p.traceId = c.traceId
  span : (∃ s, IsSpan s ∧ s.spanId = c.spanId) ∨ ∃ header p, parseTraceparent header = some p ∧ p.spanId = c.spanId

def isHex (c : Char) : Bool := (hexValue c).isSome

/-- A text of `n` characters that is one field of a header and that `int(.., 16)` reads. -/
structure Field (n : ℕ) (s : String) : Prop where
  length : s.toList.length = n
  dash : '-' ∉ s.toList
  read : (intBase16 s.toList).isSome = true

/-! ### Hexadecimal digits -/

theorem hex_range {c : Char} (h : isHex c = true) :
    (48 ≤ c.toNat ∧ c.toNat ≤ 57) ∨ (97 ≤ c.toNat ∧ c.toNat ≤ 102) ∨ (65 ≤ c.toNat ∧ c.toNat ≤ 70) := by
  unfold isHex hexValue at h
  split_ifs at h with hdigit hlower hupper
  · left
    simp only [Char.isDigit, Bool.and_eq_true, decide_eq_true_eq] at hdigit
    exact hdigit
  · right
    left
    simpa [Char.le_def, UInt32.le_iff_toNat_le] using hlower
  · right
    right
    simpa [Char.le_def, UInt32.le_iff_toNat_le] using hupper
  · simp at h

theorem hex_ne {c : Char} (h : isHex c = true) {d : Char} (hd : isHex d = false) : c ≠ d := by
  rintro rfl
  rw [h] at hd
  cases hd

theorem toAscii_of_hex {c : Char} (h : isHex c = true) : toAscii c = c := by
  have hrange := hex_range h
  exact if_pos (by omega)

theorem isSpaceC_of_hex {c : Char} (h : isHex c = true) : isSpaceC c = false := by
  have hrange := hex_range h
  have hne : c ≠ ' ' := hex_ne h (by decide)
  simp only [isSpaceC, Bool.or_eq_false_iff, beq_eq_false_iff_ne, Bool.and_eq_false_iff, decide_eq_false_iff_not]
  exact ⟨hne, by omega⟩

theorem hexRun_cons {c : Char} {d : ℕ} (h : hexValue c = some d) (n : ℕ) (l : List Char) :
    hexRun n (c :: l) = hexRun (16 * n + d) l := by
  have hne : c ≠ '_' := hex_ne (by rw [isHex, h]; rfl) (by decide)
  rw [hexRun.eq_3 _ _ _ (fun x y hx => absurd hx hne) fun hx => absurd hx hne, h]

/-- A run of hexadecimal digits is read to its end. -/
theorem hexRun_of_hex : ∀ {l : List Char} (n : ℕ), (∀ c ∈ l, isHex c = true) → ∃ m, hexRun n l = some (m, [])
  | [], n, _ => ⟨n, by rw [hexRun]⟩
  | c :: l, n, h => by
    have hc := h c List.mem_cons_self
    obtain ⟨d, hd⟩ := Option.isSome_iff_exists.mp hc
    obtain ⟨m, hm⟩ := hexRun_of_hex (16 * n + d) fun x hx => h x (List.mem_cons_of_mem _ hx)
    exact ⟨m, by rw [hexRun_cons hd, hm]⟩

theorem dropHexPrefix_of_hex {l : List Char} (h : ∀ c ∈ l, isHex c = true) : dropHexPrefix l = l := by
  have hsmall : ∀ l', l ≠ '0' :: 'x' :: l' := by
    rintro l' rfl
    exact absurd (h 'x' (List.mem_cons_of_mem _ List.mem_cons_self)) (by decide)
  have hlarge : ∀ l', l ≠ '0' :: 'X' :: l' := by
    rintro l' rfl
    exact absurd (h 'X' (List.mem_cons_of_mem _ List.mem_cons_self)) (by decide)
  unfold dropHexPrefix
  split
  · exact absurd rfl (hsmall _)
  · exact absurd rfl (hlarge _)
  · exact absurd rfl (hsmall _)
  · exact absurd rfl (hlarge _)
  · rfl

/-- **Hexadecimal digits are read.** -/
theorem intBase16_of_hex {l : List Char} (hne : l ≠ []) (h : ∀ c ∈ l, isHex c = true) :
    (intBase16 l).isSome = true := by
  obtain ⟨c, l, rfl⟩ := List.exists_cons_of_ne_nil hne
  have hc := h c List.mem_cons_self
  have hascii : (c :: l).map toAscii = c :: l := by
    rw [List.map_congr_left fun x hx => toAscii_of_hex (h x hx)]
    exact List.map_id' _
  obtain ⟨d, hd⟩ := Option.isSome_iff_exists.mp hc
  obtain ⟨m, hm⟩ := hexRun_of_hex d fun x hx => h x (List.mem_cons_of_mem _ hx)
  have hread : readHex (c :: l) = some m := by
    rw [readHex, dropHexPrefix_of_hex h]
    simp only
    rw [hd, Option.bind_some, hm, Option.bind_some]
    rfl
  rw [intBase16, hascii, List.dropWhile_cons_of_neg (by rw [isSpaceC_of_hex hc]; decide)]
  split
  · next heq => exact absurd (List.cons.inj heq).1 (hex_ne hc (by decide))
  · next heq => exact absurd (List.cons.inj heq).1 (hex_ne hc (by decide))
  · rw [hread]
    rfl

/-! ### The texts that `int(.., 16)` reads -/

/-- Hexadecimal digits, with single underscores between them. -/
inductive Grouped : List Char → Prop where
  | one {c : Char} (h : isHex c = true) : Grouped [c]
  | digit {c : Char} {l : List Char} (h : isHex c = true) (hl : Grouped l) : Grouped (c :: l)
  | underscore {c : Char} {l : List Char} (h : isHex c = true) (hl : Grouped l) : Grouped (c :: '_' :: l)

theorem Grouped.head {c : Char} {l : List Char} (h : Grouped (c :: l)) : isHex c = true := by
  cases h with
  | one h | digit h _ | underscore h _ => exact h

theorem Grouped.exists_cons {l : List Char} (h : Grouped l) : ∃ c l', l = c :: l' ∧ isHex c = true := by
  cases h with
  | one h | digit h _ | underscore h _ => exact ⟨_, _, rfl, h⟩

/-- What follows a digit. -/
theorem grouped_cons_iff {c : Char} (hc : isHex c = true) {l : List Char} :
    Grouped (c :: l) ↔ l = [] ∨ Grouped l ∨ ∃ l', l = '_' :: l' ∧ Grouped l' := by
  constructor
  · intro h
    cases h with
    | one _ => exact .inl rfl
    | digit _ hl => exact .inr (.inl hl)
    | underscore _ hl => exact .inr (.inr ⟨_, rfl, hl⟩)
  · rintro (rfl | hl | ⟨l', rfl, hl⟩)
    · exact .one hc
    · exact .digit hc hl
    · exact .underscore hc hl

/-- A run of digits after the first one is followed by white space only. -/
def Runs (n : ℕ) (l : List Char) : Prop := ∃ p, hexRun n l = some p ∧ p.2.all isSpaceC = true

/-- Digits up to white space, after a digit. -/
def Tail (c : Char) (l : List Char) : Prop :=
  ∃ digits after, l = digits ++ after ∧ Grouped (c :: digits) ∧ ∀ x ∈ after, isSpaceC x = true

theorem tail_cons_iff {c d : Char} (hc : isHex c = true) (hd : isHex d = true) {l : List Char} :
    Tail c (d :: l) ↔ Tail d l := by
  constructor
  · rintro ⟨digits, after, hl, hdigits, hafter⟩
    cases digits with
    | nil =>
      have hspace := hafter d (by rw [← List.nil_append after, ← hl]; exact List.mem_cons_self)
      rw [isSpaceC_of_hex hd] at hspace
      cases hspace
    | cons x digits =>
      obtain ⟨rfl, rfl⟩ := List.cons.inj hl
      rcases (grouped_cons_iff hc).mp hdigits with hnil | hrest | ⟨l', heq, -⟩
      · cases hnil
      · exact ⟨digits, after, rfl, hrest, hafter⟩
      · rw [(List.cons.inj heq).1] at hd
        exact absurd hd (by decide)
  · rintro ⟨digits, after, rfl, hdigits, hafter⟩
    exact ⟨d :: digits, after, rfl, .digit hc hdigits, hafter⟩

theorem tail_underscore_iff {c d : Char} (hc : isHex c = true) {l : List Char} :
    Tail c ('_' :: d :: l) ↔ Tail d l := by
  constructor
  · rintro ⟨digits, after, hl, hdigits, hafter⟩
    cases digits with
    | nil =>
      have hspace := hafter '_' (by rw [← List.nil_append after, ← hl]; exact List.mem_cons_self)
      exact absurd hspace (by decide)
    | cons x digits =>
      obtain ⟨hx, hlater⟩ := List.cons.inj hl
      rw [← hx] at hdigits
      rcases (grouped_cons_iff hc).mp hdigits with hnil | hrest | ⟨l', heq, hrest⟩
      · cases hnil
      · exact absurd hrest.head (by decide)
      · rw [(List.cons.inj heq).2] at hlater
        obtain ⟨y, l', rfl, -⟩ := hrest.exists_cons
        obtain ⟨rfl, rfl⟩ := List.cons.inj hlater
        exact ⟨l', after, rfl, hrest, hafter⟩
  · rintro ⟨digits, after, rfl, hdigits, hafter⟩
    exact ⟨'_' :: d :: digits, after, rfl, .underscore hc hdigits, hafter⟩

/-- A tail that starts with neither a digit nor an underscore before one is white space. -/
theorem tail_other_iff {c : Char} (hc : isHex c = true) {l : List Char}
    (hdigit : ∀ d l', l = d :: l' → isHex d = false) (hunderscore : ∀ d l', l = '_' :: d :: l' → isHex d = false) :
    Tail c l ↔ ∀ x ∈ l, isSpaceC x = true := by
  constructor
  · rintro ⟨digits, after, rfl, hdigits, hafter⟩
    rcases (grouped_cons_iff hc).mp hdigits with rfl | hrest | ⟨l', rfl, hrest⟩
    · exact hafter
    · obtain ⟨d, l', rfl, hd⟩ := hrest.exists_cons
      have hnot := hdigit d (l' ++ after) rfl
      rw [hd] at hnot
      cases hnot
    · obtain ⟨d, l', rfl, hd⟩ := hrest.exists_cons
      have hnot := hunderscore d (l' ++ after) rfl
      rw [hd] at hnot
      cases hnot
  · exact fun h => ⟨[], l, rfl, .one hc, h⟩

theorem isHex_of_value {c : Char} {d : ℕ} (h : hexValue c = some d) : isHex c = true := by
  rw [isHex, h]
  rfl

theorem isHex_of_none {c : Char} (h : hexValue c = none) : isHex c = false := by
  rw [isHex, h]
  rfl

/-- **The digits after the first one.** -/
theorem runs_iff (n : ℕ) (l : List Char) : ∀ {c : Char}, isHex c = true → (Runs n l ↔ Tail c l) := by
  unfold Runs
  fun_induction hexRun n l with
  | case1 n d l ih =>
    intro c hc
    cases hd : hexValue d with
    | none =>
      rw [tail_other_iff hc (by rintro x l' ⟨rfl, -⟩; decide)
        (by rintro x l' ⟨-, rfl, -⟩; exact isHex_of_none hd)]
      refine iff_of_false (by simp) fun hall => ?_
      exact absurd (hall '_' List.mem_cons_self) (by decide)
    | some v =>
      rw [tail_underscore_iff hc]
      exact ih v (isHex_of_value hd)
  | case2 n =>
    intro c hc
    rw [tail_other_iff hc (by rintro x l' ⟨rfl, -⟩; decide) (by rintro x l' h; cases h)]
    refine iff_of_false (by simp) fun hall => ?_
    exact absurd (hall '_' List.mem_cons_self) (by decide)
  | case3 n d l _ _ v hv ih =>
    intro c hc
    rw [tail_cons_iff hc (isHex_of_value hv)]
    exact ih (isHex_of_value hv)
  | case4 n d l hfirst hlast hv =>
    intro c hc
    rw [tail_other_iff hc (by rintro x l' ⟨rfl, -⟩; exact isHex_of_none hv)
      (by rintro x l' ⟨rfl, rfl⟩; exact absurd rfl (hfirst x l' rfl))]
    simp
  | case5 n =>
    intro c hc
    rw [tail_other_iff hc (by rintro x l' h; cases h) (by rintro x l' h; cases h)]
    simp

/-- What is read after the sign. -/
theorem isSome_readHex {l : List Char} :
    (readHex l).isSome = true ↔ ∃ c l', dropHexPrefix l = c :: l' ∧ isHex c = true ∧ Tail c l' := by
  rw [Option.isSome_iff_exists]
  constructor
  · rintro ⟨n, h⟩
    unfold readHex at h
    split at h
    · cases h
    · next c l' hdrop =>
      obtain ⟨v, hv, h⟩ := Option.bind_eq_some_iff.mp h
      obtain ⟨p, hp, h⟩ := Option.bind_eq_some_iff.mp h
      split_ifs at h with hspace
      exact ⟨c, l', hdrop, isHex_of_value hv, (runs_iff v l' (isHex_of_value hv)).mp ⟨p, hp, hspace⟩⟩
  · rintro ⟨c, l', hdrop, hc, htail⟩
    obtain ⟨v, hv⟩ := Option.isSome_iff_exists.mp hc
    obtain ⟨p, hp, hspace⟩ := (runs_iff v l' hc).mpr htail
    refine ⟨p.1, ?_⟩
    rw [readHex, hdrop]
    dsimp only
    rw [hv, Option.bind_some, hp, Option.bind_some, if_pos hspace]

/-- The prefixes of a number. -/
def marks : List (List Char) := [[], ['0', 'x'], ['0', 'X'], ['0', 'x', '_'], ['0', 'X', '_']]

theorem dropHexPrefix_spec (l : List Char) : ∃ mark ∈ marks, l = mark ++ dropHexPrefix l := by
  unfold dropHexPrefix
  split
  · exact ⟨['0', 'x', '_'], by decide, rfl⟩
  · exact ⟨['0', 'X', '_'], by decide, rfl⟩
  · exact ⟨['0', 'x'], by decide, rfl⟩
  · exact ⟨['0', 'X'], by decide, rfl⟩
  · exact ⟨[], by decide, rfl⟩

/-- No prefix is dropped from digits. -/
theorem dropHexPrefix_of_tail {c : Char} {l : List Char} (hc : isHex c = true) (h : Tail c l) :
    dropHexPrefix (c :: l) = c :: l := by
  obtain ⟨digits, after, rfl, hdigits, hafter⟩ := h
  have hnot : ∀ x l', digits ++ after = x :: l' → isHex x = true ∨ x = '_' ∨ isSpaceC x = true := by
    intro x l' heq
    rcases (grouped_cons_iff hc).mp hdigits with rfl | hrest | ⟨l'', rfl, -⟩
    · exact .inr (.inr (hafter x (by rw [← List.nil_append after, heq]; exact List.mem_cons_self)))
    · obtain ⟨y, l'', rfl, hy⟩ := hrest.exists_cons
      exact .inl ((List.cons.inj heq).1 ▸ hy)
    · exact .inr (.inl (List.cons.inj heq).1.symm)
  generalize digits ++ after = rest at hnot
  unfold dropHexPrefix
  split
  · next heq => exact absurd (hnot 'x' _ (List.cons.inj heq).2) (by decide)
  · next heq => exact absurd (hnot 'X' _ (List.cons.inj heq).2) (by decide)
  · next heq => exact absurd (hnot 'x' _ (List.cons.inj heq).2) (by decide)
  · next heq => exact absurd (hnot 'X' _ (List.cons.inj heq).2) (by decide)
  · rfl

/-- One prefix is dropped from a prefix and digits. -/
theorem dropHexPrefix_append {mark : List Char} (hmark : mark ∈ marks) {c : Char} {l : List Char} (hc : isHex c = true)
    (h : Tail c l) : dropHexPrefix (mark ++ c :: l) = c :: l := by
  have hne : c ≠ '_' := hex_ne hc (by decide)
  simp only [marks, List.mem_cons, List.not_mem_nil, or_false] at hmark
  rcases hmark with rfl | rfl | rfl | rfl | rfl
  · exact dropHexPrefix_of_tail hc h
  · rw [List.cons_append, List.cons_append, List.nil_append, dropHexPrefix.eq_3]
    rintro l' heq
    exact hne (List.cons.inj heq).1
  · rw [List.cons_append, List.cons_append, List.nil_append, dropHexPrefix.eq_4]
    rintro l' heq
    exact hne (List.cons.inj heq).1
  · rfl
  · rfl

/-- What stands after the sign of a number. -/
def Unsigned (l : List Char) : Prop :=
  ∃ mark ∈ marks, ∃ digits after, l = mark ++ (digits ++ after) ∧ Grouped digits ∧ ∀ c ∈ after, isSpaceC c = true

theorem isSome_readHex_iff {l : List Char} : (readHex l).isSome = true ↔ Unsigned l := by
  rw [isSome_readHex]
  constructor
  · rintro ⟨c, l', hdrop, hc, digits, after, rfl, hdigits, hafter⟩
    obtain ⟨mark, hmark, heq⟩ := dropHexPrefix_spec l
    exact ⟨mark, hmark, c :: digits, after, heq.trans (by rw [hdrop]; rfl), hdigits, hafter⟩
  · rintro ⟨mark, hmark, digits, after, rfl, hdigits, hafter⟩
    obtain ⟨c, l', rfl, hc⟩ := hdigits.exists_cons
    have htail : Tail c (l' ++ after) := ⟨l', after, rfl, hdigits, hafter⟩
    exact ⟨c, l' ++ after, dropHexPrefix_append hmark hc htail, hc, htail⟩

theorem Unsigned.exists_cons {l : List Char} (h : Unsigned l) : ∃ c l', l = c :: l' ∧ isHex c = true := by
  obtain ⟨mark, hmark, digits, after, rfl, hdigits, -⟩ := h
  obtain ⟨c, l', rfl, hc⟩ := hdigits.exists_cons
  simp only [marks, List.mem_cons, List.not_mem_nil, or_false] at hmark
  rcases hmark with rfl | rfl | rfl | rfl | rfl
  · exact ⟨c, _, rfl, hc⟩
  · exact ⟨'0', _, rfl, by decide⟩
  · exact ⟨'0', _, rfl, by decide⟩
  · exact ⟨'0', _, rfl, by decide⟩
  · exact ⟨'0', _, rfl, by decide⟩

/-- A number: white space, a sign, `0x` with one underscore perhaps, digits with single underscores between them, and white
space; only the digits must be there.  Decimal digits and spaces of all scripts count. -/
def Numeral (s : List Char) : Prop :=
  ∃ before, (∀ c ∈ before, isSpaceC c = true) ∧ ∃ sign ∈ ([[], ['+'], ['-']] : List (List Char)), ∃ number,
    s.map toAscii = before ++ (sign ++ number) ∧ Unsigned number

/-- **What `int(.., 16)` reads.** -/
theorem isSome_intBase16_iff {s : List Char} : (intBase16 s).isSome = true ↔ Numeral s := by
  constructor
  · intro h
    refine ⟨(s.map toAscii).takeWhile isSpaceC, fun c hc => List.mem_takeWhile_imp hc, ?_⟩
    have hsplit := List.takeWhile_append_dropWhile (p := isSpaceC) (l := s.map toAscii)
    unfold intBase16 at h
    split at h
    · next l heq =>
      rw [Option.isSome_map] at h
      exact ⟨['+'], by decide, l, hsplit.symm.trans (by rw [heq]; rfl), isSome_readHex_iff.mp h⟩
    · next l heq =>
      rw [Option.isSome_map] at h
      exact ⟨['-'], by decide, l, hsplit.symm.trans (by rw [heq]; rfl), isSome_readHex_iff.mp h⟩
    · rw [Option.isSome_map] at h
      exact ⟨[], by decide, _, by simp, isSome_readHex_iff.mp h⟩
  · rintro ⟨before, hbefore, sign, hsign, number, hs, hnumber⟩
    have hread := isSome_readHex_iff.mpr hnumber
    obtain ⟨c, l, rfl, hc⟩ := hnumber.exists_cons
    simp only [List.mem_cons, List.not_mem_nil, or_false] at hsign
    rw [intBase16, hs, List.dropWhile_append_of_pos hbefore]
    rcases hsign with rfl | rfl | rfl
    · rw [List.nil_append, List.dropWhile_cons_of_neg (by rw [isSpaceC_of_hex hc]; decide)]
      split
      · next heq => exact absurd (List.cons.inj heq).1 (hex_ne hc (by decide))
      · next heq => exact absurd (List.cons.inj heq).1 (hex_ne hc (by decide))
      · rwa [Option.isSome_map]
    · rw [List.singleton_append, List.dropWhile_cons_of_neg (by decide)]
      simpa using hread
    · rw [List.singleton_append, List.dropWhile_cons_of_neg (by decide)]
      simpa using hread

/-! ### Fields -/

theorem isHex_hexDigit (d : ℕ) : isHex (hexDigit d) = true := by
  have hall : ∀ a < 16, isHex (Nat.digitChar a) = true := by decide
  exact hall _ (Nat.mod_lt d (by omega))

/-- **A new id** is a field of 16 hexadecimal digits. -/
theorem field_newId (u : UUID) : Field 16 (newId u) := by
  have hlength : (u.hex.take 16).length = 16 := by
    rw [List.length_take, UUID.hex, List.length_map, List.length_range]
    rfl
  have hhex : ∀ c ∈ u.hex.take 16, isHex c = true := by
    intro c hc
    obtain ⟨i, -, rfl⟩ := List.mem_map.mp (List.mem_of_mem_take hc)
    exact isHex_hexDigit _
  refine ⟨?_, ?_, ?_⟩
  · rw [newId, String.toList_ofList, hlength]
  · rw [newId, String.toList_ofList]
    exact fun hdash => absurd (hhex _ hdash) (by decide)
  · rw [newId, String.toList_ofList]
    exact intBase16_of_hex (List.ne_nil_of_length_pos (by omega)) hhex

theorem notMem_of_mem_splitOn {a : Char} : ∀ {l part : List Char}, part ∈ l.splitOn a → a ∉ part
  | [], part, h => by
    rw [List.splitOn_nil, List.mem_singleton] at h
    rw [h]
    exact List.not_mem_nil
  | x :: l, part, h => by
    rw [List.splitOn_cons_eq_if_modifyHead] at h
    split_ifs at h with hx
    · rcases List.mem_cons.mp h with rfl | h
      · exact List.not_mem_nil
      · exact notMem_of_mem_splitOn h
    · obtain ⟨first, rest, hsplit⟩ := List.exists_cons_of_ne_nil (List.splitOn_ne_nil a l)
      have hfirst : a ∉ first := notMem_of_mem_splitOn (by rw [hsplit]; exact List.mem_cons_self)
      rw [hsplit, List.modifyHead_cons] at h
      rcases List.mem_cons.mp h with rfl | h
      · rw [List.mem_cons, not_or]
        exact ⟨fun heq => hx (by rw [heq]; exact beq_self_eq_true x), hfirst⟩
      · exact notMem_of_mem_splitOn (by rw [hsplit]; exact List.mem_cons_of_mem _ h)

/-- **What is accepted**: four fields, the second and third of the right length, and numbers to `int(.., 16)`. -/
theorem parse_eq_some_iff {header : String} {c : SpanContext} : parseTraceparent (some header) = some c ↔
    ∃ flags flag, (strip header.toList).splitOn '-' = [['0', '0'], c.traceId.toList, c.spanId.toList, flags] ∧
      c.traceId.toList.length = 32 ∧ c.spanId.toList.length = 16 ∧ (intBase16 c.traceId.toList).isSome = true ∧
      (intBase16 c.spanId.toList).isSome = true ∧ intBase16 flags = some flag ∧ c.sampled = decide (flag % 2 = 1) := by
  rw [parseTraceparent, Option.bind_some]
  constructor
  · intro h
    split at h
    · next version traceId spanId flags hsplit =>
      split_ifs at h with hversion hlength
      rw [not_not] at hversion
      simp only [not_or, not_not] at hlength
      simp only [Option.bind_eq_some_iff, Option.map_eq_some_iff] at h
      obtain ⟨t, ht, s, hs, flag, hflag, rfl⟩ := h
      refine ⟨flags, flag, ?_⟩
      simp only [String.toList_ofList]
      rw [hsplit, hversion]
      exact ⟨rfl, hlength.1, hlength.2, by rw [ht]; rfl, by rw [hs]; rfl, hflag, trivial⟩
    · cases h
  · rintro ⟨flags, flag, hsplit, htrace, hspan, ht, hs, hflag, hsampled⟩
    obtain ⟨t, ht⟩ := Option.isSome_iff_exists.mp ht
    obtain ⟨s, hs⟩ := Option.isSome_iff_exists.mp hs
    rw [hsplit]
    simp only [htrace, hspan, ht, hs, hflag, ne_eq, not_true_eq_false, or_self, if_false, Option.bind_some,
      Option.map_some, String.ofList_toList, ← hsampled]

theorem fields_of_parse {header : String} {c : SpanContext} (h : parseTraceparent (some header) = some c) :
    Field 32 c.traceId ∧ Field 16 c.spanId := by
  obtain ⟨flags, flag, hsplit, htrace, hspan, ht, hs, -⟩ := parse_eq_some_iff.mp h
  have hdash : ∀ part ∈ [['0', '0'], c.traceId.toList, c.spanId.toList, flags], '-' ∉ part := by
    rw [← hsplit]
    exact fun part hpart => notMem_of_mem_splitOn hpart
  exact ⟨⟨htrace, hdash _ (by simp), ht⟩, ⟨hspan, hdash _ (by simp), hs⟩⟩

theorem trace_ids {t : TraceContext} (h : IsTrace t) : (∃ u, t.traceId = newId u) ∨ Field 32 t.traceId := by
  cases h with
  | new sampled u => exact .inl ⟨u, rfl⟩
  | @adopted header c hparse sampled u =>
    cases header with
    | none => cases hparse
    | some header =>
      have hfield := (fields_of_parse hparse).1
      have hne : c.traceId ≠ "" := by
        intro hempty
        have hlength := hfield.length
        rw [hempty] at hlength
        cases hlength
      rw [beginTrace]
      dsimp only
      rw [if_neg hne]
      exact .inr hfield

theorem span_ids {s : Span} (h : IsSpan s) : ((∃ u, s.traceId = newId u) ∨ Field 32 s.traceId) ∧ ∃ u, s.spanId = newId u := by
  induction h with
  | @start name parent current context u u' hparent hcurrent hcontext ihparent ihcurrent =>
    refine ⟨?_, u', rfl⟩
    unfold startSpan
    dsimp only
    cases parent with
    | some p => exact (ihparent p rfl).1
    | none =>
      cases current with
      | some p => exact (ihcurrent p rfl).1
      | none =>
        cases context with
        | some t => exact trace_ids (hcontext t rfl)
        | none => exact .inl ⟨u, rfl⟩

/-- **The ids of this module**: a trace id is new or was read from a header. -/
theorem issued_ids {c : SpanContext} (h : Issued c) :
    ((∃ u, c.traceId = newId u) ∨ Field 32 c.traceId) ∧ Field 16 c.spanId := by
  constructor
  · obtain ⟨t, ht, hid⟩ | ⟨s, hs, hid⟩ | ⟨header, p, hp, hid⟩ := h.trace
    · rw [← hid]
      exact trace_ids ht
    · rw [← hid]
      exact (span_ids hs).1
    · cases header with
      | none => cases hp
      | some header =>
        rw [← hid]
        exact .inr (fields_of_parse hp).1
  · obtain ⟨s, hs, hid⟩ | ⟨header, p, hp, hid⟩ := h.span
    · obtain ⟨u, hu⟩ := (span_ids hs).2
      rw [← hid, hu]
      exact field_newId u
    · cases header with
      | none => cases hp
      | some header =>
        rw [← hid]
        exact (fields_of_parse hp).2

/-! ### The header of a context -/

/-- The flags of a context. -/
def flagsOf (sampled : Bool) : List Char := ['0', if sampled = true then '1' else '0']

theorem strip_eq_self {l : List Char} {c d : Char} (hc : isSpace c = false) (hd : isSpace d = false) :
    strip (c :: l ++ [d]) = c :: l ++ [d] := by
  rw [strip, List.cons_append, List.dropWhile_cons_of_neg (by rw [hc]; decide), ← List.cons_append, List.reverse_append,
    List.reverse_singleton, List.singleton_append, List.dropWhile_cons_of_neg (by rw [hd]; decide),
    ← List.singleton_append, List.reverse_append, List.reverse_reverse, List.reverse_singleton]

/-- The fields of a formatted context. -/
theorem splitOn_format {c : SpanContext} (htrace : '-' ∉ c.traceId.toList) (hspan : '-' ∉ c.spanId.toList) :
    (strip (formatTraceparent c).toList).splitOn '-' =
      [['0', '0'], c.traceId.toList, c.spanId.toList, flagsOf c.sampled] := by
  have hflags : '-' ∉ flagsOf c.sampled := by cases c.sampled <;> decide
  have hchars : (formatTraceparent c).toList = '0' :: ('0' :: '-' :: c.traceId.toList ++ '-' :: c.spanId.toList ++ ['-', '0']) ++
      [if c.sampled = true then '1' else '0'] := by
    rw [formatTraceparent]
    cases c.sampled <;> simp
  have hlast : isSpace (if c.sampled = true then '1' else '0') = false := by cases c.sampled <;> decide
  have hjoined : (formatTraceparent c).toList = ['-'].intercalate
      [['0', '0'], c.traceId.toList, c.spanId.toList, flagsOf c.sampled] := by
    rw [hchars]
    simp [List.intercalate, flagsOf]
  have hstrip : strip (formatTraceparent c).toList = (formatTraceparent c).toList := by
    rw [hchars]
    exact strip_eq_self (by decide) hlast
  rw [hstrip, hjoined, List.splitOn_intercalate '-' _ (by simp)]
  intro part hpart
  simp only [List.mem_cons, List.not_mem_nil, or_false] at hpart
  rcases hpart with rfl | rfl | rfl | rfl
  · decide
  · exact htrace
  · exact hspan
  · exact hflags

/-- **The header of a context** is read back exactly where the trace id has 32 characters. -/
theorem parse_format_iff {c : SpanContext} (h : Issued c) :
    parseTraceparent (some (formatTraceparent c)) = some c ↔ c.traceId.toList.length = 32 := by
  obtain ⟨htrace, hspan⟩ := issued_ids h
  constructor
  · intro hparse
    exact (fields_of_parse hparse).1.length
  · intro hlength
    have hfield : Field 32 c.traceId := by
      obtain ⟨u, hu⟩ | hfield := htrace
      · rw [hu, (field_newId u).length] at hlength
        cases hlength
      · exact hfield
    rw [parse_eq_some_iff]
    refine ⟨flagsOf c.sampled, if c.sampled = true then 1 else 0, splitOn_format hfield.dash hspan.dash, hlength,
      hspan.length, hfield.read, hspan.read, ?_, ?_⟩
    · cases c.sampled <;> decide +kernel
    · cases c.sampled <;> decide

/-! ### The texts that are accepted -/

/-- The trimmed text is `00`, 32, 16 and 2 hexadecimal digits, joined by `-`. -/
def WellFormed (text : String) : Prop :=
  ∃ traceId spanId flags : List Char, strip text.toList = ['-'].intercalate [['0', '0'], traceId, spanId, flags] ∧
    traceId.length = 32 ∧ spanId.length = 16 ∧ flags.length = 2 ∧
    ∀ c ∈ traceId ++ spanId ++ flags, isHex c = true

/-- Four fields that `int(.., 16)` reads, two of them of the right length, that are not all hexadecimal digits or whose
flags have not two characters. -/
def Lax (text : String) : Prop :=
  ∃ traceId spanId flags : List Char, (strip text.toList).splitOn '-' = [['0', '0'], traceId, spanId, flags] ∧
    traceId.length = 32 ∧ spanId.length = 16 ∧
    (∀ part ∈ [traceId, spanId, flags], (intBase16 part).isSome = true) ∧
    ((∃ c ∈ traceId ++ spanId ++ flags, isHex c = false) ∨ flags.length ≠ 2)

/-- **The lax texts, in characters**: numbers with white space, a sign, a prefix, an underscore or a digit of another
script, or flags of another length than 2. -/
theorem lax_iff {text : String} : Lax text ↔
    ∃ traceId spanId flags : List Char, (strip text.toList).splitOn '-' = [['0', '0'], traceId, spanId, flags] ∧
      traceId.length = 32 ∧ spanId.length = 16 ∧ Numeral traceId ∧ Numeral spanId ∧ Numeral flags ∧
      ((∃ c ∈ traceId ++ spanId ++ flags, isHex c = false) ∨ flags.length ≠ 2) := by
  unfold Lax
  simp only [List.forall_mem_cons, isSome_intBase16_iff, List.not_mem_nil, IsEmpty.forall_iff, implies_true, and_true,
    and_assoc]

theorem wellFormed_iff {text : String} : WellFormed text ↔
    ∃ traceId spanId flags : List Char, (strip text.toList).splitOn '-' = [['0', '0'], traceId, spanId, flags] ∧
      traceId.length = 32 ∧ spanId.length = 16 ∧ flags.length = 2 ∧
      ∀ c ∈ traceId ++ spanId ++ flags, isHex c = true := by
  constructor
  · rintro ⟨t, s, f, hjoined, ht, hs, hf, hhex⟩
    refine ⟨t, s, f, ?_, ht, hs, hf, hhex⟩
    rw [hjoined, List.splitOn_intercalate '-' _ (by simp)]
    intro part hpart hdash
    simp only [List.mem_cons, List.not_mem_nil, or_false] at hpart
    have hnot : isHex '-' = false := by decide
    rcases hpart with rfl | hpart
    · exact absurd hdash (by decide)
    · have hmem : '-' ∈ t ++ s ++ f := by
        rcases hpart with rfl | rfl | rfl <;> simp [hdash]
      rw [hhex _ hmem] at hnot
      cases hnot
  · rintro ⟨t, s, f, hsplit, ht, hs, hf, hhex⟩
    refine ⟨t, s, f, ?_, ht, hs, hf, hhex⟩
    rw [← hsplit, List.intercalate_splitOn]

theorem isSome_parse_iff {text : String} : (parseTraceparent (some text)).isSome = true ↔
    ∃ traceId spanId flags : List Char, (strip text.toList).splitOn '-' = [['0', '0'], traceId, spanId, flags] ∧
      traceId.length = 32 ∧ spanId.length = 16 ∧
      ∀ part ∈ [traceId, spanId, flags], (intBase16 part).isSome = true := by
  rw [Option.isSome_iff_exists]
  constructor
  · rintro ⟨c, hc⟩
    obtain ⟨flags, flag, hsplit, htrace, hspan, ht, hs, hflag, -⟩ := parse_eq_some_iff.mp hc
    exact ⟨_, _, flags, hsplit, htrace, hspan, by simp [ht, hs, hflag]⟩
  · rintro ⟨t, s, f, hsplit, ht, hs, hread⟩
    obtain ⟨flag, hflag⟩ := Option.isSome_iff_exists.mp (hread f (by simp))
    refine ⟨⟨String.ofList t, String.ofList s, decide (flag % 2 = 1)⟩, parse_eq_some_iff.mpr ⟨f, flag, ?_⟩⟩
    simp only [String.toList_ofList]
    exact ⟨hsplit, ht, hs, hread t (by simp), hread s (by simp), hflag, trivial⟩

/-- **The parser is exact** on every text that is not lax. -/
theorem exact_iff (text : String) :
    ((parseTraceparent (some text)).isSome = true ↔ WellFormed text) ↔ ¬ Lax text := by
  rw [isSome_parse_iff, wellFormed_iff]
  constructor
  · rintro hiff ⟨t, s, f, hsplit, ht, hs, hread, hlax⟩
    obtain ⟨t', s', f', hsplit', -, -, hf, hhex⟩ := hiff.mp ⟨t, s, f, hsplit, ht, hs, hread⟩
    rw [hsplit] at hsplit'
    simp only [List.cons.injEq, true_and, and_true] at hsplit'
    obtain ⟨rfl, rfl, rfl⟩ := hsplit'
    obtain ⟨c, hc, hnot⟩ | hlength := hlax
    · rw [hhex c hc] at hnot
      cases hnot
    · exact hlength hf
  · intro hlax
    constructor
    · rintro ⟨t, s, f, hsplit, ht, hs, hread⟩
      refine ⟨t, s, f, hsplit, ht, hs, ?_, ?_⟩
      · by_contra hf
        exact hlax ⟨t, s, f, hsplit, ht, hs, hread, .inr hf⟩
      · intro c hc
        by_contra hnot
        exact hlax ⟨t, s, f, hsplit, ht, hs, hread, .inl ⟨c, hc, by simpa using hnot⟩⟩
    · rintro ⟨t, s, f, hsplit, ht, hs, hf, hhex⟩
      refine ⟨t, s, f, hsplit, ht, hs, ?_⟩
      have hread : ∀ {part : List Char}, part.length ≠ 0 → (∀ c ∈ part, c ∈ t ++ s ++ f) → (intBase16 part).isSome = true :=
        fun hlength hmem => intBase16_of_hex (fun hnil => hlength (by rw [hnil]; rfl)) fun c hc => hhex c (hmem c hc)
      intro part hpart
      simp only [List.mem_cons, List.not_mem_nil, or_false] at hpart
      rcases hpart with rfl | rfl | rfl
      · exact hread (by omega) fun c hc => by simp [hc]
      · exact hread (by omega) fun c hc => by simp [hc]
      · exact hread (by omega) fun c hc => by simp [hc]

/-- **Contexts and texts**: the contexts that the header carries, and the texts on which the parser is exact. -/
theorem traceparent_iff (c : SpanContext) (h : Issued c) (text : String) :
    (parseTraceparent (some (formatTraceparent c)) = some c ↔ c.traceId.toList.length = 32) ∧
    (((parseTraceparent (some text)).isSome = true ↔ WellFormed text) ↔ ¬ Lax text) :=
  ⟨parse_format_iff h, exact_iff text⟩

/-- A context that was read from a header. -/
def sampleContext : SpanContext := ⟨"4bf92f3577b34da6a3ce929d0e0e4736", "00f067aa0ba902b7", true⟩

def sampleHeader : String := "00-4bf92f3577b34da6a3ce929d0e0e4736-00f067aa0ba902b7-01"

theorem sample_parsed : parseTraceparent (some sampleHeader) = some sampleContext := by decide +kernel

theorem traceparent_sample :
    parseTraceparent (some (formatTraceparent sampleContext)) = some sampleContext ∧ WellFormed sampleHeader := by
  have hissued : Issued sampleContext := ⟨.inr (.inr ⟨_, _, sample_parsed, rfl⟩), .inr ⟨_, _, sample_parsed, rfl⟩⟩
  obtain ⟨htrip, hexact⟩ := traceparent_iff sampleContext hissued sampleHeader
  have hlax : ¬ Lax sampleHeader := by
    rintro ⟨t, s, f, hsplit, -, -, -, hlax⟩
    have hparts : (strip sampleHeader.toList).splitOn '-' = [['0', '0'], "4bf92f3577b34da6a3ce929d0e0e4736".toList,
        "00f067aa0ba902b7".toList, ['0', '1']] := by decide +kernel
    rw [hparts] at hsplit
    simp only [List.cons.injEq, true_and, and_true] at hsplit
    obtain ⟨rfl, rfl, rfl⟩ := hsplit
    have hhex : ("4bf92f3577b34da6a3ce929d0e0e4736".toList ++ "00f067aa0ba902b7".toList ++ ['0', '1']).all isHex = true := by
      decide +kernel
    obtain ⟨c, hc, hnot⟩ | hlength := hlax
    · rw [List.all_eq_true.mp hhex c hc] at hnot
      cases hnot
    · exact hlength rfl
  exact ⟨htrip.mpr (by decide +kernel), (hexact.mpr hlax).mp (by rw [sample_parsed]; rfl)⟩

/-- A trace that is begun here does not survive the header, and flags of one digit are accepted. -/
theorem not_traceparent : (∃ c, Issued c ∧ parseTraceparent (some (formatTraceparent c)) ≠ some c) ∧
    ∃ text, ¬ ((parseTraceparent (some text)).isSome = true ↔ WellFormed text) := by
  constructor
  · have hspan : IsSpan (startSpan "tick" none none none ⟨1⟩ ⟨2⟩) :=
      .start "tick" ⟨1⟩ ⟨2⟩ (fun p hp => by cases hp) (fun p hp => by cases hp) fun t ht => by cases ht
    refine ⟨⟨newId ⟨1⟩, newId ⟨2⟩, true⟩, ⟨.inr (.inl ⟨_, hspan, rfl⟩), .inl ⟨_, hspan, rfl⟩⟩, ?_⟩
    decide +kernel
  · refine ⟨"00-4bf92f3577b34da6a3ce929d0e0e4736-00f067aa0ba902b7-1", fun hiff => ?_⟩
    refine (exact_iff _).mp hiff ⟨"4bf92f3577b34da6a3ce929d0e0e4736".toList, "00f067aa0ba902b7".toList, ['1'], ?_⟩
    refine ⟨by decide +kernel, by decide, by decide, ?_, .inr (by decide)⟩
    decide +kernel

end AlphaAlgo.Observability
