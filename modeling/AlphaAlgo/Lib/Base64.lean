import Mathlib.Data.List.DropRight
import Mathlib.Tactic

/-!
# Base64 — bytes as text

`encode` writes bytes with the alphabet that is safe in URLs; `decode` passes over the characters that it does not know, and
stops at enough padding.  A text travels without its padding: `unpadded` drops it and `padded` puts it back.

* `padded_unpadded`: the padding that is put back is the one that was dropped.
* `decode_encode`: bytes are read back.
* `mem_unpadded`: the characters of a text without padding.
-/

namespace AlphaAlgo.Base64

/-- The character of six bits. -/
def digit (n : ℕ) : Char :=
  if n < 26 then Char.ofNat (n + 65)
  else if n < 52 then Char.ofNat (n + 71)
  else if n < 62 then Char.ofNat (n - 4)
  else if n = 62 then '-'
  else '_'

/-- The six bits of a character, in either alphabet. -/
def value (c : Char) : Option ℕ :=
  if 65 ≤ c.toNat ∧ c.toNat ≤ 90 then some (c.toNat - 65)
  else if 97 ≤ c.toNat ∧ c.toNat ≤ 122 then some (c.toNat - 71)
  else if 48 ≤ c.toNat ∧ c.toNat ≤ 57 then some (c.toNat + 4)
  else if c = '-' ∨ c = '+' then some 62
  else if c = '_' ∨ c = '/' then some 63
  else none

/-- `base64.urlsafe_b64encode`. -/
def encode : List ℕ → List Char
  | a :: b :: c :: l =>
    digit (a / 4) :: digit (a % 4 * 16 + b / 16) :: digit (b % 16 * 4 + c / 64) :: digit (c % 64) :: encode l
  | [a, b] => [digit (a / 4), digit (a % 4 * 16 + b / 16), digit (b % 16 * 4), '=']
  | [a] => [digit (a / 4), digit (a % 4 * 16), '=', '=']
  | [] => []

/-- The bytes of what is left: `pos` characters of a group of four were read, with the bits `left` of the last of them
still to come, and `pads` pads follow it. -/
def decodeFrom : ℕ → ℕ → ℕ → List Char → Option (List ℕ)
  | pos, left, pads, c :: l =>
    if c = '=' then
      if 2 ≤ pos then if 4 ≤ pos + (pads + 1) then some [] else decodeFrom pos left (pads + 1) l
      else decodeFrom pos left pads l
    else
      match value c with
      | none => decodeFrom pos left pads l
      | some v =>
        match pos with
        | 0 => decodeFrom 1 v 0 l
        | 1 => (decodeFrom 2 (v % 16) 0 l).map fun bytes => (left * 4 + v / 16) :: bytes
        | 2 => (decodeFrom 3 (v % 4) 0 l).map fun bytes => (left * 16 + v / 4) :: bytes
        | _ => (decodeFrom 0 0 0 l).map fun bytes => (left * 64 + v) :: bytes
  | pos, _, _, [] => if pos = 0 then some [] else none

/-- `base64.urlsafe_b64decode` of a text; `none` is a `ValueError`. -/
def decode (s : List Char) : Option (List ℕ) :=
  if s.all (·.toNat < 128) = true then decodeFrom 0 0 0 s else none

/-- `data.rstrip("=")`. -/
def unpadded (s : List Char) : List Char := s.rdropWhile (· == '=')

/-- The text with pads up to a multiple of four characters. -/
def padded (s : List Char) : List Char := s ++ List.replicate ((4 - s.length % 4) % 4) '='

example : encode [251, 255, 104] = "-_9o".toList ∧ decode "+/ 9o".toList = some [251, 255, 104] := by decide +kernel

example : encode [97] = "YQ==".toList ∧ decode "YQ=".toList = none := by decide +kernel

/-! ### Characters -/

theorem value_digit {n : ℕ} (hn : n < 64) : value (digit n) = some n := by
  have hall : ∀ n < 64, value (digit n) = some n := by decide
  exact hall n hn

/-- A letter, a digit of ASCII, a dash or an underscore. -/
def Safe (c : Char) : Prop := c.toNat < 128 ∧ c ≠ '=' ∧ c ≠ '.'

theorem safe_digit (n : ℕ) : Safe (digit n) := by
  have hall : ∀ n < 64, (digit n).toNat < 128 ∧ digit n ≠ '=' ∧ digit n ≠ '.' := by decide
  by_cases hn : n < 64
  · exact hall n hn
  · have hlast : digit n = '_' := by
      unfold digit
      rw [if_neg (by omega), if_neg (by omega), if_neg (by omega), if_neg (by omega)]
    rw [hlast]
    exact ⟨by decide, by decide, by decide⟩

/-- What `encode` writes: safe characters and at most two pads, in groups of four. -/
theorem encode_shape : ∀ l : List ℕ, ∃ body k, encode l = body ++ List.replicate k '=' ∧ (∀ c ∈ body, Safe c) ∧
    k ≤ 2 ∧ (body.length + k) % 4 = 0
  | [] => ⟨[], 0, rfl, by simp, by omega, rfl⟩
  | [a] => by
    refine ⟨[digit (a / 4), digit (a % 4 * 16)], 2, rfl, ?_, by omega, by simp⟩
    simp only [List.forall_mem_cons]
    exact ⟨safe_digit _, safe_digit _, by simp⟩
  | [a, b] => by
    refine ⟨[digit (a / 4), digit (a % 4 * 16 + b / 16), digit (b % 16 * 4)], 1, rfl, ?_, by omega, by simp⟩
    simp only [List.forall_mem_cons]
    exact ⟨safe_digit _, safe_digit _, safe_digit _, by simp⟩
  | a :: b :: c :: l => by
    obtain ⟨body, k, hbody, hsafe, hk, hlength⟩ := encode_shape l
    refine ⟨digit (a / 4) :: digit (a % 4 * 16 + b / 16) :: digit (b % 16 * 4 + c / 64) :: digit (c % 64) :: body, k, ?_, ?_,
      hk, ?_⟩
    · rw [encode, hbody]
      rfl
    · simp only [List.forall_mem_cons]
      exact ⟨safe_digit _, safe_digit _, safe_digit _, safe_digit _, hsafe⟩
    · simp only [List.length_cons]
      omega

theorem unpadded_append {body : List Char} (hsafe : ∀ c ∈ body, Safe c) (k : ℕ) :
    unpadded (body ++ List.replicate k '=') = body := by
  induction k with
  | zero =>
    rw [List.replicate_zero, List.append_nil, unpadded, List.rdropWhile_eq_self_iff]
    intro hne
    have hlast := (hsafe _ (List.getLast_mem hne)).2.1
    simpa using hlast
  | succ k ih =>
    rw [List.replicate_succ', ← List.append_assoc, unpadded, List.rdropWhile_concat_pos _ _ _ (by decide)]
    exact ih

/-- **The padding is put back.** -/
theorem padded_unpadded (l : List ℕ) : padded (unpadded (encode l)) = encode l := by
  obtain ⟨body, k, hbody, hsafe, hk, hlength⟩ := encode_shape l
  have hpads : (4 - body.length % 4) % 4 = k := by omega
  rw [hbody, unpadded_append hsafe, padded, hpads]

theorem mem_unpadded {l : List ℕ} {c : Char} (h : c ∈ unpadded (encode l)) : Safe c := by
  obtain ⟨body, k, hbody, hsafe, -, -⟩ := encode_shape l
  rw [hbody, unpadded_append hsafe] at h
  exact hsafe c h

/-! ### Bytes are read back -/

section Read

variable {n left pads : ℕ} (l : List Char)

theorem decodeFrom_zero (hn : n < 64) : decodeFrom 0 left pads (digit n :: l) = decodeFrom 1 n 0 l := by
  rw [decodeFrom, if_neg (safe_digit n).2.1, value_digit hn]
  rfl

theorem decodeFrom_one (hn : n < 64) : decodeFrom 1 left pads (digit n :: l) =
    (decodeFrom 2 (n % 16) 0 l).map fun bytes => (left * 4 + n / 16) :: bytes := by
  rw [decodeFrom, if_neg (safe_digit n).2.1, value_digit hn]
  rfl

theorem decodeFrom_two (hn : n < 64) : decodeFrom 2 left pads (digit n :: l) =
    (decodeFrom 3 (n % 4) 0 l).map fun bytes => (left * 16 + n / 4) :: bytes := by
  rw [decodeFrom, if_neg (safe_digit n).2.1, value_digit hn]
  rfl

theorem decodeFrom_three (hn : n < 64) : decodeFrom 3 left pads (digit n :: l) =
    (decodeFrom 0 0 0 l).map fun bytes => (left * 64 + n) :: bytes := by
  rw [decodeFrom, if_neg (safe_digit n).2.1, value_digit hn]
  rfl

end Read

theorem decodeFrom_encode : ∀ {l : List ℕ}, (∀ b ∈ l, b < 256) → decodeFrom 0 0 0 (encode l) = some l
  | [], _ => rfl
  | [a], h => by
    have ha := h a List.mem_cons_self
    have hbyte : a / 4 * 4 + a % 4 * 16 / 16 = a := by omega
    rw [encode, decodeFrom_zero _ (by omega), decodeFrom_one _ (by omega), hbyte]
    rfl
  | [a, b], h => by
    have ha := h a List.mem_cons_self
    have hb := h b (List.mem_cons_of_mem _ List.mem_cons_self)
    have hbyte : a / 4 * 4 + (a % 4 * 16 + b / 16) / 16 = a := by omega
    have hbyte' : (a % 4 * 16 + b / 16) % 16 * 16 + b % 16 * 4 / 4 = b := by omega
    rw [encode, decodeFrom_zero _ (by omega), decodeFrom_one _ (by omega), decodeFrom_two _ (by omega), hbyte, hbyte']
    rfl
  | a :: b :: c :: l, h => by
    have ha := h a List.mem_cons_self
    have hb := h b (List.mem_cons_of_mem _ List.mem_cons_self)
    have hc := h c (List.mem_cons_of_mem _ (List.mem_cons_of_mem _ List.mem_cons_self))
    have hl : ∀ x ∈ l, x < 256 := fun x hx =>
      h x (List.mem_cons_of_mem _ (List.mem_cons_of_mem _ (List.mem_cons_of_mem _ hx)))
    have hbyte : a / 4 * 4 + (a % 4 * 16 + b / 16) / 16 = a := by omega
    have hbyte' : (a % 4 * 16 + b / 16) % 16 * 16 + (b % 16 * 4 + c / 64) / 4 = b := by omega
    have hbyte'' : (b % 16 * 4 + c / 64) % 4 * 64 + c % 64 = c := by omega
    rw [encode, decodeFrom_zero _ (by omega), decodeFrom_one _ (by omega), decodeFrom_two _ (by omega),
      decodeFrom_three _ (by omega), decodeFrom_encode hl, hbyte, hbyte', hbyte'']
    rfl

/-- **Bytes are read back**, with the padding that was dropped. -/
theorem decode_encode {l : List ℕ} (h : ∀ b ∈ l, b < 256) : decode (padded (unpadded (encode l))) = some l := by
  have hascii : (encode l).all (·.toNat < 128) = true := by
    obtain ⟨body, k, hbody, hsafe, -, -⟩ := encode_shape l
    rw [hbody, List.all_append, Bool.and_eq_true]
    refine ⟨List.all_eq_true.mpr fun c hc => decide_eq_true (hsafe c hc).1, List.all_eq_true.mpr fun c hc => ?_⟩
    rw [List.eq_of_mem_replicate hc]
    decide
  rw [padded_unpadded, decode, if_pos hascii, decodeFrom_encode h]

theorem unpadded_encode_inj {l l' : List ℕ} (h : ∀ b ∈ l, b < 256) (h' : ∀ b ∈ l', b < 256)
    (heq : unpadded (encode l) = unpadded (encode l')) : l = l' := by
  have hread := decode_encode h
  rw [heq, decode_encode h'] at hread
  exact (Option.some.inj hread).symm

end AlphaAlgo.Base64
