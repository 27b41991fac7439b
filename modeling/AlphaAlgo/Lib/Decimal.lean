import AlphaAlgo.Lib.Rounding

/-!
# Decimal — written decimal numbers

`Dec` is a finite `Decimal` as it is written: sign, digits and exponent.  Arithmetic and comparison only see the
value (`Dec.val`); the written form shows in the text `Dec.str`, so two decimals of one value can have different
texts (`10` and `10.0`).
-/

namespace AlphaAlgo

/-- A finite decimal number as written: `(-1) ^ neg * coeff * 10 ^ exp`. -/
structure Dec where
  neg : Bool
  coeff : ℕ
  exp : ℤ
deriving DecidableEq, Repr

namespace Dec

/-- The number. -/
def val (d : Dec) : ℚ := (if d.neg then -1 else 1) * d.coeff * 10 ^ d.exp

/-- `Decimal(n)`. -/
def ofNat (n : ℕ) : Dec := ⟨false, n, 0⟩

@[simp] theorem val_ofNat (n : ℕ) : (ofNat n).val = n := by simp [val, ofNat]

/-- `Decimal(n)` of an integer. -/
def ofInt (n : ℤ) : Dec := ⟨decide (n < 0), n.natAbs, 0⟩

@[simp] theorem val_ofInt (n : ℤ) : (ofInt n).val = n := by
  have habs : ((n.natAbs : ℕ) : ℚ) = |(n : ℚ)| := by rw [Nat.cast_natAbs, Int.cast_abs]
  rcases lt_or_ge n 0 with hn | hn
  · have hn' : (n : ℚ) < 0 := by exact_mod_cast hn
    simp [val, ofInt, hn, habs, abs_of_neg hn']
  · have hn' : 0 ≤ (n : ℚ) := by exact_mod_cast hn
    simp [val, ofInt, not_lt.mpr hn, habs, abs_of_nonneg hn']

/-- The decimal digits of a natural number. -/
def digits (n : ℕ) : List Char := (toString n).toList

/-- The exponent part: `E+5`, `E-7`. -/
def expPart (n : ℤ) : List Char :=
  'E' :: (if n < 0 then '-' else '+') :: digits n.natAbs

/-- `str(d)`: plain notation when the exponent is not positive and the leading digit is not below the sixth
decimal place, scientific notation otherwise. -/
def str (d : Dec) : String :=
  let ds := digits d.coeff
  let leftdigits : ℤ := d.exp + ds.length
  let dotplace : ℤ := if d.exp ≤ 0 ∧ leftdigits > -6 then leftdigits else 1
  let body : List Char :=
    if dotplace ≤ 0 then '0' :: '.' :: List.replicate (-dotplace).toNat '0' ++ ds
    else if ds.length ≤ dotplace then ds ++ List.replicate (dotplace - ds.length).toNat '0'
    else ds.take dotplace.toNat ++ '.' :: ds.drop dotplace.toNat
  let tail : List Char := if leftdigits = dotplace then [] else expPart (leftdigits - dotplace)
  String.ofList ((if d.neg then ['-'] else []) ++ body ++ tail)

/-- `x` written with the exponent `e`; a zero has no sign. -/
def places (e : ℤ) (x : ℚ) : Dec := ⟨halfEven (x / 10 ^ e) < 0, (halfEven (x / 10 ^ e)).natAbs, e⟩

example : (places (-4) (5 / 2)).str = "2.5000" := by decide +kernel

example : str ⟨false, 1250, -2⟩ = "12.50" ∧ str ⟨true, 5, -7⟩ = "-5E-7" ∧ str ⟨false, 12, 3⟩ = "1.2E+4" := by
  decide +kernel

end Dec

end AlphaAlgo
