import AlphaAlgo.Backtest.Fills
import AlphaAlgo.Backtest.Metrics
import AlphaAlgo.Lib.Sums
import AlphaAlgo.Lib.Tails

/-!
# Var — historical value at risk and expected shortfall

`computeVarCvar` sorts the returns, takes the worst `k` of them and reports the loss of the best of these and their mean
loss.  The constructor of the result refuses a mean loss below the other one.

* `losses_mono`: in exact arithmetic both losses grow with the confidence and do not depend on the order of the returns.
* `answers_iff`: in a context the result is refused exactly when rounding the running sum of the tail lifts its mean above
  the best return of the tail.
* `answers_of_unrounded`: so a result with ordered losses is returned when no running sum of the tail is rounded, and when
  the best return of the tail is no loss.
-/

namespace AlphaAlgo.Backtest

open Loop Tails

/-- `RiskMeasureError`, and the index out of range of a tail that is longer than the returns. -/
inductive RiskError where
  | riskMeasure (text : String)
  | indexError
deriving DecidableEq

/-- The last fields are the checks of `__post_init__`. -/
structure VarCvarMetrics where
  confidence : ℚ
  method : String
  observationCount : ℕ
  varReturn : ℚ
  varLoss : ℚ
  cvarLoss : ℚ
  confidence_range : 0 < confidence ∧ confidence < 1
  count_pos : 1 ≤ observationCount
  varLoss_nonneg : 0 ≤ varLoss
  cvarLoss_nonneg : 0 ≤ cvarLoss
  varLoss_le : varLoss ≤ cvarLoss

theorem loss_nonneg {loss : ℚ} (h : ¬loss < 0) : 0 ≤ loss := not_lt.mp h

/-- The constructor. -/
def VarCvarMetrics.new (confidence : ℚ) (observationCount : ℕ) (varReturn varLoss cvarLoss : ℚ) :
    Except RiskError VarCvarMetrics :=
  if hconfidence : ¬(0 < confidence ∧ confidence < 1) then
    .error (.riskMeasure "confidence must be in the open interval (0, 1)")
  else if hcount : observationCount < 1 then .error (.riskMeasure "observation_count must be a positive int")
  else if hvar : varLoss < 0 then .error (.riskMeasure "var_loss must be non-negative")
  else if hcvar : cvarLoss < 0 then .error (.riskMeasure "cvar_loss must be non-negative")
  else if hle : cvarLoss < varLoss then
    .error (.riskMeasure "cvar_loss must be at least var_loss (tail mean cannot beat its own worst point)")
  else .ok
    { confidence := confidence
      method := "historical"
      observationCount := observationCount
      varReturn := varReturn
      varLoss := varLoss
      cvarLoss := cvarLoss
      confidence_range := not_not.mp hconfidence
      count_pos := not_lt.mp hcount
      varLoss_nonneg := loss_nonneg hvar
      cvarLoss_nonneg := loss_nonneg hcvar
      varLoss_le := not_lt.mp hle }

/-- A finite value, or the error. -/
def finiteValue (text : String) : Decimal → Except RiskError ℚ
  | .finite d => .ok d.val
  | _ => .error (.riskMeasure text)

/-- `_validate_returns`. -/
def validateReturns (returns : List Decimal) : Except RiskError (List ℚ) :=
  returns.mapM (finiteValue "returns must contain only finite Decimals")

section

variable (c : Ctx)

/-- How many returns are in the tail. -/
def tailCount (confidence : ℚ) (n : ℕ) : ℕ := (max 1 ⌊c.fix (c.fix (1 - confidence) * n)⌋).toNat

/-- A negative loss is clamped at zero. -/
def clamped (loss : ℚ) : ℚ := if loss < 0 then 0 else loss

def varLoss (worst : ℚ) : ℚ := clamped (c.fix (-worst))

def cvarLoss (tail : List ℚ) : ℚ := clamped (c.fix (-c.fix (contextTotal c tail / tail.length)))

def computeVarCvar (returns : List Decimal) (confidence : Decimal) : Except RiskError (Option VarCvarMetrics) := do
  let values ← validateReturns returns
  let level ← finiteValue "confidence must be a finite Decimal" confidence
  raiseIf (¬(0 < level ∧ level < 1)) (.riskMeasure "confidence must be in the open interval (0, 1)")
  if values.length = 0 then return none
  let k := tailCount c level values.length
  match (sorted values)[k - 1]? with
  | none => throw .indexError
  | some worst =>
    let m ← VarCvarMetrics.new level values.length worst (varLoss c worst) (cvarLoss c (smallest k values))
    return some m

end

/-! ### What is answered -/

theorem clamped_nonneg (loss : ℚ) : 0 ≤ clamped loss := by
  unfold clamped
  split_ifs with h
  · exact le_rfl
  · exact not_lt.mp h

theorem clamped_mono {a b : ℚ} (h : a ≤ b) : clamped a ≤ clamped b := by
  unfold clamped
  split_ifs <;> linarith

/-- Two clamped losses compare like the losses, unless the first is none. -/
theorem clamped_le_iff {a b : ℚ} : clamped a ≤ clamped b ↔ a ≤ 0 ∨ a ≤ b := by
  unfold clamped
  split_ifs with ha hb hb
  · simp [ha.le]
  · simp [ha.le, not_lt.mp hb]
  · have : ¬a ≤ b := by linarith
    simp [this]
  · rcases (not_lt.mp ha).eq_or_lt with rfl | hpos
    · simp [not_lt.mp hb]
    · simp [not_le.mpr hpos]

/-- The result is refused when its mean loss is below its other loss. -/
theorem VarCvarMetrics.exists_new_iff {confidence : ℚ} {n : ℕ} {worst var cvar : ℚ}
    (hconfidence : 0 < confidence ∧ confidence < 1) (hn : 1 ≤ n) (hvar : 0 ≤ var) (hcvar : 0 ≤ cvar) :
    (∃ m, new confidence n worst var cvar = .ok m) ↔ var ≤ cvar := by
  unfold new
  rw [dif_neg (not_not.mpr hconfidence), dif_neg (not_lt.mpr hn), dif_neg (not_lt.mpr hvar), dif_neg (not_lt.mpr hcvar)]
  split_ifs with hle
  · simp [not_le.mpr hle]
  · simp [not_lt.mp hle]

theorem VarCvarMetrics.losses_of_new {confidence : ℚ} {n : ℕ} {worst var cvar : ℚ} {m : VarCvarMetrics}
    (h : new confidence n worst var cvar = .ok m) : m.varLoss = var ∧ m.cvarLoss = cvar := by
  unfold new at h
  split_ifs at h
  cases h
  exact ⟨rfl, rfl⟩

section

variable {c : Ctx} {returns : List Dec} {confidence : Dec}

theorem map_some_eq_ok {x : Except RiskError VarCvarMetrics} {m : VarCvarMetrics} (h : x.map some = .ok (some m)) :
    ∃ m, x = .ok m := by
  cases x with
  | error e => cases h
  | ok m => exact ⟨m, rfl⟩

/-- Finite values are their numbers, whatever the text of the error. -/
theorem mapM_finiteValue (text : String) (l : List Dec) :
    (l.map Decimal.finite).mapM (finiteValue text) = .ok (l.map Dec.val) := by
  rw [List.mapM_map]
  exact mapM_ok fun _ _ => rfl

theorem validateReturns_finite (returns : List Dec) :
    validateReturns (returns.map .finite) = .ok (returns.map Dec.val) := mapM_finiteValue _ returns

theorem tailCount_pos (c : Ctx) (confidence : ℚ) (n : ℕ) : 0 < tailCount c confidence n := by
  unfold tailCount
  omega

/-- What the function makes of finite returns. -/
theorem computeVarCvar_finite (hne : returns ≠ []) (hconfidence : 0 < confidence.val ∧ confidence.val < 1) :
    computeVarCvar c (returns.map .finite) (.finite confidence) =
      match (sorted (returns.map Dec.val))[tailCount c confidence.val returns.length - 1]? with
      | none => .error .indexError
      | some worst => (VarCvarMetrics.new confidence.val returns.length worst (varLoss c worst)
          (cvarLoss c (smallest (tailCount c confidence.val returns.length) (returns.map Dec.val)))).map some := by
  have hlength : ¬(returns.map Dec.val).length = 0 := by simpa using hne
  have hcheck : raiseIf (¬(0 < confidence.val ∧ confidence.val < 1))
      (RiskError.riskMeasure "confidence must be in the open interval (0, 1)") = .ok () :=
    raiseIf_eq_ok.mpr (not_not.mpr hconfidence)
  have hvalue : finiteValue "confidence must be a finite Decimal" (.finite confidence) = .ok confidence.val := rfl
  unfold computeVarCvar
  rw [validateReturns_finite, hvalue]
  show (raiseIf _ _ >>= fun _ => _) = _
  rw [hcheck]
  show (if _ then _ else _) = _
  rw [if_neg hlength, List.length_map]
  cases (sorted (returns.map Dec.val))[tailCount c confidence.val returns.length - 1]? with
  | none => rfl
  | some worst =>
    dsimp only
    cases VarCvarMetrics.new confidence.val returns.length worst (varLoss c worst)
      (cvarLoss c (smallest (tailCount c confidence.val returns.length) (returns.map Dec.val))) <;> rfl

/-- A tail that is not longer than the returns. -/
theorem computeVarCvar_of_le {k : ℕ} (hconfidence : 0 < confidence.val ∧ confidence.val < 1)
    (hk : tailCount c confidence.val returns.length = k) (hlt : k - 1 < (sorted (returns.map Dec.val)).length) :
    computeVarCvar c (returns.map .finite) (.finite confidence) =
      (VarCvarMetrics.new confidence.val returns.length (sorted (returns.map Dec.val))[k - 1]
        (varLoss c (sorted (returns.map Dec.val))[k - 1]) (cvarLoss c (smallest k (returns.map Dec.val)))).map some := by
  have hne : returns ≠ [] := by
    rintro rfl
    exact absurd hlt (Nat.not_lt_zero _)
  rw [computeVarCvar_finite hne hconfidence, hk, List.getElem?_eq_getElem hlt]

/-- It is answered when the constructor does not refuse its losses. -/
theorem exists_answer_iff {k : ℕ} (hconfidence : 0 < confidence.val ∧ confidence.val < 1)
    (hk : tailCount c confidence.val returns.length = k) (hlt : k - 1 < (sorted (returns.map Dec.val)).length) :
    (∃ m, computeVarCvar c (returns.map .finite) (.finite confidence) = .ok (some m) ∧
      m.varLoss = varLoss c (sorted (returns.map Dec.val))[k - 1] ∧
      m.cvarLoss = cvarLoss c (smallest k (returns.map Dec.val))) ↔
    varLoss c (sorted (returns.map Dec.val))[k - 1] ≤ cvarLoss c (smallest k (returns.map Dec.val)) := by
  have hn : 1 ≤ returns.length := by
    rw [length_sorted, List.length_map] at hlt
    omega
  rw [computeVarCvar_of_le hconfidence hk hlt]
  refine Iff.trans ?_ (@VarCvarMetrics.exists_new_iff confidence.val returns.length (sorted (returns.map Dec.val))[k - 1]
    _ _ hconfidence hn (clamped_nonneg _) (clamped_nonneg _))
  constructor
  · rintro ⟨m, hm, -⟩
    exact map_some_eq_ok hm
  · rintro ⟨m, hm⟩
    exact ⟨m, by rw [hm]; rfl, VarCvarMetrics.losses_of_new hm⟩

/-- A tail that is longer than the returns. -/
theorem computeVarCvar_of_lt (hne : returns ≠ []) (hconfidence : 0 < confidence.val ∧ confidence.val < 1)
    (h : returns.length < tailCount c confidence.val returns.length) :
    computeVarCvar c (returns.map .finite) (.finite confidence) = .error .indexError := by
  have hnone : (sorted (returns.map Dec.val))[tailCount c confidence.val returns.length - 1]? = none := by
    rw [List.getElem?_eq_none_iff, length_sorted, List.length_map]
    omega
  rw [computeVarCvar_finite hne hconfidence, hnone]

end

/-! ### Exact arithmetic -/

section Exact

variable {values : List ℚ} {level : ℚ} {n k : ℕ}

theorem tailCount_le_exact (hlevel : 0 < level) (hn : 1 ≤ n) : tailCount .exact level n ≤ n := by
  have hle : (Ctx.exact.fix (Ctx.exact.fix (1 - level) * n) : ℚ) ≤ (n : ℤ) := by
    rw [Ctx.fix_exact, Ctx.fix_exact]
    push_cast
    nlinarith [(Nat.cast_nonneg n : (0 : ℚ) ≤ n)]
  have hfloor : ⌊Ctx.exact.fix (Ctx.exact.fix (1 - level) * n)⌋ ≤ n := by
    have := Int.floor_mono hle
    rwa [Int.floor_intCast] at this
  unfold tailCount
  omega

/-- The tail shrinks as the confidence grows. -/
theorem tailCount_anti {level' : ℚ} (h : level ≤ level') (n : ℕ) :
    tailCount .exact level' n ≤ tailCount .exact level n := by
  have hle : Ctx.exact.fix (Ctx.exact.fix (1 - level') * n) ≤ Ctx.exact.fix (Ctx.exact.fix (1 - level) * n) := by
    simp only [Ctx.fix_exact]
    exact mul_le_mul_of_nonneg_right (by linarith) (Nat.cast_nonneg n)
  have := Int.floor_mono hle
  unfold tailCount
  omega

theorem cvarLoss_exact (hk : k ≤ values.length) :
    cvarLoss .exact (smallest k values) = clamped (-((smallest k values).sum / k)) := by
  rw [cvarLoss, contextTotal_exact, length_smallest hk, Ctx.fix_exact, Ctx.fix_exact]

/-- The mean of the tail is not above its best return. -/
theorem varLoss_le_exact (hpos : 0 < k) (hk : k - 1 < (sorted values).length) :
    varLoss .exact (sorted values)[k - 1] ≤ cvarLoss .exact (smallest k values) := by
  obtain ⟨m, rfl⟩ := Nat.exists_eq_add_one_of_ne_zero hpos.ne'
  rw [varLoss, Ctx.fix_exact, cvarLoss_exact (by rw [length_sorted] at hk; omega)]
  exact clamped_mono (neg_le_neg (mean_le_worst hk))

/-- The answer in exact arithmetic. -/
theorem exists_answer_exact (returns : List Dec) (hne : returns ≠ []) {confidence : Dec}
    (hconfidence : 0 < confidence.val ∧ confidence.val < 1) {k : ℕ}
    (hk : tailCount .exact confidence.val returns.length = k) :
    ∃ (hlt : k - 1 < (sorted (returns.map Dec.val)).length) (m : VarCvarMetrics),
      computeVarCvar .exact (returns.map .finite) (.finite confidence) = .ok (some m) ∧
      m.varLoss = varLoss .exact (sorted (returns.map Dec.val))[k - 1] ∧
      m.cvarLoss = clamped (-((smallest k (returns.map Dec.val)).sum / k)) := by
  have hn : 1 ≤ returns.length := List.length_pos_iff.mpr hne
  have hpos : 0 < k := hk ▸ tailCount_pos _ _ _
  have hle : k ≤ returns.length := hk ▸ tailCount_le_exact hconfidence.1 hn
  have hlt : k - 1 < (sorted (returns.map Dec.val)).length := by
    rw [length_sorted, List.length_map]
    omega
  obtain ⟨m, hm, hvar, hcvar⟩ := (exists_answer_iff hconfidence hk hlt).mpr (varLoss_le_exact hpos hlt)
  refine ⟨hlt, m, hm, hvar, ?_⟩
  rw [hcvar, cvarLoss_exact (by rwa [List.length_map])]

/-- The order of the returns does not matter. -/
theorem computeVarCvar_perm {c : Ctx} {returns returns' : List Dec} (hperm : returns'.Perm returns)
    (hne : returns ≠ []) {confidence : Dec} (hconfidence : 0 < confidence.val ∧ confidence.val < 1) :
    computeVarCvar c (returns'.map .finite) (.finite confidence) =
      computeVarCvar c (returns.map .finite) (.finite confidence) := by
  have hvalues := hperm.map Dec.val
  have hne' : returns' ≠ [] := by
    rintro rfl
    exact hne hperm.nil_eq.symm
  rw [computeVarCvar_finite hne' hconfidence, computeVarCvar_finite hne hconfidence, hperm.length_eq,
    sorted_perm hvalues, smallest_perm hvalues]

/-- **Both losses grow with the confidence**, and the order of the returns does not matter. -/
theorem losses_mono (returns : List Dec) (hne : returns ≠ []) (c₁ c₂ : Dec) (hpos : 0 < c₁.val) (h : c₁.val ≤ c₂.val)
    (hlt : c₂.val < 1) :
    ∃ m₁ m₂, computeVarCvar .exact (returns.map .finite) (.finite c₁) = .ok (some m₁) ∧
      computeVarCvar .exact (returns.map .finite) (.finite c₂) = .ok (some m₂) ∧
      m₁.varLoss ≤ m₂.varLoss ∧ m₁.cvarLoss ≤ m₂.cvarLoss ∧
      ∀ returns' : List Dec, returns'.Perm returns →
        computeVarCvar .exact (returns'.map .finite) (.finite c₁) = .ok (some m₁) ∧
        computeVarCvar .exact (returns'.map .finite) (.finite c₂) = .ok (some m₂) := by
  obtain ⟨hlt₁, m₁, hm₁, hvar₁, hcvar₁⟩ := exists_answer_exact returns hne ⟨hpos, h.trans_lt hlt⟩ rfl
  obtain ⟨hlt₂, m₂, hm₂, hvar₂, hcvar₂⟩ := exists_answer_exact returns hne ⟨hpos.trans_le h, hlt⟩ rfl
  have hanti := tailCount_anti h returns.length
  have hpos₂ := tailCount_pos .exact c₂.val returns.length
  refine ⟨m₁, m₂, hm₁, hm₂, ?_, ?_, fun returns' hperm => ?_⟩
  · rw [hvar₁, hvar₂]
    exact clamped_mono (neg_le_neg (worst_mono (by omega) _ hlt₁))
  · rw [hcvar₁, hcvar₂]
    refine clamped_mono (neg_le_neg (mean_mono hpos₂ hanti ?_))
    rw [length_sorted] at hlt₁
    omega
  · rw [computeVarCvar_perm hperm hne ⟨hpos, h.trans_lt hlt⟩, computeVarCvar_perm hperm hne ⟨hpos.trans_le h, hlt⟩]
    exact ⟨hm₁, hm₂⟩

/-- Returns of -10, -6, -2, 1 and 3 percent. -/
def fiveReturns : List Dec := [⟨true, 10, -2⟩, ⟨true, 6, -2⟩, ⟨true, 2, -2⟩, ⟨false, 1, -2⟩, ⟨false, 3, -2⟩]

theorem losses_mono_five : ∃ m₁ m₂,
    computeVarCvar .exact (fiveReturns.map .finite) (.finite ⟨false, 60, -2⟩) = .ok (some m₁) ∧
    computeVarCvar .exact (fiveReturns.map .finite) (.finite ⟨false, 80, -2⟩) = .ok (some m₂) ∧
    m₁.varLoss ≤ m₂.varLoss ∧ m₁.cvarLoss ≤ m₂.cvarLoss := by
  obtain ⟨m₁, m₂, hm₁, hm₂, hvar, hcvar, -⟩ := losses_mono fiveReturns (by decide) ⟨false, 60, -2⟩ ⟨false, 80, -2⟩
    (by decide +kernel) (by decide +kernel) (by decide +kernel)
  exact ⟨m₁, m₂, hm₁, hm₂, hvar, hcvar⟩

end Exact

/-! ### 28 digits -/

section Rounded

variable {values tail : List ℚ} {v x : ℚ} {k : ℕ}

/-- What rounding the running sum adds to it. -/
def excess (tail : List ℚ) : ℚ := contextTotal .default tail - tail.sum

/-- Rounding hides that `v` has grown by `x`. -/
def Hidden (v x : ℚ) : Prop := Ctx.default.fix (v + x) ≤ Ctx.default.fix v

/-- **The condition**: there are enough returns for the tail, and the best return of the tail is no loss, or what rounding
adds to the sum of the tail, less what the tail is below its best return, is too little to lift that return. -/
structure Resolved (values : List ℚ) (k : ℕ) : Prop where
  covered : k ≤ values.length
  hidden : ∀ worst ∈ (sorted values)[k - 1]?,
    0 ≤ worst ∨ Hidden worst ((excess (smallest k values) - spread worst (smallest k values)) / k)

/-- The mean of a tail whose sum is rounded. -/
theorem contextTotal_div (v : ℚ) (hne : tail ≠ []) :
    contextTotal .default tail / tail.length = v + (excess tail - spread v tail) / tail.length := by
  have hpos : (0 : ℚ) < tail.length := by exact_mod_cast List.length_pos_iff.mpr hne
  rw [excess, sum_eq_sub_spread v tail]
  field_simp
  ring

theorem fix_nonneg_iff : 0 ≤ Ctx.default.fix v ↔ 0 ≤ v := by
  constructor
  · intro h
    by_contra hv
    have hpos : 0 < Ctx.default.fix (-v) := Ctx.fix_pos (by norm_num) (by linarith)
    rw [Ctx.fix_neg] at hpos
    linarith
  · intro h
    have := @Ctx.fix_mono 28 (by norm_num) 0 v h
    rwa [Ctx.fix_zero] at this

/-- **The mean loss is not below the loss of the best return** exactly when rounding does not lift that return. -/
theorem varLoss_le_iff (v : ℚ) (hne : tail ≠ []) : varLoss .default v ≤ cvarLoss .default tail ↔
    0 ≤ v ∨ Hidden v ((excess tail - spread v tail) / tail.length) := by
  have htwice : Ctx.default.fix (-Ctx.default.fix (contextTotal .default tail / tail.length)) =
      -Ctx.default.fix (contextTotal .default tail / tail.length) := by
    rw [Ctx.fix_neg, fix_fix]
  rw [varLoss, cvarLoss, clamped_le_iff, htwice, Ctx.fix_neg, neg_nonpos, fix_nonneg_iff, neg_le_neg_iff, Hidden,
    ← contextTotal_div v hne]

/-- Where no running total is rounded, nothing is lifted. -/
theorem hidden_of_exact (h : Exact 28 tail) (hv : ∀ x ∈ tail, x ≤ v) :
    Hidden v ((excess tail - spread v tail) / tail.length) := by
  have hexcess : excess tail = 0 := by
    rw [excess, contextTotal, show Ctx.default = ⟨some 28⟩ from rfl, foldl_fix_eq_sum h, sub_self]
  have hnonneg := spread_nonneg hv
  refine Ctx.fix_mono (by norm_num) ?_
  rw [hexcess, zero_sub]
  have := div_nonneg hnonneg (Nat.cast_nonneg tail.length)
  rw [neg_div]
  linarith

/-- **An answer with ordered losses** is given exactly under the condition. -/
theorem answers_iff (returns : List Dec) (hne : returns ≠ []) (confidence : Dec) (hpos : 0 < confidence.val)
    (hlt : confidence.val < 1) :
    (∃ m, computeVarCvar .default (returns.map .finite) (.finite confidence) = .ok (some m) ∧
      m.varLoss ≤ m.cvarLoss ∧ 0 ≤ m.varLoss) ↔
    Resolved (returns.map Dec.val) (tailCount .default confidence.val returns.length) := by
  have hkpos := tailCount_pos .default confidence.val returns.length
  have hlength : (returns.map Dec.val).length = returns.length := List.length_map _
  by_cases hle : tailCount .default confidence.val returns.length ≤ returns.length
  · have hi : tailCount .default confidence.val returns.length - 1 < (sorted (returns.map Dec.val)).length := by
      rw [length_sorted, hlength]
      omega
    have hk : (smallest (tailCount .default confidence.val returns.length) (returns.map Dec.val)).length =
        tailCount .default confidence.val returns.length := length_smallest (by rwa [hlength])
    have htail : smallest (tailCount .default confidence.val returns.length) (returns.map Dec.val) ≠ [] := by
      rw [← List.length_pos_iff, hk]
      exact hkpos
    have hiff := varLoss_le_iff
      (sorted (returns.map Dec.val))[tailCount .default confidence.val returns.length - 1] htail
    rw [hk] at hiff
    constructor
    · rintro ⟨m, hm, -⟩
      refine ⟨by rwa [hlength], fun worst hworst => ?_⟩
      rw [List.getElem?_eq_getElem hi, Option.mem_some_iff] at hworst
      subst hworst
      rw [computeVarCvar_of_le ⟨hpos, hlt⟩ rfl hi] at hm
      exact hiff.mp ((VarCvarMetrics.exists_new_iff ⟨hpos, hlt⟩ (List.length_pos_iff.mpr hne) (clamped_nonneg _)
        (clamped_nonneg _)).mp (map_some_eq_ok hm))
    · intro h
      obtain ⟨m, hm, -⟩ := (exists_answer_iff ⟨hpos, hlt⟩ rfl hi).mpr
        (hiff.mpr (h.hidden _ (List.getElem?_eq_getElem hi)))
      exact ⟨m, hm, m.varLoss_le, m.varLoss_nonneg⟩
  · constructor
    · rintro ⟨m, hm, -⟩
      rw [computeVarCvar_of_lt hne ⟨hpos, hlt⟩ (not_le.mp hle)] at hm
      cases hm
    · intro h
      exact absurd (hlength ▸ h.covered) hle

/-- A tail of fewer than `10 ^ 28` returns is among them. -/
theorem tailCount_le_default {level : ℚ} {n : ℕ} (hlevel : 0 < level) (hn : 1 ≤ n) (hsmall : n < 10 ^ 28) :
    tailCount .default level n ≤ n := by
  have hone : Ctx.default.fix (1 - level) ≤ 1 := by
    calc Ctx.default.fix (1 - level) ≤ Ctx.default.fix 1 := Ctx.fix_mono (by norm_num) (by linarith)
      _ = 1 := by exact_mod_cast Ctx.fix_of_digits (digits_natCast (p := 28) (n := 1) (by norm_num))
  have hproduct : Ctx.default.fix (Ctx.default.fix (1 - level) * n) ≤ ((n : ℤ) : ℚ) := by
    calc Ctx.default.fix (Ctx.default.fix (1 - level) * n) ≤ Ctx.default.fix n :=
          Ctx.fix_mono (by norm_num) (mul_le_of_le_one_left (Nat.cast_nonneg n) hone)
      _ = ((n : ℤ) : ℚ) := by exact_mod_cast Ctx.fix_of_digits (digits_natCast hsmall)
  have hfloor := Int.floor_mono hproduct
  rw [Int.floor_intCast] at hfloor
  unfold tailCount
  omega

/-- **The condition on the returns**: the best return of the tail is no loss, or no running total of the tail needs more
than 28 digits. -/
def UnroundedTail (values : List ℚ) (k : ℕ) : Prop :=
  (∀ worst ∈ (sorted values)[k - 1]?, 0 ≤ worst) ∨ Exact 28 (smallest k values)

theorem UnroundedTail.resolved (hle : k ≤ values.length) (hpos : 0 < k) (h : UnroundedTail values k) : Resolved values k := by
  refine ⟨hle, fun worst hworst => ?_⟩
  rcases h with hnoLoss | hexact
  · exact .inl (hnoLoss worst hworst)
  · obtain ⟨hi, hget⟩ := List.getElem?_eq_some_iff.mp hworst
    have hhidden := hidden_of_exact hexact (v := worst) fun x hx => hget ▸ Tails.le_worst hpos hi hx
    rw [length_smallest hle] at hhidden
    exact .inr hhidden

/-- **An answer with ordered losses** is given where the best return of the tail is no loss, and where no running total of
the tail is rounded. -/
theorem answers_of_unrounded (returns : List Dec) (hne : returns ≠ []) (hsmall : returns.length < 10 ^ 28)
    (confidence : Dec) (hpos : 0 < confidence.val) (hlt : confidence.val < 1)
    (h : UnroundedTail (returns.map Dec.val) (tailCount .default confidence.val returns.length)) :
    ∃ m, computeVarCvar .default (returns.map .finite) (.finite confidence) = .ok (some m) ∧
      m.varLoss ≤ m.cvarLoss ∧ 0 ≤ m.varLoss := by
  have hle := tailCount_le_default hpos (List.length_pos_iff.mpr hne) hsmall
  rw [← List.length_map Dec.val] at hle
  exact (answers_iff returns hne confidence hpos hlt).mpr
    (h.resolved (by simpa using hle) (tailCount_pos .default confidence.val returns.length))

/-- A tail of two returns, whose running totals have two digits. -/
theorem answers_of_unrounded_five :
    ∃ m, computeVarCvar .default (fiveReturns.map .finite) (.finite ⟨false, 60, -2⟩) = .ok (some m) ∧
      m.varLoss ≤ m.cvarLoss ∧ 0 ≤ m.varLoss := by
  refine answers_of_unrounded fiveReturns (by decide) (by decide) ⟨false, 60, -2⟩ (by decide +kernel) (by decide +kernel) ?_
  have htail : smallest (tailCount .default (Dec.val ⟨false, 60, -2⟩) fiveReturns.length) (fiveReturns.map Dec.val) =
      [-10 / 100, -6 / 100] := by decide +kernel
  refine .inr fun n => ?_
  rw [htail]
  match n with
  | 0 => exact digits_zero 28
  | 1 => exact ⟨-10, -2, by norm_num, by norm_num⟩
  | n + 2 => exact ⟨-16, -2, by norm_num, by norm_num⟩

/-- Three equal returns whose sum has 29 digits: their mean is lifted above them. -/
theorem not_answers : ¬∀ (returns : List Dec) (confidence : Dec), returns ≠ [] → 0 < confidence.val →
    confidence.val < 1 → ∃ m, computeVarCvar .default (returns.map .finite) (.finite confidence) = .ok (some m) ∧
      m.varLoss ≤ m.cvarLoss ∧ 0 ≤ m.varLoss := by
  intro h
  obtain ⟨m, hm, -⟩ := h (List.replicate 4 ⟨true, 4 * 10 ^ 27 + 1, -28⟩) ⟨false, 25, -2⟩ (by decide) (by decide +kernel)
    (by decide +kernel)
  have hrefused : (computeVarCvar .default ((List.replicate 4 ⟨true, 4 * 10 ^ 27 + 1, -28⟩).map .finite)
      (.finite ⟨false, 25, -2⟩)).toOption.isSome = false := by
    decide +kernel
  rw [hm] at hrefused
  cases hrefused

end Rounded

end AlphaAlgo.Backtest
