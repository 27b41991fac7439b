import AlphaAlgo.Backtest.Records

/-!
# Fills — order intents, costs and the evaluation of a fill

`evaluateFill` decides one intent against one record: whether it can be executed, at what price and cost, and whether
position and cash admit it.  Amounts are given by their value and computed in the arithmetic of a context `c`; the
engines run in `Ctx.default`, `Ctx.exact` is arithmetic without rounding.

* `evaluated`: an evaluation leaves cash and position as they are, or is a fill that both admit.
* `evaluateFill_relabel`: the index of the intent only shows in the outcome.
-/

namespace AlphaAlgo.Backtest

open Loop

/-- What the engines raise. -/
inductive BacktestError where
  | engine (text : String)
  | portfolio (text : String)
deriving DecidableEq

/-! ### The arithmetic of the engines -/

theorem fix_le_fix {x y : ℚ} (h : x ≤ y) : Ctx.default.fix x ≤ Ctx.default.fix y :=
  Ctx.fix_mono (p := 28) (by norm_num) h

theorem fix_nonneg {x : ℚ} (h : 0 ≤ x) : 0 ≤ Ctx.default.fix x := by
  have hle := fix_le_fix h
  rwa [Ctx.fix_zero] at hle

theorem fix_fix (x : ℚ) : Ctx.default.fix (Ctx.default.fix x) = Ctx.default.fix x :=
  Ctx.fix_of_digits (p := 28) (Ctx.digits_fix (by norm_num) x)

/-! ### Intents -/

inductive IntentSide where
  | buy
  | sell
deriving DecidableEq, Repr

inductive IntentType where
  | market
  | limit
deriving DecidableEq, Repr

/-- The last four fields are the checks of `__post_init__`. -/
structure OrderIntent where
  side : IntentSide
  orderType : IntentType
  quantity : ℚ
  decidedAt : DateTime
  limitPrice : Option ℚ := none
  quantity_pos : 0 < quantity
  decided_aware : decidedAt.aware = true
  limit_pos : orderType = .limit → ∃ p, limitPrice = some p ∧ 0 < p
  market_none : orderType = .market → limitPrice = none

/-! ### Costs -/

/-- The last three fields are the checks of `__post_init__`. -/
structure CostModel where
  commissionPerFill : ℚ
  slippageBps : ℚ
  commission_nonneg : 0 ≤ commissionPerFill
  bps_nonneg : 0 ≤ slippageBps
  bps_lt : slippageBps < 10000

/-- `apply_slippage`. -/
def applySlippage (c : Ctx) (anchor : ℚ) (side : IntentSide) (bps : ℚ) : Except BacktestError ℚ := do
  raiseIf (anchor ≤ 0) (.engine "anchor_price must be positive")
  raiseIf (bps < 0 ∨ 10000 ≤ bps) (.engine "slippage_bps must be in [0, 10000)")
  if bps = 0 then return anchor
  else
    let factor := match side with
      | .buy => c.fix (1 + c.fix (bps / 10000))
      | .sell => c.fix (1 - c.fix (bps / 10000))
    return c.fix (anchor * factor)

/-- `commission_for`. -/
def commissionFor (commissionPerFill : ℚ) : Except BacktestError ℚ := do
  raiseIf (commissionPerFill < 0) (.engine "commission_per_fill must be non-negative")
  return commissionPerFill

/-! ### Outcomes -/

inductive UnfilledReason where
  | noRecordAfterDecision
  | insufficientCash
  | insufficientPosition
  | limitNotExecutable
  | noExecutableAsk
  | noExecutableBid
deriving DecidableEq, Repr

structure FillRecord where
  sequence : ℕ
  intentIndex : ℕ
  side : IntentSide
  quantity : ℚ
  anchorPrice : ℚ
  slippagePerShare : ℚ
  fillPrice : ℚ
  commissionAmount : ℚ
  grossValue : ℚ
  cashFlow : ℚ
  recordIndex : ℕ
  filledAt : DateTime
deriving DecidableEq

/-- A fill, or the reason why there is none; the checks of `FillOutcome.__post_init__` hold by construction. -/
inductive FillResult where
  | filled (fill : FillRecord)
  | unfilled (reason : UnfilledReason)
deriving DecidableEq

structure FillOutcome where
  intentIndex : ℕ
  result : FillResult
deriving DecidableEq

def FillOutcome.fill (o : FillOutcome) : Option FillRecord :=
  match o.result with
  | .filled fill => some fill
  | .unfilled _ => none

structure FillEvaluation where
  outcome : FillOutcome
  fill : Option FillRecord
  cash : ℚ
  position : ℚ

/-- `_unfilled`. -/
def unfilled (intentIndex : ℕ) (reason : UnfilledReason) (cash position : ℚ) : FillEvaluation :=
  ⟨⟨intentIndex, .unfilled reason⟩, none, cash, position⟩

/-! ### Executability -/

/-- `_require_decimal`. -/
def requireDecimal (value : Decimal) (name : String) : Except BacktestError Dec :=
  match value with
  | .finite d => .ok d
  | _ => .error (.engine (name ++ " must be finite"))

/-- An anchor price, or the reason why the intent cannot be executed. -/
inductive Execution where
  | anchored (anchor : Dec)
  | refused (reason : UnfilledReason)

def OrderIntent.limitOf (intent : OrderIntent) : Except BacktestError ℚ :=
  match intent.limitPrice with
  | none => .error (.engine "limit intents require a limit_price")
  | some limit => .ok limit

/-- The limit does not reach the anchor. -/
def OrderIntent.beyond (intent : OrderIntent) (limit anchor : ℚ) : Bool :=
  match intent.side with
  | .buy => limit < anchor
  | .sell => anchor < limit

/-- A limit intent on the leg of a tick that it needs. -/
def limitOnLeg (intent : OrderIntent) (leg : Option Decimal) (name : String) (missing : UnfilledReason) :
    Except BacktestError Execution :=
  match leg with
  | none => .ok (.refused missing)
  | some value => do
    let anchor ← requireDecimal value name
    let limit ← intent.limitOf
    return if intent.beyond limit anchor.val then .refused .limitNotExecutable else .anchored anchor

/-- A market intent on a tick: the executable side when it is there, else the last price. -/
def marketOnLeg (leg : Option Decimal) (name : String) (ltp : Decimal) : Except BacktestError Execution :=
  match leg with
  | some value => (requireDecimal value name).map .anchored
  | none => (requireDecimal ltp "tick ltp").map .anchored

/-- Executability and anchor. -/
def executable (intent : OrderIntent) (record : MarketRecord) : Except BacktestError Execution :=
  match record with
  | .candle k => do
    let openPrice ← requireDecimal k.openPrice "candle open_price"
    match intent.orderType with
    | .market => return .anchored openPrice
    | .limit => do
      let limit ← intent.limitOf
      return if intent.beyond limit openPrice.val then .refused .limitNotExecutable else .anchored openPrice
  | .tick t =>
    match intent.orderType, intent.side with
    | .limit, .buy => limitOnLeg intent t.ask "tick ask" .noExecutableAsk
    | .limit, .sell => limitOnLeg intent t.bid "tick bid" .noExecutableBid
    | .market, .buy => marketOnLeg t.ask "tick ask" t.ltp
    | .market, .sell => marketOnLeg t.bid "tick bid" t.ltp

/-! ### Evaluation -/

/-- The price of a fill at an anchor; slippage applies to market fills only. -/
def priceAt (c : Ctx) (intent : OrderIntent) (costModel : CostModel) (anchor : ℚ) : Except BacktestError ℚ :=
  match intent.orderType with
  | .market => applySlippage c anchor intent.side costModel.slippageBps
  | .limit => .ok anchor

/-- What a fill would do to the cash. -/
def cashFlow (c : Ctx) (side : IntentSide) (grossValue commission : ℚ) : ℚ :=
  match side with
  | .sell => c.fix (grossValue - commission)
  | .buy => c.fix (-c.fix (grossValue + commission))

/-- The position after a fill. -/
def newPosition (c : Ctx) (side : IntentSide) (position quantity : ℚ) : ℚ :=
  match side with
  | .sell => c.fix (position - quantity)
  | .buy => c.fix (position + quantity)

/-- The fill of an intent at a price. -/
def makeFill (c : Ctx) (intent : OrderIntent) (record : MarketRecord) (recordIndex sequence intentIndex : ℕ)
    (anchor fillPrice commission : ℚ) : FillRecord where
  sequence := sequence
  intentIndex := intentIndex
  side := intent.side
  quantity := intent.quantity
  anchorPrice := anchor
  slippagePerShare := c.fix |c.fix (fillPrice - anchor)|
  fillPrice := fillPrice
  commissionAmount := commission
  grossValue := c.fix (intent.quantity * fillPrice)
  cashFlow := cashFlow c intent.side (c.fix (intent.quantity * fillPrice)) commission
  recordIndex := recordIndex
  filledAt := record.timestamp

/-- The fill, if position and cash admit it. -/
def settle (c : Ctx) (intent : OrderIntent) (fill : FillRecord) (cash position : ℚ) : FillEvaluation :=
  if intent.side = .sell ∧ position < intent.quantity then
    unfilled fill.intentIndex .insufficientPosition cash position
  else if c.fix (cash + fill.cashFlow) < 0 then unfilled fill.intentIndex .insufficientCash cash position
  else ⟨⟨fill.intentIndex, .filled fill⟩, some fill, c.fix (cash + fill.cashFlow),
    newPosition c intent.side position intent.quantity⟩

def evaluateFill (c : Ctx) (intent : OrderIntent) (record : MarketRecord) (recordIndex : ℕ) (cash position : ℚ)
    (costModel : CostModel) (sequence intentIndex : ℕ) : Except BacktestError FillEvaluation := do
  raiseIf (position < 0) (.engine "position must be non-negative")
  match ← executable intent record with
  | .refused reason => return unfilled intentIndex reason cash position
  | .anchored anchor => do
    raiseIf (anchor.val ≤ 0) (.engine ("anchor price must be strictly positive (got " ++ anchor.str ++ ")"))
    let fillPrice ← priceAt c intent costModel anchor.val
    let commission ← commissionFor costModel.commissionPerFill
    return settle c intent (makeFill c intent record recordIndex sequence intentIndex anchor.val fillPrice commission)
      cash position

/-! ### What an evaluation is -/

/-- A fill of the intent at an anchor, which position and cash admit. -/
structure Admitted (c : Ctx) (intent : OrderIntent) (record : MarketRecord) (recordIndex : ℕ) (cash position : ℚ)
    (costModel : CostModel) (sequence intentIndex : ℕ) (fill : FillRecord) : Prop where
  made : ∃ anchor fillPrice, executable intent record = .ok (.anchored anchor) ∧ 0 < anchor.val ∧
    priceAt c intent costModel anchor.val = .ok fillPrice ∧
    fill = makeFill c intent record recordIndex sequence intentIndex anchor.val fillPrice costModel.commissionPerFill
  position_le : intent.side = .sell → intent.quantity ≤ position
  cash_nonneg : 0 ≤ c.fix (cash + fill.cashFlow)

/-- What an evaluation can be: nothing changes, or a fill that is admitted. -/
inductive Evaluated (c : Ctx) (intent : OrderIntent) (record : MarketRecord) (recordIndex : ℕ) (cash position : ℚ)
    (costModel : CostModel) (sequence intentIndex : ℕ) : FillEvaluation → Prop
  | unfilled (reason : UnfilledReason) :
    Evaluated c intent record recordIndex cash position costModel sequence intentIndex
      (unfilled intentIndex reason cash position)
  | filled {fill : FillRecord}
      (hfill : Admitted c intent record recordIndex cash position costModel sequence intentIndex fill) :
    Evaluated c intent record recordIndex cash position costModel sequence intentIndex
      ⟨⟨intentIndex, .filled fill⟩, some fill, c.fix (cash + fill.cashFlow),
        newPosition c intent.side position intent.quantity⟩

section Evaluation

variable {c : Ctx} {intent : OrderIntent} {record : MarketRecord} {recordIndex : ℕ} {cash position : ℚ}
  {costModel : CostModel} {sequence intentIndex : ℕ}

theorem commissionFor_model (costModel : CostModel) :
    commissionFor costModel.commissionPerFill = .ok costModel.commissionPerFill := by
  rw [commissionFor, raiseIf, if_neg (not_lt.mpr costModel.commission_nonneg)]
  rfl

/-- **An evaluation** changes nothing or is a fill. -/
theorem evaluated {e : FillEvaluation}
    (h : evaluateFill c intent record recordIndex cash position costModel sequence intentIndex = .ok e) :
    Evaluated c intent record recordIndex cash position costModel sequence intentIndex e := by
  simp only [evaluateFill, bind_eq_ok, raiseIf_eq_ok] at h
  obtain ⟨-, -, execution, hexecution, h⟩ := h
  cases execution with
  | refused reason =>
    cases h
    exact .unfilled reason
  | anchored anchor =>
    simp only [bind_eq_ok, raiseIf_eq_ok, not_le] at h
    obtain ⟨-, hanchor, fillPrice, hprice, commission, hcommission, h⟩ := h
    rw [commissionFor_model] at hcommission
    cases hcommission
    cases h
    unfold settle
    split_ifs with hposition hcash
    · exact .unfilled _
    · exact .unfilled _
    · rw [not_and, not_lt] at hposition
      exact .filled ⟨⟨anchor, fillPrice, hexecution, hanchor, hprice, rfl⟩, hposition, not_lt.mp hcash⟩

namespace Admitted

variable {fill : FillRecord} (h : Admitted c intent record recordIndex cash position costModel sequence intentIndex fill)

include h

theorem side : fill.side = intent.side := by
  obtain ⟨anchor, fillPrice, -, -, -, rfl⟩ := h.made
  rfl

theorem quantity : fill.quantity = intent.quantity := by
  obtain ⟨anchor, fillPrice, -, -, -, rfl⟩ := h.made
  rfl

theorem sequence_eq : fill.sequence = sequence := by
  obtain ⟨anchor, fillPrice, -, -, -, rfl⟩ := h.made
  rfl

theorem recordIndex_eq : fill.recordIndex = recordIndex := by
  obtain ⟨anchor, fillPrice, -, -, -, rfl⟩ := h.made
  rfl

theorem commission : fill.commissionAmount = costModel.commissionPerFill := by
  obtain ⟨anchor, fillPrice, -, -, -, rfl⟩ := h.made
  rfl

theorem grossValue : fill.grossValue = c.fix (fill.quantity * fill.fillPrice) := by
  obtain ⟨anchor, fillPrice, -, -, -, rfl⟩ := h.made
  rfl

theorem flow : fill.cashFlow = cashFlow c fill.side fill.grossValue fill.commissionAmount := by
  obtain ⟨anchor, fillPrice, -, -, -, rfl⟩ := h.made
  rfl

end Admitted

/-- The fill of an evaluation is that of its outcome, at its record. -/
theorem Evaluated.fill_eq {e : FillEvaluation}
    (h : Evaluated c intent record recordIndex cash position costModel sequence intentIndex e) :
    e.outcome.fill = e.fill ∧ ∀ fill, e.fill = some fill → fill.recordIndex = recordIndex := by
  cases h with
  | unfilled reason => exact ⟨rfl, fun fill hfill => by cases hfill⟩
  | filled hfill =>
    refine ⟨rfl, fun fill' heq => ?_⟩
    cases heq
    exact hfill.recordIndex_eq

/-- The outcome of another intent index. -/
def FillOutcome.relabel (i : ℕ) (o : FillOutcome) : FillOutcome where
  intentIndex := i
  result :=
    match o.result with
    | .filled fill => .filled { fill with intentIndex := i }
    | .unfilled reason => .unfilled reason

def FillEvaluation.relabel (i : ℕ) (e : FillEvaluation) : FillEvaluation :=
  { e with outcome := e.outcome.relabel i, fill := e.fill.map fun fill => { fill with intentIndex := i } }

theorem settle_relabel (i : ℕ) (anchor fillPrice commission : ℚ) :
    settle c intent (makeFill c intent record recordIndex sequence i anchor fillPrice commission) cash position =
      (settle c intent (makeFill c intent record recordIndex sequence intentIndex anchor fillPrice commission) cash
        position).relabel i := by
  have hflow : (makeFill c intent record recordIndex sequence i anchor fillPrice commission).cashFlow =
      (makeFill c intent record recordIndex sequence intentIndex anchor fillPrice commission).cashFlow := rfl
  unfold settle
  rw [hflow]
  by_cases hposition : intent.side = .sell ∧ position < intent.quantity
  · rw [if_pos hposition, if_pos hposition]
    rfl
  · rw [if_neg hposition, if_neg hposition]
    by_cases hcash : c.fix (cash +
        (makeFill c intent record recordIndex sequence intentIndex anchor fillPrice commission).cashFlow) < 0
    · rw [if_pos hcash, if_pos hcash]
      rfl
    · rw [if_neg hcash, if_neg hcash]
      rfl

/-- **The index of the intent** only shows in the outcome. -/
theorem evaluateFill_relabel (i : ℕ) : evaluateFill c intent record recordIndex cash position costModel sequence i =
    (evaluateFill c intent record recordIndex cash position costModel sequence intentIndex).map
      (FillEvaluation.relabel i) := by
  unfold evaluateFill
  rw [commissionFor_model]
  cases raiseIf (position < 0) (BacktestError.engine "position must be non-negative") with
  | error e => rfl
  | ok u =>
    cases executable intent record with
    | error e => rfl
    | ok execution =>
      cases execution with
      | refused reason => rfl
      | anchored anchor =>
        dsimp only [bind, Except.bind, Except.map]
        cases raiseIf (anchor.val ≤ 0)
          (BacktestError.engine ("anchor price must be strictly positive (got " ++ anchor.str ++ ")")) with
        | error e => rfl
        | ok u =>
          cases priceAt c intent costModel anchor.val with
          | error e => rfl
          | ok fillPrice =>
            exact congrArg Except.ok (settle_relabel i anchor.val fillPrice costModel.commissionPerFill)

end Evaluation

end AlphaAlgo.Backtest
