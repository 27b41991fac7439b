import AlphaAlgo.Base.Values
import AlphaAlgo.Lib.Rounding

/-!
# Costs — cost model and funds of a paper account

`PaperCostModel` with `applySlippage` and `commissionAmount`, and the ledger `PaperFunds`.  Decimals are given by
their value; results are rounded to the 28 digits of the default context, and `quantize` is refused where the result
does not fit them (`InvalidOperation`).  Infinite and undefined decimals are not modelled.

* `fillCosts`: effective price, commission and the cash that a fill moves.
* `reserve_settleBuy`, `creditSell_of_pos`: what the settlement of a fill does to the funds.
-/

namespace AlphaAlgo.Paper

inductive OrderSide where
  | buy
  | sell
deriving DecidableEq, Repr

/-! ### The cost model -/

inductive SlippageModel where
  | zero
  | fixedBps
deriving DecidableEq, Repr

inductive CommissionModel where
  | zero
  | fixedPerTrade
deriving DecidableEq, Repr

/-- The last four fields are the checks of `__post_init__`. -/
structure PaperCostModel where
  slippage : SlippageModel := .zero
  slippageBps : ℚ := 0
  commission : CommissionModel := .zero
  commissionPerTrade : ℚ := 0
  bps_nonneg : 0 ≤ slippageBps := by norm_num
  fee_nonneg : 0 ≤ commissionPerTrade := by norm_num
  zero_slippage : slippage = .zero → slippageBps = 0 := by simp
  zero_commission : commission = .zero → commissionPerTrade = 0 := by simp

theorem no_slippage_nonneg : (0 : ℚ) ≤ 0 := le_rfl

/-- The effective price; `none` where `quantize` is refused. -/
def applySlippage (price : ℚ) (side : OrderSide) (model : PaperCostModel) : Option ℚ :=
  match model.slippage with
  | .zero => some price
  | .fixedBps =>
    let share := Ctx.default.fix (model.slippageBps / 10000)
    let factor := match side with
      | .buy => Ctx.default.fix (1 + share)
      | .sell => Ctx.default.fix (1 - share)
    Ctx.default.quantize? (-4) (Ctx.default.fix (price * factor))

/-- `commission_amount`; the notional is not read. -/
def commissionAmount (model : PaperCostModel) : Option ℚ :=
  match model.commission with
  | .zero => some 0
  | .fixedPerTrade => Ctx.default.quantize? (-2) model.commissionPerTrade

/-- Effective price, commission and the amount of cash of a fill: what a buy costs, what a sale brings. -/
structure FillCosts where
  effective : ℚ
  commission : ℚ
  amount : ℚ
deriving DecidableEq

/-- The costs of a fill of `quantity` at `price`; `none` where a `quantize` is refused. -/
def fillCosts (model : PaperCostModel) (side : OrderSide) (price : ℚ) (quantity : ℤ) : Option FillCosts := do
  let effective ← applySlippage price side model
  let notional := Ctx.default.fix (effective * quantity)
  let commission ← commissionAmount model
  let amount := match side with
    | .buy => Ctx.default.fix (notional + commission)
    | .sell => Ctx.default.fix (notional - commission)
  return ⟨effective, commission, amount⟩

theorem fix_nonneg {x : ℚ} (h : 0 ≤ x) : 0 ≤ Ctx.default.fix x := by
  rcases h.eq_or_lt with rfl | h
  · rw [Ctx.fix_zero]
  · exact (Ctx.fix_pos (by decide) h).le

/-- The amount of a fill has at most 28 digits. -/
theorem digits_amount {model : PaperCostModel} {side : OrderSide} {price : ℚ} {quantity : ℤ} {c : FillCosts}
    (h : fillCosts model side price quantity = some c) : Digits 28 c.amount := by
  simp only [fillCosts, Option.bind_eq_bind, Option.bind_eq_some_iff, Option.pure_def, Option.some.injEq] at h
  obtain ⟨effective, -, commission, -, rfl⟩ := h
  cases side <;> exact Ctx.digits_fix (by decide) _

/-- A buy with a positive effective price costs something. -/
theorem buy_amount_pos {model : PaperCostModel} {price : ℚ} {quantity : ℤ} {c : FillCosts}
    (h : fillCosts model .buy price quantity = some c) (hq : 0 < quantity) (he : 0 < c.effective) : 0 < c.amount := by
  simp only [fillCosts, Option.bind_eq_bind, Option.bind_eq_some_iff, Option.pure_def, Option.some.injEq] at h
  obtain ⟨effective, -, commission, hc, rfl⟩ := h
  have hn : 0 < Ctx.default.fix (effective * quantity) :=
    Ctx.fix_pos (by decide) (mul_pos he (by exact_mod_cast hq))
  have hc0 : 0 ≤ commission := by
    unfold commissionAmount at hc
    cases hm : model.commission with
    | zero => rw [hm] at hc; cases hc; exact le_refl _
    | fixedPerTrade =>
      rw [hm] at hc
      simp only [Ctx.quantize?, Ctx.default] at hc
      split_ifs at hc
      cases hc
      have := le_quantize (e := -2) (n := 0) (x := model.commissionPerTrade) (by simpa using model.fee_nonneg)
      simpa using this
  exact Ctx.fix_pos (by decide) (by linarith)

/-! ### Funds -/

/-- The last two fields are the checks of `__post_init__`. -/
structure PaperFunds where
  accountId : UUID
  availableCash : ℚ
  reservedCash : ℚ := 0
  currency : String := "INR"
  available_nonneg : 0 ≤ availableCash
  reserved_nonneg : 0 ≤ reservedCash := by norm_num

namespace PaperFunds

theorem nonneg_of_not_neg {amount : ℚ} (h : ¬ amount < 0) : 0 ≤ amount := not_lt.mp h

/-- The funds with other amounts of cash, or the `ValueError` of the constructor. -/
def withCash (f : PaperFunds) (available reserved : ℚ) : Except String PaperFunds :=
  if ha : available < 0 then .error "available_cash cannot be negative"
  else if hr : reserved < 0 then .error "reserved_cash cannot be negative"
  else .ok ⟨f.accountId, available, reserved, f.currency, nonneg_of_not_neg ha, nonneg_of_not_neg hr⟩

def reserve (f : PaperFunds) (amount : ℚ) : Except String PaperFunds :=
  if amount ≤ 0 then .error "reserve amount must be positive"
  else if amount > f.availableCash then .error "insufficient available cash to reserve"
  else f.withCash (Ctx.default.fix (f.availableCash - amount)) (Ctx.default.fix (f.reservedCash + amount))

def settleBuy (f : PaperFunds) (amount : ℚ) : Except String PaperFunds :=
  if amount ≤ 0 then .error "buy settlement amount must be positive"
  else if amount > f.reservedCash then .error "buy settlement exceeds reserved cash"
  else f.withCash f.availableCash (Ctx.default.fix (f.reservedCash - amount))

def creditSell (f : PaperFunds) (amount : ℚ) : Except String PaperFunds :=
  if amount ≤ 0 then .error "sell proceeds must be positive"
  else f.withCash (Ctx.default.fix (f.availableCash + amount)) f.reservedCash

theorem withCash_of_nonneg (f : PaperFunds) {available reserved : ℚ} (ha : 0 ≤ available) (hr : 0 ≤ reserved) :
    f.withCash available reserved = .ok ⟨f.accountId, available, reserved, f.currency, ha, hr⟩ := by
  unfold withCash
  rw [dif_neg (not_lt.mpr ha), dif_neg (not_lt.mpr hr)]

/-- **Settlement of a buy**: with nothing reserved the amount leaves the available cash, and nothing stays reserved. -/
theorem reserve_settleBuy {f : PaperFunds} {amount : ℚ} (hr : f.reservedCash = 0) (hd : Digits 28 amount)
    (hpos : 0 < amount) (hle : amount ≤ f.availableCash) :
    ∃ g, (f.reserve amount >>= fun g => g.settleBuy amount) = .ok g ∧
      g.availableCash = Ctx.default.fix (f.availableCash - amount) ∧ g.reservedCash = 0 := by
  have h1 : Ctx.default.fix (f.reservedCash + amount) = amount := by
    rw [hr, zero_add]
    exact Ctx.fix_of_digits hd
  have hreserve : f.reserve amount = .ok ⟨f.accountId, Ctx.default.fix (f.availableCash - amount), amount, f.currency,
      fix_nonneg (sub_nonneg.mpr hle), hpos.le⟩ := by
    unfold reserve
    rw [if_neg (not_le.mpr hpos), if_neg (not_lt.mpr hle), h1]
    exact withCash_of_nonneg f _ hpos.le
  rw [hreserve]
  show ∃ g, settleBuy _ amount = .ok g ∧ _
  unfold settleBuy
  rw [if_neg (not_le.mpr hpos), if_neg (lt_irrefl _), sub_self, Ctx.fix_zero, withCash_of_nonneg _ _ le_rfl]
  · exact ⟨_, rfl, rfl, rfl⟩
  · exact fix_nonneg (sub_nonneg.mpr hle)

/-- **Settlement of a sale.** -/
theorem creditSell_of_pos {f : PaperFunds} {amount : ℚ} (hpos : 0 < amount) :
    ∃ g, f.creditSell amount = .ok g ∧ g.availableCash = Ctx.default.fix (f.availableCash + amount) ∧
      g.reservedCash = f.reservedCash := by
  unfold creditSell
  rw [if_neg (not_le.mpr hpos), withCash_of_nonneg f _ f.reserved_nonneg]
  · exact ⟨_, rfl, rfl, rfl⟩
  · exact fix_nonneg (add_nonneg f.available_nonneg hpos.le)

/-- A buy that is settled has a positive amount that was available. -/
theorem bounds_of_reserve_settleBuy {f g : PaperFunds} {amount : ℚ}
    (h : (f.reserve amount >>= fun g => g.settleBuy amount) = .ok g) : 0 < amount ∧ amount ≤ f.availableCash := by
  cases hr : f.reserve amount with
  | error text => rw [hr] at h; cases h
  | ok f' =>
    unfold reserve at hr
    split_ifs at hr with h1 h2
    exact ⟨not_le.mp h1, not_lt.mp h2⟩

theorem pos_of_creditSell {f g : PaperFunds} {amount : ℚ} (h : f.creditSell amount = .ok g) : 0 < amount := by
  unfold creditSell at h
  split_ifs at h with h1
  exact not_le.mp h1

end PaperFunds

end AlphaAlgo.Paper
