import AlphaAlgo.Lib.Rounding
import AlphaAlgo.Base.Values

/-!
# Arithmetic — quantities and average prices of a position

`applyBuy` and `applySell` of the position engine.  Quantities are whole shares, prices `Decimal`s rounded to four
places; the context of the `Decimal` operations is a parameter (`Ctx.default` in the engine).

* `applyBuy_ok`, `applySell_ok`: everything an accepted fill does.
* `OpenOrClosed`: quantity, status, average price and closing time fit together.
-/

namespace AlphaAlgo.Position

inductive PositionStatus where
  | flat
  | open
  | closed
deriving DecidableEq, Repr

inductive PositionEventType where
  | opened
  | increased
  | decreased
  | closed
  | conflict
  | error
deriving DecidableEq, Repr

def PositionEventType.value : PositionEventType → String
  | opened => "POSITION_OPENED"
  | increased => "POSITION_INCREASED"
  | decreased => "POSITION_DECREASED"
  | closed => "POSITION_CLOSED"
  | conflict => "POSITION_CONFLICT"
  | error => "POSITION_ERROR"

/-- What the arithmetic raises: two `ValueError`s and the `InvalidOperation` of `quantize`. -/
inductive ArithmeticError where
  | notPositive
  | exceeds
  | invalidOperation
deriving DecidableEq, Repr

def ArithmeticError.text : ArithmeticError → String
  | notPositive => "fill_quantity must be positive"
  | exceeds => "SELL fill exceeds open long quantity (over-close)"
  | invalidOperation => "[<class 'decimal.InvalidOperation'>]"

section

variable (ctx : Ctx)

/-- Four places, half-even. -/
def roundPrice (value : ℚ) : Except ArithmeticError ℚ :=
  match ctx.quantize? (-4) value with
  | some p => .ok p
  | none => .error .invalidOperation

def weightedAverage (previousQuantity : ℤ) (previousAverage : Option ℚ) (fillQuantity : ℤ) (fillPrice : ℚ) :
    Except ArithmeticError ℚ :=
  if fillQuantity ≤ 0 then .error .notPositive
  else match previousAverage with
    | none => roundPrice ctx fillPrice
    | some avg =>
      if previousQuantity = 0 then roundPrice ctx fillPrice
      else
        let totalNotional := ctx.fix (ctx.fix (previousQuantity * avg) + ctx.fix (fillQuantity * fillPrice))
        roundPrice ctx (ctx.fix (totalNotional / (previousQuantity + fillQuantity : ℤ)))

/-- The result of applying one fill to a position. -/
structure PositionDelta where
  quantity : ℤ
  averagePrice : Option ℚ
  status : PositionStatus
  openedAt : Option DateTime
  closedAt : Option DateTime
  eventType : PositionEventType
  side : String := "LONG"

def applyBuy (quantity : ℤ) (averagePrice : Option ℚ) (openedAt : Option DateTime) (fillQuantity : ℤ)
    (fillPrice : ℚ) (occurredAt : DateTime) : Except ArithmeticError PositionDelta :=
  if fillQuantity ≤ 0 then .error .notPositive
  else do
    let nextAverage ← weightedAverage ctx quantity averagePrice fillQuantity fillPrice
    return {
      quantity := quantity + fillQuantity
      averagePrice := some nextAverage
      status := .open
      openedAt := if quantity = 0 then some occurredAt else openedAt
      closedAt := none
      eventType := if quantity = 0 then .opened else .increased }

end

/-- The price of a sale is not used. -/
def applySell (quantity : ℤ) (averagePrice : Option ℚ) (openedAt : Option DateTime) (fillQuantity : ℤ)
    (occurredAt : DateTime) : Except ArithmeticError PositionDelta :=
  if fillQuantity ≤ 0 then .error .notPositive
  else if fillQuantity > quantity then .error .exceeds
  else if quantity - fillQuantity = 0 then
    .ok {
      quantity := 0
      averagePrice := none
      status := .closed
      openedAt := openedAt
      closedAt := some occurredAt
      eventType := .closed }
  else
    .ok {
      quantity := quantity - fillQuantity
      averagePrice := averagePrice
      status := .open
      openedAt := openedAt
      closedAt := none
      eventType := .decreased }

/-! ### What an accepted fill does -/

/-- A position is open with an average price when it holds shares, and closed with a closing time when it holds
none. -/
structure OpenOrClosed (quantity : ℤ) (averagePrice : Option ℚ) (status : PositionStatus)
    (closedAt : Option DateTime) : Prop where
  nonneg : 0 ≤ quantity
  open_iff : status = .open ↔ 0 < quantity
  closed_iff : status = .closed ↔ quantity = 0
  average : status = .open → averagePrice.isSome
  closing : status = .closed → closedAt.isSome

variable {ctx : Ctx}

/-- **A purchase** adds its quantity and averages the price. -/
theorem applyBuy_ok {quantity fillQuantity : ℤ} {averagePrice : Option ℚ} {openedAt : Option DateTime}
    {fillPrice : ℚ} {occurredAt : DateTime} {d : PositionDelta}
    (h : applyBuy ctx quantity averagePrice openedAt fillQuantity fillPrice occurredAt = .ok d) :
    0 < fillQuantity ∧ d.quantity = quantity + fillQuantity ∧ d.status = .open ∧ d.eventType ≠ .conflict ∧
      ∃ avg, weightedAverage ctx quantity averagePrice fillQuantity fillPrice = .ok avg ∧
        d.averagePrice = some avg := by
  unfold applyBuy at h
  split_ifs at h with hq
  all_goals
    cases hw : weightedAverage ctx quantity averagePrice fillQuantity fillPrice with
    | error err => rw [hw] at h; cases h
    | ok avg =>
      rw [hw] at h
      cases h
      exact ⟨not_le.mp hq, rfl, rfl, by simp, avg, rfl, rfl⟩

/-- **A sale** takes its quantity, which the position holds, and keeps the average of what is left. -/
theorem applySell_ok {quantity fillQuantity : ℤ} {averagePrice : Option ℚ} {openedAt : Option DateTime}
    {occurredAt : DateTime} {d : PositionDelta}
    (h : applySell quantity averagePrice openedAt fillQuantity occurredAt = .ok d) :
    0 < fillQuantity ∧ fillQuantity ≤ quantity ∧ d.quantity = quantity - fillQuantity ∧ d.eventType ≠ .conflict ∧
      (d.quantity = 0 → d.averagePrice = none ∧ d.status = .closed ∧ d.closedAt = some occurredAt) ∧
      (d.quantity ≠ 0 → d.averagePrice = averagePrice ∧ d.status = .open) := by
  unfold applySell at h
  split_ifs at h with h1 h2 h3
  · cases h
    exact ⟨not_le.mp h1, not_lt.mp h2, h3.symm, by simp, fun _ => ⟨rfl, rfl, rfl⟩, fun h => absurd rfl h⟩
  · cases h
    exact ⟨not_le.mp h1, not_lt.mp h2, rfl, by simp, fun h => absurd h h3, fun _ => ⟨rfl, rfl⟩⟩

/-- After a purchase the fields fit together, whatever they were. -/
theorem OpenOrClosed.applyBuy {quantity fillQuantity : ℤ} {averagePrice : Option ℚ} {openedAt : Option DateTime}
    {fillPrice : ℚ} {occurredAt : DateTime} {d : PositionDelta} (h0 : 0 ≤ quantity)
    (h : applyBuy ctx quantity averagePrice openedAt fillQuantity fillPrice occurredAt = .ok d) :
    OpenOrClosed d.quantity d.averagePrice d.status d.closedAt := by
  obtain ⟨hq, hd, hs, -, avg, -, ha⟩ := applyBuy_ok h
  have hpos : 0 < d.quantity := by omega
  exact ⟨hpos.le, by simp [hs, hpos], by simp [hs, hpos.ne'], fun _ => by simp [ha], fun h => by simp [hs] at h⟩

/-- A sale keeps the fields together. -/
theorem OpenOrClosed.applySell {quantity fillQuantity : ℤ} {averagePrice : Option ℚ} {status : PositionStatus}
    {closedAt openedAt : Option DateTime} {occurredAt : DateTime} {d : PositionDelta}
    (h0 : OpenOrClosed quantity averagePrice status closedAt)
    (h : applySell quantity averagePrice openedAt fillQuantity occurredAt = .ok d) :
    OpenOrClosed d.quantity d.averagePrice d.status d.closedAt := by
  obtain ⟨hq, hle, hd, -, hzero, hpos⟩ := applySell_ok h
  by_cases hz : d.quantity = 0
  · obtain ⟨ha, hs, hc⟩ := hzero hz
    exact ⟨hz.ge, by simp [hs, hz], by simp [hs, hz], fun h => by simp [hs] at h, fun _ => by simp [hc]⟩
  · obtain ⟨ha, hs⟩ := hpos hz
    have hdpos : 0 < d.quantity := by omega
    have hopen : status = .open := h0.open_iff.mpr (by omega)
    exact ⟨hdpos.le, by simp [hs, hdpos], by simp [hs, hz], fun _ => by rw [ha]; exact h0.average hopen,
      fun h => by simp [hs] at h⟩

end AlphaAlgo.Position
