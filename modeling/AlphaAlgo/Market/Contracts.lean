import AlphaAlgo.Backtest.Records

/-!
# Contracts — ticks and candles as their contracts accept them

`MarketTick` and `MarketCandle` carry what their validators check: bounded texts, positive finite prices, aware
timestamps and, for a candle, prices within its range.
-/

namespace AlphaAlgo.Market

open Backtest (CandleTimeframe)

/-- A timezone-aware timestamp. -/
abbrev Stamp := { t : DateTime // t.aware = true }

namespace Stamp

/-- Stamps compare by their instant. -/
def instant (t : Stamp) : ℤ := t.val.instant

end Stamp

/-- A text of one to `n` characters. -/
abbrev Text (n : ℕ) := { s : String // 1 ≤ s.length ∧ s.length ≤ n }

abbrev Price := { d : Dec // 0 < d.val }

structure MarketTick where
  instrumentId : UUID
  exchange : Text 32
  symbol : Text 100
  timestamp : Stamp
  ltp : Price
  volume : Option ℕ := none
  bid : Option Price := none
  ask : Option Price := none
  bidQuantity : Option ℕ := none
  askQuantity : Option ℕ := none
  sourceBroker : Text 50
  sourceSequence : Text 150
  receivedAt : Stamp
  deriving DecidableEq

structure MarketCandle where
  instrumentId : UUID
  exchange : Text 32
  symbol : Text 100
  timeframe : CandleTimeframe
  candleStart : Stamp
  openPrice : Price
  highPrice : Price
  lowPrice : Price
  closePrice : Price
  volume : Option ℕ := none
  sourceBroker : Text 50
  generatedAt : Stamp
  low_le_high : lowPrice.val.val ≤ highPrice.val.val
  open_within : lowPrice.val.val ≤ openPrice.val.val ∧ openPrice.val.val ≤ highPrice.val.val
  close_within : lowPrice.val.val ≤ closePrice.val.val ∧ closePrice.val.val ≤ highPrice.val.val
  deriving DecidableEq

/-! ### Values of samples -/

theorem nse_within : 1 ≤ "NSE".length ∧ "NSE".length ≤ 32 := by decide

theorem infy_within : 1 ≤ "INFY".length ∧ "INFY".length ≤ 100 := by decide

theorem kite_within : 1 ≤ "kite".length ∧ "kite".length ≤ 50 := by decide

theorem one_within : 1 ≤ "1".length ∧ "1".length ≤ 150 := by decide

theorem hundred_pos : 0 < (Dec.ofNat 100).val := by norm_num [Dec.val, Dec.ofNat]

end AlphaAlgo.Market
