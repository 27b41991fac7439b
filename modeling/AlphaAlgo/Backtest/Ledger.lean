import AlphaAlgo.Backtest.Fills
import AlphaAlgo.Lib.Fifo

/-!
# Ledger — the FIFO lots of a backtest

A buy opens a lot, a sale is matched against the oldest open lots.  `matchLots` is the loop over the lots; it uses them
up as `Fifo.consume` does, and each lot that it empties becomes a trade.

* `matchLots_consume`, `completed_matchLots`: the lots after the loop, and the trades.
* `closed_exact`: what a sale does to the lots in arithmetic without rounding.
-/

namespace AlphaAlgo.Backtest

open Loop

/-- A completed lot: one round trip. -/
structure TradeRecord where
  sequence : ℕ
  entryFillSequence : ℕ
  exitFillSequences : List ℕ
  quantity : ℚ
  entryPrice : ℚ
  exitPrice : ℚ
  entryCost : ℚ
  exitCost : ℚ
  realizedPnl : ℚ
deriving DecidableEq

structure Lot where
  entryFillSequence : ℕ
  entryPrice : ℚ
  totalQuantity : ℚ
  remainingQuantity : ℚ
  entryCost : ℚ
  exitFillSequences : List ℕ := []
  weightedExitSum : ℚ := 0
  entryCostUsed : ℚ := 0
  exitCostUsed : ℚ := 0
  realizedTotal : ℚ := 0

/-- `_FifoLedger`. -/
structure FifoLedger where
  lots : List Lot := []
  tradeSequence : ℕ := 0

/-- The shares of the entry and exit commission of `matched`, and what is realized. -/
def Lot.entryShare (c : Ctx) (lot : Lot) (matched : ℚ) : ℚ := c.fix (c.fix (lot.entryCost * matched) / lot.totalQuantity)

def exitShare (c : Ctx) (fill : FillRecord) (matched : ℚ) : ℚ :=
  c.fix (c.fix (fill.commissionAmount * matched) / fill.quantity)

def Lot.realizedShare (c : Ctx) (fill : FillRecord) (lot : Lot) (matched : ℚ) : ℚ :=
  c.fix (c.fix (c.fix (c.fix (fill.fillPrice - lot.entryPrice) * matched) - lot.entryShare c matched) -
    exitShare c fill matched)

/-- The lot after `matched` of it was sold. -/
def Lot.exit (c : Ctx) (fill : FillRecord) (matched : ℚ) (lot : Lot) : Lot :=
  { lot with
    remainingQuantity := c.fix (lot.remainingQuantity - matched)
    exitFillSequences := lot.exitFillSequences ++ [fill.sequence]
    weightedExitSum := c.fix (lot.weightedExitSum + c.fix (fill.fillPrice * matched))
    entryCostUsed := c.fix (lot.entryCostUsed + lot.entryShare c matched)
    exitCostUsed := c.fix (lot.exitCostUsed + exitShare c fill matched)
    realizedTotal := c.fix (lot.realizedTotal + lot.realizedShare c fill matched) }

/-- The trade of a lot with nothing left. -/
def Lot.trade (c : Ctx) (lot : Lot) (sequence : ℕ) : TradeRecord where
  sequence := sequence
  entryFillSequence := lot.entryFillSequence
  exitFillSequences := lot.exitFillSequences
  quantity := lot.totalQuantity
  entryPrice := lot.entryPrice
  exitPrice := c.fix (lot.weightedExitSum / lot.totalQuantity)
  entryCost := lot.entryCostUsed
  exitCost := lot.exitCostUsed
  realizedPnl := lot.realizedTotal

/-- The lots and the trades after the loop, what is still to be sold, and the number of the next trade. -/
structure Matched where
  lots : List Lot
  completed : List TradeRecord
  remaining : ℚ
  tradeSequence : ℕ

/-- The loop over the lots. -/
def matchLots (c : Ctx) (fill : FillRecord) : ℚ → ℕ → List Lot → Matched
  | remaining, sequence, [] => ⟨[], [], remaining, sequence⟩
  | remaining, sequence, lot :: lots =>
    if remaining ≤ 0 then ⟨lot :: lots, [], remaining, sequence⟩
    else if lot.remainingQuantity ≤ 0 then
      let rest := matchLots c fill remaining sequence lots
      { rest with lots := lot :: rest.lots }
    else
      let matched := min remaining lot.remainingQuantity
      let lot := lot.exit c fill matched
      if lot.remainingQuantity = 0 then
        let rest := matchLots c fill (c.fix (remaining - matched)) (sequence + 1) lots
        { rest with lots := lot :: rest.lots, completed := lot.trade c sequence :: rest.completed }
      else
        let rest := matchLots c fill (c.fix (remaining - matched)) sequence lots
        { rest with lots := lot :: rest.lots }

/-- The error that a sale of more than the open lots raises. -/
def ledgerViolated : BacktestError := .engine "SELL fill exceeded open position (ledger invariant violated)"

namespace FifoLedger

/-- `open_lot`. -/
def openLot (ledger : FifoLedger) (fill : FillRecord) : Except BacktestError FifoLedger := do
  raiseIf (fill.side ≠ .buy) (.engine "only BUY fills open lots")
  return { ledger with
    lots := ledger.lots ++ [{
      entryFillSequence := fill.sequence
      entryPrice := fill.fillPrice
      totalQuantity := fill.quantity
      remainingQuantity := fill.quantity
      entryCost := fill.commissionAmount }] }

/-- `close_lots`: the ledger and the trades that the fill completed. -/
def closeLots (c : Ctx) (ledger : FifoLedger) (fill : FillRecord) :
    Except BacktestError (FifoLedger × List TradeRecord) := do
  raiseIf (fill.side ≠ .sell) (.engine "only SELL fills close lots")
  let result := matchLots c fill fill.quantity ledger.tradeSequence ledger.lots
  raiseIf (0 < result.remaining) ledgerViolated
  return (⟨result.lots.filter (0 < ·.remainingQuantity), result.tradeSequence⟩, result.completed)

/-- What the open lots have left. -/
def openQuantity (ledger : FifoLedger) : ℚ := (ledger.lots.map Lot.remainingQuantity).sum

/-- The entry notional that the open lots carry. -/
def carriedNotional (ledger : FifoLedger) : ℚ := (ledger.lots.map fun l => l.remainingQuantity * l.entryPrice).sum

end FifoLedger

/-! ### The loop uses up the lots in their order -/

/-- The lots of a sale. -/
def lotFifo (c : Ctx) (fill : FillRecord) : Fifo Lot ℚ where
  remaining := Lot.remainingQuantity
  exit := Lot.exit c fill
  sub a b := c.fix (a - b)

section Match

variable {c : Ctx} {fill : FillRecord} {remaining : ℚ} {sequence : ℕ} {lot : Lot} {lots : List Lot}

theorem matchLots_of_nonpos (h : remaining ≤ 0) :
    matchLots c fill remaining sequence lots = ⟨lots, [], remaining, sequence⟩ := by
  cases lots with
  | nil => rfl
  | cons lot lots => rw [matchLots, if_pos h]

theorem matchLots_of_empty (h : 0 < remaining) (hlot : lot.remainingQuantity ≤ 0) :
    matchLots c fill remaining sequence (lot :: lots) =
      { matchLots c fill remaining sequence lots with
        lots := lot :: (matchLots c fill remaining sequence lots).lots } := by
  rw [matchLots, if_neg (not_le.mpr h), if_pos hlot]

/-- A lot that the fill empties. -/
theorem matchLots_of_closes (h : 0 < remaining) (hlot : 0 < lot.remainingQuantity)
    (hcloses : (lot.exit c fill (min remaining lot.remainingQuantity)).remainingQuantity = 0) :
    matchLots c fill remaining sequence (lot :: lots) =
      { matchLots c fill (c.fix (remaining - min remaining lot.remainingQuantity)) (sequence + 1) lots with
        lots := lot.exit c fill (min remaining lot.remainingQuantity) ::
          (matchLots c fill (c.fix (remaining - min remaining lot.remainingQuantity)) (sequence + 1) lots).lots
        completed := (lot.exit c fill (min remaining lot.remainingQuantity)).trade c sequence ::
          (matchLots c fill (c.fix (remaining - min remaining lot.remainingQuantity)) (sequence + 1) lots).completed } := by
  rw [matchLots, if_neg (not_le.mpr h), if_neg (not_le.mpr hlot)]
  dsimp only
  rw [if_pos hcloses]

/-- A lot that stays open. -/
theorem matchLots_of_stays (h : 0 < remaining) (hlot : 0 < lot.remainingQuantity)
    (hstays : (lot.exit c fill (min remaining lot.remainingQuantity)).remainingQuantity ≠ 0) :
    matchLots c fill remaining sequence (lot :: lots) =
      { matchLots c fill (c.fix (remaining - min remaining lot.remainingQuantity)) sequence lots with
        lots := lot.exit c fill (min remaining lot.remainingQuantity) ::
          (matchLots c fill (c.fix (remaining - min remaining lot.remainingQuantity)) sequence lots).lots } := by
  rw [matchLots, if_neg (not_le.mpr h), if_neg (not_le.mpr hlot)]
  dsimp only
  rw [if_neg hstays]

/-- **The loop uses up the lots in their order.** -/
theorem matchLots_consume : ∀ (lots : List Lot) (remaining : ℚ) (sequence : ℕ),
    (matchLots c fill remaining sequence lots).lots = ((lotFifo c fill).consume remaining lots).1 ∧
      (matchLots c fill remaining sequence lots).remaining = ((lotFifo c fill).consume remaining lots).2
  | [], _, _ => ⟨rfl, rfl⟩
  | lot :: lots, remaining, sequence => by
    rcases le_or_gt remaining 0 with h | h
    · rw [matchLots_of_nonpos h, Fifo.consume_of_nonpos h]
      exact ⟨rfl, rfl⟩
    rcases le_or_gt lot.remainingQuantity 0 with hlot | hlot
    · have ih := matchLots_consume lots remaining sequence
      rw [matchLots_of_empty h hlot, Fifo.consume_of_empty h hlot]
      exact ⟨congrArg (lot :: ·) ih.1, ih.2⟩
    · rw [Fifo.consume_of_pos h hlot]
      by_cases hcloses : (lot.exit c fill (min remaining lot.remainingQuantity)).remainingQuantity = 0
      · have ih := matchLots_consume lots (c.fix (remaining - min remaining lot.remainingQuantity)) (sequence + 1)
        rw [matchLots_of_closes h hlot hcloses]
        exact ⟨congrArg (lot.exit c fill _ :: ·) ih.1, ih.2⟩
      · have ih := matchLots_consume lots (c.fix (remaining - min remaining lot.remainingQuantity)) sequence
        rw [matchLots_of_stays h hlot hcloses]
        exact ⟨congrArg (lot.exit c fill _ :: ·) ih.1, ih.2⟩

/-- The trades of lots with nothing left, numbered from `sequence`. -/
def tradesOf (c : Ctx) (sequence : ℕ) (lots : List Lot) : List TradeRecord :=
  (lots.zipIdx sequence).map fun p => p.1.trade c p.2

theorem filter_eq_nil_of_pos {lots : List Lot} (h : ∀ l ∈ lots, 0 < l.remainingQuantity) :
    lots.filter (·.remainingQuantity = 0) = [] :=
  List.filter_eq_nil_iff.mpr fun l hl hzero => (h l hl).ne' (of_decide_eq_true hzero)

/-- **The trades are the lots that the loop leaves with nothing**, in their order. -/
theorem completed_matchLots : ∀ (lots : List Lot) (remaining : ℚ) (sequence : ℕ),
    (∀ l ∈ lots, 0 < l.remainingQuantity) →
      (matchLots c fill remaining sequence lots).completed =
        tradesOf c sequence ((matchLots c fill remaining sequence lots).lots.filter (·.remainingQuantity = 0)) ∧
      (matchLots c fill remaining sequence lots).tradeSequence =
        sequence + (matchLots c fill remaining sequence lots).completed.length
  | [], _, _, _ => ⟨rfl, rfl⟩
  | lot :: lots, remaining, sequence, hpos => by
    obtain ⟨hlot, hlots⟩ := List.forall_mem_cons.mp hpos
    rcases le_or_gt remaining 0 with h | h
    · rw [matchLots_of_nonpos h]
      dsimp only
      rw [filter_eq_nil_of_pos hpos]
      exact ⟨rfl, rfl⟩
    by_cases hcloses : (lot.exit c fill (min remaining lot.remainingQuantity)).remainingQuantity = 0
    · obtain ⟨hcompleted, hsequence⟩ := completed_matchLots lots
        (c.fix (remaining - min remaining lot.remainingQuantity)) (sequence + 1) hlots
      rw [matchLots_of_closes h hlot hcloses]
      dsimp only
      constructor
      · rw [List.filter_cons_of_pos (by simpa using hcloses), hcompleted]
        rfl
      · rw [hsequence, List.length_cons]
        omega
    · obtain ⟨hcompleted, hsequence⟩ := completed_matchLots lots
        (c.fix (remaining - min remaining lot.remainingQuantity)) sequence hlots
      rw [matchLots_of_stays h hlot hcloses]
      dsimp only
      rw [List.filter_cons_of_neg (by simpa using hcloses)]
      exact ⟨hcompleted, hsequence⟩

end Match

/-! ### Without rounding -/

section Exact

variable {fill : FillRecord} {lot : Lot} {ledger : FifoLedger}

/-- What holds of an open lot: something is left, and the entry commission is attributed in proportion to what was
sold. -/
structure Lot.Sound (lot : Lot) : Prop where
  total_pos : 0 < lot.totalQuantity
  remaining_nonneg : 0 ≤ lot.remainingQuantity
  attributed : lot.entryCostUsed * lot.totalQuantity = lot.entryCost * (lot.totalQuantity - lot.remainingQuantity)

theorem Lot.Sound.exit (h : lot.Sound) {m : ℚ} (hm : m ≤ lot.remainingQuantity) : (lot.exit .exact fill m).Sound where
  total_pos := h.total_pos
  remaining_nonneg := sub_nonneg.mpr hm
  attributed := by
    have htotal : lot.totalQuantity ≠ 0 := h.total_pos.ne'
    simp only [Lot.exit, Lot.entryShare, Ctx.fix_exact]
    rw [add_mul, h.attributed, div_mul_cancel₀ _ htotal]
    ring

/-- The entry commission of a lot with nothing left is attributed in full. -/
theorem Lot.Sound.entryCostUsed_eq (h : lot.Sound) (hempty : lot.remainingQuantity = 0) :
    lot.entryCostUsed = lot.entryCost := by
  have hattributed := h.attributed
  rw [hempty, sub_zero] at hattributed
  exact mul_right_cancel₀ h.total_pos.ne' hattributed

/-- The lots of a ledger are sound and none is empty. -/
structure FifoLedger.Sound (ledger : FifoLedger) : Prop where
  lots : ∀ l ∈ ledger.lots, l.Sound
  pos : ∀ l ∈ ledger.lots, 0 < l.remainingQuantity

theorem FifoLedger.sound_empty : ({} : FifoLedger).Sound := ⟨by simp, by simp⟩

theorem sub_lotFifo (a b : ℚ) : (lotFifo .exact fill).sub a b = a - b := rfl

/-- The part of the lots with something left and the part of those with nothing left. -/
theorem sum_open_add_closed {lots : List Lot} (h : ∀ l ∈ lots, 0 ≤ l.remainingQuantity) (w : Lot → ℚ) :
    (lots.map w).sum = ((lots.filter (0 < ·.remainingQuantity)).map w).sum +
      ((lots.filter (·.remainingQuantity = 0)).map w).sum := by
  induction lots with
  | nil => simp
  | cons l ls ih =>
    obtain ⟨hl, hls⟩ := List.forall_mem_cons.mp h
    rw [List.map_cons, List.sum_cons, ih hls]
    rcases hl.eq_or_lt with hzero | hpos
    · rw [List.filter_cons_of_neg (by simp [← hzero]), List.filter_cons_of_pos (by simp [← hzero]), List.map_cons,
        List.sum_cons]
      ring
    · rw [List.filter_cons_of_pos (by simpa using hpos), List.filter_cons_of_neg (by simpa using hpos.ne'),
        List.map_cons, List.sum_cons]
      ring

/-- What a sale leaves: the lots after the loop are `lots`, those with something left stay open and the others are the
trades. -/
structure Closed (ledger : FifoLedger) (fill : FillRecord) (ledger' : FifoLedger) (completed : List TradeRecord)
    (lots : List Lot) : Prop where
  loop : lots = ((lotFifo .exact fill).consume fill.quantity ledger.lots).1
  left : ((lotFifo .exact fill).consume fill.quantity ledger.lots).2 = 0
  still_open : ledger'.lots = lots.filter (0 < ·.remainingQuantity)
  trades : completed = tradesOf .exact ledger.tradeSequence (lots.filter (·.remainingQuantity = 0))
  sequence : ledger'.tradeSequence = ledger.tradeSequence + completed.length
  sound : ∀ l ∈ lots, l.Sound

/-- **A sale of what the open lots have** is matched in full. -/
theorem closed_exact (h : ledger.Sound) (hside : fill.side = .sell) (hq : 0 < fill.quantity)
    (hle : fill.quantity ≤ ledger.openQuantity) : ∃ ledger' trades lots,
      ledger.closeLots .exact fill = .ok (ledger', trades) ∧ Closed ledger fill ledger' trades lots := by
  obtain ⟨hlots, hremaining⟩ := @matchLots_consume .exact fill ledger.lots fill.quantity
    ledger.tradeSequence
  obtain ⟨hcompleted, hsequence⟩ := @completed_matchLots .exact fill ledger.lots fill.quantity
    ledger.tradeSequence h.pos
  have hleft : ((lotFifo .exact fill).consume fill.quantity ledger.lots).2 = 0 :=
    Fifo.left_consume sub_lotFifo ledger.lots fill.quantity hq.le hle
  have hsound : ∀ l ∈ ((lotFifo .exact fill).consume fill.quantity ledger.lots).1, l.Sound :=
    Fifo.forall_consume (fun m l _ hm hl => Lot.Sound.exit hl hm) ledger.lots fill.quantity h.lots
  have hclose : ledger.closeLots .exact fill = .ok
      (⟨(matchLots .exact fill fill.quantity ledger.tradeSequence ledger.lots).lots.filter (0 < ·.remainingQuantity),
        (matchLots .exact fill fill.quantity ledger.tradeSequence ledger.lots).tradeSequence⟩,
        (matchLots .exact fill fill.quantity ledger.tradeSequence ledger.lots).completed) := by
    have hdone : ¬0 < (matchLots .exact fill fill.quantity ledger.tradeSequence ledger.lots).remaining := by
      rw [hremaining, hleft]
      exact lt_irrefl _
    simp only [FifoLedger.closeLots, bind_eq_ok, raiseIf_eq_ok]
    exact ⟨(), not_not.mpr hside, (), hdone, rfl⟩
  exact ⟨_, _, _, hclose, ⟨hlots, hleft, rfl, hcompleted, hsequence, by rw [hlots]; exact hsound⟩⟩

namespace Closed

variable {ledger' : FifoLedger} {completed : List TradeRecord} {lots : List Lot}

theorem sound_ledger (h : Closed ledger fill ledger' completed lots) : ledger'.Sound where
  lots := by
    rw [h.still_open]
    exact fun l hl => h.sound l (List.mem_of_mem_filter hl)
  pos := by
    rw [h.still_open]
    exact fun l hl => of_decide_eq_true (List.mem_filter.mp hl).2

/-- **A weight that changes by `k` for each unit sold**, in total over the lots that stay open and those that do not. -/
theorem sum (h : Closed ledger fill ledger' completed lots) {w : Lot → ℚ} {k : ℚ}
    (hw : ∀ m l, w (Lot.exit .exact fill m l) = w l + k * m) :
    (ledger'.lots.map w).sum + ((lots.filter (·.remainingQuantity = 0)).map w).sum =
      (ledger.lots.map w).sum + k * fill.quantity := by
  rw [h.still_open, ← sum_open_add_closed (fun l hl => (h.sound l hl).remaining_nonneg), h.loop,
    Fifo.sum_consume sub_lotFifo hw, h.left, sub_zero]

theorem openQuantity (h : Closed ledger fill ledger' completed lots) :
    ledger'.openQuantity = ledger.openQuantity - fill.quantity := by
  have hsum := h.sum (w := Lot.remainingQuantity) (k := -1) fun m l => by simp only [Lot.exit, Ctx.fix_exact]; ring
  have hclosed : ((lots.filter (·.remainingQuantity = 0)).map Lot.remainingQuantity).sum = 0 :=
    List.sum_eq_zero fun x hx => by
      obtain ⟨l, hl, rfl⟩ := List.mem_map.mp hx
      exact of_decide_eq_true (List.mem_filter.mp hl).2
  rw [hclosed, add_zero] at hsum
  rw [FifoLedger.openQuantity, FifoLedger.openQuantity, hsum]
  ring

end Closed

/-- The lot that a buy opens. -/
def lotOf (fill : FillRecord) : Lot where
  entryFillSequence := fill.sequence
  entryPrice := fill.fillPrice
  totalQuantity := fill.quantity
  remainingQuantity := fill.quantity
  entryCost := fill.commissionAmount

theorem openLot_eq (hside : fill.side = .buy) :
    ledger.openLot fill = .ok { ledger with lots := ledger.lots ++ [lotOf fill] } := by
  simp only [FifoLedger.openLot, bind_eq_ok, raiseIf_eq_ok]
  exact ⟨(), not_not.mpr hside, rfl⟩

theorem FifoLedger.Sound.openLot (h : ledger.Sound) (hq : 0 < fill.quantity) :
    ({ ledger with lots := ledger.lots ++ [lotOf fill] } : FifoLedger).Sound where
  lots := by
    refine List.forall_mem_append.mpr ⟨h.lots, List.forall_mem_singleton.mpr ⟨hq, hq.le, ?_⟩⟩
    simp [lotOf]
  pos := List.forall_mem_append.mpr ⟨h.pos, List.forall_mem_singleton.mpr hq⟩

theorem openQuantity_openLot :
    ({ ledger with lots := ledger.lots ++ [lotOf fill] } : FifoLedger).openQuantity =
      ledger.openQuantity + fill.quantity := by
  simp [FifoLedger.openQuantity, lotOf]

end Exact

end AlphaAlgo.Backtest
