import AlphaAlgo.Backtest.Runs
import AlphaAlgo.Risk.Context

/-!
# Portfolio — the simulation of several symbols over one pool of cash

`runPortfolioBacktest` merges the records of all symbols into one timeline, sorted by time and symbol.  At each record
it notes the mark, evaluates the intents of that symbol anchored there, and marks the equity of the portfolio.  A fill
that would leave less than the reserved cash, and a buy whose gross value is above the budget of its symbol, are refused.

* `portfolioStepped`: what one step can do.
-/

namespace AlphaAlgo.Backtest

open Loop Risk

/-! ### Inputs and capital -/

/-- The instrument of the first record. -/
def BacktestInput.instrumentId (inputs : BacktestInput) : UUID :=
  (inputs.records.head inputs.records_ne_nil).instrumentId

/-- `sorted` on texts. -/
def sortedTexts (l : List String) : List String := l.insertionSort (· ≤ ·)

/-- The last three fields are the checks of `__post_init__`. -/
structure PortfolioInput where
  inputs : List BacktestInput
  inputs_nonempty : inputs ≠ []
  symbols_unique : (inputs.map BacktestInput.symbol).Nodup
  instruments_unique : (inputs.map BacktestInput.instrumentId).Nodup

namespace PortfolioInput

variable (p : PortfolioInput)

def symbols : List String := sortedTexts (p.inputs.map BacktestInput.symbol)

/-- `symbol_inputs`. -/
def symbolInput (symbol : String) : Option BacktestInput := p.inputs.find? (·.symbol = symbol)

/-- The records of a symbol. -/
def records (symbol : String) : List MarketRecord :=
  match p.symbolInput symbol with
  | none => []
  | some inputs => inputs.records

def datasetId : String := "portfolio:" ++ ",".intercalate (sortedTexts (p.inputs.map BacktestInput.datasetId))

def source : String := "portfolio:" ++ ",".intercalate (sortedTexts (p.inputs.map BacktestInput.source).dedup)

end PortfolioInput

/-- The last six fields are the checks of `__post_init__`. -/
structure CapitalAllocation where
  initialCapital : ℚ
  reservedCash : ℚ := 0
  perSymbolBudget : List (String × ℚ) := []
  capital_pos : 0 < initialCapital
  reserved_nonneg : 0 ≤ reservedCash
  reserved_le : reservedCash ≤ initialCapital
  budget_symbols : ∀ pair ∈ perSymbolBudget, pair.1 ≠ ""
  budgets_unique : (perSymbolBudget.map Prod.fst).Nodup
  budgets_pos : ∀ pair ∈ perSymbolBudget, 0 < pair.2

/-- `budget_for`. -/
def CapitalAllocation.budgetFor (allocation : CapitalAllocation) (symbol : String) : Option ℚ :=
  (allocation.perSymbolBudget.find? (·.1 = symbol)).map Prod.snd

/-- The last field is a check of `__post_init__`. -/
structure PortfolioIntent where
  symbol : String
  intent : OrderIntent
  symbol_nonempty : symbol ≠ ""

/-- A trade and its symbol, which is that of an intent. -/
structure PortfolioTrade where
  symbol : String
  trade : TradeRecord
deriving DecidableEq

/-! ### Intents of a symbol -/

/-- The intents of a symbol, with their indices. -/
def groupOf (intents : List PortfolioIntent) (symbol : String) : List IndexedIntent :=
  (intents.zipIdx.filter (·.1.symbol = symbol)).map fun p => ⟨p.2, p.1.intent⟩

/-- `group.sort(key=decided_at)`, a stable sort. -/
def sortedGroup (intents : List PortfolioIntent) (symbol : String) : List IndexedIntent :=
  (groupOf intents symbol).insertionSort fun e e' => e.intent.decidedAt.instant ≤ e'.intent.decidedAt.instant

/-- Every intent is for a symbol of the portfolio. -/
def checkKnown (p : PortfolioInput) : List PortfolioIntent → Except BacktestError Unit
  | [] => .ok ()
  | item :: rest => do
    raiseIf ((p.symbolInput item.symbol).isNone = true)
      (.portfolio ("intent references unknown symbol " ++ reprText item.symbol))
    checkKnown p rest

/-- The intents of each symbol have different times. -/
def checkGroups (intents : List PortfolioIntent) : List String → Except BacktestError Unit
  | [] => .ok ()
  | symbol :: rest => do
    raiseIf (¬Ascending ((sortedGroup intents symbol).map IndexedIntent.intent))
      (.portfolio ("intents for symbol " ++ reprText symbol ++ " must be sorted by strictly ascending decided_at"))
    checkGroups intents rest

/-- The loop that anchors the intents of a symbol. -/
def anchorSymbol (p : PortfolioInput) (intents : List PortfolioIntent) (symbol : String)
    (outcomes : List (Option FillOutcome)) : Anchoring :=
  anchorIntents (p.records symbol) (sortedGroup intents symbol) outcomes

/-- The intents anchored at a record of a symbol; the outcomes have no part in it. -/
def anchoredIn (p : PortfolioInput) (intents : List PortfolioIntent) (symbol : String) (k : ℕ) : List IndexedIntent :=
  (anchorSymbol p intents symbol []).anchoredAt k

/-- The outcomes before the simulation, symbol after symbol. -/
def startOutcomes (p : PortfolioInput) (intents : List PortfolioIntent) : List (Option FillOutcome) :=
  p.symbols.foldl (fun outcomes symbol => (anchorSymbol p intents symbol outcomes).outcomes)
    (List.replicate intents.length none)

/-! ### The timeline -/

structure TimelineEntry where
  symbol : String
  localIndex : ℕ
  record : MarketRecord
deriving DecidableEq

/-- The order of the timeline: by time, then by symbol. -/
def TimelineEntry.before (a b : TimelineEntry) : Prop :=
  a.record.timestamp.instant < b.record.timestamp.instant ∨
    (a.record.timestamp.instant = b.record.timestamp.instant ∧ a.symbol ≤ b.symbol)

instance : DecidableRel TimelineEntry.before := fun _ _ => inferInstanceAs (Decidable (_ ∨ _))

/-- The entries of a symbol. -/
def symbolEntries (p : PortfolioInput) (symbol : String) : List TimelineEntry :=
  (p.records symbol).zipIdx.map fun q => ⟨symbol, q.2, q.1⟩

def timeline (p : PortfolioInput) : List TimelineEntry :=
  (p.symbols.flatMap (symbolEntries p)).insertionSort TimelineEntry.before

/-! ### The simulation -/

structure PortfolioState where
  cash : ℚ
  position : String → ℚ := fun _ => 0
  lastMark : String → Option ℚ := fun _ => none
  sequence : ℕ := 0
  trades : List PortfolioTrade := []
  equityPoints : List EquityPoint := []
  ledgers : String → FifoLedger := fun _ => {}
  outcomes : List (Option FillOutcome)

/-- A step of the simulation: a record is observed, an intent is evaluated at it, the equity is marked. -/
inductive PortfolioStep where
  | observe (symbol : String) (record : MarketRecord)
  | intent (globalIndex : ℕ) (symbol : String) (record : MarketRecord) (e : IndexedIntent)
  | equity (timestamp : DateTime)

/-- A fill that would leave less than the reserved cash is refused. -/
def reservedFloor (allocation : CapitalAllocation) (index : ℕ) (cash position : ℚ) (evaluation : FillEvaluation) :
    FillEvaluation :=
  if evaluation.fill.isSome = true ∧ evaluation.cash < allocation.reservedCash then
    unfilled index .insufficientCash cash position
  else evaluation

/-- The gross value of the fill is above the budget. -/
def aboveBudget (allocation : CapitalAllocation) (symbol : String) (fill : FillRecord) : Bool :=
  match allocation.budgetFor symbol with
  | none => false
  | some budget => fill.side = .buy && budget < fill.grossValue

/-- A buy whose gross value is above the budget of the symbol is refused. -/
def budgetCap (allocation : CapitalAllocation) (symbol : String) (index : ℕ) (cash position : ℚ)
    (evaluation : FillEvaluation) : FillEvaluation :=
  match evaluation.fill with
  | none => evaluation
  | some fill =>
    if aboveBudget allocation symbol fill = true then unfilled index .insufficientCash cash position else evaluation

/-- The state after an evaluation. -/
def PortfolioState.settle (c : Ctx) (s : PortfolioState) (symbol : String) (index : ℕ) (evaluation : FillEvaluation) :
    Except BacktestError PortfolioState :=
  let s := { s with outcomes := s.outcomes.set index (some evaluation.outcome) }
  match evaluation.fill with
  | none => .ok s
  | some fill => (bookFill c fill.side (s.ledgers symbol) fill).map fun booked =>
    { s with
      sequence := s.sequence + 1
      ledgers := Function.update s.ledgers symbol booked.1
      trades := s.trades ++ booked.2.map fun trade => ⟨symbol, trade⟩
      cash := evaluation.cash
      position := Function.update s.position symbol evaluation.position }

/-- The market value of the positions, added to `value`. -/
def marketValue (c : Ctx) (s : PortfolioState) : ℚ → List String → Except BacktestError ℚ
  | value, [] => .ok value
  | value, symbol :: rest =>
    if s.position symbol = 0 then marketValue c s value rest
    else
      match s.lastMark symbol with
      | none => .error (.portfolio "internal error: position without a mark")
      | some mark => marketValue c s (c.fix (value + c.fix (s.position symbol * mark))) rest

def portfolioStep (c : Ctx) (costModel : CostModel) (allocation : CapitalAllocation) (symbols : List String)
    (s : PortfolioState) : PortfolioStep → Except BacktestError PortfolioState
  | .observe symbol record => (markPrice .portfolio record).map fun mark =>
    { s with lastMark := Function.update s.lastMark symbol (some mark) }
  | .intent globalIndex symbol record e => do
    let evaluation ← evaluateFill c e.intent record globalIndex s.cash (s.position symbol) costModel s.sequence e.index
    let evaluation := reservedFloor allocation e.index s.cash (s.position symbol) evaluation
    let evaluation := budgetCap allocation symbol e.index s.cash (s.position symbol) evaluation
    s.settle c symbol e.index evaluation
  | .equity timestamp => (marketValue c s 0 symbols).map fun value =>
    { s with equityPoints := s.equityPoints ++ [⟨timestamp, c.fix (s.cash + value)⟩] }

/-- The steps at an entry of the timeline. -/
def entrySteps (globalIndex : ℕ) (entry : TimelineEntry) (entries : List IndexedIntent) : List PortfolioStep :=
  .observe entry.symbol entry.record ::
    (entries.map (.intent globalIndex entry.symbol entry.record) ++ [.equity entry.record.timestamp])

/-- The steps of a simulation. -/
def portfolioSteps (p : PortfolioInput) (intents : List PortfolioIntent) : List PortfolioStep :=
  (timeline p).zipIdx.flatMap fun q => entrySteps q.2 q.1 (anchoredIn p intents q.1.symbol q.1.localIndex)

/-- The state before the first step. -/
def portfolioStart (p : PortfolioInput) (intents : List PortfolioIntent) (initialCapital : ℚ) : PortfolioState where
  cash := initialCapital
  outcomes := startOutcomes p intents

/-- The last four fields are checks of `__post_init__`. -/
structure PortfolioResult where
  datasetId : String
  source : String
  initialCapital : ℚ
  reservedCash : ℚ
  costModel : CostModel
  symbols : List String
  intents : List PortfolioIntent
  outcomes : List FillOutcome
  trades : List PortfolioTrade
  equityCurve : List EquityPoint
  capital_pos : 0 < initialCapital
  reserved_nonneg : 0 ≤ reservedCash
  outcomes_length : outcomes.length = intents.length
  equity_nonempty : equityCurve ≠ []

/-- The result of a final state. -/
def makeResult (p : PortfolioInput) (intents : List PortfolioIntent) (costModel : CostModel)
    (allocation : CapitalAllocation) (s : PortfolioState) (outcomes : List FillOutcome) :
    Except BacktestError PortfolioResult :=
  if outcomes_length : outcomes.length = intents.length then
    if equity_nonempty : s.equityPoints ≠ [] then
      .ok ⟨p.datasetId, p.source, allocation.initialCapital, allocation.reservedCash, costModel, p.symbols, intents,
        outcomes, s.trades, s.equityPoints, allocation.capital_pos, allocation.reserved_nonneg, outcomes_length,
        equity_nonempty⟩
    else .error (.portfolio "equity_curve must be a non-empty tuple of PortfolioEquityPoint")
  else .error (.portfolio "outcomes must be 1:1 with intents")

/-- The text of an error, raised by the portfolio engine. -/
def BacktestError.toPortfolio : BacktestError → BacktestError
  | .engine text => .portfolio text
  | .portfolio text => .portfolio text

def runPortfolioBacktest (c : Ctx) (p : PortfolioInput) (intents : List PortfolioIntent) (costModel : CostModel)
    (allocation : CapitalAllocation) : Except BacktestError PortfolioResult := do
  checkKnown p intents
  checkGroups intents p.symbols
  let s ← run (portfolioStep c costModel allocation p.symbols) (portfolioStart p intents allocation.initialCapital)
    (portfolioSteps p intents)
  let outcomes ← (allOutcomes s.outcomes).mapError BacktestError.toPortfolio
  makeResult p intents costModel allocation s outcomes

end AlphaAlgo.Backtest
