import AlphaAlgo.Lib.Loop
import AlphaAlgo.Risk.Acceptable

/-!
# Context — from a snapshot to the context of the rules

`RiskContextBuilder.build` takes the snapshot of the runtime state, the signal and the order intent, refuses a snapshot
that is unavailable, stale, or of another mode, account or instrument, and derives the amounts that the rules compare
with the limits.  Every sum, product, quotient and negation is one of Decimal's default context.

* `approved_within_limits`: an approval of the built context means that every limit holds of the snapshot.
-/

namespace AlphaAlgo.Risk

open Loop (bind_eq_ok map_eq_ok)

/-! ### Snapshots -/

structure AccountSnapshot where
  accountId : Option UUID := none
  equity : Option Num := none
  highWaterMark : Option Num := none
  dailyRealizedPnl : Option Num := none
  strategyRealizedPnl : Option Num := none
  currentDrawdown : Option Num := none
  availableMargin : Option Num := none

structure MarketSnapshot where
  instrumentId : Option UUID := none
  referencePrice : Option Num := none
  currentPrice : Option Num := none
  marketDataFresh : Bool := false
  brokerConnected : Bool := false
  marketSessionOpen : Bool := false
  instrumentAllowed : Bool := false

structure PositionSnapshot where
  openPositionsCount : Option ℤ := none
  positionQuantity : Option Num := none
  projectedPositionQuantity : Option Num := none
  exposure : Option Num := none
  reservedQuantity : Option Num := none
  pendingOrderCount : Option ℤ := none

structure LimitsSnapshot where
  maxOrderQuantity : Option Num := none
  maxPositionQuantity : Option Num := none
  maxExposure : Option Num := none
  maxDailyLoss : Option Num := none
  maxStrategyLoss : Option Num := none
  maxOpenPositions : Option ℤ := none
  maxDrawdown : Option Num := none
  maxPriceDeviation : Option Num := none
  maxOrdersPerWindow : Option ℤ := none
  orderWindowSeconds : Option ℤ := none
  accountMaxOrderQuantity : Option Num := none
  accountMaxPositions : Option ℤ := none
  accountMaxExposure : Option Num := none
  accountMaxLoss : Option Num := none
  accountMaxOrderRate : Option ℤ := none
  maxUnresolvedExecutions : Option ℤ := none
  maxRetriesPerSignal : Option ℤ := none

/-- The last field is the check of `__post_init__`; `maxAge` is in microseconds. -/
structure RiskSnapshot where
  snapshotId : UUID
  takenAt : DateTime
  stateAvailable : Bool := false
  maxAge : Option ℤ := none
  globalHaltActive : Bool := true
  tradingMode : String := "PAPER"
  liveTradingEnabled : Bool := false
  duplicateSignal : Bool := false
  account : AccountSnapshot := {}
  market : MarketSnapshot := {}
  positions : PositionSnapshot := {}
  limits : LimitsSnapshot := {}
  recentOrderCount : Option ℤ := none
  aware : takenAt.aware = true

/-- An order intent, with the entry of its metadata that is read: the limit price, absent when it is no number. -/
structure RiskOrderIntent where
  quantity : Option Decimal := none
  accountId : Option UUID := none
  orderType : String := "MARKET"
  limitPrice : Option Decimal := none
deriving DecidableEq

/-- What the construction of a context raises: `RiskContextUnavailable` with its text, or another exception. -/
inductive ContextError where
  | unavailable (text : String)
  | other (type : Raised)
deriving DecidableEq

/-- The result of an operation of the arithmetic. -/
def arith {α : Type} : Except ArithError α → Except ContextError α := Except.mapError fun e => .other (raised e)

/-- A snapshot without a maximal age is never stale; one of the future is. -/
def RiskSnapshot.isStale (s : RiskSnapshot) (now : DateTime) : Except ContextError Bool :=
  if !now.aware then .error (.other "ValueError")
  else
    match s.maxAge with
    | none => .ok false
    | some maxAge =>
      match now.sub? s.takenAt with
      | none => .error (.other "TypeError")
      | some age => .ok (age > maxAge || age < 0)

/-- `_mode`: an unknown mode is LIVE. -/
def mode (value : String) : RiskTradingMode :=
  if upper value = "BACKTEST" then .backtest
  else if upper value = "PAPER" then .paper
  else .live

/-- `_action_sign`; every action of the enumeration has a sign. -/
def actionSign : SignalAction → Num
  | .buy => .fin 1
  | .sell => .fin (-1)
  | .exit => .fin (-1)
  | .hold => .fin 0

/-- One character of `repr(s)` between quotes `q`.  Outside Latin-1 every character counts as printable. -/
def reprChar (q c : Char) : List Char :=
  let n := c.toNat
  if c = '\\' ∨ c = q then ['\\', c]
  else if c = '\n' then ['\\', 'n']
  else if c = '\r' then ['\\', 'r']
  else if c = '\t' then ['\\', 't']
  else if n < 32 ∨ (127 ≤ n ∧ n ≤ 160) ∨ n = 173 then ['\\', 'x', hexDigit (n / 16), hexDigit (n % 16)]
  else [c]

/-- `repr(s)`: single quotes, unless the text has single and no double ones. -/
def reprText (s : String) : String :=
  let q := if s.toList.contains '\'' && !s.toList.contains '"' then '"' else '\''
  String.ofList (q :: s.toList.flatMap (reprChar q) ++ [q])

example : reprText "paper\n" = "'paper\\n'" ∧ reprText "it's" = "\"it's\"" := by decide +kernel

/-! ### Derived amounts

Each in the arithmetic of a context; the builder uses the default one. -/

section Amounts

variable (ctx : Ctx)

/-- The position before the intent: the projected one, else the filled and the reserved quantity. -/
def basePosition (pos : PositionSnapshot) : Except ArithError (Option Num) :=
  match pos.projectedPositionQuantity, pos.positionQuantity with
  | some p, _ => .ok (some p)
  | none, none => .ok none
  | none, some p => (Num.add? ctx p (pos.reservedQuantity.getD (.fin 0))).map some

/-- The position with the intent. -/
def projectedPosition (base : Num) (sign : Num) : Option Num → Except ArithError Num
  | none => Num.add? ctx base (.fin 0)
  | some q => do Num.add? ctx base (← Num.mul? ctx sign q)

/-- `abs(quantity) * price`. -/
def notional (quantity price : Num) : Except ArithError Num := Num.mul? ctx (quantity.abs ctx) price

/-- The exposure with the intent; a quantity without a price has none. -/
def projectedExposure (exposure quantity price : Option Num) : Except ArithError (Option Num) :=
  match exposure, quantity, price with
  | none, _, _ => .ok none
  | some x, none, _ => .ok (some x)
  | some _, some _, none => .ok none
  | some x, some q, some p => do return some (← Num.add? ctx x (← notional ctx q p))

def requiredMargin (quantity price : Option Num) : Except ArithError (Option Num) :=
  match quantity, price with
  | some q, some p => (notional ctx q p).map some
  | _, _ => .ok none

/-- `max(0, (high_water_mark - equity) / high_water_mark)`. -/
def drawdownFrom (equity highWaterMark : Num) : Except ArithError Num := do
  let loss ← Num.sub? ctx highWaterMark equity
  Num.max? (.fin 0) (← Num.div? ctx loss highWaterMark)

/-- The drawdown: the given one, else the one of equity and high-water mark. -/
def currentDrawdown (acc : AccountSnapshot) : Except ArithError (Option Num) :=
  match acc.currentDrawdown, acc.equity, acc.highWaterMark with
  | some d, _, _ => .ok (some d)
  | none, some equity, some mark => do
    if ← (Num.fin 0).lt? mark then (drawdownFrom ctx equity mark).map some else .ok none
  | none, _, _ => .ok none

end Amounts

/-- A HOLD carries no order quantity. -/
def orderQuantity (signal : StrategySignal) (intent : Option RiskOrderIntent) : Option Num :=
  if signal.action = .hold then none else (intent.bind RiskOrderIntent.quantity).map Decimal.num

/-! ### The builder -/

/-- Both are given and differ. -/
def differs (a b : Option UUID) : Bool :=
  match a, b with
  | some x, some y => x ≠ y
  | _, _ => false

/-- The checks of the snapshot against the request. -/
def crossCheck (now : DateTime) (signal : StrategySignal) (intent : Option RiskOrderIntent) (snapshot : RiskSnapshot)
    (tradingMode : String) : Except ContextError Unit :=
  if !snapshot.stateAvailable then .error (.unavailable "authoritative risk state is unavailable")
  else
    match snapshot.isStale now with
    | .error e => .error e
    | .ok true => .error (.unavailable "risk snapshot is stale")
    | .ok false =>
      if mode snapshot.tradingMode ≠ mode tradingMode then
        .error (.unavailable ("snapshot trading mode " ++ reprText snapshot.tradingMode ++
          " does not match requested mode " ++ reprText tradingMode))
      else if differs (intent.bind RiskOrderIntent.accountId) snapshot.account.accountId then
        .error (.unavailable "snapshot account does not match intent account")
      else if differs snapshot.market.instrumentId (some signal.instrumentId) then
        .error (.unavailable "snapshot instrument does not match signal instrument")
      else .ok ()

/-- `build`; `now` is the reading of the builder's clock. -/
def build (now : DateTime) (signal : StrategySignal) (intent : Option RiskOrderIntent) (snapshot : RiskSnapshot)
    (tradingMode : String) (retryCount : ℤ) : Except ContextError RiskEvaluationContext := do
  crossCheck now signal intent snapshot tradingMode
  let acc := snapshot.account
  let mkt := snapshot.market
  let pos := snapshot.positions
  let lim := snapshot.limits
  let quantity := orderQuantity signal intent
  let base ← arith (basePosition .default pos)
  let projected ← arith (base.mapM fun b => projectedPosition .default b (actionSign signal.action) quantity)
  let exposure ← arith (projectedExposure .default pos.exposure quantity mkt.currentPrice)
  let margin ← arith (requiredMargin .default quantity mkt.currentPrice)
  let drawdown ← arith (currentDrawdown .default acc)
  return {
    tradingMode := mode tradingMode
    liveTradingEnabled := snapshot.liveTradingEnabled
    globalHaltActive := snapshot.globalHaltActive
    brokerConnected := mkt.brokerConnected
    marketDataFresh := mkt.marketDataFresh
    marketSessionOpen := mkt.marketSessionOpen
    instrumentAllowed := mkt.instrumentAllowed
    duplicateSignal := snapshot.duplicateSignal
    orderQuantity := quantity
    maxOrderQuantity := lim.maxOrderQuantity
    projectedPositionQuantity := projected
    maxPositionQuantity := lim.maxPositionQuantity
    projectedExposure := exposure
    maxExposure := lim.maxExposure
    dailyRealizedPnl := acc.dailyRealizedPnl
    maxDailyLoss := lim.maxDailyLoss
    strategyRealizedPnl := acc.strategyRealizedPnl
    maxStrategyLoss := lim.maxStrategyLoss
    requiredMargin := margin
    availableMargin := acc.availableMargin
    openPositionsCount := pos.openPositionsCount
    maxOpenPositions := lim.maxOpenPositions
    equityValue := acc.equity
    highWaterMark := acc.highWaterMark
    currentDrawdown := drawdown
    maxDrawdown := lim.maxDrawdown
    referencePrice := mkt.referencePrice
    currentPrice := mkt.currentPrice
    maxPriceDeviation := lim.maxPriceDeviation
    recentOrderCount := snapshot.recentOrderCount
    maxOrdersPerWindow := lim.maxOrdersPerWindow
    orderWindowSeconds := lim.orderWindowSeconds
    accountMaxOrderQuantity := lim.accountMaxOrderQuantity
    accountMaxPositions := lim.accountMaxPositions
    accountMaxExposure := lim.accountMaxExposure
    accountMaxLoss := lim.accountMaxLoss
    accountMaxOrderRate := lim.accountMaxOrderRate
    accountDailyRealizedPnl := acc.dailyRealizedPnl
    pendingExecutionCount := pos.pendingOrderCount
    maxUnresolvedExecutions := lim.maxUnresolvedExecutions
    retryCount := some retryCount
    maxRetriesPerSignal := lim.maxRetriesPerSignal
    reservedQuantity := pos.reservedQuantity
    openOrderQuantity := pos.reservedQuantity }

/-! ### The validator -/

/-- The problem of one field: a value that is given must not be negative. -/
def fieldProblem (name : String) (value : Option Num) : Except ArithError (List String) :=
  match value with
  | none => .ok []
  | some v => do if ← v.lt? (.fin 0) then return [name ++ " must be non-negative"] else return []

/-- `RiskContextValidator.validate`. -/
def validate (c : RiskEvaluationContext) : Except ArithError (List String) := do
  let fields := [("equity_value", c.equityValue), ("high_water_mark", c.highWaterMark),
    ("current_price", c.currentPrice), ("reference_price", c.referencePrice), ("order_quantity", c.orderQuantity),
    ("reserved_quantity", c.reservedQuantity), ("open_order_quantity", c.openOrderQuantity)]
  return (← fields.mapM fun f => fieldProblem f.1 f.2).flatten

/-! ### What a context is built from -/

/-- A computation in two parts that returns. -/
theorem arith_eq_ok {α : Type} {x : Except ArithError α} {a : α} : arith x = .ok a ↔ x = .ok a := by
  cases x <;> simp [arith, Except.mapError]

/-- A snapshot that passes the checks is the one of the request. -/
structure Matches (now : DateTime) (signal : StrategySignal) (intent : Option RiskOrderIntent)
    (snapshot : RiskSnapshot) (tradingMode : String) : Prop where
  available : snapshot.stateAvailable = true
  fresh : snapshot.isStale now = .ok false
  sameMode : mode snapshot.tradingMode = mode tradingMode
  sameAccount : ∀ a b, intent.bind RiskOrderIntent.accountId = some a → snapshot.account.accountId = some b → a = b
  sameInstrument : ∀ i, snapshot.market.instrumentId = some i → i = signal.instrumentId

theorem differs_eq_false {a b : Option UUID} :
    differs a b = false ↔ ∀ x y, a = some x → b = some y → x = y := by
  cases a <;> cases b <;> simp [differs]

theorem matches_of_crossCheck {now : DateTime} {signal : StrategySignal} {intent : Option RiskOrderIntent}
    {snapshot : RiskSnapshot} {tradingMode : String}
    (h : crossCheck now signal intent snapshot tradingMode = .ok ()) :
    Matches now signal intent snapshot tradingMode := by
  unfold crossCheck at h
  cases hav : snapshot.stateAvailable with
  | false => simp [hav] at h
  | true =>
    cases hstale : snapshot.isStale now with
    | error e => simp [hav, hstale] at h
    | ok stale =>
      cases stale with
      | true => simp [hav, hstale] at h
      | false =>
        simp only [hav, hstale, Bool.not_true, Bool.false_eq_true, if_false] at h
        split_ifs at h with hmode haccount hinstrument
        refine ⟨hav, hstale, not_not.mp hmode, ?_, fun i hi => ?_⟩
        · exact differs_eq_false.mp (Bool.eq_false_of_not_eq_true haccount)
        · exact differs_eq_false.mp (Bool.eq_false_of_not_eq_true hinstrument) i _ hi rfl

/-- Every limit holds of the snapshot and an order of quantity `q`, in the arithmetic of `ctx`. -/
structure LimitsHold (ctx : Ctx) (now : DateTime) (signal : StrategySignal) (intent : Option RiskOrderIntent)
    (snapshot : RiskSnapshot) (tradingMode : String) (retryCount : ℤ) (q : Num) : Prop
    extends Matches now signal intent snapshot tradingMode where
  noHalt : snapshot.globalHaltActive = false
  liveEnabled : mode tradingMode = .live → snapshot.liveTradingEnabled = true
  brokerConnected : snapshot.market.brokerConnected = true
  dataFresh : snapshot.market.marketDataFresh = true
  sessionOpen : snapshot.market.marketSessionOpen = true
  instrumentAllowed : snapshot.market.instrumentAllowed = true
  notDuplicate : snapshot.duplicateSignal = false
  action : signal.action ≠ .hold
  quantity : (intent.bind RiskOrderIntent.quantity).map Decimal.num = some q
  quantity_pos : .fin 0 < q
  orderLimit : ∃ m, snapshot.limits.maxOrderQuantity = some m ∧ q ≤ m
  accountOrderLimit : ∀ m, snapshot.limits.accountMaxOrderQuantity = some m → q ≤ m
  position : ∃ base projected m, basePosition ctx snapshot.positions = .ok (some base) ∧
    projectedPosition ctx base (actionSign signal.action) (some q) = .ok projected ∧
    snapshot.limits.maxPositionQuantity = some m ∧ projected.abs ctx ≤ m
  exposure : ∃ exposure price amount total m, snapshot.positions.exposure = some exposure ∧
    snapshot.market.currentPrice = some price ∧ notional ctx q price = .ok amount ∧
    Num.add? ctx exposure amount = .ok total ∧ snapshot.limits.maxExposure = some m ∧ total ≤ m ∧
    ∀ m', snapshot.limits.accountMaxExposure = some m' → total ≤ m'
  dailyLoss : ∃ pnl m, snapshot.account.dailyRealizedPnl = some pnl ∧ snapshot.limits.maxDailyLoss = some m ∧
    m.neg ctx < pnl
  strategyLoss : ∃ pnl m, snapshot.account.strategyRealizedPnl = some pnl ∧
    snapshot.limits.maxStrategyLoss = some m ∧ m.neg ctx < pnl
  accountLoss : ∀ m, snapshot.limits.accountMaxLoss = some m →
    ∃ pnl, snapshot.account.dailyRealizedPnl = some pnl ∧ m.neg ctx < pnl
  margin : ∃ price amount m, snapshot.market.currentPrice = some price ∧ notional ctx q price = .ok amount ∧
    snapshot.account.availableMargin = some m ∧ amount ≤ m
  drawdown : ∀ m, snapshot.limits.maxDrawdown = some m →
    ∃ d, currentDrawdown ctx snapshot.account = .ok (some d) ∧ d ≤ m
  deviation : ∀ m, snapshot.limits.maxPriceDeviation = some m → ∃ price reference d,
    snapshot.market.currentPrice = some price ∧ snapshot.market.referencePrice = some reference ∧
    priceDeviation ctx price reference = .ok d ∧ d ≤ m
  openPositions : ∃ n m, snapshot.positions.openPositionsCount = some n ∧
    snapshot.limits.maxOpenPositions = some m ∧ n < m
  accountPositions : ∀ m, snapshot.limits.accountMaxPositions = some m →
    ∃ n, snapshot.positions.openPositionsCount = some n ∧ n < m
  orders : ∀ m, snapshot.limits.maxOrdersPerWindow = some m → ∃ n, snapshot.recentOrderCount = some n ∧ n < m
  accountOrders : ∀ m, snapshot.limits.accountMaxOrderRate = some m → ∃ n, snapshot.recentOrderCount = some n ∧ n < m
  unresolved : ∀ m, snapshot.limits.maxUnresolvedExecutions = some m →
    ∃ n, snapshot.positions.pendingOrderCount = some n ∧ n < m
  retries : ∀ m, snapshot.limits.maxRetriesPerSignal = some m → retryCount ≤ m

theorem orderQuantity_eq_some {signal : StrategySignal} {intent : Option RiskOrderIntent} {q : Num}
    (h : orderQuantity signal intent = some q) :
    signal.action ≠ .hold ∧ (intent.bind RiskOrderIntent.quantity).map Decimal.num = some q := by
  unfold orderQuantity at h
  split_ifs at h with hhold
  exact ⟨hhold, h⟩

theorem projectedExposure_eq_some {ctx : Ctx} {exposure price : Option Num} {q total : Num}
    (h : projectedExposure ctx exposure (some q) price = .ok (some total)) : ∃ x p amount, exposure = some x ∧
      price = some p ∧ notional ctx q p = .ok amount ∧ Num.add? ctx x amount = .ok total := by
  cases exposure with
  | none => cases h
  | some x =>
    cases price with
    | none => cases h
    | some p =>
      simp only [projectedExposure, bind_eq_ok] at h
      obtain ⟨amount, ha, total', ht, heq⟩ := h
      cases heq
      exact ⟨x, p, amount, rfl, rfl, ha, ht⟩

theorem requiredMargin_eq_some {ctx : Ctx} {price : Option Num} {q amount : Num}
    (h : requiredMargin ctx (some q) price = .ok (some amount)) :
    ∃ p, price = some p ∧ notional ctx q p = .ok amount := by
  cases price with
  | none => cases h
  | some p =>
    obtain ⟨a, ha, heq⟩ := map_eq_ok.mp h
    cases heq
    exact ⟨p, rfl, ha⟩

theorem mapM_eq_some {ε α β : Type} {f : α → Except ε β} {x : Option α} {b : β}
    (h : x.mapM f = .ok (some b)) : ∃ a, x = some a ∧ f a = .ok b := by
  cases x with
  | none => cases h
  | some a =>
    cases hf : f a with
    | error e => rw [Option.mapM_some, hf] at h; cases h
    | ok b' =>
      rw [Option.mapM_some, hf] at h
      cases h
      exact ⟨a, rfl, hf⟩

/-- The limits of an acceptable context that was built from a snapshot. -/
theorem limitsHold_of_acceptable {now : DateTime} {signal : StrategySignal} {intent : Option RiskOrderIntent}
    {snapshot : RiskSnapshot} {tradingMode : String} {retryCount : ℤ} {c : RiskEvaluationContext}
    (h : build now signal intent snapshot tradingMode retryCount = .ok c) (hc : Acceptable c) :
    ∃ q, LimitsHold .default now signal intent snapshot tradingMode retryCount q := by
  simp only [build, bind_eq_ok, arith_eq_ok] at h
  obtain ⟨_, hcheck, base, hbase, projected, hprojected, exposure, hexposure, margin, hmargin, drawdown, hdrawdown,
    heq⟩ := h
  cases heq
  obtain ⟨q, m, hq, hm, hpos, -, hle⟩ := hc.quantity
  have hq : orderQuantity signal intent = some q := hq
  obtain ⟨haction, hquantity⟩ := orderQuantity_eq_some hq
  rw [hq] at hprojected hexposure hmargin
  refine ⟨q, ⟨matches_of_crossCheck hcheck, hc.halt, hc.liveMode, hc.broker, hc.marketData, hc.session, hc.instrument,
    hc.duplicate, haction, hquantity, hpos, ⟨m, hm, hle⟩, fun m' hm' => ?_, ?_, ?_, ?_, ?_, hc.accountLoss, ?_,
    fun m' hm' => ?_, fun m' hm' => ?_, ?_, hc.accountPositions, fun m' hm' => ?_, hc.accountRate, fun m' hm' => ?_,
    fun m' hm' => ?_⟩⟩
  · obtain ⟨a, ha, hle'⟩ := hc.accountQuantity m' hm'
    have ha : orderQuantity signal intent = some a := ha
    rw [hq] at ha
    cases ha
    exact hle'
  · obtain ⟨a, b, ha, hb, -, -, hab⟩ := hc.position
    obtain ⟨p, hp, rfl⟩ := Option.map_eq_some_iff.mp ha
    have hp : projected = some p := hp
    rw [hp] at hprojected
    obtain ⟨x, rfl, hx⟩ := mapM_eq_some hprojected
    exact ⟨x, p, b, hbase, hx, hb, hab⟩
  · obtain ⟨a, b, ha, hb, -, -, hab⟩ := hc.exposure
    have ha : exposure = some a := ha
    rw [ha] at hexposure
    obtain ⟨x, p, amount, hx, hp, hamount, htotal⟩ := projectedExposure_eq_some hexposure
    refine ⟨x, p, amount, a, b, hx, hp, hamount, htotal, hb, hab, fun m' hm' => ?_⟩
    obtain ⟨a', ha', hle'⟩ := hc.accountExposure m' hm'
    have ha' : exposure = some a' := ha'
    rw [ha] at ha'
    cases ha'
    exact hle'
  · obtain ⟨a, b, ha, hb, -, hab⟩ := hc.dailyLoss
    exact ⟨a, b, ha, hb, hab⟩
  · obtain ⟨a, b, ha, hb, -, hab⟩ := hc.strategyLoss
    exact ⟨a, b, ha, hb, hab⟩
  · obtain ⟨a, b, ha, hb, -, -, hab⟩ := hc.margin
    have ha : margin = some a := ha
    rw [ha] at hmargin
    obtain ⟨p, hp, hamount⟩ := requiredMargin_eq_some hmargin
    exact ⟨p, a, b, hp, hamount, hb, hab⟩
  · obtain ⟨a, ha, -, -, hab⟩ := hc.drawdown m' hm'
    have ha : drawdown = some a := ha
    rw [ha] at hdrawdown
    exact ⟨a, hdrawdown, hab⟩
  · obtain ⟨price, reference, d, hp, hr, -, -, -, hd, hle'⟩ := hc.deviation m' hm'
    exact ⟨price, reference, d, hp, hr, hd, hle'⟩
  · obtain ⟨n, m', hn, hm', -, -, hlt⟩ := hc.openPositions
    exact ⟨n, m', hn, hm', hlt⟩
  · obtain ⟨n, hn, -, -, hlt⟩ := hc.frequency m' hm'
    exact ⟨n, hn, hlt⟩
  · obtain ⟨n, hn, -, -, hlt⟩ := hc.unresolved m' hm'
    exact ⟨n, hn, hlt⟩
  · obtain ⟨n, hn, -, -, hle'⟩ := hc.retries m' hm'
    cases hn
    exact hle'

/-- **An approval of the default rules means that every limit holds of the snapshot**, the amounts computed as the
builder computes them, in Decimal's default context. -/
theorem approved_within_limits {ttl : ℤ} {e : RiskRuleEngine} (he : RiskRuleEngine.new none ttl = .ok e)
    {now : DateTime} {signal : StrategySignal} {intent : Option RiskOrderIntent} {snapshot : RiskSnapshot}
    {tradingMode : String} {retryCount : ℤ} {c : RiskEvaluationContext}
    (hbuild : build now signal intent snapshot tradingMode retryCount = .ok c) {request : RiskAssessmentRequest}
    {env : EngineEnv} {d : RiskDecision} (h : e.evaluate request c env = .ok d) (hd : d.isApproved = true) :
    ∃ q, LimitsHold .default now signal intent snapshot tradingMode retryCount q := by
  have hall := (RiskRuleEngine.evaluate_approved h hd).2
  rw [rules_of_new he] at hall
  exact limitsHold_of_acceptable hbuild (passes_iff_acceptable.mp hall)

/-- A healthy snapshot with a position `base` and a position limit. -/
def sampleSnapshot (base limit : ℚ) : RiskSnapshot where
  snapshotId := ⟨7⟩
  takenAt := ⟨2026, 8, 12, 9, 15, 0, 0, some 0⟩
  stateAvailable := true
  maxAge := some 5000000
  globalHaltActive := false
  account := { dailyRealizedPnl := some (.fin 0), strategyRealizedPnl := some (.fin 0)
               availableMargin := some (.fin 1000) }
  market := { currentPrice := some (.fin 100), marketDataFresh := true, brokerConnected := true
              marketSessionOpen := true, instrumentAllowed := true }
  positions := { openPositionsCount := some 1, projectedPositionQuantity := some (.fin base)
                 exposure := some (.fin 500) }
  limits := { maxOrderQuantity := some (.fin 10), maxPositionQuantity := some (.fin limit)
              maxExposure := some (.fin 1000), maxDailyLoss := some (.fin 50), maxStrategyLoss := some (.fin 50)
              maxOpenPositions := some 5 }
  aware := rfl

/-- An order of one share. -/
def sampleIntent : RiskOrderIntent := { quantity := some (.finite ⟨false, 1, 0⟩) }

/-- What the default engine says about the context of one more share. -/
def sampleDecision (base limit : ℚ) : Except ContextError (Except RiskError RiskDecision) :=
  (build sampleEnv.evaluatedAt sampleRequest.signal (some sampleIntent) (sampleSnapshot base limit) "PAPER" 0).map
    fun c => defaultEngine.evaluate sampleRequest c sampleEnv

/-- The decision is an approval. -/
def sampleApproves (base limit : ℚ) : Bool :=
  match sampleDecision base limit with
  | .ok (.ok d) => d.isApproved
  | _ => false

theorem sample_approved {base limit : ℚ} (h : sampleApproves base limit = true) : ∃ c d,
    build sampleEnv.evaluatedAt sampleRequest.signal (some sampleIntent) (sampleSnapshot base limit) "PAPER" 0 = .ok c ∧
      defaultEngine.evaluate sampleRequest c sampleEnv = .ok d ∧ d.isApproved = true := by
  unfold sampleApproves at h
  split at h
  · rename_i d hd
    obtain ⟨c, hc, hev⟩ := map_eq_ok.mp hd
    exact ⟨c, d, hc, hev, h⟩
  · cases h

/-- One share is bought on top of ten. -/
theorem approved_within_limits_ten : sampleApproves 10 100 = true ∧
    ∃ q, LimitsHold .default sampleEnv.evaluatedAt sampleRequest.signal (some sampleIntent) (sampleSnapshot 10 100)
      "PAPER" 0 q := by
  have happroves : sampleApproves 10 100 = true := by decide +kernel
  obtain ⟨c, d, hbuild, h, hd⟩ := sample_approved happroves
  exact ⟨happroves, approved_within_limits new_default hbuild h hd⟩

/-- With a position of 29 digits at its limit one more share is approved: the sum is rounded back to the limit. -/
theorem not_exact_position : ∃ c d,
    build sampleEnv.evaluatedAt sampleRequest.signal (some sampleIntent) (sampleSnapshot (10 ^ 28) (10 ^ 28)) "PAPER" 0 =
      .ok c ∧ defaultEngine.evaluate sampleRequest c sampleEnv = .ok d ∧ d.isApproved = true ∧
    ¬∃ q, LimitsHold .exact sampleEnv.evaluatedAt sampleRequest.signal (some sampleIntent)
      (sampleSnapshot (10 ^ 28) (10 ^ 28)) "PAPER" 0 q := by
  have happroves : sampleApproves (10 ^ 28) (10 ^ 28) = true := by decide +kernel
  obtain ⟨c, d, hbuild, h, hd⟩ := sample_approved happroves
  refine ⟨c, d, hbuild, h, hd, fun ⟨q, hq⟩ => ?_⟩
  obtain ⟨base, projected, m, hbase, hprojected, hm, hle⟩ := hq.position
  cases hbase
  cases hm
  have hquantity := hq.quantity
  cases hquantity
  cases hprojected
  exact absurd hle (by decide +kernel)

end AlphaAlgo.Risk
