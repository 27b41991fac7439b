import AlphaAlgo.Reconciliation.Matching

/-!
# Positions — comparison of positions and funds

`reconcilePositions` and `reconcileFunds`.  The broker positions are indexed by account and instrument, the last one
of a key counts.  A broker observation that is older than `stale_seconds` is reported as stale and not compared; the
age of an observation needs both times aware or both naive, and the comparison raises otherwise.

The ages are compared exactly, where the source compares `total_seconds()` as a floating point number.  An average price
may be a NaN or infinite, as an adapter reads it; comparing a NaN, or two infinities of one sign, raises.
-/

namespace AlphaAlgo.Reconciliation

/-- What the reconciliation raises: its own errors, and what passes through it. -/
inductive ReconciliationError where
  | mode (text : String)
  | validation (text : String)
  | data (text : String)
  | persistence (text : String)
  | duplicateDiscrepancy (text : String)
  | typeError
  | invalidOperation
deriving DecidableEq, Repr

/-- `(now - observed_at).total_seconds() > stale_seconds`, when both are given. -/
def isStale (now : DateTime) (staleSeconds : Option ℤ) (observedAt : Option DateTime) :
    Except ReconciliationError Bool :=
  match observedAt, staleSeconds with
  | some t, some s =>
    match now.sub? t with
    | none => .error .typeError
    | some age => .ok (age > s * 1000000)
  | _, _ => .ok false

/-- `within` on values that may be absent. -/
def withinOption (a b : Option Dec) (epsilon : ℚ) : Bool :=
  match a, b with
  | some x, some y => within x y epsilon
  | none, none => true
  | _, _ => false

/-! ### Positions -/

/-- `str(id)` of an id that may be absent. -/
def idText (id : Option UUID) : String := (id.map UUID.str).getD "None"

def positionMatchKey (o : PositionObservation) : String := idText o.accountId ++ ":" ++ idText o.instrumentId

/-- `{position_match_key(o): o for o in broker}`. -/
def positionIndex (broker : List PositionObservation) : List (String × PositionObservation) :=
  (groupBy (fun o => some (positionMatchKey o)) broker).filterMap fun p => p.2.getLast?.map fun o => (p.1, o)

/-- The comparison of the two prices raises nothing. -/
def comparable : Option Decimal → Option Decimal → Bool
  | some .nan, some _ => false
  | some _, some .nan => false
  | some (.infinity neg), some (.infinity neg') => neg ≠ neg'
  | _, _ => true

/-- Two prices that can be compared differ by more than `epsilon`. -/
def pricesApart (epsilon : ℚ) : Option Decimal → Option Decimal → Bool
  | some (.finite x), some (.finite y) => !within x y epsilon
  | some _, some _ => true
  | _, _ => false

def comparePositionFields (tol : Tolerance) (i b : PositionObservation) : List DiscrepancyKind :=
  kindsOf [(i.quantity ≠ b.quantity, .quantityMismatch), (i.side ≠ b.side, .sideMismatch),
    (pricesApart tol.priceEpsilon i.averagePrice b.averagePrice, .averagePriceMismatch)]

/-- Keys sorted. -/
def positionState (o : PositionObservation) : StateDict :=
  [("account_id", .ofOption (o.accountId.map UUID.str)), ("average_price", .ofOption (o.averagePrice.map Decimal.str)),
    ("instrument_id", .ofOption (o.instrumentId.map UUID.str)), ("quantity", .int o.quantity), ("side", .str o.side)]

/-- What an internal position is found to be. -/
inductive Finding where
  | internalOnly
  | stale (y : PositionObservation)
  | compared (y : PositionObservation)

section

variable (ctx : MatchContext) (tol : Tolerance) (staleSeconds : Option ℤ) (now : DateTime)

def findPosition (index : List (String × PositionObservation)) (x : PositionObservation) :
    Except ReconciliationError Finding :=
  match index.lookup (positionMatchKey x) with
  | none => .ok .internalOnly
  | some y =>
    match isStale now staleSeconds y.observedAt with
    | .error err => .error err
    | .ok stale =>
      if stale then .ok (.stale y)
      else if comparable x.averagePrice y.averagePrice then .ok (.compared y) else .error .invalidOperation

/-- The findings of the internal positions, in order; the first that raises ends the comparison. -/
def findPositions (index : List (String × PositionObservation)) :
    List PositionObservation → Except ReconciliationError (List (PositionObservation × Finding))
  | [] => .ok []
  | x :: l =>
    match findPosition staleSeconds now index x with
    | .error err => .error err
    | .ok f =>
      match findPositions index l with
      | .error err => .error err
      | .ok r => .ok ((x, f) :: r)

/-- Evidence of an internal position. -/
def positionReport (p : PositionObservation × Finding) : List Discrepancy :=
  match p.2 with
  | .internalOnly =>
    [discrepancy ctx .position (positionMatchKey p.1) .internalOnly (positionState p.1) [] p.1.observedAt]
  | .stale y =>
    [discrepancy ctx .position (positionMatchKey p.1) .stale (positionState p.1) (positionState y) y.observedAt]
  | .compared y => (comparePositionFields tol p.1 y).map fun kind =>
      discrepancy ctx .position (positionMatchKey p.1) kind (positionState p.1) (positionState y) y.observedAt

def positionAgrees (p : PositionObservation × Finding) : Bool :=
  match p.2 with
  | .compared y => (comparePositionFields tol p.1 y).isEmpty
  | _ => false

def reconcilePositions (internal broker : List PositionObservation) : Except ReconciliationError ComparisonResult :=
  let index := positionIndex broker
  match findPositions staleSeconds now index internal with
  | .error err => .error err
  | .ok findings =>
    let brokerOnly := index.filter fun p => p.1 ∉ internal.map positionMatchKey
    .ok
      { discrepancies := findings.flatMap (positionReport ctx tol) ++ brokerOnly.map fun p =>
          discrepancy ctx .position p.1 .brokerOnly [] (positionState p.2) p.2.observedAt
        matched := findings.countP (positionAgrees tol)
        internalOnly := findings.countP fun p => p.2 matches .internalOnly
        brokerOnly := brokerOnly.length
        unknown := findings.countP fun p => p.2 matches .stale _ }

/-! ### Funds -/

/-- Keys sorted. -/
def fundsState (o : FundsObservation) : StateDict :=
  [("account_id", .ofOption (o.accountId.map UUID.str)), ("available_cash", .ofOption (o.availableCash.map Dec.str)),
    ("available_margin", .ofOption (o.availableMargin.map Dec.str)), ("currency", .str o.currency),
    ("used_margin", .ofOption (o.usedMargin.map Dec.str))]

/-- The kinds of a difference; both margins are reported as one kind, so it may occur twice. -/
def compareFunds (i b : FundsObservation) : List DiscrepancyKind :=
  kindsOf [(!withinOption i.availableCash b.availableCash tol.fundsEpsilon, .cashMismatch),
    (!withinOption i.availableMargin b.availableMargin tol.fundsEpsilon, .marginMismatch),
    (!withinOption i.usedMargin b.usedMargin tol.fundsEpsilon, .marginMismatch)]

/-- Evidence on the funds of the account. -/
def fundsReport (kind : DiscrepancyKind) (internalState brokerState : StateDict) (observedAt : Option DateTime) :
    Discrepancy :=
  discrepancy ctx .funds ctx.accountId.str kind internalState brokerState observedAt

def reconcileFunds (internal broker : Option FundsObservation) : Except ReconciliationError ComparisonResult :=
  match broker, internal with
  | none, _ => .ok
      { discrepancies := [fundsReport ctx .unknown ((internal.map fundsState).getD []) [] none]
        unavailable := 1 }
  | some b, none => .ok
      { discrepancies := [fundsReport ctx .unknown [] (fundsState b) b.observedAt]
        unknown := 1 }
  | some b, some i =>
    match isStale now staleSeconds b.observedAt with
    | .error err => .error err
    | .ok true => .ok
        { discrepancies := [fundsReport ctx .stale (fundsState i) (fundsState b) b.observedAt]
          unknown := 1 }
    | .ok false => .ok
        { discrepancies := (compareFunds tol i b).map fun kind =>
            fundsReport ctx kind (fundsState i) (fundsState b) b.observedAt
          matched := if (compareFunds tol i b).isEmpty then 1 else 0 }

end

end AlphaAlgo.Reconciliation
