import AlphaAlgo.Paper.Book

/-!
# Service — the paper trading service

`PaperTradingService.submit`: a funds check against the reference price, the submission to the paper broker, and the
settlement of the fill that its events report.  The funds are checked before the broker fills and debited after it;
nothing undoes a fill whose settlement fails.

The clocks of service and broker and the repository are parameters of a call (`CallEnv`): the readings that the call
gets, and whether the repository raises when the funds are saved.

* `submit_cases`: everything a call does.
-/

namespace AlphaAlgo.Paper

/-! ### The broker -/

structure PaperBroker where
  book : PaperOrderBook := {}
  referencePrices : UUID → Option PaperReferencePrice
  connected : Bool := false
  accountByClient : List (String × UUID) := []

namespace PaperBroker

def setReferencePrice (b : PaperBroker) (instrumentId : UUID) (reference : PaperReferencePrice) : PaperBroker :=
  { b with referencePrices := Function.update b.referencePrices instrumentId (some reference) }

/-- `submit_order`, at the reading `now` of the broker's clock. -/
def submitOrder (b : PaperBroker) (request : BrokerOrderRequest) (now : DateTime) :
    Except PaperError (PaperBroker × BrokerOrderResponse) :=
  if !b.connected then .error (.adapter "paper broker is not connected")
  else match b.book.submit request (b.referencePrices request.instrumentId) now with
    | .error err => .error err
    | .ok (book, response) => .ok
        ({ b with
            book := book
            accountByClient := (request.clientOrderId, request.brokerAccountId) :: b.accountByClient }, response)

end PaperBroker

/-! ### Accounts and outcomes -/

inductive PaperAccountStatus where
  | active
  | suspended
  | reset
deriving DecidableEq, Repr

def PaperAccountStatus.value : PaperAccountStatus → String
  | active => "ACTIVE"
  | suspended => "SUSPENDED"
  | reset => "RESET"

/-- The fields that the service reads; the mode of a paper account is `PAPER`. -/
structure PaperAccount where
  accountId : UUID
  paperRunId : UUID
  startingCapital : ℚ
  status : PaperAccountStatus
  capital_pos : 0 < startingCapital

structure PaperFillOutcome where
  clientOrderId : String
  orderId : UUID
  side : OrderSide
  instrumentId : UUID
  quantity : ℤ
  fillPrice : Option ℚ := none
  effectivePrice : Option ℚ := none
  commission : ℚ := 0
  netCash : ℚ := 0
  accepted : Bool := false
  reason : Option String
  occurredAt : DateTime
deriving DecidableEq

/-- A price that is given and positive. -/
def isPositive (price : Option ℚ) : Bool := price.any (0 < ·)

/-- `PaperFillOutcome.__post_init__`. -/
def PaperFillOutcome.postInit (o : PaperFillOutcome) : Except PaperError Unit :=
  if !o.occurredAt.aware then .error (.valueError "occurred_at must be timezone-aware")
  else if o.accepted && !isPositive o.fillPrice then
    .error (.valueError "accepted outcome requires a positive fill_price")
  else if o.accepted && !isPositive o.effectivePrice then
    .error (.valueError "accepted outcome requires a positive effective_price")
  else .ok ()

/-! ### The service -/

structure PaperTradingService where
  account : PaperAccount
  broker : PaperBroker
  referencePrices : UUID → Option PaperReferencePrice
  costModel : PaperCostModel
  funds : PaperFunds
  outcomes : List PaperFillOutcome := []
  sequence : ℕ := 0

/-- The arguments of `submit`. -/
structure SubmitArgs where
  instrumentId : UUID
  side : OrderSide
  quantity : ℤ
  orderType : OrderType := .market
  limitPrice : Option ℚ := none
  clientOrderId : Option String := none
deriving DecidableEq

/-- What a call meets: the readings of the broker's and of the service's clock (the last one for a rejection after the
fill), and whether saving the funds raises. -/
structure CallEnv where
  brokerNow : DateTime
  now : DateTime
  rejectNow : DateTime
  saveRaises : Bool := false

/-- What the events of a submission come to. -/
structure Collected where
  fillPrice : Option ℚ := none
  reason : Option String := none
  occurredAt : DateTime

namespace PaperTradingService

/-- The constructor, with a broker of its own that is given the same reference prices; `restored` are the funds that
the repository has. -/
def init (account : PaperAccount) (costModel : PaperCostModel) (referencePrices : UUID → Option PaperReferencePrice)
    (connected : Bool) (restored : Option PaperFunds) : PaperTradingService where
  account := account
  broker := { referencePrices := referencePrices, connected := connected }
  referencePrices := referencePrices
  costModel := costModel
  funds := restored.getD
    { accountId := account.accountId, availableCash := account.startingCapital
      available_nonneg := account.capital_pos.le }

def setReferencePrice (s : PaperTradingService) (instrumentId : UUID) (reference : PaperReferencePrice) :
    PaperTradingService :=
  { s with
    referencePrices := Function.update s.referencePrices instrumentId (some reference)
    broker := s.broker.setReferencePrice instrumentId reference }

/-- `client_order_id or self._next_client_order_id()`. -/
def resolveClientOrderId (s : PaperTradingService) (clientOrderId : Option String) : PaperTradingService × String :=
  match orElse clientOrderId none with
  | some id => (s, id)
  | none =>
    ({ s with sequence := s.sequence + 1 },
      "paper-" ++ s.account.accountId.str ++ "-" ++ toString (s.sequence + 1))

/-- The outcome is checked and appended. -/
def report (s : PaperTradingService) (o : PaperFillOutcome) :
    PaperTradingService × Except PaperError PaperFillOutcome :=
  match o.postInit with
  | .error err => (s, .error err)
  | .ok _ => ({ s with outcomes := s.outcomes ++ [o] }, .ok o)

def rejectWithoutFill (s : PaperTradingService) (a : SubmitArgs) (clientOrderId : Option String) (reason : String)
    (now : DateTime) : PaperTradingService × Except PaperError PaperFillOutcome :=
  let (s, id) := s.resolveClientOrderId clientOrderId
  s.report
    { clientOrderId := id, orderId := paperOrderId s.account.accountId id, side := a.side
      instrumentId := a.instrumentId, quantity := a.quantity, reason := some reason, occurredAt := now }

/-- The request for the broker. -/
def requestOf (s : PaperTradingService) (a : SubmitArgs) (clientOrderId : String) : BrokerOrderRequest where
  brokerAccountId := s.account.accountId
  instrumentId := a.instrumentId
  tradingMode := .paper
  clientOrderId := clientOrderId
  side := a.side
  orderType := a.orderType
  quantity := a.quantity
  riskApprovalId := "paper-" ++ s.account.paperRunId.str
  limitPrice := a.limitPrice.map .fin
  orderIdEntry := .id (paperOrderId s.account.accountId clientOrderId)

/-- `_can_afford`; what the broker will reject commits no cash. -/
def canAfford (s : PaperTradingService) (request : BrokerOrderRequest) (reference : PaperReferencePrice) :
    Except PaperError Bool :=
  match decideFill request reference with
  | .error (.unsupportedOrderType _) => .ok true
  | .error err => .error err
  | .ok (.rejects _) => .ok true
  | .ok (.fills price _ _ _) =>
    match fillCosts s.costModel .buy price request.quantity with
    | none => .error .invalidOperation
    | some c => .ok (c.amount ≤ s.funds.availableCash)

/-- The funds check before the submission: only a buy with a reference price is checked. -/
def fundsCheck (s : PaperTradingService) (request : BrokerOrderRequest) : Except PaperError Bool :=
  match request.side, s.referencePrices request.instrumentId with
  | .buy, some reference => s.canAfford request reference
  | _, _ => .ok true

/-- One event of the loop in `_submit_and_collect`. -/
def collectEvent (c : Collected) (ev : PaperEvent) : Collected :=
  match ev.eventType with
  | .fill => { c with occurredAt := ev.occurredAt, fillPrice := ev.paperFillPrice.or c.fillPrice }
  | .rejected => { c with occurredAt := ev.occurredAt, reason := some ev.reason }
  | _ => { c with occurredAt := ev.occurredAt }

def submitAndCollect (s : PaperTradingService) (request : BrokerOrderRequest) (env : CallEnv) :
    Except PaperError (PaperTradingService × Collected) :=
  match s.broker.submitOrder request env.brokerNow with
  | .error err => .error err
  | .ok (broker, response) =>
    let (events, book) := broker.book.pendingEvents
    let c := events.foldl collectEvent { occurredAt := env.now }
    let c := if c.fillPrice.isNone && c.reason.isNone then
        { c with reason := orElse response.reason (some "order rejected") }
      else c
    .ok ({ s with broker := { broker with book := book } }, c)

/-- The signed cash flow of an amount. -/
def netCash (side : OrderSide) (amount : ℚ) : ℚ :=
  match side with
  | .buy => -amount
  | .sell => amount

/-- `_persist_funds` and the accepted outcome. -/
def finish (s : PaperTradingService) (o : PaperFillOutcome) (env : CallEnv) :
    PaperTradingService × Except PaperError PaperFillOutcome :=
  if env.saveRaises then (s, .error .repository) else s.report o

/-- The costs of the fill, the ledger and the outcome. -/
def settle (s : PaperTradingService) (a : SubmitArgs) (clientOrderId : String) (price : ℚ) (occurredAt : DateTime)
    (env : CallEnv) : PaperTradingService × Except PaperError PaperFillOutcome :=
  match fillCosts s.costModel a.side price a.quantity with
  | none => (s, .error .invalidOperation)
  | some c =>
    let outcome : PaperFillOutcome :=
      { clientOrderId := clientOrderId, orderId := paperOrderId s.account.accountId clientOrderId, side := a.side
        instrumentId := a.instrumentId, quantity := a.quantity, fillPrice := some price
        effectivePrice := some c.effective, commission := c.commission
        netCash := netCash a.side c.amount
        accepted := true, reason := none, occurredAt := occurredAt }
    match a.side with
    | .buy =>
      match s.funds.reserve c.amount >>= fun f => f.settleBuy c.amount with
      | .error text => s.rejectWithoutFill a (some clientOrderId) text env.rejectNow
      | .ok funds => { s with funds := funds }.finish outcome env
    | .sell =>
      match s.funds.creditSell c.amount with
      | .error text => (s, .error (.valueError text))
      | .ok funds => { s with funds := funds }.finish outcome env

/-- What follows the answer of the broker. -/
def conclude (s : PaperTradingService) (a : SubmitArgs) (clientOrderId : String) (c : Collected) (env : CallEnv) :
    PaperTradingService × Except PaperError PaperFillOutcome :=
  match c.fillPrice with
  | none => s.report
      { clientOrderId := clientOrderId, orderId := paperOrderId s.account.accountId clientOrderId, side := a.side
        instrumentId := a.instrumentId, quantity := a.quantity
        reason := orElse c.reason (some "order rejected by paper broker"), occurredAt := c.occurredAt }
  | some price => s.settle a clientOrderId price c.occurredAt env

/-- An order of positive quantity, with its client order id. -/
def submitChecked (s : PaperTradingService) (a : SubmitArgs) (clientOrderId : String) (env : CallEnv) :
    PaperTradingService × Except PaperError PaperFillOutcome :=
  let request := s.requestOf a clientOrderId
  match s.fundsCheck request with
  | .error err => (s, .error err)
  | .ok false => s.rejectWithoutFill a (some clientOrderId) "insufficient available funds" env.now
  | .ok true =>
    match s.submitAndCollect request env with
    | .error err => (s, .error err)
    | .ok (s', c) => s'.conclude a clientOrderId c env

/-- `PaperTradingService.submit`; a side is a buy or a sale. -/
def submit (s : PaperTradingService) (a : SubmitArgs) (env : CallEnv) :
    PaperTradingService × Except PaperError PaperFillOutcome :=
  if s.account.status ≠ .active then
    (s, .error (.adapter ("paper account is not active: " ++ s.account.status.value)))
  else if a.quantity ≤ 0 then s.rejectWithoutFill a a.clientOrderId "quantity must be positive" env.now
  else
    let (s, id) := s.resolveClientOrderId a.clientOrderId
    s.submitChecked a id env

/-! ### What a call does -/

/-- What no call changes. -/
def config (s : PaperTradingService) :=
  (s.account, s.costModel, s.referencePrices, s.broker.referencePrices, s.broker.connected)

theorem resolveClientOrderId_eq (s : PaperTradingService) (clientOrderId : Option String) :
    ∃ n, (s.resolveClientOrderId clientOrderId).1 = { s with sequence := n } := by
  unfold resolveClientOrderId
  cases orElse clientOrderId none with
  | some id => exact ⟨s.sequence, rfl⟩
  | none => exact ⟨s.sequence + 1, rfl⟩

/-- The client order id of a call is not empty. -/
theorem resolveClientOrderId_ne (s : PaperTradingService) (clientOrderId : Option String) :
    (s.resolveClientOrderId clientOrderId).2 ≠ "" := by
  unfold resolveClientOrderId
  cases h : orElse clientOrderId none with
  | some id =>
    unfold orElse at h
    cases clientOrderId with
    | none => cases h
    | some x =>
      simp only at h
      split_ifs at h with hx
      cases h
      exact hx
  | none =>
    intro he
    have := congrArg String.length he
    simp [String.length_append] at this

theorem resolveClientOrderId_some (s : PaperTradingService) {id : String} (h : id ≠ "") :
    s.resolveClientOrderId (some id) = (s, id) := by
  simp [resolveClientOrderId, orElse, h]

/-- An outcome that is not accepted has no fill and no costs. -/
structure Refusal (o : PaperFillOutcome) : Prop where
  accepted : o.accepted = false
  fillPrice : o.fillPrice = none
  effectivePrice : o.effectivePrice = none
  commission : o.commission = 0
  netCash : o.netCash = 0
  named : o.clientOrderId ≠ ""

theorem report_refusal (s : PaperTradingService) {o : PaperFillOutcome} (h : o.accepted = false) :
    s.report o = if o.occurredAt.aware then ({ s with outcomes := s.outcomes ++ [o] }, .ok o)
      else (s, .error (.valueError "occurred_at must be timezone-aware")) := by
  unfold report PaperFillOutcome.postInit
  rw [h]
  cases o.occurredAt.aware <;> rfl

/-- The call changes neither funds nor configuration and reports at most a refusal. -/
structure Refuses (s s' : PaperTradingService) (res : Except PaperError PaperFillOutcome) (now : DateTime) : Prop where
  funds : s'.funds = s.funds
  config : s'.config = s.config
  book : s'.broker.book = s.broker.book
  reported : (now.aware = true ∧ ∃ o, res = .ok o ∧ s'.outcomes = s.outcomes ++ [o] ∧ Refusal o) ∨
    (now.aware = false ∧ s'.outcomes = s.outcomes ∧ ∃ err, res = .error err)

/-- A reported outcome without a fill. -/
theorem refuses_report (s : PaperTradingService) {o : PaperFillOutcome} (h : Refusal o) :
    Refuses s (s.report o).1 (s.report o).2 o.occurredAt := by
  rw [report_refusal s h.accepted]
  cases ha : o.occurredAt.aware with
  | true => exact ⟨rfl, rfl, rfl, Or.inl ⟨ha, o, rfl, rfl, h⟩⟩
  | false => exact ⟨rfl, rfl, rfl, Or.inr ⟨ha, rfl, _, rfl⟩⟩

theorem refuses_rejectWithoutFill (s : PaperTradingService) (a : SubmitArgs) (clientOrderId : Option String)
    (reason : String) (now : DateTime) :
    Refuses s (s.rejectWithoutFill a clientOrderId reason now).1 (s.rejectWithoutFill a clientOrderId reason now).2
      now := by
  obtain ⟨n, hn⟩ := s.resolveClientOrderId_eq clientOrderId
  have hid := s.resolveClientOrderId_ne clientOrderId
  unfold rejectWithoutFill
  generalize s.resolveClientOrderId clientOrderId = x at hn hid
  obtain ⟨s', id⟩ := x
  simp only at hn hid
  subst hn
  have h := refuses_report { s with sequence := n }
    (o := { clientOrderId := id, orderId := paperOrderId s.account.accountId id, side := a.side
            instrumentId := a.instrumentId, quantity := a.quantity, reason := some reason, occurredAt := now })
    ⟨rfl, rfl, rfl, rfl, rfl, hid⟩
  exact ⟨h.funds, h.config, h.book, h.reported⟩

/-- Funds, outcomes and configuration are as before. -/
structure Kept (s s' : PaperTradingService) : Prop where
  funds : s'.funds = s.funds
  outcomes : s'.outcomes = s.outcomes
  config : s'.config = s.config

theorem Refuses.of_kept {s s' s'' : PaperTradingService} {res : Except PaperError PaperFillOutcome} {now : DateTime}
    (h : Refuses s' s'' res now) (hk : Kept s s') (hbook : s'.broker.book = s.broker.book) :
    Refuses s s'' res now := by
  refine ⟨h.funds.trans hk.funds, h.config.trans hk.config, h.book.trans hbook, ?_⟩
  rw [← hk.outcomes]
  exact h.reported

/-- **Everything the broker's part of a call does**, from a book without pending events. -/
inductive Answered (s : PaperTradingService) (request : BrokerOrderRequest) (env : CallEnv) :
    PaperTradingService → Collected → Prop
  | replayed {s' : PaperTradingService} {c : Collected} {r : SubmissionRecord} (hk : Kept s s')
      (hr : s.broker.book.recorded request.brokerAccountId request.clientOrderId = some r)
      (hd : PaperOrderBook.firstDifference r.request request = none) (hbook : s'.broker.book = s.broker.book)
      (hc : c.fillPrice = none) (ht : c.occurredAt = env.now) : Answered s request env s' c
  | rejected {s' : PaperTradingService} {c : Collected} {orderId : UUID} {stamp : Stamp} {reason : Reason}
      (hk : Kept s s') (hr : s.broker.book.recorded request.brokerAccountId request.clientOrderId = none)
      (hb : blank request.clientOrderId = false)
      (hs : s.broker.book.submit request (s.broker.referencePrices request.instrumentId) env.brokerNow =
        .ok (s.broker.book.reject request orderId stamp reason))
      (hbook : s'.broker.book = (s.broker.book.reject request orderId stamp reason).1.drain)
      (hc : c.fillPrice = none) (ht : c.occurredAt.aware = true) : Answered s request env s' c
  | filled {s' : PaperTradingService} {c : Collected} {stamp : Stamp} {ref : PaperReferencePrice} {price : ℚ}
      {quantity : ℤ} {hp : 0 < price} {hd : 0 < quantity} {hq : 0 < request.quantity} (hk : Kept s s')
      (hr : s.broker.book.recorded request.brokerAccountId request.clientOrderId = none)
      (hb : blank request.clientOrderId = false) (ha : env.brokerNow.aware = true)
      (href : s.broker.referencePrices request.instrumentId = some ref)
      (hi : ref.instrumentId = request.instrumentId) (hf : decideFill request ref = .ok (.fills price quantity hp hd))
      (hbook : s'.broker.book = (s.broker.book.acceptAndFill request
        (paperOrderId request.brokerAccountId request.clientOrderId) stamp price hp hq).1.drain)
      (hc : c.fillPrice = some price) (ht : c.occurredAt.aware = true) : Answered s request env s' c

theorem submitAndCollect_error {s : PaperTradingService} {request : BrokerOrderRequest} {env : CallEnv}
    {err : PaperError} (h : s.submitAndCollect request env = .error err) :
    s.broker.connected = false ∨ ∃ err,
      s.broker.book.submit request (s.broker.referencePrices request.instrumentId) env.brokerNow = .error err := by
  unfold submitAndCollect PaperBroker.submitOrder at h
  cases hconn : s.broker.connected with
  | false => exact Or.inl rfl
  | true =>
    rw [hconn] at h
    simp only [Bool.not_true, Bool.false_eq_true, if_false] at h
    cases hs : s.broker.book.submit request (s.broker.referencePrices request.instrumentId) env.brokerNow with
    | error err => exact Or.inr ⟨err, rfl⟩
    | ok x => rw [hs] at h; cases h

theorem submitAndCollect_cases {s s' : PaperTradingService} {request : BrokerOrderRequest} {env : CallEnv}
    {c : Collected} (hdr : s.broker.book.Drained) (h : s.submitAndCollect request env = .ok (s', c)) :
    s.broker.connected = true ∧ Answered s request env s' c := by
  unfold submitAndCollect PaperBroker.submitOrder at h
  cases hconn : s.broker.connected with
  | false => rw [hconn] at h; cases h
  | true =>
    refine ⟨rfl, ?_⟩
    rw [hconn] at h
    simp only [Bool.not_true, Bool.false_eq_true, if_false] at h
    cases hs : s.broker.book.submit request (s.broker.referencePrices request.instrumentId) env.brokerNow with
    | error err => rw [hs] at h; cases h
    | ok x =>
      have hx := PaperOrderBook.submit_cases hs
      rw [hs] at h
      cases hx with
      | replayed hr hd =>
        simp only [PaperOrderBook.pendingEvents, hdr.drop_events, List.foldl_nil] at h
        cases h
        exact .replayed ⟨rfl, rfl, by simp only [config, hconn]⟩ hr hd hdr.drain rfl rfl
      | @rejected stamp _ hr hb =>
        simp only [PaperOrderBook.pendingEvents, PaperOrderBook.reject, PaperOrderBook.record, hdr.drop_append] at h
        cases h
        exact .rejected ⟨rfl, rfl, by simp only [config, hconn]⟩ hr hb hs rfl rfl stamp.property
      | @filled stamp _ _ _ _ _ _ hr hb ha href hi hf =>
        simp only [PaperOrderBook.pendingEvents, PaperOrderBook.acceptAndFill, PaperOrderBook.record,
          hdr.drop_append] at h
        cases h
        exact .filled ⟨rfl, rfl, by simp only [config, hconn]⟩ hr hb ha href hi hf rfl rfl stamp.property

/-- The client order id of a call. -/
def callId (s : PaperTradingService) (a : SubmitArgs) : String := (s.resolveClientOrderId a.clientOrderId).2

/-- The request of a call. -/
def callRequest (s : PaperTradingService) (a : SubmitArgs) : BrokerOrderRequest := s.requestOf a (s.callId a)

/-- **The broker fills in this call**, at this price: the order passes the checks of the service and of the book, its
client order id is new, and the fill policy fills it at the reference price. -/
structure Fills (s : PaperTradingService) (a : SubmitArgs) (env : CallEnv) (price : ℚ) : Prop where
  active : s.account.status = .active
  quantity : 0 < a.quantity
  affordable : s.fundsCheck (s.callRequest a) = .ok true
  connected : s.broker.connected = true
  notBlank : blank (s.callId a) = false
  new : s.broker.book.recorded s.account.accountId (s.callId a) = none
  aware : env.brokerNow.aware = true
  decision : ∃ ref quantity hp hq, s.broker.referencePrices a.instrumentId = some ref ∧
    ref.instrumentId = a.instrumentId ∧ decideFill (s.callRequest a) ref = .ok (.fills price quantity hp hq)

/-- The answer of the book to the request of a call. -/
def bookAnswer (s : PaperTradingService) (a : SubmitArgs) (env : CallEnv) :
    Except PaperError (PaperOrderBook × BrokerOrderResponse) :=
  s.broker.book.submit (s.callRequest a) (s.broker.referencePrices a.instrumentId) env.brokerNow

/-- Why a call raises before the broker has answered. -/
def Raises (s : PaperTradingService) (a : SubmitArgs) (env : CallEnv) : Prop :=
  s.account.status ≠ .active ∨ (0 < a.quantity ∧ ((∃ err, s.fundsCheck (s.callRequest a) = .error err) ∨
    (s.fundsCheck (s.callRequest a) = .ok true ∧
      (s.broker.connected = false ∨ ∃ err, s.bookAnswer a env = .error err))))

/-- **Everything a call does**, from a book without pending events. -/
inductive Called (s : PaperTradingService) (a : SubmitArgs) (env : CallEnv) :
    PaperTradingService → Except PaperError PaperFillOutcome → Prop
  | raised {s' : PaperTradingService} {err : PaperError} (why : Raises s a env) (hk : Kept s s')
      (hbook : s'.broker.book = s.broker.book) : Called s a env s' (.error err)
  | refused {s' : PaperTradingService} {res : Except PaperError PaperFillOutcome}
      (why : a.quantity ≤ 0 ∨ (0 < a.quantity ∧ s.fundsCheck (s.callRequest a) = .ok false)) (h : Refuses s s' res env.now) :
      Called s a env s' res
  | replayed {s' : PaperTradingService} {res : Except PaperError PaperFillOutcome} {r : SubmissionRecord}
      (hq : 0 < a.quantity) (hc : s.fundsCheck (s.callRequest a) = .ok true) (hconn : s.broker.connected = true)
      (hr : s.broker.book.recorded s.account.accountId (s.callId a) = some r)
      (hd : PaperOrderBook.firstDifference r.request (s.callRequest a) = none) (h : Refuses s s' res env.now) :
      Called s a env s' res
  | rejected {s' : PaperTradingService} {o : PaperFillOutcome} {orderId : UUID} {stamp : Stamp} {reason : Reason}
      (hq : 0 < a.quantity) (hc : s.fundsCheck (s.callRequest a) = .ok true)
      (hr : s.broker.book.recorded s.account.accountId (s.callId a) = none) (hb : blank (s.callId a) = false)
      (hs : s.bookAnswer a env = .ok (s.broker.book.reject (s.callRequest a) orderId stamp reason)) (hfunds : s'.funds = s.funds) (hcfg : s'.config = s.config)
      (hout : s'.outcomes = s.outcomes ++ [o]) (ho : Refusal o)
      (hbook : s'.broker.book = (s.broker.book.reject (s.callRequest a) orderId stamp reason).1.drain) :
      Called s a env s' (.ok o)
  | filled {s' : PaperTradingService} {stamp : Stamp} {price : ℚ} {occurredAt : DateTime} {hp : 0 < price}
      {hq : 0 < (s.callRequest a).quantity} (hf : Fills s a env price) (hk : Kept s s')
      (hbook : s'.broker.book = (s.broker.book.acceptAndFill (s.callRequest a)
        (paperOrderId s.account.accountId (s.callId a)) stamp price hp hq).1.drain)
      (ht : occurredAt.aware = true) :
      Called s a env (s'.settle a (s.callId a) price occurredAt env).1
        (s'.settle a (s.callId a) price occurredAt env).2

theorem submit_cases {s : PaperTradingService} (hdr : s.broker.book.Drained) (a : SubmitArgs) (env : CallEnv) :
    Called s a env (s.submit a env).1 (s.submit a env).2 := by
  unfold submit
  split_ifs with hst hq
  · exact .raised (Or.inl hst) ⟨rfl, rfl, rfl⟩ rfl
  · exact .refused (Or.inl hq) (refuses_rejectWithoutFill s a _ _ _)
  · obtain ⟨n, hn⟩ := s.resolveClientOrderId_eq a.clientOrderId
    have hid := s.resolveClientOrderId_ne a.clientOrderId
    have hcall : s.callId a = (s.resolveClientOrderId a.clientOrderId).2 := rfl
    generalize s.resolveClientOrderId a.clientOrderId = x at hn hid hcall
    obtain ⟨s₁, id⟩ := x
    simp only at hn hid hcall
    subst hn
    -- the counter is the only field that differs
    simp only [submitChecked]
    have hreq : requestOf { s with sequence := n } a id = s.callRequest a := by rw [callRequest, hcall]; rfl
    have hfund : fundsCheck { s with sequence := n } (s.callRequest a) = s.fundsCheck (s.callRequest a) := rfl
    rw [hreq, hfund]
    cases hc : s.fundsCheck (s.callRequest a) with
    | error err => exact .raised (Or.inr ⟨not_le.mp hq, Or.inl ⟨err, hc⟩⟩) ⟨rfl, rfl, rfl⟩ rfl
    | ok b =>
      cases b with
      | false =>
        have h := refuses_rejectWithoutFill { s with sequence := n } a (some id) "insufficient available funds" env.now
        exact .refused (Or.inr ⟨not_le.mp hq, hc⟩) ⟨h.funds, h.config, h.book, h.reported⟩
      | true =>
        simp only
        cases hs : submitAndCollect { s with sequence := n } (s.callRequest a) env with
        | error err =>
          have herr := submitAndCollect_error (s := { s with sequence := n }) hs
          exact .raised (Or.inr ⟨not_le.mp hq, Or.inr ⟨hc, herr⟩⟩) ⟨rfl, rfl, rfl⟩ rfl
        | ok y =>
          obtain ⟨s', c⟩ := y
          obtain ⟨hconn, hans⟩ := submitAndCollect_cases (s := { s with sequence := n }) hdr hs
          simp only [conclude]
          cases hans with
          | replayed hk hr hd hbook hcf ht =>
            rw [hcf]
            have h := refuses_report s'
              (o := { clientOrderId := id, orderId := paperOrderId s'.account.accountId id, side := a.side
                      instrumentId := a.instrumentId, quantity := a.quantity
                      reason := orElse c.reason (some "order rejected by paper broker"), occurredAt := c.occurredAt })
              ⟨rfl, rfl, rfl, rfl, rfl, hid⟩
            exact .replayed (not_le.mp hq) hc hconn hr hd (ht ▸ h.of_kept ⟨hk.funds, hk.outcomes, hk.config⟩ hbook)
          | rejected hk hr hb hans hbook hcf ht =>
            rw [hcf]
            simp only
            rw [report_refusal _ rfl, if_pos ht]
            refine .rejected (not_le.mp hq) hc hr hb hans hk.funds hk.config ?_ ⟨rfl, rfl, rfl, rfl, rfl, hid⟩ hbook
            simp only [hk.outcomes]
          | filled hk hr hb ha href hi hf hbook hcf ht =>
            rw [hcf]
            rw [← hcall]
            exact .filled ⟨not_not.mp hst, not_le.mp hq, hc, hconn, hb, hr, ha, _, _, _, _, href, hi, hf⟩
              ⟨hk.funds, hk.outcomes, hk.config⟩ hbook ht

/-- The price of a fill is determined. -/
theorem Fills.price_eq {s : PaperTradingService} {a : SubmitArgs} {env : CallEnv} {p q : ℚ} (hp : Fills s a env p)
    (hq : Fills s a env q) : p = q := by
  obtain ⟨ref, _, _, _, hr, -, hd⟩ := hp.decision
  obtain ⟨ref', _, _, _, hr', -, hd'⟩ := hq.decision
  obtain rfl := Option.some.inj (hr.symm.trans hr')
  rw [hd] at hd'
  cases hd'
  rfl

/-- **A call in which the broker fills**: the fill is in the book, and the settlement decides what is returned. -/
theorem submit_of_fills {s : PaperTradingService} (hdr : s.broker.book.Drained) {a : SubmitArgs} {env : CallEnv}
    {price : ℚ} (hf : Fills s a env price) :
    ∃ s' t f, Kept s s' ∧ s'.broker.book.fills = s.broker.book.fills ++ [f] ∧
      f.brokerAccountId = s.account.accountId ∧ t.aware = true ∧
      s.submit a env = s'.settle a (s.callId a) price t env := by
  obtain ⟨ref, quantity, hp, hd, href, hi, hdec⟩ := hf.decision
  have hans : s.bookAnswer a env = .ok (s.broker.book.acceptAndFill (s.callRequest a)
      (paperOrderId s.account.accountId (s.callId a)) ⟨env.brokerNow, hf.aware⟩ price hp hf.quantity) := by
    unfold bookAnswer
    rw [href]
    exact PaperOrderBook.submit_fill rfl hf.notBlank hf.quantity rfl hf.new hf.aware hi hdec
  have hstep := submit_cases hdr a env
  generalize h1 : (s.submit a env).1 = s₁ at hstep
  generalize h2 : (s.submit a env).2 = res at hstep
  cases hstep with
  | raised why _ _ =>
    rcases why with h | ⟨-, ⟨err, h⟩ | ⟨-, h | ⟨err, h⟩⟩⟩
    · exact absurd hf.active h
    · rw [hf.affordable] at h; cases h
    · rw [hf.connected] at h; cases h
    · rw [hans] at h; cases h
  | refused why _ =>
    rcases why with h | ⟨-, h⟩
    · exact absurd hf.quantity (not_lt.mpr h)
    · rw [hf.affordable] at h; cases h
  | replayed _ _ _ hr _ _ => rw [hf.new] at hr; cases hr
  | rejected _ _ _ _ hs _ _ _ _ _ =>
    rw [hans] at hs
    have := congrArg (fun x => x.2.status) (Except.ok.inj hs)
    cases this
  | @filled s' stamp price' t hp' hq hf' hk hbook ht =>
    obtain rfl := hf.price_eq hf'
    exact ⟨s', t, _, hk, by rw [hbook]; rfl, rfl, ht, Prod.ext h1 h2⟩

end PaperTradingService

end AlphaAlgo.Paper
