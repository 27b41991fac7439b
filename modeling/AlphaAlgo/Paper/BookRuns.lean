import AlphaAlgo.Lib.Runs
import AlphaAlgo.Paper.Book

/-!
# BookRuns — sequences of calls on the order book of the paper broker

`BookM` has the state and the exceptions of the source: what was written before a raise stays written.
`BookM.submit` makes its checks and its writes one by one, in the order of `PaperOrderBook.submit`; the submission of
`Paper.Book`, which has no book when it raises, is what it does (`run_submit`).

* `bookLaw`: event log, fills, replays, resubmissions and drains after every sequence of calls.
-/

namespace AlphaAlgo.Paper

open Runs

/-! ### Events, responses and fills of a request -/

namespace BrokerOrderRequest

variable (request : BrokerOrderRequest) (now : Stamp)

/-- The key of a submission. -/
def key : UUID × String := (request.brokerAccountId, request.clientOrderId)

def orderId : UUID := paperOrderId request.brokerAccountId request.clientOrderId

def brokerOrderId : String := "paper-" ++ String.ofList request.orderId.hex

def rejectedEvent (reason : Reason) : PaperEvent where
  orderId := request.orderId
  eventType := .rejected
  occurredAt := now
  reason := reason
  brokerOrderId := none
  clientOrderId := request.clientOrderId

def rejectedResponse (reason : Reason) : BrokerOrderResponse where
  status := .rejected
  clientOrderId := request.clientOrderId
  brokerOrderId := none
  acceptedAt := now
  reason := some reason

def ackEvent : PaperEvent where
  orderId := request.orderId
  eventType := .brokerAcknowledged
  occurredAt := now
  reason := ackReason
  brokerOrderId := some request.brokerOrderId
  clientOrderId := request.clientOrderId

def fillEvent (fillPrice : ℚ) : PaperEvent where
  orderId := request.orderId
  eventType := .fill
  occurredAt := now
  reason := fillReason
  brokerOrderId := some request.brokerOrderId
  fillQuantity := request.quantity
  clientOrderId := request.clientOrderId
  paperFillPrice := some fillPrice

def acceptedResponse : BrokerOrderResponse where
  status := .accepted
  clientOrderId := request.clientOrderId
  brokerOrderId := some request.brokerOrderId
  acceptedAt := now

def fillRecord (sequence : ℕ) (fillPrice : ℚ) (hq : 0 < request.quantity) (hp : 0 < fillPrice) : PaperFillRecord where
  sequence := sequence
  clientOrderId := request.clientOrderId
  brokerOrderId := request.brokerOrderId
  orderId := request.orderId
  side := request.side
  instrumentId := request.instrumentId
  brokerAccountId := request.brokerAccountId
  fillQuantity := request.quantity
  fillPrice := fillPrice
  occurredAt := now
  quantity_pos := hq
  price_pos := hp

end BrokerOrderRequest

/-! ### Calls that write step by step -/

/-- Code of the book: what it has written before it raises stays. -/
abbrev BookM := ExceptT PaperError (StateM PaperOrderBook)

namespace BookM

variable (request : BrokerOrderRequest)

def record (response : BrokerOrderResponse) (events : List PaperEvent) : BookM Unit := do
  modify fun book => { book with submissions := (request.key, ⟨request, response, events⟩) :: book.submissions }
  modify fun book => { book with events := book.events ++ events }

def reject (now : Stamp) (reason : Reason) : BookM BrokerOrderResponse := do
  record request (request.rejectedResponse now reason) [request.rejectedEvent now reason]
  return request.rejectedResponse now reason

/-- `_accept_and_fill`; the conditions are the checks of the event and of the fill record. -/
def acceptAndFill (now : Stamp) (fillPrice : ℚ) : BookM BrokerOrderResponse :=
  if hq : 0 < request.quantity then
    if hp : 0 < fillPrice then do
      let fillRecord := request.fillRecord now (← get).sequence fillPrice hq hp
      modify fun book => { book with sequence := book.sequence + 1 }
      modify fun book => { book with fills := book.fills ++ [fillRecord] }
      record request (request.acceptedResponse now) [request.ackEvent now, request.fillEvent now fillPrice]
      return request.acceptedResponse now
    else throw (.valueError "fill_price must be positive")
  else throw (.valueError "fill events require positive fill_quantity")

def nowFrom (now : DateTime) : BookM Stamp :=
  if ha : now.aware = true then return ⟨now, ha⟩ else throw (.adapter "clock output must be timezone-aware")

def submitNew (reference : Option PaperReferencePrice) (now : Stamp) : BookM BrokerOrderResponse :=
  match reference with
  | none => reject request now noReferenceReason
  | some reference =>
    if reference.instrumentId ≠ request.instrumentId then
      throw (.adapter "injected reference price does not match request instrument")
    else match decideFill request reference with
      | .error (.unsupportedOrderType text) => reject request now text
      | .error err => throw err
      | .ok (.rejects reason) => reject request now reason
      | .ok (.fills price _ _ _) => acceptAndFill request now price

/-- A submission whose order id is checked: answered from the record, or new. -/
def submitResolved (recorded : Option SubmissionRecord) (reference : Option PaperReferencePrice) (now : DateTime) :
    BookM BrokerOrderResponse :=
  match recorded with
  | some recorded =>
    match PaperOrderBook.firstDifference recorded.request request with
    | some field => throw (.clientOrderIdConflict request.clientOrderId field)
    | none => return recorded.response
  | none => do submitNew request reference (← nowFrom now)

def submit (reference : Option PaperReferencePrice) (now : DateTime) : BookM BrokerOrderResponse :=
  if request.tradingMode ≠ .paper then throw (.modeViolation
    ("paper book accepts only TradingMode.PAPER orders, got " ++ request.tradingMode.value))
  else if blank request.clientOrderId then throw (.adapter "client_order_id is required")
  else if request.quantity ≤ 0 then throw (.adapter "quantity must be positive")
  else do
    -- the id that is resolved is the one of the request
    let _ ← (PaperOrderBook.resolveOrderId request : Except PaperError UUID)
    submitResolved request ((← get).recorded request.brokerAccountId request.clientOrderId) reference now

def pendingEvents : BookM (List PaperEvent) := do
  let unconsumed := (← get).events.drop (← get).pendingIndex
  modify fun book => { book with pendingIndex := book.events.length }
  return unconsumed

section Run

variable {book : PaperOrderBook} {request : BrokerOrderRequest} {now : Stamp}

/-- The end of a submission: with a response, or with an exception and the book as it was. -/
def settle (book : PaperOrderBook) :
    Except PaperError (PaperOrderBook × BrokerOrderResponse) → Except PaperError BrokerOrderResponse × PaperOrderBook
  | .ok (book', response) => (.ok response, book')
  | .error e => (.error e, book)

theorem run_acceptAndFill {price : ℚ} (hp : 0 < price) (hq : 0 < request.quantity) :
    (acceptAndFill request now price).run.run book =
      settle book (.ok (book.acceptAndFill request request.orderId now price hp hq)) := by
  rw [acceptAndFill, dif_pos hq, dif_pos hp]
  rfl

theorem run_submitNew (reference : Option PaperReferencePrice) (hq : 0 < request.quantity) :
    (submitNew request reference now).run.run book =
      settle book (book.submitNew request request.orderId reference now hq) := by
  unfold submitNew PaperOrderBook.submitNew
  cases reference with
  | none => rfl
  | some reference =>
    dsimp only
    by_cases hi : reference.instrumentId ≠ request.instrumentId
    · rw [if_pos hi, if_pos hi]
      rfl
    · rw [if_neg hi, if_neg hi]
      cases decideFill request reference with
      | error err => cases err <;> rfl
      | ok d =>
        cases d with
        | rejects reason => rfl
        | fills price _ hp _ => exact run_acceptAndFill hp hq

theorem run_submitResolved (reference : Option PaperReferencePrice) (now : DateTime) (hq : 0 < request.quantity) :
    (submitResolved request (book.recorded request.brokerAccountId request.clientOrderId) reference now).run.run book =
      settle book (book.submitResolved request request.orderId reference now hq) := by
  unfold submitResolved PaperOrderBook.submitResolved
  cases book.recorded request.brokerAccountId request.clientOrderId with
  | some r =>
    dsimp only
    cases PaperOrderBook.firstDifference r.request request <;> rfl
  | none =>
    dsimp only [nowFrom]
    by_cases ha : now.aware = true
    · rw [dif_pos ha, dif_pos ha]
      exact run_submitNew reference hq
    · rw [dif_neg ha, dif_neg ha]
      rfl

/-- **The submission is what the step by step writes do**, and one that raises has written nothing. -/
theorem run_submit (request : BrokerOrderRequest) (reference : Option PaperReferencePrice) (now : DateTime)
    (book : PaperOrderBook) :
    (submit request reference now).run.run book = settle book (book.submit request reference now) := by
  unfold submit PaperOrderBook.submit
  by_cases hmode : request.tradingMode ≠ .paper
  · rw [if_pos hmode, if_pos hmode]
    rfl
  rw [if_neg hmode, if_neg hmode]
  by_cases hblank : blank request.clientOrderId = true
  · rw [if_pos hblank, if_pos hblank]
    rfl
  rw [if_neg hblank, if_neg hblank]
  by_cases hquantity : request.quantity ≤ 0
  · rw [if_pos hquantity, dif_pos hquantity]
    rfl
  rw [if_neg hquantity, dif_neg hquantity]
  cases hid : PaperOrderBook.resolveOrderId request with
  | error err => rfl
  | ok orderId =>
    obtain rfl := PaperOrderBook.resolveOrderId_ok hid
    exact run_submitResolved reference now (not_le.mp hquantity)

end Run

end BookM

/-! ### Calls and their answers -/

/-- A call on the book; `now` is the reading of the clock, if the call reads it. -/
inductive BookCall where
  | submit (request : BrokerOrderRequest) (reference : Option PaperReferencePrice) (now : DateTime)
  | pendingEvents
  | events
  | eventsFor (brokerAccountId : UUID) (clientOrderId : String)
  | fillRecords
  | positions (brokerAccountId : UUID) (now : DateTime)

inductive BookAnswer where
  | response (r : BrokerOrderResponse)
  | events (l : List PaperEvent)
  | fills (l : List PaperFillRecord)
  | positions (l : List PaperPosition)

def PaperOrderBook.eventsFor (book : PaperOrderBook) (brokerAccountId : UUID) (clientOrderId : String) :
    List PaperEvent :=
  ((book.recorded brokerAccountId clientOrderId).map SubmissionRecord.events).getD []

/-- A call that only reads the book. -/
def BookM.query {α : Type} (f : PaperOrderBook → Except PaperError α) : BookM α :=
  ExceptT.mk fun book => (f book, book)

def BookCall.perform : BookCall → BookM BookAnswer
  | submit request reference now => .response <$> BookM.submit request reference now
  | pendingEvents => .events <$> BookM.pendingEvents
  | events => BookM.query fun book => .ok (.events book.events)
  | eventsFor brokerAccountId clientOrderId =>
    BookM.query fun book => .ok (.events (book.eventsFor brokerAccountId clientOrderId))
  | fillRecords => BookM.query fun book => .ok (.fills book.fills)
  | positions brokerAccountId now => BookM.query fun book => (book.positions brokerAccountId now).map .positions

theorem BookM.run_map {α β : Type} (f : α → β) (x : BookM α) (book : PaperOrderBook) :
    (f <$> x).run.run book = ((x.run.run book).1.map f, (x.run.run book).2) := by
  rw [ExceptT.run_map, StateT.run_map]
  rfl

namespace PaperOrderBook

/-- What a call answers. -/
def answer (book : PaperOrderBook) (c : BookCall) : Except PaperError BookAnswer := (c.perform.run.run book).1

/-- The book after a call. -/
def step (book : PaperOrderBook) (c : BookCall) : PaperOrderBook := (c.perform.run.run book).2

theorem perform_submit (book : PaperOrderBook) (request : BrokerOrderRequest)
    (reference : Option PaperReferencePrice) (now : DateTime) :
    book.answer (.submit request reference now) =
        (book.submit request reference now).map (fun x => .response x.2) ∧
      book.step (.submit request reference now) = (BookM.settle book (book.submit request reference now)).2 := by
  have hrun := BookM.run_map BookAnswer.response (BookM.submit request reference now) book
  rw [BookM.run_submit] at hrun
  refine ⟨(congrArg Prod.fst hrun).trans ?_, congrArg Prod.snd hrun⟩
  cases book.submit request reference now <;> rfl

/-- The checks that a submission passes before it is looked up. -/
structure Checked (request : BrokerOrderRequest) : Prop where
  mode : request.tradingMode = .paper
  notBlank : blank request.clientOrderId = false
  quantity : 0 < request.quantity
  entry : request.orderIdEntry = .id request.orderId

theorem checked_of_submit {book : PaperOrderBook} {request : BrokerOrderRequest}
    {reference : Option PaperReferencePrice} {now : DateTime} {x : PaperOrderBook × BrokerOrderResponse}
    (h : book.submit request reference now = .ok x) : Checked request := by
  unfold submit at h
  split_ifs at h with hm hb hq
  refine ⟨not_not.mp hm, Bool.eq_false_of_not_eq_true hb, not_le.mp hq, ?_⟩
  unfold resolveOrderId at h
  cases he : request.orderIdEntry with
  | missing | malformed => rw [he] at h; cases h
  | id provided =>
    rw [he] at h
    dsimp only at h
    split_ifs at h with hne
    rw [not_not.mp hne]
    rfl

/-- What a new submission adds to the book: its record, and a fill if it is accepted. -/
inductive Outcome (request : BrokerOrderRequest) (sequence : ℕ) : SubmissionRecord → List PaperFillRecord → Prop
  | rejected (now : Stamp) (reason : Reason) : Outcome request sequence
      ⟨request, request.rejectedResponse now reason, [request.rejectedEvent now reason]⟩ []
  | filled (now : Stamp) (price : ℚ) (hq : 0 < request.quantity) (hp : 0 < price) : Outcome request sequence
      ⟨request, request.acceptedResponse now, [request.ackEvent now, request.fillEvent now price]⟩
      [request.fillRecord now sequence price hq hp]

/-- The book with the outcome of a new submission. -/
def add (book : PaperOrderBook) (r : SubmissionRecord) (fills : List PaperFillRecord) : PaperOrderBook :=
  { book with
    submissions := (r.request.key, r) :: book.submissions
    events := book.events ++ r.events
    fills := book.fills ++ fills
    sequence := book.sequence + fills.length }

/-- **Everything a call does**: it raises, reads, drains, repeats an answer, or adds a new submission. -/
inductive Stepped (book : PaperOrderBook) : BookCall → Except PaperError BookAnswer → PaperOrderBook → Prop
  | raised {c : BookCall} (e : PaperError) : Stepped book c (.error e) book
  | read {c : BookCall} (a : BookAnswer) (hsubmit : ∀ request reference now, c ≠ .submit request reference now)
      (hdrain : c ≠ .pendingEvents) : Stepped book c (.ok a) book
  | drained : Stepped book .pendingEvents (.ok (.events (book.events.drop book.pendingIndex))) book.drain
  | replayed {request : BrokerOrderRequest} {reference : Option PaperReferencePrice} {now : DateTime}
      {r : SubmissionRecord} (hchecked : Checked request)
      (hr : book.recorded request.brokerAccountId request.clientOrderId = some r)
      (hd : firstDifference r.request request = none) :
      Stepped book (.submit request reference now) (.ok (.response r.response)) book
  | added {request : BrokerOrderRequest} {reference : Option PaperReferencePrice} {now : DateTime}
      {r : SubmissionRecord} {fills : List PaperFillRecord} (hchecked : Checked request)
      (hr : book.recorded request.brokerAccountId request.clientOrderId = none)
      (houtcome : Outcome request book.sequence r fills) :
      Stepped book (.submit request reference now) (.ok (.response r.response)) (book.add r fills)

theorem stepped_submit (book : PaperOrderBook) (request : BrokerOrderRequest)
    (reference : Option PaperReferencePrice) (now : DateTime) :
    Stepped book (.submit request reference now) (book.answer (.submit request reference now))
      (book.step (.submit request reference now)) := by
  obtain ⟨hanswer, hstep⟩ := perform_submit book request reference now
  rw [hanswer, hstep]
  cases hs : book.submit request reference now with
  | error e => exact .raised e
  | ok x =>
    have hchecked := checked_of_submit hs
    cases submit_cases hs with
    | replayed hr hd => exact .replayed hchecked hr hd
    | @rejected stamp reason hr _ =>
      have hadd : (book.reject request request.orderId stamp reason).1 =
          book.add ⟨request, request.rejectedResponse stamp reason, [request.rejectedEvent stamp reason]⟩ [] := by
        rw [add, List.append_nil]
        rfl
      have hadded : Stepped book (.submit request reference now) _ _ :=
        .added hchecked hr (.rejected stamp reason)
      rw [← hadd] at hadded
      exact hadded
    | @filled stamp _ price _ hp _ hq hr _ _ _ _ _ => exact .added hchecked hr (.filled stamp price hq hp)

/-- **Every call is one of these.** -/
theorem stepped (book : PaperOrderBook) (c : BookCall) : Stepped book c (book.answer c) (book.step c) := by
  cases c with
  | submit request reference now => exact stepped_submit book request reference now
  | pendingEvents => exact .drained
  | events | eventsFor _ _ | fillRecords => exact .read _ (fun _ _ _ h => by cases h) (fun h => by cases h)
  | positions brokerAccountId now =>
    show Stepped book _ ((book.positions brokerAccountId now).map .positions) book
    cases book.positions brokerAccountId now with
    | error e => exact .raised e
    | ok l => exact .read _ (fun _ _ _ h => by cases h) (fun h => by cases h)

end PaperOrderBook

/-! ### Replays -/

/-- The fields of the event for the execution engine; the fill price of the metadata is left out. -/
def PaperEvent.fields (e : PaperEvent) : Execution.EventFields where
  orderId := e.orderId
  eventType := e.eventType
  occurredAt := e.occurredAt
  reason := e.reason
  brokerOrderId := e.brokerOrderId
  fillQuantity := .ofInt e.fillQuantity
  metadata := [("trading_mode", .str "PAPER"), ("client_order_id", .str e.clientOrderId),
    ("fill_source", .str "paper_simulator")]

/-- The constructor of the event. -/
def PaperEvent.broker (e : PaperEvent) : Except Execution.OrderError Execution.BrokerOrderEvent :=
  match h : e.fields.postInit with
  | .error err => .error err
  | .ok () => .ok ⟨e.fields, (Execution.EventFields.postInit_ok_iff _).mp h⟩

/-- The events of an order, applied one after the other. -/
def replay (s : Execution.OrderExecutionState) (events : List PaperEvent) :
    Except Execution.OrderError Execution.OrderExecutionState :=
  events.foldlM (fun s e => e.broker >>= s.applyEvent) s

theorem ok_bind {ε α β : Type} (a : α) (f : α → Except ε β) : (Except.ok a >>= f) = f a := rfl

theorem replay_cons (s : Execution.OrderExecutionState) (e : PaperEvent) (l : List PaperEvent) :
    replay s (e :: l) = (e.broker >>= s.applyEvent) >>= fun s' => replay s' l := List.foldlM_cons

/-- The order of a request when its submission is requested. -/
structure Requested (s : Execution.OrderExecutionState) (request : BrokerOrderRequest) : Prop where
  status : s.status = .submissionRequested
  orderId : s.lifecycle.orderId = request.orderId
  quantity : s.orderQuantity = request.quantity
  unfilled : s.filledQuantity = 0

/-- The events of a submission lead its order to `FILLED` with the full quantity if it was accepted, and to `REJECTED`
with nothing filled if it was rejected. -/
def SubmissionRecord.Ends (r : SubmissionRecord) : Prop :=
  ∀ s, Requested s r.request → ∃ s', replay s r.events = .ok s' ∧
    (r.response.status = .accepted ∧ s'.status = .filled ∧ s'.filledQuantity = r.request.quantity ∨
      r.response.status = .rejected ∧ s'.status = .rejected ∧ s'.filledQuantity = 0)

/-- The same for an accepted quantity of at most 28 digits; the sum of the fills is rounded to them. -/
def SubmissionRecord.EndsExact (r : SubmissionRecord) : Prop :=
  (r.response.status = .accepted → Digits 28 (r.request.quantity : ℚ)) → r.Ends

theorem PaperEvent.broker_of_valid {e : PaperEvent} (h : e.fields.Valid) : e.broker = .ok ⟨e.fields, h⟩ := by
  unfold PaperEvent.broker
  split
  · rename_i err herr
    rw [(Execution.EventFields.postInit_ok_iff _).mpr h] at herr
    cases herr
  · rfl

section Replay

open Execution OrderExecutionState

variable {s : OrderExecutionState} {request : BrokerOrderRequest} {now : Stamp}

theorem requireStamp_fields (e : PaperEvent) : requireStamp e.fields.occurredAt e.fields.reason = .ok () := by
  have haware : e.fields.occurredAt.aware = true := e.occurredAt.2
  have hreason : blank e.fields.reason = false := e.reason.2
  simp [requireStamp, haware, hreason]

/-- An event without a quantity is accepted along an edge of the table. -/
theorem apply_of_edge {e : PaperEvent} (hfill : e.eventType.isFill = false) (hzero : e.fillQuantity = 0)
    (hid : e.orderId = s.lifecycle.orderId) (hedge : e.eventType.target ∈ allowedTransitions s.status) :
    ∃ s', (e.broker >>= s.applyEvent) = .ok s' ∧ s'.status = e.eventType.target ∧
      s'.lifecycle.orderId = s.lifecycle.orderId ∧ s'.orderQuantity = s.orderQuantity ∧
      s'.filledQuantity = s.filledQuantity := by
  have hvalid : e.fields.Valid := by
    refine ⟨requireStamp_fields e, fun h => ?_, fun _ => ?_⟩
    · have h' : e.eventType.isFill = true := h
      rw [hfill] at h'
      cases h'
    · simp [PaperEvent.fields, hzero]
  rw [PaperEvent.broker_of_valid hvalid]
  have haccepts : ∃ s', s.applyEvent ⟨e.fields, hvalid⟩ = .ok s' := by
    refine applyEvent_accepts_iff.mpr ⟨hid, hedge, fun h => ?_, fun h => ?_⟩
    · have h' : e.eventType = .partialFill := h
      rw [h'] at hfill
      cases hfill
    · have h' : e.eventType = .fill := h
      rw [h'] at hfill
      cases hfill
  obtain ⟨s', hs'⟩ := haccepts
  obtain ⟨-, -, hstatus, horder, hquantity, hfilled, -⟩ := applyEvent_ok hs'
  refine ⟨s', hs', hstatus, horder, hquantity, ?_⟩
  have hno : ¬e.eventType.isFill = true := by simp [hfill]
  rw [hfilled, filledAfter]
  exact if_neg hno

/-- **A rejected submission ends in `REJECTED`.** -/
theorem replay_rejected (h : Requested s request) (reason : Reason) :
    ∃ s', replay s [request.rejectedEvent now reason] = .ok s' ∧ s'.status = .rejected ∧ s'.filledQuantity = 0 := by
  have hedge : OrderEventType.target .rejected ∈ allowedTransitions s.status := by
    rw [h.status]
    decide
  obtain ⟨s', happly, hstatus, -, -, hfilled⟩ :=
    apply_of_edge (e := request.rejectedEvent now reason) rfl rfl h.orderId.symm hedge
  refine ⟨s', ?_, hstatus, hfilled.trans h.unfilled⟩
  rw [replay_cons, happly, ok_bind]
  rfl

theorem valid_fillEvent (hq : 0 < request.quantity) (now : Stamp) (price : ℚ) : (request.fillEvent now price).fields.Valid := by
  refine ⟨requireStamp_fields _, fun _ => ?_, fun h => by cases h⟩
  have hval : (request.fillEvent now price).fields.fillQuantity.val = request.quantity := Dec.val_ofInt _
  rw [hval]
  exact_mod_cast hq

/-- The fill of an acknowledged order is accepted exactly if the quantity has at most 28 digits. -/
theorem apply_fill_iff (now : Stamp) (price : ℚ) (hq : 0 < request.quantity) (hstatus : s.status = .brokerAcknowledged)
    (hid : s.lifecycle.orderId = request.orderId) (hquantity : s.orderQuantity = request.quantity)
    (hzero : s.filledQuantity = 0) :
    (∃ s', s.applyEvent ⟨(request.fillEvent now price).fields, valid_fillEvent hq now price⟩ = .ok s') ↔
      Digits 28 (request.quantity : ℚ) := by
  have hedge : OrderEventType.target .fill ∈ allowedTransitions s.status := by
    rw [hstatus]
    decide
  have hnext : s.nextFilled ⟨(request.fillEvent now price).fields, valid_fillEvent hq now price⟩ =
      Ctx.default.fix request.quantity := by
    have hval : (request.fillEvent now price).fields.fillQuantity.val = request.quantity := Dec.val_ofInt _
    show Ctx.default.fix (s.filledQuantity + (request.fillEvent now price).fields.fillQuantity.val) = _
    rw [hval, hzero, zero_add]
  rw [applyEvent_accepts_iff, hnext, hquantity]
  constructor
  · intro h
    rw [← h.2.2.2 rfl]
    exact Ctx.digits_fix (by decide) _
  · intro h
    exact ⟨hid.symm, hedge, (fun hpartial => by cases hpartial), fun _ => Ctx.fix_of_digits h⟩

/-- The acknowledgement is accepted. -/
theorem apply_ack (now : Stamp) (h : Requested s request) : ∃ s', ((request.ackEvent now).broker >>= s.applyEvent) = .ok s' ∧
    s'.status = .brokerAcknowledged ∧ s'.lifecycle.orderId = request.orderId ∧ s'.orderQuantity = request.quantity ∧
      s'.filledQuantity = 0 := by
  have hedge : OrderEventType.target .brokerAcknowledged ∈ allowedTransitions s.status := by
    rw [h.status]
    decide
  obtain ⟨s', happly, hstatus, hid, hquantity, hfilled⟩ :=
    apply_of_edge (e := request.ackEvent now) rfl rfl h.orderId.symm hedge
  exact ⟨s', happly, hstatus, hid.trans h.orderId, hquantity.trans h.quantity, hfilled.trans h.unfilled⟩

/-- **An accepted submission ends in `FILLED` with the full quantity, exactly if that has at most 28 digits.** -/
theorem replay_accepted_iff (h : Requested s request) (hq : 0 < request.quantity) (price : ℚ) :
    (∃ s', replay s [request.ackEvent now, request.fillEvent now price] = .ok s' ∧ s'.status = .filled ∧
      s'.filledQuantity = request.quantity) ↔ Digits 28 (request.quantity : ℚ) := by
  obtain ⟨t, hack, hstatus, hid, hquantity, hzero⟩ := apply_ack now h
  have hreplay : replay s [request.ackEvent now, request.fillEvent now price] =
      t.applyEvent ⟨(request.fillEvent now price).fields, valid_fillEvent hq now price⟩ := by
    have hbroker := PaperEvent.broker_of_valid (valid_fillEvent hq now price)
    rw [replay_cons, hack, ok_bind, replay_cons, hbroker, ok_bind]
    exact bind_pure _
  rw [hreplay, ← apply_fill_iff now price hq hstatus hid hquantity hzero]
  constructor
  · rintro ⟨s', happly, -, -⟩
    exact ⟨s', happly⟩
  · rintro ⟨s', happly⟩
    obtain ⟨-, -, hfilled, -, hkept, -, -, -, hfull⟩ := applyEvent_ok happly
    exact ⟨s', happly, hfilled, (hfull rfl).trans (hkept.trans hquantity)⟩

end Replay

/-! ### Sequences of calls -/

namespace PaperOrderBook

/-- The book after the calls of `l`, from the empty one. -/
def after (l : List BookCall) : PaperOrderBook := run step {} l

/-- The calls of `l` with their answers. -/
def trace (l : List BookCall) : List (BookCall × Except PaperError BookAnswer) :=
  outputs step (fun book c => (c, book.answer c)) {} l

/-- The account and the client order id of a submission that is answered. -/
def answeredKey : BookCall × Except PaperError BookAnswer → Option (UUID × String)
  | (.submit request _ _, .ok _) => some request.key
  | _ => none

/-- The distinct keys of the submissions, in the order of their first answers. -/
def firstSubmissions (l : List BookCall) : List (UUID × String) := ((trace l).filterMap answeredKey).eraseDups

/-- The accepted submissions, in the same order. -/
def acceptedOrders (l : List BookCall) : List SubmissionRecord :=
  (firstSubmissions l).filterMap fun k =>
    ((after l).recorded k.1 k.2).filter fun r => r.response.status = .accepted

/-- The events that a drain hands out. -/
def handsOut : BookCall × Except PaperError BookAnswer → List PaperEvent
  | (.pendingEvents, .ok (.events events)) => events
  | _ => []

/-- A fill of an accepted submission. -/
structure FillOf (f : PaperFillRecord) (r : SubmissionRecord) : Prop where
  brokerAccountId : f.brokerAccountId = r.request.brokerAccountId
  clientOrderId : f.clientOrderId = r.request.clientOrderId
  orderId : f.orderId = r.request.orderId
  side : f.side = r.request.side
  instrumentId : f.instrumentId = r.request.instrumentId
  quantity : f.fillQuantity = r.request.quantity
  brokerOrderId : r.response.brokerOrderId = some f.brokerOrderId
  occurredAt : r.response.acceptedAt = f.occurredAt
  price : r.request.fillEvent f.occurredAt f.fillPrice ∈ r.events

/-- What holds after the calls of `l`.  `Ends` says where the events of a submission lead its order, `Repeatable` which
requests can be submitted again. -/
structure BookLaw (Ends : SubmissionRecord → Prop) (Repeatable : BrokerOrderRequest → Prop) (l : List BookCall) :
    Prop where
  log : (after l).events = (firstSubmissions l).flatMap fun k => (after l).eventsFor k.1 k.2
  fills : List.Forall₂ FillOf (after l).fills (acceptedOrders l)
  sequences : (after l).fills.map PaperFillRecord.sequence = List.range (after l).fills.length
  replays : ∀ k ∈ firstSubmissions l, ∃ r, (after l).recorded k.1 k.2 = some r ∧ Ends r
  repeats : ∀ request reference now response,
    (.submit request reference now, .ok (.response response)) ∈ trace l → Repeatable request →
      ∀ reference' now', (after l).answer (.submit request reference' now') = .ok (.response response) ∧
        (after l).step (.submit request reference' now') = after l
  raises : ∀ c e, (after l).answer c = .error e → (after l).step c = after l
  drains : (trace l).flatMap handsOut ++ (after l).events.drop (after l).pendingIndex = (after l).events

/-! ### The invariant of the book -/

/-- The submissions, the oldest first. -/
def history (book : PaperOrderBook) : List SubmissionRecord := (book.submissions.map Prod.snd).reverse

structure BookInv (book : PaperOrderBook) : Prop where
  keyed : ∀ e ∈ book.submissions, e.1 = e.2.request.key
  unique : (book.submissions.map Prod.fst).Nodup
  outcome : ∀ e ∈ book.submissions, Checked e.2.request ∧ ∃ sequence fills, Outcome e.2.request sequence e.2 fills
  log : book.events = book.history.flatMap SubmissionRecord.events
  fills : List.Forall₂ FillOf book.fills (book.history.filter fun r => r.response.status = .accepted)
  sequences : book.fills.map PaperFillRecord.sequence = List.range book.fills.length
  sequence : book.sequence = book.fills.length
  cursor : book.pendingIndex ≤ book.events.length

namespace Outcome

variable {request : BrokerOrderRequest} {sequence : ℕ} {r : SubmissionRecord} {fills : List PaperFillRecord}

theorem request_eq (h : Outcome request sequence r fills) : r.request = request := by
  cases h <;> rfl

theorem fillOf (h : Outcome request sequence r fills) :
    List.Forall₂ FillOf fills ([r].filter fun r => r.response.status = .accepted) := by
  cases h with
  | rejected now reason => exact .nil
  | filled now price hq hp =>
    exact .cons ⟨rfl, rfl, rfl, rfl, rfl, rfl, rfl, rfl, List.mem_cons_of_mem _ List.mem_cons_self⟩ .nil

theorem sequences (h : Outcome request sequence r fills) :
    fills.map PaperFillRecord.sequence = List.range' sequence fills.length := by
  cases h <;> rfl

end Outcome

theorem history_add (book : PaperOrderBook) (r : SubmissionRecord) (fills : List PaperFillRecord) :
    (book.add r fills).history = book.history ++ [r] := by
  simp [history, add]

theorem BookInv.stepped {book book' : PaperOrderBook} {c : BookCall} {a : Except PaperError BookAnswer}
    (h : BookInv book) (hstep : Stepped book c a book') : BookInv book' := by
  cases hstep with
  | raised _ | read _ _ _ | replayed _ _ _ => exact h
  | drained => exact ⟨h.keyed, h.unique, h.outcome, h.log, h.fills, h.sequences, h.sequence, le_rfl⟩
  | @added request _ _ r fills hchecked hr houtcome =>
    have hrequest := houtcome.request_eq
    refine ⟨?_, ?_, ?_, ?_, ?_, ?_, ?_, ?_⟩
    · intro e he
      rcases List.mem_cons.mp he with rfl | he
      · rfl
      · exact h.keyed e he
    · refine List.nodup_cons.mpr ⟨fun hmem => ?_, h.unique⟩
      rw [hrequest] at hmem
      obtain ⟨e, he, hkey⟩ := List.mem_map.mp hmem
      exact absurd hkey.symm (bne_iff_ne.mp (List.lookup_eq_none_iff.mp hr e he))
    · intro e he
      rcases List.mem_cons.mp he with rfl | he
      · rw [hrequest]
        exact ⟨hchecked, _, _, houtcome⟩
      · exact h.outcome e he
    · rw [history_add, List.flatMap_append, ← h.log, List.flatMap_singleton]
      rfl
    · rw [history_add, List.filter_append]
      exact List.rel_append h.fills houtcome.fillOf
    · show (book.fills ++ fills).map PaperFillRecord.sequence = List.range (book.fills ++ fills).length
      rw [List.map_append, h.sequences, houtcome.sequences, h.sequence, List.length_append, List.range_eq_range',
        List.range_eq_range', ← List.range'_append]
      simp
    · show book.sequence + fills.length = (book.fills ++ fills).length
      rw [h.sequence, List.length_append]
    · show book.pendingIndex ≤ (book.events ++ r.events).length
      exact h.cursor.trans (List.length_append ▸ Nat.le_add_right _ _)

theorem bookInv_empty : BookInv {} :=
  ⟨by simp, List.nodup_nil, by simp, rfl, .nil, rfl, rfl, le_rfl⟩

/-- **The invariant holds after every sequence of calls.** -/
theorem bookInv_after (l : List BookCall) : BookInv (after l) :=
  run_invariant _ BookInv (fun book c h => h.stepped (stepped book c)) bookInv_empty l

/-! ### What the calls report -/

theorem after_concat (l : List BookCall) (c : BookCall) : after (l ++ [c]) = (after l).step c := run_concat ..

theorem trace_concat (l : List BookCall) (c : BookCall) :
    trace (l ++ [c]) = trace l ++ [(c, (after l).answer c)] := outputs_concat ..

theorem BookInv.recorded_iff {book : PaperOrderBook} (h : BookInv book) {k : UUID × String} {r : SubmissionRecord} :
    book.recorded k.1 k.2 = some r ↔ r ∈ book.history ∧ r.request.key = k := by
  have hmem : r ∈ book.history ↔ ∃ e ∈ book.submissions, e.2 = r := by simp [history]
  rw [hmem]
  constructor
  · intro hr
    obtain ⟨l, l', hl, -⟩ := List.lookup_eq_some_iff.mp hr
    have he : (k, r) ∈ book.submissions := by
      rw [hl]
      simp
    exact ⟨⟨_, he, rfl⟩, (h.keyed _ he).symm⟩
  · rintro ⟨⟨e, he, rfl⟩, rfl⟩
    have hkey : e = (e.2.request.key, e.2) := Prod.ext (h.keyed e he) rfl
    obtain ⟨l, l', hl⟩ := List.append_of_mem he
    refine List.lookup_eq_some_iff.mpr ⟨l, l', by rw [hl]; rw [← hkey], fun p hp => ?_⟩
    -- an earlier entry has another key
    have hnodup := h.unique
    rw [hl, List.map_append, List.nodup_append] at hnodup
    have hne := hnodup.2.2 p.1 (List.mem_map_of_mem hp) e.1 (List.mem_map_of_mem List.mem_cons_self)
    rw [h.keyed e he] at hne
    exact bne_iff_ne.mpr hne.symm

/-- The keys of the submissions, the oldest first. -/
def keys (book : PaperOrderBook) : List (UUID × String) := book.history.map fun r => r.request.key

theorem BookInv.mem_keys {book : PaperOrderBook} (h : BookInv book) {k : UUID × String} :
    k ∈ book.keys ↔ (book.recorded k.1 k.2).isSome := by
  rw [Option.isSome_iff_exists]
  simp only [h.recorded_iff, keys, List.mem_map]

/-- A call whose submission is answered adds its key, unless it is there. -/
theorem keys_stepped {book book' : PaperOrderBook} {c : BookCall} {a : Except PaperError BookAnswer}
    (h : BookInv book) (hstep : Stepped book c a book') :
    book'.keys = book.keys ∧ (∀ k, answeredKey (c, a) = some k → k ∈ book.keys) ∨
      ∃ k, book'.keys = book.keys ++ [k] ∧ answeredKey (c, a) = some k ∧ k ∉ book.keys := by
  cases hstep with
  | raised e =>
    refine .inl ⟨rfl, fun k hk => ?_⟩
    cases c <;> cases hk
  | read a hsubmit _ =>
    refine .inl ⟨rfl, fun k hk => ?_⟩
    cases c with
    | submit request reference now => exact absurd rfl (hsubmit request reference now)
    | pendingEvents | events | eventsFor _ _ | fillRecords | positions _ _ => cases hk
  | drained => exact .inl ⟨rfl, fun k hk => by cases hk⟩
  | replayed _ hr _ =>
    refine .inl ⟨rfl, fun k hk => ?_⟩
    cases hk
    rw [h.mem_keys]
    exact Option.isSome_iff_exists.mpr ⟨_, hr⟩
  | @added request _ _ r fills _ hr houtcome =>
    refine .inr ⟨request.key, ?_, rfl, fun hmem => ?_⟩
    · rw [keys, history_add, List.map_append, List.map_singleton, houtcome.request_eq]
      rfl
    · rw [h.mem_keys, Option.isSome_iff_ne_none] at hmem
      exact hmem hr

theorem eraseDups_concat_of_mem {α : Type} [BEq α] [LawfulBEq α] {l : List α} {a : α} (h : a ∈ l) :
    (l ++ [a]).eraseDups = l.eraseDups := by
  have hall : [a].removeAll l = [] := by simp [List.removeAll, h]
  rw [List.eraseDups_append, hall, List.eraseDups_nil, List.append_nil]

theorem eraseDups_concat_of_notMem {α : Type} [BEq α] [LawfulBEq α] {l : List α} {a : α} (h : a ∉ l) :
    (l ++ [a]).eraseDups = l.eraseDups ++ [a] := by
  have hnone : [a].removeAll l = [a] := by simp [List.removeAll, h]
  rw [List.eraseDups_append, hnone]
  rfl

/-- **The keys of the submissions are those of the first answers, in order.** -/
theorem firstSubmissions_eq (l : List BookCall) : firstSubmissions l = (after l).keys := by
  induction l using List.reverseRecOn with
  | nil => rfl
  | append_singleton l c ih =>
    have hmem : ∀ k, k ∈ (trace l).filterMap answeredKey ↔ k ∈ (after l).keys := by
      intro k
      rw [← ih, firstSubmissions, List.mem_eraseDups]
    unfold firstSubmissions at ih ⊢
    rw [trace_concat, List.filterMap_append, after_concat]
    rcases keys_stepped (bookInv_after l) (stepped (after l) c) with ⟨hkeys, hold⟩ | ⟨k, hkeys, hk, hnew⟩
    · rw [hkeys, ← ih]
      cases hk : answeredKey (c, (after l).answer c) with
      | none => rw [List.filterMap_cons_none hk, List.filterMap_nil, List.append_nil]
      | some k =>
        rw [List.filterMap_cons_some hk, List.filterMap_nil, eraseDups_concat_of_mem ((hmem k).mpr (hold k hk))]
    · rw [hkeys, ← ih, List.filterMap_cons_some hk, List.filterMap_nil,
        eraseDups_concat_of_notMem (mt (hmem k).mp hnew)]

theorem handsOut_stepped {book book' : PaperOrderBook} {c : BookCall} {a : Except PaperError BookAnswer}
    (h : BookInv book) (hstep : Stepped book c a book') :
    book'.events.take book'.pendingIndex = book.events.take book.pendingIndex ++ handsOut (c, a) := by
  cases hstep with
  | raised e => cases c <;> simp [handsOut]
  | read a hsubmit hdrain =>
    cases c with
    | pendingEvents => exact absurd rfl hdrain
    | submit _ _ _ | events | eventsFor _ _ | fillRecords | positions _ _ => simp [handsOut]
  | drained =>
    show book.events.take book.events.length = _ ++ book.events.drop book.pendingIndex
    rw [List.take_append_drop, List.take_length]
  | replayed _ _ _ => simp [handsOut]
  | added _ _ _ =>
    show (book.events ++ _).take book.pendingIndex = _ ++ []
    rw [List.take_append_of_le_length h.cursor, List.append_nil]

/-- **What was handed out is the log up to the drain cursor.** -/
theorem handsOut_eq (l : List BookCall) :
    (trace l).flatMap handsOut = (after l).events.take (after l).pendingIndex := by
  induction l using List.reverseRecOn with
  | nil => rfl
  | append_singleton l c ih =>
    rw [trace_concat, List.flatMap_append, List.flatMap_singleton, ih, after_concat,
      handsOut_stepped (bookInv_after l) (stepped (after l) c)]

/-! ### Repeated submissions -/

/-- The prices of the request are equal to themselves. -/
def Repeatable (request : BrokerOrderRequest) : Prop :=
  request.limitPrice ≠ some .nan ∧ request.stopPrice ≠ some .nan

theorem samePrice_self {p : Option Num} (h : p ≠ some .nan) : samePrice p p = true := by
  cases p with
  | none => rfl
  | some a =>
    have ha : a ≠ .nan := fun hnan => h (congrArg some hnan)
    simp [samePrice, ha]

theorem firstDifference_self {request : BrokerOrderRequest} (h : Repeatable request) :
    firstDifference request request = none := by
  simp [firstDifference, samePrice_self h.1, samePrice_self h.2]

/-- A request that was answered with `response` is recorded with it. -/
structure AnsweredWith (book : PaperOrderBook) (request : BrokerOrderRequest) (response : BrokerOrderResponse) :
    Prop where
  checked : Checked request
  recorded : ∃ r, book.recorded request.brokerAccountId request.clientOrderId = some r ∧ r.response = response ∧
    (r.request = request ∨ firstDifference r.request request = none)

theorem history_subset {book book' : PaperOrderBook} {c : BookCall} {a : Except PaperError BookAnswer}
    (hstep : Stepped book c a book') : book.history ⊆ book'.history := by
  cases hstep with
  | raised _ | read _ _ _ | drained | replayed _ _ _ => exact List.Subset.refl _
  | added _ _ _ =>
    rw [history_add]
    exact List.subset_append_left _ _

theorem AnsweredWith.stepped {book book' : PaperOrderBook} {c : BookCall} {a : Except PaperError BookAnswer}
    {request : BrokerOrderRequest} {response : BrokerOrderResponse} (h : AnsweredWith book request response)
    (hinv : BookInv book) (hstep : Stepped book c a book') : AnsweredWith book' request response := by
  obtain ⟨hchecked, r, hr, hdata⟩ := h
  obtain ⟨hmem, hkey⟩ := (hinv.recorded_iff (k := request.key)).mp hr
  exact ⟨hchecked, r, ((hinv.stepped hstep).recorded_iff (k := request.key)).mpr ⟨history_subset hstep hmem, hkey⟩,
    hdata⟩

theorem answeredWith_stepped {book book' : PaperOrderBook} {request : BrokerOrderRequest}
    {reference : Option PaperReferencePrice} {now : DateTime} {response : BrokerOrderResponse} (hinv : BookInv book)
    (hstep : Stepped book (.submit request reference now) (.ok (.response response)) book') :
    AnsweredWith book' request response := by
  have hinv' := hinv.stepped hstep
  cases hstep with
  | read _ hsubmit _ => exact absurd rfl (hsubmit request reference now)
  | replayed hchecked hr hd => exact ⟨hchecked, _, hr, rfl, .inr hd⟩
  | @added _ _ _ r fills hchecked _ houtcome =>
    have hkey : r.request.key = request.key := by rw [houtcome.request_eq]
    have hmem : r ∈ (book.add r fills).history := by
      rw [history_add]
      exact List.mem_append_right _ (List.mem_singleton_self r)
    exact ⟨hchecked, r, hinv'.recorded_iff.mpr ⟨hmem, hkey⟩, rfl, .inl houtcome.request_eq⟩

/-- **Every answered request stays recorded with its response.** -/
theorem answeredWith_after {l : List BookCall} {request : BrokerOrderRequest}
    {reference : Option PaperReferencePrice} {now : DateTime} {response : BrokerOrderResponse}
    (h : (.submit request reference now, .ok (.response response)) ∈ trace l) :
    AnsweredWith (after l) request response := by
  induction l using List.reverseRecOn with
  | nil => cases h
  | append_singleton l c ih =>
    have hstep := PaperOrderBook.stepped (after l) c
    rw [trace_concat, List.mem_append, List.mem_singleton] at h
    rw [after_concat]
    rcases h with h | h
    · exact (ih h).stepped (bookInv_after l) hstep
    · obtain ⟨rfl, hanswer⟩ := Prod.mk.inj h
      rw [← hanswer] at hstep
      exact answeredWith_stepped (bookInv_after l) hstep

/-- A request that was answered and can be compared is answered again, and the book stays. -/
theorem AnsweredWith.repeats {book : PaperOrderBook} {request : BrokerOrderRequest} {response : BrokerOrderResponse}
    (h : AnsweredWith book request response) (hrepeatable : Repeatable request)
    (reference : Option PaperReferencePrice) (now : DateTime) :
    book.answer (.submit request reference now) = .ok (.response response) ∧
      book.step (.submit request reference now) = book := by
  obtain ⟨hchecked, r, hr, rfl, hsame⟩ := h
  have hd : firstDifference r.request request = none := by
    rcases hsame with hsame | hsame
    · rw [hsame]
      exact firstDifference_self hrepeatable
    · exact hsame
  obtain ⟨hanswer, hstep⟩ := perform_submit book request reference now
  rw [hanswer, hstep, submit_replay hchecked.mode hchecked.notBlank hchecked.quantity hchecked.entry hr hd]
  exact ⟨rfl, rfl⟩

/-! ### The law of the book -/

theorem Outcome.endsExact {request : BrokerOrderRequest} {sequence : ℕ} {r : SubmissionRecord}
    {fills : List PaperFillRecord} (h : Outcome request sequence r fills) : r.EndsExact := by
  intro hdigits s hs
  cases h with
  | rejected now reason =>
    obtain ⟨s', hreplay, hend⟩ := replay_rejected hs reason
    exact ⟨s', hreplay, .inr ⟨rfl, hend⟩⟩
  | filled now price hq hp =>
    obtain ⟨s', hreplay, hend⟩ := (replay_accepted_iff hs hq price).mpr (hdigits rfl)
    exact ⟨s', hreplay, .inl ⟨rfl, hend⟩⟩

theorem BookInv.eventsFor {book : PaperOrderBook} (h : BookInv book) {r : SubmissionRecord} (hr : r ∈ book.history) :
    book.eventsFor r.request.key.1 r.request.key.2 = r.events := by
  rw [PaperOrderBook.eventsFor, h.recorded_iff.mpr ⟨hr, rfl⟩]
  rfl

theorem acceptedOrders_eq (l : List BookCall) :
    acceptedOrders l = (after l).history.filter fun r => r.response.status = .accepted := by
  rw [acceptedOrders, firstSubmissions_eq, keys, List.filterMap_map, ← List.filterMap_eq_filter]
  refine List.filterMap_congr fun r hr => ?_
  show ((after l).recorded r.request.key.1 r.request.key.2).filter _ = _
  rw [(bookInv_after l).recorded_iff.mpr ⟨hr, rfl⟩]
  rfl

/-- A call that raises leaves the book as it is. -/
theorem step_of_raises {book : PaperOrderBook} {c : BookCall} {e : PaperError} (h : book.answer c = .error e) :
    book.step c = book := by
  have hstep := stepped book c
  rw [h] at hstep
  generalize book.step c = book' at hstep
  cases hstep
  rfl

/-- **After every sequence of calls the law of the book holds**, for accepted quantities of at most 28 digits and
for repeated requests whose prices are not NaN. -/
theorem bookLaw (l : List BookCall) : BookLaw SubmissionRecord.EndsExact Repeatable l := by
  have hinv := bookInv_after l
  refine ⟨?_, ?_, hinv.sequences, ?_, ?_, fun c e h => step_of_raises h, ?_⟩
  · rw [firstSubmissions_eq, keys, List.flatMap_map, hinv.log]
    exact List.flatMap_congr fun r hr => (hinv.eventsFor hr).symm
  · rw [acceptedOrders_eq]
    exact hinv.fills
  · intro k hk
    rw [firstSubmissions_eq, hinv.mem_keys] at hk
    obtain ⟨r, hr⟩ := Option.isSome_iff_exists.mp hk
    obtain ⟨e, he, rfl⟩ : ∃ e ∈ (after l).submissions, e.2 = r := by
      simpa [history] using (hinv.recorded_iff.mp hr).1
    obtain ⟨-, sequence, fills, houtcome⟩ := hinv.outcome e he
    exact ⟨e.2, hr, houtcome.endsExact⟩
  · intro request reference now response hmem hrepeatable reference' now'
    exact (answeredWith_after hmem).repeats hrepeatable reference' now'
  · rw [handsOut_eq, List.take_append_drop]

/-- A market order for an instrument at 100. -/
def sampleOrder (quantity : ℤ) (limitPrice : Option Num) : BrokerOrderRequest where
  brokerAccountId := ⟨1⟩
  instrumentId := ⟨2⟩
  tradingMode := .paper
  clientOrderId := "ORD-1"
  side := .buy
  orderType := .market
  quantity := quantity
  riskApprovalId := "approval"
  limitPrice := limitPrice
  orderIdEntry := .id (paperOrderId ⟨1⟩ "ORD-1")

theorem last_pos_sample : (0 : ℚ) < 100 := by norm_num

theorem absent_pos : ∀ q : ℚ, none = some q → 0 < q := by simp

theorem absent_le : ∀ b a : ℚ, none = some b → none = some a → b ≤ a := by simp

theorem absent_within : ∀ b a : ℚ, none = some b → none = some a → b ≤ 100 ∧ 100 ≤ a := by simp

def sampleReference : PaperReferencePrice where
  instrumentId := ⟨2⟩
  last := 100
  last_pos := last_pos_sample
  bid_pos := absent_pos
  ask_pos := absent_pos
  bid_le_ask := absent_le
  last_within := absent_within

def sampleTime : DateTime := ⟨2026, 8, 12, 10, 0, 0, 0, some 0⟩

theorem aware_sampleTime : sampleTime.aware = true := rfl

def sampleStamp : Stamp := ⟨sampleTime, aware_sampleTime⟩

/-- The submission of that order. -/
def sampleSubmit (quantity : ℤ) (limitPrice : Option Num) : BookCall :=
  .submit (sampleOrder quantity limitPrice) (some sampleReference) sampleStamp

/-- The order is accepted by the empty book. -/
theorem submit_sample {quantity : ℤ} (hq : 0 < quantity) (limitPrice : Option Num) : ∃ r,
    trace [sampleSubmit quantity limitPrice] = [(sampleSubmit quantity limitPrice, .ok (.response r.response))] ∧
      (after [sampleSubmit quantity limitPrice]).recorded ⟨1⟩ "ORD-1" = some r ∧
      r.request = sampleOrder quantity limitPrice ∧ r.response.status = .accepted ∧
      r.events = [r.request.ackEvent sampleStamp, r.request.fillEvent sampleStamp 100] := by
  have hblank : blank (sampleOrder quantity limitPrice).clientOrderId = false := by
    show blank "ORD-1" = false
    decide +kernel
  have hfill : decideFill (sampleOrder quantity limitPrice) sampleReference =
      .ok (.fills 100 quantity last_pos_sample hq) := dif_pos hq
  have hsubmit : submit {} (sampleOrder quantity limitPrice) (some sampleReference) sampleStamp =
      .ok (acceptAndFill {} (sampleOrder quantity limitPrice) (sampleOrder quantity limitPrice).orderId sampleStamp 100
        last_pos_sample hq) := submit_fill rfl hblank hq rfl rfl sampleStamp.2 rfl hfill
  obtain ⟨hanswer, hstep⟩ := perform_submit {} (sampleOrder quantity limitPrice) (some sampleReference) sampleStamp
  rw [hsubmit] at hanswer hstep
  refine ⟨⟨sampleOrder quantity limitPrice, (sampleOrder quantity limitPrice).acceptedResponse sampleStamp,
    [(sampleOrder quantity limitPrice).ackEvent sampleStamp,
      (sampleOrder quantity limitPrice).fillEvent sampleStamp 100]⟩, ?_, ?_, rfl, rfl, rfl⟩
  · show [(sampleSubmit quantity limitPrice, answer {} (sampleSubmit quantity limitPrice))] = _
    rw [sampleSubmit, hanswer]
    rfl
  · show (step {} (sampleSubmit quantity limitPrice)).recorded _ _ = _
    rw [sampleSubmit, hstep]
    rfl

theorem unfilled_nonneg : (0 : ℚ) ≤ 0 := le_rfl

theorem unfilled_le {q : ℚ} (hq : 0 < q) : 0 ≤ q := hq.le

/-- The order of a request before its first event. -/
def requestedState (request : BrokerOrderRequest) (hq : 0 < (request.quantity : ℚ)) :
    Execution.OrderExecutionState where
  lifecycle := { orderId := request.orderId, state := .submissionRequested }
  orderQuantity := request.quantity
  quantity_pos := hq
  filled_nonneg := unfilled_nonneg
  filled_le := unfilled_le hq

/-- A quantity of 29 digits. -/
def sampleQuantity : ℤ := 10 ^ 28 + 1

theorem not_digits_sampleQuantity : ¬Digits 28 (sampleQuantity : ℚ) := by
  intro h
  have hfix : Ctx.default.fix (sampleQuantity : ℚ) ≠ sampleQuantity := by decide +kernel
  exact hfix (Ctx.fix_of_digits h)

/-- The fill event of that quantity is not accepted. -/
theorem not_ends_sample {r : SubmissionRecord} (hrequest : r.request = sampleOrder sampleQuantity none)
    (hevents : r.events = [r.request.ackEvent sampleStamp, r.request.fillEvent sampleStamp 100])
    (hstatus : r.response.status = .accepted) : ¬r.Ends := by
  intro h
  have hq : 0 < r.request.quantity := by
    rw [hrequest]
    exact (by decide : 0 < sampleQuantity)
  have hs : Requested (requestedState r.request (Int.cast_pos.mpr hq)) r.request := ⟨rfl, rfl, rfl, rfl⟩
  obtain ⟨s', hreplay, hend⟩ := h _ hs
  rw [hevents] at hreplay
  rcases hend with ⟨-, hend⟩ | ⟨hrejected, -⟩
  · have hdigits := (replay_accepted_iff hs hq 100).mp ⟨s', hreplay, hend⟩
    rw [hrequest] at hdigits
    exact not_digits_sampleQuantity hdigits
  · rw [hstatus] at hrejected
    cases hrejected

/-- An order of `10 ^ 28 + 1` is not filled by its fill event, and an order with a NaN as its limit price cannot be
submitted twice. -/
theorem not_bookLaw_unrestricted :
    ¬BookLaw SubmissionRecord.Ends (fun _ => True) [sampleSubmit sampleQuantity none] ∧
      ¬BookLaw SubmissionRecord.Ends (fun _ => True) [sampleSubmit 1 (some .nan)] := by
  constructor
  · intro h
    obtain ⟨r, htrace, hr, hrequest, hstatus, hevents⟩ := submit_sample (by decide : 0 < sampleQuantity) none
    have hfirst : ((⟨1⟩, "ORD-1") : UUID × String) ∈ firstSubmissions [sampleSubmit sampleQuantity none] := by
      rw [firstSubmissions, htrace, List.mem_eraseDups]
      exact List.mem_singleton_self _
    obtain ⟨r', hr', hends⟩ := h.replays _ hfirst
    rw [hr] at hr'
    cases hr'
    exact not_ends_sample hrequest hevents hstatus hends
  · intro h
    obtain ⟨r, htrace, hr, hrequest, -, -⟩ := submit_sample Int.one_pos (some .nan)
    have hmem : (sampleSubmit 1 (some .nan), .ok (.response r.response)) ∈ trace [sampleSubmit 1 (some .nan)] := by
      rw [htrace]
      exact List.mem_singleton_self _
    have hagain := (h.repeats _ _ _ _ hmem trivial none sampleStamp).1
    have hstep := stepped (after [sampleSubmit 1 (some .nan)]) (.submit (sampleOrder 1 (some .nan)) none sampleStamp)
    rw [hagain] at hstep
    generalize r.response = response at hstep
    generalize step _ _ = book at hstep
    have hdiffers : firstDifference (sampleOrder 1 (some .nan)) (sampleOrder 1 (some .nan)) ≠ none := by
      decide
    cases hstep with
    | read _ hsubmit _ => exact hsubmit _ _ _ rfl
    | replayed _ hr' hd =>
      have hsome : some _ = some r := hr'.symm.trans hr
      cases hsome
      rw [hrequest] at hd
      exact hdiffers hd
    | added _ hr' _ =>
      have hsome : none = some r := hr'.symm.trans hr
      cases hsome

end PaperOrderBook

end AlphaAlgo.Paper
