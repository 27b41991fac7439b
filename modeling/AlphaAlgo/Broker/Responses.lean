import AlphaAlgo.Broker.Orders
import AlphaAlgo.Broker.Updates

/-!
# Responses — what the adapters make of the responses to an order

`submit_order`, `modify_order` and `cancel_order` decide by the HTTP code whether a response is an error; a response that
is none goes to `parse_order_response` or `parse_cancel_response`, an error to the `map_error` of the provider.  Each of
them calls `.get` on the body, which raises where the body is a JSON value of another kind.

* `fields_eq_ok`, `mapError_eq_ok`: the responses that are read without raising.
* `responses_sound_iff`: the responses for which no provider error is acknowledged, a submission has its order id and
  everything else raises a `BrokerError`.
-/

namespace AlphaAlgo.Broker

open Loop (bind_eq_ok)

/-! ### Responses -/

inductive BrokerOrderStatus where
  | submissionRequested
  | brokerAcknowledged
  | opened
  | pending
  | partiallyFilled
  | filled
  | cancelled
  | rejected
  | unknown
  deriving DecidableEq, Repr

def BrokerOrderStatus.value : BrokerOrderStatus → String
  | submissionRequested => "SUBMISSION_REQUESTED"
  | brokerAcknowledged => "BROKER_ACKNOWLEDGED"
  | opened => "OPEN"
  | pending => "PENDING"
  | partiallyFilled => "PARTIALLY_FILLED"
  | filled => "FILLED"
  | cancelled => "CANCELLED"
  | rejected => "REJECTED"
  | unknown => "UNKNOWN"

/-- The message is what the provider sent. -/
structure BrokerOrderResponse where
  status : BrokerOrderStatus
  clientOrderId : String
  brokerOrderId : Option String
  message : Value := .none
  timestamp : DateTime
  filledQuantity : ℤ := 0
  averagePrice : Option Decimal := none
  rawReference : Option String := none

/-- An exception that is no `BrokerError`. -/
def ReadError.failure (e : ReadError) : Failure := .other e.name

/-- `resp.body or {}`, of which `.get` is called. -/
def TransportResponse.fields (resp : TransportResponse) : Except ReadError Fields :=
  match resp.body with
  | .dict fields => .ok fields
  | body => if body.truthy = true then .error .attributeError else .ok []

/-- The body is a dictionary, or counts as an empty one. -/
def TransportResponse.Readable (resp : TransportResponse) : Prop :=
  (∃ fields, resp.body = .dict fields) ∨ resp.body.truthy = false

/-- What `.get` then reads. -/
def TransportResponse.bodyFields (resp : TransportResponse) : Fields :=
  match resp.body with
  | .dict fields => fields
  | _ => []

theorem fields_eq_ok {resp : TransportResponse} {body : Fields} :
    resp.fields = .ok body ↔ resp.Readable ∧ body = resp.bodyFields := by
  have hother : ∀ b : Bool, (if b = true then Except.error ReadError.attributeError else .ok []) = Except.ok body ↔
      b = false ∧ body = [] := by
    intro b
    cases b with
    | false => exact ⟨fun h => ⟨rfl, (Except.ok.inj h).symm⟩, fun h => congrArg Except.ok h.2.symm⟩
    | true => simp
  unfold TransportResponse.fields TransportResponse.Readable TransportResponse.bodyFields
  cases resp.body with
  | dict fields => exact ⟨fun h => ⟨.inl ⟨fields, rfl⟩, (Except.ok.inj h).symm⟩, fun h => congrArg Except.ok h.2.symm⟩
  | scalar a => simpa using hother (Value.scalar a).truthy
  | float number text => simpa using hother (Value.float number text).truthy
  | list items => simpa using hother (Value.list items).truthy

/-- `(a or "").strip()`. -/
def stripOr (a : Value) : Except ReadError String :=
  match a.orElse (.str "") with
  | .scalar (.str s) => .ok (String.ofList (strip s.toList))
  | _ => .error .attributeError

/-- A value of which `(a or "").strip()` is called without raising. -/
def Strippable (a : Value) : Prop := a.truthy = false ∨ ∃ s, a = .str s

theorem exists_stripOr {a : Value} : (∃ s, stripOr a = .ok s) ↔ Strippable a := by
  unfold stripOr Strippable Value.orElse
  by_cases ha : a.truthy = true
  · rw [if_pos ha, ha]
    cases a with
    | scalar a => cases a <;> simp
    | float number text => simp
    | list items => simp
    | dict fields => simp
  · rw [if_neg ha]
    simp [Bool.eq_false_iff.mpr ha]

/-- The first that counts of the provider's message, the text of the response and a default. -/
def errorMessage (resp : TransportResponse) (body : Fields) : Value :=
  (body.get "message").orElse ((Value.scalar (resp.text.elim .none .str)).orElse (.str "provider error"))

/-- `_http_error_class` by the table of a provider. -/
def httpErrorClass (table : List (ℤ × BrokerErrorClass)) (code : ℤ) : BrokerErrorClass :=
  (table.lookup code).getD .unknown

/-- An error with the provider's code, which is the HTTP code where there is none. -/
def providerError (errorClass : BrokerErrorClass) (message : Value) (errorCode : Value) (code : ℤ) : BrokerError where
  errorClass := errorClass
  message := message.text
  providerCode := some (errorCode.orElse (.str (toString code))).text
  providerMessage := some message.text

/-- `data.get(key)` where the body has such a dictionary; an id that does not count is none. -/
def orderIdOf (key : String) (body : Fields) : Option String :=
  match body.get "data" with
  | .dict data => if (Fields.get data key).truthy = true then some (Fields.get data key).text else none
  | _ => none

/-- `parse_order_response` with the provider's key for the order id. -/
def parseOrder (key : String) (now : DateTime) (resp : TransportResponse) (request : Option BrokerOrderRequest) :
    Except ReadError BrokerOrderResponse := do
  let body ← resp.fields
  return {
    status := .brokerAcknowledged
    clientOrderId := (request.map BrokerOrderRequest.clientOrderId).getD ""
    brokerOrderId := orderIdOf key body
    message := body.get "message"
    timestamp := now
    rawReference := orderIdOf key body }

/-- `parse_cancel_response` with the provider's key for the order id. -/
def parseCancel (key : String) (now : DateTime) (resp : TransportResponse) (brokerOrderId : String) :
    Except ReadError BrokerOrderResponse := do
  let body ← resp.fields
  return {
    status := .cancelled
    clientOrderId := ""
    brokerOrderId := (orderIdOf key body).orElse fun _ => some brokerOrderId
    message := body.get "message"
    timestamp := now
    rawReference := orderIdOf key body }

/-! ### The providers -/

namespace Zerodha

def orderIdKey : String := "order_id"

def errorTypeMap : List (String × BrokerErrorClass) :=
  [("InputException", .validation), ("DataException", .validation), ("TokenException", .authentication),
    ("PermissionException", .authorization), ("OrderException", .orderRejected), ("RateLimitException", .rateLimit),
    ("NetworkException", .network), ("GeneralException", .unknown)]

def httpErrors : List (ℤ × BrokerErrorClass) :=
  [(429, .rateLimit), (401, .authentication), (403, .authorization), (400, .validation), (422, .validation),
    (502, .providerUnavailable), (503, .providerUnavailable), (504, .providerUnavailable)]

def mapError (resp : TransportResponse) : Except ReadError BrokerError := do
  let body ← resp.fields
  let errorType ← stripOr (body.get "error_type")
  let errorClass := (errorTypeMap.lookup errorType).getD (httpErrorClass httpErrors resp.statusCode)
  return providerError errorClass (errorMessage resp body) (.str errorType) resp.statusCode

end Zerodha

namespace Upstox

def orderIdKey : String := "order_id"

def errorCodeMap : List (String × BrokerErrorClass) :=
  [("UDAPI100001", .validation), ("UDAPI100010", .authentication), ("UDAPI100011", .authorization),
    ("UDAPI100113", .rateLimit), ("UDAPI100105", .orderRejected), ("UDAPI100100", .notFound)]

def httpErrors : List (ℤ × BrokerErrorClass) :=
  [(429, .rateLimit), (401, .authentication), (403, .authorization), (400, .validation), (422, .validation),
    (404, .notFound), (502, .providerUnavailable), (503, .providerUnavailable), (504, .providerUnavailable)]

/-- The first error that the body lists. -/
def firstError (body : Fields) : Fields :=
  match body.get "errors" with
  | .list (.dict first :: _) => first
  | _ => []

/-- `ERROR_CODE_MAP.get(error_code, ...)`. -/
def classOf (errorCode : Value) (code : ℤ) : Except ReadError BrokerErrorClass :=
  if errorCode.hashable = true then
    match errorCode with
    | .scalar (.str s) => .ok ((errorCodeMap.lookup s).getD (httpErrorClass httpErrors code))
    | _ => .ok (httpErrorClass httpErrors code)
  else .error .typeError

def mapError (resp : TransportResponse) : Except ReadError BrokerError := do
  let body ← resp.fields
  let first := firstError body
  let message := (first.get "message").orElse (errorMessage resp body)
  let errorClass ← classOf (first.get "errorCode") resp.statusCode
  return providerError errorClass message (first.get "errorCode") resp.statusCode

end Upstox

namespace AngelOne

def orderIdKey : String := "orderid"

def errorCodeMap : List (String × BrokerErrorClass) :=
  [("AG8001", .authentication), ("AG8002", .authentication), ("AG8003", .authorization), ("AB1004", .rateLimit),
    ("AB1005", .validation)]

def httpErrors : List (ℤ × BrokerErrorClass) :=
  [(429, .rateLimit), (401, .authentication), (403, .authorization), (400, .validation), (422, .validation),
    (404, .notFound), (502, .providerUnavailable), (503, .providerUnavailable), (504, .providerUnavailable)]

/-- `_classify_message`. -/
def classifyMessage (message : Value) (fallback : BrokerErrorClass) : Except ReadError BrokerErrorClass :=
  match message with
  | .scalar (.str s) =>
    let has (word : String) : Bool := decide (word.toList <:+: (lower s).toList)
    .ok (if has "token" || has "login" || has "session" then .authentication
      else if has "rate" || has "limit" then .rateLimit
      else if has "reject" then .orderRejected
      else if has "invalid" || has "required" then .validation
      else fallback)
  | _ => .error .attributeError

/-- HTTP 200 with `status: false` is classified by the message. -/
def mapError (resp : TransportResponse) : Except ReadError BrokerError := do
  let body ← resp.fields
  let errorCode ← stripOr ((body.get "errorcode").orElse (body.get "code"))
  let message := errorMessage resp body
  let otherwise ←
    if resp.statusCode = 200 ∧ (body.get "status").isFalse = true then classifyMessage message .unknown
    else .ok (httpErrorClass httpErrors resp.statusCode)
  return providerError ((errorCodeMap.lookup errorCode).getD otherwise) message (.str errorCode) resp.statusCode

end AngelOne

namespace BrokerName

def orderIdKey : BrokerName → String
  | zerodha => Zerodha.orderIdKey
  | upstox => Upstox.orderIdKey
  | angelOne => AngelOne.orderIdKey

def mapError : BrokerName → TransportResponse → Except ReadError BrokerError
  | zerodha => Zerodha.mapError
  | upstox => Upstox.mapError
  | angelOne => AngelOne.mapError

def parseOrderResponse (broker : BrokerName) := parseOrder broker.orderIdKey

def parseCancelResponse (broker : BrokerName) := parseCancel broker.orderIdKey

/-- The exception that `raise self.map_error(resp)` ends in. -/
def raised (broker : BrokerName) (resp : TransportResponse) : Failure :=
  match broker.mapError resp with
  | .ok error => .broker error
  | .error e => e.failure

/-- The adapter of a provider; its payloads, which need the instruments, are given. -/
def hooks {π : Type} (broker : BrokerName) (now : DateTime) (build : BrokerOrderRequest → Except Failure π)
    (buildModify : BrokerOrderRequest → String → Except Failure π) : ProviderHooks π BrokerOrderResponse where
  buildOrderPayload := build
  buildModifyPayload := buildModify
  parseOrderResponse resp request := (broker.parseOrderResponse now resp (some request)).mapError ReadError.failure
  parseCancelResponse resp brokerOrderId := (broker.parseCancelResponse now resp brokerOrderId).mapError ReadError.failure
  mapError := broker.raised

end BrokerName

/-! ### Errors -/

/-- What `map_error` reads of a body without raising. -/
def ErrorReads (broker : BrokerName) (body : Fields) : Prop :=
  match broker with
  | .zerodha => Strippable (body.get "error_type")
  | .upstox => (Fields.get (Upstox.firstError body) "errorCode").hashable = true
  | .angelOne => Strippable ((body.get "errorcode").orElse (body.get "code"))

theorem exists_classOf {errorCode : Value} (code : ℤ) :
    (∃ c, Upstox.classOf errorCode code = .ok c) ↔ errorCode.hashable = true := by
  unfold Upstox.classOf
  by_cases h : errorCode.hashable = true
  · rw [if_pos h]
    simp only [h, iff_true]
    split
    · exact ⟨_, rfl⟩
    · exact ⟨_, rfl⟩
  · rw [if_neg h]
    simp [h]

/-- **The errors that are mapped** to a `BrokerError`, outside HTTP 200. -/
theorem exists_mapError (broker : BrokerName) {resp : TransportResponse} (hcode : resp.statusCode ≠ 200) :
    (∃ error, broker.mapError resp = .ok error) ↔ resp.Readable ∧ ErrorReads broker resp.bodyFields := by
  cases broker with
  | zerodha =>
    show (∃ error, Zerodha.mapError resp = .ok error) ↔ _ ∧ Strippable _
    rw [← exists_stripOr]
    unfold Zerodha.mapError
    simp only [bind_eq_ok, fields_eq_ok]
    constructor
    · rintro ⟨_, _, ⟨hread, rfl⟩, s, hs, -⟩
      exact ⟨hread, s, hs⟩
    · rintro ⟨hread, s, hs⟩
      exact ⟨_, _, ⟨hread, rfl⟩, s, hs, rfl⟩
  | upstox =>
    show (∃ error, Upstox.mapError resp = .ok error) ↔ _ ∧ Value.hashable _ = true
    rw [← exists_classOf resp.statusCode]
    unfold Upstox.mapError
    simp only [bind_eq_ok, fields_eq_ok]
    constructor
    · rintro ⟨_, _, ⟨hread, rfl⟩, c, hc, -⟩
      exact ⟨hread, c, hc⟩
    · rintro ⟨hread, c, hc⟩
      exact ⟨_, _, ⟨hread, rfl⟩, c, hc, rfl⟩
  | angelOne =>
    show (∃ error, AngelOne.mapError resp = .ok error) ↔ _ ∧ Strippable _
    rw [← exists_stripOr]
    unfold AngelOne.mapError
    simp only [bind_eq_ok, fields_eq_ok, hcode, false_and, if_false]
    constructor
    · rintro ⟨_, _, ⟨hread, rfl⟩, s, hs, -⟩
      exact ⟨hread, s, hs⟩
    · rintro ⟨hread, s, hs⟩
      exact ⟨_, _, ⟨hread, rfl⟩, s, hs, _, rfl, rfl⟩

/-- A response that the error mapping of a provider describes as an error. -/
def ProviderError (broker : BrokerName) (resp : TransportResponse) : Prop :=
  resp.ok = false ∨
    (broker = .angelOne ∧ resp.statusCode = 200 ∧ (resp.bodyFields.get "status").isFalse = true)

/-! ### Acknowledgements -/

def OrderKind.isSubmit : OrderKind → Prop
  | .submit _ => True
  | _ => False

/-- What a call may make of a response. -/
structure Sound (broker : BrokerName) (kind : OrderKind) (resp : TransportResponse)
    (pc : OrderPc BrokerOrderResponse) : Prop where
  acknowledged : ∀ r, pc = .returned r →
    (r.status = .brokerAcknowledged ∨ r.status = .cancelled) ∧ ¬ ProviderError broker resp
  identified : ∀ r, pc = .returned r → kind.isSubmit → r.brokerOrderId ≠ none
  raised : (∀ r, pc ≠ .returned r) → ∃ error, pc = .raised (.broker error)

/-- The body has a dictionary under `data`, and that a value that counts under the key. -/
def HasOrderId (key : String) (body : Fields) : Prop :=
  ∃ data, body.get "data" = .dict data ∧ (Fields.get data key).truthy = true

theorem orderIdOf_ne_none {key : String} {body : Fields} : orderIdOf key body ≠ none ↔ HasOrderId key body := by
  unfold orderIdOf HasOrderId
  cases body.get "data" with
  | dict data => simp
  | scalar a => simp
  | float number text => simp
  | list items => simp

/-- The condition on a response: the body is a dictionary or counts as empty; one that is accepted is no error of
Angel One's and, to a submission, has an order id; of one that is not, the provider's error is read. -/
structure Clear (broker : BrokerName) (kind : OrderKind) (resp : TransportResponse) : Prop where
  readable : resp.Readable
  accepted : resp.ok = true → ¬ ProviderError broker resp ∧
    (kind.isSubmit → HasOrderId broker.orderIdKey resp.bodyFields)
  refused : resp.ok = false → ErrorReads broker resp.bodyFields

theorem ne_200_of_not_ok {resp : TransportResponse} (h : resp.ok = false) : resp.statusCode ≠ 200 := by
  intro hcode
  rw [TransportResponse.ok, hcode] at h
  exact absurd h (by decide)

section Call

variable {π : Type} (broker : BrokerName) (now : DateTime) (build : BrokerOrderRequest → Except Failure π)
  (buildModify : BrokerOrderRequest → String → Except Failure π)

/-- What a call makes of an accepted response that is read. -/
theorem parse_of_ok (kind : OrderKind) {resp : TransportResponse} (hok : resp.ok = true) (hread : resp.Readable) :
    ∃ r, kind.parse (broker.hooks now build buildModify) resp = .returned r ∧
      (r.status = .brokerAcknowledged ∨ r.status = .cancelled) ∧
      (kind.isSubmit → r.brokerOrderId = orderIdOf broker.orderIdKey resp.bodyFields) := by
  have hbody : resp.fields = .ok resp.bodyFields := fields_eq_ok.mpr ⟨hread, rfl⟩
  unfold OrderKind.parse
  rw [if_pos hok]
  cases kind with
  | submit request =>
    simp only [BrokerName.hooks, BrokerName.parseOrderResponse, parseOrder, hbody]
    exact ⟨_, rfl, .inl rfl, fun _ => rfl⟩
  | modify request brokerOrderId =>
    simp only [BrokerName.hooks, BrokerName.parseOrderResponse, parseOrder, hbody]
    exact ⟨_, rfl, .inl rfl, fun h => h.elim⟩
  | cancel brokerOrderId =>
    simp only [BrokerName.hooks, BrokerName.parseCancelResponse, parseCancel, hbody]
    exact ⟨_, rfl, .inr rfl, fun h => h.elim⟩

/-- A body of another kind raises. -/
theorem parse_of_not_readable (kind : OrderKind) {resp : TransportResponse} (hok : resp.ok = true)
    (hread : ¬ resp.Readable) :
    ∃ name, kind.parse (broker.hooks now build buildModify) resp = .raised (.other name) := by
  obtain ⟨e, hbody⟩ : ∃ e, resp.fields = .error e := by
    cases hfields : resp.fields with
    | ok body => exact absurd (fields_eq_ok.mp hfields).1 hread
    | error e => exact ⟨e, rfl⟩
  unfold OrderKind.parse
  rw [if_pos hok]
  cases kind with
  | submit request =>
    simp only [BrokerName.hooks, BrokerName.parseOrderResponse, parseOrder, hbody]
    exact ⟨_, rfl⟩
  | modify request brokerOrderId =>
    simp only [BrokerName.hooks, BrokerName.parseOrderResponse, parseOrder, hbody]
    exact ⟨_, rfl⟩
  | cancel brokerOrderId =>
    simp only [BrokerName.hooks, BrokerName.parseCancelResponse, parseCancel, hbody]
    exact ⟨_, rfl⟩

/-- **When acknowledgements are sound.** -/
theorem responses_sound_iff (kind : OrderKind) (resp : TransportResponse) :
    Sound broker kind resp (kind.parse (broker.hooks now build buildModify) resp) ↔ Clear broker kind resp := by
  by_cases hok : resp.ok = true
  · by_cases hread : resp.Readable
    · obtain ⟨r, hparse, hstatus, hid⟩ := parse_of_ok broker now build buildModify kind hok hread
      rw [hparse]
      constructor
      · intro h
        refine ⟨hread, fun _ => ⟨(h.acknowledged r rfl).2, fun hsubmit => ?_⟩, fun hnot => by simp [hok] at hnot⟩
        rw [← orderIdOf_ne_none, ← hid hsubmit]
        exact h.identified r rfl hsubmit
      · intro h
        obtain ⟨herror, horder⟩ := h.accepted hok
        refine ⟨fun r' hr' => ?_, fun r' hr' hsubmit => ?_, fun hnot => absurd rfl (hnot r)⟩
        · cases hr'
          exact ⟨hstatus, herror⟩
        · cases hr'
          rw [hid hsubmit, orderIdOf_ne_none]
          exact horder hsubmit
    · obtain ⟨name, hparse⟩ := parse_of_not_readable broker now build buildModify kind hok hread
      rw [hparse]
      constructor
      · intro h
        obtain ⟨error, herror⟩ := h.raised fun r => by simp
        cases herror
      · exact fun h => absurd h.readable hread
  · have hfalse : resp.ok = false := by simpa using hok
    have hparse : kind.parse (broker.hooks now build buildModify) resp = .raised (broker.raised resp) := by
      unfold OrderKind.parse
      rw [if_neg hok]
      rfl
    have hmapped := exists_mapError broker (ne_200_of_not_ok hfalse)
    rw [hparse]
    constructor
    · intro h
      obtain ⟨error, herror⟩ := h.raised fun r => by simp
      have hok' : ∃ error, broker.mapError resp = .ok error := by
        unfold BrokerName.raised at herror
        cases hmap : broker.mapError resp with
        | ok error => exact ⟨error, rfl⟩
        | error e =>
          rw [hmap] at herror
          cases herror
      obtain ⟨hread, hreads⟩ := hmapped.mp hok'
      exact { readable := hread, accepted := fun h => absurd h hok, refused := fun _ => hreads }
    · intro h
      obtain ⟨error, hmap⟩ := hmapped.mpr ⟨h.readable, h.refused hfalse⟩
      have hraised : broker.raised resp = .broker error := by rw [BrokerName.raised, hmap]
      rw [hraised]
      exact { acknowledged := fun r hr => (by cases hr), identified := fun r hr => (by cases hr),
              raised := fun _ => ⟨error, rfl⟩ }

end Call

/-- SmartAPI refuses an order with HTTP 200. -/
def refusedOrder : TransportResponse where
  statusCode := 200
  body := .dict [("status", .bool false), ("message", .str "Invalid Token."), ("errorcode", .str "AG8001")]

def sampleRequest : BrokerOrderRequest := ⟨"ord-1", .market, .cnc, .paper⟩

/-- It is acknowledged. -/
theorem not_responses_sound :
    ¬ Sound .angelOne (.submit sampleRequest) refusedOrder ((OrderKind.submit sampleRequest).parse
      (BrokerName.angelOne.hooks ⟨2026, 9, 1, 10, 0, 0, 0, some 0⟩ (fun _ => .ok ()) fun _ _ => .ok ()) refusedOrder) := by
  intro h
  obtain ⟨-, hnot⟩ := h.acknowledged _ rfl
  exact hnot (.inr ⟨rfl, rfl, rfl⟩)

end AlphaAlgo.Broker
