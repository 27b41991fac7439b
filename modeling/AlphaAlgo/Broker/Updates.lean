import AlphaAlgo.Broker.Events

/-!
# Updates — the order updates of the providers

Zerodha, Upstox and Angel One send an order update as a dictionary; `parse_event` of each adapter reads it with the
provider's own keys and makes a normalized event of what it reads.  `Provider` holds the keys and words, `Reading` what an
update says.

* `eventType_isFill`: an update with some quantity filled is a fill or a partial fill.
* `eventType_eq_iff`: when two readings with the same status and filled quantity are events of the same type.
-/

namespace AlphaAlgo.Broker

/-! ### Text -/

/-- Lower case of one character.  Outside ASCII only the characters whose lower case has ASCII are listed; every other
character is left as it is. -/
def lowerChar (c : Char) : List Char :=
  match c.toNat with
  | 0x130 => ['i', Char.ofNat 0x307]
  | 0x212a => ['k']
  | _ => [c.toLower]

/-- `s.lower()`. -/
def lower (s : String) : String := String.ofList (s.toList.flatMap lowerChar)

/-- The zeros of the decimal digits of all scripts; the other digits follow each. -/
def zeroDigits : List ℕ :=
  [0x30, 0x660, 0x6f0, 0x7c0, 0x966, 0x9e6, 0xa66, 0xae6, 0xb66, 0xbe6, 0xc66, 0xce6, 0xd66, 0xde6, 0xe50, 0xed0, 0xf20,
    0x1040, 0x1090, 0x17e0, 0x1810, 0x1946, 0x19d0, 0x1a80, 0x1a90, 0x1b50, 0x1bb0, 0x1c40, 0x1c50, 0xa620, 0xa8d0,
    0xa900, 0xa9d0, 0xa9f0, 0xaa50, 0xabf0, 0xff10, 0x104a0, 0x10d30, 0x11066, 0x110f0, 0x11136, 0x111d0, 0x112f0,
    0x11450, 0x114d0, 0x11650, 0x116c0, 0x11730, 0x118e0, 0x11950, 0x11c50, 0x11d50, 0x11da0, 0x11f50, 0x16a60, 0x16ac0,
    0x16b50, 0x1d7ce, 0x1d7d8, 0x1d7e2, 0x1d7ec, 0x1d7f6, 0x1e140, 0x1e2f0, 0x1e4f0, 0x1e950, 0x1fbf0]

def digitValue (c : Char) : Option ℕ :=
  (zeroDigits.find? fun z => z ≤ c.toNat && c.toNat < z + 10).map (c.toNat - ·)

/-- More digits after `n`, each perhaps after one underscore. -/
def readDigits : ℕ → List Char → Option ℕ
  | n, [] => some n
  | n, '_' :: c :: l => (digitValue c).bind fun k => readDigits (10 * n + k) l
  | n, c :: l => (digitValue c).bind fun k => readDigits (10 * n + k) l

def readNumber : List Char → Option ℕ
  | [] => none
  | c :: l => (digitValue c).bind fun k => readDigits k l

/-- `s.strip()`. -/
def strip (l : List Char) : List Char := ((l.dropWhile isSpace).reverse.dropWhile isSpace).reverse

/-- The white space around a number: not the separators U+001C to U+001F, which `strip` takes away. -/
def isIntSpace (c : Char) : Bool := isSpace c && !(28 ≤ c.toNat && c.toNat ≤ 31)

/-- A number of at most 4300 digits, `int`'s limit. -/
def readLimited (l : List Char) : Option ℕ :=
  if 4300 < l.countP (digitValue · |>.isSome) then none else readNumber l

/-- `int(s)` of a text. -/
def intOfText (s : String) : Option ℤ :=
  match ((s.toList.dropWhile isIntSpace).reverse.dropWhile isIntSpace).reverse with
  | '+' :: l => (readLimited l).map Int.ofNat
  | '-' :: l => (readLimited l).map fun n => -Int.ofNat n
  | l => (readLimited l).map Int.ofNat

example : intOfText " 1_0\n" = some 10 ∧ intOfText "\x1c10" = none := by decide +kernel

/-! ### What an update says -/

/-- A decoded update. -/
abbrev RawUpdate := List (String × Scalar)

/-- What reading what a provider sent can raise: an attribute that a value lacks, a text that is no number, a value of
the wrong kind, a number without an integer part. -/
inductive ReadError where
  | attributeError
  | valueError
  | typeError
  | overflowError
  | invalidOperation
deriving DecidableEq

def ReadError.name : ReadError → String
  | attributeError => "AttributeError"
  | valueError => "ValueError"
  | typeError => "TypeError"
  | overflowError => "OverflowError"
  | invalidOperation => "InvalidOperation"

/-- `raw.get(key)`. -/
def RawUpdate.get (raw : RawUpdate) (key : String) : Scalar := (raw.lookup key).getD .none

/-- `a or b`. -/
def scalarOr (a b : Scalar) : Scalar := if a.truthy = true then a else b

/-- `a.lower()`. -/
def lowerOf : Scalar → Except ReadError Scalar
  | .str s => .ok (.str (lower s))
  | _ => .error .attributeError

/-- `int(a or 0)`. -/
def intOr (a : Scalar) : Except ReadError ℤ :=
  match scalarOr a (.int 0) with
  | .int n => .ok n
  | .bool b => .ok (if b = true then 1 else 0)
  | .str s =>
    match intOfText s with
    | some n => .ok n
    | none => .error .valueError
  | .none => .error .valueError

/-- How a provider writes an update: where the status, the order id, the quantities and the message are, and the words
for the final states. -/
structure Provider where
  status : RawUpdate → Except ReadError Scalar
  orderId : RawUpdate → Scalar
  filled : RawUpdate → Scalar
  quantity : RawUpdate → Scalar
  message : RawUpdate → Scalar
  complete : String
  rejected : String
  cancelled : String

def zerodha : Provider where
  status raw := .ok (raw.get "status")
  orderId raw := raw.get "order_id"
  filled raw := raw.get "filled_quantity"
  quantity raw := raw.get "quantity"
  message raw := raw.get "status_message"
  complete := "COMPLETE"
  rejected := "REJECTED"
  cancelled := "CANCELLED"

def upstox : Provider where
  status raw := lowerOf (scalarOr (raw.get "status") (.str ""))
  orderId raw := raw.get "order_id"
  filled raw := raw.get "filled_quantity"
  quantity raw := raw.get "quantity"
  message raw := raw.get "status_message"
  complete := "complete"
  rejected := "rejected"
  cancelled := "cancelled"

def angelOne : Provider where
  status raw := lowerOf (scalarOr (scalarOr (raw.get "orderstatus") (raw.get "status")) (.str ""))
  orderId raw := scalarOr (raw.get "orderid") (raw.get "order_id")
  filled raw := scalarOr (raw.get "filledquantity") (raw.get "filledQuantity")
  quantity raw := raw.get "quantity"
  message raw := raw.get "statusmessage"
  complete := "complete"
  rejected := "rejected"
  cancelled := "cancelled"

/-- What an update says. -/
structure Reading where
  status : Scalar
  orderId : Scalar
  filled : ℤ
  quantity : ℤ
  message : Scalar
deriving DecidableEq

namespace Reading

/-- The filled quantity is that of the order. -/
def reached (r : Reading) : Bool := r.quantity ≠ 0 && r.quantity ≤ r.filled

/-- The order id as text, when there is one. -/
def brokerOrderId (r : Reading) : Option String := if r.orderId.truthy = true then some r.orderId.text else none

end Reading

namespace Provider

def read (p : Provider) (raw : RawUpdate) : Except ReadError Reading := do
  let status ← p.status raw
  let filled ← intOr (p.filled raw)
  let quantity ← intOr (p.quantity raw)
  return ⟨status, p.orderId raw, filled, quantity, scalarOr (p.message raw) (.str "")⟩

def eventType (p : Provider) (r : Reading) : BrokerEventType :=
  if r.status = .str p.complete ∨ r.reached = true then .fill
  else if 0 < r.filled then .partialFill
  else if r.status = .str p.rejected then .rejected
  else if r.status = .str p.cancelled then .cancelled
  else .orderUpdate

end Provider

/-- `_SENTINEL`. -/
def sentinel : UUID := ⟨0⟩

/-- An adapter at one moment: its provider, and what the injected resolver of order ids answers then. -/
structure Adapter where
  provider : Provider
  orderIdResolver : Option (String → Option UUID) := none

namespace Adapter

/-- `_order_id_for`. -/
def orderIdFor (a : Adapter) (brokerOrderId : String) : UUID :=
  match a.orderIdResolver with
  | none => sentinel
  | some resolver => (resolver brokerOrderId).getD sentinel

/-- The event of a reading. -/
def eventOf (a : Adapter) (now : DateTime) (r : Reading) : NormalizedBrokerEvent where
  orderId := (r.brokerOrderId.map a.orderIdFor).getD sentinel
  eventType := a.provider.eventType r
  brokerOrderId := r.brokerOrderId
  fillQuantity := .ofInt r.filled
  occurredAt := now
  reason := r.message
  sourceEventId := r.brokerOrderId

def parseEvent (a : Adapter) (now : DateTime) (raw : RawUpdate) : Except ReadError NormalizedBrokerEvent :=
  (a.provider.read raw).map (a.eventOf now)

end Adapter

/-! ### The type of an event -/

/-- `FILL` and `PARTIAL_FILL` carry a quantity. -/
def BrokerEventType.isFill : BrokerEventType → Bool
  | fill => true
  | partialFill => true
  | _ => false

namespace Provider

variable {p : Provider} {r r' : Reading}

/-- An update with some quantity filled is a fill or a partial fill. -/
theorem eventType_isFill (h : 0 < r.filled) : (p.eventType r).isFill = true := by
  unfold eventType
  by_cases hwhole : r.status = .str p.complete ∨ r.reached = true
  · rw [if_pos hwhole]
    rfl
  · rw [if_neg hwhole, if_pos h]
    rfl

theorem eventType_eq_fill_iff : p.eventType r = .fill ↔ r.status = .str p.complete ∨ r.reached = true := by
  unfold eventType
  split_ifs with hwhole <;> simp [hwhole]

/-- **The type of two readings** with the same status and filled quantity. -/
theorem eventType_eq_iff (hstatus : r'.status = r.status) (hfilled : r'.filled = r.filled) :
    p.eventType r' = p.eventType r ↔ r.status = .str p.complete ∨ r'.reached = r.reached := by
  constructor
  · intro h
    have hfill : p.eventType r' = .fill ↔ p.eventType r = .fill := by rw [h]
    rw [eventType_eq_fill_iff, eventType_eq_fill_iff, hstatus] at hfill
    by_cases hcomplete : r.status = .str p.complete
    · exact .inl hcomplete
    · simp only [hcomplete, false_or] at hfill
      exact .inr (Bool.eq_iff_iff.mpr hfill)
  · rintro (hcomplete | hreached)
    · rw [eventType_eq_fill_iff.mpr (.inl (hstatus.trans hcomplete)), eventType_eq_fill_iff.mpr (.inl hcomplete)]
    · rw [eventType, eventType, hstatus, hfilled, hreached]

end Provider

/-- The three adapters read an update with a partial fill alike. -/
example : (angelOne.read [("orderid", .str "a1"), ("orderstatus", .str "OPEN"), ("filledquantity", .str " 3"),
    ("quantity", .str "1_0")]).toOption = some ⟨.str "open", .str "a1", 3, 10, .str ""⟩ := by decide +kernel

end AlphaAlgo.Broker
