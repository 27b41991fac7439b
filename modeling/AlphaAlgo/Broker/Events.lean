import AlphaAlgo.Lib.Decimal
import AlphaAlgo.Lib.Json
import AlphaAlgo.Lib.Sha256
import AlphaAlgo.Base.Values

/-!
# Events — normalized broker events and their deduplication

An event is known by its identity: the order and the provider's source id when there is one, a hash of four fields
otherwise.  `EventDeduplicator.apply` keeps the hash of the content of the first event of each identity; the same content
again is dropped, other content raises.

* `apply_unseen`, `apply_seen`: what `apply` does.
* `contentText_inj`: the hashed text determines the content.
-/

namespace AlphaAlgo.Broker

inductive BrokerEventType where
  | orderUpdate
  | trade
  | fill
  | partialFill
  | cancelled
  | rejected
  | unknown
deriving DecidableEq, Repr

def BrokerEventType.value : BrokerEventType → String
  | orderUpdate => "ORDER_UPDATE"
  | trade => "TRADE"
  | fill => "FILL"
  | partialFill => "PARTIAL_FILL"
  | cancelled => "CANCELLED"
  | rejected => "REJECTED"
  | unknown => "UNKNOWN"

theorem BrokerEventType.value_inj {t t' : BrokerEventType} (h : t.value = t'.value) : t = t' := by
  revert h
  cases t <;> cases t' <;> decide

/-- The reason is what the provider sent, which need not be text. -/
structure NormalizedBrokerEvent where
  orderId : UUID
  eventType : BrokerEventType
  brokerOrderId : Option String
  fillQuantity : Dec
  occurredAt : DateTime
  reason : Scalar := .str ""
  sourceEventId : Option String := none
deriving DecidableEq

/-! ### Identity and content -/

/-- A scalar in JSON. -/
def scalarJson : Scalar → Json
  | .none => .null
  | .bool b => .bool b
  | .int n => .int n
  | .str s => .str s

namespace NormalizedBrokerEvent

/-- The hashed fields of an event without a source id, keys sorted. -/
def identityJson (e : NormalizedBrokerEvent) : Json :=
  .obj [("broker_order_id", .ofOption e.brokerOrderId), ("fill_quantity", .str e.fillQuantity.str),
    ("order_id", .str e.orderId.str), ("type", .str e.eventType.value)]

/-- The hashed content, keys sorted. -/
def contentJson (e : NormalizedBrokerEvent) : Json :=
  .obj [("broker_order_id", .ofOption e.brokerOrderId), ("fill_quantity", .str e.fillQuantity.str),
    ("reason", scalarJson e.reason), ("type", .str e.eventType.value)]

def contentText (e : NormalizedBrokerEvent) : String := e.contentJson.dumps .default

/-- `_content_hash`. -/
def contentHash (e : NormalizedBrokerEvent) : String := sha256 e.contentText

end NormalizedBrokerEvent

def computeEventIdentity (e : NormalizedBrokerEvent) : String :=
  match e.sourceEventId.filter (· ≠ "") with
  | some source => e.orderId.str ++ ":" ++ source
  | none => sha256 (e.identityJson.dumps .default)

/-! ### The deduplicator -/

/-- `DuplicateEventError`: the identity was used with other content. -/
inductive DedupError where
  | duplicateEvent (identity : String)
deriving DecidableEq

/-- `_seen`: the content hash of each identity. -/
structure EventDeduplicator where
  seen : String → Option String := fun _ => none

namespace EventDeduplicator

variable {d : EventDeduplicator} {e : NormalizedBrokerEvent}

/-- The content of an event is recorded. -/
def record (d : EventDeduplicator) (e : NormalizedBrokerEvent) : EventDeduplicator :=
  ⟨Function.update d.seen (computeEventIdentity e) (some e.contentHash)⟩

/-- Whether the event is new, and the deduplicator afterwards. -/
def apply (d : EventDeduplicator) (e : NormalizedBrokerEvent) : Except DedupError (Bool × EventDeduplicator) :=
  match d.seen (computeEventIdentity e) with
  | some existing =>
    if existing ≠ e.contentHash then .error (.duplicateEvent (computeEventIdentity e)) else .ok (false, d)
  | none => .ok (true, d.record e)

theorem apply_unseen (h : d.seen (computeEventIdentity e) = none) : d.apply e = .ok (true, d.record e) := by
  rw [apply, h]

theorem apply_seen {hash : String} (h : d.seen (computeEventIdentity e) = some hash) :
    d.apply e = if hash ≠ e.contentHash then .error (.duplicateEvent (computeEventIdentity e)) else .ok (false, d) := by
  rw [apply, h]

@[simp] theorem seen_record (d : EventDeduplicator) (e : NormalizedBrokerEvent) :
    (d.record e).seen (computeEventIdentity e) = some e.contentHash := Function.update_self ..

end EventDeduplicator

/-! ### The hashed text -/

theorem comma_toList : Separators.default.item.toList = [',', ' '] := by decide

/-- A written integer begins with a digit or a minus sign. -/
theorem int_head (n : ℤ) : ∃ c l, (toString n).toList = c :: l ∧ (c = '-' ∨ c.isDigit = true) := by
  rcases toString_int n with ⟨m, -, htext⟩ | ⟨m, -, htext⟩
  · cases hrepr : (Nat.repr m).toList with
    | nil => exact absurd hrepr (by simp [Nat.repr, Nat.toDigits_ne_nil])
    | cons c l =>
      have hmem : c ∈ (Nat.repr m).toList := by
        rw [hrepr]
        exact List.mem_cons_self
      exact ⟨c, l, htext.trans hrepr, .inr (isDigit_of_mem_repr hmem)⟩
  · exact ⟨_, _, htext, .inl rfl⟩

theorem null_chars : (scalarJson .none).chars .default = ['n', 'u', 'l', 'l'] := by decide

theorem true_chars : (scalarJson (.bool true)).chars .default = ['t', 'r', 'u', 'e'] := by decide

theorem false_chars : (scalarJson (.bool false)).chars .default = ['f', 'a', 'l', 's', 'e'] := by decide

theorem int_chars (n : ℤ) : (scalarJson (.int n)).chars .default = (toString n).toList := by
  rw [scalarJson, Json.chars]

theorem str_chars (s : String) : (scalarJson (.str s)).chars .default = quote s := by
  rw [scalarJson, Json.chars]

/-- Which kind of scalar begins with a character. -/
def kindOf (c : Char) : ℕ := if c = 'n' then 0 else if c = 't' then 1 else if c = 'f' then 2 else if c = '"' then 3 else 4

/-- The kinds of scalars, the two truth values apart. -/
def scalarKind : Scalar → ℕ
  | .none => 0
  | .bool b => if b = true then 1 else 2
  | .str _ => 3
  | .int _ => 4

theorem kindOf_digit {c : Char} (h : c = '-' ∨ c.isDigit = true) : kindOf c = 4 := by
  have hne : ∀ d : Char, d ≠ '-' → d.isDigit = false → c ≠ d := by
    rintro d hdash hdigit rfl
    rcases h with h | h
    · exact hdash h
    · rw [hdigit] at h
      cases h
  rw [kindOf, if_neg (hne _ (by decide) (by decide)), if_neg (hne _ (by decide) (by decide)),
    if_neg (hne _ (by decide) (by decide)), if_neg (hne _ (by decide) (by decide))]

theorem head_chars (a : Scalar) : ∃ c l, (scalarJson a).chars .default = c :: l ∧ kindOf c = scalarKind a := by
  cases a with
  | none => exact ⟨_, _, null_chars, rfl⟩
  | int n =>
    obtain ⟨c, l, htext, hc⟩ := int_head n
    exact ⟨c, l, (int_chars n).trans htext, kindOf_digit hc⟩
  | str s => exact ⟨_, _, str_chars s, rfl⟩
  | bool b =>
    cases b with
    | false => exact ⟨_, _, false_chars, rfl⟩
    | true => exact ⟨_, _, true_chars, rfl⟩

/-- A scalar before a comma is uniquely readable. -/
theorem scalar_append_inj {a b : Scalar} {r r' : List Char}
    (h : (scalarJson a).chars .default ++ ',' :: r = (scalarJson b).chars .default ++ ',' :: r') : a = b ∧ r = r' := by
  have hkind : scalarKind a = scalarKind b := by
    obtain ⟨c, l, hc, hcKind⟩ := head_chars a
    obtain ⟨c', l', hc', hcKind'⟩ := head_chars b
    rw [hc, hc'] at h
    rw [← hcKind, ← hcKind', (List.cons.inj h).1]
  cases a with
  | none =>
    have hb : b = .none := by
      cases b with
      | none => rfl
      | bool y => cases y <;> simp [scalarKind] at hkind
      | str t | int m => simp [scalarKind] at hkind
    subst hb
    exact ⟨rfl, by simpa using h⟩
  | bool x =>
    have hb : b = .bool x := by
      cases b with
      | bool y => cases x <;> cases y <;> simp [scalarKind] at hkind <;> rfl
      | none | str t | int m => cases x <;> simp [scalarKind] at hkind
    subst hb
    exact ⟨rfl, by simpa using h⟩
  | str s =>
    cases b with
    | none | int m => simp [scalarKind] at hkind
    | bool y => cases y <;> simp [scalarKind] at hkind
    | str t =>
      rw [str_chars, str_chars] at h
      obtain ⟨htext, hrest⟩ := quote_append_inj h
      exact ⟨congrArg Scalar.str htext, (List.cons.inj hrest).2⟩
  | int n =>
    cases b with
    | none | str t => simp [scalarKind] at hkind
    | bool y => cases y <;> simp [scalarKind] at hkind
    | int m =>
      rw [int_chars, int_chars] at h
      obtain ⟨htext, hrest⟩ := append_cons_inj (comma_notMem_toString n) (comma_notMem_toString m) h
      exact ⟨congrArg Scalar.int (toString_int_inj htext), hrest⟩

/-- The hashed text determines the content. -/
theorem contentText_inj {e e' : NormalizedBrokerEvent} (h : e.contentText = e'.contentText) :
    e.eventType = e'.eventType ∧ e.reason = e'.reason := by
  unfold NormalizedBrokerEvent.contentText Json.dumps at h
  rw [String.ofList_inj] at h
  simp only [NormalizedBrokerEvent.contentJson, Json.chars, Json.fields, if_true, List.nil_append, List.append_assoc,
    Bool.false_eq_true, if_false, List.cons_append, List.cons.injEq, true_and] at h
  have hbroker := List.append_cancel_left (List.append_cancel_left h)
  obtain ⟨-, hfill⟩ := ofOption_append_inj .default hbroker
  obtain ⟨-, hreason⟩ := quote_append_inj (List.append_cancel_left (List.append_cancel_left (List.append_cancel_left hfill)))
  have hreason := List.append_cancel_left (List.append_cancel_left (List.append_cancel_left hreason))
  rw [comma_toList] at hreason
  obtain ⟨hreason, htype⟩ := scalar_append_inj hreason
  have htype := List.append_cancel_left (List.append_cancel_left (List.append_cancel_left (List.cons.inj htype).2))
  exact ⟨BrokerEventType.value_inj (quote_append_inj htype).1, hreason⟩

end AlphaAlgo.Broker
