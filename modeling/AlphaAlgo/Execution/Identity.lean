import AlphaAlgo.Lib.Sha256
import AlphaAlgo.Execution.Events

/-!
# Identity — the identity and the content hash of an execution event

`computeEventIdentity` is the key under which an event is stored: the broker's event id when there is one, a hash
over four fields otherwise.  `IdFields` names the fields that enter the identity, and
`computeEventIdentity_eq_iff` says that, up to hash collisions, they are what the identity knows of an event.
-/

namespace AlphaAlgo.Execution

/-- `metadata.get(key)`, `None` when the value counts as false. -/
def truthyEntry (metadata : List (String × Scalar)) (key : String) : Option Scalar :=
  (metadata.lookup key).filter Scalar.truthy

/-- `metadata.get("source_event_id") or metadata.get("broker_event_id")`, when it is not false. -/
def eventSource (e : EventFields) : Option String :=
  ((truthyEntry e.metadata "source_event_id").or (truthyEntry e.metadata "broker_event_id")).map Scalar.text

/-- The hashed fields of an event without an id, keys sorted. -/
def identityJson (e : EventFields) : Json :=
  .obj [("broker_order_id", .ofOption e.brokerOrderId), ("fill_quantity", .str e.fillQuantity.str),
    ("order_id", .str e.orderId.str), ("type", .str e.eventType.value)]

def identityText (e : EventFields) : String := (identityJson e).dumps .default

def computeEventIdentity (e : EventFields) : String :=
  match eventSource e with
  | some source => e.orderId.str ++ ":" ++ source
  | none => sha256 (identityText e)

/-- The hashed content of an event, keys sorted. -/
def contentJson (e : EventFields) : Json :=
  .obj [("broker_order_id", .ofOption e.brokerOrderId), ("fill_quantity", .str e.fillQuantity.str),
    ("reason", .str e.reason), ("type", .str e.eventType.value)]

def contentText (e : EventFields) : String := (contentJson e).dumps .default

def eventContentHash (e : EventFields) : String := sha256 (contentText e)

/-! ### What the identity knows of an event -/

/-- The fields that enter the identity: the broker's event id, or event type, broker order id and the text of the
quantity. -/
inductive IdFields where
  | source (id : String)
  | derived (eventType : OrderEventType) (brokerOrderId : Option String) (fillText : String)
deriving DecidableEq, Repr

def idFields (e : EventFields) : IdFields :=
  match eventSource e with
  | some source => .source source
  | none => .derived e.eventType e.brokerOrderId e.fillQuantity.str

theorem OrderEventType.value_inj {t t' : OrderEventType} (h : t.value = t'.value) : t = t' := by
  revert h
  cases t <;> cases t' <;> decide

/-- The text of the hashed fields determines them. -/
theorem identityText_inj {e e' : EventFields} (h : identityText e = identityText e') :
    e.brokerOrderId = e'.brokerOrderId ∧ e.fillQuantity.str = e'.fillQuantity.str ∧
      e.eventType = e'.eventType := by
  unfold identityText Json.dumps at h
  rw [String.ofList_inj] at h
  simp only [identityJson, Json.chars, Json.fields, if_true, List.nil_append, List.append_assoc,
    Bool.false_eq_true, if_false, List.cons_append, List.cons.injEq, true_and] at h
  have h1 := List.append_cancel_left (List.append_cancel_left h)
  obtain ⟨hb, h2⟩ := ofOption_append_inj .default h1
  have h3 := List.append_cancel_left (List.append_cancel_left (List.append_cancel_left h2))
  obtain ⟨hf, h4⟩ := quote_append_inj h3
  have h5 := List.append_cancel_left (List.append_cancel_left (List.append_cancel_left h4))
  obtain ⟨-, h6⟩ := quote_append_inj h5
  have h7 := List.append_cancel_left (List.append_cancel_left (List.append_cancel_left h6))
  obtain ⟨ht, -⟩ := quote_append_inj h7
  exact ⟨hb, hf, OrderEventType.value_inj ht⟩

/-- **The identity of an event of one order is its `idFields`**, up to collisions of the hash on the two
events; a digest has no colon. -/
theorem computeEventIdentity_eq_iff {e e' : EventFields}
    (ho : e.orderId = e'.orderId)
    (hcol : sha256 (identityText e) = sha256 (identityText e') → identityText e = identityText e') :
    computeEventIdentity e = computeEventIdentity e' ↔ idFields e = idFields e' := by
  have hcolon : ∀ (o : UUID) (src text : String), o.str ++ ":" ++ src ≠ sha256 text := by
    intro o src text h
    refine colon_notMem_sha256 text ?_
    rw [← h]
    simp
  unfold computeEventIdentity idFields
  cases hs : eventSource e with
  | some src =>
    cases hs' : eventSource e' with
    | some src' =>
      simp only [IdFields.source.injEq]
      rw [ho]
      constructor
      · intro h
        have := String.toList_inj.mpr h
        simp only [String.toList_append, List.append_assoc, List.append_cancel_left_eq] at this
        exact String.toList_inj.mp this
      · rintro rfl; rfl
    | none => simp only [reduceCtorEq, iff_false]; exact hcolon _ _ _
  | none =>
    cases hs' : eventSource e' with
    | some src' => simp only [reduceCtorEq, iff_false]; exact (hcolon _ _ _).symm
    | none =>
      simp only [IdFields.derived.injEq]
      constructor
      · intro h
        obtain ⟨h1, h2, h3⟩ := identityText_inj (hcol h)
        exact ⟨h3, h1, h2⟩
      · rintro ⟨h1, h2, h3⟩
        rw [identityText, identityText, identityJson, identityJson, h1, h2, h3, ho]

end AlphaAlgo.Execution
