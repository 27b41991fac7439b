import AlphaAlgo.Execution.Engine

/-!
# Stream — broker events delivered, and delivered again, to one order

A `Delivery` is an event together with the broker event that it reports: the engine does not see the second part,
the property is about it.  `track` delivers events and keeps the saved deliveries.

* `ExactlyOnce`: a broker event that has not been saved is not taken for a replay, one that has been saved is not
  saved again, and what is saved is counted.
* `exactly_once`: this holds of the runs in which the identity fields recognise the broker events.
-/

namespace AlphaAlgo.Execution

open Runs

structure Delivery where
  brokerEvent : ℕ
  event : BrokerOrderEvent

/-- The database and the deliveries saved so far. -/
structure Tracked where
  db : OrderDb
  saved : List Delivery

def track (t : Tracked) (d : Delivery) : Tracked where
  db := deliver t.db d.event
  saved := if outcome t.db d.event = .saved then d :: t.saved else t.saved

/-- A delivery of the same broker event has been saved. -/
def SavedBefore (t : Tracked) (d : Delivery) : Prop := ∃ d' ∈ t.saved, d'.brokerEvent = d.brokerEvent

instance (t : Tracked) (d : Delivery) : Decidable (SavedBefore t d) := by
  unfold SavedBefore; exact inferInstance

/-- What a delivery should do. -/
structure OnceStep (t : Tracked) (d : Delivery) : Prop where
  processed : ¬ SavedBefore t d → outcome t.db d.event ≠ .replayed ∧ outcome t.db d.event ≠ .replayRefused
  once : SavedBefore t d → outcome t.db d.event ≠ .saved
  counted : outcome t.db d.event = .saved →
    (filledOf (deliver t.db d.event) d.event.orderId : ℚ) =
      filledOf t.db d.event.orderId + d.event.fillQuantity.val

instance (t : Tracked) (d : Delivery) : Decidable (OnceStep t d) :=
  decidable_of_iff _ ⟨fun h : _ ∧ _ ∧ _ => OnceStep.mk h.1 h.2.1 h.2.2, fun h => ⟨h.processed, h.once, h.counted⟩⟩

def ExactlyOnce (db : OrderDb) (stream : List Delivery) : Prop := Along track OnceStep ⟨db, []⟩ stream

/-! ### Streams -/

/-- Two events that report the same: only the written form of the quantity, instant and reason may differ. -/
def SameReport (e e' : BrokerOrderEvent) : Prop :=
  e.eventType = e'.eventType ∧ eventSource e.toEventFields = eventSource e'.toEventFields ∧
    e.brokerOrderId = e'.brokerOrderId ∧ e.fillQuantity.val = e'.fillQuantity.val

instance (e e' : BrokerOrderEvent) : Decidable (SameReport e e') := inferInstanceAs (Decidable (_ ∧ _ ∧ _ ∧ _))

/-- A stream of deliveries to one order, of which nothing is stored. -/
structure StreamOf (o : UUID) (db : OrderDb) (stream : List Delivery) : Prop where
  order : ∀ d ∈ stream, d.event.orderId = o
  unseen : ∀ d ∈ stream, hasEvent db (computeEventIdentity d.event.toEventFields) = false
  report : ∀ d ∈ stream, ∀ d' ∈ stream, d.brokerEvent = d'.brokerEvent → SameReport d.event d'.event

instance (o : UUID) (db : OrderDb) (stream : List Delivery) : Decidable (StreamOf o db stream) :=
  decidable_of_iff _ ⟨fun h : _ ∧ _ ∧ _ => StreamOf.mk h.1 h.2.1 h.2.2, fun h => ⟨h.order, h.unseen, h.report⟩⟩

/-- No collision of the hash among the identities of the stream. -/
def CollisionFree (stream : List Delivery) : Prop :=
  ∀ d ∈ stream, ∀ d' ∈ stream,
    sha256 (identityText d.event.toEventFields) = sha256 (identityText d'.event.toEventFields) →
      identityText d.event.toEventFields = identityText d'.event.toEventFields

/-- The condition on a delivery: the identity fields tell whether its broker event has been saved, and a fill that
is saved is whole. -/
structure Recognized (t : Tracked) (d : Delivery) : Prop where
  fields : SavedBefore t d ↔ ∃ d' ∈ t.saved, idFields d'.event.toEventFields = idFields d.event.toEventFields
  whole : outcome t.db d.event = .saved → WholeFill d.event

instance (t : Tracked) (d : Delivery) : Decidable (Recognized t d) :=
  decidable_of_iff _ ⟨fun h : _ ∧ _ => Recognized.mk h.1 h.2, fun h => ⟨h.fields, h.whole⟩⟩

instance (db : OrderDb) (stream : List Delivery) : Decidable (ExactlyOnce db stream) :=
  inferInstanceAs (Decidable (Along _ _ _ _))

/-! ### The stored identities along a run -/

/-- A replay is an event whose identity is stored. -/
theorem outcome_of_hasEvent {db : OrderDb} {e : BrokerOrderEvent}
    (h : hasEvent db (computeEventIdentity e.toEventFields) = true) :
    outcome db e = .replayed ∨ outcome db e = .replayRefused := by
  unfold outcome
  rw [h]
  cases applyEvent db e <;> simp

theorem outcome_of_not_hasEvent {db : OrderDb} {e : BrokerOrderEvent}
    (h : hasEvent db (computeEventIdentity e.toEventFields) = false) :
    outcome db e ≠ .replayed ∧ outcome db e ≠ .replayRefused := by
  unfold outcome
  rw [h]
  cases applyEvent db e <;> simp

/-- A saved event adds its identity. -/
theorem hasEvent_deliver {db : OrderDb} {e : BrokerOrderEvent} (h : outcome db e = .saved) (k : String) :
    hasEvent (deliver db e) k = true ↔ computeEventIdentity e.toEventFields = k ∨ hasEvent db k = true := by
  obtain ⟨s, next, -, -, hsave⟩ := outcome_saved h
  obtain ⟨-, -, -, -, -, -, hins⟩ := saveEvent_ok hsave
  unfold hasEvent
  rw [Table.get_of_insert hins k]
  by_cases hk : computeEventIdentity e.toEventFields = k <;> simp [savedEvent, hk]

/-- The identities stored since the start are those of the saved deliveries, which are of the stream. -/
structure TrackInv (db : OrderDb) (stream : List Delivery) (t : Tracked) : Prop where
  stored : ∀ k, hasEvent t.db k = true ↔
    hasEvent db k = true ∨ ∃ d ∈ t.saved, computeEventIdentity d.event.toEventFields = k
  saved : ∀ d ∈ t.saved, d ∈ stream

theorem TrackInv.track {db : OrderDb} {stream : List Delivery} {t : Tracked} {d : Delivery}
    (hI : TrackInv db stream t) (hd : d ∈ stream) : TrackInv db stream (track t d) := by
  unfold Execution.track
  by_cases hs : outcome t.db d.event = .saved
  · rw [if_pos hs]
    refine ⟨fun k => ?_, fun d' hd' => ?_⟩
    · rw [hasEvent_deliver hs, hI.stored]
      simp only [List.mem_cons, exists_eq_or_imp]
      tauto
    · rcases List.mem_cons.mp hd' with rfl | hd'
      · exact hd
      · exact hI.saved d' hd'
  · rw [if_neg hs, deliver_of_not_saved hs]
    exact hI

/-- In a stream of one order the identity of a delivery is stored exactly when its identity fields were saved. -/
theorem TrackInv.hasEvent_iff {o : UUID} {db : OrderDb} {stream : List Delivery} {t : Tracked} {d : Delivery}
    (hI : TrackInv db stream t) (hst : StreamOf o db stream) (hcol : CollisionFree stream) (hd : d ∈ stream) :
    hasEvent t.db (computeEventIdentity d.event.toEventFields) = true ↔
      ∃ d' ∈ t.saved, idFields d'.event.toEventFields = idFields d.event.toEventFields := by
  rw [hI.stored, hst.unseen d hd]
  simp only [Bool.false_eq_true, false_or]
  refine exists_congr fun d' => and_congr_right fun hd' => ?_
  have hd's := hI.saved d' hd'
  exact computeEventIdentity_eq_iff ((hst.order d' hd's).trans (hst.order d hd).symm) (hcol d' hd's d hd)

/-- One recognised delivery. -/
theorem TrackInv.onceStep {o : UUID} {db : OrderDb} {stream : List Delivery} {t : Tracked} {d : Delivery}
    (hI : TrackInv db stream t) (hst : StreamOf o db stream) (hcol : CollisionFree stream) (hd : d ∈ stream)
    (hr : Recognized t d) : OnceStep t d := by
  have hiff := hr.fields.trans (hI.hasEvent_iff hst hcol hd).symm
  refine ⟨fun hn => ?_, fun hy => ?_, fun hs => filledOf_deliver (hr.whole hs) hs⟩
  · exact outcome_of_not_hasEvent (by simpa using mt hiff.mpr hn)
  · rcases outcome_of_hasEvent (hiff.mp hy) with h | h <;> rw [h] <;> decide

/-- **Exactly once**: on every stream of one order whose broker events are recognised by their identity fields,
distinct broker events are processed, redeliveries are not counted again, and saved fills are counted in full. -/
theorem exactly_once {o : UUID} {db : OrderDb} {stream : List Delivery} (hst : StreamOf o db stream)
    (hcol : CollisionFree stream) (hr : Along track Recognized ⟨db, []⟩ stream) : ExactlyOnce db stream := by
  have key : ∀ (l : List Delivery) (t : Tracked), (∀ d ∈ l, d ∈ stream) → TrackInv db stream t →
      Along track Recognized t l → Along track OnceStep t l := by
    intro l
    induction l with
    | nil => intro t _ _ _; trivial
    | cons d l ih =>
      intro t hl hI hr
      have hd := hl d (by simp)
      exact ⟨hI.onceStep hst hcol hd hr.1, ih _ (fun d' hd' => hl d' (by simp [hd'])) (hI.track hd) hr.2⟩
  exact key stream ⟨db, []⟩ (fun _ h => h) ⟨fun k => by simp, fun d hd => absurd hd (by simp)⟩ hr

theorem collisionFree_partialFill30 (stream : List (ℕ × List (String × Scalar))) :
    CollisionFree (stream.map fun p => ⟨p.1, partialFill30 p.2⟩) := by
  intro d hd d' hd' _
  obtain ⟨p, -, rfl⟩ := List.mem_map.mp hd
  obtain ⟨p', -, rfl⟩ := List.mem_map.mp hd'
  rfl

theorem exactly_once_redelivered : ExactlyOnce acknowledgedDb
    [⟨0, partialFill30 (sourceId "f1")⟩, ⟨1, partialFill30 (sourceId "f2")⟩, ⟨0, partialFill30 (sourceId "f1")⟩] :=
  exactly_once (o := ⟨1⟩) (by decide +kernel)
    (collisionFree_partialFill30 [(0, sourceId "f1"), (1, sourceId "f2"), (0, sourceId "f1")]) (by decide +kernel)

/-- Two fills of 30 without an event id have one identity: the second is dropped as a replay. -/
theorem not_exactlyOnce_equal_fills : ¬ ∀ (o : UUID) (db : OrderDb) (stream : List Delivery),
    StreamOf o db stream → CollisionFree stream → ExactlyOnce db stream := by
  intro h
  have hs := h ⟨1⟩ acknowledgedDb [⟨0, partialFill30 []⟩, ⟨1, partialFill30 []⟩] (by decide +kernel)
    (collisionFree_partialFill30 [(0, []), (1, [])])
  have hsaved : outcome acknowledgedDb (partialFill30 []) = .saved := by decide +kernel
  have hnew : ¬ SavedBefore (track ⟨acknowledgedDb, []⟩ ⟨0, partialFill30 []⟩) ⟨1, partialFill30 []⟩ := by
    unfold SavedBefore track
    rw [hsaved]
    decide
  obtain ⟨h1, h2⟩ := hs.2.1.processed hnew
  rcases outcome_of_hasEvent ((hasEvent_deliver hsaved _).mpr (Or.inl rfl)) with h | h
  · exact h1 h
  · exact h2 h

end AlphaAlgo.Execution
