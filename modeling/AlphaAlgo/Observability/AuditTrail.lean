import AlphaAlgo.Events.Secrets
import AlphaAlgo.Lib.JsonText
import AlphaAlgo.Lib.Runs
import AlphaAlgo.Lib.Sha256

/-!
# AuditTrail — what the hash of an audit trail covers

Calls of `InMemoryAuditRecorder.record` one after another, with keyword arguments of any value.  `record` takes `fields`
and seven named keywords out of its keyword arguments and nothing else; the hash of an event covers the hash before, the
event type, the timestamp and `fields`, as `json.dumps(.., sort_keys=True, default=str)` writes them.

* `lastHash_eq_iff`: two histories end in the same hash exactly when what is hashed of their events is the same.
* `tamperEvident_iff`: the trail shows every difference and keeps every keyword exactly where the differences are in what is
  hashed and no keyword is passed that `record` does not read.
-/

namespace AlphaAlgo.Observability

open Events (Items Payload)
open Runs

/-! ### Values -/

/-- A scalar other than a text; a float by the token that `json.dumps` writes. -/
inductive FieldScalar (τ : Type*) where
  | none
  | bool (b : Bool)
  | int (n : ℤ)
  | float (t : Token)
  | other (a : τ)

variable {τ : Type*}

/-- What `json.dumps` writes for a scalar: it has no form for other objects, and `default=str` gives their text. -/
def FieldScalar.written (str : τ → String) : FieldScalar τ → JsonText
  | none => .token .null
  | bool b => .token (.bool b)
  | int n => .token (.int n)
  | float t => .token t
  | other a => .str (str a)

mutual

def written (str : τ → String) : Payload (FieldScalar τ) → JsonText
  | .text s => .str s
  | .scalar a => a.written str
  | .dict items => .obj (writtenItems str items)
  | .list values => .arr (writtenAll str values)
  | .tuple values => .arr (writtenAll str values)

def writtenItems (str : τ → String) : Items (FieldScalar τ) → List (String × JsonText)
  | [] => []
  | (key, value) :: items => (key, written str value) :: writtenItems str items

def writtenAll (str : τ → String) : List (Payload (FieldScalar τ)) → List JsonText
  | [] => []
  | value :: values => written str value :: writtenAll str values

end

/-- The items of a dictionary in the order of their keys. -/
def byKey {σ : Type*} (items : Items σ) : Items σ := items.insertionSort fun item item' => item.1 ≤ item'.1

mutual

/-- The value with every dictionary in the order of its keys. -/
def sortedValue {σ : Type*} : Payload σ → Payload σ
  | .dict items => .dict (byKey (sortedItems items))
  | .list values => .list (sortedAll values)
  | .tuple values => .tuple (sortedAll values)
  | .text s => .text s
  | .scalar a => .scalar a

def sortedItems {σ : Type*} : Items σ → Items σ
  | [] => []
  | (key, value) :: items => (key, sortedValue value) :: sortedItems items

def sortedAll {σ : Type*} : List (Payload σ) → List (Payload σ)
  | [] => []
  | value :: values => sortedValue value :: sortedAll values

end

/-! ### Events -/

/-- The event type, the keyword arguments that `record` reads, and those that it does not. -/
structure RecordKwargs (τ : Type*) where
  eventType : String
  actor : Option String := none
  source : String := "system"
  status : String := "ok"
  reason : Option String := none
  correlationId : Option String := none
  traceId : Option String := none
  requestId : Option String := none
  fields : Items (FieldScalar τ) := []
  extra : Items (FieldScalar τ) := []

/-- A call with its reading of the clock and its `uuid4().hex`. -/
structure TrailCall (τ : Type*) where
  kwargs : RecordKwargs τ
  timestamp : Token
  id : String

structure TrailEvent (τ : Type*) where
  id : String
  eventType : String
  actor : Option String
  source : String
  status : String
  eventHash : String
  previousEventHash : Option String
  timestamp : Token
  reason : Option String
  correlationId : Option String
  traceId : Option String
  requestId : Option String
  fields : Items (FieldScalar τ)

structure AuditTrail (τ : Type*) where
  events : List (TrailEvent τ) := []
  lastHash : Option String := none

/-- The payload of `_hash_event`, keys sorted. -/
def hashPayload (str : τ → String) (previous : Option String) (eventType : String) (timestamp : Token)
    (fields : Items (FieldScalar τ)) : JsonText :=
  .obj [("event_type", .str eventType), ("fields", written str (sortedValue (.dict fields))),
    ("previous", .ofOption previous), ("timestamp", .token timestamp)]

/-- The text that a call hashes. -/
def TrailCall.canonical (str : τ → String) (c : TrailCall τ) (previous : Option String) : String :=
  String.ofList ((hashPayload str previous c.kwargs.eventType c.timestamp c.kwargs.fields).chars .default)

/-- The event of a call, which refers to the hash before it. -/
def TrailCall.event (str : τ → String) (c : TrailCall τ) (previous : Option String) : TrailEvent τ where
  id := c.id
  eventType := c.kwargs.eventType
  actor := c.kwargs.actor
  source := c.kwargs.source
  status := c.kwargs.status
  eventHash := sha256 (c.canonical str previous)
  previousEventHash := previous
  timestamp := c.timestamp
  reason := c.kwargs.reason
  correlationId := c.kwargs.correlationId
  traceId := c.kwargs.traceId
  requestId := c.kwargs.requestId
  fields := c.kwargs.fields

/-- `record`. -/
def AuditTrail.record (str : τ → String) (r : AuditTrail τ) (c : TrailCall τ) : AuditTrail τ :=
  let event := c.event str r.lastHash
  { events := r.events ++ [event], lastHash := some event.eventHash }

/-- The trail of a history. -/
def trail (str : τ → String) (history : List (TrailCall τ)) : AuditTrail τ := run (AuditTrail.record str) {} history

/-- The texts that a history hashes. -/
def hashedTexts (str : τ → String) (history : List (TrailCall τ)) : List String :=
  outputs (AuditTrail.record str) (fun r c => c.canonical str r.lastHash) {} history

/-- No text of one history has the hash of another text of the other. -/
def NoCollision (str : τ → String) (history history' : List (TrailCall τ)) : Prop :=
  ∀ s ∈ hashedTexts str history, ∀ s' ∈ hashedTexts str history', sha256 s = sha256 s' → s = s'

/-- What is hashed of a call: the event type, the timestamp and what is written for `fields`. -/
def TrailCall.hashed (str : τ → String) (c : TrailCall τ) : String × Token × JsonText :=
  (c.kwargs.eventType, c.timestamp, written str (sortedValue (.dict c.kwargs.fields)))

/-- The content of a call: dictionaries that differ in the order of their items are the same. -/
def RecordKwargs.content (kwargs : RecordKwargs τ) : RecordKwargs τ :=
  { kwargs with fields := byKey (sortedItems kwargs.fields), extra := byKey (sortedItems kwargs.extra) }

/-! ### The last hash -/

theorem ofOption_inj {o o' : Option String} (h : JsonText.ofOption o = JsonText.ofOption o') : o = o' := by
  cases o <;> cases o' <;> simp_all [JsonText.ofOption]

/-- A text says what is hashed. -/
theorem canonical_inj {str : τ → String} {c c' : TrailCall τ} {previous previous' : Option String} :
    c.canonical str previous = c'.canonical str previous' ↔ previous = previous' ∧ c.hashed str = c'.hashed str := by
  constructor
  · intro h
    have hpayload := JsonText.chars_inj (String.ofList_inj.mp h)
    simp only [hashPayload, JsonText.obj.injEq, List.cons.injEq, Prod.mk.injEq, JsonText.str.injEq,
      JsonText.token.injEq, true_and, and_true] at hpayload
    obtain ⟨htype, hfields, hprevious, htimestamp⟩ := hpayload
    refine ⟨ofOption_inj hprevious, ?_⟩
    rw [TrailCall.hashed, TrailCall.hashed, htype, hfields, htimestamp]
  · rintro ⟨rfl, h⟩
    simp only [TrailCall.hashed, Prod.mk.injEq] at h
    rw [TrailCall.canonical, TrailCall.canonical, hashPayload, hashPayload, h.1, h.2.1, h.2.2]

theorem trail_concat (str : τ → String) (history : List (TrailCall τ)) (c : TrailCall τ) :
    trail str (history ++ [c]) = (trail str history).record str c := run_concat _ _ _ _

/-- **Two histories end in the same hash** exactly when what is hashed of their events is the same. -/
theorem lastHash_eq_iff {str : τ → String} {history history' : List (TrailCall τ)}
    (hlength : history.length = history'.length) (hcol : NoCollision str history history') :
    (trail str history).lastHash = (trail str history').lastHash ↔
      history.map (TrailCall.hashed str) = history'.map (TrailCall.hashed str) := by
  induction history using List.reverseRecOn generalizing history' with
  | nil =>
    rw [List.eq_nil_of_length_eq_zero hlength.symm]
    exact iff_of_true rfl rfl
  | append_singleton history c ih =>
    obtain ⟨history', c', rfl⟩ : ∃ l d, history' = l ++ [d] := by
      have hne : history' ≠ [] := by
        rintro rfl
        simp at hlength
      exact ⟨_, _, (List.dropLast_append_getLast hne).symm⟩
    have hbefore : NoCollision str history history' := by
      intro s hs s' hs'
      refine hcol s ?_ s' ?_
      · rw [hashedTexts, outputs_concat]
        exact List.mem_append_left _ hs
      · rw [hashedTexts, outputs_concat]
        exact List.mem_append_left _ hs'
    have hlast : sha256 (c.canonical str (trail str history).lastHash) =
        sha256 (c'.canonical str (trail str history').lastHash) →
        c.canonical str (trail str history).lastHash = c'.canonical str (trail str history').lastHash := by
      refine hcol _ ?_ _ ?_
      · rw [hashedTexts, outputs_concat]
        exact List.mem_append_right _ (List.mem_singleton_self _)
      · rw [hashedTexts, outputs_concat]
        exact List.mem_append_right _ (List.mem_singleton_self _)
    have hih := ih (by simpa using hlength) hbefore
    rw [trail_concat, trail_concat, AuditTrail.record, AuditTrail.record, Option.some.injEq, TrailCall.event,
      TrailCall.event, List.map_append, List.map_append, List.map_singleton, List.map_singleton]
    constructor
    · intro h
      obtain ⟨hprevious, hhashed⟩ := canonical_inj.mp (hlast h)
      rw [hih.mp hprevious, hhashed]
    · intro h
      obtain ⟨hmaps, hhashed⟩ := List.append_inj' h rfl
      rw [canonical_inj.mpr ⟨hih.mpr hmaps, List.singleton_inj.mp hhashed⟩]

/-! ### Tampering -/

/-- The stored event has every keyword argument of the call. -/
structure Keeps (kwargs : RecordKwargs τ) (e : TrailEvent τ) : Prop where
  eventType : e.eventType = kwargs.eventType
  actor : e.actor = kwargs.actor
  source : e.source = kwargs.source
  status : e.status = kwargs.status
  reason : e.reason = kwargs.reason
  correlationId : e.correlationId = kwargs.correlationId
  traceId : e.traceId = kwargs.traceId
  requestId : e.requestId = kwargs.requestId
  fields : ∀ item ∈ kwargs.fields ++ kwargs.extra, item ∈ e.fields

/-- What an audit trail is for: a difference in content shows in the last hash, and events keep what was passed. -/
structure TamperEvident (str : τ → String) (history history' : List (TrailCall τ)) : Prop where
  differ : history.map (fun c => c.kwargs.content) ≠ history'.map (fun c => c.kwargs.content) →
    (trail str history).lastHash ≠ (trail str history').lastHash
  kept : ∀ l ∈ [history, history'], List.Forall₂ (fun c e => Keeps c.kwargs e) l (trail str l).events

theorem keeps_iff {str : τ → String} {c : TrailCall τ} {previous : Option String} :
    Keeps c.kwargs (c.event str previous) ↔ ∀ item ∈ c.kwargs.extra, item ∈ c.kwargs.fields := by
  constructor
  · exact fun h item hitem => h.fields item (List.mem_append_right _ hitem)
  · intro h
    refine ⟨rfl, rfl, rfl, rfl, rfl, rfl, rfl, rfl, fun item hitem => ?_⟩
    rcases List.mem_append.mp hitem with hitem | hitem
    · exact hitem
    · exact h item hitem

theorem events_run (str : τ → String) (r : AuditTrail τ) (history : List (TrailCall τ)) :
    (run (AuditTrail.record str) r history).events =
      r.events ++ outputs (AuditTrail.record str) (fun r c => c.event str r.lastHash) r history := by
  induction history generalizing r with
  | nil => rw [run_nil, outputs, List.append_nil]
  | cons c history ih => rw [run_cons, ih, outputs, AuditTrail.record, List.append_assoc, List.singleton_append]

/-- **The stored events keep the keywords** that `record` reads. -/
theorem forall₂_keeps_iff {str : τ → String} (history : List (TrailCall τ)) :
    List.Forall₂ (fun c e => Keeps c.kwargs e) history (trail str history).events ↔
      ∀ c ∈ history, ∀ item ∈ c.kwargs.extra, item ∈ c.kwargs.fields := by
  have hgeneral : ∀ (history : List (TrailCall τ)) (r : AuditTrail τ),
      List.Forall₂ (fun c e => Keeps c.kwargs e) history
        (outputs (AuditTrail.record str) (fun r c => c.event str r.lastHash) r history) ↔
      ∀ c ∈ history, ∀ item ∈ c.kwargs.extra, item ∈ c.kwargs.fields := by
    intro history
    induction history with
    | nil => exact fun r => iff_of_true .nil fun c hc => absurd hc List.not_mem_nil
    | cons c history ih =>
      intro r
      rw [outputs, List.forall₂_cons, keeps_iff, ih, List.forall_mem_cons]
  rw [trail, events_run]
  exact hgeneral history {}

/-- **Differences show and keywords are kept** exactly where they are in what `record` hashes and reads. -/
theorem tamperEvident_iff (str : τ → String) (history history' : List (TrailCall τ))
    (hlength : history.length = history'.length) (hcol : NoCollision str history history') :
    TamperEvident str history history' ↔
      (history.map (fun c => c.kwargs.content) = history'.map (fun c => c.kwargs.content) ∨
        history.map (TrailCall.hashed str) ≠ history'.map (TrailCall.hashed str)) ∧
      ∀ c ∈ history ++ history', ∀ item ∈ c.kwargs.extra, item ∈ c.kwargs.fields := by
  have hiff := lastHash_eq_iff hlength hcol
  constructor
  · rintro ⟨hdiffer, hkept⟩
    refine ⟨?_, ?_⟩
    · rw [Ne, ← hiff]
      by_cases heq : history.map (fun c => c.kwargs.content) = history'.map (fun c => c.kwargs.content)
      · exact .inl heq
      · exact .inr (hdiffer heq)
    · intro c hc
      rcases List.mem_append.mp hc with hc | hc
      · exact (forall₂_keeps_iff history).mp (hkept history List.mem_cons_self) c hc
      · exact (forall₂_keeps_iff history').mp (hkept history' (List.mem_cons_of_mem _ List.mem_cons_self)) c hc
  · rintro ⟨hshow, hextra⟩
    refine ⟨fun hne => ?_, ?_⟩
    · rw [Ne, hiff]
      exact hshow.resolve_left hne
    · intro l hl
      rw [forall₂_keeps_iff]
      intro c hc
      refine hextra c ?_
      rcases List.mem_pair.mp hl with rfl | rfl
      · exact List.mem_append_left _ hc
      · exact List.mem_append_right _ hc

theorem sampleTime_nonempty : "1.5".toList ≠ [] := by decide

theorem sampleTime_bare : ∀ c ∈ "1.5".toList, isBreak c = false := bare_of_all (by decide)

/-- A call at a fixed time. -/
def sampleTrailCall (eventType actor : String) : TrailCall Empty :=
  ⟨{ eventType := eventType, actor := some actor }, ⟨"1.5", sampleTime_nonempty, sampleTime_bare⟩, "a"⟩

theorem noCollision_single {str : τ → String} {c c' : TrailCall τ}
    (h : sha256 (c.canonical str none) = sha256 (c'.canonical str none) → c.canonical str none = c'.canonical str none) :
    NoCollision str [c] [c'] := by
  intro s hs s' hs'
  rw [List.mem_singleton.mp hs, List.mem_singleton.mp hs']
  exact h

/-- A day of two calls, the first of the given type. -/
def sampleTrail (eventType : String) : List (TrailCall Empty) :=
  [sampleTrailCall eventType "u1", sampleTrailCall "logout" "u1"]

/-- The hashes of the two days differ wherever their texts do. -/
theorem noCollision_sampleTrail : NoCollision Empty.elim (sampleTrail "order") (sampleTrail "cancel") := by
  unfold NoCollision
  decide +kernel

/-- Different event types show in the hash of the call after them. -/
theorem tamperEvident_types : TamperEvident Empty.elim (sampleTrail "order") (sampleTrail "cancel") := by
  refine (tamperEvident_iff Empty.elim (sampleTrail "order") (sampleTrail "cancel") rfl noCollision_sampleTrail).mpr
    ⟨.inr ?_, ?_⟩
  · intro h
    have htypes := congrArg (List.map Prod.fst) h
    exact absurd htypes (by decide)
  · intro c hc item hitem
    simp only [sampleTrail, List.mem_append, List.mem_cons, List.not_mem_nil, or_false] at hc
    rcases hc with (rfl | rfl) | rfl | rfl <;> exact absurd hitem List.not_mem_nil

/-- Different actors do not show in the hash. -/
theorem not_tamperEvident : ∃ history history' : List (TrailCall Empty), history.length = history'.length ∧
    NoCollision Empty.elim history history' ∧ ¬ TamperEvident Empty.elim history history' := by
  refine ⟨[sampleTrailCall "login" "u1"], [sampleTrailCall "login" "u2"], rfl, noCollision_single fun _ => rfl, ?_⟩
  intro h
  refine h.differ ?_ rfl
  intro hcontent
  have hactor := congrArg RecordKwargs.actor (List.singleton_inj.mp hcontent)
  exact absurd hactor (by decide)

end AlphaAlgo.Observability
