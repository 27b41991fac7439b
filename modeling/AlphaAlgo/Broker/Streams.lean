import AlphaAlgo.Broker.Updates

/-!
# Streams — the updates of one order through an adapter and the deduplicator

The source id of an event is the order id, so all updates of an order have one identity while the injected resolver knows
the order by one id: the first is accepted, a later one is dropped when its content is that of the first and raises
otherwise.  The resolver is asked at every update.

* `receiveAll_cons`: what becomes of the updates of an order.
* `hash_eq_iff`: when two updates have one content hash.
* `exactlyOnce_iff`: which streams are counted exactly once, where the answers of the resolver agree.
-/

namespace AlphaAlgo.Broker

/-- An update of an order: the adapter reads it, and the filled quantity is not negative.  `resolver` is the resolver as it
answers at this update. -/
structure OrderUpdate (p : Provider) (brokerOrderId : String) where
  receivedAt : DateTime
  resolver : Option (String → Option UUID) := none
  raw : RawUpdate
  reading : Reading
  readable : p.read raw = .ok reading
  order : reading.brokerOrderId = some brokerOrderId
  filled_nonneg : 0 ≤ reading.filled

/-- What becomes of an update. -/
inductive Received where
  | unreadable (e : ReadError)
  | new (event : NormalizedBrokerEvent)
  | duplicate
  | conflict (e : DedupError)
deriving DecidableEq

/-- The event of an update that is accepted. -/
def Received.event : Received → Option NormalizedBrokerEvent
  | new event => some event
  | _ => none

namespace Adapter

/-- An update is parsed and applied; where one of the two raises, the deduplicator stays as it is. -/
def receive (a : Adapter) (d : EventDeduplicator) (now : DateTime) (raw : RawUpdate) : Received × EventDeduplicator :=
  match a.parseEvent now raw with
  | .error e => (.unreadable e, d)
  | .ok event =>
    match d.apply event with
    | .error e => (.conflict e, d)
    | .ok (true, d) => (.new event, d)
    | .ok (false, d) => (.duplicate, d)

end Adapter

namespace OrderUpdate

variable {p : Provider} {brokerOrderId : String}

/-- The adapter at this update. -/
def adapter (u : OrderUpdate p brokerOrderId) : Adapter := ⟨p, u.resolver⟩

/-- The id of the order, as the resolver gives it at this update. -/
def orderId (u : OrderUpdate p brokerOrderId) : UUID := u.adapter.orderIdFor brokerOrderId

/-- The event of an update. -/
def event (u : OrderUpdate p brokerOrderId) : NormalizedBrokerEvent := u.adapter.eventOf u.receivedAt u.reading

end OrderUpdate

/-- What becomes of each update of a stream. -/
def receiveAll {p : Provider} {brokerOrderId : String} :
    EventDeduplicator → List (OrderUpdate p brokerOrderId) → List Received
  | _, [] => []
  | d, u :: us =>
    (u.adapter.receive d u.receivedAt u.raw).1 :: receiveAll (u.adapter.receive d u.receivedAt u.raw).2 us

/-- The identity of the updates of an order. -/
def identityOf (orderId : UUID) (brokerOrderId : String) : String := orderId.str ++ ":" ++ brokerOrderId

/-- The resolver gives the same id at every update. -/
def Steady {p : Provider} {brokerOrderId : String} (orderId : UUID) (stream : List (OrderUpdate p brokerOrderId)) : Prop :=
  ∀ u ∈ stream, u.orderId = orderId

/-- The cumulative filled quantity after a stream. -/
def lastFilled {p : Provider} {brokerOrderId : String} (stream : List (OrderUpdate p brokerOrderId)) : ℤ :=
  (stream.getLast?.map fun u => u.reading.filled).getD 0

/-- The quantity that the fills and partial fills among the accepted events carry. -/
def countedQuantity (outcomes : List Received) : ℚ :=
  (((outcomes.filterMap Received.event).filter (·.eventType.isFill)).map fun e => e.fillQuantity.val).sum

/-- Each update of a stream is counted exactly once: none raises, an exact redelivery is dropped, one with a new status
or filled quantity is accepted, and the accepted fills carry the cumulative quantity. -/
structure ExactlyOnce {p : Provider} {brokerOrderId : String} (d : EventDeduplicator)
    (stream : List (OrderUpdate p brokerOrderId)) : Prop where
  never_raises : ∀ e, .conflict e ∉ receiveAll d stream
  redelivered_dropped : ∀ i u o, stream[i]? = some u → (receiveAll d stream)[i]? = some o →
    (∃ v ∈ stream.take i, v.raw = u.raw) → o = .duplicate
  new_accepted : ∀ i u o, stream[i]? = some u → (receiveAll d stream)[i]? = some o →
    (∀ v ∈ stream.take i, v.reading.status ≠ u.reading.status ∨ v.reading.filled ≠ u.reading.filled) →
      ∃ event, o = .new event
  counted : countedQuantity (receiveAll d stream) = lastFilled stream

/-! ### What becomes of a stream -/

section Stream

variable {p : Provider} {brokerOrderId : String} {d : EventDeduplicator} {orderId : UUID}
  {first u : OrderUpdate p brokerOrderId} {us : List (OrderUpdate p brokerOrderId)}

theorem truthy_text {s : Scalar} (h : s.truthy = true) : s.text ≠ "" := by
  cases s with
  | none => cases h
  | bool b => cases b <;> decide
  | str s => exact bne_iff_ne.mp h
  | int n =>
    intro hempty
    obtain ⟨c, l, htext, -⟩ := int_head n
    rw [Scalar.text] at hempty
    rw [hempty] at htext
    cases htext

/-- All updates of an order that the resolver knows by one id have one identity. -/
theorem identity_event (hid : u.orderId = orderId) : computeEventIdentity u.event = identityOf orderId brokerOrderId := by
  have hnonempty : brokerOrderId ≠ "" := by
    have horder := u.order
    rw [Reading.brokerOrderId] at horder
    split_ifs at horder with htruthy
    rw [← Option.some.inj horder]
    exact truthy_text htruthy
  have hsource : u.event.sourceEventId.filter (· ≠ "") = some brokerOrderId := by
    rw [OrderUpdate.event, Adapter.eventOf, u.order]
    exact Option.filter_some_pos (decide_eq_true hnonempty)
  have horder : u.event.orderId = orderId := by
    rw [OrderUpdate.event, Adapter.eventOf, u.order]
    exact hid
  rw [computeEventIdentity, hsource, horder]
  rfl

theorem parseEvent_eq (u : OrderUpdate p brokerOrderId) : u.adapter.parseEvent u.receivedAt u.raw = .ok u.event := by
  have hread : u.adapter.provider.read u.raw = .ok u.reading := u.readable
  rw [Adapter.parseEvent, hread]
  rfl

/-- The first update is accepted. -/
theorem receive_first (hid : u.orderId = orderId) (h : d.seen (identityOf orderId brokerOrderId) = none) :
    u.adapter.receive d u.receivedAt u.raw = (.new u.event, d.record u.event) := by
  rw [← identity_event hid] at h
  rw [Adapter.receive, parseEvent_eq]
  dsimp only
  rw [EventDeduplicator.apply_unseen h]

/-- What becomes of a later update. -/
def laterOutcome (first u : OrderUpdate p brokerOrderId) : Received :=
  if first.event.contentHash ≠ u.event.contentHash then
    .conflict (.duplicateEvent (identityOf first.orderId brokerOrderId))
  else .duplicate

theorem receive_later (hid : u.orderId = first.orderId)
    (h : d.seen (identityOf first.orderId brokerOrderId) = some first.event.contentHash) :
    u.adapter.receive d u.receivedAt u.raw = (laterOutcome first u, d) := by
  have hseen := h
  rw [← identity_event hid] at hseen
  rw [Adapter.receive, parseEvent_eq]
  dsimp only
  rw [EventDeduplicator.apply_seen hseen, identity_event hid, laterOutcome]
  split_ifs
  · rfl
  · rfl

theorem receiveAll_later (hsteady : Steady first.orderId us)
    (h : d.seen (identityOf first.orderId brokerOrderId) = some first.event.contentHash) :
    receiveAll d us = us.map (laterOutcome first) := by
  induction us with
  | nil => rfl
  | cons u us ih =>
    obtain ⟨hid, hsteady⟩ := List.forall_mem_cons.mp hsteady
    rw [receiveAll, receive_later hid h, ih hsteady, List.map_cons]

/-- **What becomes of the updates of an order**: the first is accepted, the others are compared with it. -/
theorem receiveAll_cons (hsteady : Steady orderId (first :: us))
    (h : d.seen (identityOf orderId brokerOrderId) = none) :
    receiveAll d (first :: us) = .new first.event :: us.map (laterOutcome first) := by
  obtain ⟨hid, hsteady⟩ := List.forall_mem_cons.mp hsteady
  have hseen : (d.record first.event).seen (identityOf first.orderId brokerOrderId) = some first.event.contentHash := by
    rw [← identity_event (u := first) rfl]
    exact EventDeduplicator.seen_record d _
  rw [receiveAll, receive_first hid h, receiveAll_later (hid ▸ hsteady) hseen]

/-! ### Updates with one content hash -/

/-- The hash does not tell the contents of two updates apart. -/
def Collide (first u : OrderUpdate p brokerOrderId) : Prop :=
  u.event.contentText ≠ first.event.contentText ∧
    sha256 u.event.contentText = sha256 first.event.contentText

/-- An update says what the first one of its order did: the same status and filled quantity, the same message, and
whether the order is complete. -/
structure Repeats (first u : OrderUpdate p brokerOrderId) : Prop where
  status : u.reading.status = first.reading.status
  filled : u.reading.filled = first.reading.filled
  content : (u.reading.message = first.reading.message ∧
    (first.reading.status = .str p.complete ∨ u.reading.reached = first.reading.reached)) ∨ Collide first u

theorem hash_eq_iff (hstatus : u.reading.status = first.reading.status)
    (hfilled : u.reading.filled = first.reading.filled) :
    u.event.contentHash = first.event.contentHash ↔ (u.reading.message = first.reading.message ∧
      (first.reading.status = .str p.complete ∨ u.reading.reached = first.reading.reached)) ∨
        Collide first u := by
  rw [← Provider.eventType_eq_iff hstatus hfilled]
  constructor
  · intro h
    by_cases htext : u.event.contentText = first.event.contentText
    · obtain ⟨htype, hreason⟩ := contentText_inj htext
      exact .inl ⟨hreason, htype⟩
    · exact .inr ⟨htext, h⟩
  · rintro (⟨hmessage, htype⟩ | hcollide)
    · have hevent : ∀ v : OrderUpdate p brokerOrderId, v.event.contentJson =
          .obj [("broker_order_id", .ofOption (some brokerOrderId)),
            ("fill_quantity", .str (Dec.ofInt v.reading.filled).str), ("reason", scalarJson v.reading.message),
            ("type", .str (p.eventType v.reading).value)] := fun v => by
        simp [NormalizedBrokerEvent.contentJson, OrderUpdate.event, OrderUpdate.adapter, Adapter.eventOf, v.order]
      have hjson : u.event.contentJson = first.event.contentJson := by
        rw [hevent, hevent, hfilled, hmessage, htype]
      rw [NormalizedBrokerEvent.contentHash, NormalizedBrokerEvent.contentHash, NormalizedBrokerEvent.contentText,
        NormalizedBrokerEvent.contentText, hjson]
    · exact hcollide.2

/-- A later update that repeats the first is dropped. -/
theorem laterOutcome_eq_duplicate_iff :
    laterOutcome first u = .duplicate ↔ u.event.contentHash = first.event.contentHash := by
  rw [laterOutcome]
  split_ifs with h
  · simp [Ne.symm h]
  · simp [not_not.mp h]

theorem laterOutcome_eq_duplicate_or (first u : OrderUpdate p brokerOrderId) :
    laterOutcome first u = .duplicate ∨ ∃ e, laterOutcome first u = .conflict e := by
  rw [laterOutcome]
  split_ifs
  · exact .inr ⟨_, rfl⟩
  · exact .inl rfl

/-- The quantity that is counted: that of the first update, if it is a fill. -/
theorem countedQuantity_cons (us : List (OrderUpdate p brokerOrderId)) :
    countedQuantity (.new first.event :: us.map (laterOutcome first)) = first.reading.filled := by
  have hlater : (us.map (laterOutcome first)).filterMap Received.event = [] := by
    rw [List.filterMap_eq_nil_iff]
    intro o ho
    obtain ⟨u, -, rfl⟩ := List.mem_map.mp ho
    rcases laterOutcome_eq_duplicate_or first u with h | ⟨e, h⟩
    · rw [h]
      rfl
    · rw [h]
      rfl
  have hfirst : ((Received.new first.event :: us.map (laterOutcome first)).filterMap Received.event) =
      [first.event] := by
    rw [List.filterMap_cons, hlater]
    rfl
  have hvalue : first.event.fillQuantity.val = first.reading.filled := Dec.val_ofInt _
  rw [countedQuantity, hfirst, List.filter_singleton]
  cases hfill : first.event.eventType.isFill with
  | true => rw [cond_true, List.map_singleton, List.sum_singleton, hvalue]
  | false =>
    have hzero : first.reading.filled = 0 := by
      refine le_antisymm (not_lt.mp fun hpos => ?_) first.filled_nonneg
      have hpartial : first.event.eventType.isFill = true := Provider.eventType_isFill hpos
      rw [hfill] at hpartial
      cases hpartial
    rw [cond_false, hzero]
    rfl

/-- The outcome of the update at a later place. -/
theorem getElem?_receiveAll (hsteady : Steady orderId (first :: us))
    (h : d.seen (identityOf orderId brokerOrderId) = none) {i : ℕ} (hu : us[i]? = some u) :
    (receiveAll d (first :: us))[i + 1]? = some (laterOutcome first u) := by
  rw [receiveAll_cons hsteady h, List.getElem?_cons_succ, List.getElem?_map, hu, Option.map_some]

/-- Where no update raises, all have the content hash of the first. -/
theorem ExactlyOnce.hash_eq (hsteady : Steady orderId (first :: us))
    (hunseen : d.seen (identityOf orderId brokerOrderId) = none) (h : ExactlyOnce d (first :: us)) :
    ∀ u ∈ us, u.event.contentHash = first.event.contentHash := by
  intro u hu
  refine laterOutcome_eq_duplicate_iff.mp ((laterOutcome_eq_duplicate_or first u).resolve_right ?_)
  rintro ⟨e, he⟩
  refine h.never_raises e ?_
  rw [receiveAll_cons hsteady hunseen, ← he]
  exact List.mem_cons_of_mem _ (List.mem_map_of_mem hu)

/-- Where every new status and quantity is accepted, all updates have those of the first: by induction on the place, the
update is dropped, so it has those of an earlier one. -/
theorem ExactlyOnce.same (hsteady : Steady orderId (first :: us))
    (hunseen : d.seen (identityOf orderId brokerOrderId) = none) (h : ExactlyOnce d (first :: us)) (i : ℕ) :
    ∀ u, us[i]? = some u → u.reading.status = first.reading.status ∧ u.reading.filled = first.reading.filled := by
  induction i using Nat.strong_induction_on with
  | _ i ih =>
    intro u hu
    by_contra hnew
    have hdropped : laterOutcome first u = .duplicate :=
      laterOutcome_eq_duplicate_iff.mpr (h.hash_eq hsteady hunseen u (List.mem_of_getElem? hu))
    have hearlier : ∀ v ∈ (first :: us).take (i + 1),
        v.reading.status ≠ u.reading.status ∨ v.reading.filled ≠ u.reading.filled := by
      rw [List.take_succ_cons, List.forall_mem_cons]
      have hfirst : ∀ v : OrderUpdate p brokerOrderId, v.reading.status = first.reading.status →
          v.reading.filled = first.reading.filled →
            v.reading.status ≠ u.reading.status ∨ v.reading.filled ≠ u.reading.filled := by
        intro v hstatus hfilled
        rw [hstatus, hfilled, ← not_and_or]
        exact fun heq => hnew ⟨heq.1.symm, heq.2.symm⟩
      refine ⟨hfirst first rfl rfl, fun v hv => ?_⟩
      obtain ⟨j, hj, hjv⟩ := List.mem_take_iff_getElem.mp hv
      obtain ⟨hstatus, hfilled⟩ := ih j (lt_of_lt_of_le hj (min_le_left _ _)) v
        (hjv ▸ List.getElem?_eq_getElem (lt_of_lt_of_le hj (min_le_right _ _)))
      exact hfirst v hstatus hfilled
    obtain ⟨event, hevent⟩ := h.new_accepted (i + 1) u _ hu (getElem?_receiveAll hsteady hunseen hu) hearlier
    rw [hdropped] at hevent
    cases hevent

/-- A stream that repeats its first update is counted exactly once. -/
theorem exactlyOnce_of_repeats (hsteady : Steady orderId (first :: us))
    (hunseen : d.seen (identityOf orderId brokerOrderId) = none) (h : ∀ u ∈ us, Repeats first u) :
    ExactlyOnce d (first :: us) := by
  have hdropped : ∀ u ∈ us, laterOutcome first u = .duplicate := fun u hu =>
    laterOutcome_eq_duplicate_iff.mpr ((hash_eq_iff (h u hu).status (h u hu).filled).mpr (h u hu).content)
  refine ⟨?_, ?_, ?_, ?_⟩
  · intro e he
    rw [receiveAll_cons hsteady hunseen] at he
    rcases List.mem_cons.mp he with he | he
    · cases he
    · obtain ⟨u, hu, heq⟩ := List.mem_map.mp he
      rw [hdropped u hu] at heq
      cases heq
  · intro i u o hu ho hredelivered
    cases i with
    | zero =>
      obtain ⟨v, hv, -⟩ := hredelivered
      cases hv
    | succ i =>
      have hu' : us[i]? = some u := hu
      rw [getElem?_receiveAll hsteady hunseen hu', hdropped u (List.mem_of_getElem? hu')] at ho
      exact (Option.some.inj ho).symm
  · intro i u o hu ho hnew
    cases i with
    | zero =>
      rw [receiveAll_cons hsteady hunseen] at ho
      exact ⟨_, (Option.some.inj ho).symm⟩
    | succ i =>
      have hu' : us[i]? = some u := hu
      have hsame := h u (List.mem_of_getElem? hu')
      rcases hnew first List.mem_cons_self with hstatus | hfilled
      · exact absurd hsame.status.symm hstatus
      · exact absurd hsame.filled.symm hfilled
  · rw [receiveAll_cons hsteady hunseen, countedQuantity_cons]
    have hlast : lastFilled (first :: us) = first.reading.filled := by
      rw [lastFilled, List.getLast?_cons, Option.map_some, Option.getD_some]
      cases hus : us.getLast? with
      | none => rfl
      | some u => exact (h u (List.mem_of_getLast? hus)).filled
    rw [hlast]

end Stream

/-- **The streams that are counted exactly once**, where the resolver knows the order by one id: those in which every
update repeats the first. -/
theorem exactlyOnce_iff {p : Provider} {brokerOrderId : String} {orderId : UUID} (d : EventDeduplicator)
    (stream : List (OrderUpdate p brokerOrderId)) (hsteady : Steady orderId stream)
    (hunseen : d.seen (identityOf orderId brokerOrderId) = none) :
    ExactlyOnce d stream ↔ ∀ first ∈ stream.head?, ∀ u ∈ stream, Repeats first u := by
  cases stream with
  | nil =>
    constructor
    · exact fun _ first hfirst => by cases hfirst
    · exact fun _ => ⟨fun e => List.not_mem_nil, fun i u o hu => by simp at hu, fun i u o hu => by simp at hu, by
        simp [countedQuantity, lastFilled, receiveAll]⟩
  | cons first us =>
    constructor
    · intro h first' hfirst u hu
      cases hfirst
      rcases List.mem_cons.mp hu with rfl | hu
      · exact ⟨rfl, rfl, .inl ⟨rfl, .inr rfl⟩⟩
      · obtain ⟨i, hi⟩ := List.mem_iff_getElem?.mp hu
        obtain ⟨hstatus, hfilled⟩ := h.same hsteady hunseen i u hi
        exact ⟨hstatus, hfilled, (hash_eq_iff hstatus hfilled).mp (h.hash_eq hsteady hunseen u hu)⟩
    · exact fun h => exactlyOnce_of_repeats hsteady hunseen fun u hu => h first rfl u (List.mem_cons_of_mem _ hu)

/-! ### A sample order -/

/-- A decoded update of the order `kite-1` over 10. -/
def sampleRaw (status : String) (filled : ℤ) : RawUpdate :=
  [("order_id", .str "kite-1"), ("status", .str status), ("filled_quantity", .int filled), ("quantity", .int 10)]

def sampleReading (status : String) (filled : ℤ) : Reading := ⟨.str status, .str "kite-1", filled, 10, .str ""⟩

theorem read_sampleRaw (status : String) (filled : ℤ) :
    zerodha.read (sampleRaw status filled) = .ok (sampleReading status filled) := by
  have hfilled : intOr (.int filled) = .ok filled := by
    by_cases hzero : filled = 0
    · rw [hzero]
      rfl
    · have htruthy : (Scalar.int filled).truthy = true := bne_iff_ne.mpr hzero
      rw [intOr, scalarOr, if_pos htruthy]
  have hget : zerodha.filled (sampleRaw status filled) = .int filled := rfl
  rw [Provider.read, hget, hfilled]
  rfl

theorem order_sampleReading (status : String) (filled : ℤ) :
    (sampleReading status filled).brokerOrderId = some "kite-1" := by rfl

/-- An update of the order, at nine o'clock. -/
def sampleUpdate (status : String) (filled : ℕ) : OrderUpdate zerodha "kite-1" where
  receivedAt := ⟨2026, 1, 1, 9, 0, 0, 0, some 0⟩
  raw := sampleRaw status filled
  reading := sampleReading status filled
  readable := read_sampleRaw status filled
  order := order_sampleReading status filled
  filled_nonneg := Int.natCast_nonneg filled

/-- The update at an adapter that knows the order. -/
def knownUpdate (status : String) (filled : ℕ) : OrderUpdate zerodha "kite-1" :=
  { sampleUpdate status filled with resolver := some fun _ => some ⟨5⟩ }

/-- A partial fill that is delivered twice. -/
theorem exactlyOnce_redelivered : ExactlyOnce {} [knownUpdate "OPEN" 3, knownUpdate "OPEN" 3] := by
  have hsteady : Steady ⟨5⟩ [knownUpdate "OPEN" 3, knownUpdate "OPEN" 3] := by
    intro u hu
    rcases List.mem_pair.mp hu with rfl | rfl
    · rfl
    · rfl
  refine (exactlyOnce_iff {} _ hsteady rfl).mpr ?_
  intro first hfirst u hu
  cases hfirst
  rcases List.mem_pair.mp hu with rfl | rfl
  · exact ⟨rfl, rfl, .inl ⟨rfl, .inr rfl⟩⟩
  · exact ⟨rfl, rfl, .inl ⟨rfl, .inr rfl⟩⟩

/-- The second update of an order, the fill of the rest, raises. -/
theorem not_exactlyOnce_fill : ¬∀ p : Provider,
    p = zerodha ∨ p = upstox ∨ p = angelOne → ∀ (brokerOrderId : String) (orderId : UUID)
      (stream : List (OrderUpdate p brokerOrderId)), Steady orderId stream →
        (stream.map fun u => u.reading.filled).Pairwise (· ≤ ·) → ExactlyOnce {} stream := by
  intro h
  have hsteady : Steady sentinel [sampleUpdate "OPEN" 3, sampleUpdate "COMPLETE" 10] := by
    intro u hu
    rcases List.mem_pair.mp hu with rfl | rfl
    · rfl
    · rfl
  have honce := h zerodha (.inl rfl) "kite-1" sentinel [sampleUpdate "OPEN" 3, sampleUpdate "COMPLETE" 10] hsteady
    (by decide)
  refine honce.never_raises (.duplicateEvent (identityOf sentinel "kite-1")) ?_
  decide +kernel

end AlphaAlgo.Broker
