import AlphaAlgo.Broker.Statuses

/-!
# PushedRows — the event of a pushed row and the status of the same row

`parse_event` looks at the quantities before it looks at the words for a rejection or a cancellation, and compares the
status of a Zerodha row as it is written; `map_status` goes by the word alone, in any case, and by the quantities only for
an open order.

* `said_of_word`: a word that `parse_event` knows means the same to `map_status`.
* `alike_iff`: the rows on which the two agree.
-/

namespace AlphaAlgo.Broker

open Loop (bind_eq_ok)

/-- The row of an update. -/
def RawUpdate.row (raw : RawUpdate) : Fields := raw.map fun p => (p.1, .scalar p.2)

def BrokerName.provider : BrokerName → Provider
  | zerodha => Broker.zerodha
  | upstox => Broker.upstox
  | angelOne => Broker.angelOne

/-! ### Reading a row twice -/

theorem get_row (raw : RawUpdate) (key : String) : raw.row.get key = .scalar (raw.get key) := by
  unfold Fields.get RawUpdate.get RawUpdate.row
  induction raw with
  | nil => rfl
  | cons p raw ih =>
    obtain ⟨k, a⟩ := p
    rw [List.map_cons, List.lookup_cons, List.lookup_cons]
    by_cases hkey : key == k
    · simp [hkey]
    · simpa [hkey] using ih

theorem orElse_scalar (a b : Scalar) : (Value.scalar a).orElse (.scalar b) = .scalar (scalarOr a b) := by
  unfold Value.orElse scalarOr
  by_cases ha : a.truthy = true
  · rw [if_pos ha, if_pos (show (Value.scalar a).truthy = true from ha)]
  · rw [if_neg ha, if_neg (show ¬(Value.scalar a).truthy = true from ha)]

theorem intOr_scalar (a : Scalar) : (Value.scalar a).intOr = intOr a := by
  have hidem : scalarOr (scalarOr a (.int 0)) (.int 0) = scalarOr a (.int 0) := by
    unfold scalarOr
    split_ifs <;> rfl
  unfold Value.intOr
  rw [orElse_scalar]
  show intOr (scalarOr a (.int 0)) = _
  rw [intOr, hidem, intOr]

/-- Both readers find the same status, and the same quantities. -/
theorem rows_row (broker : BrokerName) (raw : RawUpdate) :
    (raw.row.get "quantity").intOr = intOr (broker.provider.quantity raw) ∧
    (broker.rows.filled raw.row).intOr = intOr (broker.provider.filled raw) := by
  cases broker with
  | zerodha => exact ⟨by rw [get_row, intOr_scalar]; rfl, by
      show (raw.row.get "filled_quantity").intOr = _
      rw [get_row, intOr_scalar]
      rfl⟩
  | upstox => exact ⟨by rw [get_row, intOr_scalar]; rfl, by
      show (raw.row.get "filled_quantity").intOr = _
      rw [get_row, intOr_scalar]
      rfl⟩
  | angelOne => exact ⟨by rw [get_row, intOr_scalar]; rfl, by
      show ((raw.row.get "filledquantity").orElse (raw.row.get "filledQuantity")).intOr = _
      rw [get_row, get_row, orElse_scalar, intOr_scalar]
      rfl⟩

/-- The status that the table of a provider has for the word of a row, whatever the quantities are. -/
def RowReader.said (reader : RowReader) (row : Fields) : BrokerOrderStatus :=
  match reader.status row with
  | .scalar (.str s) => normalized reader.statusMap reader.case s
  | _ => .unknown

theorem mapStatus_eq_ok {reader : RowReader} {row : Fields} {filled quantity : ℤ} {s : BrokerOrderStatus}
    (h : reader.mapStatus (reader.status row) filled quantity = .ok s) :
    s = refine (reader.said row) filled quantity := by
  unfold RowReader.mapStatus mapStatusBy at h
  unfold RowReader.said
  split at h
  · rename_i hstatus
    cases h
    rw [hstatus]
    rfl
  · rename_i text hstatus
    cases h
    rw [hstatus]
  · cases h

/-! ### Words -/

/-- A word in lower case. -/
theorem text_of_lowerOf {a : Scalar} {word : String} (hword : word ≠ "")
    (h : lowerOf (scalarOr a (.str "")) = .ok (.str word)) : ∃ s, a = .str s ∧ lower s = word := by
  have hempty : lower "" = "" := by decide
  unfold scalarOr at h
  by_cases ha : a.truthy = true
  · rw [if_pos ha] at h
    unfold lowerOf at h
    split at h
    · cases h
      exact ⟨_, rfl, rfl⟩
    · cases h
  · rw [if_neg ha] at h
    exact absurd (Scalar.str.inj (Except.ok.inj h)).symm (by rwa [hempty])

/-- A word in lower case that a table with such keys has. -/
theorem said_of_lower {reader : RowReader} {row : Fields} {a : Scalar} {word : String} (hcase : reader.case = lower)
    (hstatus : reader.status row = .scalar a) (hword : word ≠ "") (h : lowerOf (scalarOr a (.str "")) = .ok (.str word)) :
    reader.said row = (reader.statusMap.lookup word).getD .unknown := by
  obtain ⟨s, rfl, rfl⟩ := text_of_lowerOf hword h
  rw [RowReader.said, hstatus]
  show normalized reader.statusMap reader.case s = _
  rw [normalized, hcase]

/-- **What the words of a provider mean** to `map_status`, whose table has no status for a partial fill. -/
theorem said_of_word {broker : BrokerName} {raw : RawUpdate} {word : Scalar}
    (h : broker.provider.status raw = .ok word) :
    (word = .str broker.provider.complete → broker.rows.said raw.row = .filled) ∧
    (word = .str broker.provider.rejected → broker.rows.said raw.row = .rejected) ∧
    (word = .str broker.provider.cancelled → broker.rows.said raw.row = .cancelled) := by
  cases broker with
  | zerodha =>
    have hstatus : Zerodha.rows.status raw.row = .scalar word := by
      cases h
      exact get_row raw "status"
    have hsaid : ∀ s, word = .str s → Zerodha.rows.said raw.row = normalized Zerodha.statusMap upper s := by
      rintro s rfl
      rw [RowReader.said, hstatus]
      rfl
    exact ⟨fun hw => (hsaid _ hw).trans (by decide), fun hw => (hsaid _ hw).trans (by decide),
      fun hw => (hsaid _ hw).trans (by decide)⟩
  | upstox =>
    have hsaid : ∀ s, s ≠ "" → word = .str s →
        Upstox.rows.said raw.row = (Upstox.statusMap.lookup s).getD .unknown := by
      rintro s hs rfl
      exact said_of_lower rfl (get_row raw "status") hs h
    exact ⟨fun hw => (hsaid _ (by decide) hw).trans (by decide), fun hw => (hsaid _ (by decide) hw).trans (by decide),
      fun hw => (hsaid _ (by decide) hw).trans (by decide)⟩
  | angelOne =>
    have hsaid : ∀ s, s ≠ "" → word = .str s →
        AngelOne.rows.said raw.row = (AngelOne.statusMap.lookup s).getD .unknown := by
      rintro s hs rfl
      have hstatus : AngelOne.rows.status raw.row = .scalar (scalarOr (raw.get "orderstatus") (raw.get "status")) := by
        show (raw.row.get "orderstatus").orElse (raw.row.get "status") = _
        rw [get_row, get_row, orElse_scalar]
      exact said_of_lower rfl hstatus hs h
    exact ⟨fun hw => (hsaid _ (by decide) hw).trans (by decide), fun hw => (hsaid _ (by decide) hw).trans (by decide),
      fun hw => (hsaid _ (by decide) hw).trans (by decide)⟩

theorem said_ne_partiallyFilled (broker : BrokerName) (row : Fields) : broker.rows.said row ≠ .partiallyFilled := by
  have htable : ∀ p ∈ broker.rows.statusMap, p.2 ≠ .partiallyFilled := by cases broker <;> decide
  unfold RowReader.said
  split
  · exact normalized_ne (by decide) htable broker.rows.case _
  · simp

/-! ### Events and statuses -/

/-- The type of an event says what a status says. -/
structure Alike (t : BrokerEventType) (s : BrokerOrderStatus) : Prop where
  fill : t = .fill ↔ s = .filled
  partialFill : t = .partialFill ↔ s = .partiallyFilled
  rejected : t = .rejected ↔ s = .rejected
  cancelled : t = .cancelled ↔ s = .cancelled

/-- The condition on a reading whose word means `n`: a quantity that is reached belongs to a filled order; one filled in
part to an open one, or its word is the provider's own for a filled one; with nothing filled, a word for a final state is
written as the provider writes it. -/
def Consistent (p : Provider) (r : Reading) (n : BrokerOrderStatus) : Prop :=
  if r.reached = true then n = .filled
  else if 0 < r.filled then (n = .filled ∧ r.status = .str p.complete) ∨ (n = .opened ∧ 0 < r.quantity)
  else (n = .filled → r.status = .str p.complete) ∧ (n = .rejected → r.status = .str p.rejected) ∧
    (n = .cancelled → r.status = .str p.cancelled)

instance (p : Provider) (r : Reading) (n : BrokerOrderStatus) : Decidable (Consistent p r n) := by
  unfold Consistent
  infer_instance

theorem alike_fill {s : BrokerOrderStatus} : Alike .fill s ↔ s = .filled := by
  constructor
  · exact fun h => h.fill.mp rfl
  · rintro rfl
    constructor <;> decide

theorem alike_partialFill {s : BrokerOrderStatus} : Alike .partialFill s ↔ s = .partiallyFilled := by
  constructor
  · exact fun h => h.partialFill.mp rfl
  · rintro rfl
    constructor <;> decide

theorem alike_rejected {s : BrokerOrderStatus} : Alike .rejected s ↔ s = .rejected := by
  constructor
  · exact fun h => h.rejected.mp rfl
  · rintro rfl
    constructor <;> decide

theorem alike_cancelled {s : BrokerOrderStatus} : Alike .cancelled s ↔ s = .cancelled := by
  constructor
  · exact fun h => h.cancelled.mp rfl
  · rintro rfl
    constructor <;> decide

theorem alike_orderUpdate {s : BrokerOrderStatus} : Alike .orderUpdate s ↔
    s ≠ .filled ∧ s ≠ .partiallyFilled ∧ s ≠ .rejected ∧ s ≠ .cancelled := by
  constructor
  · intro h
    exact ⟨fun hs => absurd (h.fill.mpr hs) (by decide), fun hs => absurd (h.partialFill.mpr hs) (by decide),
      fun hs => absurd (h.rejected.mpr hs) (by decide), fun hs => absurd (h.cancelled.mpr hs) (by decide)⟩
  · rintro ⟨hfilled, hpartial, hrejected, hcancelled⟩
    constructor <;> simp [*]

theorem refine_eq_filled {n : BrokerOrderStatus} {filled quantity : ℤ} :
    refine n filled quantity = .filled ↔ n = .filled := by
  unfold refine
  split_ifs with h
  · simp [h.1]
  · exact Iff.rfl

theorem refine_eq_partiallyFilled {n : BrokerOrderStatus} (hn : n ≠ .partiallyFilled) {filled quantity : ℤ} :
    refine n filled quantity = .partiallyFilled ↔ n = .opened ∧ 0 < quantity ∧ 0 < filled ∧ filled < quantity := by
  unfold refine
  split_ifs with h
  · simp [h]
  · simp [h, hn]

/-- The quantities of a reading that has not reached its quantity. -/
theorem lt_of_not_reached {r : Reading} (h : ¬r.reached = true) (hquantity : 0 < r.quantity) : r.filled < r.quantity := by
  simp only [Reading.reached, Bool.and_eq_true, decide_eq_true_eq, not_and, not_le] at h
  exact h hquantity.ne'

/-- The event of a reading against the status, by how much is filled. -/
theorem alike_reading_iff {p : Provider} {r : Reading} {n : BrokerOrderStatus}
    (hcomplete : r.status = .str p.complete → n = .filled) (hrejected : r.status = .str p.rejected → n = .rejected)
    (hcancelled : r.status = .str p.cancelled → n = .cancelled) (hn : n ≠ .partiallyFilled) :
    Alike (p.eventType r) (refine n r.filled r.quantity) ↔ Consistent p r n := by
  unfold Consistent
  by_cases hreached : r.reached = true
  · rw [if_pos hreached, Provider.eventType_eq_fill_iff.mpr (.inr hreached), alike_fill, refine_eq_filled]
  rw [if_neg hreached]
  by_cases hword : r.status = .str p.complete
  · have hfilled := hcomplete hword
    rw [Provider.eventType_eq_fill_iff.mpr (.inl hword), alike_fill, refine_eq_filled]
    simp [hfilled, hword]
  have hevent : p.eventType r = if 0 < r.filled then .partialFill
      else if r.status = .str p.rejected then .rejected
      else if r.status = .str p.cancelled then .cancelled
      else .orderUpdate := by
    rw [Provider.eventType, if_neg (not_or.mpr ⟨hword, hreached⟩)]
  rw [hevent]
  by_cases hpos : 0 < r.filled
  · rw [if_pos hpos, if_pos hpos, alike_partialFill, refine_eq_partiallyFilled hn]
    constructor
    · rintro ⟨hopened, hquantity, -⟩
      exact .inr ⟨hopened, hquantity⟩
    · rintro (⟨-, h⟩ | ⟨hopened, hquantity⟩)
      · exact absurd h hword
      · exact ⟨hopened, hquantity, hpos, lt_of_not_reached hreached hquantity⟩
  · have hrefine : refine n r.filled r.quantity = n := by
      rw [refine, if_neg]
      exact fun h => hpos h.2.2.1
    rw [if_neg hpos, if_neg hpos, hrefine]
    by_cases hr : r.status = .str p.rejected
    · rw [if_pos hr, alike_rejected]
      have := hrejected hr
      simp [this, hr]
    rw [if_neg hr]
    by_cases hx : r.status = .str p.cancelled
    · rw [if_pos hx, alike_cancelled]
      have := hcancelled hx
      simp [this, hx]
    rw [if_neg hx, alike_orderUpdate]
    simp [hword, hr, hx, hn]

/-- What a row says to `parse_event`, and the word of the table for it. -/
def ConsistentRow (broker : BrokerName) (raw : RawUpdate) : Prop :=
  ∃ r, broker.provider.read raw = .ok r ∧ Consistent broker.provider r (broker.rows.said raw.row)

/-- **The rows on which the pushed event agrees with the status**, for the rows that both read. -/
theorem alike_iff {broker : BrokerName} {a : Adapter} (ha : a.provider = broker.provider) {now : DateTime}
    {raw : RawUpdate} {event : NormalizedBrokerEvent} {status : BrokerOrderStatus}
    (hevent : a.parseEvent now raw = .ok event) (hstatus : broker.rows.rowStatus raw.row = .ok status) :
    Alike event.eventType status ↔ ConsistentRow broker raw := by
  obtain ⟨r, hread, rfl⟩ := Loop.map_eq_ok.mp hevent
  rw [ha] at hread
  have htype : (a.eventOf now r).eventType = broker.provider.eventType r := by
    rw [← ha]
    rfl
  obtain ⟨word, hword, hrest⟩ := bind_eq_ok.mp hread
  obtain ⟨filled, hfilled, hrest⟩ := bind_eq_ok.mp hrest
  obtain ⟨quantity, hquantity, hrest⟩ := bind_eq_ok.mp hrest
  cases hrest
  obtain ⟨quantity', hquantity', hrest⟩ := bind_eq_ok.mp hstatus
  obtain ⟨filled', hfilled', hmap⟩ := bind_eq_ok.mp hrest
  obtain ⟨hq, hf⟩ := rows_row broker raw
  rw [hq, hquantity] at hquantity'
  rw [hf, hfilled] at hfilled'
  cases hquantity'
  cases hfilled'
  obtain ⟨hcomplete, hrejected, hcancelled⟩ := said_of_word hword
  rw [htype, mapStatus_eq_ok hmap]
  refine (alike_reading_iff hcomplete hrejected hcancelled (said_ne_partiallyFilled broker raw.row)).trans ?_
  constructor
  · exact fun h => ⟨_, hread, h⟩
  · rintro ⟨r', hr', h⟩
    cases hread.symm.trans hr'
    exact h

def upstoxAdapter : Adapter where
  provider := upstox

/-- An order for 10 of which 3 are filled. -/
def upstoxRow (status : String) : RawUpdate :=
  [("order_id", .str "u1"), ("status", .str status), ("filled_quantity", .int 3), ("quantity", .int 10)]

/-- Its event. -/
def upstoxEvent : NormalizedBrokerEvent where
  orderId := sentinel
  eventType := .partialFill
  brokerOrderId := some "u1"
  fillQuantity := .ofInt 3
  occurredAt := sampleNow
  sourceEventId := some "u1"

theorem alike_iff_open : Alike upstoxEvent.eventType .partiallyFilled := by
  have hevent : upstoxAdapter.parseEvent sampleNow (upstoxRow "open") = .ok upstoxEvent := rfl
  have hstatus : BrokerName.upstox.rows.rowStatus (upstoxRow "open").row = .ok .partiallyFilled := rfl
  exact (alike_iff rfl hevent hstatus).mpr ⟨_, rfl, by decide⟩

/-- The rest of the order is cancelled, and the event is a partial fill. -/
theorem not_alike_cancelled : ¬ ∀ (broker : BrokerName) (a : Adapter), a.provider = broker.provider →
    ∀ (now : DateTime) (raw : RawUpdate) (event : NormalizedBrokerEvent) (status : BrokerOrderStatus),
      a.parseEvent now raw = .ok event → broker.rows.rowStatus raw.row = .ok status → Alike event.eventType status := by
  intro h
  have hevent : upstoxAdapter.parseEvent sampleNow (upstoxRow "Cancelled") = .ok upstoxEvent := rfl
  have halike := h .upstox upstoxAdapter rfl sampleNow (upstoxRow "Cancelled") upstoxEvent .cancelled hevent rfl
  exact absurd (halike.cancelled.mpr rfl) (by decide)

end AlphaAlgo.Broker
