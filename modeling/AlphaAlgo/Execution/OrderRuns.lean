import AlphaAlgo.Execution.Events
import AlphaAlgo.Lib.Limits

/-!
# OrderRuns — what holds along every sequence of events of one order

Runs of `OrderExecutionState.step` from a fresh order.

* `fill_law`: bounds, the sum of the accepted fills, `FILLED` and `PARTIALLY_FILLED`, the transition table and the
  terminal states, at every point of every run in the exponent range of the default context (`InRange`).  The sum is the
  one `Decimal` computes; it is the exact sum as long as the partial sums have at most 28 digits (`contextSum_eq_sum`).
* `not_misreported_iff`: a traded order is reported as acknowledged or rejected exactly when the run takes a
  `Detour` step, i.e. such an event after a reconciliation.
-/

namespace AlphaAlgo.Execution.OrderExecutionState

open Runs

/-! ### Sums in the default context -/

/-- The running sum as `Decimal` computes it: every addition is rounded to 28 digits. -/
def contextSum (l : List ℚ) : ℚ := l.foldl (fun a q => Ctx.default.fix (a + q)) 0

/-- The computed sum is exact when every partial sum has at most 28 digits. -/
theorem contextSum_eq_sum {l : List ℚ} (h : ∀ k, Digits 28 (l.take k).sum) : contextSum l = l.sum := by
  unfold contextSum Ctx.default
  exact foldl_fix_eq_sum h

/-! ### The invariant -/

/-- What every state of a run from a fresh order satisfies. -/
structure FillInv (s : OrderExecutionState) : Prop where
  digits : Digits 28 s.filledQuantity
  filled_iff : s.status = .filled ↔ s.filledQuantity = s.orderQuantity
  partial_pos : s.status = .partiallyFilled → 0 < s.filledQuantity

theorem Fresh.fillInv {s : OrderExecutionState} (h : s.Fresh) : s.FillInv := by
  obtain ⟨h0, hs⟩ := h
  have hq := s.quantity_pos
  refine ⟨h0 ▸ digits_zero 28, ⟨fun hf => ?_, fun hf => ?_⟩, fun hp => ?_⟩
  · rw [hf] at hs; simp at hs
  · rw [h0] at hf; exact absurd hf hq.ne
  · rw [hp] at hs; simp at hs

/-- A fill event raises the filled quantity, never past what was there. -/
theorem le_nextFilled {s : OrderExecutionState} {e : BrokerOrderEvent} (hd : Digits 28 s.filledQuantity)
    (hf : e.eventType.isFill = true) : s.filledQuantity ≤ s.nextFilled e :=
  Ctx.le_fix (by norm_num) hd s.filled_nonneg (by linarith [e.valid.pos hf])

theorem target_filled_iff {t : OrderEventType} : t.target = .filled ↔ t = .fill := by
  cases t <;> simp [OrderEventType.target]

theorem target_partiallyFilled_iff {t : OrderEventType} : t.target = .partiallyFilled ↔ t = .partialFill := by
  cases t <;> simp [OrderEventType.target]

theorem FillInv.applyEvent {s s' : OrderExecutionState} {e : BrokerOrderEvent} (hI : s.FillInv)
    (h : s.applyEvent e = .ok s') : s'.FillInv := by
  obtain ⟨-, hmem, hst, -, hq, hf, -, hpart, hfull⟩ := applyEvent_ok h
  refine ⟨?_, ?_, ?_⟩
  · rw [hf, filledAfter]
    split_ifs
    · exact Ctx.digits_fix (by norm_num) _
    · exact hI.digits
  · rw [hst, target_filled_iff]
    refine ⟨hfull, fun heq => ?_⟩
    -- an event that completes the quantity is no partial fill, and no other event moves it
    by_contra hne
    cases ht : e.eventType.isFill with
    | true =>
      have hp : e.eventType = .partialFill := by
        cases hte : e.eventType <;> simp_all [OrderEventType.isFill]
      exact absurd heq (hpart hp).ne
    | false =>
      rw [hf, filledAfter, ht, if_neg (by simp), hq] at heq
      have hs := hI.filled_iff.mpr heq
      rw [hs] at hmem
      cases hmem
  · rw [hst, target_partiallyFilled_iff]
    intro hp
    have hfill : e.eventType.isFill = true := by rw [hp]; rfl
    rw [hf, filledAfter, if_pos hfill]
    exact nextFilled_pos hfill

theorem FillInv.step {s : OrderExecutionState} (hI : s.FillInv) (e : BrokerOrderEvent) : (s.step e).FillInv := by
  rcases s.step_cases e with h | ⟨-, h⟩
  · exact hI.applyEvent h
  · rw [h]; exact hI

/-! ### The law of a run -/

/-- What one step does: the filled quantity does not fall, a change of status is an edge of the table, and a
terminal state stays as it is. -/
structure StepLaw (s : OrderExecutionState) (e : BrokerOrderEvent) : Prop where
  mono : s.filledQuantity ≤ (s.step e).filledQuantity
  edge : (s.step e).status ≠ s.status → (s.step e).status ∈ allowedTransitions s.status
  terminal : s.status ∈ terminalOrderStates →
    (s.step e).status = s.status ∧ (s.step e).filledQuantity = s.filledQuantity

theorem FillInv.stepLaw {s : OrderExecutionState} (hI : s.FillInv) (e : BrokerOrderEvent) : s.StepLaw e := by
  rcases s.step_cases e with h | ⟨-, h⟩
  · obtain ⟨-, hmem, hst, -, -, hf, -⟩ := applyEvent_ok h
    refine ⟨?_, fun _ => by rw [hst]; exact hmem, fun ht => absurd h (applyEvent_terminal ht)⟩
    rw [hf, filledAfter]
    split_ifs with hfill
    · exact le_nextFilled hI.digits hfill
    · exact le_rfl
  · exact ⟨by rw [h], fun hne => absurd (by rw [h]) hne, fun _ => by rw [h]; exact ⟨rfl, rfl⟩⟩

/-- The order quantity and the accepted fills determine the filled quantity. -/
theorem run_quantities : ∀ (events : List BrokerOrderEvent) (s : OrderExecutionState),
    (run step s events).orderQuantity = s.orderQuantity ∧
      (run step s events).filledQuantity =
        (s.acceptedFills events).foldl (fun a q => Ctx.default.fix (a + q)) s.filledQuantity
  | [], _ => ⟨rfl, rfl⟩
  | e :: l, s => by
    obtain ⟨h1, h2⟩ := run_quantities l (s.step e)
    rw [run_cons]
    cases h : s.applyEvent e with
    | error err =>
      rw [step_error h] at h1 h2 ⊢
      exact ⟨h1, by rw [h2, acceptedFills, h]⟩
    | ok s' =>
      obtain ⟨-, -, -, -, hq, hf, -⟩ := applyEvent_ok h
      rw [step_ok h] at h1 h2 ⊢
      refine ⟨h1.trans hq, ?_⟩
      rw [h2, acceptedFills, h, hf, filledAfter]
      split_ifs with hfill
      · rw [List.foldl_cons]; rfl
      · rfl

/-- **What holds at the end of a run**, with `total` the way the accepted quantities are added up.  Every point
of a run is the end of a run. -/
structure FillLaw (total : List ℚ → ℚ) (s : OrderExecutionState) (events : List BrokerOrderEvent) : Prop where
  nonneg : 0 ≤ (run step s events).filledQuantity
  le : (run step s events).filledQuantity ≤ s.orderQuantity
  sum : (run step s events).filledQuantity = total (s.acceptedFills events)
  filled_iff : (run step s events).status = .filled ↔ (run step s events).filledQuantity = s.orderQuantity
  partial_between : (run step s events).status = .partiallyFilled →
    0 < (run step s events).filledQuantity ∧ (run step s events).filledQuantity < s.orderQuantity
  steps : Along step StepLaw s events

theorem fillLaw_contextSum {s : OrderExecutionState} (hs : s.Fresh) (events : List BrokerOrderEvent) :
    s.FillLaw contextSum events := by
  have hI : (run step s events).FillInv := run_invariant step FillInv (fun _ e h => h.step e) hs.fillInv events
  obtain ⟨hq, hf⟩ := run_quantities events s
  have hle := (run step s events).filled_le
  rw [hq] at hle
  refine ⟨(run step s events).filled_nonneg, hle, ?_, ?_, fun hp => ⟨hI.partial_pos hp, ?_⟩, ?_⟩
  · rw [hf, hs.1]; rfl
  · rw [← hq]; exact hI.filled_iff
  · refine lt_of_le_of_ne hle fun heq => ?_
    rw [← hq] at heq
    have := hI.filled_iff.mpr heq
    rw [hp] at this
    cases this
  · exact along_of_invariant step FillInv (fun _ e h => h.step e) (fun _ e h => h.stepLaw e) hs.fillInv events

/-- The quantity of the order is below the greatest decimal of the default context, and no fill has a digit below its
last place. -/
structure InRange (s : OrderExecutionState) (events : List BrokerOrderEvent) : Prop where
  quantity : s.orderQuantity < Limits.default.top
  fills : ∀ e ∈ events, Units (Limits.default.etiny 28) e.fillQuantity.val

/-- What the exponent range does to the addition of a fill: nothing, or it overflows and the event is not accepted. -/
def Summed (s : OrderExecutionState) (e : BrokerOrderEvent) : Prop :=
  e.eventType.isFill = true →
    Limits.default.limited 28 (s.filledQuantity + e.fillQuantity.val) = some (s.nextFilled e) ∨
    Limits.default.limited 28 (s.filledQuantity + e.fillQuantity.val) = none ∧ s.step e = s

/-- The part of `InRange` that the steps keep. -/
structure RangeInv (s : OrderExecutionState) : Prop where
  quantity : s.orderQuantity < Limits.default.top
  filled : Units (Limits.default.etiny 28) s.filledQuantity

theorem RangeInv.step {s : OrderExecutionState} {e : BrokerOrderEvent} (hI : s.RangeInv)
    (he : Units (Limits.default.etiny 28) e.fillQuantity.val) : (s.step e).RangeInv := by
  rcases s.step_cases e with h | ⟨-, h⟩
  · obtain ⟨-, -, -, -, hq, hf, -⟩ := applyEvent_ok h
    refine ⟨by rw [hq]; exact hI.quantity, ?_⟩
    rw [hf, filledAfter]
    split_ifs
    · exact units_fix (hI.filled.add he)
    · exact hI.filled
  · rw [h]
    exact hI

theorem RangeInv.summed {s : OrderExecutionState} {e : BrokerOrderEvent} (hI : s.RangeInv)
    (he : Units (Limits.default.etiny 28) e.fillQuantity.val) : s.Summed e := by
  intro hfill
  rw [Limits.limited_of_units (hI.filled.add he)]
  have hpos := nextFilled_pos (s := s) hfill
  have habs : |(Ctx.mk (some 28)).fix (s.filledQuantity + e.fillQuantity.val)| = s.nextFilled e := abs_of_pos hpos
  rw [habs]
  split_ifs with htop
  · exact .inl rfl
  · refine .inr ⟨rfl, ?_⟩
    -- a sum beyond the range is more than the order
    have hover : s.orderQuantity < s.nextFilled e := hI.quantity.trans_le (not_lt.mp htop)
    rcases s.step_cases e with h | ⟨-, h⟩
    · obtain ⟨-, -, -, -, hq, hf, -⟩ := applyEvent_ok h
      have hle := (s.step e).filled_le
      rw [hq, hf, filledAfter, if_pos hfill] at hle
      exact absurd hle (not_le.mpr hover)
    · exact h

theorem along_summed {s : OrderExecutionState} (hs : s.Fresh) {events : List BrokerOrderEvent}
    (hrange : s.InRange events) : Along step Summed s events := by
  have hfills : Along step (fun _ e => Units (Limits.default.etiny 28) e.fillQuantity.val) s events :=
    along_of_prefix fun l e hl => hrange.fills e (hl.subset (List.mem_append_right _ (List.mem_singleton_self e)))
  exact hfills.steps (fun _ _ => RangeInv.step) (fun _ _ => RangeInv.summed) ⟨hrange.quantity, hs.1 ▸ units_zero _⟩

/-- **The law of every run from a fresh order.**  The filled quantity is the 28-digit sum of the accepted fills,
and their exact sum when every partial sum has at most 28 digits. -/
theorem fill_law {s : OrderExecutionState} (hs : s.Fresh) {events : List BrokerOrderEvent} (hrange : s.InRange events) :
    s.FillLaw contextSum events ∧ Along step Summed s events ∧
      ((∀ k, Digits 28 ((s.acceptedFills events).take k).sum) → s.FillLaw List.sum events) := by
  have h := fillLaw_contextSum hs events
  refine ⟨h, along_summed hs hrange, fun hd => ⟨h.nonneg, h.le, ?_, h.filled_iff, h.partial_between, h.steps⟩⟩
  rw [h.sum, contextSum_eq_sum hd]

/-- An order of quantity `q`, acknowledged by the broker. -/
def acknowledgedOrder (q : ℕ) (hq : 0 < q) : OrderExecutionState where
  lifecycle := ⟨⟨1⟩, .brokerAcknowledged, []⟩
  orderQuantity := q
  quantity_pos := by exact_mod_cast hq
  filled_nonneg := le_rfl
  filled_le := Nat.cast_nonneg q

/-- The fields of an event on that order. -/
def eventOn (t : OrderEventType) (q : ℕ) : EventFields where
  orderId := ⟨1⟩
  eventType := t
  occurredAt := ⟨2026, 8, 12, 9, 30, 0, 0, some 0⟩
  reason := "broker report"
  fillQuantity := Dec.ofNat q

/-- Whole quantities below `10 ^ 3` are in range. -/
theorem inRange_acknowledged {q : ℕ} (hq : 0 < q) (hlt : q < 10 ^ 3) {events : List BrokerOrderEvent}
    (hevents : ∀ e ∈ events, ∃ t n, e.toEventFields = eventOn t n) : (acknowledgedOrder q hq).InRange events := by
  constructor
  · calc (q : ℚ) < 10 ^ (3 : ℤ) := by exact_mod_cast hlt
      _ ≤ Limits.default.top := zpow_le_zpow_right₀ (by norm_num) (by decide)
  · intro e he
    obtain ⟨t, n, h⟩ := hevents e he
    rw [h, eventOn, Dec.val_ofNat]
    exact_mod_cast units_intCast (by decide) (n : ℤ)

theorem fill_law_partial : (acknowledgedOrder 100 (by decide)).FillLaw contextSum
    [⟨eventOn .partialFill 30, by decide +kernel⟩, ⟨eventOn .fill 70, by decide +kernel⟩] :=
  (fill_law (s := acknowledgedOrder 100 (by decide)) (by decide +kernel)
    (inRange_acknowledged (by decide) (by decide) fun e he => by
      rcases List.mem_pair.mp he with rfl | rfl
      · exact ⟨_, _, rfl⟩
      · exact ⟨_, _, rfl⟩)).1

/-- A fill below the range of the context: `Decimal` addition makes nothing of it. -/
theorem limited_underflow : Limits.default.limited 28 (0 + 10 ^ (-2000000 : ℤ)) = some 0 := by
  rw [zero_add]
  refine Limits.limited_of_tiny (ten_zpow_pos _) ?_
  calc (10 : ℚ) ^ (-2000000 : ℤ) ≤ 10 ^ (Limits.default.etiny 28 - 1) := zpow_le_zpow_right₀ (by norm_num) (by decide)
    _ = 10 ^ Limits.default.etiny 28 / 10 := by rw [zpow_sub₀ (by norm_num), zpow_one]
    _ < 10 ^ Limits.default.etiny 28 / 2 := by
      have := ten_zpow_pos (Limits.default.etiny 28)
      linarith

/-- With 29-digit quantities the filled quantity is not the exact sum: after fills of `10 ^ 28` and `1` it is
`10 ^ 28`. -/
theorem not_fillLaw_sum : ¬ ∀ s : OrderExecutionState, s.Fresh → ∀ events, s.FillLaw List.sum events := by
  intro h
  have hs := (h (acknowledgedOrder (10 ^ 29) (by decide)) (by decide +kernel)
    [⟨eventOn .partialFill (10 ^ 28), by decide +kernel⟩, ⟨eventOn .partialFill 1, by decide +kernel⟩]).sum
  revert hs
  decide +kernel

/-! ### Traded orders reported as acknowledged or rejected -/

/-- A rejected or merely acknowledged order has traded nothing. -/
def NotMisreported (s : OrderExecutionState) : Prop :=
  (s.status = .rejected → s.filledQuantity = 0) ∧ (s.status = .brokerAcknowledged → s.filledQuantity = 0)

/-- The recovery step that loses sight of the fills: an acknowledgement or a rejection of this order, reported
after a reconciliation, when the order has traded. -/
def Detour (s : OrderExecutionState) (e : BrokerOrderEvent) : Prop :=
  s.status = .reconciliationRequired ∧ s.filledQuantity ≠ 0 ∧ e.orderId = s.lifecycle.orderId ∧
    (e.eventType = .brokerAcknowledged ∨ e.eventType = .rejected)

instance (s : OrderExecutionState) : Decidable s.NotMisreported := inferInstanceAs (Decidable (_ ∧ _))

instance (s : OrderExecutionState) (e : BrokerOrderEvent) : Decidable (s.Detour e) :=
  inferInstanceAs (Decidable (_ ∧ _ ∧ _ ∧ (_ ∨ _)))

/-- Statuses that no fill has reached. -/
def untraded : List OrderState :=
  [.intentCreated, .internalOrderCreated, .submissionRequested, .brokerAcknowledged, .rejected]

theorem untraded_step {s : OrderExecutionState} {e : BrokerOrderEvent}
    (hI : s.status ∈ untraded → s.filledQuantity = 0) (hG : ¬ s.Detour e) :
    (s.step e).status ∈ untraded → (s.step e).filledQuantity = 0 := by
  rcases s.step_cases e with h | ⟨-, h⟩
  · obtain ⟨hid, hmem, hst, -, -, hf, -⟩ := applyEvent_ok h
    rw [hst, hf, filledAfter]
    intro ht
    -- only an acknowledgement or a rejection ends in such a status, and it carries no quantity
    have hte : e.eventType = .brokerAcknowledged ∨ e.eventType = .rejected := by
      cases hte : e.eventType <;> simp_all [OrderEventType.target, untraded]
    have hnf : e.eventType.isFill = false := by rcases hte with h | h <;> rw [h] <;> rfl
    rw [hnf, if_neg (by simp)]
    by_cases hr : s.status = .reconciliationRequired
    · by_contra hne
      exact hG ⟨hr, hne, hid, hte⟩
    · refine hI ?_
      cases hs : s.status <;> rcases hte with h | h <;>
        simp_all [OrderEventType.target, allowedTransitions, untraded]
  · rw [h]; exact hI

theorem misreported_of_detour {s : OrderExecutionState} {e : BrokerOrderEvent} (h : s.Detour e) :
    ¬ (s.step e).NotMisreported := by
  obtain ⟨hr, hne, hid, ht⟩ := h
  have hmem : e.eventType.target ∈ allowedTransitions s.status := by
    rw [hr]; rcases ht with h | h <;> rw [h] <;> decide
  obtain ⟨s', happ⟩ : ∃ s', s.applyEvent e = .ok s' := by
    refine applyEvent_accepts_iff.mpr ⟨hid, hmem, fun h => ?_, fun h => ?_⟩ <;> rw [h] at ht <;> simp at ht
  obtain ⟨-, -, hst, -, -, hf, -⟩ := applyEvent_ok happ
  rw [step_ok happ]
  rintro ⟨h1, h2⟩
  rcases ht with h | h
  · rw [h] at hst
    have := h2 hst
    rw [hf, filledAfter, h] at this
    exact hne this
  · rw [h] at hst
    have := h1 hst
    rw [hf, filledAfter, h] at this
    exact hne this

theorem Fresh.untraded {s : OrderExecutionState} (hs : s.Fresh) :
    s.status ∈ untraded → s.filledQuantity = 0 := fun _ => hs.1

/-- **Traded orders are never misreported exactly on the runs without a detour.** -/
theorem not_misreported_iff {s : OrderExecutionState} (hs : s.Fresh) (events : List BrokerOrderEvent) :
    (∀ l, l <+: events → (run step s l).NotMisreported) ↔ Along step (fun s e => ¬ s.Detour e) s events := by
  constructor
  · intro h
    refine along_of_prefix fun l e hl => ?_
    intro hd
    have := h (l ++ [e]) hl
    rw [run_concat] at this
    exact misreported_of_detour hd this
  · rintro hG l ⟨r, rfl⟩
    have hl := ((along_append step _ s l r).mp hG).1
    have hI := hl.invariant (I := fun s => s.status ∈ OrderExecutionState.untraded → s.filledQuantity = 0)
      (fun s e hI hG => untraded_step hI hG) hs.untraded
    exact ⟨fun h => hI (by rw [h]; decide), fun h => hI (by rw [h]; decide)⟩

theorem not_misreported_recovered : (run step (acknowledgedOrder 100 (by decide))
    [⟨eventOn .partialFill 30, by decide +kernel⟩, ⟨eventOn .unknown 0, by decide +kernel⟩,
      ⟨eventOn .reconciliationRequired 0, by decide +kernel⟩, ⟨eventOn .fill 70, by decide +kernel⟩]).NotMisreported :=
  (not_misreported_iff (by decide +kernel) _).mpr (by decide +kernel) _ List.prefix_rfl

/-- A partial fill, an unknown state, a reconciliation and a rejection leave a rejected order with 30 traded. -/
theorem misreported_rejection : ¬ ∀ s : OrderExecutionState, s.Fresh →
    ∀ events, (run step s events).NotMisreported := by
  intro h
  have hs := h (acknowledgedOrder 100 (by decide)) (by decide +kernel)
    [⟨eventOn .partialFill 30, by decide +kernel⟩, ⟨eventOn .unknown 0, by decide +kernel⟩,
      ⟨eventOn .reconciliationRequired 0, by decide +kernel⟩, ⟨eventOn .rejected 0, by decide +kernel⟩]
  revert hs
  decide +kernel

end AlphaAlgo.Execution.OrderExecutionState
