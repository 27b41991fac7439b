import AlphaAlgo.Backtest.Fills

/-!
# Anchors — the record at which an intent may fill

Both engines anchor each intent at the first record strictly after its decision, with a cursor that only moves
forward; an intent with no such record gets its outcome at once.

* `anchorOf`: how many records are not after a decision, which is the index of the first one that is.
* `anchoredAt_anchorIntents`, `outcomes_anchorIntents`: for intents in ascending order the cursor finds that record.
-/

namespace AlphaAlgo.Backtest

/-- An intent with its index. -/
structure IndexedIntent where
  index : ℕ
  intent : OrderIntent

/-- The cursor, the intents anchored at each record, and the outcomes so far. -/
structure Anchoring where
  cursor : ℕ
  anchored : List (List IndexedIntent)
  outcomes : List (Option FillOutcome)

/-- A record that is not after the decision. -/
def notAfter (t : DateTime) (record : MarketRecord) : Bool := record.timestamp.instant ≤ t.instant

/-- The cursor moves on to a record after the decision. -/
def advance (records : List MarketRecord) (t : DateTime) (cursor : ℕ) : ℕ :=
  cursor + ((records.drop cursor).takeWhile (notAfter t)).length

/-- The outcome of an intent with no record after its decision. -/
def noRecord (index : ℕ) : FillOutcome := ⟨index, .unfilled .noRecordAfterDecision⟩

def anchorStep (records : List MarketRecord) (a : Anchoring) (e : IndexedIntent) : Anchoring :=
  let cursor := advance records e.intent.decidedAt a.cursor
  if cursor < records.length then
    { a with cursor := cursor, anchored := a.anchored.modify cursor (· ++ [e]) }
  else { a with cursor := cursor, outcomes := a.outcomes.set e.index (some (noRecord e.index)) }

/-- The loop over the intents. -/
def anchorIntents (records : List MarketRecord) (entries : List IndexedIntent) (outcomes : List (Option FillOutcome)) :
    Anchoring :=
  entries.foldl (anchorStep records) ⟨0, List.replicate records.length [], outcomes⟩

/-- The intents anchored at record `k`. -/
def Anchoring.anchoredAt (a : Anchoring) (k : ℕ) : List IndexedIntent := a.anchored.getD k []

/-- Intents in strictly ascending order of decision. -/
def Ascending (intents : List OrderIntent) : Prop :=
  intents.IsChain fun a b => a.decidedAt.instant < b.decidedAt.instant

instance (intents : List OrderIntent) : Decidable (Ascending intents) :=
  inferInstanceAs (Decidable (intents.IsChain _))

theorem ascending_iff_pairwise {intents : List OrderIntent} :
    Ascending intents ↔ intents.Pairwise fun a b => a.decidedAt.instant < b.decidedAt.instant :=
  List.isChain_iff_pairwise

/-! ### The first record after a decision -/

/-- The index of the first record after the decision; the number of records when there is none. -/
def anchorOf (records : List MarketRecord) (t : DateTime) : ℕ := (records.takeWhile (notAfter t)).length

theorem anchorOf_le (records : List MarketRecord) (t : DateTime) : anchorOf records t ≤ records.length :=
  (List.takeWhile_sublist _).length_le

theorem notAfter_mono {t u : DateTime} (h : t.instant ≤ u.instant) {r : MarketRecord} (hr : notAfter t r = true) :
    notAfter u r = true := decide_eq_true ((of_decide_eq_true hr).trans h)

/-- **A later decision** does not anchor before an earlier one. -/
theorem anchorOf_mono (records : List MarketRecord) {t u : DateTime} (h : t.instant ≤ u.instant) :
    anchorOf records t ≤ anchorOf records u := by
  unfold anchorOf
  induction records with
  | nil => simp only [List.takeWhile_nil, le_refl]
  | cons r rs ih =>
    by_cases hr : notAfter t r = true
    · rw [List.takeWhile_cons_of_pos hr, List.takeWhile_cons_of_pos (notAfter_mono h hr), List.length_cons,
        List.length_cons]
      omega
    · rw [List.takeWhile_cons_of_neg hr]
      exact Nat.zero_le _

/-- The record at the anchor is after the decision, and none before it is. -/
theorem anchorOf_eq_iff {records : List MarketRecord} {t : DateTime} {k : ℕ} (hk : k < records.length) :
    anchorOf records t = k ↔
      t.instant < records[k].timestamp.instant ∧ ∀ r ∈ records.take k, r.timestamp.instant ≤ t.instant := by
  induction records generalizing k with
  | nil => simp at hk
  | cons r rs ih =>
    unfold anchorOf at ih ⊢
    by_cases hr : notAfter t r = true
    · have hle : r.timestamp.instant ≤ t.instant := of_decide_eq_true hr
      rw [List.takeWhile_cons_of_pos hr, List.length_cons]
      cases k with
      | zero =>
        simp only [Nat.succ_ne_zero, false_iff, List.getElem_cons_zero]
        exact fun h => absurd h.1 (not_lt.mpr hle)
      | succ k =>
        have hk' : k < rs.length := Nat.lt_of_succ_lt_succ hk
        simp only [Nat.add_right_cancel_iff, ih hk', List.getElem_cons_succ, List.take_succ_cons, List.mem_cons,
          forall_eq_or_imp, hle, true_and]
    · have hlt : t.instant < r.timestamp.instant := not_le.mp fun h => hr (decide_eq_true h)
      rw [List.takeWhile_cons_of_neg hr, List.length_nil]
      cases k with
      | zero => simp [hlt]
      | succ k =>
        simp only [List.take_succ_cons, List.mem_cons, forall_eq_or_imp, not_le.mpr hlt, false_and, and_false,
          iff_false]
        exact fun h => by cases h

/-- A cursor that has not passed a record after the decision arrives at the first one. -/
theorem advance_eq {records : List MarketRecord} {t : DateTime} {cursor : ℕ} (hcursor : cursor ≤ records.length)
    (h : ∀ r ∈ records.take cursor, notAfter t r = true) : advance records t cursor = anchorOf records t := by
  have hsplit := @List.takeWhile_append_of_pos _ _ _ (records.drop cursor) h
  rw [List.take_append_drop] at hsplit
  rw [advance, anchorOf, hsplit, List.length_append, List.length_take_of_le hcursor]

/-- The records before the anchor are not after the decision, nor after a later one. -/
theorem notAfter_of_anchor {records : List MarketRecord} {t u : DateTime} (htu : t.instant ≤ u.instant) :
    ∀ r ∈ records.take (anchorOf records t), notAfter u r = true := by
  intro r hr
  have htake : records.take (anchorOf records t) = records.takeWhile (notAfter t) := by
    have hinitial := List.takeWhile_prefix (l := records) (notAfter t)
    exact (List.prefix_iff_eq_take.mp hinitial).symm
  rw [htake] at hr
  have hmem : notAfter t r = true := List.mem_takeWhile_imp hr
  exact decide_eq_true ((of_decide_eq_true hmem : r.timestamp.instant ≤ t.instant).trans htu)

/-! ### The loop -/

section Loop

variable {records : List MarketRecord}

/-- The intent gets its outcome at once when no record is after its decision. -/
def setMissing (records : List MarketRecord) (outcomes : List (Option FillOutcome)) (e : IndexedIntent) :
    List (Option FillOutcome) :=
  if anchorOf records e.intent.decidedAt = records.length then outcomes.set e.index (some (noRecord e.index))
  else outcomes

/-- The cursor has not passed a record after a decision to come. -/
def Anchoring.Behind (records : List MarketRecord) (a : Anchoring) (entries : List IndexedIntent) : Prop :=
  a.cursor ≤ records.length ∧ ∀ e ∈ entries, ∀ r ∈ records.take a.cursor, notAfter e.intent.decidedAt r = true

/-- One step: the cursor is at the anchor, and the intent is anchored there or has its outcome. -/
theorem anchorStep_eq {a : Anchoring} {e : IndexedIntent} {entries : List IndexedIntent}
    (h : a.Behind records (e :: entries)) : anchorStep records a e =
      { cursor := anchorOf records e.intent.decidedAt
        anchored := if anchorOf records e.intent.decidedAt < records.length then
            a.anchored.modify (anchorOf records e.intent.decidedAt) (· ++ [e]) else a.anchored
        outcomes := setMissing records a.outcomes e } := by
  have hadvance : advance records e.intent.decidedAt a.cursor = anchorOf records e.intent.decidedAt :=
    advance_eq h.1 (h.2 e List.mem_cons_self)
  unfold anchorStep setMissing
  dsimp only
  rw [hadvance]
  by_cases hlt : anchorOf records e.intent.decidedAt < records.length
  · rw [if_pos hlt, if_pos hlt, if_neg hlt.ne]
  · have heq : anchorOf records e.intent.decidedAt = records.length := le_antisymm (anchorOf_le _ _) (not_lt.mp hlt)
    rw [if_neg hlt, if_neg hlt, if_pos heq]

theorem behind_anchorStep {a : Anchoring} {e : IndexedIntent} {entries : List IndexedIntent}
    (h : a.Behind records (e :: entries))
    (hlater : ∀ e' ∈ entries, e.intent.decidedAt.instant ≤ e'.intent.decidedAt.instant) :
    (anchorStep records a e).Behind records entries := by
  rw [anchorStep_eq h]
  exact ⟨anchorOf_le _ _, fun e' he' r hr => notAfter_of_anchor (hlater e' he') r hr⟩

theorem anchoredAt_modify {a : Anchoring} {k n : ℕ} {e : IndexedIntent} {cursor : ℕ}
    {outcomes : List (Option FillOutcome)} (hn : n < a.anchored.length) :
    (Anchoring.mk cursor (a.anchored.modify n (· ++ [e])) outcomes).anchoredAt k =
      a.anchoredAt k ++ if n = k then [e] else [] := by
  unfold Anchoring.anchoredAt
  rw [List.getD_eq_getElem?_getD, List.getD_eq_getElem?_getD, List.getElem?_modify]
  by_cases hk : n = k
  · subst hk
    simp [List.getElem?_eq_getElem hn]
  · simp [hk]

/-- The loop from any cursor that is behind. -/
theorem foldl_anchorStep : ∀ {entries : List IndexedIntent} {a : Anchoring}, a.anchored.length = records.length →
    a.Behind records entries → entries.Pairwise (fun e e' => e.intent.decidedAt.instant ≤ e'.intent.decidedAt.instant) →
    (∀ k < records.length, (entries.foldl (anchorStep records) a).anchoredAt k =
      a.anchoredAt k ++ entries.filter fun e => anchorOf records e.intent.decidedAt = k) ∧
    (entries.foldl (anchorStep records) a).outcomes = entries.foldl (setMissing records) a.outcomes
  | [], a, _, _, _ => by simp
  | e :: entries, a, hlength, hbehind, hsorted => by
    obtain ⟨hlater, hsorted⟩ := List.pairwise_cons.mp hsorted
    have hstep := anchorStep_eq hbehind
    have hlength' : (anchorStep records a e).anchored.length = records.length := by
      rw [hstep]
      dsimp only
      split_ifs
      · rw [List.length_modify, hlength]
      · exact hlength
    obtain ⟨hanchored, houtcomes⟩ := foldl_anchorStep hlength' (behind_anchorStep hbehind hlater) hsorted
    refine ⟨fun k hk => ?_, ?_⟩
    · have hfirst : (anchorStep records a e).anchoredAt k =
          a.anchoredAt k ++ if anchorOf records e.intent.decidedAt = k then [e] else [] := by
        rw [hstep]
        by_cases hlt : anchorOf records e.intent.decidedAt < records.length
        · simp only [if_pos hlt]
          exact anchoredAt_modify (hlength ▸ hlt)
        · have hne : anchorOf records e.intent.decidedAt ≠ k := fun h => hlt (h ▸ hk)
          simp only [if_neg hlt, if_neg hne, List.append_nil]
          rfl
      rw [List.foldl_cons, hanchored k hk, hfirst, List.append_assoc, List.filter_cons]
      by_cases hk' : anchorOf records e.intent.decidedAt = k
      · simp [hk']
      · simp [hk']
    · rw [List.foldl_cons, houtcomes, hstep, List.foldl_cons]

end Loop

/-- The outcomes of intents with no record after their decision. -/
theorem getElem?_foldl_setMissing {records : List MarketRecord} (i : ℕ) : ∀ (entries : List IndexedIntent)
    (outcomes : List (Option FillOutcome)), i < outcomes.length →
      (entries.foldl (setMissing records) outcomes)[i]? =
        if ∃ e ∈ entries, e.index = i ∧ anchorOf records e.intent.decidedAt = records.length then some (some (noRecord i))
        else outcomes[i]?
  | [], outcomes, _ => by simp
  | e :: entries, outcomes, hi => by
    have hi' : i < (setMissing records outcomes e).length := by
      unfold setMissing
      split_ifs
      · rwa [List.length_set]
      · exact hi
    have hfirst : (setMissing records outcomes e)[i]? =
        if e.index = i ∧ anchorOf records e.intent.decidedAt = records.length then some (some (noRecord i))
        else outcomes[i]? := by
      unfold setMissing
      by_cases hmissing : anchorOf records e.intent.decidedAt = records.length
      · by_cases hindex : e.index = i
        · subst hindex
          simp [hmissing, hi]
        · simp [hmissing, hindex]
      · simp [hmissing]
    rw [List.foldl_cons, getElem?_foldl_setMissing i entries _ hi', hfirst]
    simp only [List.mem_cons, exists_eq_or_imp]
    by_cases hrest : ∃ e ∈ entries, e.index = i ∧ anchorOf records e.intent.decidedAt = records.length
    · rw [if_pos hrest, if_pos (Or.inr hrest)]
    · rw [if_neg hrest]
      simp only [hrest, or_false]

/-- **The cursor finds the first record after each decision.** -/
theorem anchoredAt_anchorIntents {records : List MarketRecord} {entries : List IndexedIntent}
    {outcomes : List (Option FillOutcome)}
    (hsorted : entries.Pairwise fun e e' => e.intent.decidedAt.instant ≤ e'.intent.decidedAt.instant) {k : ℕ}
    (hk : k < records.length) : (anchorIntents records entries outcomes).anchoredAt k =
      entries.filter fun e => anchorOf records e.intent.decidedAt = k := by
  have hbehind : (Anchoring.mk 0 (List.replicate records.length []) outcomes).Behind records entries :=
    ⟨Nat.zero_le _, by simp⟩
  have hempty : (Anchoring.mk 0 (List.replicate records.length []) outcomes).anchoredAt k = [] := by
    simp [Anchoring.anchoredAt, List.getD_eq_getElem?_getD, hk]
  rw [anchorIntents, (foldl_anchorStep (by simp) hbehind hsorted).1 k hk, hempty, List.nil_append]

theorem outcomes_anchorIntents {records : List MarketRecord} {entries : List IndexedIntent}
    {outcomes : List (Option FillOutcome)}
    (hsorted : entries.Pairwise fun e e' => e.intent.decidedAt.instant ≤ e'.intent.decidedAt.instant) :
    (anchorIntents records entries outcomes).outcomes = entries.foldl (setMissing records) outcomes :=
  (foldl_anchorStep (by simp) ⟨Nat.zero_le _, by simp⟩ hsorted).2

end AlphaAlgo.Backtest
