import Mathlib.Algebra.Order.BigOperators.Group.List
import AlphaAlgo.Reconciliation.Matching

/-!
# Pairing — every observation is paired once or reported

* `matchAll_internal`, `matchAll_brokerOnly`: the consumed indices are always the numbers below a counter `c`, so
  the matcher is `pairUp`: an internal observation gets number `c` of its group, whatever the group.
* `MatchLaw`: every observation is paired once, within its key, or reported.
* `matchLaw_iff`: this holds exactly when every broker observation has a key, and the broker observations share
  one key or none of their keys is an internal one.
-/

namespace AlphaAlgo.Reconciliation

variable {α : Type*}

/-! ### The consumed indices -/

section

variable {key : α → Option String} {consumed : List ℕ} {c : ℕ}

/-- The consumed indices are those below `c`. -/
def Segment (consumed : List ℕ) (c : ℕ) : Prop := ∀ j, j ∈ consumed ↔ j < c

theorem Segment.cons (h : Segment consumed c) : Segment (c :: consumed) (c + 1) := by
  intro j
  rw [List.mem_cons, h j]
  omega

theorem firstFree_of_segment (h : Segment consumed c) {j : ℕ} (hj : j ≤ c) (group : List α) :
    firstFree consumed j group = group[c - j]?.map (·, c) := by
  induction group generalizing j with
  | nil => simp [firstFree]
  | cons o group ih =>
    rw [firstFree]
    rcases Nat.lt_or_ge j c with hlt | hge
    · have hc : c - j = (c - (j + 1)) + 1 := by omega
      rw [if_neg (not_not_intro ((h j).mpr hlt)), ih hlt, hc, List.getElem?_cons_succ]
    · obtain rfl : j = c := le_antisymm hj hge
      rw [if_pos fun hm => absurd ((h j).mp hm) (lt_irrefl j)]
      simp

theorem unconsumed_of_segment (h : Segment consumed c) (j : ℕ) (group : List α) :
    unconsumed consumed j group = group.drop (c - j) := by
  induction group generalizing j with
  | nil => simp [unconsumed]
  | cons o group ih =>
    rw [unconsumed, ih]
    rcases Nat.lt_or_ge j c with hlt | hge
    · have hc : c - j = (c - (j + 1)) + 1 := by omega
      rw [if_neg (not_not_intro ((h j).mpr hlt)), hc, List.drop_succ_cons]
    · have hc : c - j = 0 ∧ c - (j + 1) = 0 := by omega
      rw [if_pos fun hm => absurd ((h j).mp hm) (by omega), hc.1, hc.2]
      rfl

end

/-! ### Pairing by a counter -/

/-- The broker observations with the key of `x`. -/
def groupOf (key : α → Option String) (broker : List α) (x : α) : List α :=
  match key x with
  | none => []
  | some k => broker.filter fun o => key o = some k

/-- Number `c` of its group for each internal observation, where `c` counts the pairs so far. -/
def pairUp (group : α → List α) : ℕ → List α → List (α × Option α)
  | _, [] => []
  | c, x :: l =>
    match (group x)[c]? with
    | none => (x, none) :: pairUp group c l
    | some y => (x, some y) :: pairUp group (c + 1) l

/-- The pairs among decisions. -/
def pairsOf (d : List (α × Option α)) : List (α × α) := d.filterMap fun p => p.2.map (p.1, ·)

@[simp] theorem pairsOf_nil : pairsOf ([] : List (α × Option α)) = [] := rfl

@[simp] theorem pairsOf_none (x : α) (d : List (α × Option α)) : pairsOf ((x, none) :: d) = pairsOf d := rfl

@[simp] theorem pairsOf_some (x y : α) (d : List (α × Option α)) :
    pairsOf ((x, some y) :: d) = (x, y) :: pairsOf d := rfl

theorem groupOf_of_some {key : α → Option String} {broker : List α} {x : α} {k : String} (h : key x = some k) :
    groupOf key broker x = broker.filter fun o => key o = some k := by
  rw [groupOf, h]

theorem mem_groupOf {key : α → Option String} {broker : List α} {x o : α} :
    o ∈ groupOf key broker x ↔ o ∈ broker ∧ key o = key x ∧ (key x).isSome := by
  unfold groupOf
  cases key x <;> simp

section

variable {key : α → Option String} {consumed : List ℕ} {c : ℕ}

theorem counterpart_of_segment (h : Segment consumed c) (broker : List α) (x : α) :
    counterpart key (brokerIndex key broker) consumed x = (groupOf key broker x)[c]?.map (·, c) := by
  unfold counterpart groupOf
  cases key x with
  | none => rfl
  | some k =>
    simp only [brokerIndex, ← lookup_groupBy]
    cases (groupBy key broker).lookup k with
    | none => rfl
    | some group => exact firstFree_of_segment h (Nat.zero_le c) group

/-- **The loop** pairs by a counter and consumes the indices below it. -/
theorem matchLoop_of_segment (key : α → Option String) (h : Segment consumed c) (broker l : List α) :
    (matchLoop key (brokerIndex key broker) consumed l).1 = pairUp (groupOf key broker) c l ∧
      Segment (matchLoop key (brokerIndex key broker) consumed l).2
        (c + (pairsOf (pairUp (groupOf key broker) c l)).length) := by
  induction l generalizing consumed c with
  | nil => exact ⟨rfl, h⟩
  | cons x l ih =>
    rw [matchLoop, counterpart_of_segment h, pairUp]
    cases (groupOf key broker x)[c]? with
    | none => exact ⟨congrArg ((x, none) :: ·) (ih h).1, (ih h).2⟩
    | some y =>
      obtain ⟨h1, h2⟩ := ih h.cons
      refine ⟨congrArg ((x, some y) :: ·) h1, ?_⟩
      simpa [add_assoc, add_comm] using h2

end

theorem segment_nil : Segment [] 0 := by
  intro j
  simp

theorem matchAll_internal (key : α → Option String) (internal broker : List α) :
    (matchAll key internal broker).internal = pairUp (groupOf key broker) 0 internal :=
  (matchLoop_of_segment key segment_nil broker internal).1

theorem matchAll_brokerOnly (key : α → Option String) (internal broker : List α) :
    (matchAll key internal broker).brokerOnly.map Prod.snd =
      (groupBy key broker).flatMap fun p => p.2.drop (pairsOf (matchAll key internal broker).internal).length := by
  have h := (matchLoop_of_segment key segment_nil broker internal).2
  rw [Nat.zero_add, ← matchAll_internal] at h
  simp only [matchAll, brokerIndex, List.map_flatMap, List.map_map, Function.comp_def, List.map_id']
  congr 1
  funext p
  exact unconsumed_of_segment h 0 p.2

/-! ### The pairs -/

/-- The observations without a counterpart. -/
def unmatchedOf (d : List (α × Option α)) : List α := (d.filter fun p => p.2.isNone).map Prod.fst

theorem perm_pairsOf_unmatchedOf (d : List (α × Option α)) :
    (d.map Prod.fst).Perm ((pairsOf d).map Prod.fst ++ unmatchedOf d) := by
  induction d with
  | nil => simp [unmatchedOf]
  | cons p d ih =>
    obtain ⟨x, _ | y⟩ := p
    · simpa [unmatchedOf] using (ih.cons x).trans List.perm_middle.symm
    · simpa [unmatchedOf] using ih

section

variable {group : α → List α} {c : ℕ} {l : List α}

theorem map_fst_pairUp (group : α → List α) (c : ℕ) (l : List α) : (pairUp group c l).map Prod.fst = l := by
  induction l generalizing c with
  | nil => rfl
  | cons x l ih =>
    rw [pairUp]
    cases (group x)[c]? <;> simp [ih]

theorem mem_group_of_mem_pairUp {x y : α} (h : (x, y) ∈ pairsOf (pairUp group c l)) : x ∈ l ∧ y ∈ group x := by
  induction l generalizing c with
  | nil => simp [pairUp] at h
  | cons z l ih =>
    rw [pairUp] at h
    cases hz : (group z)[c]? with
    | none =>
      rw [hz] at h
      exact ⟨List.mem_cons_of_mem _ (ih h).1, (ih h).2⟩
    | some w =>
      rw [hz] at h
      rcases List.mem_cons.mp h with h | h
      · obtain ⟨rfl, rfl⟩ := Prod.mk.injEq .. ▸ h
        exact ⟨List.mem_cons_self, List.mem_of_getElem? hz⟩
      · exact ⟨List.mem_cons_of_mem _ (ih h).1, (ih h).2⟩

/-- With one group for those that have a group, the pairs take the group in order. -/
theorem pairUp_of_one_group {p : α → Prop} [DecidablePred p] {g : List α}
    (h : ∀ x ∈ l, group x = if p x then g else []) :
    (pairsOf (pairUp group c l)).map Prod.snd = (g.drop c).take (l.countP p) := by
  induction l generalizing c with
  | nil => simp [pairUp]
  | cons x l ih =>
    have hl : ∀ z ∈ l, group z = if p z then g else [] := fun z hz => h z (List.mem_cons_of_mem x hz)
    rw [pairUp, h x List.mem_cons_self]
    by_cases hx : p x
    · rw [if_pos hx, List.countP_cons_of_pos (by simpa using hx)]
      cases hc : g[c]? with
      | none =>
        rw [pairsOf_none, ih hl, List.drop_eq_nil_of_le (List.getElem?_eq_none_iff.mp hc)]
        simp
      | some y =>
        obtain ⟨hlt, rfl⟩ := List.getElem?_eq_some_iff.mp hc
        rw [pairsOf_some, List.map_cons, ih hl, List.drop_eq_getElem_cons hlt, List.take_succ_cons]
    · rw [if_neg hx, List.countP_cons_of_neg (by simpa using hx)]
      simpa using ih hl

/-- The last pair took its counterpart from a group that long. -/
theorem exists_long_group (h : pairsOf (pairUp group c l) ≠ []) :
    ∃ x ∈ l, c + (pairsOf (pairUp group c l)).length ≤ (group x).length := by
  induction l generalizing c with
  | nil => simp [pairUp] at h
  | cons x l ih =>
    rw [pairUp] at h ⊢
    cases hx : (group x)[c]? with
    | none =>
      rw [hx] at h
      obtain ⟨z, hz, hle⟩ := ih h
      exact ⟨z, List.mem_cons_of_mem x hz, hle⟩
    | some y =>
      by_cases hp : pairsOf (pairUp group (c + 1) l) = []
      · refine ⟨x, List.mem_cons_self, ?_⟩
        rw [pairsOf_some, hp]
        obtain ⟨hlt, -⟩ := List.getElem?_eq_some_iff.mp hx
        exact hlt
      · obtain ⟨z, hz, hle⟩ := ih hp
        refine ⟨z, List.mem_cons_of_mem x hz, ?_⟩
        rw [pairsOf_some, List.length_cons]
        omega

theorem length_group_le_of_no_pairs (h : pairsOf (pairUp group c l) = []) : ∀ x ∈ l, (group x).length ≤ c := by
  induction l with
  | nil => simp
  | cons x l ih =>
    rw [pairUp] at h
    cases hx : (group x)[c]? with
    | none =>
      rw [hx] at h
      intro z hz
      rcases List.mem_cons.mp hz with rfl | hz
      · exact List.getElem?_eq_none_iff.mp hx
      · exact ih h z hz
    | some y =>
      rw [hx] at h
      simp at h

end

/-! ### The evidence of one side only -/

section

variable (m : Matcher α) (ctx : MatchContext)

/-- The evidence of a kind. -/
def ComparisonResult.reported (result : ComparisonResult) (kind : DiscrepancyKind) : List Discrepancy :=
  result.discrepancies.filter fun d => d.kind = kind

theorem filter_duplicateReport {kind : DiscrepancyKind} (hk : kind.oneSided = true) (p : String × List α) :
    (duplicateReport m ctx p).filter (fun d => d.kind = kind) = [] := by
  have hne : m.duplicateKind ≠ kind := by
    rintro rfl
    rw [m.duplicate_not_oneSided] at hk
    cases hk
  unfold duplicateReport
  split_ifs
  · simp [hne]
  · rfl

theorem filter_duplicates {kind : DiscrepancyKind} (hk : kind.oneSided = true) (index : List (String × List α)) :
    (index.flatMap (duplicateReport m ctx)).filter (fun d => d.kind = kind) = [] := by
  simp [List.filter_flatMap, filter_duplicateReport m ctx hk]

theorem filter_internalReport_some {kind : DiscrepancyKind} (hk : kind.oneSided = true) (i : ℕ) (x y : α) :
    (internalReport m ctx i (x, some y)).filter (fun d => d.kind = kind) = [] := by
  rw [List.filter_eq_nil_iff]
  intro d hd
  obtain ⟨kind', hk', rfl⟩ := List.mem_map.mp hd
  have hkind' := m.compare_not_oneSided x y kind' hk'
  intro heq
  rw [discrepancy_kind, decide_eq_true_eq] at heq
  rw [heq, hk] at hkind'
  cases hkind'

theorem filter_internalReports (l : List ((α × Option α) × ℕ)) :
    (l.flatMap fun p => internalReport m ctx p.2 p.1).filter (fun d => d.kind = .internalOnly) =
      (l.filter fun p => p.1.2.isNone).map fun p => internalOnlyReport m ctx p.2 p.1.1 := by
  induction l with
  | nil => rfl
  | cons p l ih =>
    obtain ⟨⟨x, _ | y⟩, i⟩ := p
    · rw [List.flatMap_cons, List.filter_append, ih]
      simp [internalReport, internalOnlyReport]
    · rw [List.flatMap_cons, List.filter_append, ih, filter_internalReport_some m ctx rfl]
      simp

theorem reported_internalOnly (internal broker : List α) :
    (reconcile m ctx internal broker).reported .internalOnly =
      ((matchAll m.key internal broker).internal.zipIdx.filter fun p => p.1.2.isNone).map
        fun p => internalOnlyReport m ctx p.2 p.1.1 := by
  have hb : ((matchAll m.key internal broker).brokerOnly.map (brokerOnlyReport m ctx)).filter
      (fun d => d.kind = .internalOnly) = [] := by
    simp [List.filter_map, brokerOnlyReport, Function.comp_def]
  unfold ComparisonResult.reported reconcile
  rw [List.filter_append, List.filter_append, filter_duplicates m ctx rfl, filter_internalReports, hb]
  simp

theorem reported_brokerOnly (internal broker : List α) :
    (reconcile m ctx internal broker).reported .brokerOnly =
      (matchAll m.key internal broker).brokerOnly.map (brokerOnlyReport m ctx) := by
  have hi : ∀ l : List ((α × Option α) × ℕ),
      (l.flatMap fun p => internalReport m ctx p.2 p.1).filter (fun d => d.kind = .brokerOnly) = [] := by
    intro l
    rw [List.filter_flatMap, List.flatMap_eq_nil_iff]
    rintro ⟨⟨x, _ | y⟩, i⟩ -
    · simp [internalReport, internalOnlyReport]
    · exact filter_internalReport_some m ctx rfl i x y
  have hb : ((matchAll m.key internal broker).brokerOnly.map (brokerOnlyReport m ctx)).filter
      (fun d => d.kind = .brokerOnly) = (matchAll m.key internal broker).brokerOnly.map (brokerOnlyReport m ctx) := by
    simp [List.filter_map, brokerOnlyReport, Function.comp_def]
  unfold ComparisonResult.reported reconcile
  rw [List.filter_append, List.filter_append, filter_duplicates m ctx rfl, hi, hb]
  rfl

end

/-! ### The law -/

/-- **Every observation is paired once, within its key, or reported**: the pairs and the one-sided evidence of
`result` partition both lists, and each key has as many pairs as both sides allow. -/
structure MatchLaw (m : Matcher α) (ctx : MatchContext) (internal broker : List α) (result : ComparisonResult) :
    Prop where
  broker_once : broker.Perm ((pairsOf (matchAll m.key internal broker).internal).map Prod.snd ++
    (matchAll m.key internal broker).brokerOnly.map Prod.snd)
  internal_once : internal.Perm ((pairsOf (matchAll m.key internal broker).internal).map Prod.fst ++
    unmatchedOf (matchAll m.key internal broker).internal)
  same_key : ∀ p ∈ pairsOf (matchAll m.key internal broker).internal, ∃ k, m.key p.1 = some k ∧ m.key p.2 = some k
  pairs_min : ∀ k, (pairsOf (matchAll m.key internal broker).internal).countP (fun p => m.key p.1 = some k) =
    min (internal.countP fun x => m.key x = some k) (broker.countP fun o => m.key o = some k)
  reported_broker : result.reported .brokerOnly =
    (matchAll m.key internal broker).brokerOnly.map (brokerOnlyReport m ctx)
  reported_internal : result.reported .internalOnly =
    ((matchAll m.key internal broker).internal.zipIdx.filter fun p => p.1.2.isNone).map
      fun p => internalOnlyReport m ctx p.2 p.1.1
  none_of_perm : internal.Perm broker → result.reported .internalOnly = [] ∧ result.reported .brokerOnly = []

/-- Every broker observation has a key, and the broker observations share one key or none of their keys is an
internal one. -/
def OneKeyOrApart (key : α → Option String) (internal broker : List α) : Prop :=
  (∀ o ∈ broker, key o ≠ none) ∧
    ((∀ o ∈ broker, ∀ o' ∈ broker, key o = key o') ∨ ∀ x ∈ internal, ∀ o ∈ broker, key x ≠ key o)

section

variable {m : Matcher α} {ctx : MatchContext} {internal broker : List α}

theorem same_key_of_mem_pairs {key : α → Option String} {p : α × α}
    (hp : p ∈ pairsOf (matchAll key internal broker).internal) :
    p.2 ∈ broker ∧ ∃ k, key p.1 = some k ∧ key p.2 = some k := by
  rw [matchAll_internal] at hp
  obtain ⟨hb, hk, hs⟩ := mem_groupOf.mp (mem_group_of_mem_pairUp hp).2
  obtain ⟨k, hk'⟩ := Option.isSome_iff_exists.mp hs
  exact ⟨hb, k, hk', hk.trans hk'⟩

theorem internal_once (key : α → Option String) (internal broker : List α) :
    internal.Perm ((pairsOf (matchAll key internal broker).internal).map Prod.fst ++
      unmatchedOf (matchAll key internal broker).internal) := by
  have h := perm_pairsOf_unmatchedOf (matchAll key internal broker).internal
  rwa [matchAll_internal, map_fst_pairUp, ← matchAll_internal] at h

/-- What the law asks beyond what always holds. -/
theorem matchLaw_of
    (hbroker : broker.Perm ((pairsOf (matchAll m.key internal broker).internal).map Prod.snd ++
      (matchAll m.key internal broker).brokerOnly.map Prod.snd))
    (hmin : ∀ k, (pairsOf (matchAll m.key internal broker).internal).countP (fun p => m.key p.1 = some k) =
      min (internal.countP fun x => m.key x = some k) (broker.countP fun o => m.key o = some k))
    (hperm : internal.Perm broker → (pairsOf (matchAll m.key internal broker).internal).length = broker.length) :
    MatchLaw m ctx internal broker (reconcile m ctx internal broker) where
  broker_once := hbroker
  internal_once := internal_once m.key internal broker
  same_key := fun p hp => (same_key_of_mem_pairs hp).2
  pairs_min := hmin
  reported_broker := reported_brokerOnly m ctx internal broker
  reported_internal := reported_internalOnly m ctx internal broker
  none_of_perm := by
    intro h
    have hb := hbroker.length_eq
    have hi := (internal_once m.key internal broker).length_eq
    rw [List.length_append, List.length_map, List.length_map] at hb
    rw [List.length_append, List.length_map, h.length_eq] at hi
    rw [hperm h] at hb hi
    have hB : (matchAll m.key internal broker).brokerOnly = [] := by
      rw [← List.length_eq_zero_iff]
      omega
    have hI : unmatchedOf (matchAll m.key internal broker).internal = [] := by
      rw [← List.length_eq_zero_iff]
      omega
    rw [reported_internalOnly, reported_brokerOnly, hB]
    refine ⟨?_, rfl⟩
    rw [List.map_eq_nil_iff, List.filter_eq_nil_iff]
    intro p hp hnone
    rw [unmatchedOf, List.map_eq_nil_iff, List.filter_eq_nil_iff] at hI
    exact hI p.1 (List.fst_mem_of_mem_zipIdx hp) hnone

/-- Without a common key nothing is paired, and every broker observation is reported. -/
theorem matchLaw_of_apart (hkey : ∀ o ∈ broker, m.key o ≠ none)
    (h : ∀ x ∈ internal, ∀ o ∈ broker, m.key x ≠ m.key o) :
    MatchLaw m ctx internal broker (reconcile m ctx internal broker) := by
  have hP : pairsOf (matchAll m.key internal broker).internal = [] := by
    rw [List.eq_nil_iff_forall_not_mem]
    intro p hp
    obtain ⟨hb, k, h1, h2⟩ := same_key_of_mem_pairs hp
    rw [matchAll_internal] at hp
    exact h p.1 (mem_group_of_mem_pairUp hp).1 p.2 hb (h1.trans h2.symm)
  have hkeyed : broker.filter (fun o => (m.key o).isSome) = broker :=
    List.filter_eq_self.mpr fun o ho => Option.isSome_iff_ne_none.mpr (hkey o ho)
  refine matchLaw_of ?_ ?_ ?_
  · rw [matchAll_brokerOnly, hP]
    have hperm : ((groupBy m.key broker).flatMap Prod.snd).Perm _ := perm_flatMap_groupBy broker
    simpa [hkeyed] using hperm.symm
  · intro k
    rw [hP, List.countP_nil, eq_comm, Nat.min_eq_zero_iff, List.countP_eq_zero, List.countP_eq_zero]
    by_contra hcon
    push Not at hcon
    obtain ⟨⟨x, hx, hxk⟩, o, ho, hok⟩ := hcon
    exact h x hx o ho ((of_decide_eq_true hxk).trans (of_decide_eq_true hok).symm)
  · intro hp
    -- a broker observation would have its own key among the internal ones
    have hnil : broker = [] := List.eq_nil_iff_forall_not_mem.mpr fun o ho => h o (hp.mem_iff.mpr ho) o ho rfl
    rw [hP, hnil, List.length_nil, List.length_nil]

/-- With one key the pairs take the broker observations in order. -/
theorem matchLaw_of_one_key {k : String} (hne : broker ≠ []) (h : ∀ o ∈ broker, m.key o = some k) :
    MatchLaw m ctx internal broker (reconcile m ctx internal broker) := by
  have hgroup : ∀ x ∈ internal, groupOf m.key broker x = if m.key x = some k then broker else [] := by
    intro x _
    unfold groupOf
    cases hx : m.key x with
    | none => rfl
    | some k' =>
      simp only [Option.some.injEq]
      split_ifs with hk
      · exact List.filter_eq_self.mpr fun o ho => by simp [h o ho, hk]
      · exact List.filter_eq_nil_iff.mpr fun o ho => by simp [h o ho, Ne.symm hk]
  have hP : (pairsOf (matchAll m.key internal broker).internal).map Prod.snd =
      broker.take (internal.countP fun x => m.key x = some k) := by
    rw [matchAll_internal]
    exact pairUp_of_one_group hgroup
  have hlen : (pairsOf (matchAll m.key internal broker).internal).length =
      min (internal.countP fun x => m.key x = some k) broker.length := by
    rw [← List.length_map (f := Prod.snd), hP, List.length_take]
  have hall : ∀ k', (broker.countP fun o => m.key o = some k') = if k' = k then broker.length else 0 := by
    intro k'
    split_ifs with hk
    · exact List.countP_eq_length.mpr fun o ho => by simp [h o ho, hk]
    · exact List.countP_eq_zero.mpr fun o ho => by simp [h o ho, Ne.symm hk]
  refine matchLaw_of ?_ ?_ ?_
  · rw [matchAll_brokerOnly, groupBy_of_forall hne h, hP, hlen]
    simp only [List.flatMap_cons, List.flatMap_nil, List.append_nil]
    rw [← List.drop_eq_drop_min, List.take_append_drop]
  · intro k'
    have hpk : ∀ p ∈ pairsOf (matchAll m.key internal broker).internal, m.key p.1 = some k := by
      intro p hp
      obtain ⟨hb, k₁, h1, h2⟩ := same_key_of_mem_pairs hp
      rw [h1, ← h2, h p.2 hb]
    rw [hall k']
    split_ifs with hk
    · rw [hk, ← hlen]
      exact List.countP_eq_length.mpr fun p hp => by simp [hpk p hp]
    · rw [Nat.min_zero]
      exact List.countP_eq_zero.mpr fun p hp => by simp [hpk p hp, Ne.symm hk]
  · intro hp
    rw [hlen, hp.countP_eq, hall k, if_pos rfl, Nat.min_self]

theorem keyed_of_broker_once {key : α → Option String}
    (h : broker.Perm ((pairsOf (matchAll key internal broker).internal).map Prod.snd ++
      (matchAll key internal broker).brokerOnly.map Prod.snd)) : ∀ o ∈ broker, key o ≠ none := by
  intro o ho
  rcases List.mem_append.mp (h.mem_iff.mp ho) with ho | ho
  · obtain ⟨p, hp, rfl⟩ := List.mem_map.mp ho
    obtain ⟨-, k, -, hk⟩ := same_key_of_mem_pairs hp
    simp [hk]
  · rw [matchAll_brokerOnly] at ho
    obtain ⟨p, hp, ho⟩ := List.mem_flatMap.mp ho
    have ho' := List.mem_of_mem_drop ho
    rw [group_eq_filter hp, List.mem_filter] at ho'
    simp [of_decide_eq_true ho'.2]

/-- Cutting `n` off every length loses more than `n`, if one length is at least `n` and another is positive. -/
theorem sum_sub_add_lt {β : Type*} {l : List β} {f : β → ℕ} {n : ℕ} {p q : β} (hp : p ∈ l) (hq : q ∈ l)
    (hpq : q ≠ p) (hn : 0 < n) (hpn : n ≤ f p) (hqn : 0 < f q) :
    (l.map fun b => f b - n).sum + n < (l.map f).sum := by
  classical
  have hperm : l.Perm (p :: q :: (l.erase p).erase q) :=
    (List.perm_cons_erase hp).trans
      ((List.perm_cons_erase ((List.mem_erase_of_ne hpq).mpr hq)).cons p)
  have hle : (((l.erase p).erase q).map fun b => f b - n).sum ≤ (((l.erase p).erase q).map f).sum :=
    List.sum_le_sum fun b _ => Nat.sub_le _ _
  rw [(hperm.map _).sum_eq, (hperm.map f).sum_eq]
  simp only [List.map_cons, List.sum_cons]
  omega

/-- Two keys and a pair lose an observation: the pair's index is consumed in both groups. -/
theorem one_key_of_broker_once {key : α → Option String}
    (h : broker.Perm ((pairsOf (matchAll key internal broker).internal).map Prod.snd ++
      (matchAll key internal broker).brokerOnly.map Prod.snd))
    (hpair : pairsOf (matchAll key internal broker).internal ≠ []) : ∀ o ∈ broker, ∀ o' ∈ broker, key o = key o' := by
  have hkey := keyed_of_broker_once h
  have hlen := h.length_eq
  rw [List.length_append, matchAll_brokerOnly, List.length_flatMap, List.length_map] at hlen
  simp only [List.length_drop] at hlen
  have hgroups : ((groupBy key broker).map fun p => p.2.length).sum = broker.length := by
    have hperm : ((groupBy key broker).flatMap Prod.snd).Perm _ := perm_flatMap_groupBy broker
    rw [List.filter_eq_self.mpr fun o ho => Option.isSome_iff_ne_none.mpr (hkey o ho)] at hperm
    rw [← hperm.length_eq, List.length_flatMap]
  have hn : 0 < (pairsOf (matchAll key internal broker).internal).length := List.length_pos_of_ne_nil hpair
  -- the group of the last pair is at least as long as there are pairs
  obtain ⟨p, hp, hlong⟩ : ∃ p ∈ groupBy key broker,
      (pairsOf (matchAll key internal broker).internal).length ≤ p.2.length := by
    rw [matchAll_internal] at hpair hn ⊢
    obtain ⟨x, -, hx⟩ := exists_long_group hpair
    rw [Nat.zero_add] at hx
    obtain ⟨o, ho⟩ := List.exists_mem_of_length_pos (hn.trans_le hx)
    obtain ⟨hob, hox, hs⟩ := mem_groupOf.mp ho
    obtain ⟨k, hk⟩ := Option.isSome_iff_exists.mp hs
    obtain ⟨p, hp, rfl⟩ := exists_group hob (hox.trans hk)
    refine ⟨p, hp, ?_⟩
    rwa [groupOf_of_some hk, ← group_eq_filter hp] at hx
  have hone : ∀ o ∈ broker, key o = some p.1 := by
    intro o ho
    obtain ⟨k, hk⟩ := Option.ne_none_iff_exists'.mp (hkey o ho)
    obtain ⟨q, hq, rfl⟩ := exists_group ho hk
    by_contra hne
    have hpos : 0 < q.2.length := by
      rw [group_eq_filter hq]
      exact List.length_pos_of_mem (List.mem_filter.mpr ⟨ho, by simp [hk]⟩)
    have hqp : q ≠ p := fun heq => hne (heq ▸ hk)
    have := sum_sub_add_lt (f := fun p : String × List α => p.2.length) hp hq hqp hn hlong hpos
    omega
  intro o ho o' ho'
  rw [hone o ho, hone o' ho']

/-- **When the law holds**: exactly when every broker observation has a key, and the broker observations share one
key or none of their keys is an internal one. -/
theorem matchLaw_iff : MatchLaw m ctx internal broker (reconcile m ctx internal broker) ↔
    OneKeyOrApart m.key internal broker := by
  constructor
  · intro h
    refine ⟨keyed_of_broker_once h.broker_once, ?_⟩
    by_cases hP : pairsOf (matchAll m.key internal broker).internal = []
    · right
      intro x hx o ho heq
      rw [matchAll_internal] at hP
      have hle := length_group_le_of_no_pairs hP x hx
      rw [Nat.le_zero, List.length_eq_zero_iff] at hle
      have hmem : o ∈ groupOf m.key broker x := mem_groupOf.mpr ⟨ho, heq.symm,
        heq ▸ Option.isSome_iff_ne_none.mpr (keyed_of_broker_once h.broker_once o ho)⟩
      rw [hle] at hmem
      cases hmem
    · exact Or.inl (one_key_of_broker_once h.broker_once hP)
  · rintro ⟨hkey, hone | hapart⟩
    · cases hb : broker with
      | nil => exact matchLaw_of_apart (by simp) (by simp)
      | cons o l =>
        obtain ⟨k, hk⟩ := Option.ne_none_iff_exists'.mp (hkey o (by simp [hb]))
        exact matchLaw_of_one_key (by simp) fun o' ho' => (hone o' (hb ▸ ho') o (by simp [hb])).trans hk
    · exact matchLaw_of_apart hkey hapart

end

/-- **Orders and executions**: the law holds exactly when every broker observation has a key, and the broker
observations share one key or none of their keys is an internal one.  Prices and fees of executions are finite. -/
theorem matching_law_iff (ctx : MatchContext) :
    (∀ internal broker : List OrderObservation,
      MatchLaw orderMatcher ctx internal broker (reconcileOrders ctx internal broker) ↔
        OneKeyOrApart orderMatchKey internal broker) ∧
    (∀ (tolerance : Option Tolerance) (internal broker : List ExecutionObservation),
      MatchLaw (executionMatcher (tolerance.getD {})) ctx internal broker
        (reconcileExecutions ctx internal broker tolerance) ↔ OneKeyOrApart executionMatchKey internal broker) :=
  ⟨fun _ _ => matchLaw_iff, fun _ _ _ => matchLaw_iff⟩

/-- An order that only has a broker id. -/
def orderNumbered (brokerOrderId : String) : OrderObservation where
  brokerOrderId := some brokerOrderId
  clientOrderId := none
  accountId := none
  instrumentId := none
  side := some "BUY"
  quantity := some 100
  orderType := some "LIMIT"
  status := some "FILLED"

def twoOrders : List OrderObservation := [orderNumbered "B1", orderNumbered "B2"]

/-- Both sides hold the orders `B1` and `B2`: the second is reported as internal only, and the broker's is in no
pair and not reported. -/
theorem not_matchLaw_two_orders :
    ¬ MatchLaw orderMatcher ⟨⟨1⟩, ⟨2⟩, "PAPER", "PAPER"⟩ twoOrders twoOrders
        (reconcileOrders ⟨⟨1⟩, ⟨2⟩, "PAPER", "PAPER"⟩ twoOrders twoOrders) ∧
      (reconcileOrders ⟨⟨1⟩, ⟨2⟩, "PAPER", "PAPER"⟩ twoOrders twoOrders).internalOnly = 1 ∧
      (reconcileOrders ⟨⟨1⟩, ⟨2⟩, "PAPER", "PAPER"⟩ twoOrders twoOrders).brokerOnly = 0 := by
  refine ⟨fun hlaw => ?_, by decide +kernel, by decide +kernel⟩
  have hmem := hlaw.broker_once.mem_iff.mp (show orderNumbered "B2" ∈ twoOrders by simp [twoOrders])
  have hnot : orderNumbered "B2" ∉ (pairsOf (matchAll orderMatcher.key twoOrders twoOrders).internal).map Prod.snd ++
      (matchAll orderMatcher.key twoOrders twoOrders).brokerOnly.map Prod.snd := by
    decide +kernel
  exact hnot hmem

end AlphaAlgo.Reconciliation
