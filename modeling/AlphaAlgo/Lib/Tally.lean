import Mathlib.Data.List.Nodup
import Mathlib.Data.List.Perm.Subperm
import Mathlib.Data.Int.Order.Basic

/-!
# Tally — counters kept alongside a bounded cache

A cache holds values under keys in the order of their last recording, and beside it stand counters under keys of the
same kind.  Recording a value evicts the oldest entries over the capacity, each with its counter.  A key may be counted
before its value is recorded: such a key is pending.

* `Kept.count`, `Kept.record`: the counted keys are cached or pending, whatever is counted and recorded.
* `Kept.length_counts_le`: the counters are as many as the cache may hold, and one more for each pending key.
-/

namespace AlphaAlgo

/-- The capacity, the cached values, and the counters; the oldest entries first. -/
structure Tally (K V : Type*) where
  capacity : ℤ
  cached : List (K × V)
  counts : List (K × ℤ)

namespace Tally

variable {K V W : Type*} [DecidableEq K]

/-- An item set in an ordered dictionary and moved to its end. -/
def put (l : List (K × W)) (k : K) (w : W) : List (K × W) := l.filter (fun e => e.1 ≠ k) ++ [(k, w)]

/-- One more for a key. -/
def count (t : Tally K V) (k : K) : Tally K V :=
  { t with counts := put t.counts k ((t.counts.lookup k).getD 0 + 1) }

/-- A value for a key; what is over the capacity goes, the oldest first. -/
def record (t : Tally K V) (k : K) (v : V) : Tally K V :=
  let evicted := ((put t.cached k v).length - t.capacity).toNat
  { t with
    cached := (put t.cached k v).drop evicted
    counts := t.counts.filter fun e => e.1 ∉ ((put t.cached k v).take evicted).map Prod.fst }

variable {t : Tally K V} {l : List (K × W)} {k k' : K} {v : V} {w : W}

theorem mem_keys_put : k' ∈ (put l k w).map Prod.fst ↔ k' = k ∨ k' ∈ l.map Prod.fst := by
  rw [put, List.map_append, List.mem_append, List.map_singleton, List.mem_singleton, or_comm]
  by_cases hk : k' = k
  · simp [hk]
  · simp [hk]

theorem nodup_keys_put (h : (l.map Prod.fst).Nodup) : ((put l k w).map Prod.fst).Nodup := by
  rw [put, List.map_append, List.map_singleton]
  refine List.nodup_append.mpr ⟨h.sublist (List.filter_sublist.map Prod.fst), List.nodup_singleton k, ?_⟩
  intro a ha b hb
  obtain ⟨e, he, rfl⟩ := List.mem_map.mp ha
  rw [List.mem_singleton.mp hb]
  exact of_decide_eq_true (List.mem_filter.mp he).2

theorem mem_counts_count : k ∈ (t.count k).counts.map Prod.fst := mem_keys_put.mpr (.inl rfl)

/-- The counters that stay are those whose keys are not evicted. -/
theorem mem_counts_record : k' ∈ (t.record k v).counts.map Prod.fst ↔ k' ∈ t.counts.map Prod.fst ∧
    k' ∉ ((put t.cached k v).take ((put t.cached k v).length - t.capacity).toNat).map Prod.fst := by
  simp only [record, List.mem_map, List.mem_filter, decide_eq_true_eq]
  constructor
  · rintro ⟨e, ⟨he, hkept⟩, rfl⟩
    exact ⟨⟨e, he, rfl⟩, hkept⟩
  · rintro ⟨⟨e, he, rfl⟩, hkept⟩
    exact ⟨e, ⟨he, hkept⟩, rfl⟩

/-! ### The counters are those of the cache -/

/-- The cache is within its capacity, and the counted keys are cached or pending. -/
structure Kept (t : Tally K V) (pending : K → Prop) : Prop where
  capacity_nonneg : 0 ≤ t.capacity
  within : (t.cached.length : ℤ) ≤ t.capacity
  once : (t.counts.map Prod.fst).Nodup
  counted : ∀ k ∈ t.counts.map Prod.fst, k ∈ t.cached.map Prod.fst ∨ pending k

variable {pending pending' : K → Prop}

omit [DecidableEq K] in
theorem kept_empty {capacity : ℤ} (h : 0 ≤ capacity) : (⟨capacity, [], []⟩ : Tally K V).Kept pending :=
  ⟨h, h, List.nodup_nil, by simp⟩

omit [DecidableEq K] in
theorem Kept.mono (h : t.Kept pending) (hpending : ∀ k, pending k → pending' k) : t.Kept pending' :=
  ⟨h.capacity_nonneg, h.within, h.once, fun k hk => (h.counted k hk).imp_right (hpending k)⟩

/-- A key that is counted is pending. -/
theorem Kept.count (h : t.Kept pending) (k : K) : (t.count k).Kept fun k' => pending k' ∨ k' = k where
  capacity_nonneg := h.capacity_nonneg
  within := h.within
  once := nodup_keys_put h.once
  counted k' hk' := by
    rcases mem_keys_put.mp hk' with rfl | hk'
    · exact .inr (.inr rfl)
    · exact (h.counted k' hk').imp_right .inl

/-- **A key whose value is recorded is not pending any more**: it is cached, or evicted with its counter. -/
theorem Kept.record (h : t.Kept pending) (k : K) (v : V) : (t.record k v).Kept fun k' => pending k' ∧ k' ≠ k where
  capacity_nonneg := h.capacity_nonneg
  within := by
    have hcapacity := h.capacity_nonneg
    simp only [Tally.record, List.length_drop]
    omega
  once := h.once.sublist (List.filter_sublist.map Prod.fst)
  counted k' hk' := by
    obtain ⟨hcounted, hkept⟩ := mem_counts_record.mp hk'
    -- a key that is not evicted and stands in the dictionary stands in the rest of it
    have hrest : k' ∈ (put t.cached k v).map Prod.fst → k' ∈ (t.record k v).cached.map Prod.fst := by
      intro hmem
      rw [← List.take_append_drop ((put t.cached k v).length - t.capacity).toNat (put t.cached k v), List.map_append] at hmem
      exact (List.mem_append.mp hmem).resolve_left hkept
    by_cases hk : k' = k
    · exact .inl (hrest (mem_keys_put.mpr (.inl hk)))
    · rcases h.counted k' hcounted with hcached | hpending
      · exact .inl (hrest (mem_keys_put.mpr (.inr hcached)))
      · exact .inr ⟨hpending, hk⟩

omit [DecidableEq K] in
/-- **The counters are bounded** by the capacity and the pending keys. -/
theorem Kept.length_counts_le (h : t.Kept pending) (ks : List K) (hks : ∀ k, pending k → k ∈ ks) :
    (t.counts.length : ℤ) ≤ t.capacity + ks.length := by
  have hsubset : t.counts.map Prod.fst ⊆ t.cached.map Prod.fst ++ ks := fun k hk =>
    List.mem_append.mpr ((h.counted k hk).imp_right (hks k))
  have hlength := (List.subperm_of_subset h.once hsubset).length_le
  have hwithin := h.within
  simp only [List.length_append, List.length_map] at hlength
  omega

end Tally

end AlphaAlgo
