import Mathlib.Data.List.Nodup
import Mathlib.Data.List.Induction

/-!
# GroupBy — values grouped by key

`groupBy key l` is the dictionary of lists that `index.setdefault(key(x), []).append(x)` builds over the values of
`l` that have a key: the keys in the order of their first occurrence, each with its values in the order of `l`.

* `group_eq_filter`: the group of a key is the values with that key.
* `perm_flatMap_groupBy`: the groups together hold every value with a key, once.
-/

namespace AlphaAlgo

variable {α κ : Type*} [DecidableEq κ] (key : α → Option κ)

/-- `index.setdefault(key(x), []).append(x)`, for a value with a key. -/
def addToGroup (index : List (κ × List α)) (x : α) : List (κ × List α) :=
  match key x with
  | none => index
  | some k =>
    if k ∈ index.map Prod.fst then index.map fun p => if p.1 = k then (p.1, p.2 ++ [x]) else p
    else index ++ [(k, [x])]

def groupBy (l : List α) : List (κ × List α) := l.foldl (addToGroup key) []

theorem groupBy_concat (l : List α) (x : α) : groupBy key (l ++ [x]) = addToGroup key (groupBy key l) x := by
  simp [groupBy]

variable {key}

theorem fst_addToGroup (index : List (κ × List α)) (x : α) :
    (addToGroup key index x).map Prod.fst =
      match key x with
      | none => index.map Prod.fst
      | some k => if k ∈ index.map Prod.fst then index.map Prod.fst else index.map Prod.fst ++ [k] := by
  unfold addToGroup
  cases key x with
  | none => rfl
  | some k =>
    simp only
    split_ifs with hk
    · rw [List.map_map]
      refine List.map_congr_left fun p _ => ?_
      simp only [Function.comp_apply]
      split_ifs <;> rfl
    · simp

theorem mem_keys_groupBy {l : List α} {k : κ} : k ∈ (groupBy key l).map Prod.fst ↔ ∃ x ∈ l, key x = some k := by
  induction l using List.reverseRecOn with
  | nil => simp [groupBy]
  | append_singleton l x ih =>
    rw [groupBy_concat, fst_addToGroup]
    cases hx : key x with
    | none => simp only [ih, List.mem_append, List.mem_singleton, or_and_right, exists_or, exists_eq_left, hx,
        reduceCtorEq, or_false]
    | some k' =>
      simp only [List.mem_append, List.mem_singleton, or_and_right, exists_or, exists_eq_left, hx, ← ih,
        Option.some.injEq]
      split_ifs with hk
      · constructor
        · exact Or.inl
        · rintro (h | rfl)
          · exact h
          · exact hk
      · rw [List.mem_append, List.mem_singleton, eq_comm (a := k)]

theorem exists_group {l : List α} {x : α} {k : κ} (hx : x ∈ l) (hk : key x = some k) :
    ∃ p ∈ groupBy key l, p.1 = k :=
  List.mem_map.mp (mem_keys_groupBy.mpr ⟨x, hx, hk⟩)

theorem nodup_keys_groupBy (l : List α) : ((groupBy key l).map Prod.fst).Nodup := by
  induction l using List.reverseRecOn with
  | nil => simp [groupBy]
  | append_singleton l x ih =>
    rw [groupBy_concat, fst_addToGroup]
    cases key x with
    | none => exact ih
    | some k =>
      simp only
      split_ifs with hk
      · exact ih
      · rw [← List.concat_eq_append]
        exact ih.concat hk

theorem filter_key_eq_nil {l : List α} {k : κ} (h : k ∉ (groupBy key l).map Prod.fst) :
    l.filter (fun x => key x = some k) = [] := by
  rw [List.filter_eq_nil_iff]
  intro x hx hk
  exact h (mem_keys_groupBy.mpr ⟨x, hx, by simpa using hk⟩)

/-- **The group of a key** is the values with that key. -/
theorem group_eq_filter {l : List α} {p : κ × List α} (hp : p ∈ groupBy key l) :
    p.2 = l.filter fun x => key x = some p.1 := by
  induction l using List.reverseRecOn generalizing p with
  | nil => simp [groupBy] at hp
  | append_singleton l x ih =>
    rw [groupBy_concat] at hp
    rw [List.filter_append]
    unfold addToGroup at hp
    cases hx : key x with
    | none =>
      rw [hx] at hp
      simpa [hx] using ih hp
    | some k =>
      simp only [hx] at hp
      split_ifs at hp with hk
      · obtain ⟨q, hq, rfl⟩ := List.mem_map.mp hp
        split_ifs with h
        · simp [hx, h, ih hq]
        · simpa [hx, Ne.symm h] using ih hq
      · rcases List.mem_append.mp hp with hp | hp
        · have h : k ≠ p.1 := fun h => hk (h ▸ List.mem_map_of_mem hp)
          simpa [hx, h] using ih hp
        · cases List.mem_singleton.mp hp
          simp [hx, filter_key_eq_nil hk]

/-- Values that share one key make one group. -/
theorem groupBy_of_forall {l : List α} {k : κ} (hl : l ≠ []) (h : ∀ x ∈ l, key x = some k) :
    groupBy key l = [(k, l)] := by
  induction l using List.reverseRecOn with
  | nil => exact absurd rfl hl
  | append_singleton l x ih =>
    have hx : key x = some k := h x (by simp)
    rw [groupBy_concat]
    rcases List.eq_nil_or_concat l with rfl | hne
    · simp [groupBy, addToGroup, hx]
    · have hl : l ≠ [] := by
        obtain ⟨l', a, rfl⟩ := hne
        simp
      rw [ih hl fun y hy => h y (List.mem_append_left _ hy)]
      simp [addToGroup, hx]

theorem lookup_groupBy (l : List α) (k : κ) :
    ((groupBy key l).lookup k).getD [] = l.filter fun x => key x = some k := by
  cases h : (groupBy key l).lookup k with
  | none =>
    refine (filter_key_eq_nil fun hk => ?_).symm
    obtain ⟨p, hp, rfl⟩ := List.mem_map.mp hk
    have := List.lookup_eq_none_iff.mp h p hp
    simp at this
  | some g =>
    obtain ⟨l₁, l₂, hl, -⟩ := List.lookup_eq_some_iff.mp h
    exact group_eq_filter (p := (k, g)) (hl ▸ by simp)

/-- One value made of every group, where it gives one. -/
theorem lookup_filterMap {β γ : Type*} {index : List (κ × β)} (hn : (index.map Prod.fst).Nodup) (f : β → Option γ)
    (k : κ) : (index.filterMap fun p => (f p.2).map fun y => (p.1, y)).lookup k = (index.lookup k).bind f := by
  induction index with
  | nil => rfl
  | cons p index ih =>
    rw [List.map_cons, List.nodup_cons] at hn
    rw [List.filterMap_cons]
    by_cases h : k = p.1
    · subst h
      have hnone : index.lookup p.1 = none := by
        refine List.lookup_eq_none_iff.mpr fun q hq => ?_
        rw [bne_iff_ne]
        rintro heq
        exact hn.1 (heq ▸ List.mem_map_of_mem hq)
      rw [List.lookup_cons_self, Option.bind_some]
      cases hf : f p.2 with
      | none => rw [Option.map_none, ih hn.2, hnone, Option.bind_none]
      | some y => rw [Option.map_some, List.lookup_cons_self]
    · have hne : (k == p.1) = false := by simpa using h
      rw [List.lookup_cons, hne]
      cases f p.2 with
      | none => exact ih hn.2
      | some y => rw [Option.map_some, List.lookup_cons, hne]; exact ih hn.2

theorem perm_flatMap_append_at {index : List (κ × List α)} {k : κ} (x : α) (hn : (index.map Prod.fst).Nodup)
    (hk : k ∈ index.map Prod.fst) :
    ((index.map fun p => if p.1 = k then (p.1, p.2 ++ [x]) else p).flatMap Prod.snd).Perm
      (index.flatMap Prod.snd ++ [x]) := by
  induction index with
  | nil => simp at hk
  | cons p index ih =>
    rw [List.map_cons, List.nodup_cons] at hn
    rw [List.map_cons, List.flatMap_cons, List.flatMap_cons]
    by_cases h : p.1 = k
    · -- the other groups have other keys and stay
      have hrest : (index.map fun q => if q.1 = k then (q.1, q.2 ++ [x]) else q) = index := by
        conv_rhs => rw [← List.map_id index]
        refine List.map_congr_left fun q hq => if_neg fun hqk => hn.1 ?_
        rw [h, ← hqk]
        exact List.mem_map_of_mem hq
      rw [hrest, if_pos h, List.append_assoc, List.append_assoc]
      exact List.perm_append_comm.append_left p.2
    · rw [if_neg h, List.append_assoc]
      refine (ih hn.2 ?_).append_left p.2
      rcases List.mem_cons.mp hk with rfl | hk
      · exact absurd rfl h
      · exact hk

/-- **The groups together** hold every value with a key, once. -/
theorem perm_flatMap_groupBy (l : List α) :
    ((groupBy key l).flatMap Prod.snd).Perm (l.filter fun x => (key x).isSome) := by
  induction l using List.reverseRecOn with
  | nil => simp [groupBy]
  | append_singleton l x ih =>
    rw [groupBy_concat, List.filter_append]
    unfold addToGroup
    cases hx : key x with
    | none => simpa [hx] using ih
    | some k =>
      simp only [hx, Option.isSome_some, List.filter_cons_of_pos, List.filter_nil]
      split_ifs with hk
      · exact (perm_flatMap_append_at x (nodup_keys_groupBy l) hk).trans (ih.append_right [x])
      · simpa [List.flatMap_append] using ih.append_right [x]

end AlphaAlgo
