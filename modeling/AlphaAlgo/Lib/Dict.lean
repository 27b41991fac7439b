import Mathlib.Data.List.Nodup

/-!
# Dict — dictionaries that keep the order of insertion

A dictionary is a list of items whose keys are distinct.  Setting a key that is there leaves it in its place, a new one
comes last.

* `get?_eq_some`: what is under a key.
* `get?_set`, `get?_erase`: the other keys are left alone.
-/

namespace AlphaAlgo

structure Dict (K V : Type*) where
  items : List (K × V)
  nodup : (items.map Prod.fst).Nodup

namespace Dict

variable {K V : Type*}

def empty : Dict K V := ⟨[], List.nodup_nil⟩

instance : Inhabited (Dict K V) := ⟨empty⟩

variable [DecidableEq K]

def get? (d : Dict K V) (k : K) : Option V := (d.items.find? fun p => p.1 = k).map Prod.snd

def set (d : Dict K V) (k : K) (v : V) : Dict K V :=
  if h : k ∈ d.items.map Prod.fst then
    { items := d.items.map fun p => if p.1 = k then (k, v) else p
      nodup := by
        have hkeys : (Prod.fst ∘ fun p : K × V => if p.1 = k then (k, v) else p) = Prod.fst := by
          funext p
          by_cases hp : p.1 = k <;> simp [hp]
        rw [List.map_map, hkeys]
        exact d.nodup }
  else
    { items := d.items ++ [(k, v)]
      nodup := by
        rw [List.map_append, List.map_singleton]
        exact List.nodup_append.mpr ⟨d.nodup, List.nodup_singleton k, fun a ha b hb => by
          rw [List.mem_singleton.mp hb]; exact ne_of_mem_of_not_mem ha h⟩ }

/-- `pop`, whatever was there. -/
def erase (d : Dict K V) (k : K) : Dict K V where
  items := d.items.filter fun p => p.1 ≠ k
  nodup := d.nodup.sublist (List.filter_sublist.map Prod.fst)

variable {d : Dict K V} {k k' : K} {v v' : V}

/-- **What is under a key.** -/
theorem get?_eq_some : d.get? k = some v ↔ (k, v) ∈ d.items := by
  constructor
  · intro h
    obtain ⟨p, hp, rfl⟩ := Option.map_eq_some_iff.mp h
    have hkey : p.1 = k := by simpa using List.find?_some hp
    rw [← hkey]
    exact List.mem_of_find?_eq_some hp
  · intro h
    rw [get?]
    cases hfind : d.items.find? fun p => decide (p.1 = k) with
    | none => exact absurd (List.find?_eq_none.mp hfind _ h) (by simp)
    | some p =>
      have hkey : p.1 = k := by simpa using List.find?_some hfind
      -- the keys are distinct, so the first item found is the item
      have hsame : p = (k, v) := List.inj_on_of_nodup_map d.nodup (List.mem_of_find?_eq_some hfind) h hkey
      rw [hsame]
      rfl

theorem mem_set : (k', v') ∈ (d.set k v).items ↔ (k' = k ∧ v' = v) ∨ (k' ≠ k ∧ (k', v') ∈ d.items) := by
  unfold set
  split_ifs with h
  · rw [List.mem_map]
    constructor
    · rintro ⟨p, hp, heq⟩
      by_cases hk : p.1 = k
      · rw [if_pos hk, Prod.mk.injEq] at heq
        exact .inl ⟨heq.1.symm, heq.2.symm⟩
      · rw [if_neg hk] at heq
        subst heq
        exact .inr ⟨hk, hp⟩
    · rintro (⟨rfl, rfl⟩ | ⟨hne, hmem⟩)
      · obtain ⟨p, hp, hkey⟩ := List.mem_map.mp h
        exact ⟨p, hp, if_pos hkey⟩
      · exact ⟨_, hmem, if_neg hne⟩
  · rw [List.mem_append, List.mem_singleton, Prod.mk.injEq]
    constructor
    · rintro (hmem | heq)
      · exact .inr ⟨fun hk => h (List.mem_map.mpr ⟨_, hmem, hk⟩), hmem⟩
      · exact .inl heq
    · rintro (heq | ⟨-, hmem⟩)
      · exact .inr heq
      · exact .inl hmem

theorem mem_erase : (k', v') ∈ (d.erase k).items ↔ k' ≠ k ∧ (k', v') ∈ d.items := by
  rw [erase, List.mem_filter, and_comm, decide_eq_true_iff]

/-- Setting a key leaves the others alone. -/
theorem get?_set : (d.set k v).get? k' = if k' = k then some v else d.get? k' := by
  ext v'
  rw [get?_eq_some, mem_set]
  split_ifs with h
  · simp [h, eq_comm]
  · simp [h, get?_eq_some]

@[simp] theorem get?_set_self : (d.set k v).get? k = some v := by rw [get?_set, if_pos rfl]

theorem get?_set_of_ne (h : k' ≠ k) : (d.set k v).get? k' = d.get? k' := by rw [get?_set, if_neg h]

/-- Erasing a key leaves the others alone. -/
theorem get?_erase : (d.erase k).get? k' = if k' = k then none else d.get? k' := by
  ext v'
  rw [get?_eq_some, mem_erase]
  split_ifs with h
  · simp [h]
  · simp [h, get?_eq_some]

@[simp] theorem get?_erase_self : (d.erase k).get? k = none := by rw [get?_erase, if_pos rfl]

theorem get?_erase_of_ne (h : k' ≠ k) : (d.erase k).get? k' = d.get? k' := by rw [get?_erase, if_neg h]

end Dict

end AlphaAlgo
