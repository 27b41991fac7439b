import Mathlib

/-!
# Table — tables with a unique key, and column types

`Table R K key` is a list of rows, in the order they were committed, in which no key occurs twice: the unique
constraint is a field, so a table that breaks it cannot be built.  `get` selects by key, `modify` updates the row
of a key in place, `insert?` adds a row or fails on the constraint.

`Int4` is an `INTEGER` column, `numeric4` the rounding of a `NUMERIC(18, 4)` column; `fits n` is the length test of a
`VARCHAR(n)` column.
-/

namespace AlphaAlgo

/-- Rows with a unique key. -/
structure Table (R K : Type*) (key : R → K) where
  rows : List R
  unique : (rows.map key).Nodup

namespace Table

variable {R K : Type*} [DecidableEq K] {key : R → K}

/-- The empty table. -/
def empty : Table R K key := ⟨[], List.nodup_nil⟩

/-- The row with key `k`. -/
def get (t : Table R K key) (k : K) : Option R := t.rows.find? fun r => key r = k

/-- Update the row with key `k`; the key itself stays. -/
def modify (t : Table R K key) (k : K) (f : R → R) (hf : ∀ r, key (f r) = key r) : Table R K key where
  rows := t.rows.map fun r => if key r = k then f r else r
  unique := by
    have h : (fun r => key (if key r = k then f r else r)) = key := by
      funext r
      split_ifs
      · exact hf r
      · rfl
    rw [List.map_map, Function.comp_def, h]
    exact t.unique

/-- Add a row, unless its key is there. -/
def insert? (t : Table R K key) (r : R) : Option (Table R K key) :=
  if h : key r ∈ t.rows.map key then none
  else some
    { rows := t.rows ++ [r]
      unique := by
        rw [List.map_append, List.nodup_append]
        refine ⟨t.unique, by simp, ?_⟩
        rintro a ha b hb rfl
        simp only [List.map_cons, List.map_nil, List.mem_singleton] at hb
        exact h (hb ▸ ha) }

theorem get_eq_some_iff {t : Table R K key} {k : K} {r : R} : t.get k = some r ↔ r ∈ t.rows ∧ key r = k := by
  constructor
  · intro h
    exact ⟨List.mem_of_find?_eq_some h, by simpa using List.find?_some h⟩
  · rintro ⟨hr, rfl⟩
    -- the first row found has the same key, hence is the same row
    cases hg : t.get (key r) with
    | none => exact absurd (List.find?_eq_none.mp hg r hr) (by simp)
    | some r' =>
      have hr' : r' ∈ t.rows := List.mem_of_find?_eq_some hg
      have hk : key r' = key r := by simpa using List.find?_some hg
      rw [List.inj_on_of_nodup_map t.unique hr' hr hk]

theorem key_of_get {t : Table R K key} {k : K} {r : R} (h : t.get k = some r) : key r = k :=
  (get_eq_some_iff.mp h).2

theorem get_eq_none_iff {t : Table R K key} {k : K} : t.get k = none ↔ k ∉ t.rows.map key := by
  simp [get, List.find?_eq_none]

theorem get_modify_self (t : Table R K key) (k : K) (f : R → R) (hf : ∀ r, key (f r) = key r) :
    (t.modify k f hf).get k = (t.get k).map f := by
  have h : ((fun r => decide (key r = k)) ∘ fun r => if key r = k then f r else r) =
      fun r => decide (key r = k) := by
    funext r
    by_cases hk : key r = k <;> simp [hk, hf]
  unfold get modify
  rw [List.find?_map, h]
  cases hg : t.rows.find? fun r => decide (key r = k) with
  | none => rfl
  | some r =>
    have hk : key r = k := by simpa using List.find?_some hg
    simp [hk]

theorem get_modify_of_ne (t : Table R K key) {k k' : K} (f : R → R) (hf : ∀ r, key (f r) = key r)
    (hne : k' ≠ k) : (t.modify k f hf).get k' = t.get k' := by
  have h : ((fun r => decide (key r = k')) ∘ fun r => if key r = k then f r else r) =
      fun r => decide (key r = k') := by
    funext r
    by_cases hk : key r = k <;> simp [hk, hf]
  unfold get modify
  rw [List.find?_map, h]
  cases hg : t.rows.find? fun r => decide (key r = k') with
  | none => rfl
  | some r =>
    have hk : key r = k' := by simpa using List.find?_some hg
    simp [hk, hne]

/-- What a successful insertion does. -/
theorem insert?_eq_some {t t' : Table R K key} {r : R} (h : t.insert? r = some t') :
    t.get (key r) = none ∧ t'.rows = t.rows ++ [r] := by
  unfold insert? at h
  split_ifs at h with hk
  cases h
  exact ⟨get_eq_none_iff.mpr hk, rfl⟩

theorem insert?_eq_none {t : Table R K key} {r : R} (h : t.insert? r = none) :
    (t.get (key r)).isSome := by
  unfold insert? at h
  split_ifs at h with hk
  rw [Option.isSome_iff_ne_none, ne_eq, get_eq_none_iff]
  exact not_not.mpr hk

/-- A row with a new key is inserted. -/
theorem insert?_of_get_none {t : Table R K key} {r : R} (h : t.get (key r) = none) : ∃ t', t.insert? r = some t' := by
  cases hi : t.insert? r with
  | some t' => exact ⟨t', rfl⟩
  | none =>
    have := insert?_eq_none hi
    rw [h] at this
    cases this

theorem get_of_insert {t t' : Table R K key} {r : R} (h : t.insert? r = some t') (k : K) :
    t'.get k = if key r = k then some r else t.get k := by
  obtain ⟨hn, hr⟩ := insert?_eq_some h
  unfold get at hn ⊢
  rw [hr, List.find?_append]
  by_cases hk : key r = k
  · subst hk
    simp [hn]
  · simp [hk]

end Table

/-! ### Column types -/

/-- A value of an `INTEGER` column. -/
structure Int4 where
  val : ℤ
  range : -2147483648 ≤ val ∧ val ≤ 2147483647
deriving DecidableEq

/-- Values out of range are refused. -/
def Int4.of? (n : ℤ) : Option Int4 :=
  if h : -2147483648 ≤ n ∧ n ≤ 2147483647 then some ⟨n, h⟩ else none

theorem Int4.of?_eq_some {n : ℤ} {i : Int4} (h : Int4.of? n = some i) : i.val = n := by
  unfold Int4.of? at h
  split_ifs at h
  cases h
  rfl

/-- A number as a `NUMERIC(18, 4)` column stores it: four places, half away from zero. -/
def numeric4 (x : ℚ) : ℚ := (if 0 ≤ x then ⌊x * 10 ^ 4 + 1 / 2⌋ else ⌈x * 10 ^ 4 - 1 / 2⌉ : ℤ) / 10 ^ 4

/-- `s` fits a `VARCHAR(n)` column. -/
def fits (n : ℕ) (s : String) : Bool := s.length ≤ n

end AlphaAlgo
