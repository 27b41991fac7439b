import Mathlib.Data.List.Nodup

/-!
# Lru — a bounded set that forgets what was used least recently

The entries stand in the order of their last use, as in an ordered dictionary: a value that is used again moves to the
end, a new one is appended, and over the capacity the first entry is dropped.

* `foldl_use`: after any uses the entries are the values used last, as many as fit.
* `mem_use_self`, `mem_of_use`: a use keeps its value, and what it keeps besides was there.
-/

namespace AlphaAlgo.Lru

variable {α : Type*}

/-- Over the capacity the first entry goes; no capacity is no bound. -/
def bound (capacity : Option ℕ) (l : List α) : List α :=
  match capacity with
  | none => l
  | some n => if n < l.length then l.tail else l

/-- The first `n` values; no capacity takes all. -/
def newest (capacity : Option ℕ) (l : List α) : List α :=
  match capacity with
  | none => l
  | some n => l.take n

variable [DecidableEq α]

/-- The entries after a use of `a`. -/
def use (capacity : Option ℕ) (l : List α) (a : α) : List α :=
  if a ∈ l then l.filter (· ≠ a) ++ [a] else bound capacity (l ++ [a])

/-- Last used first, each value once. -/
def recent (r : List α) (a : α) : List α := a :: r.filter (· ≠ a)

variable {capacity : Option ℕ} {l r : List α} {a b : α}

/-! ### One use -/

theorem filter_ne_of_notMem (h : a ∉ l) : l.filter (· ≠ a) = l :=
  List.filter_eq_self.mpr fun _ hb => decide_eq_true (ne_of_mem_of_not_mem hb h)

theorem nodup_recent (h : r.Nodup) : (recent r a).Nodup :=
  List.nodup_cons.mpr ⟨by simp, h.filter _⟩

/-- Where the value is among the first `n`, the others among them are the first `n - 1` others. -/
theorem take_filter_of_mem {n : ℕ} (hr : r.Nodup) (ha : a ∈ r.take (n + 1)) :
    (r.filter (· ≠ a)).take n = (r.take (n + 1)).filter (· ≠ a) := by
  induction r generalizing n with
  | nil => cases ha
  | cons c r ih =>
    obtain ⟨hc, hr⟩ := List.nodup_cons.mp hr
    rw [List.take_succ_cons]
    by_cases hca : c = a
    · subst hca
      rw [List.filter_cons_of_neg (by simp), List.filter_cons_of_neg (by simp), filter_ne_of_notMem hc,
        filter_ne_of_notMem fun h => hc (List.mem_of_mem_take h)]
    · rw [List.filter_cons_of_pos (by simp [hca]), List.filter_cons_of_pos (by simp [hca])]
      have hrest : a ∈ r.take n := by
        rw [List.take_succ_cons, List.mem_cons] at ha
        exact ha.resolve_left (Ne.symm hca)
      cases n with
      | zero => cases hrest
      | succ n => rw [List.take_succ_cons, ih hr hrest]

/-- Where it is not, taking it out changes nothing among them. -/
theorem take_filter_of_notMem {n : ℕ} (ha : a ∉ r.take n) : (r.filter (· ≠ a)).take n = r.take n := by
  induction r generalizing n with
  | nil => rfl
  | cons c r ih =>
    cases n with
    | zero => rfl
    | succ n =>
      rw [List.take_succ_cons, List.mem_cons, not_or] at ha
      rw [List.filter_cons_of_pos (by simp [Ne.symm ha.1]), List.take_succ_cons, List.take_succ_cons, ih ha.2]

theorem use_of_mem (h : a ∈ l) : use capacity l a = l.filter (· ≠ a) ++ [a] := if_pos h

theorem use_of_notMem (h : a ∉ l) : use capacity l a = bound capacity (l ++ [a]) := if_neg h

omit [DecidableEq α] in
/-- Of the values in the order of their use, the bound keeps the newest. -/
theorem bound_reverse {n : ℕ} (h : r.length ≤ n + 1) : bound (some n) r.reverse = (r.take n).reverse := by
  simp only [bound]
  split_ifs with hfull
  · rw [List.length_reverse] at hfull
    rw [List.tail_reverse, List.dropLast_eq_take, show r.length - 1 = n by omega]
  · rw [List.length_reverse, Nat.not_lt] at hfull
    rw [List.take_of_length_le hfull]

/-- **One use of the set is one use of the list of recent values.** -/
theorem use_newest (hcapacity : capacity ≠ some 0) (hr : r.Nodup) :
    use capacity (newest capacity r).reverse a = (newest capacity (recent r a)).reverse := by
  cases capacity with
  | none =>
    show use none r.reverse a = (a :: r.filter (· ≠ a)).reverse
    by_cases ha : a ∈ r
    · rw [use_of_mem (List.mem_reverse.mpr ha), List.filter_reverse, List.reverse_cons]
    · rw [use_of_notMem (fun h => ha (List.mem_reverse.mp h)), filter_ne_of_notMem ha, List.reverse_cons]
      rfl
  | some n =>
    obtain ⟨n, rfl⟩ := Nat.exists_eq_succ_of_ne_zero fun h => hcapacity (congrArg some h)
    show use _ (r.take (n + 1)).reverse a = ((a :: r.filter (· ≠ a)).take (n + 1)).reverse
    rw [List.take_succ_cons, List.reverse_cons]
    by_cases ha : a ∈ r.take (n + 1)
    · rw [use_of_mem (List.mem_reverse.mpr ha), List.filter_reverse, take_filter_of_mem hr ha]
    · have hfront : a ∉ r.take n := fun h => ha (List.take_subset_take_left r n.le_succ h)
      have hlength : (a :: r.take (n + 1)).length ≤ n + 1 + 1 := by
        rw [List.length_cons, List.length_take]
        omega
      rw [use_of_notMem (fun h => ha (List.mem_reverse.mp h)), take_filter_of_notMem hfront, ← List.reverse_cons,
        bound_reverse hlength, List.take_succ_cons, List.take_take, Nat.min_eq_left n.le_succ, List.reverse_cons]

/-! ### Runs -/

/-- **The set holds the values used last, as many as fit.** -/
theorem foldl_use (hcapacity : capacity ≠ some 0) (h : List α) :
    h.foldl (use capacity) [] = (newest capacity (h.foldl recent [])).reverse := by
  have hempty : ([] : List α) = (newest capacity []).reverse := by cases capacity <;> simp [newest]
  suffices key : ∀ {r : List α}, r.Nodup →
      h.foldl (use capacity) (newest capacity r).reverse = (newest capacity (h.foldl recent r)).reverse by
    conv_lhs => rw [hempty]
    exact key List.nodup_nil
  induction h with
  | nil => exact fun _ => rfl
  | cons a h ih =>
    intro r hr
    rw [List.foldl_cons, List.foldl_cons, use_newest hcapacity hr, ih (nodup_recent hr)]

/-! ### What a use keeps -/

omit [DecidableEq α] in
theorem mem_of_bound (h : b ∈ bound capacity l) : b ∈ l := by
  cases capacity with
  | none => exact h
  | some n =>
    simp only [bound] at h
    split_ifs at h
    · exact List.mem_of_mem_tail h
    · exact h

theorem mem_of_use (h : b ∈ use capacity l a) : b = a ∨ b ∈ l := by
  unfold use at h
  split_ifs at h
  · rcases List.mem_append.mp h with h | h
    · exact .inr (List.mem_of_mem_filter h)
    · exact .inl (List.mem_singleton.mp h)
  · rcases List.mem_append.mp (mem_of_bound h) with h | h
    · exact .inr h
    · exact .inl (List.mem_singleton.mp h)

theorem mem_use_self (hcapacity : capacity ≠ some 0) : a ∈ use capacity l a := by
  unfold use
  split_ifs
  · exact List.mem_append_right _ (List.mem_singleton_self a)
  · cases capacity with
    | none => exact List.mem_append_right _ (List.mem_singleton_self a)
    | some n =>
      simp only [bound]
      split_ifs with hlength
      · cases l with
        | nil =>
          rw [List.nil_append, List.length_singleton, Nat.lt_one_iff] at hlength
          exact absurd (congrArg some hlength) hcapacity
        | cons b l => exact List.mem_append_right _ (List.mem_singleton_self a)
      · exact List.mem_append_right _ (List.mem_singleton_self a)

theorem nodup_use (hl : l.Nodup) : (use capacity l a).Nodup := by
  have happend : ∀ {l : List α}, l.Nodup → a ∉ l → (l ++ [a]).Nodup := fun hl ha =>
    List.nodup_append.mpr ⟨hl, List.nodup_singleton a, fun b hb c hc => by
      rw [List.mem_singleton.mp hc]; exact ne_of_mem_of_not_mem hb ha⟩
  unfold use
  split_ifs with ha
  · exact happend (hl.filter _) (by simp)
  · cases capacity with
    | none => exact happend hl ha
    | some n =>
      simp only [bound]
      split_ifs
      · exact (happend hl ha).tail
      · exact happend hl ha

theorem length_use_le {n : ℕ} (h : l.length ≤ n) : (use (some n) l a).length ≤ n := by
  unfold use
  split_ifs with ha
  · have hlt : (l.filter (· ≠ a)).length < l.length :=
      List.length_filter_lt_length_iff_exists.mpr ⟨a, ha, by simp⟩
    rw [List.length_append, List.length_singleton]
    omega
  · simp only [bound]
    split_ifs with hlength
    · rw [List.length_tail, List.length_append, List.length_singleton]
      omega
    · omega

end AlphaAlgo.Lru
