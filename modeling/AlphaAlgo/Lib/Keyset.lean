import Mathlib.Data.List.Sort
import Mathlib.Tactic

/-!
# Keyset — paging through a list that is sorted by a key

A page is the first `p` items after a cursor, and the next cursor is the key of its last item.  So items that share the
key of a page's last item, and did not fit, are passed over.

* `sortBy`: the stable sort by a key; it commutes with filters (`filter_sortBy`).
* `after_take`: after the key of the last item of a page comes the rest of the list, if the boundary separates keys.
* `separated_iff`: the boundaries of all pages, from the first one and those of the rest.
-/

namespace AlphaAlgo.Keyset

variable {α τ : Type*} [LinearOrder τ] (key : α → τ)

/-! ### The stable sort -/

def sortBy (l : List α) : List α := l.insertionSort fun a b => key a ≤ key b

/-- In the order of the key. -/
abbrev Sorted (l : List α) : Prop := l.Pairwise fun a b => key a ≤ key b

instance instTotalKey : Std.Total fun a b : α => key a ≤ key b := ⟨fun a b => le_total (key a) (key b)⟩

instance instTransKey : IsTrans α fun a b => key a ≤ key b := ⟨fun _ _ _ => le_trans⟩

theorem sorted_sortBy (l : List α) : Sorted key (sortBy key l) := List.pairwise_insertionSort _ l

theorem sortBy_eq_self {l : List α} (h : Sorted key l) : sortBy key l = l := h.insertionSort_eq

theorem filter_orderedInsert (p : α → Bool) (a : α) {l : List α} (h : Sorted key l) :
    (l.orderedInsert (fun a b => key a ≤ key b) a).filter p =
      if p a then (l.filter p).orderedInsert (fun a b => key a ≤ key b) a else l.filter p := by
  induction l with
  | nil => cases hp : p a <;> simp [hp]
  | cons b l ih =>
    obtain ⟨hb, hl⟩ := List.pairwise_cons.mp h
    rw [List.orderedInsert_cons]
    by_cases hab : key a ≤ key b
    · rw [if_pos hab]
      cases hp : p a with
      | false => rw [List.filter_cons_of_neg (by simp [hp]), if_neg (by simp)]
      | true =>
        rw [List.filter_cons_of_pos hp, if_pos rfl]
        -- everything that is left is not before `a`
        cases hfirst : (b :: l).filter p with
        | nil => rfl
        | cons c rest =>
          have hc : c ∈ b :: l := List.mem_of_mem_filter (hfirst ▸ List.mem_cons_self)
          have hac : key a ≤ key c := by
            rcases List.mem_cons.mp hc with rfl | hc
            · exact hab
            · exact hab.trans (hb c hc)
          rw [List.orderedInsert_cons, if_pos hac]
    · rw [if_neg hab]
      cases hpb : p b with
      | false => rw [List.filter_cons_of_neg (by simp [hpb]), List.filter_cons_of_neg (by simp [hpb]), ih hl]
      | true =>
        rw [List.filter_cons_of_pos hpb, List.filter_cons_of_pos hpb, ih hl]
        cases hp : p a with
        | false => rfl
        | true => rw [if_pos rfl, if_pos rfl, List.orderedInsert_cons, if_neg hab]

/-- **The sort is stable**: what a filter keeps is sorted among itself. -/
theorem filter_sortBy (p : α → Bool) (l : List α) : (sortBy key l).filter p = sortBy key (l.filter p) := by
  induction l with
  | nil => rfl
  | cons a l ih =>
    have hcons : sortBy key (a :: l) = (sortBy key l).orderedInsert (fun a b => key a ≤ key b) a := rfl
    rw [hcons, filter_orderedInsert key p a (sorted_sortBy key l), ih]
    cases hp : p a with
    | false => rw [List.filter_cons_of_neg (by simp [hp]), if_neg (by simp)]
    | true => rw [List.filter_cons_of_pos hp, if_pos rfl]; rfl

/-! ### Pages -/

/-- The items after a cursor. -/
def after (c : τ) (l : List α) : List α := l.filter fun a => c < key a

variable {key}

theorem mem_after {c : τ} {l : List α} {a : α} : a ∈ after key c l ↔ a ∈ l ∧ c < key a := by
  simp [after]

theorem sorted_after {c : τ} {l : List α} (h : Sorted key l) : Sorted key (after key c l) := h.filter _

theorem after_after {c d : τ} (h : c ≤ d) (l : List α) : after key d (after key c l) = after key d l := by
  rw [after, after, List.filter_filter]
  refine List.filter_congr fun a _ => ?_
  by_cases hd : d < key a
  · simp [hd, h.trans_lt hd]
  · simp [hd]

/-- Nothing comes after the last item. -/
theorem after_getLast {l : List α} (h : Sorted key l) {b : α} (hb : l.getLast? = some b) : after key (key b) l = [] := by
  obtain ⟨l', rfl⟩ := List.getLast?_eq_some_iff.mp hb
  refine List.filter_eq_nil_iff.mpr fun a ha => ?_
  rcases List.mem_append.mp ha with ha | ha
  · simpa using (List.pairwise_append.mp h).2.2 a ha b (List.mem_singleton_self b)
  · simp [List.mem_singleton.mp ha]

/-- After a page come the other items, when the first of them has another key. -/
theorem after_take {l : List α} (h : Sorted key l) {n : ℕ} {b : α} (hb : (l.take n).getLast? = some b)
    (hnext : ∀ c, l[n]? = some c → key b < key c) : after key (key b) l = l.drop n := by
  have hsplit := List.take_append_drop n l
  have hsorted : Sorted key (l.take n ++ l.drop n) := by
    rw [hsplit]
    exact h
  obtain ⟨htake, hdrop, -⟩ := List.pairwise_append.mp hsorted
  have hfront : after key (key b) (l.take n) = [] := after_getLast htake hb
  have hback : after key (key b) (l.drop n) = l.drop n := by
    refine List.filter_eq_self.mpr fun a ha => decide_eq_true ?_
    cases hrest : l.drop n with
    | nil => rw [hrest] at ha; cases ha
    | cons c rest =>
      have hc : l[n]? = some c := by rw [← List.head?_drop, hrest]; rfl
      rw [hrest] at ha hdrop
      rcases List.mem_cons.mp ha with rfl | ha
      · exact hnext a hc
      · exact (hnext c hc).trans_le ((List.pairwise_cons.mp hdrop).1 a ha)
  calc after key (key b) l = after key (key b) (l.take n ++ l.drop n) := by rw [hsplit]
    _ = l.drop n := by
      rw [after, List.filter_append]
      rw [after] at hfront hback
      rw [hfront, hback, List.nil_append]

variable (key)

/-- No boundary between two pages of `p` among the first `r` items parts items with one key. -/
def Separated (p r : ℕ) (l : List α) : Prop :=
  ∀ k, 0 < k → k * p < r → ∀ a b, l[k * p - 1]? = some a → l[k * p]? = some b → key a < key b

variable {key}

theorem separated_of_le {p r : ℕ} (h : r ≤ p) (l : List α) : Separated key p r l := by
  intro k hk hlt
  have hle : p ≤ k * p := Nat.le_mul_of_pos_left p hk
  omega

theorem separated_of_length_le {p r : ℕ} {l : List α} (h : l.length ≤ p) : Separated key p r l := by
  intro k hk _ a b _ hb
  obtain ⟨hlt, -⟩ := List.getElem?_eq_some_iff.mp hb
  have hle : p ≤ k * p := Nat.le_mul_of_pos_left p hk
  omega

/-- **The first boundary, and the others.** -/
theorem separated_iff {p r : ℕ} (hp : 0 < p) (hr : p < r) {l : List α} :
    Separated key p r l ↔
      (∀ a b, l[p - 1]? = some a → l[p]? = some b → key a < key b) ∧ Separated key p (r - p) (l.drop p) := by
  have hshift : ∀ k, (k + 1) * p = p + k * p := fun k => by ring
  constructor
  · intro h
    refine ⟨fun a b ha hb => ?_, fun k hk hlt a b ha hb => ?_⟩
    · have hone := h 1 Nat.one_pos (by omega) a b
      rw [one_mul] at hone
      exact hone ha hb
    · have hkp : 0 < k * p := Nat.mul_pos hk hp
      rw [List.getElem?_drop] at ha hb
      refine h (k + 1) (Nat.succ_pos k) (by rw [hshift]; omega) a b ?_ ?_
      · rw [hshift, show p + k * p - 1 = p + (k * p - 1) by omega]
        exact ha
      · rw [hshift]
        exact hb
  · rintro ⟨hfirst, hrest⟩ k hk hlt a b ha hb
    obtain ⟨k, rfl⟩ := Nat.exists_eq_succ_of_ne_zero hk.ne'
    rw [Nat.succ_eq_add_one, hshift] at hlt ha hb
    rcases Nat.eq_zero_or_pos k with rfl | hk'
    · simp only [zero_mul, add_zero] at ha hb
      exact hfirst a b ha hb
    · have hkp : 0 < k * p := Nat.mul_pos hk' hp
      refine hrest k hk' (by omega) a b ?_ ?_
      · rw [List.getElem?_drop, show p + (k * p - 1) = p + k * p - 1 by omega]
        exact ha
      · rw [List.getElem?_drop]
        exact hb

end AlphaAlgo.Keyset
