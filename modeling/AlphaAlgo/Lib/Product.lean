import Mathlib.Tactic

/-!
# Product — the choices of one element from each of several lists

`product` lists the choices in lexicographic order, the last one varying fastest.  The place of a choice is a number in
mixed radix, whose digits are the places of its elements.

* `getElem?_product`: choice number `k` is the one with the digits of `k`.
* `digits_rank`, `rank_digits`: the numbers below the product of the sizes are the digits below the sizes.
-/

namespace AlphaAlgo.Product

/-- The choices, with the last one varying fastest. -/
def product {α : Type*} : List (List α) → List (List α)
  | [] => [[]]
  | l :: ls => l.flatMap fun a => (product ls).map (a :: ·)

/-- The digits of `k` in the radices `ns`, with the most significant one first. -/
def digits : List ℕ → ℕ → List ℕ
  | [], _ => []
  | _ :: ns, k => k / ns.prod :: digits ns (k % ns.prod)

/-- The number with these digits. -/
def rank : List ℕ → List ℕ → ℕ
  | _ :: ns, d :: ds => d * ns.prod + rank ns ds
  | _, _ => 0

/-- The elements at these places. -/
def choose {α : Type*} : List (List α) → List ℕ → Option (List α)
  | [], [] => some []
  | l :: ls, d :: ds => (l[d]?).bind fun a => (choose ls ds).map (a :: ·)
  | _, _ => none

/-! ### Digits -/

section Digits

variable {ns ds : List ℕ} {k : ℕ}

theorem rank_lt (h : List.Forall₂ (· < ·) ds ns) : rank ns ds < ns.prod := by
  induction h with
  | nil => simp [rank]
  | @cons d n ds ns hd _ ih =>
    rw [rank, List.prod_cons]
    calc d * ns.prod + rank ns ds < d * ns.prod + ns.prod := by omega
      _ = (d + 1) * ns.prod := by ring
      _ ≤ n * ns.prod := Nat.mul_le_mul_right _ hd

theorem digits_rank (h : List.Forall₂ (· < ·) ds ns) : digits ns (rank ns ds) = ds := by
  induction h with
  | nil => rfl
  | @cons d n ds ns _ hrest ih =>
    have hlt := rank_lt hrest
    rw [rank, digits, Nat.mul_comm, Nat.mul_add_div (by omega), Nat.div_eq_of_lt hlt, add_zero, Nat.mul_add_mod,
      Nat.mod_eq_of_lt hlt, ih]

theorem rank_digits (h : k < ns.prod) : rank ns (digits ns k) = k := by
  induction ns generalizing k with
  | nil =>
    rw [List.prod_nil] at h
    simp only [rank]
    omega
  | cons n ns ih =>
    rw [List.prod_cons] at h
    have hpos : 0 < ns.prod := Nat.pos_of_ne_zero fun h0 => by simp [h0] at h
    rw [digits, rank, ih (Nat.mod_lt k hpos), Nat.mul_comm]
    exact Nat.div_add_mod k ns.prod

end Digits

/-! ### Choices -/

section Choices

variable {α β : Type*}

/-- An element of blocks of one length. -/
theorem getElem?_flatMap {f : α → List β} {m : ℕ} (hm : 0 < m) {l : List α} (h : ∀ a ∈ l, (f a).length = m) (k : ℕ) :
    (l.flatMap f)[k]? = (l[k / m]?).bind fun a => (f a)[k % m]? := by
  induction l generalizing k with
  | nil => simp
  | cons a l ih =>
    have hlength := h a List.mem_cons_self
    rw [List.flatMap_cons]
    by_cases hk : k < m
    · rw [List.getElem?_append_left (by omega), Nat.div_eq_of_lt hk, Nat.mod_eq_of_lt hk]
      rfl
    · obtain ⟨j, rfl⟩ : ∃ j, k = m + j := ⟨k - m, by omega⟩
      rw [List.getElem?_append_right (by omega), hlength, Nat.add_sub_cancel_left,
        ih fun b hb => h b (List.mem_cons_of_mem _ hb)]
      rw [Nat.add_div_left _ hm, Nat.add_mod_left, List.getElem?_cons_succ]

theorem length_product (ls : List (List α)) : (product ls).length = (ls.map List.length).prod := by
  induction ls with
  | nil => rfl
  | cons l ls ih =>
    rw [product, List.length_flatMap, List.map_cons, List.prod_cons, ← ih]
    simp

/-- **Choice number `k`** is the one with the digits of `k`. -/
theorem getElem?_product {ls : List (List α)} {k : ℕ} (h : k < (ls.map List.length).prod) :
    (product ls)[k]? = choose ls (digits (ls.map List.length) k) := by
  induction ls generalizing k with
  | nil =>
    simp only [List.map_nil, List.prod_nil] at h
    have hk : k = 0 := by omega
    subst hk
    rfl
  | cons l ls ih =>
    rw [List.map_cons, List.prod_cons] at h
    have hpos : 0 < (ls.map List.length).prod := Nat.pos_of_ne_zero fun h0 => by simp [h0] at h
    have hblock : ∀ a ∈ l, ((product ls).map (a :: ·)).length = (ls.map List.length).prod := by
      intro a _
      rw [List.length_map, length_product]
    rw [product, getElem?_flatMap hpos hblock, List.map_cons, digits, choose]
    congr 1
    funext a
    rw [List.getElem?_map, ih (Nat.mod_lt k hpos)]

/-- The elements of a choice. -/
theorem choose_eq_some {ls : List (List α)} {ds : List ℕ} {xs : List α} (h : choose ls ds = some xs) :
    xs.length = ls.length ∧ ∀ (i : ℕ) (l : List α), ls[i]? = some l →
      ∃ d a, ds[i]? = some d ∧ l[d]? = some a ∧ xs[i]? = some a := by
  induction ls generalizing ds xs with
  | nil =>
    cases ds with
    | nil => cases h; simp
    | cons d ds => cases h
  | cons l ls ih =>
    cases ds with
    | nil => cases h
    | cons d ds =>
      obtain ⟨a, ha, hrest⟩ := Option.bind_eq_some_iff.mp h
      obtain ⟨ys, hys, rfl⟩ := Option.map_eq_some_iff.mp hrest
      obtain ⟨hlength, hall⟩ := ih hys
      refine ⟨by simp [hlength], fun i l' hl' => ?_⟩
      cases i with
      | zero =>
        cases hl'
        exact ⟨d, a, rfl, ha, rfl⟩
      | succ i => exact hall i l' hl'

end Choices

end AlphaAlgo.Product
