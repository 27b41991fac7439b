import AlphaAlgo.Lib.Rounding

/-!
# Sums — sums that a decimal context computes exactly

* `Units e x`: `x` is a multiple of `10 ^ e`; sums of such numbers are, and they have few digits when they are small.
* `Exact ctx l`: no running total of `l` is rounded; the computed sum is then the sum (`foldl_fix_eq_sum`).
* `exact_of_units`: multiples of one unit whose amounts add up to little enough.
* `mean_between`: the computed weighted mean lies between two multiples of a unit that enclose the values.
-/

namespace AlphaAlgo

/-! ### Multiples of a unit -/

/-- `x` is a multiple of `10 ^ e`. -/
def Units (e : ℤ) (x : ℚ) : Prop := ∃ n : ℤ, x = n * 10 ^ e

variable {e : ℤ} {x y : ℚ}

theorem units_zero (e : ℤ) : Units e 0 := ⟨0, by simp⟩

theorem units_quantize (e : ℤ) (x : ℚ) : Units e (quantize e x) := ⟨halfEven (x / 10 ^ e), rfl⟩

theorem Units.add (hx : Units e x) (hy : Units e y) : Units e (x + y) := by
  obtain ⟨m, rfl⟩ := hx
  obtain ⟨n, rfl⟩ := hy
  exact ⟨m + n, by push_cast; ring⟩

theorem Units.neg (hx : Units e x) : Units e (-x) := by
  obtain ⟨m, rfl⟩ := hx
  exact ⟨-m, by push_cast; ring⟩

theorem Units.sub (hx : Units e x) (hy : Units e y) : Units e (x - y) := by
  rw [sub_eq_add_neg]
  exact hx.add hy.neg

theorem units_sum {l : List ℚ} (h : ∀ x ∈ l, Units e x) : Units e l.sum := by
  induction l with
  | nil => exact units_zero e
  | cons x l ih =>
    rw [List.sum_cons]
    exact (h x List.mem_cons_self).add (ih fun y hy => h y (List.mem_cons_of_mem _ hy))

theorem units_intCast {e : ℤ} (he : e ≤ 0) (n : ℤ) : Units e n := by
  obtain ⟨k, hk⟩ := exists_mul_zpow he n
  exact ⟨k, by rwa [zpow_zero, mul_one] at hk⟩

/-- A multiple of a higher power of ten is one of a lower power. -/
theorem Units.of_le {d : ℤ} (hx : Units e x) (h : d ≤ e) : Units d x := by
  obtain ⟨n, rfl⟩ := hx
  exact exists_mul_zpow h n

theorem quantize_of_units (h : Units e x) : quantize e x = x := by
  obtain ⟨n, rfl⟩ := h
  exact quantize_of_mul e n

/-- Rounding keeps the multiples of a unit. -/
theorem units_fix {p : ℕ} (h : Units e x) : Units e ((Ctx.mk (some p)).fix x) := by
  by_cases hx : x = 0
  · rw [hx, Ctx.fix_zero]
    exact units_zero e
  rw [Ctx.fix_some hx]
  rcases le_total (lastDigit p x) e with hle | hle
  · rwa [quantize_of_units (h.of_le hle)]
  · exact (units_quantize _ x).of_le hle

theorem digits_of_units {p : ℕ} (h : Units e x) (hx : |x| < 10 ^ ((p : ℤ) + e)) : Digits p x := by
  obtain ⟨n, rfl⟩ := h
  refine ⟨n, e, rfl, ?_⟩
  rw [abs_mul, abs_of_pos (ten_zpow_pos e), zpow_add₀ (by norm_num), zpow_natCast] at hx
  have hn := lt_of_mul_lt_mul_right hx (ten_zpow_pos e).le
  rw [← Int.cast_abs] at hn
  exact_mod_cast hn

theorem Ctx.quantize?_of_units {p : ℕ} (h : Units e x) (hx : |x| < 10 ^ ((p : ℤ) + e)) :
    (Ctx.mk (some p)).quantize? e x = some x := by
  unfold Ctx.quantize?
  rw [quantize_of_units h]
  exact if_pos hx

/-! ### Running totals -/

/-- No running total of `l` is rounded. -/
def Exact (p : ℕ) (l : List ℚ) : Prop := ∀ k, Digits p (l.take k).sum

theorem foldl_fix_eq_add_sum {p : ℕ} : ∀ (l : List ℚ) (a : ℚ), (∀ k, Digits p (a + (l.take k).sum)) →
    l.foldl (fun a x => (Ctx.mk (some p)).fix (a + x)) a = a + l.sum
  | [], a, _ => by simp
  | x :: l, a, h => by
    have hfirst : (Ctx.mk (some p)).fix (a + x) = a + x := Ctx.fix_of_digits (by simpa using h 1)
    rw [List.foldl_cons, hfirst, foldl_fix_eq_add_sum l (a + x), List.sum_cons, add_assoc]
    intro k
    have := h (k + 1)
    rwa [List.take_succ_cons, List.sum_cons, ← add_assoc] at this

/-- **The computed sum** is the sum when no running total is rounded. -/
theorem foldl_fix_eq_sum {p : ℕ} {l : List ℚ} (h : Exact p l) :
    l.foldl (fun a x => (Ctx.mk (some p)).fix (a + x)) 0 = l.sum := by
  have := foldl_fix_eq_add_sum l 0 (by simpa [Exact] using h)
  rwa [zero_add] at this

theorem abs_sum_le (l : List ℚ) : |l.sum| ≤ (l.map fun x => |x|).sum := by
  have h := Multiset.abs_sum_le_sum_abs (s := (l : Multiset ℚ))
  rwa [Multiset.sum_coe, Multiset.map_coe, Multiset.sum_coe] at h

theorem sum_abs_le_of_sublist {l l' : List ℚ} (h : l.Sublist l') :
    (l.map fun x => |x|).sum ≤ (l'.map fun x => |x|).sum := by
  refine (h.map fun x => |x|).sum_le_sum fun x hx => ?_
  obtain ⟨y, -, rfl⟩ := List.mem_map.mp hx
  exact abs_nonneg y

/-- Multiples of one unit that add up to little enough, in any order and any part. -/
theorem exact_of_units {p : ℕ} {l l' : List ℚ} (hu : ∀ x ∈ l', Units e x)
    (hl' : (l'.map fun x => |x|).sum < 10 ^ ((p : ℤ) + e)) (h : l.Sublist l') : Exact p l := by
  intro k
  have hsub : (l.take k).Sublist l' := (List.take_sublist k l).trans h
  refine digits_of_units (units_sum fun x hx => hu x (hsub.subset hx)) ?_
  calc |(l.take k).sum| ≤ ((l.take k).map fun x => |x|).sum := abs_sum_le _
    _ ≤ (l'.map fun x => |x|).sum := sum_abs_le_of_sublist hsub
    _ < 10 ^ ((p : ℤ) + e) := hl'

/-! ### Weighted means -/

section

variable {α : Type*} {p : ℕ} {l : List α} {w : α → ℤ}

/-- The computed sum of the values times their weights. -/
def weightedSum (c : Ctx) (x : α → ℚ) (w : α → ℤ) (l : List α) : ℚ :=
  (l.map fun a => c.fix (x a * w a)).foldl (fun s y => c.fix (s + y)) 0

theorem foldl_fix_mono (hp : 0 < p) {f g : α → ℚ} : ∀ {l : List α} {s t : ℚ}, s ≤ t → (∀ a ∈ l, f a ≤ g a) →
    (l.map f).foldl (fun s y => (Ctx.mk (some p)).fix (s + y)) s ≤
      (l.map g).foldl (fun s y => (Ctx.mk (some p)).fix (s + y)) t
  | [], _, _, hst, _ => hst
  | a :: l, _, _, hst, h =>
    foldl_fix_mono (l := l) hp (Ctx.fix_mono hp (add_le_add hst (h a List.mem_cons_self)))
      fun b hb => h b (List.mem_cons_of_mem _ hb)

theorem weightedSum_mono (hp : 0 < p) {x y : α → ℚ} (hw : ∀ a ∈ l, 0 ≤ w a) (h : ∀ a ∈ l, x a ≤ y a) :
    weightedSum ⟨some p⟩ x w l ≤ weightedSum ⟨some p⟩ y w l :=
  foldl_fix_mono hp le_rfl fun a ha =>
    Ctx.fix_mono hp (mul_le_mul_of_nonneg_right (h a ha) (by exact_mod_cast hw a ha))

/-- A value that does not change, with a total of few digits. -/
theorem weightedSum_const {k : ℤ} (hw : ∀ a ∈ l, 0 ≤ w a) (hk : |k| * (l.map w).sum < 10 ^ p) :
    weightedSum ⟨some p⟩ (fun _ => (k : ℚ) * 10 ^ e) w l = k * 10 ^ e * (l.map w).sum := by
  have hsum : ∀ r : ℚ, (l.map fun a => r * w a).sum = r * (l.map w).sum := by
    intro r
    rw [List.sum_map_mul_left, Int.cast_list_sum, List.map_map]
    rfl
  have hunits : ∀ x ∈ l.map fun a => (k : ℚ) * 10 ^ e * w a, Units e x := by
    intro x hx
    obtain ⟨a, -, rfl⟩ := List.mem_map.mp hx
    exact ⟨k * w a, by push_cast; ring⟩
  have habs : ((l.map fun a => (k : ℚ) * 10 ^ e * w a).map fun x => |x|).sum < 10 ^ ((p : ℤ) + e) := by
    have hterm : ∀ a ∈ l, |(k : ℚ) * 10 ^ e * w a| = |k| * 10 ^ e * w a := by
      intro a ha
      have hwa : (0 : ℚ) ≤ w a := by exact_mod_cast hw a ha
      rw [abs_mul, abs_mul, abs_of_pos (ten_zpow_pos e), abs_of_nonneg hwa, Int.cast_abs]
    have hk' : ((|k| : ℤ) : ℚ) * (l.map w).sum < 10 ^ p := by exact_mod_cast hk
    rw [List.map_map, List.map_congr_left (f := _ ∘ _) hterm, hsum, zpow_add₀ (by norm_num), zpow_natCast]
    calc ((|k| : ℤ) : ℚ) * 10 ^ e * (l.map w).sum = ((|k| : ℤ) : ℚ) * (l.map w).sum * 10 ^ e := by ring
      _ < 10 ^ p * 10 ^ e := mul_lt_mul_of_pos_right hk' (ten_zpow_pos e)
  have hkeep : l.map (fun a => (Ctx.mk (some p)).fix ((k : ℚ) * 10 ^ e * w a)) =
      l.map fun a => (k : ℚ) * 10 ^ e * w a := by
    refine List.map_congr_left fun a ha => ?_
    have hmem : (k : ℚ) * 10 ^ e * w a ∈ l.map fun a => (k : ℚ) * 10 ^ e * w a := List.mem_map_of_mem ha
    have hone := exact_of_units hunits habs (List.singleton_sublist.mpr hmem) 1
    rw [List.take_one, List.head?_singleton, Option.toList_some, List.sum_singleton] at hone
    exact Ctx.fix_of_digits hone
  rw [weightedSum, hkeep, foldl_fix_eq_sum (exact_of_units hunits habs (.refl _)), hsum]

/-- **The computed mean** lies between two multiples of a unit that enclose the values. -/
theorem mean_between (hp : 0 < p) {x : α → ℚ} {k k' : ℤ} (hk : 0 ≤ k) (hw : ∀ a ∈ l, 0 < w a) (hl : l ≠ [])
    (hx : ∀ a ∈ l, (k : ℚ) * 10 ^ e ≤ x a ∧ x a ≤ k' * 10 ^ e) (hfit : k' * (l.map w).sum < 10 ^ p) :
    (k : ℚ) * 10 ^ e ≤ (Ctx.mk (some p)).fix (weightedSum ⟨some p⟩ x w l / (l.map w).sum) ∧
      (Ctx.mk (some p)).fix (weightedSum ⟨some p⟩ x w l / (l.map w).sum) ≤ k' * 10 ^ e := by
  obtain ⟨a, ha⟩ := List.exists_mem_of_ne_nil l hl
  have hkk' : k ≤ k' := by
    have := (hx a ha).1.trans (hx a ha).2
    exact_mod_cast le_of_mul_le_mul_right this (ten_zpow_pos e)
  have hw0 : ∀ a ∈ l, 0 ≤ w a := fun a ha => (hw a ha).le
  have hone : 1 ≤ (l.map w).sum := by
    have := List.single_le_sum (l := l.map w) (by simpa using hw0) (w a) (List.mem_map_of_mem ha)
    have := hw a ha
    omega
  have hpos : (0 : ℚ) < (l.map w).sum := by exact_mod_cast hone
  have hsmall : ∀ n : ℤ, 0 ≤ n → n ≤ k' → |n| * (l.map w).sum < 10 ^ p := by
    intro n hn hnk
    rw [abs_of_nonneg hn]
    exact (mul_le_mul_of_nonneg_right hnk (by omega)).trans_lt hfit
  have hdigits : ∀ n : ℤ, 0 ≤ n → n ≤ k' → Digits p ((n : ℚ) * 10 ^ e) := by
    intro n hn hnk
    refine ⟨n, e, rfl, ?_⟩
    exact (le_mul_of_one_le_right (abs_nonneg n) hone).trans_lt (hsmall n hn hnk)
  constructor
  · rw [← Ctx.fix_of_digits (hdigits k hk hkk')]
    refine Ctx.fix_mono hp ((le_div_iff₀ hpos).mpr ?_)
    rw [← weightedSum_const hw0 (hsmall k hk hkk')]
    exact weightedSum_mono hp hw0 fun a ha => (hx a ha).1
  · rw [← Ctx.fix_of_digits (hdigits k' (hk.trans hkk') le_rfl)]
    refine Ctx.fix_mono hp ((div_le_iff₀ hpos).mpr ?_)
    rw [← weightedSum_const hw0 (hsmall k' (hk.trans hkk') le_rfl)]
    exact weightedSum_mono hp hw0 fun a ha => (hx a ha).2

end

end AlphaAlgo
