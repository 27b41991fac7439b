import AlphaAlgo.Base.Calendar

/-!
# Dates — the order of the calendar

The constructor of a `datetime` refuses a date that is not in the calendar.  For the dates that are, the days counted
since the first ascend with the year, the month and the day (`dates_ascend`).
-/

namespace AlphaAlgo.DateTime

/-- The days of a month. -/
def monthDays (year m : ℕ) : ℕ :=
  (([31, if isLeap year then 29 else 28, 31, 30, 31, 30, 31, 31, 30, 31, 30, 31] : List ℕ)[m - 1]?).getD 0

/-- The fields are those of a date and a time. -/
def Civil (t : DateTime) : Prop :=
  1 ≤ t.year ∧ t.year ≤ 9999 ∧ 1 ≤ t.month ∧ t.month ≤ 12 ∧ 1 ≤ t.day ∧ t.day ≤ monthDays t.year t.month ∧
    t.hour < 24 ∧ t.minute < 60 ∧ t.second < 60 ∧ t.microsecond < 1000000

instance (t : DateTime) : Decidable t.Civil := inferInstanceAs (Decidable (_ ∧ _))

theorem daysBeforeMonth_succ {year m : ℕ} (h : 1 ≤ m) (h' : m ≤ 12) :
    daysBeforeMonth year (m + 1) = daysBeforeMonth year m + monthDays year m := by
  unfold daysBeforeMonth monthDays
  rw [show m + 1 - 1 = m - 1 + 1 by omega, List.take_add_one, List.sum_append]
  cases ([31, if isLeap year then 29 else 28, 31, 30, 31, 30, 31, 31, 30, 31, 30, 31] : List ℕ)[m - 1]? <;> simp

/-- The days before a year. -/
def daysBeforeYear (year : ℕ) : ℕ := (year - 1) * 365 + (year - 1) / 4 - (year - 1) / 100 + (year - 1) / 400

theorem ordinal_eq (t : DateTime) : t.ordinal = daysBeforeYear t.year + daysBeforeMonth t.year t.month + t.day := rfl

/-- The leap days up to a year. -/
theorem leapDays_succ {n : ℕ} :
    (n + 1) / 4 - (n + 1) / 100 + (n + 1) / 400 =
      n / 4 - n / 100 + n / 400 + if isLeap (n + 1) = true then 1 else 0 := by
  have hleap : isLeap (n + 1) = true ↔ (n + 1) % 4 = 0 ∧ ((n + 1) % 100 ≠ 0 ∨ (n + 1) % 400 = 0) := by simp [isLeap]
  have h4 := @Nat.succ_div n 4
  have h100 := @Nat.succ_div n 100
  have h400 := @Nat.succ_div n 400
  simp only [Nat.dvd_iff_mod_eq_zero, hleap] at h4 h100 h400 ⊢
  split_ifs at h4 h100 h400 ⊢ <;> omega

theorem daysBeforeMonth_year (year : ℕ) : daysBeforeMonth year 13 = 365 + if isLeap year = true then 1 else 0 := by
  unfold daysBeforeMonth
  generalize isLeap year = leap
  revert leap
  decide

theorem daysBeforeYear_succ {year : ℕ} (h : 1 ≤ year) :
    daysBeforeYear (year + 1) = daysBeforeYear year + daysBeforeMonth year 13 := by
  obtain ⟨n, rfl⟩ : ∃ n, year = n + 1 := ⟨year - 1, by omega⟩
  have hleap := @leapDays_succ n
  have hn : n / 100 ≤ n / 4 := Nat.div_le_div_left (by norm_num) (by norm_num)
  have hn' : (n + 1) / 100 ≤ (n + 1) / 4 := Nat.div_le_div_left (by norm_num) (by norm_num)
  unfold daysBeforeYear
  rw [daysBeforeMonth_year]
  simp only [Nat.add_sub_cancel]
  rw [Nat.add_sub_assoc hn, Nat.add_sub_assoc hn']
  linarith

theorem daysBeforeYear_mono {year year' : ℕ} (h : 1 ≤ year) (hle : year ≤ year') :
    daysBeforeYear year ≤ daysBeforeYear year' := by
  induction year', hle using Nat.le_induction with
  | base => exact le_rfl
  | succ n hn ih =>
    rw [daysBeforeYear_succ (h.trans hn)]
    exact ih.trans (Nat.le_add_right _ _)

variable {t u : DateTime}

/-- A date is before the next month. -/
theorem Civil.before_next (h : t.Civil) :
    daysBeforeMonth t.year t.month + t.day ≤ daysBeforeMonth t.year (t.month + 1) := by
  obtain ⟨-, -, hm, hm', -, hd, -⟩ := h
  rw [daysBeforeMonth_succ hm hm']
  omega

theorem ordinal_lt_of_year (ht : t.Civil) (hu : u.Civil) (h : t.year < u.year) : t.ordinal < u.ordinal := by
  have hnext := ht.before_next
  have hyear := daysBeforeMonth_mono t.year (show t.month + 1 ≤ 13 by have := ht.2.2.2.1; omega)
  have hsucc := daysBeforeYear_succ ht.1
  have hmono : daysBeforeYear (t.year + 1) ≤ daysBeforeYear u.year := daysBeforeYear_mono (by omega) h
  have hday := hu.2.2.2.2.1
  rw [ordinal_eq, ordinal_eq]
  omega

theorem ordinal_lt_of_month (ht : t.Civil) (hu : u.Civil) (hy : t.year = u.year) (h : t.month < u.month) :
    t.ordinal < u.ordinal := by
  have hnext := ht.before_next
  have hmono := daysBeforeMonth_mono t.year (show t.month + 1 ≤ u.month from h)
  have hday := hu.2.2.2.2.1
  rw [ordinal_eq, ordinal_eq, ← hy]
  omega

/-- The days ascend with the instants of one offset. -/
theorem ordinal_le_of_wallClock (ht : t.Civil) (hu : u.Civil) (h : t.wallClock ≤ u.wallClock) :
    t.ordinal ≤ u.ordinal := by
  obtain ⟨-, -, -, -, -, -, hhour, hminute, hsecond, hmicro⟩ := ht
  obtain ⟨-, -, -, -, -, -, hhour', hminute', hsecond', hmicro'⟩ := hu
  unfold wallClock at h
  omega

/-- **Dates ascend.**  Of two instants with one offset the later has the later year, month and day. -/
theorem dates_ascend (ht : t.Civil) (hu : u.Civil) (h : t.wallClock ≤ u.wallClock) :
    t.year < u.year ∨ t.year = u.year ∧ (t.month < u.month ∨ t.month = u.month ∧ t.day ≤ u.day) := by
  have hle := ordinal_le_of_wallClock ht hu h
  rcases lt_trichotomy t.year u.year with hy | hy | hy
  · exact Or.inl hy
  · refine Or.inr ⟨hy, ?_⟩
    rcases lt_trichotomy t.month u.month with hm | hm | hm
    · exact Or.inl hm
    · refine Or.inr ⟨hm, ?_⟩
      rw [ordinal_eq, ordinal_eq, hy, hm] at hle
      omega
    · have := ordinal_lt_of_month hu ht hy.symm hm
      omega
  · have := ordinal_lt_of_year hu ht hy
    omega

end AlphaAlgo.DateTime
