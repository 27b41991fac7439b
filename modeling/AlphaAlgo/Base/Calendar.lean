import AlphaAlgo.Base.Plain

/-!
# Calendar — dates and the days that are counted

`ofOrdinal` finds the date with a number of days; `add?` moves an instant by way of it.

* `ordinal_ofOrdinal`: the date has that number of days.
* `wallClock_add?`: a moved instant is later by what it was moved.
* `utcText_isSome`: the instants that have a text in UTC.
* `utcText_inj`: instants with one text in UTC are the same point of time.
-/

namespace AlphaAlgo.DateTime

/-! ### Months -/

theorem daysBeforeMonth_mono (year : ℕ) {m m' : ℕ} (h : m ≤ m') : daysBeforeMonth year m ≤ daysBeforeMonth year m' := by
  unfold daysBeforeMonth
  refine List.Sublist.sum_le_sum ?_ fun _ _ => Nat.zero_le _
  exact (List.take_sublist_take_left (by omega))

/-- How many of the first numbers a monotone test accepts. -/
theorem length_filter_range {p : ℕ → Bool} (hp : ∀ i j, i ≤ j → p j = true → p i = true) (n : ℕ)
    (h : ((List.range n).filter p) ≠ []) : p (((List.range n).filter p).length - 1) = true := by
  induction n with
  | zero => simp at h
  | succ n ih =>
    rw [List.range_succ, List.filter_append] at h ⊢
    by_cases hn : p n = true
    · have hall : (List.range n).filter p = List.range n :=
        List.filter_eq_self.mpr fun i hi => hp i n (List.mem_range.mp hi).le hn
      simp [hall, hn]
    · simp only [List.filter_cons_of_neg hn, List.filter_nil, List.append_nil] at h ⊢
      exact ih h

/-- The month of a day of the year. -/
def monthOf (year r : ℕ) : ℕ := ((List.range 12).filter fun i => daysBeforeMonth year (i + 1) ≤ r).length

theorem daysBeforeMonth_monthOf (year r : ℕ) : daysBeforeMonth year (monthOf year r) ≤ r := by
  have hone : (0 : ℕ) ∈ (List.range 12).filter fun i => daysBeforeMonth year (i + 1) ≤ r :=
    List.mem_filter.mpr ⟨by decide, by simp [daysBeforeMonth]⟩
  have hne := List.ne_nil_of_mem hone
  have hpos : 0 < monthOf year r := List.length_pos_iff.mpr hne
  have hlast := length_filter_range (p := fun i => daysBeforeMonth year (i + 1) ≤ r) (fun i j hij hj => by
    have hle := daysBeforeMonth_mono year (show i + 1 ≤ j + 1 by omega)
    exact decide_eq_true (hle.trans (of_decide_eq_true hj))) 12 hne
  have hstep : monthOf year r - 1 + 1 = monthOf year r := by omega
  have hle := of_decide_eq_true hlast
  rwa [← monthOf, hstep] at hle

/-! ### Years -/

theorem daysBeforeMonth_december {year : ℕ} (h : isLeap year = true) : daysBeforeMonth year 12 = 335 := by
  simp [daysBeforeMonth, h]

/-- The leap days before a year. -/
theorem years_div (a b c d : ℕ) (hb : b ≤ 3) (hc : c ≤ 24) (hd : d ≤ 3) :
    (400 * a + 100 * b + 4 * c + d) / 4 = 100 * a + 25 * b + c ∧
      (400 * a + 100 * b + 4 * c + d) / 100 = 4 * a + b ∧ (400 * a + 100 * b + 4 * c + d) / 400 = a := by
  refine ⟨by omega, by omega, by omega⟩

/-- **The date with a number of days.** -/
theorem ordinal_ofOrdinal {n : ℕ} (hn : 1 ≤ n) (t : DateTime) :
    ordinal { t with year := (ofOrdinal n).1, month := (ofOrdinal n).2.1, day := (ofOrdinal n).2.2 } = n := by
  unfold ofOrdinal
  extract_lets n400 r400 n100 r100 n4 r4 n1 r1 year month
  have h400 : n - 1 = 146097 * n400 + r400 := (Nat.div_add_mod _ _).symm
  have hr400 : r400 < 146097 := Nat.mod_lt _ (by omega)
  have h100 : r400 = 36524 * n100 + r100 := (Nat.div_add_mod _ _).symm
  have hr100 : r100 < 36524 := Nat.mod_lt _ (by omega)
  have h4 : r100 = 1461 * n4 + r4 := (Nat.div_add_mod _ _).symm
  have hr4 : r4 < 1461 := Nat.mod_lt _ (by omega)
  have h1 : r4 = 365 * n1 + r1 := (Nat.div_add_mod _ _).symm
  have hr1 : r1 < 365 := Nat.mod_lt _ (by omega)
  have hyear : year = n400 * 400 + 1 + n100 * 100 + n4 * 4 + n1 := rfl
  clear_value n400 r400 n100 r100 n4 r4 n1 r1 year
  have h100le : n100 ≤ 4 := by omega
  have h4le : n4 ≤ 24 := by omega
  have h1le : n1 ≤ 4 := by omega
  by_cases hlast : n1 = 4 ∨ n100 = 4
  · -- the last day of a leap year
    rw [if_pos hlast]
    have hleap : isLeap (year - 1) = true := by
      simp only [isLeap, ne_eq, Bool.and_eq_true, decide_eq_true_eq, Bool.or_eq_true]
      omega
    simp only [ordinal, daysBeforeMonth_december hleap]
    by_cases hcentury : n100 = 4
    · have hyears := years_div n400 3 24 3 (by omega) (by omega) (by omega)
      rw [show year - 1 - 1 = 400 * n400 + 100 * 3 + 4 * 24 + 3 by omega, hyears.1, hyears.2.1, hyears.2.2]
      omega
    · have hyears := years_div n400 n100 n4 3 (by omega) h4le (by omega)
      rw [show year - 1 - 1 = 400 * n400 + 100 * n100 + 4 * n4 + 3 by omega, hyears.1, hyears.2.1, hyears.2.2]
      omega
  · rw [if_neg hlast]
    have hmonth : daysBeforeMonth year month ≤ r1 := daysBeforeMonth_monthOf year r1
    have hyears := years_div n400 n100 n4 n1 (by omega) h4le (by omega)
    simp only [ordinal]
    generalize daysBeforeMonth year month = before at hmonth ⊢
    rw [show year - 1 = 400 * n400 + 100 * n100 + 4 * n4 + n1 by omega, hyears.1, hyears.2.1, hyears.2.2]
    omega

/-! ### Moving an instant -/

/-- A moved instant is later by what it was moved. -/
theorem wallClock_add? {t u : DateTime} {d : ℤ} (h : t.add? d = some u) : u.wallClock = t.wallClock + d := by
  unfold add? at h
  generalize t.wallClock + d = total at h ⊢
  dsimp only at h
  split_ifs at h with hdays
  have hordinal := ordinal_ofOrdinal (n := (total / 86400000000).toNat) (by omega) t
  cases h
  simp only [ordinal] at hordinal
  simp only [wallClock, ordinal, hordinal]
  omega

/-- The first and the last instant of the years 1 to 9999. -/
def first : DateTime := ⟨1, 1, 1, 0, 0, 0, 0, some 0⟩

def last : DateTime := ⟨9999, 12, 31, 23, 59, 59, 999999, some 0⟩

theorem wallClock_first : first.wallClock = 86400000000 := by decide

theorem wallClock_last : last.wallClock = 315537983999999999 := by decide

theorem add?_isSome {t : DateTime} {d : ℤ} :
    (t.add? d).isSome = true ↔ first.wallClock ≤ t.wallClock + d ∧ t.wallClock + d ≤ last.wallClock := by
  unfold add?
  rw [wallClock_first, wallClock_last]
  dsimp only
  split_ifs with h
  · simp only [Option.isSome_some, true_iff]
    omega
  · simp only [Option.isSome_none, Bool.false_eq_true, false_iff]
    omega

/-! ### The text in UTC -/

/-- `u.isoformat(timespec="microseconds")` in UTC. -/
def isoMicros (u : DateTime) : String :=
  padded 4 u.year ++ "-" ++ padded 2 u.month ++ "-" ++ padded 2 u.day ++ "T" ++ padded 2 u.hour ++ ":" ++
    padded 2 u.minute ++ ":" ++ padded 2 u.second ++ "." ++ padded 6 u.microsecond ++ "+00:00"

/-- `t.astimezone(UTC).isoformat(timespec="microseconds")`; there is none out of the years 1 to 9999. -/
def utcText (t : DateTime) : Option String := (t.add? (-(t.utcoffset.getD 0))).map isoMicros

example : utcText ⟨2026, 1, 1, 4, 45, 0, 7, some 19800000000⟩ = some "2025-12-31T23:15:00.000007+00:00" := by
  decide +kernel

/-- There is a text of the instants of these years. -/
theorem utcText_isSome {t : DateTime} : t.utcText.isSome = true ↔ first.wallClock ≤ t.wallClock - t.utcoffset.getD 0 ∧
    t.wallClock - t.utcoffset.getD 0 ≤ last.wallClock := by
  rw [utcText, Option.isSome_map, add?_isSome, sub_eq_add_neg]

theorem toList_isoMicros (u : DateTime) : u.isoMicros.toList = (padded 4 u.year).toList ++ '-' ::
    ((padded 2 u.month).toList ++ '-' :: ((padded 2 u.day).toList ++ 'T' :: ((padded 2 u.hour).toList ++ ':' ::
      ((padded 2 u.minute).toList ++ ':' :: ((padded 2 u.second).toList ++ '.' ::
        ((padded 6 u.microsecond).toList ++ "+00:00".toList)))))) := by
  simp [isoMicros]

theorem plain_isoMicros (u : DateTime) : Plain u.isoMicros.toList := by
  rw [toList_isoMicros]
  refine (plain_padded _ _).append (Plain.cons rfl ((plain_padded _ _).append (Plain.cons rfl ?_)))
  refine (plain_padded _ _).append (Plain.cons rfl ((plain_padded _ _).append (Plain.cons rfl ?_)))
  refine (plain_padded _ _).append (Plain.cons rfl ((plain_padded _ _).append (Plain.cons rfl ?_)))
  refine (plain_padded _ _).append ?_
  simp [Plain, plainChar]

theorem plain_utcText {t : DateTime} {s : String} (h : t.utcText = some s) : Plain s.toList := by
  obtain ⟨u, -, rfl⟩ := Option.map_eq_some_iff.mp h
  exact plain_isoMicros u

theorem isoMicros_ne_empty (u : DateTime) : u.isoMicros ≠ "" := by
  intro h
  have hlist := congrArg String.toList h
  rw [toList_isoMicros] at hlist
  simp at hlist

theorem wallClock_of_isoMicros {u u' : DateTime} (h : u.isoMicros = u'.isoMicros) : u.wallClock = u'.wallClock := by
  have hlist := congrArg String.toList h
  rw [toList_isoMicros, toList_isoMicros] at hlist
  obtain ⟨hyear, hlist⟩ := padded_cons_inj rfl hlist
  obtain ⟨hmonth, hlist⟩ := padded_cons_inj rfl hlist
  obtain ⟨hday, hlist⟩ := padded_cons_inj rfl hlist
  obtain ⟨hhour, hlist⟩ := padded_cons_inj rfl hlist
  obtain ⟨hminute, hlist⟩ := padded_cons_inj rfl hlist
  obtain ⟨hsecond, hlist⟩ := padded_cons_inj rfl hlist
  obtain ⟨hmicrosecond, -⟩ := padded_append_inj (ends_cons.mpr rfl) (ends_cons.mpr rfl) hlist
  simp only [wallClock, ordinal, hyear, hmonth, hday, hhour, hminute, hsecond, hmicrosecond]

/-- **Instants with one text in UTC** are the same point of time. -/
theorem utcText_inj {t t' : DateTime} {s : String} (h : t.utcText = some s) (h' : t'.utcText = some s) :
    t.wallClock - t.utcoffset.getD 0 = t'.wallClock - t'.utcoffset.getD 0 := by
  obtain ⟨u, hu, rfl⟩ := Option.map_eq_some_iff.mp h
  obtain ⟨u', hu', htext⟩ := Option.map_eq_some_iff.mp h'
  have hwall := wallClock_of_isoMicros htext
  rw [wallClock_add? hu, wallClock_add? hu'] at hwall
  omega

end AlphaAlgo.DateTime
