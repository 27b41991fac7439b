import AlphaAlgo.Backtest.Records
import AlphaAlgo.Lib.Rounding

/-!
# Excursions — the best and the worst price of a trade

`computeExcursions` looks at the points of a price path after the entry and up to the exit, and counts those of the
whole path.

* `foldl_observe`: the extremes are those of the points in the window.
* `excursions_iff`: paths with the same points in the window have one result exactly when they are equally long.
-/

namespace AlphaAlgo.Backtest

open Loop

inductive ExcursionSide where
  | long
  | short
deriving DecidableEq

/-- An observation; the last four fields are the checks of `__post_init__`. -/
structure ExcursionPoint where
  timestamp : DateTime
  high : ℚ
  low : ℚ
  aware : timestamp.aware = true
  high_pos : 0 < high
  low_pos : 0 < low
  low_le_high : low ≤ high

structure ExcursionResult where
  side : ExcursionSide
  entryPrice : ℚ
  exitPrice : ℚ
  observationCount : ℕ
  mfe : ℚ
  mae : ℚ

/-- A trade: its side, and when and at what price it was entered and left. -/
structure Trip where
  side : ExcursionSide
  entryTimestamp : DateTime
  exitTimestamp : DateTime
  entryPrice : ℚ
  exitPrice : ℚ

namespace Trip

variable (c : Ctx) (t : Trip)

/-- The checks of `compute_excursions`; the texts are those of `ExcursionError`. -/
def check : Except String Unit := do
  raiseIf (t.entryTimestamp.aware = false) "entry_timestamp must be timezone-aware"
  raiseIf (t.exitTimestamp.aware = false) "exit_timestamp must be timezone-aware"
  raiseIf (t.exitTimestamp.instant < t.entryTimestamp.instant) "entry_timestamp must not follow exit_timestamp"
  raiseIf (t.entryPrice ≤ 0) "entry_price must be a positive finite Decimal"
  raiseIf (t.exitPrice ≤ 0) "exit_price must be a positive finite Decimal"

/-- The point is after the entry and not after the exit. -/
def Observes (p : ExcursionPoint) : Prop :=
  t.entryTimestamp.instant < p.timestamp.instant ∧ p.timestamp.instant ≤ t.exitTimestamp.instant

instance (p : ExcursionPoint) : Decidable (t.Observes p) := inferInstanceAs (Decidable (_ ∧ _))

/-- The points of a path that are observed. -/
def window (path : List ExcursionPoint) : List ExcursionPoint := path.filter t.Observes

/-- The body of the loop: the highs and the lows so far. -/
def observe (s : List ℚ × List ℚ) (p : ExcursionPoint) : List ℚ × List ℚ :=
  if p.timestamp.instant ≤ t.entryTimestamp.instant then s
  else if t.exitTimestamp.instant < p.timestamp.instant then s
  else (s.1 ++ [p.high], s.2 ++ [p.low])

/-- `max` of a list that begins with the price of the exit. -/
def highest (highs : List ℚ) : ℚ := highs.foldl max t.exitPrice

def lowest (lows : List ℚ) : ℚ := lows.foldl min t.exitPrice

/-- The excursions of highs and lows: no favorable one is negative, and no adverse one positive. -/
def excursions (s : List ℚ × List ℚ) : ℚ × ℚ :=
  let (mfe, mae) := match t.side with
    | .long => (c.fix (t.highest s.1 - t.entryPrice), c.fix (t.lowest s.2 - t.entryPrice))
    | .short => (c.fix (t.entryPrice - t.lowest s.2), c.fix (t.entryPrice - t.highest s.1))
  (if mfe < 0 then 0 else mfe, if 0 < mae then 0 else mae)

/-- `compute_excursions` in a context. -/
def computeExcursions (path : List ExcursionPoint) : Except String ExcursionResult := do
  t.check
  let (mfe, mae) := t.excursions c (path.foldl t.observe ([t.exitPrice], [t.exitPrice]))
  return ⟨t.side, t.entryPrice, t.exitPrice, path.length, mfe, mae⟩

variable {c t} {path path' : List ExcursionPoint}

/-! ### The extremes -/

/-- **The loop sees the window only.** -/
theorem foldl_observe (s : List ℚ × List ℚ) (path : List ExcursionPoint) : path.foldl t.observe s =
    (s.1 ++ (t.window path).map ExcursionPoint.high, s.2 ++ (t.window path).map ExcursionPoint.low) := by
  induction path generalizing s with
  | nil => simp [window]
  | cons p path ih =>
    rw [List.foldl_cons, ih]
    by_cases hp : t.Observes p
    · have hstep : t.observe s p = (s.1 ++ [p.high], s.2 ++ [p.low]) := by
        rw [observe, if_neg (not_le.mpr hp.1), if_neg (not_lt.mpr hp.2)]
      simp [hstep, hp, window]
    · have hstep : t.observe s p = s := by
        unfold observe
        by_cases hentry : p.timestamp.instant ≤ t.entryTimestamp.instant
        · exact if_pos hentry
        · have hexit : t.exitTimestamp.instant < p.timestamp.instant := by
            by_contra hle
            exact hp ⟨not_le.mp hentry, not_lt.mp hle⟩
          rw [if_neg hentry, if_pos hexit]
      simp [hstep, hp, window]

/-- A favorable excursion is not negative, and an adverse one not positive. -/
theorem excursions_sign (s : List ℚ × List ℚ) : 0 ≤ (t.excursions c s).1 ∧ (t.excursions c s).2 ≤ 0 := by
  unfold excursions
  dsimp only
  constructor
  · split_ifs with h
    · exact le_rfl
    · exact not_lt.mp h
  · split_ifs with h
    · exact le_rfl
    · exact not_lt.mp h

/-! ### Points out of the window -/

/-- The trade is refused. -/
def Refused (t : Trip) : Prop := ¬(t.entryTimestamp.aware = true ∧ t.exitTimestamp.aware = true ∧
  t.entryTimestamp.instant ≤ t.exitTimestamp.instant ∧ 0 < t.entryPrice ∧ 0 < t.exitPrice)

theorem check_eq_ok : t.check = .ok () ↔ ¬t.Refused := by
  simp [check, Refused, bind_eq_ok]

/-- **Points out of the window** show in the result exactly where their number changes. -/
theorem excursions_iff (c : Ctx) (h : t.window path = t.window path') :
    t.computeExcursions c path = t.computeExcursions c path' ↔
      t.Refused ∨ (path.filter (¬t.Observes ·)).length = (path'.filter (¬t.Observes ·)).length := by
  have hcount : ∀ l : List ExcursionPoint, l.length = (t.window l).length + (l.filter (¬t.Observes ·)).length := by
    intro l
    rw [window, List.length_eq_length_filter_add fun p => decide (t.Observes p)]
    simp only [decide_not]
  by_cases hrefused : t.Refused
  · obtain ⟨e, he⟩ : ∃ e, t.check = .error e := by
      cases hcheck : t.check with
      | error e => exact ⟨e, rfl⟩
      | ok u => exact absurd hrefused (check_eq_ok.mp hcheck)
    simp only [computeExcursions, he, hrefused, true_or, iff_true]
    rfl
  · have hresult : ∀ l : List ExcursionPoint, t.computeExcursions c l =
        .ok ⟨t.side, t.entryPrice, t.exitPrice, l.length,
          (t.excursions c ([t.exitPrice] ++ (t.window l).map ExcursionPoint.high,
            [t.exitPrice] ++ (t.window l).map ExcursionPoint.low)).1,
          (t.excursions c ([t.exitPrice] ++ (t.window l).map ExcursionPoint.high,
            [t.exitPrice] ++ (t.window l).map ExcursionPoint.low)).2⟩ := by
      intro l
      rw [computeExcursions, check_eq_ok.mpr hrefused, foldl_observe]
      rfl
    rw [hresult, hresult, h]
    have hlength : path.length = path'.length ↔
        (path.filter (¬t.Observes ·)).length = (path'.filter (¬t.Observes ·)).length := by
      rw [hcount path, hcount path', h]
      omega
    simp only [hrefused, false_or, ← hlength, Except.ok.injEq, ExcursionResult.mk.injEq, and_true, true_and]

/-- A long trade of a minute, and points before and after it. -/
def minuteTrip : Trip := ⟨.long, ⟨2026, 1, 1, 9, 0, 0, 0, some 0⟩, ⟨2026, 1, 1, 9, 1, 0, 0, some 0⟩, 100, 101⟩

def pointAt (hour minute : ℕ) : ExcursionPoint where
  timestamp := ⟨2026, 1, 1, hour, minute, 0, 0, some 0⟩
  high := 99
  low := 98
  aware := rfl
  high_pos := by norm_num
  low_pos := by norm_num
  low_le_high := by norm_num

theorem window_pointAt : minuteTrip.window [pointAt 8 59] = [] ∧ minuteTrip.window [pointAt 9 2] = [] := by
  simp only [window, List.filter_eq_nil_iff, List.mem_singleton, forall_eq, decide_eq_true_eq]
  decide

theorem excursions_iff_moved : minuteTrip.computeExcursions .default [pointAt 8 59] =
    minuteTrip.computeExcursions .default [pointAt 9 2] := by
  have hearly : ¬minuteTrip.Observes (pointAt 8 59) := by decide
  have hlate : ¬minuteTrip.Observes (pointAt 9 2) := by decide
  refine (excursions_iff .default (window_pointAt.1.trans window_pointAt.2.symm)).mpr (Or.inr ?_)
  simp [hearly, hlate]

/-- A point before the entry is counted. -/
theorem not_excursions_window : ¬ ∀ (c : Ctx) (t : Trip) (path path' : List ExcursionPoint), t.window path = t.window path' →
    t.computeExcursions c path = t.computeExcursions c path' := by
  intro h
  have hearly : ¬minuteTrip.Observes (pointAt 8 59) := by decide
  rcases (excursions_iff .default window_pointAt.1).mp (h .default minuteTrip _ [] window_pointAt.1) with hrefused | hlength
  · refine hrefused ⟨rfl, rfl, by decide, ?_, ?_⟩
    · norm_num [minuteTrip]
    · norm_num [minuteTrip]
  · simp [hearly] at hlength

end Trip

end AlphaAlgo.Backtest
