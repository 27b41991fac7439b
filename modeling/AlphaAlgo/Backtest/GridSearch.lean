import AlphaAlgo.Backtest.Records
import AlphaAlgo.Lib.Product

/-!
# GridSearch — the search of a parameter grid

`gridSearch` evaluates an objective at every point of a grid, in lexicographic order, and selects the first of the best
evaluations.  The objective may raise and may return what is not a number; a float is given by the decimal of its text.

* `gridSearch_spec`: a search returns every point once, at the place that its digits give, and the first best one; or it
  raises what the first point that fails raises.
-/

namespace AlphaAlgo.Backtest

open Loop Product

variable {V ε : Type*}

/-! ### Grids -/

/-- The last two fields are the checks of `__post_init__`. -/
structure Parameter (V : Type*) where
  name : String
  values : List V
  name_given : blank name = false
  values_ne_nil : values ≠ []

/-- The last two fields are the checks of `__post_init__`. -/
structure ParameterGrid (V : Type*) where
  parameters : List (Parameter V)
  parameters_ne_nil : parameters ≠ []
  names_nodup : (parameters.map Parameter.name).Nodup

/-- The numbers of values. -/
def ParameterGrid.sizes (grid : ParameterGrid V) : List ℕ := grid.parameters.map fun p => p.values.length

def ParameterGrid.combinationCount (grid : ParameterGrid V) : ℕ :=
  grid.parameters.foldl (fun count p => count * p.values.length) 1

structure ParameterPoint (V : Type*) where
  assignments : List (String × V)

/-- `dict(assignments)`: the last assignment of a name. -/
def ParameterPoint.asDict (point : ParameterPoint V) (name : String) : Option V :=
  (point.assignments.reverse.find? fun a => a.1 = name).map Prod.snd

/-- The points in the order of the search. -/
def ParameterGrid.points (grid : ParameterGrid V) : List (ParameterPoint V) :=
  (product (grid.parameters.map Parameter.values)).map fun combo => ⟨(grid.parameters.map Parameter.name).zip combo⟩

/-! ### Scores -/

/-- What an objective returns; a float is given by `Decimal(str(score))`. -/
inductive Score where
  | decimal (d : Decimal)
  | int (n : ℤ)
  | float (d : Decimal)
  | bool (b : Bool)
  | other

/-- An error of the search, or what the objective raised. -/
inductive GridError (ε : Type*) where
  | optimization (text : String)
  | objective (e : ε)

def finiteScore : Decimal → Except (GridError ε) Dec
  | .finite d => .ok d
  | _ => .error (.optimization "objective score must be finite")

/-- `_coerce_score`. -/
def coerceScore : Score → Except (GridError ε) Dec
  | .decimal d => finiteScore d
  | .bool _ => .error (.optimization "objective score must be numeric, not bool")
  | .int n => .ok ⟨n < 0, n.natAbs, 0⟩
  | .float d => finiteScore d
  | .other => .error (.optimization "objective score must be a Decimal, int, or float")

structure Evaluation (V : Type*) where
  point : ParameterPoint V
  score : Dec

/-- The last field is a check of `__post_init__`. -/
structure OptimizationResult (V : Type*) where
  grid : ParameterGrid V
  evaluations : List (Evaluation V)
  bestPoint : ParameterPoint V
  bestScore : Dec
  evaluations_ne_nil : evaluations ≠ []

section Search

variable (objective : ParameterPoint V → Except ε Score)

def evaluatePoint (point : ParameterPoint V) : Except (GridError ε) Dec :=
  (objective point).mapError .objective >>= coerceScore

/-- The loop of `select_best`. -/
def better (best e : Evaluation V) : Evaluation V := if best.score.val < e.score.val then e else best

def selectBest : List (Evaluation V) → Except (GridError ε) (Evaluation V)
  | [] => .error (.optimization "evaluations must be a non-empty tuple of Evaluation")
  | first :: rest => .ok (rest.foldl better first)

/-- The evaluation of a point. -/
def evaluationAt (point : ParameterPoint V) : Except (GridError ε) (Evaluation V) :=
  (evaluatePoint objective point).map fun score => ⟨point, score⟩

def optimizationResult (grid : ParameterGrid V) (evaluations : List (Evaluation V)) (best : Evaluation V) :
    Except (GridError ε) (OptimizationResult V) :=
  if h : evaluations ≠ [] then .ok ⟨grid, evaluations, best.point, best.score, h⟩
  else .error (.optimization "OptimizationResult.evaluations must be a non-empty tuple of Evaluation")

def gridSearch (grid : ParameterGrid V) : Except (GridError ε) (OptimizationResult V) := do
  let evaluations ← grid.points.mapM (evaluationAt objective)
  let best ← selectBest evaluations
  optimizationResult grid evaluations best

end Search

/-! ### The first of the best -/

/-- What the loop of `select_best` finds: the first of the best evaluations. -/
theorem foldl_better (first : Evaluation V) (rest : List (Evaluation V)) :
    ∃ k, (first :: rest)[k]? = some (rest.foldl better first) ∧
      (∀ e ∈ first :: rest, e.score.val ≤ (rest.foldl better first).score.val) ∧
        ∀ (j : ℕ) (e : Evaluation V), j < k → (first :: rest)[j]? = some e →
          e.score.val < (rest.foldl better first).score.val := by
  induction rest using List.reverseRecOn with
  | nil => exact ⟨0, rfl, by simp, by simp⟩
  | append_singleton rest e ih =>
    obtain ⟨k, hk, hle, hlt⟩ := ih
    have hk' : k < (first :: rest).length := (List.getElem?_eq_some_iff.mp hk).1
    rw [List.foldl_append, List.foldl_cons, List.foldl_nil, ← List.cons_append]
    generalize rest.foldl better first = best at hk hle hlt ⊢
    unfold better
    by_cases hbetter : best.score.val < e.score.val
    · rw [if_pos hbetter]
      refine ⟨(first :: rest).length, by simp, ?_, ?_⟩
      · intro e' he'
        rcases List.mem_append.mp he' with he' | he'
        · exact (hle e' he').trans hbetter.le
        · rw [List.mem_singleton.mp he']
      · intro j e' hj he'
        rw [List.getElem?_append_left hj] at he'
        exact (hle e' (List.mem_of_getElem? he')).trans_lt hbetter
    · rw [if_neg hbetter]
      refine ⟨k, by rw [List.getElem?_append_left hk']; exact hk, ?_, ?_⟩
      · intro e' he'
        rcases List.mem_append.mp he' with he' | he'
        · exact hle e' he'
        · rw [List.mem_singleton.mp he']
          exact not_lt.mp hbetter
      · intro j e' hj he'
        rw [List.getElem?_append_left (hj.trans hk')] at he'
        exact hlt j e' hj he'

/-! ### The points -/

section Points

variable (grid : ParameterGrid V)

theorem combinationCount_eq : grid.combinationCount = grid.sizes.prod := by
  have hfold : ∀ (l : List (Parameter V)) (n : ℕ),
      l.foldl (fun count p => count * p.values.length) n = n * (l.map fun p => p.values.length).prod := by
    intro l
    induction l with
    | nil => simp
    | cons p l ih =>
      intro n
      rw [List.foldl_cons, ih, List.map_cons, List.prod_cons, mul_assoc]
  rw [ParameterGrid.combinationCount, hfold, one_mul]
  rfl

theorem length_points : grid.points.length = grid.sizes.prod := by
  rw [ParameterGrid.points, List.length_map, length_product, List.map_map]
  rfl

/-- The value of a name in a list of assignments without a name twice. -/
theorem find?_of_nodup {l : List (String × V)} (h : (l.map Prod.fst).Nodup) {name : String} {v : V}
    (hmem : (name, v) ∈ l) : l.find? (fun a => a.1 = name) = some (name, v) := by
  induction l with
  | nil => cases hmem
  | cons a l ih =>
    rw [List.map_cons, List.nodup_cons] at h
    rcases List.mem_cons.mp hmem with rfl | hmem
    · simp
    · have hne : a.1 ≠ name := by
        intro heq
        rw [heq] at h
        exact h.1 (List.mem_map.mpr ⟨(name, v), hmem, rfl⟩)
      rw [List.find?_cons_of_neg (by simpa using hne)]
      exact ih h.2 hmem

/-- **Point number `k`** gives each parameter the value at its digit of `k`. -/
theorem value_points {k : ℕ} {point : ParameterPoint V} (hpoint : grid.points[k]? = some point) {i : ℕ}
    {p : Parameter V} (hp : grid.parameters[i]? = some p) :
    ∃ d v, (digits grid.sizes k)[i]? = some d ∧ p.values[d]? = some v ∧ point.asDict p.name = some v := by
  have hk : k < grid.sizes.prod := by
    rw [← length_points]
    exact (List.getElem?_eq_some_iff.mp hpoint).1
  have hsizes : (grid.parameters.map Parameter.values).map List.length = grid.sizes := by
    rw [List.map_map]
    rfl
  rw [ParameterGrid.points, List.getElem?_map, getElem?_product (by rw [hsizes]; exact hk), hsizes] at hpoint
  obtain ⟨combo, hcombo, rfl⟩ := Option.map_eq_some_iff.mp hpoint
  obtain ⟨hlength, hall⟩ := choose_eq_some hcombo
  obtain ⟨d, v, hd, hv, hget⟩ := hall i p.values (by rw [List.getElem?_map, hp]; rfl)
  refine ⟨d, v, hd, hv, ?_⟩
  have hmem : (p.name, v) ∈ (grid.parameters.map Parameter.name).zip combo := by
    refine List.mem_of_getElem? (i := i) ?_
    rw [List.getElem?_zip_eq_some]
    exact ⟨by rw [List.getElem?_map, hp]; rfl, hget⟩
  have hnames : ((grid.parameters.map Parameter.name).zip combo).map Prod.fst = grid.parameters.map Parameter.name := by
    rw [List.map_fst_zip]
    rw [hlength, List.length_map, List.length_map]
  have hnodup : (((grid.parameters.map Parameter.name).zip combo).reverse.map Prod.fst).Nodup := by
    rw [List.map_reverse, List.nodup_reverse, hnames]
    exact grid.names_nodup
  rw [ParameterPoint.asDict, find?_of_nodup hnodup (List.mem_reverse.mpr hmem)]
  rfl

end Points

/-! ### The search -/

theorem evaluationAt_eq_ok {objective : ParameterPoint V → Except ε Score} {point : ParameterPoint V} {ev : Evaluation V}
    (h : evaluationAt objective point = .ok ev) : ev.point = point ∧ evaluatePoint objective point = .ok ev.score := by
  unfold evaluationAt at h
  cases hs : evaluatePoint objective point with
  | error e => rw [hs] at h; cases h
  | ok score =>
    rw [hs] at h
    cases h
    exact ⟨rfl, rfl⟩

/-- The result of a search. -/
structure Searched (objective : ParameterPoint V → Except ε Score) (grid : ParameterGrid V) (r : OptimizationResult V) :
    Prop where
  count : r.evaluations.length = grid.combinationCount
  /-- Evaluation number `k` gives each parameter the value at its digit of `k`. -/
  value : ∀ (k : ℕ) (e : Evaluation V), r.evaluations[k]? = some e → ∀ (i : ℕ) (p : Parameter V),
    grid.parameters[i]? = some p →
      ∃ d v, (digits grid.sizes k)[i]? = some d ∧ p.values[d]? = some v ∧ e.point.asDict p.name = some v
  /-- Each choice of places is that of one evaluation. -/
  once : ∀ ds, List.Forall₂ (· < ·) ds grid.sizes → ∃! k, k < r.evaluations.length ∧ digits grid.sizes k = ds
  score : ∀ e ∈ r.evaluations, evaluatePoint objective e.point = .ok e.score
  /-- The best evaluation is the first of the best. -/
  best : ∃ k, r.evaluations[k]? = some ⟨r.bestPoint, r.bestScore⟩ ∧
    (∀ e ∈ r.evaluations, e.score.val ≤ r.bestScore.val) ∧
      ∀ (j : ℕ) (e : Evaluation V), j < k → r.evaluations[j]? = some e → e.score.val < r.bestScore.val

/-- What the first point that fails raises. -/
theorem mapM_cases {α β δ : Type*} (f : α → Except δ β) (l : List α) : (∃ l', l.mapM f = .ok l') ∨
    ∃ k a e, l[k]? = some a ∧ f a = .error e ∧ l.mapM f = .error e ∧
      ∀ (j : ℕ) (b : α), j < k → l[j]? = some b → ∃ y, f b = .ok y := by
  induction l with
  | nil => exact .inl ⟨[], rfl⟩
  | cons a l ih =>
    rw [List.mapM_cons]
    cases ha : f a with
    | error e =>
      refine .inr ⟨0, a, e, rfl, ha, rfl, ?_⟩
      intro j b hj
      omega
    | ok y =>
      rcases ih with ⟨l', hl'⟩ | ⟨k, b, e, hb, hfb, hl, hbefore⟩
      · exact .inl ⟨y :: l', by rw [hl']; rfl⟩
      · refine .inr ⟨k + 1, b, e, hb, hfb, by rw [hl]; rfl, ?_⟩
        intro j b' hj hb'
        cases j with
        | zero =>
          cases hb'
          exact ⟨y, ha⟩
        | succ j => exact hbefore j b' (by omega) hb'

/-- **A grid search**, for every grid and every objective: it returns every point once and the first of the best, or it
raises what the first point that fails raises. -/
theorem gridSearch_spec (objective : ParameterPoint V → Except ε Score) (grid : ParameterGrid V) :
    (∃ r, gridSearch objective grid = .ok r ∧ Searched objective grid r) ∨
      ∃ k point e, grid.points[k]? = some point ∧ evaluatePoint objective point = .error e ∧
        gridSearch objective grid = .error e ∧
          ∀ (j : ℕ) (point' : ParameterPoint V), j < k → grid.points[j]? = some point' →
            ∃ score, evaluatePoint objective point' = .ok score := by
  rcases mapM_cases (evaluationAt objective) grid.points with ⟨evaluations, hall⟩ | ⟨k, point, e, hpoint, he, hall, hbefore⟩
  · left
    obtain ⟨hlength, hget⟩ := mapM_eq_ok hall
    have hpos : 0 < grid.points.length := by
      rw [length_points]
      apply Nat.pos_of_ne_zero
      rw [ne_eq, List.prod_eq_zero_iff, ParameterGrid.sizes, List.mem_map]
      rintro ⟨p, -, hp⟩
      exact p.values_ne_nil (List.length_eq_zero_iff.mp hp)
    cases evaluations with
    | nil =>
      rw [List.length_nil] at hlength
      omega
    | cons first rest =>
      obtain ⟨k, hbest⟩ := foldl_better first rest
      have hscore (j : ℕ) (ev : Evaluation V) (hev : (first :: rest)[j]? = some ev) :
          grid.points[j]? = some ev.point ∧ evaluatePoint objective ev.point = .ok ev.score := by
        have hj : j < grid.points.length := by
          rw [← hlength]
          exact (List.getElem?_eq_some_iff.mp hev).1
        obtain ⟨hpoint, hs⟩ := evaluationAt_eq_ok (hget j _ ev (List.getElem?_eq_getElem hj) hev)
        rw [hpoint]
        exact ⟨List.getElem?_eq_getElem hj, hs⟩
      refine ⟨⟨grid, first :: rest, (rest.foldl better first).point, (rest.foldl better first).score, by simp⟩, ?_, ?_⟩
      · rw [gridSearch, hall]
        rfl
      · refine ⟨?_, ?_, ?_, ?_, k, hbest⟩
        · rw [hlength, length_points, combinationCount_eq]
        · intro j ev hev i p hp
          exact value_points grid (hscore j ev hev).1 hp
        · intro ds hds
          refine ⟨rank grid.sizes ds, ⟨?_, digits_rank hds⟩, ?_⟩
          · rw [hlength, length_points]
            exact rank_lt hds
          · rintro j ⟨hj, rfl⟩
            rw [hlength, length_points] at hj
            exact (rank_digits hj).symm
        · intro ev hev
          obtain ⟨j, hj⟩ := List.mem_iff_getElem?.mp hev
          exact (hscore j ev hj).2
  · right
    have hfail : evaluatePoint objective point = .error e := by
      unfold evaluationAt at he
      cases hs : evaluatePoint objective point with
      | ok score => rw [hs] at he; cases he
      | error e' =>
        rw [hs] at he
        cases he
        rfl
    refine ⟨k, point, e, hpoint, hfail, ?_, ?_⟩
    · rw [gridSearch, hall]
      rfl
    · intro j point' hj hpoint'
      obtain ⟨ev, hev⟩ := hbefore j point' hj hpoint'
      exact ⟨ev.score, (evaluationAt_eq_ok hev).2⟩

end AlphaAlgo.Backtest
