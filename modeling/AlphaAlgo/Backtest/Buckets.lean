import AlphaAlgo.Base.Dates
import AlphaAlgo.Backtest.Drawdown
import AlphaAlgo.Backtest.Lookahead
import AlphaAlgo.Lib.Segments

/-!
# Buckets — the performance by day, month and year

`bucketPerformance` of the report cuts an equity curve where the calendar key of its points changes; the key is taken
from the wall clock of each point's own time zone.

* `bucketPerformance_eq`: the loop makes one bucket of each segment.
* `bucketPerformance_run`: the buckets of a backtest.
* `bucketPerformance_refines`: days make up months, and months years.
-/

namespace AlphaAlgo.Backtest

open Loop DateTime

inductive PeriodGranularity where
  | daily
  | monthly
  | yearly
deriving DecidableEq, Repr

/-! ### The loop -/

/-- The fields of a bucket, before its checks. -/
structure BucketFields where
  label : String
  startTimestamp : DateTime
  endTimestamp : DateTime
  startEquity : ℚ
  endEquity : ℚ
  periodReturn : Option ℚ
deriving DecidableEq

/-- `PeriodBucket.__post_init__`. -/
def BucketFields.check (f : BucketFields) : Except ReportError Unit := do
  raiseIf (f.label = "") (.report "PeriodBucket.label must be a non-empty string")
  raiseIf (f.startTimestamp.aware = false) (.report "PeriodBucket.start_timestamp must be timezone-aware")
  raiseIf (f.endTimestamp.aware = false) (.report "PeriodBucket.end_timestamp must be timezone-aware")
  raiseIf (f.endTimestamp.instant < f.startTimestamp.instant) (.report "PeriodBucket start must not follow end")
  raiseIf (f.startEquity ≤ 0) (.report "PeriodBucket.start_equity must be a positive finite Decimal")
  raiseIf (f.endEquity ≤ 0) (.report "PeriodBucket.end_equity must be a positive finite Decimal")

/-- A bucket: its fields passed the checks. -/
structure PeriodBucket extends BucketFields where
  valid : toBucketFields.check = .ok ()

/-- `_bucket_key`. -/
def bucketKey (timestamp : DateTime) : PeriodGranularity → List ℕ
  | .daily => [timestamp.year, timestamp.month, timestamp.day]
  | .monthly => [timestamp.year, timestamp.month]
  | .yearly => [timestamp.year]

/-- `_bucket_label`. -/
def bucketLabel : List ℕ → String
  | [year, month, day] => padded 4 year ++ "-" ++ padded 2 month ++ "-" ++ padded 2 day
  | [year, month] => padded 4 year ++ "-" ++ padded 2 month
  | key => padded 4 (key.headD 0)

/-- The fields of the bucket of the points `first :: rest`. -/
def bucketFields (key : List ℕ) (first : EquityPoint) (rest : List EquityPoint) : BucketFields :=
  let last := (first :: rest).getLast (List.cons_ne_nil _ _)
  { label := bucketLabel key
    startTimestamp := first.timestamp
    endTimestamp := last.timestamp
    startEquity := first.equity
    endEquity := last.equity
    periodReturn :=
      if rest = [] then none
      else some (Ctx.default.fix (Ctx.default.fix (last.equity - first.equity) / first.equity)) }

/-- `_make_bucket`. -/
def makeBucket (key : List ℕ) (first : EquityPoint) (rest : List EquityPoint) : Except ReportError PeriodBucket :=
  accept (bucketFields key first rest).check fun h => ⟨_, h⟩

/-- The variables of the loop: the buckets that are done, and the key and the points of the current one. -/
structure BucketLoop where
  buckets : List PeriodBucket := []
  current : Option (List ℕ × EquityPoint × List EquityPoint) := none

/-- The current bucket is made, where there is one. -/
def BucketLoop.flush (s : BucketLoop) : Except ReportError (List PeriodBucket) :=
  match s.current with
  | none => .ok s.buckets
  | some (key, first, rest) => (makeBucket key first rest).map fun bucket => s.buckets ++ [bucket]

def BucketLoop.step (granularity : PeriodGranularity) (s : BucketLoop) (point : EquityPoint) :
    Except ReportError BucketLoop :=
  let key := bucketKey point.timestamp granularity
  match s.current with
  | none => .ok { s with current := some (key, point, []) }
  | some (currentKey, first, rest) =>
    if key = currentKey then .ok { s with current := some (currentKey, first, rest ++ [point]) }
    else s.flush.map fun buckets => ⟨buckets, some (key, point, [])⟩

def bucketPerformance (equityCurve : List EquityPoint) (granularity : PeriodGranularity) :
    Except ReportError (List PeriodBucket) := do
  validateEquityCurve equityCurve
  let s ← run (BucketLoop.step granularity) {} equityCurve
  s.flush

/-! ### The segments -/

/-- The key of a point. -/
def pointKey (granularity : PeriodGranularity) (point : EquityPoint) : List ℕ := bucketKey point.timestamp granularity

/-- The bucket of the points of a segment. -/
def Made (granularity : PeriodGranularity) (points : List EquityPoint) (bucket : PeriodBucket) : Prop :=
  ∃ first rest, points = first :: rest ∧ makeBucket (pointKey granularity first) first rest = .ok bucket

section Loop

variable {granularity : PeriodGranularity} {key : List ℕ} {first : EquityPoint} {rest : List EquityPoint}

theorem made_cons {bucket : PeriodBucket} (hkey : pointKey granularity first = key) :
    Made granularity (first :: rest) bucket ↔ makeBucket key first rest = .ok bucket := by
  constructor
  · rintro ⟨first', rest', heq, h⟩
    cases heq
    rwa [hkey] at h
  · exact fun h => ⟨first, rest, rfl, by rwa [hkey]⟩

theorem segments_current (h : ∀ p ∈ first :: rest, pointKey granularity p = key) :
    segments (pointKey granularity) (first :: rest) = [first :: rest] :=
  segments_same (List.cons_ne_nil _ _) fun a ha b hb => (h a ha).trans (h b hb).symm

/-- **The loop makes one bucket of each segment**, the first of them out of the current points. -/
theorem run_step_iff (curve : List EquityPoint) (h : ∀ p ∈ first :: rest, pointKey granularity p = key)
    {buckets out : List PeriodBucket} :
    (run (BucketLoop.step granularity) ⟨buckets, some (key, first, rest)⟩ curve >>= BucketLoop.flush) = .ok out ↔
      ∃ made, List.Forall₂ (Made granularity) (segments (pointKey granularity) (first :: rest ++ curve)) made ∧
        buckets ++ made = out := by
  induction curve generalizing buckets key first rest with
  | nil =>
    have hkey := h first List.mem_cons_self
    rw [List.append_nil, segments_current h, run_nil]
    show (makeBucket key first rest).map _ = .ok out ↔ _
    rw [map_eq_ok]
    simp only [List.forall₂_cons_left_iff, List.forall₂_nil_left_iff, made_cons hkey]
    constructor
    · rintro ⟨bucket, hbucket, rfl⟩
      exact ⟨[bucket], ⟨bucket, [], hbucket, rfl, rfl⟩, rfl⟩
    · rintro ⟨made, ⟨bucket, l, hbucket, rfl, rfl⟩, rfl⟩
      exact ⟨bucket, hbucket, rfl⟩
  | cons point curve ih =>
    have hkey := h first List.mem_cons_self
    rw [run_cons]
    by_cases hpoint : bucketKey point.timestamp granularity = key
    · have hstep : BucketLoop.step granularity ⟨buckets, some (key, first, rest)⟩ point =
          .ok ⟨buckets, some (key, first, rest ++ [point])⟩ := if_pos hpoint
      have hall : ∀ p ∈ first :: (rest ++ [point]), pointKey granularity p = key := by
        intro p hp
        rw [← List.cons_append, List.mem_append, List.mem_singleton] at hp
        rcases hp with hp | rfl
        · exact h p hp
        · exact hpoint
      rw [hstep]
      show (run _ (⟨buckets, some (key, first, rest ++ [point])⟩ : BucketLoop) curve >>= _) = .ok out ↔ _
      rw [ih hall]
      simp only [List.cons_append, List.append_assoc, List.nil_append]
    · have hstep : BucketLoop.step granularity ⟨buckets, some (key, first, rest)⟩ point =
          ((makeBucket key first rest).map fun bucket => buckets ++ [bucket]).map fun buckets =>
            ⟨buckets, some (bucketKey point.timestamp granularity, point, [])⟩ := if_neg hpoint
      have hchange : ∀ p ∈ first :: rest, pointKey granularity p ≠ pointKey granularity point :=
        fun p hp hp' => hpoint (hp'.symm.trans (h p hp))
      have hcut : segments (pointKey granularity) (first :: rest ++ point :: curve) =
          (first :: rest) :: segments (pointKey granularity) (point :: curve) := by
        rw [segments_append hchange, segments_current h]
        rfl
      rw [hstep, hcut]
      simp only [List.forall₂_cons_left_iff, made_cons hkey]
      cases hbucket : makeBucket key first rest with
      | error e =>
        constructor
        · intro hout
          cases hout
        · rintro ⟨made, ⟨bucket, l, hmade, -⟩, -⟩
          cases hmade
      | ok bucket =>
        have hnext := @ih (bucketKey point.timestamp granularity) point [] (by simp [pointKey]) (buckets ++ [bucket])
        show (run _ (⟨buckets ++ [bucket], some (_, point, [])⟩ : BucketLoop) curve >>= _) = .ok out ↔ _
        rw [hnext]
        constructor
        · rintro ⟨made, hmade, rfl⟩
          exact ⟨bucket :: made, ⟨bucket, made, rfl, hmade, rfl⟩, by simp⟩
        · rintro ⟨made, ⟨bucket', l, hmade, hl, rfl⟩, rfl⟩
          cases hmade
          exact ⟨l, hl, by simp⟩

theorem validateEquityCurve_ok {curve : List EquityPoint} :
    validateEquityCurve curve = .ok () ↔ curve ≠ [] ∧ ∀ p ∈ curve, 0 < p.equity := by
  simp [validateEquityCurve, bind_eq_ok]

/-- The loop from the first point of a curve on. -/
theorem run_loop_iff (point : EquityPoint) (curve : List EquityPoint) {buckets : List PeriodBucket} :
    (run (BucketLoop.step granularity) {} (point :: curve) >>= BucketLoop.flush) = .ok buckets ↔
      List.Forall₂ (Made granularity) (segments (pointKey granularity) (point :: curve)) buckets := by
  have hpoint : ∀ p ∈ [point], pointKey granularity p = pointKey granularity point := by simp
  have hloop := @run_step_iff granularity _ point [] curve hpoint [] buckets
  constructor
  · intro h
    obtain ⟨made, hmade, rfl⟩ := hloop.mp h
    exact hmade
  · exact fun hmade => hloop.mpr ⟨buckets, hmade, rfl⟩

/-- The buckets are those of the segments. -/
theorem bucketPerformance_eq {curve : List EquityPoint} {buckets : List PeriodBucket} :
    bucketPerformance curve granularity = .ok buckets ↔ validateEquityCurve curve = .ok () ∧
      List.Forall₂ (Made granularity) (segments (pointKey granularity) curve) buckets := by
  unfold bucketPerformance
  rw [bind_eq_ok]
  constructor
  · rintro ⟨⟨⟩, hvalid, h⟩
    refine ⟨hvalid, ?_⟩
    cases curve with
    | nil => exact absurd rfl (validateEquityCurve_ok.mp hvalid).1
    | cons point curve => exact (run_loop_iff point curve).mp h
  · rintro ⟨hvalid, hmade⟩
    refine ⟨(), hvalid, ?_⟩
    cases curve with
    | nil => exact absurd rfl (validateEquityCurve_ok.mp hvalid).1
    | cons point curve => exact (run_loop_iff point curve).mpr hmade

end Loop

/-! ### One bucket -/

/-- The bucket of some points: their label, the first and the last of them, and the return between the two. -/
structure Bucketed (granularity : PeriodGranularity) (points : List EquityPoint) (bucket : PeriodBucket) : Prop where
  label : ∀ p ∈ points, bucket.label = bucketLabel (pointKey granularity p)
  first : points.head? = some ⟨bucket.startTimestamp, bucket.startEquity⟩
  last : points.getLast? = some ⟨bucket.endTimestamp, bucket.endEquity⟩
  periodReturn : bucket.periodReturn =
    if points.length < 2 then none
    else some (Ctx.default.fix (Ctx.default.fix (bucket.endEquity - bucket.startEquity) / bucket.startEquity))

theorem makeBucket_ok {key : List ℕ} {first : EquityPoint} {rest : List EquityPoint} {bucket : PeriodBucket}
    (h : makeBucket key first rest = .ok bucket) : bucket.toBucketFields = bucketFields key first rest := by
  obtain ⟨_, rfl⟩ := accept_eq_ok.mp h
  rfl

theorem Made.bucketed {granularity : PeriodGranularity} {points : List EquityPoint} {bucket : PeriodBucket}
    (h : Made granularity points bucket)
    (hsame : ∀ p ∈ points, ∀ q ∈ points, pointKey granularity p = pointKey granularity q) :
    Bucketed granularity points bucket := by
  obtain ⟨first, rest, rfl, hmake⟩ := h
  have hfields := makeBucket_ok hmake
  have hstart : bucket.startTimestamp = first.timestamp ∧ bucket.startEquity = first.equity := by
    rw [hfields]
    exact ⟨rfl, rfl⟩
  have hend : bucket.endTimestamp = ((first :: rest).getLast (List.cons_ne_nil _ _)).timestamp ∧
      bucket.endEquity = ((first :: rest).getLast (List.cons_ne_nil _ _)).equity := by
    rw [hfields]
    exact ⟨rfl, rfl⟩
  refine ⟨fun p hp => ?_, ?_, ?_, ?_⟩
  · rw [hfields, ← hsame first List.mem_cons_self p hp]
    rfl
  · rw [hstart.1, hstart.2]
    rfl
  · rw [hend.1, hend.2, List.getLast?_eq_some_getLast (List.cons_ne_nil _ _)]
  · rw [hstart.2, hend.2, hfields]
    cases rest with
    | nil => rfl
    | cons p rest =>
      rw [if_neg (by simp)]
      rfl

theorem padded_ne_empty (n : ℕ) : padded 4 n ≠ "" := by
  intro h
  have hlength := congrArg (fun s => s.toList.length) h
  simp [padded] at hlength

theorem bucketLabel_ne_empty (t : DateTime) (granularity : PeriodGranularity) :
    bucketLabel (bucketKey t granularity) ≠ "" := by
  have hyear : (padded 4 t.year).toList ≠ [] := fun h => padded_ne_empty t.year (String.toList_inj.mp h)
  intro h
  have hlist := congrArg String.toList h
  cases granularity <;> simp [bucketKey, bucketLabel, hyear] at hlist

theorem toList_bucketLabel (t : DateTime) :
    (bucketLabel (bucketKey t .daily)).toList =
        (padded 4 t.year).toList ++ '-' :: ((padded 2 t.month).toList ++ '-' :: (padded 2 t.day).toList) ∧
      (bucketLabel (bucketKey t .monthly)).toList = (padded 4 t.year).toList ++ '-' :: (padded 2 t.month).toList ∧
      (bucketLabel (bucketKey t .yearly)).toList = (padded 4 t.year).toList := by
  simp [bucketKey, bucketLabel]

/-- A label determines its key. -/
theorem bucketKey_of_label {t u : DateTime} {granularity : PeriodGranularity}
    (h : bucketLabel (bucketKey t granularity) = bucketLabel (bucketKey u granularity)) :
    bucketKey t granularity = bucketKey u granularity := by
  have hlist := congrArg String.toList h
  have hlast : ∀ {w n n' : ℕ}, (padded w n).toList = (padded w n').toList → n = n' := by
    intro w n n' heq
    exact (padded_append_inj (w := w) (ends_nil _) (ends_nil _) (congrArg (· ++ []) heq)).1
  obtain ⟨hdaily, hmonthly, hyearly⟩ := toList_bucketLabel t
  obtain ⟨hdaily', hmonthly', hyearly'⟩ := toList_bucketLabel u
  cases granularity with
  | daily =>
    rw [hdaily, hdaily'] at hlist
    obtain ⟨hyear, hlist⟩ := padded_cons_inj rfl hlist
    obtain ⟨hmonth, hlist⟩ := padded_cons_inj rfl hlist
    simp only [bucketKey, hyear, hmonth, hlast hlist]
  | monthly =>
    rw [hmonthly, hmonthly'] at hlist
    obtain ⟨hyear, hlist⟩ := padded_cons_inj rfl hlist
    simp only [bucketKey, hyear, hlast hlist]
  | yearly =>
    rw [hyearly, hyearly'] at hlist
    simp only [bucketKey, hlast hlist]

/-- The points of a segment have a bucket. -/
theorem exists_made {granularity : PeriodGranularity} {points : List EquityPoint} (hne : points ≠ [])
    (hpos : ∀ p ∈ points, 0 < p.equity) (haware : ∀ p ∈ points, p.timestamp.aware = true)
    (hascend : points.Pairwise fun p q => p.timestamp.instant < q.timestamp.instant) :
    ∃ bucket, Made granularity points bucket := by
  obtain ⟨first, rest, rfl⟩ := List.exists_cons_of_ne_nil hne
  have hfirst : first ∈ first :: rest := List.mem_cons_self
  have hlast := List.getLast_mem (List.cons_ne_nil first rest)
  have hordered : first.timestamp.instant ≤ ((first :: rest).getLast (List.cons_ne_nil _ _)).timestamp.instant := by
    rcases List.mem_cons.mp hlast with heq | hmem
    · rw [heq]
    · exact ((List.pairwise_cons.mp hascend).1 _ hmem).le
  have hcheck : (bucketFields (pointKey granularity first) first rest).check = .ok () := by
    simp only [BucketFields.check, bind_eq_ok, raiseIf_eq_ok, exists_const, not_lt, not_le, Bool.not_eq_false]
    exact ⟨bucketLabel_ne_empty _ _, haware first hfirst, haware _ hlast, hordered, hpos first hfirst, hpos _ hlast⟩
  exact ⟨_, first, rest, rfl, accept_of_ok _ hcheck⟩

theorem bucketed_of_made {granularity : PeriodGranularity} {curve : List EquityPoint} {groups : List (List EquityPoint)}
    {buckets : List PeriodBucket} (hcut : Segmented (pointKey granularity) curve groups)
    (h : List.Forall₂ (Made granularity) groups buckets) : List.Forall₂ (Bucketed granularity) groups buckets := by
  rw [List.forall₂_iff_get] at h ⊢
  exact ⟨h.1, fun i hi hi' => (h.2 i hi hi').bucketed (hcut.same _ (List.get_mem _ _))⟩

/-- Buckets of different periods have different labels. -/
theorem nodup_labels {granularity : PeriodGranularity} {groups : List (List EquityPoint)} {buckets : List PeriodBucket}
    (h : List.Forall₂ (Bucketed granularity) groups buckets)
    (hdistinct : groups.Pairwise fun g g' => ∀ p ∈ g, ∀ q ∈ g', pointKey granularity p ≠ pointKey granularity q) :
    (buckets.map fun bucket => bucket.label).Nodup := by
  obtain ⟨hlength, hget⟩ := List.forall₂_iff_get.mp h
  rw [List.Nodup, List.pairwise_map, List.pairwise_iff_getElem]
  intro i j hi hj hij hlabel
  have hbucket := hget i (hlength ▸ hi) hi
  have hbucket' := hget j (hlength ▸ hj) hj
  have hmem := List.mem_of_head? hbucket.first
  have hmem' := List.mem_of_head? hbucket'.first
  refine List.pairwise_iff_getElem.mp hdistinct i j _ _ hij _ hmem _ hmem' (bucketKey_of_label ?_)
  exact (hbucket.label _ hmem).symm.trans (hlabel.trans (hbucket'.label _ hmem'))

/-! ### The buckets of a backtest -/

theorem exists_forall₂ {α β : Type*} {R : α → β → Prop} : ∀ {l : List α}, (∀ a ∈ l, ∃ b, R a b) →
    ∃ l', List.Forall₂ R l l'
  | [], _ => ⟨[], .nil⟩
  | a :: l, h => by
    obtain ⟨b, hb⟩ := h a List.mem_cons_self
    obtain ⟨l', hl'⟩ := exists_forall₂ fun x hx => h x (List.mem_cons_of_mem a hx)
    exact ⟨b :: l', .cons hb hl'⟩

section Run

variable {c : Ctx} {inputs : BacktestInput} {intents : List OrderIntent} {costModel : CostModel} {initialCapital : ℚ}
  {r : BacktestRun}

/-- A run has a point for each record. -/
theorem timestamps_of_run (h : runBacktest c inputs intents costModel initialCapital = .ok r) :
    r.equityCurve.map EquityPoint.timestamp = inputs.records.map MarketRecord.timestamp := by
  obtain ⟨s, hran⟩ := ran h
  rw [hran.equityCurve, map_timestamp_equityPoints hran.ended, time_stepsOf]
  rfl

theorem ascending_of_run (h : runBacktest c inputs intents costModel initialCapital = .ok r) :
    r.equityCurve.Pairwise fun p q => p.timestamp.instant < q.timestamp.instant := by
  have hmap : (inputs.records.map MarketRecord.timestamp).Pairwise fun t u => t.instant < u.instant :=
    List.pairwise_map.mpr inputs.ascending
  rw [← timestamps_of_run h, List.pairwise_map] at hmap
  exact hmap

theorem exists_record (h : runBacktest c inputs intents costModel initialCapital = .ok r) {p : EquityPoint}
    (hp : p ∈ r.equityCurve) : ∃ record ∈ inputs.records, record.timestamp = p.timestamp := by
  have hmem : p.timestamp ∈ r.equityCurve.map EquityPoint.timestamp := List.mem_map_of_mem hp
  rw [timestamps_of_run h] at hmem
  exact List.mem_map.mp hmem

theorem aware_of_run (h : runBacktest c inputs intents costModel initialCapital = .ok r) :
    ∀ p ∈ r.equityCurve, p.timestamp.aware = true := by
  intro p hp
  obtain ⟨record, hrecord, htime⟩ := exists_record h hp
  obtain ⟨first, rest, -, hfits⟩ := inputs.exists_first
  obtain ⟨previous, hfit⟩ := FitsFrom.fits hfits record hrecord
  rw [← htime]
  exact hfit.aware

/-- Between two instants in one period, every instant is in it. -/
theorem bucketKey_between {t u v : DateTime} {granularity : PeriodGranularity} (ht : t.Civil) (hu : u.Civil)
    (hv : v.Civil) (htu : t.wallClock ≤ u.wallClock) (huv : u.wallClock ≤ v.wallClock)
    (h : bucketKey t granularity = bucketKey v granularity) : bucketKey t granularity = bucketKey u granularity := by
  have h₁ := dates_ascend ht hu htu
  have h₂ := dates_ascend hu hv huv
  cases granularity with
  | daily =>
    simp only [bucketKey, List.cons.injEq, and_true] at h ⊢
    omega
  | monthly =>
    simp only [bucketKey, List.cons.injEq, and_true] at h ⊢
    omega
  | yearly =>
    simp only [bucketKey, List.cons.injEq, and_true] at h ⊢
    omega

/-- A backtest whose marked equity stays positive has its buckets. -/
theorem exists_buckets (h : runBacktest c inputs intents costModel initialCapital = .ok r)
    (hpos : ∀ p ∈ r.equityCurve, 0 < p.equity) (granularity : PeriodGranularity) :
    ∃ buckets, bucketPerformance r.equityCurve granularity = .ok buckets ∧
      List.Forall₂ (Bucketed granularity) (segments (pointKey granularity) r.equityCurve) buckets := by
  have hcut := segmented_segments (pointKey granularity) r.equityCurve
  have hsub : ∀ g ∈ segments (pointKey granularity) r.equityCurve, g.Sublist r.equityCurve := by
    intro g hg
    rw [← hcut.flatten]
    exact List.sublist_flatten_of_mem hg
  have hall : ∀ g ∈ segments (pointKey granularity) r.equityCurve, ∃ bucket, Made granularity g bucket := by
    intro g hg
    have hmem : ∀ p ∈ g, p ∈ r.equityCurve := fun p hp => (hsub g hg).subset hp
    refine exists_made (fun hnil => hcut.ne_nil (hnil ▸ hg)) (fun p hp => hpos p (hmem p hp))
      (fun p hp => aware_of_run h p (hmem p hp)) ((ascending_of_run h).sublist (hsub g hg))
  obtain ⟨buckets, hmade⟩ := exists_forall₂ hall
  exact ⟨buckets, bucketPerformance_eq.mpr ⟨validateEquityCurve_ok.mpr ⟨r.equity_nonempty, hpos⟩, hmade⟩,
    bucketed_of_made hcut hmade⟩

/-- **The buckets of a backtest.**  Where the marked equity stays positive they are made without an error: the curve is
cut into stretches, one for each bucket, that share their calendar key and differ in it from the next.  Where the
records have one offset, no label comes twice.  The exponents of the `Decimal`s are not limited. -/
theorem bucketPerformance_run (h : runBacktest c inputs intents costModel initialCapital = .ok r)
    (hpos : ∀ p ∈ r.equityCurve, 0 < p.equity) (granularity : PeriodGranularity) :
    ∃ buckets groups, bucketPerformance r.equityCurve granularity = .ok buckets ∧
      Segmented (pointKey granularity) r.equityCurve groups ∧
      List.Forall₂ (Bucketed granularity) groups buckets ∧
      ∀ o, (∀ record ∈ inputs.records, record.timestamp.Civil ∧ record.timestamp.utcoffset = some o) →
        (buckets.map fun bucket => bucket.label).Nodup := by
  have hcut := segmented_segments (pointKey granularity) r.equityCurve
  obtain ⟨buckets, hbuckets, hbucketed⟩ := exists_buckets h hpos granularity
  refine ⟨buckets, _, hbuckets, hcut, hbucketed, fun o ho => ?_⟩
  have hpoint : ∀ p ∈ r.equityCurve, p.timestamp.Civil ∧ p.timestamp.utcoffset = some o := by
    intro p hp
    obtain ⟨record, hrecord, htime⟩ := exists_record h hp
    rw [← htime]
    exact ho record hrecord
  -- in the order of the instants, a period does not come back
  refine nodup_labels hbucketed (pairwise_segments (List.Pairwise.and_mem.mp (ascending_of_run h)) ?_)
  · intro p q s hpq hqs hkey
    obtain ⟨hp, hq, hlt⟩ := hpq
    obtain ⟨-, hs, hlt'⟩ := hqs
    have hwall : ∀ t ∈ r.equityCurve, t.timestamp.instant = t.timestamp.wallClock - o := by
      intro t ht
      unfold instant
      rw [(hpoint t ht).2]
      rfl
    rw [hwall p hp, hwall q hq] at hlt
    rw [hwall q hq, hwall s hs] at hlt'
    exact bucketKey_between (hpoint p hp).1 (hpoint q hq).1 (hpoint s hs).1 (by omega) (by omega) hkey

end Run

theorem sample_equity_pos : ((runBacktest .exact sampleInput sampleIntents sampleCosts 1000).toOption.all fun r =>
    r.equityCurve.all fun p => decide (0 < p.equity)) = true := by
  decide +kernel

theorem bucketPerformance_run_sample : ∃ r buckets,
    runBacktest .exact sampleInput sampleIntents sampleCosts 1000 = .ok r ∧
      bucketPerformance r.equityCurve .daily = .ok buckets ∧ (buckets.map fun bucket => bucket.label).Nodup := by
  obtain ⟨r, hr⟩ := sample_accepted
  have hpos := sample_equity_pos
  rw [hr] at hpos
  have hall : ∀ p ∈ r.equityCurve, 0 < p.equity := fun p hp => of_decide_eq_true (List.all_eq_true.mp hpos p hp)
  obtain ⟨buckets, groups, hbuckets, -, -, hlabels⟩ := bucketPerformance_run hr hall .daily
  exact ⟨r, buckets, hr, hbuckets, hlabels 0 (by decide)⟩

/-- A point at a minute of the last hour of a day in UTC, or of the first hour of the next in UTC+1. -/
def samplePoint (minute : ℕ) (ahead : Bool) (equity : ℕ) : EquityPoint :=
  if ahead then ⟨⟨2026, 2, 1, 0, minute, 0, 0, some 3600000000⟩, equity⟩
  else ⟨⟨2026, 1, 31, 23, minute, 0, 0, some 0⟩, equity⟩

/-- With two offsets a day comes twice. -/
example : ((bucketPerformance [samplePoint 10 false 100, samplePoint 20 true 110, samplePoint 30 false 120]
    .daily).toOption.map fun buckets => buckets.map fun b => b.label) =
      some ["2026-01-31", "2026-02-01", "2026-01-31"] := by
  decide +kernel

/-! ### Days, months and years -/

/-- How many parts of the date a key has. -/
def PeriodGranularity.depth : PeriodGranularity → ℕ
  | daily => 3
  | monthly => 2
  | yearly => 1

/-- A bucket spans finer ones: it starts with the first and ends with the last, and its label begins theirs. -/
structure Spans (parts : List PeriodBucket) (bucket : PeriodBucket) : Prop where
  start : parts.head?.map (fun b => (b.startTimestamp, b.startEquity)) =
    some (bucket.startTimestamp, bucket.startEquity)
  ending : parts.getLast?.map (fun b => (b.endTimestamp, b.endEquity)) = some (bucket.endTimestamp, bucket.endEquity)
  label : ∀ b ∈ parts, bucket.label.toList <+: b.label.toList

section Refine

variable {fine coarse : PeriodGranularity}

theorem bucketKey_take (h : coarse.depth ≤ fine.depth) (t : DateTime) :
    bucketKey t coarse = (bucketKey t fine).take coarse.depth := by
  cases coarse <;> cases fine <;> first | rfl | simp [PeriodGranularity.depth] at h

theorem bucketLabel_prefix (h : coarse.depth ≤ fine.depth) (t : DateTime) :
    (bucketLabel (bucketKey t coarse)).toList <+: (bucketLabel (bucketKey t fine)).toList := by
  obtain ⟨hdaily, hmonthly, hyearly⟩ := toList_bucketLabel t
  cases coarse with
  | daily =>
    cases fine with
    | daily => exact List.prefix_rfl
    | monthly => exact absurd h (by decide)
    | yearly => exact absurd h (by decide)
  | monthly =>
    cases fine with
    | daily =>
      rw [hmonthly, hdaily]
      exact ⟨'-' :: (padded 2 t.day).toList, by rw [List.append_assoc, List.cons_append]⟩
    | monthly => exact List.prefix_rfl
    | yearly => exact absurd h (by decide)
  | yearly =>
    cases fine with
    | daily =>
      rw [hyearly, hdaily]
      exact List.prefix_append _ _
    | monthly =>
      rw [hyearly, hmonthly]
      exact List.prefix_append _ _
    | yearly => exact List.prefix_rfl

theorem forall₂_append_left {α β : Type*} {R : α → β → Prop} : ∀ {l₁ l₂ : List α} {l : List β},
    List.Forall₂ R (l₁ ++ l₂) l → ∃ l₁' l₂', l = l₁' ++ l₂' ∧ List.Forall₂ R l₁ l₁' ∧ List.Forall₂ R l₂ l₂'
  | [], _, l, h => ⟨[], l, rfl, .nil, h⟩
  | a :: l₁, l₂, l, h => by
    obtain ⟨b, l', hab, hl', rfl⟩ := List.forall₂_cons_left_iff.mp h
    obtain ⟨l₁', l₂', rfl, h₁, h₂⟩ := forall₂_append_left hl'
    exact ⟨b :: l₁', l₂', rfl, .cons hab h₁, h₂⟩

theorem forall₂_flatten_left {α β : Type*} {R : α → β → Prop} : ∀ {ls : List (List α)} {l : List β},
    List.Forall₂ R ls.flatten l → ∃ ls', ls'.flatten = l ∧ List.Forall₂ (List.Forall₂ R) ls ls'
  | [], l, h => by
    rw [List.flatten_nil, List.forall₂_nil_left_iff] at h
    exact ⟨[], h.symm, .nil⟩
  | g :: ls, l, h => by
    rw [List.flatten_cons] at h
    obtain ⟨g', l', rfl, hg, hl⟩ := forall₂_append_left h
    obtain ⟨ls', rfl, hls⟩ := forall₂_flatten_left hl
    exact ⟨g' :: ls', rfl, .cons hg hls⟩

/-- The finer buckets of the points of a bucket. -/
theorem spans_of_bucketed (h : coarse.depth ≤ fine.depth) {groups : List (List EquityPoint)}
    {parts : List PeriodBucket} {bucket : PeriodBucket} (hne : groups ≠ [])
    (hparts : List.Forall₂ (Bucketed fine) groups parts) (hbucket : Bucketed coarse groups.flatten bucket) :
    Spans parts bucket := by
  refine ⟨?_, ?_, fun b hb => ?_⟩
  · obtain ⟨g, groups, rfl⟩ := List.exists_cons_of_ne_nil hne
    obtain ⟨b, parts, hb, -, rfl⟩ := List.forall₂_cons_left_iff.mp hparts
    have hstart := hbucket.first
    rw [List.flatten_cons, List.head?_append, hb.first, Option.some_or, Option.some.injEq,
      EquityPoint.mk.injEq] at hstart
    rw [List.head?_cons, Option.map_some, hstart.1, hstart.2]
  · obtain ⟨groups, g, rfl⟩ := (List.eq_nil_or_concat groups).resolve_left hne
    rw [List.concat_eq_append] at hparts hbucket
    obtain ⟨parts, last, rfl, -, hlast⟩ := forall₂_append_left hparts
    obtain ⟨b, l, hb, hl, rfl⟩ := List.forall₂_cons_left_iff.mp hlast
    rw [List.forall₂_nil_left_iff.mp hl]
    have hend := hbucket.last
    rw [List.flatten_append, List.flatten_singleton, List.getLast?_append, hb.last, Option.some_or, Option.some.injEq,
      EquityPoint.mk.injEq] at hend
    rw [List.getLast?_append, List.getLast?_singleton, Option.some_or, Option.map_some, hend.1, hend.2]
  · obtain ⟨i, hi, rfl⟩ := List.mem_iff_getElem.mp hb
    obtain ⟨hlength, hget⟩ := List.forall₂_iff_get.mp hparts
    have hpart := hget i (hlength ▸ hi) hi
    have hmem := List.mem_of_head? hpart.first
    have hflat := List.mem_flatten_of_mem (List.get_mem groups ⟨i, hlength ▸ hi⟩) hmem
    have hlabel := hpart.label _ hmem
    rw [hbucket.label _ hflat]
    rw [List.get_eq_getElem] at hlabel
    rw [hlabel]
    exact bucketLabel_prefix h _

/-- **Days make up months, and months years.**  The buckets of a finer granularity are those of the coarser one, cut
further: each coarser bucket starts with the first of its finer ones and ends with the last, and its label begins
theirs. -/
theorem bucketPerformance_refines (h : coarse.depth ≤ fine.depth) {curve : List EquityPoint}
    {fineBuckets coarseBuckets : List PeriodBucket} (hfine : bucketPerformance curve fine = .ok fineBuckets)
    (hcoarse : bucketPerformance curve coarse = .ok coarseBuckets) :
    ∃ parts : List (List PeriodBucket), parts.flatten = fineBuckets ∧ List.Forall₂ Spans parts coarseBuckets := by
  have hf := bucketed_of_made (segmented_segments _ _) (bucketPerformance_eq.mp hfine).2
  have hc := bucketed_of_made (segmented_segments _ _) (bucketPerformance_eq.mp hcoarse).2
  obtain ⟨cuts, hne, hflatten, hcuts⟩ := segments_comp (List.take coarse.depth) (pointKey fine) curve
  have hkey : pointKey coarse = fun p => (pointKey fine p).take coarse.depth :=
    funext fun p => bucketKey_take h p.timestamp
  rw [hkey, hcuts, List.forall₂_map_left_iff] at hc
  rw [← hflatten] at hf
  obtain ⟨parts, hparts, hcut⟩ := forall₂_flatten_left hf
  refine ⟨parts, hparts, ?_⟩
  rw [List.forall₂_iff_get] at hc hcut ⊢
  refine ⟨hcut.1.symm.trans hc.1, fun i hi hi' => ?_⟩
  have hi'' : i < cuts.length := hcut.1 ▸ hi
  exact spans_of_bucketed h (fun hnil => hne (hnil ▸ List.get_mem cuts ⟨i, hi''⟩)) (hcut.2 i hi'' hi) (hc.2 i hi'' hi')

end Refine

/-- Two days of two months. -/
def sampleCurve : List EquityPoint :=
  [samplePoint 10 false 100, samplePoint 20 false 110, samplePoint 30 true 105, samplePoint 40 true 121]

theorem bucketPerformance_refines_sample : ∃ days months parts,
    bucketPerformance sampleCurve .daily = .ok days ∧ bucketPerformance sampleCurve .monthly = .ok months ∧
      List.flatten parts = days ∧ List.Forall₂ Spans parts months := by
  obtain ⟨days, hdays⟩ : ∃ days, bucketPerformance sampleCurve .daily = .ok days := exists_ok (by decide +kernel)
  obtain ⟨months, hmonths⟩ : ∃ months, bucketPerformance sampleCurve .monthly = .ok months :=
    exists_ok (by decide +kernel)
  obtain ⟨parts, hparts, hspans⟩ := bucketPerformance_refines (by decide) hdays hmonths
  exact ⟨days, months, parts, hdays, hmonths, hparts, hspans⟩

end AlphaAlgo.Backtest
