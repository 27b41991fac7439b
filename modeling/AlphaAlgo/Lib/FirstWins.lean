import AlphaAlgo.Lib.Pool
import AlphaAlgo.Lib.Table

/-!
# FirstWins — rows that are written once and read afterwards

A write inserts its row; when a constraint refuses the row, it reads the row that is stored under the key and answers with
that one.  The two transactions are steps of their own, between which others work on the table; each of them may fail,
the insertion also after its commit.

* `kept_run`: in every order of the steps an answer is the stored row, at most one write of a key gives it as its own, and
  what is stored stems from a write.
* `Kept.agree`: writes of one key that answer give the same row.
* `newest_one_eq_some`, `le_of_not_mem_newest`: the newest rows of a kind.
-/

namespace AlphaAlgo.FirstWins

open Runs

variable {R K : Type*} [DecidableEq K] {key : R → K}

/-! ### Writes -/

/-- How the transaction of an insertion ends; `refused` is a constraint other than the key. -/
inductive Commit where
  | answered
  | refused
  | failed
  | lost
  deriving DecidableEq, Repr

inductive Failure where
  | unavailable
  | missing
  deriving DecidableEq, Repr

/-- The stored row, and whether another write had stored it. -/
structure Answer (R : Type*) where
  row : R
  duplicate : Bool

/-- Where a write stands; `readFails` says that its read will fail. -/
inductive Write (R : Type*) where
  | inserting (row : R) (commit : Commit) (readFails : Bool)
  | reading (row : R) (readFails : Bool)
  | done (row : R) (answer : Except Failure (Answer R))

/-- The row of a write. -/
def Write.row : Write R → R
  | .inserting row _ _ | .reading row _ | .done row _ => row

/-- The answer of a write that has one. -/
def Write.answer : Write R → Option (Answer R)
  | .done _ (.ok a) => some a
  | _ => none

/-- The insertion of a write can still be committed. -/
def Write.Stores : Write R → Prop
  | .inserting _ .answered _ | .inserting _ .lost _ => True
  | _ => False

/-- The transaction of an insertion. -/
def insert (t : Table R K key) (row : R) (readFails : Bool) : Commit → Table R K key × Write R
  | .failed => (t, .done row (.error .unavailable))
  | .refused => (t, .reading row readFails)
  | .answered =>
    match t.insert? row with
    | some t' => (t', .done row (.ok ⟨row, false⟩))
    | none => (t, .reading row readFails)
  | .lost =>
    match t.insert? row with
    | some t' => (t', .done row (.error .unavailable))
    | none => (t, .done row (.error .unavailable))

/-- The next step of a write. -/
def next (t : Table R K key) : Write R → Table R K key × Write R
  | .inserting row commit readFails => insert t row readFails commit
  | .reading row true => (t, .done row (.error .unavailable))
  | .reading row false =>
    match t.get (key row) with
    | some stored => (t, .done row (.ok ⟨stored, true⟩))
    | none => (t, .done row (.error .missing))
  | .done row answer => (t, .done row answer)

/-- What a step of a write does. -/
inductive Stepped (t : Table R K key) (w : Write R) : Table R K key × Write R → Prop
  /-- The table stays, and there is no new answer. -/
  | silent {w' : Write R} (hrow : w'.row = w.row) (hanswer : w'.answer = w.answer) (hdone : ¬w'.Stores) : Stepped t w (t, w')
  /-- The row is stored; the write answers with it, or its answer is lost. -/
  | stored {t' : Table R K key} {w' : Write R} (hstores : w.Stores) (hinsert : t.insert? w.row = some t')
      (hrow : w'.row = w.row) (hnone : w.answer = none) (hanswer : ∀ a ∈ w'.answer, a = ⟨w.row, false⟩)
      (hdone : ¬w'.Stores) : Stepped t w (t', w')
  /-- The write answers with the row that was stored before. -/
  | read {w' : Write R} {r : R} (hget : t.get (key w.row) = some r) (hrow : w'.row = w.row)
      (hanswer : w'.answer = some ⟨r, true⟩) (hdone : ¬w'.Stores) : Stepped t w (t, w')

theorem stepped (t : Table R K key) (w : Write R) : Stepped t w (next t w) := by
  match w with
  | .inserting row .failed _ => exact .silent rfl rfl id
  | .inserting row .refused _ => exact .silent rfl rfl id
  | .inserting row .answered readFails =>
    cases h : t.insert? row with
    | none =>
      simp only [next, insert, h]
      exact .silent rfl rfl id
    | some t' =>
      simp only [next, insert, h]
      exact .stored trivial h rfl rfl (fun a ha => (Option.some.inj ha).symm) id
  | .inserting row .lost readFails =>
    cases h : t.insert? row with
    | none =>
      simp only [next, insert, h]
      exact .silent rfl rfl id
    | some t' =>
      simp only [next, insert, h]
      exact .stored trivial h rfl rfl (fun a ha => by cases ha) id
  | .reading row true => exact .silent rfl rfl id
  | .reading row false =>
    cases h : t.get (key row) with
    | none =>
      simp only [next, h]
      exact .silent rfl rfl id
    | some r =>
      simp only [next, h]
      exact .read h rfl rfl id
  | .done row answer => exact .silent rfl rfl id

/-! ### What holds in every state -/

/-- An answer is the stored row; the own row when it is not a duplicate. -/
def Backed (t : Table R K key) (w : Write R) : Prop :=
  ∀ a ∈ w.answer, t.get (key w.row) = some a.row ∧ (a.duplicate = false → a.row = w.row)

/-- The write gave its row as its own. -/
def Fresh (w : Write R) : Prop := ∃ a ∈ w.answer, a.duplicate = false

/-- The writes over a table that held `initial`. -/
structure Kept (initial : List R) (p : Pool (Table R K key) (Write R)) : Prop where
  backed : ∀ w ∈ p.calls, Backed p.shared w
  fresh : ∀ (i j : ℕ) (w w' : Write R), p.calls[i]? = some w → p.calls[j]? = some w' → Fresh w → Fresh w' →
    key w.row = key w'.row → i = j
  sourced : ∀ r ∈ p.shared.rows, r ∈ initial ∨ ∃ w ∈ p.calls, w.row = r

theorem Backed.insert {t t' : Table R K key} {w : Write R} {row : R} (h : Backed t w) (ht : t.insert? row = some t') :
    Backed t' w := by
  intro a ha
  obtain ⟨hget, hown⟩ := h a ha
  refine ⟨?_, hown⟩
  rw [Table.get_of_insert ht]
  by_cases hk : key row = key w.row
  · rw [← hk, (Table.insert?_eq_some ht).1] at hget
    cases hget
  · rw [if_neg hk, hget]

theorem Kept.step {initial : List R} {p : Pool (Table R K key) (Write R)} (h : Kept initial p) (i : ℕ) :
    Kept initial (p.step next i) := by
  cases hi : p.calls[i]? with
  | none => rwa [Pool.step_of_none hi]
  | some w =>
    have hmem : w ∈ p.calls := List.mem_of_getElem? hi
    rw [Pool.step_of_some hi]
    have hstep := stepped p.shared w
    generalize next p.shared w = after at hstep ⊢
    have hsource (w' : Write R) (hrow : w'.row = w.row) {r : R} (hr : r ∈ p.shared.rows) :
        r ∈ initial ∨ ∃ v ∈ p.calls.set i w', v.row = r := by
      rcases h.sourced r hr with hr | ⟨v, hv, rfl⟩
      · exact .inl hr
      · obtain ⟨j, hj⟩ := List.mem_iff_getElem?.mp hv
        obtain ⟨d, hd, hsame⟩ := Pool.exists_set (R := fun v d : Write R => d.row = v.row) (fun _ => rfl) hi hrow j v hj
        exact .inr ⟨d, List.mem_of_getElem? hd, hsame⟩
    cases hstep with
    | @silent w' hrow hanswer _ =>
      refine ⟨fun v hv => ?_, fun j k v v' hj hk hv hv' hkey => ?_, fun r hr => hsource w' hrow hr⟩
      · rcases List.mem_or_eq_of_mem_set hv with hv | rfl
        · exact h.backed v hv
        · intro a ha
          rw [hrow]
          exact h.backed w hmem a (hanswer ▸ ha)
      · -- the step changed neither the row nor the answer
        have hold (n : ℕ) (d : Write R) (hd : (p.calls.set i w')[n]? = some d) (hfresh : Fresh d) :
            ∃ d', p.calls[n]? = some d' ∧ Fresh d' ∧ d'.row = d.row := by
          rcases Pool.get_set_cases hd with ⟨rfl, rfl⟩ | ⟨-, hold⟩
          · obtain ⟨a, ha, hdup⟩ := hfresh
            exact ⟨w, hi, ⟨a, hanswer ▸ ha, hdup⟩, hrow.symm⟩
          · exact ⟨d, hold, hfresh, rfl⟩
        obtain ⟨d, hd, hfresh, hrowd⟩ := hold j v hj hv
        obtain ⟨d', hd', hfresh', hrowd'⟩ := hold k v' hk hv'
        exact h.fresh j k d d' hd hd' hfresh hfresh' (by rw [hrowd, hrowd', hkey])
    | @stored t' w' _ hinsert hrow hnone hanswer _ =>
      obtain ⟨hget, hrows⟩ := Table.insert?_eq_some hinsert
      refine ⟨fun v hv => ?_, fun j k v v' hj hk hv hv' hkey => ?_, fun r hr => ?_⟩
      · rcases List.mem_or_eq_of_mem_set hv with hv | rfl
        · exact (h.backed v hv).insert hinsert
        · intro a ha
          cases hanswer a ha
          refine ⟨?_, fun _ => hrow.symm⟩
          rw [hrow, Table.get_of_insert hinsert, if_pos rfl]
      · -- before the step no fresh answer had the key
        have hother (n : ℕ) (d : Write R) (hd : p.calls[n]? = some d) (hfresh : Fresh d) : key d.row ≠ key w.row := by
          intro hsame
          obtain ⟨a, ha, -⟩ := hfresh
          have hstored := (h.backed d (List.mem_of_getElem? hd) a ha).1
          rw [hsame, hget] at hstored
          cases hstored
        rcases Pool.get_set_cases hj with ⟨rfl, rfl⟩ | ⟨-, hold⟩
        · rcases Pool.get_set_cases hk with ⟨rfl, -⟩ | ⟨-, hold'⟩
          · rfl
          · exact absurd (by rw [← hkey, hrow]) (hother k v' hold' hv')
        · rcases Pool.get_set_cases hk with ⟨rfl, rfl⟩ | ⟨-, hold'⟩
          · exact absurd (by rw [hkey, hrow]) (hother j v hold hv)
          · exact h.fresh j k v v' hold hold' hv hv' hkey
      · rw [hrows] at hr
        rcases List.mem_append.mp hr with hr | hr
        · exact hsource w' hrow hr
        · rw [List.mem_singleton.mp hr]
          exact .inr ⟨w', List.mem_of_getElem? (Pool.get_set_self hi), hrow⟩
    | @read w' r hget hrow hanswer _ =>
      refine ⟨fun v hv => ?_, fun j k v v' hj hk hv hv' hkey => ?_, fun r hr => hsource w' hrow hr⟩
      · rcases List.mem_or_eq_of_mem_set hv with hv | rfl
        · exact h.backed v hv
        · intro a ha
          rw [hanswer, Option.mem_some] at ha
          rw [hrow, ← ha]
          exact ⟨hget, fun hdup => by cases hdup⟩
      · have hstale : ¬Fresh w' := by
          rintro ⟨a, ha, hdup⟩
          rw [hanswer, Option.mem_some] at ha
          rw [← ha] at hdup
          cases hdup
        rcases Pool.get_set_cases hj with ⟨-, rfl⟩ | ⟨-, hj⟩
        · exact absurd hv hstale
        · rcases Pool.get_set_cases hk with ⟨-, rfl⟩ | ⟨-, hk⟩
          · exact absurd hv' hstale
          · exact h.fresh j k v v' hj hk hv hv' hkey

/-- Calls that have not begun keep the invariant. -/
theorem kept_start {p : Pool (Table R K key) (Write R)} (h : ∀ w ∈ p.calls, w.answer = none) :
    Kept p.shared.rows p where
  backed := fun w hw a ha => by rw [h w hw] at ha; cases ha
  fresh := by
    rintro i j w w' hi - ⟨a, ha, -⟩
    rw [h w (List.mem_of_getElem? hi)] at ha
    cases ha
  sourced := fun _ hr => .inl hr

theorem kept_run {p : Pool (Table R K key) (Write R)} (h : ∀ w ∈ p.calls, w.answer = none) (l : List ℕ) :
    Kept p.shared.rows (run (Pool.step next) p l) :=
  run_invariant (Pool.step next) (Kept p.shared.rows) (fun _ i hk => hk.step i) (kept_start h) l

theorem row_of_stepped {t : Table R K key} {w : Write R} {after : Table R K key × Write R} (h : Stepped t w after) :
    after.2.row = w.row := by
  cases h with
  | silent hrow => exact hrow
  | stored _ _ hrow => exact hrow
  | read _ hrow => exact hrow

/-- The writes keep their rows. -/
theorem map_row_run (p : Pool (Table R K key) (Write R)) (l : List ℕ) :
    (run (Pool.step next) p l).calls.map Write.row = p.calls.map Write.row := by
  refine run_invariant (Pool.step next) (fun q => q.calls.map Write.row = p.calls.map Write.row) (fun q i hq => ?_) rfl l
  cases hi : q.calls[i]? with
  | none => rwa [Pool.step_of_none hi]
  | some w =>
    rw [Pool.step_of_some hi, ← hq]
    have hlt := (List.getElem?_eq_some_iff.mp hi).1
    show (q.calls.set i (next q.shared w).2).map Write.row = q.calls.map Write.row
    rw [List.map_set, row_of_stepped (stepped q.shared w)]
    exact Pool.set_of_get (by rw [List.getElem?_map, hi, Option.map_some])

/-- What holds of the rows, and of those that are still inserted, holds of the rows after every run. -/
theorem rows_run {P : R → Prop} {p : Pool (Table R K key) (Write R)} (hrows : ∀ r ∈ p.shared.rows, P r)
    (hcalls : ∀ w ∈ p.calls, w.Stores → P w.row) (l : List ℕ) : ∀ r ∈ (run (Pool.step next) p l).shared.rows, P r := by
  refine (run_invariant (Pool.step next)
    (fun q => (∀ r ∈ q.shared.rows, P r) ∧ ∀ w ∈ q.calls, w.Stores → P w.row) ?_ ⟨hrows, hcalls⟩ l).1
  rintro q i ⟨hrows, hcalls⟩
  cases hi : q.calls[i]? with
  | none => rw [Pool.step_of_none hi]; exact ⟨hrows, hcalls⟩
  | some w =>
    rw [Pool.step_of_some hi]
    have hstep := stepped q.shared w
    generalize next q.shared w = after at hstep ⊢
    have hlater (w' : Write R) (hdone : ¬w'.Stores) : ∀ v ∈ q.calls.set i w', v.Stores → P v.row := by
      intro v hv hstores
      rcases List.mem_or_eq_of_mem_set hv with hv | rfl
      · exact hcalls v hv hstores
      · exact absurd hstores hdone
    cases hstep with
    | silent _ _ hdone => exact ⟨hrows, hlater _ hdone⟩
    | read _ _ _ hdone => exact ⟨hrows, hlater _ hdone⟩
    | stored hstores hinsert _ _ _ hdone =>
      refine ⟨?_, hlater _ hdone⟩
      intro r hr
      simp only [(Table.insert?_eq_some hinsert).2, List.mem_append, List.mem_singleton] at hr
      rcases hr with hr | rfl
      · exact hrows r hr
      · exact hcalls w (List.mem_of_getElem? hi) hstores

namespace Kept

variable {initial : List R} {p : Pool (Table R K key) (Write R)} {w w' : Write R} {a a' : Answer R}

/-- **The answers for one key are one row**, which is the stored one. -/
theorem agree (h : Kept initial p) (hw : w ∈ p.calls) (hw' : w' ∈ p.calls) (ha : w.answer = some a)
    (ha' : w'.answer = some a') (hkey : key w.row = key w'.row) :
    a.row = a'.row ∧ p.shared.get (key w.row) = some a.row := by
  obtain ⟨hget, -⟩ := h.backed w hw a ha
  obtain ⟨hget', -⟩ := h.backed w' hw' a' ha'
  rw [hkey, hget'] at hget
  exact ⟨(Option.some.inj hget).symm, by rw [hkey, hget', Option.some.inj hget]⟩

end Kept

/-! ### Calls -/

section Calls

variable {C : Type*} (begins : C → Option (Write R)) (t : Table R K key) (calls : List C) (l : List ℕ)

/-- The writes of the calls that come to one, after some of their steps. -/
def callRun : Pool (Table R K key) (Write R) := run (Pool.step next) ⟨t, calls.filterMap begins⟩ l

variable {begins t calls l}

theorem kept_callRun (h : ∀ (c : C) (w : Write R), begins c = some w → w.answer = none) :
    Kept t.rows (callRun begins t calls l) := by
  apply kept_run (p := ⟨t, calls.filterMap begins⟩)
  intro w hw
  obtain ⟨c, -, hbegins⟩ := List.mem_filterMap.mp hw
  exact h c w hbegins

theorem rows_callRun {P : R → Prop} (hrows : ∀ r ∈ t.rows, P r)
    (h : ∀ (c : C) (w : Write R), c ∈ calls → begins c = some w → w.Stores → P w.row) :
    ∀ r ∈ (callRun begins t calls l).shared.rows, P r := by
  apply rows_run (p := ⟨t, calls.filterMap begins⟩) hrows
  intro w hw
  obtain ⟨c, hc, hbegins⟩ := List.mem_filterMap.mp hw
  exact h c w hc hbegins

/-- A write has the row of its call. -/
theorem call_of_mem {w : Write R} (hw : w ∈ (callRun begins t calls l).calls) :
    ∃ c ∈ calls, ∃ w', begins c = some w' ∧ w.row = w'.row := by
  have hrow : w.row ∈ (calls.filterMap begins).map Write.row := by
    rw [← map_row_run ⟨t, calls.filterMap begins⟩ l]
    exact List.mem_map_of_mem hw
  obtain ⟨w', hw', hsame⟩ := List.mem_map.mp hrow
  obtain ⟨c, hc, hbegins⟩ := List.mem_filterMap.mp hw'
  exact ⟨c, hc, w', hbegins, hsame.symm⟩

end Calls

/-! ### The newest rows -/

/-- The rows of a kind, with the newest first. -/
def byTime (time : R → ℤ) (p : R → Bool) (rows : List R) : List R :=
  (rows.filter p).mergeSort fun a b => decide (time b ≤ time a)

/-- `ORDER BY time DESC LIMIT n` over the rows of a kind. -/
def newest (time : R → ℤ) (p : R → Bool) (n : ℕ) (rows : List R) : List R := (byTime time p rows).take n

section Newest

variable (time : R → ℤ) (p : R → Bool) (n : ℕ) (rows : List R)

theorem mem_byTime {r : R} : r ∈ byTime time p rows ↔ r ∈ rows ∧ p r = true := by
  rw [byTime, (List.mergeSort_perm _ _).mem_iff, List.mem_filter]

theorem pairwise_byTime : (byTime time p rows).Pairwise fun a b => time b ≤ time a := by
  have hsorted : (byTime time p rows).Pairwise fun a b => decide (time b ≤ time a) = true := by
    apply List.pairwise_mergeSort
    · intro a b c hab hbc
      simp only [decide_eq_true_eq] at *
      omega
    · intro a b
      simp only [Bool.or_eq_true, decide_eq_true_eq]
      omega
  exact hsorted.imp fun h => of_decide_eq_true h

theorem mem_of_mem_newest {r : R} (h : r ∈ newest time p n rows) : r ∈ rows ∧ p r = true :=
  (mem_byTime time p rows).mp (List.mem_of_mem_take h)

/-- The newest row is listed first. -/
theorem pairwise_newest : (newest time p n rows).Pairwise fun a b => time b ≤ time a := (pairwise_byTime time p rows).take

/-- **No row of the kind that is left out is newer than one that is listed.** -/
theorem le_of_not_mem_newest {r : R} (hr : r ∈ rows) (hp : p r = true) (hnot : r ∉ newest time p n rows) :
    ∀ s ∈ newest time p n rows, time r ≤ time s := by
  intro s hs
  have hsorted := pairwise_byTime time p rows
  have hmem := (mem_byTime time p rows).mpr ⟨hr, hp⟩
  rw [← List.take_append_drop n (byTime time p rows)] at hsorted hmem
  rcases List.mem_append.mp hmem with hin | hout
  · exact absurd hin hnot
  · exact (List.pairwise_append.mp hsorted).2.2 s hs r hout

/-- A row of the kind is only left out of a full listing. -/
theorem length_newest_of_not_mem {r : R} (hr : r ∈ rows) (hp : p r = true) (hnot : r ∉ newest time p n rows) :
    (newest time p n rows).length = n := by
  have hmem := (mem_byTime time p rows).mpr ⟨hr, hp⟩
  have hlt : n < (byTime time p rows).length := by
    by_contra hle
    rw [newest, List.take_of_length_le (not_lt.mp hle)] at hnot
    exact hnot hmem
  rw [newest, List.length_take, min_eq_left hlt.le]

theorem length_newest : (newest time p n rows).length = min n (rows.countP p) := by
  rw [newest, byTime, List.length_take, List.length_mergeSort, List.countP_eq_length_filter]

/-- There is no newest row only when the kind has no row. -/
theorem newest_one_eq_none (h : (newest time p 1 rows).head? = none) : ∀ r ∈ rows, p r = false := by
  have hlength := length_newest time p 1 rows
  rw [List.head?_eq_none_iff.mp h, List.length_nil] at hlength
  intro r hr
  by_contra hp
  have hpos : 0 < rows.countP p := List.countP_pos_iff.mpr ⟨r, hr, by simpa using hp⟩
  omega

/-- The newest row of a kind is not older than another of the kind. -/
theorem newest_one_eq_some {r : R} (h : (newest time p 1 rows).head? = some r) :
    (r ∈ rows ∧ p r = true) ∧ ∀ s ∈ rows, p s = true → time s ≤ time r := by
  have hmem : r ∈ newest time p 1 rows := List.mem_of_mem_head? h
  refine ⟨mem_of_mem_newest time p 1 rows hmem, fun s hs hps => ?_⟩
  by_cases hin : s ∈ newest time p 1 rows
  · have hlength := length_newest time p 1 rows
    obtain ⟨rest, hrest⟩ : ∃ rest, newest time p 1 rows = r :: rest := List.head?_eq_some_iff.mp h
    rw [hrest, List.length_cons] at hlength
    have hnil : rest = [] := List.length_eq_zero_iff.mp (by omega)
    rw [hrest, hnil, List.mem_singleton] at hin
    rw [hin]
  · exact le_of_not_mem_newest time p 1 rows hs hps hin r hmem

end Newest

end AlphaAlgo.FirstWins
