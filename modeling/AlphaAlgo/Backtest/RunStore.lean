import AlphaAlgo.Base.Calendar
import AlphaAlgo.Backtest.Records
import AlphaAlgo.Lib.JsonRead
import AlphaAlgo.Risk.Context

/-!
# RunStore — the records of runs and their JSON

A record is written by `toJson` and read by `fromJson`, which checks every field of what `json.loads` returns.

* `loads_toJson`, `fromJson_toJson`: what is written is read as the fields of the record.
* `roundTrips_iff`: the records that are read back as they were.
* `onlyPersistence_iff`: the texts for which nothing but a `PersistenceError` is raised.
-/

namespace AlphaAlgo.Persistence

open Loop JsonRead

/-! ### Records -/

/-- What the package raises, the `ValueError` and the `RecursionError` of `json.loads`, and what `astimezone` raises for
an instant out of range in UTC. -/
inductive StoreError where
  | persistence (text : String)
  | valueError
  | recursionError
  | overflowError
deriving DecidableEq

inductive BacktestStatus where
  | pending
  | completed
  | failed
deriving DecidableEq

def BacktestStatus.value : BacktestStatus → String
  | .pending => "PENDING"
  | .completed => "COMPLETED"
  | .failed => "FAILED"

/-- `BacktestStatus(value)`; the text is that of the `ValueError`. -/
def BacktestStatus.of (value : String) : Except String BacktestStatus :=
  match [BacktestStatus.pending, .completed, .failed].find? fun s => s.value = value with
  | some s => .ok s
  | none => .error (Risk.reprText value ++ " is not a valid BacktestStatus")

/-- A part of a pair: the constructor does not check that it is a string.  Of anything else, `str` is its text. -/
inductive Entry where
  | str (s : String)
  | other (text : String)
deriving DecidableEq

/-- `str(entry)`. -/
def Entry.text : Entry → String
  | .str s => s
  | .other text => text

def strPair (p : String × String) : Entry × Entry := (.str p.1, .str p.2)

theorem strPair_inj : Function.Injective strPair := by
  rintro ⟨k, v⟩ ⟨k', v'⟩ h
  obtain ⟨hk, hv⟩ := Prod.mk.inj h
  exact Prod.ext (Entry.str.inj hk) (Entry.str.inj hv)

/-- `sorted` of pairs of strings. -/
def sortPairs (pairs : List (String × String)) : List (String × String) :=
  pairs.mergeSort fun p q => toLex p ≤ toLex q

/-- Pairs as the constructor leaves them; how it sorts other parts than strings is not said. -/
def Sorted (pairs : List (Entry × Entry)) : Prop :=
  ∀ texts : List (String × String), pairs = texts.map strPair → texts.Pairwise fun p q => toLex p ≤ toLex q

theorem sorted_sortPairs (pairs : List (String × String)) : Sorted ((sortPairs pairs).map strPair) := by
  intro texts h
  rw [← List.map_injective_iff.mpr strPair_inj h]
  exact List.pairwise_mergeSort' _ pairs

/-- The checks of `__post_init__`. -/
def checkRecord (identitySha256 : String) (createdAt : DateTime) : Except StoreError Unit := do
  raiseIf (identitySha256.length ≠ 64) (.persistence "identity_sha256 must be a 64-char hex string")
  raiseIf (createdAt.aware = false) (.persistence "created_at must be a timezone-aware datetime")

/-- `foldedOffset` is the offset from UTC of `created_at` with the other `fold`: the offset of `created_at` itself, unless
its zone changes the offset there. -/
structure BacktestRecord where
  runId : UUID
  identitySha256 : String
  status : BacktestStatus
  createdAt : DateTime
  foldedOffset : Option ℤ
  reportReference : Option String
  configuration : List (Entry × Entry)
  metrics : List (Entry × Entry)
  accepted : checkRecord identitySha256 createdAt = .ok ()
  configuration_sorted : Sorted configuration
  metrics_sorted : Sorted metrics

namespace BacktestRecord

/-- The constructor, for pairs of strings and a time with a fixed offset, as `fromisoformat` reads it. -/
def build (runId : UUID) (identitySha256 : String) (status : BacktestStatus) (createdAt : DateTime)
    (reportReference : Option String) (configuration metrics : List (String × String)) :
    Except StoreError BacktestRecord :=
  accept (checkRecord identitySha256 createdAt) fun h =>
    { runId := runId
      identitySha256 := identitySha256
      status := status
      createdAt := createdAt
      foldedOffset := createdAt.utcoffset
      reportReference := reportReference
      configuration := (sortPairs configuration).map strPair
      metrics := (sortPairs metrics).map strPair
      accepted := h
      configuration_sorted := sorted_sortPairs configuration
      metrics_sorted := sorted_sortPairs metrics }

/-! ### What is written -/

/-- `_pairs_to_sorted_list`. -/
def pairsToSortedList (pairs : List (Entry × Entry)) : Json :=
  .arr ((sortPairs (pairs.map fun p => (p.1.text, p.2.text))).map fun p => .arr [.str p.1, .str p.2])

/-- The dictionary of `to_dict`, with the text of `created_at`. -/
def dict (r : BacktestRecord) (createdAt : String) : Json :=
  .obj [("run_id", .str r.runId.str), ("identity_sha256", .str r.identitySha256), ("status", .str r.status.value),
    ("created_at", .str createdAt), ("report_reference", .ofOption r.reportReference),
    ("configuration", pairsToSortedList r.configuration), ("metrics", pairsToSortedList r.metrics)]

/-- `to_dict`. -/
def toDict (r : BacktestRecord) : Except StoreError Json :=
  match r.createdAt.utcText with
  | none => .error .overflowError
  | some createdAt => .ok (r.dict createdAt)

/-- `to_json`. -/
def toJson (r : BacktestRecord) : Except StoreError String := do
  return (← r.toDict).sortKeys.dumps .default

end BacktestRecord

/-! ### What is read -/

/-- The parsers of the standard library, with the texts of their `ValueError`; the text of a `JSONDecodeError`, and `str`
of a value that is not a string. -/
structure Library where
  uuid : String → Except String UUID
  fromisoformat : String → Except String DateTime
  decodeText : String → String
  str : JsonValue → String

abbrev Data := List (String × JsonValue)

/-- `data.get(key)`; of fields with one key the last counts. -/
def get (data : Data) (key : String) : Option JsonValue := data.reverse.lookup key

/-- `_required_str`. -/
def requiredStr (data : Data) (key : String) : Except String String :=
  match get data key with
  | some (.str s) => if s = "" then .error ("corrupted metadata: missing " ++ Risk.reprText key) else .ok s
  | _ => .error ("corrupted metadata: missing " ++ Risk.reprText key)

/-- `_optional_str`. -/
def optionalStr (data : Data) (key : String) : Except String (Option String) :=
  match get data key with
  | none => .ok none
  | some .null => .ok none
  | some (.str s) => .ok (some s)
  | some _ => .error ("corrupted metadata: " ++ Risk.reprText key ++ " must be a string or null")

section Read

variable (lib : Library)

/-- `str(value)`. -/
def Library.text : JsonValue → String
  | .str s => s
  | v => lib.str v

/-- An entry of `_pairs`. -/
def readPair (key : String) : JsonValue → Except String (String × String)
  | .arr [k, v] => .ok (lib.text k, lib.text v)
  | _ => .error ("corrupted metadata: " ++ Risk.reprText key ++ " entries must be [key, value]")

/-- `_pairs`. -/
def readPairs (data : Data) (key : String) : Except String (List (String × String)) :=
  match get data key with
  | none => .ok []
  | some (.arr items) => items.mapM (readPair lib key)
  | some _ => .error ("corrupted metadata: " ++ Risk.reprText key ++ " must be a list")

/-- The fields that are read in the `try` block. -/
def readHead (data : Data) : Except String (UUID × BacktestStatus × DateTime) := do
  let runId ← lib.uuid (← requiredStr data "run_id")
  let status ← BacktestStatus.of (← requiredStr data "status")
  let createdAt ← lib.fromisoformat (← requiredStr data "created_at")
  return (runId, status, createdAt)

/-- The fields of an object, and the constructor. -/
def readRecord (data : Data) : Except StoreError BacktestRecord := do
  let (runId, status, createdAt) ←
    (readHead lib data).mapError fun text => .persistence ("corrupted metadata: " ++ text)
  let identitySha256 ← (requiredStr data "identity_sha256").mapError .persistence
  let reportReference ← (optionalStr data "report_reference").mapError .persistence
  let configuration ← (readPairs lib data "configuration").mapError .persistence
  let metrics ← (readPairs lib data "metrics").mapError .persistence
  BacktestRecord.build runId identitySha256 status createdAt reportReference configuration metrics

/-- What is made of the value of `json.loads`: of what it raises, only a `JSONDecodeError` is caught. -/
def fromLoads (text : String) : Except LoadsError JsonValue → Except StoreError BacktestRecord
  | .error .decode => .error (.persistence ("corrupted metadata: invalid JSON (" ++ lib.decodeText text ++ ")"))
  | .error .digits => .error .valueError
  | .error .recursion => .error .recursionError
  | .ok (.obj data) => readRecord lib data
  | .ok _ => .error (.persistence "corrupted metadata: top-level JSON must be an object")

/-- `from_json`. -/
def fromJson (limit : ℕ) (text : String) : Except StoreError BacktestRecord := do
  raiseIf (text = "") (.persistence "text must be a non-empty JSON string")
  fromLoads lib text (loads limit text)

end Read

theorem sortItems_eq : ∀ {l : List Json}, (∀ j ∈ l, j.sortKeys = j) → Json.sortItems l = l
  | [], _ => rfl
  | j :: l, h => by
    rw [Json.sortItems, h j List.mem_cons_self, sortItems_eq fun i hi => h i (List.mem_cons_of_mem j hi)]

/-- The texts of pairs, sorted. -/
def sortedTexts (pairs : List (Entry × Entry)) : List (String × String) :=
  sortPairs (pairs.map fun p => (p.1.text, p.2.text))

/-! ### What is written is read -/

namespace BacktestRecord

theorem sortKeys_pairs (pairs : List (Entry × Entry)) : (pairsToSortedList pairs).sortKeys = pairsToSortedList pairs := by
  rw [pairsToSortedList, Json.sortKeys]
  refine congrArg Json.arr (sortItems_eq fun j hj => ?_)
  obtain ⟨p, -, rfl⟩ := List.mem_map.mp hj
  rfl

theorem sortKeys_ofOption (o : Option String) : (Json.ofOption o).sortKeys = .ofOption o := by
  cases o <;> rfl

/-- The fields in the order of their keys. -/
theorem sortKeys_dict (a b c d e f g : Json) : (Json.obj [("run_id", a), ("identity_sha256", b), ("status", c),
    ("created_at", d), ("report_reference", e), ("configuration", f), ("metrics", g)]).sortKeys =
      .obj [("configuration", f.sortKeys), ("created_at", d.sortKeys), ("identity_sha256", b.sortKeys),
        ("metrics", g.sortKeys), ("report_reference", e.sortKeys), ("run_id", a.sortKeys), ("status", c.sortKeys)] := by
  simp only [Json.sortKeys, Json.sortFields, List.insertionSort]
  simp

/-- The pairs that are read from what is written. -/
def pairsValue (pairs : List (String × String)) : JsonValue := .arr (pairs.map fun p => .arr [.str p.1, .str p.2])

/-- The fields that are read from what is written. -/
def data (r : BacktestRecord) (createdAt : String) : Data :=
  [("configuration", pairsValue (sortedTexts r.configuration)), ("created_at", .str createdAt),
    ("identity_sha256", .str r.identitySha256), ("metrics", pairsValue (sortedTexts r.metrics)),
    ("report_reference", valueOf (.ofOption r.reportReference)), ("run_id", .str r.runId.str),
    ("status", .str r.status.value)]

theorem valueOf_pairs (pairs : List (Entry × Entry)) :
    valueOf (pairsToSortedList pairs) = pairsValue (sortedTexts pairs) := by
  rw [pairsToSortedList, valueOf, valuesOf_eq, List.map_map]
  rfl

theorem fits_pairs (pairs : List (Entry × Entry)) : Fits 2 (pairsToSortedList pairs) := by
  refine fitsItems_of_forall fun j hj => ?_
  obtain ⟨p, -, rfl⟩ := List.mem_map.mp hj
  exact ⟨trivial, trivial, trivial⟩

theorem fits_ofOption (o : Option String) : Fits 2 (.ofOption o) := by
  cases o <;> trivial

/-- **What is written is read** as the fields of the record. -/
theorem loads_toJson {r : BacktestRecord} {createdAt : String} (h : r.createdAt.utcText = some createdAt) {limit : ℕ}
    (hlimit : 3 ≤ limit) : ∃ text, r.toJson = .ok text ∧ text ≠ "" ∧ loads limit text = .ok (.obj (r.data createdAt)) := by
  have hdict : r.toDict = .ok (r.dict createdAt) := by
    rw [toDict, h]
  have hsorted := sortKeys_dict (.str r.runId.str) (.str r.identitySha256) (.str r.status.value) (.str createdAt)
    (.ofOption r.reportReference) (pairsToSortedList r.configuration) (pairsToSortedList r.metrics)
  rw [sortKeys_pairs, sortKeys_pairs, sortKeys_ofOption] at hsorted
  refine ⟨(r.dict createdAt).sortKeys.dumps .default, ?_, ?_, ?_⟩
  · rw [toJson, hdict]
    rfl
  · intro hempty
    have hlist := congrArg String.toList hempty
    rw [dict, hsorted] at hlist
    simp [Json.dumps, Json.chars] at hlist
  · rw [dict, hsorted, loads_dumps (n := 3) spaced_default ?_ hlimit]
    · simp only [valueOf, fieldsOf, valueOf_pairs, data, Json.sortKeys]
    · exact ⟨fits_pairs _, trivial, trivial, fits_pairs _, fits_ofOption _, trivial, trivial, trivial⟩

/-! ### What is read of a record -/

/-- The parsers read what `str` and `isoformat` write. -/
structure ReadsBack (lib : Library) (r : BacktestRecord) : Prop where
  uuid : lib.uuid r.runId.str = .ok r.runId
  fromisoformat : ∀ u, r.createdAt.add? (-(r.createdAt.utcoffset.getD 0)) = some u →
    lib.fromisoformat u.isoMicros = .ok { u with utcoffset := some 0 }

/-- The offset of `created_at` does not depend on its `fold`. -/
def Unfolded (r : BacktestRecord) : Prop := r.foldedOffset = r.createdAt.utcoffset

/-- `self == other` of a record and one with another `tzinfo`: a time whose offset depends on the `fold` is equal to no time
of another zone. -/
structure Same (r r' : BacktestRecord) : Prop where
  runId : r.runId = r'.runId
  identitySha256 : r.identitySha256 = r'.identitySha256
  status : r.status = r'.status
  createdAt : r.createdAt.instant = r'.createdAt.instant
  unfolded : r.Unfolded ∧ r'.Unfolded
  reportReference : r.reportReference = r'.reportReference
  configuration : r.configuration = r'.configuration
  metrics : r.metrics = r'.metrics

theorem requiredStr_eq_ok {data : Data} {key s : String} (h : get data key = some (.str s)) (hs : s ≠ "") :
    requiredStr data key = .ok s := by
  rw [requiredStr, h]
  exact if_neg hs

theorem readPairs_eq_ok {lib : Library} {data : Data} {key : String} {pairs : List (String × String)}
    (h : get data key = some (pairsValue pairs)) : readPairs lib data key = .ok pairs := by
  rw [readPairs, h]
  refine mapM_eq_ok_iff.mpr ?_
  rw [List.forall₂_map_left_iff]
  exact List.forall₂_same.mpr fun p _ => rfl

theorem status_of_value (s : BacktestStatus) : BacktestStatus.of s.value = .ok s := by
  cases s <;> rfl

theorem uuid_str_ne_empty (u : UUID) : u.str ≠ "" := by
  intro h
  have hlist := congrArg String.toList h
  simp [UUID.str] at hlist

theorem status_value_ne_empty (s : BacktestStatus) : s.value ≠ "" := by
  cases s <;> decide

theorem sortPairs_of_sorted {pairs : List (String × String)} (h : pairs.Pairwise fun p q => toLex p ≤ toLex q) :
    sortPairs pairs = pairs := List.mergeSort_of_pairwise (h.imp fun hpq => decide_eq_true hpq)

theorem sortPairs_sortPairs (pairs : List (String × String)) : sortPairs (sortPairs pairs) = sortPairs pairs :=
  sortPairs_of_sorted (List.pairwise_mergeSort' _ pairs)

theorem build_eq_ok {runId : UUID} {identitySha256 : String} {status : BacktestStatus} {createdAt : DateTime}
    {reportReference : Option String} {configuration metrics : List (String × String)}
    (h : checkRecord identitySha256 createdAt = .ok ()) :
    ∃ r, build runId identitySha256 status createdAt reportReference configuration metrics = .ok r ∧ r.runId = runId ∧
      r.identitySha256 = identitySha256 ∧ r.status = status ∧ r.createdAt = createdAt ∧
        r.Unfolded ∧ r.reportReference = reportReference ∧ r.configuration = (sortPairs configuration).map strPair ∧
          r.metrics = (sortPairs metrics).map strPair :=
  ⟨_, accept_of_ok _ h, rfl, rfl, rfl, rfl, rfl, rfl, rfl, rfl⟩

/-- **What is read of a record**: the pairs are strings now. -/
theorem fromJson_toJson {lib : Library} {r : BacktestRecord} (hback : ReadsBack lib r) {createdAt : String}
    (h : r.createdAt.utcText = some createdAt) {limit : ℕ} (hlimit : 3 ≤ limit) : ∃ text r',
    r.toJson = .ok text ∧ fromJson lib limit text = .ok r' ∧ r'.configuration = (sortedTexts r.configuration).map strPair ∧
      r'.metrics = (sortedTexts r.metrics).map strPair ∧ r.runId = r'.runId ∧ r.identitySha256 = r'.identitySha256 ∧
        r.status = r'.status ∧ r.createdAt.instant = r'.createdAt.instant ∧ r'.Unfolded ∧
          r.reportReference = r'.reportReference := by
  obtain ⟨text, htext, hne, hloads⟩ := loads_toJson h hlimit
  obtain ⟨u, hu, hiso⟩ := Option.map_eq_some_iff.mp h
  have hlength : r.identitySha256.length = 64 := by
    obtain ⟨u, hcheck, -⟩ := bind_eq_ok.mp r.accepted
    exact not_not.mp (raiseIf_eq_ok.mp hcheck)
  have hne' : r.identitySha256 ≠ "" := by
    intro hempty
    rw [hempty] at hlength
    cases hlength
  have hhead : readHead lib (r.data createdAt) = .ok (r.runId, r.status, { u with utcoffset := some 0 }) := by
    rw [readHead, requiredStr_eq_ok (s := r.runId.str) rfl (uuid_str_ne_empty _)]
    rw [requiredStr_eq_ok (s := r.status.value) rfl (status_value_ne_empty _)]
    rw [requiredStr_eq_ok (s := createdAt) rfl (hiso ▸ DateTime.isoMicros_ne_empty u)]
    show (lib.uuid r.runId.str >>= fun _ => BacktestStatus.of r.status.value >>= _) = _
    rw [hback.uuid, status_of_value, ← hiso]
    show (lib.fromisoformat u.isoMicros >>= _) = _
    rw [hback.fromisoformat u hu]
    rfl
  have hoptional : optionalStr (r.data createdAt) "report_reference" = .ok r.reportReference := by
    have hget : get (r.data createdAt) "report_reference" = some (valueOf (.ofOption r.reportReference)) := rfl
    rw [optionalStr, hget]
    cases r.reportReference <;> rfl
  have hconfiguration : readPairs lib (r.data createdAt) "configuration" = .ok (sortedTexts r.configuration) :=
    readPairs_eq_ok rfl
  have hmetrics : readPairs lib (r.data createdAt) "metrics" = .ok (sortedTexts r.metrics) := readPairs_eq_ok rfl
  have hcheck : checkRecord r.identitySha256 { u with utcoffset := some 0 } = .ok () :=
    bind_eq_ok.mpr ⟨(), raiseIf_eq_ok.mpr (not_not.mpr hlength), raiseIf_eq_ok.mpr (by simp [DateTime.aware])⟩
  have hinstant : r.createdAt.instant = DateTime.instant { u with utcoffset := some 0 } := by
    have hwall := DateTime.wallClock_add? hu
    show _ = u.wallClock - 0
    rw [hwall, DateTime.instant]
    omega
  have hread : readRecord lib (r.data createdAt) = build r.runId r.identitySha256 r.status
      { u with utcoffset := some 0 } r.reportReference (sortedTexts r.configuration) (sortedTexts r.metrics) := by
    rw [readRecord, hhead, requiredStr_eq_ok (s := r.identitySha256) rfl hne', hoptional, hconfiguration, hmetrics]
    rfl
  obtain ⟨r', hbuild, hid, hidentity, hstatus, hcreated, hunfolded, hreport, hconf, hmet⟩ := @build_eq_ok r.runId _ r.status _
    r.reportReference (sortedTexts r.configuration) (sortedTexts r.metrics) hcheck
  rw [sortedTexts, sortPairs_sortPairs] at hconf hmet
  refine ⟨text, r', htext, ?_, hconf, hmet, hid.symm, hidentity.symm, hstatus.symm, hcreated ▸ hinstant,
    hunfolded, hreport.symm⟩
  rw [fromJson, raiseIf, if_neg hne, hloads]
  exact hread.trans hbuild

/-! ### The records that are read back -/

/-- The text that is written is read as an equal record. -/
def RoundTrips (lib : Library) (limit : ℕ) (r : BacktestRecord) : Prop :=
  ∃ text r', r.toJson = .ok text ∧ fromJson lib limit text = .ok r' ∧ Same r r'

/-- Every part of every pair is a string. -/
def Textual (pairs : List (Entry × Entry)) : Prop := ∀ p ∈ pairs, ∃ q, p = strPair q

/-- The instant is in the years 1 to 9999 in UTC. -/
def InRange (t : DateTime) : Prop := DateTime.first.instant ≤ t.instant ∧ t.instant ≤ DateTime.last.instant

theorem inRange_iff {t : DateTime} : InRange t ↔ ∃ createdAt, t.utcText = some createdAt := by
  rw [← Option.isSome_iff_exists, DateTime.utcText_isSome]
  simp [InRange, DateTime.instant, DateTime.first, DateTime.last]

theorem textual_map (texts : List (String × String)) : Textual (texts.map strPair) := by
  intro p hp
  obtain ⟨q, -, rfl⟩ := List.mem_map.mp hp
  exact ⟨q, rfl⟩

/-- Sorted pairs of strings are their sorted texts. -/
theorem map_sortedTexts {pairs : List (Entry × Entry)} (hsorted : Sorted pairs) (h : Textual pairs) :
    (sortedTexts pairs).map strPair = pairs := by
  have hpairs : pairs = (pairs.map fun p => (p.1.text, p.2.text)).map strPair := by
    rw [List.map_map]
    refine (List.map_congr_left fun p hp => ?_).trans (List.map_id pairs) |>.symm
    obtain ⟨q, rfl⟩ := h p hp
    rfl
  rw [sortedTexts, sortPairs_of_sorted (hsorted _ hpairs)]
  exact hpairs.symm

theorem roundTrips_iff {lib : Library} {r : BacktestRecord} (hback : ReadsBack lib r) {limit : ℕ} (hlimit : 3 ≤ limit) :
    RoundTrips lib limit r ↔
      Textual r.configuration ∧ Textual r.metrics ∧ InRange r.createdAt ∧ r.Unfolded := by
  constructor
  · rintro ⟨text, r', htext, hread, hsame⟩
    obtain ⟨createdAt, hcreated⟩ : ∃ createdAt, r.createdAt.utcText = some createdAt := by
      cases hutc : r.createdAt.utcText with
      | none =>
        rw [toJson, toDict, hutc] at htext
        cases htext
      | some createdAt => exact ⟨createdAt, rfl⟩
    obtain ⟨text', r'', htext', hread', hconf, hmet, -⟩ := fromJson_toJson hback hcreated hlimit
    obtain rfl : text = text' := Except.ok.inj (htext.symm.trans htext')
    obtain rfl : r' = r'' := Except.ok.inj (hread.symm.trans hread')
    refine ⟨?_, ?_, inRange_iff.mpr ⟨createdAt, hcreated⟩, hsame.unfolded.1⟩
    · rw [hsame.configuration, hconf]
      exact textual_map _
    · rw [hsame.metrics, hmet]
      exact textual_map _
  · rintro ⟨hconfiguration, hmetrics, hrange, hunfolded⟩
    obtain ⟨createdAt, hcreated⟩ := inRange_iff.mp hrange
    obtain ⟨text, r', htext, hread, hconf, hmet, hid, hidentity, hstatus, hinstant, hunfolded', hreport⟩ :=
      fromJson_toJson hback hcreated hlimit
    rw [map_sortedTexts r.configuration_sorted hconfiguration] at hconf
    rw [map_sortedTexts r.metrics_sorted hmetrics] at hmet
    exact ⟨text, r', htext, hread, hid, hidentity, hstatus, hinstant, ⟨hunfolded, hunfolded'⟩, hreport, hconf.symm, hmet.symm⟩

end BacktestRecord

/-! ### The errors of a text -/

/-- Nothing but a `PersistenceError` is raised. -/
def OnlyPersistence (lib : Library) (limit : ℕ) (text : String) : Prop :=
  ∀ e, fromJson lib limit text = .error e → ∃ t, e = .persistence t

theorem mapError_persistence {α : Type} {x : Except String α} {f : String → String} {e : StoreError}
    (h : x.mapError (fun text => StoreError.persistence (f text)) = .error e) : ∃ t, e = .persistence t := by
  cases x with
  | error text => exact ⟨_, (Except.error.inj h).symm⟩
  | ok a => cases h

theorem checkRecord_error {identitySha256 : String} {createdAt : DateTime} {e : StoreError}
    (h : checkRecord identitySha256 createdAt = .error e) : ∃ t, e = .persistence t := by
  unfold checkRecord raiseIf at h
  split_ifs at h with h₁ h₂ <;> cases h <;> exact ⟨_, rfl⟩

theorem build_error {runId : UUID} {identitySha256 : String} {status : BacktestStatus} {createdAt : DateTime}
    {reportReference : Option String} {configuration metrics : List (String × String)} {e : StoreError}
    (h : BacktestRecord.build runId identitySha256 status createdAt reportReference configuration metrics = .error e) :
    ∃ t, e = .persistence t := by
  unfold BacktestRecord.build accept at h
  split at h
  · cases h
  · next hcheck _ =>
    cases h
    exact checkRecord_error hcheck

theorem readRecord_error {lib : Library} {data : Data} {e : StoreError} (h : readRecord lib data = .error e) :
    ∃ t, e = .persistence t := by
  rcases bind_eq_error.mp h with h | ⟨⟨runId, status, createdAt⟩, -, h⟩
  · exact mapError_persistence h
  rcases bind_eq_error.mp h with h | ⟨identitySha256, -, h⟩
  · exact mapError_persistence h
  rcases bind_eq_error.mp h with h | ⟨reportReference, -, h⟩
  · exact mapError_persistence h
  rcases bind_eq_error.mp h with h | ⟨configuration, -, h⟩
  · exact mapError_persistence h
  rcases bind_eq_error.mp h with h | ⟨metrics, -, h⟩
  · exact mapError_persistence h
  exact build_error h

/-- **What is raised for a text.** -/
theorem onlyPersistence_iff {lib : Library} {limit : ℕ} {text : String} :
    OnlyPersistence lib limit text ↔ ¬TooLong limit text ∧ ¬TooDeep limit text := by
  rw [← loads_eq_digits, ← loads_eq_recursion]
  by_cases hne : text = ""
  · subst hne
    have hdecode : loads limit "" = .error .decode := rfl
    rw [hdecode]
    refine ⟨fun _ => ⟨nofun, nofun⟩, fun _ e he => ⟨_, (Except.error.inj he).symm⟩⟩
  · have hread : fromJson lib limit text = fromLoads lib text (loads limit text) := by
      rw [fromJson, raiseIf, if_neg hne]
      rfl
    constructor
    · intro h
      constructor
      · intro hdigits
        rw [hdigits] at hread
        obtain ⟨t, ht⟩ := h _ hread
        cases ht
      · intro hrecursion
        rw [hrecursion] at hread
        obtain ⟨t, ht⟩ := h _ hread
        cases ht
    · rintro ⟨hdigits, hrecursion⟩ e he
      rw [hread] at he
      unfold fromLoads at he
      split at he
      · exact ⟨_, (Except.error.inj he).symm⟩
      · next h => exact absurd h hdigits
      · next h => exact absurd h hrecursion
      · exact readRecord_error he
      · exact ⟨_, (Except.error.inj he).symm⟩

/-- **Round trips and errors**: the records that are read back, and the texts for which nothing else is raised. -/
theorem store_iff {lib : Library} {limit : ℕ} {r : BacktestRecord} (hlimit : 3 ≤ limit) (hback : r.ReadsBack lib)
    (text : String) : (r.RoundTrips lib limit ↔ BacktestRecord.Textual r.configuration ∧
    BacktestRecord.Textual r.metrics ∧ BacktestRecord.InRange r.createdAt ∧ r.Unfolded) ∧
      (OnlyPersistence lib limit text ↔ ¬TooLong limit text ∧ ¬TooDeep limit text) :=
  ⟨r.roundTrips_iff hback hlimit, onlyPersistence_iff⟩

/-! ### A record and a text -/

def sampleConfiguration : List (String × String) := [("initial_capital", "100000"), ("legs", "[[\"SBIN\", 5]]")]

def sampleMetrics : List (String × String) := [("sharpe", "1.25")]

def sampleRecord : BacktestRecord where
  runId := ⟨1⟩
  identitySha256 := String.ofList (List.replicate 64 '0')
  status := .completed
  createdAt := ⟨2026, 1, 1, 9, 0, 0, 0, some 0⟩
  foldedOffset := some 0
  reportReference := some "reports/1"
  configuration := sampleConfiguration.map strPair
  metrics := sampleMetrics.map strPair
  accepted := by
    refine bind_eq_ok.mpr ⟨(), raiseIf_eq_ok.mpr ?_, raiseIf_eq_ok.mpr ?_⟩
    · simp only [String.length_ofList, List.length_replicate, ne_eq, not_true_eq_false, not_false_eq_true]
    · decide
  configuration_sorted := by
    intro texts h
    rw [← List.map_injective_iff.mpr strPair_inj h]
    decide +kernel
  metrics_sorted := by
    intro texts h
    rw [← List.map_injective_iff.mpr strPair_inj h]
    exact List.pairwise_singleton _ _

/-- Parsers that read the texts of this record. -/
def sampleLibrary : Library where
  uuid s := if s = sampleRecord.runId.str then .ok sampleRecord.runId else .error "badly formed hexadecimal UUID string"
  fromisoformat s :=
    if s = sampleRecord.createdAt.isoMicros then .ok sampleRecord.createdAt else .error "Invalid isoformat string"
  decodeText _ := "Expecting value"
  str _ := ""

theorem readsBack_sample : sampleRecord.ReadsBack sampleLibrary := by
  constructor
  · simp only [sampleLibrary, if_true]
  · intro u hu
    have hadd : sampleRecord.createdAt.add? (-(sampleRecord.createdAt.utcoffset.getD 0)) =
        some sampleRecord.createdAt := by decide
    obtain rfl : sampleRecord.createdAt = u := Option.some.inj (hadd.symm.trans hu)
    simp only [sampleLibrary, if_true]
    rfl

/-- A text with a run id that is no UUID and pairs with nested values. -/
def sampleText : String :=
  "\x7b\"run_id\": \"1\", \"configuration\": [[\"legs\", [\"SBIN\", [5, -1.5e3]]], [\"note\", null]]\x7d"

theorem store_iff_sample : sampleRecord.RoundTrips sampleLibrary 1000 ∧ OnlyPersistence sampleLibrary 1000 sampleText := by
  have hloads : (loads 1000 sampleText).isOk = true := by decide +kernel
  have hrange : BacktestRecord.InRange sampleRecord.createdAt := by
    unfold BacktestRecord.InRange
    decide
  constructor
  · exact (store_iff (by decide) readsBack_sample sampleText).1.mpr
      ⟨BacktestRecord.textual_map sampleConfiguration, BacktestRecord.textual_map sampleMetrics, hrange, rfl⟩
  · refine (store_iff (by decide) readsBack_sample sampleText).2.mpr ⟨?_, ?_⟩
    · rw [← loads_eq_digits]
      intro h
      rw [h] at hloads
      cases hloads
    · rw [← loads_eq_recursion]
      intro h
      rw [h] at hloads
      cases hloads

/-- The ones of a number. -/
theorem run_ones (limit n k : ℕ) (text : List Char) : ∃ text', run (step limit) ⟨.number ⟨.int, text, n, false⟩, []⟩
    (List.replicate k '1') = .ok ⟨.number ⟨.int, text', n + k, false⟩, []⟩ := by
  induction k generalizing n text with
  | zero => exact ⟨text, rfl⟩
  | succ k ih =>
    obtain ⟨text', h⟩ := ih (n + 1) ('1' :: text)
    refine ⟨text', ?_⟩
    rw [List.replicate_succ, run_cons_ok, show n + (k + 1) = n + 1 + k by omega]
    exact ⟨_, rfl, h⟩

/-- An integer of ones with too many digits. -/
theorem tooLong_ones (limit : ℕ) {k : ℕ} (hk : maxDigits ≤ k) :
    TooLong limit (String.ofList (List.replicate (k + 1) '1')) := by
  obtain ⟨text, h⟩ := run_ones limit 1 k ['1']
  have hrun : run (step limit) ⟨.value, []⟩ (List.replicate (k + 1) '1') = .ok ⟨.number ⟨.int, text, 1 + k, false⟩, []⟩ :=
    run_cons_ok.mpr ⟨_, rfl, h⟩
  refine ⟨_, [], _, _, ?_, hrun, rfl, rfl, ?_, nofun⟩
  · rw [String.toList_ofList, List.append_nil]
  · show maxDigits < 1 + k
    omega

/-- An integer that `int` refuses. -/
theorem not_fromJson_persistence : ¬ ∀ (lib : Library) (limit : ℕ) (r : BacktestRecord) (text : String), 3 ≤ limit →
    r.ReadsBack lib → r.RoundTrips lib limit ∧ OnlyPersistence lib limit text := by
  intro h
  have hones := (h sampleLibrary 1000 sampleRecord (String.ofList (List.replicate (maxDigits + 1) '1')) (by decide)
    readsBack_sample).2
  exact (onlyPersistence_iff.mp hones).1 (tooLong_ones 1000 le_rfl)

end AlphaAlgo.Persistence
