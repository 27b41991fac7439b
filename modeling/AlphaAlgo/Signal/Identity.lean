import AlphaAlgo.Base.Plain
import AlphaAlgo.Lib.Joined
import AlphaAlgo.Signal.Signals

/-!
# Identity — which signals share an identity

The identity of a signal hashes six fields joined with `|`.  Four of them have no `|` in their text; the version of the
strategy and the hash of its configuration are free texts, and a part can move from one to the other.

* `identityText_eq_iff`: the signals that share the hashed text.
* `identityKey_distinct_iff`: exactly when signals that differ have different identities.
-/

namespace AlphaAlgo.Signal

open Joining Risk

variable {signal signal' : StrategySignal} {t t' : DateTime}

/-- What is hashed, with the event timestamp. -/
def StrategySignal.identityText (signal : StrategySignal) (t : DateTime) : String :=
  "|".intercalate [signal.strategyId.str, signal.strategyVersion, signal.strategyConfigHash, signal.instrumentId.str,
    signal.action.value, t.isoformat]

theorem identityKey_eq : signal.identityKey t = sha256 (signal.identityText t) := rfl

/-- `compute_signal_identity_key`; there is none when the event timestamp cannot be read. -/
def StrategySignal.computeIdentityKey (signal : StrategySignal) : Except IngestError String :=
  signal.eventTimestamp.map signal.identityKey

/-- What is hashed. -/
def StrategySignal.preimage (signal : StrategySignal) : Except IngestError String :=
  signal.eventTimestamp.map signal.identityText

/-- The checks of the contract on the two free texts. -/
structure StrategySignal.TextsAccepted (signal : StrategySignal) : Prop where
  version_length : 1 ≤ signal.strategyVersion.length ∧ signal.strategyVersion.length ≤ 64
  version_not_blank : blank signal.strategyVersion = false
  configHash_length : 1 ≤ signal.strategyConfigHash.length ∧ signal.strategyConfigHash.length ≤ 128
  configHash_not_blank : blank signal.strategyConfigHash = false

/-- The fields that the identity is derived from are the same. -/
structure SameFields (signal signal' : StrategySignal) : Prop where
  strategyId : signal.strategyId = signal'.strategyId
  strategyVersion : signal.strategyVersion = signal'.strategyVersion
  strategyConfigHash : signal.strategyConfigHash = signal'.strategyConfigHash
  instrumentId : signal.instrumentId = signal'.instrumentId
  action : signal.action = signal'.action
  eventTimestamp : signal.eventTimestamp = signal'.eventTimestamp

/-- The second signal is the first with a part of the configuration hash moved to the version, and a `|` with it. -/
def MovedPart (signal signal' : StrategySignal) : Prop :=
  Moved '|' signal.strategyVersion.toList signal.strategyConfigHash.toList signal'.strategyVersion.toList
    signal'.strategyConfigHash.toList

/-- All but the version and the configuration hash is the same, and a part moved between these two. -/
structure Shifted (signal signal' : StrategySignal) : Prop where
  strategyId : signal.strategyId = signal'.strategyId
  instrumentId : signal.instrumentId = signal'.instrumentId
  action : signal.action = signal'.action
  eventTimestamp : signal.eventTimestamp = signal'.eventTimestamp
  moved : MovedPart signal signal' ∨ MovedPart signal' signal

/-! ### The hashed text -/

theorem SignalAction.plain_value (a : SignalAction) : Plain a.value.toList := by
  cases a <;> simp [SignalAction.value, Plain, plainChar]

theorem SignalAction.value_inj {a a' : SignalAction} (h : a.value = a'.value) : a = a' := by
  cases a <;> cases a' <;> first | rfl | exact absurd h (by decide)

/-- The fields after the two free texts. -/
def tailText (signal : StrategySignal) (t : DateTime) : List Char :=
  signal.instrumentId.str.toList ++ '|' :: (signal.action.value.toList ++ '|' :: t.isoformat.toList)

theorem toList_identityText (signal : StrategySignal) (t : DateTime) :
    (signal.identityText t).toList = signal.strategyId.str.toList ++
      '|' :: ((signal.strategyVersion.toList ++ '|' :: signal.strategyConfigHash.toList) ++ '|' :: tailText signal t) := by
  simp [StrategySignal.identityText, tailText]

theorem count_bar {l : List Char} (h : Plain l) : l.count '|' = 0 := h.count_eq_zero (by decide)

theorem count_tailText (signal : StrategySignal) (t : DateTime) : (tailText signal t).count '|' = 2 := by
  simp only [tailText, List.count_append, List.count_cons_self, count_bar (UUID.plain_str _),
    count_bar (SignalAction.plain_value _), count_bar (DateTime.plain_isoformat _)]

/-- The last three fields can be read off their text. -/
theorem tailText_inj (h : tailText signal t = tailText signal' t') :
    signal.instrumentId = signal'.instrumentId ∧ signal.action = signal'.action ∧ t = t' := by
  obtain ⟨hinstrument, hrest⟩ := first_inj
    (by rw [count_bar (UUID.plain_str _), count_bar (UUID.plain_str _)]) h
  obtain ⟨haction, htime⟩ := first_inj
    (by rw [count_bar (SignalAction.plain_value _), count_bar (SignalAction.plain_value _)]) hrest
  exact ⟨UUID.str_inj (String.toList_inj.mp hinstrument), SignalAction.value_inj (String.toList_inj.mp haction),
    DateTime.isoformat_inj (String.toList_inj.mp htime)⟩

/-- Signals of one strategy that share the hashed text. -/
theorem identityText_inj (hid : signal.strategyId = signal'.strategyId)
    (hversion : signal.strategyVersion = signal'.strategyVersion)
    (hhash : signal.strategyConfigHash = signal'.strategyConfigHash)
    (h : signal.identityText t = signal'.identityText t') :
    signal.instrumentId = signal'.instrumentId ∧ signal.action = signal'.action ∧ t = t' := by
  have htexts := congrArg String.toList h
  rw [toList_identityText, toList_identityText, hid, hversion, hhash] at htexts
  exact tailText_inj (List.cons.inj (List.append_cancel_left (List.cons.inj (List.append_cancel_left htexts)).2)).2

/-- **The signals that share the hashed text.** -/
theorem identityText_eq_iff (ht : signal.eventTimestamp = .ok t) (ht' : signal'.eventTimestamp = .ok t') :
    signal.identityText t = signal'.identityText t' ↔ SameFields signal signal' ∨ Shifted signal signal' := by
  rw [← String.toList_inj, toList_identityText, toList_identityText]
  constructor
  · intro h
    obtain ⟨hid, hrest⟩ := first_inj
      (by rw [count_bar (UUID.plain_str _), count_bar (UUID.plain_str _)]) h
    obtain ⟨htexts, htail⟩ := last_inj (by rw [count_tailText, count_tailText]) hrest
    have hstrategy := UUID.str_inj (String.toList_inj.mp hid)
    obtain ⟨hinstrument, haction, rfl⟩ := tailText_inj htail
    have htime : signal.eventTimestamp = signal'.eventTimestamp := ht.trans ht'.symm
    rcases append_cons_eq_iff.mp htexts with ⟨hversion, hhash⟩ | hmoved
    · exact .inl ⟨hstrategy, String.toList_inj.mp hversion, String.toList_inj.mp hhash, hinstrument, haction, htime⟩
    · exact .inr ⟨hstrategy, hinstrument, haction, htime, hmoved⟩
  · have htime : signal.eventTimestamp = signal'.eventTimestamp → t = t' := fun h =>
      Except.ok.inj (ht.symm.trans (h.trans ht'))
    rintro (h | h)
    · rw [tailText, tailText, h.strategyId, h.strategyVersion, h.strategyConfigHash, h.instrumentId, h.action,
        htime h.eventTimestamp]
    · rw [tailText, tailText, h.strategyId, append_cons_eq_iff.mpr (.inr h.moved), h.instrumentId, h.action,
        htime h.eventTimestamp]

/-- A moved part makes a difference. -/
theorem Shifted.not_sameFields (h : Shifted signal signal') : ¬SameFields signal signal' := by
  intro hsame
  rcases h.moved with hmoved | hmoved
  · exact hmoved.ne (congrArg String.toList hsame.strategyVersion)
  · exact hmoved.ne (congrArg String.toList hsame.strategyVersion.symm)

/-- **Signals that differ have different identities**, where the hash has no collision, exactly when no part is moved. -/
theorem identityKey_distinct_iff {key key' : String} (hkey : signal.computeIdentityKey = .ok key)
    (hkey' : signal'.computeIdentityKey = .ok key') (hcol : key = key' → signal.preimage = signal'.preimage) :
    (¬SameFields signal signal' → key ≠ key') ↔ ¬Shifted signal signal' := by
  obtain ⟨t, ht, rfl⟩ := Loop.map_eq_ok.mp hkey
  obtain ⟨t', ht', rfl⟩ := Loop.map_eq_ok.mp hkey'
  constructor
  · intro h hshifted
    refine h hshifted.not_sameFields ?_
    rw [identityKey_eq, identityKey_eq, (identityText_eq_iff ht ht').mpr (.inr hshifted)]
  · intro hshifted hdiffer heq
    have htext : (.ok (signal.identityText t) : Except IngestError String) = .ok (signal'.identityText t') := by
      have hpre := hcol heq
      rwa [StrategySignal.preimage, StrategySignal.preimage, ht, ht'] at hpre
    rcases (identityText_eq_iff ht ht').mp (Except.ok.inj htext) with hsame | h
    · exact hdiffer hsame
    · exact hshifted h

theorem crossed_aware : (⟨2026, 1, 1, 9, 15, 0, 0, some 0⟩ : DateTime).aware = true := rfl

/-- A signal of one strategy with the given texts. -/
def signalOf (version configHash : String) : StrategySignal where
  signalId := ⟨1⟩
  strategyId := ⟨2⟩
  strategyVersion := version
  strategyConfigHash := configHash
  instrumentId := ⟨3⟩
  action := .buy
  timestamp := ⟨2026, 1, 1, 9, 15, 0, 0, some 0⟩
  confidence := .ofNat 1
  reason := "cross"
  metadata := []
  confidence_range := by simp [Dec.val, Dec.ofNat]
  timestamp_aware := crossed_aware

theorem identityKey_distinct_iff_two : ¬SameFields (signalOf "1|a" "b") (signalOf "1" "b|a") ∧
    (¬SameFields (signalOf "1|a" "b") (signalOf "1" "b|a") →
      (signalOf "1|a" "b").identityKey (signalOf "1|a" "b").timestamp ≠
        (signalOf "1" "b|a").identityKey (signalOf "1" "b|a").timestamp) := by
  have hdiffer : ¬SameFields (signalOf "1|a" "b") (signalOf "1" "b|a") := by
    intro hsame
    exact absurd hsame.strategyVersion (by decide)
  have hkeys : (signalOf "1|a" "b").identityKey (signalOf "1|a" "b").timestamp ≠
      (signalOf "1" "b|a").identityKey (signalOf "1" "b|a").timestamp := by decide +kernel
  have hshifted : ¬Shifted (signalOf "1|a" "b") (signalOf "1" "b|a") := by
    intro h
    rcases h.moved with hmoved | hmoved
    · exact absurd hmoved.text (by decide)
    · exact absurd hmoved.text (by decide)
  exact ⟨hdiffer, (identityKey_distinct_iff rfl rfl fun h => absurd h hkeys).mpr hshifted⟩

/-- A `|` in the version of one signal, in the configuration hash of the other. -/
theorem not_identityKey_distinct : ¬ ∀ (signal signal' : StrategySignal) (key key' : String), signal.TextsAccepted →
    signal'.TextsAccepted → signal.computeIdentityKey = .ok key → signal'.computeIdentityKey = .ok key' →
    (key = key' → signal.preimage = signal'.preimage) → ¬SameFields signal signal' → key ≠ key' := by
  intro h
  have htext : (signalOf "1|a" "b").identityText (signalOf "1|a" "b").timestamp =
      (signalOf "1" "a|b").identityText (signalOf "1" "a|b").timestamp := by
    rw [← String.toList_inj, toList_identityText, toList_identityText]
    rfl
  refine h (signalOf "1|a" "b") (signalOf "1" "a|b") _ _ ⟨by decide, by decide, by decide, by decide⟩
    ⟨by decide, by decide, by decide, by decide⟩ rfl rfl (fun _ => congrArg Except.ok htext) ?_ ?_
  · intro hsame
    exact absurd hsame.strategyVersion (by decide)
  · rw [identityKey_eq, identityKey_eq, htext]

end AlphaAlgo.Signal
