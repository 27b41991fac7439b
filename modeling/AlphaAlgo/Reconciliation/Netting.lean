import Mathlib.Algebra.BigOperators.Group.List.Basic
import AlphaAlgo.Lib.GroupBy
import AlphaAlgo.Lib.Joined
import AlphaAlgo.Reconciliation.Positions

/-!
# Netting — positions of an account and an instrument, row by row and in sum

The internal book keeps a row for every strategy run, closed ones included; the broker reports a net position.
`reconcilePositions` compares every internal row with the last broker row of its slot, an account and an instrument.

* `names_iff`: the slots that a quantity discrepancy names are those in which a row is `Odd`.
* `nets_iff`: the comparison tells the sums apart exactly when every uniform slot has equal sums, and all slots are uniform
  unless some sums differ; `rowsTell_of_single` is the case of one row a slot.
-/

namespace AlphaAlgo.Reconciliation

/-- An account and an instrument. -/
abbrev Slot := Option UUID × Option UUID

def PositionObservation.slot (o : PositionObservation) : Slot := (o.accountId, o.instrumentId)

def Slot.text (slot : Slot) : String := idText slot.1 ++ ":" ++ idText slot.2

/-- The rows of a slot. -/
def rowsOf (slot : Slot) (l : List PositionObservation) : List PositionObservation := l.filter fun o => o.slot = slot

/-- The sum of the quantities of a slot, zero when it has no row. -/
def netQuantity (slot : Slot) (l : List PositionObservation) : ℤ :=
  ((rowsOf slot l).map PositionObservation.quantity).sum

/-- The kinds that say something about a quantity. -/
def DiscrepancyKind.ofQuantity (kind : DiscrepancyKind) : Bool :=
  kind = quantityMismatch || kind = internalOnly || kind = brokerOnly

/-- A discrepancy of the quantity of a slot. -/
structure Discrepancy.Names (d : Discrepancy) (slot : Slot) : Prop where
  kind : d.kind.ofQuantity = true
  entityType : d.entityType = .position
  entityId : d.entityId = slot.text

/-- What the comparison should say about the sums. -/
structure Nets (internal broker : List PositionObservation) (r : ComparisonResult) : Prop where
  quiet : (∀ slot, netQuantity slot internal = netQuantity slot broker) →
    ∀ d ∈ r.discrepancies, d.kind.ofQuantity = false
  named : ∀ slot, netQuantity slot internal ≠ netQuantity slot broker → ∃ d ∈ r.discrepancies, d.Names slot

/-- A slot with rows on one side only, or with an internal row of another quantity than the last broker row. -/
def Odd (internal broker : List PositionObservation) (slot : Slot) : Prop :=
  match (rowsOf slot broker).getLast? with
  | none => rowsOf slot internal ≠ []
  | some b => rowsOf slot internal = [] ∨ ∃ x ∈ rowsOf slot internal, x.quantity ≠ b.quantity

/-- All internal rows of a slot have the quantity `q` of its last broker row. -/
structure Uniform (internal broker : List PositionObservation) (slot : Slot) (q : ℤ) : Prop where
  rows : rowsOf slot internal ≠ []
  same : ∀ x ∈ rowsOf slot internal, x.quantity = q
  last : ∀ b ∈ (rowsOf slot broker).getLast?, b.quantity = q
  reported : rowsOf slot broker ≠ []

/-- The condition on the rows: where the internal rows of a slot repeat the quantity of its last broker row, as many times
that quantity is the sum of the broker rows; and so it is in every slot with rows, unless the sums of some slot differ. -/
structure RowsTell (internal broker : List PositionObservation) : Prop where
  uniform : ∀ slot q, Uniform internal broker slot q → (rowsOf slot internal).length * q = netQuantity slot broker
  differ : (∃ slot, netQuantity slot internal ≠ netQuantity slot broker) ∨
    ∀ slot, rowsOf slot internal ≠ [] ∨ rowsOf slot broker ≠ [] → ∃ q, Uniform internal broker slot q

/-- Every internal row has a price that can be compared with that of the broker row of its slot. -/
def Priced (internal broker : List PositionObservation) : Prop :=
  ∀ x ∈ internal, ∀ y ∈ (rowsOf x.slot broker).getLast?, comparable x.averagePrice y.averagePrice = true

/-! ### Uniform slots -/

section Uniform

variable {internal broker : List PositionObservation} {slot : Slot}

/-- **A slot that is not odd** has no rows or is uniform. -/
theorem not_odd_iff : ¬ Odd internal broker slot ↔
    (rowsOf slot internal = [] ∧ rowsOf slot broker = []) ∨ ∃ q, Uniform internal broker slot q := by
  unfold Odd
  cases hlast : (rowsOf slot broker).getLast? with
  | none =>
    have hnil := List.getLast?_eq_none_iff.mp hlast
    constructor
    · exact fun h => .inl ⟨not_not.mp h, hnil⟩
    · rintro (⟨h, -⟩ | ⟨q, h⟩)
      · exact not_not.mpr h
      · exact absurd hnil h.reported
  | some b =>
    have hne : rowsOf slot broker ≠ [] := by
      intro h
      rw [h] at hlast
      cases hlast
    constructor
    · intro h
      obtain ⟨hrows, hsame⟩ := not_or.mp h
      refine .inr ⟨b.quantity, hrows, fun x hx => ?_, fun b' hb' => ?_, hne⟩
      · by_contra hx'
        exact hsame ⟨x, hx, hx'⟩
      · cases hlast.symm.trans hb'
        rfl
    · rintro (⟨-, h⟩ | ⟨q, h⟩)
      · exact absurd h hne
      · rintro (hnil | ⟨x, hx, hx'⟩)
        · exact h.rows hnil
        · exact hx' ((h.same x hx).trans (h.last b hlast).symm)

theorem Uniform.netQuantity_eq {q : ℤ} (h : Uniform internal broker slot q) :
    netQuantity slot internal = (rowsOf slot internal).length * q := by
  have hmap : (rowsOf slot internal).map PositionObservation.quantity = List.replicate (rowsOf slot internal).length q :=
    List.eq_replicate_iff.mpr ⟨List.length_map _, fun a ha => by
      obtain ⟨x, hx, rfl⟩ := List.mem_map.mp ha
      exact h.same x hx⟩
  rw [netQuantity, hmap, List.sum_replicate, nsmul_eq_mul]

/-- The condition, by the odd slots. -/
theorem rowsTell_iff : RowsTell internal broker ↔
    (∀ slot, ¬ Odd internal broker slot → netQuantity slot internal = netQuantity slot broker) ∧
      ((∀ slot, netQuantity slot internal = netQuantity slot broker) → ∀ slot, ¬ Odd internal broker slot) := by
  constructor
  · intro h
    refine ⟨fun slot hodd => ?_, fun hsums slot => ?_⟩
    · rcases not_odd_iff.mp hodd with ⟨hi, hb⟩ | ⟨q, hq⟩
      · rw [netQuantity, netQuantity, hi, hb]
      · rw [hq.netQuantity_eq, h.uniform slot q hq]
    · rw [not_odd_iff]
      rcases h.differ with ⟨slot', hne⟩ | hall
      · exact absurd (hsums slot') hne
      · by_cases hrows : rowsOf slot internal ≠ [] ∨ rowsOf slot broker ≠ []
        · exact .inr (hall slot hrows)
        · exact .inl (by simpa using hrows)
  · rintro ⟨hequal, hnone⟩
    refine ⟨fun slot q hq => ?_, ?_⟩
    · rw [← hq.netQuantity_eq]
      exact hequal slot (not_odd_iff.mpr (.inr ⟨q, hq⟩))
    · by_cases hsums : ∀ slot, netQuantity slot internal = netQuantity slot broker
      · refine .inr fun slot hrows => (not_odd_iff.mp (hnone hsums slot)).resolve_left ?_
        rintro ⟨hi, hb⟩
        rcases hrows with h | h
        · exact h hi
        · exact h hb
      · exact .inl (not_forall.mp hsums)

end Uniform

/-! ### Slots and their texts -/

theorem positionMatchKey_eq (o : PositionObservation) : positionMatchKey o = o.slot.text := rfl

theorem length_hex (u : UUID) : u.hex.length = 32 := by
  rw [UUID.hex, List.length_map, List.length_range]

theorem idText_inj {a b : Option UUID} (h : idText a = idText b) : a = b := by
  have hnone : ∀ u : UUID, idText none ≠ idText (some u) := by
    intro u hu
    have hfilter : "None".toList.filter (· ≠ '-') = u.hex := (congrArg (fun s => s.toList.filter (· ≠ '-')) hu).trans
      u.filter_str
    have hlength := congrArg List.length hfilter
    rw [length_hex] at hlength
    exact absurd hlength (by decide)
  cases a with
  | none =>
    cases b with
    | none => rfl
    | some v => exact absurd h (hnone v)
  | some u =>
    cases b with
    | none => exact absurd h.symm (hnone u)
    | some v => exact congrArg some (UUID.str_inj h)

theorem colon_notMem_idText (a : Option UUID) : ':' ∉ (idText a).toList := by
  cases a with
  | none => decide
  | some u =>
    intro hmem
    have hhex : ':' ∈ u.hex := u.filter_str ▸ List.mem_filter.mpr ⟨hmem, by decide⟩
    obtain ⟨i, -, hi⟩ := List.mem_map.mp hhex
    have key : ∀ d < 16, Nat.digitChar d ≠ ':' := by decide
    exact key _ (Nat.mod_lt _ (by omega)) hi

/-- Different slots have different texts. -/
theorem Slot.text_inj {slot slot' : Slot} (h : slot.text = slot'.text) : slot = slot' := by
  have hlist := congrArg String.toList h
  simp only [Slot.text, String.toList_append, List.append_assoc] at hlist
  obtain ⟨hfirst, hsecond⟩ :=
    Joining.clean_inj (colon_notMem_idText slot.1) (colon_notMem_idText slot'.1) hlist
  exact Prod.ext (idText_inj (String.toList_inj.mp hfirst)) (idText_inj (String.toList_inj.mp hsecond))

theorem positionMatchKey_iff {o : PositionObservation} {slot : Slot} : positionMatchKey o = slot.text ↔ o.slot = slot :=
  ⟨fun h => Slot.text_inj h, fun h => congrArg Slot.text h⟩

/-- **What the index holds for a slot**: the last broker row. -/
theorem lookup_positionIndex (broker : List PositionObservation) (slot : Slot) :
    (positionIndex broker).lookup slot.text = (rowsOf slot broker).getLast? := by
  have hgroup := @lookup_groupBy _ _ _ (fun o => some (positionMatchKey o)) broker slot.text
  have hfilter : (broker.filter fun o => some (positionMatchKey o) = some slot.text) = rowsOf slot broker :=
    List.filter_congr fun o _ => by simp [positionMatchKey_iff]
  rw [hfilter] at hgroup
  rw [positionIndex, lookup_filterMap (nodup_keys_groupBy broker) List.getLast? slot.text, ← hgroup]
  cases (groupBy (fun o => some (positionMatchKey o)) broker).lookup slot.text with
  | none => rfl
  | some rows => rfl

theorem mem_positionIndex {broker : List PositionObservation} {p : String × PositionObservation}
    (h : p ∈ positionIndex broker) : ∃ slot : Slot, p.1 = slot.text ∧ (rowsOf slot broker).getLast? = some p.2 := by
  obtain ⟨g, hg, hp⟩ := List.mem_filterMap.mp h
  obtain ⟨o, hlast, rfl⟩ := Option.map_eq_some_iff.mp hp
  have hgroup := group_eq_filter hg
  have hmem : o ∈ g.2 := List.mem_of_getLast? hlast
  rw [hgroup, List.mem_filter] at hmem
  have hkey : positionMatchKey o = g.1 := by simpa using hmem.2
  refine ⟨o.slot, hkey.symm, ?_⟩
  rw [← hlast, hgroup, ← hkey]
  exact congrArg List.getLast? (List.filter_congr fun o' _ => by simp [positionMatchKey_eq o, positionMatchKey_iff])

/-! ### What is reported -/

/-- What an internal row is found to be when no age is checked. -/
def findingOf (broker : List PositionObservation) (x : PositionObservation) : Finding :=
  match (rowsOf x.slot broker).getLast? with
  | none => .internalOnly
  | some y => .compared y

theorem findPosition_fresh (now : DateTime) (broker : List PositionObservation) (x : PositionObservation) :
    findPosition none now (positionIndex broker) x =
      if ∀ y ∈ (rowsOf x.slot broker).getLast?, comparable x.averagePrice y.averagePrice = true then
        .ok (findingOf broker x)
      else .error .invalidOperation := by
  rw [findPosition, positionMatchKey_eq, lookup_positionIndex, findingOf]
  cases (rowsOf x.slot broker).getLast? with
  | none => simp
  | some y =>
    have hfresh : isStale now none y.observedAt = .ok false := by
      cases y.observedAt <;> rfl
    dsimp only
    rw [hfresh]
    simp

theorem findPositions_fresh {now : DateTime} {broker l : List PositionObservation} (h : Priced l broker) :
    findPositions none now (positionIndex broker) l = .ok (l.map fun x => (x, findingOf broker x)) := by
  induction l with
  | nil => rfl
  | cons x l ih =>
    obtain ⟨hx, hl⟩ := List.forall_mem_cons.mp h
    rw [findPositions, findPosition_fresh, if_pos hx, ih hl]
    rfl

/-- Where nothing is raised all prices were compared. -/
theorem priced_of_ok {now : DateTime} {broker l : List PositionObservation} {r : List (PositionObservation × Finding)}
    (h : findPositions none now (positionIndex broker) l = .ok r) : Priced l broker := by
  induction l generalizing r with
  | nil => exact fun x hx => absurd hx List.not_mem_nil
  | cons x l ih =>
    rw [findPositions, findPosition_fresh] at h
    by_cases hx : ∀ y ∈ (rowsOf x.slot broker).getLast?, comparable x.averagePrice y.averagePrice = true
    · rw [if_pos hx] at h
      dsimp only at h
      cases hl : findPositions none now (positionIndex broker) l with
      | error e =>
        rw [hl] at h
        cases h
      | ok r' => exact List.forall_mem_cons.mpr ⟨hx, ih hl⟩
    · rw [if_neg hx] at h
      cases h

section

variable {ctx : MatchContext} {tol : Tolerance} {now : DateTime} {internal broker : List PositionObservation}
  {r : ComparisonResult}

theorem priced_of_reconciled (h : reconcilePositions ctx tol none now internal broker = .ok r) :
    Priced internal broker := by
  unfold reconcilePositions at h
  dsimp only at h
  cases hfind : findPositions none now (positionIndex broker) internal with
  | error e =>
    rw [hfind] at h
    cases h
  | ok findings => exact priced_of_ok hfind

theorem mem_discrepancies (h : reconcilePositions ctx tol none now internal broker = .ok r) {d : Discrepancy} :
    d ∈ r.discrepancies ↔ (∃ x ∈ internal, d ∈ positionReport ctx tol (x, findingOf broker x)) ∨
      ∃ p ∈ positionIndex broker, p.1 ∉ internal.map positionMatchKey ∧
        discrepancy ctx .position p.1 .brokerOnly [] (positionState p.2) p.2.observedAt = d := by
  have hpriced := priced_of_reconciled h
  unfold reconcilePositions at h
  dsimp only at h
  rw [findPositions_fresh hpriced] at h
  cases h
  simp only [List.mem_append, List.mem_flatMap, List.mem_map, List.mem_filter, exists_exists_and_eq_and,
    decide_eq_true_eq, and_assoc]

/-- A row that is compared is reported for its quantity when it differs. -/
theorem ofQuantity_compare {x y : PositionObservation} {kind : DiscrepancyKind}
    (h : kind ∈ comparePositionFields tol x y) (hkind : kind.ofQuantity = true) : x.quantity ≠ y.quantity := by
  simp only [comparePositionFields, kindsOf, List.mem_map, List.mem_filter, List.mem_cons, List.not_mem_nil,
    or_false] at h
  obtain ⟨test, ⟨htest, htrue⟩, rfl⟩ := h
  rcases htest with rfl | rfl | rfl
  · simpa using htrue
  · cases hkind
  · cases hkind

/-- A discrepancy of a quantity names the slot of a row, which is odd. -/
theorem odd_of_mem (h : reconcilePositions ctx tol none now internal broker = .ok r) {d : Discrepancy}
    (hd : d ∈ r.discrepancies) (hkind : d.kind.ofQuantity = true) :
    ∃ slot, d.Names slot ∧ Odd internal broker slot := by
  rcases (mem_discrepancies h).mp hd with ⟨x, hx, hreport⟩ | ⟨p, hp, hnone, rfl⟩
  · have hrow : x ∈ rowsOf x.slot internal := List.mem_filter.mpr ⟨hx, decide_eq_true rfl⟩
    unfold positionReport findingOf at hreport
    cases hlast : (rowsOf x.slot broker).getLast? with
    | none =>
      rw [hlast] at hreport
      cases List.mem_singleton.mp hreport
      exact ⟨x.slot, ⟨hkind, rfl, rfl⟩, by rw [Odd, hlast]; exact List.ne_nil_of_mem hrow⟩
    | some y =>
      rw [hlast] at hreport
      obtain ⟨kind, hmem, rfl⟩ := List.mem_map.mp hreport
      exact ⟨x.slot, ⟨hkind, rfl, rfl⟩, by rw [Odd, hlast]; exact .inr ⟨x, hrow, ofQuantity_compare hmem hkind⟩⟩
  · obtain ⟨slot, htext, hlast⟩ := mem_positionIndex hp
    refine ⟨slot, ⟨hkind, rfl, htext⟩, ?_⟩
    rw [Odd, hlast]
    refine .inl (List.filter_eq_nil_iff.mpr fun x hx hslot => hnone ?_)
    rw [htext]
    exact List.mem_map.mpr ⟨x, hx, positionMatchKey_iff.mpr (of_decide_eq_true hslot)⟩

/-- **An odd slot is named.** -/
theorem Odd.named (h : reconcilePositions ctx tol none now internal broker = .ok r) {slot : Slot}
    (hodd : Odd internal broker slot) : ∃ d ∈ r.discrepancies, d.Names slot := by
  have hrows : ∀ x ∈ rowsOf slot internal, x ∈ internal ∧ x.slot = slot := by
    intro x hx
    obtain ⟨hmem, hslot⟩ := List.mem_filter.mp hx
    exact ⟨hmem, of_decide_eq_true hslot⟩
  unfold Odd at hodd
  cases hlast : (rowsOf slot broker).getLast? with
  | none =>
    rw [hlast] at hodd
    obtain ⟨x, hx⟩ := List.exists_mem_of_ne_nil _ hodd
    obtain ⟨hmem, rfl⟩ := hrows x hx
    refine ⟨discrepancy ctx .position (positionMatchKey x) .internalOnly (positionState x) [] x.observedAt,
      (mem_discrepancies h).mpr (.inl ⟨x, hmem, ?_⟩), ⟨rfl, rfl, rfl⟩⟩
    rw [findingOf, hlast]
    exact List.mem_singleton.mpr rfl
  | some b =>
    rw [hlast] at hodd
    rcases hodd with hnil | ⟨x, hx, hne⟩
    · -- the last broker row of the slot is in the index and no internal row has its key
      have hlookup := lookup_positionIndex broker slot
      rw [hlast] at hlookup
      obtain ⟨l₁, l₂, hindex, -⟩ := List.lookup_eq_some_iff.mp hlookup
      have hp : (slot.text, b) ∈ positionIndex broker := by rw [hindex]; simp
      refine ⟨_, (mem_discrepancies h).mpr (.inr ⟨(slot.text, b), hp, fun hmem => ?_, rfl⟩), ⟨rfl, rfl, rfl⟩⟩
      obtain ⟨x, hx, hkey⟩ := List.mem_map.mp hmem
      exact List.filter_eq_nil_iff.mp hnil x hx (decide_eq_true (positionMatchKey_iff.mp hkey))
    · obtain ⟨hmem, rfl⟩ := hrows x hx
      refine ⟨discrepancy ctx .position (positionMatchKey x) .quantityMismatch (positionState x) (positionState b)
        b.observedAt, (mem_discrepancies h).mpr (.inl ⟨x, hmem, ?_⟩), ⟨rfl, rfl, rfl⟩⟩
      rw [findingOf, hlast]
      exact List.mem_map.mpr ⟨.quantityMismatch, by simp [comparePositionFields, kindsOf, hne], rfl⟩

theorem Discrepancy.Names.slot_eq {d : Discrepancy} {slot slot' : Slot} (h : d.Names slot) (h' : d.Names slot') :
    slot = slot' := Slot.text_inj (h.entityId.symm.trans h'.entityId)

/-- **The slots that are named** are the odd ones. -/
theorem names_iff (h : reconcilePositions ctx tol none now internal broker = .ok r) (slot : Slot) :
    (∃ d ∈ r.discrepancies, d.Names slot) ↔ Odd internal broker slot := by
  constructor
  · rintro ⟨d, hd, hnames⟩
    obtain ⟨slot', hnames', hodd⟩ := odd_of_mem h hd hnames.kind
    rw [hnames.slot_eq hnames']
    exact hodd
  · exact fun hodd => hodd.named h

/-- **The comparison tells the sums apart** exactly when it can compare the prices and the rows tell the sums. -/
theorem nets_iff (ctx : MatchContext) (tol : Tolerance) (now : DateTime) (internal broker : List PositionObservation) :
    (∃ r, reconcilePositions ctx tol none now internal broker = .ok r ∧ Nets internal broker r) ↔
      Priced internal broker ∧ RowsTell internal broker := by
  rw [rowsTell_iff]
  constructor
  · rintro ⟨r, h, hnets⟩
    refine ⟨priced_of_reconciled h, fun slot hodd => ?_, fun hsums slot hodd => ?_⟩
    · by_contra hne
      exact hodd ((names_iff h slot).mp (hnets.named slot hne))
    · obtain ⟨d, hd, hnames⟩ := hodd.named h
      have hquiet := hnets.quiet hsums d hd
      rw [hnames.kind] at hquiet
      cases hquiet
  · rintro ⟨hpriced, hequal, hnone⟩
    obtain ⟨r, h⟩ : ∃ r, reconcilePositions ctx tol none now internal broker = .ok r := by
      rw [reconcilePositions]
      dsimp only
      rw [findPositions_fresh hpriced]
      exact ⟨_, rfl⟩
    refine ⟨r, h, fun hsums d hd => ?_, fun slot hne => (names_iff h slot).mpr ?_⟩
    · by_contra hkind
      obtain ⟨slot, -, hodd⟩ := odd_of_mem h hd (by simpa using hkind)
      exact hnone hsums slot hodd
    · by_contra hodd
      exact hne (hequal slot hodd)

/-- One row a slot on each side, and none that is closed. -/
theorem rowsTell_of_single (hinternal : ∀ slot, (rowsOf slot internal).length ≤ 1)
    (hbroker : ∀ slot, (rowsOf slot broker).length ≤ 1) (hopen : ∀ x ∈ internal ++ broker, x.quantity ≠ 0) :
    RowsTell internal broker := by
  have hshort : ∀ l : List PositionObservation, l.length ≤ 1 → l = [] ∨ ∃ x, l = [x]
    | [], _ => .inl rfl
    | [x], _ => .inr ⟨x, rfl⟩
    | _ :: _ :: _, h => absurd h (by simp)
  have hnet : ∀ slot, Odd internal broker slot ↔ netQuantity slot internal ≠ netQuantity slot broker := by
    intro slot
    have hmem : ∀ {l : List PositionObservation} {x}, rowsOf slot l = [x] → x ∈ l := fun h =>
      List.mem_of_mem_filter (h ▸ List.mem_singleton_self _ : _ ∈ rowsOf slot _)
    unfold Odd netQuantity
    rcases hshort _ (hinternal slot) with hi | ⟨x, hi⟩ <;> rcases hshort _ (hbroker slot) with hb | ⟨b, hb⟩
    · simp [hi, hb]
    · have hne := hopen b (List.mem_append_right _ (hmem hb))
      simp [hi, hb, hne.symm]
    · have hne := hopen x (List.mem_append_left _ (hmem hi))
      simp [hi, hb, hne]
    · simp [hi, hb]
  refine rowsTell_iff.mpr ⟨fun slot hodd => ?_, fun hsums slot hodd => (hnet slot).mp hodd (hsums slot)⟩
  by_contra hne
  exact hodd ((hnet slot).mpr hne)

end

/-- A position of 5 or 10 in one instrument. -/
def samplePosition (quantity : ℤ) : PositionObservation where
  accountId := some ⟨1⟩
  instrumentId := some ⟨2⟩
  quantity := quantity
  side := "LONG"
  averagePrice := none

/-- Two strategy runs hold 5 each, the broker reports 10. -/
theorem not_nets_two_runs : ¬ ∀ (ctx : MatchContext) (tol : Tolerance) (now : DateTime)
    (internal broker : List PositionObservation),
    ∃ r, reconcilePositions ctx tol none now internal broker = .ok r ∧ Nets internal broker r := by
  intro h
  obtain ⟨r, hr, hnets⟩ := h ⟨⟨0⟩, ⟨1⟩, "zerodha", "PAPER"⟩ {} ⟨2026, 8, 12, 9, 30, 0, 0, some 0⟩
    [samplePosition 5, samplePosition 5] [samplePosition 10]
  have hodd : Odd [samplePosition 5, samplePosition 5] [samplePosition 10] (samplePosition 5).slot := by
    refine .inr ⟨samplePosition 5, ?_, ?_⟩ <;> decide
  obtain ⟨d, hd, hnames⟩ := hodd.named hr
  have hsums : ∀ slot, netQuantity slot [samplePosition 5, samplePosition 5] = netQuantity slot [samplePosition 10] := by
    intro slot
    by_cases hslot : (samplePosition 5).slot = slot
    · subst hslot
      decide
    · have hslot' : (samplePosition 10).slot ≠ slot := hslot
      simp [netQuantity, rowsOf, hslot, hslot']
  have hquiet := hnets.quiet hsums d hd
  rw [hnames.kind] at hquiet
  cases hquiet

end AlphaAlgo.Reconciliation
