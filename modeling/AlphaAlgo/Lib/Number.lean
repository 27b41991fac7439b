import AlphaAlgo.Lib.Decimal

/-!
# Number — decimal values with infinities and NaN

`Num` is the value of a Python `Decimal`: a finite number, an infinity, or a NaN.  The order of two numbers is asked
with `lt?` and `le?`, which signal on a NaN as the comparison operators of Python do; `a < b` and `a ≤ b` say that the
question is answered with yes.  Arithmetic is that of a context: an exact result is rounded (`Ctx.fix`), and the
operations without a result signal.

* `le_of_lt?_false`, `lt_of_le?_false`: what a comparison that is answered with no says.
* `neg_le_neg`: negation reverses the order, rounding included.
-/

namespace AlphaAlgo

/-- What the arithmetic of a context signals. -/
inductive ArithError where
  | invalidOperation
  | divisionByZero
deriving DecidableEq, Repr

/-- The value of a decimal. -/
inductive Num where
  | fin (q : ℚ)
  | inf (neg : Bool)
  | nan
deriving DecidableEq

namespace Num

/-- The place of a number on the extended line; a NaN has none. -/
def place : Num → Option (WithBot (WithTop ℚ))
  | fin q => some ((q : WithTop ℚ) : WithBot (WithTop ℚ))
  | inf false => some ⊤
  | inf true => some ⊥
  | nan => none

/-! ### Comparison -/

/-- `a < b`. -/
def lt? (a b : Num) : Except ArithError Bool :=
  match a.place, b.place with
  | some x, some y => .ok (decide (x < y))
  | _, _ => .error .invalidOperation

/-- `a <= b`. -/
def le? (a b : Num) : Except ArithError Bool :=
  match a.place, b.place with
  | some x, some y => .ok (decide (x ≤ y))
  | _, _ => .error .invalidOperation

instance : LT Num := ⟨fun a b => a.lt? b = .ok true⟩

instance : LE Num := ⟨fun a b => a.le? b = .ok true⟩

instance (a b : Num) : Decidable (a < b) := inferInstanceAs (Decidable (a.lt? b = .ok true))

instance (a b : Num) : Decidable (a ≤ b) := inferInstanceAs (Decidable (a.le? b = .ok true))

theorem lt_iff {a b : Num} : a < b ↔ ∃ x y, a.place = some x ∧ b.place = some y ∧ x < y := by
  show a.lt? b = _ ↔ _
  unfold lt?
  cases a.place <;> cases b.place <;> simp

theorem le_iff {a b : Num} : a ≤ b ↔ ∃ x y, a.place = some x ∧ b.place = some y ∧ x ≤ y := by
  show a.le? b = _ ↔ _
  unfold le?
  cases a.place <;> cases b.place <;> simp

/-- A comparison is answered when both numbers have a place. -/
theorem lt?_of_place {a b : Num} {x y : WithBot (WithTop ℚ)} (ha : a.place = some x) (hb : b.place = some y) :
    a.lt? b = .ok (decide (x < y)) := by
  simp only [lt?, ha, hb]

theorem le?_of_place {a b : Num} {x y : WithBot (WithTop ℚ)} (ha : a.place = some x) (hb : b.place = some y) :
    a.le? b = .ok (decide (x ≤ y)) := by
  simp only [le?, ha, hb]

theorem le_of_lt?_false {a b : Num} (h : a.lt? b = .ok false) : b ≤ a := by
  rw [le_iff]
  unfold lt? at h
  cases ha : a.place with
  | none => simp [ha] at h
  | some x =>
    cases hb : b.place with
    | none => simp [ha, hb] at h
    | some y =>
      simp only [ha, hb, Except.ok.injEq, decide_eq_false_iff_not, not_lt] at h
      exact ⟨y, x, rfl, rfl, h⟩

theorem lt_of_le?_false {a b : Num} (h : a.le? b = .ok false) : b < a := by
  rw [lt_iff]
  unfold le? at h
  cases ha : a.place with
  | none => simp [ha] at h
  | some x =>
    cases hb : b.place with
    | none => simp [ha, hb] at h
    | some y =>
      simp only [ha, hb, Except.ok.injEq, decide_eq_false_iff_not, not_le] at h
      exact ⟨y, x, rfl, rfl, h⟩

theorem lt?_false_of_le {a b : Num} (h : b ≤ a) : a.lt? b = .ok false := by
  obtain ⟨y, x, hb, ha, hle⟩ := le_iff.mp h
  rw [lt?_of_place ha hb, decide_eq_false (not_lt.mpr hle)]

theorem le?_false_of_lt {a b : Num} (h : b < a) : a.le? b = .ok false := by
  obtain ⟨y, x, hb, ha, hlt⟩ := lt_iff.mp h
  rw [le?_of_place ha hb, decide_eq_false (not_le.mpr hlt)]

theorem le_trans {a b c : Num} (h : a ≤ b) (h' : b ≤ c) : a ≤ c := by
  obtain ⟨x, y, ha, hb, hxy⟩ := le_iff.mp h
  obtain ⟨y', z, hb', hc, hyz⟩ := le_iff.mp h'
  rw [hb] at hb'
  cases hb'
  exact le_iff.mpr ⟨x, z, ha, hc, hxy.trans hyz⟩

theorem lt_of_lt_of_le {a b c : Num} (h : a < b) (h' : b ≤ c) : a < c := by
  obtain ⟨x, y, ha, hb, hxy⟩ := lt_iff.mp h
  obtain ⟨y', z, hb', hc, hyz⟩ := le_iff.mp h'
  rw [hb] at hb'
  cases hb'
  exact lt_iff.mpr ⟨x, z, ha, hc, hxy.trans_le hyz⟩

theorem lt_of_le_of_lt {a b c : Num} (h : a ≤ b) (h' : b < c) : a < c := by
  obtain ⟨x, y, ha, hb, hxy⟩ := le_iff.mp h
  obtain ⟨y', z, hb', hc, hyz⟩ := lt_iff.mp h'
  rw [hb] at hb'
  cases hb'
  exact lt_iff.mpr ⟨x, z, ha, hc, hxy.trans_lt hyz⟩

theorem fin_le_fin {a b : ℚ} : fin a ≤ fin b ↔ a ≤ b := by
  rw [le_iff]
  constructor
  · rintro ⟨x, y, hx, hy, hxy⟩
    cases hx
    cases hy
    exact WithTop.coe_le_coe.mp (WithBot.coe_le_coe.mp hxy)
  · intro h
    exact ⟨_, _, rfl, rfl, WithBot.coe_le_coe.mpr (WithTop.coe_le_coe.mpr h)⟩

theorem fin_lt_fin {a b : ℚ} : fin a < fin b ↔ a < b := by
  rw [lt_iff]
  constructor
  · rintro ⟨x, y, hx, hy, hxy⟩
    cases hx
    cases hy
    exact WithTop.coe_lt_coe.mp (WithBot.coe_lt_coe.mp hxy)
  · intro h
    exact ⟨_, _, rfl, rfl, WithBot.coe_lt_coe.mpr (WithTop.coe_lt_coe.mpr h)⟩

/-! ### Arithmetic of a context -/

section Arithmetic

variable (c : Ctx)

/-- `-a`. -/
def neg : Num → Num
  | fin q => fin (c.fix (-q))
  | inf s => inf (!s)
  | nan => nan

/-- `abs(a)`. -/
def abs : Num → Num
  | fin q => fin (c.fix |q|)
  | inf _ => inf false
  | nan => nan

/-- `a + b`; opposite infinities have no sum. -/
def add? : Num → Num → Except ArithError Num
  | nan, _ => .ok nan
  | _, nan => .ok nan
  | fin a, fin b => .ok (fin (c.fix (a + b)))
  | inf s, inf t => if s = t then .ok (inf s) else .error .invalidOperation
  | inf s, fin _ => .ok (inf s)
  | fin _, inf t => .ok (inf t)

/-- `a - b`. -/
def sub? : Num → Num → Except ArithError Num
  | nan, _ => .ok nan
  | _, nan => .ok nan
  | fin a, fin b => .ok (fin (c.fix (a - b)))
  | inf s, inf t => if s = t then .error .invalidOperation else .ok (inf s)
  | inf s, fin _ => .ok (inf s)
  | fin _, inf t => .ok (inf (!t))

/-- `a * b`; an infinity has no product with zero. -/
def mul? : Num → Num → Except ArithError Num
  | nan, _ => .ok nan
  | _, nan => .ok nan
  | fin a, fin b => .ok (fin (c.fix (a * b)))
  | inf s, inf t => .ok (inf (s != t))
  | inf s, fin b => if b = 0 then .error .invalidOperation else .ok (inf (s != decide (b < 0)))
  | fin a, inf t => if a = 0 then .error .invalidOperation else .ok (inf (decide (a < 0) != t))

/-- `a / b`. -/
def div? : Num → Num → Except ArithError Num
  | nan, _ => .ok nan
  | _, nan => .ok nan
  | fin a, fin b =>
    if b ≠ 0 then .ok (fin (c.fix (a / b)))
    else if a = 0 then .error .invalidOperation else .error .divisionByZero
  | inf _, inf _ => .error .invalidOperation
  | inf s, fin b => .ok (inf (s != decide (b < 0)))
  | fin _, inf _ => .ok (fin 0)

/-- `max(a, b)`. -/
def max? (a b : Num) : Except ArithError Num := do
  if ← a.lt? b then .ok b else .ok a

variable {c}

/-- Negation reverses the order. -/
theorem neg_le_neg {p : ℕ} (hp : 0 < p) {a b : Num} (h : a ≤ b) : b.neg ⟨some p⟩ ≤ a.neg ⟨some p⟩ := by
  cases a with
  | nan => obtain ⟨x, y, hx, -⟩ := le_iff.mp h; cases hx
  | fin q =>
    cases b with
    | nan => obtain ⟨x, y, -, hy, -⟩ := le_iff.mp h; cases hy
    | fin r => exact fin_le_fin.mpr (Ctx.fix_mono hp (by linarith [fin_le_fin.mp h]))
    | inf t =>
      cases t with
      | false => exact le_iff.mpr ⟨_, _, rfl, rfl, bot_le⟩
      | true => cases h
  | inf s =>
    cases b with
    | nan => obtain ⟨x, y, -, hy, -⟩ := le_iff.mp h; cases hy
    | fin r =>
      cases s with
      | false => cases h
      | true => exact le_iff.mpr ⟨_, _, rfl, rfl, le_top⟩
    | inf t =>
      cases s <;> cases t
      · exact le_iff.mpr ⟨_, _, rfl, rfl, le_rfl⟩
      · cases h
      · exact le_iff.mpr ⟨_, _, rfl, rfl, bot_le⟩
      · exact le_iff.mpr ⟨_, _, rfl, rfl, le_rfl⟩

end Arithmetic

end Num

/-- A decimal as it is written; the payload of a NaN is not kept. -/
inductive Decimal where
  | finite (d : Dec)
  | infinity (neg : Bool)
  | nan
deriving DecidableEq

namespace Decimal

def num : Decimal → Num
  | finite d => .fin d.val
  | infinity neg => .inf neg
  | nan => .nan

def str : Decimal → String
  | finite d => d.str
  | infinity neg => if neg then "-Infinity" else "Infinity"
  | nan => "NaN"

end Decimal

end AlphaAlgo
