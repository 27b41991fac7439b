import Mathlib.Data.List.Forall2

/-!
# Loop — loops that can raise

`Loop.run step s l` takes the steps of `l` in order from the state `s`, up to the first that raises; `raiseIf` is a check.

* `run_append`, `run_prefix`, `run_flatMap`: a run is the run of a prefix and then of the rest, or of blocks of steps.
* `invariant`, `invariant_guarded`, `invariant_rest`: what every step keeps holds after every run; the steps may have to
  meet a guard, and the invariant may speak of the steps to come.
* `run_eq_error`: a run that raises, by the step that does.
* `never_raises`: an error that no step raises from a good state is not raised by a run.
* `run_map`: a map that commutes with the steps commutes with the run.
* `Agree`, `run_agree`: two loops whose steps agree have runs that agree.
-/

namespace AlphaAlgo.Loop

universe u v

variable {ε : Type u} {σ τ : Type v}

/-- A computation in two parts that returns. -/
theorem bind_eq_ok {α β : Type v} {x : Except ε α} {f : α → Except ε β} {b : β} :
    (x >>= f) = .ok b ↔ ∃ a, x = .ok a ∧ f a = .ok b := by
  cases x with
  | error e => simp [bind, Except.bind]
  | ok a => simp [bind, Except.bind]

/-- A function that returns on every element of a list. -/
theorem mapM_ok {α β : Type v} {f : α → Except ε β} {g : α → β} : ∀ {l : List α}, (∀ x ∈ l, f x = .ok (g x)) →
    l.mapM f = .ok (l.map g)
  | [], _ => rfl
  | x :: l, h => by
    rw [List.mapM_cons, h x List.mem_cons_self, List.map_cons]
    show (l.mapM f).bind _ = _
    rw [mapM_ok fun y hy => h y (List.mem_cons_of_mem _ hy)]
    rfl

/-- What a function returns on the elements of a list. -/
theorem mapM_eq_ok_iff {α β : Type v} {f : α → Except ε β} : ∀ {l : List α} {l' : List β},
    l.mapM f = .ok l' ↔ List.Forall₂ (fun a b => f a = .ok b) l l'
  | [], l' => by
    rw [List.forall₂_nil_left_iff]
    exact ⟨fun h => (Except.ok.inj h).symm, fun h => congrArg Except.ok h.symm⟩
  | a :: l, l' => by
    rw [List.mapM_cons, bind_eq_ok, List.forall₂_cons_left_iff]
    constructor
    · rintro ⟨b, hb, h⟩
      obtain ⟨bs, hbs, h⟩ := bind_eq_ok.mp h
      exact ⟨b, bs, hb, mapM_eq_ok_iff.mp hbs, (Except.ok.inj h).symm⟩
    · rintro ⟨b, bs, hb, hbs, rfl⟩
      exact ⟨b, hb, bind_eq_ok.mpr ⟨bs, mapM_eq_ok_iff.mpr hbs, rfl⟩⟩

/-- What a function returns on the elements of a list, place by place. -/
theorem mapM_eq_ok {α β : Type v} {f : α → Except ε β} {l : List α} {l' : List β} (h : l.mapM f = .ok l') :
    l'.length = l.length ∧ ∀ (i : ℕ) a b, l[i]? = some a → l'[i]? = some b → f a = .ok b := by
  have hall := mapM_eq_ok_iff.mp h
  refine ⟨hall.length_eq.symm, fun i a b ha hb => ?_⟩
  obtain ⟨hi, rfl⟩ := List.getElem?_eq_some_iff.mp ha
  obtain ⟨hi', rfl⟩ := List.getElem?_eq_some_iff.mp hb
  exact hall.get hi hi'

/-- A function that returns on each element returns on the list. -/
theorem exists_mapM {α β : Type v} {f : α → Except ε β} : ∀ {l : List α}, (∀ x ∈ l, ∃ y, f x = .ok y) →
    ∃ l', l.mapM f = .ok l'
  | [], _ => ⟨[], rfl⟩
  | x :: l, h => by
    obtain ⟨y, hy⟩ := h x List.mem_cons_self
    obtain ⟨l', hl'⟩ := exists_mapM fun z hz => h z (List.mem_cons_of_mem x hz)
    refine ⟨y :: l', ?_⟩
    rw [List.mapM_cons, hy]
    show (l.mapM f).bind _ = _
    rw [hl']
    rfl

/-- A computation in two parts that raises. -/
theorem bind_eq_error {α β : Type v} {x : Except ε α} {f : α → Except ε β} {e : ε} :
    (x >>= f) = .error e ↔ x = .error e ∨ ∃ a, x = .ok a ∧ f a = .error e := by
  cases x with
  | error e' => simp [bind, Except.bind]
  | ok a => simp [bind, Except.bind]

theorem map_eq_ok {α β : Type v} {x : Except ε α} {f : α → β} {b : β} : x.map f = .ok b ↔ ∃ a, x = .ok a ∧ f a = b := by
  cases x with
  | error e => simp [Except.map]
  | ok a => simp [Except.map]

theorem mapError_eq_ok {ε' : Type*} {α : Type v} {x : Except ε α} {f : ε → ε'} {a : α} :
    x.mapError f = .ok a ↔ x = .ok a := by
  cases x with
  | error e => simp [Except.mapError]
  | ok b => simp [Except.mapError]

theorem map_ne_error {α β : Type v} {x : Except ε α} {f : α → β} {e : ε} (h : x ≠ .error e) : x.map f ≠ .error e := by
  cases x with
  | error e' => exact fun heq => h (congrArg _ (Except.error.inj heq))
  | ok a => exact fun heq => by cases heq

/-- A check: `e` is raised where `p` holds. -/
def raiseIf (p : Prop) [Decidable p] (e : ε) : Except ε Unit := if p then .error e else .ok ()

@[simp] theorem raiseIf_eq_ok {p : Prop} [Decidable p] {e : ε} {u : Unit} : raiseIf p e = .ok u ↔ ¬p := by
  unfold raiseIf
  split_ifs with h
  · simp [h]
  · simp [h]

/-- A value whose constructor runs a check. -/
def accept {α : Type v} (check : Except ε Unit) (make : check = .ok () → α) : Except ε α :=
  match check, make with
  | .ok (), make => .ok (make rfl)
  | .error e, _ => .error e

theorem accept_of_ok {α : Type v} {check : Except ε Unit} (make : check = .ok () → α) (h : check = .ok ()) :
    accept check make = .ok (make h) := by
  subst h
  rfl

theorem accept_eq_ok {α : Type v} {check : Except ε Unit} {make : check = .ok () → α} {a : α} :
    accept check make = .ok a ↔ ∃ h : check = .ok (), make h = a := by
  match check, make with
  | .ok (), make => simp [accept]
  | .error e, make => simp [accept]

theorem bind_ne_error {α β : Type v} {x : Except ε α} {f : α → Except ε β} {e : ε} (hx : x ≠ .error e)
    (hf : ∀ a, x = .ok a → f a ≠ .error e) : (x >>= f) ≠ .error e := by
  intro h
  rcases bind_eq_error.mp h with h | ⟨a, ha, h⟩
  · exact hx h
  · exact hf a ha h

theorem raiseIf_ne_error {p : Prop} [Decidable p] {e e' : ε} (h : e ≠ e') : raiseIf p e ≠ .error e' := by
  unfold raiseIf
  split_ifs
  · exact fun heq => h (Except.error.inj heq)
  · exact fun heq => by cases heq

section Run

variable {α : Type*} (step : σ → α → Except ε σ)

/-- The state after the steps of `l`, or the error of the first that raises. -/
def run : σ → List α → Except ε σ
  | s, [] => .ok s
  | s, a :: l => step s a >>= fun s' => run s' l

@[simp] theorem run_nil (s : σ) : run step s [] = .ok s := rfl

theorem run_cons (s : σ) (a : α) (l : List α) : run step s (a :: l) = step s a >>= fun s' => run step s' l := rfl

variable {step}

theorem run_cons_ok {s t : σ} {a : α} {l : List α} :
    run step s (a :: l) = .ok t ↔ ∃ s', step s a = .ok s' ∧ run step s' l = .ok t := bind_eq_ok

/-- A run is the run of a prefix and then of the rest. -/
theorem run_append (s : σ) (l l' : List α) : run step s (l ++ l') = run step s l >>= fun s' => run step s' l' := by
  induction l generalizing s with
  | nil => rfl
  | cons a l ih =>
    rw [List.cons_append, run_cons, run_cons]
    cases step s a with
    | error e => rfl
    | ok s' => exact ih s'

theorem run_append_ok {s t : σ} {l l' : List α} :
    run step s (l ++ l') = .ok t ↔ ∃ s', run step s l = .ok s' ∧ run step s' l' = .ok t := by
  rw [run_append]
  exact bind_eq_ok

/-- The step that raises. -/
theorem run_eq_error {s : σ} {l : List α} {e : ε} :
    run step s l = .error e ↔ ∃ l' a rest t, l = l' ++ a :: rest ∧ run step s l' = .ok t ∧ step t a = .error e := by
  constructor
  · intro h
    induction l generalizing s with
    | nil => cases h
    | cons a l ih =>
      rcases bind_eq_error.mp h with hnow | ⟨s', hs', hlater⟩
      · exact ⟨[], a, l, s, rfl, rfl, hnow⟩
      · obtain ⟨l', b, rest, t, rfl, ht, hb⟩ := ih hlater
        exact ⟨a :: l', b, rest, t, rfl, run_cons_ok.mpr ⟨s', hs', ht⟩, hb⟩
  · rintro ⟨l', a, rest, t, rfl, ht, ha⟩
    rw [run_append, ht]
    show run step t (a :: rest) = _
    exact bind_eq_error.mpr (Or.inl ha)

/-- A run of blocks of steps takes a block at a time. -/
theorem run_flatMap {β : Type*} (f : β → List α) (s : σ) (l : List β) :
    run step s (l.flatMap f) = run (fun s b => run step s (f b)) s l := by
  induction l generalizing s with
  | nil => rfl
  | cons b l ih =>
    rw [List.flatMap_cons, run_append, run_cons]
    cases run step s (f b) with
    | error e => rfl
    | ok s' => exact ih s'

/-- A run that ends has been through each of its prefixes. -/
theorem run_prefix {s t : σ} {l l' : List α} (h : run step s l = .ok t) (hl : l' <+: l) :
    ∃ s', run step s l' = .ok s' := by
  obtain ⟨r, rfl⟩ := hl
  obtain ⟨s', hs', -⟩ := run_append_ok.mp h
  exact ⟨s', hs'⟩

/-- **What every step keeps holds after every run.** -/
theorem invariant {I : σ → Prop} {l : List α} (hstep : ∀ s a s', a ∈ l → I s → step s a = .ok s' → I s')
    {s t : σ} (hs : I s) (h : run step s l = .ok t) : I t := by
  induction l generalizing s with
  | nil =>
    cases h
    exact hs
  | cons a l ih =>
    obtain ⟨s', hs', hrest⟩ := run_cons_ok.mp h
    have hkept : I s' := hstep s a s' List.mem_cons_self hs hs'
    exact ih (fun u b u' hb => hstep u b u' (List.mem_cons_of_mem _ hb)) hkept hrest

/-- **The steps may have to meet a guard** in the state that they are taken in. -/
theorem invariant_guarded {I : σ → Prop} {G : σ → α → Prop}
    (hstep : ∀ s a s', I s → G s a → step s a = .ok s' → I s') : ∀ {l : List α} {s t : σ},
    (∀ l' a u, l' ++ [a] <+: l → run step s l' = .ok u → G u a) → I s → run step s l = .ok t → I t
  | [], s, t, _, hs, h => by
    cases h
    exact hs
  | a :: l, s, t, hguard, hs, h => by
    obtain ⟨s', hs', hrest⟩ := run_cons_ok.mp h
    have hnow : G s a := hguard [] a s (List.cons_prefix_cons.mpr ⟨rfl, List.nil_prefix⟩) rfl
    refine invariant_guarded hstep (fun l' b u hl' hu => ?_) (hstep s a s' hs hnow hs') hrest
    exact hguard (a :: l') b u (List.cons_prefix_cons.mpr ⟨rfl, hl'⟩) (run_cons_ok.mpr ⟨s', hs', hu⟩)

/-- The invariant may speak of the steps to come. -/
theorem invariant_rest {I : σ → List α → Prop}
    (hstep : ∀ s a rest s', I s (a :: rest) → step s a = .ok s' → I s' rest) : ∀ {l rest : List α} {s t : σ},
    I s (l ++ rest) → run step s l = .ok t → I t rest
  | [], rest, s, t, hs, h => by
    cases h
    exact hs
  | a :: l, rest, s, t, hs, h => by
    obtain ⟨s', hs', hrest⟩ := run_cons_ok.mp h
    exact invariant_rest hstep (hstep s a (l ++ rest) s' hs hs') hrest

/-- **An error that no step raises from a good state is not raised.** -/
theorem never_raises {I : σ → Prop} {e : ε} {l : List α} (hstep : ∀ s a s', I s → step s a = .ok s' → I s')
    (herror : ∀ s a, I s → step s a ≠ .error e) {s : σ} (hs : I s) : run step s l ≠ .error e := by
  induction l generalizing s with
  | nil => exact fun h => by cases h
  | cons a l ih =>
    intro h
    rcases bind_eq_error.mp h with hnow | ⟨s', hs', hlater⟩
    · exact herror s a hs hnow
    · exact ih (hstep s a s' hs hs') hlater

end Run

/-! ### Two loops -/

/-- **A step that commutes with `f`** makes a run that does. -/
theorem run_map {α : Type*} {step : σ → α → Except ε σ} {step' : τ → α → Except ε τ} {f : σ → τ} {l : List α}
    (hstep : ∀ s, ∀ a ∈ l, step' (f s) a = (step s a).map f) (s : σ) :
    run step' (f s) l = (run step s l).map f := by
  induction l generalizing s with
  | nil => rfl
  | cons a l ih =>
    rw [run_cons, run_cons, hstep s a List.mem_cons_self]
    cases step s a with
    | error e => rfl
    | ok s' => exact ih (fun t b hb => hstep t b (List.mem_cons_of_mem _ hb)) s'

/-- Two computations agree: both raise, or both return and the results are related. -/
def Agree {ε' : Type*} (R : σ → τ → Prop) (x : Except ε σ) (y : Except ε' τ) : Prop :=
  match x, y with
  | .ok s, .ok t => R s t
  | .error _, .error _ => True
  | _, _ => False

section Agree

variable {ε' : Type u} {R : σ → τ → Prop}

theorem Agree.of_ok {x : Except ε σ} {y : Except ε' τ} {s : σ} (h : Agree R x y) (hx : x = .ok s) :
    ∃ t, y = .ok t ∧ R s t := by
  subst hx
  cases y with
  | error e => exact h.elim
  | ok t => exact ⟨t, rfl, h⟩

theorem Agree.mono {R' : σ → τ → Prop} {x : Except ε σ} {y : Except ε' τ} (h : Agree R x y)
    (hR : ∀ s t, R s t → R' s t) : Agree R' x y := by
  cases x <;> cases y
  · trivial
  · exact h.elim
  · exact h.elim
  · exact hR _ _ h

/-- Agreement of the first parts, and of the second ones on related results. -/
theorem Agree.bind {σ' τ' : Type v} {R' : σ' → τ' → Prop} {x : Except ε σ} {y : Except ε' τ}
    {f : σ → Except ε σ'} {g : τ → Except ε' τ'} (h : Agree R x y) (hfg : ∀ s t, R s t → Agree R' (f s) (g t)) :
    Agree R' (x >>= f) (y >>= g) := by
  cases x <;> cases y
  · trivial
  · exact h.elim
  · exact h.elim
  · exact hfg _ _ h

/-- **Loops whose steps agree have runs that agree**, when their lists of steps correspond. -/
theorem run_agree {α β : Type*} {step : σ → α → Except ε σ} {step' : τ → β → Except ε' τ} {Q : α → β → Prop}
    (hstep : ∀ s t a b, R s t → Q a b → Agree R (step s a) (step' t b)) {l : List α} {l' : List β}
    (hl : List.Forall₂ Q l l') {s : σ} {t : τ} (hst : R s t) : Agree R (run step s l) (run step' t l') := by
  induction hl generalizing s t with
  | nil => exact hst
  | cons hab _ ih => exact Agree.bind (hstep s t _ _ hst hab) fun s' t' hst' => ih hst'

end Agree

end AlphaAlgo.Loop
