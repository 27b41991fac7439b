import AlphaAlgo.Lib.Pool

/-!
# Outbox — commit, then announce

The calls of a pool commit records to a shared store and announce them.  A call commits a record whose key is not in the
store yet, remembers it, and announces what it remembers; it may also forget it.  `Outbox.Move` says what one step may
do, `Outbox.Inv` that the records that are announced or remembered are committed and have different keys.

* `Outbox.Inv.step`: such a step keeps the invariant.

A commit can fail in two ways for the caller: nothing is stored, or the answer is lost (`Commit`).
-/

namespace AlphaAlgo

/-- What is committed and announced, what a call has committed and not announced yet, and the key of a record. -/
structure Outbox (σ γ ρ κ : Type*) where
  committed : σ → List ρ
  announced : σ → List ρ
  pending : γ → Option ρ
  key : ρ → κ

namespace Outbox

variable {σ γ ρ κ : Type*}

/-- A step from `s` and `c` to `s'` and `c'`. -/
inductive Move (o : Outbox σ γ ρ κ) (s s' : σ) (c c' : γ) : Prop
  | quiet (grows : o.committed s ⊆ o.committed s') (silent : o.announced s' = o.announced s)
      (same : o.pending c' = o.pending c)
  | drop (grows : o.committed s ⊆ o.committed s') (silent : o.announced s' = o.announced s)
      (dropped : o.pending c' = none)
  | commit (r : ρ) (grows : o.committed s ⊆ o.committed s') (fresh : o.key r ∉ (o.committed s).map o.key)
      (stored : r ∈ o.committed s') (silent : o.announced s' = o.announced s) (nothing : o.pending c = none)
      (remembered : o.pending c' = some r)
  | announce (r : ρ) (grows : o.committed s ⊆ o.committed s') (remembered : o.pending c = some r)
      (told : o.announced s' = o.announced s ++ [r]) (done : o.pending c' = none)

/-- The records that are announced or remembered. -/
def records (o : Outbox σ γ ρ κ) (p : Pool σ γ) : List ρ := o.announced p.shared ++ p.calls.filterMap o.pending

structure Inv (o : Outbox σ γ ρ κ) (p : Pool σ γ) : Prop where
  once : ((o.records p).map o.key).Nodup
  stored : ∀ r ∈ o.records p, r ∈ o.committed p.shared

variable {o : Outbox σ γ ρ κ} {next : σ → γ → σ × γ} {p : Pool σ γ} {i : ℕ} {c : γ}

theorem inv_start (hannounced : o.announced p.shared = []) (hpending : ∀ c ∈ p.calls, o.pending c = none) :
    o.Inv p := by
  have hnil : o.records p = [] := by
    rw [records, hannounced, List.nil_append, List.filterMap_eq_nil_iff]
    exact hpending
  exact ⟨by rw [hnil]; exact List.nodup_nil, by rw [hnil]; simp⟩

/-- The records of a call and of the others. -/
theorem filterMap_perm_others {l : List γ} (g : γ → Option ρ) (h : l[i]? = some c) :
    (l.filterMap g).Perm ((g c).toList ++ (l.eraseIdx i).filterMap g) := by
  obtain ⟨hi, rfl⟩ := List.getElem?_eq_some_iff.mp h
  have hperm := ((List.getElem_cons_eraseIdx_perm hi).filterMap g).symm
  cases hg : g l[i] with
  | none => rwa [List.filterMap_cons_none hg] at hperm
  | some r => rwa [List.filterMap_cons_some hg] at hperm

/-- The records after a step: the announced ones, those of the call and those of the others, which stay. -/
theorem records_step (h : p.calls[i]? = some c) : (o.records (p.step next i)).Perm
    (o.announced (next p.shared c).1 ++ ((o.pending (next p.shared c).2).toList ++
      (p.calls.eraseIdx i).filterMap o.pending)) := by
  obtain ⟨hi, -⟩ := List.getElem?_eq_some_iff.mp h
  have hset : (p.calls.set i (next p.shared c).2)[i]? = some (next p.shared c).2 := by rw [List.getElem?_set_self hi]
  rw [records, Pool.step_of_some h]
  refine List.Perm.append_left _ ?_
  simpa only [List.eraseIdx_set_eq] using filterMap_perm_others o.pending hset

/-- **A step of the calls keeps the invariant.** -/
theorem Inv.step (hinv : o.Inv p)
    (hmove : ∀ c ∈ p.calls[i]?, o.Move p.shared (next p.shared c).1 c (next p.shared c).2) :
    o.Inv (p.step next i) := by
  cases hc : p.calls[i]? with
  | none => rwa [Pool.step_of_none hc]
  | some c =>
    have hbefore : (o.records p).Perm
        (o.announced p.shared ++ ((o.pending c).toList ++ (p.calls.eraseIdx i).filterMap o.pending)) :=
      List.Perm.append_left _ (filterMap_perm_others o.pending hc)
    have hafter : (o.records (p.step next i)).Perm (o.announced (next p.shared c).1 ++
        ((o.pending (next p.shared c).2).toList ++ (p.calls.eraseIdx i).filterMap o.pending)) := records_step hc
    have hshared : (p.step next i).shared = (next p.shared c).1 := by rw [Pool.step_of_some hc]
    have honce := (hbefore.map o.key).nodup_iff.mp hinv.once
    have hstored : ∀ r ∈ o.announced p.shared ++ ((o.pending c).toList ++ (p.calls.eraseIdx i).filterMap o.pending),
        r ∈ o.committed p.shared := fun r hr => hinv.stored r (hbefore.mem_iff.mpr hr)
    -- it is enough to look at the three parts
    suffices hparts : ((o.announced (next p.shared c).1 ++ ((o.pending (next p.shared c).2).toList ++
        (p.calls.eraseIdx i).filterMap o.pending)).map o.key).Nodup ∧
        ∀ r ∈ o.announced (next p.shared c).1 ++ ((o.pending (next p.shared c).2).toList ++
          (p.calls.eraseIdx i).filterMap o.pending), r ∈ o.committed (next p.shared c).1 by
      refine ⟨(hafter.map o.key).nodup_iff.mpr hparts.1, fun r hr => ?_⟩
      rw [hshared]
      exact hparts.2 r (hafter.mem_iff.mp hr)
    rcases hmove c hc with ⟨grows, silent, same⟩ | ⟨grows, silent, dropped⟩ |
      ⟨r, grows, fresh, stored, silent, nothing, remembered⟩ | ⟨r, grows, remembered, told, done⟩
    · rw [silent, same]
      exact ⟨honce, fun r hr => grows (hstored r hr)⟩
    · rw [silent, dropped]
      have hsub : (o.announced p.shared ++ ((none : Option ρ).toList ++ (p.calls.eraseIdx i).filterMap o.pending)).Sublist
          (o.announced p.shared ++ ((o.pending c).toList ++ (p.calls.eraseIdx i).filterMap o.pending)) :=
        List.Sublist.append_left (List.sublist_append_right _ _) _
      exact ⟨honce.sublist (hsub.map o.key), fun r hr => grows (hstored r (hsub.subset hr))⟩
    · rw [silent, remembered]
      rw [nothing] at honce hstored
      have hperm : (o.announced p.shared ++ ((some r).toList ++ (p.calls.eraseIdx i).filterMap o.pending)).Perm
          (r :: (o.announced p.shared ++ ((none : Option ρ).toList ++ (p.calls.eraseIdx i).filterMap o.pending))) :=
        List.perm_middle
      refine ⟨(hperm.map o.key).nodup_iff.mpr ?_, fun r' hr' => ?_⟩
      · rw [List.map_cons, List.nodup_cons]
        refine ⟨fun hmem => fresh ?_, honce⟩
        obtain ⟨r', hr', hkey⟩ := List.mem_map.mp hmem
        exact List.mem_map.mpr ⟨r', hstored r' hr', hkey⟩
      · rcases List.mem_cons.mp (hperm.mem_iff.mp hr') with rfl | hr'
        · exact stored
        · exact grows (hstored r' hr')
    · rw [told, done]
      rw [remembered] at honce hstored
      have heq : (o.announced p.shared ++ [r]) ++ ((none : Option ρ).toList ++ (p.calls.eraseIdx i).filterMap o.pending) =
          o.announced p.shared ++ ((some r).toList ++ (p.calls.eraseIdx i).filterMap o.pending) := by
        simp
      rw [heq]
      exact ⟨honce, fun r hr => grows (hstored r hr)⟩

/-- The announced records have different keys. -/
theorem Inv.announced_once (h : o.Inv p) : ((o.announced p.shared).map o.key).Nodup :=
  h.once.sublist ((List.sublist_append_left _ _).map o.key)

/-- The announced records are committed. -/
theorem Inv.announced_stored (h : o.Inv p) : ∀ r ∈ o.announced p.shared, r ∈ o.committed p.shared :=
  fun r hr => h.stored r (List.mem_append_left _ hr)

/-- A record that the stepping call does not forget stays announced or remembered. -/
theorem mem_records_step (hannounced : ∀ c ∈ p.calls[i]?, o.announced p.shared ⊆ o.announced (next p.shared c).1)
    (hkept : ∀ c ∈ p.calls[i]?, ∀ r ∈ o.pending c,
      r ∈ o.announced (next p.shared c).1 ∨ r ∈ o.pending (next p.shared c).2)
    {r : ρ} (h : r ∈ o.records p) : r ∈ o.records (p.step next i) := by
  cases hc : p.calls[i]? with
  | none => rwa [Pool.step_of_none hc]
  | some c =>
    have hshared : (p.step next i).shared = (next p.shared c).1 := by rw [Pool.step_of_some hc]
    rcases List.mem_append.mp h with hold | hold
    · refine List.mem_append_left _ ?_
      rw [hshared]
      exact hannounced c hc hold
    · obtain ⟨d, hd, hr⟩ := List.mem_filterMap.mp hold
      rcases Pool.mem_step next hc hd with rfl | hd
      · rcases hkept d hc r hr with hr | hr
        · refine List.mem_append_left _ ?_
          rwa [hshared]
        · exact List.mem_append_right _ (List.mem_filterMap.mpr ⟨_, Pool.next_mem_step next hc, hr⟩)
      · exact List.mem_append_right _ (List.mem_filterMap.mpr ⟨d, hd, hr⟩)

end Outbox

/-! ### Commits -/

/-- How a commit goes: as it should, refused or lost before anything is stored, or stored without an answer. -/
inductive Commit where
  | answered
  | lost
  | unanswered
deriving DecidableEq, Repr

/-- The store after a commit of `result` (`none`: a constraint is violated), and whether the caller sees it succeed. -/
def Commit.apply {δ : Type*} (how : Commit) (store : δ) (result : Option δ) : δ × Bool :=
  match how, result with
  | .answered, some store' => (store', true)
  | .unanswered, some store' => (store', false)
  | _, _ => (store, false)

theorem Commit.apply_cases {δ : Type*} (how : Commit) (store : δ) (result : Option δ) :
    (how = .answered ∧ ∃ store', result = some store' ∧ how.apply store result = (store', true)) ∨
      how.apply store result = (store, false) ∨
      ∃ store', result = some store' ∧ how.apply store result = (store', false) := by
  cases how <;> cases result <;> simp [Commit.apply]

end AlphaAlgo
