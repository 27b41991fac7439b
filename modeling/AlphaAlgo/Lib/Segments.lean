import Mathlib.Data.List.SplitBy
import Mathlib.Tactic

/-!
# Segments — a list cut where a key changes

`segments key l` are the longest stretches of `l` with one key, in order.

* `segments_eq_iff`: they are the only way to cut `l` into such stretches.
* `segments_append`: what is before a change of the key is cut by itself.
* `segments_comp`: a coarser key cuts at some of the same places.
* `pairwise_segments`: when a key does not come back after it changed, each has one segment.
-/

namespace AlphaAlgo

variable {α κ κ' : Type*} [DecidableEq κ] [DecidableEq κ']

/-- The longest stretches with one key. -/
def segments (key : α → κ) (l : List α) : List (List α) := l.splitBy fun a b => decide (key a = key b)

/-- A cut of `l` into stretches with one key, a new one wherever the key changes. -/
structure Segmented (key : α → κ) (l : List α) (gs : List (List α)) : Prop where
  flatten : gs.flatten = l
  ne_nil : [] ∉ gs
  same : ∀ g ∈ gs, ∀ a ∈ g, ∀ b ∈ g, key a = key b
  change : gs.IsChain fun g h => ∀ a ∈ g, ∀ b ∈ h, key a ≠ key b

variable {key : α → κ} {l : List α} {gs : List (List α)}

theorem same_of_isChain {g : List α} (h : g.IsChain fun a b => decide (key a = key b) = true) :
    ∀ a ∈ g, ∀ b ∈ g, key a = key b := by
  have htrans : IsTrans α fun a b => key a = key b := ⟨fun _ _ _ => Eq.trans⟩
  have hsymm : Std.Symm fun a b : α => key a = key b := ⟨fun _ _ => Eq.symm⟩
  have hpair : g.Pairwise fun a b => key a = key b := (h.imp fun _ _ hab => of_decide_eq_true hab).pairwise
  exact fun a ha b hb => List.Pairwise.forall_of_forall (R := fun a b => key a = key b) (fun _ _ => rfl) hpair ha hb

theorem isChain_of_same {g : List α} (h : ∀ a ∈ g, ∀ b ∈ g, key a = key b) :
    g.IsChain fun a b => decide (key a = key b) = true := by
  refine List.Pairwise.isChain ?_
  exact List.pairwise_of_forall_mem_list fun a ha b hb => decide_eq_true (h a ha b hb)

/-- **The segments are the only cut.** -/
theorem segments_eq_iff : segments key l = gs ↔ Segmented key l gs := by
  rw [segments, List.splitBy_eq_iff]
  constructor
  · rintro ⟨hl, hne, hin, hout⟩
    have hsame : ∀ g ∈ gs, ∀ a ∈ g, ∀ b ∈ g, key a = key b := fun g hg => same_of_isChain (hin g hg)
    refine ⟨hl.symm, hne, hsame, ?_⟩
    refine hout.imp_of_mem_imp fun g h hg hh hgh a ha b hb hab => ?_
    obtain ⟨hgne, hhne, hdiffer⟩ := hgh
    refine of_decide_eq_false hdiffer ?_
    rw [hsame g hg _ (List.getLast_mem hgne) a ha, hab, hsame h hh b hb _ (List.head_mem hhne)]
  · rintro ⟨hl, hne, hsame, hchange⟩
    refine ⟨hl.symm, hne, fun g hg => isChain_of_same (hsame g hg), ?_⟩
    refine hchange.imp_of_mem_imp fun g h hg hh hgh => ?_
    have hgne : g ≠ [] := fun hnil => hne (hnil ▸ hg)
    have hhne : h ≠ [] := fun hnil => hne (hnil ▸ hh)
    exact ⟨hgne, hhne, decide_eq_false (hgh _ (List.getLast_mem hgne) _ (List.head_mem hhne))⟩

theorem segmented_segments (key : α → κ) (l : List α) : Segmented key l (segments key l) := segments_eq_iff.mp rfl

/-- Values with one key are one segment. -/
theorem segments_same (hne : l ≠ []) (h : ∀ a ∈ l, ∀ b ∈ l, key a = key b) : segments key l = [l] := by
  rw [segments_eq_iff]
  refine ⟨by simp, by simpa using hne.symm, ?_, List.isChain_singleton _⟩
  intro g hg
  rw [List.mem_singleton.mp hg]
  exact h

/-- What is before a change of the key is cut by itself. -/
theorem segments_append {m : List α} {a : α} (h : ∀ b ∈ l, key b ≠ key a) :
    segments key (l ++ a :: m) = segments key l ++ segments key (a :: m) := by
  refine List.splitBy_append_cons m fun b hb => decide_eq_false (h b ?_)
  exact List.mem_of_getLast? hb

/-- **A coarser key** cuts at some of the same places: its segments are made of whole ones. -/
theorem segments_comp (f : κ → κ') (key : α → κ) (l : List α) :
    ∃ parts : List (List (List α)), [] ∉ parts ∧ parts.flatten = segments key l ∧
      segments (fun a => f (key a)) l = parts.map List.flatten := by
  have hfine := segmented_segments key l
  -- the segments are cut by the coarser key of their first value
  have hcoarse := segmented_segments (fun g : List α => g.head?.map fun a => f (key a)) (segments key l)
  generalize segments (fun g : List α => g.head?.map fun a => f (key a)) (segments key l) = parts at hcoarse
  have hhead : ∀ g ∈ segments key l, ∀ a ∈ g, (g.head?.map fun b => f (key b)) = some (f (key a)) := by
    intro g hg a ha
    cases g with
    | nil => cases ha
    | cons b g => exact congrArg some (congrArg f (hfine.same _ hg b List.mem_cons_self a ha))
  have hmem : ∀ p ∈ parts, ∀ g ∈ p, g ∈ segments key l := by
    intro p hp g hg
    rw [← hcoarse.flatten]
    exact List.mem_flatten.mpr ⟨p, hp, hg⟩
  refine ⟨parts, hcoarse.ne_nil, hcoarse.flatten, segments_eq_iff.mpr ⟨?_, ?_, ?_, ?_⟩⟩
  · rw [← List.flatten_flatten, hcoarse.flatten, hfine.flatten]
  · intro hnil
    obtain ⟨p, hp, hflat⟩ := List.mem_map.mp hnil
    cases p with
    | nil => exact hcoarse.ne_nil hp
    | cons g p =>
      have hg : g = [] := List.flatten_eq_nil_iff.mp hflat g List.mem_cons_self
      exact hfine.ne_nil (hg ▸ hmem _ hp g List.mem_cons_self)
  · intro m hm a ha b hb
    obtain ⟨p, hp, rfl⟩ := List.mem_map.mp hm
    obtain ⟨g, hg, hag⟩ := List.mem_flatten.mp ha
    obtain ⟨h, hh, hbh⟩ := List.mem_flatten.mp hb
    have hkeys := hcoarse.same p hp g hg h hh
    rw [hhead g (hmem p hp g hg) a hag, hhead h (hmem p hp h hh) b hbh] at hkeys
    exact Option.some.inj hkeys
  · rw [List.isChain_map]
    refine hcoarse.change.imp_of_mem_imp fun p q hp hq hpq a ha b hb hab => ?_
    obtain ⟨g, hg, hag⟩ := List.mem_flatten.mp ha
    obtain ⟨h, hh, hbh⟩ := List.mem_flatten.mp hb
    refine hpq g hg h hh ?_
    rw [hhead g (hmem p hp g hg) a hag, hhead h (hmem q hq h hh) b hbh, hab]

/-- **A key that does not come back** after it changed has one segment: between two values with one key, in an order
that the list ascends in, every value has it. -/
theorem pairwise_segments {r : α → α → Prop} (hl : l.Pairwise r)
    (hconvex : ∀ a b c, r a b → r b c → key a = key c → key a = key b) :
    (segments key l).Pairwise fun g h => ∀ a ∈ g, ∀ b ∈ h, key a ≠ key b := by
  obtain ⟨hflatten, hne, -, hchange⟩ := segmented_segments key l
  have hordered : (segments key l).Pairwise fun g h => ∀ a ∈ g, ∀ b ∈ h, r a b :=
    (List.pairwise_flatten.mp (hflatten.symm ▸ hl)).2
  clear hflatten
  generalize segments key l = gs at hne hchange hordered ⊢
  induction gs with
  | nil => exact List.Pairwise.nil
  | cons g gs ih =>
    rw [List.pairwise_cons] at hordered ⊢
    rw [List.isChain_cons] at hchange
    rw [List.mem_cons, not_or] at hne
    refine ⟨fun h hh a ha b hb hab => ?_, ih hne.2 hchange.2 hordered.2⟩
    cases gs with
    | nil => cases hh
    | cons k gs =>
      have hnext := hchange.1 k rfl a ha
      rcases List.mem_cons.mp hh with rfl | hlater
      · exact hnext b hb hab
      · -- a value of the next segment is between the two
        have hk : k ≠ [] := fun hnil => hne.2 (hnil ▸ List.mem_cons_self)
        have hmem := List.head_mem hk
        refine hnext _ hmem (hconvex a _ b ?_ ?_ hab)
        · exact hordered.1 k List.mem_cons_self a ha _ hmem
        · exact (List.pairwise_cons.mp hordered.2).1 h hlater _ hmem b hb

end AlphaAlgo
