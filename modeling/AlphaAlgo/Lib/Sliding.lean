import Mathlib.Order.Defs.LinearOrder
import Mathlib.Data.List.Pairwise
import Mathlib.Data.List.TakeWhile
import Mathlib.Tactic
import AlphaAlgo.Lib.Runs

/-!
# Sliding — a sliding window of times

A call at a time first drops the leading times of the window whose age is `w` or more, and is let through when fewer than
`limit` are left; then its time comes last in the window.  The age of a time at a later one is any function that grows as
time goes on: a difference, or a difference that is rounded.

* `exists_dropped`: the window is what is left of the times that were let through; the others are too old for good.
* `admits_iff`: a call is let through exactly when fewer than `limit` calls younger than `w` were let through before it.
* `admitted_bounded`: no set of times that are younger than `w` at one another holds more than `limit` that were let
  through.
-/

namespace AlphaAlgo.Sliding

open Runs

variable {α β : Type*} [LinearOrder β]

/-- The window without the leading times whose age is `w` or more. -/
def prune (age : α → α → β) (w : β) (now : α) (window : List α) : List α := window.dropWhile fun t => w ≤ age now t

/-- Whether a call at a time is let through. -/
def admits (age : α → α → β) (limit : ℤ) (w : β) (window : List α) (now : α) : Bool :=
  ((prune age w now window).length : ℤ) < limit

/-- The window after a call at a time. -/
def slide (age : α → α → β) (limit : ℤ) (w : β) (window : List α) (now : α) : List α :=
  if admits age limit w window now then prune age w now window ++ [now] else prune age w now window

/-- The window after calls at the times. -/
def window (age : α → α → β) (limit : ℤ) (w : β) (times : List α) : List α := run (slide age limit w) [] times

/-- The calls with their answers. -/
def answers (age : α → α → β) (limit : ℤ) (w : β) (times : List α) : List (α × Bool) :=
  outputs (slide age limit w) (fun window now => (now, admits age limit w window now)) [] times

/-- The times that are let through. -/
def admitted (age : α → α → β) (limit : ℤ) (w : β) (times : List α) : List α :=
  ((answers age limit w times).filter Prod.snd).map Prod.fst

variable {age : α → α → β} {limit : ℤ} {w : β} {now : α} {times : List α}

theorem admitted_concat (age : α → α → β) (limit : ℤ) (w : β) (times : List α) (now : α) :
    admitted age limit w (times ++ [now]) =
      admitted age limit w times ++ if admits age limit w (window age limit w times) now then [now] else [] := by
  rw [admitted, answers, outputs_concat, List.filter_append, List.map_append, List.filter_singleton]
  by_cases h : admits age limit w (window age limit w times) now
  · rw [window] at h
    simp [admitted, answers, window, h]
  · rw [window] at h
    simp [admitted, answers, window, h]

theorem window_concat (age : α → α → β) (limit : ℤ) (w : β) (times : List α) (now : α) :
    window age limit w (times ++ [now]) =
      prune age w now (window age limit w times) ++
        if admits age limit w (window age limit w times) now then [now] else [] := by
  rw [window, run_concat, ← window, slide]
  split_ifs
  · rfl
  · rw [List.append_nil]

theorem admitted_sublist (age : α → α → β) (limit : ℤ) (w : β) (times : List α) :
    (admitted age limit w times).Sublist times := by
  induction times using List.reverseRecOn with
  | nil => exact List.Sublist.slnil
  | append_singleton times now ih =>
    rw [admitted_concat]
    refine ih.append ?_
    split_ifs
    · exact List.Sublist.refl _
    · exact List.nil_sublist _

/-- With a limit of one or more, a call leaves a time in the window. -/
theorem slide_ne_nil (age : α → α → β) (hlimit : 1 ≤ limit) (w : β) (l : List α) (now : α) :
    slide age limit w l now ≠ [] := by
  unfold slide
  split_ifs with h
  · exact List.append_ne_nil_of_right_ne_nil _ (List.cons_ne_nil now [])
  · intro hnil
    rw [admits, hnil] at h
    simp at h
    omega

/-- The first call is let through. -/
theorem head_mem_admitted (age : α → α → β) (hlimit : 1 ≤ limit) (w : β) (now : α) (times : List α) :
    now ∈ admitted age limit w (now :: times) := by
  induction times using List.reverseRecOn with
  | nil =>
    have hadmits : admits age limit w [] now = true := by
      rw [admits, prune, List.dropWhile_nil, List.length_nil, decide_eq_true_iff]
      omega
    rw [← List.nil_append [now], admitted_concat, window, run_nil, if_pos hadmits]
    exact List.mem_append_right _ (List.mem_singleton_self now)
  | append_singleton times last ih =>
    rw [← List.cons_append, admitted_concat]
    exact List.mem_append_left _ ih

variable [LinearOrder α]

/-- An age grows as time goes on. -/
structure Ageing (age : α → α → β) : Prop where
  later : ∀ t, Monotone fun now => age now t
  earlier : ∀ now, Antitone (age now)

/-- **What is left of the times that were let through** is the window; the others have an age of `w` or more at any later
call. -/
theorem exists_dropped (hage : Ageing age) (limit : ℤ) (w : β) (times : List α) :
    ∃ dropped, admitted age limit w times = dropped ++ window age limit w times ∧
      ∀ now, (∀ t ∈ times, t ≤ now) → ∀ t ∈ dropped, w ≤ age now t := by
  induction times using List.reverseRecOn with
  | nil => exact ⟨[], rfl, fun _ _ t ht => absurd ht List.not_mem_nil⟩
  | append_singleton times last ih =>
    obtain ⟨dropped, heq, hold⟩ := ih
    set l := window age limit w times with hl
    refine ⟨dropped ++ l.takeWhile fun t => w ≤ age last t, ?_, fun now hnow t ht => ?_⟩
    · rw [admitted_concat, window_concat, heq, ← hl, ← List.append_assoc]
      congr 1
      rw [List.append_assoc, prune, List.takeWhile_append_dropWhile]
    · have hlast : last ≤ now := hnow last (List.mem_append_right _ (List.mem_singleton_self last))
      rcases List.mem_append.mp ht with ht | ht
      · exact hold now (fun t ht => hnow t (List.mem_append_left _ ht)) t ht
      · have hold : w ≤ age last t := by simpa using List.mem_takeWhile_imp ht
        exact hold.trans (hage.later t hlast)

/-- In a sorted window the times that are too old come first. -/
theorem prune_eq_filter (hage : Ageing age) {l : List α} (h : l.Pairwise (· ≤ ·)) :
    prune age w now l = l.filter fun t => age now t < w := by
  induction l with
  | nil => rfl
  | cons t l ih =>
    obtain ⟨hle, hl⟩ := List.pairwise_cons.mp h
    rw [prune]
    by_cases ht : w ≤ age now t
    · rw [List.dropWhile_cons_of_pos (by simpa using ht), List.filter_cons_of_neg (by simpa using ht), ← prune, ih hl]
    · rw [List.dropWhile_cons_of_neg (by simpa using ht), eq_comm, List.filter_eq_self]
      intro u hu
      have hle : age now u ≤ age now t := by
        rcases List.mem_cons.mp hu with rfl | hu
        · exact le_rfl
        · exact hage.earlier now (hle u hu)
      simpa using hle.trans_lt (not_le.mp ht)

/-- What a later call finds in the window: the times let through whose age is less than `w`. -/
theorem prune_window (hage : Ageing age) (hsorted : times.Pairwise (· ≤ ·)) (hnow : ∀ t ∈ times, t ≤ now) :
    prune age w now (window age limit w times) = (admitted age limit w times).filter fun t => age now t < w := by
  obtain ⟨dropped, heq, hold⟩ := exists_dropped hage limit w times
  have hadmitted : (admitted age limit w times).Pairwise (· ≤ ·) := hsorted.sublist (admitted_sublist age limit w times)
  have hnone : dropped.filter (fun t => age now t < w) = [] := by
    rw [List.filter_eq_nil_iff]
    intro t ht
    simpa using hold now hnow t ht
  rw [heq] at hadmitted ⊢
  rw [List.filter_append, hnone, List.nil_append]
  exact prune_eq_filter hage (List.pairwise_append.mp hadmitted).2.1

/-- **Who is let through**: the window holds fewer than `limit` that are younger than `w`. -/
theorem admits_iff (hage : Ageing age) (hsorted : times.Pairwise (· ≤ ·)) (hnow : ∀ t ∈ times, t ≤ now) :
    admits age limit w (window age limit w times) now ↔
      ((admitted age limit w times).countP fun t => age now t < w : ℤ) < limit := by
  rw [admits, prune_window hage hsorted hnow, List.countP_eq_length_filter, decide_eq_true_iff]

/-- **The bound**: times that are younger than `w` at one another hold at most `limit` that were let through. -/
theorem admitted_bounded (hage : Ageing age) (hsorted : times.Pairwise (· ≤ ·)) {p : α → Bool}
    (hp : ∀ t ∈ times, ∀ u ∈ times, t ≤ u → p t → p u → age u t < w) :
    ((admitted age limit w times).countP p : ℤ) ≤ max limit 0 := by
  induction times using List.reverseRecOn with
  | nil => exact le_max_right _ _
  | append_singleton times last ih =>
    obtain ⟨hbefore, -, hle⟩ := List.pairwise_append.mp hsorted
    have hlast : ∀ t ∈ times, t ≤ last := fun t ht => hle t ht last (List.mem_singleton_self last)
    have ih := ih hbefore fun t ht u hu => hp t (List.mem_append_left _ ht) u (List.mem_append_left _ hu)
    rw [admitted_concat]
    split_ifs with hadmit
    · by_cases hpl : p last
      · -- the others of the set are younger than `w` at the last call
        have hmono : (admitted age limit w times).countP p ≤
            (admitted age limit w times).countP fun t => age last t < w := by
          refine List.countP_mono_left fun t ht hpt => ?_
          have hmem : t ∈ times := (admitted_sublist age limit w times).subset ht
          simpa using hp t (List.mem_append_left _ hmem) last (List.mem_append_right _ (List.mem_singleton_self last))
            (hlast t hmem) hpt hpl
        have hlt := (admits_iff hage hbefore hlast).mp hadmit
        rw [List.countP_append, List.countP_singleton, if_pos hpl]
        omega
      · rw [List.countP_append, List.countP_singleton, if_neg hpl, add_zero]
        exact ih
    · rw [List.append_nil]
      exact ih

end AlphaAlgo.Sliding
