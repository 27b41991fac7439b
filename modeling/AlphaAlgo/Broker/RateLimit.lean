import AlphaAlgo.Broker.Orders
import AlphaAlgo.Lib.Potential

/-!
# RateLimit — what a token bucket lets through

`acquire` refills the bucket for the time that has passed, up to the burst, and takes a token when there is one.  Times and
tokens are rational numbers, and the clock does not go back.

* `acquire_tokens`: the tokens after an `acquire`.
* `acquire_allowance`: a token that is taken in an interval is paid for by what the bucket can still let through in it.
* `acquires_bounded`: the tokens stay within the burst, and an interval sees at most the burst and the rate times its
  length.
-/

namespace AlphaAlgo.Broker

open Runs

namespace TokenBucket

/-- The bucket after an `acquire` at a time. -/
def acquired (b : TokenBucket) (now : ℚ) : TokenBucket := (b.acquire now).1

/-- Whether the `acquire` got a token. -/
def granted (b : TokenBucket) (now : ℚ) : Bool := (b.acquire now).2

/-- The tokens of a bucket lie within its burst, which holds a token. -/
structure Within (b : TokenBucket) : Prop where
  rate : 0 ≤ b.rate
  burst : 1 ≤ b.burst
  nonneg : 0 ≤ b.tokens
  le_burst : b.tokens ≤ b.burst

variable {b : TokenBucket} {now : ℚ}

@[simp] theorem acquired_rate (b : TokenBucket) (now : ℚ) : (b.acquired now).rate = b.rate := by
  unfold acquired acquire
  dsimp only
  split_ifs <;> rfl

@[simp] theorem acquired_burst (b : TokenBucket) (now : ℚ) : (b.acquired now).burst = b.burst := by
  unfold acquired acquire
  dsimp only
  split_ifs <;> rfl

@[simp] theorem acquired_last (b : TokenBucket) (now : ℚ) : (b.acquired now).last = now := by
  unfold acquired acquire
  dsimp only
  split_ifs <;> rfl

/-- The tokens after a refill are those that are left and the one that is taken. -/
theorem acquire_tokens (b : TokenBucket) (now : ℚ) :
    (b.acquired now).tokens + (if b.granted now = true then 1 else 0) =
      min (b.burst : ℚ) (b.tokens + (now - b.last) * b.rate) := by
  unfold acquired granted acquire
  dsimp only
  split_ifs <;> simp_all

/-- A token is taken only where there is a whole one. -/
theorem acquired_nonneg (h : b.Within) (hnow : b.last ≤ now) : 0 ≤ (b.acquired now).tokens := by
  have hrefill : 0 ≤ (now - b.last) * b.rate := mul_nonneg (sub_nonneg.mpr hnow) h.rate
  have hburst : (0 : ℚ) ≤ b.burst := h.nonneg.trans h.le_burst
  unfold acquired acquire
  dsimp only
  split_ifs with htoken
  · exact sub_nonneg.mpr htoken
  · exact le_min hburst (add_nonneg h.nonneg hrefill)

theorem within_acquired (h : b.Within) (hnow : b.last ≤ now) : (b.acquired now).Within where
  rate := by
    rw [acquired_rate]
    exact h.rate
  burst := by
    rw [acquired_burst]
    exact h.burst
  nonneg := acquired_nonneg h hnow
  le_burst := by
    have htokens := acquire_tokens b now
    have htaken : (0 : ℚ) ≤ if b.granted now = true then 1 else 0 := by split_ifs <;> norm_num
    rw [acquired_burst]
    linarith [min_le_left (b.burst : ℚ) (b.tokens + (now - b.last) * b.rate)]

/-! ### Intervals -/

/-- What a bucket can still let through between two times. -/
def allowance (start stop : ℚ) (b : TokenBucket) : ℚ :=
  if stop < b.last then 0
  else if b.last < start then b.burst + b.rate * (stop - start)
  else b.tokens + b.rate * (stop - b.last)

/-- The `acquire` is within the interval and gets a token. -/
def counted (start stop : ℚ) (p : ℚ × Bool) : Bool := p.2 && (start ≤ p.1 && p.1 ≤ stop)

variable {start stop : ℚ}

theorem allowance_nonneg (h : b.Within) (hle : start ≤ stop) : 0 ≤ b.allowance start stop := by
  have hburst : (0 : ℚ) ≤ b.burst := h.nonneg.trans h.le_burst
  unfold allowance
  split_ifs with hpast hbefore
  · exact le_rfl
  · exact add_nonneg hburst (mul_nonneg h.rate (sub_nonneg.mpr hle))
  · exact add_nonneg h.nonneg (mul_nonneg h.rate (sub_nonneg.mpr (not_lt.mp hpast)))

/-- It is at most the burst and the rate times the length. -/
theorem allowance_le (h : b.Within) (hle : start ≤ stop) :
    b.allowance start stop ≤ b.burst + b.rate * (stop - start) := by
  have hburst : (0 : ℚ) ≤ b.burst := h.nonneg.trans h.le_burst
  unfold allowance
  split_ifs with hpast hbefore
  · exact add_nonneg hburst (mul_nonneg h.rate (sub_nonneg.mpr hle))
  · exact le_rfl
  · have hlength : b.rate * (stop - b.last) ≤ b.rate * (stop - start) :=
      mul_le_mul_of_nonneg_left (by linarith [not_lt.mp hbefore]) h.rate
    linarith [h.le_burst]

/-- **A token is paid for** by the allowance of its interval. -/
theorem acquire_allowance (h : b.Within) (hle : start ≤ stop) (hnow : b.last ≤ now) :
    (if counted start stop (now, b.granted now) = true then (1 : ℚ) else 0) + (b.acquired now).allowance start stop ≤
      b.allowance start stop := by
  by_cases hpast : stop < now
  · have hout : counted start stop (now, b.granted now) = false := by
      simp [counted, not_le.mpr hpast]
    have hnone : (b.acquired now).allowance start stop = 0 := by
      rw [allowance, acquired_last, if_pos hpast]
    rw [hout, hnone]
    simpa using allowance_nonneg h hle
  by_cases hbefore : now < start
  · have hout : counted start stop (now, b.granted now) = false := by
      simp [counted, not_le.mpr hbefore]
    have hsame : (b.acquired now).allowance start stop = b.allowance start stop := by
      rw [allowance, allowance, acquired_last, acquired_burst, acquired_rate, if_neg hpast, if_pos hbefore,
        if_neg (not_lt.mpr (hnow.trans (not_lt.mp hpast))), if_pos (hnow.trans_lt hbefore)]
    rw [hout, hsame]
    simp
  · -- Within the interval: what is left and what is taken come from the refilled bucket.
    have hin : counted start stop (now, b.granted now) = b.granted now := by
      simp [counted, not_lt.mp hpast, not_lt.mp hbefore]
    have hleft : (b.acquired now).allowance start stop = (b.acquired now).tokens + b.rate * (stop - now) := by
      rw [allowance, acquired_last, acquired_rate, if_neg hpast, if_neg hbefore]
    have htokens := acquire_tokens b now
    rw [hin, hleft, allowance, if_neg (not_lt.mpr (hnow.trans (not_lt.mp hpast)))]
    by_cases hearlier : b.last < start
    · have hlength : b.rate * (stop - now) ≤ b.rate * (stop - start) :=
        mul_le_mul_of_nonneg_left (by linarith [not_lt.mp hbefore]) h.rate
      rw [if_pos hearlier]
      linarith [min_le_left (b.burst : ℚ) (b.tokens + (now - b.last) * b.rate)]
    · rw [if_neg hearlier]
      linarith [min_le_right (b.burst : ℚ) (b.tokens + (now - b.last) * b.rate)]

/-! ### Runs -/

theorem within_new {rate : ℚ} (hrate : 0 ≤ rate) (burst : ℤ) (created : ℚ) : (new rate burst created).Within where
  rate := hrate
  burst := le_max_left 1 burst
  nonneg := zero_le_one.trans (le_max_left 1 (burst : ℚ))
  le_burst := by
    show max 1 (burst : ℚ) ≤ ((max 1 burst : ℤ) : ℚ)
    push_cast
    exact le_rfl

/-- The clock does not go back along the calls. -/
theorem along_of_clock : ∀ {times : List ℚ} {b : TokenBucket}, (b.last :: times).Pairwise (· ≤ ·) →
    Along acquired (fun b now => b.last ≤ now) b times
  | [], _, _ => trivial
  | now :: times, b, h => by
    obtain ⟨hfirst, hrest⟩ := List.pairwise_cons.mp h
    refine ⟨hfirst now List.mem_cons_self, along_of_clock ?_⟩
    rw [acquired_last]
    exact hrest

@[simp] theorem run_burst (b : TokenBucket) (times : List ℚ) : (run acquired b times).burst = b.burst :=
  run_invariant acquired (fun b' => b'.burst = b.burst) (fun b' now h => (acquired_burst b' now).trans h) rfl times

/-- The calls in an interval that get a token. -/
theorem counted_le (h : b.Within) {times : List ℚ} (hclock : Along acquired (fun b now => b.last ≤ now) b times)
    (hle : start ≤ stop) :
    ((times.zip (outputs acquired granted b times)).countP (counted start stop) : ℚ) ≤
      b.burst + b.rate * (stop - start) := by
  have hpay : ∀ (b : TokenBucket) (now : ℚ), b.Within → b.last ≤ now →
      (if counted start stop (now, b.granted now) = true then (1 : ℚ) else 0) + allowance start stop (acquired b now) ≤
        allowance start stop b := fun b now h hnow => acquire_allowance h hle hnow
  have hsum := hclock.sum_outputs_le (I := Within) (fun b now h hnow => within_acquired h hnow) hpay h
  have hend : (run acquired b times).Within := hclock.invariant (I := Within) (fun b now h hnow => within_acquired h hnow) h
  rw [countP_zip_outputs]
  calc _ ≤ (outputs acquired (fun b now => if counted start stop (now, b.granted now) = true then (1 : ℚ) else 0) b
          times).sum + (run acquired b times).allowance start stop := le_add_of_nonneg_right (allowance_nonneg hend hle)
    _ ≤ b.allowance start stop := hsum
    _ ≤ b.burst + b.rate * (stop - start) := allowance_le h hle

/-- **The tokens stay within the burst, and no interval sees more** calls that get a token than the burst and the rate
times its length.  The burst is that of the bucket: the configured one, and at least 1. -/
theorem acquires_bounded {rate : ℚ} (hrate : 0 ≤ rate) (burst : ℤ) {created : ℚ} {times : List ℚ}
    (hclock : (created :: times).Pairwise (· ≤ ·)) :
    (∀ times', times' <+: times → 0 ≤ (run acquired (new rate burst created) times').tokens ∧
      (run acquired (new rate burst created) times').tokens ≤ (new rate burst created).burst) ∧
    ∀ start d, 0 ≤ d → ((times.zip (outputs acquired granted (new rate burst created) times)).countP
      (counted start (start + d)) : ℚ) ≤ (new rate burst created).burst + rate * d := by
  have hwithin := within_new hrate burst created
  have halong : Along acquired (fun b now => b.last ≤ now) (new rate burst created) times := along_of_clock hclock
  constructor
  · rintro times' ⟨rest, rfl⟩
    have hend : (run acquired (new rate burst created) times').Within :=
      ((along_append _ _ _ times' rest).mp halong).1.invariant (I := Within)
        (fun b now h hnow => within_acquired h hnow) hwithin
    refine ⟨hend.nonneg, ?_⟩
    have hle := hend.le_burst
    rwa [run_burst] at hle
  · intro start d hd
    have hbound := counted_le hwithin halong (le_add_of_nonneg_right hd : start ≤ start + d)
    rwa [add_sub_cancel_left] at hbound

/-- A bucket of two tokens, one more a second: four calls within a second and a half. -/
theorem acquires_bounded_four :
    outputs acquired granted (new 1 2 0) [0, 0, 1/2, 3/2] = [true, true, false, true] ∧
    (([0, 0, 1/2, 3/2].zip (outputs acquired granted (new 1 2 0) [0, 0, 1/2, 3/2])).countP (counted 0 (0 + 3/2)) : ℚ) ≤
      2 + 1 * (3/2) := by
  have hclock : ((0 : ℚ) :: [0, 0, 1/2, 3/2]).Pairwise (· ≤ ·) := by decide +kernel
  refine ⟨by decide +kernel, ?_⟩
  have hbound := (acquires_bounded zero_le_one 2 hclock).2 0 (3/2) (by norm_num)
  have hburst : ((new 1 2 0).burst : ℚ) = 2 := by norm_num [new]
  rwa [hburst] at hbound

end TokenBucket

end AlphaAlgo.Broker
