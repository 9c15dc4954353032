import Dnsperf.Lib.Bucketing
import Dnsperf.Resperf.Integers

/-!
# Dnsperf.Resperf.Buckets

The buckets of `resperf`, from the options to `find_bucket`.

**Not all options that `setup` lets pass make buckets**: it divides by a `bucket_interval` of 0, and
there are none at all where the sum before that division wraps or where their number is a multiple
of 2³².

**The buckets do not have the width they are taken to have**: `find_bucket` makes all of them as
wide as each other, and only `bucket_interval`s that divide the time, or nearly so, are met.
-/

namespace Dnsperf.Resperf

open Dnsperf.Lib

variable {o : Options} {c : Setup}

/-! ### The number of buckets -/

theorem Options.trafficTime_lt (o : Options) : o.trafficTime < 2 ^ 64 := toUint64_lt _

theorem nBuckets_eq (hpos : 0 < o.bucketInterval)
    (hsum : o.trafficTime + o.bucketInterval ≤ 2 ^ 64) :
    o.nBuckets = toInt (bucketCount o.trafficTime o.bucketInterval : Nat) := by
  have hcast : (o.trafficTime + o.bucketInterval - 1 : Int) =
      (o.trafficTime + o.bucketInterval - 1 : Nat) := by
    omega
  rw [Options.nBuckets, hcast, toUint64_of_lt (by omega)]
  rfl

/-- The sum wraps to less than `bucket_interval`. -/
theorem nBuckets_eq_zero (hlt : o.bucketInterval < 2 ^ 64)
    (hsum : 2 ^ 64 < o.trafficTime + o.bucketInterval) : o.nBuckets = 0 := by
  have hwrap : toUint64 (o.trafficTime + o.bucketInterval - 1) =
      o.trafficTime + o.bucketInterval - 1 - 2 ^ 64 := by
    have := o.trafficTime_lt
    simp only [toUint64]
    omega
  have := o.trafficTime_lt
  rw [Options.nBuckets, hwrap, Nat.div_eq_of_lt (by omega)]
  rfl

theorem toInt_eq_zero_iff (n : Nat) : toInt n = 0 ↔ 2 ^ 32 ∣ n := by
  simp only [toInt, Int.bmod]
  split_ifs <;> omega

theorem nBuckets_eq_zero_iff (hpos : 0 < o.bucketInterval) (hlt : o.bucketInterval < 2 ^ 64) :
    o.nBuckets = 0 ↔ 2 ^ 64 < o.trafficTime + o.bucketInterval ∨
      2 ^ 32 ∣ bucketCount o.trafficTime o.bucketInterval := by
  rcases Nat.lt_or_ge (2 ^ 64) (o.trafficTime + o.bucketInterval) with hwrap | hsum
  · simp only [nBuckets_eq_zero hlt hwrap, hwrap, true_or]
  · rw [nBuckets_eq hpos hsum, toInt_eq_zero_iff]
    simp only [Nat.not_lt.mpr hsum, false_or]

/-! ### `setup` -/

/-- `setup` ends with a fatal error: too many outstanding queries, no time to send in, or no memory
for the buckets. `calloc` has none for a negative number of them. -/
def Options.Rejected (o : Options) : Prop :=
  toUint32 (o.nsocks * 65536 : Nat) < o.maxOutstanding ∨ o.trafficTime = 0 ∨
    0 < o.bucketInterval ∧ o.nBuckets < 0

instance (o : Options) : Decidable o.Rejected :=
  inferInstanceAs (Decidable (_ ∨ _ ∨ _ ∧ _))

theorem setup_toOptions (h : setup o = some c) : c.toOptions = o := by
  unfold setup at h
  split_ifs at h
  rw [← Option.some.inj h]

/-- What is not rejected comes through, unless the division traps. -/
theorem exists_setup (haccept : ¬ o.Rejected) (hpos : 0 < o.bucketInterval) :
    ∃ c, setup o = some c := by
  simp only [Options.Rejected, not_or, not_and, Nat.not_lt, Int.not_lt] at haccept
  obtain ⟨hclients, htime, hmemory⟩ := haccept
  exact ⟨_, dif_pos ⟨hclients, Nat.pos_of_ne_zero htime, hpos, hmemory hpos⟩⟩

theorem findBucket_mem (hn : 0 < c.nBuckets) (when_ : Nat) :
    0 ≤ c.findBucket when_ ∧ c.findBucket when_ < c.nBuckets := by
  simp only [Setup.findBucket]
  split_ifs <;> omega

/-- **When the bucket arithmetic is safe.** For options that `setup` does not reject: the divisors
of `setup` and `find_bucket` are not 0, there is a bucket, and `find_bucket` returns one of them for
every time, exactly if `bucket_interval` is not 0, the sum with it does not wrap and the number of
buckets is not a multiple of 2³². -/
theorem buckets_safe_iff (o : Options) (hlt : o.bucketInterval < 2 ^ 64) (haccept : ¬ o.Rejected) :
    (0 < o.bucketInterval ∧ 0 < o.trafficTime ∧ 1 ≤ o.nBuckets ∧
      ∃ c, setup o = some c ∧ ∀ when_, 0 ≤ c.findBucket when_ ∧
        c.findBucket when_ ≤ o.nBuckets - 1) ↔
      0 < o.bucketInterval ∧ o.trafficTime + o.bucketInterval ≤ 2 ^ 64 ∧
        ¬ 2 ^ 32 ∣ bucketCount o.trafficTime o.bucketInterval := by
  constructor
  · rintro ⟨hpos, -, hn, -⟩
    have hne : o.nBuckets ≠ 0 := by omega
    rw [Ne, nBuckets_eq_zero_iff hpos hlt, not_or, Nat.not_lt] at hne
    exact ⟨hpos, hne⟩
  · rintro ⟨hpos, hsum, hdvd⟩
    obtain ⟨c, hc⟩ := exists_setup haccept hpos
    have hne : o.nBuckets ≠ 0 := by
      rw [Ne, nBuckets_eq_zero_iff hpos hlt, not_or, Nat.not_lt]
      exact ⟨hsum, hdvd⟩
    have hopts := setup_toOptions hc
    have hnonneg : 0 ≤ o.nBuckets := hopts ▸ c.nBuckets_nonneg
    refine ⟨hpos, hopts ▸ c.traffic_pos, by omega, c, hc, fun when_ => ?_⟩
    rw [← hopts] at hne hnonneg ⊢
    obtain ⟨h0, hlast⟩ := findBucket_mem (c := c) (by omega) when_
    exact ⟨h0, by omega⟩

/-- 16 queries per second at the end of the ramp, and 16 outstanding at most, over one socket. -/
def slowRamp (rampTime bucketInterval : Nat) : Options where
  queryTimeout := 45 * million
  rampTime := rampTime
  sustainTime := 0
  bucketInterval := bucketInterval
  maxOutstanding := 16
  nsocks := 1
  maxFallBehind := 1000
  numScheduled := fun _ t => (8 * t * t) / (rampTime * million)
  tryResponses := 2
  timeOfProgramStart := 1000
  maxOutstanding_pos := by decide
  maxOutstanding_lt := by decide
  nsocks_pos := by decide
  nsocks_lt := by decide

/-- A minute, with a bucket for every half second. -/
theorem buckets_safe_minute :
    ∃ c, setup (slowRamp (60 * million) 500000) = some c ∧
      ∀ when_, 0 ≤ c.findBucket when_ ∧ c.findBucket when_ ≤ 119 := by
  obtain ⟨-, -, -, c, hc, hmem⟩ := (buckets_safe_iff (slowRamp (60 * million) 500000) (by decide)
    (by decide)).mpr (by decide)
  exact ⟨c, hc, fun when_ => (hmem when_).imp_right (le_trans · (by decide))⟩

/-- **An interval of 0** is not rejected, and `setup` divides by it. -/
theorem interval_zero_accepted :
    ¬ (slowRamp (60 * million) 0).Rejected ∧ ¬ 0 < (slowRamp (60 * million) 0).bucketInterval := by
  decide

/-! ### `find_bucket` -/

theorem findBucket_eq {s : Nat} (hsum : c.trafficTime + c.bucketInterval ≤ 2 ^ 64)
    (hfits : bucketCount c.trafficTime c.bucketInterval < 2 ^ 31)
    (hprod : bucketCount c.trafficTime c.bucketInterval * c.trafficTime < 2 ^ 64)
    (hs : s < c.trafficTime) :
    c.findBucket (c.timeOfProgramStart + s) =
      (bucketCount c.trafficTime c.bucketInterval * s / c.trafficTime : Nat) := by
  have hn : c.nBuckets = (bucketCount c.trafficTime c.bucketInterval : Nat) := by
    rw [nBuckets_eq c.interval_pos hsum, toInt_of_lt (by omega) (by omega)]
  have hsent : toUint64 ((c.timeOfProgramStart + s : Nat) - c.timeOfProgramStart) = s := by
    have := c.trafficTime_lt
    simp only [toUint64]
    omega
  have hnpos := bucketCount_pos c.traffic_pos c.interval_pos
  generalize bucketCount c.trafficTime c.bucketInterval = n at hn hfits hprod hnpos ⊢
  have hlt : n * s < n * c.trafficTime := Nat.mul_lt_mul_of_pos_left hs hnpos
  have hlast : n * s / c.trafficTime < n := (Nat.div_lt_iff_lt_mul c.traffic_pos).mpr hlt
  have hscaled : toUint64 (c.nBuckets * s) = n * s := by
    rw [hn, ← Nat.cast_mul, toUint64_of_lt (hlt.trans hprod)]
  simp only [Setup.findBucket, hsent, hscaled]
  generalize n * s / c.trafficTime = i at hlast ⊢
  rw [toInt_of_lt (by omega) (by omega), if_neg (by omega), if_neg (by omega)]

theorem findBucket_of_zero (hn : c.nBuckets = 0) (when_ : Nat) : c.findBucket when_ = -1 := by
  simp only [Setup.findBucket, hn, Int.zero_mul]
  rw [show toUint64 0 = 0 from rfl, Nat.zero_div, show toInt (0 : Nat) = 0 from rfl]
  rfl

/-- **When the buckets have the width of the plot interval**: if the interval divides the time, or
the time and one microsecond, or if there is only one bucket. -/
theorem findBucket_eq_div_iff (c : Setup) (hlt : c.bucketInterval < 2 ^ 64)
    (hfits : bucketCount c.trafficTime c.bucketInterval < 2 ^ 31)
    (hprod : bucketCount c.trafficTime c.bucketInterval * c.trafficTime < 2 ^ 64) :
    (∀ s < c.trafficTime, c.findBucket (c.timeOfProgramStart + s) = (s / c.bucketInterval : Nat)) ↔
      c.trafficTime + c.bucketInterval ≤ 2 ^ 64 ∧
        (c.trafficTime ≤ c.bucketInterval ∨ c.bucketInterval ∣ c.trafficTime ∨
          c.bucketInterval ∣ c.trafficTime + 1) := by
  rw [← even_eq_div_iff c.traffic_pos c.interval_pos]
  rcases Nat.lt_or_ge (2 ^ 64) (c.trafficTime + c.bucketInterval) with hwrap | hsum
  · constructor
    · intro h
      have hfirst := h 0 c.traffic_pos
      rw [findBucket_of_zero (nBuckets_eq_zero hlt hwrap), Nat.zero_div] at hfirst
      cases hfirst
    · rintro ⟨hsum, -⟩
      omega
  · simp only [hsum, true_and]
    constructor
    · intro h s hs
      have heq := h s hs
      rw [findBucket_eq hsum hfits hprod hs] at heq
      exact_mod_cast heq
    · intro h s hs
      rw [findBucket_eq hsum hfits hprod hs, h s hs]

/-- A minute, with the default interval. -/
def minuteLong : Setup :=
  { slowRamp (60 * million) 500000 with
    perClient := by decide
    traffic_pos := by decide
    interval_pos := by decide
    nBuckets_nonneg := by decide }

/-- The default interval divides a minute. -/
theorem findBucket_minute :
    minuteLong.bucketInterval ∣ minuteLong.trafficTime ∧ ∀ s < minuteLong.trafficTime,
      minuteLong.findBucket (minuteLong.timeOfProgramStart + s) = (s / 500000 : Nat) :=
  ⟨by decide,
    (findBucket_eq_div_iff minuteLong (by decide) (by decide) (by decide)).mpr (by decide)⟩

/-- **0.7 seconds do not divide a minute.** The 86 buckets are about 2.3 milliseconds narrower, and
the last microsecond of the first interval is in the second bucket. -/
theorem findBucket_minute_off :
    ∃ c, setup (slowRamp (60 * million) 700000) = some c ∧
      bucketCount c.trafficTime c.bucketInterval < 2 ^ 31 ∧
      bucketCount c.trafficTime c.bucketInterval * c.trafficTime < 2 ^ 64 ∧
      699999 < c.trafficTime ∧ c.findBucket (c.timeOfProgramStart + 699999) = 1 ∧
      699999 / c.bucketInterval = 0 :=
  ⟨_, rfl, by decide, by decide, by decide, by decide, by decide⟩

end Dnsperf.Resperf
