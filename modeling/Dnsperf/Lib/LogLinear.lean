import Mathlib.Tactic

/-!
# Dnsperf.Lib.LogLinear

**Logarithmic buckets with linear steps.** A number is put into a bucket by its leading `p + 1`
bits: the bucket's number is the position of the leading bit and the `p` bits after it, in one.
Numbers below `2 ^ p` have a bucket each.

* `bucket` — the bucket of a number, without a branch: numbers below `2 ^ p` are lifted to the
  position `p` first;
* `lower`, `upper` — the least and the greatest number of a bucket.

Everything rests on `bucket_eq_iff`: a bucket is the interval from `lower` to `upper`.
-/

namespace Dnsperf.Lib.LogLinear

/-- How many of the low bits of `v` are dropped. -/
def exponent (p v : Nat) : Nat := (v ||| 2 ^ p).log2 - p

/-- The bucket of `v`. Its leading bit, where it has one, adds to the exponent. -/
def bucket (p v : Nat) : Nat := exponent p v * 2 ^ p + v / 2 ^ exponent p v

/-- How many low bits the numbers of bucket `k` differ in. -/
def free (p k : Nat) : Nat := k / 2 ^ p - 1

/-- The least number of a bucket. -/
def lower (p k : Nat) : Nat := if k < 2 ^ p then k else (k % 2 ^ p + 2 ^ p) * 2 ^ free p k

/-- The greatest number of a bucket. -/
def upper (p k : Nat) : Nat := lower p k + (2 ^ free p k - 1)

variable {p v k : Nat}

/-! ### The exponent -/

theorem or_two_pow_ne_zero (p v : Nat) : v ||| 2 ^ p ≠ 0 := by
  have hle : 2 ^ p ≤ v ||| 2 ^ p := Nat.right_le_or
  have hpos := Nat.two_pow_pos p
  omega

theorem le_log2 (p v : Nat) : p ≤ (v ||| 2 ^ p).log2 :=
  (Nat.le_log2 (or_two_pow_ne_zero p v)).mpr Nat.right_le_or

theorem lt_two_pow_exponent (p v : Nat) : v < 2 ^ (exponent p v + p + 1) := by
  rw [exponent, Nat.sub_add_cancel (le_log2 p v)]
  exact lt_of_le_of_lt Nat.left_le_or Nat.lt_log2_self

theorem two_pow_exponent_le (h : exponent p v ≠ 0) : 2 ^ (exponent p v + p) ≤ v := by
  rw [exponent, Nat.sub_add_cancel (le_log2 p v)]
  by_contra hlt
  have hp : p < (v ||| 2 ^ p).log2 := by
    unfold exponent at h
    omega
  have hor : v ||| 2 ^ p < 2 ^ (v ||| 2 ^ p).log2 :=
    Nat.or_lt_two_pow (Nat.lt_of_not_le hlt) (Nat.pow_lt_pow_right (by decide) hp)
  exact absurd (Nat.log2_self_le (or_two_pow_ne_zero p v)) (Nat.not_le_of_lt hor)

theorem exponent_eq {e : Nat} (hlt : v < 2 ^ (e + p + 1)) (hle : e ≠ 0 → 2 ^ (e + p) ≤ v) :
    exponent p v = e := by
  have hv := lt_two_pow_exponent p v
  rcases Nat.lt_trichotomy (exponent p v) e with h | h | h
  · have hpow : 2 ^ (exponent p v + p + 1) ≤ 2 ^ (e + p) :=
      Nat.pow_le_pow_right (by decide) (by omega)
    have := hle (by omega)
    omega
  · exact h
  · have hpow : 2 ^ (e + p + 1) ≤ 2 ^ (exponent p v + p) :=
      Nat.pow_le_pow_right (by decide) (by omega)
    have := two_pow_exponent_le (p := p) (v := v) (by omega)
    omega

/-! ### Buckets -/

theorem bucket_of_lt (h : v < 2 ^ p) : bucket p v = v := by
  have hzero : exponent p v = 0 := by
    refine exponent_eq ?_ fun hne => absurd rfl hne
    rw [Nat.zero_add, pow_succ]
    omega
  rw [bucket, hzero, pow_zero, Nat.div_one, Nat.zero_mul, Nat.zero_add]

/-- A number from `2 ^ p` on is its leading bits `m`, `2 ^ p ≤ m < 2 ^ (p + 1)`, and `e` more. -/
theorem bucket_of_bits {e m : Nat} (hm : 2 ^ p ≤ m) (hm' : m < 2 ^ (p + 1)) (hle : m * 2 ^ e ≤ v)
    (hlt : v < (m + 1) * 2 ^ e) : bucket p v = e * 2 ^ p + m := by
  have hexp : exponent p v = e := by
    refine exponent_eq ?_ fun _ => ?_
    · calc v < (m + 1) * 2 ^ e := hlt
        _ ≤ 2 ^ (p + 1) * 2 ^ e := Nat.mul_le_mul_right _ hm'
        _ = 2 ^ (e + p + 1) := by rw [← pow_add, Nat.add_comm, Nat.add_assoc]
    · calc 2 ^ (e + p) = 2 ^ p * 2 ^ e := by rw [pow_add, Nat.mul_comm]
        _ ≤ m * 2 ^ e := Nat.mul_le_mul_right _ hm
        _ ≤ v := hle
  rw [bucket, hexp, Nat.div_eq_of_lt_le hle hlt]

theorem bits_of_le (h : 2 ^ p ≤ k) :
    free p k * 2 ^ p + (k % 2 ^ p + 2 ^ p) = k ∧ k % 2 ^ p + 2 ^ p < 2 ^ (p + 1) := by
  have hpos := Nat.two_pow_pos p
  have hdiv : 1 ≤ k / 2 ^ p := (Nat.one_le_div_iff hpos).mpr h
  have hmod := Nat.mod_lt k hpos
  have hk := Nat.div_add_mod' k (2 ^ p)
  refine ⟨?_, by rw [pow_succ]; omega⟩
  calc free p k * 2 ^ p + (k % 2 ^ p + 2 ^ p)
      = (free p k + 1) * 2 ^ p + k % 2 ^ p := by ring
    _ = k := by rw [free, Nat.sub_add_cancel hdiv, hk]

theorem free_of_lt (h : k < 2 ^ p) : free p k = 0 := by
  rw [free, Nat.div_eq_of_lt h]

theorem lower_le_upper (p k : Nat) : lower p k ≤ upper p k := Nat.le_add_right _ _

theorem bucket_of_mem (hle : lower p k ≤ v) (hge : v ≤ upper p k) : bucket p v = k := by
  have hpos := Nat.two_pow_pos (free p k)
  unfold upper lower at hge
  unfold lower at hle
  by_cases hk : k < 2 ^ p
  · rw [if_pos hk] at hle hge
    rw [free_of_lt hk, pow_zero, Nat.sub_self, Nat.add_zero] at hge
    obtain rfl := Nat.le_antisymm hle hge
    exact bucket_of_lt hk
  · rw [if_neg hk] at hle hge
    obtain ⟨hbits, hlt⟩ := bits_of_le (Nat.le_of_not_lt hk)
    have hv : v < (k % 2 ^ p + 2 ^ p + 1) * 2 ^ free p k := by
      rw [Nat.add_mul _ 1, Nat.one_mul]
      omega
    rw [bucket_of_bits (Nat.le_add_left _ _) hlt hle hv, hbits]

theorem mem_bucket (p v : Nat) : lower p (bucket p v) ≤ v ∧ v ≤ upper p (bucket p v) := by
  by_cases hv : v < 2 ^ p
  · rw [bucket_of_lt hv, upper, lower, if_pos hv]
    exact ⟨Nat.le_refl v, Nat.le_add_right v _⟩
  -- the leading bits of `v`
  have hpos := Nat.two_pow_pos (exponent p v)
  have hdiv := Nat.div_mul_le_self v (2 ^ exponent p v)
  have hlt : v < (v / 2 ^ exponent p v + 1) * 2 ^ exponent p v := by
    rw [Nat.mul_comm]
    exact Nat.lt_mul_div_succ v hpos
  have hm : 2 ^ p ≤ v / 2 ^ exponent p v := by
    rw [Nat.le_div_iff_mul_le hpos, ← pow_add]
    by_cases hzero : exponent p v = 0
    · rw [hzero, Nat.add_zero]
      exact Nat.le_of_not_lt hv
    · rw [Nat.add_comm]
      exact two_pow_exponent_le hzero
  have hm' : v / 2 ^ exponent p v < 2 ^ (p + 1) := by
    rw [Nat.div_lt_iff_lt_mul hpos, ← pow_add, Nat.add_comm, ← Nat.add_assoc]
    exact lt_two_pow_exponent p v
  -- and of the bucket
  have hge : 2 ^ p ≤ bucket p v := le_trans hm (Nat.le_add_left _ _)
  obtain ⟨hbits, hlt'⟩ := bits_of_le hge
  have hfree : free p (bucket p v) = exponent p v ∧
      bucket p v % 2 ^ p + 2 ^ p = v / 2 ^ exponent p v := by
    set m := v / 2 ^ exponent p v
    have hmod : bucket p v % 2 ^ p = m - 2 ^ p := by
      rw [bucket, Nat.mul_add_mod_self_right]
      refine (Nat.mod_eq_sub_mod hm).trans (Nat.mod_eq_of_lt ?_)
      rw [pow_succ] at hm'
      omega
    have hsum : free p (bucket p v) * 2 ^ p = exponent p v * 2 ^ p := by
      have : bucket p v = exponent p v * 2 ^ p + m := rfl
      omega
    exact ⟨Nat.eq_of_mul_eq_mul_right (Nat.two_pow_pos p) hsum, by omega⟩
  rw [upper, lower, if_neg (Nat.not_lt_of_le hge), hfree.1, hfree.2]
  refine ⟨hdiv, ?_⟩
  rw [Nat.add_mul _ 1, Nat.one_mul] at hlt
  omega

/-- **A bucket is an interval.** -/
theorem bucket_eq_iff : bucket p v = k ↔ lower p k ≤ v ∧ v ≤ upper p k := by
  constructor
  · rintro rfl
    exact mem_bucket p v
  · rintro ⟨hle, hge⟩
    exact bucket_of_mem hle hge

/-! ### Numbers of `n` bits -/

/-- The number of buckets for numbers of `n` bits. -/
def buckets (p n : Nat) : Nat := (n + 1 - p) * 2 ^ p

theorem bucket_lt {n : Nat} (hp : p < n) (hv : v < 2 ^ n) : bucket p v < buckets p n := by
  have hpos := Nat.two_pow_pos (exponent p v)
  have hexp : exponent p v + p < n := by
    by_cases hzero : exponent p v = 0
    · omega
    · have := lt_of_le_of_lt (two_pow_exponent_le hzero) hv
      exact (Nat.pow_lt_pow_iff_right (by decide)).mp this
  have hm : v / 2 ^ exponent p v < 2 * 2 ^ p := by
    rw [Nat.div_lt_iff_lt_mul hpos, Nat.mul_assoc, ← pow_add, ← pow_succ', Nat.add_comm p]
    exact lt_two_pow_exponent p v
  calc bucket p v < exponent p v * 2 ^ p + 2 * 2 ^ p := Nat.add_lt_add_left hm _
    _ = (exponent p v + 2) * 2 ^ p := by ring
    _ ≤ (n + 1 - p) * 2 ^ p := Nat.mul_le_mul_right _ (by omega)

theorem upper_lt {n : Nat} (hp : p < n) (hk : k < buckets p n) : upper p k < 2 ^ n := by
  have hpos := Nat.two_pow_pos (free p k)
  rw [upper, lower]
  by_cases hlt : k < 2 ^ p
  · rw [if_pos hlt, free_of_lt hlt, pow_zero, Nat.sub_self, Nat.add_zero]
    exact lt_trans hlt (Nat.pow_lt_pow_right (by decide) hp)
  · rw [if_neg hlt]
    obtain ⟨-, hm⟩ := bits_of_le (Nat.le_of_not_lt hlt)
    have hdiv : k / 2 ^ p < n + 1 - p := (Nat.div_lt_iff_lt_mul (Nat.two_pow_pos p)).mpr hk
    have hfree : p + 1 + free p k ≤ n := by
      have := (Nat.one_le_div_iff (Nat.two_pow_pos p)).mpr (Nat.le_of_not_lt hlt)
      unfold free
      omega
    calc (k % 2 ^ p + 2 ^ p) * 2 ^ free p k + (2 ^ free p k - 1)
        < (k % 2 ^ p + 2 ^ p + 1) * 2 ^ free p k := by rw [Nat.add_mul _ 1, Nat.one_mul]; omega
      _ ≤ 2 ^ (p + 1) * 2 ^ free p k := Nat.mul_le_mul_right _ hm
      _ = 2 ^ (p + 1 + free p k) := (pow_add 2 _ _).symm
      _ ≤ 2 ^ n := Nat.pow_le_pow_right (by decide) hfree

end Dnsperf.Lib.LogLinear
