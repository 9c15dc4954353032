import Mathlib.Tactic.Linarith
import Mathlib.Tactic.Ring

/-!
# Dnsperf.Lib.Bucketing

**Two ways to cut `[0, T)` into buckets.** Buckets of a given width `b` put `s` into number
`s / b`, the last of them may be narrower. With their number `n = ⌈T / b⌉` instead, `n * s / T`
makes all of them as wide as each other. The two agree where the last bucket is as wide as the
others or lacks one point, and where it is the only one.
-/

namespace Dnsperf.Lib

variable {T b s : Nat}

/-- The number of buckets of width `b` that cover `T` points. -/
def bucketCount (T b : Nat) : Nat := (T + b - 1) / b

theorem le_bucketCount_mul (hb : 0 < b) : T ≤ bucketCount T b * b := by
  have h := Nat.lt_div_mul_add hb (a := T + b - 1)
  unfold bucketCount
  omega

theorem bucketCount_mul_lt (hb : 0 < b) : bucketCount T b * b < T + b := by
  have h := Nat.div_mul_le_self (T + b - 1) b
  unfold bucketCount
  omega

theorem bucketCount_pos (hT : 0 < T) (hb : 0 < b) : 0 < bucketCount T b :=
  Nat.div_pos (by omega) hb

/-- An even bucket is never behind one of width `b`. -/
theorem div_le_even (hT : 0 < T) (hb : 0 < b) : s / b ≤ bucketCount T b * s / T := by
  rw [Nat.le_div_iff_mul_le hT]
  calc s / b * T ≤ s / b * (bucketCount T b * b) := Nat.mul_le_mul_left _ (le_bucketCount_mul hb)
    _ = bucketCount T b * (s / b * b) := by ring
    _ ≤ bucketCount T b * s := Nat.mul_le_mul_left _ (Nat.div_mul_le_self s b)

theorem even_eq_div (hT : 0 < T) (hb : 0 < b) (h : bucketCount T b * s < (s / b + 1) * T) :
    bucketCount T b * s / T = s / b :=
  le_antisymm (Nat.lt_succ_iff.mp ((Nat.div_lt_iff_lt_mul hT).mpr h)) (div_le_even hT hb)

theorem even_eq_div_of_le (hs : s < T) (h : T ≤ b) : bucketCount T b * s / T = s / b := by
  have hcount : bucketCount T b = 1 := by
    unfold bucketCount
    rw [Nat.div_eq_iff (by omega)]
    omega
  rw [hcount, Nat.one_mul, Nat.div_eq_of_lt hs, Nat.div_eq_of_lt (hs.trans_le h)]

theorem even_eq_div_of_dvd (hT : 0 < T) (hb : 0 < b) (h : b ∣ T) :
    bucketCount T b * s / T = s / b := by
  obtain ⟨n, rfl⟩ := h
  have hcount : bucketCount (b * n) b = n := by
    unfold bucketCount
    rw [Nat.div_eq_iff hb]
    rw [Nat.mul_comm n b]
    omega
  have hn : 0 < n := Nat.pos_of_mul_pos_left hT
  rw [hcount, Nat.mul_comm b n, Nat.mul_div_mul_left s b hn]

/-- The last bucket lacks a point. The first point of a bucket stays in it, for the next one begins
too late by less than a point. -/
theorem even_eq_div_of_dvd_succ (hb : 1 < b) (hs : s < T) (h : b ∣ T + 1) :
    bucketCount T b * s / T = s / b := by
  obtain ⟨n, hn⟩ := h
  have hcount : bucketCount T b = n := by
    unfold bucketCount
    rw [Nat.div_eq_iff (by omega), Nat.mul_comm n b]
    omega
  refine even_eq_div (by omega) (by omega) ?_
  rw [hcount]
  have hlast : s / b < n := by
    rw [Nat.div_lt_iff_lt_mul (by omega), Nat.mul_comm n b]
    omega
  have hend : s + 1 ≤ (s / b + 1) * b := by
    have := Nat.lt_div_mul_add (b := b) (by omega) (a := s)
    rw [Nat.add_mul, Nat.one_mul]
    omega
  rcases Nat.lt_or_ge (s / b + 1) n with hlt | hge
  · have hscaled : n * (s + 1) ≤ (s / b + 1) * (T + 1) := by
      calc n * (s + 1) ≤ n * ((s / b + 1) * b) := Nat.mul_le_mul_left n hend
        _ = (s / b + 1) * (b * n) := by ring
        _ = (s / b + 1) * (T + 1) := by rw [hn]
    rw [Nat.mul_add, Nat.mul_add, Nat.mul_one, Nat.mul_one] at hscaled
    omega
  · have hq : s / b + 1 = n := by omega
    rw [hq]
    exact Nat.mul_lt_mul_of_pos_left hs (Nat.zero_lt_of_lt hlast)

/-- If the last bucket lacks two points or more, the one before it ends too early. -/
theorem even_ne_div (hb : 0 < b) (hlt : b < T) (hdvd : ¬ b ∣ T) (hdvd' : ¬ b ∣ T + 1) :
    ∃ s < T, bucketCount T b * s / T ≠ s / b := by
  have hle := le_bucketCount_mul hb (T := T)
  have hub := bucketCount_mul_lt hb (T := T)
  set n := bucketCount T b with hn
  -- what the last bucket lacks
  have hlack : T + 2 ≤ n * b := by
    have h0 : n * b ≠ T := fun h => hdvd ⟨n, by rw [← h, Nat.mul_comm]⟩
    have h1 : n * b ≠ T + 1 := fun h => hdvd' ⟨n, by rw [← h, Nat.mul_comm]⟩
    omega
  obtain ⟨m, hm⟩ : ∃ m, n = m + 2 := by
    refine ⟨n - 2, ?_⟩
    rcases Nat.lt_or_ge n 2 with h | h
    · have : n * b ≤ 1 * b := Nat.mul_le_mul_right b (by omega)
      omega
    · omega
  have hprev : (m + 1) * b = n * b - b := by
    rw [hm, Nat.add_mul, Nat.add_mul]
    omega
  have hwidth : b ≤ (m + 1) * b := Nat.le_mul_of_pos_left b (Nat.succ_pos m)
  refine ⟨(m + 1) * b - 1, by omega, ?_⟩
  have hdiv : ((m + 1) * b - 1) / b = m := by
    rw [Nat.div_eq_iff hb]
    rw [Nat.add_mul, Nat.one_mul] at hwidth ⊢
    omega
  have hearly : (m + 1) * T ≤ n * ((m + 1) * b - 1) := by
    have hscaled : (m + 1) * (T + 2) ≤ n * ((m + 1) * b) := by
      calc (m + 1) * (T + 2) ≤ (m + 1) * (n * b) := Nat.mul_le_mul_left _ hlack
        _ = n * ((m + 1) * b) := by ring
    rw [Nat.mul_sub, Nat.mul_one]
    rw [Nat.mul_add] at hscaled
    omega
  have hnext : m + 1 ≤ n * ((m + 1) * b - 1) / T := (Nat.le_div_iff_mul_le (by omega)).mpr hearly
  omega

/-- **When the two agree.** -/
theorem even_eq_div_iff (hT : 0 < T) (hb : 0 < b) :
    (∀ s < T, bucketCount T b * s / T = s / b) ↔ T ≤ b ∨ b ∣ T ∨ b ∣ T + 1 := by
  constructor
  · intro h
    by_contra hnot
    simp only [not_or, not_le] at hnot
    obtain ⟨s, hs, hne⟩ := even_ne_div hb hnot.1 hnot.2.1 hnot.2.2
    exact hne (h s hs)
  · rintro (hle | hdvd | hdvd) s hs
    · exact even_eq_div_of_le hs hle
    · exact even_eq_div_of_dvd hT hb hdvd
    · rcases Nat.lt_or_ge 1 b with hwide | hone
      · exact even_eq_div_of_dvd_succ hwide hs hdvd
      · exact even_eq_div_of_dvd hT hb ⟨T, by rw [show b = 1 by omega, Nat.one_mul]⟩

end Dnsperf.Lib
