import Dnsperf.Resperf.Model

/-!
# Dnsperf.Resperf.Integers

The conversions between the integer types of `resperf`, on the numbers that come up.
-/

namespace Dnsperf.Resperf

theorem toUint32_natCast (n : Nat) : toUint32 n = n % 2 ^ 32 := by
  simp only [toUint32]
  omega

theorem toUint64_natCast (n : Nat) : toUint64 n = n % 2 ^ 64 := by
  simp only [toUint64]
  omega

theorem toUint64_lt (n : Int) : toUint64 n < 2 ^ 64 := by
  simp only [toUint64]
  omega

theorem toUint32_of_lt {n : Nat} (h : n < 2 ^ 32) : toUint32 n = n := by
  rw [toUint32_natCast, Nat.mod_eq_of_lt h]

theorem toUint64_of_lt {n : Nat} (h : n < 2 ^ 64) : toUint64 n = n := by
  rw [toUint64_natCast, Nat.mod_eq_of_lt h]

theorem toInt_of_lt {n : Int} (h0 : 0 ≤ n) (h : n < 2 ^ 31) : toInt n = n := by
  simp only [toInt, Int.bmod]
  split_ifs <;> omega

theorem toUint64_pred {n : Nat} (h0 : 0 < n) (h : n < 2 ^ 64) : toUint64 (n - 1) = n - 1 := by
  simp only [toUint64]
  omega

end Dnsperf.Resperf
