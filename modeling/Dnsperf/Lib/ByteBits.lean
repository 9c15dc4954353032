import Mathlib.Tactic

/-!
# Dnsperf.Lib.ByteBits

Single bits of a byte: reading one with a shift, setting one with a mask and clearing
one with its complement, all in terms of `Nat.testBit`.
-/

namespace Dnsperf.Lib.ByteBits

theorem check_eq (x : UInt8) {t : Nat} (ht : t < 8) :
    (x >>> UInt8.ofNat t &&& 1 != 0) = x.toNat.testBit t := by
  have h : (x >>> UInt8.ofNat t &&& 1).toNat = (x.toNat >>> t) % 2 := by
    simp [UInt8.toNat_and, UInt8.toNat_shiftRight, Nat.mod_eq_of_lt (show t < 256 by omega),
      Nat.mod_eq_of_lt ht]
  rw [Nat.testBit, Nat.and_comm, Nat.and_one_is_mod, ← h, Bool.eq_iff_iff]
  simp only [bne_iff_ne, ne_eq, ← UInt8.toNat_inj, UInt8.toNat_zero]

theorem toNat_mask {s : Nat} (hs : s < 8) : (1 <<< UInt8.ofNat s : UInt8).toNat = 2 ^ s := by
  have hlt : 2 ^ s < 2 ^ 8 := Nat.pow_lt_pow_right (by decide) hs
  rw [UInt8.toNat_shiftLeft, UInt8.toNat_ofNat', UInt8.toNat_one, Nat.shiftLeft_eq, Nat.one_mul,
    Nat.mod_eq_of_lt (show s < 2 ^ 8 by omega), Nat.mod_eq_of_lt hs, Nat.mod_eq_of_lt hlt]

theorem testBit_set (x : UInt8) {s : Nat} (hs : s < 8) (t : Nat) :
    (x ||| (1 <<< UInt8.ofNat s)).toNat.testBit t = (decide (s = t) || x.toNat.testBit t) := by
  rw [UInt8.toNat_or, Nat.testBit_or, toNat_mask hs, Nat.testBit_two_pow, Bool.or_comm]

theorem testBit_clear (x : UInt8) {s t : Nat} (hs : s < 8) (ht : t < 8) :
    (x &&& ~~~(1 <<< UInt8.ofNat s)).toNat.testBit t
      = (!decide (s = t) && x.toNat.testBit t) := by
  have hlt : 2 ^ s < 2 ^ 8 := Nat.pow_lt_pow_right (by decide) hs
  have hnot : UInt8.size - 1 - 2 ^ s = 2 ^ 8 - (2 ^ s + 1) := by simp [UInt8.size]
  rw [UInt8.toNat_and, Nat.testBit_and, UInt8.toNat_not, toNat_mask hs, hnot,
    Nat.testBit_two_pow_sub_succ hlt, Nat.testBit_two_pow, decide_eq_true ht, Bool.true_and,
    Bool.and_comm]

end Dnsperf.Lib.ByteBits
