import Dnsperf.Lib.Framing
import Mathlib.Data.List.TakeWhile

/-!
# Dnsperf.Lib.CString

The C library's string functions, in the "C" locale, on byte lists. A C string
is a byte list read up to its first NUL; the end of the list counts as that NUL,
so a list without a NUL is the string it spells.

Each function keeps the C name and follows the documented behaviour, including
the parts a caller may trip over: `strtoul` skips white space, accepts a sign,
negates modulo `2^64` and saturates at `ULONG_MAX`; digits stop at the first
character that is none in the given base.
-/

namespace Dnsperf.Lib

/-- The bytes of an ASCII literal. -/
def ascii (s : String) : Bytes := s.toList.map (fun c => UInt8.ofNat c.toNat)

/-- `isspace` in the "C" locale: space and `\t \n \v \f \r`. -/
def isspace (c : UInt8) : Bool := c == 32 || (9 ≤ c && c ≤ 13)

/-- `isdigit`, or a test `c >= '0' && c <= '9'`. -/
def isdigit (c : UInt8) : Bool := 48 ≤ c && c ≤ 57

/-- `tolower` in the "C" locale. -/
def tolower (c : UInt8) : UInt8 := if 65 ≤ c && c ≤ 90 then c + 32 else c

/-- The string proper: everything before the first NUL. -/
def cstr (s : Bytes) : Bytes := s.takeWhile (· != 0)

/-- `strcspn(s, reject)`: length of the initial part with no byte of `reject`. -/
def strcspn (s reject : Bytes) : Nat :=
  (s.takeWhile (fun c => c != 0 && !reject.contains c)).length

/-- `strncasecmp(a, b, n) == 0`. -/
def strncasecmpEq : Nat → Bytes → Bytes → Bool
  | 0, _, _ => true
  | n + 1, a, b =>
      let ca := a.headD 0
      let cb := b.headD 0
      if tolower ca = tolower cb then
        if ca = 0 then true else strncasecmpEq n a.tail b.tail
      else false

/-- `strncmp(a, b, n) == 0`. -/
def strncmpEq : Nat → Bytes → Bytes → Bool
  | 0, _, _ => true
  | n + 1, a, b =>
      let ca := a.headD 0
      let cb := b.headD 0
      if ca = cb then
        if ca = 0 then true else strncmpEq n a.tail b.tail
      else false

/-- The value of a digit in bases up to 36; `36` for a byte that is no digit. -/
def digitValue (c : UInt8) : Nat :=
  if isdigit c then c.toNat - 48
  else if 97 ≤ c && c ≤ 122 then c.toNat - 87
  else if 65 ≤ c && c ≤ 90 then c.toNat - 55
  else 36

/-- The digits of `base` a string starts with. -/
def digits (base : Nat) (s : Bytes) : Bytes := s.takeWhile (fun c => digitValue c < base)

/-- The number a list of digits denotes. -/
def digitsValue (base : Nat) (ds : Bytes) : Nat :=
  ds.foldl (fun v c => v * base + digitValue c) 0

/-- `ULONG_MAX` on a 64-bit platform. -/
def ulongMax : Nat := 2 ^ 64 - 1

/-- `LONG_MAX` on a 64-bit platform. -/
def longMax : Nat := 2 ^ 63 - 1

/-- What `strtol` and `strtoul` read: the sign, the digits and the offset of the
first byte after them (`0` when there was no number at all). A `0x` is skipped
in base 16 if a hexadecimal digit follows it. -/
def scanNumber (base : Nat) (s : Bytes) : Bool × Bytes × Nat :=
  let sp := s.takeWhile isspace
  let s₁ := s.dropWhile isspace
  let signed := s₁.headD 0 == 43 || s₁.headD 0 == 45
  let negative := s₁.headD 0 == 45
  let s₂ := if signed then s₁.tail else s₁
  let pre := base == 16 && s₂.headD 0 == 48 && tolower (s₂.tail.headD 0) == 120 &&
    digitValue (s₂.tail.tail.headD 0) < 16
  let s₃ := if pre then s₂.tail.tail else s₂
  let ds := digits base s₃
  if ds.isEmpty then (false, [], 0)
  else (negative, ds, sp.length + (if signed then 1 else 0) + (if pre then 2 else 0) + ds.length)

/-- `strtoul(s, &endptr, base)`: the value and `endptr - s`. -/
def strtoul (base : Nat) (s : Bytes) : Nat × Nat :=
  let (negative, ds, stop) := scanNumber base s
  let v := digitsValue base ds
  (if ulongMax < v then ulongMax else if negative then (2 ^ 64 - v) % 2 ^ 64 else v, stop)

/-- `strtol(s, 0, base)`. -/
def strtol (base : Nat) (s : Bytes) : Int :=
  let (negative, ds, _) := scanNumber base s
  let v := digitsValue base ds
  if negative then (if longMax + 1 < v then -((longMax : Int) + 1) else -(v : Int))
  else (if longMax < v then (longMax : Int) else (v : Int))

/-! ### Searching -/

theorem takeWhile_bne_of_not_mem {c : UInt8} {s : Bytes} (h : c ∉ s) :
    s.takeWhile (· != c) = s :=
  List.takeWhile_eq_self_iff.mpr fun _ hd => bne_iff_ne.mpr fun heq => h (heq ▸ hd)

theorem cstr_of_not_mem {s : Bytes} (h : (0 : UInt8) ∉ s) : cstr s = s :=
  takeWhile_bne_of_not_mem h

theorem takeWhile_bne_append {c : UInt8} {s : Bytes} (h : c ∉ s) (rest : Bytes) :
    (s ++ c :: rest).takeWhile (· != c) = s := by
  have hs : ∀ d ∈ s, (d != c) = true := fun d hd => bne_iff_ne.mpr fun heq => h (heq ▸ hd)
  rw [List.takeWhile_append_of_pos hs, List.takeWhile_cons_of_neg (by simp), List.append_nil]

theorem cstr_append_cons {s : Bytes} (h : (0 : UInt8) ∉ s) (rest : Bytes) :
    cstr (s ++ 0 :: rest) = s :=
  takeWhile_bne_append h rest

theorem dropWhile_bne_append {c : UInt8} {s : Bytes} (h : c ∉ s) (rest : Bytes) :
    (s ++ c :: rest).dropWhile (· != c) = c :: rest := by
  have hs : ∀ d ∈ s, (d != c) = true := fun d hd => bne_iff_ne.mpr fun heq => h (heq ▸ hd)
  rw [List.dropWhile_append_of_pos hs, List.dropWhile_cons_of_neg (by simp)]

theorem dropWhile_bne_of_not_mem {c : UInt8} {s : Bytes} (h : c ∉ s) :
    s.dropWhile (· != c) = [] :=
  List.dropWhile_eq_nil_iff.mpr fun _ hd => bne_iff_ne.mpr fun heq => h (heq ▸ hd)

theorem exists_of_dropWhile_bne {c : UInt8} {s rest : Bytes} {d : UInt8}
    (h : s.dropWhile (· != c) = d :: rest) :
    d = c ∧ s = s.takeWhile (· != c) ++ c :: rest ∧ c ∉ s.takeWhile (· != c) := by
  have hd : (d != c) = false := by
    have hhead := List.head_dropWhile_not (· != c) (l := s) (by rw [h]; exact List.cons_ne_nil _ _)
    simpa [h] using hhead
  obtain rfl : d = c := by simpa using hd
  refine ⟨rfl, ?_, fun hmem => ?_⟩
  · rw [← h, List.takeWhile_append_dropWhile]
  · exact absurd (List.mem_takeWhile_imp hmem) (by simp)

/-! ### Comparing -/

theorem cstr_eq (s : Bytes) :
    cstr s = if s.headD 0 = 0 then [] else s.headD 0 :: cstr s.tail := by
  cases s with
  | nil => rfl
  | cons c s => by_cases hc : c = 0 <;> simp [cstr, hc]

/-- `strncmp` compares the first `n` characters of the two strings proper. -/
theorem strncmpEq_iff (n : Nat) (a b : Bytes) :
    strncmpEq n a b = true ↔ (cstr a).take n = (cstr b).take n := by
  induction n generalizing a b with
  | zero => simp [strncmpEq]
  | succ n ih =>
      rw [cstr_eq a, cstr_eq b, strncmpEq]
      generalize a.headD 0 = ca, b.headD 0 = cb
      by_cases heq : ca = cb
      · subst heq
        by_cases hnul : ca = 0 <;> simp [hnul, ih]
      · -- one of the two characters may be the NUL, not both
        by_cases ha : ca = 0
        · have hb : cb ≠ 0 := fun hb => heq (ha.trans hb.symm)
          simp [ha, hb, hb.symm]
        · by_cases hb : cb = 0 <;> simp [heq, ha, hb]

theorem tolower_eq_zero {c : UInt8} : tolower c = 0 ↔ c = 0 := by
  have h : ∀ n : Fin 256, tolower (UInt8.ofNat n) = 0 ↔ UInt8.ofNat n = 0 := by decide +kernel
  simpa using h ⟨c.toNat, c.toNat_lt⟩

theorem strncasecmpEq_cons (n : Nat) (a b : UInt8) (as bs : Bytes) :
    strncasecmpEq (n + 1) (a :: as) (b :: bs) =
      (decide (tolower a = tolower b) && (decide (a = 0) || strncasecmpEq n as bs)) := by
  by_cases h : tolower a = tolower b <;> by_cases ha : a = 0 <;> simp [strncasecmpEq, h, ha]

theorem strncasecmpEq_iff {s : Bytes} (hs : (0 : UInt8) ∉ s) (a rest : Bytes) :
    strncasecmpEq s.length a (s ++ rest) = true ↔ s.map tolower <+: a.map tolower := by
  induction s generalizing a with
  | nil => simp [strncasecmpEq]
  | cons c s ih =>
      rw [List.mem_cons, not_or] at hs
      have hc : tolower c ≠ 0 := fun h => hs.1 (tolower_eq_zero.mp h).symm
      cases a with
      | nil =>
          have hne : tolower 0 ≠ tolower c := fun h => hc h.symm
          simp [strncasecmpEq, hne]
      | cons a as =>
          rw [List.length_cons, List.cons_append, strncasecmpEq_cons, List.map_cons, List.map_cons,
            List.cons_prefix_cons, ← ih hs.2]
          by_cases h : tolower a = tolower c
          · have ha : a ≠ 0 := fun ha => hc (h ▸ tolower_eq_zero.mpr ha)
            simp [h, ha]
          · simp [h, Ne.symm h]

/-! ### Numbers -/

theorem digitValue_lt_ten {c : UInt8} : digitValue c < 10 ↔ isdigit c = true := by
  have h : ∀ n : Fin 256, digitValue (UInt8.ofNat n) < 10 ↔ isdigit (UInt8.ofNat n) = true := by
    decide +kernel
  simpa using h ⟨c.toNat, c.toNat_lt⟩

theorem strtoul_digits {base : Nat} {s : Bytes} (hspace : isspace (s.headD 0) = false)
    (hplus : s.headD 0 ≠ 43) (hminus : s.headD 0 ≠ 45) (hbase : base ≠ 16 ∨ s.length ≤ 2) :
    strtoul base s = (min (digitsValue base (digits base s)) ulongMax, (digits base s).length) := by
  have htake : s.takeWhile isspace = [] ∧ s.dropWhile isspace = s := by
    cases s with
    | nil => exact ⟨rfl, rfl⟩
    | cons c s => exact ⟨List.takeWhile_cons_of_neg (by simpa using hspace),
        List.dropWhile_cons_of_neg (by simpa using hspace)⟩
  have hpre : (base == 16 && s.headD 0 == 48 && tolower (s.tail.headD 0) == 120 &&
      decide (digitValue (s.tail.tail.headD 0) < 16)) = false := by
    rcases hbase with hne | hshort
    · simp [hne]
    · have hnil : s.tail.tail = [] := List.eq_nil_of_length_eq_zero (by simp; omega)
      have hnul : ¬ digitValue 0 < 16 := by decide
      simp [hnil, hnul]
  have hscan : scanNumber base s = (false, digits base s, (digits base s).length) := by
    simp only [scanNumber, htake.1, htake.2, beq_false_of_ne hplus, beq_false_of_ne hminus,
      Bool.or_self, Bool.false_eq_true, if_false, hpre]
    cases hds : digits base s with
    | nil => rfl
    | cons d ds => simp
  simp only [strtoul, hscan, Bool.false_eq_true, if_false]
  split_ifs with hlong
  · rw [min_eq_right (Nat.le_of_lt hlong)]
  · rw [min_eq_left (Nat.le_of_not_lt hlong)]

theorem digits_ten (s : Bytes) : digits 10 s = s.takeWhile isdigit := by
  unfold digits
  congr 1
  funext c
  exact Bool.eq_iff_iff.mpr (by simpa using digitValue_lt_ten)

theorem strtoul_unsigned {s : Bytes} (hspace : isspace (s.headD 0) = false)
    (hplus : s.headD 0 ≠ 43) (hminus : s.headD 0 ≠ 45) :
    strtoul 10 s =
      (min (digitsValue 10 (s.takeWhile isdigit)) ulongMax, (s.takeWhile isdigit).length) := by
  rw [strtoul_digits hspace hplus hminus (Or.inl (by decide)), digits_ten]

/-- `strtoul` in base 10: white space, a sign, and the digits `ds` begins with. -/
theorem strtoul_ten (s : Bytes) :
    let t := s.dropWhile isspace
    let ds := if t.headD 0 = 43 ∨ t.headD 0 = 45 then t.tail else t
    let v := digitsValue 10 (ds.takeWhile isdigit)
    strtoul 10 s = if ds.takeWhile isdigit = [] then (0, 0)
      else (if ulongMax < v then ulongMax else if t.headD 0 = 45 then (2 ^ 64 - v) % 2 ^ 64 else v,
        s.length - ds.length + (ds.takeWhile isdigit).length) := by
  have hlen : (s.takeWhile isspace).length + (s.dropWhile isspace).length = s.length := by
    rw [← List.length_append, List.takeWhile_append_dropWhile]
  simp only [strtoul, scanNumber, digits_ten]
  generalize s.takeWhile isspace = sp at hlen
  generalize s.dropWhile isspace = t at hlen
  have hsign : (t.headD 0 == 43 || t.headD 0 == 45) = true ↔ t.headD 0 = 43 ∨ t.headD 0 = 45 := by
    simp
  have hbase : ((10 : Nat) == 16) = false := rfl
  simp only [hbase, Bool.false_and, Bool.false_eq_true, if_false, hsign, List.isEmpty_iff]
  set ds := if t.headD 0 = 43 ∨ t.headD 0 = 45 then t.tail else t with hds
  have hdslen : ds.length = t.length - if t.headD 0 = 43 ∨ t.headD 0 = 45 then 1 else 0 := by
    rw [hds]
    split_ifs <;> simp
  have hle : (if t.headD 0 = 43 ∨ t.headD 0 = 45 then 1 else 0) ≤ t.length := by
    cases t with
    | nil => simp
    | cons c t => split_ifs <;> simp
  by_cases hnil : ds.takeWhile isdigit = []
  · rw [if_pos hnil, if_pos hnil]
    decide
  · rw [if_neg hnil, if_neg hnil]
    simp only [beq_iff_eq, Prod.mk.injEq, true_and]
    omega

theorem strtoul_sign {c : UInt8} (hc : c = 43 ∨ c = 45) (s : Bytes) :
    let v := digitsValue 10 (s.takeWhile isdigit)
    strtoul 10 (c :: s) = if s.takeWhile isdigit = [] then (0, 0)
      else (if ulongMax < v then ulongMax else if c = 45 then (2 ^ 64 - v) % 2 ^ 64 else v,
        1 + (s.takeWhile isdigit).length) := by
  have hspace : ¬ isspace c = true := by rcases hc with rfl | rfl <;> decide
  have hnum := strtoul_ten (c :: s)
  rw [List.dropWhile_cons_of_neg hspace] at hnum
  dsimp only at hnum ⊢
  rw [show (if (c :: s).headD 0 = 43 ∨ (c :: s).headD 0 = 45 then (c :: s).tail else c :: s) =
    s from if_pos hc, List.length_cons, Nat.add_sub_cancel_left] at hnum
  exact hnum

end Dnsperf.Lib
