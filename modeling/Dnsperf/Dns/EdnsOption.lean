import Dnsperf.Dns.Edns
import Dnsperf.Dns.Wire

/-!
# Dnsperf.Dns.EdnsOption

**What the argument of an EDNS option spells**: a code in decimal, a colon, and bytes in
hexadecimal (`Spells`). `perf_edns_parseoption` leaves both numbers to `strtoul`, which takes
just the digits only if nothing else comes first (`strtoul_digits`): it also skips white space
and reads a sign, and it makes a number of no text at all. `TakenCode` and `takenHex` say what is
taken; the arguments that are accepted and spell no option (`Slips`) are all those on which the
parser is not exact.
-/

namespace Dnsperf.Dns

open Dnsperf.Lib

/-- The bytes that pairs of hexadecimal digits stand for. -/
def ofHex : Bytes → Option Bytes
  | [] => some []
  | [_] => none
  | a :: b :: hs =>
      if digitValue a < 16 ∧ digitValue b < 16 then
        (ofHex hs).map (UInt8.ofNat (digitValue a * 16 + digitValue b) :: ·)
      else none

/-- `arg` is `code` in decimal, a colon, and `data` in hexadecimal. -/
def Spells (arg : Bytes) (code : Nat) (data : Bytes) : Prop :=
  ∃ ds hs, cstr arg = ds ++ 58 :: hs ∧
    (ds ≠ [] ∧ (∀ c ∈ ds, isdigit c = true) ∧ digitsValue 10 ds = code ∧ code ≤ 65535) ∧
    ofHex hs = some data ∧ data ≠ [] ∧ data.length ≤ 65535

/-- An option in wire format. -/
def parseOption (s : Bytes) : Option (Nat × Bytes) :=
  (take16 s).bind fun code =>
    (take16 code.2).bind fun len =>
      if len.2.length = len.1 then some (code.1, len.2) else none

theorem parseOption_be16 {code : Nat} {data : Bytes} (hcode : code < 65536)
    (hdata : data.length < 65536) :
    parseOption (be16 code ++ be16 data.length ++ data) = some (code, data) := by
  rw [parseOption, List.append_assoc, take16_be16 hcode, Option.bind_some, take16_be16 hdata,
    Option.bind_some, if_pos rfl]

/-- What the pairs are taken for. -/
def pairsOf : Bytes → Bytes
  | a :: b :: hs => UInt8.ofNat (strtoul 16 [a, b]).1 :: pairsOf hs
  | _ => []

/-- The texts that `strtoul` takes for a decimal number, to their end: no text at all; or white
space, a sign and digits, but for the numbers it returns as `ULONG_MAX`. -/
def TakenCode (s : Bytes) : Prop :=
  let t := s.dropWhile isspace
  let ds := if t.headD 0 = 43 ∨ t.headD 0 = 45 then t.tail else t
  s = [] ∨ ((ds ≠ [] ∧ ds.all isdigit = true) ∧
    if t.headD 0 = 45 then digitsValue 10 ds ≤ ulongMax ∧ digitsValue 10 ds ≠ 1
    else digitsValue 10 ds < ulongMax)

/-- The pairs that `strtoul` takes for a hexadecimal number: two digits, or one after white space
or a sign. `-1` is `ULONG_MAX`. -/
def takenPair (a b : UInt8) : Bool :=
  digitValue b < 16 &&
    (digitValue a < 16 || isspace a || a == 43 || (a == 45 && digitValue b != 1))

/-- Such pairs, to the end. -/
def takenHex : Bytes → Bool
  | [] => true
  | [_] => false
  | a :: b :: hs => takenPair a b && takenHex hs

/-- The arguments that are accepted: a code and data that are taken, with a colon between them. -/
structure Taken (arg code value : Bytes) : Prop where
  split : cstr arg = code ++ 58 :: value
  colon : (58 : UInt8) ∉ code
  code : TakenCode code
  ne : value ≠ []
  value : takenHex value = true

/-- The arguments that slip through: they are taken, but there is no code, or white space or a sign
in it, or it has more than 16 bits; or there is white space or a sign in the data, or it is too
long. -/
def Slips (arg : Bytes) : Prop :=
  ∃ code value, Taken arg code value ∧
    ((code = [] ∨ (∃ c ∈ code, isdigit c = false) ∨ 65535 < digitsValue 10 code) ∨
      (∃ c ∈ value, isspace c = true ∨ c = 43 ∨ c = 45) ∨ 2 * 65535 < value.length)

/-! ### The data -/

theorem ofHex_length : ∀ {hs data : Bytes}, ofHex hs = some data → hs.length = 2 * data.length
  | [], data, h => by
      obtain rfl := Option.some.inj h
      rfl
  | [_], data, h => nomatch h
  | a :: b :: hs, data, h => by
      rw [ofHex] at h
      split_ifs at h
      obtain ⟨rest, hrest, rfl⟩ := Option.map_eq_some_iff.mp h
      rw [List.length_cons, List.length_cons, List.length_cons, ofHex_length hrest]
      omega

theorem digit_not_special {c : UInt8} (h : digitValue c < 16) :
    isspace c = false ∧ c ≠ 43 ∧ c ≠ 45 := by
  have hall : ∀ n : Fin 256, digitValue (UInt8.ofNat n) < 16 →
      isspace (UInt8.ofNat n) = false ∧ UInt8.ofNat n ≠ 43 ∧ UInt8.ofNat n ≠ 45 := by
    decide +kernel
  have hc := hall ⟨c.toNat, c.toNat_lt⟩
  simp only [UInt8.ofNat_toNat] at hc
  exact hc h

theorem strtoul_pair {a b : UInt8} (hspace : isspace a = false) (hplus : a ≠ 43) (hminus : a ≠ 45) :
    ((strtoul 16 [a, b]).2 < 2 ∨ (strtoul 16 [a, b]).1 = ulongMax ↔
        ¬(digitValue a < 16 ∧ digitValue b < 16)) ∧
      (digitValue a < 16 → digitValue b < 16 →
        (strtoul 16 [a, b]).1 = digitValue a * 16 + digitValue b) := by
  rw [strtoul_digits (s := [a, b]) hspace hplus hminus (Or.inr (by simp))]
  by_cases ha : digitValue a < 16
  · by_cases hb : digitValue b < 16
    · have hdigits : digits 16 [a, b] = [a, b] := by simp [digits, ha, hb]
      have hvalue : digitsValue 16 [a, b] = digitValue a * 16 + digitValue b := by
        simp [digitsValue]
      have hmin : min (digitValue a * 16 + digitValue b) ulongMax =
          digitValue a * 16 + digitValue b := by
        unfold ulongMax
        omega
      rw [hdigits, hvalue, hmin]
      refine ⟨⟨fun hbad => ?_, fun hbad => absurd ⟨ha, hb⟩ hbad⟩, fun _ _ => rfl⟩
      simp only [List.length_cons, List.length_nil, ulongMax] at hbad
      omega
    · have hdigits : digits 16 [a, b] = [a] := by simp [digits, ha, hb]
      rw [hdigits]
      exact ⟨⟨fun _ hboth => hb hboth.2, fun _ => Or.inl (by simp)⟩, fun _ hb' => absurd hb' hb⟩
  · have hdigits : digits 16 [a, b] = [] := by simp [digits, ha]
    rw [hdigits]
    exact ⟨⟨fun _ hboth => ha hboth.1, fun _ => Or.inl (by simp)⟩, fun ha' => absurd ha' ha⟩

/-- After white space or a sign only the second character can be a digit. -/
theorem takenPair_special : ∀ a ∈ ([9, 10, 11, 12, 13, 32, 43, 45] : List UInt8), ∀ n : Fin 256,
    ((strtoul 16 [a, UInt8.ofNat n]).2 < 2 ∨ (strtoul 16 [a, UInt8.ofNat n]).1 = ulongMax) ↔
      ¬ takenPair a (UInt8.ofNat n) = true := by
  decide +kernel

theorem special_mem {a : UInt8} (h : isspace a = true ∨ a = 43 ∨ a = 45) :
    a ∈ ([9, 10, 11, 12, 13, 32, 43, 45] : List UInt8) := by
  have hall : ∀ n : Fin 256, (isspace (UInt8.ofNat n) = true ∨ UInt8.ofNat n = 43 ∨
      UInt8.ofNat n = 45) → UInt8.ofNat n ∈ ([9, 10, 11, 12, 13, 32, 43, 45] : List UInt8) := by
    decide +kernel
  have hmem := hall ⟨a.toNat, a.toNat_lt⟩
  simp only [UInt8.ofNat_toNat] at hmem
  exact hmem h

theorem takenPair_iff (a b : UInt8) :
    ((strtoul 16 [a, b]).2 < 2 ∨ (strtoul 16 [a, b]).1 = ulongMax) ↔ ¬ takenPair a b = true := by
  by_cases hspecial : isspace a = true ∨ a = 43 ∨ a = 45
  · have hiff := takenPair_special a (special_mem hspecial) ⟨b.toNat, b.toNat_lt⟩
    simpa only [UInt8.ofNat_toNat] using hiff
  · simp only [not_or, Bool.not_eq_true] at hspecial
    obtain ⟨hspace, hplus, hminus⟩ := hspecial
    rw [(strtoul_pair hspace hplus hminus).1]
    simp [takenPair, hspace, hplus, hminus, and_comm]

/-- **The loop over the pairs** puts what they are taken for. -/
theorem parseHexPairs_eq : ∀ {value : Bytes}, value.length % 2 = 0 → ∀ buffer : PerfBuffer,
    parseHexPairs value buffer =
      if takenHex value = true then buffer.putmem (pairsOf value) else none
  | [], _, buffer => by
      refine (PerfBuffer.putmem_eq_some.mpr ⟨?_, (List.append_nil _).symm, rfl⟩).symm
      exact buffer.used_le
  | [_], heven, _ => nomatch heven
  | a :: b :: value, heven, buffer => by
      have heven : value.length % 2 = 0 := by
        rw [List.length_cons, List.length_cons] at heven
        omega
      have ih := parseHexPairs_eq heven
      have hpair := takenPair_iff a b
      rw [parseHexPairs, takenHex, pairsOf]
      dsimp only
      by_cases htaken : takenPair a b = true
      · rw [if_neg fun h => hpair.mp h htaken, htaken, Bool.true_and, PerfBuffer.putuint8]
        simp only [ih]
        split_ifs
        · exact PerfBuffer.putmem_bind_putmem_last buffer _ _
        · simp
      · rw [if_pos (hpair.mpr htaken), if_neg fun h => htaken (Bool.and_eq_true_iff.mp h).1]

theorem length_of_takenHex : ∀ {value : Bytes}, takenHex value = true →
    value.length = 2 * (pairsOf value).length
  | [], _ => rfl
  | [_], h => nomatch h
  | a :: b :: value, h => by
      have ih := length_of_takenHex (Bool.and_eq_true_iff.mp h).2
      rw [pairsOf, List.length_cons, List.length_cons, List.length_cons, ih]
      omega

theorem takenHex_of_ofHex : ∀ {hs data : Bytes}, ofHex hs = some data →
    takenHex hs = true ∧ pairsOf hs = data ∧ ∀ c ∈ hs, digitValue c < 16
  | [], _, h => by
      cases h
      exact ⟨rfl, rfl, nofun⟩
  | [_], _, h => nomatch h
  | a :: b :: hs, data, h => by
      rw [ofHex] at h
      split_ifs at h with hdigits
      obtain ⟨rest, hrest, rfl⟩ := Option.map_eq_some_iff.mp h
      obtain ⟨htaken, hpairs, hall⟩ := takenHex_of_ofHex hrest
      obtain ⟨hspace, hplus, hminus⟩ := digit_not_special hdigits.1
      have hvalue := (strtoul_pair (b := b) hspace hplus hminus).2 hdigits.1 hdigits.2
      refine ⟨by simp [takenHex, takenPair, hdigits, htaken], by rw [pairsOf, hvalue, hpairs], ?_⟩
      intro c hc
      rcases List.mem_cons.mp hc with rfl | hc
      · exact hdigits.1
      rcases List.mem_cons.mp hc with rfl | hc
      · exact hdigits.2
      · exact hall c hc

/-- Without white space and signs only digits are taken. -/
theorem ofHex_of_takenHex : ∀ {hs : Bytes}, takenHex hs = true →
    (¬ ∃ c ∈ hs, isspace c = true ∨ c = 43 ∨ c = 45) → ofHex hs = some (pairsOf hs)
  | [], _, _ => rfl
  | [_], h, _ => nomatch h
  | a :: b :: hs, h, hnone => by
      obtain ⟨hpair, htaken⟩ := Bool.and_eq_true_iff.mp h
      have ha : ¬ (isspace a = true ∨ a = 43 ∨ a = 45) := fun ha =>
        hnone ⟨a, List.mem_cons_self, ha⟩
      simp only [not_or, Bool.not_eq_true] at ha
      have hdigits : digitValue a < 16 ∧ digitValue b < 16 := by
        simpa [takenPair, ha, and_comm] using hpair
      have ih := ofHex_of_takenHex htaken fun ⟨c, hc, h⟩ =>
        hnone ⟨c, List.mem_cons_of_mem _ (List.mem_cons_of_mem _ hc), h⟩
      rw [ofHex, if_pos hdigits, ih, pairsOf,
        (strtoul_pair ha.1 ha.2.1 ha.2.2).2 hdigits.1 hdigits.2]
      rfl

/-! ### The code -/

theorem strtoul_taken (s : Bytes) :
    ((strtoul 10 s).2 < s.length ∨ (strtoul 10 s).1 = ulongMax) ↔ ¬ TakenCode s := by
  have hle : (if (s.dropWhile isspace).headD 0 = 43 ∨ (s.dropWhile isspace).headD 0 = 45 then
      (s.dropWhile isspace).tail else s.dropWhile isspace).length ≤ s.length := by
    have hdrop := (List.dropWhile_sublist isspace (l := s)).length_le
    split_ifs
    · rw [List.length_tail]
      omega
    · exact hdrop
  rw [strtoul_ten, TakenCode]
  generalize (s.dropWhile isspace).headD 0 = c at *
  generalize (if c = 43 ∨ c = 45 then (s.dropWhile isspace).tail else s.dropWhile isspace) = ds at *
  by_cases hall : ds ≠ [] ∧ ds.all isdigit = true
  · -- digits to the end
    have htake := List.takeWhile_eq_self_iff.mpr (List.all_eq_true.mp hall.2)
    have hne : s ≠ [] := by
      rintro rfl
      exact hall.1 (List.eq_nil_of_length_eq_zero (Nat.le_zero.mp hle))
    rw [htake, if_neg hall.1]
    simp only [hne, hall, false_or, true_and, ne_eq, not_false_eq_true]
    generalize digitsValue 10 ds = v
    unfold ulongMax
    split_ifs <;> omega
  · -- some character is left over, unless there is none
    rw [not_or, and_iff_left fun h => hall h.1]
    by_cases hnil : ds.takeWhile isdigit = []
    · rw [if_pos hnil]
      have hpos : 0 < s.length ↔ s ≠ [] := List.length_pos_iff
      simpa [ulongMax] using hpos
    · rw [if_neg hnil]
      have hds : ds ≠ [] := fun h => hnil (by rw [h]; rfl)
      have hlt : (ds.takeWhile isdigit).length < ds.length := by
        have htaken := List.takeWhile_prefix isdigit (l := ds)
        refine lt_of_le_of_ne htaken.length_le fun heq => hall ⟨hds, List.all_eq_true.mpr ?_⟩
        exact List.takeWhile_eq_self_iff.mp (htaken.eq_of_length heq)
      refine iff_of_true (Or.inl (by dsimp only; omega)) fun h => ?_
      rw [h, List.length_nil] at hle
      omega

theorem takenCode_digits {ds : Bytes} (hne : ds ≠ []) (hall : ∀ c ∈ ds, isdigit c = true)
    (hle : digitsValue 10 ds ≤ 65535) :
    TakenCode ds ∧ (strtoul 10 ds).1 = digitsValue 10 ds := by
  obtain ⟨c, u, rfl⟩ := List.exists_cons_of_ne_nil hne
  obtain ⟨hspace, hplus, hminus⟩ := digit_not_special (c := c)
    (Nat.lt_trans (digitValue_lt_ten.mpr (hall c List.mem_cons_self)) (by decide))
  have hnum := strtoul_unsigned (s := c :: u) hspace hplus hminus
  rw [List.takeWhile_eq_self_iff.mpr hall,
    min_eq_left (hle.trans (by decide))] at hnum
  refine ⟨?_, by rw [hnum]⟩
  by_contra htaken
  rcases (strtoul_taken _).mpr htaken with hshort | hmax
  · rw [hnum] at hshort
    exact Nat.lt_irrefl _ hshort
  · rw [hnum] at hmax
    have hvalue : digitsValue 10 (c :: u) = ulongMax := hmax
    rw [hvalue] at hle
    exact absurd hle (by decide)

/-! ### The option -/

theorem isdigit_ne_colon {c : UInt8} (h : isdigit c = true) : c ≠ 58 := by
  rintro rfl
  exact absurd h (by decide)

/-- The code, the placeholder and the data are written in one piece, and there is room. -/
theorem putmem_option {n : Nat} (code : Nat) (data : Bytes) (hn : data.length + 4 ≤ n) :
    ∃ b : PerfBuffer, b.base = be16 code ++ ([0, 0] ++ data) ∧
      ∀ k : PerfBuffer → Option PerfBuffer,
        ((PerfBuffer.init n).putmem (be16 code)).bind (fun b =>
          (b.putmem [0, 0]).bind fun b => (b.putmem data).bind k) = k b := by
  have hfits : (PerfBuffer.init n).Fits (be16 code ++ ([0, 0] ++ data)).length := by
    simp only [PerfBuffer.Fits, List.length_append, be16_length, List.length_cons,
      List.length_nil, PerfBuffer.init]
    omega
  refine ⟨_, PerfBuffer.push_base hfits, fun k => ?_⟩
  simp only [PerfBuffer.putmem_bind_putmem, PerfBuffer.putmem_eq_push hfits, Option.bind_some]

/-- **What is accepted**, for an argument with a colon, and the option it makes. -/
theorem perfEdnsParseoption_iff {arg code value : Bytes} (hsplit : cstr arg = code ++ 58 :: value)
    (hcolon : (58 : UInt8) ∉ code) (base : Bytes) :
    (∃ o, perfEdnsParseoption arg = some o ∧ o.base = base) ↔
      Taken arg code value ∧
        base = be16 (strtoul 10 code).1 ++ be16 (pairsOf value).length ++ pairsOf value := by
  unfold perfEdnsParseoption
  simp only [hsplit, takeWhile_bne_append hcolon, dropWhile_bne_append hcolon]
  have hnone : ¬ ∃ o : PerfBuffer, none = some o ∧ o.base = base := by
    rintro ⟨o, ho, -⟩
    cases ho
  by_cases hzero : value.length = 0
  · rw [if_pos hzero]
    refine ⟨fun h => absurd h hnone, fun h => ?_⟩
    exact absurd (List.eq_nil_of_length_eq_zero hzero) h.1.ne
  by_cases hodd : value.length % 2 = 1
  · rw [if_neg hzero, if_pos hodd]
    refine ⟨fun h => absurd h hnone, fun h => ?_⟩
    rw [length_of_takenHex h.1.value] at hodd
    omega
  rw [if_neg hzero, if_neg hodd]
  by_cases hcode : TakenCode code
  · rw [if_neg fun h => (strtoul_taken code).mp h hcode]
    have heven : value.length % 2 = 0 := by omega
    simp only [PerfBuffer.putuint16, Option.bind_eq_bind, parseHexPairs_eq heven]
    by_cases htaken : takenHex value = true
    · have hlen := length_of_takenHex htaken
      obtain ⟨b, hb, hput⟩ := putmem_option (n := value.length / 2 + 4) (strtoul 10 code).1
        (pairsOf value) (by omega)
      have hfilled := modify_placeholder hb
      simp only [if_pos htaken, hput]
      constructor
      · rintro ⟨o, ho, rfl⟩
        obtain rfl := Option.some.inj ho
        exact ⟨⟨hsplit, hcolon, hcode, fun h => hzero (by rw [h]; rfl), htaken⟩, hfilled⟩
      · rintro ⟨-, rfl⟩
        exact ⟨_, rfl, hfilled⟩
    · simp only [if_neg htaken, Option.bind_none, Option.bind_fun_none]
      exact ⟨fun h => absurd h hnone, fun h => absurd h.1.value htaken⟩
  · rw [if_pos ((strtoul_taken code).mpr hcode)]
    exact ⟨fun h => absurd h hnone, fun h => absurd h.1.code hcode⟩

theorem exists_taken {arg : Bytes} {o : PerfBuffer} (h : perfEdnsParseoption arg = some o) :
    ∃ code value, Taken arg code value ∧
      o.base = be16 (strtoul 10 code).1 ++ be16 (pairsOf value).length ++ pairsOf value := by
  cases hdrop : (cstr arg).dropWhile (· != 58) with
  | nil =>
      unfold perfEdnsParseoption at h
      simp only [hdrop] at h
      cases h
  | cons c value =>
      obtain ⟨-, hsplit, hcolon⟩ := exists_of_dropWhile_bne hdrop
      exact ⟨_, value, (perfEdnsParseoption_iff hsplit hcolon o.base).mp ⟨o, h, rfl⟩⟩

theorem Spells.accepted {arg data : Bytes} {code : Nat} (h : Spells arg code data) :
    ∃ o, perfEdnsParseoption arg = some o ∧
      o.base = be16 code ++ be16 data.length ++ data := by
  obtain ⟨ds, hs, hsplit, ⟨hne, hall, rfl, hcode⟩, hdata, hdatane, -⟩ := h
  have hcolon : (58 : UInt8) ∉ ds := fun hmem => isdigit_ne_colon (hall 58 hmem) rfl
  obtain ⟨htaken, hnum⟩ := takenCode_digits hne hall hcode
  obtain ⟨hhex, hpairs, -⟩ := takenHex_of_ofHex hdata
  have hhs : hs ≠ [] := by
    rintro rfl
    exact hdatane (Option.some.inj hdata).symm
  refine (perfEdnsParseoption_iff hsplit hcolon _).mpr ⟨⟨hsplit, hcolon, htaken, hhs, hhex⟩, ?_⟩
  rw [hnum, hpairs]

theorem Spells.parts {arg data : Bytes} {code : Nat} (h : Spells arg code data) :
    ((cstr arg).takeWhile (· != 58) ≠ [] ∧
        (∀ c ∈ (cstr arg).takeWhile (· != 58), isdigit c = true) ∧
        digitsValue 10 ((cstr arg).takeWhile (· != 58)) ≤ 65535) ∧
      ofHex ((cstr arg).dropWhile (· != 58)).tail = some data ∧ data.length ≤ 65535 := by
  obtain ⟨ds, hs, hsplit, ⟨hne, hall, rfl, hcode⟩, hdata, -, hlen⟩ := h
  have hcolon : (58 : UInt8) ∉ ds := fun hmem => isdigit_ne_colon (hall 58 hmem) rfl
  rw [hsplit, takeWhile_bne_append hcolon, dropWhile_bne_append hcolon]
  exact ⟨⟨hne, hall, hcode⟩, hdata, hlen⟩

/-- A taken argument that does not slip through spells what it is taken for. -/
theorem Taken.spells {arg code value : Bytes} (h : Taken arg code value) (hslips : ¬ Slips arg) :
    Spells arg (strtoul 10 code).1 (pairsOf value) := by
  have hgood : ¬ _ := fun hbad => hslips ⟨code, value, h, hbad⟩
  simp only [not_or, not_lt] at hgood
  obtain ⟨⟨hne, hdigit, hle⟩, hspecial, hlen⟩ := hgood
  have hall : ∀ c ∈ code, isdigit c = true := fun c hc =>
    Bool.eq_true_of_not_eq_false fun hfalse => hdigit ⟨c, hc, hfalse⟩
  have hdata := ofHex_of_takenHex h.value hspecial
  have hpairs := ofHex_length hdata
  refine ⟨code, value, h.split, ?_, hdata, ?_, by omega⟩
  · rw [(takenCode_digits hne hall hle).2]
    exact ⟨hne, hall, rfl, hle⟩
  · intro hnil
    rw [hnil] at hpairs
    exact h.ne (List.eq_nil_of_length_eq_zero hpairs)

/-- **Option arguments are parsed exactly** if and only if they do not slip through: just those
that spell an option are accepted, and the buffer is the code, the length and the data, which
decode to what was spelled. -/
theorem perfEdnsParseoption_exact (arg : Bytes) :
    (((∃ o, perfEdnsParseoption arg = some o) ↔ ∃ code data, Spells arg code data) ∧
        ∀ o, perfEdnsParseoption arg = some o → ∃ code data, Spells arg code data ∧
          o.base = be16 code ++ be16 data.length ++ data ∧
          parseOption o.base = some (code, data)) ↔
      ¬ Slips arg := by
  constructor
  · rintro ⟨hiff, -⟩ ⟨code, value, htaken, hbad⟩
    obtain ⟨o, ho, -⟩ := (perfEdnsParseoption_iff htaken.split htaken.colon _).mpr ⟨htaken, rfl⟩
    obtain ⟨c, data, hspells⟩ := hiff.mp ⟨o, ho⟩
    have hparts := hspells.parts
    rw [htaken.split, takeWhile_bne_append htaken.colon,
      dropWhile_bne_append htaken.colon] at hparts
    obtain ⟨⟨hne, hall, hle⟩, hdata, hlen⟩ := hparts
    have hdatalen := ofHex_length hdata
    obtain ⟨-, -, hdigits⟩ := takenHex_of_ofHex hdata
    -- each way to slip is excluded by the spelling
    rcases hbad with (hnil | ⟨c, hc, hfalse⟩ | hlarge) | ⟨c, hc, hspecial⟩ | hlong
    · exact hne hnil
    · exact absurd (hall c hc) (by rw [hfalse]; decide)
    · omega
    · obtain ⟨hspace, hplus, hminus⟩ := digit_not_special (hdigits c hc)
      simp [hspace, hplus, hminus] at hspecial
    · rw [List.tail_cons] at hdatalen
      omega
  · intro hslips
    have haccepted : ∀ o, perfEdnsParseoption arg = some o → ∃ code data, Spells arg code data ∧
        o.base = be16 code ++ be16 data.length ++ data := by
      intro o ho
      obtain ⟨code, value, htaken, hbase⟩ := exists_taken ho
      exact ⟨_, _, htaken.spells hslips, hbase⟩
    refine ⟨⟨fun ⟨o, ho⟩ => ?_, fun ⟨code, data, hspells⟩ => ?_⟩, fun o ho => ?_⟩
    · obtain ⟨code, data, hspells, -⟩ := haccepted o ho
      exact ⟨code, data, hspells⟩
    · obtain ⟨o, ho, -⟩ := hspells.accepted
      exact ⟨o, ho⟩
    · obtain ⟨code, data, hspells, hbase⟩ := haccepted o ho
      refine ⟨code, data, hspells, hbase, ?_⟩
      obtain ⟨-, -, -, ⟨-, -, -, hcode⟩, -, -, hdata⟩ := hspells
      rw [hbase]
      exact parseOption_be16 (by omega) (by omega)

/-- **Arguments that are accepted and spell no option**: no code at all, a code of more than 16
bits, which is cut, and a sign in the data. -/
theorem perfEdnsParseoption_inexact :
    (perfEdnsParseoption (ascii ":00") = some ((PerfBuffer.init 5).push [0, 0, 0, 1, 0]) ∧
        ¬∃ code data, Spells (ascii ":00") code data) ∧
      (perfEdnsParseoption (ascii "65537:00") = some ((PerfBuffer.init 5).push [0, 1, 0, 1, 0]) ∧
        ¬∃ code data, Spells (ascii "65537:00") code data) ∧
      (perfEdnsParseoption (ascii "5:+1") = some ((PerfBuffer.init 5).push [0, 5, 0, 1, 1]) ∧
        ¬∃ code data, Spells (ascii "5:+1") code data) := by
  refine ⟨⟨by decide, ?_⟩, ⟨by decide, ?_⟩, by decide, ?_⟩
  · rintro ⟨code, data, h⟩
    exact h.parts.1.1 (by decide)
  · rintro ⟨code, data, h⟩
    exact absurd h.parts.1.2.2 (by decide)
  · rintro ⟨code, data, h⟩
    have hnone : ofHex ((cstr (ascii "5:+1")).dropWhile (· != 58)).tail = none := by decide
    exact nomatch hnone.symm.trans h.parts.2.1

end Dnsperf.Dns
