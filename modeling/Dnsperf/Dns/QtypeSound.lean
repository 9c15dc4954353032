import Dnsperf.Dns.Qtype

/-!
# Dnsperf.Dns.QtypeSound

**Which tokens `perf_qtype_fromstring` takes for a type**, against those that denote one:
a mnemonic of the table, or `TYPE` and a decimal number.

The table is searched for an entry that *begins* with the token, so that an abbreviation is
taken for the first mnemonic it abbreviates. `TA`, a mnemonic itself, is one: `TALINK` stands
before it. `strtoul` reads a sign, so that `TYPE+1` is a type too. All other tokens are read
as they are meant.
-/

namespace Dnsperf.Dns

open Dnsperf.Lib

/-- What ends a token: the end of the text, or white space. -/
def EndsToken (rest : Bytes) : Prop := rest.headD 0 = 0 ∨ isspace (rest.headD 0) = true

/-- The characters of a token. -/
def IsToken (token : Bytes) : Prop := token ≠ [] ∧ ∀ c ∈ token, isspace c = false ∧ c ≠ 0

/-- The types a token denotes. -/
inductive DenotesQtype (token : Bytes) : Nat → Prop
  /-- A mnemonic of the table, in any case. -/
  | mnemonic (name : String) {value : Nat} (hmem : (name, value) ∈ qtypeTable)
      (heq : token.map tolower = (ascii name).map tolower) : DenotesQtype token value
  /-- `TYPE`, in any case, and a number. -/
  | number {type ds : Bytes} (htoken : token = type ++ ds)
      (htype : type.map tolower = (ascii "TYPE").map tolower) (hne : ds ≠ [])
      (hds : ∀ c ∈ ds, isdigit c = true) (hle : digitsValue 10 ds ≤ 65535) :
      DenotesQtype token (digitsValue 10 ds)

/-- The beginning of a mnemonic that is none itself. -/
def Abbreviates (token : Bytes) : Prop :=
  (∃ q ∈ qtypeTable, token.map tolower <+: (ascii q.1).map tolower) ∧
    ∀ q ∈ qtypeTable, token.map tolower ≠ (ascii q.1).map tolower

instance (token : Bytes) : Decidable (Abbreviates token) :=
  inferInstanceAs (Decidable (_ ∧ _))

/-- `TYPE`, a sign and a number that comes out of `strtoul` as one of 16 bits: after a minus it is
negated modulo `2^64`. -/
def Signed (token : Bytes) : Prop :=
  (ascii "TYPE").map tolower <+: token.map tolower ∧
    (token.drop 5 ≠ [] ∧ (token.drop 5).all isdigit = true) ∧
    let v := digitsValue 10 (token.drop 5)
    ((token.drop 4).headD 0 = 43 ∧ v ≤ 65535) ∨
      ((token.drop 4).headD 0 = 45 ∧ (v = 0 ∨ 2 ^ 64 - 65535 ≤ v ∧ v < 2 ^ 64))

instance (token : Bytes) : Decidable (Signed token) :=
  inferInstanceAs (Decidable (_ ∧ _ ∧ (_ ∨ _)))

/-- The table with its mnemonics in lower case. -/
def lowerTable : List (Bytes × Nat) := qtypeTable.map fun q => ((ascii q.1).map tolower, q.2)

/-! ### The table -/

/-- No mnemonic but `TA` is found under another one. -/
theorem lowerTable_find : ∀ q ∈ lowerTable, q.1 ≠ (ascii "TA").map tolower →
    lowerTable.find? (fun r => q.1.isPrefixOf r.1) = some q := by
  decide +kernel

theorem lowerTable_not_type :
    ∀ q ∈ lowerTable, ¬ (ascii "TYPE").map tolower <+: q.1 := by
  decide +kernel

section

variable {token rest : Bytes} {target : PerfBuffer}

theorem IsToken.not_mem_zero (h : IsToken token) : (0 : UInt8) ∉ token := fun h0 => (h.2 0 h0).2 rfl

theorem ascii_type_length : (ascii "TYPE").length = 4 := by decide +kernel

theorem lower_type_length {type : Bytes} (h : type.map tolower = (ascii "TYPE").map tolower) :
    type.length = 4 := by
  have hlen := congrArg List.length h
  rw [List.length_map, List.length_map] at hlen
  exact hlen.trans ascii_type_length

theorem find_qtypeTable (rest : Bytes) (h : IsToken token) :
    (qtypeTable.find? fun q => strncasecmpEq token.length (ascii q.1) (token ++ rest)).map (·.2) =
      (lowerTable.find? fun r => (token.map tolower).isPrefixOf r.1).map (·.2) := by
  rw [lowerTable, List.find?_map, Option.map_map]
  congr 2
  funext q
  rw [Bool.eq_iff_iff, strncasecmpEq_iff h.not_mem_zero]
  exact List.isPrefixOf_iff_prefix.symm

theorem type_test (token rest : Bytes) :
    (4 < token.length && strncasecmpEq 4 (token ++ rest) (ascii "TYPE")) = true ↔
      4 < token.length ∧ (ascii "TYPE").map tolower <+: token.map tolower := by
  have hzero : (0 : UInt8) ∉ ascii "TYPE" := by decide +kernel
  rw [Bool.and_eq_true, decide_eq_true_eq]
  refine and_congr_right fun hlong => ?_
  have hiff := strncasecmpEq_iff hzero (token ++ rest) []
  rw [ascii_type_length, List.append_nil, List.map_append] at hiff
  rw [hiff]
  constructor
  · intro hpre
    refine List.prefix_of_prefix_length_le hpre (List.prefix_append _ _) ?_
    rw [List.length_map, List.length_map, ascii_type_length]
    omega
  · exact fun hpre => hpre.trans (List.prefix_append _ _)

theorem takeWhile_isdigit (u : Bytes) (hrest : EndsToken rest) :
    (u ++ rest).takeWhile isdigit = u.takeWhile isdigit := by
  have hstop : rest.takeWhile isdigit = [] := by
    cases rest with
    | nil => rfl
    | cons c rest =>
        refine List.takeWhile_cons_of_neg fun hc => ?_
        rcases hrest with h0 | hspace
        · obtain rfl : c = 0 := h0
          exact absurd hc (by decide)
        · have hnot : ∀ n : Fin 256, isspace (UInt8.ofNat n) = true →
              isdigit (UInt8.ofNat n) = false := by decide +kernel
          have hfalse := hnot ⟨c.toNat, c.toNat_lt⟩
          simp only [UInt8.ofNat_toNat] at hfalse
          rw [hfalse hspace] at hc
          cases hc
  rw [List.takeWhile_append]
  split_ifs with hall
  · rw [hstop, List.append_nil]
    exact ((List.takeWhile_prefix isdigit).eq_of_length hall).symm
  · rfl

/-! ### Both forms -/

theorem exists_drop_four (htoken : IsToken token) (hlong : 4 < token.length) :
    ∃ c u, token.drop 4 = c :: u ∧ token.length = 4 + (c :: u).length ∧ isspace c = false := by
  obtain ⟨c, u, hu⟩ : ∃ c u, token.drop 4 = c :: u :=
    List.exists_cons_of_ne_nil (List.ne_nil_of_length_pos (by rw [List.length_drop]; omega))
  refine ⟨c, u, hu, ?_, (htoken.2 c (List.mem_of_mem_drop (hu ▸ List.mem_cons_self))).1⟩
  rw [← hu, List.length_drop]
  omega

theorem qtype_number (htoken : IsToken token) (hrest : EndsToken rest) (hlong : 4 < token.length)
    (htype : (ascii "TYPE").map tolower <+: token.map tolower)
    (hsign : (token.drop 4).headD 0 ≠ 43 ∧ (token.drop 4).headD 0 ≠ 45) (target : PerfBuffer) :
    perfQtypeFromstring (token ++ rest) token.length target =
      if (token.drop 4).all isdigit = true ∧ digitsValue 10 (token.drop 4) ≤ 65535 then
        (target.putuint16 (digitsValue 10 (token.drop 4))).bind fun t => some (.success, t)
      else some (.failure, target) := by
  obtain ⟨c, u, hu, hlen, hspace⟩ := exists_drop_four htoken hlong
  rw [hu] at hsign
  have hdrop : (token ++ rest).drop 4 = (c :: u) ++ rest := by
    rw [List.drop_append_of_le_length (by omega), hu]
  have hnum := strtoul_unsigned (s := (c :: u) ++ rest) hspace hsign.1 hsign.2
  rw [takeWhile_isdigit (c :: u) hrest] at hnum
  rw [perfQtypeFromstring, if_pos ((type_test token rest).mpr ⟨hlong, htype⟩), hdrop,
    hnum, hu, hlen]
  dsimp only
  by_cases hall : ∀ d ∈ c :: u, isdigit d = true
  · rw [List.takeWhile_eq_self_iff.mpr hall]
    by_cases hle : digitsValue 10 (c :: u) ≤ 65535
    · have hmax : min (digitsValue 10 (c :: u)) ulongMax = digitsValue 10 (c :: u) :=
        min_eq_left (hle.trans (by decide))
      have hne : digitsValue 10 (c :: u) ≠ ulongMax :=
        Nat.ne_of_lt (Nat.lt_of_le_of_lt hle (by decide))
      rw [hmax, if_neg (by simp only [ne_eq, not_true_eq_false, hne, false_or]; omega),
        if_pos ⟨List.all_eq_true.mpr hall, hle⟩]
      rfl
    · have hlt : 65535 < min (digitsValue 10 (c :: u)) ulongMax :=
        lt_min (Nat.lt_of_not_le hle) (by decide)
      rw [if_pos (Or.inr (Or.inr hlt)), if_neg fun h => hle h.2]
  · have hshort : ((c :: u).takeWhile isdigit).length ≠ (c :: u).length := fun heq =>
      hall (List.takeWhile_eq_self_iff.mp ((List.takeWhile_prefix isdigit).eq_of_length heq))
    rw [if_pos (Or.inl fun heq => hshort (Nat.add_left_cancel heq)),
      if_neg fun h => hall (List.all_eq_true.mp h.1)]

theorem signed_value_le {c : UInt8} (hc : c = 43 ∨ c = 45) (v : Nat) :
    (if ulongMax < v then ulongMax else if c = 45 then (2 ^ 64 - v) % 2 ^ 64 else v) ≤
        65535 ↔
      (c = 43 ∧ v ≤ 65535) ∨ (c = 45 ∧ (v = 0 ∨ 2 ^ 64 - 65535 ≤ v ∧ v < 2 ^ 64)) := by
  unfold ulongMax
  rcases hc with rfl | rfl
  · simp only [show (43 : UInt8) ≠ 45 by decide, if_false, true_and, false_and, or_false]
    split_ifs <;> omega
  · simp only [show (45 : UInt8) ≠ 43 by decide, if_true, true_and, false_and, false_or]
    split_ifs <;> omega

/-- `TYPE` and a sign: only the numbers of `Signed` are taken. -/
theorem qtype_signed (htoken : IsToken token) (hrest : EndsToken rest) (hlong : 4 < token.length)
    (htype : (ascii "TYPE").map tolower <+: token.map tolower)
    (hsign : (token.drop 4).headD 0 = 43 ∨ (token.drop 4).headD 0 = 45) (target : PerfBuffer) :
    perfQtypeFromstring (token ++ rest) token.length target =
      if Signed token then
        (target.putuint16 (strtoul 10 ((token ++ rest).drop 4)).1).bind fun t => some (.success, t)
      else some (.failure, target) := by
  obtain ⟨c, u, hu, hlen, -⟩ := exists_drop_four htoken hlong
  have hu5 : token.drop 5 = u := by
    rw [show (5 : Nat) = 4 + 1 from rfl, ← List.drop_drop, hu]
    rfl
  have hdrop : (token ++ rest).drop 4 = c :: (u ++ rest) := by
    rw [List.drop_append_of_le_length (by omega), hu]
    rfl
  rw [hu, List.headD_cons] at hsign
  have hnum := strtoul_sign hsign (u ++ rest)
  rw [takeWhile_isdigit u hrest] at hnum
  rw [perfQtypeFromstring, if_pos ((type_test token rest).mpr ⟨hlong, htype⟩), hdrop, hnum]
  by_cases hall : u ≠ [] ∧ u.all isdigit = true
  · -- the number ends with the token, and only its size matters
    have hend : 4 + (1 + u.length) = token.length := by
      rw [hlen, List.length_cons]
      omega
    have hiff : Signed token ↔ _ := (and_iff_right htype).trans (and_iff_right (by rwa [hu5]))
    rw [hu5, hu, List.headD_cons, ← signed_value_le hsign] at hiff
    rw [List.takeWhile_eq_self_iff.mpr (List.all_eq_true.mp hall.2), if_neg hall.1]
    simp only [hend, ne_eq, not_true_eq_false, false_or, hiff]
    generalize (if ulongMax < digitsValue 10 u then ulongMax else _) = v
    by_cases hv : v ≤ 65535
    · rw [if_neg (by unfold ulongMax; omega), if_pos hv]
      rfl
    · rw [if_pos (Or.inr (Nat.lt_of_not_le hv)), if_neg hv]
  · -- the number does not go to the end of the token
    rw [if_neg fun hsigned : Signed token => hall (hu5 ▸ hsigned.2.1)]
    by_cases hnil : u.takeWhile isdigit = []
    · rw [if_pos hnil]
      exact if_pos (Or.inl (by omega))
    · rw [if_neg hnil]
      refine if_pos (Or.inl fun hend => hall ⟨fun h => hnil (by rw [h]; rfl), ?_⟩)
      rw [hlen, List.length_cons] at hend
      have htaken := (List.takeWhile_prefix isdigit (l := u)).eq_of_length (by omega)
      exact List.all_eq_true.mpr (List.takeWhile_eq_self_iff.mp htaken)

/-- A token without `TYPE`: the first mnemonic that begins with it. -/
theorem qtype_table (htoken : IsToken token)
    (htype : ¬ (4 < token.length ∧ (ascii "TYPE").map tolower <+: token.map tolower))
    (target : PerfBuffer) :
    perfQtypeFromstring (token ++ rest) token.length target =
      match (lowerTable.find? fun r => (token.map tolower).isPrefixOf r.1).map (·.2) with
      | some value => (target.putuint16 value).bind fun t => some (.success, t)
      | none => some (.failure, target) := by
  rw [perfQtypeFromstring, if_neg fun h => htype ((type_test token rest).mp h),
    ← find_qtypeTable rest htoken]
  cases qtypeTable.find? fun q => strncasecmpEq token.length (ascii q.1) (token ++ rest) with
  | none => rfl
  | some q => rfl

theorem mem_lowerTable {name : String} {value : Nat} (h : (name, value) ∈ qtypeTable) :
    ((ascii name).map tolower, value) ∈ lowerTable := List.mem_map_of_mem h

theorem find_mnemonic {name : String} {value : Nat} (hmem : (name, value) ∈ qtypeTable)
    (heq : token.map tolower = (ascii name).map tolower)
    (hta : token.map tolower ≠ (ascii "TA").map tolower) :
    (lowerTable.find? fun r => (token.map tolower).isPrefixOf r.1).map (·.2) = some value := by
  have hfind := lowerTable_find _ (mem_lowerTable hmem) (heq ▸ hta)
  rw [heq, hfind]
  rfl

theorem find_none (h : ∀ q ∈ qtypeTable, ¬ token.map tolower <+: (ascii q.1).map tolower) :
    lowerTable.find? (fun r => (token.map tolower).isPrefixOf r.1) = none := by
  rw [List.find?_eq_none]
  intro r hr hpre
  obtain ⟨q, hq, rfl⟩ := List.mem_map.mp hr
  exact h q hq (List.isPrefixOf_iff_prefix.mp hpre)

/-- A token that begins with `TYPE`, and is longer. No mnemonic is. -/
theorem denotes_number_iff {v : Nat} (hlong : 4 < token.length)
    (hpre : (ascii "TYPE").map tolower <+: token.map tolower) :
    DenotesQtype token v ↔ (token.drop 4).all isdigit = true ∧
      digitsValue 10 (token.drop 4) ≤ 65535 ∧ v = digitsValue 10 (token.drop 4) := by
  constructor
  · intro hv
    cases hv with
    | mnemonic name hmem heq =>
        exact absurd (heq ▸ hpre) (lowerTable_not_type _ (mem_lowerTable hmem))
    | number htok htype hne hds hle =>
        rw [htok, List.drop_left' (lower_type_length htype)]
        exact ⟨List.all_eq_true.mpr hds, hle, rfl⟩
  · rintro ⟨hds, hle, rfl⟩
    have htake : (token.take 4).map tolower = (ascii "TYPE").map tolower := by
      have heq := List.prefix_iff_eq_take.mp hpre
      rw [List.length_map, ascii_type_length] at heq
      rw [List.map_take, ← heq]
    have hne : token.drop 4 ≠ [] := List.ne_nil_of_length_pos (by rw [List.length_drop]; omega)
    exact .number (List.take_append_drop 4 token).symm htake hne (List.all_eq_true.mp hds) hle

theorem denotes_mnemonic_iff {v : Nat}
    (hnot : ¬ (4 < token.length ∧ (ascii "TYPE").map tolower <+: token.map tolower)) :
    DenotesQtype token v ↔
      ∃ name, (name, v) ∈ qtypeTable ∧ token.map tolower = (ascii name).map tolower := by
  constructor
  · intro hv
    cases hv with
    | mnemonic name hmem heq => exact ⟨name, hmem, heq⟩
    | number htok htype hne hds hle =>
        refine absurd ⟨?_, ?_⟩ hnot
        · rw [htok, List.length_append, lower_type_length htype]
          exact Nat.lt_add_of_pos_right (List.length_pos_of_ne_nil hne)
        · rw [htok, List.map_append, htype]
          exact List.prefix_append _ _
  · rintro ⟨name, hmem, heq⟩
    exact .mnemonic name hmem heq

theorem not_denotes (hmem : ∀ q ∈ qtypeTable, token.map tolower ≠ (ascii q.1).map tolower)
    (hnumber : ¬ (4 < token.length ∧ ∀ c ∈ token.drop 4, isdigit c = true)) :
    ¬ ∃ v, DenotesQtype token v := by
  rintro ⟨v, hv⟩
  cases hv with
  | mnemonic name hname heq => exact hmem _ hname heq
  | number htok htype hne hds hle =>
      refine hnumber ⟨?_, ?_⟩
      · rw [htok, List.length_append, lower_type_length htype]
        exact Nat.lt_add_of_pos_right (List.length_pos_of_ne_nil hne)
      · rw [htok, List.drop_left' (lower_type_length htype)]
        exact hds

theorem not_denotes_sign (hlong : 4 < token.length)
    (hpre : (ascii "TYPE").map tolower <+: token.map tolower)
    (hsign : (token.drop 4).headD 0 = 43 ∨ (token.drop 4).headD 0 = 45) :
    ¬ ∃ v, DenotesQtype token v := by
  rintro ⟨v, hv⟩
  obtain ⟨hds, -⟩ := (denotes_number_iff hlong hpre).mp hv
  cases hu : token.drop 4 with
  | nil => exact absurd (congrArg List.length hu) (by rw [List.length_drop]; simp; omega)
  | cons c u =>
      rw [hu] at hds hsign
      have hc : isdigit c = true := List.all_eq_true.mp hds c List.mem_cons_self
      rcases hsign with rfl | rfl <;> exact absurd hc (by decide)

/-- `TA` is found under `TALINK`. -/
theorem find_ta (h : token.map tolower = (ascii "TA").map tolower) :
    (lowerTable.find? fun r => (token.map tolower).isPrefixOf r.1).map (·.2) = some 58 := by
  rw [h]
  decide +kernel

theorem denotes_ta {v : Nat} (h : token.map tolower = (ascii "TA").map tolower)
    (hv : DenotesQtype token v) : v = 32768 := by
  have htable : ∀ q ∈ qtypeTable, (ascii "TA").map tolower = (ascii q.1).map tolower →
      q.2 = 32768 := by decide +kernel
  have hlen : token.length = 2 := by
    have hlen := congrArg List.length h
    rw [List.length_map, List.length_map] at hlen
    exact hlen.trans (by decide +kernel)
  obtain ⟨name, hmem, heq⟩ := (denotes_mnemonic_iff fun hlong => absurd hlong.1 (by omega)).mp hv
  exact htable _ hmem (h.symm.trans heq)

/-- The token is accepted exactly if it denotes a type, and that type is then appended. -/
def ReadsQtype (token rest : Bytes) (target : PerfBuffer) : Prop :=
  ((∃ t, perfQtypeFromstring (token ++ rest) token.length target = some (.success, t)) ↔
      ∃ v, DenotesQtype token v) ∧
    ∀ t, perfQtypeFromstring (token ++ rest) token.length target = some (.success, t) →
      ∃ v, DenotesQtype token v ∧ t = target.push (be16 v)

theorem readsQtype_of_failure
    (h : perfQtypeFromstring (token ++ rest) token.length target = some (.failure, target)) :
    ReadsQtype token rest target ↔ ¬ ∃ v, DenotesQtype token v := by
  unfold ReadsQtype
  rw [h]
  simp

theorem readsQtype_of_success {v : Nat}
    (h : perfQtypeFromstring (token ++ rest) token.length target =
      some (.success, target.push (be16 v))) :
    ReadsQtype token rest target ↔
      ∃ v', DenotesQtype token v' ∧ target.push (be16 v) = target.push (be16 v') := by
  unfold ReadsQtype
  rw [h]
  constructor
  · rintro ⟨-, hall⟩
    exact hall _ rfl
  · rintro ⟨v', hv', heq⟩
    refine ⟨⟨fun _ => ⟨v', hv'⟩, fun _ => ⟨_, rfl⟩⟩, fun t ht => ⟨v', hv', ?_⟩⟩
    cases ht
    exact heq

theorem readsQtype_type_iff (htoken : IsToken token) (hrest : EndsToken rest)
    (hput : ∀ v, ((target.putuint16 v).bind fun t => some (PerfResult.success, t)) =
      some (.success, target.push (be16 v)))
    (hlong : 4 < token.length) (htype : (ascii "TYPE").map tolower <+: token.map tolower) :
    ReadsQtype token rest target ↔ ¬ Signed token := by
  by_cases hsign : (token.drop 4).headD 0 = 43 ∨ (token.drop 4).headD 0 = 45
  · have hnone := not_denotes_sign hlong htype hsign
    have hread := qtype_signed htoken hrest hlong htype hsign target
    by_cases hsigned : Signed token
    · rw [if_pos hsigned, hput] at hread
      rw [readsQtype_of_success hread]
      exact ⟨fun ⟨v, hv, _⟩ => absurd ⟨v, hv⟩ hnone, fun h => absurd hsigned h⟩
    · rw [if_neg hsigned] at hread
      rw [readsQtype_of_failure hread]
      exact iff_of_true hnone hsigned
  · rw [not_or] at hsign
    have hsigned : ¬ Signed token := fun h => by
      rcases h.2.2 with hplus | hminus
      · exact hsign.1 hplus.1
      · exact hsign.2 hminus.1
    have hread := qtype_number htoken hrest hlong htype hsign target
    have hiff := fun v => denotes_number_iff (v := v) hlong htype
    refine iff_of_true ?_ hsigned
    split_ifs at hread with hnum
    · rw [hput] at hread
      rw [readsQtype_of_success hread]
      exact ⟨_, (hiff _).mpr ⟨hnum.1, hnum.2, rfl⟩, rfl⟩
    · rw [readsQtype_of_failure hread]
      rintro ⟨v, hv⟩
      obtain ⟨hds, hle, -⟩ := (hiff v).mp hv
      exact hnum ⟨hds, hle⟩

theorem readsQtype_table_iff (htoken : IsToken token) (hroom : target.Fits 2)
    (hput : ∀ v, ((target.putuint16 v).bind fun t => some (PerfResult.success, t)) =
      some (.success, target.push (be16 v)))
    (htype : ¬ (4 < token.length ∧ (ascii "TYPE").map tolower <+: token.map tolower)) :
    ReadsQtype token rest target ↔
      ¬ Abbreviates token ∧ token.map tolower ≠ (ascii "TA").map tolower := by
  have hread : perfQtypeFromstring (token ++ rest) token.length target = _ :=
    qtype_table htoken htype target
  by_cases hta : token.map tolower = (ascii "TA").map tolower
  · -- `TALINK` comes first
    rw [find_ta hta] at hread
    rw [readsQtype_of_success (hread.trans (hput 58))]
    refine iff_of_false ?_ fun h => h.2 hta
    rintro ⟨v, hv, heq⟩
    obtain rfl := denotes_ta hta hv
    have hbase := congrArg PerfBuffer.base heq
    rw [PerfBuffer.push_base hroom, PerfBuffer.push_base hroom] at hbase
    exact absurd (List.append_cancel_left hbase) (by decide)
  by_cases hdenotes : ∃ v, DenotesQtype token v
  · obtain ⟨v, hv⟩ := hdenotes
    obtain ⟨name, hmem, heq⟩ := (denotes_mnemonic_iff htype).mp hv
    rw [find_mnemonic hmem heq hta] at hread
    rw [readsQtype_of_success (hread.trans (hput v))]
    exact iff_of_true ⟨v, hv, rfl⟩ ⟨fun habbr => habbr.2 _ hmem heq, hta⟩
  · by_cases hpre : ∃ q ∈ qtypeTable, token.map tolower <+: (ascii q.1).map tolower
    · -- an abbreviation is found under some mnemonic
      obtain ⟨q, hq, hpre⟩ := hpre
      have habbr : Abbreviates token :=
        ⟨⟨q, hq, hpre⟩, fun q' hq' heq => hdenotes ⟨q'.2, .mnemonic q'.1 hq' heq⟩⟩
      have hfound : (lowerTable.find? fun r => (token.map tolower).isPrefixOf r.1).isSome = true :=
        List.find?_isSome.mpr
          ⟨_, mem_lowerTable hq, List.isPrefixOf_iff_prefix.mpr hpre⟩
      obtain ⟨r, hr⟩ := Option.isSome_iff_exists.mp hfound
      rw [hr] at hread
      rw [readsQtype_of_success (hread.trans (hput r.2))]
      exact iff_of_false (fun ⟨v, hv, _⟩ => hdenotes ⟨v, hv⟩) fun h => h.1 habbr
    · rw [find_none fun q hq h => hpre ⟨q, hq, h⟩] at hread
      rw [readsQtype_of_failure hread]
      exact iff_of_true hdenotes ⟨fun habbr => hpre habbr.1, hta⟩

end

/-- **Types are read as they are meant** by exactly the tokens that are not an abbreviation of a
mnemonic, not `TA`, and not a number of 16 bits with a sign. -/
theorem perfQtypeFromstring_denotes (token rest : Bytes) (target : PerfBuffer)
    (htoken : IsToken token) (hrest : EndsToken rest) (hroom : target.Fits 2) :
    ReadsQtype token rest target ↔
      ¬ Abbreviates token ∧ token.map tolower ≠ (ascii "TA").map tolower ∧ ¬ Signed token := by
  have hput (v : Nat) : ((target.putuint16 v).bind fun t => some (PerfResult.success, t)) =
      some (.success, target.push (be16 v)) := by
    rw [PerfBuffer.putuint16, PerfBuffer.putmem_eq_push hroom, Option.bind_some]
  by_cases htype : 4 < token.length ∧ (ascii "TYPE").map tolower <+: token.map tolower
  · obtain ⟨hlong, hpre⟩ := htype
    have habbr : ¬ Abbreviates token := fun ⟨⟨q, hq, hq'⟩, _⟩ =>
      lowerTable_not_type _ (mem_lowerTable hq) (hpre.trans hq')
    have hta : token.map tolower ≠ (ascii "TA").map tolower := fun heq =>
      absurd (heq ▸ hpre) (by decide +kernel)
    rw [readsQtype_type_iff htoken hrest hput hlong hpre, and_iff_right habbr, and_iff_right hta]
  · have hsigned : ¬ Signed token := fun ⟨hpre, hds, _⟩ => by
      have hlen := List.length_pos_of_ne_nil hds.1
      rw [List.length_drop] at hlen
      exact htype ⟨by omega, hpre⟩
    rw [readsQtype_table_iff htoken hroom hput htype, and_iff_left hsigned]

/-- `aaaa` and `type257` are read as they are meant, and so is `TYPE-1`, which is refused; `C` is
not. -/
theorem perfQtypeFromstring_denotes_four :
    ReadsQtype [97, 97, 97, 97] [10] (PerfBuffer.init 16) ∧
      ReadsQtype [116, 121, 112, 101, 50, 53, 55] [] (PerfBuffer.init 16) ∧
      ReadsQtype [84, 89, 80, 69, 45, 49] [] (PerfBuffer.init 16) ∧
      ¬ ReadsQtype [67] [] (PerfBuffer.init 16) := by
  have hroom : (PerfBuffer.init 16).Fits 2 := show 0 + 2 ≤ 16 by decide
  refine ⟨?_, ?_, ?_, ?_⟩
  · exact (perfQtypeFromstring_denotes [97, 97, 97, 97] [10] (PerfBuffer.init 16)
      ⟨by decide, by decide +kernel⟩ (Or.inr (by decide)) hroom).mpr (by decide +kernel)
  · exact (perfQtypeFromstring_denotes [116, 121, 112, 101, 50, 53, 55] [] (PerfBuffer.init 16)
      ⟨by decide, by decide +kernel⟩ (Or.inl rfl) hroom).mpr (by decide +kernel)
  · exact (perfQtypeFromstring_denotes [84, 89, 80, 69, 45, 49] [] (PerfBuffer.init 16)
      ⟨by decide, by decide +kernel⟩ (Or.inl rfl) hroom).mpr (by decide +kernel)
  · exact mt (perfQtypeFromstring_denotes [67] [] (PerfBuffer.init 16)
      ⟨by decide, by decide +kernel⟩ (Or.inl rfl) hroom).mp (by decide +kernel)

/-- `C` is taken for `CNAME` and `TA` for `TALINK`, and `TYPE+1` for `TYPE1`. -/
theorem perfQtypeFromstring_misread :
    (perfQtypeFromstring [67] 1 (PerfBuffer.init 16) =
        some (.success, (PerfBuffer.init 16).push (be16 5)) ∧ ¬ ∃ v, DenotesQtype [67] v) ∧
      (perfQtypeFromstring [84, 65] 2 (PerfBuffer.init 16) =
        some (.success, (PerfBuffer.init 16).push (be16 58)) ∧ DenotesQtype [84, 65] 32768) ∧
      (perfQtypeFromstring [84, 89, 80, 69, 43, 49] 6 (PerfBuffer.init 16) =
        some (.success, (PerfBuffer.init 16).push (be16 1)) ∧
        ¬ ∃ v, DenotesQtype [84, 89, 80, 69, 43, 49] v) := by
  refine ⟨⟨by decide +kernel, ?_⟩, ⟨by decide +kernel, ?_⟩, ⟨by decide +kernel, ?_⟩⟩
  · exact not_denotes (by decide +kernel) (by decide)
  · exact .mnemonic "TA" (by decide +kernel) (by decide +kernel)
  · exact not_denotes (by decide +kernel) (by decide)

end Dnsperf.Dns
