import Dnsperf.Dns.Dname

/-!
# Dnsperf.Dns.DnameText

**Presentation format**, as a description of what a name's text can be: every
byte of a label is written as itself, as backslash and itself, or as `\DDD`.
A `Piece` is one such written byte and carries the condition under which that
spelling is allowed, so a list of pieces is always a legal label text.

The counting pass accepts exactly these texts (`countLabel_render`,
`countLabel_eq_some`), and the copying pass maps each piece to one byte
(`copyQuoted_eq`); all later facts about names are about lists of pieces
and never about the character scan.
-/

namespace Dnsperf.Dns

open Dnsperf.Lib

/-- One written byte of a label. -/
inductive Piece
  /-- The byte itself, neither a dot nor a backslash. -/
  | plain (c : UInt8) (h : c ≠ dot ∧ c ≠ backslash)
  /-- Backslash and the byte, which is not a digit. -/
  | quoted (c : UInt8) (h : isdigit c = false)
  /-- Backslash and three decimal digits. -/
  | decimal (n : Fin 1000)
  deriving DecidableEq

namespace Piece

/-- The three digits of `\DDD`. -/
def digit (n : Nat) : UInt8 := UInt8.ofNat (48 + n % 10)

/-- The piece as text. -/
def render : Piece → Bytes
  | plain c _ => [c]
  | quoted c _ => [backslash, c]
  | decimal n => [backslash, digit (n / 100), digit (n / 10), digit n]

/-- The number the piece stands for; a byte unless it is a `\DDD` above 255. -/
def value : Piece → Nat
  | plain c _ => c.toNat
  | quoted c _ => c.toNat
  | decimal n => n

/-- Does the piece start with a backslash? -/
def escaped : Piece → Bool
  | plain _ _ => false
  | _ => true

/-- `strtol(b, 0, 7)` on the three digits of `n`. -/
def septimal (n : Nat) : Int := strtol 7 [digit (n / 100), digit (n / 10), digit n]

/-- The number the copying pass reads for the piece. -/
def copied : Piece → Int
  | plain c _ => c.toNat
  | quoted c _ => c.toNat
  | decimal n => septimal n

end Piece

/-- A label's pieces as text. -/
def renderLabel (l : List Piece) : Bytes := (l.map Piece.render).flatten

@[simp] theorem renderLabel_nil : renderLabel [] = [] := rfl

@[simp] theorem renderLabel_cons (p : Piece) (l : List Piece) :
    renderLabel (p :: l) = p.render ++ renderLabel l := by
  simp [renderLabel]

theorem length_le_renderLabel (l : List Piece) : l.length ≤ (renderLabel l).length := by
  induction l with
  | nil => simp
  | cons p l ih =>
      have hp : 1 ≤ p.render.length := by cases p <;> simp [Piece.render]
      rw [renderLabel_cons, List.length_cons, List.length_append]
      omega

/-- Text at which a label ends: nothing, or an unescaped dot. -/
def Stops (rest : Bytes) : Prop := rest = [] ∨ ∃ tail, rest = dot :: tail

/-! ### Digits -/

theorem digit_isdigit (n : Nat) : isdigit (Piece.digit n) = true := by
  have h : ∀ d : Fin 10, isdigit (UInt8.ofNat (48 + d.val)) = true := by decide
  exact h ⟨n % 10, Nat.mod_lt _ (by omega)⟩

theorem digitValue_digit (n : Nat) : digitValue (Piece.digit n) = n % 10 := by
  have h : ∀ d : Fin 10, digitValue (UInt8.ofNat (48 + d.val)) = d.val := by decide
  exact h ⟨n % 10, Nat.mod_lt _ (by omega)⟩

theorem digit_not_skipped (n : Nat) :
    isspace (Piece.digit n) = false ∧ (Piece.digit n == 43) = false ∧
      (Piece.digit n == 45) = false := by
  have h : ∀ d : Fin 10, isspace (UInt8.ofNat (48 + d.val)) = false ∧
      (UInt8.ofNat (48 + d.val) == 43) = false ∧ (UInt8.ofNat (48 + d.val) == 45) = false := by
    decide
  exact h ⟨n % 10, Nat.mod_lt _ (by omega)⟩

theorem digit_toNat {c : UInt8} (h : isdigit c = true) : Piece.digit (c.toNat - 48) = c := by
  simp only [isdigit, Bool.and_eq_true, decide_eq_true_eq, UInt8.le_iff_toNat_le] at h
  have h1 : 48 ≤ c.toNat := h.1
  have h2 : c.toNat ≤ 57 := h.2
  apply UInt8.toNat_inj.mp
  simp only [Piece.digit, UInt8.toNat_ofNat']
  omega

theorem scanNumber_digits (n m k : Nat) :
    ∃ stop, scanNumber 7 [Piece.digit n, Piece.digit m, Piece.digit k] =
      (false, digits 7 [Piece.digit n, Piece.digit m, Piece.digit k], stop) := by
  obtain ⟨hsp, hplus, hminus⟩ := digit_not_skipped n
  simp only [scanNumber, List.takeWhile_cons, List.dropWhile_cons, hsp, hplus, hminus,
    List.headD_cons, show ((7 : Nat) == 16) = false from rfl, Bool.false_and,
    Bool.false_eq_true, if_false, Bool.or_self]
  split
  · rename_i h
    exact ⟨0, by rw [List.isEmpty_iff.mp h]⟩
  · exact ⟨_, rfl⟩

/-- Three digits in base 7, cut at the first digit that is none there. -/
theorem septimal_eq (n : Nat) :
    Piece.septimal n =
      if n / 100 % 10 < 7 then
        if n / 10 % 10 < 7 then
          if n % 10 < 7 then
            ((n / 100 % 10 * 49 + n / 10 % 10 * 7 + n % 10 : Nat) : Int)
          else ((n / 100 % 10 * 7 + n / 10 % 10 : Nat) : Int)
        else ((n / 100 % 10 : Nat) : Int)
      else 0 := by
  obtain ⟨stop, hscan⟩ := scanNumber_digits (n / 100) (n / 10) n
  have hbound : ∀ m : Nat, m ≤ 999 → (if longMax < m then (longMax : Int) else (m : Int)) = m := by
    intro m hm
    rw [if_neg (by simp [longMax]; omega)]
  simp only [Piece.septimal, strtol, hscan, Bool.false_eq_true, if_false]
  by_cases ha : n / 100 % 10 < 7
  · by_cases hb : n / 10 % 10 < 7
    · by_cases hc : n % 10 < 7
      · simp only [digits, digitsValue, List.takeWhile_cons, digitValue_digit, ha, hb, hc,
          decide_true, if_true, List.takeWhile_nil, List.foldl_cons, List.foldl_nil]
        rw [hbound _ (by omega)]
        push_cast
        ring
      · simp only [digits, digitsValue, List.takeWhile_cons, digitValue_digit, ha, hb, hc,
          decide_true, decide_false, if_true, List.foldl_cons, List.foldl_nil,
          Bool.false_eq_true, if_false]
        rw [hbound _ (by omega)]
        push_cast
        ring
    · simp only [digits, digitsValue, List.takeWhile_cons, digitValue_digit, ha, hb,
        decide_true, decide_false, if_true, List.foldl_cons, List.foldl_nil,
        Bool.false_eq_true, if_false]
      rw [hbound _ (by omega)]
      push_cast
      ring
  · simp [digits, digitsValue, digitValue_digit, ha, longMax]

theorem septimal_nonneg (n : Nat) : 0 ≤ Piece.septimal n := by
  rw [septimal_eq]
  split
  · split
    · split <;> exact Int.natCast_nonneg _
    · exact Int.natCast_nonneg _
  · exact Int.le_refl _

theorem digits_of_lt {n : Nat} (hn : n < 1000) :
    ∃ a b c, a < 10 ∧ b < 10 ∧ c < 10 ∧ n = 100 * a + 10 * b + c ∧
      n / 100 % 10 = a ∧ n / 10 % 10 = b ∧ n % 10 = c :=
  ⟨n / 100, n / 10 % 10, n % 10, by omega, by omega, by omega, by omega, by omega, rfl, rfl⟩

/-- Base 7 and base 10 agree only on a single digit below 7. -/
theorem septimal_eq_self {n : Nat} (hn : n < 1000) : Piece.septimal n = n ↔ n ≤ 6 := by
  obtain ⟨a, b, c, ha, hb, hc, hn, h1, h2, h3⟩ := digits_of_lt hn
  rw [septimal_eq, h1, h2, h3, hn]
  split
  · split
    · split <;> omega
    · omega
  · omega

/-- The base-7 reading leaves a byte exactly for the digits `0`–`6` from `514` on. -/
theorem septimal_gt {n : Nat} (hn : n < 1000) :
    255 < Piece.septimal n ↔
      514 ≤ n ∧ n / 100 % 10 < 7 ∧ n / 10 % 10 < 7 ∧ n % 10 < 7 := by
  obtain ⟨a, b, c, ha, hb, hc, hn, h1, h2, h3⟩ := digits_of_lt hn
  rw [septimal_eq, h1, h2, h3, hn]
  split
  · split
    · split <;> omega
    · omega
  · omega

theorem copied_nonneg (p : Piece) : 0 ≤ p.copied := by
  cases p with
  | plain c h => exact Int.natCast_nonneg _
  | quoted c h => exact Int.natCast_nonneg _
  | decimal n => exact septimal_nonneg _

/-! ### The counting pass -/

section Count

variable {k : Nat} {q : Bool} {c : UInt8} {rest : Bytes}

theorem countLabel_stops (hrest : Stops rest) : countLabel k q rest = some (k, q) := by
  rcases hrest with rfl | ⟨tail, rfl⟩
  · rw [countLabel.eq_def]
  · rw [countLabel.eq_def]
    simp only [show dot ≠ backslash by decide, if_false, if_true]

theorem countLabel_plain (h : c ≠ dot ∧ c ≠ backslash) :
    countLabel k q (c :: rest) = countLabel (k + 1) q rest := by
  rw [countLabel.eq_def]
  simp only [if_neg h.1, if_neg h.2]

theorem countLabel_quoted (h : isdigit c = false) :
    countLabel k q (backslash :: c :: rest) = countLabel (k + 1) true rest := by
  rw [countLabel.eq_def]
  simp only [if_true, h, Bool.false_eq_true, if_false]

theorem countLabel_decimal {d d' d'' : UInt8} (h : isdigit d = true) (h' : isdigit d' = true)
    (h'' : isdigit d'' = true) :
    countLabel k q (backslash :: d :: d' :: d'' :: rest) = countLabel (k + 1) true rest := by
  rw [countLabel.eq_def]
  simp only [if_true, h, h', h'']

theorem countLabel_piece (p : Piece) :
    countLabel k q (p.render ++ rest) = countLabel (k + 1) (q || p.escaped) rest := by
  cases p with
  | plain c h =>
      rw [Piece.escaped, Bool.or_false]
      exact countLabel_plain h
  | quoted c h =>
      rw [Piece.escaped, Bool.or_true]
      · exact countLabel_quoted h
      · simp
  | decimal n =>
      rw [Piece.escaped, Bool.or_true]
      · exact countLabel_decimal (digit_isdigit _) (digit_isdigit _) (digit_isdigit _)
      · simp

end Count

/-- The counting pass over a label's text: as many bytes as pieces, and an escape
iff one of them is escaped. -/
theorem countLabel_render (l : List Piece) {rest : Bytes} (hrest : Stops rest) :
    ∀ (k : Nat) (q : Bool), countLabel k q (renderLabel l ++ rest) =
      some (k + l.length, q || l.any Piece.escaped) := by
  induction l with
  | nil =>
      intro k q
      simpa using countLabel_stops hrest
  | cons p l ih =>
      intro k q
      rw [renderLabel_cons, List.append_assoc, countLabel_piece, ih, List.length_cons,
        List.any_cons, Bool.or_assoc, Nat.add_assoc, Nat.add_comm 1]

theorem exists_decimal {d d' d'' : UInt8} (h : isdigit d = true) (h' : isdigit d' = true)
    (h'' : isdigit d'' = true) :
    ∃ n : Fin 1000, (Piece.decimal n).render = [backslash, d, d', d''] := by
  have hb : ∀ c : UInt8, isdigit c = true → c.toNat - 48 < 10 := by
    intro c hc
    simp only [isdigit, Bool.and_eq_true, decide_eq_true_eq, UInt8.le_iff_toNat_le] at hc
    have : c.toNat ≤ 57 := hc.2
    omega
  have hd := hb d h
  have hd' := hb d' h'
  have hd'' := hb d'' h''
  refine ⟨⟨100 * (d.toNat - 48) + 10 * (d'.toNat - 48) + (d''.toNat - 48), by omega⟩, ?_⟩
  have hmod : ∀ (m : Nat) (c : UInt8), isdigit c = true → m % 10 = c.toNat - 48 →
      Piece.digit m = c := by
    intro m c hc hm
    rw [← digit_toNat hc, Piece.digit, Piece.digit, hm, Nat.mod_eq_of_lt (hb c hc)]
  simp only [Piece.render]
  rw [hmod _ d h (by omega), hmod _ d' h' (by omega), hmod _ d'' h'' (by omega)]

theorem countLabel_cases {s : Bytes} {k : Nat} {q : Bool} {r : Nat × Bool}
    (h : countLabel k q s = some r) :
    Stops s ∨ ∃ (p : Piece) (rest : Bytes), s = p.render ++ rest := by
  rw [countLabel.eq_def] at h
  cases s with
  | nil => exact Or.inl (Or.inl rfl)
  | cons c rest =>
      by_cases hc : c = backslash
      · subst hc
        simp only [if_true] at h
        cases rest with
        | nil => simp at h
        | cons d rest =>
            by_cases hd : isdigit d = true
            · simp only [hd, if_true] at h
              -- the digit has to be followed by two more
              match rest, h with
              | [], h => simp at h
              | [d'], h => simp at h
              | d' :: d'' :: rest, h =>
                  by_cases hd' : isdigit d' = true
                  · by_cases hd'' : isdigit d'' = true
                    · obtain ⟨n, hn⟩ := exists_decimal hd hd' hd''
                      exact Or.inr ⟨.decimal n, rest, by rw [hn]; rfl⟩
                    · simp [hd', hd''] at h
                  · simp [hd'] at h
            · exact Or.inr ⟨.quoted d (by simpa using hd), rest, rfl⟩
      · by_cases hdot : c = dot
        · exact Or.inl (Or.inr ⟨rest, by rw [hdot]⟩)
        · exact Or.inr ⟨.plain c ⟨hdot, hc⟩, rest, rfl⟩

theorem render_length_pos (p : Piece) : 0 < p.render.length := by
  cases p <;> simp [Piece.render]

/-- Whatever the counting pass accepts is a label's text. -/
theorem countLabel_eq_some {s : Bytes} {k : Nat} {q : Bool} {r : Nat × Bool}
    (h : countLabel k q s = some r) :
    ∃ l rest, s = renderLabel l ++ rest ∧ Stops rest := by
  induction hn : s.length using Nat.strong_induction_on generalizing s k q with
  | _ n ih =>
      rcases countLabel_cases h with hs | ⟨p, rest, rfl⟩
      · exact ⟨[], s, rfl, hs⟩
      · rw [countLabel_piece] at h
        have hlt : rest.length < n := by
          have := render_length_pos p
          rw [← hn, List.length_append]
          omega
        obtain ⟨l, rest', rfl, hstop⟩ := ih _ hlt h rfl
        exact ⟨p :: l, rest', by rw [renderLabel_cons, List.append_assoc], hstop⟩

/-! ### The copying pass -/

section Copy

variable {rest : Bytes} {t : PerfBuffer}

theorem copyQuoted_stops (hrest : Stops rest) :
    copyQuoted rest t = some (.success, rest, t) := by
  rcases hrest with rfl | ⟨tail, rfl⟩
  · rw [copyQuoted.eq_def]
  · rw [copyQuoted.eq_def]
    simp only [show dot ≠ backslash by decide, if_false, if_true]

/-- One round of the copying pass, on any piece: the byte it stands for, unless
the digits were read as a number above 255. -/
theorem copyQuoted_piece (p : Piece) :
    copyQuoted (p.render ++ rest) t =
      if 255 < p.copied then some (.failure, rest, t)
      else (t.putuint8 p.copied.toNat).bind (copyQuoted rest) := by
  have hbyte : ∀ c : UInt8, ¬ 255 < (c.toNat : Int) := by
    intro c
    have := c.toNat_lt
    omega
  cases p with
  | plain c h =>
      rw [Piece.render, List.singleton_append, copyQuoted.eq_def]
      simp only [if_neg h.1, if_neg h.2, Piece.copied, if_neg (hbyte c), PerfBuffer.putuint8,
        Int.toNat_natCast, UInt8.ofNat_toNat]
      rfl
  | quoted c h =>
      rw [Piece.render, List.cons_append, List.singleton_append, copyQuoted.eq_def]
      simp only [if_true, h, Bool.false_eq_true, if_false, Piece.copied, if_neg (hbyte c),
        PerfBuffer.putuint8, Int.toNat_natCast, UInt8.ofNat_toNat]
      rfl
  | decimal n =>
      rw [Piece.render, List.cons_append, List.cons_append, List.cons_append,
        List.singleton_append, copyQuoted.eq_def]
      have hnn := septimal_nonneg n
      simp only [Piece.septimal] at hnn
      simp only [if_true, digit_isdigit, Piece.copied, Piece.septimal,
        show ¬ strtol 7 [Piece.digit (n / 100), Piece.digit (n / 10), Piece.digit n] < 0 by omega,
        false_or]
      rfl

end Copy

/-- The bytes the copying pass writes for a label. -/
def copiedBytes (l : List Piece) : Bytes := l.map (fun p => UInt8.ofNat p.copied.toNat)

@[simp] theorem copiedBytes_length (l : List Piece) : (copiedBytes l).length = l.length := by
  simp [copiedBytes]

/-- The copying pass over a label whose escapes all read as bytes: all its puts are one. -/
theorem copyQuoted_eq {l : List Piece} {rest : Bytes} (hrest : Stops rest)
    (hl : ∀ p ∈ l, p.copied ≤ 255) (t : PerfBuffer) :
    copyQuoted (renderLabel l ++ rest) t =
      (t.putmem (copiedBytes l)).bind fun t => some (.success, rest, t) := by
  induction l generalizing t with
  | nil =>
      rw [renderLabel_nil, List.nil_append, copyQuoted_stops hrest, copiedBytes, List.map_nil,
        PerfBuffer.putmem_nil, Option.bind_some]
  | cons p l ih =>
      have hp : ¬ 255 < p.copied := by
        have := hl p (List.mem_cons_self ..)
        omega
      have htail := ih fun p' hp' => hl p' (List.mem_cons_of_mem _ hp')
      rw [renderLabel_cons, List.append_assoc, copyQuoted_piece, if_neg hp, funext htail]
      exact PerfBuffer.putmem_bind_putmem t _ _ _

theorem copyQuoted_render_failure {l : List Piece} {rest : Bytes}
    (hl : ∃ p ∈ l, 255 < p.copied) :
    ∀ {t : PerfBuffer}, t.Fits l.length →
      ∃ rest' t', copyQuoted (renderLabel l ++ rest) t = some (.failure, rest', t') := by
  induction l with
  | nil => simp at hl
  | cons p l ih =>
      intro t ht
      rw [renderLabel_cons, List.append_assoc, copyQuoted_piece]
      by_cases hp : 255 < p.copied
      · rw [if_pos hp]
        exact ⟨_, _, rfl⟩
      · have ht1 : t.Fits 1 := ht.mono (by simp)
        have htl : (t.push [UInt8.ofNat p.copied.toNat]).Fits l.length :=
          PerfBuffer.fits_push (by simpa [Nat.add_comm] using ht)
        rw [if_neg hp, PerfBuffer.putuint8_eq_push _ ht1, Option.bind_some]
        obtain ⟨p', hp', hgt⟩ := hl
        rcases List.mem_cons.mp hp' with rfl | hp'
        · exact absurd hgt hp
        · exact ih ⟨p', hp', hgt⟩ htl

/-- What a successful copying pass did, however much space there was. -/
theorem copyQuoted_success {l : List Piece} {rest rest' : Bytes} (hrest : Stops rest) :
    ∀ {t t' : PerfBuffer},
      copyQuoted (renderLabel l ++ rest) t = some (.success, rest', t') →
        rest' = rest ∧ t'.base = t.base ++ copiedBytes l ∧ t'.length = t.length := by
  induction l with
  | nil =>
      intro t t' h
      rw [renderLabel_nil, List.nil_append, copyQuoted_stops hrest] at h
      obtain ⟨rfl, rfl⟩ : rest = rest' ∧ t = t' := by simpa using h
      simp [copiedBytes]
  | cons p l ih =>
      intro t t' h
      rw [renderLabel_cons, List.append_assoc, copyQuoted_piece] at h
      split at h
      · simp at h
      · obtain ⟨t₁, h₁, h⟩ := Option.bind_eq_some_iff.mp h
        obtain ⟨-, hbase, hlen⟩ := PerfBuffer.putmem_eq_some.mp h₁
        obtain ⟨hr, hb, hl⟩ := ih h
        refine ⟨hr, ?_, hl.trans hlen⟩
        rw [hb, hbase, List.append_assoc]
        rfl

end Dnsperf.Dns
