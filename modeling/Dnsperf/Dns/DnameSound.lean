import Dnsperf.Dns.DnameText
import Dnsperf.Dns.Wire

/-!
# Dnsperf.Dns.DnameSound

What `perf_dname_fromstring` writes.

`dnameLoop_text` runs the loop on the text of any list of labels: it appends the
wire format of the labels *as the copying pass reads them*, and
`dnameLoop_text_failure` is its counterpart for a text with an escape read above
255. `dnameLoop_spelling` is the converse: whenever the loop succeeds its text was that
of a list of labels, which it has appended in wire format.

The two meet in `perfDnameFromstring_faithful_iff`, which says exactly for which
texts the result is the name the text denotes.
-/

namespace Dnsperf.Dns

open Dnsperf.Lib

/-! ### One label -/

theorem renderLabel_of_not_escaped {l : List Piece} (h : l.any Piece.escaped = false) :
    renderLabel l = copiedBytes l ∧ ∀ p ∈ l, p.copied ≤ 255 := by
  induction l with
  | nil => simp [copiedBytes]
  | cons p l ih =>
      rw [List.any_cons, Bool.or_eq_false_iff] at h
      obtain ⟨hr, hc⟩ := ih h.2
      cases p with
      | plain c hp =>
          refine ⟨?_, ?_⟩
          · rw [renderLabel_cons, hr]
            simp [Piece.render, copiedBytes, Piece.copied]
          · intro p' hp'
            rcases List.mem_cons.mp hp' with rfl | hp'
            · have := c.toNat_lt
              simp only [Piece.copied]
              omega
            · exact hc p' hp'
      | quoted c hp => simp [Piece.escaped] at h
      | decimal n => simp [Piece.escaped] at h

theorem copyLabel_eq {l : List Piece} {rest : Bytes} (hrest : Stops rest)
    (hl : ∀ p ∈ l, p.copied ≤ 255) (t : PerfBuffer) :
    copyLabel (renderLabel l ++ rest) l.length (l.any Piece.escaped) t =
      (t.putmem (UInt8.ofNat l.length :: copiedBytes l)).bind fun t =>
        some (.success, rest, t) := by
  unfold copyLabel
  cases hq : l.any Piece.escaped with
  | true =>
      simp only [if_true, Option.bind_eq_bind, copyQuoted_eq hrest hl]
      exact PerfBuffer.putmem_bind_putmem t _ _ _
  | false =>
      obtain ⟨hr, -⟩ := renderLabel_of_not_escaped hq
      have hlen : (copiedBytes l).length = l.length := copiedBytes_length l
      have htake : (renderLabel l ++ rest).take l.length = copiedBytes l ∧
          (renderLabel l ++ rest).drop l.length = rest := by
        rw [hr, ← hlen]
        exact ⟨List.take_left, List.drop_left⟩
      simp only [Bool.false_eq_true, if_false, Option.bind_eq_bind, htake]
      exact PerfBuffer.putmem_bind_putmem t _ _ _

theorem copyLabel_render {l : List Piece} {rest : Bytes} {t : PerfBuffer} (hrest : Stops rest)
    (hl : ∀ p ∈ l, p.copied ≤ 255) (ht : t.Fits (l.length + 1)) :
    copyLabel (renderLabel l ++ rest) l.length (l.any Piece.escaped) t =
      some (.success, rest, t.push (UInt8.ofNat l.length :: copiedBytes l)) := by
  rw [copyLabel_eq hrest hl, PerfBuffer.putmem_eq_push (by simpa using ht)]
  rfl

/-- An escape read above 255 makes the label fail. -/
theorem copyLabel_failure {l : List Piece} (rest : Bytes) {t : PerfBuffer}
    (hl : ∃ p ∈ l, 255 < p.copied) (ht : t.Fits (l.length + 1)) :
    ∃ rest' t', copyLabel (renderLabel l ++ rest) l.length (l.any Piece.escaped) t =
      some (.failure, rest', t') := by
  have ht1 : t.Fits 1 := ht.mono (by omega)
  have htl : (t.push [UInt8.ofNat l.length]).Fits l.length :=
    PerfBuffer.fits_push (by simpa [Nat.add_comm] using ht)
  simp only [copyLabel, PerfBuffer.putuint8_eq_push _ ht1, Option.bind_eq_bind, Option.bind_some]
  cases hq : l.any Piece.escaped with
  | true =>
      rw [if_pos rfl]
      exact copyQuoted_render_failure hl htl
  | false =>
      obtain ⟨-, hle⟩ := renderLabel_of_not_escaped hq
      obtain ⟨p, hp, hgt⟩ := hl
      have := hle p hp
      omega

theorem copyLabel_success {l : List Piece} {rest rest' : Bytes} {t t' : PerfBuffer}
    (hrest : Stops rest)
    (h : copyLabel (renderLabel l ++ rest) l.length (l.any Piece.escaped) t =
      some (.success, rest', t')) :
    rest' = rest ∧ t'.base = t.base ++ UInt8.ofNat l.length :: copiedBytes l ∧
      t'.length = t.length := by
  simp only [copyLabel, Option.bind_eq_bind] at h
  obtain ⟨t₁, h₁, h⟩ := Option.bind_eq_some_iff.mp h
  obtain ⟨-, hbase, hlen⟩ := PerfBuffer.putmem_eq_some.mp h₁
  cases hq : l.any Piece.escaped with
  | true =>
      rw [hq, if_pos rfl] at h
      obtain ⟨hr, hb, hl⟩ := copyQuoted_success hrest h
      refine ⟨hr, ?_, hl.trans hlen⟩
      rw [hb, hbase, List.append_assoc]
      rfl
  | false =>
      obtain ⟨hr, -⟩ := renderLabel_of_not_escaped hq
      have hlen' : (copiedBytes l).length = l.length := copiedBytes_length l
      rw [hq, if_neg (by simp), hr, ← hlen', List.take_left, List.drop_left] at h
      obtain ⟨t₂, h₂, h⟩ := Option.bind_eq_some_iff.mp h
      obtain ⟨-, hbase₂, hlen₂⟩ := PerfBuffer.putmem_eq_some.mp h₂
      obtain ⟨rfl, rfl⟩ : rest = rest' ∧ t₂ = t' := by simpa using h
      refine ⟨rfl, ?_, hlen₂.trans hlen⟩
      rw [hbase₂, hbase, List.append_assoc]
      rfl

/-! ### The text of a whole name -/

/-- The labels' texts joined with dots, with or without a trailing dot. -/
def renderName (trailing : Bool) (ls : List (List Piece)) : Bytes :=
  List.intercalate [dot] (ls.map renderLabel) ++ (if trailing then [dot] else [])

/-- What follows the first label's text. -/
def afterLabel (trailing : Bool) : List (List Piece) → Bytes
  | [] => if trailing then [dot] else []
  | l :: ls => dot :: renderName trailing (l :: ls)

theorem renderName_cons (trailing : Bool) (l : List Piece) (ls : List (List Piece)) :
    renderName trailing (l :: ls) = renderLabel l ++ afterLabel trailing ls := by
  cases ls with
  | nil => simp [renderName, afterLabel, List.intercalate]
  | cons l' ls => simp [renderName, afterLabel, List.intercalate]

theorem afterLabel_stops (trailing : Bool) (ls : List (List Piece)) :
    Stops (afterLabel trailing ls) := by
  cases ls with
  | nil =>
      cases trailing with
      | false => exact Or.inl rfl
      | true => exact Or.inr ⟨[], rfl⟩
  | cons l ls => exact Or.inr ⟨_, rfl⟩

/-- The bytes the labels' length bytes and contents take. -/
def labelsSize (ls : List (List Piece)) : Nat := (ls.map (fun l => l.length + 1)).sum

theorem labelsSize_cons (l : List Piece) (ls : List (List Piece)) :
    labelsSize (l :: ls) = l.length + 1 + labelsSize ls := by
  simp [labelsSize]

theorem wireName_copiedBytes_length (ls : List (List Piece)) :
    (wireName (ls.map copiedBytes)).length = labelsSize ls + 1 := by
  simp [wireName_length, labelsSize, Function.comp_def]

/-- A label of legal size. -/
def LabelOk (l : List Piece) : Prop := 1 ≤ l.length ∧ l.length ≤ 63

instance : DecidablePred LabelOk := fun l =>
  inferInstanceAs (Decidable (1 ≤ l.length ∧ l.length ≤ 63))

theorem renderLabel_ne_nil {l : List Piece} (h : LabelOk l) : renderLabel l ≠ [] := by
  intro hnil
  have hlen := length_le_renderLabel l
  rw [hnil] at hlen
  exact absurd h.1 (by simpa using hlen)

theorem labelsSize_le_renderName (trailing : Bool) (ls : List (List Piece)) :
    labelsSize ls ≤ (renderName trailing ls).length + 1 := by
  induction ls with
  | nil => simp [labelsSize]
  | cons l ls ih =>
      have hl := length_le_renderLabel l
      rw [renderName_cons, labelsSize_cons, List.length_append]
      cases ls with
      | nil => simp [labelsSize] at ih ⊢; omega
      | cons l' ls =>
          simp only [afterLabel, List.length_cons] at ih ⊢
          omega

theorem length_le_renderName (trailing : Bool) {ls : List (List Piece)}
    (hls : ∀ l ∈ ls, LabelOk l) : ls.length ≤ (renderName trailing ls).length := by
  induction ls with
  | nil => simp
  | cons l ls ih =>
      have hl := length_le_renderLabel l
      have hok := hls l (List.mem_cons_self ..)
      have ih := ih (fun l' hl' => hls l' (List.mem_cons_of_mem _ hl'))
      rw [renderName_cons, List.length_append, List.length_cons]
      cases ls with
      | nil => have := hok.1; simp at ih ⊢; omega
      | cons l' ls =>
          have := hok.1
          simp only [afterLabel, List.length_cons] at ih ⊢
          omega

theorem afterLabel_cons_length {trailing : Bool} {l : List Piece} {ls : List (List Piece)}
    (hls : ∀ l' ∈ l :: ls, LabelOk l') : ¬ (afterLabel trailing (l :: ls)).length < 2 := by
  have := length_le_renderName trailing hls
  simp only [afterLabel, List.length_cons] at this ⊢
  omega

/-! ### The loop -/

theorem dnameLoop_label {fuel : Nat} {atStart : Bool} {max : Int} {l : List Piece}
    {rest : Bytes} {t : PerfBuffer} (hl : LabelOk l) (hrest : Stops rest)
    (hmax : ((l.length + 1 : Nat) : Int) ≤ max) :
    dnameLoop (fuel + 1) atStart max (renderLabel l ++ rest) t =
      (copyLabel (renderLabel l ++ rest) l.length (l.any Piece.escaped) t).bind
        (fun (result, rest, target) =>
          if result ≠ .success then some (result, target)
          else if rest.length < 2 then (target.putuint8 0).bind (fun t => some (.success, t))
          else dnameLoop fuel false (max - (l.length + 1)) rest.tail target) := by
  have hne : renderLabel l ++ rest ≠ [] := by
    intro h
    exact renderLabel_ne_nil hl (List.append_eq_nil_iff.mp h).1
  have h0 : ¬ l.length = 0 := by have := hl.1; omega
  have h63 : ¬ 63 < l.length := by have := hl.2; omega
  have hm : ¬ max - (l.length + 1) < 0 := by push_cast at hmax; omega
  rw [dnameLoop, if_neg hne, countLabel_render l hrest]
  simp only [Nat.zero_add, Bool.false_or, if_neg h0, if_neg h63, if_neg hm]
  rfl

/-- **The loop on a name's text**, when every escape reads as a byte: it puts the wire format
of the labels as the copying pass reads them. -/
theorem dnameLoop_eq {trailing : Bool} {ls : List (List Piece)} (hne : ls ≠ [])
    (hok : ∀ l ∈ ls, LabelOk l) (hc : ∀ l ∈ ls, ∀ p ∈ l, p.copied ≤ 255) {fuel : Nat}
    {atStart : Bool} {max : Int} (hfuel : ls.length ≤ fuel)
    (hmax : ((labelsSize ls : Nat) : Int) ≤ max) (t : PerfBuffer) :
    dnameLoop fuel atStart max (renderName trailing ls) t =
      (t.putmem (wireName (ls.map copiedBytes))).bind fun t => some (.success, t) := by
  induction ls generalizing fuel atStart max t with
  | nil => exact absurd rfl hne
  | cons l ls ih =>
      have hl := hok l (List.mem_cons_self ..)
      rw [labelsSize_cons] at hmax
      obtain ⟨fuel, rfl⟩ : ∃ f, fuel = f + 1 := ⟨fuel - 1, by simp at hfuel; omega⟩
      rw [renderName_cons, dnameLoop_label hl (afterLabel_stops trailing ls)
        (by push_cast at hmax ⊢; omega),
        copyLabel_eq (afterLabel_stops trailing ls) (hc l (List.mem_cons_self ..)),
        Option.bind_assoc]
      simp only [Option.bind_some, ne_eq, not_true_eq_false, if_false]
      cases ls with
      | nil =>
          have hshort : (afterLabel trailing []).length < 2 := by
            cases trailing <;> simp [afterLabel]
          simp only [if_pos hshort, PerfBuffer.putuint8, PerfBuffer.putmem_bind_putmem]
          simp [wireName]
      | cons l' ls =>
          have hok' := fun l'' h => hok l'' (List.mem_cons_of_mem l h)
          have hrest (t : PerfBuffer) :
              dnameLoop fuel false (max - (l.length + 1)) (renderName trailing (l' :: ls)) t =
                (t.putmem (wireName ((l' :: ls).map copiedBytes))).bind fun t =>
                  some (.success, t) :=
            ih (List.cons_ne_nil l' ls) hok' (fun l'' h => hc l'' (List.mem_cons_of_mem _ h))
              (by simpa using hfuel) (by push_cast at hmax ⊢; omega) t
          have htail : (afterLabel trailing (l' :: ls)).tail = renderName trailing (l' :: ls) := rfl
          simp only [if_neg (afterLabel_cons_length hok'), htail, hrest,
            PerfBuffer.putmem_bind_putmem]
          rw [List.map_cons (l := l' :: ls), wireName_cons, copiedBytes_length]
          rfl

theorem dnameLoop_text {trailing : Bool} (ls : List (List Piece)) (hne : ls ≠ [])
    (hok : ∀ l ∈ ls, LabelOk l) (hc : ∀ l ∈ ls, ∀ p ∈ l, p.copied ≤ 255) {fuel : Nat}
    {atStart : Bool} {max : Int} {t : PerfBuffer} (hfuel : ls.length ≤ fuel)
    (hmax : ((labelsSize ls : Nat) : Int) ≤ max) (ht : t.Fits (labelsSize ls + 1)) :
    dnameLoop fuel atStart max (renderName trailing ls) t =
      some (.success, t.push (wireName (ls.map copiedBytes))) := by
  rw [dnameLoop_eq hne hok hc hfuel hmax, PerfBuffer.putmem_eq_push]
  · rfl
  · rwa [wireName_copiedBytes_length]

/-- **The loop on a name's text** with an escape read above 255: it fails. -/
theorem dnameLoop_text_failure (trailing : Bool) :
    ∀ (ls : List (List Piece)), (∀ l ∈ ls, LabelOk l) →
      (∃ l ∈ ls, ∃ p ∈ l, 255 < p.copied) →
      ∀ {fuel : Nat} (atStart : Bool) {max : Int} {t : PerfBuffer},
        ls.length ≤ fuel → ((labelsSize ls : Nat) : Int) ≤ max → t.Fits (labelsSize ls + 1) →
        ∃ t', dnameLoop fuel atStart max (renderName trailing ls) t = some (.failure, t') := by
  intro ls
  induction ls with
  | nil => intro _ hex; simp at hex
  | cons l ls ih =>
      intro hok hex fuel atStart max t hfuel hmax ht
      have hl := hok l (List.mem_cons_self ..)
      rw [labelsSize_cons] at hmax ht
      obtain ⟨fuel, rfl⟩ : ∃ f, fuel = f + 1 := ⟨fuel - 1, by simp at hfuel; omega⟩
      have hfit : t.Fits (l.length + 1) := ht.mono (by omega)
      rw [renderName_cons, dnameLoop_label hl (afterLabel_stops trailing ls)
        (by push_cast at hmax ⊢; omega)]
      by_cases hbad : ∃ p ∈ l, 255 < p.copied
      · obtain ⟨rest', t', hcl⟩ := copyLabel_failure (afterLabel trailing ls) hbad hfit
        rw [hcl]
        exact ⟨t', by simp⟩
      · -- this label is fine, so the bad escape is in a later one
        have hgood : ∀ p ∈ l, p.copied ≤ 255 := by
          intro p hp
          by_contra hgt
          exact hbad ⟨p, hp, by omega⟩
        have hex' : ∃ l ∈ ls, ∃ p ∈ l, 255 < p.copied := by
          obtain ⟨l', hl', hp'⟩ := hex
          rcases List.mem_cons.mp hl' with rfl | hl'
          · exact absurd hp' hbad
          · exact ⟨l', hl', hp'⟩
        rw [copyLabel_render (afterLabel_stops trailing ls) hgood hfit]
        simp only [Option.bind_some, ne_eq, not_true_eq_false, if_false]
        cases ls with
        | nil => simp at hex'
        | cons l' ls =>
            have hok' := fun l'' h => hok l'' (List.mem_cons_of_mem l h)
            have htl : (t.push (UInt8.ofNat l.length :: copiedBytes l)).Fits
                (labelsSize (l' :: ls) + 1) :=
              PerfBuffer.fits_push (ht.mono (by simp; omega))
            rw [if_neg (afterLabel_cons_length hok'),
              show (afterLabel trailing (l' :: ls)).tail = renderName trailing (l' :: ls) from rfl]
            exact ih hok' hex' _ (by simpa using hfuel) (by push_cast at hmax ⊢; omega) htl

/-- A round that does not fail outright either sees a lone dot at the very start,
or a label of legal size within the budget. -/
theorem dnameLoop_cases {fuel : Nat} {atStart : Bool} {max : Int} {l : List Piece}
    {rest : Bytes} {t t' : PerfBuffer} (hrest : Stops rest) (hne : renderLabel l ++ rest ≠ [])
    (h : dnameLoop (fuel + 1) atStart max (renderLabel l ++ rest) t = some (.success, t')) :
    (l = [] ∧ rest = [dot] ∧ atStart = true ∧ t.putuint8 0 = some t') ∨
      (LabelOk l ∧ ((l.length + 1 : Nat) : Int) ≤ max) := by
  rw [dnameLoop, if_neg hne, countLabel_render l hrest, Nat.zero_add, Bool.false_or] at h
  simp only at h
  by_cases h0 : l.length = 0
  · obtain rfl : l = [] := List.length_eq_zero_iff.mp h0
    rw [if_pos h0] at h
    split at h
    · simp at h
    rename_i hshort
    split at h
    · simp at h
    rename_i hstart
    obtain ⟨t₁, hput, hsome⟩ := Option.bind_eq_some_iff.mp h
    obtain rfl : t₁ = t' := by simpa using hsome
    refine Or.inl ⟨rfl, ?_, by simpa using hstart, hput⟩
    rcases hrest with rfl | ⟨tail, rfl⟩
    · exact absurd rfl hne
    · have hlen : (renderLabel [] ++ dot :: tail).length = tail.length + 1 := rfl
      rw [List.length_eq_zero_iff.mp (show tail.length = 0 by omega)]
  · rw [if_neg h0] at h
    split at h
    · simp at h
    split at h
    · simp at h
    rename_i h63 hmax
    exact Or.inr ⟨⟨by omega, by omega⟩, by push_cast; omega⟩

/-- A successful round appends its label, and then the final zero byte or what the
next round makes of the text after the dot. -/
theorem dnameLoop_round {fuel : Nat} {atStart : Bool} {max : Int} {l : List Piece} {rest : Bytes}
    {t t' : PerfBuffer} (hl : LabelOk l) (hrest : Stops rest)
    (hmax : ((l.length + 1 : Nat) : Int) ≤ max)
    (h : dnameLoop (fuel + 1) atStart max (renderLabel l ++ rest) t = some (.success, t')) :
    ∃ t₁ : PerfBuffer, t₁.base = t.base ++ UInt8.ofNat l.length :: copiedBytes l ∧
      t₁.length = t.length ∧
      (rest.length < 2 ∧ t₁.putuint8 0 = some t' ∨
        2 ≤ rest.length ∧
          dnameLoop fuel false (max - (l.length + 1)) rest.tail t₁ = some (.success, t')) := by
  rw [dnameLoop_label hl hrest hmax] at h
  obtain ⟨⟨result, rest', t₁⟩, hcopy, hmore⟩ := Option.bind_eq_some_iff.mp h
  simp only at hmore
  obtain rfl : result = .success := by
    by_contra hne
    rw [if_pos hne] at hmore
    simp only [Option.some.injEq, Prod.mk.injEq] at hmore
    exact hne hmore.1
  rw [if_neg (by simp)] at hmore
  obtain ⟨rfl, hbase, hlen⟩ := copyLabel_success hrest hcopy
  refine ⟨t₁, hbase, hlen, ?_⟩
  by_cases hshort : rest'.length < 2
  · rw [if_pos hshort] at hmore
    obtain ⟨t₂, hput, hsome⟩ := Option.bind_eq_some_iff.mp hmore
    obtain rfl : t₂ = t' := by simpa using hsome
    exact Or.inl ⟨hshort, hput⟩
  · rw [if_neg hshort] at hmore
    exact Or.inr ⟨Nat.le_of_not_lt hshort, hmore⟩

theorem stops_short {rest : Bytes} (hrest : Stops rest) (hshort : rest.length < 2) :
    ∃ trailing, rest = afterLabel trailing [] := by
  rcases hrest with rfl | ⟨tail, rfl⟩
  · exact ⟨false, rfl⟩
  · rw [List.length_cons] at hshort
    obtain rfl : tail = [] := List.length_eq_zero_iff.mp (by omega)
    exact ⟨true, rfl⟩

/-- **Converse.** Whenever the loop succeeds on a non-empty text, that is the text of
labels of legal size, within the budget, and their wire format was appended. Only a text
from the start can be a lone dot. -/
theorem dnameLoop_spelling {fuel : Nat} {atStart : Bool} {max : Int} {s : Bytes}
    {t t' : PerfBuffer} (hs : s ≠ []) (h : dnameLoop fuel atStart max s t = some (.success, t')) :
    ∃ (trailing : Bool) (ls : List (List Piece)), s = renderName trailing ls ∧
      (ls = [] → atStart = true) ∧ (∀ l ∈ ls, LabelOk l) ∧ labelsSize ls ≤ max.toNat ∧
      t'.base = t.base ++ wireName (ls.map copiedBytes) ∧ t'.length = t.length := by
  induction fuel generalizing atStart max s t with
  | zero => simp [dnameLoop] at h
  | succ fuel ih =>
      obtain ⟨l, rest, rfl, hrest⟩ : ∃ l rest, s = renderLabel l ++ rest ∧ Stops rest := by
        cases hcount : countLabel 0 false s with
        | none => rw [dnameLoop, if_neg hs, hcount] at h; simp at h
        | some r => exact countLabel_eq_some hcount
      rcases dnameLoop_cases hrest hs h with ⟨rfl, rfl, hstart, hput⟩ | ⟨hl, hmax⟩
      · -- the root name
        obtain ⟨-, hbase, hlen⟩ := PerfBuffer.putmem_eq_some.mp hput
        exact ⟨true, [], rfl, fun _ => hstart, by simp, Nat.zero_le _, hbase, hlen⟩
      · obtain ⟨t₁, hbase₁, hlen₁, ⟨hshort, hput⟩ | ⟨hlong, hmore⟩⟩ :=
          dnameLoop_round hl hrest hmax h
        · obtain ⟨-, hbase₂, hlen₂⟩ := PerfBuffer.putmem_eq_some.mp hput
          obtain ⟨trailing, rfl⟩ := stops_short hrest hshort
          refine ⟨trailing, [l], (renderName_cons trailing l []).symm, by simp, by simpa using hl,
            ?_, ?_, hlen₂.trans hlen₁⟩
          · rw [labelsSize_cons, labelsSize, List.map_nil, List.sum_nil]
            omega
          · rw [hbase₂, hbase₁, List.map_cons, wireName_cons, copiedBytes_length]
            simp
        · have hne : rest.tail ≠ [] := List.ne_nil_of_length_pos (by rw [List.length_tail]; omega)
          obtain ⟨trailing, ls, htail, hstart, hls, hsize, hbase₂, hlen₂⟩ := ih hne hmore
          obtain ⟨l', ls, rfl⟩ : ∃ l' ls', ls = l' :: ls' := by
            cases ls with
            | nil => exact absurd (hstart rfl) (by simp)
            | cons l' ls => exact ⟨l', ls, rfl⟩
          obtain ⟨tail, rfl⟩ : ∃ tail, rest = dot :: tail := by
            rcases hrest with rfl | hrest
            · simp at hlong
            · exact hrest
          refine ⟨trailing, l :: l' :: ls, ?_, by simp, List.forall_mem_cons.mpr ⟨hl, hls⟩, ?_, ?_,
            hlen₂.trans hlen₁⟩
          · rw [renderName_cons, afterLabel, ← htail, List.tail_cons]
          · rw [labelsSize_cons]
            omega
          · rw [hbase₂, hbase₁, List.map_cons (l := l' :: ls), wireName_cons, copiedBytes_length]
            simp

/-- A successful `perf_dname_fromstring` was given the text of a name, and appended the
wire format of the name as the copying pass reads it. -/
theorem perfDnameFromstring_spelling {s : Bytes} {t t' : PerfBuffer} (hs : s ≠ [])
    (h : perfDnameFromstring s t = some (.success, t')) :
    ∃ (trailing : Bool) (ls : List (List Piece)), s = renderName trailing ls ∧
      (∀ l ∈ ls, LabelOk l) ∧ labelsSize ls ≤ 255 ∧
      t'.base = t.base ++ wireName (ls.map copiedBytes) ∧ t'.length = t.length := by
  unfold perfDnameFromstring at h
  split at h
  · simp at h
  · obtain ⟨trailing, ls, hs, -, hls, hsize, hbase, hlen⟩ := dnameLoop_spelling hs h
    exact ⟨trailing, ls, hs, hls, hsize, hbase, hlen⟩

theorem perfDnameFromstring_success {s : Bytes} {t t' : PerfBuffer} (hs : s ≠ [])
    (h : perfDnameFromstring s t = some (.success, t')) :
    ∃ ls : List Bytes, (∀ l ∈ ls, 1 ≤ l.length ∧ l.length ≤ 63) ∧
      t'.base = t.base ++ wireName ls ∧ t'.length = t.length := by
  obtain ⟨trailing, ls, -, hls, -, hbase, hlen⟩ := perfDnameFromstring_spelling hs h
  refine ⟨ls.map copiedBytes, ?_, hbase, hlen⟩
  intro b hb
  obtain ⟨l, hl, rfl⟩ := List.mem_map.mp hb
  rw [copiedBytes_length]
  exact hls l hl

theorem loop_ready (trailing : Bool) {ls : List (List Piece)} {t : PerfBuffer}
    (hok : ∀ l ∈ ls, LabelOk l) (ht : (renderName trailing ls).length + 2 ≤ t.availablelength) :
    ls.length ≤ (renderName trailing ls).length + 1 ∧ t.Fits (labelsSize ls + 1) ∧
      ¬ t.availablelength < (renderName trailing ls).length := by
  have hlabels := length_le_renderName trailing hok
  have hsize := labelsSize_le_renderName trailing ls
  rw [PerfBuffer.fits_iff]
  omega

theorem perfDnameFromstring_text (trailing : Bool) {ls : List (List Piece)} {t : PerfBuffer}
    (hne : ls ≠ []) (hok : ∀ l ∈ ls, LabelOk l) (hc : ∀ l ∈ ls, ∀ p ∈ l, p.copied ≤ 255)
    (hsize : labelsSize ls ≤ 255) (ht : (renderName trailing ls).length + 2 ≤ t.availablelength) :
    perfDnameFromstring (renderName trailing ls) t =
        some (.success, t.push (wireName (ls.map copiedBytes))) ∧
      (t.push (wireName (ls.map copiedBytes))).base = t.base ++ wireName (ls.map copiedBytes) := by
  obtain ⟨hfuel, hfits, hav⟩ := loop_ready trailing hok ht
  constructor
  · rw [perfDnameFromstring, if_neg hav]
    exact dnameLoop_text ls hne hok hc hfuel (by exact_mod_cast hsize) hfits
  · refine PerfBuffer.push_base ?_
    rw [wireName_copiedBytes_length]
    exact hfits

/-! ### Names and what they denote -/

/-- A spelling of a name: labels of 1 to 63 written bytes, at most 255 bytes in
wire format, with or without a trailing dot. -/
structure NameText where
  labels : List (List Piece)
  trailing : Bool
  label_ok : ∀ l ∈ labels, LabelOk l
  wire_le : labelsSize labels + 1 ≤ 255

namespace NameText

/-- The spelling as text. -/
def text (n : NameText) : Bytes := renderName n.trailing n.labels

/-- Every escape denotes a byte: no `\DDD` above 255. -/
def Denotes (n : NameText) : Prop := ∀ l ∈ n.labels, ∀ p ∈ l, p.value ≤ 255

instance (n : NameText) : Decidable n.Denotes := by
  unfold Denotes
  infer_instance

/-- The wire format of the name the spelling denotes. -/
def wire (n : NameText) : Bytes :=
  wireName (n.labels.map (fun l => l.map (fun p => UInt8.ofNat p.value)))

/-- The encoding is faithful: a spelling that denotes a name is accepted and its
wire format appended; one with an escape above 255 is rejected. -/
def Faithful (n : NameText) (t : PerfBuffer) : Prop :=
  if n.Denotes then
    ∃ t', perfDnameFromstring n.text t = some (.success, t') ∧
      t'.base = t.base ++ n.wire ∧ t'.length = t.length
  else ∃ r t', perfDnameFromstring n.text t = some (r, t') ∧ r ≠ .success

/-- No three-digit escape of the spelling exceeds `\006`. -/
def SmallEscapes (n : NameText) : Prop :=
  ∀ l ∈ n.labels, ∀ p ∈ l, ∀ k, p = Piece.decimal k → k.val ≤ 6

/-- Some three-digit escape of the spelling is at least `\514` and has no digit
above `6`. -/
def LargeSeptimalEscape (n : NameText) : Prop :=
  ∃ l ∈ n.labels, ∃ p ∈ l, ∃ k, p = Piece.decimal k ∧ 514 ≤ k.val ∧
    k.val / 100 % 10 < 7 ∧ k.val / 10 % 10 < 7 ∧ k.val % 10 < 7

end NameText

/-! ### Exactly the faithful spellings -/

section Faithful

variable {n : NameText} {t : PerfBuffer}

/-- A piece is copied as the number it stands for exactly when it is no
three-digit escape above `\006`. -/
theorem copied_eq_value_iff {p : Piece} :
    p.copied = p.value ↔ ∀ k, p = .decimal k → k.val ≤ 6 := by
  cases p with
  | plain c hc => simp [Piece.copied, Piece.value]
  | quoted c hc => simp [Piece.copied, Piece.value]
  | decimal k =>
      simp only [Piece.copied, Piece.value, septimal_eq_self k.isLt, Piece.decimal.injEq]
      exact ⟨fun h k' hk => hk ▸ h, fun h => h k rfl⟩

/-- A piece is read above 255 exactly when it is a large escape of digits `0`–`6`. -/
theorem copied_gt_iff {p : Piece} :
    255 < p.copied ↔ ∃ k, p = .decimal k ∧ 514 ≤ k.val ∧
      k.val / 100 % 10 < 7 ∧ k.val / 10 % 10 < 7 ∧ k.val % 10 < 7 := by
  cases p with
  | plain c hc =>
      have := c.toNat_lt
      simp only [Piece.copied, reduceCtorEq, false_and, exists_false, iff_false]
      omega
  | quoted c hc =>
      have := c.toNat_lt
      simp only [Piece.copied, reduceCtorEq, false_and, exists_false, iff_false]
      omega
  | decimal k =>
      simp only [Piece.copied, septimal_gt k.isLt, Piece.decimal.injEq]
      constructor
      · exact fun h => ⟨k, rfl, h⟩
      · rintro ⟨k', rfl, h⟩
        exact h

theorem perfDnameFromstring_copied (ht : n.text.length + 2 ≤ t.availablelength)
    (hne : n.labels ≠ []) (hc : ∀ l ∈ n.labels, ∀ p ∈ l, p.copied ≤ 255) :
    perfDnameFromstring n.text t =
        some (.success, t.push (wireName (n.labels.map copiedBytes))) ∧
      (t.push (wireName (n.labels.map copiedBytes))).base =
        t.base ++ wireName (n.labels.map copiedBytes) := by
  have hsize := n.wire_le
  exact perfDnameFromstring_text n.trailing hne n.label_ok hc (by omega) ht

/-- Equal encodings of the same labels come from equal bytes. -/
theorem copiedBytes_eq_of_wireName_eq :
    ∀ {ls : List (List Piece)},
      wireName (ls.map copiedBytes) =
          wireName (ls.map (fun l => l.map (fun p => UInt8.ofNat p.value))) →
        ∀ l ∈ ls, copiedBytes l = l.map (fun p => UInt8.ofNat p.value) := by
  intro ls
  induction ls with
  | nil => simp
  | cons l ls ih =>
      intro h
      simp only [List.map_cons, wireName_cons, List.cons.injEq] at h
      obtain ⟨hhead, htail⟩ := List.append_inj h.2 (by simp)
      intro l' hl'
      rcases List.mem_cons.mp hl' with rfl | hl'
      · exact hhead
      · exact ih htail l' hl'

/-- Bytes written from numbers below 256 are equal only if the numbers are. -/
theorem copied_eq_of_copiedBytes_eq {l : List Piece} (hc : ∀ p ∈ l, p.copied ≤ 255)
    (hv : ∀ p ∈ l, p.value ≤ 255)
    (h : copiedBytes l = l.map (fun p => UInt8.ofNat p.value)) :
    ∀ p ∈ l, p.copied = p.value := by
  intro p hp
  have hbyte : UInt8.ofNat p.copied.toNat = UInt8.ofNat p.value :=
    (List.map_inj_left.mp h) p hp
  have hcp := hc p hp
  have hvp := hv p hp
  have hnn := copied_nonneg p
  have hnat := congrArg UInt8.toNat hbyte
  simp only [UInt8.toNat_ofNat'] at hnat
  omega

theorem labels_ne_nil_of_text (h : n.text ≠ []) : n.labels ≠ [] ∨ n.text = [dot] := by
  by_cases hl : n.labels = []
  · right
    simp only [NameText.text, renderName, hl] at h ⊢
    cases ht : n.trailing with
    | false => simp [ht, List.intercalate] at h
    | true => simp [List.intercalate]
  · exact Or.inl hl

theorem perfDnameFromstring_root (ht : 3 ≤ t.availablelength) :
    ∃ t', perfDnameFromstring [dot] t = some (.success, t') ∧
      t'.base = t.base ++ [0] ∧ t'.length = t.length := by
  have hfit : t.Fits 1 := PerfBuffer.fits_iff.mpr (by omega)
  refine ⟨t.push [0], ?_, PerfBuffer.push_base hfit, rfl⟩
  rw [perfDnameFromstring, if_neg (by simp; omega), List.length_singleton, dnameLoop,
    if_neg (by simp), countLabel_stops (Or.inr ⟨[], rfl⟩)]
  simp [PerfBuffer.putuint8_eq_push 0 hfit]

theorem text_ne_nil (h : n.labels ≠ []) : n.text ≠ [] := by
  intro htext
  have hlen := length_le_renderName n.trailing n.label_ok
  rw [show renderName n.trailing n.labels = [] from htext] at hlen
  exact h (List.length_eq_zero_iff.mp (by simpa using hlen))

theorem largeSeptimalEscape_iff :
    n.LargeSeptimalEscape ↔ ∃ l ∈ n.labels, ∃ p ∈ l, 255 < p.copied := by
  simp only [NameText.LargeSeptimalEscape, copied_gt_iff]

/-- **A spelling with a large septimal escape** is rejected, and rightly so. -/
theorem faithful_of_large (ht : n.text.length + 2 ≤ t.availablelength)
    (h : n.LargeSeptimalEscape) : n.Faithful t := by
  have hnot : ¬ n.Denotes := by
    obtain ⟨l, hl, p, hp, k, rfl, hk, -⟩ := h
    intro hd
    have hle : k.val ≤ 255 := hd l hl _ hp
    omega
  obtain ⟨hfuel, hfits, hav⟩ := loop_ready n.trailing n.label_ok ht
  have hmax : ((labelsSize n.labels : Nat) : Int) ≤ 255 := by
    have := n.wire_le
    omega
  obtain ⟨t', hres⟩ := dnameLoop_text_failure n.trailing n.labels n.label_ok
    (largeSeptimalEscape_iff.mp h) true hfuel hmax hfits
  rw [NameText.Faithful, if_neg hnot]
  refine ⟨.failure, t', ?_, by decide⟩
  rw [NameText.text, perfDnameFromstring, if_neg hav]
  exact hres

/-- **A spelling without labels** is the empty text, for which nothing is appended, or
a lone dot. -/
theorem faithful_iff_of_nil (ht : n.text.length + 2 ≤ t.availablelength) (hnil : n.labels = []) :
    n.Faithful t ↔ n.text ≠ [] := by
  have hd : n.Denotes := by simp [NameText.Denotes, hnil]
  have hwire : n.wire = [0] := by simp [NameText.wire, hnil]
  rw [NameText.Faithful, if_pos hd, hwire]
  constructor
  · intro hf htext
    obtain ⟨t', hres, hbase, -⟩ := hf
    rw [htext] at hres
    simp only [perfDnameFromstring, List.length_nil, Nat.not_lt_zero, if_false, dnameLoop, if_true,
      Option.some.injEq, Prod.mk.injEq, true_and] at hres
    rw [← hres] at hbase
    simp at hbase
  · intro htext
    rcases labels_ne_nil_of_text htext with h | h
    · exact absurd hnil h
    · rw [h] at ht ⊢
      exact perfDnameFromstring_root ht

/-- **A spelling read within 255** is encoded as it is read, so it has to be read as it
is meant. -/
theorem faithful_iff_of_copied (ht : n.text.length + 2 ≤ t.availablelength) (hne : n.labels ≠ [])
    (hc : ∀ l ∈ n.labels, ∀ p ∈ l, p.copied ≤ 255) : n.Faithful t ↔ n.SmallEscapes := by
  obtain ⟨hres, hbase⟩ := perfDnameFromstring_copied ht hne hc
  constructor
  · intro hf
    by_cases hd : n.Denotes
    · rw [NameText.Faithful, if_pos hd, hres] at hf
      obtain ⟨t', ht', hb, -⟩ := hf
      obtain rfl : t.push (wireName (n.labels.map copiedBytes)) = t' := by simpa using ht'
      rw [hbase] at hb
      have hbytes := copiedBytes_eq_of_wireName_eq (List.append_cancel_left hb)
      intro l hl p hp
      exact copied_eq_value_iff.mp
        (copied_eq_of_copiedBytes_eq (hc l hl) (hd l hl) (hbytes l hl) p hp)
    · rw [NameText.Faithful, if_neg hd, hres] at hf
      obtain ⟨r, t', ht', hr⟩ := hf
      simp only [Option.some.injEq, Prod.mk.injEq] at ht'
      exact absurd ht'.1.symm hr
  · intro hsmall
    have heq : ∀ l ∈ n.labels, ∀ p ∈ l, p.copied = p.value :=
      fun l hl p hp => copied_eq_value_iff.mpr (hsmall l hl p hp)
    have hd : n.Denotes := by
      intro l hl p hp
      have hread := heq l hl p hp
      have hle := hc l hl p hp
      omega
    have hwire : n.wire = wireName (n.labels.map copiedBytes) := by
      rw [NameText.wire]
      congr 1
      refine List.map_congr_left fun l hl => List.map_congr_left fun p hp => ?_
      rw [heq l hl p hp, Int.toNat_natCast]
    rw [NameText.Faithful, if_pos hd, hwire]
    exact ⟨_, hres, hbase, rfl⟩

/-- **Faithfulness, exactly.** Given the space, the name a spelling denotes is what
gets encoded — and a spelling that denotes none is rejected — exactly when the
text is not empty and either no three-digit escape exceeds `\006` or one is at
least `\514` with no digit above `6`. -/
theorem perfDnameFromstring_faithful_iff (n : NameText) (t : PerfBuffer)
    (ht : n.text.length + 2 ≤ t.availablelength) :
    n.Faithful t ↔ n.text ≠ [] ∧ (n.SmallEscapes ∨ n.LargeSeptimalEscape) := by
  by_cases hlarge : n.LargeSeptimalEscape
  · have hne : n.labels ≠ [] := by
      obtain ⟨l, hl, -⟩ := hlarge
      exact List.ne_nil_of_mem hl
    exact ⟨fun _ => ⟨text_ne_nil hne, Or.inr hlarge⟩, fun _ => faithful_of_large ht hlarge⟩
  · simp only [hlarge, or_false]
    by_cases hnil : n.labels = []
    · have hsmall : n.SmallEscapes := by simp [NameText.SmallEscapes, hnil]
      rw [faithful_iff_of_nil ht hnil]
      exact ⟨fun htext => ⟨htext, hsmall⟩, fun h => h.1⟩
    · have hc : ∀ l ∈ n.labels, ∀ p ∈ l, p.copied ≤ 255 := by
        intro l hl p hp
        by_contra hgt
        exact hlarge (largeSeptimalEscape_iff.mpr ⟨l, hl, p, hp, by omega⟩)
      rw [faithful_iff_of_copied ht hnil hc]
      exact ⟨fun hsmall => ⟨text_ne_nil hnil, hsmall⟩, fun h => h.2⟩

/-- `\001a.` is encoded faithfully. -/
theorem faithful_escape_one :
    (NameText.mk [[.decimal 1, .plain 97 (by decide)]] true (by decide) (by decide)).Faithful
      (PerfBuffer.init 16) :=
  (perfDnameFromstring_faithful_iff _ _ (by decide)).mpr
    ⟨by decide, Or.inl (by
      intro l hl p hp k hk
      obtain rfl : l = [.decimal 1, .plain 97 (by decide)] := by simpa using hl
      subst hk
      obtain rfl : k = 1 := by simpa using hp
      decide)⟩

/-- `\010` denotes the byte 10 and is encoded as the byte 7; `\256` denotes no
byte and is accepted. -/
theorem not_faithful_escape_ten :
    ¬ (NameText.mk [[.decimal 10]] false (by decide) (by decide)).Faithful
        (PerfBuffer.init 16) ∧
      ¬ (NameText.mk [[.decimal 256]] false (by decide) (by decide)).Faithful
        (PerfBuffer.init 16) := by
  constructor
  · intro h
    rw [NameText.Faithful, if_pos (by decide)] at h
    obtain ⟨t', hres, hbase, -⟩ := h
    rw [show perfDnameFromstring _ _ =
      some (.success, ⟨[1, 7, 0], 16, by decide⟩) by decide] at hres
    obtain rfl : (⟨[1, 7, 0], 16, by decide⟩ : PerfBuffer) = t' := by simpa using hres
    revert hbase
    decide
  · intro h
    rw [NameText.Faithful, if_neg (by decide)] at h
    obtain ⟨r, t', hres, hr⟩ := h
    rw [show perfDnameFromstring _ _ = some (.success, ⟨[1, 139, 0], 16, by decide⟩) by decide]
      at hres
    simp only [Option.some.injEq, Prod.mk.injEq] at hres
    exact hr hres.1.symm

end Faithful

end Dnsperf.Dns
