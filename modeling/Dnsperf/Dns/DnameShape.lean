import Dnsperf.Dns.DnameTotal

/-!
# Dnsperf.Dns.DnameShape

**The shape of the names `perf_dname_fromstring` writes**, against the labels of the text.

The labels are read off the text without the two passes: it is divided at the dots that no
backslash stands before (`labelTexts`), and each part is measured after unescaping
(`unescapedLength`). The groups of the written name are these labels, one by one and with
these lengths.

The 255 bytes a name may have are counted without the zero byte at its end, so a name can
take **256**.
-/

namespace Dnsperf.Dns

open Dnsperf.Lib

/-! ### The labels of a text -/

/-- The text divided at its unescaped dots. A backslash takes the character after it along. -/
def splitDots : Bytes → List Bytes
  | [] => [[]]
  | c :: rest =>
      if c = backslash then
        match rest with
        | [] => [[c]]
        | d :: rest => (splitDots rest).modifyHead ([c, d] ++ ·)
      else if c = dot then [] :: splitDots rest
      else (splitDots rest).modifyHead ([c] ++ ·)

/-- The labels of a text. A dot at the end ends the last one, and a lone dot is the root,
which has none. -/
def labelTexts (s : Bytes) : List Bytes :=
  if s = [dot] then []
  else if (splitDots s).getLast? = some [] then (splitDots s).dropLast
  else splitDots s

/-- The number of characters of a label after unescaping; `none` if an escape is cut off. -/
def unescapedLength : Bytes → Option Nat
  | [] => some 0
  | c :: rest =>
      if c = backslash then
        match rest with
        | [] => none
        | d :: rest =>
            if isdigit d then
              match rest with
              | d' :: d'' :: rest =>
                  if isdigit d' && isdigit d'' then (unescapedLength rest).map (· + 1) else none
              | _ => none
            else (unescapedLength rest).map (· + 1)
      else (unescapedLength rest).map (· + 1)

/-- A label that no name can have: empty, with an escape that is cut off, or too long. -/
def Malformed (label : Bytes) : Prop :=
  label = [] ∨ unescapedLength label = none ∨ ∃ n, unescapedLength label = some n ∧ 63 < n

/-- The bytes the labels of a text take, each with its length byte. -/
def nameSize (s : Bytes) : Nat := ((labelTexts s).map fun l => (unescapedLength l).getD 0 + 1).sum

/-! ### Spellings -/

theorem isdigit_ne {c : UInt8} (h : isdigit c = true) : c ≠ dot ∧ c ≠ backslash := by
  constructor
  · rintro rfl
    exact absurd h (by decide)
  · rintro rfl
    exact absurd h (by decide)

theorem splitDots_plain {c : UInt8} (rest : Bytes) (h : c ≠ dot ∧ c ≠ backslash) :
    splitDots (c :: rest) = (splitDots rest).modifyHead ([c] ++ ·) := by
  rw [splitDots.eq_def]
  simp only [if_neg h.1, if_neg h.2]

theorem splitDots_quoted (c : UInt8) (rest : Bytes) :
    splitDots (backslash :: c :: rest) = (splitDots rest).modifyHead ([backslash, c] ++ ·) := by
  rw [splitDots.eq_def]
  simp only [if_true]

theorem splitDots_dot (rest : Bytes) : splitDots (dot :: rest) = [] :: splitDots rest := by
  rw [splitDots.eq_def]
  simp only [if_true, show dot ≠ backslash by decide, if_false]

theorem splitDots_piece (p : Piece) (rest : Bytes) :
    splitDots (p.render ++ rest) = (splitDots rest).modifyHead (p.render ++ ·) := by
  cases p with
  | plain c h => exact splitDots_plain rest h
  | quoted c h => exact splitDots_quoted c rest
  | decimal n =>
      simp only [Piece.render, List.cons_append, List.nil_append]
      rw [splitDots_quoted, splitDots_plain _ (isdigit_ne (digit_isdigit _)),
        splitDots_plain _ (isdigit_ne (digit_isdigit _)), List.modifyHead_modifyHead,
        List.modifyHead_modifyHead]
      rfl

theorem splitDots_renderLabel (l : List Piece) (rest : Bytes) :
    splitDots (renderLabel l ++ rest) = (splitDots rest).modifyHead (renderLabel l ++ ·) := by
  induction l with
  | nil =>
      simp only [renderLabel_nil, List.nil_append]
      exact List.modifyHead_id.symm ▸ rfl
  | cons p l ih =>
      rw [renderLabel_cons, List.append_assoc, splitDots_piece, ih, List.modifyHead_modifyHead]
      simp only [Function.comp_def, List.append_assoc]

theorem splitDots_renderName (trailing : Bool) {ls : List (List Piece)} (hls : ls ≠ []) :
    splitDots (renderName trailing ls) =
      ls.map renderLabel ++ if trailing then [[]] else [] := by
  induction ls with
  | nil => exact absurd rfl hls
  | cons l ls ih =>
      rw [renderName_cons, splitDots_renderLabel]
      cases ls with
      | nil =>
          cases trailing with
          | false => simp [afterLabel, splitDots]
          | true => simp [afterLabel, splitDots_dot, splitDots]
      | cons l' ls =>
          rw [afterLabel, splitDots_dot, ih (List.cons_ne_nil l' ls)]
          simp

theorem labelTexts_renderName (trailing : Bool) {ls : List (List Piece)}
    (hok : ∀ l ∈ ls, LabelOk l) (hs : renderName trailing ls ≠ []) :
    labelTexts (renderName trailing ls) = ls.map renderLabel := by
  cases ls with
  | nil =>
      cases trailing with
      | false => exact absurd rfl hs
      | true => rfl
  | cons l ls =>
      have hsplit := splitDots_renderName trailing (List.cons_ne_nil l ls)
      have hdot : renderName trailing (l :: ls) ≠ [dot] := by
        intro hdot
        rw [hdot, splitDots_dot, List.map_cons, List.cons_append] at hsplit
        exact renderLabel_ne_nil (hok l List.mem_cons_self) (List.cons.inj hsplit).1.symm
      rw [labelTexts, if_neg hdot, hsplit]
      cases trailing with
      | true =>
          simp only [if_true, List.getLast?_append, List.getLast?_singleton, Option.some_or,
            List.dropLast_concat]
      | false =>
          -- the last label is not empty
          have hlast : ((l :: ls).map renderLabel).getLast? ≠ some [] := by
            intro hlast
            obtain ⟨l', hl', hnil⟩ := List.mem_map.mp (List.mem_of_getLast? hlast)
            exact renderLabel_ne_nil (hok l' hl') hnil
          simp only [Bool.false_eq_true, if_false, List.append_nil, if_neg hlast]

theorem unescapedLength_piece (p : Piece) (rest : Bytes) :
    unescapedLength (p.render ++ rest) = (unescapedLength rest).map (· + 1) := by
  cases p with
  | plain c h =>
      rw [Piece.render, List.singleton_append, unescapedLength.eq_def]
      simp only [if_neg h.2]
  | quoted c h =>
      rw [Piece.render, List.cons_append, List.singleton_append, unescapedLength.eq_def]
      simp only [if_true, h, Bool.false_eq_true, if_false]
  | decimal n =>
      simp only [Piece.render, List.cons_append, List.nil_append]
      rw [unescapedLength.eq_def]
      simp only [if_true, digit_isdigit, Bool.and_self]

theorem unescapedLength_renderLabel (l : List Piece) :
    unescapedLength (renderLabel l) = some l.length := by
  induction l with
  | nil => rfl
  | cons p l ih => rw [renderLabel_cons, unescapedLength_piece, ih, Option.map_some,
      List.length_cons]

theorem nameSize_renderName (trailing : Bool) {ls : List (List Piece)}
    (hok : ∀ l ∈ ls, LabelOk l) (hs : renderName trailing ls ≠ []) :
    nameSize (renderName trailing ls) = labelsSize ls := by
  rw [nameSize, labelTexts_renderName trailing hok hs, List.map_map]
  simp only [Function.comp_def, unescapedLength_renderLabel, Option.getD_some]
  rfl

theorem perfDnameFromstring_labels {s : Bytes} {t t' : PerfBuffer} (hs : s ≠ [])
    (h : perfDnameFromstring s t = some (.success, t')) :
    ∃ groups : List Bytes, t'.base = t.base ++ wireName groups ∧
      (∀ g ∈ groups, 1 ≤ g.length ∧ g.length ≤ 63) ∧
      (labelTexts s).map unescapedLength = groups.map (some ·.length) ∧ nameSize s ≤ 255 := by
  obtain ⟨trailing, ls, rfl, hok, hsize, hbase, -⟩ := perfDnameFromstring_spelling hs h
  have hlabels := labelTexts_renderName trailing hok hs
  refine ⟨ls.map copiedBytes, hbase, ?_, ?_, ?_⟩
  · intro g hg
    obtain ⟨l, hl, rfl⟩ := List.mem_map.mp hg
    rw [copiedBytes_length]
    exact hok l hl
  · rw [hlabels, List.map_map, List.map_map]
    refine List.map_congr_left fun l _ => ?_
    simp only [Function.comp_apply, unescapedLength_renderLabel, copiedBytes_length]
  · rw [nameSize_renderName trailing hok hs]
    exact hsize

theorem not_malformed {s : Bytes} {groups : List Bytes}
    (hgroups : ∀ g ∈ groups, 1 ≤ g.length ∧ g.length ≤ 63)
    (hlens : (labelTexts s).map unescapedLength = groups.map (some ·.length)) {label : Bytes}
    (hlabel : label ∈ labelTexts s) : ¬ Malformed label := by
  have hmem : unescapedLength label ∈ groups.map (some ·.length) :=
    hlens ▸ List.mem_map_of_mem hlabel
  obtain ⟨g, hg, hlen⟩ := List.mem_map.mp hmem
  obtain ⟨hpos, hle⟩ := hgroups g hg
  rintro (rfl | hnone | ⟨n, hn, hlong⟩)
  · have hzero : g.length = 0 := Option.some.inj hlen
    omega
  · rw [hnone] at hlen
    cases hlen
  · rw [hn] at hlen
    have heq : g.length = n := Option.some.inj hlen
    omega

/-! ### Groups -/

/-- **Every accepted name is framed.** With space for two bytes more than the text has, a
success has appended one group for each label of the text and a zero byte; the length byte
of a group is the number of its bytes and the number of characters the label has after
unescaping. A text with a malformed label is not a success. -/
theorem perfDnameFromstring_groups (s : Bytes) (hs : s ≠ []) (t : PerfBuffer)
    (ht : s.length + 2 ≤ t.availablelength) :
    (∀ t', perfDnameFromstring s t = some (.success, t') →
      ∃ groups : List Bytes, t'.base = t.base ++ wireName groups ∧
        (∀ g ∈ groups, 1 ≤ g.length ∧ g.length ≤ 63) ∧
        (labelTexts s).map unescapedLength = groups.map (some ·.length)) ∧
    ((∃ label ∈ labelTexts s, Malformed label) →
      ∃ r t', perfDnameFromstring s t = some (r, t') ∧ r ≠ .success) := by
  constructor
  · intro t' h
    obtain ⟨groups, hbase, hgroups, hlens, -⟩ := perfDnameFromstring_labels hs h
    exact ⟨groups, hbase, hgroups, hlens⟩
  · rintro ⟨label, hlabel, hbad⟩
    have hroom : t.Fits (nameBound 255 s) := by
      rw [PerfBuffer.fits_iff, nameBound]
      omega
    obtain ⟨r, t', hr, -⟩ := perfDnameFromstring_writes s hroom
    refine ⟨r, t', hr, ?_⟩
    rintro rfl
    obtain ⟨groups, -, hgroups, hlens, -⟩ := perfDnameFromstring_labels hs hr
    exact not_malformed hgroups hlens hlabel hbad

/-- `a\.b.\001.` has two labels, of three characters and of one; `a..b` is refused. -/
theorem perfDnameFromstring_groups_escapes :
    (∃ t' groups, perfDnameFromstring [97, 92, 46, 98, 46, 92, 48, 48, 49, 46]
        (PerfBuffer.init 16) = some (.success, t') ∧
      t'.base = wireName groups ∧ groups.map (some ·.length) = [some 3, some 1]) ∧
    ∃ r t', perfDnameFromstring [97, 46, 46, 98] (PerfBuffer.init 16) = some (r, t') ∧
      r ≠ .success := by
  constructor
  · have h : perfDnameFromstring [97, 92, 46, 98, 46, 92, 48, 48, 49, 46] (PerfBuffer.init 16) =
        some (.success, ⟨[3, 97, 46, 98, 1, 1, 0], 16, by decide⟩) := by decide
    obtain ⟨groups, hbase, -, hlens⟩ :=
      (perfDnameFromstring_groups _ (by decide) _ (by decide)).1 _ h
    have hlabels : (labelTexts [97, 92, 46, 98, 46, 92, 48, 48, 49, 46]).map unescapedLength =
        [some 3, some 1] := by decide
    exact ⟨_, groups, h, hbase, hlens.symm.trans hlabels⟩
  · exact (perfDnameFromstring_groups [97, 46, 46, 98] (by decide) (PerfBuffer.init 16)
      (by decide)).2 ⟨[], by decide, Or.inl rfl⟩

/-! ### Size -/

theorem sum_lengths {labels groups : List Bytes}
    (h : labels.map unescapedLength = groups.map (some ·.length)) :
    (labels.map fun l => (unescapedLength l).getD 0 + 1).sum =
      (groups.map fun g => g.length + 1).sum := by
  have hmap := congrArg (List.map fun n => Option.getD n 0 + 1) h
  rw [List.map_map, List.map_map] at hmap
  exact congrArg List.sum hmap

/-- **The size of an accepted name.** Its length bytes are between 1 and 63, and it takes at
most 255 bytes unless its labels with their length bytes take 255 bytes by themselves: the
zero byte at the end is the 256th. -/
theorem perfDnameFromstring_size (s : Bytes) (hs : s ≠ []) (t t' : PerfBuffer)
    (h : perfDnameFromstring s t = some (.success, t')) :
    ∃ groups : List Bytes, t'.base = t.base ++ wireName groups ∧
      (∀ g ∈ groups, 1 ≤ g.length ∧ g.length ≤ 63) ∧
      ((wireName groups).length ≤ 255 ↔ nameSize s ≠ 255) := by
  obtain ⟨groups, hbase, hgroups, hlens, hsize⟩ := perfDnameFromstring_labels hs h
  refine ⟨groups, hbase, hgroups, ?_⟩
  have heq : (wireName groups).length = nameSize s + 1 := by
    rw [wireName_length, nameSize, sum_lengths hlens]
  omega

/-- Three labels of 63 characters and one of `n`. -/
def longName (n : Nat) : List (List Piece) :=
  [63, 63, 63, n].map fun k => List.replicate k (.plain 97 (by decide))

theorem longName_copied (n : Nat) : ∀ l ∈ longName n, ∀ p ∈ l, p.copied ≤ 255 := by
  intro l hl p hp
  obtain ⟨k, -, rfl⟩ := List.mem_map.mp hl
  rw [List.eq_of_mem_replicate hp]
  decide

/-- A name of 255 bytes. -/
theorem perfDnameFromstring_size_255 :
    ∃ t' groups, perfDnameFromstring (renderName false (longName 61)) (PerfBuffer.init 512) =
        some (.success, t') ∧
      t'.base = wireName groups ∧ (wireName groups).length ≤ 255 := by
  obtain ⟨h, -⟩ := perfDnameFromstring_text (t := PerfBuffer.init 512) false
    (show longName 61 ≠ [] by decide) (by decide) (longName_copied 61) (by decide)
    (by decide +kernel)
  have hne : renderName false (longName 61) ≠ [] := by decide
  obtain ⟨groups, hbase, -, hsize⟩ := perfDnameFromstring_size _ hne _ _ h
  refine ⟨_, groups, h, hbase, hsize.mpr ?_⟩
  rw [nameSize_renderName false (by decide) hne]
  decide

/-- A name of 256 bytes. -/
theorem perfDnameFromstring_256_bytes :
    ∃ t', perfDnameFromstring (renderName false (longName 62)) (PerfBuffer.init 512) =
        some (.success, t') ∧ t'.base.length = 256 := by
  obtain ⟨h, hbase⟩ := perfDnameFromstring_text (t := PerfBuffer.init 512) false
    (show longName 62 ≠ [] by decide) (by decide) (longName_copied 62) (by decide)
    (by decide +kernel)
  refine ⟨_, h, ?_⟩
  rw [hbase, PerfBuffer.init_base, List.nil_append, wireName_copiedBytes_length]
  decide

end Dnsperf.Dns
