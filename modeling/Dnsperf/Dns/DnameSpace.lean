import Dnsperf.Dns.DnameSound

/-!
# Dnsperf.Dns.DnameSpace

**The space check of `perf_dname_fromstring`** compares what is available with the length of the
text, where the encoding is what has to fit. The encoding has a byte before the first label and
one at the end, for which the text has no character, and one byte where an escape has two or
four. So in a buffer that is large enough for the text only, a `put` fails its assertion, and
one that is large enough for the encoding only is refused.
-/

namespace Dnsperf.Dns

open Dnsperf.Lib

section Space

variable {n : NameText} {t : PerfBuffer}

theorem NameText.wire_length (n : NameText) : n.wire.length = labelsSize n.labels + 1 := by
  simp [NameText.wire, wireName_length, labelsSize, Function.comp_def]

/-- A byte's escape is read as a byte in base 7, too. -/
theorem NameText.Denotes.copied_le (h : n.Denotes) : ∀ l ∈ n.labels, ∀ p ∈ l, p.copied ≤ 255 := by
  intro l hl p hp
  by_contra hgt
  obtain ⟨k, rfl, hlarge, -⟩ := copied_gt_iff.mp (by omega : 255 < p.copied)
  have hbyte : k.val ≤ 255 := h l hl _ hp
  omega

theorem dnameLoop_dot {fuel : Nat} {max : Int} (t : PerfBuffer) :
    dnameLoop (fuel + 1) true max [dot] t = (t.putmem [0]).bind fun t => some (.success, t) := by
  rw [dnameLoop, if_neg (List.cons_ne_nil _ _), countLabel_stops (Or.inr ⟨[], rfl⟩)]
  rfl

/-- **`perf_dname_fromstring` on a valid name**: the check, and then all its puts in one. -/
theorem perfDnameFromstring_eq (hdenotes : n.Denotes) (hne : n.text ≠ []) (t : PerfBuffer) :
    perfDnameFromstring n.text t =
      if t.availablelength < n.text.length then some (.nospace, t)
      else (t.putmem (wireName (n.labels.map copiedBytes))).bind fun t => some (.success, t) := by
  unfold perfDnameFromstring
  by_cases hlabels : n.labels = []
  · have hdot : n.text = [dot] := (labels_ne_nil_of_text hne).resolve_left (absurd hlabels)
    rw [hdot, hlabels, dnameLoop_dot]
    rfl
  · have hfuel := length_le_renderName n.trailing n.label_ok
    have hmax := n.wire_le
    have hloop : dnameLoop (n.text.length + 1) true 255 n.text t =
        (t.putmem (wireName (n.labels.map copiedBytes))).bind fun t => some (.success, t) :=
      dnameLoop_eq hlabels n.label_ok hdenotes.copied_le (Nat.le_succ_of_le hfuel)
        (by omega) t
    rw [hloop]

end Space

/-- **The space check is exact** if and only if the text and the encoding of the name fit into
the same buffers: then `PERF_R_NOSPACE` says that the encoding does not fit, and no assertion
fails. -/
theorem perfDnameFromstring_space_iff (n : NameText) (hdenotes : n.Denotes) (hne : n.text ≠ [])
    (t : PerfBuffer) :
    (∃ result t', perfDnameFromstring n.text t = some (result, t') ∧
        (result = .nospace ↔ t.availablelength < n.wire.length)) ↔
      (t.availablelength < n.text.length ↔ t.availablelength < n.wire.length) := by
  have hfits : t.Fits (wireName (n.labels.map copiedBytes)).length ↔
      ¬ t.availablelength < n.wire.length := by
    rw [PerfBuffer.fits_iff, Nat.not_lt, wireName_copiedBytes_length, n.wire_length]
  rw [perfDnameFromstring_eq hdenotes hne]
  by_cases htext : t.availablelength < n.text.length
  · rw [if_pos htext]
    constructor
    · rintro ⟨result, t', hresult, hexact⟩
      obtain ⟨rfl, -⟩ := Prod.mk.inj (Option.some.inj hresult)
      exact iff_of_true htext (hexact.mp rfl)
    · intro hiff
      exact ⟨.nospace, t, rfl, iff_of_true rfl (hiff.mp htext)⟩
  · rw [if_neg htext]
    by_cases hspace : t.availablelength < n.wire.length
    · -- the text fits and the encoding does not
      rw [PerfBuffer.putmem_eq_none fun h => hfits.mp h hspace, Option.bind_none]
      refine iff_of_false ?_ fun hiff => htext (hiff.mpr hspace)
      rintro ⟨result, t', hnone, -⟩
      cases hnone
    · rw [PerfBuffer.putmem_eq_push (hfits.mpr hspace), Option.bind_some]
      refine iff_of_true ⟨.success, _, rfl, ?_⟩ (iff_of_false htext hspace)
      exact iff_of_false (by decide) hspace

/-- The name `a` takes three bytes. -/
theorem perfDnameFromstring_space_iff_a :
    ∃ n : NameText, n.Denotes ∧ n.text = ascii "a" ∧ n.wire = [1, 97, 0] ∧
      ∃ result t', perfDnameFromstring n.text (PerfBuffer.init 3) = some (result, t') ∧
        (result = .nospace ↔ (PerfBuffer.init 3).availablelength < n.wire.length) := by
  refine ⟨⟨[[.plain 97 (by decide)]], false, by decide, by decide⟩, by decide, by decide,
    by decide, ?_⟩
  exact (perfDnameFromstring_space_iff _ (by decide) (by decide) _).mpr (by decide)

/-- **The check is not exact**: with one byte available the name `a` passes it, and then an
assertion fails; with three bytes available the name `\097` is refused, and it takes three. -/
theorem perfDnameFromstring_space_inexact :
    (∃ n : NameText, n.Denotes ∧ n.text = ascii "a" ∧
      perfDnameFromstring n.text (PerfBuffer.init 1) = none) ∧
    ∃ n : NameText, n.Denotes ∧ n.text = ascii "\\097" ∧ n.wire = [1, 97, 0] ∧
      perfDnameFromstring n.text (PerfBuffer.init 3) = some (.nospace, PerfBuffer.init 3) := by
  refine ⟨⟨⟨[[.plain 97 (by decide)]], false, by decide, by decide⟩, ?_⟩,
    ⟨⟨[[.decimal 97]], false, by decide, by decide⟩, ?_⟩⟩
  · decide
  · decide

end Dnsperf.Dns
