import Dnsperf.Datafile.Refill
import Dnsperf.Lib.Segments

/-!
# Dnsperf.Datafile.Line

The text reader against the lines of its input. A line ends at a newline (or at a
NUL, since lines are C strings); empty lines and comments are skipped.

`read_one_line` takes the bytes after the last newline for a line only when the
whole file is cached. On a stream it asks for more, is told that there is none, and
returns: **an unterminated last line is delivered from a file and dropped from
standard input**.
-/

namespace Dnsperf.Datafile.PerfDatafile

open Dnsperf.Lib

variable {d : PerfDatafile} {content : Bytes}

/-! ### Lines -/

/-- A byte that ends a line. -/
def isEol (c : UInt8) : Bool := c == 10 || c == 0

/-- A line `read_one_line` does not skip. -/
def deliverable (line : Bytes) : Bool := line != [] && line.headD 0 != 59

theorem deliverable_iff (l r : Bytes) :
    (0 < l.length ∧ (l ++ r).headD 0 ≠ 59) ↔ deliverable l = true := by
  cases l <;> simp [deliverable]

/-- The lines to deliver: the terminated ones, and with `all` also what follows the
last terminator. -/
def linesOf (all : Bool) (content : Bytes) : List Bytes :=
  ((segments isEol content).1 ++ if all then [(segments isEol content).2] else []).filter
    deliverable

/-- Every non-empty line that is not a comment. -/
def textLines (content : Bytes) : List Bytes := linesOf true content

/-- In a text, which has no NUL, lines end at newlines. -/
theorem segments_of_text (h : (0 : UInt8) ∉ content) :
    segments isEol content = segments (· == 10) content := by
  refine segments_congr fun c hc => ?_
  have hne : (c == 0) = false := beq_false_of_ne fun h0 => h (h0 ▸ hc)
  rw [isEol, hne, Bool.or_false]

theorem zero_notMem_of_mem_textLines {l : Bytes} (h : l ∈ textLines content) : (0 : UInt8) ∉ l := by
  obtain ⟨hfree, hrest⟩ := segments_free isEol content
  simp only [textLines, linesOf, if_true] at h
  obtain ⟨h, -⟩ := List.mem_filter.mp h
  rcases List.mem_append.mp h with h | h
  · exact fun hzero => absurd (hfree l h 0 hzero) (by decide)
  · rw [List.mem_singleton.mp h]
    exact fun hzero => absurd (hrest 0 hzero) (by decide)

theorem linesOf_append_cons {l : Bytes} (hl : ∀ a ∈ l, isEol a = false) {t : UInt8}
    (ht : isEol t = true) (all : Bool) (s : Bytes) :
    linesOf all (l ++ t :: s) = if deliverable l then l :: linesOf all s else linesOf all s := by
  simp only [linesOf, segments_append_cons hl ht, List.cons_append, List.filter_cons]

theorem linesOf_of_forall (h : ∀ a ∈ content, isEol a = false) (all : Bool) :
    linesOf all content = if all && deliverable content then [content] else [] := by
  cases all <;> simp [linesOf, segments_of_forall h, List.filter_cons]

theorem linesOf_nil (all : Bool) : linesOf all [] = [] := by
  cases all <;> rfl

theorem linesOf_length_le (all : Bool) (content : Bytes) :
    (linesOf all content).length ≤ content.length ∧
      ∀ l ∈ linesOf all content, l.length ≤ content.length := by
  have hlen := segments_length isEol content
  have hcount : (segments isEol content).1.length ≤
      ((segments isEol content).1.map (·.length + 1)).sum := by
    simp
  have hmem : ∀ l ∈ (segments isEol content).1, l.length + 1 ≤
      ((segments isEol content).1.map (·.length + 1)).sum := fun l hl =>
    List.le_sum_of_mem (List.mem_map_of_mem hl)
  have hterm : ((segments isEol content).1.filter deliverable).length ≤
      (segments isEol content).1.length := List.length_filter_le _ _
  have hlast : ([(segments isEol content).2].filter deliverable).length ≤
      (segments isEol content).2.length := by
    by_cases hdel : deliverable (segments isEol content).2 = true
    · rw [List.filter_cons_of_pos hdel]
      simp only [deliverable, Bool.and_eq_true, bne_iff_ne] at hdel
      exact List.length_pos_of_ne_nil hdel.1
    · rw [List.filter_cons_of_neg hdel]
      simp
  refine ⟨?_, fun l hl => ?_⟩
  · cases all with
    | false =>
        simp only [linesOf, Bool.false_eq_true, if_false, List.append_nil]
        omega
    | true =>
        simp only [linesOf, if_true, List.filter_append, List.length_append]
        omega
  · obtain ⟨hl, -⟩ := List.mem_filter.mp hl
    rcases List.mem_append.mp hl with hl | hl
    · have := hmem l hl
      omega
    · obtain rfl : l = (segments isEol content).2 := by
        cases all with
        | false => simp at hl
        | true => simpa using hl
      omega

/-- What `strcspn(cur, "\n")` measures: up to the end of the line. -/
theorem strcspn_eq (s : Bytes) : strcspn s [10] = (s.takeWhile (fun c => !isEol c)).length := by
  unfold strcspn isEol
  congr 2
  funext c
  cases h0 : (c == 0) <;> cases h10 : (c == 10) <;> simp_all [bne]

theorem strcspn_append_cons {l : Bytes} (hl : ∀ a ∈ l, isEol a = false) {t : UInt8}
    (ht : isEol t = true) (s : Bytes) : strcspn (l ++ t :: s) [10] = l.length := by
  rw [strcspn_eq, List.takeWhile_append_of_pos (fun a ha => by simp [hl a ha]),
    List.takeWhile_cons_of_neg (by simp [ht]), List.append_nil]

theorem strcspn_of_forall {l : Bytes} (hl : ∀ a ∈ l, isEol a = false) :
    strcspn l [10] = l.length := by
  rw [strcspn_eq, List.takeWhile_eq_self_iff.mpr (fun a ha => by simp [hl a ha])]

/-! ### One line -/

/-- Whether the rest of the input counts as a line will not change any more: the
file is cached, or the input is a stream. -/
def Steady (d : PerfDatafile) : Prop := d.cached = true ∨ d.isFile = false

theorem advance_advance (d : PerfDatafile) (n m : Nat) :
    (d.advance n).advance m = d.advance (n + m) := by
  apply PerfDatafile.ext <;> simp only [advance]
  omega

theorem nextLine_terminated {fuel : Nat} {l r : Bytes} {t : UInt8} (hrest : d.rest = l ++ t :: r)
    (hl : ∀ a ∈ l, isEol a = false) (ht : isEol t = true) :
    nextLine (fuel + 1) d =
      if deliverable l then some (d.advance (l.length + 1), .ok l)
      else nextLine fuel (d.advance (l.length + 1)) := by
  have hnrem : d.nrem = l.length + 1 + r.length := by
    rw [← length_rest, hrest]
    simp
    omega
  have hlt : (d.advance l.length).atPos < (d.advance l.length).databuf.length := by
    simp only [advance, nrem] at hnrem ⊢
    omega
  rw [nextLine]
  simp only [hrest, strcspn_append_cons hl ht, if_neg (show ¬ l.length = d.nrem by omega),
    if_pos hlt, advance_advance, List.take_left, deliverable_iff]

theorem nextLine_cached {fuel : Nat} (hc : d.cached = true) (hl : ∀ a ∈ d.rest, isEol a = false) :
    nextLine (fuel + 1) d =
      if d.nrem = 0 then some (d, .error .eof)
      else if deliverable d.rest then some (d.advance d.nrem, .ok d.rest)
      else nextLine fuel (d.advance d.nrem) := by
  have hlt : ¬ (d.advance d.nrem).atPos < (d.advance d.nrem).databuf.length := by
    have := d.atPos_le
    simp only [advance, nrem]
    omega
  have hdel := deliverable_iff d.rest []
  rw [List.append_nil, length_rest] at hdel
  have htake : d.rest.take d.nrem = d.rest := by
    rw [← length_rest, List.take_length]
  rw [nextLine]
  simp only [strcspn_of_forall hl, length_rest, if_true, hc, Bool.not_true, Bool.false_eq_true,
    if_false, ne_eq, not_true_eq_false, Nat.lt_irrefl, if_neg hlt, htake]
  simp only [ne_eq] at hdel
  simp only [hdel]

theorem nextLine_more {fuel : Nat} (hc : d.cached = false) (hl : ∀ a ∈ d.rest, isEol a = false)
    {d' : PerfDatafile} (hmore : d.readMore = (.success, d')) (hgrow : d.nrem < d'.nrem) :
    nextLine (fuel + 1) d = nextLine fuel d' := by
  rw [nextLine]
  simp only [strcspn_of_forall hl, length_rest, if_true, hc, Bool.not_false, hmore, ne_eq,
    not_true_eq_false, if_false, if_neg (show ¬ d'.nrem = 0 by omega), if_pos hgrow]

theorem nextLine_eof {fuel : Nat} (hc : d.cached = false) (hl : ∀ a ∈ d.rest, isEol a = false)
    {d' : PerfDatafile} (hmore : d.readMore = (.eof, d')) :
    nextLine (fuel + 1) d = some (d', .error .eof) := by
  rw [nextLine]
  simp [strcspn_of_forall hl, hc, hmore]

/-- What is left to deliver after `read_one_line` moved from `d` to `d'`. -/
structure LinesLeft (d d' : PerfDatafile) (content : Bytes) (ls : List Bytes) : Prop where
  same : SameRun d d'
  steady : Steady d'
  cached : d'.cached = d.cached
  feeds : ∃ content', Feeds d' content' ∧ content'.length ≤ content.length ∧
    linesOf d'.cached content' = ls

/-- `out` is the next of the lines that are left in state `d`, or the end of the file
if there is none. -/
def Answers (out : Option (PerfDatafile × Except PerfResult Bytes)) (d : PerfDatafile)
    (content : Bytes) : Prop :=
  match linesOf d.cached content with
  | [] => ∃ d', out = some (d', .error .eof) ∧ SameRun d d'
  | l :: ls => ∃ d', out = some (d', .ok l) ∧ LinesLeft d d' content ls

theorem Answers.eof {out : Option (PerfDatafile × Except PerfResult Bytes)} {d' : PerfDatafile}
    (hout : out = some (d', .error .eof)) (hsame : SameRun d d')
    (hlines : linesOf d.cached content = []) : Answers out d content := by
  unfold Answers
  rw [hlines]
  exact ⟨d', hout, hsame⟩

theorem Answers.ok {out : Option (PerfDatafile × Except PerfResult Bytes)} {d' : PerfDatafile}
    {l : Bytes} {ls : List Bytes} (hout : out = some (d', .ok l))
    (hleft : LinesLeft d d' content ls)
    (hlines : linesOf d.cached content = l :: ls) : Answers out d content := by
  unfold Answers
  rw [hlines]
  exact ⟨d', hout, hleft⟩

theorem Answers.back {out : Option (PerfDatafile × Except PerfResult Bytes)} {d₁ : PerfDatafile}
    {content₁ : Bytes} (h : Answers out d₁ content₁) (hsame : SameRun d d₁)
    (hcached : d₁.cached = d.cached) (hlen : content₁.length ≤ content.length)
    (hlines : linesOf d.cached content₁ = linesOf d.cached content) : Answers out d content := by
  unfold Answers at h
  rw [hcached, hlines] at h
  cases hls : linesOf d.cached content with
  | nil =>
      rw [hls] at h
      obtain ⟨d', hout, hsame'⟩ := h
      exact .eof hout (hsame.trans hsame') hls
  | cons l ls =>
      rw [hls] at h
      obtain ⟨d', hout, hleft⟩ := h
      obtain ⟨content', hfeeds', hlen', hlines'⟩ := hleft.feeds
      exact .ok hout ⟨hsame.trans hleft.same, hleft.steady, hleft.cached.trans hcached,
        content', hfeeds', hlen'.trans hlen, hlines'⟩ hls

theorem sameRun_advance (d : PerfDatafile) (n : Nat) : SameRun d (d.advance n) :=
  ⟨rfl, rfl, rfl, rfl, rfl⟩

theorem nrem_advance (d : PerfDatafile) (n : Nat) : (d.advance n).nrem = d.nrem - n := by
  simp only [advance, nrem]
  omega

theorem Feeds.line {l r : Bytes} {t : UInt8} (hfeeds : Feeds d content)
    (hrest : d.rest = l ++ t :: r) :
    ∃ content', content = l ++ t :: content' ∧ Feeds (d.advance (l.length + 1)) content' ∧
      l.length + 1 ≤ d.nrem := by
  obtain ⟨chunks, -, -, hcontent, -, -⟩ := hfeeds.pieces
  rw [hrest, List.append_assoc, List.cons_append] at hcontent
  have hnrem : l.length + 1 ≤ d.nrem := by
    rw [← length_rest, hrest, List.length_append, List.length_cons]
    omega
  have hlen : (l ++ [t]).length = l.length + 1 := by simp
  refine ⟨r ++ chunks.flatten, hcontent.symm, ?_, hnrem⟩
  rw [← hlen]
  exact Feeds.advance (by simpa using hcontent ▸ hfeeds) (hlen.trans_le hnrem)

/-- So many rounds are enough, with two for each byte that is not in the buffer and one
for each that is. -/
def Enough (fuel : Nat) : Prop :=
  ∀ {d : PerfDatafile} {content : Bytes}, Feeds d content → Steady d →
    content.length ≤ dataSpace → 2 * (content.length - d.nrem) + d.nrem < fuel →
      Answers (nextLine fuel d) d content

section Round

variable {fuel : Nat} (ih : Enough fuel) (hfeeds : Feeds d content)
  (hfuel : 2 * (content.length - d.nrem) + d.nrem < fuel + 1)

include ih hfeeds hfuel

theorem Enough.terminated (hsteady : Steady d) (hfit : content.length ≤ dataSpace) {l r : Bytes}
    {t : UInt8} (hrest : d.rest = l ++ t :: r) (hl : ∀ a ∈ l, isEol a = false)
    (ht : isEol t = true) : Answers (nextLine (fuel + 1) d) d content := by
  have hle := hfeeds.rest_le
  obtain ⟨content', rfl, hfeeds', hnrem⟩ := hfeeds.line hrest
  have hlines := linesOf_append_cons hl ht d.cached content'
  rw [List.length_append, List.length_cons] at hle hfuel hfit
  have hshorter : content'.length ≤ (l ++ t :: content').length := by
    rw [List.length_append, List.length_cons]
    omega
  rw [nextLine_terminated hrest hl ht]
  by_cases hdel : deliverable l = true
  · rw [if_pos hdel] at hlines ⊢
    exact .ok rfl ⟨sameRun_advance d _, hsteady, rfl, _, hfeeds', hshorter, rfl⟩ hlines
  · rw [if_neg hdel] at hlines ⊢
    refine (ih hfeeds' hsteady (by omega) ?_).back (sameRun_advance d _) rfl hshorter hlines.symm
    rw [nrem_advance]
    omega

theorem Enough.cached (hc : d.cached = true) (hopen : ∀ a ∈ d.rest, isEol a = false) :
    Answers (nextLine (fuel + 1) d) d content := by
  have hall := hfeeds.rest_eq_of_cached hc
  have hnrem : d.nrem = content.length := by
    rw [← length_rest, hall]
  have hlines : linesOf d.cached content = if deliverable content then [content] else [] := by
    rw [linesOf_of_forall (hall ▸ hopen), hc, Bool.true_and]
  have hfeeds' : Feeds (d.advance d.nrem) [] := by
    rw [← length_rest]
    exact Feeds.advance (by rw [List.append_nil, hall]; exact hfeeds) (by simp)
  rw [nextLine_cached hc hopen]
  by_cases h0 : d.nrem = 0
  · have hnil : content = [] := List.length_eq_zero_iff.mp (by omega)
    rw [if_pos h0]
    exact .eof rfl (SameRun.refl d) (by rw [hnil, linesOf_nil])
  · rw [if_neg h0, hall]
    by_cases hdel : deliverable content = true
    · rw [if_pos hdel] at hlines ⊢
      exact .ok rfl ⟨sameRun_advance d _, Or.inl hc, rfl, [], hfeeds', by simp,
        linesOf_nil _⟩ hlines
    · rw [if_neg hdel] at hlines ⊢
      refine (ih hfeeds' (Or.inl hc) (by simp) ?_).back (sameRun_advance d _) rfl (by simp) ?_
      · rw [nrem_advance, List.length_nil]
        omega
      · rw [linesOf_nil, hlines]

theorem Enough.more (hc : d.cached = false) (hfile : d.isFile = false)
    (hfit : content.length ≤ dataSpace) (hopen : ∀ a ∈ d.rest, isEol a = false) :
    Answers (nextLine (fuel + 1) d) d content := by
  have hle := hfeeds.rest_le
  obtain ⟨d', hfeeds', hsame, hcached, -, ⟨hmore, hall, -⟩ | ⟨hmore, hgrow⟩⟩ :=
    readMore_of_feeds hfeeds hc (Or.inr hfit)
  · refine .eof (nextLine_eof hc hopen hmore) hsame ?_
    rw [linesOf_of_forall (hall ▸ hopen), hc]
    rfl
  · have hle' := hfeeds'.rest_le
    rw [nextLine_more hc hopen hmore hgrow]
    have hrec := ih hfeeds' (Or.inr (hsame.2.1.trans hfile)) hfit (by omega)
    exact hrec.back hsame ((hcached hfile).trans hc.symm) (Nat.le_refl _) rfl

end Round

/-- **One line.** In a steady state the reader delivers the next of the lines that
are left, or reports the end of the file if there is none. -/
theorem nextLine_of_feeds (fuel : Nat) : Enough fuel := by
  induction fuel with
  | zero => exact fun _ _ _ hfuel => absurd hfuel (Nat.not_lt_zero _)
  | succ fuel ih =>
      intro d content hfeeds hsteady hfit hfuel
      rcases segments_cases isEol d.rest with hopen | ⟨l, t, r, hrest, hl, ht⟩
      · by_cases hc : d.cached = true
        · exact ih.cached hfeeds hfuel hc hopen
        · exact ih.more hfeeds hfuel (Bool.eq_false_iff.mpr hc) (hsteady.resolve_left hc) hfit hopen
      · exact ih.terminated hfeeds hfuel hsteady hfit hrest hl ht

/-! ### One run -/

theorem Feeds.pending_eq (h : Feeds d content) : d.source.pending = content.length - d.nrem := by
  obtain ⟨chunks, hreads, -, rfl, -, -⟩ := h.pieces
  have hsum : d.source.pending = chunks.flatten.length := by
    simp [Source.pending, hreads, Function.comp_def, List.length_flatten]
  rw [hsum, List.length_append, length_rest, Nat.add_sub_cancel_left]

/-- The first call of `nextLine` in `read_one_line`. -/
def firstLine (d : PerfDatafile) : Option (PerfDatafile × Except PerfResult Bytes) :=
  nextLine (2 * d.source.pending + d.nrem + 1) d

theorem firstLine_of_feeds (hfeeds : Feeds d content) (hsteady : Steady d)
    (hfit : content.length ≤ dataSpace) : Answers d.firstLine d content :=
  nextLine_of_feeds _ hfeeds hsteady hfit (by rw [hfeeds.pending_eq]; omega)

/-- Calls of `perf_datafile_next`, each into the cleared buffer, until one does not
succeed: the lines, without their NUL, and that last result. At most `n` calls. -/
def deliver (lines : PerfBuffer) : Nat → PerfDatafile → Option (List Bytes × PerfResult)
  | 0, _ => none
  | n + 1, d => do
      let (result, d, lines') ← d.perfDatafileNext lines.clear
      if result = .success then
        let (ls, result) ← deliver lines n d
        some (lines'.base.dropLast :: ls, result)
      else some ([], result)

/-- A reader of text queries in its only run. -/
def OneRun (d : PerfDatafile) : Prop := d.format = .textQuery ∧ d.maxruns = 1 ∧ d.nruns = 0

theorem OneRun.of_sameRun {d' : PerfDatafile} (h : OneRun d) (hsame : SameRun d d') : OneRun d' :=
  ⟨hsame.1.trans h.1, hsame.2.2.1.trans h.2.1, hsame.2.2.2.1.trans h.2.2⟩

/-- A line as `read_one_line` puts it into a buffer with so much room: cut to it, with a NUL. -/
def truncated (room : Nat) (l : Bytes) : Bytes := l.take (room - 1) ++ [0]

theorem truncated_of_le {room : Nat} {l : Bytes} (h : l.length < room) :
    truncated room l = l ++ [0] := by
  rw [truncated, List.take_of_length_le (by omega)]

theorem fits_truncated {lines : PerfBuffer} (hroom : 0 < lines.availablelength) (l : Bytes) :
    lines.Fits (truncated lines.availablelength l).length := by
  simp only [PerfBuffer.fits_iff, truncated, List.length_append, List.length_take,
    List.length_singleton]
  omega

/-- `read_one_line` with a line found: the two assertions hold if there is room for the NUL, and
otherwise one of them fails. -/
theorem readOneLine_ok (lines : PerfBuffer) {d' : PerfDatafile} {l : Bytes}
    (h : d.firstLine = some (d', .ok l)) :
    d.readOneLine lines = if 0 < lines.availablelength then
      some (.success, d', lines.push (truncated lines.availablelength l)) else none := by
  rw [firstLine] at h
  simp only [readOneLine, h, Option.bind_eq_bind, Option.bind_some, PerfBuffer.putuint8,
    PerfBuffer.putmem_bind_putmem]
  rw [show l.take (lines.availablelength - 1) ++ [UInt8.ofNat 0] = truncated lines.availablelength l
    from rfl]
  by_cases hroom : 0 < lines.availablelength
  · rw [if_pos hroom, PerfBuffer.putmem_eq_push (fits_truncated hroom l)]
    rfl
  · have hnone : lines.putmem (truncated lines.availablelength l) = none := by
      refine PerfBuffer.putmem_eq_none ?_
      simp only [PerfBuffer.fits_iff, truncated, List.length_append, List.length_singleton]
      omega
    rw [if_neg hroom, hnone]
    rfl

theorem readOneLine_error (lines : PerfBuffer) {d' : PerfDatafile} {result : PerfResult}
    (h : d.firstLine = some (d', .error result)) :
    d.readOneLine lines = some (result, d', lines) := by
  rw [firstLine] at h
  simp only [readOneLine, h, Option.bind_eq_bind, Option.bind_some]

theorem readfunc_ok (hformat : d.format = .textQuery) {lines : PerfBuffer} {d' : PerfDatafile}
    {l : Bytes} (hl : lines.Fits (l.length + 1)) (h : d.firstLine = some (d', .ok l)) :
    d.readfunc lines = some (.success, d', lines.push (l ++ [0])) := by
  have hroom : l.length < lines.availablelength := PerfBuffer.fits_iff.mp hl
  simp only [readfunc, hformat]
  rw [readOneLine_ok lines h, if_pos (by omega), truncated_of_le hroom]

theorem readfunc_eof (hformat : d.format = .textQuery) {lines : PerfBuffer} {d' : PerfDatafile}
    (h : d.firstLine = some (d', .error .eof)) : d.readfunc lines = some (.eof, d', lines) := by
  simp only [readfunc, hformat]
  exact readOneLine_error lines h

theorem perfDatafileNext_success {d' : PerfDatafile} {lines lines' : PerfBuffer}
    (hruns : ¬ (0 < d.maxruns ∧ d.maxruns = d.nruns)) (hformat : d'.format ≠ .textUpdate)
    (h : d.readfunc lines = some (.success, d', lines')) :
    d.perfDatafileNext lines = some (.success, { d' with readAny := true }, lines') := by
  simp [perfDatafileNext, hruns, h, hformat]

theorem perfDatafileNext_last {d' : PerfDatafile} {lines : PerfBuffer}
    (hruns : ¬ (0 < d.maxruns ∧ d.maxruns = d.nruns)) (hany : d'.readAny = true)
    (hlast : d'.maxruns = (d'.nruns + 1) % 2 ^ 32) (h : d.readfunc lines = some (.eof, d', lines)) :
    d.perfDatafileNext lines =
      some (.eof, { d' with nruns := (d'.nruns + 1) % 2 ^ 32 }, lines) := by
  simp [perfDatafileNext, hruns, h, hany, endRun, hlast]

theorem perfDatafileNext_again {d₁ d₂ d' : PerfDatafile} {lines lines' : PerfBuffer}
    (hruns : ¬ (0 < d.maxruns ∧ d.maxruns = d.nruns)) (hany : d₁.readAny = true)
    (hread : d.readfunc lines = some (.eof, d₁, lines)) (hend : d₁.endRun = some d₂)
    (hmore : d₂.maxruns ≠ d₂.nruns) (hformat : d'.format ≠ .textUpdate)
    (h : d₂.readfunc lines = some (.success, d', lines')) :
    d.perfDatafileNext lines = some (.success, { d' with readAny := true }, lines') := by
  simp [perfDatafileNext, hruns, hread, hany, hend, hmore, h, hformat]

theorem perfDatafileNext_ok (hrun : OneRun d) {lines : PerfBuffer} {d' : PerfDatafile} {l : Bytes}
    (hl : lines.Fits (l.length + 1)) (h : d.firstLine = some (d', .ok l)) (hsame : SameRun d d') :
    d.perfDatafileNext lines =
      some (.success, { d' with readAny := true }, lines.push (l ++ [0])) := by
  obtain ⟨hformat, hmax, hnruns⟩ := hrun
  have hformat' : d'.format = .textQuery := hsame.1.trans hformat
  exact perfDatafileNext_success (by omega) (by simp [hformat']) (readfunc_ok hformat hl h)

theorem perfDatafileNext_eof (hrun : OneRun d) (lines : PerfBuffer) {d' : PerfDatafile}
    (h : d.firstLine = some (d', .error .eof)) (hsame : SameRun d d') :
    ∃ r d'', r ≠ .success ∧ d.perfDatafileNext lines = some (r, d'', lines) := by
  obtain ⟨hformat, hmax, hnruns⟩ := hrun
  have hmax' : d'.maxruns = 1 := hsame.2.2.1.trans hmax
  have hnruns' : d'.nruns = 0 := hsame.2.2.2.1.trans hnruns
  by_cases hany : d'.readAny = true
  · exact ⟨.eof, _, by decide,
      perfDatafileNext_last (by omega) hany (by omega) (readfunc_eof hformat h)⟩
  · refine ⟨.invalidfile, d', by decide, ?_⟩
    simp [perfDatafileNext, hmax, hnruns, readfunc_eof hformat h, hany]

/-- **One run** delivers the lines that are left. -/
theorem deliver_of_answers {lines : PerfBuffer} (hlines : dataSpace + 1 ≤ lines.length) :
    ∀ {ls : List Bytes} {n : Nat} {d : PerfDatafile} (d₁ : PerfDatafile) (content : Bytes),
      linesOf d₁.cached content = ls → ls.length < n → content.length ≤ dataSpace → OneRun d →
      SameRun d d₁ → Answers d.firstLine d₁ content → ∃ r, deliver lines n d = some (ls, r)
  | _, 0, _, _, _, _, hn, _, _, _, _ => absurd hn (Nat.not_lt_zero _)
  | [], n + 1, d, d₁, content, hls, _, _, hrun, hsame, hans => by
      rw [Answers, hls] at hans
      obtain ⟨d', hfirst, hsame'⟩ := hans
      obtain ⟨r, d'', hr, hnext⟩ := perfDatafileNext_eof hrun lines.clear hfirst
        (hsame.trans hsame')
      exact ⟨r, by simp [deliver, hnext, hr]⟩
  | l :: ls, n + 1, d, d₁, content, hls, hn, hfit, hrun, hsame, hans => by
      have hlen : l.length ≤ content.length :=
        (linesOf_length_le d₁.cached content).2 l (by rw [hls]; exact List.mem_cons_self ..)
      rw [Answers, hls] at hans
      obtain ⟨d', hfirst, hleft⟩ := hans
      obtain ⟨content', hfeeds', hlen', hls'⟩ := hleft.feeds
      have hfits : lines.clear.Fits (l.length + 1) := by
        simp only [PerfBuffer.Fits, PerfBuffer.clear, PerfBuffer.init_base, PerfBuffer.init_length,
          List.length_nil]
        omega
      have hsame' := hsame.trans hleft.same
      have hnext := perfDatafileNext_ok hrun hfits hfirst hsame'
      have hans' : Answers { d' with readAny := true }.firstLine { d' with readAny := true }
          content' :=
        firstLine_of_feeds (hfeeds'.readAny true) hleft.steady (by omega)
      have hrun' : OneRun { d' with readAny := true } := (hrun.of_sameRun hsame' : OneRun d')
      obtain ⟨r, hrec⟩ := deliver_of_answers hlines { d' with readAny := true } content' hls'
        (by simpa using hn) (by omega) hrun' (SameRun.refl _) hans'
      refine ⟨r, ?_⟩
      have hbase : (lines.clear.push (l ++ [0])).base = l ++ [0] := by
        rw [PerfBuffer.push_base (by simpa using hfits)]
        rfl
      simp [deliver, hnext, hrec, hbase]

/-! ### Standard input and a file -/

/-- The buffer of `do_send` that lines are read into. -/
def inputData : PerfBuffer := PerfBuffer.init (64 * 1024 + 2)

/-- Standard input that delivers the given pieces. -/
def streamInput (hasPipe : Bool) (chunks : List Bytes) : PerfDatafile :=
  perfDatafileOpen none .textQuery 1 hasPipe
    { reads := chunks.map some, seeks := [], waits := [], spaces := [] }

/-- A regular file that is read at once. -/
def fileInput (hasPipe : Bool) (content : Bytes) : PerfDatafile :=
  perfDatafileOpen (some content.length) .textQuery 1 hasPipe
    { reads := [some content], seeks := [], waits := [], spaces := [] }

theorem deliver_streamInput (hasPipe : Bool) {chunks : List Bytes} (hne : ∀ c ∈ chunks, c ≠ [])
    (hfit : chunks.flatten.length ≤ dataSpace) :
    ∃ r, deliver inputData (chunks.flatten.length + 1) (streamInput hasPipe chunks) =
      some (linesOf false chunks.flatten, r) := by
  have hfeeds : Feeds (streamInput hasPipe chunks) chunks.flatten :=
    ⟨⟨chunks, rfl, hne, rfl, by simp [streamInput, perfDatafileOpen],
      by simp [streamInput, perfDatafileOpen]⟩, by simp [streamInput, perfDatafileOpen]⟩
  exact deliver_of_answers (by decide) _ _ rfl
    (Nat.lt_succ_of_le (linesOf_length_le _ _).1) hfit ⟨rfl, rfl, rfl⟩ (SameRun.refl _)
    (firstLine_of_feeds hfeeds (Or.inr rfl) hfit)

/-- A refill that reads a whole file at once caches it. -/
theorem readMore_whole (hfeeds : Feeds d content) (hrest : d.rest = [])
    (hreads : d.source.reads = [some content]) (hfile : d.isFile = true)
    (hsize : d.size = content.length) (hne : content ≠ []) (hfit : content.length ≤ dataSpace) :
    d.readMore.2.cached = true := by
  obtain ⟨waits, -, hwait⟩ := waitReadable_of_success hfeeds.waits
  obtain ⟨b, bytes, rfl⟩ := List.exists_cons_of_ne_nil hne
  have hnrem : dataSpace - d.nrem = dataSpace := by
    rw [← length_rest, hrest]
    rfl
  have hread : { d.source with waits := waits }.read (dataSpace - d.nrem) = (some (b :: bytes),
      { d.source with
        waits := waits
        reads := []
        spaces := d.source.spaces ++ [dataSpace] }) := by
    simp only [Source.read, hreads, hnrem, if_neg (Nat.not_lt.mpr hfit)]
  rw [readMore_eq hwait hread]
  have htake : (b :: bytes).take dataSpace = b :: bytes := List.take_of_length_le hfit
  simp [afterRead, append, front, hrest, hfile, hsize, htake]

theorem readMore_fileInput (hasPipe : Bool) {content : Bytes} (hnil : content ≠ [])
    (hfit : content.length ≤ dataSpace) :
    ∃ d', (fileInput hasPipe content).readMore = (.success, d') ∧ d'.cached = true ∧
      Feeds d' content ∧ SameRun (fileInput hasPipe content) d' ∧ 0 < d'.nrem := by
  have hfeeds : Feeds (fileInput hasPipe content) content :=
    ⟨⟨[content], rfl, by simpa using hnil, by simp [fileInput, perfDatafileOpen, rest],
      by simp [fileInput, perfDatafileOpen], by simp [fileInput, perfDatafileOpen]⟩,
      by simp [fileInput, perfDatafileOpen]⟩
  have hcached := readMore_whole hfeeds rfl rfl rfl rfl hnil hfit
  obtain ⟨d', hfeeds', hsame, -, -, ⟨-, hall, -⟩ | ⟨hmore, hgrow⟩⟩ :=
    readMore_of_feeds hfeeds rfl (Or.inr hfit)
  · exact absurd hall.symm hnil
  · rw [hmore] at hcached
    exact ⟨d', hmore, hcached, hfeeds', hsame, by omega⟩

theorem deliver_fileInput (hasPipe : Bool) {content : Bytes} (hfit : content.length ≤ dataSpace) :
    ∃ r, deliver inputData (content.length + 1) (fileInput hasPipe content) =
      some (linesOf true content, r) := by
  have hlen := Nat.lt_succ_of_le (linesOf_length_le true content).1
  have hrest : ∀ a ∈ (fileInput hasPipe content).rest, isEol a = false := by
    simp [fileInput, perfDatafileOpen, rest]
  by_cases hnil : content = []
  · subst hnil
    refine deliver_of_answers (by decide) (fileInput hasPipe []) [] (linesOf_nil _)
      hlen (by decide) ⟨rfl, rfl, rfl⟩ (SameRun.refl _) ?_
    exact ⟨_, nextLine_eof rfl hrest rfl, ⟨rfl, rfl, rfl, rfl, rfl⟩⟩
  · obtain ⟨d₁, hmore, hcached, hfeeds, hsame, hpos⟩ :=
      readMore_fileInput hasPipe hnil hfit
    have hnrem : d₁.nrem = content.length := by
      rw [← length_rest, hfeeds.rest_eq_of_cached hcached]
    refine deliver_of_answers (by decide) d₁ content (by rw [hcached]) hlen hfit ⟨rfl, rfl, rfl⟩
      hsame ?_
    have hfuel : 2 * (fileInput hasPipe content).source.pending + (fileInput hasPipe content).nrem =
        2 * content.length := by
      simp [fileInput, perfDatafileOpen, Source.pending, nrem]
    rw [firstLine, hfuel, nextLine_more rfl hrest hmore hpos]
    exact nextLine_of_feeds _ hfeeds (Or.inl hcached) hfit (by omega)

/-- **A stream and a file of the same bytes** deliver the same lines, all lines of the
input, exactly when the input ends with a line end or in a comment. -/
theorem stream_file_agree_iff (content : Bytes) (hfit : content.length ≤ dataSpace)
    (chunks : List Bytes) (hne : ∀ c ∈ chunks, c ≠ []) (hcontent : chunks.flatten = content)
    (hasPipe : Bool) :
    (∃ rs rf, deliver inputData (content.length + 1) (streamInput hasPipe chunks) =
        some (textLines content, rs) ∧
      deliver inputData (content.length + 1) (fileInput hasPipe content) =
        some (textLines content, rf)) ↔
      deliverable (segments isEol content).2 = false := by
  subst hcontent
  obtain ⟨rs, hs⟩ := deliver_streamInput hasPipe hne hfit
  obtain ⟨rf, hf⟩ := deliver_fileInput hasPipe hfit
  have hsplit : textLines chunks.flatten = linesOf false chunks.flatten ++
      [(segments isEol chunks.flatten).2].filter deliverable := by
    simp [textLines, linesOf]
  rw [hs, hf]
  constructor
  · rintro ⟨rs', rf', hs', -⟩
    obtain ⟨hlines, -⟩ := Prod.mk.inj (Option.some.inj hs')
    rw [hsplit] at hlines
    have hlast := List.self_eq_append_right.mp hlines
    by_contra hdel
    rw [Bool.not_eq_false] at hdel
    simp [hdel] at hlast
  · intro hdel
    refine ⟨rs, rf, ?_, rfl⟩
    rw [hsplit]
    simp [hdel]

/-- A query and a comment without a final newline, in two pieces. -/
theorem stream_file_agree_comment :
    ∃ rs rf, deliver inputData 7 (streamInput true [ascii "a", ascii " A\n;x"]) =
        some (textLines (ascii "a A\n;x"), rs) ∧
      deliver inputData 7 (fileInput true (ascii "a A\n;x")) =
        some (textLines (ascii "a A\n;x"), rf) :=
  (stream_file_agree_iff (ascii "a A\n;x") (by decide) [ascii "a", ascii " A\n;x"] (by decide)
    (by decide) true).mpr (by decide)

/-- Two queries without a final newline: the second is lost on standard input. -/
theorem stream_drops_last_line :
    deliver inputData 8 (streamInput false [ascii "a A\nb A"]) = some ([ascii "a A"], .eof) ∧
      deliver inputData 8 (fileInput false (ascii "a A\nb A")) =
        some ([ascii "a A", ascii "b A"], .eof) := by
  decide

end Dnsperf.Datafile.PerfDatafile
