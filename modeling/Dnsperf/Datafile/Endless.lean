import Dnsperf.Datafile.Runs

/-!
# Dnsperf.Datafile.Endless

**Reading without a limit on the runs.** With `maxruns` 0 the check at the start of
`perf_datafile_next` never stops it, but the one at the end of a run compares `nruns` with 0 as with
any other limit. `nruns` has 32 bits: after `2^32` runs it is 0 again, the file is not reopened and
the call returns the end of the file.

Before that no call does. A call that finds the end of a run goes back to the start, and what was
found there once is found there again: a line that has its end, or the last line of a file that is
in the buffer as a whole.
-/

namespace Dnsperf.Datafile.PerfDatafile

open Dnsperf.Lib

variable {d d' : PerfDatafile} {content left : Bytes} {lines lines' : PerfBuffer}
  {result : PerfResult}

/-- What is left of the file in this run: in the buffer, and what the `read`s will deliver. -/
def unread (d : PerfDatafile) : Bytes := d.rest ++ (d.source.reads.map (·.getD [])).flatten

/-- No record is left in this run. A last line without its end is one only in a cached file. -/
def noneLeft (d : PerfDatafile) : Bool :=
  match d.format with
  | .tcpWireFormat => d.unread.isEmpty
  | .textQuery | .textUpdate =>
      (reachedLines d.unread).isEmpty && (!d.cached || (textLines d.unread).isEmpty)

/-- The next call ends the run that makes `nruns` 0 again. -/
def wraps (d : PerfDatafile) : Bool := d.nruns == 2 ^ 32 - 1 && d.noneLeft

/-- None of the calls of `nextAll` starts in such a state. -/
def neverWraps (buffers : Nat → PerfBuffer) : PerfDatafile → List Nat → Bool
  | _, [] => true
  | d, thread :: order =>
      !d.wraps && match d.perfDatafileNext (buffers thread).clear with
        | none => true
        | some (_, d', _) => neverWraps buffers d' order

theorem Feeds.unread_eq (h : Feeds d content) : d.unread = content := by
  obtain ⟨chunks, hreads, -, rfl, -, -⟩ := h.pieces
  simp [unread, hreads, Function.comp_def]

/-! ### What is found at the start of the file -/

/-- A call of `readfunc` at the start of the file finds a record, or what should be one. -/
def Fruitful (content : Bytes) (cached : Bool) : PerfInputFormat → Prop
  | .tcpWireFormat => content ≠ []
  | .textQuery | .textUpdate => reachedLines content ≠ [] ∨ cached = true ∧ textLines content ≠ []

theorem Fruitful.mono {cached cached' : Bool} {format : PerfInputFormat}
    (h : Fruitful content cached format) (hc : cached = true → cached' = true) :
    Fruitful content cached' format := by
  cases format with
  | tcpWireFormat => exact h
  | textQuery => exact h.imp_right fun hand => ⟨hc hand.1, hand.2⟩
  | textUpdate => exact h.imp_right fun hand => ⟨hc hand.1, hand.2⟩

theorem readfunc_of_text (hformat : d.format ≠ .tcpWireFormat) (lines : PerfBuffer) :
    d.readfunc lines = d.readOneLine lines := by
  unfold readfunc
  cases h : d.format with
  | tcpWireFormat => exact absurd h hformat
  | textQuery => rfl
  | textUpdate => rfl

theorem readfunc_text_cases (hformat : d.format ≠ .tcpWireFormat) (hfeeds : Feeds d left)
    (h : d.readfunc lines = some (result, d', lines')) :
    (∃ l, result = .success ∧ NextLine left (d', .ok l)) ∨
      (result = .eof ∧ d.firstLine = some (d', .error .eof) ∧ NextLine left (d', .error .eof)) := by
  rw [readfunc_of_text hformat] at h
  obtain ⟨r, hr, hnext⟩ := firstLine_spec hfeeds
  cases hnext with
  | @line d₁ l _ hfeeds₁ hlater htext hreached =>
      rw [readOneLine_ok lines hr] at h
      split_ifs at h
      cases h
      exact .inl ⟨l, rfl, .line hfeeds₁ hlater htext hreached⟩
  | eof hdone hlater htext hreached hreached' =>
      rw [readOneLine_error lines hr] at h
      cases h
      exact .inr ⟨rfl, hr, .eof hdone hlater htext hreached hreached'⟩

/-- The results of `read_one_blob` at the end of the input, and before. -/
theorem readOneBlob_result (hfeeds : Feeds d left)
    (h : d.readOneBlob lines = some (result, d', lines')) :
    (result = .eof → left = []) ∧ (result = .success → left ≠ []) := by
  unfold readOneBlob at h
  -- the end of the file is reported only where a length prefix would begin
  obtain ⟨d₁, -, ⟨h2, hfill₁, hfeeds₁, -⟩ | ⟨hshort, hfill₁⟩⟩ :=
    fill_of_feeds 2 (by decide) (fun nrem => if nrem = 0 then .eof else .invalidfile) 3 hfeeds
      (by omega) (by omega)
  · have hne : left ≠ [] := List.ne_nil_of_length_pos (by omega)
    refine ⟨fun heof => ?_, fun _ => hne⟩
    subst heof
    simp only [hfill₁, Option.bind_eq_bind, Option.bind_some, ne_eq, not_true_eq_false,
      if_false] at h
    have hlt := ofBe16_lt (d₁.rest.getD 0 0) (d₁.rest.getD 1 0)
    obtain ⟨d₂, -, ⟨-, hfill₂, -, -⟩ | ⟨-, hfill₂⟩⟩ :=
      fill_of_feeds (2 + ofBe16 (d₁.rest.getD 0 0) (d₁.rest.getD 1 0))
        (by simp only [dataSpace]; omega) (fun _ => .invalidfile)
        (ofBe16 (d₁.rest.getD 0 0) (d₁.rest.getD 1 0) + 3) hfeeds₁ (by omega) (by omega)
    · simp only [hfill₂, Option.bind_some, not_true_eq_false, if_false] at h
      obtain ⟨wire, -, h⟩ := Option.bind_eq_some_iff.mp h
      cases h
    · simp only [hfill₂, Option.bind_some, reduceCtorEq, not_false_eq_true, if_true] at h
      cases h
  · simp only [hfill₁, Option.bind_eq_bind, Option.bind_some] at h
    by_cases hnil : left = []
    · subst hnil
      simp only [List.length_nil, if_true, ne_eq, reduceCtorEq, not_false_eq_true] at h
      cases h
      refine ⟨fun _ => rfl, fun hsuccess => ?_⟩
      cases hsuccess
    · have hpos : left.length ≠ 0 := fun h0 => hnil (List.length_eq_zero_iff.mp h0)
      simp only [hpos, if_false, ne_eq, reduceCtorEq, not_false_eq_true, if_true] at h
      cases h
      constructor
      · intro heof
        cases heof
      · intro hsuccess
        cases hsuccess

/-- **What was found at the start is found there again.** -/
theorem readfunc_ne_eof (hfeeds : Feeds d content) (hfruitful : Fruitful content d.cached d.format)
    (h : d.readfunc lines = some (result, d', lines')) : result ≠ .eof := by
  by_cases hformat : d.format = .tcpWireFormat
  · rw [hformat] at hfruitful
    rw [readfunc, hformat] at h
    exact fun heof => hfruitful ((readOneBlob_result hfeeds h).1 heof)
  · rcases readfunc_text_cases hformat hfeeds h with ⟨_, rfl, -⟩ | ⟨-, hfirst, hnext⟩
    · decide
    · have hfound : reachedLines content ≠ [] ∨ d.cached = true ∧ textLines content ≠ [] := by
        cases hd : d.format with
        | tcpWireFormat => exact absurd hd hformat
        | textQuery => rwa [hd] at hfruitful
        | textUpdate => rwa [hd] at hfruitful
      rcases hfound with hreached | ⟨hc, htext⟩
      · cases hnext with
        | eof _ _ _ hnone _ => exact absurd hnone hreached
      · -- the whole file is in the buffer
        have hfit : content.length ≤ dataSpace := by
          rw [← hfeeds.rest_eq_of_cached hc, length_rest]
          exact d.nrem_le
        have hanswers := firstLine_of_feeds hfeeds (.inl hc) hfit
        unfold Answers at hanswers
        rw [hc] at hanswers
        cases hls : linesOf true content with
        | nil => exact absurd hls htext
        | cons l ls =>
            rw [hls] at hanswers
            obtain ⟨d₁, hok, -⟩ := hanswers
            cases hok.symm.trans hfirst

/-! ### One call -/

/-- **Where a reader without a limit is**: nothing has been found yet, in what was read of the first
run, or something is found at the start of the file. -/
structure Unlimited (content : Bytes) (d : PerfDatafile) : Prop where
  maxruns_eq : d.maxruns = 0
  nruns_lt : d.nruns < 2 ^ 32
  within : Within content d
  fresh : d.format ≠ .tcpWireFormat → d.readAny = false → Feeds d content ∨ ∃ left, AtEnd d left
  found : d.readAny = true → Fruitful content d.cached d.format

theorem Unlimited.moves (h : Unlimited content d) (hany : d.readAny = true) (hmoves : Moves d d') :
    Unlimited content d' := by
  obtain ⟨hwithin, hformat, -, hmaxruns, hnruns, hany'⟩ := hmoves.within h.within
  refine ⟨hmaxruns.trans h.maxruns_eq, hnruns.trans_lt h.nruns_lt, hwithin, fun _ hnone => ?_,
    fun _ => ?_⟩
  · rw [hany', hany] at hnone
    cases hnone
  · rw [hformat]
    exact (h.found hany).mono hmoves.cached

theorem Unlimited.endRun (h : Unlimited content d) (hany : d.readAny = true)
    (hend : d.endRun = some d') :
    Unlimited content d' ∧ d'.readAny = true ∧ d'.nruns = (d.nruns + 1) % 2 ^ 32 := by
  obtain ⟨hwithin, hcached, ⟨hformat, -, hmaxruns, hnruns, hany'⟩, -⟩ := h.within.of_endRun hend
  dsimp only at hformat hmaxruns hnruns hany'
  refine ⟨⟨hmaxruns.trans h.maxruns_eq, ?_, hwithin, fun _ hnone => ?_, fun _ => ?_⟩,
    hany'.trans hany, hnruns⟩
  · rw [hnruns]
    exact Nat.mod_lt _ (by decide)
  · rw [hany', hany] at hnone
    cases hnone
  · rw [hformat, hcached]
    exact h.found hany

theorem Unlimited.updateLines (fuel : Nat) {d d' : PerfDatafile} {lines lines' : PerfBuffer}
    (h : Unlimited content d) (hany : d.readAny = true)
    (hlines : updateLines fuel d lines = some (d', lines')) :
    Unlimited content d' ∧ (d'.nruns = d.nruns ∨ d'.nruns = (d.nruns + 1) % 2 ^ 32) := by
  induction fuel generalizing d lines with
  | zero => cases hlines
  | succ fuel ih =>
      obtain ⟨⟨result, d₁, lines₁⟩, hread, hlines⟩ := Option.bind_eq_some_iff.mp hlines
      have hmoves := readfunc_moves hread
      obtain ⟨-, hsame⟩ := hmoves.within h.within
      have hnruns₁ : d₁.nruns = d.nruns := hsame.2.2.2.1
      have hany₁ : d₁.readAny = true := hsame.2.2.2.2.trans hany
      have h₁ := h.moves hany hmoves
      dsimp only at hlines
      by_cases heof : result = .eof
      · rw [if_pos heof] at hlines
        obtain ⟨d₂, hend, hlines⟩ := Option.bind_eq_some_iff.mp hlines
        rw [if_pos (by rw [heof]; decide)] at hlines
        cases hlines
        obtain ⟨h₂, -, hnruns₂⟩ := h₁.endRun hany₁ hend
        exact ⟨h₂, .inr (hnruns₂.trans (by rw [hnruns₁]))⟩
      · rw [if_neg heof] at hlines
        simp only [Option.bind_eq_bind, Option.bind_some] at hlines
        rw [← hnruns₁]
        split_ifs at hlines
        · cases hlines
          exact ⟨h₁, .inl rfl⟩
        · cases hlines
          exact ⟨h₁, .inl rfl⟩
        · exact ih h₁ hany₁ hlines

/-- What is found in the first run shows that something is found at the start. -/
theorem Unlimited.found_of_success (h : Unlimited content d)
    (hread : d.readfunc lines = some (.success, d', lines')) :
    Fruitful content d'.cached d.format := by
  have hmoves := readfunc_moves hread
  by_cases hany : d.readAny = true
  · exact (h.found hany).mono hmoves.cached
  rw [Bool.not_eq_true] at hany
  by_cases hformat : d.format = .tcpWireFormat
  · obtain ⟨before, after, hcontent, hpass⟩ := h.within.place
    have hread' : d.readOneBlob lines = some (.success, d', lines') := by
      rw [← hread, readfunc, hformat]
    have hne := (readOneBlob_result (h.within.feeds hcontent hpass) hread').2 rfl
    rw [hformat]
    rintro rfl
    obtain ⟨hbefore, rfl⟩ := List.append_eq_nil_iff.mp hcontent.symm
    obtain ⟨-, hbuf⟩ := List.append_eq_nil_iff.mp hbefore
    rw [rest, hbuf] at hne
    simp at hne
  · have hfruitful : reachedLines content ≠ [] ∨ d'.cached = true ∧ textLines content ≠ [] := by
      rcases h.fresh hformat hany with hfeeds | ⟨left, hdone⟩
      · rcases readfunc_text_cases hformat hfeeds hread with ⟨l, -, hnext⟩ | ⟨heof, -⟩
        · cases hnext with
          | line _ _ htext hreached =>
              cases hc : d'.cached with
              | true => exact .inr ⟨rfl, by rw [htext]; exact List.cons_ne_nil _ _⟩
              | false =>
                  refine .inl ?_
                  rw [hreached (.inl hc)]
                  exact List.cons_ne_nil _ _
        · cases heof
      · obtain ⟨d₁, hfirst, -⟩ := hdone.firstLine
        rw [readfunc_of_text hformat, readOneLine_error lines hfirst] at hread
        cases hread
    cases hd : d.format with
    | tcpWireFormat => exact absurd hd hformat
    | textQuery => exact hfruitful
    | textUpdate => exact hfruitful

theorem Unlimited.none_found (h : Unlimited content d) (hany : d.readAny = false)
    (hread : d.readfunc lines = some (result, d', lines')) (hne : result ≠ .success) :
    Unlimited content d' := by
  have hmoves := readfunc_moves hread
  obtain ⟨hwithin, hformat, -, hmaxruns, hnruns, hany'⟩ := hmoves.within h.within
  dsimp only at hformat hmaxruns hnruns hany'
  refine ⟨hmaxruns.trans h.maxruns_eq, hnruns.trans_lt h.nruns_lt, hwithin, fun htext _ => .inr ?_,
    fun hsome => ?_⟩
  · rw [hformat] at htext
    rcases h.fresh htext hany with hfeeds | ⟨left, hdone⟩
    · rcases readfunc_text_cases htext hfeeds hread with ⟨_, rfl, -⟩ | ⟨-, -, hnext⟩
      · exact absurd rfl hne
      · cases hnext with
        | eof hdone _ _ _ _ => exact ⟨_, hdone⟩
    · obtain ⟨d₁, hfirst, hdone₁⟩ := hdone.firstLine
      rw [readfunc_of_text htext, readOneLine_error lines hfirst] at hread
      cases hread
      exact ⟨left, hdone₁⟩
  · rw [hany', hany] at hsome
    cases hsome

theorem Unlimited.deliver {result₁ : PerfResult} {d₁ : PerfDatafile} {lines₁ : PerfBuffer}
    (h : Unlimited content d) (hread : d.readfunc lines = some (result₁, d₁, lines₁))
    (hne : result₁ ≠ .eof)
    (hrest : (if result₁ ≠ .success then some (result₁, d₁, lines₁)
      else
        let d := { d₁ with readAny := true }
        if d.format = .textUpdate then do
          let (d, lines) ← PerfDatafile.updateLines (d.source.pending + d.nrem + 1) d lines₁
          some (.success, d, lines)
        else some (.success, d, lines₁)) = some (result, d', lines')) :
    result ≠ .eof ∧ Unlimited content d' := by
  have hmoves := readfunc_moves hread
  obtain ⟨hwithin, hformat, -, hmaxruns, hnruns, -⟩ := hmoves.within h.within
  by_cases hsuccess : result₁ = .success
  · subst hsuccess
    have h₁ : Unlimited content { d₁ with readAny := true } := by
      refine ⟨hmaxruns.trans h.maxruns_eq, hnruns.trans_lt h.nruns_lt, hwithin.readAny true,
        fun _ hnone => ?_, fun _ => ?_⟩
      · cases hnone
      · have hfound := h.found_of_success hread
        rwa [← hformat] at hfound
    rw [if_neg (by simp)] at hrest
    dsimp only at hrest
    split_ifs at hrest
    · obtain ⟨⟨d₂, lines₂⟩, hlines, hrest⟩ := Option.bind_eq_some_iff.mp hrest
      cases hrest
      exact ⟨by decide, (h₁.updateLines _ rfl hlines).1⟩
    · cases hrest
      exact ⟨by decide, h₁⟩
  · rw [if_pos hsuccess] at hrest
    cases hrest
    refine ⟨hne, ?_⟩
    cases hany : d.readAny with
    | true => exact h.moves hany hmoves
    | false => exact h.none_found hany hread hsuccess

/-- A `readfunc` that finds the end of the file had no record left. -/
theorem noneLeft_of_eof (hfeeds : Feeds d left) (h : d.readfunc lines = some (.eof, d', lines')) :
    d.noneLeft = true := by
  by_cases hformat : d.format = .tcpWireFormat
  · rw [readfunc, hformat] at h
    simp only [noneLeft, hformat, hfeeds.unread_eq, (readOneBlob_result hfeeds h).1 rfl,
      List.isEmpty_nil]
  · obtain ⟨_, hok, -⟩ | ⟨-, -, hnext⟩ := readfunc_text_cases hformat hfeeds h
    · cases hok
    have hmoves := readfunc_moves h
    have hnone : (reachedLines left).isEmpty = true ∧
        (d.cached = true → (textLines left).isEmpty = true) := by
      cases hnext with
      | eof hdone _ htext hreached _ =>
          refine ⟨by rw [hreached]; rfl, fun hc => ?_⟩
          rw [htext, hdone.nothing (hmoves.cached hc)]
          rfl
    unfold noneLeft
    rw [hfeeds.unread_eq]
    cases hd : d.format with
    | tcpWireFormat => exact absurd hd hformat
    | textQuery | textUpdate => cases hc : d.cached <;> simp [hnone.1, hnone.2, hc]

/-- **One call** that does not make `nruns` 0 again does not return the end of the file. -/
theorem Unlimited.next (h : Unlimited content d)
    (hcall : d.perfDatafileNext lines = some (result, d', lines')) (hwraps : d.wraps = false) :
    result ≠ .eof ∧ Unlimited content d' := by
  rw [perfDatafileNext, if_neg (by rw [h.maxruns_eq]; omega)] at hcall
  obtain ⟨⟨result₁, d₁, lines₁⟩, hread, hcall⟩ := Option.bind_eq_some_iff.mp hcall
  have hmoves := readfunc_moves hread
  obtain ⟨hwithin₁, -, -, hmaxruns₁, hnruns₁, hany₁⟩ := hmoves.within h.within
  dsimp only at hcall
  by_cases heof : result₁ = .eof
  · subst heof
    cases hany : d₁.readAny with
    | false =>
        rw [if_pos ⟨rfl, by rw [hany]; rfl⟩] at hcall
        cases hcall
        exact ⟨by decide, h.none_found (hany₁.symm.trans hany) hread (by decide)⟩
    | true =>
        rw [if_neg (by rw [hany]; decide), if_pos rfl] at hcall
        have h₁ := h.moves (hany₁.symm.trans hany) hmoves
        obtain ⟨d₂, hend, hcall⟩ := Option.bind_eq_some_iff.mp hcall
        obtain ⟨h₂, hany₂, hnruns₂⟩ := h₁.endRun hany hend
        by_cases hlast : d₂.maxruns ≠ d₂.nruns
        · rw [if_pos hlast] at hcall
          obtain ⟨⟨result₂, d₃, lines₂⟩, hagain, hcall⟩ := Option.bind_eq_some_iff.mp hcall
          have hfeeds : Feeds d₂ content := (hwithin₁.of_endRun hend).2.2.2 (by
            rw [hmaxruns₁, h.maxruns_eq, ← hnruns₂, ← h₂.maxruns_eq]
            exact hlast)
          exact h₂.deliver hagain (readfunc_ne_eof hfeeds (h₂.found hany₂) hagain) hcall
        · -- the counter is 0 again
          rw [not_not, h₂.maxruns_eq] at hlast
          have hlt := h.nruns_lt
          rw [hnruns₁] at hnruns₂
          have hmany : d.nruns = 2 ^ 32 - 1 := by omega
          obtain ⟨before, after, hcontent, hpass⟩ := h.within.place
          have hnone := noneLeft_of_eof (h.within.feeds hcontent hpass) hread
          simp [wraps, hmany, hnone] at hwraps
  · rw [if_neg (fun hand => heof hand.1), if_neg heof] at hcall
    exact h.deliver hread heof hcall

/-! ### All calls -/

/-- **All calls** that do not make `nruns` 0 again. -/
theorem Unlimited.nextAll {buffers : Nat → PerfBuffer} (order : List Nat) {d d' : PerfDatafile}
    {outs : List (PerfResult × Bytes)} (h : Unlimited content d)
    (hall : nextAll buffers d order = some (outs, d'))
    (hwraps : neverWraps buffers d order = true) : ∀ out ∈ outs, out.1 ≠ .eof := by
  induction order generalizing d outs with
  | nil =>
      cases hall
      simp
  | cons thread order ih =>
      obtain ⟨⟨result, d₁, lines⟩, hcall, hall⟩ := Option.bind_eq_some_iff.mp hall
      obtain ⟨⟨outs', d₂⟩, hrest, hall⟩ := Option.bind_eq_some_iff.mp hall
      cases hall
      simp only [neverWraps, hcall, Bool.and_eq_true, Bool.not_eq_true'] at hwraps
      obtain ⟨hne, h₁⟩ := h.next hcall hwraps.1
      exact List.forall_mem_cons.mpr ⟨hne, ih h₁ hrest hwraps.2⟩

theorem unlimited_seekableInput (format : PerfInputFormat) (named hasPipe : Bool)
    {reads : List (Option Bytes)} {seeks : List (List (Option Bytes))}
    (hreads : IsPass content reads) (hseeks : ∀ reads ∈ seeks, IsPass content reads) :
    Unlimited content (seekableInput named hasPipe format 0 content reads seeks) where
  maxruns_eq := rfl
  nruns_lt := Nat.two_pow_pos 32
  within := within_seekableInput hreads hseeks
  fresh _ _ := .inl (feeds_seekableInput hreads)
  found hany := by cases hany

theorem nextAll_append_singleton {buffers : Nat → PerfBuffer} {thread : Nat} (order : List Nat)
    {d d₁ d' : PerfDatafile} {outs : List (PerfResult × Bytes)}
    (hall : PerfDatafile.nextAll buffers d order = some (outs, d₁))
    (hcall : d₁.perfDatafileNext (buffers thread).clear = some (result, d', lines)) :
    PerfDatafile.nextAll buffers d (order ++ [thread]) =
      some (outs ++ [(result, lines.base)], d') := by
  induction order generalizing d outs with
  | nil =>
      cases hall
      exact nextAll_cons hcall rfl
  | cons first order ih =>
      obtain ⟨⟨result₁, d₂, lines₁⟩, hfirst, hall⟩ := Option.bind_eq_some_iff.mp hall
      obtain ⟨⟨outs', d₃⟩, hrest, hall⟩ := Option.bind_eq_some_iff.mp hall
      cases hall
      exact nextAll_cons hfirst (ih hrest)

section Files

variable {format : PerfInputFormat} {records : List Bytes} {reads : List (Option Bytes)}
  {seeks : List (List (Option Bytes))} {buffers : Nat → PerfBuffer}

/-- The calls of `runs` runs deliver the records of the file again and again. -/
theorem nextAll_unlimited {runs : Nat} (hrecords : Records format content records)
    (hne : records ≠ []) (named hasPipe : Bool) (hreads : IsPass content reads)
    (hseeks : ∀ reads ∈ seeks, IsPass content reads) (hmany : runs ≤ seeks.length + 1)
    (hruns : runs ≤ 2 ^ 32)
    (hbuffers : ∀ thread, ∀ r ∈ records, (delivered format r).length ≤ (buffers thread).length)
    (order : List Nat) (horder : order.length ≤ runs * records.length) (hpos : 0 < runs) :
    ∃ d, PerfDatafile.nextAll buffers (seekableInput named hasPipe format 0 content reads seeks)
        order =
      some (((List.replicate runs records).flatten.take order.length).map
          (fun r => (PerfResult.success, delivered format r)), d) ∧
      Owes content records format 0 runs order.length
        ((List.replicate runs records).flatten.drop order.length) d := by
  have hlength : (List.replicate runs records).flatten.length = runs * records.length := by
    simp only [List.length_flatten, List.map_replicate, List.sum_replicate, smul_eq_mul]
  have hstart : Owes content records format 0 runs 0 (List.replicate runs records).flatten
      (seekableInput named hasPipe format 0 content reads seeks) :=
    owes_seekableInput hrecords hne hpos named hasPipe hreads hseeks hmany
  obtain ⟨d, hall, howes⟩ := hstart.nextAll hrecords hne (by decide) hruns hbuffers order
    fun hlt => by omega
  rw [results, hlength, Nat.sub_eq_zero_of_le horder, List.replicate_zero, List.append_nil] at hall
  rw [Nat.zero_add] at howes
  exact ⟨d, hall, howes⟩

/-- **After `2^32` runs** the next call returns the end of the file. -/
theorem nextAll_wraps (hrecords : Records format content records) (hne : records ≠ [])
    (named hasPipe : Bool) (hreads : IsPass content reads)
    (hseeks : ∀ reads ∈ seeks, IsPass content reads) (hmany : 2 ^ 32 ≤ seeks.length + 1)
    (hbuffers : ∀ thread, ∀ r ∈ records, (delivered format r).length ≤ (buffers thread).length)
    (order : List Nat) (horder : order.length = 2 ^ 32 * records.length) (thread : Nat) :
    ∃ d, PerfDatafile.nextAll buffers (seekableInput named hasPipe format 0 content reads seeks)
        (order ++ [thread]) =
      some ((List.replicate (2 ^ 32) records).flatten.map
        (fun r => (PerfResult.success, delivered format r)) ++ [(PerfResult.eof, [])], d) := by
  have hlength : (List.replicate (2 ^ 32) records).flatten.length = order.length := by
    simp only [List.length_flatten, List.map_replicate, List.sum_replicate, smul_eq_mul, horder]
  obtain ⟨d₁, hall, howes⟩ := nextAll_unlimited hrecords hne named hasPipe hreads hseeks
    hmany le_rfl hbuffers order horder.le (by decide)
  rw [← hlength, List.take_length] at hall
  rw [← hlength, List.drop_length] at howes
  obtain ⟨d, hcall, -⟩ := Owes.next_eof (by decide) hne howes (buffers thread).clear
  exact ⟨d, nextAll_append_singleton order hall hcall⟩

end Files

/-- **Reading without a limit.** As long as no call is made at the end of the file with `nruns` at
`2^32 - 1`, none returns the end of the file, whatever the file holds; and the calls of up to `2^32`
runs through the records of a file all succeed. -/
theorem nextAll_ne_eof (format : PerfInputFormat) (content : Bytes) (named hasPipe : Bool)
    (reads : List (Option Bytes)) (hreads : IsPass content reads)
    (seeks : List (List (Option Bytes)))
    (hseeks : ∀ reads ∈ seeks, IsPass content reads) (buffers : Nat → PerfBuffer)
    (order : List Nat) :
    (∀ outs d, nextAll buffers (seekableInput named hasPipe format 0 content reads seeks) order =
        some (outs, d) →
      neverWraps buffers (seekableInput named hasPipe format 0 content reads seeks) order = true →
      ∀ out ∈ outs, out.1 ≠ .eof) ∧
    (∀ records, Records format content records → records ≠ [] →
      (∀ thread, ∀ r ∈ records, (delivered format r).length ≤ (buffers thread).length) →
      ∀ runs, 0 < runs → runs ≤ seeks.length + 1 → runs ≤ 2 ^ 32 →
      order.length ≤ runs * records.length →
      ∃ d, nextAll buffers (seekableInput named hasPipe format 0 content reads seeks) order =
        some (((List.replicate runs records).flatten.take order.length).map
          (fun r => (PerfResult.success, delivered format r)), d)) := by
  constructor
  · intro outs d hall hwraps
    exact (unlimited_seekableInput format named hasPipe hreads hseeks).nextAll order hall hwraps
  · intro records hrecords hne hbuffers runs hpos hmany hruns horder
    obtain ⟨d, hall, -⟩ := nextAll_unlimited hrecords hne named hasPipe hreads hseeks hmany
      hruns hbuffers order horder hpos
    exact ⟨d, hall⟩

/-- A file of two lines, read by two threads for two runs and a half. -/
theorem nextAll_ne_eof_two_lines :
    (∀ outs d, nextAll (fun _ => inputData)
        (seekableInput true false .textQuery 0 (ascii "a A\nb A\n") [some (ascii "a A\nb A\n")]
          [[some (ascii "a A\nb A\n")], [some (ascii "a A\nb A\n")]]) [0, 1, 1, 0, 0] =
        some (outs, d) →
      ∀ out ∈ outs, out.1 ≠ .eof) ∧
    ∃ d, nextAll (fun _ => inputData)
        (seekableInput true false .textQuery 0 (ascii "a A\nb A\n") [some (ascii "a A\nb A\n")]
          [[some (ascii "a A\nb A\n")], [some (ascii "a A\nb A\n")]]) [0, 1, 1, 0, 0] =
        some ([(.success, ascii "a A" ++ [0]), (.success, ascii "b A" ++ [0]),
          (.success, ascii "a A" ++ [0]), (.success, ascii "b A" ++ [0]),
          (.success, ascii "a A" ++ [0])], d) := by
  have hpass : IsPass (ascii "a A\nb A\n") [some (ascii "a A\nb A\n")] :=
    ⟨[ascii "a A\nb A\n"], rfl, by decide, by decide⟩
  have hseeks : ∀ reads ∈ [[some (ascii "a A\nb A\n")], [some (ascii "a A\nb A\n")]],
      IsPass (ascii "a A\nb A\n") reads :=
    List.forall_mem_cons.mpr ⟨hpass, List.forall_mem_singleton.mpr hpass⟩
  have hboth := nextAll_ne_eof .textQuery (ascii "a A\nb A\n") true false _ hpass _ hseeks
    (fun _ => inputData) [0, 1, 1, 0, 0]
  exact ⟨fun outs d hall => hboth.1 outs d hall (by decide +kernel),
    hboth.2 [ascii "a A", ascii "b A"] (Records.lines (by decide) (by decide) (by decide))
    (by decide)
      (fun _ => by decide) 3 (by decide) (by decide) (by decide) (by decide)⟩

/-- A file of one line that is read `2^32` times: the call after that returns the end of the
file. -/
theorem nextAll_eof_one_line :
    ∃ d, nextAll (fun _ => inputData)
        (seekableInput true false .textQuery 0 (ascii "a A\n") [some (ascii "a A\n")]
          (List.replicate (2 ^ 32) [some (ascii "a A\n")])) (List.replicate (2 ^ 32) 0 ++ [0]) =
      some (List.replicate (2 ^ 32) (PerfResult.success, ascii "a A" ++ [0]) ++
        [(PerfResult.eof, [])], d) := by
  have hpass : IsPass (ascii "a A\n") [some (ascii "a A\n")] :=
    ⟨[ascii "a A\n"], rfl, by decide, by decide⟩
  have hrecords : Records .textQuery (ascii "a A\n") [ascii "a A"] :=
    Records.lines (by decide) (by decide) (by decide)
  have hbuffer : ∀ r ∈ [ascii "a A"], (delivered .textQuery r).length ≤
      inputData.length := by decide
  have hseeks : ∀ reads ∈ List.replicate (2 ^ 32) [some (ascii "a A\n")],
      IsPass (ascii "a A\n") reads := by
    intro reads hreads
    rw [List.eq_of_mem_replicate hreads]
    exact hpass
  obtain ⟨d, hall⟩ := nextAll_wraps hrecords (by decide) true false hpass hseeks
    (by rw [List.length_replicate]; exact Nat.le_succ _) (fun _ => hbuffer)
    (List.replicate (2 ^ 32) 0) (by rw [List.length_replicate, List.length_singleton, Nat.mul_one])
    0
  rw [List.flatten_replicate_singleton, List.map_replicate] at hall
  exact ⟨d, hall⟩

end Dnsperf.Datafile.PerfDatafile
