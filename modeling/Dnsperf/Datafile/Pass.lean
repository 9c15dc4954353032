import Dnsperf.Datafile.Blob
import Dnsperf.Datafile.Line

/-!
# Dnsperf.Datafile.Pass

**One pass over a file that can be read again.** `Moves` is what the readers do to the state:
they refill the buffer and go on in it. `Within` says where a reader is in its file and what
further passes will find, and every move keeps it. `Left` says what is still to be delivered in
this pass; a call of `readfunc` delivers the first of it, whether or not the file fits the buffer.
-/

namespace Dnsperf.Datafile.PerfDatafile

open Dnsperf.Lib

variable {d d' : PerfDatafile} {content left : Bytes}

/-! ### Moves -/

/-- Refills, and steps in the buffer. -/
inductive Moves (d : PerfDatafile) : PerfDatafile → Prop
  | refl : Moves d d
  | more {d' : PerfDatafile} : Moves d d' → d'.cached = false → Moves d d'.readMore.2
  | advance {d' : PerfDatafile} (n : Nat) : Moves d d' → Moves d (d'.advance n)

theorem Moves.trans {d'' : PerfDatafile} (h : Moves d d') (h' : Moves d' d'') : Moves d d'' := by
  induction h' with
  | refl => exact h
  | more _ hc ih => exact .more ih hc
  | advance n _ ih => exact .advance n ih

theorem fill_moves {fuel need : Nat} {onEnd : Nat → PerfResult} {r : PerfResult × PerfDatafile}
    (h : fill fuel need onEnd d = some r) : Moves d r.2 := by
  induction fuel generalizing d with
  | zero => exact nomatch h
  | succ fuel ih =>
      rw [fill] at h
      split_ifs at h with hneed hc
      · obtain rfl := Option.some.inj h
        exact .refl
      · have hmore : Moves d d.readMore.2 := .more .refl (Bool.eq_false_iff.mpr hc)
        split at h <;> rename_i heq <;> rw [heq] at hmore
        · exact hmore.trans (ih h)
        · obtain rfl := Option.some.inj h
          exact hmore
        · obtain rfl := Option.some.inj h
          exact hmore
      · obtain rfl := Option.some.inj h
        exact .refl

theorem readOneBlob_moves {wire : PerfBuffer} {r : PerfResult × PerfDatafile × PerfBuffer}
    (h : d.readOneBlob wire = some r) : Moves d r.2.1 := by
  obtain ⟨⟨result₁, d₁⟩, hfill₁, h⟩ := Option.bind_eq_some_iff.mp h
  have hmoves₁ := fill_moves hfill₁
  dsimp only at h
  split_ifs at h
  · obtain rfl := Option.some.inj h
    exact hmoves₁
  · obtain ⟨⟨result₂, d₂⟩, hfill₂, h⟩ := Option.bind_eq_some_iff.mp h
    have hmoves₂ := hmoves₁.trans (fill_moves hfill₂)
    dsimp only at h
    split_ifs at h
    · obtain rfl := Option.some.inj h
      exact hmoves₂
    · obtain ⟨wire', -, h⟩ := Option.bind_eq_some_iff.mp h
      obtain rfl := Option.some.inj h
      exact .advance _ hmoves₂

theorem Moves.past (d : PerfDatafile) (n : Nat) :
    Moves d (if (d.advance n).atPos < (d.advance n).databuf.length
      then (d.advance n).advance 1 else d.advance n) := by
  split
  · exact .advance _ (.advance _ .refl)
  · exact .advance _ .refl

/-- The outcomes of a round of `read_one_line`: it returns without a line, or with the current
one, or goes on. -/
theorem nextLine_cases {fuel : Nat} {r : PerfDatafile × Except PerfResult Bytes}
    (h : nextLine (fuel + 1) d = some r) :
    ∃ d₁, Moves d d₁ ∧ ((∃ result, r = (d₁, .error result)) ∨
      r = (d₁, .ok (d.rest.take (strcspn d.rest [10]))) ∨ nextLine fuel d₁ = some r) := by
  have hfound : ∀ {d₁ : PerfDatafile} {p : Prop} [Decidable p] {line : Bytes}, Moves d d₁ →
      (if p then some (d₁, .ok line) else nextLine fuel d₁) = some r →
      Moves d d₁ ∧ ((∃ result, r = (d₁, .error result)) ∨ r = (d₁, .ok line) ∨
        nextLine fuel d₁ = some r) := by
    intro d₁ p _ line hmoves h
    split_ifs at h
    · exact ⟨hmoves, .inr (.inl (Option.some.inj h).symm)⟩
    · exact ⟨hmoves, .inr (.inr h)⟩
  rw [nextLine] at h
  dsimp only at h
  -- without a newline in the buffer more is read, unless the file is cached
  by_cases hend : strcspn d.rest [10] = d.nrem
  · have hmore : Moves d (if (!d.cached) = true then d.readMore else (.success, d)).2 := by
      split_ifs with hc
      · exact .more .refl (by simpa using hc)
      · exact .refl
    rw [if_pos hend] at h
    generalize (if (!d.cached) = true then d.readMore else (.success, d)) = more at h hmore
    obtain ⟨result, d₁⟩ := more
    dsimp only at h hmore
    by_cases hresult : result ≠ .success
    · rw [if_pos hresult] at h
      exact ⟨d₁, hmore, .inl ⟨result, (Option.some.inj h).symm⟩⟩
    rw [if_neg hresult] at h
    by_cases hempty : d₁.nrem = 0
    · rw [if_pos hempty] at h
      exact ⟨d₁, hmore, .inl ⟨.eof, (Option.some.inj h).symm⟩⟩
    rw [if_neg hempty] at h
    by_cases hgrow : d.nrem < d₁.nrem
    · rw [if_pos hgrow] at h
      exact ⟨d₁, hmore, .inr (.inr h)⟩
    · rw [if_neg hgrow] at h
      exact ⟨_, hfound (hmore.trans (.past d₁ _)) h⟩
  · rw [if_neg hend] at h
    exact ⟨_, hfound (.past d _) h⟩

theorem nextLine_moves {fuel : Nat} {r : PerfDatafile × Except PerfResult Bytes}
    (h : nextLine fuel d = some r) : Moves d r.1 := by
  induction fuel generalizing d with
  | zero => exact nomatch h
  | succ fuel ih =>
      obtain ⟨d₁, hmoves, ⟨_, rfl⟩ | rfl | h⟩ := nextLine_cases h
      · exact hmoves
      · exact hmoves
      · exact hmoves.trans (ih h)

theorem zero_notMem_of_nextLine {fuel : Nat} {d' : PerfDatafile} {l : Bytes}
    (h : nextLine fuel d = some (d', .ok l)) : (0 : UInt8) ∉ l := by
  induction fuel generalizing d with
  | zero => exact nomatch h
  | succ fuel ih =>
      obtain ⟨d₁, -, ⟨_, heq⟩ | heq | h⟩ := nextLine_cases h
      · cases heq
      · cases heq
        intro hmem
        rw [strcspn, ← List.prefix_iff_eq_take.mp (List.takeWhile_prefix _)] at hmem
        simpa using List.mem_takeWhile_imp hmem
      · exact ih h

theorem readfunc_moves {lines : PerfBuffer} {r : PerfResult × PerfDatafile × PerfBuffer}
    (h : d.readfunc lines = some r) : Moves d r.2.1 := by
  have hline : d.readOneLine lines = some r → Moves d r.2.1 := by
    intro h
    obtain ⟨⟨d₁, found⟩, hnext, h⟩ := Option.bind_eq_some_iff.mp h
    have hmoves := nextLine_moves hnext
    cases found with
    | error result =>
        obtain rfl := Option.some.inj h
        exact hmoves
    | ok cur =>
        obtain ⟨lines₁, -, h⟩ := Option.bind_eq_some_iff.mp h
        obtain ⟨lines₂, -, h⟩ := Option.bind_eq_some_iff.mp h
        obtain rfl := Option.some.inj h
        exact hmoves
  unfold readfunc at h
  split at h
  · exact hline h
  · exact hline h
  · exact readOneBlob_moves h

/-! ### Where the reader is in its file -/

/-- What the `read`s up to the end of the file deliver: all of it, in non-empty pieces. -/
def IsPass (content : Bytes) (reads : List (Option Bytes)) : Prop :=
  ∃ chunks : List Bytes, reads = chunks.map some ∧ (∀ c ∈ chunks, c ≠ []) ∧ chunks.flatten = content

/-- The reader is in a file with this content, and that is also what it finds when it goes back to
the start. -/
structure Within (content : Bytes) (d : PerfDatafile) : Prop where
  place : ∃ before after, content = before ++ d.databuf ++ after ∧ IsPass after d.source.reads
  cached : d.cached = true → d.databuf = content
  size : d.isFile = true → d.size = content.length
  waits : ∀ w ∈ d.source.waits, w = .success
  seeks : ∀ reads ∈ d.source.seeks, IsPass content reads

theorem Within.advance (h : Within content d) (n : Nat) : Within content (d.advance n) :=
  ⟨h.place, h.cached, h.size, h.waits, h.seeks⟩

theorem Within.readAny (h : Within content d) (any : Bool) :
    Within content { d with readAny := any } :=
  ⟨h.place, h.cached, h.size, h.waits, h.seeks⟩

theorem Within.front (h : Within content d) (hc : d.cached = false) {source : Source}
    (hreads : source.reads = d.source.reads) (hseeks : source.seeks = d.source.seeks)
    (hwaits : ∀ w ∈ source.waits, w = .success) : Within content (d.front source) := by
  obtain ⟨before, after, hcontent, hpass⟩ := h.place
  refine ⟨⟨before ++ d.databuf.take d.atPos, after, ?_, hreads ▸ hpass⟩, fun hc' => ?_,
    h.size, hwaits, hseeks ▸ h.seeks⟩
  · rw [hcontent]
    conv_lhs => rw [← List.take_append_drop d.atPos d.databuf]
    simp only [List.append_assoc, PerfDatafile.front, rest]
  · exact absurd (hc.symm.trans hc') Bool.false_ne_true

/-- Bytes arrive. A file whose size is reached is in the buffer as a whole. -/
theorem Within.refilled (h : Within content d) (hc : d.cached = false) {source : Source}
    {bytes : Bytes} {chunks chunks' : List Bytes} (hlen : bytes.length ≤ dataSpace - d.nrem)
    (hreads : d.source.reads = chunks.map some) (hflat : chunks.flatten = bytes ++ chunks'.flatten)
    (hreads' : source.reads = chunks'.map some) (hne : ∀ c ∈ chunks', c ≠ [])
    (hseeks : source.seeks = d.source.seeks) (hwaits : ∀ w ∈ source.waits, w = .success) :
    Within content (d.refilled source bytes) := by
  obtain ⟨before, after, hcontent, chunks₀, hreads₀, -, hflat₀⟩ := h.place
  obtain rfl : chunks = chunks₀ :=
    List.map_injective_iff.mpr (Option.some_injective _) (hreads.symm.trans hreads₀)
  have hcontent' : content = (before ++ d.databuf.take d.atPos) ++
      (d.refilled source bytes).databuf ++ chunks'.flatten := by
    rw [refilled_databuf hlen, hcontent, ← hflat₀, hflat, rest]
    conv_lhs => rw [← List.take_append_drop d.atPos d.databuf]
    simp only [List.append_assoc]
  refine ⟨⟨_, chunks'.flatten, hcontent', chunks', hreads', hne, rfl⟩, fun hc' => ?_,
    h.size, hwaits, hseeks ▸ h.seeks⟩
  · obtain ⟨hfile, hhave⟩ :
        d.isFile = true ∧ (d.refilled source bytes).databuf.length = d.size := by
      simpa [PerfDatafile.refilled, append, PerfDatafile.front, hc] using hc'
    have hlen' := congrArg List.length hcontent'
    rw [h.size hfile] at hhave
    rw [List.length_append, List.length_append, hhave] at hlen'
    have hpre : before ++ d.databuf.take d.atPos = [] := List.length_eq_zero_iff.mp (by omega)
    have hpost : chunks'.flatten = [] := List.length_eq_zero_iff.mp (by omega)
    rw [hpre, hpost, List.nil_append, List.append_nil] at hcontent'
    exact hcontent'.symm

theorem Within.readMore (h : Within content d) (hc : d.cached = false) :
    Within content d.readMore.2 := by
  obtain ⟨-, -, -, chunks, hreads, hne, -⟩ := h.place
  obtain ⟨waits, hwaits, hwait⟩ := waitReadable_of_success h.waits
  cases chunks with
  | nil =>
      rw [readMore_eq hwait (read_nil (by simpa using hreads) _)]
      exact h.front hc rfl rfl hwaits
  | cons chunk chunks =>
      rcases Nat.eq_zero_or_pos (dataSpace - d.nrem) with hfull | hspace
      · have hread : { d.source with waits := waits }.read (dataSpace - d.nrem) =
            (some [], { d.source with waits := waits, spaces := d.source.spaces ++ [0] }) := by
          rw [hfull]
          exact read_zero hreads hne
        rw [readMore_eq hwait hread]
        exact h.front hc rfl rfl hwaits
      · obtain ⟨bytes, chunks', hbytes, hlen, hne', hflat, hread⟩ :=
          read_pieces (s := { d.source with waits := waits }) hreads hne hspace
        obtain ⟨b, bytes, rfl⟩ := List.exists_cons_of_ne_nil hbytes
        rw [readMore_eq hwait hread]
        exact h.refilled hc hlen hreads hflat rfl hne' rfl hwaits

theorem readMore_seeks (d : PerfDatafile) : d.readMore.2.source.seeks = d.source.seeks := by
  have hread : ∀ (s : Source) (space : Nat), (s.read space).2.seeks = s.seeks := by
    intro s space
    unfold Source.read
    dsimp only
    split <;> try split
    all_goals rfl
  have hafter : ∀ (d : PerfDatafile) (n : Option Bytes), (d.afterRead n).2.source = d.source := by
    intro d n
    unfold afterRead
    split <;> rfl
  have hwait : d.waitReadable.2.source.seeks = d.source.seeks := by
    unfold waitReadable
    split
    · split <;> rfl
    · rfl
  unfold PerfDatafile.readMore
  generalize d.waitReadable = wait at hwait
  obtain ⟨result, d₁⟩ := wait
  dsimp only
  split
  · exact hwait
  · rw [hafter]
    exact (hread _ _).trans (by rw [compact_eq]; exact hwait)

theorem readMore_sameRun (h : ∀ w ∈ d.source.waits, w = .success) : SameRun d d.readMore.2 := by
  obtain ⟨waits, -, hwait⟩ := waitReadable_of_success h
  obtain ⟨n, source, hread⟩ : ∃ n source,
      { d.source with waits := waits }.read (dataSpace - d.nrem) = (n, source) := ⟨_, _, rfl⟩
  rw [readMore_eq hwait hread]
  match n with
  | none => exact ⟨rfl, rfl, rfl, rfl, rfl⟩
  | some [] => exact ⟨rfl, rfl, rfl, rfl, rfl⟩
  | some (b :: bytes) => exact ⟨rfl, rfl, rfl, rfl, rfl⟩

/-- **Every move stays within the file**, and in the same pass. -/
theorem Moves.within (h : Moves d d') (hd : Within content d) :
    Within content d' ∧ SameRun d d' := by
  induction h with
  | refl => exact ⟨hd, SameRun.refl d⟩
  | more _ hc ih => exact ⟨ih.1.readMore hc, ih.2.trans (readMore_sameRun ih.1.waits)⟩
  | advance n _ ih => exact ⟨ih.1.advance n, ih.2.trans (sameRun_advance _ n)⟩

/-- The file is in the buffer, or so many calls of `lseek` can still be made. -/
def Rereads (k : Nat) (d : PerfDatafile) : Prop := d.cached = true ∨ k ≤ d.source.seeks.length

theorem Moves.rereads {k : Nat} (h : Moves d d') (hd : Rereads k d) : Rereads k d' := by
  induction h with
  | refl => exact hd
  | more _ hc ih =>
      refine .inr ?_
      rw [readMore_seeks]
      exact ih.resolve_left (by simp [hc])
  | advance n _ ih => exact ih

theorem Moves.cached (h : Moves d d') (hc : d.cached = true) : d'.cached = true := by
  induction h with
  | refl => exact hc
  | more _ hc' ih => exact absurd (hc'.symm.trans ih) Bool.false_ne_true
  | advance n _ ih => exact ih

theorem Within.feeds (h : Within content d) {before after : Bytes}
    (hcontent : content = before ++ d.databuf ++ after) (hpass : IsPass after d.source.reads) :
    Feeds d (d.rest ++ after) := by
  obtain ⟨chunks, hreads, hne, rfl⟩ := hpass
  have hlen := congrArg List.length hcontent
  simp only [List.length_append] at hlen
  refine ⟨⟨chunks, hreads, hne, rfl, fun hc => ?_, fun hfile => ?_⟩, h.waits⟩
  · have hnil : chunks.flatten = [] := by
      rw [h.cached hc] at hlen
      exact List.length_eq_zero_iff.mp (by omega)
    refine List.eq_nil_iff_forall_not_mem.mpr fun c hmem => ?_
    exact hne c hmem (List.flatten_eq_nil_iff.mp hnil c hmem)
  · rw [h.size hfile]
    omega

/-- **Another pass.** The end of a pass that is not the last one leads back to the start of
the file, in the buffer or by `lseek`. -/
theorem Within.reopen (h : Within content d) (hne : d.maxruns ≠ (d.nruns + 1) % 2 ^ 32)
    (hseek : d.cached = true ∨ d.source.seeks ≠ []) :
    ∃ d', d.endRun = some d' ∧ Within content d' ∧ Feeds d' content ∧
      SameRun { d with nruns := (d.nruns + 1) % 2 ^ 32 } d' ∧
      ∀ k, Rereads (k + 1) d → Rereads k d' := by
  -- a cached file starts over at the front of the buffer, any other is read again
  by_cases hc : d.cached = true
  · obtain ⟨before, after, hcontent, hpass⟩ := h.place
    have hd : Within content
        { d with nruns := (d.nruns + 1) % 2 ^ 32, atPos := 0, atPos_le := Nat.zero_le _ } :=
      ⟨h.place, h.cached, h.size, h.waits, h.seeks⟩
    refine ⟨_, ?_, hd, ?_, ⟨rfl, rfl, rfl, rfl, rfl⟩, fun _ _ => .inl hc⟩
    · simp only [PerfDatafile.endRun, reopenFile, ne_eq, hne, not_false_eq_true, if_true, hc]
    · have hfeeds := hd.feeds hcontent hpass
      have hafter : after = [] := by
        have hlen := congrArg List.length hcontent
        rw [List.length_append, List.length_append, h.cached hc] at hlen
        exact List.length_eq_zero_iff.mp (by omega)
      rw [hafter, List.append_nil] at hfeeds
      exact h.cached hc ▸ hfeeds
  · cases hseeks : d.source.seeks with
    | nil => exact absurd hseeks (hseek.resolve_left hc)
    | cons reads seeks =>
        have hpass : IsPass content reads := h.seeks reads (by simp [hseeks])
        have hd : Within content
            { d with
              nruns := (d.nruns + 1) % 2 ^ 32
              atPos := 0
              databuf := []
              source := { d.source with reads := reads, seeks := seeks }
              atPos_le := Nat.le_refl _
              have_le := Nat.zero_le _ } := by
          refine ⟨⟨[], content, rfl, hpass⟩, fun hc' => absurd hc' hc, h.size, h.waits,
            fun reads' hmem => h.seeks reads' ?_⟩
          rw [hseeks]
          exact List.mem_cons_of_mem _ hmem
        refine ⟨_, ?_, hd, hd.feeds (show content = [] ++ [] ++ content from rfl) hpass,
          ⟨rfl, rfl, rfl, rfl, rfl⟩, fun k hk => .inr ?_⟩
        · simp only [PerfDatafile.endRun, reopenFile, ne_eq, hne, not_false_eq_true, if_true, hc,
            hseeks, Bool.false_eq_true, if_false]
        · have hk' := hk.resolve_left hc
          rw [hseeks, List.length_cons] at hk'
          exact Nat.le_of_succ_le_succ hk'

theorem Within.of_endRun (h : Within content d) (hend : d.endRun = some d') :
    Within content d' ∧ d'.cached = d.cached ∧
      SameRun { d with nruns := (d.nruns + 1) % 2 ^ 32 } d' ∧
      (d.maxruns ≠ (d.nruns + 1) % 2 ^ 32 → Feeds d' content) := by
  unfold PerfDatafile.endRun at hend
  dsimp only at hend
  split_ifs at hend with hne
  · have hcached : d'.cached = d.cached := by
      unfold reopenFile at hend
      split at hend
      · rw [← Option.some.inj hend]
      · split at hend
        · cases hend
        · rw [← Option.some.inj hend]
    have hseek : d.cached = true ∨ d.source.seeks ≠ [] := by
      by_contra hno
      rw [not_or, not_not] at hno
      simp [reopenFile, hno.1, hno.2] at hend
    obtain ⟨d'', hend', hwithin, hfeeds, hsame, -⟩ := h.reopen hne hseek
    have heq : d.endRun = some d' := by
      rw [PerfDatafile.endRun]
      exact (if_pos hne).trans hend
    obtain rfl := Option.some.inj (hend'.symm.trans heq)
    exact ⟨hwithin, hcached, hsame, fun _ => hfeeds⟩
  · rw [← Option.some.inj hend]
    exact ⟨⟨h.place, h.cached, h.size, h.waits, h.seeks⟩, rfl, .refl _, fun hne' => absurd hne' hne⟩

theorem Within.endRun {k : Nat} (h : Within content d) (hne : d.maxruns ≠ (d.nruns + 1) % 2 ^ 32)
    (hrereads : Rereads (k + 1) d) :
    ∃ d', d.endRun = some d' ∧ Within content d' ∧ Feeds d' content ∧
      SameRun { d with nruns := (d.nruns + 1) % 2 ^ 32 } d' ∧ Rereads k d' := by
  have hseek : d.cached = true ∨ d.source.seeks ≠ [] := by
    refine hrereads.imp id fun hle hnil => ?_
    rw [hnil, List.length_nil] at hle
    omega
  obtain ⟨d', hend, hwithin, hfeeds, hsame, hless⟩ := h.reopen hne hseek
  exact ⟨d', hend, hwithin, hfeeds, hsame, hless k hrereads⟩

/-! ### Text of any length -/

/-- The lines a pass gets to. A line that does not fit the buffer with its end is taken for the
end of the file, and so are all lines after it. -/
def reachedLines (content : Bytes) : List Bytes :=
  ((segments isEol content).1.takeWhile (fun l => l.length < dataSpace)).filter deliverable

theorem reachedLines_append_cons {l : Bytes} (hl : ∀ a ∈ l, isEol a = false) {t : UInt8}
    (ht : isEol t = true) (hlen : l.length < dataSpace) (s : Bytes) :
    reachedLines (l ++ t :: s) = if deliverable l then l :: reachedLines s else reachedLines s := by
  rw [reachedLines, segments_append_cons hl ht, List.takeWhile_cons_of_pos (by simpa using hlen),
    List.filter_cons]
  rfl

theorem reachedLines_of_forall (h : ∀ a ∈ content, isEol a = false) :
    reachedLines content = [] := by
  rw [reachedLines, segments_of_forall h]
  rfl

theorem reachedLines_of_full {p : Bytes} (hp : ∀ a ∈ p, isEol a = false)
    (hfull : dataSpace ≤ p.length) (s : Bytes) : reachedLines (p ++ s) = [] := by
  rcases segments_cases isEol s with hopen | ⟨l, t, r, rfl, hl, ht⟩
  · exact reachedLines_of_forall fun a ha => (List.mem_append.mp ha).elim (hp a) (hopen a)
  · have hline : ∀ a ∈ p ++ l, isEol a = false := fun a ha =>
      (List.mem_append.mp ha).elim (hp a) (hl a)
    have hlong : ¬ (p ++ l).length < dataSpace := by
      rw [List.length_append]
      omega
    rw [reachedLines, ← List.append_assoc, segments_append_cons hline ht,
      List.takeWhile_cons_of_neg (by simpa using hlong)]
    rfl

/-- `content'` is what is left of `content` after some of its lines. -/
structure Later (content content' : Bytes) : Prop where
  ended : (segments isEol content).2 = [] → (segments isEol content').2 = []
  lines : (segments isEol content').1 ⊆ (segments isEol content).1

theorem Later.refl (content : Bytes) : Later content content := ⟨id, List.Subset.refl _⟩

theorem Later.nil (content : Bytes) : Later content [] := ⟨fun _ => rfl, List.nil_subset _⟩

theorem Later.trans {content' content'' : Bytes} (h : Later content content')
    (h' : Later content' content'') : Later content content'' :=
  ⟨h'.ended ∘ h.ended, List.Subset.trans h'.lines h.lines⟩

theorem Later.tail {l r : Bytes} {t : UInt8} (hl : ∀ a ∈ l, isEol a = false) (ht : isEol t = true) :
    Later (l ++ t :: r) r := by
  constructor <;> rw [segments_append_cons hl ht]
  · exact id
  · exact List.subset_cons_self ..

/-- The reader has found the end of the file and will find it again. Nothing is left of a cached
file; of another one, at most the beginning of a line, and nothing follows or there is no room for
it. -/
structure AtEnd (d : PerfDatafile) (left : Bytes) : Prop where
  feeds : Feeds d left
  line_open : ∀ a ∈ d.rest, isEol a = false
  nothing : d.cached = true → left = []
  stuck : d.cached = false → d.rest = left ∨ d.nrem = dataSpace

theorem readMore_of_stuck (hfeeds : Feeds d left) (hc : d.cached = false)
    (hopen : ∀ a ∈ d.rest, isEol a = false) (hstuck : d.rest = left ∨ d.nrem = dataSpace) :
    ∃ d', d.readMore = (.eof, d') ∧ AtEnd d' left := by
  obtain ⟨chunks, hreads, hne, hleft, -, -⟩ := hfeeds.pieces
  obtain ⟨waits, hwaits, hwait⟩ := waitReadable_of_success hfeeds.waits
  have hread : { d.source with waits := waits }.read (dataSpace - d.nrem) = (some [],
      { d.source with waits := waits, spaces := d.source.spaces ++ [dataSpace - d.nrem] }) := by
    rcases hstuck with hall | hfull
    · have hnil : chunks.flatten = [] := by simpa [hall] using hleft
      have hnone : chunks = [] := List.eq_nil_iff_forall_not_mem.mpr fun c hmem =>
        hne c hmem (List.flatten_eq_nil_iff.mp hnil c hmem)
      exact read_nil (by simp [hreads, hnone]) _
    · rw [hfull, Nat.sub_self]
      exact read_zero hreads hne
  refine ⟨_, readMore_eq hwait hread, hfeeds.front hc _ rfl hwaits, hopen, fun hc' => ?_,
    fun _ => ?_⟩
  · exact absurd (hc.symm.trans hc') Bool.false_ne_true
  · exact hstuck.imp id fun hfull => by rw [← length_rest] at hfull ⊢; exact hfull

theorem AtEnd.nextLine (h : AtEnd d left) (fuel : Nat) :
    ∃ d', nextLine (fuel + 1) d = some (d', .error .eof) ∧ AtEnd d' left := by
  cases hc : d.cached with
  | true =>
      have hrest := h.feeds.rest_eq_of_cached hc
      rw [h.nothing hc] at hrest
      rw [nextLine_cached hc h.line_open, if_pos (by rw [← length_rest, hrest]; rfl)]
      exact ⟨d, rfl, h⟩
  | false =>
      obtain ⟨d', hmore, hend⟩ := readMore_of_stuck h.feeds hc h.line_open (h.stuck hc)
      exact ⟨d', nextLine_eof hc h.line_open hmore, hend⟩

/-- What `read_one_line` finds in a text: its first line, or the end of the file if it gets to
no line. Only a cached file may end with a line that has no end. -/
inductive NextLine (content : Bytes) : PerfDatafile × Except PerfResult Bytes → Prop
  | line {d' : PerfDatafile} {l content' : Bytes} : Feeds d' content' → Later content content' →
      textLines content = l :: textLines content' →
      (d'.cached = false ∨ (segments isEol content).2 = [] →
        reachedLines content = l :: reachedLines content') →
      NextLine content (d', .ok l)
  | eof {d' : PerfDatafile} {content' : Bytes} : AtEnd d' content' → Later content content' →
      textLines content = textLines content' → reachedLines content = [] →
      reachedLines content' = [] → NextLine content (d', .error .eof)

theorem NextLine.skip {content' : Bytes} {r : PerfDatafile × Except PerfResult Bytes}
    (h : NextLine content' r) (hlater : Later content content')
    (htext : textLines content = textLines content')
    (hreached : reachedLines content = reachedLines content') : NextLine content r := by
  cases h with
  | line hfeeds hlater' hline hnext =>
      exact .line hfeeds (hlater.trans hlater') (htext.trans hline) fun hended =>
        hreached.trans (hnext (hended.imp_right hlater.ended))
  | eof hend hlater' hsame hdone hdone' =>
      exact .eof hend (hlater.trans hlater') (htext.trans hsame) (hreached.trans hdone) hdone'

theorem nextLine_last {fuel : Nat} (ih : ∀ {d : PerfDatafile}, Feeds d [] → d.nrem < fuel →
      ∃ r, nextLine fuel d = some r ∧ NextLine [] r)
    (hfeeds : Feeds d content) (hc : d.cached = true) (hopen : ∀ a ∈ content, isEol a = false)
    (hfuel : d.nrem < fuel + 1) : ∃ r, nextLine (fuel + 1) d = some r ∧ NextLine content r := by
  have hall := hfeeds.rest_eq_of_cached hc
  have hreached := reachedLines_of_forall hopen
  have htext : textLines content = if deliverable content then [content] else [] := by
    rw [textLines, linesOf_of_forall hopen, Bool.true_and]
  have hfeeds' : Feeds (d.advance d.nrem) [] := by
    rw [← length_rest]
    exact Feeds.advance (by rw [List.append_nil, hall]; exact hfeeds) (by simp)
  rw [nextLine_cached hc (hall ▸ hopen)]
  by_cases h0 : d.nrem = 0
  · rw [if_pos h0]
    have hnil : content = [] := by
      rw [← hall]
      exact List.length_eq_zero_iff.mp (by rw [length_rest, h0])
    refine ⟨_, rfl, .eof ⟨hfeeds, hall ▸ hopen, fun _ => hnil, fun hc' => ?_⟩ (.refl _) rfl hreached
      hreached⟩
    exact absurd (hc'.symm.trans hc) Bool.false_ne_true
  rw [if_neg h0, hall]
  by_cases hdel : deliverable content = true
  · rw [if_pos hdel] at htext ⊢
    refine ⟨_, rfl, .line hfeeds' (.nil _) htext fun hended => ?_⟩
    rcases hended with hc' | hended
    · exact absurd (hc'.symm.trans hc) Bool.false_ne_true
    · rw [segments_of_forall hopen] at hended
      subst hended
      cases hdel
  · rw [if_neg hdel] at htext ⊢
    obtain ⟨r, hr, hnext⟩ := ih hfeeds' (by rw [nrem_advance]; omega)
    exact ⟨r, hr, hnext.skip (.nil _) htext hreached⟩

/-- **One line**, of a text of any length. -/
theorem nextLine_spec (fuel : Nat) {d : PerfDatafile} {content : Bytes} (hfeeds : Feeds d content)
    (hfuel : 2 * (content.length - d.nrem) + d.nrem < fuel) :
    ∃ r, nextLine fuel d = some r ∧ NextLine content r := by
  induction fuel generalizing d content with
  | zero => exact absurd hfuel (Nat.not_lt_zero _)
  | succ fuel ih =>
      have hle := hfeeds.rest_le
      rcases segments_cases isEol d.rest with hopen | ⟨l, t, r, hrest, hl, ht⟩
      · by_cases hc : d.cached = true
        · refine nextLine_last (fun hfeeds' hfuel' => ih hfeeds' ?_) hfeeds hc
            (hfeeds.rest_eq_of_cached hc ▸ hopen) (by omega)
          rw [List.length_nil]
          omega
        · rw [Bool.not_eq_true] at hc
          by_cases hstuck : d.rest = content ∨ d.nrem = dataSpace
          · obtain ⟨d', hmore, hend⟩ := readMore_of_stuck hfeeds hc hopen hstuck
            have hreached : reachedLines content = [] := by
              rcases hstuck with hall | hfull
              · exact reachedLines_of_forall (hall ▸ hopen)
              · -- no room: the end of the line will never be seen
                obtain ⟨chunks, -, -, rfl, -, -⟩ := hfeeds.pieces
                exact reachedLines_of_full hopen (by rw [length_rest, hfull]) _
            exact ⟨_, nextLine_eof hc hopen hmore, .eof hend (.refl _) rfl hreached hreached⟩
          · rw [not_or] at hstuck
            obtain ⟨d', hfeeds', -, -, -, ⟨-, hall, -⟩ | ⟨hmore, hgrow⟩⟩ :=
              readMore_of_feeds hfeeds hc (Or.inl (Nat.lt_of_le_of_ne d.nrem_le hstuck.2))
            · exact absurd hall hstuck.1
            · have hle' := hfeeds'.rest_le
              rw [nextLine_more hc hopen hmore hgrow]
              exact ih hfeeds' (by omega)
      · obtain ⟨content', rfl, hfeeds', hnrem⟩ := hfeeds.line hrest
        have hlen : l.length < dataSpace := Nat.lt_of_lt_of_le hnrem d.nrem_le
        have htext := linesOf_append_cons hl ht true content'
        have hreached := reachedLines_append_cons hl ht hlen content'
        rw [List.length_append, List.length_cons] at hle hfuel
        rw [nextLine_terminated hrest hl ht]
        by_cases hdel : deliverable l = true
        · rw [if_pos hdel] at htext hreached ⊢
          exact ⟨_, rfl, .line hfeeds' (.tail hl ht) htext fun _ => hreached⟩
        · rw [if_neg hdel] at htext hreached ⊢
          obtain ⟨r, hr, hnext⟩ := ih hfeeds' (by rw [nrem_advance]; omega)
          exact ⟨r, hr, hnext.skip (.tail hl ht) htext hreached⟩

theorem AtEnd.firstLine (h : AtEnd d left) :
    ∃ d', d.firstLine = some (d', .error .eof) ∧ AtEnd d' left :=
  h.nextLine _

theorem firstLine_spec (hfeeds : Feeds d content) :
    ∃ r, d.firstLine = some r ∧ NextLine content r :=
  nextLine_spec _ hfeeds (by rw [hfeeds.pending_eq]; omega)

/-- Every line has its end, and fits the buffer with it. -/
structure LinesFit (content : Bytes) : Prop where
  ended : (segments isEol content).2 = []
  fits : ∀ l ∈ (segments isEol content).1, l.length < dataSpace

theorem LinesFit.later {content' : Bytes} (h : LinesFit content) (hlater : Later content content') :
    LinesFit content' :=
  ⟨hlater.ended h.ended, fun l hl => h.fits l (hlater.lines hl)⟩

theorem LinesFit.reachedLines_eq (h : LinesFit content) :
    reachedLines content = linesOf false content := by
  have htake : (segments isEol content).1.takeWhile (fun l => l.length < dataSpace) =
      (segments isEol content).1 := by
    rw [List.takeWhile_eq_self_iff]
    intro l hl
    exact decide_eq_true (h.fits l hl)
  simp only [reachedLines, htake, linesOf, Bool.false_eq_true, if_false, List.append_nil]

/-- `out` is the first of the lines of `content`, or the end of the file if there is none. -/
def FirstLine (out : Option (PerfDatafile × Except PerfResult Bytes)) (content : Bytes) : Prop :=
  match linesOf false content with
  | [] => ∃ d', out = some (d', .error .eof)
  | l :: ls => ∃ d' content', out = some (d', .ok l) ∧ Feeds d' content' ∧ LinesFit content' ∧
      linesOf false content' = ls

theorem firstLine_of_linesFit (hfeeds : Feeds d content) (hfit : LinesFit content) :
    FirstLine d.firstLine content := by
  obtain ⟨r, hr, hnext⟩ := firstLine_spec hfeeds
  rw [hr, FirstLine, ← hfit.reachedLines_eq]
  cases hnext with
  | @line d' l content' hfeeds' hlater _ hreached =>
      have hfit' := hfit.later hlater
      rw [hreached (.inr hfit.ended)]
      exact ⟨d', content', rfl, hfeeds', hfit', hfit'.reachedLines_eq.symm⟩
  | @eof d' _ _ _ _ hdone _ =>
      rw [hdone]
      exact ⟨d', rfl⟩

/-! ### What is left of a pass -/

/-- The records that are still to be delivered when `left` is what is left of the file. -/
def Left : PerfInputFormat → Bytes → List Bytes → Prop
  | .textQuery, left, rs => LinesFit left ∧ linesOf false left = rs
  | .tcpWireFormat, left, rs => left = frames rs ∧ ∀ p ∈ rs, p.length ≤ maxPayload
  | .textUpdate, _, _ => False

/-- A record as it is put into the buffer: a line gets a NUL. -/
def delivered : PerfInputFormat → Bytes → Bytes
  | .tcpWireFormat, r => r
  | _, r => r ++ [0]

/-- `readfunc` delivers the first of the records, or finds the end of the file. -/
def Delivers (d : PerfDatafile) (lines : PerfBuffer) : List Bytes → Prop
  | [] => ∃ d', d.readfunc lines = some (.eof, d', lines)
  | r :: rs => ∃ d' left',
      d.readfunc lines = some (.success, d', lines.push (delivered d.format r)) ∧
      Feeds d' left' ∧ Left d.format left' rs

/-- **One call of `readfunc`** delivers the first record that is left. -/
theorem readfunc_of_left {rs : List Bytes} (hfeeds : Feeds d left) (hleft : Left d.format left rs)
    {lines : PerfBuffer} (hlines : ∀ r ∈ rs, lines.Fits (delivered d.format r).length) :
    d.Delivers lines rs := by
  cases hformat : d.format with
  | textQuery =>
      rw [hformat] at hleft hlines
      obtain ⟨hfit, rfl⟩ := hleft
      have hfirst := firstLine_of_linesFit hfeeds hfit
      unfold FirstLine at hfirst
      cases hls : linesOf false left with
      | nil =>
          rw [hls] at hfirst
          obtain ⟨d', hout⟩ := hfirst
          exact ⟨d', readfunc_eof hformat hout⟩
      | cons l ls =>
          rw [hls] at hfirst hlines
          obtain ⟨d', left', hout, hfeeds', hfit', hls'⟩ := hfirst
          have hfits : lines.Fits (l.length + 1) := by
            simpa [delivered] using hlines l (List.mem_cons_self ..)
          refine ⟨d', left', ?_, hfeeds', ?_⟩
          · rw [readfunc_ok hformat hfits hout, hformat]
            rfl
          · rw [hformat]
            exact ⟨hfit', hls'⟩
  | textUpdate =>
      rw [hformat] at hleft
      exact hleft.elim
  | tcpWireFormat =>
      rw [hformat] at hleft hlines
      obtain ⟨rfl, hmax⟩ := hleft
      have hread : d.readfunc lines = d.readOneBlob lines := by
        rw [readfunc, hformat]
      cases rs with
      | nil =>
          have hfits : ∀ p r, nextFrame? (frames []) = some (p, r) → lines.Fits p.length := by
            intro p r h
            cases h
          obtain ⟨d', -, hblob⟩ := readOneBlob_of_feeds hfeeds hfits
          exact ⟨d', hread.trans hblob⟩
      | cons r rs =>
          have hnext : nextFrame? (frames (r :: rs)) = some (r, frames rs) := by
            rw [frames_cons, nextFrame?_frame_append (hmax r (List.mem_cons_self ..))]
          have hfits : ∀ p s, nextFrame? (frames (r :: rs)) = some (p, s) →
              lines.Fits p.length := by
            intro p s h
            obtain ⟨rfl, -⟩ := Prod.mk.inj (Option.some.inj (hnext.symm.trans h))
            exact hlines r (List.mem_cons_self ..)
          obtain ⟨d', -, hblob⟩ := readOneBlob_of_feeds hfeeds hfits
          rw [hnext] at hblob
          refine ⟨d', frames rs, ?_, hblob.2, ?_⟩
          · rw [hread, hblob.1, hformat]
            rfl
          · rw [hformat]
            exact ⟨rfl, fun p hp => hmax p (List.mem_cons_of_mem _ hp)⟩

end Dnsperf.Datafile.PerfDatafile
