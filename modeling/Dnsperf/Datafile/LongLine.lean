import Dnsperf.Datafile.Runs

/-!
# Dnsperf.Datafile.LongLine

**Lines longer than the buffer.** `read_one_line` waits until it sees the end of a line. When
the buffer is full of one line there is no room to read into, `read` is asked for no bytes and
delivers none, and `read_more` takes that for the end of the file. The lines from there on are
never delivered, in this run or in a later one; before it, and in a file without such a line,
every line is.
-/

namespace Dnsperf.Datafile.PerfDatafile

open Dnsperf.Lib

/-- Calls of `read_one_line`, each into the next of the buffers: the results, with the buffers
as they are then. -/
def readLines : List PerfBuffer → PerfDatafile → Option (List (PerfResult × PerfBuffer))
  | [], _ => some []
  | lines :: buffers, d => do
      let (result, d, lines) ← d.readOneLine lines
      let results ← readLines buffers d
      some ((result, lines) :: results)

/-- Each call delivers the next line, cut to the room in its buffer, and after the last line the
end of the file. -/
def lineResults : List PerfBuffer → List Bytes → List (PerfResult × PerfBuffer)
  | [], _ => []
  | lines :: buffers, [] => (.eof, lines) :: lineResults buffers []
  | lines :: buffers, l :: ls =>
      (.success, lines.push (truncated lines.availablelength l)) :: lineResults buffers ls

theorem readLines_reached (buffers : List PerfBuffer) (hroom : ∀ b ∈ buffers, 0 < b.availablelength)
    {d : PerfDatafile} {content : Bytes} (hfeeds : Feeds d content)
    (hended : (segments isEol content).2 = []) :
    readLines buffers d = some (lineResults buffers (reachedLines content)) := by
  induction buffers generalizing d content with
  | nil => rfl
  | cons lines buffers ih =>
      have hlines := hroom lines (List.mem_cons_self ..)
      have hbuffers : ∀ b ∈ buffers, 0 < b.availablelength := fun b hb =>
        hroom b (List.mem_cons_of_mem _ hb)
      obtain ⟨r, hr, hnext⟩ := firstLine_spec hfeeds
      cases hnext with
      | line hfeeds' hlater _ hreached =>
          have hrest := ih hbuffers hfeeds' (hlater.ended hended)
          rw [hreached (.inr hended), readLines, readOneLine_ok lines hr, if_pos hlines]
          simp only [Option.bind_eq_bind, Option.bind_some, hrest, lineResults]
      | eof hend hlater _ hdone hdone' =>
          have hrest := ih hbuffers hend.feeds (hlater.ended hended)
          rw [hdone'] at hrest
          rw [hdone, readLines, readOneLine_error lines hr]
          simp only [Option.bind_eq_bind, Option.bind_some, hrest, lineResults]

theorem countP_lineResults (buffers : List PerfBuffer) (ls : List Bytes) :
    (lineResults buffers ls).countP (fun r => r.1 = .success) = min buffers.length ls.length := by
  induction buffers generalizing ls with
  | nil => simp [lineResults]
  | cons lines buffers ih =>
      cases ls with
      | nil => simp [lineResults, ih]
      | cons l ls => simp [lineResults, ih, Nat.succ_min_succ]

/-- The elements with `q` among those before the first one without `p` are all there are, exactly
if `p` holds up to the last one with `q`. -/
theorem filter_takeWhile_eq_iff {α : Type*} {p q : α → Bool} (ls : List α) :
    (ls.takeWhile p).filter q = ls.filter q ↔
      ∀ before l after, ls = before ++ l :: after → (∃ l' ∈ l :: after, q l' = true) →
        p l = true := by
  induction ls with
  | nil => simp
  | cons a ls ih =>
      by_cases ha : p a = true
      · rw [List.takeWhile_cons_of_pos ha, List.filter_cons, List.filter_cons]
        have hsame : ((ls.takeWhile p).filter q = ls.filter q) ↔
            (if q a then a :: (ls.takeWhile p).filter q else (ls.takeWhile p).filter q) =
              if q a then a :: ls.filter q else ls.filter q := by
          split <;> simp
        rw [← hsame, ih]
        constructor
        · intro h before l after heq hq
          cases before with
          | nil =>
              obtain ⟨rfl, -⟩ := List.cons.inj heq
              exact ha
          | cons b before => exact h before l after (List.cons.inj heq).2 hq
        · exact fun h before l after heq hq => h (a :: before) l after (by rw [heq]; rfl) hq
      · rw [List.takeWhile_cons_of_neg ha, List.filter_nil, eq_comm, List.filter_eq_nil_iff]
        constructor
        · rintro h before l after heq ⟨l', hl', hq⟩
          exact absurd hq (h l' (heq ▸ List.mem_append_right _ hl'))
        · exact fun h l hl hq => ha (h [] a ls rfl ⟨l, hl, hq⟩)

/-- **One pass over a text** whose lines all end, into any buffers with room for a byte: the calls
deliver every line that is neither empty nor a comment, in order, and only then the end of the file,
exactly if no line up to the last one of these is longer than the buffer. -/
theorem readLines_text (content : Bytes) (htext : (0 : UInt8) ∉ content)
    (hended : (segments (· == 10) content).2 = []) (named hasPipe : Bool)
    (format : PerfInputFormat) (maxruns : Nat) (reads : List (Option Bytes))
    (hreads : IsPass content reads) (seeks : List (List (Option Bytes))) :
    (∀ buffers : List PerfBuffer, (∀ b ∈ buffers, 1 ≤ b.availablelength) →
      readLines buffers (seekableInput named hasPipe format maxruns content reads seeks) =
        some (lineResults buffers ((segments (· == 10) content).1.filter deliverable))) ↔
    ∀ before l after, (segments (· == 10) content).1 = before ++ l :: after →
      (∃ l' ∈ l :: after, deliverable l' = true) → l.length ≤ 65536 := by
  have hsegments := segments_of_text htext
  have hreached : reachedLines content =
      ((segments (· == 10) content).1.takeWhile fun l => l.length < dataSpace).filter
        deliverable := by
    rw [reachedLines, hsegments]
  have hall : reachedLines content = (segments (· == 10) content).1.filter deliverable ↔
      ∀ before l after, (segments (· == 10) content).1 = before ++ l :: after →
        (∃ l' ∈ l :: after, deliverable l' = true) → l.length ≤ 65536 := by
    rw [hreached, filter_takeWhile_eq_iff]
    simp only [decide_eq_true_eq, dataSpace, Nat.lt_succ_iff]
  have hfeeds : Feeds (seekableInput named hasPipe format maxruns content reads seeks) content :=
    feeds_seekableInput hreads
  have hread := fun buffers hroom => readLines_reached buffers hroom hfeeds (hsegments ▸ hended)
  rw [← hall]
  constructor
  · intro h
    -- as many calls as there are lines tell the two lists apart
    have hstarts : reachedLines content <+: (segments (· == 10) content).1.filter deliverable := by
      rw [hreached]
      exact (List.takeWhile_prefix _).filter _
    have hroom : ∀ b ∈ List.replicate ((segments (· == 10) content).1.filter deliverable).length
        (PerfBuffer.init 1), 1 ≤ b.availablelength := by
      intro b hb
      rw [List.eq_of_mem_replicate hb]
      decide
    have hcount := congrArg (List.countP fun r => r.1 = PerfResult.success)
      (Option.some.inj ((hread _ hroom).symm.trans (h _ hroom)))
    rw [countP_lineResults, countP_lineResults, List.length_replicate, Nat.min_self,
      Nat.min_eq_right hstarts.length_le] at hcount
    exact hstarts.eq_of_length hcount
  · intro hsame buffers hroom
    rw [hread buffers hroom, hsame]

theorem readLines_text_cut :
    readLines [PerfBuffer.init 3, PerfBuffer.init 8, PerfBuffer.init 8]
        (seekableInput true false .textQuery 1 [97, 98, 99, 10, 59, 10, 100, 10]
          [some [97, 98], some [99, 10, 59, 10, 100, 10]] []) =
      some (lineResults [PerfBuffer.init 3, PerfBuffer.init 8, PerfBuffer.init 8]
        [[97, 98, 99], [100]]) := by
  have hshort : ∀ l ∈ (segments (· == 10) ([97, 98, 99, 10, 59, 10, 100, 10] : Bytes)).1,
      l.length ≤ 65536 := by
    decide
  refine (readLines_text [97, 98, 99, 10, 59, 10, 100, 10] (by decide) (by decide) true false
    .textQuery 1 _ ⟨[[97, 98], [99, 10, 59, 10, 100, 10]], rfl, by decide, rfl⟩ []).mpr ?_ _
    (by decide)
  exact fun before l after heq _ => hshort l (heq ▸ List.mem_append_right _ (List.mem_cons_self ..))

/-- A line of 65537 bytes and a short one. -/
def longLine : Bytes := List.replicate 65537 97 ++ 10 :: [98, 10]

/-- The buffer holds 65537 bytes: the line fills it, and neither it nor the line after it is
delivered. -/
theorem readLines_longLine :
    (segments (· == 10) longLine).2 = [] ∧
      (segments (· == 10) longLine).1.filter deliverable = [List.replicate 65537 97, [98]] ∧
      readLines [PerfBuffer.init 65538, PerfBuffer.init 65538]
          (seekableInput true false .textQuery 1 longLine [some longLine] []) =
        some [(.eof, PerfBuffer.init 65538), (.eof, PerfBuffer.init 65538)] := by
  have hopen : ∀ a ∈ List.replicate 65537 (97 : UInt8), isEol a = false := by
    intro a ha
    rw [List.eq_of_mem_replicate ha]
    rfl
  have hopen' : ∀ a ∈ List.replicate 65537 (97 : UInt8), (a == 10) = false := by
    intro a ha
    rw [List.eq_of_mem_replicate ha]
    rfl
  have hsegments : segments (· == 10) longLine = ([List.replicate 65537 97, [98]], []) := by
    rw [longLine, segments_append_cons hopen' (by decide)]
    rfl
  have hended : (segments isEol longLine).2 = [] := by
    rw [longLine, segments_append_cons hopen (by decide)]
    rfl
  have hreads : IsPass longLine [some longLine] := by
    refine ⟨[longLine], rfl, ?_, List.append_nil _⟩
    intro c hc
    rw [List.mem_singleton.mp hc]
    exact List.append_ne_nil_of_right_ne_nil _ (List.cons_ne_nil _ _)
  have hdel : deliverable (List.replicate 65537 97) = true := by
    rw [show 65537 = 65536 + 1 from rfl, List.replicate_succ]
    rfl
  refine ⟨by rw [hsegments], ?_, ?_⟩
  · rw [hsegments, List.filter_cons_of_pos hdel]
    rfl
  · rw [readLines_reached _ (by decide) (feeds_seekableInput hreads) hended, longLine,
      reachedLines_of_full hopen (by rw [List.length_replicate]; exact Nat.le_refl _)]
    rfl

end Dnsperf.Datafile.PerfDatafile
