import Dnsperf.Datafile.Pass

/-!
# Dnsperf.Datafile.Runs

**Runs through a seekable file.** However many threads call `perf_datafile_next`, and in
whatever order they get the lock, the results are the records of the file, as often as there
are runs, and then the end of the file for ever.

The end of a run is found one call late: by the call that would read the record after the last
one, which goes back to the start and delivers the first record of the next run instead.

The limit is met when `nruns`, which has 32 bits, has its value. For a limit of 0 that is after
`2^32` runs.
-/

namespace Dnsperf.Datafile.PerfDatafile

open Dnsperf.Lib

/-- `perf_datafile_nruns`. -/
def perfDatafileNruns (d : PerfDatafile) : Nat := d.nruns

/-- **A file with these records**: blobs, or a NUL-free text whose lines all end and are not too
long, with its lines that are neither empty nor comments. -/
inductive Records : PerfInputFormat → Bytes → List Bytes → Prop
  | blobs {ps : List Bytes} : (∀ p ∈ ps, p.length ≤ maxPayload) →
      Records .tcpWireFormat (frames ps) ps
  | lines {content : Bytes} : (0 : UInt8) ∉ content → (segments (· == 10) content).2 = [] →
      (∀ l ∈ (segments (· == 10) content).1, l.length ≤ 65536) →
      Records .textQuery content ((segments (· == 10) content).1.filter deliverable)

theorem Records.left {format : PerfInputFormat} {content : Bytes} {records : List Bytes}
    (h : Records format content records) : Left format content records := by
  cases h with
  | blobs hmax => exact ⟨rfl, hmax⟩
  | lines htext hended hlong =>
      have hsegments := segments_of_text htext
      refine ⟨⟨hsegments ▸ hended, fun l hl => ?_⟩, ?_⟩
      · have hle := hlong l (hsegments ▸ hl)
        simp only [dataSpace]
        omega
      · simp only [linesOf, hsegments, Bool.false_eq_true, if_false, List.append_nil]

theorem Records.ne_textUpdate {format : PerfInputFormat} {content : Bytes} {records : List Bytes}
    (h : Records format content records) : format ≠ .textUpdate := by
  cases h <;> decide

/-- The runs after which `nruns` is `maxruns`. -/
def runsOf (maxruns : Nat) : Nat := if maxruns = 0 then 2 ^ 32 else maxruns

/-- Before the last run is over, the limit is not met, neither by the runs completed nor by one
more. -/
theorem not_met_of_lt_runsOf {maxruns j : Nat} (hmaxruns : maxruns < 2 ^ 32)
    (hj : j < runsOf maxruns) :
    ¬ (0 < maxruns ∧ maxruns = j) ∧
      (j + 1 < runsOf maxruns → maxruns ≠ (j + 1) % 2 ^ 32 ∧ (j + 1) % 2 ^ 32 = j + 1) := by
  unfold runsOf at *
  split_ifs at * <;> omega

section Runs

variable (content : Bytes) (records : List Bytes) (format : PerfInputFormat) (maxruns : Nat)

/-! ### One call -/

/-- In the run after `j` complete ones, with these records left. It can go back to the start `m`
times. -/
structure Reading (m j : Nat) (rs : List Bytes) (d : PerfDatafile) : Prop where
  format_eq : d.format = format
  maxruns_eq : d.maxruns = maxruns
  nruns_eq : d.nruns = j
  any : rs = [] → d.readAny = true
  within : Within content d
  rereads : Rereads m d
  left : ∃ left, Feeds d left ∧ Left format left rs

variable {content records format maxruns} {m j : Nat} {rs : List Bytes} {d : PerfDatafile}
  {lines : PerfBuffer}

theorem Reading.readfunc_nil (h : Reading content format maxruns m j [] d) (lines : PerfBuffer) :
    ∃ d', d.readfunc lines = some (.eof, d', lines) ∧ Within content d' ∧ Rereads m d' ∧
      SameRun d d' := by
  obtain ⟨left, hfeeds, hleft⟩ := h.left
  rw [← h.format_eq] at hleft
  obtain ⟨d', hread⟩ : d.Delivers lines [] := readfunc_of_left hfeeds hleft (by simp)
  have hmoves := readfunc_moves hread
  obtain ⟨hwithin, hsame⟩ := hmoves.within h.within
  exact ⟨d', hread, hwithin, hmoves.rereads h.rereads, hsame⟩

theorem Reading.readfunc_cons {r : Bytes} (h : Reading content format maxruns m j (r :: rs) d)
    (hlines : ∀ r' ∈ r :: rs, lines.Fits (delivered format r').length) :
    ∃ d', d.readfunc lines = some (.success, d', lines.push (delivered format r)) ∧
      d'.format = format ∧ Reading content format maxruns m j rs { d' with readAny := true } := by
  obtain ⟨left, hfeeds, hleft⟩ := h.left
  obtain ⟨rfl, rfl, rfl, -, hwithin, hrereads, -⟩ := h
  obtain ⟨d', left', hread, hfeeds', hleft'⟩ : d.Delivers lines (r :: rs) :=
    readfunc_of_left hfeeds hleft hlines
  have hmoves := readfunc_moves hread
  obtain ⟨hwithin', hformat, -, hmaxruns, hnruns, -⟩ := hmoves.within hwithin
  exact ⟨d', hread, hformat, hformat, hmaxruns, hnruns, fun _ => rfl, hwithin'.readAny true,
    hmoves.rereads hrereads, left', hfeeds'.readAny true, hleft'⟩

theorem Reading.next {r : Bytes} (h : Reading content format maxruns m j (r :: rs) d)
    (hformat : format ≠ .textUpdate) (hruns : ¬ (0 < maxruns ∧ maxruns = j))
    (hlines : ∀ r' ∈ r :: rs, lines.Fits (delivered format r').length) :
    ∃ d', d.perfDatafileNext lines = some (.success, d', lines.push (delivered format r)) ∧
      Reading content format maxruns m j rs d' := by
  obtain ⟨d', hread, hformat', hreading⟩ := h.readfunc_cons hlines
  rw [← h.maxruns_eq, ← h.nruns_eq] at hruns
  exact ⟨_, perfDatafileNext_success hruns (hformat' ▸ hformat) hread, hreading⟩

theorem Reading.next_again {r : Bytes} (h : Reading content format maxruns (m + 1) j [] d)
    (hformat : format ≠ .textUpdate) (hleft : Left format content (r :: rs))
    (hruns : ¬ (0 < maxruns ∧ maxruns = j)) (hmore : maxruns ≠ (j + 1) % 2 ^ 32)
    (hlines : ∀ r' ∈ r :: rs, lines.Fits (delivered format r').length) :
    ∃ d', d.perfDatafileNext lines = some (.success, d', lines.push (delivered format r)) ∧
      Reading content format maxruns m ((j + 1) % 2 ^ 32) rs d' := by
  obtain ⟨d₁, hread₁, hwithin₁, hrereads₁, hformat₁, -, hmaxruns₁, hnruns₁, hany₁⟩ :=
    h.readfunc_nil lines
  obtain ⟨rfl, rfl, rfl, hany₀, -, -, -⟩ := h
  rw [← hmaxruns₁, ← hnruns₁] at hmore
  obtain ⟨d₂, hend, hwithin₂, hfeeds₂, ⟨hformat₂, -, hmaxruns₂, hnruns₂, -⟩, hrereads₂⟩ :=
    hwithin₁.endRun hmore hrereads₁
  dsimp only at hformat₂ hmaxruns₂ hnruns₂
  have hreading : Reading content d.format d.maxruns m ((d.nruns + 1) % 2 ^ 32) (r :: rs) d₂ :=
    ⟨hformat₂.trans hformat₁, hmaxruns₂.trans hmaxruns₁, hnruns₁ ▸ hnruns₂, nofun, hwithin₂,
      hrereads₂, content, hfeeds₂, hleft⟩
  obtain ⟨d', hread, hformat', hreading'⟩ := hreading.readfunc_cons hlines
  rw [← hmaxruns₂, ← hnruns₂] at hmore
  exact ⟨_, perfDatafileNext_again hruns (hany₁.trans (hany₀ rfl)) hread₁ hend hmore
    (hformat' ▸ hformat) hread, hreading'⟩

theorem Reading.next_last (h : Reading content format maxruns m j [] d) (lines : PerfBuffer)
    (hruns : ¬ (0 < maxruns ∧ maxruns = j)) (hlast : maxruns = (j + 1) % 2 ^ 32) :
    ∃ d', d.perfDatafileNext lines = some (.eof, d', lines) ∧ d'.maxruns = maxruns ∧
      d'.nruns = maxruns := by
  obtain ⟨d₁, hread₁, -, -, -, -, hmaxruns₁, hnruns₁, hany₁⟩ := h.readfunc_nil lines
  obtain ⟨-, rfl, rfl, hany₀, -, -, -⟩ := h
  rw [← hmaxruns₁, ← hnruns₁] at hlast
  refine ⟨_, perfDatafileNext_last hruns (hany₁.trans (hany₀ rfl)) hlast hread₁, hmaxruns₁, ?_⟩
  exact hlast.symm.trans hmaxruns₁

/-! ### Any number of calls -/

variable (content records format maxruns) in
/-- After `k` calls, `todo` is what the calls to come deliver in the first `runs` runs. -/
inductive Owes (runs k : Nat) (todo : List Bytes) (d : PerfDatafile) : Prop
  | reading {j : Nat} {rs : List Bytes} : Reading content format maxruns (runs - 1 - j) j rs d →
      j < runs → todo = rs ++ (List.replicate (runs - 1 - j) records).flatten →
      k + rs.length = (j + 1) * records.length → (∀ r ∈ rs, r ∈ records) →
      (rs.length < records.length ∨ j = 0) → Owes runs k todo d
  | finished : todo = [] → 0 < maxruns → d.maxruns = maxruns → d.nruns = maxruns →
      maxruns * records.length < k → Owes runs k todo d

/-- The runs completed after `k` calls: a run is completed by the call that finds its end. -/
theorem Owes.nruns {k : Nat} {todo : List Bytes}
    (h : Owes content records format maxruns maxruns k todo d) (hne : records ≠ []) :
    d.nruns = min maxruns ((k - 1) / records.length) := by
  have hpos := List.length_pos_of_ne_nil hne
  cases h with
  | @reading j rs hreading hj _ hk _ hrs =>
      rw [hreading.nruns_eq]
      have hdiv : (k - 1) / records.length = j := by
        rw [Nat.succ_mul] at hk
        refine Nat.div_eq_of_lt_le ?_ ?_
        · rcases hrs with hrs | rfl
          · omega
          · rw [Nat.zero_mul]
            exact Nat.zero_le _
        · rw [Nat.succ_mul]
          omega
      omega
  | finished _ _ _ hnruns hk =>
      have hle : maxruns ≤ (k - 1) / records.length :=
        (Nat.le_div_iff_mul_le hpos).mpr (by omega)
      rw [hnruns]
      omega

theorem Owes.mem {runs k : Nat} {todo : List Bytes}
    (h : Owes content records format maxruns runs k todo d) : ∀ r ∈ todo, r ∈ records := by
  intro r hr
  cases h with
  | reading _ _ htodo _ hmem _ =>
      rw [htodo, List.mem_append, List.mem_flatten] at hr
      rcases hr with hr | ⟨l, hl, hr⟩
      · exact hmem r hr
      · exact List.eq_of_mem_replicate hl ▸ hr
  | finished htodo _ _ _ _ =>
      rw [htodo] at hr
      exact nomatch hr

/-- When nothing is owed in `runsOf maxruns` runs, the next call finds the end of the last one. -/
theorem Owes.next_eof {k : Nat} (hmaxruns : maxruns < 2 ^ 32) (hne : records ≠ [])
    (h : Owes content records format maxruns (runsOf maxruns) k [] d) (lines : PerfBuffer) :
    ∃ d', d.perfDatafileNext lines = some (.eof, d', lines) ∧ d'.maxruns = maxruns ∧
      d'.nruns = maxruns ∧ runsOf maxruns * records.length ≤ k := by
  cases h with
  | @reading j rs hreading hj htodo hk _ _ =>
      obtain ⟨rfl, hflat⟩ := List.append_eq_nil_iff.mp htodo.symm
      have hlast : runsOf maxruns - 1 - j = 0 := by
        by_contra hmore
        obtain ⟨n, hn⟩ := Nat.exists_eq_succ_of_ne_zero hmore
        rw [hn, List.replicate_succ, List.flatten_cons] at hflat
        exact hne (List.append_eq_nil_iff.mp hflat).1
      have hj' : j + 1 = runsOf maxruns := by omega
      have hmet : maxruns = (j + 1) % 2 ^ 32 := by
        rw [hj']
        unfold runsOf
        split_ifs <;> omega
      obtain ⟨d', hnext, hmax, hnruns⟩ :=
        hreading.next_last lines (not_met_of_lt_runsOf hmaxruns hj).1 hmet
      refine ⟨d', hnext, hmax, hnruns, ?_⟩
      rw [← hj', ← hk, List.length_nil, Nat.add_zero]
  | finished _ hpos hmax hnruns hk =>
      refine ⟨d, ?_, hmax, hnruns, ?_⟩
      · rw [perfDatafileNext, if_pos (by omega)]
      · unfold runsOf
        rw [if_neg (by omega)]
        exact hk.le

/-- **One call** delivers the first of what is owed. -/
theorem Owes.next {runs k : Nat} {r : Bytes} {todo : List Bytes}
    (hrecords : Records format content records)
    (hlines : ∀ r ∈ records, lines.Fits (delivered format r).length) (hmaxruns : maxruns < 2 ^ 32)
    (hruns : runs ≤ runsOf maxruns)
    (h : Owes content records format maxruns runs k (r :: todo) d) :
    ∃ d', d.perfDatafileNext lines = some (.success, d', lines.push (delivered format r)) ∧
      Owes content records format maxruns runs (k + 1) todo d' := by
  have hformat := hrecords.ne_textUpdate
  cases h with
  | @reading j rs hreading hj htodo hk hmem hrs =>
      obtain ⟨hnot, hmore⟩ := not_met_of_lt_runsOf hmaxruns (hj.trans_le hruns)
      cases rs with
      | cons r' rs =>
          obtain ⟨rfl, rfl⟩ := List.cons.inj htodo
          obtain ⟨d', hnext, hreading'⟩ := hreading.next hformat hnot fun r' hr' =>
            hlines r' (hmem r' hr')
          rw [List.length_cons] at hk hrs
          refine ⟨d', hnext, .reading hreading' hj rfl (by omega)
            (fun r' hr' => hmem r' (List.mem_cons_of_mem _ hr')) ?_⟩
          rcases hrs with hrs | rfl
          · exact Or.inl (by omega)
          · exact Or.inr rfl
      | nil =>
          -- another run
          obtain ⟨m, hm⟩ : ∃ m, runs - 1 - j = m + 1 := by
            refine Nat.exists_eq_succ_of_ne_zero fun h0 => ?_
            rw [h0] at htodo
            cases htodo
          obtain rfl : m = runs - 1 - (j + 1) := by omega
          rw [hm, List.nil_append, List.replicate_succ, List.flatten_cons] at htodo
          rw [hm] at hreading
          obtain ⟨hne, hwrap⟩ := hmore (by omega)
          have hleft := hrecords.left
          cases records with
          | nil => simp at htodo
          | cons r' rs =>
              obtain ⟨rfl, rfl⟩ := List.cons.inj htodo
              obtain ⟨d', hnext, hreading'⟩ := hreading.next_again hformat hleft hnot hne hlines
              rw [hwrap] at hreading'
              refine ⟨d', hnext, .reading hreading' (by omega) rfl ?_
                (fun r' hr' => List.mem_cons_of_mem _ hr') (Or.inl (by simp))⟩
              rw [List.length_nil] at hk
              rw [Nat.succ_mul, ← hk, List.length_cons]
              omega
  | finished htodo _ _ _ _ => cases htodo

/-- Calls of `perf_datafile_next` by the threads in the order in which they get the lock. Each
thread has its own buffer and clears it first. The results, with what is then in the buffer. -/
def nextAll (buffers : Nat → PerfBuffer) :
    PerfDatafile → List Nat → Option (List (PerfResult × Bytes) × PerfDatafile)
  | d, [] => some ([], d)
  | d, thread :: order => do
      let (result, d, lines) ← d.perfDatafileNext (buffers thread).clear
      let (results, d) ← nextAll buffers d order
      some ((result, lines.base) :: results, d)

/-- The results of `n` calls: what is to be delivered, and then the end of the file. -/
def results (format : PerfInputFormat) (todo : List Bytes) (n : Nat) : List (PerfResult × Bytes) :=
  (todo.take n).map (fun r => (.success, delivered format r)) ++
    List.replicate (n - todo.length) (.eof, [])

theorem results_nil_succ (n : Nat) :
    results format [] (n + 1) = (.eof, []) :: results format [] n := by
  simp [results, List.replicate_succ]

theorem results_cons_succ (r : Bytes) (todo : List Bytes) (n : Nat) :
    results format (r :: todo) (n + 1) =
      (.success, delivered format r) :: results format todo n := by
  simp [results]

theorem nextAll_cons {buffers : Nat → PerfBuffer} {thread : Nat} {order : List Nat}
    {result : PerfResult} {d₁ d' : PerfDatafile} {outs : List (PerfResult × Bytes)}
    (hcall : d.perfDatafileNext (buffers thread).clear = some (result, d₁, lines))
    (hrest : nextAll buffers d₁ order = some (outs, d')) :
    nextAll buffers d (thread :: order) = some ((result, lines.base) :: outs, d') := by
  simp [nextAll, hcall, hrest]

/-- **All calls**, as long as something is owed; after that, if the limit is not 0. -/
theorem Owes.nextAll {buffers : Nat → PerfBuffer} {runs : Nat}
    (hrecords : Records format content records) (hne : records ≠ []) (hmaxruns : maxruns < 2 ^ 32)
    (hruns : runs ≤ runsOf maxruns)
    (hbuffers : ∀ thread, ∀ r ∈ records, (delivered format r).length ≤ (buffers thread).length)
    (order : List Nat) {k : Nat} {todo : List Bytes} {d : PerfDatafile}
    (hend : todo.length < order.length → 0 < maxruns ∧ runs = maxruns)
    (h : Owes content records format maxruns runs k todo d) :
    ∃ d', nextAll buffers d order = some (results format todo order.length, d') ∧
      Owes content records format maxruns runs (k + order.length) (todo.drop order.length) d' := by
  induction order generalizing k todo d with
  | nil => exact ⟨d, by simp [PerfDatafile.nextAll, results], by simpa using h⟩
  | cons thread order ih =>
      have hfits : ∀ r ∈ records, (buffers thread).clear.Fits (delivered format r).length := by
        intro r hr
        simpa [PerfBuffer.Fits, PerfBuffer.clear] using hbuffers thread r hr
      have hk : k + (thread :: order).length = k + 1 + order.length := by
        rw [List.length_cons]
        omega
      rw [List.length_cons] at hend
      rw [hk, List.length_cons]
      cases todo with
      -- all runs are over: this call and those after it return end of file
      | nil =>
          obtain ⟨hpos, rfl⟩ := hend (Nat.succ_pos _)
          have hall : runsOf runs = runs := if_neg hpos.ne'
          have howes : Owes content records format runs (runsOf runs) k [] d := hall.symm ▸ h
          obtain ⟨d₁, hcall, hmax, hnruns, hle⟩ :=
            howes.next_eof hmaxruns hne (buffers thread).clear
          rw [hall] at hle
          obtain ⟨d', hrest, howes'⟩ := ih (fun _ => ⟨hpos, rfl⟩)
            (.finished rfl hpos hmax hnruns (Nat.lt_succ_of_le hle))
          rw [results_nil_succ]
          exact ⟨d', nextAll_cons hcall hrest, by simpa using howes'⟩
      | cons r todo =>
          obtain ⟨d₁, hcall, howes⟩ := h.next hrecords hfits hmaxruns hruns
          obtain ⟨d', hrest, howes'⟩ := ih (fun hlt => hend (by simpa using hlt)) howes
          have hbase : ((buffers thread).clear.push (delivered format r)).base =
              delivered format r :=
            PerfBuffer.push_base (hfits r (h.mem r (List.mem_cons_self ..)))
          rw [results_cons_succ, ← hbase]
          exact ⟨d', nextAll_cons hcall hrest, howes'⟩

/-! ### The whole input -/

/-- A seekable file, named (a regular file, whose size is known) or as standard input. -/
def seekableInput (named hasPipe : Bool) (format : PerfInputFormat) (maxruns : Nat)
    (content : Bytes) (reads : List (Option Bytes)) (seeks : List (List (Option Bytes))) :
    PerfDatafile :=
  perfDatafileOpen (if named then some content.length else none) format maxruns hasPipe
    { reads := reads, seeks := seeks, waits := [], spaces := [] }

theorem feeds_seekableInput {named hasPipe : Bool} {reads : List (Option Bytes)}
    {seeks : List (List (Option Bytes))} (hreads : IsPass content reads) :
    Feeds (seekableInput named hasPipe format maxruns content reads seeks) content := by
  obtain ⟨chunks, rfl, hne, rfl⟩ := hreads
  refine ⟨⟨chunks, rfl, hne, rfl, fun hcached => ?_, fun hnamed => ?_⟩, fun _ hwait => ?_⟩
  · cases hcached
  · cases named with
    | true =>
        simp only [seekableInput, perfDatafileOpen, if_true, Option.getD_some, List.length_nil]
        omega
    | false => cases hnamed
  · cases hwait

theorem within_seekableInput {named hasPipe : Bool} {reads : List (Option Bytes)}
    {seeks : List (List (Option Bytes))} (hreads : IsPass content reads)
    (hseeks : ∀ reads ∈ seeks, IsPass content reads) :
    Within content (seekableInput named hasPipe format maxruns content reads seeks) := by
  refine ⟨⟨[], content, rfl, hreads⟩, nofun, fun hnamed => ?_, nofun, hseeks⟩
  cases named with
  | true => rfl
  | false => exact nomatch hnamed

theorem owes_seekableInput {runs : Nat} (hrecords : Records format content records)
    (hne : records ≠ []) (hruns : 0 < runs) (named hasPipe : Bool) {reads : List (Option Bytes)}
    {seeks : List (List (Option Bytes))} (hreads : IsPass content reads)
    (hseeks : ∀ reads ∈ seeks, IsPass content reads) (hmany : runs ≤ seeks.length + 1) :
    Owes content records format maxruns runs 0 (List.replicate runs records).flatten
      (seekableInput named hasPipe format maxruns content reads seeks) := by
  have hrereads : Rereads (runs - 1 - 0)
      (seekableInput named hasPipe format maxruns content reads seeks) :=
    .inr (show _ ≤ seeks.length by omega)
  refine .reading (j := 0) ⟨rfl, rfl, rfl, fun h => absurd h hne,
    within_seekableInput hreads hseeks,
    hrereads, content, feeds_seekableInput hreads, hrecords.left⟩ hruns ?_ (by omega) (fun _ => id)
    (Or.inr rfl)
  obtain ⟨n, rfl⟩ : ∃ n, runs = n + 1 := ⟨runs - 1, by omega⟩
  rw [List.replicate_succ, List.flatten_cons]
  rfl

end Runs

/-- **Run counting.** In the order of the lock, the calls deliver the records of the file, in
file order and as often as there are runs, and then the end of the file; and the run counter is
the number of completed runs after any number of calls. -/
theorem nextAll_eq_runs (format : PerfInputFormat) (content : Bytes) (records : List Bytes)
    (hrecords : Records format content records) (hne : 1 ≤ records.length) (maxruns : Nat)
    (hmax : 1 ≤ maxruns) (hmaxruns : maxruns < 2 ^ 32) (named hasPipe : Bool)
    (reads : List (Option Bytes))
    (hreads : IsPass content reads) (seeks : List (List (Option Bytes)))
    (hseeks : ∀ reads ∈ seeks, IsPass content reads) (hmany : maxruns ≤ seeks.length + 1)
    (buffers : Nat → PerfBuffer)
    (hbuffers : ∀ thread, ∀ r ∈ records, (delivered format r).length ≤ (buffers thread).length)
    (order : List Nat) :
    ∃ d, nextAll buffers (seekableInput named hasPipe format maxruns content reads seeks) order =
        some (((List.replicate maxruns records).flatten.take order.length).map
            (fun r => (PerfResult.success, delivered format r)) ++
          List.replicate (order.length - maxruns * records.length) (.eof, []), d) ∧
      perfDatafileNruns d = min maxruns ((order.length - 1) / records.length) ∧
      (maxruns * records.length < order.length → perfDatafileNruns d = maxruns) := by
  have hne' : records ≠ [] := List.ne_nil_of_length_pos hne
  have hle : maxruns ≤ runsOf maxruns := (if_neg (by omega) : runsOf maxruns = maxruns).ge
  obtain ⟨d, hall, howes⟩ := (owes_seekableInput hrecords hne' hmax named hasPipe hreads hseeks
    hmany).nextAll hrecords hne' hmaxruns hle hbuffers order fun _ => ⟨hmax, rfl⟩
  have hruns := howes.nruns hne'
  rw [Nat.zero_add] at hruns
  refine ⟨d, ?_, hruns, fun hend => ?_⟩
  · rw [hall, results]
    simp only [List.length_flatten, List.map_replicate, List.sum_replicate, smul_eq_mul]
  · have hle : maxruns ≤ (order.length - 1) / records.length :=
      (Nat.le_div_iff_mul_le hne).mpr (by omega)
    rw [perfDatafileNruns, hruns]
    omega

/-- Two lines with a comment and an empty line between them, read twice by two threads. -/
theorem nextAll_eq_runs_twice :
    ∃ d, nextAll (fun _ => inputData)
        (seekableInput true false .textQuery 2 (ascii "a A\n;x\n\nb A\n")
          [some (ascii "a A\n;"), some (ascii "x\n\nb A\n")] [[some (ascii "a A\n;x\n\nb A\n")]])
        [0, 1, 1, 0, 0, 1] =
        some ([(.success, ascii "a A" ++ [0]), (.success, ascii "b A" ++ [0]),
          (.success, ascii "a A" ++ [0]), (.success, ascii "b A" ++ [0]), (.eof, []), (.eof, [])],
          d) ∧
      perfDatafileNruns d = 2 ∧ (4 < 6 → perfDatafileNruns d = 2) :=
  nextAll_eq_runs .textQuery (ascii "a A\n;x\n\nb A\n") [ascii "a A", ascii "b A"]
    (Records.lines (by decide) (by decide) (by decide)) (by decide) 2 (by decide) (by decide) true
    false _
    ⟨[ascii "a A\n;", ascii "x\n\nb A\n"], rfl, by decide, by decide⟩ _
    (List.forall_mem_singleton.mpr ⟨[ascii "a A\n;x\n\nb A\n"], rfl, by decide, by decide⟩)
    (by decide) _ (fun _ => by decide) [0, 1, 1, 0, 0, 1]

end Dnsperf.Datafile.PerfDatafile
