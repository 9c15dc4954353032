import Dnsperf.Hg64
import Dnsperf.Stats

/-!
# Dnsperf.Histogram

The latency histograms of `dnsperf.c`: each thread has its own, `sum_stats` merges them,
`diff_stats` subtracts one total from the next, and `print_histogram` prints a row for each counter
that is not 0.

**The rows are exact**: they are the histogram of all latencies of all threads (`Exact`). And the
interval histograms add up to the last total, counter by counter.
-/

namespace Dnsperf.Stats

/-- `HISTOGRAM_SIGBITS`. -/
def histogramSigbits : Nat := 5

/-- A histogram of `dnsperf.c`. -/
abbrev Histogram := Hg64 histogramSigbits

/-! ### `stats_t` with histograms -/

/-- `stats_t` with its histograms, which are `NULL` without `latency_histogram`. -/
structure HistStats where
  stats : StatsT
  latency : Option Histogram
  connLatency : Option Histogram

/-- What `{}` leaves. -/
def HistStats.zero : HistStats := ⟨.zero, none, none⟩

/-- Where a histogram is made, if `latency_histogram` is set. -/
def createHistogram (latencyHistogram : Bool) : Option Histogram :=
  if latencyHistogram then Hg64.hg64Create histogramSigbits else none

/-- `threadinfo_init`. -/
def HistStats.init (latencyHistogram : Bool) : HistStats :=
  ⟨.zero, createHistogram latencyHistogram, createHistogram latencyHistogram⟩

/-- What `do_recv` and `perf__net_event` make of it. -/
def HistStats.record (s : HistStats) (e : Event) : HistStats where
  stats := s.stats.record e
  latency :=
    match e with
    | .completed latency _ _ => s.latency.map (·.hg64Inc latency)
    | _ => s.latency
  connLatency :=
    match e with
    | .net .reconnected elapsed => s.connLatency.map (·.hg64Inc elapsed)
    | .net .connected elapsed => s.connLatency.map (·.hg64Inc elapsed)
    | _ => s.connLatency

/-- A thread after its events. -/
def runHist (latencyHistogram : Bool) (es : List Event) : HistStats :=
  es.foldl HistStats.record (.init latencyHistogram)

/-- The histogram of a thread is merged into the total. -/
def mergeHistogram (total s : Option Histogram) : Option Histogram :=
  match total, s with
  | some total, some s => some (total.hg64Merge s)
  | total, _ => total

/-- `sum_stats`. -/
def sumHistStats (latencyHistogram : Bool) (threads : List HistStats) : HistStats where
  stats := sumStats (threads.map (·.stats))
  latency := (threads.map (·.latency)).foldl mergeHistogram (createHistogram latencyHistogram)
  connLatency :=
    (threads.map (·.connLatency)).foldl mergeHistogram (createHistogram latencyHistogram)

/-! ### `diff_stats` -/

/-- A series of `diff_stats`: there is not enough data for the minimum and the maximum. -/
def Series.diff (last now : Series) : Series :=
  ⟨now.num - last.num, now.sum - last.sum, now.sumSquares - last.sumSquares, 0, 0⟩

/-- The first part of `diff_stats`. -/
def StatsT.diff (last now : StatsT) : StatsT where
  rcodecounts := fun i => now.rcodecounts i - last.rcodecounts i
  numSent := now.numSent - last.numSent
  numInterrupted := now.numInterrupted - last.numInterrupted
  numTimedout := now.numTimedout - last.numTimedout
  totalRequestSize := now.totalRequestSize - last.totalRequestSize
  totalResponseSize := now.totalResponseSize - last.totalResponseSize
  numConnAttempts := now.numConnAttempts - last.numConnAttempts
  latency := Series.diff last.latency now.latency
  connLatency := Series.diff last.connLatency now.connLatency

/-- The histogram of an interval; there is no `last` for the first one. -/
def diffHistogram (last now : Option Histogram) : Option Histogram :=
  match Hg64.hg64Create histogramSigbits, last, now with
  | some diff, some last, some now => some (now.hg64Diff last diff)
  | some diff, none, some now => some (diff.hg64Merge now)
  | diff, _, _ => diff

/-- The minimum and the maximum, from the histogram of the interval. -/
def Series.withRange (s : Series) (hist : Option Histogram) : Series :=
  match hist with
  | some hist =>
      { s with
        min := ((hist.hg64Get hist.hg64MinKey).map (·.min)).getD s.min
        max := ((hist.hg64Get hist.hg64MaxKey).map (·.max)).getD s.max }
  | none => s

/-- `diff_stats`. -/
def diffStats (latencyHistogram : Bool) (last now : HistStats) : HistStats :=
  let diff := StatsT.diff last.stats now.stats
  if latencyHistogram then
    let latency := diffHistogram last.latency now.latency
    let connLatency := diffHistogram last.connLatency now.connLatency
    ⟨{ diff with
        latency := diff.latency.withRange latency
        connLatency := diff.connLatency.withRange connLatency },
      latency, connLatency⟩
  else ⟨diff, none, none⟩

/-- `do_interval_stats`: the statistics of each interval, from the totals taken at its end. -/
def doIntervalStats (latencyHistogram : Bool) : HistStats → List HistStats → List HistStats
  | _, [] => []
  | last, total :: totals =>
      diffStats latencyHistogram last total :: doIntervalStats latencyHistogram total totals

/-! ### `print_histogram` -/

/-- `print_histogram`: the rows. -/
def printHistogram (hist : Histogram) : List Row :=
  hist.hg64Keys.filterMap fun key => (hist.hg64Get key).filter (·.count ≠ 0)

/-- The rows are exact for the latencies `xs`, of which `num` were counted. In 64 bits all of it
holds whatever the number of latencies; as numbers, as long as that does not wrap. -/
structure Exact (xs : List UInt64) (num : UInt64) (rows : List Row) : Prop where
  disjoint : rows.Pairwise fun r r' => ∀ x, ¬ (r.Holds x ∧ r'.Holds x)
  count : ∀ r ∈ rows, r.count = UInt64.ofNat (xs.countP (r.Holds ·))
  sum : (rows.map (·.count)).sum = num
  one : xs.length < 2 ^ 64 → ∀ x ∈ xs, ∃! r, r ∈ rows ∧ r.Holds x
  count_nat : xs.length < 2 ^ 64 → ∀ r ∈ rows, r.count.toNat = xs.countP (r.Holds ·)
  sum_nat : xs.length < 2 ^ 64 → (rows.map (·.count.toNat)).sum = xs.length ∧ num.toNat = xs.length

section Rows

variable {hist : Histogram} {xs : List UInt64} {r : Row}

theorem printHistogram_eq (hist : Histogram) :
    printHistogram hist =
      (List.range (keys histogramSigbits)).filterMap fun key =>
        (hist.hg64Get key).filter (·.count ≠ 0) := by
  refine hist.filterMap_hg64Keys fun key hzero => ?_
  rw [Option.filter_eq_none_iff]
  intro r hr
  obtain ⟨-, hr⟩ := Option.ite_none_right_eq_some.mp hr
  rw [← Option.some.inj hr]
  simpa using hzero

theorem row_iff {key : Nat} :
    (hist.hg64Get key).filter (·.count ≠ 0) = some r ↔
      key < keys histogramSigbits ∧ hist.getKeyCount key ≠ 0 ∧
        r = ⟨keyToMinval histogramSigbits key, keyToMaxval histogramSigbits key,
          hist.getKeyCount key⟩ := by
  rw [Option.filter_eq_some_iff, Hg64.hg64Get, Option.ite_none_right_eq_some, decide_eq_true_eq,
    Option.some.injEq]
  constructor
  · rintro ⟨⟨hkey, rfl⟩, hne⟩
    exact ⟨hkey, hne, rfl⟩
  · rintro ⟨hkey, hne, rfl⟩
    exact ⟨⟨hkey, rfl⟩, hne⟩

theorem mem_printHistogram :
    r ∈ printHistogram hist ↔ ∃ key, key < keys histogramSigbits ∧ hist.getKeyCount key ≠ 0 ∧
      r = ⟨keyToMinval histogramSigbits key, keyToMaxval histogramSigbits key,
        hist.getKeyCount key⟩ := by
  rw [printHistogram_eq, List.mem_filterMap]
  constructor
  · rintro ⟨key, -, hr⟩
    exact ⟨key, row_iff.mp hr⟩
  · rintro ⟨key, hkey, hr⟩
    exact ⟨key, List.mem_range.mpr hkey, row_iff.mpr ⟨hkey, hr⟩⟩

theorem sum_map_filterMap {α β M : Type} [AddMonoid M] {f : α → Option β} {g : β → M} {h : α → M}
    {l : List α} (hf : ∀ a ∈ l, ((f a).map g).getD 0 = h a) :
    ((l.filterMap f).map g).sum = (l.map h).sum := by
  induction l with
  | nil => rfl
  | cons a l ih =>
      obtain ⟨ha, hl⟩ := List.forall_mem_cons.mp hf
      rw [List.map_cons, List.sum_cons, ← ha, ← ih hl, List.filterMap_cons]
      cases f a with
      | none => exact (zero_add _).symm
      | some b => rfl

/-- Rows that are not printed do not count. -/
theorem sum_printHistogram {M : Type} [AddMonoid M] (hist : Histogram) {g : UInt64 → M}
    (hg : g 0 = 0) :
    ((printHistogram hist).map fun r => g r.count).sum =
      ((List.range (keys histogramSigbits)).map fun key => g (hist.getKeyCount key)).sum := by
  rw [printHistogram_eq]
  refine sum_map_filterMap fun key hmem => ?_
  rw [Hg64.hg64Get, if_pos (List.mem_range.mp hmem)]
  by_cases hzero : hist.getKeyCount key = 0
  · simp [Option.filter, hzero, hg]
  · simp [Option.filter, hzero]

theorem ofNat_sum (l : List Nat) : UInt64.ofNat l.sum = (l.map UInt64.ofNat).sum := by
  induction l with
  | nil => rfl
  | cons a l ih => rw [List.sum_cons, UInt64.ofNat_add, ih, List.map_cons, List.sum_cons]

theorem disjoint_printHistogram (hist : Histogram) :
    (printHistogram hist).Pairwise fun r r' => ∀ x, ¬ (r.Holds x ∧ r'.Holds x) := by
  rw [printHistogram_eq, List.pairwise_filterMap]
  refine List.nodup_range.imp ?_
  intro key key' hne r hr r' hr' x hx
  obtain ⟨hkey, -, rfl⟩ := row_iff.mp hr
  obtain ⟨hkey', -, rfl⟩ := row_iff.mp hr'
  have hx₁ := (mem_range_iff hist.valid hkey x).mp hx.1
  have hx₂ := (mem_range_iff hist.valid hkey' x).mp hx.2
  exact hne (hx₁.symm.trans hx₂)

theorem count_printHistogram (h : hist.Counts xs) (hr : r ∈ printHistogram hist) :
    r.count = UInt64.ofNat (xs.countP (r.Holds ·)) := by
  obtain ⟨key, hkey, -, rfl⟩ := mem_printHistogram.mp hr
  simp only [Row.Holds, mem_range_iff hist.valid hkey]
  exact h key hkey

theorem toNat_getKeyCount (h : hist.Counts xs) (hlen : xs.length < 2 ^ 64) {key : Nat}
    (hkey : key < keys histogramSigbits) :
    (hist.getKeyCount key).toNat = xs.countP fun x => valueToKey histogramSigbits x = key := by
  rw [h key hkey, UInt64.toNat_ofNat_of_lt' (lt_of_le_of_lt List.countP_le_length hlen)]

theorem getKeyCount_ne_zero (h : hist.Counts xs) (hlen : xs.length < 2 ^ 64) {x : UInt64}
    (hx : x ∈ xs) : hist.getKeyCount (valueToKey histogramSigbits x) ≠ 0 := by
  intro hzero
  have hnat := toNat_getKeyCount h hlen (valueToKey_lt hist.valid x)
  rw [hzero] at hnat
  have hpos : 0 < xs.countP fun y =>
      valueToKey histogramSigbits y = valueToKey histogramSigbits x :=
    List.countP_pos_iff.mpr ⟨x, hx, decide_eq_true rfl⟩
  rw [← hnat] at hpos
  exact absurd hpos (by decide)

theorem existsUnique_row {x : UInt64}
    (hne : hist.getKeyCount (valueToKey histogramSigbits x) ≠ 0) :
    ∃! r, r ∈ printHistogram hist ∧ r.Holds x := by
  have hkey := valueToKey_lt hist.valid x
  refine ⟨_, ⟨mem_printHistogram.mpr ⟨_, hkey, hne, rfl⟩, ?_⟩, ?_⟩
  · exact (mem_range_iff hist.valid hkey x).mpr rfl
  · rintro r ⟨hr, hx⟩
    obtain ⟨key, hkey', -, rfl⟩ := mem_printHistogram.mp hr
    obtain rfl := (mem_range_iff hist.valid hkey' x).mp hx
    rfl

/-- **The rows of a histogram** that counts `xs`. -/
theorem exact_printHistogram (h : hist.Counts xs) :
    Exact xs (UInt64.ofNat xs.length) (printHistogram hist) where
  disjoint := disjoint_printHistogram hist
  count := fun r hr => count_printHistogram h hr
  sum := by
    rw [sum_printHistogram hist (g := fun c => c) rfl, ← Hg64.sum_countP hist.valid xs, ofNat_sum,
      List.map_map]
    refine congrArg List.sum (List.map_congr_left fun key hmem => ?_)
    exact h key (List.mem_range.mp hmem)
  one := fun hlen x hx => existsUnique_row (getKeyCount_ne_zero h hlen hx)
  count_nat := by
    intro hlen r hr
    rw [count_printHistogram h hr,
      UInt64.toNat_ofNat_of_lt' (lt_of_le_of_lt List.countP_le_length hlen)]
  sum_nat := by
    intro hlen
    refine ⟨?_, UInt64.toNat_ofNat_of_lt' hlen⟩
    rw [sum_printHistogram hist (g := UInt64.toNat) rfl, ← Hg64.sum_countP hist.valid xs]
    refine congrArg List.sum (List.map_congr_left fun key hmem => ?_)
    exact toNat_getKeyCount h hlen (List.mem_range.mp hmem)

end Rows

/-! ### Threads and totals -/

/-- The histogram of a series. -/
def HistStats.histogram (s : HistStats) : Kind → Option Histogram
  | .response => s.latency
  | .connection => s.connLatency

/-- A counter of it. -/
def HistStats.count (s : HistStats) (k : Kind) (key : Nat) : UInt64 :=
  ((s.histogram k).map (·.getKeyCount key)).getD 0

theorem createHistogram_true : ∃ hist, createHistogram true = some hist ∧ hist.Counts [] :=
  ⟨⟨fun _ => none, by decide⟩, rfl, Hg64.counts_hg64Create rfl⟩

theorem histogram_record (s : HistStats) (e : Event) (k : Kind) :
    (s.record e).histogram k =
      (e.latency k).elim (s.histogram k) fun x => (s.histogram k).map (·.hg64Inc x) := by
  cases e with
  | net event elapsed => cases event <;> cases k <;> rfl
  | _ => cases k <;> rfl

/-- **A thread's histogram counts its latencies.** -/
theorem runHist_counts (es : List Event) (k : Kind) :
    ∃ hist, (runHist true es).histogram k = some hist ∧ hist.Counts (latencies k es) := by
  induction es using List.reverseRecOn with
  | nil => cases k <;> exact createHistogram_true
  | append_singleton es e ih =>
      obtain ⟨hist, hhist, hcounts⟩ := ih
      rw [runHist, List.foldl_concat, histogram_record, latencies_concat]
      change ∃ hist, (e.latency k).elim ((runHist true es).histogram k) (fun x =>
        ((runHist true es).histogram k).map (·.hg64Inc x)) = some hist ∧ _
      rw [hhist]
      cases e.latency k with
      | none => exact ⟨hist, rfl, by rwa [Option.toList_none, List.append_nil]⟩
      | some x => exact ⟨hist.hg64Inc x, rfl, hcounts.hg64Inc x⟩

theorem runHist_stats (latencyHistogram : Bool) (es : List Event) :
    (runHist latencyHistogram es).stats = run es := by
  induction es using List.reverseRecOn with
  | nil => rfl
  | append_singleton es e ih =>
      rw [runHist, List.foldl_concat, run_concat, ← ih]
      rfl

theorem mergeHistograms_counts {β : Type} {ts : List β} {f : β → List UInt64}
    {g : β → Option Histogram} (h : ∀ t ∈ ts, ∃ hist, g t = some hist ∧ hist.Counts (f t)) :
    ∃ hist, (ts.map g).foldl mergeHistogram (createHistogram true) = some hist ∧
      hist.Counts (ts.flatMap f) := by
  induction ts using List.reverseRecOn with
  | nil => exact createHistogram_true
  | append_singleton ts t ih =>
      obtain ⟨hts, ht⟩ := List.forall_mem_append.mp h
      obtain ⟨total, htotal, hcounts⟩ := ih hts
      obtain ⟨hist, hhist, hcounts'⟩ := ht t (List.mem_singleton_self t)
      refine ⟨total.hg64Merge hist, ?_, ?_⟩
      · rw [List.map_append, List.foldl_append, htotal, List.map_singleton, List.foldl_cons,
          List.foldl_nil, hhist]
        rfl
      · rw [List.flatMap_append, List.flatMap_singleton]
        exact hcounts.hg64Merge hcounts'

theorem sumHistStats_histogram (latencyHistogram : Bool) (threads : List HistStats) (k : Kind) :
    (sumHistStats latencyHistogram threads).histogram k =
      (threads.map (·.histogram k)).foldl mergeHistogram (createHistogram latencyHistogram) := by
  cases k <;> rfl

/-- The total that `sum_stats` takes of threads with these events. -/
def totalOf (threads : List (List Event)) : HistStats :=
  sumHistStats true (threads.map (runHist true))

/-- **The total's histogram counts all latencies.** -/
theorem totalOf_counts (threads : List (List Event)) (k : Kind) :
    ∃ hist, (totalOf threads).histogram k = some hist ∧
      hist.Counts (threads.flatMap (latencies k)) := by
  rw [totalOf, sumHistStats_histogram, List.map_map]
  exact mergeHistograms_counts fun es _ => runHist_counts es k

theorem totalOf_num (threads : List (List Event)) (k : Kind) :
    ((totalOf threads).stats.series k).num =
      UInt64.ofNat (threads.flatMap (latencies k)).length := by
  have hstats : (totalOf threads).stats = sumStats (threads.map run) := by
    unfold totalOf sumHistStats
    rw [List.map_map]
    exact congrArg sumStats (List.map_congr_left fun es _ => runHist_stats true es)
  rw [hstats]
  exact (sumStats_sums fun es _ => run_sums es k).num

/-! ### Intervals -/

section Intervals

variable {last now : HistStats} {k : Kind} {key : Nat}

theorem diffStats_histogram (last now : HistStats) (k : Kind) :
    (diffStats true last now).histogram k = diffHistogram (last.histogram k) (now.histogram k) := by
  cases k <;> rfl

/-- **An interval counts what the total has more** than the one before. -/
theorem diffStats_count (hnow : (now.histogram k).isSome = true)
    (hkey : key < keys histogramSigbits) :
    ((diffStats true last now).histogram k).isSome = true ∧
      (diffStats true last now).count k key = now.count k key - last.count k key := by
  obtain ⟨diff, hcreate, -⟩ := createHistogram_true
  have hdiff : Hg64.hg64Create histogramSigbits = some diff := hcreate
  have hzero := Hg64.getKeyCount_hg64Create hdiff key
  obtain ⟨now', hnow⟩ := Option.isSome_iff_exists.mp hnow
  unfold HistStats.count
  rw [diffStats_histogram, hnow]
  unfold diffHistogram
  rw [hdiff]
  cases last.histogram k with
  | none =>
      refine ⟨rfl, ?_⟩
      simp only [Option.map_some, Option.getD_some, Option.map_none, Option.getD_none]
      rw [Hg64.getKeyCount_hg64Merge diff now' hkey, hzero, UInt64.zero_add, UInt64.sub_zero]
  | some last' =>
      refine ⟨rfl, ?_⟩
      simp only [Option.map_some, Option.getD_some]
      rw [Hg64.getKeyCount_hg64Diff now' last' diff hkey, hzero, UInt64.zero_add]

variable {totals : List HistStats}

theorem doIntervalStats_isSome (htotals : ∀ t ∈ totals, (t.histogram k).isSome = true)
    (hkey : 0 < keys histogramSigbits) (last : HistStats) :
    ∀ d ∈ doIntervalStats true last totals, (d.histogram k).isSome = true := by
  induction totals generalizing last with
  | nil => exact fun d hd => absurd hd List.not_mem_nil
  | cons total totals ih =>
      obtain ⟨htotal, htotals⟩ := List.forall_mem_cons.mp htotals
      exact List.forall_mem_cons.mpr ⟨(diffStats_count htotal hkey).1, ih htotals total⟩

theorem sum_doIntervalStats (htotals : ∀ t ∈ totals, (t.histogram k).isSome = true)
    (hkey : key < keys histogramSigbits) (last : HistStats) :
    ((doIntervalStats true last totals).map (·.count k key)).sum =
      (totals.getLast?.getD last).count k key - last.count k key := by
  induction totals generalizing last with
  | nil => exact (UInt64.sub_self _).symm
  | cons total totals ih =>
      obtain ⟨htotal, htotals⟩ := List.forall_mem_cons.mp htotals
      rw [doIntervalStats, List.map_cons, List.sum_cons, ih htotals total,
        (diffStats_count htotal hkey).2, List.getLast?_cons, Option.getD_some]
      exact sub_add_sub_cancel' _ _ _

theorem sum_toNat_doIntervalStats (htotals : ∀ t ∈ totals, (t.histogram k).isSome = true)
    (hkey : key < keys histogramSigbits) (last : HistStats)
    (hmono : ((last :: totals).map (·.count k key)).Pairwise (· ≤ ·)) :
    ((doIntervalStats true last totals).map fun d => (d.count k key).toNat).sum + 
      (last.count k key).toNat = ((totals.getLast?.getD last).count k key).toNat := by
  induction totals generalizing last with
  | nil => exact Nat.zero_add _
  | cons total totals ih =>
      obtain ⟨htotal, htotals⟩ := List.forall_mem_cons.mp htotals
      rw [List.map_cons, List.pairwise_cons] at hmono
      have hle : last.count k key ≤ total.count k key := hmono.1 _ List.mem_cons_self
      have hrest := ih htotals total hmono.2
      rw [List.getLast?_cons, Option.getD_some, ← hrest, doIntervalStats, List.map_cons,
        List.sum_cons, (diffStats_count htotal hkey).2, UInt64.toNat_sub_of_le _ _ hle]
      have := UInt64.le_iff_toNat_le.mp hle
      omega

end Intervals

/-- **The latency histograms are exact**, of responses (`print_histogram` prints it) and of
connections: the rows printed of the total are those of all latencies, and the histograms of the
intervals add up to that of the last total, counter by counter. -/
theorem histograms_exact (k : Kind) (threads : List (List Event))
    (snapshots : List (List (List Event))) :
    (∃ hist, (totalOf threads).histogram k = some hist ∧
      Exact (threads.flatMap (latencies k)) ((totalOf threads).stats.series k).num
        (printHistogram hist)) ∧
      (∀ d ∈ doIntervalStats true .zero (snapshots.map totalOf), (d.histogram k).isSome = true) ∧
      ∀ last ∈ (snapshots.map totalOf).getLast?, ∀ key < keys histogramSigbits,
        ((doIntervalStats true .zero (snapshots.map totalOf)).map (·.count k key)).sum =
            last.count k key ∧
          (((snapshots.map totalOf).map (·.count k key)).Pairwise (· ≤ ·) →
            ((doIntervalStats true .zero (snapshots.map totalOf)).map
              fun d => (d.count k key).toNat).sum = (last.count k key).toNat) := by
  have hsome : ∀ t ∈ snapshots.map totalOf, (t.histogram k).isSome = true := by
    intro t ht
    obtain ⟨threads, -, rfl⟩ := List.mem_map.mp ht
    obtain ⟨hist, hhist, -⟩ := totalOf_counts threads k
    rw [hhist]
    rfl
  have hzero : ∀ key, HistStats.zero.count k key = 0 := by
    intro key
    cases k <;> rfl
  refine ⟨?_, doIntervalStats_isSome hsome (by decide) .zero, ?_⟩
  · obtain ⟨hist, hhist, hcounts⟩ := totalOf_counts threads k
    refine ⟨hist, hhist, ?_⟩
    rw [totalOf_num]
    exact exact_printHistogram hcounts
  · intro last hlast key hkey
    have hlast : (snapshots.map totalOf).getLast?.getD .zero = last := by
      rw [Option.mem_def.mp hlast]
      rfl
    refine ⟨?_, fun hmono => ?_⟩
    · rw [sum_doIntervalStats hsome hkey .zero, hlast, hzero, UInt64.sub_zero]
    · have hsum := sum_toNat_doIntervalStats hsome hkey .zero (by
        rw [List.map_cons, List.pairwise_cons]
        refine ⟨fun c _ => ?_, hmono⟩
        rw [hzero]
        exact UInt64.zero_le)
      rw [hlast, hzero] at hsum
      exact hsum

/-- Three responses in two threads. -/
def twoThreads (rcode : Fin 16) : List (List Event) :=
  [[.completed 3 rcode 45, .completed 100 rcode 45], [.completed 101 rcode 60]]

/-- All at once, and in two intervals of which the first has none. -/
theorem histograms_exact_two_threads :
    (∃ hist, (totalOf (twoThreads 0)).histogram .response = some hist ∧
      Exact [3, 100, 101] 3 (printHistogram hist)) ∧
      ((doIntervalStats true .zero ([[[], []], twoThreads 0].map totalOf)).map
        fun d => (d.count .response 82).toNat).sum = 2 := by
  obtain ⟨hrows, -, hintervals⟩ :=
    histograms_exact .response (twoThreads 0) [[[], []], twoThreads 0]
  have hnum : ((totalOf (twoThreads 0)).stats.series .response).num = 3 := by decide
  have hcount : (totalOf (twoThreads 0)).count .response 82 = 2 := by decide +kernel
  refine ⟨?_, ?_⟩
  · rw [hnum] at hrows
    exact hrows
  · have hsum := (hintervals (totalOf (twoThreads 0)) rfl 82 (by decide)).2 (by decide +kernel)
    rw [hcount] at hsum
    exact hsum

example :
    (totalOf (twoThreads 0)).latency.map printHistogram = some [⟨3, 3, 1⟩, ⟨100, 101, 2⟩] := by
  decide +kernel

end Dnsperf.Stats
