import Mathlib.Algebra.BigOperators.Fin
import Mathlib.Algebra.Order.Chebyshev
import Dnsperf.Histogram

/-!
# Dnsperf.Report

`print_statistics` and `stddev` (`dnsperf.c`): what is printed, with numbers in place of texts.
Where the source computes with `double`, the numbers here are exact.

The square of the standard deviation is not negative as long as the sum of the squares stays
within its 64 bits: then it is Cauchy's inequality for the latencies that were recorded
(`variance_nonneg`). The rows under `connection count` are those of the responses, because
`stats->latency` is printed in both places (`connection_count_exact_iff`).
-/

namespace Dnsperf.Stats

/-! ### `print_statistics` -/

/-- The options that `print_statistics` looks at. -/
structure ReportConfig where
  updates : Bool
  latencyHistogram : Bool

/-- `times_t`. -/
structure Times where
  startTime : UInt64
  endTime : UInt64

/-- `%u.%06u`: seconds and microseconds, each cut to an `unsigned int`. -/
def secondsOf (time : UInt64) : UInt32 × UInt32 :=
  ((time / 1000000).toUInt32, (time % 1000000).toUInt32)

/-- `PERF_SAFE_DIV`, of integers. -/
def safeDiv (n d : UInt64) : UInt64 := if d = 0 then 0 else n / d

/-- `PERF_SAFE_DIV(100.0 * n, d)`. -/
def percentage (n d : UInt64) : ℚ := if d = 0 then 0 else 100 * n.toNat / d.toNat

/-- What `stddev` takes the square root of. -/
def stddevSquared (sumOfSquares sum total : UInt64) : ℚ :=
  let squared : ℚ := sum.toNat * sum.toNat
  (sumOfSquares.toNat - squared / total.toNat) / (total - 1).toNat

/-- What is printed of a series of latencies. -/
structure LatencyReport where
  average : UInt32 × UInt32
  /-- The minimum and the maximum, at the end of a run. -/
  range : Option ((UInt32 × UInt32) × (UInt32 × UInt32))
  /-- The square of `Latency StdDev`. -/
  variance : Option ℚ
  /-- The rows of `print_histogram`. -/
  rows : Option (List Row)

/-- The lines from `Average Latency` on, which are printed for responses and for connections. -/
def latencyReport (config : ReportConfig) (now : UInt64) (s : Series) (hist : Option Histogram) :
    LatencyReport where
  average := secondsOf (safeDiv s.sum s.num)
  range := if now = 0 then some (secondsOf s.min, secondsOf s.max) else none
  variance := if 1 < s.num then some (stddevSquared s.sumSquares s.sum s.num) else none
  rows := if 1 < s.num ∧ config.latencyHistogram then hist.map printHistogram else none

/-- `Connection Statistics`. -/
structure ConnectionReport where
  attempts : UInt64
  successful : UInt64
  successfulPercent : ℚ
  latency : LatencyReport

/-- What `print_statistics` prints. -/
structure Report where
  /-- `Updates` or `Queries`. -/
  updates : Bool
  /-- `Interval Statistics`. -/
  interval : Bool
  sent : UInt64
  completed : UInt64 × ℚ
  lost : UInt64 × ℚ
  interrupted : Option (UInt64 × ℚ)
  /-- The counts that are not 0, with their part of all responses. -/
  rcodes : List (Fin 16 × UInt64 × ℚ)
  /-- `Average packet size`, of requests and of responses. -/
  packetSize : UInt32 × UInt32
  runTime : UInt32 × UInt32
  perSecond : ℚ
  latency : LatencyReport
  connections : Option ConnectionReport

/-- `print_statistics`. -/
def printStatistics (config : ReportConfig) (times : Times) (s : HistStats)
    (now intervalTime : UInt64) : Report :=
  let stats := s.stats
  let num := stats.latency.num
  let runTime := if now ≠ 0 then now - times.startTime else times.endTime - times.startTime
  let duration := if now ≠ 0 then intervalTime else runTime
  { updates := config.updates
    interval := now ≠ 0
    sent := stats.numSent
    completed := (num, percentage num stats.numSent)
    lost := (stats.numTimedout, percentage stats.numTimedout stats.numSent)
    interrupted :=
      if 0 < stats.numInterrupted then
        some (stats.numInterrupted, percentage stats.numInterrupted stats.numSent)
      else none
    rcodes := (List.finRange 16).filterMap fun i =>
      let count := stats.rcodecounts i
      if count = 0 then none else some (i, count, count.toNat * 100 / num.toNat)
    packetSize := ((safeDiv stats.totalRequestSize stats.numSent).toUInt32,
      (safeDiv stats.totalResponseSize num).toUInt32)
    runTime := secondsOf runTime
    perSecond := if duration = 0 then 0 else num.toNat / (duration.toNat / 1000000)
    latency := latencyReport config now stats.latency s.latency
    connections :=
      if stats.connLatency.num = 0 ∧ stats.numConnAttempts = 0 then none
      else
        some
          { attempts := stats.numConnAttempts
            successful := stats.connLatency.num
            successfulPercent := percentage stats.connLatency.num stats.numConnAttempts
            -- the histogram is that of the responses here too
            latency := latencyReport config now stats.connLatency s.latency } }

/-! ### The variance -/

/-- Cauchy's inequality for a list. -/
theorem sq_sum_le (xs : List Nat) : xs.sum ^ 2 ≤ xs.length * (xs.map fun x => x * x).sum := by
  have h := sq_sum_le_card_mul_sum_sq (s := Finset.univ) (f := fun i : Fin xs.length => xs[i.1])
  rw [Fin.sum_univ_getElem, Fin.sum_univ_fun_getElem xs fun x => x ^ 2, Finset.card_univ,
    Fintype.card_fin] at h
  simpa only [sq, Nat.cast_id] using h

theorem sum_le_sum_squares (xs : List Nat) : xs.sum ≤ (xs.map fun x => x * x).sum := by
  induction xs with
  | nil => exact le_rfl
  | cons x xs ih =>
      rw [List.sum_cons, List.map_cons, List.sum_cons]
      exact Nat.add_le_add (Nat.le_mul_self x) ih

theorem sum_eq_ofNat {α : Type} (f : α → UInt64) (g : α → Nat) (h : ∀ a, f a = UInt64.ofNat (g a))
    (l : List α) : (l.map f).sum = UInt64.ofNat (l.map g).sum := by
  rw [ofNat_sum, List.map_map]
  exact congrArg List.sum (List.map_congr_left fun a _ => h a)

variable {xs : List UInt64} {s : Series}

theorem Series.Sums.toNat_of_lt (h : s.Sums xs) (hnum : xs.length < 2 ^ 64)
    (hsquares : (xs.map fun x => x.toNat * x.toNat).sum < 2 ^ 64) :
    s.num.toNat = xs.length ∧ s.sum.toNat = (xs.map UInt64.toNat).sum ∧
      s.sumSquares.toNat = (xs.map fun x => x.toNat * x.toNat).sum := by
  have hle := sum_le_sum_squares (xs.map UInt64.toNat)
  rw [List.map_map] at hle
  have hsum : s.sum = UInt64.ofNat (xs.map UInt64.toNat).sum := by
    rw [h.sum, ← sum_eq_ofNat id UInt64.toNat (fun x => (UInt64.ofNat_toNat).symm), List.map_id]
  have hsumSquares : s.sumSquares = UInt64.ofNat (xs.map fun x => x.toNat * x.toNat).sum := by
    rw [h.sumSquares]
    refine sum_eq_ofNat _ _ (fun x => ?_) xs
    rw [UInt64.ofNat_mul, UInt64.ofNat_toNat]
  rw [h.num, hsum, hsumSquares]
  exact ⟨UInt64.toNat_ofNat_of_lt' hnum, UInt64.toNat_ofNat_of_lt' (hle.trans_lt hsquares),
    UInt64.toNat_ofNat_of_lt' hsquares⟩

/-- The fields of a series leave nothing negative. -/
structure Series.Spread (s : Series) : Prop where
  cauchy : s.sum.toNat ^ 2 ≤ s.num.toNat * s.sumSquares.toNat
  radicand : 0 ≤ stddevSquared s.sumSquares s.sum s.num

theorem Series.spread_of_cauchy (h : s.sum.toNat ^ 2 ≤ s.num.toNat * s.sumSquares.toNat) :
    s.Spread := by
  refine ⟨h, ?_⟩
  have hq : (s.sum.toNat * s.sum.toNat : ℚ) ≤ s.sumSquares.toNat * s.num.toNat := by
    rw [sq, Nat.mul_comm s.num.toNat] at h
    exact_mod_cast h
  have hdiv : (s.sum.toNat * s.sum.toNat : ℚ) / s.num.toNat ≤ s.sumSquares.toNat :=
    div_le_of_le_mul₀ (Nat.cast_nonneg _) (Nat.cast_nonneg _) hq
  exact div_nonneg (sub_nonneg.mpr hdiv) (Nat.cast_nonneg _)

theorem Series.Sums.spread (h : s.Sums xs) (hnum : xs.length < 2 ^ 64)
    (hsquares : (xs.map fun x => x.toNat * x.toNat).sum < 2 ^ 64) : s.Spread := by
  obtain ⟨hnum', hsum', hsquares'⟩ := h.toNat_of_lt hnum hsquares
  refine Series.spread_of_cauchy ?_
  have hcauchy := sq_sum_le (xs.map UInt64.toNat)
  rw [List.length_map, List.map_map] at hcauchy
  rw [hnum', hsum', hsquares']
  exact hcauchy

/-- **The variance is not negative**, of responses and of connections, in each thread and in the
total, as long as the squares of all latencies add up to less than `2^64`. -/
theorem variance_nonneg (k : Kind) (threads : List (List Event))
    (hnum : (threads.flatMap (latencies k)).length < 2 ^ 64)
    (hsquares : ((threads.flatMap (latencies k)).map fun x => x.toNat * x.toNat).sum < 2 ^ 64) :
    (∀ es ∈ threads, ((run es).series k).Spread) ∧
      ((sumStats (threads.map run)).series k).Spread := by
  refine ⟨fun es hes => ?_, (sumStats_sums fun es _ => run_sums es k).spread hnum hsquares⟩
  have hsub : (latencies k es).Sublist (threads.flatMap (latencies k)) := by
    rw [List.flatMap_def]
    exact List.sublist_flatten_of_mem (List.mem_map_of_mem hes)
  refine (run_sums es k).spread (hsub.length_le.trans_lt hnum) ?_
  exact (List.Sublist.sum_le_sum (hsub.map _) fun _ _ => Nat.zero_le _).trans_lt hsquares

/-- Two threads with latencies of 3, 5 and 4. -/
theorem variance_nonneg_two_threads :
    (sumStats
      ([[.completed 3 0 45, .completed 5 0 45], [.completed 4 0 45]].map run)).latency.Spread := by
  exact (variance_nonneg .response [[.completed 3 0 45, .completed 5 0 45], [.completed 4 0 45]]
    (by decide) (by decide)).2

theorem Series.Sums.of_replicate {n : Nat} {x : UInt64} (h : s.Sums (List.replicate n x)) :
    s.num = UInt64.ofNat n ∧ s.sum = UInt64.ofNat n * x ∧
      s.sumSquares = UInt64.ofNat n * (x * x) := by
  have hsum (y : UInt64) : (List.replicate n y).sum = UInt64.ofNat n * y := by
    clear h
    induction n with
    | zero => exact (UInt64.zero_mul).symm
    | succ n ih =>
        rw [List.replicate_succ, List.sum_cons, ih, UInt64.ofNat_add, UInt64.add_mul,
          UInt64.add_comm]
        exact congrArg _ (UInt64.one_mul y).symm
  refine ⟨?_, ?_, ?_⟩
  · rw [h.num, List.length_replicate]
  · rw [h.sum, hsum]
  · rw [h.sumSquares, List.map_replicate, hsum]

theorem run_latency_sums (es : List Event) : (run es).latency.Sums (latencies .response es) :=
  run_sums es .response

/-- `2^20` responses, each after 4.194304 seconds. -/
def slowResponses (rcode : Fin 16) : List Event :=
  List.replicate (2 ^ 20) (.completed 4194304 rcode 45)

theorem latencies_slowResponses (rcode : Fin 16) :
    latencies .response (slowResponses rcode) = List.replicate (2 ^ 20) 4194304 :=
  List.filterMap_replicate_of_some rfl

/-- **A negative variance**, with latencies below the default timeout of 5 seconds: the squares
add up to `2^64`. -/
theorem variance_negative :
    (∀ x ∈ latencies .response (slowResponses 0), x < 5 * 1000000) ∧
      (run (slowResponses 0)).latency.num = 1048576 ∧
      (run (slowResponses 0)).latency.sum = 4398046511104 ∧
      (run (slowResponses 0)).latency.sumSquares = 0 ∧
      stddevSquared (run (slowResponses 0)).latency.sumSquares (run (slowResponses 0)).latency.sum
        (run (slowResponses 0)).latency.num < 0 := by
  have hsums := run_latency_sums (slowResponses 0)
  rw [latencies_slowResponses] at hsums ⊢
  -- the run itself is too long to be evaluated
  generalize (run (slowResponses 0)).latency = s at hsums ⊢
  obtain ⟨hnum, hsum, hsquares⟩ := hsums.of_replicate
  rw [show UInt64.ofNat (2 ^ 20) = 1048576 from rfl] at hnum hsum hsquares
  have hwrapped : (1048576 : UInt64) * (4194304 * 4194304) = 0 := by decide
  rw [hwrapped] at hsquares
  refine ⟨fun x hx => ?_, hnum, hsum, hsquares, ?_⟩
  · rw [List.eq_of_mem_replicate hx]
    decide
  · rw [hnum, hsum, hsquares]
    decide +kernel

/-! ### The connection histogram -/

/-- Two lists with the same counters. -/
def Alike (xs ys : List UInt64) : Prop :=
  ∀ key < keys histogramSigbits,
    UInt64.ofNat (xs.countP fun x => valueToKey histogramSigbits x = key) =
      UInt64.ofNat (ys.countP fun y => valueToKey histogramSigbits y = key)

variable {ys : List UInt64} {hist : Histogram}

theorem Alike.counts (h : Alike xs ys) (hcounts : hist.Counts xs) : hist.Counts ys :=
  fun key hkey => (hcounts key hkey).trans (h key hkey)

/-- The rows of one list are exact for another only if the two are alike. -/
theorem alike_of_exact (hcounts : hist.Counts xs) {num : UInt64}
    (h : Exact ys num (printHistogram hist)) (hlen : ys.length < 2 ^ 64) : Alike xs ys := by
  intro key hkey
  rw [← hcounts key hkey]
  by_cases hzero : hist.getKeyCount key = 0
  · -- a latency with this key would be in a row
    have hnone : ys.countP (fun y => valueToKey histogramSigbits y = key) = 0 := by
      refine List.countP_eq_zero.mpr fun y hy hbucket => ?_
      obtain ⟨r, ⟨hr, hholds⟩, -⟩ := h.one hlen y hy
      obtain ⟨key', hkey', hne, rfl⟩ := mem_printHistogram.mp hr
      have heq := (mem_range_iff hist.valid hkey' y).mp hholds
      rw [← heq, of_decide_eq_true hbucket] at hne
      exact hne hzero
    rw [hzero, hnone]
    rfl
  · have hcount := h.count _ (mem_printHistogram.mpr ⟨key, hkey, hzero, rfl⟩)
    simpa only [Row.Holds, mem_range_iff hist.valid hkey] using hcount

/-- **The connection histogram describes connections** only if the latencies of the responses are
spread like those of the connections. With a histogram and more than one connection there are
rows under `connection count`; they are exact if the two are alike, and only then, as long as the
number of connections does not wrap. -/
theorem connection_count_exact_iff (config : ReportConfig)
    (hconfig : config.latencyHistogram = true) (times : Times) (now intervalTime : UInt64)
    (threads : List (List Event))
    (hnum : 1 < ((totalOf threads).stats.series .connection).num) :
    ∃ report rows, (printStatistics config times (totalOf threads) now intervalTime).connections =
        some report ∧ report.latency.rows = some rows ∧
      (Alike (threads.flatMap (latencies .response)) (threads.flatMap (latencies .connection)) →
        Exact (threads.flatMap (latencies .connection))
          ((totalOf threads).stats.series .connection).num rows) ∧
      ((threads.flatMap (latencies .connection)).length < 2 ^ 64 →
        Exact (threads.flatMap (latencies .connection))
          ((totalOf threads).stats.series .connection).num rows →
        Alike (threads.flatMap (latencies .response))
          (threads.flatMap (latencies .connection))) := by
  obtain ⟨hist, hhist, hcounts⟩ := totalOf_counts threads .response
  have hhist : (totalOf threads).latency = some hist := hhist
  have hsome : ¬((totalOf threads).stats.connLatency.num = 0 ∧
      (totalOf threads).stats.numConnAttempts = 0) := by
    rintro ⟨hzero, -⟩
    have hnum : 1 < (totalOf threads).stats.connLatency.num := hnum
    rw [hzero] at hnum
    exact absurd hnum (by decide)
  refine ⟨_, printHistogram hist, if_neg hsome, ?_, fun halike => ?_, fun hlen hexact => ?_⟩
  · simp only [latencyReport]
    rw [if_pos ⟨hnum, hconfig⟩, hhist]
    rfl
  · rw [totalOf_num]
    exact exact_printHistogram (halike.counts hcounts)
  · exact alike_of_exact hcounts hexact hlen

/-- Responses and connections with the same latencies. -/
theorem connection_count_exact_iff_alike :
    ∃ report rows, (printStatistics ⟨false, true⟩ ⟨0, 1000⟩
        (totalOf [[.net .connecting 0, .net .connected 3, .completed 3 0 45],
          [.net .connecting 0, .net .connected 7, .completed 7 0 45]]) 0 0).connections =
        some report ∧
      report.latency.rows = some rows ∧ Exact [3, 7] 2 rows := by
  obtain ⟨report, rows, hreport, hrows, halike, -⟩ :=
    connection_count_exact_iff ⟨false, true⟩ rfl ⟨0, 1000⟩ 0 0
      [[.net .connecting 0, .net .connected 3, .completed 3 0 45],
        [.net .connecting 0, .net .connected 7, .completed 7 0 45]] (by decide)
  exact ⟨report, rows, hreport, hrows, halike fun _ _ => rfl⟩

/-- **Responses under `connection count`**: two connections that took 100 microseconds, and three
responses after 3. -/
theorem connection_count_of_responses :
    ∃ report rows, (printStatistics ⟨false, true⟩ ⟨0, 1000⟩
        (totalOf [[.net .connecting 0, .net .connected 100, .completed 3 0 45, .completed 3 0 45,
          .net .reconnecting 0, .net .reconnected 100, .completed 3 0 45]]) 0 0).connections =
        some report ∧
      report.successful = 2 ∧ report.latency.rows = some rows ∧ rows = [⟨3, 3, 3⟩] ∧
      ¬ Exact [100, 100] 2 rows := by
  have hrows : (totalOf [[.net .connecting 0, .net .connected 100, .completed 3 0 45,
      .completed 3 0 45, .net .reconnecting 0, .net .reconnected 100,
      .completed 3 0 45]]).latency.map printHistogram = some [⟨3, 3, 3⟩] := by
    decide +kernel
  refine ⟨_, _, rfl, by decide, hrows, rfl, fun hexact => ?_⟩
  exact absurd hexact.sum (by decide)

end Dnsperf.Stats
