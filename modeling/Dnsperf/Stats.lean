import Mathlib.Data.UInt
import Mathlib.Algebra.BigOperators.Group.List.Basic
import Dnsperf.Thread.Model

/-!
# Dnsperf.Stats

`stats_t` in its 64 bits: what the events of a thread make of it, and `sum_stats`, which
adds up the threads. **All sums and maxima of the total are those of a thread that had
seen all events.** The minima are not always: a thread without a response has 0 for its
minimum, and `sum_stats` takes it for one.
-/

namespace Dnsperf.Stats

/-! ### `stats_t` -/

/-- What is kept of a series of latencies: `num_completed`, `latency_sum`,
`latency_sum_squares`, `latency_min` and `latency_max`, or `num_conn_completed` and the
`conn_latency_` fields. -/
@[ext] structure Series where
  num : UInt64
  sum : UInt64
  sumSquares : UInt64
  min : UInt64
  max : UInt64
  deriving DecidableEq

/-- One more latency. -/
def Series.record (s : Series) (latency : UInt64) : Series where
  num := s.num + 1
  sum := s.sum + latency
  sumSquares := s.sumSquares + latency * latency
  min := if latency < s.min ∨ s.num + 1 = 1 then latency else s.min
  max := if s.max < latency then latency else s.max

/-- `stats_t`. -/
@[ext] structure StatsT where
  /-- There are `DNSPERF_STATS_RCODECOUNTS` of them. -/
  rcodecounts : Fin 16 → UInt64
  numSent : UInt64
  numInterrupted : UInt64
  numTimedout : UInt64
  totalRequestSize : UInt64
  totalResponseSize : UInt64
  numConnAttempts : UInt64
  latency : Series
  connLatency : Series
  deriving DecidableEq

/-- What `memset` leaves. -/
def Series.zero : Series := ⟨0, 0, 0, 0, 0⟩

/-- What `memset` leaves. -/
def StatsT.zero : StatsT := ⟨fun _ => 0, 0, 0, 0, 0, 0, 0, .zero, .zero⟩

/-- `perf_socket_event_t`. -/
inductive SocketEvent
  | connecting
  | connected
  | reconnecting
  | reconnected
  deriving Repr, DecidableEq

/-- What a thread counts. -/
inductive Event
  /-- `do_send` has sent a query. -/
  | sent (length : UInt32)
  /-- `process_timeouts`. -/
  | timedout
  /-- `cancel_queries`. -/
  | interrupted
  /-- `do_recv` has matched a response. -/
  | completed (latency : UInt64) (rcode : Fin 16) (size : UInt32)
  /-- `perf__net_event`. -/
  | net (event : SocketEvent) (elapsed : UInt64)
  deriving DecidableEq

namespace StatsT

variable (s : StatsT)

/-- `perf__net_event`. -/
def perfNetEvent (event : SocketEvent) (elapsed : UInt64) : StatsT :=
  match event with
  | .reconnected | .connected => { s with connLatency := s.connLatency.record elapsed }
  | .reconnecting | .connecting => { s with numConnAttempts := s.numConnAttempts + 1 }

/-- What `do_recv` does for a response. -/
def complete (latency : UInt64) (rcode : Fin 16) (size : UInt32) : StatsT :=
  { s with
    totalResponseSize := s.totalResponseSize + size.toUInt64
    rcodecounts := Function.update s.rcodecounts rcode (s.rcodecounts rcode + 1)
    latency := s.latency.record latency }

def record : Event → StatsT
  | .sent length =>
      { s with
        numSent := s.numSent + 1
        totalRequestSize := s.totalRequestSize + length.toUInt64 }
  | .timedout => { s with numTimedout := s.numTimedout + 1 }
  | .interrupted => { s with numInterrupted := s.numInterrupted + 1 }
  | .completed latency rcode size => s.complete latency rcode size
  | .net event elapsed => s.perfNetEvent event elapsed

end StatsT

/-- The statistics of a thread after its events. -/
def run (es : List Event) : StatsT := es.foldl StatsT.record .zero

/-! ### `sum_stats` -/

/-- A series is added to the total, where `first` is `i == 0`. -/
def Series.add (first : Bool) (total s : Series) : Series where
  num := total.num + s.num
  sum := total.sum + s.sum
  sumSquares := total.sumSquares + s.sumSquares
  min := if s.min < total.min ∨ first = true then s.min else total.min
  max := if total.max < s.max then s.max else total.max

/-- A round of the loop of `sum_stats`. -/
def StatsT.add (first : Bool) (total s : StatsT) : StatsT where
  rcodecounts := fun j => total.rcodecounts j + s.rcodecounts j
  numSent := total.numSent + s.numSent
  numInterrupted := total.numInterrupted + s.numInterrupted
  numTimedout := total.numTimedout + s.numTimedout
  totalRequestSize := total.totalRequestSize + s.totalRequestSize
  totalResponseSize := total.totalResponseSize + s.totalResponseSize
  numConnAttempts := total.numConnAttempts + s.numConnAttempts
  latency := Series.add first total.latency s.latency
  connLatency := Series.add first total.connLatency s.connLatency

/-- `sum_stats`. -/
def sumStats (threads : List StatsT) : StatsT :=
  threads.zipIdx.foldl (fun total (s, i) => StatsT.add (i == 0) total s) .zero

/-! ### Series -/

/-- `m` is the least of `xs`, or 0. -/
def Least (xs : List UInt64) (m : UInt64) : Prop :=
  xs = [] ∧ m = 0 ∨ m ∈ xs ∧ ∀ x ∈ xs, m ≤ x

/-- `m` is the greatest of `xs`, or 0. -/
def Greatest (xs : List UInt64) (m : UInt64) : Prop :=
  xs = [] ∧ m = 0 ∨ m ∈ xs ∧ ∀ x ∈ xs, x ≤ m

variable {xs ys : List UInt64} {m n x : UInt64} {s t : Series}

section Extremes

-- `Least` and `Greatest` are this for `≤` and for `≥`
variable (le : UInt64 → UInt64 → Prop)

theorem extreme_unique (hanti : ∀ {x y}, le x y → le y x → x = y)
    (h : xs = [] ∧ m = 0 ∨ m ∈ xs ∧ ∀ x ∈ xs, le m x)
    (h' : xs = [] ∧ n = 0 ∨ n ∈ xs ∧ ∀ x ∈ xs, le n x) : m = n := by
  rcases h with ⟨hnil, rfl⟩ | ⟨hmem, hle⟩ <;> rcases h' with ⟨hnil', rfl⟩ | ⟨hmem', hle'⟩
  · rfl
  · rw [hnil] at hmem'
    exact absurd hmem' List.not_mem_nil
  · rw [hnil'] at hmem
    exact absurd hmem List.not_mem_nil
  · exact hanti (hle n hmem') (hle' m hmem)

theorem extreme_perm (h : xs = [] ∧ m = 0 ∨ m ∈ xs ∧ ∀ x ∈ xs, le m x) (hperm : xs.Perm ys) :
    ys = [] ∧ m = 0 ∨ m ∈ ys ∧ ∀ x ∈ ys, le m x := by
  rcases h with ⟨rfl, rfl⟩ | ⟨hmem, hle⟩
  · exact Or.inl ⟨hperm.nil_eq.symm, rfl⟩
  · exact Or.inr ⟨hperm.mem_iff.mp hmem, fun x hx => hle x (hperm.mem_iff.mpr hx)⟩

end Extremes

theorem Least.unique (h : Least xs m) (h' : Least xs n) : m = n :=
  extreme_unique (· ≤ ·) UInt64.le_antisymm h h'

theorem Greatest.unique (h : Greatest xs m) (h' : Greatest xs n) : m = n :=
  extreme_unique (· ≥ ·) (fun hle hle' => UInt64.le_antisymm hle' hle) h h'

theorem Least.perm (h : Least xs m) (hperm : xs.Perm ys) : Least ys m :=
  extreme_perm (· ≤ ·) h hperm

theorem Greatest.perm (h : Greatest xs m) (hperm : xs.Perm ys) : Greatest ys m :=
  extreme_perm (· ≥ ·) h hperm

theorem Least.append (h : Least xs m) (h' : Least ys n) (hxs : xs ≠ []) (hys : ys ≠ []) :
    Least (xs ++ ys) (if n < m then n else m) := by
  obtain ⟨hmem, hle⟩ := h.resolve_left fun hnil => hxs hnil.1
  obtain ⟨hmem', hle'⟩ := h'.resolve_left fun hnil => hys hnil.1
  refine Or.inr ?_
  rw [List.forall_mem_append]
  split_ifs with hlt
  · exact ⟨List.mem_append_right xs hmem', fun x hx =>
      UInt64.le_trans (UInt64.le_of_lt hlt) (hle x hx), hle'⟩
  · exact ⟨List.mem_append_left ys hmem, hle, fun x hx =>
      UInt64.le_trans (UInt64.not_lt.mp hlt) (hle' x hx)⟩

/-- The maximum of two lists: an empty one has 0, which is no matter. -/
theorem Greatest.append (h : Greatest xs m) (h' : Greatest ys n) :
    Greatest (xs ++ ys) (if m < n then n else m) := by
  rcases h with ⟨rfl, rfl⟩ | ⟨hmem, hle⟩
  · split_ifs with hlt
    · exact h'
    · rwa [UInt64.le_antisymm (UInt64.not_lt.mp hlt) UInt64.zero_le] at h'
  · rcases h' with ⟨rfl, rfl⟩ | ⟨hmem', hle'⟩
    · rw [List.append_nil, if_neg (UInt64.not_lt.mpr UInt64.zero_le)]
      exact Or.inr ⟨hmem, hle⟩
    · refine Or.inr ?_
      rw [List.forall_mem_append]
      split_ifs with hlt
      · exact ⟨List.mem_append_right xs hmem', fun x hx =>
          UInt64.le_trans (hle x hx) (UInt64.le_of_lt hlt), hle'⟩
      · exact ⟨List.mem_append_left ys hmem, hle, fun x hx =>
          UInt64.le_trans (hle' x hx) (UInt64.not_lt.mp hlt)⟩

/-- Everything but the minimum is right for `xs`. -/
structure Series.Sums (xs : List UInt64) (s : Series) : Prop where
  num : s.num = UInt64.ofNat xs.length
  sum : s.sum = xs.sum
  sumSquares : s.sumSquares = (xs.map fun x => x * x).sum
  max : Greatest xs s.max

namespace Series

theorem Sums.zero : Series.Sums [] .zero := ⟨rfl, rfl, rfl, Or.inl ⟨rfl, rfl⟩⟩

theorem Sums.add (h : Sums xs s) (h' : Sums ys t) (first : Bool) :
    Sums (xs ++ ys) (Series.add first s t) where
  num := by rw [List.length_append, UInt64.ofNat_add, ← h.num, ← h'.num]; rfl
  sum := by rw [List.sum_append, ← h.sum, ← h'.sum]; rfl
  sumSquares := by rw [List.map_append, List.sum_append, ← h.sumSquares, ← h'.sumSquares]; rfl
  max := h.max.append h'.max

theorem Sums.perm (h : Sums xs s) (hperm : xs.Perm ys) : Sums ys s where
  num := by rw [h.num, hperm.length_eq]
  sum := by rw [h.sum, hperm.sum_eq]
  sumSquares := by rw [h.sumSquares, (hperm.map _).sum_eq]
  max := h.max.perm hperm

theorem sums_singleton (x : UInt64) : Sums [x] ⟨1, x, x * x, x, x⟩ where
  num := rfl
  sum := by simp
  sumSquares := by simp
  max := Or.inr ⟨List.mem_singleton_self x, List.forall_mem_singleton.mpr UInt64.le_rfl⟩

/-- A latency is recorded like a series of it alone, but for the minimum. -/
theorem Sums.record (h : Sums xs s) (x : UInt64) : Sums (xs ++ [x]) (s.record x) := by
  obtain ⟨hnum, hsum, hsquares, hmax⟩ := h.add (sums_singleton x) false
  exact ⟨hnum, hsum, hsquares, hmax⟩

/-- The rule for the minimum, as long as the number does not wrap. -/
theorem least_record (hnum : s.num = UInt64.ofNat xs.length) (hmin : Least xs s.min)
    (hlen : xs.length + 1 < 2 ^ 64) (x : UInt64) : Least (xs ++ [x]) (s.record x).min := by
  have hx : Least [x] x :=
    Or.inr ⟨List.mem_singleton_self x, List.forall_mem_singleton.mpr UInt64.le_rfl⟩
  by_cases hnil : xs = []
  · rw [hnil] at hnum
    have hfirst : s.num + 1 = 1 := by rw [hnum]; rfl
    rw [Series.record, if_pos (Or.inr hfirst), hnil]
    exact hx
  · have hnot : s.num + 1 ≠ 1 := by
      have hpos : 0 < xs.length := List.length_pos_iff.mpr hnil
      intro hone
      have hzero : UInt64.ofNat xs.length = 0 := hnum.symm.trans (by simpa using hone)
      have htoNat := congrArg UInt64.toNat hzero
      rw [UInt64.toNat_ofNat_of_lt' (by rw [UInt64.size]; omega)] at htoNat
      exact absurd htoNat (Nat.ne_of_gt hpos)
    have happend := hmin.append hx hnil (List.cons_ne_nil x [])
    rw [Series.record]
    simpa only [hnot, or_false] using happend

end Series

/-! ### Events -/

/-- The two series of latencies. -/
inductive Kind
  | response
  | connection
  deriving Repr, DecidableEq

def StatsT.series (s : StatsT) : Kind → Series
  | .response => s.latency
  | .connection => s.connLatency

/-- The latency that an event adds to a series. -/
def Event.latency : Kind → Event → Option UInt64
  | .response, .completed latency _ _ => some latency
  | .connection, .net .connected elapsed => some elapsed
  | .connection, .net .reconnected elapsed => some elapsed
  | _, _ => none

def latencies (k : Kind) (es : List Event) : List UInt64 := es.filterMap (Event.latency k)

/-- The counters that are only added to. -/
inductive Counter
  | rcode (rcode : Fin 16)
  | sent
  | interrupted
  | timedout
  | requestSize
  | responseSize
  | connAttempts

def StatsT.counter (s : StatsT) : Counter → UInt64
  | .rcode rcode => s.rcodecounts rcode
  | .sent => s.numSent
  | .interrupted => s.numInterrupted
  | .timedout => s.numTimedout
  | .requestSize => s.totalRequestSize
  | .responseSize => s.totalResponseSize
  | .connAttempts => s.numConnAttempts

/-- What an event adds to a counter. -/
def Event.adds : Event → Counter → UInt64
  | .sent _, .sent => 1
  | .sent length, .requestSize => length.toUInt64
  | .timedout, .timedout => 1
  | .interrupted, .interrupted => 1
  | .completed _ rcode _, .rcode r => if r = rcode then 1 else 0
  | .completed _ _ size, .responseSize => size.toUInt64
  | .net .connecting _, .connAttempts => 1
  | .net .reconnecting _, .connAttempts => 1
  | _, _ => 0

theorem counter_record (s : StatsT) (e : Event) (c : Counter) :
    (s.record e).counter c = s.counter c + e.adds c := by
  cases e with
  | completed latency rcode size =>
      cases c with
      | rcode r =>
          by_cases hr : r = rcode <;>
            simp [StatsT.record, StatsT.complete, StatsT.counter, Event.adds, hr]
      | _ => simp [StatsT.record, StatsT.complete, StatsT.counter, Event.adds]
  | net event elapsed =>
      cases event <;> cases c <;>
        simp [StatsT.record, StatsT.perfNetEvent, StatsT.counter, Event.adds]
  | _ => cases c <;> simp [StatsT.record, StatsT.counter, Event.adds]

theorem series_record (s : StatsT) (e : Event) (k : Kind) :
    (s.record e).series k = (e.latency k).elim (s.series k) (s.series k).record := by
  cases e with
  | net event elapsed => cases event <;> cases k <;> rfl
  | _ => cases k <;> rfl

theorem counter_add (first : Bool) (s t : StatsT) (c : Counter) :
    (StatsT.add first s t).counter c = s.counter c + t.counter c := by
  cases c <;> rfl

theorem series_add (first : Bool) (s t : StatsT) (k : Kind) :
    (StatsT.add first s t).series k = Series.add first (s.series k) (t.series k) := by
  cases k <;> rfl

theorem StatsT.ext_iff_parts {s t : StatsT} :
    s = t ↔ (∀ c, s.counter c = t.counter c) ∧ ∀ k, s.series k = t.series k := by
  refine ⟨fun h => by rw [h]; exact ⟨fun _ => rfl, fun _ => rfl⟩, fun ⟨hcounter, hseries⟩ => ?_⟩
  exact StatsT.ext (funext fun r => hcounter (.rcode r)) (hcounter .sent) (hcounter .interrupted)
    (hcounter .timedout) (hcounter .requestSize) (hcounter .responseSize)
    (hcounter .connAttempts) (hseries .response) (hseries .connection)

/-- The statistics are those of the events. -/
structure Summarizes (es : List Event) (s : StatsT) : Prop where
  counters : ∀ c, s.counter c = (es.map (Event.adds · c)).sum
  sums : ∀ k, (s.series k).Sums (latencies k es)
  min : ∀ k, Least (latencies k es) (s.series k).min

namespace Summarizes

variable {es es' : List Event} {s s' : StatsT}

theorem unique (h : Summarizes es s) (h' : Summarizes es s') : s = s' := by
  refine StatsT.ext_iff_parts.mpr ⟨fun c => (h.counters c).trans (h'.counters c).symm, fun k => ?_⟩
  have hs := h.sums k
  have hs' := h'.sums k
  exact Series.ext (hs.num.trans hs'.num.symm) (hs.sum.trans hs'.sum.symm)
    (hs.sumSquares.trans hs'.sumSquares.symm) ((h.min k).unique (h'.min k)) (hs.max.unique hs'.max)

end Summarizes

/-! ### One thread -/

theorem run_concat (es : List Event) (e : Event) : run (es ++ [e]) = (run es).record e :=
  List.foldl_concat ..

theorem latencies_concat (k : Kind) (es : List Event) (e : Event) :
    latencies k (es ++ [e]) = latencies k es ++ (e.latency k).toList := by
  rw [latencies, List.filterMap_append, List.filterMap_cons]
  cases e.latency k <;> rfl

theorem run_counter (es : List Event) (c : Counter) :
    (run es).counter c = (es.map (Event.adds · c)).sum := by
  induction es using List.reverseRecOn with
  | nil => cases c <;> rfl
  | append_singleton es e ih =>
      rw [run_concat, counter_record, ih, List.map_append, List.sum_append, List.map_singleton,
        List.sum_singleton]

theorem run_sums (es : List Event) (k : Kind) : ((run es).series k).Sums (latencies k es) := by
  induction es using List.reverseRecOn with
  | nil => cases k <;> exact Series.Sums.zero
  | append_singleton es e ih =>
      rw [run_concat, series_record, latencies_concat]
      cases e.latency k with
      | none => rw [Option.toList_none, List.append_nil]; exact ih
      | some x => exact ih.record x

theorem run_least (es : List Event) (k : Kind) (hnum : (latencies k es).length < 2 ^ 64) :
    Least (latencies k es) ((run es).series k).min := by
  induction es using List.reverseRecOn with
  | nil => exact Or.inl ⟨rfl, by cases k <;> rfl⟩
  | append_singleton es e ih =>
      rw [latencies_concat, List.length_append] at hnum
      have hmin := ih (by omega)
      rw [run_concat, series_record, latencies_concat]
      cases hx : e.latency k with
      | none => rw [Option.toList_none, List.append_nil]; exact hmin
      | some x =>
          rw [hx] at hnum
          exact Series.least_record (run_sums es k).num hmin hnum x

/-- **A thread's statistics are those of its events**, as long as the numbers of responses
and of connections do not wrap. -/
theorem run_summarizes (es : List Event) (hnum : ∀ k, (latencies k es).length < 2 ^ 64) :
    Summarizes es (run es) := ⟨run_counter es, run_sums es, fun k => run_least es k (hnum k)⟩

/-! ### All threads -/

theorem sumStats_concat (threads : List StatsT) (s : StatsT) :
    sumStats (threads ++ [s]) = StatsT.add (threads.length == 0) (sumStats threads) s := by
  rw [sumStats, List.zipIdx_append, List.foldl_append, Nat.zero_add]
  rfl

theorem sumStats_counter (threads : List StatsT) (c : Counter) :
    (sumStats threads).counter c = (threads.map (StatsT.counter · c)).sum := by
  induction threads using List.reverseRecOn with
  | nil => cases c <;> rfl
  | append_singleton threads s ih =>
      rw [sumStats_concat, counter_add, ih, List.map_append, List.sum_append, List.map_singleton,
        List.sum_singleton]

/-- The minimum of the total is the least of the threads' minima. -/
theorem sumStats_min (threads : List StatsT) (k : Kind) :
    Least (threads.map fun s => (s.series k).min) ((sumStats threads).series k).min := by
  induction threads using List.reverseRecOn with
  | nil => exact Or.inl ⟨rfl, by cases k <;> rfl⟩
  | append_singleton threads s ih =>
      have hs : Least [(s.series k).min] (s.series k).min :=
        Or.inr ⟨List.mem_singleton_self _, List.forall_mem_singleton.mpr UInt64.le_rfl⟩
      rw [sumStats_concat, series_add, List.map_append, Series.add]
      by_cases hnil : threads = []
      · rw [hnil]
        simpa using hs
      · have hlen : (threads.length == 0) = false := by simpa using hnil
        rw [hlen]
        simpa using ih.append hs (by simpa using hnil) (List.cons_ne_nil _ [])

variable {β : Type*} {ts : List β} {f : β → List UInt64} {μ : β → UInt64} {g : β → StatsT}

theorem sumStats_sums {k : Kind} (h : ∀ t ∈ ts, ((g t).series k).Sums (f t)) :
    ((sumStats (ts.map g)).series k).Sums (ts.flatMap f) := by
  induction ts using List.reverseRecOn with
  | nil => cases k <;> exact Series.Sums.zero
  | append_singleton ts t ih =>
      obtain ⟨hts, ht⟩ := List.forall_mem_append.mp h
      rw [List.map_append, List.map_singleton, sumStats_concat, series_add, List.flatMap_append,
        List.flatMap_singleton]
      exact (ih hts).add (ht t (List.mem_singleton_self t)) _

/-- No thread is without a latency while another has one, except that 0 is recorded. -/
def NoneIdle (f : β → List UInt64) (ts : List β) : Prop :=
  (∀ t ∈ ts, f t = []) ∨ (∀ t ∈ ts, f t ≠ []) ∨ ∃ t ∈ ts, 0 ∈ f t

theorem Least.eq_zero (h : Least xs m) (hmem : 0 ∈ xs) : m = 0 := by
  rcases h with ⟨rfl, -⟩ | ⟨-, hle⟩
  · exact absurd hmem List.not_mem_nil
  · exact UInt64.le_antisymm (hle 0 hmem) UInt64.zero_le

theorem least_zero (hmem : 0 ∈ xs) : Least xs 0 := Or.inr ⟨hmem, fun _ _ => UInt64.zero_le⟩

/-- **The least of the minima** of several lists is the least of all, unless some are
empty. -/
theorem least_flatMap (hμ : ∀ t ∈ ts, Least (f t) (μ t)) (hm : Least (ts.map μ) m) :
    Least (ts.flatMap f) m ↔ NoneIdle f ts := by
  constructor
  · intro hleast
    by_cases hnone : ∀ t ∈ ts, f t = []
    · exact Or.inl hnone
    · by_cases hall : ∀ t ∈ ts, f t ≠ []
      · exact Or.inr (Or.inl hall)
      · -- an idle thread makes `m` 0, which then is a latency of another
        push Not at hall
        obtain ⟨t, ht, hidle⟩ := hall
        have hzero : μ t = 0 := by
          refine ((hμ t ht).resolve_right fun hmem => ?_).2
          rw [hidle] at hmem
          exact absurd hmem.1 List.not_mem_nil
        have hm0 : m = 0 := hm.eq_zero (hzero ▸ List.mem_map_of_mem ht)
        obtain ⟨hmem, -⟩ := hleast.resolve_left fun hnil =>
          hnone (List.flatMap_eq_nil_iff.mp hnil.1)
        rw [hm0, List.mem_flatMap] at hmem
        exact Or.inr (Or.inr hmem)
  · rintro (hnone | hall | ⟨t, ht, hzero⟩)
    · refine Or.inl ⟨List.flatMap_eq_nil_iff.mpr hnone, ?_⟩
      rcases hm with ⟨-, hm0⟩ | ⟨hmem, -⟩
      · exact hm0
      · obtain ⟨t, ht, rfl⟩ := List.mem_map.mp hmem
        refine ((hμ t ht).resolve_right fun hmem' => ?_).2
        rw [hnone t ht] at hmem'
        exact absurd hmem'.1 List.not_mem_nil
    · rcases hm with ⟨hnil, hm0⟩ | ⟨hmem, hle⟩
      · rw [List.map_eq_nil_iff.mp hnil]
        exact Or.inl ⟨rfl, hm0⟩
      · have hbusy : ∀ t ∈ ts, μ t ∈ f t ∧ ∀ x ∈ f t, μ t ≤ x := fun t ht =>
          (hμ t ht).resolve_left fun hnil => hall t ht hnil.1
        obtain ⟨t, ht, rfl⟩ := List.mem_map.mp hmem
        refine Or.inr ⟨List.mem_flatMap.mpr ⟨t, ht, (hbusy t ht).1⟩, fun x hx => ?_⟩
        obtain ⟨t', ht', hx'⟩ := List.mem_flatMap.mp hx
        exact UInt64.le_trans (hle _ (List.mem_map_of_mem ht')) ((hbusy t' ht').2 x hx')
    · have hm0 : m = 0 := hm.eq_zero (((hμ t ht).eq_zero hzero) ▸ List.mem_map_of_mem ht)
      rw [hm0]
      exact least_zero (List.mem_flatMap.mpr ⟨t, ht, hzero⟩)

theorem latencies_flatten (k : Kind) (threads : List (List Event)) :
    latencies k threads.flatten = threads.flatMap (latencies k) := by
  rw [latencies, List.filterMap_flatten, List.flatMap_def]
  rfl

/-- **`sum_stats` against one thread that sees all events**, in any order. The counters,
the sums and the maxima of the total are always right; so is the whole total if and only
if, of responses and of connections, no thread had none while another had some. -/
theorem sumStats_run (threads : List (List Event)) (all : List Event)
    (hperm : all.Perm threads.flatten) (hnum : ∀ k, (latencies k all).length < 2 ^ 64) :
    Summarizes all (run all) ∧
      (∀ c, (sumStats (threads.map run)).counter c = (run all).counter c) ∧
      (∀ k, ((sumStats (threads.map run)).series k).Sums (latencies k all)) ∧
      (sumStats (threads.map run) = run all ↔ ∀ k, NoneIdle (latencies k) threads) := by
  have hall := run_summarizes all hnum
  have hlatencies : ∀ k, (latencies k all).Perm (threads.flatMap (latencies k)) := by
    intro k
    rw [← latencies_flatten]
    exact hperm.filterMap _
  have heach : ∀ es ∈ threads, Summarizes es (run es) := fun es hes =>
    run_summarizes es fun k => by
      have hle :=
        (List.sublist_flatten_of_mem (List.mem_map_of_mem (f := latencies k) hes)).length_le
      rw [← List.flatMap_def, ← (hlatencies k).length_eq] at hle
      exact hle.trans_lt (hnum k)
  have hcounters : ∀ c, (sumStats (threads.map run)).counter c =
      (all.map (Event.adds · c)).sum := by
    intro c
    have hmap : (threads.map run).map (StatsT.counter · c) =
        threads.map fun es => (es.map (Event.adds · c)).sum := by
      rw [List.map_map]
      exact List.map_congr_left fun es hes => (heach es hes).counters c
    rw [sumStats_counter, hmap, (hperm.map _).sum_eq, List.map_flatten, List.sum_flatten,
      List.map_map]
    rfl
  have hsums : ∀ k, ((sumStats (threads.map run)).series k).Sums (latencies k all) := fun k =>
    (sumStats_sums fun es hes => (heach es hes).sums k).perm (hlatencies k).symm
  -- an idle thread has a minimum of 0, which the sum then takes for its own
  have hmin : ∀ k, Least (latencies k all) ((sumStats (threads.map run)).series k).min ↔
      NoneIdle (latencies k) threads := by
    intro k
    have hleast := sumStats_min (threads.map run) k
    rw [List.map_map] at hleast
    rw [← least_flatMap (fun es hes => (heach es hes).min k) hleast]
    exact ⟨fun h => h.perm (hlatencies k), fun h => h.perm (hlatencies k).symm⟩
  refine ⟨hall, fun c => (hcounters c).trans (hall.counters c).symm, hsums, ?_⟩
  constructor
  · intro heq k
    rw [← hmin k, heq]
    exact hall.min k
  · intro hbusy
    have htotal : Summarizes all (sumStats (threads.map run)) :=
      ⟨hcounters, hsums, fun k => (hmin k).mpr (hbusy k)⟩
    exact htotal.unique hall

/-- Both threads have responses and connections. -/
theorem sumStats_run_two_threads :
    sumStats ([[.net .connecting 0, .net .connected 30, .completed 5000 0 45],
        [.net .connected 20, .sent 29, .completed 7000 3 60, .timedout]].map run) =
      run [.timedout, .net .connected 20, .net .connecting 0, .completed 7000 3 60,
        .net .connected 30, .completed 5000 0 45, .sent 29] := by
  refine (sumStats_run _ _ (by decide) (fun k => ?_)).2.2.2.mpr fun k => Or.inr (Or.inl ?_)
  · cases k <;> decide
  · cases k <;> decide

/-- **A minimum of 0** with one response of 5000, because another thread had none. -/
theorem sumStats_idle_thread :
    (sumStats ([[.completed 5000 0 45], []].map run)).latency.min = 0 ∧
      (run [.completed 5000 0 45]).latency.min = 5000 := by
  decide

/-! ### The counters of a thread -/

/-- The counters that `do_send` and `do_recv` keep in the model of a thread, in 64 bits,
with what `perf__net_event` keeps. -/
def ofThread (s : Thread.Stats) (numConnAttempts : UInt64) (connLatency : Series) : StatsT where
  rcodecounts := fun rcode => UInt64.ofNat (s.rcodecounts rcode)
  numSent := UInt64.ofNat s.numSent
  numInterrupted := UInt64.ofNat s.numInterrupted
  numTimedout := UInt64.ofNat s.numTimedout
  totalRequestSize := UInt64.ofNat s.totalRequestSize
  totalResponseSize := UInt64.ofNat s.totalResponseSize
  numConnAttempts := numConnAttempts
  latency := ⟨UInt64.ofNat s.numCompleted, UInt64.ofNat s.latencySum,
    UInt64.ofNat s.latencySumSquares, UInt64.ofNat s.latencyMin, UInt64.ofNat s.latencyMax⟩
  connLatency := connLatency

section OfThread

variable {t : Thread.ThreadInfo} {r : Thread.ReceivedQuery} {attempts : UInt64} {conn : Series}

theorem ofNat_lt_iff {a b : Nat} (ha : a < 2 ^ 64) (hb : b < 2 ^ 64) :
    UInt64.ofNat a < UInt64.ofNat b ↔ a < b := by
  rw [UInt64.lt_iff_toNat_lt, UInt64.toNat_ofNat_of_lt' ha, UInt64.toNat_ofNat_of_lt' hb]

theorem ofNat_add_mod (a b : Nat) :
    UInt64.ofNat ((a + b) % 2 ^ 64) = UInt64.ofNat a + UInt64.ofNat b := by
  rw [UInt64.ofNat_mod_size, UInt64.ofNat_add]

/-- **A response counted by a thread is this event**, as long as `num_completed` does not
wrap. -/
theorem ofThread_complete (hmatched : r.matched = true) (hrcode : r.rcode < 16)
    (hsize : r.size < 2 ^ 32) (hnum : t.stats.numCompleted + 1 < 2 ^ 64)
    (hmin : t.stats.latencyMin < 2 ^ 64) (hmax : t.stats.latencyMax < 2 ^ 64) :
    ofThread (t.complete r).stats attempts conn =
      (ofThread t.stats attempts conn).record
        (.completed (UInt64.ofNat r.latency) ⟨r.rcode, hrcode⟩ (UInt32.ofNat r.size)) := by
  have hlatency : r.latency < 2 ^ 64 := Nat.mod_lt _ (by decide)
  rw [Thread.ThreadInfo.complete, if_pos hmatched]
  refine StatsT.ext ?_ rfl rfl rfl rfl ?_ rfl ?_ rfl
  · funext rcode
    simp only [ofThread, StatsT.record, StatsT.complete]
    by_cases hr : rcode = ⟨r.rcode, hrcode⟩
    · rw [hr, Function.update_self, if_pos rfl]
      exact UInt64.ofNat_add _ 1
    · rw [Function.update_of_ne hr, if_neg fun heq => hr (Fin.ext heq)]
  · show UInt64.ofNat (t.stats.totalResponseSize + r.size) = UInt64.ofNat _ + _
    rw [UInt64.ofNat_add, UInt32.toUInt64_ofNat' hsize]
  · refine Series.ext (UInt64.ofNat_add _ 1) (ofNat_add_mod _ _) ?_ ?_ ?_
    · exact (ofNat_add_mod _ _).trans (by rw [UInt64.ofNat_mul]; rfl)
    · have hfirst : UInt64.ofNat t.stats.numCompleted + 1 = 1 ↔ t.stats.numCompleted + 1 = 1 := by
        rw [← UInt64.toNat_inj, UInt64.toNat_add,
          UInt64.toNat_ofNat_of_lt' (Nat.lt_of_succ_lt hnum)]
        show (_ + 1) % 2 ^ 64 = 1 ↔ _
        rw [Nat.mod_eq_of_lt hnum]
      show UInt64.ofNat (if _ then _ else _) = if _ then _ else _
      simp only [ofThread, ofNat_lt_iff hlatency hmin, hfirst]
      split_ifs <;> rfl
    · show UInt64.ofNat (if _ then _ else _) = if _ then _ else _
      simp only [ofThread, ofNat_lt_iff hmax hlatency]
      split_ifs <;> rfl

end OfThread

end Dnsperf.Stats
