import Dnsperf.Lib.Run
import Dnsperf.Report

/-!
# Dnsperf.IntervalStats

**The statistics thread and the start of a run.** `main` creates the thread of
`do_interval_stats` before it sets `times.start_time`, and the thread reads that field before it
waits for the start. The handshake orders the store before the first interval, but not before
the read, and until the store the field has whatever value the stack of `main` had.

From the value it reads on, the thread loses nothing (`run_readFrom`): each interval starts where
the one before it ended. So the intervals tile the run if the store comes before the read.
-/

namespace Dnsperf.IntervalStats

open Dnsperf.Lib Dnsperf.Stats

/-! ### The threads -/

/-- The options that `do_interval_stats` looks at. -/
structure Config where
  report : ReportConfig
  statsInterval : UInt64
  verboseIntervalStats : Bool

/-- What is printed at the end of an interval. -/
inductive Line
  | statistics (report : Report)
  /-- The time, and the responses per second. A duration of 0 has no number here. -/
  | qps (time : UInt32 × UInt32) (qps : Option ℚ)

/-- An iteration of the loop of `do_interval_stats`. -/
structure Interval where
  /-- `last_interval_time`. -/
  start : UInt64
  /-- `now`. -/
  stop : UInt64
  /-- `interval_time`. -/
  time : UInt64
  line : Line

/-- Where `main` is. -/
inductive MainAt
  /-- Before the statistics thread is created. -/
  | create
  /-- At `times.start_time = perf_get_time()`. -/
  | setTime
  /-- Before `started` is set. -/
  | signal
  | running
  | stopped
  deriving DecidableEq, Repr

/-- Where the statistics thread is. -/
inductive StatsAt
  /-- Not created. -/
  | absent
  /-- At `last_interval_time = tinfo->times->start_time`. -/
  | read
  /-- In `wait_for_start`. -/
  | start
  /-- At `perf_os_waituntilreadable`. -/
  | poll
  /-- In the body of the loop. -/
  | body
  | done
  deriving DecidableEq, Repr

/-- The two threads, with `last_interval_time` and `last` of `do_interval_stats` and the intervals
so far. -/
structure State where
  main : MainAt
  times : Times
  started : Bool
  /-- `threadpipe` is readable. -/
  threadpipe : Bool
  stats : StatsAt
  lastIntervalTime : UInt64
  last : HistStats
  intervals : List Interval

/-- Before the statistics thread is created. Neither `times` nor `last_interval_time` has been
set. -/
def State.init (times : Times) (lastIntervalTime : UInt64) : State where
  main := .create
  times := times
  started := false
  threadpipe := false
  stats := .absent
  lastIntervalTime := lastIntervalTime
  last := .zero
  intervals := []

/-- Steps of `main`, then those of the statistics thread. -/
inductive Event
  | createThread
  | setStartTime (now : UInt64)
  | signalStart
  /-- The run is over: `times.end_time` is set and `threadpipe` written to. -/
  | stop (now : UInt64)
  | readStartTime
  | passStart
  | timedOut
  /-- The body of the loop, with the time and the totals of `sum_stats`. -/
  | interval (now : UInt64) (total : HistStats)
  /-- `perf_os_waituntilreadable` returns something else than `PERF_R_TIMEDOUT`. -/
  | leave (interrupted : Bool)

/-- `qps`. -/
def perSecond (last total : HistStats) (intervalTime : UInt64) : Option ℚ :=
  if intervalTime = 0 then none
  else
    some ((total.stats.latency.num - last.stats.latency.num).toNat /
      (intervalTime.toNat / 1000000))

/-- The body of the loop of `do_interval_stats`. -/
def State.interval (config : Config) (c : State) (now : UInt64) (total : HistStats) : State :=
  let intervalTime := now - c.lastIntervalTime
  let line : Line :=
    if config.verboseIntervalStats then
      .statistics (printStatistics config.report c.times
        (diffStats config.report.latencyHistogram c.last total) now intervalTime)
    else .qps (secondsOf now) (perSecond c.last total intervalTime)
  { c with
    stats := .poll
    lastIntervalTime := now
    last := total
    intervals := c.intervals ++ [⟨c.lastIntervalTime, now, intervalTime, line⟩] }

/-- One step of the process. -/
def next (config : Config) (c : State) : Event → Option State
  | .createThread =>
      if c.main = .create then
        some { c with
          main := .setTime
          stats := if 0 < config.statsInterval then .read else .absent }
      else none
  | .setStartTime now =>
      if c.main = .setTime then
        some { c with main := .signal, times := { c.times with startTime := now } }
      else none
  | .signalStart =>
      if c.main = .signal then some { c with main := .running, started := true } else none
  | .stop now =>
      if c.main = .running then
        some { c with
          main := .stopped
          times := { c.times with endTime := now }
          threadpipe := true }
      else none
  | .readStartTime =>
      if c.stats = .read then
        some { c with stats := .start, lastIntervalTime := c.times.startTime }
      else none
  | .passStart => if c.stats = .start ∧ c.started then some { c with stats := .poll } else none
  | .timedOut =>
      if c.stats = .poll ∧ ¬ c.threadpipe then some { c with stats := .body } else none
  | .interval now total => if c.stats = .body then some (c.interval config now total) else none
  | .leave interrupted =>
      if c.stats = .poll ∧ (c.threadpipe ∨ interrupted) then some { c with stats := .done }
      else none

/-! ### Intervals one after another -/

/-- The first interval starts at `start` and each other one where the one before it ended. -/
def Contiguous : UInt64 → List Interval → Prop
  | _, [] => True
  | start, i :: is => i.start = start ∧ Contiguous i.stop is

/-- After each interval the times of the intervals so far add up to what has passed since
`start`. -/
def AddUp (start : UInt64) (is : List Interval) : Prop :=
  ∀ before i after, is = before ++ i :: after →
    ((before ++ [i]).map (·.time)).sum = i.stop - start

/-- Where the intervals from `start` on end. -/
def stopOf (start : UInt64) (is : List Interval) : UInt64 := is.foldl (fun _ i => i.stop) start

/-- Contiguous intervals, each with its own duration. -/
structure Traced (start : UInt64) (is : List Interval) : Prop where
  contiguous : Contiguous start is
  time : ∀ i ∈ is, i.time = i.stop - i.start

theorem Contiguous.concat {start : UInt64} {is : List Interval} (h : Contiguous start is)
    {i : Interval} (hi : i.start = stopOf start is) : Contiguous start (is ++ [i]) := by
  induction is generalizing start with
  | nil => exact ⟨hi, trivial⟩
  | cons j is ih => exact ⟨h.1, ih h.2 hi⟩

theorem Contiguous.start_eq {start start' : UInt64} {is : List Interval} (hne : is ≠ [])
    (h : Contiguous start is) : Contiguous start' is ↔ start = start' := by
  cases is with
  | nil => exact absurd rfl hne
  | cons i is => exact ⟨fun h' => h.1.symm.trans h'.1, fun heq => heq ▸ h⟩

namespace Traced

variable {start start' : UInt64} {is : List Interval}

theorem nil : Traced start [] := ⟨trivial, fun _ hi => absurd hi List.not_mem_nil⟩

theorem concat (h : Traced start is) {i : Interval} (hi : i.start = stopOf start is)
    (htime : i.time = i.stop - i.start) : Traced start (is ++ [i]) := by
  refine ⟨h.contiguous.concat hi, fun j hj => ?_⟩
  rcases List.mem_append.mp hj with hold | hnew
  · exact h.time j hold
  · rw [List.mem_singleton.mp hnew]
    exact htime

theorem addUp (h : Traced start is) : AddUp start is := by
  intro before i after his
  subst his
  induction before generalizing start with
  | nil =>
      have htime := h.time i (List.mem_cons_self ..)
      rw [h.contiguous.1] at htime
      simpa using htime
  | cons j before ih =>
      have htail : Traced j.stop (before ++ i :: after) :=
        ⟨h.contiguous.2, fun k hk => h.time k (List.mem_cons_of_mem _ hk)⟩
      have hj := h.time j (List.mem_cons_self ..)
      rw [h.contiguous.1] at hj
      rw [List.cons_append, List.map_cons, List.sum_cons, ih htail, hj]
      grind

theorem addUp_iff (h : Traced start is) (hne : is ≠ []) : AddUp start' is ↔ start = start' := by
  constructor
  · intro h'
    obtain ⟨i, after, rfl⟩ := List.exists_cons_of_ne_nil hne
    have heq := (h.addUp [] i after rfl).symm.trans (h' [] i after rfl)
    grind
  · rintro rfl
    exact h.addUp

end Traced

/-! ### Runs -/

/-- The start time is stored before it is read, if it is read at all. -/
def StoredFirst : List Event → Prop
  | [] => True
  | .setStartTime _ :: _ => True
  | .readStartTime :: _ => False
  | _ :: es => StoredFirst es

section Steps

variable {config : Config} {c c' : State} {e : Event} {r v : UInt64}

/-- The statistics thread has read `r`. -/
structure ReadFrom (r : UInt64) (c : State) : Prop where
  created : c.main ≠ .create
  past : c.stats ≠ .read
  traced : Traced r c.intervals
  last : c.lastIntervalTime = stopOf r c.intervals

/-- `main` has stored `v`. -/
structure Stored (v : UInt64) (c : State) : Prop where
  create : c.main ≠ .create
  setTime : c.main ≠ .setTime
  startTime : c.times.startTime = v

/-- The statistics thread has not read the start time. -/
structure Unread (c : State) : Prop where
  stats : c.stats = .absent ∨ c.stats = .read
  absent : c.main = .create → c.stats = .absent
  intervals : c.intervals = []

theorem ReadFrom.step (h : ReadFrom r c) (hnext : next config c e = some c') : ReadFrom r c' := by
  cases e <;>
    simp only [next, Option.ite_none_right_eq_some, Option.some.injEq] at hnext <;>
    obtain ⟨hat, rfl⟩ := hnext
  case createThread => exact absurd hat h.created
  case readStartTime => exact absurd hat h.past
  case interval now total =>
    refine ⟨h.created, by simp [State.interval], h.traced.concat h.last rfl, ?_⟩
    simp [State.interval, stopOf]
  case setStartTime | signalStart | stop => exact ⟨by simp, h.past, h.traced, h.last⟩
  case passStart | timedOut | leave => exact ⟨h.created, by simp, h.traced, h.last⟩

theorem Stored.step (h : Stored v c) (hnext : next config c e = some c') : Stored v c' := by
  cases e <;>
    simp only [next, Option.ite_none_right_eq_some, Option.some.injEq] at hnext <;>
    obtain ⟨hat, rfl⟩ := hnext
  case createThread => exact absurd hat h.create
  case setStartTime => exact absurd hat h.setTime
  case signalStart | stop => exact ⟨by simp, by simp, h.startTime⟩
  all_goals exact ⟨h.create, h.setTime, h.startTime⟩

/-- Until it reads the start time, the statistics thread does nothing. -/
theorem Unread.event (h : Unread c) (hnext : next config c e = some c') :
    e = .readStartTime ∨ e = .createThread ∨ (∃ now, e = .setStartTime now) ∨ e = .signalStart ∨
      ∃ now, e = .stop now := by
  have hstats : ∀ place, c.stats = place → place = .absent ∨ place = .read :=
    fun _ heq => heq ▸ h.stats
  cases e <;> simp only [next, Option.ite_none_right_eq_some] at hnext
  case createThread | setStartTime | signalStart | stop | readStartTime => simp
  case interval => exact absurd (hstats _ hnext.1) (by decide)
  case passStart | timedOut | leave => exact absurd (hstats _ hnext.1.1) (by decide)

theorem Unread.step (h : Unread c) (hnext : next config c e = some c')
    (he : e ≠ .readStartTime) : Unread c' := by
  rcases h.event hnext with rfl | rfl | ⟨now, rfl⟩ | rfl | ⟨now, rfl⟩ <;>
    simp only [next, Option.ite_none_right_eq_some, Option.some.injEq] at hnext <;>
    obtain ⟨-, rfl⟩ := hnext
  · exact absurd rfl he
  · refine ⟨?_, by simp, h.intervals⟩
    by_cases hinterval : 0 < config.statsInterval
    · exact Or.inr (if_pos hinterval)
    · exact Or.inl (if_neg hinterval)
  all_goals exact ⟨h.stats, by simp, h.intervals⟩

theorem Unread.readFrom (h : Unread c) (hnext : next config c .readStartTime = some c') :
    ReadFrom c.times.startTime c' := by
  simp only [next, Option.ite_none_right_eq_some, Option.some.injEq] at hnext
  obtain ⟨hat, rfl⟩ := hnext
  refine ⟨fun hcreate => ?_, by simp, ?_, ?_⟩
  · rw [h.absent hcreate] at hat
    cases hat
  · rw [h.intervals]
    exact Traced.nil
  · rw [h.intervals]
    rfl

theorem stored_of_setStartTime {now : UInt64}
    (hnext : next config c (.setStartTime now) = some c') : Stored now c' := by
  simp only [next, Option.ite_none_right_eq_some, Option.some.injEq] at hnext
  obtain ⟨-, rfl⟩ := hnext
  exact ⟨by simp, by simp, rfl⟩

/-- Before the store and the read, only the thread can be created. -/
theorem createThread_of_unread (h : Unread c) (hmain : c.main = .create ∨ c.main = .setTime)
    (hnext : next config c e = some c') (hset : ∀ now, e ≠ .setStartTime now)
    (hread : e ≠ .readStartTime) :
    e = .createThread ∧ c'.main = .setTime ∧ c'.times.startTime = c.times.startTime := by
  have hplace : ∀ place, c.main = place → place = .create ∨ place = .setTime :=
    fun _ heq => heq ▸ hmain
  rcases h.event hnext with rfl | rfl | ⟨now, rfl⟩ | rfl | ⟨now, rfl⟩ <;>
    simp only [next, Option.ite_none_right_eq_some, Option.some.injEq] at hnext <;>
    obtain ⟨hat, rfl⟩ := hnext
  · exact absurd rfl hread
  · exact ⟨rfl, rfl, rfl⟩
  · exact absurd rfl (hset now)
  all_goals exact absurd (hplace _ hat) (by decide)

end Steps

section Runs

variable {config : Config} {c c' : State} {es : List Event} {r v : UInt64}

/-- From a read on, the intervals go back to the value read. -/
theorem run_readFrom (hrun : Run (StepOf (next config)) c es c') (h : ReadFrom r c) :
    ReadFrom r c' :=
  hrun.invariant (fun _ _ _ hc hnext => hc.step hnext) h

/-- From a store before the read on, the value stored stays and is the one that is read. -/
theorem run_stored (hrun : Run (StepOf (next config)) c es c') (hstored : Stored v c)
    (hunread : Unread c) : Stored v c' ∧ (Unread c' ∨ ReadFrom v c') := by
  refine hrun.invariant (I := fun c => Stored v c ∧ (Unread c ∨ ReadFrom v c)) ?_
    ⟨hstored, Or.inl hunread⟩
  rintro c e c' ⟨hstored, hread⟩ hnext
  refine ⟨hstored.step hnext, ?_⟩
  rcases hread with hunread | hread
  · by_cases he : e = .readStartTime
    · subst he
      exact Or.inr (hstored.startTime ▸ hunread.readFrom hnext)
    · exact Or.inl (hunread.step hnext he)
  · exact Or.inr (hread.step hnext)

/-- The intervals of a run go back to the start time, or to what was there before it. -/
theorem run_traced (hrun : Run (StepOf (next config)) c es c') (hunread : Unread c)
    (hmain : c.main = .create ∨ c.main = .setTime) :
    ∃ r, Traced r c'.intervals ∧ (StoredFirst es → r = c'.times.startTime) ∧
      (¬ StoredFirst es → r = c.times.startTime) := by
  induction hrun with
  | nil c =>
      refine ⟨c.times.startTime, ?_, fun _ => rfl, fun _ => rfl⟩
      rw [hunread.intervals]
      exact Traced.nil
  | @cons c c₁ c' e es hnext hrest ih =>
      by_cases hread : e = .readStartTime
      · subst hread
        have hfrom := run_readFrom hrest (hunread.readFrom hnext)
        exact ⟨c.times.startTime, hfrom.traced, fun h => absurd h id, fun _ => rfl⟩
      · by_cases hset : ∃ now, e = .setStartTime now
        · obtain ⟨now, rfl⟩ := hset
          obtain ⟨hstored, hend⟩ := run_stored hrest (stored_of_setStartTime hnext)
            (hunread.step hnext hread)
          refine ⟨now, ?_, fun _ => hstored.startTime.symm, fun h => absurd trivial h⟩
          rcases hend with hunread' | hfrom
          · rw [hunread'.intervals]
            exact Traced.nil
          · exact hfrom.traced
        · obtain ⟨rfl, hmain', htime⟩ := createThread_of_unread hunread hmain hnext
            (fun now he => hset ⟨now, he⟩) hread
          rw [← htime]
          exact ih (hunread.step hnext hread) (Or.inr hmain')

end Runs

/-- **The intervals tile the run** if and only if the start time is stored before the statistics
thread reads it, or there is no interval yet, or what was there before happens to be the start
time. Here `times` is what `main` finds in its variable, and `es` any interleaving. -/
theorem intervals_tile_iff {config : Config} {times : Times} {lastIntervalTime : UInt64}
    {es : List Event} {c : State}
    (hrun : Run (StepOf (next config)) (.init times lastIntervalTime) es c) :
    (AddUp c.times.startTime c.intervals ↔
        c.intervals = [] ∨ StoredFirst es ∨ times.startTime = c.times.startTime) ∧
      (Contiguous c.times.startTime c.intervals ↔
        c.intervals = [] ∨ StoredFirst es ∨ times.startTime = c.times.startTime) := by
  obtain ⟨r, htraced, hfirst, hlate⟩ :=
    run_traced hrun ⟨Or.inl rfl, fun _ => rfl, rfl⟩ (Or.inl rfl)
  by_cases hne : c.intervals = []
  · have hnil : Traced c.times.startTime c.intervals := hne ▸ Traced.nil
    exact ⟨iff_of_true hnil.addUp (Or.inl hne), iff_of_true hnil.contiguous (Or.inl hne)⟩
  · have hr : r = c.times.startTime ↔
        c.intervals = [] ∨ StoredFirst es ∨ times.startTime = c.times.startTime := by
      by_cases hstored : StoredFirst es
      · exact iff_of_true (hfirst hstored) (Or.inr (Or.inl hstored))
      · rw [hlate hstored]
        simp [hne, hstored, State.init]
    rw [htraced.addUp_iff hne, htraced.contiguous.start_eq hne]
    exact ⟨hr, hr⟩

/-- The options `-S 1`. -/
def everySecond : Config := ⟨⟨false, false⟩, 1000000, false⟩

/-- A run of two intervals, in which the statistics thread is slow to start. -/
theorem intervals_tile_iff_stored :
    ∃ c, Run (StepOf (next everySecond)) (.init ⟨0, 0⟩ 0)
        [.createThread, .setStartTime 5000000, .readStartTime, .signalStart, .passStart,
          .timedOut, .interval 6000001 .zero, .timedOut, .interval 7000003 .zero] c ∧
      c.intervals.map (fun i => (i.start, i.stop, i.time)) =
        [(5000000, 6000001, 1000001), (6000001, 7000003, 1000002)] ∧
      AddUp c.times.startTime c.intervals := by
  obtain ⟨c, hrun, hend⟩ := Run.exists_of_follow (fun _ _ => True) (next everySecond)
    (.init ⟨0, 0⟩ 0)
    [.createThread, .setStartTime 5000000, .readStartTime, .signalStart, .passStart, .timedOut,
      .interval 6000001 .zero, .timedOut, .interval 7000003 .zero]
    (fun c => c.intervals.map (fun i => (i.start, i.stop, i.time)) =
      [(5000000, 6000001, 1000001), (6000001, 7000003, 1000002)]) (by decide +kernel)
  have hrun' := hrun.mono fun _ _ _ h => h.2
  have htile := (intervals_tile_iff hrun').1
  exact ⟨c, hrun', of_decide_eq_true hend, htile.mpr (Or.inr (Or.inl trivial))⟩

/-- The statistics thread runs first and finds 0 where the start time will be. Its first interval
is then the time since 1970. -/
theorem intervals_not_tiled :
    ∃ c, Run (StepOf (next everySecond)) (.init ⟨0, 0⟩ 0)
        [.createThread, .readStartTime, .setStartTime 1700000000000000, .signalStart, .passStart,
          .timedOut, .interval 1700000001000001 .zero] c ∧
      c.times.startTime = 1700000000000000 ∧
      c.intervals.map (fun i => (i.start, i.stop, i.time)) =
        [(0, 1700000001000001, 1700000001000001)] ∧
      ¬ AddUp c.times.startTime c.intervals ∧ ¬ Contiguous c.times.startTime c.intervals := by
  obtain ⟨c, hrun, hend⟩ := Run.exists_of_follow (fun _ _ => True) (next everySecond)
    (.init ⟨0, 0⟩ 0)
    [.createThread, .readStartTime, .setStartTime 1700000000000000, .signalStart, .passStart,
      .timedOut, .interval 1700000001000001 .zero]
    (fun c => c.times.startTime = 1700000000000000 ∧
      c.intervals.map (fun i => (i.start, i.stop, i.time)) =
        [(0, 1700000001000001, 1700000001000001)]) (by decide +kernel)
  obtain ⟨hstart, hmap⟩ := of_decide_eq_true hend
  refine ⟨c, hrun.mono fun _ _ _ h => h.2, hstart, hmap, ?_⟩
  obtain ⟨i, hi, heq⟩ := List.map_eq_singleton_iff.mp hmap
  simp only [Prod.mk.injEq] at heq
  rw [hi, hstart]
  constructor
  · intro hadd
    have htime := hadd [] i [] rfl
    rw [List.nil_append, List.map_singleton, List.sum_singleton, heq.2.1, heq.2.2] at htime
    exact absurd htime (by decide)
  · intro hcont
    have hzero : (0 : UInt64) = 1700000000000000 := heq.1.symm.trans hcont.1
    exact absurd hzero (by decide)

end Dnsperf.IntervalStats
