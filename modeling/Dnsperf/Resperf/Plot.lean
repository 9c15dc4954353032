import Mathlib.Data.List.TakeWhile
import Mathlib.Data.Rat.Cast.Order
import Dnsperf.Resperf.Conservation
import Dnsperf.Resperf.Phases

/-!
# Dnsperf.Resperf.Plot

What `resperf` reports of its buckets: the rows of the plot file, up to `last_bucket_used`, and the
maximum throughput that `print_statistics` looks for in them.

**Only the last bucket is missing** (`plot_omits_last`). Over UDP a query is put into the bucket of
the moment it is sent, and `find_bucket` does not go back with the time, so nothing is in a bucket
after that of `wait_phase_began`. **The maximum throughput is that of a bucket** whose loss is
allowed, as are the losses before it, and none of these has more (`max_throughput_reached`).

What is computed in floating point is a rational number here. The latencies are left out.
-/

namespace Dnsperf.Resperf

open Dnsperf.Lib Dnsperf.Stats

/-! ### The end of `main` -/

namespace Setup

variable (c : Setup)

/-- `last_bucket_used`. -/
def lastBucketUsed (s : State) : Int :=
  let last := c.findBucket s.waitPhaseBegan
  -- Don't print a partial bucket at the end
  if 0 < last then last - 1 else last

/-- The buckets of the loops with `i <= last_bucket_used`. -/
def bucketsUsed (s : State) : List RampBucket :=
  (List.range (c.lastBucketUsed s + 1).toNat).map fun i : Nat => s.buckets i

end Setup

/-- A row of the plot file. -/
structure PlotRow where
  time : ℚ
  targetQps : ℚ
  actualQps : ℚ
  responsesPerSec : ℚ
  failuresPerSec : ℚ
  connections : ℚ
  deriving DecidableEq

namespace Setup

variable (c : Setup)

/-- `interval`, in seconds. -/
def interval : ℚ := c.bucketInterval / 1000000

/-- The row of a bucket. -/
def plotRow (maxQps : ℚ) (i : Nat) (b : RampBucket) : PlotRow :=
  let t : ℚ := (i + 1 / 2) * c.trafficTime / (c.nBuckets * 1000000)
  let rampDtime : ℚ := c.rampTime / 1000000
  { time := t
    targetQps := if t ≤ rampDtime then t / rampDtime * maxQps else maxQps
    actualQps := b.queries / c.interval
    responsesPerSec := b.responses / c.interval
    failuresPerSec := b.failures / c.interval
    connections := b.connections / c.interval }

/-- The plot file. -/
def plot (maxQps : ℚ) (s : State) : List PlotRow :=
  (c.bucketsUsed s).mapIdx (c.plotRow maxQps)

end Setup

/-! ### `print_statistics` -/

/-- `loss_percent`. -/
def RampBucket.lossPercent (b : RampBucket) : ℚ :=
  let loss : ℚ := if b.queries ≠ 0 then toInt (b.queries - b.responses) / b.queries else 0
  loss * 100

/-- `responses_per_sec`. -/
def Setup.responsesPerSec (c : Setup) (b : RampBucket) : ℚ := b.responses / c.interval

/-- The loop of `print_statistics`: `max_throughput` and `loss_at_max_throughput`. -/
def Setup.maxThroughput (c : Setup) (maxLossPercent : ℚ) : List RampBucket → ℚ × ℚ → ℚ × ℚ
  | [], best => best
  | b :: bs, best =>
      if maxLossPercent < b.lossPercent then best
      else
        c.maxThroughput maxLossPercent bs
          (if best.1 < c.responsesPerSec b then (c.responsesPerSec b, b.lossPercent) else best)

variable {c : Setup} {late : Prop} {s s' : State}

/-! ### `find_bucket` as time goes on -/

/-- Neither the product in `find_bucket` nor its quotient wraps. -/
def Setup.Fits (c : Setup) (when_ : Nat) : Prop :=
  c.nBuckets * (when_ - c.timeOfProgramStart) < 2 ^ 64 ∧
    c.nBuckets * (when_ - c.timeOfProgramStart) < 2 ^ 31 * c.trafficTime

instance (c : Setup) (when_ : Nat) : Decidable (c.Fits when_) := inferInstanceAs (Decidable (_ ∧ _))

theorem findBucket_of_fits (hn : 0 < c.nBuckets) {d : Nat} (h : c.Fits (c.timeOfProgramStart + d)) :
    c.findBucket (c.timeOfProgramStart + d) =
      min (c.nBuckets - 1) (c.nBuckets * d / c.trafficTime) := by
  obtain ⟨n, hn'⟩ := Int.eq_ofNat_of_zero_le hn.le
  have hT := c.traffic_pos
  obtain ⟨hprod, hquot⟩ := h
  rw [hn', Nat.cast_add, add_sub_cancel_left] at hprod hquot
  rw [hn'] at hn
  have hprod' : n * d < 2 ^ 64 := by exact_mod_cast hprod
  have hquot' : n * d / c.trafficTime < 2 ^ 31 :=
    (Nat.div_lt_iff_lt_mul hT).mpr (by exact_mod_cast hquot)
  have hd : d ≤ n * d := Nat.le_mul_of_pos_left d (by omega)
  have hsent : toUint64 ((c.timeOfProgramStart + d : Nat) - c.timeOfProgramStart) = d := by
    simp only [toUint64]
    omega
  have hscaled : toUint64 (c.nBuckets * d) = n * d := by
    rw [hn', ← Nat.cast_mul, toUint64_of_lt hprod']
  simp only [Setup.findBucket, hsent, hscaled]
  rw [hn', ← Nat.cast_mul, ← Int.natCast_ediv]
  generalize n * d / c.trafficTime = i at hquot' ⊢
  rw [toInt_of_lt (by omega) (by omega), min_def]
  split_ifs <;> omega

/-- **Later is not in an earlier bucket.** -/
theorem findBucket_mono (hn : 0 < c.nBuckets) {w w' : Nat} (hstart : c.timeOfProgramStart ≤ w)
    (hle : w ≤ w') (hfits : c.Fits w') : c.findBucket w ≤ c.findBucket w' := by
  obtain ⟨d, rfl⟩ := Nat.exists_eq_add_of_le hstart
  obtain ⟨e, rfl⟩ := Nat.exists_eq_add_of_le hle
  have hprod : c.nBuckets * d ≤ c.nBuckets * (d + e : Nat) :=
    Int.mul_le_mul_of_nonneg_left (by omega) hn.le
  rw [Nat.add_assoc] at hfits ⊢
  have hfits' : c.Fits (c.timeOfProgramStart + d) := by
    unfold Setup.Fits at hfits ⊢
    rw [Nat.cast_add, add_sub_cancel_left] at hfits ⊢
    omega
  rw [findBucket_of_fits hn hfits, findBucket_of_fits hn hfits']
  exact min_le_min_left _ (Int.ediv_le_ediv (by exact_mod_cast c.traffic_pos) hprod)

/-! ### The last bucket -/

theorem Settle.bucketQueries (hudp : ¬ late) (h : Settle c late s s') (i : Int) :
    (s'.buckets i).queries = (s.buckets i).queries := by
  cases h with
  | connection =>
      exact atBucket_field RampBucket.queries s _ (f := RampBucket.connection) (fun _ => rfl) i
  | completed hlate _ => exact absurd hlate hudp
  | respond rcode _ _ =>
      exact atBucket_field RampBucket.queries (s.moveInstanding _) _
        (f := (RampBucket.response · rcode)) (fun _ => rfl) i
  | _ => rfl

/-- **A query is counted in the bucket of the last time at which one may have been sent.** -/
theorem Change.bucketQueries (hudp : ¬ late) (h : Change c late s s') {i : Int}
    (hi : i ≠ c.findBucket s.lastSend) : (s'.buckets i).queries = (s.buckets i).queries := by
  cases h with
  | settle hsettle => exact hsettle.bucketQueries hudp i
  | send _ _ _ hnow =>
      rw [hnow] at hi
      simp only [State.atBucket, if_neg hi]
      rfl
  | _ => rfl

/-- No query is in a bucket after that of the last time at which one may have been sent. -/
structure Setup.Unused (c : Setup) (s : State) : Prop where
  start_le : c.timeOfProgramStart ≤ s.lastSend
  lastSend_le : s.lastSend ≤ s.timeNow
  queries : ∀ i, c.findBucket s.lastSend < i → (s.buckets i).queries = 0

theorem Setup.Unused.change (hudp : ¬ late) (h : c.Unused s) (hchange : Change c late s s') :
    c.Unused s' := by
  obtain ⟨htime, hlast⟩ := hchange.time
  refine ⟨hlast ▸ h.start_le, hlast ▸ htime ▸ h.lastSend_le, fun i hi => ?_⟩
  rw [hlast] at hi
  exact (hchange.bucketQueries hudp (ne_of_gt hi)).trans (h.queries i hi)

/-- The clock does not go back, and `find_bucket` does not wrap. -/
def Setup.Keeps (c : Setup) (s : State) (it : Iteration) : Prop :=
  s.timeNow ≤ it.now ∧ c.Fits it.now

instance (c : Setup) (s : State) (it : Iteration) : Decidable (c.Keeps s it) :=
  inferInstanceAs (Decidable (_ ∧ _))

theorem Setup.Unused.clock (hn : 0 < c.nBuckets) (h : c.Unused s) {now : Nat}
    (hle : s.timeNow ≤ now) (hfits : c.Fits now) : c.Unused { s with timeNow := now } := by
  by_cases hwait : s.phase = .wait
  · have hlast : ({ s with timeNow := now } : State).lastSend = s.lastSend := by
      simp only [State.lastSend, if_pos hwait]
    refine ⟨?_, ?_, fun i hi => h.queries i ?_⟩
    · rw [hlast]
      exact h.start_le
    · rw [hlast]
      exact h.lastSend_le.trans hle
    · rwa [hlast] at hi
  · have hlast : ({ s with timeNow := now } : State).lastSend = now := if_neg hwait
    have hle : s.lastSend ≤ now := h.lastSend_le.trans hle
    refine ⟨?_, ?_, fun i hi => h.queries i ?_⟩
    · rw [hlast]
      exact h.start_le.trans hle
    · rw [hlast]
    · rw [hlast] at hi
      exact (findBucket_mono hn h.start_le hle hfits).trans_lt hi

theorem start_unused (c : Setup) (opened : List SocketEvent) : c.Unused (c.start opened) := by
  have hsettles : Settles c False c.initial (c.start opened) :=
    perfNetEvents_settles opened c.initial
  have hinitial : c.Unused c.initial := ⟨le_rfl, le_rfl, fun _ _ => rfl⟩
  exact hsettles.changes.invariant (fun _ _ h hchange => h.change id hchange) hinitial

theorem run_unused {opened : List SocketEvent} {es : List Iteration} (hn : 0 < c.nBuckets)
    (hrun : Run (Guarded c.Keeps (StepOf c.next)) (c.start opened) es s)
    (hudp : ∀ it ∈ es, it.Udp) : c.Unused s := by
  refine (hrun.guarded hudp).invariant (I := c.Unused) ?_ (start_unused c opened)
  rintro s it s' hunused ⟨hudp, hkeeps, hnext⟩
  exact next_invariant (fun _ _ h hchange => h.change (not_not.mpr hudp) hchange)
    (fun s₁ htime h => h.clock hn (htime ▸ hkeeps.1) hkeeps.2) hunused hnext

/-! ### All queries -/

/-- The queries in the buckets. -/
def Setup.queriesIn (c : Setup) (s : State) : Int :=
  ∑ i ∈ Finset.range c.nBuckets.toNat, (s.buckets i).queries

/-- **Every change over UDP** keeps the queries in the buckets those that were sent. -/
theorem queriesIn_change (hn : 0 < c.nBuckets) (hudp : ¬ late) (hb : Kept c s) (hg : NoGain c s)
    (h : s.numQueriesSent < 2 ^ 31 → c.queriesIn s = s.numQueriesSent)
    (hchange : Change c late s s') (hfew : s'.numQueriesSent < 2 ^ 31) :
    c.queriesIn s' = s'.numQueriesSent := by
  have hsame : (∀ i, (s'.buckets i).queries = (s.buckets i).queries) →
      s'.numQueriesSent = s.numQueriesSent → c.queriesIn s' = s'.numQueriesSent := by
    intro hqueries hsent
    rw [hsent] at hfew ⊢
    simp only [Setup.queriesIn, hqueries]
    exact h hfew
  cases hchange with
  | settle hsettle =>
      exact hsame (hsettle.bucketQueries hudp) hsettle.frame.numQueriesSent
  | defer hlate _ _ => exact absurd hlate hudp
  | finish _ hinprogress => exact absurd (hinprogress.symm.trans (hg.idle _)) (by decide)
  -- the only change that counts a query: by `hfew` its bucket does not wrap
  | send _ _ _ _ =>
      rename_i q _ _ _ _
      have hfew' : s.numQueriesSent + 1 < 2 ^ 31 := hfew
      obtain ⟨h0, hlt⟩ := findBucket_mem hn s.timeNow
      obtain ⟨hloss, hle⟩ := hg.loss (by omega) _ h0 hlt
      have hnonneg := (hb.2 hn (by omega)).nonneg (c.findBucket s.timeNow)
      have hqueries : 0 ≤ (s.buckets (c.findBucket s.timeNow)).queries + 1 ∧
          (s.buckets (c.findBucket s.timeNow)).queries + 1 < 2 ^ 31 := by
        omega
      have hbump : ∀ i, ((((s.moveOutstanding q).record (.transmitted q)).atBucket
          (c.findBucket s.timeNow) RampBucket.query).buckets i).queries =
          (s.buckets i).queries + if i = c.findBucket s.timeNow then 1 else 0 := by
        intro i
        simp only [State.atBucket]
        split_ifs with hi
        · rw [hi]
          exact toInt_of_lt hqueries.1 hqueries.2
        · exact (add_zero _).symm
      rw [Setup.queriesIn, sum_bump h0 hlt hbump]
      have hsum : ∑ i ∈ Finset.range c.nBuckets.toNat, (s.buckets i).queries = s.numQueriesSent :=
        h (by omega)
      rw [hsum]
      rfl
  | _ => exact hsame (fun _ => rfl) rfl

/-- What holds in every state of the main loop over UDP. -/
structure Setup.Booked (c : Setup) (s : State) : Prop where
  kept : Kept c s
  noGain : NoGain c s
  queries : s.numQueriesSent < 2 ^ 31 → c.queriesIn s = s.numQueriesSent

theorem Setup.Booked.change (hn : 0 < c.nBuckets) (hudp : ¬ late) (h : c.Booked s)
    (hchange : Change c late s s') : c.Booked s' :=
  ⟨h.kept.change hchange, h.noGain.change hn hudp h.kept.1 (h.kept.2 hn) hchange,
    queriesIn_change hn hudp h.kept h.noGain h.queries hchange⟩

theorem start_booked (hn : 0 < c.nBuckets) (opened : List SocketEvent) :
    c.Booked (c.start opened) := by
  obtain ⟨hkept, hnoGain⟩ := initial_kept c
  have hinitial : c.Booked c.initial := by
    refine ⟨hkept, hnoGain, fun _ => ?_⟩
    simp [Setup.queriesIn, Setup.initial]
  have hsettles : Settles c False c.initial (c.start opened) :=
    perfNetEvents_settles opened c.initial
  exact hsettles.changes.invariant (fun _ _ h hchange => h.change hn id hchange) hinitial

theorem run_booked {opened : List SocketEvent} {es : List Iteration} (hn : 0 < c.nBuckets)
    (hrun : Run (StepOf c.next) (c.start opened) es s) (hudp : ∀ it ∈ es, it.Udp) : c.Booked s := by
  refine (hrun.guarded hudp).invariant (I := c.Booked) ?_ (start_booked hn opened)
  rintro s it s' hbooked ⟨hudp, hnext⟩
  exact next_invariant (fun _ _ h hchange => h.change hn (not_not.mpr hudp) hchange)
    (fun _ _ h => ⟨h.kept.clock _, h.noGain.clock _, h.queries⟩) hbooked hnext

/-! ### The plot -/

/-- The partial bucket at the end, which is not printed. -/
def Setup.partialBucket (c : Setup) (s : State) : RampBucket :=
  if 0 < c.findBucket s.waitPhaseBegan then s.buckets (c.findBucket s.waitPhaseBegan)
  else ⟨0, 0, 0, 0⟩

theorem switchPhase_eq_none (h : c.switchPhase s = none) : s.phase = .wait := by
  unfold Setup.switchPhase at h
  cases hphase : s.phase with
  | ramp => simp [hphase] at h
  | sustain => simp [hphase] at h
  | wait => rfl

/-- The printed buckets and the partial one are all up to that of `wait_phase_began`. -/
theorem sum_bucketsUsed (hn : 0 < c.nBuckets) {f : RampBucket → Int} (hf : f ⟨0, 0, 0, 0⟩ = 0)
    (hzero : ∀ i, c.findBucket s.waitPhaseBegan < i → i < c.nBuckets → f (s.buckets i) = 0) :
    ((c.bucketsUsed s).map f).sum + f (c.partialBucket s) =
      ∑ i ∈ Finset.range c.nBuckets.toNat, f (s.buckets i) := by
  obtain ⟨h0, hlt⟩ := findBucket_mem hn s.waitPhaseBegan
  obtain ⟨k, hk⟩ := Int.eq_ofNat_of_zero_le h0
  have hupTo : ∑ i ∈ Finset.range (k + 1), f (s.buckets i) =
      ∑ i ∈ Finset.range c.nBuckets.toNat, f (s.buckets i) := by
    refine Finset.sum_subset (Finset.range_subset_range.mpr (by omega)) fun i hi hi' => ?_
    rw [Finset.mem_range] at hi hi'
    exact hzero i (by omega) (by omega)
  have hlist : ∀ n, (((List.range n).map fun i : Nat => s.buckets i).map f).sum =
      ∑ i ∈ Finset.range n, f (s.buckets i) := by
    intro n
    rw [List.map_map]
    rfl
  rw [← hupTo, Setup.bucketsUsed, hlist]
  unfold Setup.partialBucket Setup.lastBucketUsed
  dsimp only
  rw [hk]
  by_cases hpos : 0 < (k : Int)
  · rw [if_pos hpos, if_pos hpos, sub_add_cancel, Int.toNat_natCast, Finset.sum_range_succ]
  · have hzero : k = 0 := by omega
    rw [if_neg hpos, if_neg hpos, hf, hzero]
    exact add_zero _

theorem sum_plot (hn : 0 < c.nBuckets) (maxQps : ℚ) {g : PlotRow → ℚ} {f : RampBucket → Int}
    (hg : ∀ i b, g (c.plotRow maxQps i b) = f b) (hf : f ⟨0, 0, 0, 0⟩ = 0)
    (hzero : ∀ i, c.findBucket s.waitPhaseBegan < i → i < c.nBuckets → f (s.buckets i) = 0) :
    ((c.plot maxQps s).map g).sum + f (c.partialBucket s) =
      ((∑ i ∈ Finset.range c.nBuckets.toNat, f (s.buckets i) : Int) : ℚ) := by
  have hrows : ∀ bs : List RampBucket, (bs.mapIdx (c.plotRow maxQps)).map g =
      (bs.map f).map (Int.cast (R := ℚ)) := by
    intro bs
    refine List.ext_getElem (by simp) fun i _ _ => ?_
    simp [hg]
  rw [← sum_bucketsUsed hn hf hzero, Int.cast_add, Int.cast_list_sum, Setup.plot, hrows]

theorem interval_pos (c : Setup) : 0 < c.interval :=
  div_pos (Nat.cast_pos.mpr c.interval_pos) (by norm_num)

/-- **The plot omits the last bucket, and nothing else.** At the end of a run over UDP, with a clock
that does not go back: the queries of all rows and those of the partial bucket are the queries that
were sent, and the responses those that were received; no later bucket has any. -/
theorem plot_omits_last (c : Setup) (maxQps : ℚ) (hn : 0 < c.nBuckets)
    (opened : List SocketEvent) (es : List Iteration) (s : State)
    (hrun : Run (Guarded c.Keeps (StepOf c.next)) (c.start opened) es s)
    (hudp : ∀ it ∈ es, it.Udp) (hend : c.switchPhase s = none) (hfew : s.numQueriesSent < 2 ^ 31) :
    ((c.plot maxQps s).map fun r => r.actualQps * c.interval).sum + (c.partialBucket s).queries =
        s.numQueriesSent ∧
      ((c.plot maxQps s).map fun r => r.responsesPerSec * c.interval).sum +
        (c.partialBucket s).responses = s.numResponsesReceived ∧
      ∀ i, c.findBucket s.waitPhaseBegan < i → i < c.nBuckets →
        (s.buckets i).queries = 0 ∧ (s.buckets i).responses = 0 := by
  have hbooked := run_booked hn (hrun.mono fun _ _ _ hstep => hstep.2) hudp
  have hlast : s.lastSend = s.waitPhaseBegan := if_pos (switchPhase_eq_none hend)
  have hqueries : ∀ i, c.findBucket s.waitPhaseBegan < i → (s.buckets i).queries = 0 := by
    rw [← hlast]
    exact (run_unused hn hrun hudp).queries
  -- no bucket has more responses than queries
  have hresponses : ∀ i, c.findBucket s.waitPhaseBegan < i → i < c.nBuckets →
      (s.buckets i).responses = 0 := by
    intro i hi hlt
    have h0 := (findBucket_mem hn s.waitPhaseBegan).1
    have hnonneg := (hbooked.kept.2 hn hfew).nonneg i
    obtain ⟨hloss, -⟩ := hbooked.noGain.loss hfew i (by omega) hlt
    rw [hqueries i hi] at hloss
    omega
  have hne := (interval_pos c).ne'
  refine ⟨?_, ?_, fun i hi hlt => ⟨hqueries i hi, hresponses i hi hlt⟩⟩
  · rw [sum_plot hn maxQps (fun i b => div_mul_cancel₀ _ hne) rfl fun i hi _ => hqueries i hi]
    have hsum : ∑ i ∈ Finset.range c.nBuckets.toNat, (s.buckets i).queries = s.numQueriesSent :=
      hbooked.queries hfew
    rw [hsum, Int.cast_natCast]
  · rw [sum_plot hn maxQps (fun i b => div_mul_cancel₀ _ hne) rfl hresponses,
      (hbooked.kept.2 hn hfew).responses, Int.cast_natCast]

/-- A query is sent half a minute after the start and answered, and the minute passes. -/
def sentAtHalf : List Iteration :=
  let send (ready : Int) : SendCall := ⟨[], ⟨[], ready⟩, .success, .success, [], .sent⟩
  [⟨send 0, [], 1000 + 30 * million⟩,
    ⟨send 1, [⟨⟨[], 1⟩, [], .packet [0, 0, 128, 0]⟩], 1000 + 60 * million⟩,
    ⟨send 0, [], 1000 + 60 * million⟩, ⟨send 0, [], 1000 + 60 * million⟩]

theorem sentAtHalf_udp : ∀ it ∈ sentAtHalf, it.Udp := by
  simp [sentAtHalf, Iteration.Udp, SockReady.Late]

/-- The row of that query has it; the last of the 120 buckets is not printed. -/
theorem plot_omits_last_minute :
    ∃ s, (oneScheduled.plot 16 s).length = 119 ∧ s.numQueriesSent = 1 ∧
      ((oneScheduled.plot 16 s).map fun r => r.actualQps * oneScheduled.interval).sum +
        (oneScheduled.partialBucket s).queries = 1 := by
  obtain ⟨s, hrun, hend⟩ := Run.exists_of_follow oneScheduled.Keeps oneScheduled.next
    (oneScheduled.start []) sentAtHalf
    (fun s => (oneScheduled.switchPhase s).isNone ∧ s.numQueriesSent = 1 ∧
      oneScheduled.lastBucketUsed s = 118) (by decide +kernel)
  obtain ⟨hnone, hsent, hlast⟩ := of_decide_eq_true hend
  obtain ⟨hqueries, -⟩ := plot_omits_last oneScheduled 16 (by decide) [] _ s hrun sentAtHalf_udp
    (Option.isNone_iff_eq_none.mp hnone) (by rw [hsent]; decide)
  rw [hsent] at hqueries
  refine ⟨s, ?_, hsent, by exact_mod_cast hqueries⟩
  rw [Setup.plot, List.length_mapIdx, Setup.bucketsUsed, List.length_map, List.length_range, hlast]
  rfl

/-! ### The maximum throughput -/

/-- The buckets before the first one that has lost too much. -/
def Setup.bucketsAllowed (c : Setup) (maxLossPercent : ℚ) (s : State) : List RampBucket :=
  (c.bucketsUsed s).takeWhile (·.lossPercent ≤ maxLossPercent)

/-- The loop finds the maximum of what it begins with and of the buckets before the first one that
has lost too much. -/
theorem maxThroughput_spec (m : ℚ) (bs : List RampBucket) (best : ℚ × ℚ) :
    best.1 ≤ (c.maxThroughput m bs best).1 ∧
      (∀ b ∈ bs.takeWhile (·.lossPercent ≤ m),
        c.responsesPerSec b ≤ (c.maxThroughput m bs best).1) ∧
      (c.maxThroughput m bs best = best ∨ ∃ b ∈ bs.takeWhile (·.lossPercent ≤ m),
        best.1 < c.responsesPerSec b ∧
          c.maxThroughput m bs best = (c.responsesPerSec b, b.lossPercent)) := by
  induction bs generalizing best with
  | nil => exact ⟨le_rfl, by simp, Or.inl rfl⟩
  | cons b bs ih =>
      rw [Setup.maxThroughput]
      by_cases hloss : m < b.lossPercent
      · rw [if_pos hloss, List.takeWhile_cons_of_neg (by simpa using hloss)]
        exact ⟨le_rfl, by simp, Or.inl rfl⟩
      rw [if_neg hloss, List.takeWhile_cons_of_pos (by simpa using hloss)]
      by_cases hbest : best.1 < c.responsesPerSec b
      · rw [if_pos hbest]
        obtain ⟨hle, hall, hfound⟩ := ih (c.responsesPerSec b, b.lossPercent)
        refine ⟨hbest.le.trans hle, List.forall_mem_cons.mpr ⟨hle, hall⟩, Or.inr ?_⟩
        rcases hfound with hsame | ⟨b', hb', hlt, hfound⟩
        · exact ⟨b, List.mem_cons_self, hbest, hsame⟩
        · exact ⟨b', List.mem_cons_of_mem _ hb', hbest.trans hlt, hfound⟩
      · rw [if_neg hbest]
        obtain ⟨hle, hall, hfound⟩ := ih best
        refine ⟨hle, List.forall_mem_cons.mpr ⟨(not_lt.mp hbest).trans hle, hall⟩, ?_⟩
        rcases hfound with hsame | ⟨b', hb', hfound⟩
        · exact Or.inl hsame
        · exact Or.inr ⟨b', List.mem_cons_of_mem _ hb', hfound⟩

/-- A bucket that has had all the queries whose responses it has. -/
theorem lossPercent_mem {b : RampBucket} (h0 : 0 ≤ b.responses) (hle : b.responses ≤ b.queries)
    (hlt : b.queries < 2 ^ 31) : 0 ≤ b.lossPercent ∧ b.lossPercent ≤ 100 := by
  unfold RampBucket.lossPercent
  dsimp only
  by_cases hzero : b.queries = 0
  · simp [hzero]
  rw [if_pos hzero, toInt_of_lt (by omega) (by omega)]
  have hpos : (0 : ℚ) < b.queries := by exact_mod_cast (by omega : 0 < b.queries)
  have hnonneg : (0 : ℚ) ≤ (b.queries - b.responses : Int) := by exact_mod_cast sub_nonneg.mpr hle
  have hbound : ((b.queries - b.responses : Int) : ℚ) ≤ b.queries := by
    exact_mod_cast sub_le_self _ h0
  have hone := (div_le_one hpos).mpr hbound
  exact ⟨by positivity, by linarith⟩

theorem mem_bucketsUsed (hn : 0 < c.nBuckets) {b : RampBucket} (hb : b ∈ c.bucketsUsed s) :
    ∃ i, 0 ≤ i ∧ i < c.nBuckets ∧ b = s.buckets i := by
  obtain ⟨i, hi, rfl⟩ := List.mem_map.mp hb
  obtain ⟨h0, hlt⟩ := findBucket_mem hn s.waitPhaseBegan
  rw [List.mem_range] at hi
  simp only [Setup.lastBucketUsed] at hi
  refine ⟨i, by omega, ?_, rfl⟩
  split_ifs at hi <;> omega

/-- **The maximum throughput that is printed**, after a run over UDP: no bucket before the first one
that has lost too much has more, and one of them has it, with the loss that is printed, or they have
had no response at all. It is not more than all responses in one interval. With a limit of 100
percent no bucket has lost too much. -/
theorem max_throughput_reached (c : Setup) (maxLossPercent : ℚ) (hn : 0 < c.nBuckets)
    (opened : List SocketEvent) (es : List Iteration) (s : State)
    (hrun : Run (StepOf c.next) (c.start opened) es s)
    (hudp : ∀ it ∈ es, it.Udp) (hfew : s.numQueriesSent < 2 ^ 31) (throughput loss : ℚ)
    (hprint : c.maxThroughput maxLossPercent (c.bucketsUsed s) (0, 0) = (throughput, loss)) :
    (∀ b ∈ c.bucketsAllowed maxLossPercent s, c.responsesPerSec b ≤ throughput) ∧
      (throughput = 0 ∧ loss = 0 ∨ ∃ b ∈ c.bucketsAllowed maxLossPercent s, 0 < b.responses ∧
        throughput = c.responsesPerSec b ∧ loss = b.lossPercent) ∧
      throughput * c.interval ≤ s.numResponsesReceived ∧ 0 ≤ loss ∧ loss ≤ 100 ∧
      (100 ≤ maxLossPercent → c.bucketsAllowed maxLossPercent s = c.bucketsUsed s) := by
  have hbooked := run_booked hn hrun hudp
  have hresponses := hbooked.kept.2 hn hfew
  have hinterval := interval_pos c
  have hlosses : ∀ b ∈ c.bucketsUsed s, 0 ≤ b.lossPercent ∧ b.lossPercent ≤ 100 := by
    intro b hb
    obtain ⟨i, h0, hlt, rfl⟩ := mem_bucketsUsed hn hb
    obtain ⟨hloss, hle⟩ := hbooked.noGain.loss hfew i h0 hlt
    exact lossPercent_mem (hresponses.nonneg i) (by omega) (by omega)
  have hused : c.bucketsAllowed maxLossPercent s <+: c.bucketsUsed s := List.takeWhile_prefix _
  obtain ⟨-, hall, hfound⟩ := maxThroughput_spec (c := c) maxLossPercent (c.bucketsUsed s) (0, 0)
  rw [hprint] at hall hfound
  refine ⟨hall, ?_⟩
  have hlimit : 100 ≤ maxLossPercent → c.bucketsAllowed maxLossPercent s = c.bucketsUsed s := by
    intro hlimit
    refine List.takeWhile_eq_self_iff.mpr fun b hb => decide_eq_true ?_
    exact (hlosses b hb).2.trans hlimit
  -- no bucket is above 0, or the one printed is
  rcases hfound with hzero | ⟨b, hb, hpos, hfound⟩
  · obtain ⟨rfl, rfl⟩ := Prod.mk.inj hzero
    refine ⟨Or.inl ⟨rfl, rfl⟩, ?_, le_rfl, by norm_num, hlimit⟩
    rw [zero_mul]
    exact Nat.cast_nonneg _
  · obtain ⟨rfl, rfl⟩ := Prod.mk.inj hfound
    obtain ⟨i, h0, hlt, hbucket⟩ := mem_bucketsUsed hn (hused.subset hb)
    have hle : b.responses ≤ s.numResponsesReceived := hbucket ▸ hresponses.le h0 hlt
    have hrate : c.responsesPerSec b * c.interval = b.responses := div_mul_cancel₀ _ hinterval.ne'
    have hsome : (0 : ℚ) < b.responses := hrate ▸ mul_pos hpos hinterval
    refine ⟨Or.inr ⟨b, hb, by exact_mod_cast hsome, rfl, rfl⟩, ?_, hlosses b (hused.subset hb) |>.1,
      hlosses b (hused.subset hb) |>.2, hlimit⟩
    rw [hrate]
    exact_mod_cast hle

/-- One response in half a second. -/
theorem max_throughput_reached_minute :
    ∃ s, oneScheduled.maxThroughput 100 (oneScheduled.bucketsUsed s) (0, 0) = (2, 0) ∧
      (∀ b ∈ oneScheduled.bucketsUsed s, oneScheduled.responsesPerSec b ≤ 2) ∧
      ∃ b ∈ oneScheduled.bucketsAllowed 100 s, 0 < b.responses ∧
        2 = oneScheduled.responsesPerSec b := by
  obtain ⟨s, hrun, hend⟩ := Run.exists_of_follow (fun _ _ => True) oneScheduled.next
    (oneScheduled.start []) sentAtHalf
    (fun s => s.numQueriesSent = 1 ∧
      oneScheduled.maxThroughput 100 (oneScheduled.bucketsUsed s) (0, 0) = (2, 0))
    (by decide +kernel)
  obtain ⟨hsent, hprint⟩ := of_decide_eq_true hend
  obtain ⟨hall, hfound, -, -, -, hlimit⟩ := max_throughput_reached oneScheduled 100 (by decide) [] _
    s (hrun.mono fun _ _ _ hstep => hstep.2) sentAtHalf_udp (by rw [hsent]; decide) 2 0 hprint
  rw [hlimit le_rfl] at hall
  refine ⟨s, hprint, hall, ?_⟩
  rcases hfound with ⟨hzero, -⟩ | ⟨b, hb, hpos, hrate, -⟩
  · exact absurd hzero (by norm_num)
  · exact ⟨b, hb, hpos, hrate⟩

end Dnsperf.Resperf
