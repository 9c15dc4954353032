import Dnsperf.Lib.Quota
import Dnsperf.Thread.Accounting

/-!
# Dnsperf.Thread.Pacing

**The queries of one second.** `do_send` limits the rate with the end of a slice of one second
(`q_slice`), the queries sent in it (`q_sent`) and the time of the next (`req_time`). The slice goes
on by one second when its end has passed, however long ago, and `q_sent` starts again from 0.

`Paced` is the thread with, for each query counted as sent, the time that the round of the loop
went by. No slice gets more than `max_qps` of them if the rate limiter is always reached before the
slice after the current one is over. After a longer wait several rounds each begin a slice, and all
of them send in the same second.
-/

namespace Dnsperf.Thread

open Dnsperf.Lib Dnsperf.Net

/-- A thread, with the times of its queries. -/
structure Paced where
  pair : Pair
  /-- The time the round goes by: `now` when it gets to the rate limiter, so if the throttle before
  it has read the clock again, what it read. -/
  reading : Nat
  /-- That time for each query counted as sent. -/
  counted : List Nat

namespace Paced

/-- The thread takes a step. -/
def next (cfg : Config) (p : Paced) (step : Pair.Step) : Option Paced :=
  (p.pair.next cfg step).map fun c =>
    match step with
    | .sender .limit => { p with pair := c, reading := p.pair.vars.now }
    | .sender .count => { p with pair := c, counted := p.reading :: p.counted }
    | _ => { p with pair := c }

def start (now : Nat) : Paced := ⟨Pair.start now, now, []⟩

/-- How many of the queries counted as sent have a time in slice `k` from `t₀` on. -/
def sentIn (t₀ k : Nat) (p : Paced) : Nat :=
  p.counted.countP fun r => t₀ + k * million ≤ r ∧ r < t₀ + (k + 1) * million

/-- The rate limiter is reached before the slice after the current one is over. -/
def KeepsUp (p : Paced) : Pair.Step → Prop
  | .sender .limit => p.pair.vars.now < p.pair.vars.qSlice + million
  | _ => True

instance (p : Paced) (step : Pair.Step) : Decidable (p.KeepsUp step) :=
  match step with
  | .sender .limit => inferInstanceAs (Decidable (p.pair.vars.now < p.pair.vars.qSlice + million))
  | .sender .loop | .sender .throttle | .sender (.flush _) | .sender .again | .sender (.lock _)
  | .sender (.input _) | .sender .undo | .sender .clock | .sender .stamp | .sender (.send _)
  | .sender .count | .sender .rollback | .sender (.drain _) | .receiver _ | .tick _
  | .interrupt => .isTrue trivial

end Paced

/-- The query at hand has passed the rate limiter. -/
def SenderAt.passed : SenderAt → Bool
  | .lock | .input _ _ | .undo _ | .clock _ _ _ | .stamp _ _ _ | .send _ _ _ | .count _ _
  | .failed _ => true
  | .top | .throttle | .flush | .limit | .again | .drain | .done | .fatal => false

/-! ### What the steps do to the limiter -/

/-- The limiter's slice and counter are the same. -/
def SenderVars.SamePace (v v' : SenderVars) : Prop := v'.qSlice = v.qSlice ∧ v'.qSent = v.qSent

theorem samePace_flushSocks {now : Nat} {socks : List Nat} {calls : List ThreadInfo.SockreadyCall}
    {v v' : SenderVars} {t t' : ThreadInfo}
    (hflush : flushSocks now socks calls v t = some (v', t')) : v.SamePace v' := by
  induction socks generalizing t calls v with
  | nil =>
      rw [flushSocks, Option.some.injEq] at hflush
      rw [(Prod.mk.inj hflush).1]
      exact ⟨rfl, rfl⟩
  | cons i socks ih =>
      unfold flushSocks at hflush
      split_ifs at hflush
      · cases calls with
        | nil => cases hflush
        | cons call calls =>
            obtain ⟨hslice, hsent⟩ := ih hflush
            refine ⟨hslice.trans ?_, hsent.trans ?_⟩ <;> split_ifs <;> rfl
      · exact ih hflush

theorem samePace_drainSocks {now n : Nat} {calls : List ThreadInfo.SockreadyCall}
    {v v' : SenderVars} {t t' : ThreadInfo}
    (hdrain : drainSocks now n calls v t = some (v', t')) : v.SamePace v' := by
  induction n generalizing t calls v with
  | zero =>
      rw [drainSocks, Option.some.injEq] at hdrain
      rw [(Prod.mk.inj hdrain).1]
      exact ⟨rfl, rfl⟩
  | succ n ih =>
      cases calls with
      | nil => cases hdrain
      | cons call calls =>
          obtain ⟨hslice, hsent⟩ := ih hdrain
          refine ⟨hslice.trans ?_, hsent.trans ?_⟩ <;> split_ifs <;> rfl

namespace Pair

variable {cfg : Config} {c c' : Pair}

/-- The limiter itself and `q_sent++` apart, `do_send` leaves the slice and its counter alone. -/
theorem samePace_nextSender {step : SenderStep} (hstep : c.nextSender cfg step = some c')
    (hlimit : step ≠ .limit) (hcount : step ≠ .count) : c.vars.SamePace c'.vars := by
  cases step with
  | limit => exact absurd rfl hlimit
  | count => exact absurd rfl hcount
  | loop | throttle | again =>
      obtain ⟨-, hc'⟩ := Option.ite_none_right_eq_some.mp hstep
      rw [← Option.some.inj hc']
      exact ⟨rfl, rfl⟩
  | flush calls =>
      obtain ⟨-, hc'⟩ := Option.ite_none_right_eq_some.mp hstep
      split_ifs at hc'
      · obtain ⟨⟨vars, tinfo⟩, hflush, rfl⟩ := Option.map_eq_some_iff.mp hc'
        obtain ⟨hslice, hsent⟩ := samePace_flushSocks hflush
        exact ⟨hslice, hsent⟩
      · rw [← Option.some.inj hc']
        exact ⟨rfl, rfl⟩
  | lock calls =>
      obtain ⟨-, hc'⟩ := Option.ite_none_right_eq_some.mp hstep
      obtain ⟨_, -, rfl⟩ := Option.map_eq_some_iff.mp hc'
      exact ⟨rfl, rfl⟩
  | input | undo | clock | stamp | rollback =>
      simp only [nextSender] at hstep
      split at hstep <;> cases hstep <;> exact ⟨rfl, rfl⟩
  | send result =>
      simp only [nextSender] at hstep
      split at hstep
      · split at hstep <;> cases hstep <;> exact ⟨rfl, rfl⟩
      · cases hstep
  | drain calls =>
      obtain ⟨-, hc'⟩ := Option.ite_none_right_eq_some.mp hstep
      split_ifs at hc'
      · obtain ⟨⟨vars, tinfo⟩, hdrain, rfl⟩ := Option.map_eq_some_iff.mp hc'
        obtain ⟨hslice, hsent⟩ := samePace_drainSocks hdrain
        exact ⟨hslice, hsent⟩
      · rw [← Option.some.inj hc']
        exact ⟨rfl, rfl⟩

/-- What `do_send` does to its time, and that only the limiter lets a query pass. -/
theorem Sends.pace {step : SenderStep} (h : Sends cfg c step c') :
    (c'.vars.now = c.vars.now ∨ c'.vars.now = c.clock) ∧ c'.clock = c.clock ∧
      (step ≠ .limit → c'.sender.passed = true → c.sender.passed = true) := by
  cases h with
  | loop hat | stop hat | done hat | rollback hat | undo hat =>
      exact ⟨Or.inl rfl, rfl, fun _ hpassed => by cases hpassed⟩
  | throttle hat hnow => exact ⟨hnow, rfl, fun _ hpassed => by cases hpassed⟩
  | flush hat _ hnow | count hat hnow =>
      exact ⟨Or.inl hnow, rfl, fun _ hpassed => by cases hpassed⟩
  | limit hat hnow | wait hat hnow => exact ⟨Or.inl hnow, rfl, fun hne => absurd rfl hne⟩
  | again hat hnow => exact ⟨Or.inr hnow, rfl, fun _ hpassed => by cases hpassed⟩
  | lock hat | eof hat | unbuilt hat | built hat | stamp hat | failed hat =>
      exact ⟨Or.inl rfl, rfl, fun _ _ => by rw [hat]; rfl⟩
  | clock hat hnow => exact ⟨Or.inr hnow, rfl, fun _ _ => by rw [hat]; rfl⟩
  | sent hat hnow => exact ⟨Or.inl hnow, rfl, fun _ _ => by rw [hat]; rfl⟩
  | drain hat _ hnow => exact ⟨Or.inl hnow, rfl, fun _ hpassed => hpassed⟩

end Pair

/-- The number of the slice from `t₀` on. -/
def sliceOf (t₀ r : Nat) : Nat := (r - t₀) / million

theorem sliceOf_eq {t₀ k r : Nat} (hle : t₀ + k * million ≤ r) (hlt : r < t₀ + (k + 1) * million) :
    sliceOf t₀ r = k := by
  unfold sliceOf
  unfold million at hle hlt ⊢
  omega

namespace Paced

variable {cfg : Config} {p p' : Paced} {t₀ j : Nat}

/-- **The state of the limiter in slice `j`.** -/
structure InSlice (cfg : Config) (t₀ j : Nat) (p : Paced) : Prop where
  slice : p.pair.vars.qSlice = t₀ + (j + 1) * million
  begun : t₀ + j * million ≤ p.pair.vars.now
  now_le : p.pair.vars.now ≤ p.pair.clock
  quota : Quota (sliceOf t₀) cfg.maxQps j p.pair.vars.qSent p.counted
  passed : p.pair.sender.passed = true →
    sliceOf t₀ p.reading = j ∧ p.pair.vars.qSent < cfg.maxQps

theorem InSlice.frame (h : InSlice cfg t₀ j p) (hpace : p.pair.vars.SamePace p'.pair.vars)
    (hreading : p'.reading = p.reading) (hcounted : p'.counted = p.counted)
    (hnow : p'.pair.vars.now = p.pair.vars.now ∨ p'.pair.vars.now = p.pair.clock)
    (hclock : p.pair.clock ≤ p'.pair.clock)
    (hpassed : p'.pair.sender.passed = true → p.pair.sender.passed = true) :
    InSlice cfg t₀ j p' := by
  have hbegun := h.begun
  have hle := h.now_le
  refine ⟨hpace.1.trans h.slice, ?_, ?_, ?_, fun hat => ?_⟩
  · omega
  · omega
  · rw [hpace.2, hcounted]
    exact h.quota
  · rw [hreading, hpace.2]
    exact h.passed (hpassed hat)

/-- The limiter: a new slice may begin, and then it is the one the time is in. -/
theorem inSlice_limit {c' : Pair} (hqps : 0 < cfg.maxQps) (h : InSlice cfg t₀ j p)
    (hkeeps : p.pair.vars.now < p.pair.vars.qSlice + million)
    (hstep : p.pair.nextSender cfg .limit = some c') :
    ∃ j', InSlice cfg t₀ j' { p with pair := c', reading := p.pair.vars.now } := by
  obtain ⟨-, hc'⟩ := Option.ite_none_right_eq_some.mp hstep
  change some { p.pair with
    sender := if (p.pair.vars.rateLimit cfg).1 then .lock else .again
    vars := (p.pair.vars.rateLimit cfg).2 } = some c' at hc'
  rw [← Option.some.inj hc']
  have hslice := h.slice
  have hbegun := h.begun
  by_cases hnew : p.pair.vars.qSlice ≤ p.pair.vars.now
  · refine ⟨j + 1, ?_⟩
    rw [Pair.rateLimit_new hqps hnew]
    refine ⟨?_, ?_, h.now_le, h.quota.advance, fun _ => ⟨sliceOf_eq ?_ ?_, hqps⟩⟩
    · dsimp only
      rw [hslice]
      ring
    · exact hslice ▸ hnew
    · exact hslice ▸ hnew
    · calc p.pair.vars.now < p.pair.vars.qSlice + million := hkeeps
        _ = t₀ + (j + 1 + 1) * million := by rw [hslice]; ring
  · have hlt := Nat.lt_of_not_le hnew
    obtain ⟨hsame, hsent⟩ := Pair.rateLimit_within cfg hlt
    have hnow := Pair.rateLimit_now cfg p.pair.vars
    refine ⟨j, hsame.trans hslice, hnow.symm ▸ hbegun, hnow.symm ▸ h.now_le, ?_, fun hat => ?_⟩
    · rw [hsent]
      exact h.quota
    · refine ⟨sliceOf_eq hbegun (hslice ▸ hlt), Pair.rateLimit_pass hqps ?_⟩
      by_contra hgo
      rw [if_neg hgo] at hat
      cases hat

theorem inSlice_count {c' : Pair} (h : InSlice cfg t₀ j p)
    (hstep : p.pair.nextSender cfg .count = some c') :
    InSlice cfg t₀ j { p with pair := c', counted := p.reading :: p.counted } := by
  cases hat : p.pair.sender with
  | count q length =>
      simp only [Pair.nextSender, hat, Option.some.injEq] at hstep
      obtain ⟨hreading, hlt⟩ := h.passed (by rw [hat]; rfl)
      rw [← hstep]
      exact ⟨h.slice, h.begun, h.now_le, h.quota.admit hlt hreading,
        fun hpassed => by cases hpassed⟩
  | _ => simp [Pair.nextSender, hat] at hstep

theorem inSlice_next (hqps : 0 < cfg.maxQps) (p : Paced) (step : Pair.Step) (p' : Paced)
    (h : ∃ j, InSlice cfg t₀ j p) (hstep : Guarded KeepsUp (StepOf (next cfg)) p step p') :
    ∃ j, InSlice cfg t₀ j p' := by
  obtain ⟨hkeeps, hstep⟩ := hstep
  obtain ⟨j, h⟩ := h
  obtain ⟨c', hc', rfl⟩ := Option.map_eq_some_iff.mp hstep
  cases step with
  | sender step =>
      by_cases hlimit : step = .limit
      · subst hlimit
        exact inSlice_limit hqps h hkeeps hc'
      by_cases hcount : step = .count
      · subst hcount
        exact ⟨j, inSlice_count h hc'⟩
      obtain ⟨hnow, hclock, hpassed⟩ := (Pair.sends_of_nextSender hc').pace
      have hpace := Pair.samePace_nextSender hc' hlimit hcount
      refine ⟨j, ?_⟩
      cases step with
      | limit => exact absurd rfl hlimit
      | count => exact absurd rfl hcount
      | _ => exact h.frame hpace rfl rfl hnow hclock.ge (hpassed hlimit)
  | receiver step =>
      obtain ⟨hsender, hvars, hclock, -⟩ := (Pair.receives_of_nextReceiver hc').frame
      refine ⟨j, h.frame ⟨?_, ?_⟩ rfl rfl (Or.inl ?_) hclock.ge fun hat => ?_⟩
      · exact congrArg SenderVars.qSlice hvars
      · exact congrArg SenderVars.qSent hvars
      · exact congrArg SenderVars.now hvars
      · exact (congrArg SenderAt.passed hsender).symm.trans hat
  | tick now =>
      obtain ⟨⟨hle, -⟩, hc'⟩ := Option.ite_none_right_eq_some.mp hc'
      rw [← Option.some.inj hc']
      exact ⟨j, h.frame ⟨rfl, rfl⟩ rfl rfl (Or.inl rfl) hle id⟩
  | interrupt =>
      obtain rfl := Option.some.inj hc'
      exact ⟨j, h.frame ⟨rfl, rfl⟩ rfl rfl (Or.inl rfl) le_rfl id⟩

theorem inSlice_start (cfg : Config) (t₀ : Nat) : InSlice cfg t₀ 0 (start t₀) := by
  refine ⟨?_, ?_, le_rfl, .nil .., fun hat => by cases hat⟩
  · change t₀ + million = t₀ + (0 + 1) * million
    ring
  · change t₀ + 0 * million ≤ t₀
    omega

theorem sentIn_le_inWindow (t₀ k : Nat) (p : Paced) :
    p.sentIn t₀ k ≤ inWindow (sliceOf t₀) k p.counted := by
  refine List.countP_mono_left fun r _ hr => ?_
  obtain ⟨hle, hlt⟩ := of_decide_eq_true hr
  exact decide_eq_true (sliceOf_eq hle hlt)

/-- The times are only noted: the thread runs as it does without them. -/
theorem run_pair {steps : List Pair.Step} (hrun : Run (StepOf (next cfg)) p steps p') :
    Run (StepOf (Pair.next cfg)) p.pair steps p'.pair := by
  refine hrun.map pair fun p step p' hstep => ?_
  obtain ⟨c', hc', rfl⟩ := Option.map_eq_some_iff.mp hstep
  refine hc'.trans (congrArg some ?_)
  split <;> rfl

end Paced

/-- **No more than `max_qps` queries in a slice**, if the rate limiter is always reached before the
slice after the current one is over. -/
theorem sentIn_le_maxQps (cfg : Config) (hqps : 0 < cfg.maxQps) (t₀ : Nat)
    (steps : List Pair.Step) (p : Paced)
    (hrun : Run (Guarded Paced.KeepsUp (StepOf (Paced.next cfg))) (Paced.start t₀) steps p)
    (k : Nat) : p.sentIn t₀ k ≤ cfg.maxQps := by
  obtain ⟨j, h⟩ := hrun.invariant (Paced.inSlice_next hqps) ⟨0, Paced.inSlice_start cfg t₀⟩
  exact (Paced.sentIn_le_inWindow t₀ k p).trans (h.quota.le k)

namespace Pair

/-- As `oneSocket`, with one query a second. -/
def oneASecond : Config := { oneSocket with maxQps := 1 }

/-- A query is sent. -/
def sendQuery : List Step := stampQuery ++ [.sender (.send (.ok 29)), .sender .count]

/-- A query is sent for which the input has to be waited for until `now`. -/
def sendSlowly (now : Nat) : List Step :=
  stampQuery.take 5 ++ .tick now :: stampQuery.drop 5 ++ [.sender (.send (.ok 29)), .sender .count]

end Pair

/-- One query in the first slice, and one in the second. -/
theorem sentIn_le_one :
    ∃ p : Paced, p.counted = [1001500, 1000] ∧ ∀ k, p.sentIn 1000 k ≤ 1 := by
  obtain ⟨p, hrun, hend⟩ := Run.exists_of_follow Paced.KeepsUp (Paced.next Pair.oneASecond)
    (Paced.start 1000)
    (List.flatten [Pair.sendQuery, [.tick 1001500], Pair.sendQuery])
    (fun p => p.counted = [1001500, 1000]) (by decide)
  exact ⟨p, of_decide_eq_true hend,
    sentIn_le_maxQps Pair.oneASecond (by decide) 1000 _ p hrun⟩

/-- **Three queries in one second where one is allowed**: the input keeps `do_send` waiting for
three seconds, and each of the next three rounds begins a slice. -/
theorem sentIn_over_maxQps :
    ∃ steps p, Run (StepOf (Paced.next Pair.oneASecond)) (Paced.start 1000) steps p ∧
      Run (StepOf (Pair.next Pair.oneASecond)) (Pair.start 1000) steps p.pair ∧
      p.sentIn 1000 3 = 3 := by
  obtain ⟨p, hrun, hend⟩ := Run.exists_of_follow (fun _ _ => True) (Paced.next Pair.oneASecond)
    (Paced.start 1000)
    (List.flatten [Pair.sendSlowly 3001500, Pair.sendQuery, Pair.sendQuery, Pair.sendQuery])
    (fun p => p.sentIn 1000 3 = 3) (by decide)
  have hrun := hrun.mono fun _ _ _ hstep => hstep.2
  exact ⟨_, p, hrun, Paced.run_pair hrun, of_decide_eq_true hend⟩

end Dnsperf.Thread
