import Dnsperf.Resperf.Buckets
import Dnsperf.Resperf.Changes

/-!
# Dnsperf.Resperf.Phases

**The phases of a test.** They follow one another and never come back: in the wait phase nothing is
sent, and the queries that are outstanding can only get fewer (`phases_advance`). And the main loop
ends: once the clock has passed `end_time`, two iterations are the most there can be
(`main_loop_ends`).
-/

namespace Dnsperf.Resperf

open Dnsperf.Lib Dnsperf.Stats

variable {c : Setup} {late : Prop} {s s' : State}

/-! ### The order of the phases -/

/-- The phases in their order. -/
def Phase.rank : Phase → Nat
  | .ramp => 0
  | .sustain => 1
  | .wait => 2

theorem Phase.rank_le_wait (p : Phase) : p.rank ≤ Phase.wait.rank := by
  cases p <;> decide

theorem Phase.eq_wait_of_rank {p : Phase} (h : Phase.wait.rank ≤ p.rank) : p = .wait := by
  cases p with
  | wait => rfl
  | _ => exact absurd h (by decide)

/-- **No change goes back to an earlier phase.** -/
theorem Change.rank_le (h : Change c late s s') : s.phase.rank ≤ s'.phase.rank := by
  cases h with
  | settle hsettle => rw [hsettle.frame.phase]
  | sustain hphase =>
      rw [hphase]
      exact Nat.zero_le _
  | wait _ => exact Phase.rank_le_wait _
  | _ => exact le_rfl

theorem Changes.rank_le (h : Changes c late s s') : s.phase.rank ≤ s'.phase.rank :=
  h.invariant (I := fun s' => s.phase.rank ≤ s'.phase.rank)
    (fun _ _ hle hchange => hle.trans hchange.rank_le) le_rfl

theorem next_rank {it : Iteration} (h : c.next s it = some s') : s.phase.rank ≤ s'.phase.rank := by
  obtain ⟨s₁, s₂, hswitch, hchanges, rfl⟩ := next_changes h
  have hswitched : Changes c True s s₁ := switchPhase_changes hswitch
  exact hswitched.rank_le.trans hchanges.rank_le

theorem next_of_wait {it : Iteration} (hwait : s.phase = .wait) (h : c.next s it = some s') :
    SettleFrame s s' := by
  obtain ⟨s₁, s₂, s₃, hswitch, -, hsend, hsettles, rfl⟩ := next_parts h
  simp only [Setup.switchPhase, hwait] at hswitch
  split_ifs at hswitch
  obtain rfl := Option.some.inj hswitch
  rcases hsend with ⟨-, rfl⟩ | ⟨hne, -⟩
  · obtain ⟨hphase, hsent, hinprogress, hout, hin⟩ := hsettles.frame
    exact ⟨hphase, hsent, hinprogress, hout, hin⟩
  · exact absurd hwait hne

/-- **The phases only go forward, and in the wait phase nothing is sent.** However many iterations
follow and whatever they meet: the phase is the same or a later one; and from a state of the wait
phase on, the number of queries sent stays what it is, no query becomes outstanding, and none is
marked as sent that was still in progress. -/
theorem phases_advance (c : Setup) (s s' : State) (es : List Iteration)
    (hrun : Run (StepOf c.next) s es s') :
    s.phase.rank ≤ s'.phase.rank ∧
      (s.phase = .wait → s'.numQueriesSent = s.numQueriesSent ∧
        s'.outstanding.Sublist s.outstanding ∧
        ∀ q, (s'.queries q).isInprogress = (s.queries q).isInprogress) := by
  refine ⟨hrun.invariant (I := fun s' => s.phase.rank ≤ s'.phase.rank)
    (fun _ _ _ hle hstep => hle.trans (next_rank hstep)) le_rfl, fun hwait => ?_⟩
  have hs : SettleFrame s s' := hrun.invariant
    (fun _ _ _ hs hstep => hs.trans (next_of_wait (hs.phase.trans hwait) hstep)) (.refl s)
  exact ⟨hs.numQueriesSent, hs.outstanding, hs.inprogress⟩

/-- A minute in which one query is scheduled. -/
def oneScheduled : Setup := { minuteLong with numScheduled := fun _ _ => 1 }

/-- A query is sent after half a minute, and the minute passes. Two iterations later the wait phase
has begun; in it the response takes away the query that was outstanding. -/
theorem phases_advance_minute :
    ∃ s s' it, s.phase = .wait ∧ s.outstanding = [0] ∧ s'.outstanding = [] ∧
      oneScheduled.next s it = some s' ∧ s'.numQueriesSent = s.numQueriesSent := by
  let send (ready : Int) : SendCall := ⟨[], ⟨[], ready⟩, .success, .success, [], .sent⟩
  let it : Iteration := ⟨send 1, [⟨⟨[], 1⟩, [], .packet [0, 0, 128, 0]⟩], 1000 + 60 * million⟩
  obtain ⟨s, -, hend⟩ := Run.exists_of_follow (fun _ _ => True) oneScheduled.next
    (oneScheduled.start [])
    (⟨send 0, [], 1000 + 30 * million⟩ :: List.replicate 3 ⟨send 1, [], 1000 + 60 * million⟩)
    (fun s => s.phase = .wait ∧ s.outstanding = [0] ∧
      (oneScheduled.next s it).map State.outstanding = some []) (by decide +kernel)
  obtain ⟨hwait, hout, hnext⟩ := of_decide_eq_true hend
  obtain ⟨s', hnext, hout'⟩ := Option.map_eq_some_iff.mp hnext
  obtain ⟨-, hlast⟩ := phases_advance oneScheduled s s' [it] (Run.cons hnext (Run.nil s'))
  exact ⟨s, s', it, hwait, hout, hout', hnext, (hlast hwait).1⟩

/-! ### The end of the main loop -/

/-- The clock does not go back, and fits into 64 bits. -/
def Ticks (s : State) (it : Iteration) : Prop := s.timeNow ≤ it.now ∧ it.now < 2 ^ 64

instance (s : State) (it : Iteration) : Decidable (Ticks s it) :=
  inferInstanceAs (Decidable (_ ∧ _))

/-- The time for the test is over. -/
structure Setup.Over (c : Setup) (s : State) : Prop where
  late : c.timeOfProgramStart + c.endTime ≤ s.timeNow
  lt : s.timeNow < 2 ^ 64

theorem Setup.Over.le_timeSinceStart (h : c.Over s) : c.endTime ≤ c.timeSinceStart s := by
  have hlate := h.late
  have hlt := h.lt
  simp only [Setup.timeSinceStart, toUint64]
  omega

theorem times_ordered (hsum : c.rampTime + c.sustainTime + waitTime < 2 ^ 64) :
    c.rampTime ≤ c.trafficTime ∧ c.trafficTime ≤ c.endTime := by
  simp only [Options.endTime, Options.trafficTime, toUint64]
  omega

/-- When the time is over, every iteration leads to the next phase. -/
theorem next_of_over {it : Iteration} (hsum : c.rampTime + c.sustainTime + waitTime < 2 ^ 64)
    (hover : c.Over s) (h : c.next s it = some s') : s.phase.rank < s'.phase.rank := by
  obtain ⟨s₁, s₂, hswitch, hchanges, rfl⟩ := next_changes h
  obtain ⟨hramp, htraffic⟩ := times_ordered hsum
  have hend := hover.le_timeSinceStart
  have hlt : s.phase.rank < s₁.phase.rank := by
    unfold Setup.switchPhase at hswitch
    split at hswitch <;> rename_i hphase <;> rw [hphase]
    · rw [if_pos (by omega)] at hswitch
      obtain rfl := Option.some.inj hswitch
      exact Nat.lt_succ_self 0
    · rw [if_pos (by omega)] at hswitch
      obtain rfl := Option.some.inj hswitch
      exact Nat.lt_succ_self 1
    · rw [if_pos (Or.inl hend)] at hswitch
      cases hswitch
  exact hlt.trans_le hchanges.rank_le

/-- **The main loop ends.** With times whose sum fits into 64 bits and a clock that does not go
back, at most two iterations begin after the one that read a time past `end_time`, whatever is
received, sent or still outstanding. -/
theorem main_loop_ends (c : Setup) (hsum : c.rampTime + c.sustainTime + waitTime < 2 ^ 64)
    (s s' : State) (es : List Iteration) (hover : c.Over s)
    (hrun : Run (Guarded Ticks (StepOf c.next)) s es s') : es.length ≤ 2 := by
  have hrank : s.phase.rank + es.length ≤ s'.phase.rank := by
    induction hrun with
    | nil s => exact le_rfl
    | cons hstep _ ih =>
        obtain ⟨hticks, hnext⟩ := hstep
        have hlt := next_of_over hsum hover hnext
        obtain ⟨_, _, -, -, rfl⟩ := next_changes hnext
        have hrest := ih ⟨hover.late.trans hticks.1, hticks.2⟩
        rw [List.length_cons]
        omega
  have hle : s'.phase.rank ≤ 2 := s'.phase.rank_le_wait
  omega

/-- A query is not answered, and the clock is past the end of the minute and of the 40 seconds. Two
more iterations change the phases; that the query is still outstanding does not matter. -/
theorem main_loop_ends_unanswered :
    ∃ s s' es, oneScheduled.Over s ∧
      Run (Guarded Ticks (StepOf oneScheduled.next)) s es s' ∧ s'.outstanding = [0] ∧
      s'.phase = .wait ∧ es.length ≤ 2 := by
  let it : Iteration := ⟨⟨[], ⟨[], 1⟩, .success, .success, [], .sent⟩, [], 1000 + 100 * million⟩
  let late : State := { oneScheduled.start [] with timeNow := 1000 + 100 * million }
  have hover : oneScheduled.Over late := ⟨by decide, by decide⟩
  obtain ⟨s', hrun, hend⟩ := Run.exists_of_follow Ticks oneScheduled.next late [it, it]
    (fun s => s.outstanding = [0] ∧ s.phase = .wait) (by decide +kernel)
  obtain ⟨hout, hwait⟩ := of_decide_eq_true hend
  exact ⟨late, s', [it, it], hover, hrun, hout, hwait,
    main_loop_ends oneScheduled (by decide) late s' [it, it] hover hrun⟩

end Dnsperf.Resperf
