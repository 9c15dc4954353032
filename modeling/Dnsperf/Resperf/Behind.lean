import Dnsperf.Resperf.Ahead
import Dnsperf.Resperf.Phases

/-!
# Dnsperf.Resperf.Behind

**Falling behind.** The main loop gives up when `should_send` has reached `max_fall_behind`, an
`int` compared with an `unsigned int`: a negative `should_send`, after more queries than were
scheduled, is a very large number there.

`do_one_line` is called when one query is due, but it counts the one that was in progress, too. That
is how more queries are sent than were scheduled, one at the most (`sent_le_scheduled_succ`).
`Setup.OnSchedule` excludes it: where a single query is due, no call of `do_one_line` finds the
query in progress sent and sends another one.
-/

namespace Dnsperf.Resperf

open Dnsperf.Lib Dnsperf.Stats

variable {c : Setup} {s s' : State}

/-! ### The schedule -/

namespace Setup

variable (c) (s)

/-- What `num_scheduled` returns in the iteration that begins in `s`, if it is called. -/
def scheduled : Option Int :=
  match c.switchPhase s with
  | none => none
  | some s => if s.phase = .wait then none else some (c.numScheduled s.phase (c.timeSinceStart s))

/-- The iteration that begins in `s` finds that it has fallen behind. -/
def fellBehind : Bool :=
  match c.switchPhase s with
  | none => false
  | some s => s.phase ≠ .wait && c.maxFallBehind ≠ 0 && c.maxFallBehind ≤ toUint32 (c.shouldSend s)

/-- The schedule does not go back from one iteration to the next. -/
def Rises (it : Iteration) : Prop :=
  ∀ s' ∈ c.next s it, ∀ n ∈ c.scheduled s, ∀ n' ∈ c.scheduled s', n ≤ n'

/-- Where a single query is due, the call of `do_one_line` does not count two. -/
def OnSchedule (it : Iteration) : Prop :=
  c.scheduled s = some (s.numQueriesSent + 1 : Int) → ¬ CountsTwo s it.send

instance (it : Iteration) : Decidable (c.Rises s it) :=
  inferInstanceAs
    (Decidable (∀ s' ∈ c.next s it, ∀ n ∈ c.scheduled s, ∀ n' ∈ c.scheduled s', n ≤ n'))

instance (it : Iteration) : Decidable (c.OnSchedule s it) :=
  inferInstanceAs (Decidable (_ → ¬ _))

end Setup

variable {s₁ : State} {call : SendCall} {it : Iteration} {n : Int}

theorem scheduled_eq_some (h : c.scheduled s = some n) :
    ∃ s₁, c.switchPhase s = some s₁ ∧ s₁.phase ≠ .wait ∧
      n = c.numScheduled s₁.phase (c.timeSinceStart s₁) := by
  unfold Setup.scheduled at h
  split at h
  · cases h
  · rename_i s₁ hswitch
    split_ifs at h with hwait
    exact ⟨s₁, hswitch, hwait, (Option.some.inj h).symm⟩

theorem switchPhase_cases (h : c.switchPhase s = some s₁) :
    s₁ = s ∨ s₁ = s.enterSustainPhase ∨ s₁ = s.enterWaitPhase := by
  unfold Setup.switchPhase at h
  split at h
  · rw [← Option.some.inj h]
    split_ifs <;> simp
  · rw [← Option.some.inj h]
    split_ifs <;> simp
  · split_ifs at h
    exact Or.inl (Option.some.inj h).symm

theorem switchPhase_numQueriesSent (h : c.switchPhase s = some s₁) :
    s₁.numQueriesSent = s.numQueriesSent := by
  rcases switchPhase_cases h with rfl | rfl | rfl <;> rfl

theorem switchPhase_countsTwo (h : c.switchPhase s = some s₁) (call : SendCall) :
    CountsTwo s₁ call ↔ CountsTwo s call := by
  rcases switchPhase_cases h with rfl | rfl | rfl <;> exact Iff.rfl

theorem scheduled_of_wait (h : s.phase = .wait) : c.scheduled s = none := by
  cases hscheduled : c.scheduled s with
  | none => rfl
  | some n =>
      obtain ⟨s₁, hswitch, hne, -⟩ := scheduled_eq_some hscheduled
      simp only [Setup.switchPhase, h] at hswitch
      split_ifs at hswitch
      rw [← Option.some.inj hswitch] at hne
      exact absurd h hne

/-- An iteration ends the sending phases if it has fallen behind. -/
theorem next_waits (hswitch : c.switchPhase s = some s₁) (hwaits : s₁.phase = .wait ∨ c.Behind s₁)
    (h : c.next s it = some s') : s'.phase = .wait := by
  obtain ⟨s₁', s₂, s₃, hswitch', -, hsend, hsettles, rfl⟩ := next_parts h
  obtain rfl := Option.some.inj (hswitch.symm.trans hswitch')
  have hwait₂ : s₂.phase = .wait := by
    rcases hsend with ⟨hwait, rfl⟩ | ⟨hwait, hchanges⟩
    · exact hwait
    · refine Phase.eq_wait_of_rank (le_trans ?_ hchanges.rank_le)
      rw [Setup.endBehind, if_pos (hwaits.resolve_left hwait)]
      exact le_rfl
  exact hsettles.frame.phase.trans hwait₂

/-- **An iteration that has fallen behind is the last one that sends.** -/
theorem next_of_fellBehind (hbehind : c.fellBehind s = true) (h : c.next s it = some s') :
    s'.phase = .wait := by
  unfold Setup.fellBehind at hbehind
  split at hbehind
  · cases hbehind
  · rename_i s₁ hswitch
    simp only [Bool.and_eq_true, decide_eq_true_eq] at hbehind
    exact next_waits hswitch (Or.inr ⟨hbehind.1.2, hbehind.2⟩) h

/-! ### Not ahead of the schedule -/

/-- At most `k` queries more have been sent than are scheduled. -/
def Setup.NotAhead (c : Setup) (k : Nat) (s : State) : Prop :=
  ∀ n ∈ c.scheduled s, (s.numQueriesSent : Int) ≤ n + k

theorem start_notAhead {opened : List SocketEvent}
    (hfirst : ∀ n ∈ c.scheduled (c.start opened), 0 ≤ n) (k : Nat) :
    c.NotAhead k (c.start opened) := by
  have hsettles : Settles c False c.initial (c.start opened) :=
    perfNetEvents_settles opened c.initial
  have hnone : (c.start opened).numQueriesSent = 0 := hsettles.frame.numQueriesSent
  intro n hn
  have := hfirst n hn
  omega

theorem due_iff {d : Int} (hlow : -1 ≤ d) (hlt : d < 2 ^ 31) : 0 < toInt d ↔ 0 < d := by
  by_cases h : 0 ≤ d
  · rw [toInt_of_lt h hlt]
  · obtain rfl : d = -1 := by omega
    decide

/-- An iteration counts queries only if one is due, and then one or two. -/
theorem next_count {k : Nat} (hint : ∀ p t, c.numScheduled p t < 2 ^ 31) (hk : k ≤ 1)
    (hat : AtHead s)
    (hahead : c.NotAhead k s) (hscheduled : c.scheduled s = some n) (h : c.next s it = some s') :
    (s'.numQueriesSent : Int) ≤ s.numQueriesSent +
      if 0 < n - s.numQueriesSent then if CountsTwo s it.send then 2 else 1 else 0 := by
  obtain ⟨s₁, s₂, s₃, hswitch, hsend, -, hsettles, rfl⟩ := next_parts h
  obtain ⟨s₁', hswitch', -, hn⟩ := scheduled_eq_some hscheduled
  obtain rfl := Option.some.inj (hswitch.symm.trans hswitch')
  have hat₁ : AtHead s₁ := by
    rcases switchPhase_cases hswitch with rfl | rfl | rfl <;> exact hat
  have hcount := sendDue_count hat₁ hsend
  have hlt := hint s₁.phase (c.timeSinceStart s₁)
  have hbefore := hahead n hscheduled
  have hdue : 0 < c.shouldSend s₁ ↔ 0 < n - s.numQueriesSent := by
    rw [Setup.shouldSend, ← hn, switchPhase_numQueriesSent hswitch]
    exact due_iff (by omega) (by omega)
  simp only [hdue, switchPhase_countsTwo hswitch, switchPhase_numQueriesSent hswitch] at hcount
  rw [← hsettles.frame.numQueriesSent] at hcount
  change (s₃.numQueriesSent : Int) ≤ _
  split_ifs at hcount ⊢ <;> omega

/-- **Not ahead of the schedule**: an iteration that counts two queries where a single one is due
gets ahead by one. -/
theorem Setup.NotAhead.next {k : Nat} (hint : ∀ p t, c.numScheduled p t < 2 ^ 31) (hk : k ≤ 1)
    (hat : AtHead s) (hahead : c.NotAhead k s) (hrises : c.Rises s it)
    (honce : c.OnSchedule s it ∨ k = 1) (h : c.next s it = some s') : c.NotAhead k s' := by
  intro n' hn'
  cases hscheduled : c.scheduled s with
  | none =>
      -- then nothing is scheduled any more
      obtain ⟨s₁, hswitch, -⟩ := Option.bind_eq_some_iff.mp h
      have hwait : s₁.phase = .wait := by
        simp only [Setup.scheduled, hswitch] at hscheduled
        split_ifs at hscheduled with hwait
        exact hwait
      rw [scheduled_of_wait (next_waits hswitch (Or.inl hwait) h)] at hn'
      cases hn'
  | some n =>
      have hbefore := hahead n hscheduled
      have hle := hrises s' h n hscheduled n' hn'
      have hcount := next_count hint hk hat hahead hscheduled h
      split_ifs at hcount with hdue htwo
      · rcases honce with honce | hone
        · -- two queries are counted, so two are due
          have hne : n ≠ s.numQueriesSent + 1 := fun heq => honce (heq ▸ hscheduled) htwo
          omega
        · omega
      · omega
      · omega

/-- **`resperf` is at most one query ahead of its schedule.** With a schedule that begins at 0 or
later, does not go back and fits into an `int`, whatever the transport does: the number of queries
sent is at most one more than the number scheduled. -/
theorem sent_le_scheduled_succ (c : Setup) (opened : List SocketEvent) (es : List Iteration)
    (s : State) (hint : ∀ p t, c.numScheduled p t < 2 ^ 31)
    (hfirst : ∀ n ∈ c.scheduled (c.start opened), 0 ≤ n)
    (hrun : Run (Guarded c.Rises (StepOf c.next)) (c.start opened) es s) :
    ∀ n ∈ c.scheduled s, (s.numQueriesSent : Int) ≤ n + 1 := by
  have hinv := hrun.invariant (I := fun s => AtHead s ∧ c.NotAhead 1 s)
    (fun _ _ _ h hstep => ⟨h.1.next hstep.2,
      h.2.next hint le_rfl h.1 hstep.1 (Or.inr rfl) hstep.2⟩)
    ⟨start_atHead c opened, start_notAhead hfirst 1⟩
  exact hinv.2

/-- One query is scheduled. It is left in progress, and counted together with the next one. -/
theorem sent_le_scheduled_succ_two :
    ∃ s, s.numQueriesSent = 2 ∧ oneScheduled.scheduled s = some 1 ∧
      (s.numQueriesSent : Int) ≤ 1 + 1 := by
  obtain ⟨s, hrun, hend⟩ := Run.exists_of_follow oneScheduled.Rises oneScheduled.next
    (oneScheduled.start [])
    [⟨⟨[], ⟨[], 1⟩, .success, .success, [], .inprogress⟩, [], 1000⟩,
      ⟨⟨[⟨[.sent 0], 1⟩], ⟨[], 1⟩, .success, .success, [], .sent⟩, [], 1000⟩]
    (fun s => s.numQueriesSent = 2 ∧ oneScheduled.scheduled s = some 1) (by decide +kernel)
  obtain ⟨hsent, hscheduled⟩ := of_decide_eq_true hend
  exact ⟨s, hsent, hscheduled, sent_le_scheduled_succ oneScheduled [] _ s
    (fun _ _ => show (1 : Int) < 2 ^ 31 by decide) (by decide) hrun 1 hscheduled⟩

/-! ### Falling behind -/

theorem toUint32_toInt {d : Int} (h0 : 0 ≤ d) (h : d < 2 ^ 31) :
    (toUint32 (toInt d) : Int) = d := by
  rw [toInt_of_lt h0 h]
  simp only [toUint32]
  omega

theorem fellBehind_iff (hahead : c.NotAhead 0 s) (hint : ∀ p t, c.numScheduled p t < 2 ^ 31)
    (hpos : 0 < c.maxFallBehind) :
    c.fellBehind s = true ↔ ∃ n ∈ c.scheduled s,
      (s.numQueriesSent + c.maxFallBehind : Int) ≤ n := by
  cases hswitch : c.switchPhase s with
  | none => simp [Setup.fellBehind, Setup.scheduled, hswitch]
  | some s₁ =>
      by_cases hwait : s₁.phase = .wait
      · simp [Setup.fellBehind, Setup.scheduled, hswitch, hwait]
      have hscheduled : c.scheduled s = some (c.numScheduled s₁.phase (c.timeSinceStart s₁)) := by
        simp only [Setup.scheduled, hswitch, if_neg hwait]
      have hsent := hahead _ hscheduled
      have hlt := hint s₁.phase (c.timeSinceStart s₁)
      have hdue : (toUint32 (c.shouldSend s₁) : Int) =
          c.numScheduled s₁.phase (c.timeSinceStart s₁) - s.numQueriesSent := by
        rw [Setup.shouldSend, switchPhase_numQueriesSent hswitch]
        exact toUint32_toInt (by omega) (by omega)
      simp only [Setup.fellBehind, hswitch, hscheduled, Option.mem_some_iff, exists_eq_left',
        Bool.and_eq_true, decide_eq_true_eq]
      constructor
      · rintro ⟨-, hbehind⟩
        omega
      · intro hbehind
        exact ⟨⟨hwait, hpos.ne'⟩, by omega⟩

/-- **Falling behind.** With a schedule that begins at 0 or later and does not go back, and as long
as no call of `do_one_line` counts two queries where one is due, an iteration finds that it has
fallen behind exactly when `max_fall_behind` queries more are scheduled than have been sent. -/
theorem fellBehind_iff_behind (c : Setup) (opened : List SocketEvent) (es : List Iteration)
    (s : State) (hint : ∀ p t, c.numScheduled p t < 2 ^ 31) (hpos : 0 < c.maxFallBehind)
    (hfirst : ∀ n ∈ c.scheduled (c.start opened), 0 ≤ n)
    (hrun : Run (Guarded (fun s it => c.Rises s it ∧ c.OnSchedule s it) (StepOf c.next))
      (c.start opened) es s) :
    c.fellBehind s = true ↔ ∃ n ∈ c.scheduled s,
      (s.numQueriesSent + c.maxFallBehind : Int) ≤ n := by
  have hinv := hrun.invariant (I := fun s => AtHead s ∧ c.NotAhead 0 s)
    (fun _ _ _ h hstep => ⟨h.1.next hstep.2,
      h.2.next hint (Nat.zero_le 1) h.1 hstep.1.1 (Or.inl hstep.1.2) hstep.2⟩)
    ⟨start_atHead c opened, start_notAhead hfirst 0⟩
  exact fellBehind_iff hinv.2 hint hpos

/-- It is sent, and that is not falling behind. -/
theorem fellBehind_one_sent :
    ∃ s, s.numQueriesSent = 1 ∧ oneScheduled.fellBehind s = false := by
  obtain ⟨s, hrun, hend⟩ := Run.exists_of_follow
    (fun s it => oneScheduled.Rises s it ∧ oneScheduled.OnSchedule s it) oneScheduled.next
    (oneScheduled.start []) [⟨⟨[], ⟨[], 1⟩, .success, .success, [], .sent⟩, [], 1000⟩]
    (fun s => s.numQueriesSent = 1 ∧ oneScheduled.scheduled s = some 1) (by decide +kernel)
  obtain ⟨hsent, hscheduled⟩ := of_decide_eq_true hend
  have hiff := fellBehind_iff_behind oneScheduled [] _ s
    (fun _ _ => show (1 : Int) < 2 ^ 31 by decide) (by decide) (by decide) hrun
  refine ⟨s, hsent, ?_⟩
  rw [← Bool.not_eq_true, hiff, hscheduled, hsent]
  decide

/-- **Ahead of the schedule, and fallen behind.** One query is scheduled. It is left in progress;
the next `do_one_line` counts it, and sends and counts another one. That makes `should_send` -1, and
ends the test. -/
theorem fellBehind_ahead :
    ∃ es s, Run (Guarded oneScheduled.Rises (StepOf oneScheduled.next))
      (oneScheduled.start []) es s ∧
      oneScheduled.fellBehind s = true ∧ oneScheduled.scheduled s = some 1 ∧
      s.numQueriesSent = 2 ∧ ∀ it s', oneScheduled.next s it = some s' → s'.phase = .wait := by
  obtain ⟨s, hrun, hend⟩ := Run.exists_of_follow oneScheduled.Rises oneScheduled.next
    (oneScheduled.start [])
    [⟨⟨[], ⟨[], 1⟩, .success, .success, [], .inprogress⟩, [], 1000⟩,
      ⟨⟨[⟨[.sent 0], 1⟩], ⟨[], 1⟩, .success, .success, [], .sent⟩, [], 1000⟩]
    (fun s => oneScheduled.fellBehind s = true ∧ oneScheduled.scheduled s = some 1 ∧
      s.numQueriesSent = 2) (by decide +kernel)
  obtain ⟨hbehind, hscheduled, hsent⟩ := of_decide_eq_true hend
  exact ⟨_, s, hrun, hbehind, hscheduled, hsent, fun _ _ h => next_of_fellBehind hbehind h⟩

end Dnsperf.Resperf
