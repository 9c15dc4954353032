import Dnsperf.Thread.Limit

/-!
# Dnsperf.Thread.Waiting

**The condition variable between `do_send` and `do_recv`.** With as many queries outstanding as
there may be, and no socket still sending, `do_send` waits on `tinfo->cond`, until the end of a
run with a time limit. `do_recv` signals in each of its locked regions, before it counts what it
has received; so `do_send` may be woken and find that nothing has changed. That it does not wait
for long is because `do_recv` signals in *every* round, whatever it has received.

After an interrupt `do_recv` stops. The only signal is then the one that `main` sends in
`threadinfo_stop`, and it is lost on a `do_send` that has seen no interrupt but is not waiting yet.

`Wait` adds the wait and `main` to a `Pair`; without them its steps are those of a `Pair`.
-/

namespace Dnsperf.Thread

open Dnsperf.Lib Dnsperf.Net

/-- The two parties, the condition variable and `main`. -/
structure Wait where
  pair : Pair
  /-- `do_send` is in `PERF_TIMEDWAIT`. -/
  waiting : Bool
  /-- `main` has sent its signal. -/
  stopped : Bool

/-- `do_send` has entered the loop, and has yet to look at the number of outstanding
queries. -/
def SenderAt.entering : SenderAt → Bool
  | .throttle | .flush | .limit | .lock => true
  | _ => false

namespace Wait

/-- A step of a party, the end of the wait at `stop_time` or for no reason, or the signal of
`main`. -/
inductive Step
  | pair (step : Pair.Step)
  | timedout
  | spurious
  | stop

/-- Both threads just started. -/
def start (now : Nat) : Wait := ⟨.start now, false, false⟩

variable (cfg : Config) (w : Wait)

/-- The step of `do_send` ends in its wait. -/
def waits : SenderStep → Bool
  | .lock _ => decide (cfg.maxOutstanding ≤ w.pair.tinfo.stats.numOutstanding) &&
      !w.pair.vars.anyInprogress
  | _ => false

/-- The step of `do_recv` signals. -/
def signals : ReceiverStep → Bool
  | .lock _ => true
  | _ => false

def next : Step → Option Wait
  | .pair (.sender step) =>
      if w.waiting then none
      else (w.pair.nextSender cfg step).map fun pair =>
        { w with pair := pair, waiting := w.waits cfg step }
  | .pair (.receiver step) =>
      (w.pair.nextReceiver cfg step).map fun pair =>
        { w with pair := pair, waiting := w.waiting && !signals step }
  | .pair .interrupt =>
      -- by `main`, before its signal
      if w.stopped then none else some { w with pair := { w.pair with interrupted := true } }
  | .pair step => (w.pair.next cfg step).map fun pair => { w with pair := pair }
  | .timedout =>
      if w.waiting = true ∧ cfg.stopTime ≤ w.pair.clock then some { w with waiting := false }
      else none
  | .spurious => if w.waiting then some { w with waiting := false } else none
  | .stop => if w.stopped then none else some { w with waiting := false, stopped := true }

/-- The signal of `main` after an interrupt does not come when `do_send` is about to wait. -/
def Timely (w : Wait) : Step → Prop
  | .stop => w.pair.interrupted = true → w.pair.sender.entering = false
  | _ => True

instance (w : Wait) : DecidablePred w.Timely
  | .stop => inferInstanceAs (Decidable (_ → _))
  | .pair _ | .timedout | .spurious => inferInstanceAs (Decidable True)

variable {cfg w} {w' : Wait}

/-- One constructor for each way through `next`. -/
inductive Passes (cfg : Config) (w : Wait) : Step → Wait → Prop
  | sender {step : SenderStep} {pair : Pair} (hwait : w.waiting = false)
      (hnext : w.pair.nextSender cfg step = some pair) :
      Passes cfg w (.pair (.sender step)) { w with pair := pair, waiting := w.waits cfg step }
  | receiver {step : ReceiverStep} {pair : Pair}
      (hnext : w.pair.nextReceiver cfg step = some pair) :
      Passes cfg w (.pair (.receiver step))
        { w with pair := pair, waiting := w.waiting && !signals step }
  | tick {now : Nat} :
      Passes cfg w (.pair (.tick now)) { w with pair := { w.pair with clock := now } }
  | interrupt (hstopped : w.stopped = false) :
      Passes cfg w (.pair .interrupt) { w with pair := { w.pair with interrupted := true } }
  | timedout : Passes cfg w .timedout { w with waiting := false }
  | spurious : Passes cfg w .spurious { w with waiting := false }
  | stop : Passes cfg w .stop { w with waiting := false, stopped := true }

theorem passes_of_next {step : Step} (h : w.next cfg step = some w') : Passes cfg w step w' := by
  cases step with
  | pair step =>
      cases step with
      | sender step =>
          unfold next at h
          dsimp only at h
          split_ifs at h with hwait
          obtain ⟨pair, hpair, rfl⟩ := Option.map_eq_some_iff.mp h
          exact .sender (by simpa using hwait) hpair
      | receiver step =>
          obtain ⟨pair, hpair, rfl⟩ := Option.map_eq_some_iff.mp h
          exact .receiver hpair
      | tick now =>
          obtain ⟨pair, hpair, rfl⟩ := Option.map_eq_some_iff.mp h
          obtain ⟨-, hc'⟩ := Option.ite_none_right_eq_some.mp hpair
          rw [← Option.some.inj hc']
          exact .tick
      | interrupt =>
          unfold next at h
          dsimp only at h
          split_ifs at h with hstopped
          obtain rfl := Option.some.inj h
          exact .interrupt (by simpa using hstopped)
  | timedout =>
      obtain ⟨-, hw'⟩ := Option.ite_none_right_eq_some.mp h
      rw [← Option.some.inj hw']
      exact .timedout
  | spurious =>
      obtain ⟨-, hw'⟩ := Option.ite_none_right_eq_some.mp h
      rw [← Option.some.inj hw']
      exact .spurious
  | stop =>
      obtain ⟨-, hw'⟩ := Option.ite_none_left_eq_some.mp h
      rw [← Option.some.inj hw']
      exact .stop

end Wait

/-! ### Who has stopped -/

namespace ThreadInfo

variable {t t' : ThreadInfo}

/-! The locked regions leave the counters alone, but for the timeouts, and `done_sending`. -/

theorem Flushed.frame {now : Nat} {P : UInt16 → Prop} (h : Flushed now P t t') :
    t'.stats = t.stats ∧ t'.doneSending = t.doneSending := by
  induction h with
  | refl t => exact ⟨rfl, rfl⟩
  | @sent t _ qid _ _ ih =>
      unfold perfNetSent at ih
      split_ifs at ih <;> exact ih
  | tried currentSock _ ih => exact ih

theorem acquire_frame {cfg : Config} {now : Nat} {calls : List SockreadyCall}
    {acquired : Acquired} (h : t.acquire cfg now calls = some (acquired, t')) :
    t'.stats = t.stats ∧ t'.doneSending = t.doneSending := by
  rcases acquire_cases h with ⟨-, -, rfl⟩ | ⟨-, q, rest, t₁, -, hflushed, hcases⟩
  · exact ⟨rfl, rfl⟩
  · obtain ⟨hstats, hdone⟩ := hflushed.frame
    rw [(t.take_rest q []).1] at hstats
    rw [(t.take_rest q []).2.2.2.2] at hdone
    rcases hcases with ⟨-, rfl⟩ | ⟨-, rfl⟩ | ⟨sock, -, rfl⟩
    · exact ⟨hstats, hdone⟩
    · exact ⟨(queryMove_stats ..).trans hstats, (queryMove_doneSending ..).trans hdone⟩
    · exact ⟨hstats, hdone⟩

theorem timeoutTail_frame (cfg : Config) (now n : Nat) (t : ThreadInfo) :
    (timeoutTail cfg now n t).stats.numSent = t.stats.numSent ∧
      (timeoutTail cfg now n t).doneSending = t.doneSending :=
  timeoutTail_invariant (I := fun t' => t'.stats.numSent = t.stats.numSent ∧
      t'.doneSending = t.doneSending) cfg n
    (fun _ _ h _ _ => ⟨h.1, (queryMove_doneSending ..).trans h.2⟩) ⟨rfl, rfl⟩

theorem matchQueries_frame (sockeq : Nat → Nat → Bool) (rs : List ReceivedQuery)
    (t : ThreadInfo) : (matchQueries sockeq rs t).2.stats = t.stats ∧
      (matchQueries sockeq rs t).2.doneSending = t.doneSending :=
  matchQueries_invariant (I := fun t' => t'.stats = t.stats ∧ t'.doneSending = t.doneSending)
    sockeq rs
    (fun _ _ h _ => ⟨(queryMove_stats ..).trans h.1, (queryMove_doneSending ..).trans h.2⟩)
    ⟨rfl, rfl⟩

end ThreadInfo

namespace Pair

variable {cfg : Config} {c c' : Pair}

/-- Who has stopped, and why. -/
structure Ended (c : Pair) : Prop where
  sender : c.tinfo.doneSending = true → c.sender = .done
  receiver : c.receiver = .done → c.interrupted = true ∨ c.tinfo.doneSending = true

/-- Only with its last step `do_send` says that it is done. -/
theorem Sends.doneSending {step : SenderStep} (h : Sends cfg c step c') :
    c'.tinfo.doneSending = c.tinfo.doneSending ∨ c'.sender = .done := by
  cases h with
  | flush _ hflushed _ | drain _ hflushed _ => exact Or.inl hflushed.frame.2
  | lock _ hacquire => exact Or.inl (ThreadInfo.acquire_frame hacquire).2
  | undo _ | rollback _ => exact Or.inl (ThreadInfo.queryMove_doneSending ..)
  | done _ => exact Or.inr rfl
  | _ => exact Or.inl rfl

theorem Receives.doneSending {step : ReceiverStep} (h : Receives cfg c step c') :
    c'.tinfo.doneSending = c.tinfo.doneSending := by
  cases h with
  | @expire q _ =>
      refine (ThreadInfo.timeoutTail_frame cfg c.receiverNow _ _).2.trans ?_
      exact ThreadInfo.queryMove_doneSending ..
  | @lock recvd sockeq _ => exact (ThreadInfo.matchQueries_frame sockeq recvd c.tinfo).2
  | @count _ _ r _ =>
      unfold ThreadInfo.complete
      split_ifs <;> rfl
  | _ => rfl

theorem ended_sends {step : SenderStep} (h : Ended c) (hsends : Sends cfg c step c') :
    Ended c' := by
  have hnot : ¬c.tinfo.doneSending = true := fun hdone => hsends.ne_done (h.sender hdone)
  have hframe : c'.receiver = c.receiver ∧ c'.interrupted = c.interrupted := by
    cases hsends <;> exact ⟨rfl, rfl⟩
  refine ⟨fun hdone => ?_, fun hrecv => ?_⟩
  · rcases hsends.doneSending with hsame | hend
    · exact absurd (hsame.symm.trans hdone) hnot
    · exact hend
  · rw [hframe.1] at hrecv
    rw [hframe.2]
    exact Or.inl ((h.receiver hrecv).resolve_right hnot)

theorem ended_receives {step : ReceiverStep} (h : Ended c) (hreceives : Receives cfg c step c') :
    Ended c' := by
  obtain ⟨hsender, -, -, hint⟩ := hreceives.frame
  have hdone := hreceives.doneSending
  refine ⟨fun hd => hsender.trans (h.sender (hdone.symm.trans hd)), fun hrecv => ?_⟩
  rw [hint, hdone]
  cases hreceives with
  | interrupted _ hinterrupted => exact Or.inl hinterrupted
  | done _ hsending _ => exact Or.inr hsending
  | _ => cases hrecv

end Pair

/-! ### How long `do_recv` takes to signal -/

/-- The steps of `do_recv` up to its next locked region, with it. -/
def ReceiverAt.toSignal : ReceiverAt → Nat
  | .count _ rest => rest.length + 23
  | .top => 22
  | .timeouts => 21
  | .expire _ => 20
  | .check => 19
  | .recv recvd => recvBatchSize - recvd.length + 2
  | .lock _ => 1
  | .done => 0

/-- The responses it has at hand. -/
def ReceiverAt.recvd : ReceiverAt → List ReceivedQuery
  | .recv recvd | .lock recvd => recvd
  | .count _ rest => rest
  | _ => []

theorem toSignal_le {place : ReceiverAt} (h : place.recvd.length ≤ recvBatchSize) :
    place.toSignal ≤ 39 := by
  cases place with
  | count recvd rest =>
      have : rest.length ≤ 16 := h
      simp only [ReceiverAt.toSignal]
      omega
  | recv recvd =>
      simp only [ReceiverAt.toSignal, recvBatchSize]
      omega
  | _ => simp [ReceiverAt.toSignal]

theorem matchQueries_length (sockeq : Nat → Nat → Bool) (rs : List ReceivedQuery) (t : ThreadInfo) :
    (ThreadInfo.matchQueries sockeq rs t).1.length = rs.length := by
  induction rs generalizing t with
  | nil => rfl
  | cons r rs ih => rw [ThreadInfo.matchQueries_cons, List.length_cons, List.length_cons, ih]

namespace Pair

variable {cfg : Config} {c c' : Pair}

theorem nextReceiver_packet {sock : Nat} {packet : Bytes}
    (h : c.nextReceiver cfg (.packet sock packet) = some c') :
    ∃ recvd, c.receiver = .recv recvd ∧ recvd.length < recvBatchSize ∧
      c'.receiver = .recv (recvd ++ [recvOne sock packet c.clock]) := by
  cases hat : c.receiver with
  | recv recvd =>
      simp only [nextReceiver, hat] at h
      obtain ⟨⟨hroom, -⟩, hc'⟩ := Option.ite_none_right_eq_some.mp h
      obtain rfl := Option.some.inj hc'
      exact ⟨recvd, rfl, hroom, rfl⟩
  | _ => simp [nextReceiver, hat] at h

/-- **A step of `do_recv` that does not signal brings the signal nearer.** -/
theorem toSignal_lt {step : ReceiverStep} (h : c.nextReceiver cfg step = some c')
    (hsignal : Wait.signals step = false) : c'.receiver.toSignal < c.receiver.toSignal := by
  have hreceives := receives_of_nextReceiver h
  cases hreceives with
  | packet _ =>
      obtain ⟨recvd, hat, hroom, hat'⟩ := nextReceiver_packet h
      rw [hat, hat']
      simp only [ReceiverAt.toSignal, List.length_append, List.length_singleton]
      omega
  | lock _ => cases hsignal
  | loop hat | interrupted hat _ | timeouts hat | expired hat _ | expire hat | check hat
  | done hat _ _ | batch hat | count hat | again hat _ =>
      rw [hat]
      simp [ReceiverAt.toSignal, recvBatchSize, recvAt]

/-- There are never more responses at hand than a batch has. -/
theorem recvd_length_le {step : ReceiverStep} (h : c.nextReceiver cfg step = some c')
    (hbatch : c.receiver.recvd.length ≤ recvBatchSize) :
    c'.receiver.recvd.length ≤ recvBatchSize := by
  have hreceives := receives_of_nextReceiver h
  cases hreceives with
  | packet _ =>
      obtain ⟨recvd, hat, hroom, hat'⟩ := nextReceiver_packet h
      rw [hat']
      simp only [ReceiverAt.recvd, List.length_append, List.length_singleton]
      omega
  | lock hat =>
      rw [hat] at hbatch
      exact (matchQueries_length _ _ _).trans_le hbatch
  | batch hat =>
      rw [hat] at hbatch
      exact hbatch
  | count hat =>
      rw [hat] at hbatch
      exact (Nat.le_succ _).trans hbatch
  | _ => exact Nat.zero_le _

theorem exists_nextReceiver (cfg : Config) (h : c.receiver ≠ .done) :
    ∃ step c', c.nextReceiver cfg step = some c' := by
  cases hat : c.receiver with
  | top => exact ⟨.loop, _, by rw [nextReceiver, hat]⟩
  | timeouts => exact ⟨.timeouts, _, by rw [nextReceiver, hat]⟩
  | expire q => exact ⟨.expire, _, by rw [nextReceiver, hat]⟩
  | check => exact ⟨.check, _, by rw [nextReceiver, hat]⟩
  | recv recvd => exact ⟨.batch, _, by rw [nextReceiver, hat]⟩
  | lock recvd => exact ⟨.lock fun _ _ => true, _, by rw [nextReceiver, hat]⟩
  | count recvd rest =>
      cases rest with
      | nil => exact ⟨.again true, _, by rw [nextReceiver, hat]⟩
      | cons r rest => exact ⟨.count, _, by rw [nextReceiver, hat]⟩
  | done => exact absurd hat h

/-- An interrupt keeps `do_send` out of the loop. -/
theorem not_entering {step : SenderStep} (h : c.nextSender cfg step = some c')
    (hint : c.interrupted = true) (hnot : c.sender.entering = false) :
    c'.sender.entering = false := by
  cases sends_of_nextSender h with
  | loop hat =>
      rw [nextSender, if_pos hat, hint, if_neg (by simp)] at h
      rw [← Option.some.inj h]
      rfl
  | lock hat _ | throttle hat _ | flush hat _ _ | limit hat _ | wait hat _ =>
      rw [hat] at hnot
      cases hnot
  | drain hat _ _ =>
      rw [hat]
      rfl
  | _ => rfl

/-- When `do_send` waits, it has found that the limit is reached. -/
theorem again_of_waits {w : Wait} {step : SenderStep} (h : w.pair.nextSender cfg step = some c')
    (hwaits : w.waits cfg step = true) : w.pair.sender = .lock ∧ c'.sender = .again := by
  cases sends_of_nextSender h with
  | @lock calls acquired tinfo hat hacquire =>
      have hlimit := of_decide_eq_true (Bool.and_eq_true_iff.mp hwaits).1
      rw [ThreadInfo.acquire, if_pos hlimit] at hacquire
      rw [← (Prod.mk.inj (Option.some.inj hacquire)).1]
      exact ⟨hat, rfl⟩
  | _ => cases hwaits

end Pair

namespace Wait

variable {cfg : Config} {w w' : Wait}

/-- `do_send` waits only where it looked at the queries outstanding, and not after the signal
of `main`. -/
structure Invariant (w : Wait) : Prop where
  ended : w.pair.Ended
  batch : w.pair.receiver.recvd.length ≤ recvBatchSize
  waiting : w.waiting = true → w.pair.sender = .again
  stopped : w.stopped = true → w.pair.interrupted = true →
    w.waiting = false ∧ w.pair.sender.entering = false

theorem invariant_start (now : Nat) : (start now).Invariant where
  ended := ⟨fun h => (by cases h), fun h => (by cases h)⟩
  batch := Nat.zero_le _
  waiting h := by cases h
  stopped h := by cases h

theorem invariant_next (cfg : Config) (w : Wait) (step : Step) (w' : Wait) (h : w.Invariant)
    (hstep : Guarded Timely (StepOf (next cfg)) w step w') : w'.Invariant := by
  obtain ⟨htimely, hnext⟩ := hstep
  have hwoken : { w with waiting := false }.Invariant :=
    ⟨h.ended, h.batch, fun hwaits => (by cases hwaits), fun hs hi => ⟨rfl, (h.stopped hs hi).2⟩⟩
  cases passes_of_next hnext with
  -- a sender that begins to wait has found the limit reached and goes on at `again`
  | @sender step pair hwait hsender =>
      have hsends := Pair.sends_of_nextSender hsender
      have hframe : pair.receiver = w.pair.receiver ∧ pair.interrupted = w.pair.interrupted := by
        cases hsends <;> exact ⟨rfl, rfl⟩
      refine ⟨Pair.ended_sends h.ended hsends, ?_, fun hwaits =>
        (Pair.again_of_waits hsender hwaits).2, fun hs hi => ?_⟩
      · change pair.receiver.recvd.length ≤ recvBatchSize
        rw [hframe.1]
        exact h.batch
      · have hi' : w.pair.interrupted = true := hframe.2.symm.trans hi
        have hnot := (h.stopped hs hi').2
        refine ⟨?_, Pair.not_entering hsender hi' hnot⟩
        by_contra hwaits
        rw [(Pair.again_of_waits hsender (by simpa using hwaits)).1] at hnot
        cases hnot
  | @receiver step pair hreceiver =>
      have hreceives := Pair.receives_of_nextReceiver hreceiver
      obtain ⟨hsender, -, -, hint⟩ := hreceives.frame
      refine ⟨Pair.ended_receives h.ended hreceives, Pair.recvd_length_le hreceiver h.batch,
        fun hwaits => ?_, fun hs hi => ?_⟩
      · exact hsender.trans (h.waiting (Bool.and_eq_true_iff.mp hwaits).1)
      · obtain ⟨hwait, hnot⟩ := h.stopped hs (hint.symm.trans hi)
        refine ⟨?_, ?_⟩
        · change (w.waiting && !signals step) = false
          rw [hwait, Bool.false_and]
        · change pair.sender.entering = false
          rwa [hsender]
  | tick => exact ⟨⟨h.ended.sender, h.ended.receiver⟩, h.batch, h.waiting, h.stopped⟩
  | interrupt hstopped =>
      refine ⟨⟨h.ended.sender, fun _ => Or.inl rfl⟩, h.batch, h.waiting, fun hs => ?_⟩
      exact absurd (hstopped.symm.trans hs) (by decide)
  -- the wait ends
  | timedout => exact hwoken
  | spurious => exact hwoken
  | stop => exact { hwoken with stopped := fun _ hi => ⟨rfl, htimely hi⟩ }

/-- A step of `do_recv`. -/
def Step.isReceiver : Step → Bool
  | .pair (.receiver _) => true
  | _ => false

/-- As long as the wait goes on, every step of `do_recv` brings the signal nearer. -/
theorem toSignal_of_waiting {step : Step} (hnext : w.next cfg step = some w')
    (hwait : w.waiting = true) (hwait' : w'.waiting = true) :
    w'.pair.receiver.toSignal + (if step.isReceiver then 1 else 0) ≤ w.pair.receiver.toSignal := by
  cases passes_of_next hnext with
  | sender hnot _ => exact absurd (hnot.symm.trans hwait) (by decide)
  | @receiver step pair hreceiver =>
      have hsignal : signals step = false := by
        simpa using (Bool.and_eq_true_iff.mp hwait').2
      exact Pair.toSignal_lt hreceiver hsignal
  | tick | interrupt _ => exact le_rfl
  | timedout | spurious | stop => cases hwait'

theorem countP_isReceiver_le {steps : List Step}
    (hrun : Run (Guarded (fun w _ => w.waiting = true) (StepOf (next cfg))) w steps w')
    (hwait' : w'.waiting = true) :
    w'.pair.receiver.toSignal + steps.countP Step.isReceiver ≤ w.pair.receiver.toSignal := by
  induction hrun with
  | nil w => exact le_rfl
  | @cons w w₁ w' step steps hstep hrest ih =>
      obtain ⟨hwait, hnext⟩ := hstep
      have hwait₁ : w₁.waiting = true := by
        cases hrest with
        | nil _ => exact hwait'
        | cons hstep' _ => exact hstep'.1
      have hfirst := toSignal_of_waiting hnext hwait hwait₁
      rw [List.countP_cons]
      have := ih hwait'
      omega

/-- Without the wait, a step is one of the two parties, or none. -/
theorem pair_next {step : Step} (hnext : w.next cfg step = some w') :
    w'.pair = w.pair ∨ ∃ pstep, w.pair.next cfg pstep = some w'.pair := by
  cases step with
  | pair step =>
      refine Or.inr ⟨step, ?_⟩
      cases step with
      | sender step =>
          cases passes_of_next hnext with
          | sender _ hsender => exact hsender
      | receiver step =>
          cases passes_of_next hnext with
          | receiver hreceiver => exact hreceiver
      | tick now =>
          obtain ⟨pair, hpair, rfl⟩ := Option.map_eq_some_iff.mp hnext
          exact hpair
      | interrupt =>
          cases passes_of_next hnext with
          | interrupt _ => rfl
  | timedout => cases passes_of_next hnext; exact Or.inl rfl
  | spurious => cases passes_of_next hnext; exact Or.inl rfl
  | stop => cases passes_of_next hnext; exact Or.inl rfl

/-- **A run with the wait is a run of the two parties.** -/
theorem pair_run {steps : List Step} (hrun : Run (StepOf (next cfg)) w steps w') :
    ∃ psteps, Run (StepOf (Pair.next cfg)) w.pair psteps w'.pair := by
  induction hrun with
  | nil w => exact ⟨[], .nil _⟩
  | cons hnext _ ih =>
      obtain ⟨psteps, hrest⟩ := ih
      rcases pair_next hnext with hsame | ⟨pstep, hpair⟩
      · exact ⟨psteps, hsame ▸ hrest⟩
      · exact ⟨pstep :: psteps, .cons hpair hrest⟩

end Wait

/-- **`do_send` is not left waiting.** In every run in which `main`, after an interrupt, does
not signal while `do_send` is about to wait: if `do_send` is waiting, `main` has its signal still
to send, or there was no interrupt. In that case `do_recv` has not stopped and can go on, and as
long as the wait lasts it takes at most 39 steps: it signals in each of its rounds. -/
theorem wait_ends (cfg : Config) (now : Nat) (steps : List Wait.Step) (w : Wait)
    (hrun : Run (Guarded Wait.Timely (StepOf (Wait.next cfg))) (Wait.start now) steps w)
    (hwait : w.waiting = true) :
    (w.pair.interrupted = true → w.stopped = false) ∧
      (w.pair.interrupted = false → ∃ step w', w.next cfg (.pair (.receiver step)) = some w') ∧
      ∀ steps' w',
        Run (Guarded (fun w _ => w.waiting = true) (StepOf (Wait.next cfg))) w steps' w' →
        w'.waiting = true → steps'.countP Wait.Step.isReceiver ≤ 39 := by
  have hinv := hrun.invariant (Wait.invariant_next cfg) (Wait.invariant_start now)
  refine ⟨fun hint => ?_, fun hint => ?_, fun steps' w' hrun' hwait' => ?_⟩
  · by_contra hstopped
    have hnot := (hinv.stopped (by simpa using hstopped) hint).1
    exact absurd (hnot.symm.trans hwait) (by decide)
  · have hrecv : w.pair.receiver ≠ .done := by
      intro hdone
      rcases hinv.ended.receiver hdone with hint' | hsent
      · exact absurd (hint.symm.trans hint') (by decide)
      · have hagain := (hinv.waiting hwait).symm.trans (hinv.ended.sender hsent)
        cases hagain
    obtain ⟨step, pair, hstep⟩ := Pair.exists_nextReceiver cfg hrecv
    exact ⟨step, _, by rw [Wait.next, hstep]; rfl⟩
  · have hcount := Wait.countP_isReceiver_le hrun' hwait'
    have hle := toSignal_le hinv.batch
    omega

/-- `do_send` has sent the one query there may be, and waits. -/
def Wait.sendAndWait : List Wait.Step :=
  (List.flatten [Pair.stampQuery, [.sender (.send (.ok 29)), .sender .count],
    [.loop, .throttle, .flush [], .limit, .lock []].map .sender]).map .pair

/-- It waits while `do_recv` receives the answer, up to the signal. -/
theorem wait_ends_one :
    ∃ w w' : Wait, w.waiting = true ∧ w'.waiting = true ∧ w'.pair.receiver.recvd.length = 1 ∧
      ∃ steps', Run (Guarded (fun w _ => w.waiting = true) (StepOf (Wait.next Pair.oneQuery))) w
          steps' w' ∧ steps'.countP Wait.Step.isReceiver ≤ 39 := by
  obtain ⟨w, hrun, hend⟩ := Run.exists_of_follow Wait.Timely (Wait.next Pair.oneQuery)
    (Wait.start 1000) Wait.sendAndWait
    (fun w => w.waiting = true ∧
      (follow (fun w _ => w.waiting = true) (Wait.next Pair.oneQuery) w
        (([.loop, .timeouts, .check, .packet 0 [0, 0, 128, 0], .batch].map Pair.Step.receiver).map
          .pair)).any
        (fun w' => decide (w'.waiting = true ∧ w'.pair.receiver.recvd.length = 1)) = true)
    (by decide +kernel)
  obtain ⟨hwait, hfollow⟩ := of_decide_eq_true hend
  obtain ⟨w', hrun', hend'⟩ := Run.exists_of_follow (fun w _ => w.waiting = true)
    (Wait.next Pair.oneQuery) w _ _ hfollow
  obtain ⟨hwait', hrecvd⟩ := of_decide_eq_true hend'
  exact ⟨w, w', hwait, hwait', hrecvd, _, hrun',
    (wait_ends Pair.oneQuery 1000 _ w hrun hwait).2.2 _ w' hrun' hwait'⟩

/-- The signal of `main` is lost when it comes too soon: `do_recv` has stopped, and `do_send`
waits. -/
example : (follow (fun _ _ => True) (Wait.next Pair.oneQuery) (Wait.start 1000)
    (Wait.sendAndWait.dropLast ++ [.pair .interrupt, .stop] ++ [Wait.sendAndWait.getLastD .stop] ++
      [.pair (.receiver .loop)])).any
      (fun w => decide (w.waiting = true ∧ w.pair.receiver = .done)) = true := by
  decide +kernel

end Dnsperf.Thread
