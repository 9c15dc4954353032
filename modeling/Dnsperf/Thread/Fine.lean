import Dnsperf.Thread.Accounting

/-!
# Dnsperf.Thread.Fine

A thread at a finer grain. `Pair.next` takes a locked region of `do_send`, and a whole
round of `perf_net_sockready` calls, at once; two accesses happen **in the middle of
these**:

* `perf__net_sent` stores a timestamp, whenever a socket has finished writing a delayed
  query. The clock may have been read a while before the store.
* the tail check of `process_timeouts` does not take the lock. It may see the query that
  `do_send` is moving, with a timestamp from its last use.

`Pair.nextFine` has them as steps of their own. What an undisturbed run keeps, it keeps
at this grain, too, and so the account is closed (`pair_accounts`).
-/

namespace Dnsperf.Thread

open Dnsperf.Lib Dnsperf.Net

/-- `do_send` may be in a call of `perf_net_sockready`. -/
def SenderAt.inSockready : SenderAt → Bool
  | .flush | .lock | .drain => true
  | _ => false

namespace Pair

inductive FineStep
  | step (step : Step)
  /-- `perf__net_sent`, with the clock read at `now`. -/
  | sent (qid : UInt16) (now : Nat)
  /-- `process_timeouts` takes a query that is just being moved for one that has timed
  out. -/
  | glimpse (qid : UInt16)

variable (cfg : Config) (c : Pair)

def nextFine : FineStep → Option Pair
  | .step step => c.next cfg step
  | .sent qid now =>
      if c.sender.inSockready = true ∧ now ≤ c.clock then
        some { c with tinfo := c.tinfo.perfNetSent now qid }
      else none
  | .glimpse qid =>
      match c.receiver with
      | .timeouts => if c.sender = .lock then some (c.recvAt (.expire qid.toNat)) else none
      | _ => none

/-- `Undisturbed`, at this grain. -/
def UndisturbedFine : FineStep → Prop
  | .step step => c.Undisturbed step
  | _ => True

instance (c : Pair) (step : FineStep) : Decidable (c.UndisturbedFine step) := by
  cases step with
  | step step => exact inferInstanceAs (Decidable (c.Undisturbed step))
  | sent qid now => exact isTrue trivial
  | glimpse qid => exact isTrue trivial

variable {cfg} {c} {c' : Pair}

/-- A step at this grain, with one constructor for each way through `nextFine`. -/
inductive Moves (cfg : Config) (c : Pair) : FineStep → Pair → Prop
  | sender {step : SenderStep} {c' : Pair} (hsends : Sends cfg c step c') :
      Moves cfg c (.step (.sender step)) c'
  | receiver {step : ReceiverStep} {c' : Pair} (hreceives : Receives cfg c step c') :
      Moves cfg c (.step (.receiver step)) c'
  | tick {now : Nat} (hle : c.clock ≤ now) (hnow : now < uint64Max) :
      Moves cfg c (.step (.tick now)) { c with clock := now }
  | interrupt : Moves cfg c (.step .interrupt) { c with interrupted := true }
  | sent {qid : UInt16} {now : Nat} (hplace : c.sender.inSockready = true) (hnow : now ≤ c.clock) :
      Moves cfg c (.sent qid now) { c with tinfo := c.tinfo.perfNetSent now qid }
  | glimpse {qid : UInt16} (hat : c.receiver = .timeouts) :
      Moves cfg c (.glimpse qid) (c.recvAt (.expire qid.toNat))

theorem moves_of_nextFine {step : FineStep} (hstep : c.nextFine cfg step = some c') :
    Moves cfg c step c' := by
  cases step with
  | step step =>
      cases step with
      | sender step => exact .sender (sends_of_nextSender hstep)
      | receiver step => exact .receiver (receives_of_nextReceiver hstep)
      | tick now =>
          obtain ⟨⟨hle, hnow⟩, hc'⟩ := Option.ite_none_right_eq_some.mp hstep
          rw [← Option.some.inj hc']
          exact .tick hle hnow
      | interrupt =>
          rw [← Option.some.inj hstep]
          exact .interrupt
  | sent qid now =>
      obtain ⟨⟨hplace, hnow⟩, hc'⟩ := Option.ite_none_right_eq_some.mp hstep
      rw [← Option.some.inj hc']
      exact .sent hplace hnow
  | glimpse qid =>
      cases hat : c.receiver with
      | timeouts =>
          simp only [nextFine, hat] at hstep
          obtain ⟨-, hc'⟩ := Option.ite_none_right_eq_some.mp hstep
          rw [← Option.some.inj hc']
          exact .glimpse hat
      | _ => simp [nextFine, hat] at hstep

theorem holds_of_kept {place : SenderAt} {t t' : ThreadInfo} (h : place.Holds t)
    (hkept : ThreadInfo.Kept t t') : place.Holds t' := by
  cases place with
  | input | undo | clock | stamp =>
      exact ⟨(hkept.list _).trans h.1, (hkept.stamped _).trans h.2⟩
  | send | count | failed => exact (hkept.stamped _).trans h
  | _ => trivial

theorem Inv.sent (h : Inv c) {qid : UInt16} {now : Nat} (hplace : c.sender.inSockready = true)
    (hnow : now ≤ c.clock) : Inv { c with tinfo := c.tinfo.perfNetSent now qid } := by
  have hlt : now < uint64Max := Nat.lt_of_le_of_lt hnow h.clock
  have hne : c.sender ≠ .done := by
    intro hd
    rw [hd] at hplace
    exact nomatch hplace
  obtain ⟨hbooks, hkept⟩ := h.books.perfNetSent hlt qid
  exact h.send hne hbooks (holds_of_kept h.holds hkept) (Or.inl hkept.doneSending) h.senderNow

theorem inv_nextFine (cfg : Config) (c : Pair) (step : FineStep) (c' : Pair) (h : Inv c)
    (hstep : Guarded UndisturbedFine (StepOf (nextFine cfg)) c step c') : Inv c' := by
  obtain ⟨hund, hstep⟩ := hstep
  cases step with
  | step step => exact inv_next cfg c step c' h ⟨hund, hstep⟩
  | sent qid now =>
      cases moves_of_nextFine hstep with
      | sent hplace hnow => exact h.sent hplace hnow
  | glimpse qid =>
      cases moves_of_nextFine hstep with
      | glimpse hat => exact h.recvAt (by rw [hat]; rfl) nothing_fresh nofun

end Pair

/-- **The account is closed**: in every undisturbed run, once both parties have stopped
and an interrupted run's queries have been cancelled, the queries sent are those
completed, timed out and interrupted. All the way, no query that went back as failed to
send is among those timed out or completed. -/
theorem pair_accounts (cfg : Config) (now : Nat) (hnow : now < uint64Max)
    (steps : List Pair.FineStep) (c : Pair)
    (hrun : Run (Guarded Pair.UndisturbedFine (StepOf (Pair.nextFine cfg))) (Pair.start now)
      steps c) :
    (c.sender = .done → c.receiver = .done →
      c.cleanup.stats.numSent = c.cleanup.stats.numCompleted + c.cleanup.stats.numTimedout +
        c.cleanup.stats.numInterrupted) ∧
      ∀ n ∈ c.tinfo.failed, n ∉ c.tinfo.timedout ∧ n ∉ c.tinfo.completed := by
  have hinv := hrun.invariant (Pair.inv_nextFine cfg) (Pair.inv_start hnow)
  refine ⟨hinv.closed, fun n hn => ?_⟩
  have hcounted := hinv.books.uses.disjoint n hn
  simp only [ThreadInfo.counted, List.mem_append, not_or] at hcounted
  exact hcounted.1

/-- Two queries are sent; one is answered, the other is interrupted. -/
theorem pair_accounts_interrupted :
    ∃ c : Pair, c.cleanup.stats.numSent = 2 ∧ c.cleanup.stats.numCompleted = 1 ∧
      c.cleanup.stats.numInterrupted = 1 ∧
      c.cleanup.stats.numSent = c.cleanup.stats.numCompleted + c.cleanup.stats.numTimedout +
        c.cleanup.stats.numInterrupted := by
  obtain ⟨c, hrun, hend⟩ := Run.exists_of_follow Pair.UndisturbedFine (Pair.nextFine Pair.oneSocket)
    (Pair.start 1000)
    ((List.flatten [Pair.stampQuery, [.sender (.send (.ok 29)), .sender .count], Pair.stampQuery,
      [.sender (.send (.ok 29)), .sender .count, .tick 1500],
      Pair.receiveRound [[0, 0, 128, 0]],
      [.interrupt, .sender .loop, .sender (.drain []), .receiver .loop]]).map .step)
    (fun c => c.sender = .done ∧ c.receiver = .done ∧ c.cleanup.stats.numSent = 2 ∧
      c.cleanup.stats.numCompleted = 1 ∧ c.cleanup.stats.numInterrupted = 1) (by decide +kernel)
  obtain ⟨hsender, hreceiver, hsent, hcompleted, hinterrupted⟩ := of_decide_eq_true hend
  exact ⟨c, hsent, hcompleted, hinterrupted,
    (pair_accounts Pair.oneSocket 1000 (by decide) _ c hrun).1 hsender hreceiver⟩

/-- **A query counted as timed out that was never sent**: it times out between its
timestamp and the `perf_net_sendto` that fails. -/
theorem pair_timeout_of_unsent :
    ∃ steps c, Run (StepOf (Pair.nextFine Pair.oneSocket)) (Pair.start 1000) steps c ∧
      c.sender = .done ∧ c.receiver = .done ∧
      c.cleanup.stats.numSent ≠ c.cleanup.stats.numCompleted + c.cleanup.stats.numTimedout +
        c.cleanup.stats.numInterrupted ∧
      ∃ n ∈ c.tinfo.failed, n ∈ c.tinfo.timedout := by
  obtain ⟨c, hrun, hend⟩ := Run.exists_of_follow (fun _ _ => True) (Pair.nextFine Pair.oneSocket)
    (Pair.start 1000)
    ((List.flatten [Pair.stampQuery, [.tick (1000 + 5 * million)], Pair.receiveRound [],
      [.receiver .loop, .receiver .timeouts, .receiver .expire,
        .sender (.send (.error (.other 105))), .sender .rollback],
      Pair.endInput, [.receiver .check]]).map .step)
    (fun c => c.sender = .done ∧ c.receiver = .done ∧
      c.cleanup.stats.numSent ≠ c.cleanup.stats.numCompleted + c.cleanup.stats.numTimedout +
        c.cleanup.stats.numInterrupted ∧ 0 ∈ c.tinfo.failed ∧ 0 ∈ c.tinfo.timedout)
    (by decide +kernel)
  obtain ⟨hsender, hreceiver, hne, hfailed, htimedout⟩ := of_decide_eq_true hend
  exact ⟨_, c, hrun.mono fun _ _ _ hstep => hstep.2, hsender, hreceiver, hne, 0, hfailed, htimedout⟩

end Dnsperf.Thread
