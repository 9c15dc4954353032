import Dnsperf.Thread.Order

/-!
# Dnsperf.Thread.Stopping

**`do_recv` stops.** Once `do_send` is done, `do_recv` goes on until `num_outstanding` is 0. It
gets there: if the time that `process_timeouts` goes by is late enough for every query that
was sent, the next check ends the loop (`receiver_stops`). Nothing keeps it: what is left on the
list after `process_timeouts` was never sent, and the books say that `num_outstanding` counts the
others.
-/

namespace Dnsperf.Thread

open Dnsperf.Lib Dnsperf.Net

namespace ThreadInfo

variable {t : ThreadInfo} {cfg : Config} {now : Nat}

theorem expiredTail_some {q : Nat} (h : t.expiredTail cfg now = some q) :
    q ∈ t.outstanding ∧ t.Expired cfg now q := by
  unfold expiredTail at h
  split at h
  · exact nomatch h
  · rename_i x hlast
    split_ifs at h with hx
    obtain rfl := Option.some.inj h
    exact ⟨List.mem_of_mem_getLast? hlast, by unfold Expired sentAt; omega⟩

/-- If all that was sent has timed out and nothing on the list has, nothing on it was sent. -/
theorem live_eq_zero_of_late {t' : ThreadInfo}
    (hlate : ∀ q ∈ t.outstanding, t.stamped q = true → t.Expired cfg now q)
    (hsub : t'.outstanding.Sublist t.outstanding) (hsame : ∀ q, t'.sentAt q = t.sentAt q)
    (hnone : ∀ q ∈ t'.outstanding, ¬ t'.Expired cfg now q) : t'.live = 0 := by
  refine List.countP_eq_zero.mpr fun q hq hstamped => hnone q hq ?_
  have hexpired : t.Expired cfg now q := by
    refine hlate q (hsub.subset hq) ?_
    rw [stamped] at hstamped ⊢
    rwa [show (t.queries q).timestamp = (t'.queries q).timestamp from (hsame q).symm]
  unfold Expired at hexpired ⊢
  rwa [hsame]

end ThreadInfo

namespace Pair

variable {cfg : Config} {c : Pair}

theorem check_done (h : Inv c) (hat : c.receiver = .check) (hdone : c.tinfo.doneSending = true)
    (hlive : c.tinfo.live = 0) : StepOf (Pair.next cfg) c (.receiver .check) (c.recvAt .done) := by
  have hbalance := h.books.balance
  rw [hat, h.doneSending hdone, hlive] at hbalance
  simp only [SenderAt.inFlight, ReceiverAt.pending, List.length_nil] at hbalance
  have hzero : c.tinfo.stats.numOutstanding = 0 := by
    unfold Stats.numOutstanding
    split_ifs <;> omega
  simp only [StepOf, next, nextReceiver, hat, hdone, hzero, and_self, if_true]

/-- From `process_timeouts` on, two or three steps. -/
theorem stops_of_timeouts (htimeout : 0 < cfg.timeout) (h : Inv c) (hmirrored : Mirrored c)
    (horder : c.tinfo.Ordered) (hat : c.receiver = .timeouts)
    (hdone : c.tinfo.doneSending = true)
    (hlate : ∀ q ∈ c.tinfo.outstanding, c.tinfo.stamped q = true →
      c.tinfo.Expired cfg c.receiverNow q) :
    ∃ (steps : List ReceiverStep) (c' : Pair), steps.length ≤ 3 ∧
      Run (StepOf (Pair.next cfg)) c (steps.map Step.receiver) c' ∧ c'.receiver = .done := by
  cases htail : c.tinfo.expiredTail cfg c.receiverNow with
  | none =>
      have hstep : StepOf (Pair.next cfg) c (.receiver .timeouts) (c.recvAt .check) := by
        simp only [StepOf, next, nextReceiver, hat, htail]
      have hlive := ThreadInfo.live_eq_zero_of_late hlate (List.Sublist.refl _) (fun _ => rfl)
        (horder.none_expired_of_expiredTail htail)
      have hinv : Inv (c.recvAt .check) := inv_next cfg c (.receiver .timeouts) _ h ⟨trivial, hstep⟩
      exact ⟨[.timeouts, .check], _, by decide,
        Run.cons hstep (Run.cons (check_done hinv rfl hdone hlive) (Run.nil _)), rfl⟩
  | some q =>
      obtain ⟨hmem, hexpired⟩ := ThreadInfo.expiredTail_some htail
      have hstep : StepOf (Pair.next cfg) c (.receiver .timeouts) (c.recvAt (.expire q)) := by
        simp only [StepOf, next, nextReceiver, hat, htail]
      have hexpire : StepOf (Pair.next cfg) (c.recvAt (.expire q)) (.receiver .expire)
          { c with
            tinfo := c.tinfo.processTimeouts cfg c.receiverNow q
            receiver := .check } := rfl
      -- nobody moves the query in between
      have hlist := (h.books.lists.mem_outstanding q).mp hmem
      have hstamped : (c.tinfo.queries q).timestamp ≠ uint64Max :=
        Nat.ne_of_lt (Nat.lt_of_le_of_lt hexpired.1 h.receiverNow)
      have hund : (c.recvAt (.expire q)).Undisturbed (.receiver .expire) := ⟨hlist, hstamped⟩
      have hinv := inv_next cfg _ _ _
        (inv_next cfg c (.receiver .timeouts) _ h ⟨trivial, hstep⟩) ⟨hund, hexpire⟩
      obtain ⟨-, e, -, he⟩ := hmirrored.lists
      obtain ⟨e', -, he'⟩ := he.timeoutQuery (he.lt_outstanding hmem)
      have hlive : (c.tinfo.processTimeouts cfg c.receiverNow q).live = 0 :=
        ThreadInfo.live_eq_zero_of_late hlate
          (c.tinfo.fewer_processTimeouts cfg c.receiverNow q).sublist
          (ThreadInfo.sentAt_processTimeouts cfg c.receiverNow q c.tinfo)
          ((ThreadInfo.ordered_timeoutQuery horder q).none_expired_timeoutTail he' htimeout le_rfl)
      obtain ⟨-, hspared⟩ := h.books.processTimeouts cfg h.receiverNow hlist
        (decide_eq_true hstamped)
      have hsending := hspared.doneSending.trans hdone
      exact ⟨[.timeouts, .expire, .check], _, by decide,
        Run.cons hstep (Run.cons hexpire (Run.cons (check_done hinv rfl hsending hlive)
          (Run.nil _))), rfl⟩

end Pair

/-- **`do_recv` stops.** In every undisturbed run in which `perf__net_sent` keeps the order: when
`do_send` is done and `do_recv` is at the head of its loop with a time at which every query sent
has timed out, at most four steps of its own take it to its end. -/
theorem receiver_stops (cfg : Config) (htimeout : 0 < cfg.timeout) (now : Nat)
    (hnow : now < uint64Max) (steps : List Pair.FineStep) (c : Pair)
    (hrun : Run (Guarded (fun c step => c.UndisturbedFine step ∧ c.KeepsOrder step)
      (StepOf (Pair.nextFine cfg))) (Pair.start now) steps c)
    (hdone : c.tinfo.doneSending = true) (hat : c.receiver = .top)
    (hlate : ∀ q ∈ c.tinfo.outstanding, c.tinfo.stamped q = true →
      c.tinfo.Expired cfg c.receiverNow q) :
    ∃ (rest : List ReceiverStep) (c' : Pair), rest.length ≤ 4 ∧
      Run (StepOf (Pair.next cfg)) c (rest.map Pair.Step.receiver) c' ∧ c'.receiver = .done := by
  have hinv := (hrun.mono fun _ _ _ h => ⟨h.1.1, h.2⟩).invariant (Pair.inv_nextFine cfg)
    (Pair.inv_start hnow)
  obtain ⟨hmirrored, horder⟩ := (hrun.mono fun _ _ _ h => ⟨h.1.2, h.2⟩).invariant
    (Pair.inOrder_nextFine cfg) ⟨Pair.mirrored_start now, Pair.inOrder_start hnow⟩
  by_cases hint : c.interrupted = true
  · refine ⟨[.loop], c.recvAt .done, by decide, Run.cons ?_ (Run.nil _), rfl⟩
    simp only [StepOf, Pair.next, Pair.nextReceiver, hat, hint, if_true]
  · have hstep : StepOf (Pair.next cfg) c (.receiver .loop) (c.recvAt .timeouts) := by
      simp only [StepOf, Pair.next, Pair.nextReceiver, hat, if_neg hint]
    have hmirrored' : (c.recvAt .timeouts).Mirrored :=
      Pair.mirrored_nextFine cfg c (.step (.receiver .loop)) _ hmirrored hstep
    obtain ⟨rest, c', hlength, hrest, hend⟩ := Pair.stops_of_timeouts htimeout
      (Pair.inv_next cfg c (.receiver .loop) _ hinv ⟨trivial, hstep⟩) hmirrored' horder.order rfl
      hdone hlate
    exact ⟨.loop :: rest, c', Nat.succ_le_succ hlength, Run.cons hstep hrest, hend⟩

/-- A query is sent and not answered, and the one that was taken last was never sent. Five seconds
later `do_recv` is done. -/
theorem receiver_stops_unanswered :
    ∃ (c : Pair) (rest : List ReceiverStep) (c' : Pair), c.tinfo.outstanding = [1, 0] ∧
      rest.length ≤ 4 ∧
      Run (StepOf (Pair.next Pair.oneSocket)) c (rest.map Pair.Step.receiver) c' ∧
      c'.receiver = .done := by
  obtain ⟨c, hrun, hend⟩ := Run.exists_of_follow
    (fun c step => c.UndisturbedFine step ∧ c.KeepsOrder step) (Pair.nextFine Pair.oneSocket)
    (Pair.start 1000)
    ((List.flatten [Pair.stampQuery, [.sender (.send (.ok 29)), .sender .count], Pair.endInput,
      [.tick (1000 + 5 * million)], Pair.receiveRound []]).map .step)
    (fun c => c.tinfo.outstanding = [1, 0] ∧ c.tinfo.doneSending = true ∧ c.receiver = .top ∧
      ∀ q ∈ c.tinfo.outstanding, c.tinfo.stamped q = true →
        c.tinfo.Expired Pair.oneSocket c.receiverNow q)
    (by decide +kernel)
  obtain ⟨hout, hdone, hat, hlate⟩ := of_decide_eq_true hend
  obtain ⟨rest, c', hstops⟩ :=
    receiver_stops Pair.oneSocket (by decide) 1000 (by decide) _ c hrun hdone hat hlate
  exact ⟨c, rest, c', hout, hstops⟩

end Dnsperf.Thread
