import Dnsperf.Thread.Books
import Dnsperf.Thread.Steps

/-!
# Dnsperf.Thread.Accounting

**Every query counted as sent is accounted for.** Between stamping a query and
counting it, `do_send` has one that is not counted yet (`SenderAt.inFlight`); between
matching a response and counting it, `do_recv` has one that is not live any more
(`ReceiverAt.pending`). Up to these the books balance all the way, and at the end there
are none.

They do not balance if one party moves a query the other has moved before. That happens
in two places, which `Pair.Undisturbed` excludes: a query that could not be sent goes
back although it **has timed out meanwhile**, and a query found to have timed out, before
the lock was taken, is counted although it **has gone back meanwhile**.
-/

namespace Dnsperf.Thread

open Dnsperf.Lib Dnsperf.Net

/-! ### What holds between steps -/

/-- The queries `do_send` has stamped and not counted. -/
def SenderAt.inFlight : SenderAt → Nat
  | .send .. | .count .. | .failed _ => 1
  | _ => 0

/-- What `do_send` can rely on about the query it is at. -/
def SenderAt.Holds (t : ThreadInfo) : SenderAt → Prop
  | .input q _ | .undo q | .clock q _ _ | .stamp q _ _ =>
      (t.queries q).list = .outstanding ∧ t.stamped q = false
  | .send q _ _ | .count q _ | .failed q => t.stamped q = true
  | _ => True

/-- The responses `do_recv` has matched and not counted. -/
def ReceiverAt.pending : ReceiverAt → List ReceivedQuery
  | .count _ rest => rest.filter ReceivedQuery.matched
  | _ => []

/-- The responses `do_recv` has not looked up yet. -/
def ReceiverAt.fresh : ReceiverAt → List ReceivedQuery
  | .recv recvd | .lock recvd => recvd
  | _ => []

namespace Pair

/-- Neither party moves a query that the other has moved since: a query that could not
be sent is still outstanding, and one found to have timed out still is and has not been
taken for another use. -/
def Undisturbed (c : Pair) : Step → Prop
  | .sender .rollback =>
      match c.sender with
      | .failed q => (c.tinfo.queries q).list = .outstanding
      | _ => True
  | .receiver .expire =>
      match c.receiver with
      | .expire q => (c.tinfo.queries q).list = .outstanding ∧
          (c.tinfo.queries q).timestamp ≠ uint64Max
      | _ => True
  | _ => True

instance (c : Pair) (step : Step) : Decidable (c.Undisturbed step) := by
  unfold Undisturbed
  split
  · split <;> infer_instance
  · split <;> infer_instance
  · infer_instance

/-- What every undisturbed step keeps. -/
structure Inv (c : Pair) : Prop where
  books : c.tinfo.Books c.sender.inFlight c.receiver.pending
  holds : c.sender.Holds c.tinfo
  fresh : ∀ r ∈ c.receiver.fresh, r.unexpected = false
  doneSending : c.tinfo.doneSending = true → c.sender = .done
  clock : c.clock < uint64Max
  senderNow : c.vars.now < uint64Max
  receiverNow : c.receiverNow < uint64Max
  /-- `do_recv` stops for a reason. -/
  stopped : c.receiver = .done → c.interrupted = true ∨ c.sender = .done ∧ c.tinfo.live = 0

theorem inv_start {now : Nat} (hnow : now < uint64Max) : Inv (start now) where
  books := ThreadInfo.books_init
  holds := trivial
  fresh := fun _ hr => absurd hr List.not_mem_nil
  doneSending := fun hdone => nomatch hdone
  clock := hnow
  senderNow := hnow
  receiverNow := hnow
  stopped := fun hdone => nomatch hdone

variable {cfg : Config} {c c' : Pair}

/-! ### Steps of `do_send` -/

/-- A step of `do_send`: the books, and what it relies on next. -/
theorem Inv.send (h : Inv c) (hne : c.sender ≠ .done) {t : ThreadInfo} {place : SenderAt}
    {vars : SenderVars} (hbooks : t.Books place.inFlight c.receiver.pending)
    (hholds : place.Holds t) (hdone : t.doneSending = c.tinfo.doneSending ∨ place = .done)
    (hnow : vars.now < uint64Max) : Inv { c with tinfo := t, sender := place, vars := vars } where
  books := hbooks
  holds := hholds
  fresh := h.fresh
  doneSending := fun hd => hdone.resolve_left fun heq => hne (h.doneSending (heq ▸ hd))
  clock := h.clock
  senderNow := hnow
  receiverNow := h.receiverNow
  stopped := fun hd => Or.inl ((h.stopped hd).resolve_right fun hs => hne hs.1)

theorem Inv.sendAt (h : Inv c) (hne : c.sender ≠ .done) {place : SenderAt}
    (hflight : place.inFlight = c.sender.inFlight) (hholds : place.Holds c.tinfo) :
    Inv (c.sendAt place) :=
  h.send hne (hflight ▸ h.books) hholds (Or.inl rfl) h.senderNow

theorem Inv.lock (h : Inv c) {calls : List ThreadInfo.SockreadyCall}
    {acquired : ThreadInfo.Acquired} {t : ThreadInfo} (hne : c.sender ≠ .done)
    (hat : c.sender = .lock) (hacquire : c.tinfo.acquire cfg c.clock calls = some (acquired, t)) :
    Inv { c with tinfo := t, sender := .ofAcquired acquired } := by
  have hbooks := h.books
  rw [hat] at hbooks
  obtain ⟨hbooks', hdone, hquery⟩ := hbooks.acquire cfg h.clock hacquire
  cases acquired with
  | nothing => exact h.send hne hbooks' trivial (Or.inl hdone) h.senderNow
  | query q sock => exact h.send hne hbooks' (hquery q sock rfl) (Or.inl hdone) h.senderNow
  | fatal => exact h.send hne hbooks' trivial (Or.inl hdone) h.senderNow

theorem Inv.stamp (h : Inv c) {q sock length : Nat} (hne : c.sender ≠ .done)
    (hat : c.sender = .stamp q sock length) :
    Inv { c with tinfo := c.tinfo.setTimestamp q c.vars.now, sender := .send q sock length } := by
  have hbooks := h.books
  have hholds := h.holds
  rw [hat] at hbooks hholds
  refine h.send hne (hbooks.stamp hholds.1 hholds.2 h.senderNow) ?_ (Or.inl rfl) h.senderNow
  show (c.tinfo.setTimestamp q c.vars.now).stamped q = true
  rw [ThreadInfo.stamped, (ThreadInfo.setTimestamp_query c.vars.now q).2.2, if_pos rfl]
  exact decide_eq_true (Nat.ne_of_lt h.senderNow)

/-- **A step of `do_send`.** A query that could not be sent goes back, if it has not gone
already. -/
theorem inv_sends (h : Inv c) {step : SenderStep} (hund : c.Undisturbed (.sender step))
    (hsends : Sends cfg c step c') : Inv c' := by
  have hne := hsends.ne_done
  have hbooks := h.books
  have hholds := h.holds
  cases hsends with
  | loop hat | stop hat | eof hat => exact h.sendAt hne (by rw [hat]; rfl) trivial
  | throttle hat hnow =>
      rw [hat] at hbooks
      refine h.send hne hbooks trivial (Or.inl rfl) ?_
      exact hnow.elim (fun hnow => hnow.trans_lt h.senderNow) fun hnow => hnow.trans_lt h.clock
  | flush hat hflushed hnow =>
      rw [hat] at hbooks
      obtain ⟨hbooks', hkept⟩ := hbooks.flushed h.clock hflushed
      exact h.send hne hbooks' trivial (Or.inl hkept.doneSending) (hnow.trans_lt h.senderNow)
  | limit hat hnow | wait hat hnow =>
      rw [hat] at hbooks
      exact h.send hne hbooks trivial (Or.inl rfl) (hnow.trans_lt h.senderNow)
  | again hat hnow =>
      rw [hat] at hbooks
      exact h.send hne hbooks trivial (Or.inl rfl) (hnow.trans_lt h.clock)
  | lock hat hacquire => exact h.lock hne hat hacquire
  | unbuilt hat | built hat | failed hat =>
      rw [hat] at hholds
      exact h.sendAt hne (by rw [hat]; rfl) hholds
  -- the entry is still the one taken in `lock`, so it goes back as it was
  | undo hat =>
      rw [hat] at hbooks hholds
      exact h.send hne (hbooks.release hholds.1 hholds.2) trivial
        (Or.inl (ThreadInfo.queryMove_doneSending _ _ _)) h.senderNow
  | clock hat hnow =>
      rw [hat] at hbooks hholds
      exact h.send hne hbooks hholds (Or.inl rfl) (hnow.trans_lt h.clock)
  | stamp hat => exact h.stamp hne hat
  | sent hat hnow =>
      rw [hat] at hbooks hholds
      exact h.send hne hbooks hholds (Or.inl rfl) (hnow.trans_lt h.senderNow)
  | count hat hnow =>
      rw [hat] at hbooks
      exact h.send hne (hbooks.countSent _) trivial (Or.inl rfl) (hnow.trans_lt h.senderNow)
  -- a response may have been matched since; `hund` says it was not
  | rollback hat =>
      rw [hat] at hbooks hholds
      simp only [Undisturbed, hat] at hund
      exact h.send hne (hbooks.rollback hund hholds) trivial
        (Or.inl (ThreadInfo.queryMove_doneSending _ _ _)) h.senderNow
  | drain hat hflushed hnow =>
      obtain ⟨hbooks', hkept⟩ := hbooks.flushed h.clock hflushed
      refine h.send hne hbooks' ?_ (Or.inl hkept.doneSending) (hnow.trans_lt h.senderNow)
      rw [hat]
      trivial
  | done hat =>
      rw [hat] at hbooks
      exact h.send hne (hbooks.of_eq rfl rfl (fun _ => rfl) (fun _ => rfl) (fun _ => rfl) rfl rfl
        rfl rfl) trivial (Or.inr rfl) h.senderNow

/-! ### Steps of `do_recv` -/

theorem holds_of_spared {place : SenderAt} {t t' : ThreadInfo} (h : place.Holds t)
    (hspared : ThreadInfo.Spared t t') : place.Holds t' := by
  cases place with
  | input | undo | clock | stamp =>
      exact ⟨(hspared.list _ h.2).trans h.1, (hspared.stamped _).trans h.2⟩
  | send | count | failed => exact (hspared.stamped _).trans h
  | _ => trivial

/-- A step of `do_recv`: the books, and why it stops if it does. -/
theorem Inv.receive (h : Inv c) {t : ThreadInfo} {place : ReceiverAt} {now : Nat}
    (hbooks : t.Books c.sender.inFlight place.pending) (hspared : ThreadInfo.Spared c.tinfo t)
    (hfresh : ∀ r ∈ place.fresh, r.unexpected = false) (hnow : now < uint64Max)
    (hstopped : place = .done → c.interrupted = true ∨ c.sender = .done ∧ t.live = 0) :
    Inv { c with tinfo := t, receiver := place, receiverNow := now } where
  books := hbooks
  holds := holds_of_spared h.holds hspared
  fresh := hfresh
  doneSending := fun hd => h.doneSending (hspared.doneSending ▸ hd)
  clock := h.clock
  senderNow := h.senderNow
  receiverNow := hnow
  stopped := hstopped

theorem Inv.recvAt (h : Inv c) {place : ReceiverAt} (hpending : place.pending = c.receiver.pending)
    (hfresh : ∀ r ∈ place.fresh, r.unexpected = false)
    (hstopped : place = .done → c.interrupted = true ∨ c.sender = .done ∧ c.tinfo.live = 0) :
    Inv (c.recvAt place) :=
  h.receive (hpending ▸ h.books) (ThreadInfo.Spared.refl _) hfresh h.receiverNow hstopped

/-- With all counted, `num_outstanding` is the number of live queries. -/
theorem Inv.live_eq_zero (h : Inv c) (hat : c.receiver = .check)
    (hdone : c.tinfo.doneSending = true) (hzero : c.tinfo.stats.numOutstanding = 0) :
    c.tinfo.live = 0 := by
  have hbalance := h.books.balance
  rw [hat, h.doneSending hdone] at hbalance
  simp only [SenderAt.inFlight, ReceiverAt.pending, List.length_nil] at hbalance
  unfold Stats.numOutstanding at hzero
  split_ifs at hzero
  · omega
  · omega

theorem nothing_fresh : ∀ r ∈ ([] : List ReceivedQuery), r.unexpected = false :=
  fun _ hr => absurd hr List.not_mem_nil

/-- **A step of `do_recv`.** It stops when everything sent is accounted for. A query found to
have timed out is counted, if it has not gone already. -/
theorem inv_receives (h : Inv c) {step : ReceiverStep} (hund : c.Undisturbed (.receiver step))
    (hreceives : Receives cfg c step c') : Inv c' := by
  have hbooks := h.books
  have hfresh := h.fresh
  cases hreceives with
  | loop hat | timeouts hat | expired hat _ | check hat =>
      exact h.recvAt (by rw [hat]; rfl) nothing_fresh fun hdone => by cases hdone
  | interrupted hat hint =>
      exact h.recvAt (by rw [hat]; rfl) nothing_fresh fun _ => Or.inl hint
  -- by `hund` the entry has neither been answered nor taken again since
  | expire hat =>
      rw [hat] at hbooks
      simp only [Undisturbed, hat] at hund
      obtain ⟨hbooks', hspared⟩ := hbooks.processTimeouts cfg h.receiverNow hund.1
        (decide_eq_true hund.2)
      exact h.receive hbooks' hspared nothing_fresh h.receiverNow fun hdone => by cases hdone
  -- nothing is outstanding and nothing will be sent
  | done hat hsending hnone =>
      exact h.recvAt (by rw [hat]; rfl) nothing_fresh
        fun _ => Or.inr ⟨h.doneSending hsending, h.live_eq_zero hat hsending hnone⟩
  | packet hat =>
      rw [hat] at hfresh
      exact h.recvAt (by rw [hat]; rfl)
        (List.forall_mem_append.mpr ⟨hfresh, List.forall_mem_singleton.mpr rfl⟩)
        fun hdone => by cases hdone
  | batch hat =>
      rw [hat] at hfresh
      exact h.recvAt (by rw [hat]; rfl) hfresh fun hdone => by cases hdone
  | lock hat =>
      rw [hat] at hbooks hfresh
      obtain ⟨hbooks', hspared⟩ := hbooks.matchQueries _ hfresh
      exact h.receive hbooks' hspared nothing_fresh h.receiverNow fun hdone => by cases hdone
  | count hat =>
      rw [hat] at hbooks
      obtain ⟨hbooks', hspared⟩ := ThreadInfo.Books.complete hbooks
      exact h.receive hbooks' hspared nothing_fresh h.receiverNow fun hdone => by cases hdone
  | again hat hnow =>
      rw [hat] at hbooks
      refine h.receive (hbooks.of_eq rfl rfl (fun _ => rfl) (fun _ => rfl) (fun _ => rfl) rfl
        rfl rfl rfl) ⟨fun _ _ => rfl, fun _ => rfl, rfl⟩ nothing_fresh ?_
        fun hdone => by cases hdone
      exact hnow.elim (fun hnow => hnow.trans_lt h.receiverNow) fun hnow => hnow.trans_lt h.clock

theorem inv_next (cfg : Config) (c : Pair) (step : Step) (c' : Pair) (h : Inv c)
    (hstep : Guarded Undisturbed (StepOf (next cfg)) c step c') : Inv c' := by
  obtain ⟨hund, hstep⟩ := hstep
  cases step with
  | sender step => exact inv_sends h hund (sends_of_nextSender hstep)
  | receiver step => exact inv_receives h hund (receives_of_nextReceiver hstep)
  | tick now =>
      obtain ⟨⟨-, hnow⟩, hc'⟩ := Option.ite_none_right_eq_some.mp hstep
      rw [← Option.some.inj hc']
      exact { h with clock := hnow }
  | interrupt =>
      rw [← Option.some.inj hstep]
      exact { h with stopped := fun _ => Or.inl rfl }

variable {c : Pair}

/-- **The account is closed** once both parties have stopped and an interrupted run's queries have
been cancelled. -/
theorem Inv.closed (h : Inv c) (hsender : c.sender = .done) (hreceiver : c.receiver = .done) :
    c.cleanup.stats.numSent = c.cleanup.stats.numCompleted + c.cleanup.stats.numTimedout +
      c.cleanup.stats.numInterrupted := by
  have hbalance := h.books.balance
  have hzero := h.books.interrupted
  rw [hsender, hreceiver] at hbalance
  simp only [SenderAt.inFlight, ReceiverAt.pending, List.length_nil] at hbalance
  unfold Pair.cleanup
  split_ifs with hint
  · obtain ⟨hinterrupted, hsent, htimedout, hcompleted⟩ :=
      ThreadInfo.cancelQueries_stats h.books.lists
    omega
  · have hlive := ((h.stopped hreceiver).resolve_left hint).2
    omega

/-- One socket, and a timeout of five seconds. -/
def oneSocket : Config := ⟨5 * million, uint64Max, 100, 0, 1⟩

/-- `do_send` up to a query that has its timestamp. -/
def stampQuery : List Step :=
  [.loop, .throttle, .flush [], .limit, .lock [⟨1, []⟩], .input (.built 29), .clock, .stamp].map
    .sender

/-- `do_send` when the input is at its end. -/
def endInput : List Step :=
  [.loop, .throttle, .flush [], .limit, .lock [⟨1, []⟩], .input .eof, .drain []].map .sender

/-- A round of `do_recv` that receives `packets`. -/
def receiveRound (packets : List Bytes) : List Step :=
  [ReceiverStep.loop, .timeouts, .check].map Step.receiver ++
    packets.map (Step.receiver <| ReceiverStep.packet 0 ·) ++
    [ReceiverStep.batch, .lock fun a b => a == b].map Step.receiver ++
    packets.map (fun _ => Step.receiver .count) ++ [Step.receiver (.again true)]

end Pair

end Dnsperf.Thread
