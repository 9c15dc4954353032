import Dnsperf.Thread.Steps

/-!
# Dnsperf.Thread.Shares

**How the limits are divided among the threads.** `setup` lowers the number of threads to that of
the clients and to `max_qps`, so that every thread has a socket and may send something each second.
It does not look at `max_outstanding`: where that is smaller than the number of threads, the last
ones get a share of 0, and their senders wait for good.
-/

namespace Dnsperf.Thread

open Dnsperf.Lib Dnsperf.Net

/-! ### `setup` and `threadinfo_init` -/

/-- `MAX_SOCKETS`. -/
def maxSockets : Nat := 256

/-- The numbers that `setup` has from the command line. -/
structure CommandLine where
  clients : Nat
  threads : Nat
  maxOutstanding : Nat
  maxQps : Nat
  clients_pos : 0 < clients
  threads_pos : 0 < threads
  maxOutstanding_pos : 0 < maxOutstanding
  lt_uint32 : clients < 2 ^ 32 ∧ threads < 2 ^ 32 ∧ maxOutstanding < 2 ^ 32 ∧ maxQps < 2 ^ 32

/-- `per_thread`. -/
def perThread (total nthreads offset : Nat) : Nat :=
  let value := total / nthreads
  -- work out if there's a shortfall and adjust if necessary
  let tempTotal := value * nthreads % 2 ^ 32
  if tempTotal < total ∧ offset < total - tempTotal then (value + 1) % 2 ^ 32 else value

namespace CommandLine

variable (l : CommandLine)

theorem clients_lt : l.clients < 2 ^ 32 := l.lt_uint32.1

theorem maxOutstanding_lt : l.maxOutstanding < 2 ^ 32 := l.lt_uint32.2.2.1

theorem maxQps_lt : l.maxQps < 2 ^ 32 := l.lt_uint32.2.2.2

/-- The number of threads that `setup` starts. -/
def loweredThreads : Nat :=
  let threads := if 0 < l.maxQps ∧ l.maxQps < l.threads then l.maxQps else l.threads
  -- We also can't run more threads than clients.
  if l.clients < threads then l.clients else threads

/-- `threadinfo_init`, for the limits of the thread with the given offset. -/
def threadinfoInit (timeout stopTime offset : Nat) : Config where
  timeout := timeout
  stopTime := stopTime
  maxOutstanding :=
    let share := perThread l.maxOutstanding l.loweredThreads offset
    -- We can't have more than 64k outstanding queries per thread.
    if nqids < share then nqids else share
  maxQps := perThread l.maxQps l.loweredThreads offset
  nsocks :=
    let share := perThread l.clients l.loweredThreads offset
    if maxSockets < share then maxSockets else share

end CommandLine

/-! ### The shares -/

/-- The shares differ by one at most, and the first ones are the larger. -/
theorem perThread_eq {total : Nat} (htotal : total < 2 ^ 32) (nthreads offset : Nat) :
    perThread total nthreads offset =
      total / nthreads + if offset < total % nthreads then 1 else 0 := by
  have hsum := Nat.div_add_mod' total nthreads
  have hle := Nat.div_le_self total nthreads
  unfold perThread
  dsimp only
  rw [Nat.mod_eq_of_lt (by omega : total / nthreads * nthreads < 2 ^ 32)]
  by_cases hoffset : offset < total % nthreads
  · -- something is left, so the larger share is not more than all there is
    have hlt : total / nthreads < total := by
      refine lt_of_le_of_ne hle fun heq => ?_
      rcases Nat.eq_zero_or_pos nthreads with rfl | hpos
      · rw [Nat.div_zero] at heq
        rw [← heq, Nat.zero_mod] at hoffset
        omega
      · have := Nat.le_mul_of_pos_right (total / nthreads) hpos
        omega
    rw [if_pos hoffset, if_pos ⟨by omega, by omega⟩, Nat.mod_eq_of_lt (by omega)]
  · rw [if_neg hoffset, if_neg (by omega), Nat.add_zero]

theorem perThread_pos_iff {total nthreads : Nat} (hn : 0 < nthreads) (htotal : total < 2 ^ 32) :
    (∀ i < nthreads, 0 < perThread total nthreads i) ↔ nthreads ≤ total := by
  constructor
  · intro h
    have hlast := h (nthreads - 1) (by omega)
    rw [perThread_eq htotal] at hlast
    by_contra hlt
    rw [Nat.div_eq_of_lt (by omega), Nat.mod_eq_of_lt (by omega), if_neg (by omega)] at hlast
    omega
  · intro hle i _
    rw [perThread_eq htotal]
    have := Nat.div_pos hle hn
    omega

namespace CommandLine

variable (l : CommandLine)

theorem loweredThreads_pos : 0 < l.loweredThreads := by
  have := l.clients_pos
  have := l.threads_pos
  unfold loweredThreads
  dsimp only
  split_ifs <;> omega

theorem loweredThreads_le_clients : l.loweredThreads ≤ l.clients := by
  unfold loweredThreads
  dsimp only
  split_ifs <;> omega

theorem loweredThreads_le_maxQps (hqps : 0 < l.maxQps) : l.loweredThreads ≤ l.maxQps := by
  unfold loweredThreads
  dsimp only
  split_ifs <;> omega

variable {l} {timeout stopTime i : Nat}

theorem threadinfoInit_nsocks_pos (hi : i < l.loweredThreads) :
    0 < (l.threadinfoInit timeout stopTime i).nsocks := by
  have hpos := (perThread_pos_iff l.loweredThreads_pos l.clients_lt).mpr
    l.loweredThreads_le_clients i hi
  simp only [threadinfoInit]
  split_ifs
  · decide
  · exact hpos

theorem threadinfoInit_maxQps_pos (hqps : 0 < l.maxQps) (hi : i < l.loweredThreads) :
    0 < (l.threadinfoInit timeout stopTime i).maxQps :=
  (perThread_pos_iff l.loweredThreads_pos l.maxQps_lt).mpr (l.loweredThreads_le_maxQps hqps) i hi

theorem threadinfoInit_maxOutstanding_pos_iff :
    0 < (l.threadinfoInit timeout stopTime i).maxOutstanding ↔
      0 < perThread l.maxOutstanding l.loweredThreads i := by
  simp only [threadinfoInit]
  split_ifs with hmany
  · exact ⟨fun _ => by omega, fun _ => by decide⟩
  · exact Iff.rfl

end CommandLine

/-! ### A sender without a share -/

/-- Where `do_send` gets by itself when it may not send. -/
def SenderAt.idle : SenderAt → Bool
  | .top | .throttle | .flush | .limit | .again | .lock => true
  | _ => false

namespace Pair

variable {cfg : Config} {c c' : Pair}

/-- `do_send` is before its first query, as long as the time is not up. -/
structure Waiting (cfg : Config) (c : Pair) : Prop where
  interrupted : c.interrupted = false
  now_le : c.vars.now ≤ c.clock
  idle : c.clock < cfg.stopTime → c.sender.idle = true

theorem Waiting.time_up (h : Waiting cfg c) {place : SenderAt} (hat : c.sender = place)
    (hplace : place.idle = false) : ¬ c.clock < cfg.stopTime := by
  intro hlt
  have hidle := h.idle hlt
  rw [hat, hplace] at hidle
  cases hidle

theorem Waiting.late (h : Waiting cfg c) {place : SenderAt} (hat : c.sender = place)
    (hplace : place.idle = false) (hinterrupted : c'.interrupted = c.interrupted)
    (hclock : c'.clock = c.clock) (hnow : c'.vars.now = c.vars.now ∨ c'.vars.now = c.clock) :
    Waiting cfg c' where
  interrupted := hinterrupted.trans h.interrupted
  now_le := by
    have := h.now_le
    rw [hclock]
    rcases hnow with hnow | hnow <;> omega
  idle hlt := absurd (hclock ▸ hlt) (h.time_up hat hplace)

/-- **With a share of 0 the lock is not worth taking.** -/
theorem waiting_sender {step : SenderStep} (hshare : cfg.maxOutstanding = 0) (h : Waiting cfg c)
    (hstep : c.nextSender cfg step = some c') : Waiting cfg c' := by
  have hnow_le := h.now_le
  by_cases hloop : step = .loop
  · subst hloop
    obtain ⟨hat, hc'⟩ := Option.ite_none_right_eq_some.mp hstep
    rw [← Option.some.inj hc']
    refine ⟨h.interrupted, h.now_le, fun hlt => ?_⟩
    have hmore : c.interrupted = false ∧ c.vars.now < cfg.stopTime :=
      ⟨h.interrupted, lt_of_le_of_lt h.now_le hlt⟩
    rw [if_pos hmore]
    rfl
  · cases sends_of_nextSender hstep with
    | loop hat => exact absurd rfl hloop
    | stop hat => exact absurd rfl hloop
    | throttle hat hnow =>
        refine ⟨h.interrupted, ?_, fun _ => rfl⟩
        rcases hnow with hnow | hnow
        · exact hnow.trans_le h.now_le
        · exact hnow.le
    | flush hat _ hnow => exact ⟨h.interrupted, hnow.trans_le h.now_le, fun _ => rfl⟩
    | limit hat hnow => exact ⟨h.interrupted, hnow.trans_le h.now_le, fun _ => rfl⟩
    | wait hat hnow => exact ⟨h.interrupted, hnow.trans_le h.now_le, fun _ => rfl⟩
    | again hat hnow => exact ⟨h.interrupted, hnow.le, fun _ => rfl⟩
    -- with a share of 0 there is never room, so no query is taken
    | lock hat hacquire =>
        rw [ThreadInfo.acquire, hshare, if_pos (Nat.zero_le _)] at hacquire
        obtain ⟨rfl, rfl⟩ := Prod.mk.inj (Option.some.inj hacquire)
        exact ⟨h.interrupted, h.now_le, fun _ => rfl⟩
    -- none of the places below is reached before the stop time
    | eof hat => exact h.late hat rfl rfl rfl (Or.inl rfl)
    | unbuilt hat => exact h.late hat rfl rfl rfl (Or.inl rfl)
    | built hat => exact h.late hat rfl rfl rfl (Or.inl rfl)
    | undo hat => exact h.late hat rfl rfl rfl (Or.inl rfl)
    | clock hat hnow => exact h.late hat rfl rfl rfl (Or.inr hnow)
    | stamp hat => exact h.late hat rfl rfl rfl (Or.inl rfl)
    | sent hat hnow => exact h.late hat rfl rfl rfl (Or.inl hnow)
    | failed hat => exact h.late hat rfl rfl rfl (Or.inl rfl)
    | count hat hnow => exact h.late hat rfl rfl rfl (Or.inl hnow)
    | rollback hat => exact h.late hat rfl rfl rfl (Or.inl rfl)
    | drain hat _ hnow => exact h.late hat rfl rfl rfl (Or.inl hnow)
    | done hat => exact h.late hat rfl rfl rfl (Or.inl rfl)

theorem waiting_next {step : Step} (hshare : cfg.maxOutstanding = 0) (hstep' : step ≠ .interrupt)
    (h : Waiting cfg c) (hstep : c.next cfg step = some c') : Waiting cfg c' := by
  cases step with
  | sender step => exact waiting_sender hshare h hstep
  | receiver step =>
      obtain ⟨hsender, hvars, hclock, hinterrupted⟩ := (receives_of_nextReceiver hstep).frame
      refine ⟨hinterrupted.trans h.interrupted, ?_, fun hlt => ?_⟩
      · rw [hvars, hclock]
        exact h.now_le
      · rw [hsender]
        exact h.idle (hclock ▸ hlt)
  | tick now =>
      obtain ⟨⟨hle, -⟩, hc'⟩ := Option.ite_none_right_eq_some.mp hstep
      rw [← Option.some.inj hc']
      exact ⟨h.interrupted, h.now_le.trans hle, fun hlt => h.idle (lt_of_le_of_lt hle hlt)⟩
  | interrupt => exact absurd rfl hstep'

/-- **A sender without a share** does not get to its first query before the time is up. -/
theorem waiting_run {now : Nat} {es : List Step} (hshare : cfg.maxOutstanding = 0)
    (hes : ∀ e ∈ es, e ≠ .interrupt) (hrun : Run (StepOf (next cfg)) (start now) es c) :
    Waiting cfg c :=
  (hrun.guarded hes).invariant (fun _ _ _ h hstep => waiting_next hshare hstep.1 h hstep.2)
    ⟨rfl, le_rfl, fun _ => rfl⟩

/-! ### A sender with one -/

theorem acquire_first {t : ThreadInfo} (now : Nat) (hshare : 0 < cfg.maxOutstanding)
    (hsocks : 0 < cfg.nsocks) (hnone : t.stats.numOutstanding = 0) (hunused : t.unused ≠ []) :
    ∃ q sock t', t.acquire cfg now [⟨1, []⟩] = some (.query q sock, t') := by
  obtain ⟨q, rest, hunused⟩ := List.exists_cons_of_ne_nil hunused
  obtain ⟨n, hn⟩ : ∃ n, cfg.nsocks * 2 = n + 1 := ⟨cfg.nsocks * 2 - 1, by omega⟩
  unfold ThreadInfo.acquire
  rw [if_neg (by omega), hunused, hn]
  exact ⟨q, _, _, rfl⟩

/-- Nothing is outstanding, nothing is in progress, and there is a query to use. -/
structure Idle (c : Pair) : Prop where
  interrupted : c.interrupted = false
  none_outstanding : c.tinfo.stats.numOutstanding = 0
  unused : c.tinfo.unused ≠ []
  flushed : c.vars.anyInprogress = false

/-- `do_send` has got to a query. -/
def Proceeds (cfg : Config) (c : Pair) : Prop :=
  ∃ es c' q sock, Run (StepOf (next cfg)) c es c' ∧ c'.sender = .input q sock

theorem Proceeds.of_step {step : Step} (hstep : c.next cfg step = some c') (h : Proceeds cfg c') :
    Proceeds cfg c := by
  obtain ⟨es, c'', q, sock, hrun, hat⟩ := h
  exact ⟨step :: es, c'', q, sock, .cons hstep hrun, hat⟩

theorem proceeds_lock (hshare : 0 < cfg.maxOutstanding) (hsocks : 0 < cfg.nsocks) (h : Idle c)
    (hat : c.sender = .lock) : Proceeds cfg c := by
  obtain ⟨q, sock, t', hacquire⟩ :=
    acquire_first c.clock hshare hsocks h.none_outstanding h.unused
  refine ⟨[.sender (.lock [⟨1, []⟩])], { c with tinfo := t', sender := .input q sock }, q, sock,
    .cons ?_ (.nil _), rfl⟩
  change (if c.sender = .lock then _ else none) = _
  rw [if_pos hat, hacquire]
  rfl

theorem proceeds_limit (hshare : 0 < cfg.maxOutstanding) (hsocks : 0 < cfg.nsocks) (h : Idle c)
    (hat : c.sender = .limit) (hpass : (c.vars.rateLimit cfg).1 = true) : Proceeds cfg c := by
  have hstep : c.next cfg (.sender .limit) =
      some { c with sender := .lock, vars := (c.vars.rateLimit cfg).2 } := by
    change (if c.sender = .limit then some { c with
      sender := if (c.vars.rateLimit cfg).1 then .lock else .again
      vars := (c.vars.rateLimit cfg).2 } else none) = _
    rw [if_pos hat, if_pos hpass]
  refine .of_step hstep (proceeds_lock hshare hsocks ?_ rfl)
  exact ⟨h.interrupted, h.none_outstanding, h.unused, (rateLimit_anyInprogress cfg c.vars).trans
    h.flushed⟩

theorem proceeds_top (h : Idle c) (hat : c.sender = .top) (hnow : c.vars.now < cfg.stopTime)
    (hrest : ∀ now, now = c.vars.now ∨ now = c.clock →
      Proceeds cfg { c with sender := .limit, vars := { c.vars with now := now } }) :
    Proceeds cfg c := by
  have hloop : c.next cfg (.sender .loop) = some (c.sendAt .throttle) := by
    change (if c.sender = .top then
      some (c.sendAt
        (if c.interrupted = false ∧ c.vars.now < cfg.stopTime then .throttle else .drain))
      else none) = _
    rw [if_pos hat, if_pos ⟨h.interrupted, hnow⟩]
  refine .of_step hloop ?_
  have hthrottle : (c.sendAt .throttle).next cfg (.sender .throttle) = some { c with
      sender := .flush
      vars := { c.vars with
        now := if c.tinfo.stats.numSent < cfg.maxOutstanding ∧ c.tinfo.stats.numSent % 2 = 1 then
          c.clock else c.vars.now } } := rfl
  refine .of_step hthrottle ?_
  generalize hnext : (if c.tinfo.stats.numSent < cfg.maxOutstanding ∧ c.tinfo.stats.numSent % 2 = 1
    then c.clock else c.vars.now) = now
  have hflush : ({ c with sender := .flush, vars := { c.vars with now := now } } : Pair).next cfg
      (.sender (.flush [])) =
        some { c with sender := .limit, vars := { c.vars with now := now } } := by
    change (if c.vars.anyInprogress = true then _ else some _) = _
    rw [if_neg (by rw [h.flushed]; decide)]
    rfl
  refine .of_step hflush (hrest now ?_)
  rw [← hnext]
  split_ifs
  · exact Or.inr rfl
  · exact Or.inl rfl

/-- **A sender with a share** gets to its next query when nothing is outstanding, at the latest with
the next slice. -/
theorem proceeds_of_idle {now : Nat} (hshare : 0 < cfg.maxOutstanding) (hsocks : 0 < cfg.nsocks)
    (h : Idle c) (hat : c.sender = .top) (hclock : c.clock ≤ now) (hslice : c.vars.qSlice ≤ now)
    (hvars : c.vars.now ≤ c.clock) (hlt : now < uint64Max) (hstop : now < cfg.stopTime) :
    Proceeds cfg c := by
  have htick : c.next cfg (.tick now) = some { c with clock := now } := if_pos ⟨hclock, hlt⟩
  refine .of_step htick (proceeds_top ⟨h.1, h.2, h.3, h.4⟩ hat (by dsimp only; omega) ?_)
  intro now₁ hnow₁
  dsimp only at hnow₁
  have hidle : Idle { c with
      clock := now, sender := .limit, vars := { c.vars with now := now₁ } } := ⟨h.1, h.2, h.3, h.4⟩
  by_cases hpass : (SenderVars.rateLimit cfg { c.vars with now := now₁ }).1 = true
  · exact proceeds_limit hshare hsocks hidle rfl hpass
  · -- once more, in the new slice
    have hsame : (SenderVars.rateLimit cfg { c.vars with now := now₁ }).2.qSlice = c.vars.qSlice :=
      (rateLimit_within cfg (Nat.lt_of_not_le fun hle => hpass (rateLimit_slice cfg hle))).1
    have hflushed := rateLimit_anyInprogress cfg { c.vars with now := now₁ }
    generalize hvars' : (SenderVars.rateLimit cfg { c.vars with now := now₁ }).2 = vars
      at hsame hflushed
    have hlimit : ({ c with
        clock := now, sender := .limit, vars := { c.vars with now := now₁ } } : Pair).next cfg
        (.sender .limit) = some { c with clock := now, sender := .again, vars := vars } := by
      change some ({ c with
        clock := now
        sender := if (SenderVars.rateLimit cfg { c.vars with now := now₁ }).1 then .lock else .again
        vars := (SenderVars.rateLimit cfg { c.vars with now := now₁ }).2 } : Pair) = _
      rw [if_neg hpass, hvars']
    have hagain : ({ c with clock := now, sender := .again, vars := vars } : Pair).next cfg
        (.sender .again) =
        some { c with clock := now, sender := .top, vars := { vars with now := now } } := rfl
    have hidle' : ∀ place now', Idle { c with
        clock := now, sender := place, vars := { vars with now := now' } } :=
      fun _ _ => ⟨h.1, h.2, h.3, hflushed.trans h.4⟩
    refine .of_step hlimit (.of_step hagain (proceeds_top (hidle' _ _) rfl hstop ?_))
    intro now₂ hnow₂
    obtain rfl : now₂ = now := by rcases hnow₂ with rfl | rfl <;> rfl
    exact proceeds_limit hshare hsocks (hidle' _ _) rfl
      (rateLimit_slice cfg (hsame.trans_le hslice))

end Pair

/-- **No thread is starved by the division of the limits** exactly if there are not more threads
than queries may be outstanding: then every thread has a socket and a share of each limit. A sender
with a share of `max_outstanding` gets to its next query when nothing is outstanding; one without
it never does, and only an interrupt or the time limit ends it. -/
theorem shares_starve_none_iff (l : CommandLine) (timeout stopTime : Nat) :
    ((∀ i < l.loweredThreads, 1 ≤ (l.threadinfoInit timeout stopTime i).nsocks ∧
        1 ≤ (l.threadinfoInit timeout stopTime i).maxOutstanding ∧
        (0 < l.maxQps → 1 ≤ (l.threadinfoInit timeout stopTime i).maxQps)) ↔
      l.loweredThreads ≤ l.maxOutstanding) ∧
    ∀ i < l.loweredThreads,
      (1 ≤ (l.threadinfoInit timeout stopTime i).maxOutstanding → ∀ (c : Pair) (now : Nat), c.Idle →
        c.sender = .top → c.clock ≤ now → c.vars.qSlice ≤ now → c.vars.now ≤ c.clock →
        now < uint64Max → now < stopTime → c.Proceeds (l.threadinfoInit timeout stopTime i)) ∧
      ((l.threadinfoInit timeout stopTime i).maxOutstanding = 0 →
        ∀ (now : Nat) (es : List Pair.Step) (c : Pair), (∀ e ∈ es, e ≠ .interrupt) →
        Run (StepOf (Pair.next (l.threadinfoInit timeout stopTime i))) (Pair.start now) es c →
        c.clock < stopTime → c.sender.idle = true) := by
  refine ⟨⟨fun h => ?_, fun hle i hi => ⟨?_, ?_, ?_⟩⟩, fun i hi => ⟨?_, ?_⟩⟩
  · exact (perThread_pos_iff l.loweredThreads_pos l.maxOutstanding_lt).mp fun i hi =>
      CommandLine.threadinfoInit_maxOutstanding_pos_iff.mp (h i hi).2.1
  · exact CommandLine.threadinfoInit_nsocks_pos hi
  · exact CommandLine.threadinfoInit_maxOutstanding_pos_iff.mpr
      ((perThread_pos_iff l.loweredThreads_pos l.maxOutstanding_lt).mpr hle i hi)
  · exact fun hqps => CommandLine.threadinfoInit_maxQps_pos hqps hi
  · intro hshare c now hidle hat hclock hslice hvars hlt hstop
    exact Pair.proceeds_of_idle hshare (CommandLine.threadinfoInit_nsocks_pos hi) hidle hat hclock
      hslice hvars hlt hstop
  · intro hshare now es c hes hrun hlt
    exact (Pair.waiting_run hshare hes hrun).idle hlt

/-- Two threads, and one query outstanding at most. -/
def twoThreadsOneQuery : CommandLine where
  clients := 2
  threads := 2
  maxOutstanding := 1
  maxQps := 0
  clients_pos := Nat.two_pos
  threads_pos := Nat.two_pos
  maxOutstanding_pos := Nat.one_pos
  lt_uint32 := by decide

/-- **The second thread gets nothing.** In a run without a time limit its sender never ends. -/
theorem second_thread_starved :
    1 < twoThreadsOneQuery.loweredThreads ∧
      ∀ timeout, (twoThreadsOneQuery.threadinfoInit timeout uint64Max 1).maxOutstanding = 0 ∧
        ∀ (now : Nat) (es : List Pair.Step) (c : Pair), (∀ e ∈ es, e ≠ .interrupt) →
          Run (StepOf (Pair.next (twoThreadsOneQuery.threadinfoInit timeout uint64Max 1)))
            (Pair.start now) es c →
          c.clock < uint64Max → c.sender.idle = true :=
  ⟨by decide, fun _ => ⟨rfl, fun _ _ _ hes hrun hlt => (Pair.waiting_run rfl hes hrun).idle hlt⟩⟩

end Dnsperf.Thread
