import Dnsperf.Lib.IdPool
import Dnsperf.Thread.Mirror

/-!
# Dnsperf.Thread.Reuse

**When a query id is used again.** A response that comes late is counted for whatever query
has its id by then, so an id should not be used again soon. `do_send` takes the head of the
unused queries, and `do_recv` appends those that are answered or have timed out; the unused
queries are an `IdPool`, and every step of either party is a few operations on it.

A query that could not be sent goes back to the front. That is done by `do_send` for the
query it holds, and `do_recv` may have seen that query time out in between; so an id is
followed from a moment on when `do_send` does not hold it, and `process_timeouts` has not chosen
a query yet.
-/

namespace Dnsperf.Thread

open Dnsperf.Lib Dnsperf.Net

/-- The unused queries, and the uses of all of them. -/
def ThreadInfo.pool (t : ThreadInfo) : IdPool Nat :=
  ⟨t.unused, fun q => (t.queries q).serial, t.serials⟩

/-- Operations on the unused queries. -/
def Moved (since q : Nat) (ahead : List Nat) (t t' : ThreadInfo) : Prop :=
  Relation.ReflTransGen (IdPool.Moves since q ahead) t.pool t'.pool

variable {since q p : Nat} {ahead : List Nat} {t t' t'' : ThreadInfo} {e : Entries}

namespace Moved

theorem of_eq (h : t'.pool = t.pool) : Moved since q ahead t t' := by
  rw [Moved, h]

theorem trans (h : Moved since q ahead t t') (h' : Moved since q ahead t' t'') :
    Moved since q ahead t t'' :=
  Relation.ReflTransGen.trans h h'

end Moved

/-! ### The operations of a thread -/

namespace Entries.Mirrors

theorem not_mem_unused (h : e.Mirrors t) (hp : (t.queries p).list = .outstanding) :
    p ∉ t.unused := by
  rcases h.list_unused p with ⟨-, hnot⟩ | ⟨hlist, -⟩
  · exact hnot
  · exact absurd (hlist.symm.trans hp) (by decide)

theorem not_mem_unused_of_mem (h : e.Mirrors t) (hp : p ∈ t.outstanding) : p ∉ t.unused := by
  rcases h.list_unused p with ⟨-, hnot⟩ | ⟨-, hnot⟩
  · exact hnot
  · exact absurd hp hnot

theorem pool_take (h : e.Mirrors t) {rest : List Nat} (hunused : t.unused = p :: rest) :
    (t.take p).pool = t.pool.use p rest := by
  have hlist : (t.take p).unused = rest := by
    have hun := (h.queryMove_lists p .prependOutstanding).2
    rw [hunused] at hun
    exact hun.trans (List.erase_cons_head p rest)
  have hserial : (fun q => ((t.take p).queries q).serial) =
      Function.update (fun q => (t.queries q).serial) p t.serials := by
    funext q
    rw [t.take_serial, Function.update_apply]
  rw [ThreadInfo.pool, hlist, hserial, (t.take_rest p []).2.1]
  rfl

theorem pool_prependUnused (h : e.Mirrors t) (p : Nat) :
    (t.queryMove p .prependUnused).pool = t.pool.toFront p := by
  rw [ThreadInfo.pool, (h.queryMove_lists p .prependUnused).2]
  simp only [ThreadInfo.queryMove_serial, ThreadInfo.queryMove_serials]
  rfl

theorem pool_appendUnused (h : e.Mirrors t) (p : Nat) :
    (t.queryMove p .appendUnused).pool = t.pool.toBack p := by
  rw [ThreadInfo.pool, (h.queryMove_lists p .appendUnused).2]
  simp only [ThreadInfo.queryMove_serial, ThreadInfo.queryMove_serials]
  rfl

theorem moved_front (h : e.Mirrors t) (hp : p = q → since ≤ (t.queries p).serial) :
    Moved since q ahead t (t.queryMove p .prependUnused) := by
  rw [Moved, h.pool_prependUnused p]
  exact .single (.toFront hp)

theorem moved_back (h : e.Mirrors t)
    (hp : p ∈ q :: ahead → p ∈ t.unused → since ≤ (t.queries p).serial) :
    Moved since q ahead t (t.queryMove p .appendUnused) := by
  rw [Moved, h.pool_appendUnused p]
  exact .single (.toBack hp)

end Entries.Mirrors

theorem ThreadInfo.pool_congr (hunused : t'.unused = t.unused)
    (hserial : ∀ q, (t'.queries q).serial = (t.queries q).serial)
    (hserials : t'.serials = t.serials) :
    t'.pool = t.pool := by
  rw [pool, hunused, hserials, funext hserial]
  rfl

theorem pool_perfNetSent (t : ThreadInfo) (now : Nat) (qid : UInt16) :
    (t.perfNetSent now qid).pool = t.pool := by
  unfold ThreadInfo.perfNetSent
  split_ifs
  · exact ThreadInfo.pool_congr rfl (fun q => (ThreadInfo.setTimestamp_query now q).2.1) rfl
  · rfl

theorem pool_flushed {now : Nat} {P : UInt16 → Prop} (h : ThreadInfo.Flushed now P t t') :
    t'.pool = t.pool := by
  induction h with
  | refl t => rfl
  | @sent t _ qid _ _ ih => exact ih.trans (pool_perfNetSent t now qid)
  | tried currentSock _ ih => exact ih

theorem pool_setSock (t : ThreadInfo) (p : Nat) (sock : Option Nat) :
    (t.setSock p sock).pool = t.pool :=
  ThreadInfo.pool_congr rfl (fun q => (ThreadInfo.setSock_query sock q).2.2) rfl

theorem pool_complete (t : ThreadInfo) (r : ReceivedQuery) : (t.complete r).pool = t.pool := by
  unfold ThreadInfo.complete
  split_ifs <;> rfl

namespace Entries.Mirrors

/-- **The locked region of `do_send`**: the head is used, and goes back to the front if no
socket is ready. -/
theorem moved_acquire (h : e.Mirrors t) {cfg : Config} {now : Nat}
    {calls : List ThreadInfo.SockreadyCall} {acquired : ThreadInfo.Acquired}
    (hacquire : t.acquire cfg now calls = some (acquired, t')) (hsince : since ≤ t.serials) :
    Moved since q ahead t t' ∧
      ∀ p sock, acquired = .query p sock → since ≤ (t'.queries p).serial := by
  rcases ThreadInfo.acquire_cases hacquire with
    ⟨-, rfl, rfl⟩ | ⟨-, p, rest, t₁, hunused, hflushed, hcases⟩
  · exact ⟨.of_eq rfl, fun p sock heq => by cases heq⟩
  · have hp : p < nqids := h.shows.lt_unused (hunused ▸ List.mem_cons_self)
    have huse : Moved since q ahead t (t.take p) := by
      rw [Moved, h.pool_take hunused]
      exact .single (.use hunused)
    have hflush : Moved since q ahead t t₁ := huse.trans (.of_eq (pool_flushed hflushed))
    have hserial : (t₁.queries p).serial = t.serials := by
      have hpool := congrArg (fun r : IdPool Nat => r.serial p) (pool_flushed hflushed)
      refine hpool.trans ?_
      rw [h.pool_take hunused]
      exact IdPool.use_serial_self rest
    rcases hcases with ⟨rfl, rfl⟩ | ⟨rfl, rfl⟩ | ⟨sock, rfl, rfl⟩
    · exact ⟨hflush, fun p sock heq => by cases heq⟩
    · obtain ⟨e₁, -, h₁⟩ := h.take hp
      have h₂ : e₁.Mirrors (t₁.setSock p none) := (h₁.flushed hflushed).setSock none
      have hback : Moved since q ahead (t₁.setSock p none) _ :=
        h₂.moved_front fun _ => by rw [(ThreadInfo.setSock_query none p).2.2, hserial]; exact hsince
      exact ⟨(hflush.trans (.of_eq (pool_setSock t₁ p none))).trans hback,
        fun p sock heq => by cases heq⟩
    · refine ⟨hflush.trans (.of_eq (pool_setSock t₁ p _)), fun p' sock' heq => ?_⟩
      rw [← (ThreadInfo.Acquired.query.inj heq).1, (ThreadInfo.setSock_query _ p).2.2, hserial]
      exact hsince

theorem moved_timeoutQuery (h : e.Mirrors t)
    (hp : p ∈ q :: ahead → p ∈ t.unused → since ≤ (t.queries p).serial) :
    Moved since q ahead t (t.timeoutQuery p) :=
  (h.moved_back hp).trans (.of_eq rfl)

theorem moved_timeoutTail (h : e.Mirrors t) (cfg : Config) (now n : Nat) :
    Moved since q ahead t (ThreadInfo.timeoutTail cfg now n t) := by
  refine (ThreadInfo.timeoutTail_invariant
    (I := fun t' => (∃ e : Entries, e.Mirrors t') ∧ Moved since q ahead t t') cfg n ?_
    ⟨⟨e, h⟩, .of_eq rfl⟩).2
  rintro t' p ⟨⟨e, h⟩, hmoved⟩ hmem -
  obtain ⟨e₁, -, h₁⟩ := h.timeoutQuery (h.lt_outstanding hmem)
  exact ⟨⟨e₁, h₁⟩, hmoved.trans
    (h.moved_timeoutQuery fun _ hunused => absurd hunused (h.not_mem_unused_of_mem hmem))⟩

/-- **The locked region of `process_timeouts`**: the query chosen before goes to the back from
where it is now; the others are outstanding. -/
theorem moved_processTimeouts (h : e.Mirrors t) (hp : p < nqids) (cfg : Config) (now : Nat)
    (hchosen : p ∈ q :: ahead → since ≤ (t.queries p).serial) :
    Moved since q ahead t (t.processTimeouts cfg now p) := by
  obtain ⟨e₁, -, h₁⟩ := h.timeoutQuery hp
  exact (h.moved_timeoutQuery fun hmem _ => hchosen hmem).trans (h₁.moved_timeoutTail cfg now _)

/-- **The locked loop of `do_recv`**: the queries that are answered are outstanding. -/
theorem moved_matchQueries (h : e.Mirrors t) (sockeq : Nat → Nat → Bool) (rs : List ReceivedQuery) :
    Moved since q ahead t (ThreadInfo.matchQueries sockeq rs t).2 := by
  refine (ThreadInfo.matchQueries_invariant
    (I := fun t' => (∃ e : Entries, e.Mirrors t') ∧ Moved since q ahead t t') sockeq rs ?_
    ⟨⟨e, h⟩, .of_eq rfl⟩).2
  rintro t' qid ⟨⟨e, h⟩, hmoved⟩ hlist
  obtain ⟨e₁, -, h₁⟩ := h.queryMove qid.toNat_lt .appendUnused
  exact ⟨⟨e₁, h₁⟩, hmoved.trans
    (h.moved_back fun _ hunused => absurd hunused (h.not_mem_unused hlist))⟩

end Entries.Mirrors

/-! ### The two parties -/

namespace Pair

variable {cfg : Config} {c c' : Pair}

/-- The queries that a party has its hand on have been used since. -/
structure Loose (since q : Nat) (ahead : List Nat) (c : Pair) : Prop where
  since_le : since ≤ c.tinfo.serials
  sender : c.sender.query = some q → since ≤ (c.tinfo.queries q).serial
  receiver : ∀ p, c.receiver = .expire p → p ∈ q :: ahead → since ≤ (c.tinfo.queries p).serial

theorem moved_sends {step : SenderStep} (hmirrored : Mirrored c) (h : Loose since q ahead c)
    (hsends : Sends cfg c step c') :
    Moved since q ahead c.tinfo c'.tinfo ∧
      (c'.sender.query = some q → since ≤ (c'.tinfo.queries q).serial) := by
  obtain ⟨-, e, -, he⟩ := hmirrored.lists
  have hheld := h.sender
  cases hsends with
  | loop _ | stop _ | throttle _ _ | limit _ _ | wait _ _ | again _ _ | eof _ =>
      exact ⟨.of_eq rfl, fun hq => by cases hq⟩
  | flush _ hflushed _ => exact ⟨.of_eq (pool_flushed hflushed), fun hq => by cases hq⟩
  -- the serial of the query taken is new
  | @lock _ acquired _ _ hacquire =>
      obtain ⟨hmoved, hserial⟩ := he.moved_acquire hacquire h.since_le
      refine ⟨hmoved, fun hq => ?_⟩
      cases acquired with
      | query p sock => exact Option.some.inj hq ▸ hserial p sock rfl
      | nothing => cases hq
      | fatal => cases hq
  | unbuilt hat | built hat | clock hat _ | sent hat _ | failed hat =>
      rw [hat] at hheld
      exact ⟨.of_eq rfl, hheld⟩
  | @undo p hat =>
      rw [hat] at hheld
      exact ⟨he.moved_front fun hpq => hpq ▸ hheld (hpq ▸ rfl), fun hq => by cases hq⟩
  | @stamp p _ _ hat =>
      rw [hat] at hheld
      have hserial :=
        fun x => (ThreadInfo.setTimestamp_query (t := c.tinfo) (q := p) c.vars.now x).2.1
      exact ⟨.of_eq (ThreadInfo.pool_congr rfl hserial rfl), fun hq =>
        (hheld hq).trans (hserial q).ge⟩
  | count _ _ | done _ => exact ⟨.of_eq rfl, fun hq => by cases hq⟩
  | @rollback p hat =>
      rw [hat] at hheld
      have hfront : Moved since q ahead c.tinfo _ :=
        he.moved_front fun hpq : p = q => hpq ▸ hheld (hpq ▸ rfl)
      exact ⟨hfront.trans (.of_eq rfl), fun hq => by cases hq⟩
  | drain hat hflushed _ =>
      refine ⟨.of_eq (pool_flushed hflushed), fun hq => ?_⟩
      rw [hat] at hq
      cases hq

theorem moved_receives {step : ReceiverStep} (hmirrored : Mirrored c) (h : Loose since q ahead c)
    (hreceives : Receives cfg c step c') : Moved since q ahead c.tinfo c'.tinfo := by
  obtain ⟨-, e, -, he⟩ := hmirrored.lists
  cases hreceives with
  | loop _ | interrupted _ _ | timeouts _ | expired _ _ | check _ | done _ _ _ | packet _ | batch _
  | again _ _ => exact .of_eq rfl
  | @expire p hat =>
      exact he.moved_processTimeouts (hmirrored.receiver p hat) cfg c.receiverNow (h.receiver p hat)
  | @lock recvd sockeq _ => exact he.moved_matchQueries sockeq recvd
  | @count _ _ r _ => exact .of_eq (pool_complete c.tinfo r)

theorem Sends.receiver {step : SenderStep} (h : Sends cfg c step c') :
    c'.receiver = c.receiver := by
  cases h <;> rfl

theorem moved_next {step : Step} (hmirrored : Mirrored c) (h : Loose since q ahead c)
    (hstep : c.next cfg step = some c') : Moved since q ahead c.tinfo c'.tinfo := by
  cases step with
  | sender step => exact (moved_sends hmirrored h (sends_of_nextSender hstep)).1
  | receiver step => exact moved_receives hmirrored h (receives_of_nextReceiver hstep)
  | tick now =>
      obtain ⟨-, hc'⟩ := Option.ite_none_right_eq_some.mp hstep
      rw [← Option.some.inj hc']
      exact .of_eq rfl
  | interrupt =>
      rw [← Option.some.inj hstep]
      exact .of_eq rfl

/-- Uses are numbered from 0 on. -/
structure Counted (c : Pair) : Prop where
  mirrored : Mirrored c
  lt : ∀ p, (c.tinfo.queries p).serial ≠ 0 → (c.tinfo.queries p).serial < c.tinfo.serials

theorem counted_next (cfg : Config) (c : Pair) (step : Step) (c' : Pair) (h : Counted c)
    (hstep : StepOf (next cfg) c step c') : Counted c' := by
  refine ⟨mirrored_nextFine cfg c (.step step) c' h.mirrored hstep, ?_⟩
  have hloose : Loose 0 0 [] c :=
    ⟨Nat.zero_le _, fun _ => Nat.zero_le _, fun _ _ _ => Nat.zero_le _⟩
  exact IdPool.lt_count_of_moves h.lt (moved_next h.mirrored hloose hstep)

theorem counted_start (now : Nat) : Counted (start now) where
  mirrored := mirrored_start now
  lt := fun _ hp => absurd rfl hp

/-- From a moment on when no party has its hand on `q`. -/
structure Awaits (since q : Nat) (ahead : List Nat) (c : Pair) : Prop where
  mirrored : Mirrored c
  loose : Loose since q ahead c
  turn : c.tinfo.pool.InTurn since q ahead

/-- The query that `process_timeouts` chooses is outstanding, so it has been used since if it
was unused then. -/
theorem Awaits.chosen {step : ReceiverStep} (h : Awaits since q ahead c)
    (hreceives : Receives cfg c step c') (p : Nat) (hat' : c'.receiver = .expire p)
    (hmem : p ∈ q :: ahead) : since ≤ (c.tinfo.queries p).serial := by
  cases hreceives with
  | expired _ htail =>
      obtain ⟨-, e, -, he⟩ := h.mirrored.lists
      have hout := expiredTail_mem (ReceiverAt.expire.inj hat' ▸ htail)
      exact (h.turn.home p hmem).resolve_left (he.not_mem_unused_of_mem hout)
  | _ => cases hat'

theorem awaits_next (hnodup : ahead.Nodup) (cfg : Config) (c : Pair) (step : Step) (c' : Pair)
    (h : Awaits since q ahead c) (hstep : StepOf (next cfg) c step c') :
    Awaits since q ahead c' := by
  have hmirrored := mirrored_nextFine cfg c (.step step) c' h.mirrored hstep
  obtain ⟨hturn, hle⟩ := h.turn.moves hnodup (moved_next h.mirrored h.loose hstep)
  have hsince := hturn.numbered.since_le
  cases step with
  | sender step =>
      have hsends := sends_of_nextSender hstep
      refine ⟨hmirrored, ⟨hsince, (moved_sends h.mirrored h.loose hsends).2, fun p hat hmem => ?_⟩,
        hturn⟩
      rw [hsends.receiver] at hat
      exact (h.loose.receiver p hat hmem).trans (hle p)
  | receiver step =>
      have hreceives := receives_of_nextReceiver hstep
      refine ⟨hmirrored, ⟨hsince, fun hq => ?_, fun p hat hmem => ?_⟩, hturn⟩
      · rw [hreceives.frame.1] at hq
        exact (h.loose.sender hq).trans (hle q)
      · exact (h.chosen hreceives p hat hmem).trans (hle p)
  | tick now =>
      obtain ⟨-, hc'⟩ := Option.ite_none_right_eq_some.mp hstep
      rw [← Option.some.inj hc']
      exact ⟨Option.some.inj hc' ▸ hmirrored, ⟨h.loose.since_le, h.loose.sender, h.loose.receiver⟩,
        h.turn⟩
  | interrupt =>
      rw [← Option.some.inj hstep]
      exact ⟨Option.some.inj hstep ▸ hmirrored,
        ⟨h.loose.since_le, h.loose.sender, h.loose.receiver⟩, h.turn⟩

end Pair

/-- **Query ids are used in turn**, in every run: let `q` be an unused query that has been
used before and that `do_send` does not hold, and let `process_timeouts` not be under way. When `q`
is used again, every query that was before it has been used in between, and so there have been as
many uses at least. An id that has just been freed has all other unused ids before it. -/
theorem ids_used_in_turn (cfg : Config) (now : Nat) (steps steps' : List Pair.Step) (c c' : Pair)
    (hrun : Run (StepOf (Pair.next cfg)) (Pair.start now) steps c)
    (hrun' : Run (StepOf (Pair.next cfg)) c steps' c') (ahead rest : List Nat) (q : Nat)
    (hunused : c.tinfo.unused = ahead ++ q :: rest)
    (hbefore : (c.tinfo.queries q).serial < c.tinfo.serials)
    (hsender : c.sender.query ≠ some q) (hreceiver : ∀ p, c.receiver ≠ .expire p)
    (hused : c.tinfo.serials ≤ (c'.tinfo.queries q).serial) :
    c.tinfo.serials + ahead.length ≤ (c'.tinfo.queries q).serial ∧
      ∀ p ∈ ahead, c.tinfo.serials ≤ (c'.tinfo.queries p).serial := by
  have hcounted := hrun.invariant (Pair.counted_next cfg) (Pair.counted_start now)
  obtain ⟨-, e, -, he⟩ := hcounted.mirrored.lists
  have hnodup : (ahead ++ q :: rest).Nodup := hunused ▸ he.shows.split.nodup_right
  have hlt (p : Nat) : (c.tinfo.queries p).serial < c.tinfo.serials := by
    by_cases hp : (c.tinfo.queries p).serial = 0
    · omega
    · exact hcounted.lt p hp
  have hawaits : Pair.Awaits c.tinfo.serials q ahead c :=
    ⟨hcounted.mirrored,
      ⟨le_rfl, fun hq => absurd hq hsender, fun p hp => absurd hp (hreceiver p)⟩,
      .init (r := c.tinfo.pool) hlt he.shows.split.nodup_right hunused⟩
  have hend := hrun'.invariant (Pair.awaits_next (List.nodup_append.mp hnodup).1 cfg) hawaits
  exact hend.turn.used hused

/-- `do_send` sends a query. -/
def Pair.oneMore : List Pair.Step :=
  Pair.stampQuery ++ [.sender (.send (.ok 29)), .sender .count]

/-- After the first query there are two more, and the second of them has id 2. -/
theorem ids_used_in_turn_third :
    ∃ c c' : Pair, ∃ rest, c.tinfo.unused = [1] ++ 2 :: rest ∧ c.tinfo.serials = 1 ∧
      (c'.tinfo.queries 2).serial = 2 ∧ c.tinfo.serials + 1 ≤ (c'.tinfo.queries 2).serial := by
  obtain ⟨c, hrun, hend⟩ := Run.exists_of_follow (fun _ _ => True) (Pair.next Pair.oneSocket)
    (Pair.start 1000) Pair.oneMore
    (fun c => c.tinfo.unused.take 2 = [1, 2] ∧ c.tinfo.serials = 1 ∧
      (c.tinfo.queries 2).serial = 0 ∧ c.sender = .top ∧ c.receiver = .top ∧
      (follow (fun _ _ => True) (Pair.next Pair.oneSocket) c (Pair.oneMore ++ Pair.oneMore)).any
        (fun c' => decide ((c'.tinfo.queries 2).serial = 2)) = true)
    (by decide +kernel)
  obtain ⟨htake, hserials, hserial, hsender, hreceiver, hfollow⟩ := of_decide_eq_true hend
  obtain ⟨c', hrun', hend'⟩ := Run.exists_of_follow (fun _ _ => True) (Pair.next Pair.oneSocket) c
    (Pair.oneMore ++ Pair.oneMore) _ hfollow
  have hused := of_decide_eq_true hend'
  have hunused : c.tinfo.unused = [1] ++ 2 :: c.tinfo.unused.drop 2 := by
    refine (List.take_append_drop 2 _).symm.trans ?_
    rw [htake]
    rfl
  refine ⟨c, c', _, hunused, hserials, hused, (ids_used_in_turn Pair.oneSocket 1000 _ _ c c'
    (hrun.mono fun _ _ _ h => h.2) (hrun'.mono fun _ _ _ h => h.2) [1] _ 2 hunused ?_ ?_ ?_ ?_).1⟩
  · omega
  · simp [hsender, SenderAt.query]
  · simp [hreceiver]
  · omega

end Dnsperf.Thread
