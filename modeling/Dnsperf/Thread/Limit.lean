import Dnsperf.Thread.Mirror

/-!
# Dnsperf.Thread.Limit

**The limit on outstanding queries.** `do_send` checks counters and not the list. At the
check every outstanding query has a timestamp, and has been counted as sent and not as
anything else; so in an undisturbed run `num_outstanding` is at least the length of the
list, and the limit keeps. An unused query is left then, as there are `NQIDS` in all.

A query that is counted as timed out although it goes back unsent makes `num_outstanding`
one too small for good.
-/

namespace Dnsperf.Thread

open Dnsperf.Lib Dnsperf.Net

/-! ### Operations that take no query -/

namespace ThreadInfo

variable {t t' t'' : ThreadInfo} {q : Nat}

/-- Queries only leave the outstanding ones, and none loses its timestamp. -/
structure Fewer (t t' : ThreadInfo) : Prop where
  sublist : t'.outstanding.Sublist t.outstanding
  stamped : ∀ q, t.stamped q = true → t'.stamped q = true

namespace Fewer

theorem refl (t : ThreadInfo) : Fewer t t := ⟨List.Sublist.refl _, fun _ h => h⟩

theorem trans (h : Fewer t t') (h' : Fewer t' t'') : Fewer t t'' :=
  ⟨h'.sublist.trans h.sublist, fun q hq => h'.stamped q (h.stamped q hq)⟩

theorem of_eq (hout : t'.outstanding = t.outstanding) (hqueries : t'.queries = t.queries) :
    Fewer t t' :=
  ⟨hout ▸ List.Sublist.refl _, fun q hq => by rw [ThreadInfo.stamped, hqueries]; exact hq⟩

end Fewer

theorem fewer_queryMove (t : ThreadInfo) (q : Nat) {op : QueryMoveOp}
    (hop : op ≠ .prependOutstanding) : Fewer t (t.queryMove q op) := by
  refine ⟨?_, fun q' hq' => (stamped_queryMove op q').trans hq'⟩
  have hunlink : (t.unlink q).outstanding.Sublist t.outstanding := by
    unfold unlink
    split
    · exact List.Sublist.refl _
    · exact List.erase_sublist
  cases op with
  | prependUnused => exact hunlink
  | appendUnused => exact hunlink
  | prependOutstanding => exact absurd rfl hop

theorem fewer_setSock (t : ThreadInfo) (q : Nat) (sock : Option Nat) : Fewer t (t.setSock q sock) :=
  ⟨List.Sublist.refl _, fun q' hq' => (setSock_query sock q').2.1.trans hq'⟩

theorem fewer_setTimestamp (t : ThreadInfo) (q : Nat) {now : Nat} (hnow : now < uint64Max) :
    Fewer t (t.setTimestamp q now) := by
  refine ⟨List.Sublist.refl _, fun q' hq' => ?_⟩
  rw [stamped, (setTimestamp_query now q').2.2]
  split_ifs
  · exact decide_eq_true (Nat.ne_of_lt hnow)
  · exact hq'

theorem Flushed.fewer {now : Nat} (hnow : now < uint64Max) {P : UInt16 → Prop}
    (h : Flushed now P t t') : Fewer t t' := by
  induction h with
  | refl t => exact .refl t
  | @sent t _ qid _ _ ih =>
      refine Fewer.trans ?_ ih
      unfold perfNetSent
      split_ifs
      · exact t.fewer_setTimestamp _ hnow
      · exact .refl t
  | tried currentSock _ ih =>
      refine Fewer.trans ?_ ih
      exact .of_eq rfl rfl

theorem fewer_timeoutQuery (t : ThreadInfo) (q : Nat) : Fewer t (t.timeoutQuery q) :=
  (t.fewer_queryMove q appendUnused_ne).trans (.of_eq rfl rfl)

theorem fewer_timeoutTail (cfg : Config) (now n : Nat) (t : ThreadInfo) :
    Fewer t (timeoutTail cfg now n t) :=
  timeoutTail_invariant cfg n (fun t' q h _ _ => h.trans (t'.fewer_timeoutQuery q)) (.refl t)

theorem fewer_processTimeouts (t : ThreadInfo) (cfg : Config) (now q : Nat) :
    Fewer t (t.processTimeouts cfg now q) :=
  (t.fewer_timeoutQuery q).trans (fewer_timeoutTail cfg now _ _)

theorem fewer_matchQueries (sockeq : Nat → Nat → Bool) (rs : List ReceivedQuery)
    (t : ThreadInfo) : Fewer t (matchQueries sockeq rs t).2 :=
  matchQueries_invariant sockeq rs
    (fun t' qid h _ => h.trans (t'.fewer_queryMove qid.toNat appendUnused_ne)) (.refl t)

theorem fewer_complete (t : ThreadInfo) (r : ReceivedQuery) : Fewer t (t.complete r) :=
  .of_eq (Pair.complete_lists t r).1 (Pair.complete_lists t r).2.2

/-- After a query has been taken it is the only one without a timestamp. -/
theorem Fewer.stamped_of_take (h : Fewer (t.take q) t')
    (htake : (t.take q).outstanding = q :: t.outstanding)
    (hstamped : ∀ x ∈ t.outstanding, t.stamped x = true) :
    ∀ x ∈ t'.outstanding, x ≠ q → t'.stamped x = true := by
  intro x hx hne
  have hmem := h.sublist.subset hx
  rw [htake] at hmem
  refine h.stamped x ?_
  rw [take_stamped, if_neg hne]
  exact hstamped x ((List.mem_cons.mp hmem).resolve_left hne)

end ThreadInfo

/-! ### What holds between steps -/

/-- Where `do_send` is, a query of the list may be without a timestamp: the one it is
about to send, or any once it takes no more. -/
def SenderAt.MayBeUnsent (q : Nat) : SenderAt → Prop
  | .input q' _ | .undo q' | .clock q' _ _ | .stamp q' _ _ => q' = q
  | .drain | .done | .fatal => True
  | _ => False

namespace Pair

variable {cfg : Config} {c c' : Pair}

structure Limited (cfg : Config) (c : Pair) : Prop where
  inv : Inv c
  sent : ∀ q ∈ c.tinfo.outstanding, c.tinfo.stamped q = true ∨ c.sender.MayBeUnsent q
  limit : c.tinfo.outstanding.length ≤ cfg.maxOutstanding

theorem limited_start (cfg : Config) {now : Nat} (hnow : now < uint64Max) :
    Limited cfg (start now) where
  inv := inv_start hnow
  sent := fun _ hq => absurd hq List.not_mem_nil
  limit := Nat.zero_le _

/-- **At the check `num_outstanding` is at least the length of the list.** -/
theorem Limited.length_le (h : Limited cfg c) (hat : c.sender = .lock) :
    c.tinfo.outstanding.length ≤ c.tinfo.stats.numOutstanding := by
  have hlive : c.tinfo.live = c.tinfo.outstanding.length := by
    refine List.countP_eq_length.mpr fun q hq => ?_
    have hsent := h.sent q hq
    rw [hat] at hsent
    exact hsent.resolve_right id
  have hbalance := h.inv.books.balance
  rw [hat, hlive] at hbalance
  simp only [SenderAt.inFlight, Nat.add_zero] at hbalance
  unfold Stats.numOutstanding
  split_ifs <;> omega

theorem Limited.fewer (h : Limited cfg c) (hinv : Inv c')
    (hfewer : ThreadInfo.Fewer c.tinfo c'.tinfo)
    (hplace : ∀ q ∈ c'.tinfo.outstanding, c.sender.MayBeUnsent q →
      c'.tinfo.stamped q = true ∨ c'.sender.MayBeUnsent q) : Limited cfg c' where
  inv := hinv
  sent := fun q hq => (h.sent q (hfewer.sublist.subset hq)).elim
    (fun hsent => Or.inl (hfewer.stamped q hsent)) (hplace q hq)
  limit := hfewer.sublist.length_le.trans h.limit

theorem Limited.lock (h : Limited cfg c) {calls : List ThreadInfo.SockreadyCall}
    {acquired : ThreadInfo.Acquired} {t : ThreadInfo} (hat : c.sender = .lock)
    (hacquire : c.tinfo.acquire cfg c.clock calls = some (acquired, t))
    (hinv : Inv { c with tinfo := t, sender := .ofAcquired acquired }) :
    Limited cfg { c with tinfo := t, sender := .ofAcquired acquired } := by
  have hnone : ∀ q, ¬ c.sender.MayBeUnsent q := fun q hq => by rw [hat] at hq; exact hq
  rcases ThreadInfo.acquire_cases hacquire with
    ⟨-, rfl, rfl⟩ | ⟨hlt, q, rest, t₁, hunused, hflushed, hcases⟩
  · exact h.fewer hinv (.refl _) fun q _ hq => absurd hq (hnone q)
  · have hroom : c.tinfo.outstanding.length < cfg.maxOutstanding := (h.length_le hat).trans_lt hlt
    have hlist : (c.tinfo.queries q).list = .unused :=
      h.inv.books.lists.mem_unused q (hunused ▸ List.mem_cons_self)
    have hcons : (c.tinfo.take q).outstanding = q :: c.tinfo.outstanding :=
      (ThreadInfo.queryMove_outstanding hlist).1
    have hfewer := hflushed.fewer h.inv.clock
    have hlimit : t₁.outstanding.length ≤ cfg.maxOutstanding := by
      refine hfewer.sublist.length_le.trans ?_
      rw [hcons]
      exact hroom
    have hsent := hfewer.stamped_of_take hcons fun x hx => (h.sent x hx).resolve_right (hnone x)
    rcases hcases with ⟨rfl, rfl⟩ | ⟨rfl, rfl⟩ | ⟨sock, rfl, rfl⟩
    · exact ⟨hinv, fun _ _ => Or.inr trivial, hlimit⟩
    -- the query goes back, and is not on the list any more
    · have hback := (t₁.fewer_setSock q none).trans
        ((t₁.setSock q none).fewer_queryMove q ThreadInfo.prependUnused_ne)
      refine ⟨hinv, fun q' hq' => Or.inl ?_, hback.sublist.length_le.trans hlimit⟩
      have hne : q' ≠ q := by
        rintro rfl
        have hout := (hinv.books.lists.mem_outstanding q').mp hq'
        simp [ThreadInfo.queryMove, ThreadInfo.setQuery] at hout
      exact hback.stamped q' (hsent q' (hback.sublist.subset hq') hne)
    · have hsock := t₁.fewer_setSock q (some sock)
      refine ⟨hinv, fun q' hq' => ?_, hlimit⟩
      by_cases hne : q' = q
      · exact Or.inr hne.symm
      · exact Or.inl (hsock.stamped q' (hsent q' hq' hne))

theorem limited_sends (h : Limited cfg c) {step : SenderStep} (hinv : Inv c')
    (hsends : Sends cfg c step c') : Limited cfg c' := by
  cases hsends with
  | loop hat | stop hat | throttle hat _ | limit hat _ | wait hat _ | again hat _ | sent hat _
  | failed hat =>
      refine h.fewer hinv (.refl _) fun q _ hq => ?_
      rw [hat] at hq
      exact hq.elim
  | flush hat hflushed _ =>
      refine h.fewer hinv (hflushed.fewer h.inv.clock) fun q _ hq => ?_
      rw [hat] at hq
      exact hq.elim
  | lock hat hacquire => exact h.lock hat hacquire hinv
  | eof _ => exact h.fewer hinv (.refl _) fun _ _ _ => Or.inr trivial
  | unbuilt hat | built hat | clock hat _ =>
      refine h.fewer hinv (.refl _) fun q' _ hq' => Or.inr ?_
      rw [hat] at hq'
      exact hq'
  | @undo q hat =>
      refine h.fewer hinv (c.tinfo.fewer_queryMove q ThreadInfo.prependUnused_ne) ?_
      intro q' hmem hq'
      rw [hat] at hq'
      obtain rfl : q = q' := hq'
      -- the query has left the list
      have hout := (hinv.books.lists.mem_outstanding q).mp hmem
      simp [ThreadInfo.queryMove, ThreadInfo.setQuery] at hout
  | @stamp q _ _ hat =>
      refine h.fewer hinv (c.tinfo.fewer_setTimestamp q h.inv.senderNow) fun q' _ hq' => ?_
      rw [hat] at hq'
      obtain rfl : q = q' := hq'
      exact Or.inl hinv.holds
  | count hat _ =>
      refine h.fewer hinv (.of_eq rfl rfl) fun q _ hq => ?_
      rw [hat] at hq
      exact hq.elim
  | @rollback q hat =>
      refine h.fewer hinv ?_ fun q _ hq => by rw [hat] at hq; exact hq.elim
      exact (c.tinfo.fewer_queryMove q ThreadInfo.prependUnused_ne).trans (.of_eq rfl rfl)
  | drain _ hflushed _ =>
      exact h.fewer hinv (hflushed.fewer h.inv.clock) fun q _ hq => Or.inr hq
  | done _ => exact h.fewer hinv (.of_eq rfl rfl) fun _ _ _ => Or.inr trivial

theorem fewer_receives {step : ReceiverStep} (hreceives : Receives cfg c step c') :
    ThreadInfo.Fewer c.tinfo c'.tinfo ∧ c'.sender = c.sender := by
  cases hreceives with
  | loop _ | interrupted _ _ | timeouts _ | expired _ _ | check _ | done _ _ _ | packet _
  | batch _ => exact ⟨.refl _, rfl⟩
  | expire _ => exact ⟨c.tinfo.fewer_processTimeouts cfg _ _, rfl⟩
  | lock _ => exact ⟨ThreadInfo.fewer_matchQueries _ _ _, rfl⟩
  | count _ => exact ⟨c.tinfo.fewer_complete _, rfl⟩
  | again _ _ => exact ⟨.of_eq rfl rfl, rfl⟩

theorem limited_nextFine (cfg : Config) (c : Pair) (step : FineStep) (c' : Pair)
    (h : Limited cfg c) (hstep : Guarded UndisturbedFine (StepOf (nextFine cfg)) c step c') :
    Limited cfg c' := by
  have hinv := inv_nextFine cfg c step c' h.inv hstep
  cases moves_of_nextFine hstep.2 with
  | sender hsends => exact limited_sends h hinv hsends
  | receiver hreceives =>
      obtain ⟨hfewer, hsender⟩ := fewer_receives hreceives
      exact h.fewer hinv hfewer fun q _ hq => Or.inr (hsender ▸ hq)
  | tick | interrupt | glimpse => exact h.fewer hinv (.refl _) fun q _ hq => Or.inr hq
  | @sent qid now _ hnow =>
      refine h.fewer hinv ?_ fun q _ hq => Or.inr hq
      have hflushed : ThreadInfo.Flushed now (fun _ => True) c.tinfo
          (c.tinfo.perfNetSent now qid) := .sent trivial (.refl _)
      exact hflushed.fewer (hnow.trans_lt h.inv.clock)

end Pair

/-- **There are never more outstanding queries than the limit**, in an undisturbed run, and
when `do_send` passes the check there is an unused query to take. -/
theorem outstanding_limit (cfg : Config) (hmax : cfg.maxOutstanding ≤ nqids) (now : Nat)
    (hnow : now < uint64Max) (steps : List Pair.FineStep) (c : Pair)
    (hrun : Run (Guarded Pair.UndisturbedFine (StepOf (Pair.nextFine cfg))) (Pair.start now)
      steps c) :
    c.tinfo.outstanding.length ≤ cfg.maxOutstanding ∧
      (c.sender = .lock → c.tinfo.stats.numOutstanding < cfg.maxOutstanding →
        c.tinfo.unused ≠ []) := by
  have hlimited := hrun.invariant (Pair.limited_nextFine cfg) (Pair.limited_start cfg hnow)
  have hmirrored := (hrun.mono fun _ _ _ hstep => hstep.2).invariant (Pair.mirrored_nextFine cfg)
    (Pair.mirrored_start now)
  refine ⟨hlimited.limit, fun hat hlt hnil => ?_⟩
  obtain ⟨-, e, -, he⟩ := hmirrored.lists
  have hlength := he.shows.split.length
  have hle := hlimited.length_le hat
  rw [hnil, List.length_nil] at hlength
  omega

namespace Pair

/-- As `oneSocket`, with one outstanding query. -/
def oneQuery : Config := { oneSocket with maxOutstanding := 1 }

end Pair

/-- A query is answered, and another is taken. -/
theorem outstanding_limit_reached :
    ∃ c : Pair, c.sender = .lock ∧ c.tinfo.outstanding.length ≤ 1 ∧
      c.tinfo.stats.numOutstanding < 1 ∧ c.tinfo.unused ≠ [] := by
  obtain ⟨c, hrun, hend⟩ := Run.exists_of_follow Pair.UndisturbedFine (Pair.nextFine Pair.oneQuery)
    (Pair.start 1000)
    ((List.flatten [Pair.stampQuery, [.sender (.send (.ok 29)), .sender .count, .tick 1500],
      Pair.receiveRound [[0, 0, 128, 0]],
      [.loop, .throttle, .flush [], .limit].map .sender]).map .step)
    (fun c => c.sender = .lock ∧ c.tinfo.stats.numOutstanding < 1) (by decide)
  obtain ⟨hat, hlt⟩ := of_decide_eq_true hend
  obtain ⟨hle, hunused⟩ := outstanding_limit Pair.oneQuery (by decide) 1000 (by decide) _ c hrun
  exact ⟨c, hat, hle, hlt, hunused hat hlt⟩

/-- **Two outstanding queries where one is allowed**: a query times out between its
timestamp and the `perf_net_sendto` that fails. After the next one has been sent,
`num_outstanding` is 0. -/
theorem outstanding_over_limit :
    ∃ steps c, Run (StepOf (Pair.nextFine Pair.oneQuery)) (Pair.start 1000) steps c ∧
      c.tinfo.outstanding.length = 2 := by
  obtain ⟨c, hrun, hend⟩ := Run.exists_of_follow (fun _ _ => True) (Pair.nextFine Pair.oneQuery)
    (Pair.start 1000)
    ((List.flatten [Pair.stampQuery, [.tick (1000 + 5 * million)], Pair.receiveRound [],
      [.receiver .loop, .receiver .timeouts, .receiver .expire,
        .sender (.send (.error (.other 105))), .sender .rollback],
      Pair.stampQuery, [.sender (.send (.ok 29)), .sender .count], Pair.stampQuery]).map .step)
    (fun c => c.tinfo.outstanding.length = 2) (by decide)
  exact ⟨_, c, hrun.mono fun _ _ _ hstep => hstep.2, of_decide_eq_true hend⟩

end Dnsperf.Thread
