import Dnsperf.Lib.Ledger
import Dnsperf.Thread.Lists
import Dnsperf.Thread.Flush

/-!
# Dnsperf.Thread.Books

The account of a thread. A query of `outstanding_queries` is **live** once it has a
timestamp. Up to `inFlight` queries stamped and not counted by `do_send`, and the
`pending` responses matched and not counted by `do_recv`, what was sent has timed out,
was completed or is live: `Books`. The uses of query ids make a `Ledger`: they end
counted, or having failed to be sent.

Each operation on the `threadinfo_t` keeps the books, if it moves a query that is
where it should be. `Kept` and `Spared` say what an operation of one party leaves to
the other.
-/

namespace Dnsperf.Thread

open Dnsperf.Lib Dnsperf.Net

namespace ThreadInfo

variable (t : ThreadInfo)

/-- A query with a timestamp. -/
def stamped (q : Nat) : Bool := (t.queries q).timestamp ≠ uint64Max

/-- How many outstanding queries have one. -/
def live : Nat := t.outstanding.countP t.stamped

/-- The uses that were counted, or will be: `pending` are the responses matched. -/
def counted (pending : List ReceivedQuery) : List Nat :=
  t.timedout ++ t.completed ++ pending.map ReceivedQuery.serial

/-- The account of a thread, with `inFlight` queries stamped and not counted, and
`pending` responses matched and not counted. -/
structure Books (inFlight : Nat) (pending : List ReceivedQuery) : Prop where
  lists : t.Lists
  balance : t.stats.numSent + inFlight =
    t.stats.numTimedout + t.stats.numCompleted + pending.length + t.live
  interrupted : t.stats.numInterrupted = 0
  /-- The uses of query ids, ended as failed or counted. -/
  uses : Ledger t.outstanding (fun q => (t.queries q).serial) t.serials t.failed
    (t.counted pending)

theorem books_init : init.Books 0 [] where
  lists := lists_init
  balance := rfl
  interrupted := rfl
  uses := Ledger.nil _

variable {t} {t' : ThreadInfo} {inFlight : Nat} {pending : List ReceivedQuery} {q : Nat}

theorem Books.congr (h : t.Books inFlight pending) {inFlight' : Nat}
    {pending' : List ReceivedQuery} (hlists : t'.Lists) (hout : t'.outstanding = t.outstanding)
    (hserial : ∀ q ∈ t.outstanding, (t'.queries q).serial = (t.queries q).serial)
    (hbalance : t'.stats.numSent + inFlight' =
      t'.stats.numTimedout + t'.stats.numCompleted + pending'.length + t'.live)
    (hint : t'.stats.numInterrupted = t.stats.numInterrupted) (hserials : t'.serials = t.serials)
    (hfailed : t'.failed = t.failed)
    (hcounted : ∀ n, n ∈ t'.counted pending' ↔ n ∈ t.counted pending) :
    t'.Books inFlight' pending' where
  lists := hlists
  balance := hbalance
  interrupted := hint.trans h.interrupted
  uses := by
    rw [hout, hserials, hfailed]
    exact h.uses.congr hserial hcounted

/-! ### Live queries -/

theorem live_eq_erase (hq : q ∈ t.outstanding) :
    t.live = (t.outstanding.erase q).countP t.stamped + if t.stamped q then 1 else 0 := by
  rw [live, (List.perm_cons_erase hq).countP_eq, List.countP_cons]

theorem live_of_erase (hq : q ∈ t.outstanding) (hout : t'.outstanding = t.outstanding.erase q)
    (hstamped : ∀ q', t'.stamped q' = t.stamped q') :
    t.live = t'.live + if t.stamped q then 1 else 0 := by
  rw [live_eq_erase hq, live, hout, funext hstamped]

theorem live_congr (hout : t'.outstanding = t.outstanding)
    (hstamped : ∀ q', t'.stamped q' = t.stamped q') : t'.live = t.live := by
  rw [live, live, hout, funext hstamped]

theorem stamped_queryMove (op : QueryMoveOp) (q' : Nat) :
    (t.queryMove q op).stamped q' = t.stamped q' := by
  simp only [stamped, queryMove_timestamp]

theorem Books.of_eq (h : t.Books inFlight pending) (hout : t'.outstanding = t.outstanding)
    (hunused : t'.unused = t.unused) (hlist : ∀ q, (t'.queries q).list = (t.queries q).list)
    (hstamped : ∀ q, t'.stamped q = t.stamped q)
    (hserial : ∀ q, (t'.queries q).serial = (t.queries q).serial) (hstats : t'.stats = t.stats)
    (hserials : t'.serials = t.serials) (hfailed : t'.failed = t.failed)
    (hcounted : t'.counted pending = t.counted pending) : t'.Books inFlight pending := by
  refine h.congr (h.lists.congr hout hunused hlist) hout (fun q _ => hserial q) ?_ ?_ hserials
    hfailed (fun n => by rw [hcounted])
  · rw [hstats, live_congr hout hstamped]
    exact h.balance
  · rw [hstats]

/-! ### A query leaves -/

/-- A query leaves the outstanding ones, and its use may end: `failed` and `counted`
have got at most that use more, and not both. -/
theorem Books.remove (h : t.Books inFlight pending) {inFlight' : Nat}
    {pending' : List ReceivedQuery} (op : QueryMoveOp) (hop : op ≠ .prependOutstanding)
    (hlist : (t.queries q).list = .outstanding)
    (hqueries : t'.queries = (t.queryMove q op).queries)
    (hout : t'.outstanding = (t.queryMove q op).outstanding)
    (hunused : t'.unused = (t.queryMove q op).unused)
    (hbalance : t'.stats.numSent + inFlight' + (if t.stamped q then 1 else 0) =
      t'.stats.numTimedout + t'.stats.numCompleted + pending'.length + t.live)
    (hint : t'.stats.numInterrupted = t.stats.numInterrupted) (hserials : t'.serials = t.serials)
    (hfailed : ∀ n ∈ t'.failed, n ∈ t.failed ∨ n = (t.queries q).serial)
    (hcounted : ∀ n ∈ t'.counted pending', n ∈ t.counted pending ∨ n = (t.queries q).serial)
    (hone : (t.queries q).serial ∈ t'.failed → (t.queries q).serial ∉ t'.counted pending') :
    t'.Books inFlight' pending' := by
  have hq : q ∈ t.outstanding := (h.lists.mem_outstanding q).mpr hlist
  have herase : t'.outstanding = t.outstanding.erase q := hout.trans (queryMove_unused hlist hop).1
  have hserial : ∀ q', (t'.queries q').serial = (t.queries q').serial := fun q' => by
    rw [hqueries, queryMove_serial]
  refine ⟨?_, ?_, hint.trans h.interrupted, ?_⟩
  · exact (h.lists.queryMove_unused hlist hop).congr hout hunused fun q' => by rw [hqueries]
  · have hlive := live_of_erase hq herase fun q' => by
      rw [stamped, hqueries, queryMove_timestamp, stamped]
    omega
  · rw [herase, hserials, funext hserial]
    exact h.uses.close h.lists.nodup_outstanding hq hfailed hcounted hone

/-! ### The sending party -/

theorem setTimestamp_query (now q' : Nat) :
    ((t.setTimestamp q now).queries q').list = (t.queries q').list ∧
      ((t.setTimestamp q now).queries q').serial = (t.queries q').serial ∧
      ((t.setTimestamp q now).queries q').timestamp =
        if q' = q then now else (t.queries q').timestamp := by
  by_cases hq : q' = q <;> simp [setTimestamp, setQuery, hq]

theorem Lists.setTimestamp (h : t.Lists) (now : Nat) : (t.setTimestamp q now).Lists :=
  h.congr rfl rfl fun q' => (setTimestamp_query now q').1

/-- Every query stays where it is, and has a timestamp if it had one: what
`perf_net_sockready` may do. -/
structure Kept (t t' : ThreadInfo) : Prop where
  list : ∀ q, (t'.queries q).list = (t.queries q).list
  stamped : ∀ q, t'.stamped q = t.stamped q
  unused : t'.unused = t.unused
  doneSending : t'.doneSending = t.doneSending

theorem Kept.refl (t : ThreadInfo) : Kept t t := ⟨fun _ => rfl, fun _ => rfl, rfl, rfl⟩

theorem Kept.trans {t'' : ThreadInfo} (h : Kept t t') (h' : Kept t' t'') : Kept t t'' where
  list := fun q => (h'.list q).trans (h.list q)
  stamped := fun q => (h'.stamped q).trans (h.stamped q)
  unused := h'.unused.trans h.unused
  doneSending := h'.doneSending.trans h.doneSending

/-- A delayed query gets a new timestamp if it had one. -/
theorem Books.perfNetSent (h : t.Books inFlight pending) {now : Nat} (hnow : now < uint64Max)
    (qid : UInt16) :
    (t.perfNetSent now qid).Books inFlight pending ∧ Kept t (t.perfNetSent now qid) := by
  unfold ThreadInfo.perfNetSent
  split_ifs with hstamp
  · have hstamped : ∀ q', (t.setTimestamp qid.toNat now).stamped q' = t.stamped q' := by
      intro q'
      rw [stamped, stamped, (setTimestamp_query now q').2.2]
      split_ifs with hq
      · rw [hq, decide_eq_true (Nat.ne_of_lt hnow), decide_eq_true hstamp]
      · rfl
    have hlist := fun q' => (setTimestamp_query (t := t) (q := qid.toNat) now q').1
    have hserial := fun q' => (setTimestamp_query (t := t) (q := qid.toNat) now q').2.1
    exact ⟨h.of_eq rfl rfl hlist hstamped hserial rfl rfl rfl rfl, hlist, hstamped, rfl, rfl⟩
  · exact ⟨h, Kept.refl t⟩

theorem Books.flushed {now : Nat} (hnow : now < uint64Max) {P : UInt16 → Prop}
    (h : t.Books inFlight pending) (hflushed : Flushed now P t t') :
    t'.Books inFlight pending ∧ Kept t t' := by
  induction hflushed with
  | refl t => exact ⟨h, Kept.refl t⟩
  | sent hqid _ ih =>
      obtain ⟨hbooks, hkept⟩ := h.perfNetSent hnow _
      obtain ⟨hbooks', hkept'⟩ := ih hbooks
      exact ⟨hbooks', hkept.trans hkept'⟩
  | tried currentSock _ ih =>
      obtain ⟨hbooks, hkept⟩ :=
        ih (h.of_eq rfl rfl (fun _ => rfl) (fun _ => rfl) (fun _ => rfl) rfl rfl rfl rfl)
      exact ⟨hbooks, hkept.list, hkept.stamped, hkept.unused, hkept.doneSending⟩

theorem Books.stamp (h : t.Books 0 pending) (hlist : (t.queries q).list = .outstanding)
    (hold : t.stamped q = false) {now : Nat} (hnow : now < uint64Max) :
    (t.setTimestamp q now).Books 1 pending := by
  have hq : q ∈ t.outstanding := (h.lists.mem_outstanding q).mpr hlist
  have hlive : (t.setTimestamp q now).live = t.live + 1 := by
    have hq' : q ∈ (t.setTimestamp q now).outstanding := hq
    have hothers : (t.outstanding.erase q).countP (t.setTimestamp q now).stamped =
        (t.outstanding.erase q).countP t.stamped := by
      refine List.countP_congr fun q' hmem => ?_
      have hne : q' ≠ q := (h.lists.nodup_outstanding.mem_erase_iff.mp hmem).1
      rw [stamped, stamped, (setTimestamp_query now q').2.2, if_neg hne]
    have hnew : (t.setTimestamp q now).stamped q = true := by
      rw [stamped, (setTimestamp_query now q).2.2, if_pos rfl]
      exact decide_eq_true (Nat.ne_of_lt hnow)
    rw [live_eq_erase hq, live_eq_erase hq', hnew, hold]
    exact congrArg (· + 1) hothers
  refine h.congr (h.lists.setTimestamp now) rfl (fun q' _ => (setTimestamp_query now q').2.1) ?_
    rfl rfl rfl (fun _ => Iff.rfl)
  have hbalance := h.balance
  rw [hlive]
  show t.stats.numSent + 1 = t.stats.numTimedout + t.stats.numCompleted + pending.length + _
  omega

theorem take_rest (t : ThreadInfo) (q : Nat) (pending : List ReceivedQuery) :
    (t.take q).stats = t.stats ∧ (t.take q).serials = t.serials + 1 ∧
      (t.take q).failed = t.failed ∧ (t.take q).counted pending = t.counted pending ∧
      (t.take q).doneSending = t.doneSending := by
  simp [ThreadInfo.take, setQuery, counted]

theorem take_list (t : ThreadInfo) (q q' : Nat) :
    ((t.take q).queries q').list = ((t.queryMove q .prependOutstanding).queries q').list := by
  by_cases hq : q' = q <;> simp [ThreadInfo.take, setQuery, hq]

theorem take_serial (t : ThreadInfo) (q q' : Nat) :
    ((t.take q).queries q').serial = if q' = q then t.serials else (t.queries q').serial := by
  by_cases hq : q' = q <;> simp [ThreadInfo.take, setQuery, hq]

theorem take_stamped (t : ThreadInfo) (q q' : Nat) :
    (t.take q).stamped q' = if q' = q then false else t.stamped q' := by
  by_cases hq : q' = q <;> simp [stamped, ThreadInfo.take, setQuery, hq]

theorem Books.take (h : t.Books inFlight pending) (hlist : (t.queries q).list = .unused) :
    (t.take q).Books inFlight pending ∧ ((t.take q).queries q).list = .outstanding ∧
      (t.take q).stamped q = false := by
  obtain ⟨hout, -, hlists⟩ := queryMove_outstanding hlist
  have hcons : (t.take q).outstanding = q :: t.outstanding := hout
  have hne : ∀ q' ∈ t.outstanding, q' ≠ q := fun q' hq' heq =>
    nomatch hlist.symm.trans ((h.lists.mem_outstanding q).mp (heq ▸ hq'))
  have hstamped : (t.take q).stamped q = false := by rw [take_stamped, if_pos rfl]
  have hlive : (t.take q).live = t.live := by
    rw [live, hcons, List.countP_cons_of_neg (by rw [hstamped]; exact Bool.false_ne_true), live]
    refine List.countP_congr fun q' hq' => ?_
    rw [take_stamped, if_neg (hne q' hq')]
  obtain ⟨hstats, hserials, hfailed, hcounted, -⟩ := t.take_rest q pending
  refine ⟨⟨?_, ?_, ?_, ?_⟩, ?_, hstamped⟩
  · exact (h.lists.queryMove_outstanding hlist).congr rfl rfl (t.take_list q)
  · rw [hlive, hstats]
    exact h.balance
  · rw [hstats]
    exact h.interrupted
  · rw [hcons, hserials, hfailed, hcounted]
    refine h.uses.take ?_ fun q' hq' => ?_
    · rw [take_serial, if_pos rfl]
    · rw [take_serial, if_neg (hne q' hq')]
  · rw [take_list, hlists q, if_pos rfl]

theorem Books.release (h : t.Books inFlight pending) (hlist : (t.queries q).list = .outstanding)
    (hold : t.stamped q = false) : (t.queryMove q .prependUnused).Books inFlight pending := by
  have hq : q ∈ t.outstanding := (h.lists.mem_outstanding q).mpr hlist
  have hbalance := h.balance
  refine h.remove .prependUnused prependUnused_ne hlist rfl rfl rfl ?_ ?_ (queryMove_serials t q _)
    (fun n hn => Or.inl ?_) (fun n hn => Or.inl ?_) (fun hn => ?_)
  · rw [queryMove_stats, hold]
    exact hbalance
  · rw [queryMove_stats]
  · rwa [queryMove_failed] at hn
  · simpa [counted] using hn
  · rw [queryMove_failed] at hn
    exact absurd hn (h.uses.notMem_left _ hq)

theorem setSock_query (sock : Option Nat) (q' : Nat) :
    ((t.setSock q sock).queries q').list = (t.queries q').list ∧
      (t.setSock q sock).stamped q' = t.stamped q' ∧
      ((t.setSock q sock).queries q').serial = (t.queries q').serial := by
  by_cases hq : q' = q <;> simp [setSock, setQuery, stamped, hq]

theorem Books.setSock (h : t.Books inFlight pending) (sock : Option Nat) :
    (t.setSock q sock).Books inFlight pending :=
  h.of_eq rfl rfl (fun q' => (setSock_query sock q').1) (fun q' => (setSock_query sock q').2.1)
    (fun q' => (setSock_query sock q').2.2) rfl rfl rfl rfl

theorem Books.acquire (cfg : Config) {now : Nat} (hnow : now < uint64Max)
    {calls : List SockreadyCall} {acquired : Acquired} (h : t.Books inFlight pending)
    (hacquire : t.acquire cfg now calls = some (acquired, t')) :
    t'.Books inFlight pending ∧ t'.doneSending = t.doneSending ∧
      ∀ q sock, acquired = .query q sock →
        (t'.queries q).list = .outstanding ∧ t'.stamped q = false := by
  rcases acquire_cases hacquire with ⟨-, rfl, rfl⟩ | ⟨-, q, rest, t₁, hunused, hflushed, hcases⟩
  · exact ⟨h, rfl, nofun⟩
  · obtain ⟨htake, hlist, hstamped⟩ :=
      h.take (h.lists.mem_unused q (hunused ▸ List.mem_cons_self))
    obtain ⟨hbooks, hkept⟩ := htake.flushed hnow hflushed
    have hlist₁ : (t₁.queries q).list = .outstanding := (hkept.list q).trans hlist
    have hstamped₁ : t₁.stamped q = false := (hkept.stamped q).trans hstamped
    have hdone₁ : t₁.doneSending = t.doneSending :=
      hkept.doneSending.trans (t.take_rest q pending).2.2.2.2
    rcases hcases with ⟨rfl, rfl⟩ | ⟨rfl, rfl⟩ | ⟨sock, rfl, rfl⟩
    · exact ⟨hbooks, hdone₁, nofun⟩
    · refine ⟨(hbooks.setSock none).release ?_ ?_, ?_, nofun⟩
      · exact (setSock_query none q).1.trans hlist₁
      · exact (setSock_query none q).2.1.trans hstamped₁
      · exact (queryMove_doneSending _ q _).trans hdone₁
    · refine ⟨hbooks.setSock _, hdone₁, fun q' sock' heq => ?_⟩
      obtain ⟨rfl, rfl⟩ := Acquired.query.inj heq
      exact ⟨(setSock_query _ q).1.trans hlist₁, (setSock_query _ q).2.1.trans hstamped₁⟩

theorem Books.rollback (h : t.Books 1 pending) (hlist : (t.queries q).list = .outstanding)
    (hstamp : t.stamped q = true) : (t.rollback q).Books 0 pending := by
  have hq : q ∈ t.outstanding := (h.lists.mem_outstanding q).mpr hlist
  have hbalance := h.balance
  have hcounted : (t.rollback q).counted pending = t.counted pending := by
    simp [ThreadInfo.rollback, counted]
  refine h.remove .prependUnused prependUnused_ne hlist rfl rfl rfl ?_ ?_ (queryMove_serials t q _)
    (fun n hn => ?_) (fun n hn => Or.inl (hcounted ▸ hn))
    (fun _ => hcounted ▸ h.uses.notMem_right q hq)
  · simpa [ThreadInfo.rollback, hstamp] using hbalance
  · simp [ThreadInfo.rollback]
  · exact (List.mem_cons.mp hn).symm

theorem Books.countSent (h : t.Books 1 pending) (length : Nat) :
    (t.countSent length).Books 0 pending := by
  refine h.congr (h.lists.congr rfl rfl fun _ => rfl) rfl (fun _ _ => rfl) ?_ rfl rfl rfl
    (fun _ => Iff.rfl)
  exact h.balance

/-! ### The receiving party -/

theorem Books.timeoutQuery (h : t.Books inFlight pending)
    (hlist : (t.queries q).list = .outstanding) (hstamp : t.stamped q = true) :
    (t.timeoutQuery q).Books inFlight pending := by
  have hq : q ∈ t.outstanding := (h.lists.mem_outstanding q).mpr hlist
  have hbalance := h.balance
  refine h.remove .appendUnused appendUnused_ne hlist rfl rfl rfl ?_ rfl (queryMove_serials t q _)
    (fun n hn => Or.inl ?_) (fun n hn => ?_) (fun hn => ?_)
  · simp only [ThreadInfo.timeoutQuery, hstamp, if_true]
    omega
  · simpa [ThreadInfo.timeoutQuery] using hn
  · simp only [counted, ThreadInfo.timeoutQuery, queryMove_completed, List.cons_append,
      List.mem_cons] at hn
    exact hn.symm
  · exact absurd (by simpa [ThreadInfo.timeoutQuery] using hn) (h.uses.notMem_left q hq)

/-- Queries without a timestamp stay where they are, and no timestamp changes: what the
receiving party may do. -/
structure Spared (t t' : ThreadInfo) : Prop where
  list : ∀ q, t.stamped q = false → (t'.queries q).list = (t.queries q).list
  stamped : ∀ q, t'.stamped q = t.stamped q
  doneSending : t'.doneSending = t.doneSending

theorem Spared.refl (t : ThreadInfo) : Spared t t := ⟨fun _ _ => rfl, fun _ => rfl, rfl⟩

theorem Spared.trans {t'' : ThreadInfo} (h : Spared t t') (h' : Spared t' t'') : Spared t t'' where
  list := fun q hq => (h'.list q ((h.stamped q).trans hq)).trans (h.list q hq)
  stamped := fun q => (h'.stamped q).trans (h.stamped q)
  doneSending := h'.doneSending.trans h.doneSending

/-- Moving a query that has a timestamp spares the others. -/
theorem spared_queryMove (hlist : (t.queries q).list = .outstanding) (hstamp : t.stamped q = true) :
    Spared t (t.queryMove q .appendUnused) where
  list := by
    intro q' hq'
    have hne : q' ≠ q := fun heq => nomatch (heq ▸ hq').symm.trans hstamp
    rw [(queryMove_unused hlist appendUnused_ne).2.2 q', if_neg hne]
  stamped := stamped_queryMove _
  doneSending := queryMove_doneSending t q _

theorem spared_timeoutQuery (hlist : (t.queries q).list = .outstanding)
    (hstamp : t.stamped q = true) : Spared t (t.timeoutQuery q) := by
  obtain ⟨hlists, hstamped, hdone⟩ := spared_queryMove hlist hstamp
  exact ⟨hlists, hstamped, hdone⟩

theorem stamped_of_lt {now : Nat} (hnow : now < uint64Max) (hlt : (t.queries q).timestamp < now) :
    t.stamped q = true :=
  decide_eq_true (Nat.ne_of_lt (Nat.lt_trans hlt hnow))

/-- **The loop of `process_timeouts`**: what its rounds keep, it keeps. -/
theorem timeoutTail_invariant {I : ThreadInfo → Prop} (cfg : Config) {now : Nat} (n : Nat)
    (hround : ∀ t q, I t → q ∈ t.outstanding → (t.queries q).timestamp < now →
      I (t.timeoutQuery q)) (h : I t) : I (timeoutTail cfg now n t) := by
  induction n generalizing t with
  | zero => exact h
  | succ n ih =>
      unfold timeoutTail
      split
      · exact h
      · rename_i q hlast
        split_ifs with hexpired
        · exact ih (hround t q h (List.mem_of_getLast? hlast) hexpired.1)
        · exact h

theorem Books.timeoutTail (cfg : Config) {now : Nat} (hnow : now < uint64Max) (n : Nat)
    (h : t.Books inFlight pending) :
    (ThreadInfo.timeoutTail cfg now n t).Books inFlight pending ∧
      Spared t (ThreadInfo.timeoutTail cfg now n t) := by
  refine timeoutTail_invariant (I := fun t' => t'.Books inFlight pending ∧ Spared t t') cfg n ?_
    ⟨h, Spared.refl t⟩
  rintro t' q ⟨hbooks, hspared⟩ hq hlt
  have hlist : (t'.queries q).list = .outstanding := (hbooks.lists.mem_outstanding q).mp hq
  have hstamp : t'.stamped q = true := stamped_of_lt hnow hlt
  exact ⟨hbooks.timeoutQuery hlist hstamp, hspared.trans (spared_timeoutQuery hlist hstamp)⟩

/-- The locked region of `process_timeouts`, if the query found before is still there. -/
theorem Books.processTimeouts (cfg : Config) {now : Nat} (hnow : now < uint64Max)
    (h : t.Books inFlight pending) (hlist : (t.queries q).list = .outstanding)
    (hstamp : t.stamped q = true) :
    (t.processTimeouts cfg now q).Books inFlight pending ∧
      Spared t (t.processTimeouts cfg now q) := by
  obtain ⟨hbooks, hspared⟩ := (h.timeoutQuery hlist hstamp).timeoutTail cfg hnow
    (t.timeoutQuery q).outstanding.length
  exact ⟨hbooks, (spared_timeoutQuery hlist hstamp).trans hspared⟩

/-- A response is not counted, or it is that of a query with a timestamp. -/
theorem matchQuery_cases (t : ThreadInfo) (sockeq : Nat → Nat → Bool) (r : ReceivedQuery) :
    ((t.matchQuery sockeq r).1.matched = false ∧ (t.matchQuery sockeq r).2 = t) ∨
      ((t.queries r.qid.toNat).list = .outstanding ∧ t.stamped r.qid.toNat = true ∧
        r.shortResponse = false ∧
        t.matchQuery sockeq r =
          ({ r with
              sent := (t.queries r.qid.toNat).timestamp
              serial := (t.queries r.qid.toNat).serial },
            t.queryMove r.qid.toNat .appendUnused)) := by
  unfold ThreadInfo.matchQuery
  dsimp only
  split_ifs with hshort hunexpected
  · exact Or.inl ⟨by simp [ReceivedQuery.matched, hshort], rfl⟩
  · exact Or.inl ⟨by simp [ReceivedQuery.matched], rfl⟩
  · rw [not_or, not_or, not_not] at hunexpected
    exact Or.inr ⟨hunexpected.1, decide_eq_true hunexpected.2.1, Bool.eq_false_iff.mpr hshort, rfl⟩

theorem matchQueries_cons (sockeq : Nat → Nat → Bool) (r : ReceivedQuery) (rs : List ReceivedQuery)
    (t : ThreadInfo) :
    matchQueries sockeq (r :: rs) t =
      ((t.matchQuery sockeq r).1 :: (matchQueries sockeq rs (t.matchQuery sockeq r).2).1,
        (matchQueries sockeq rs (t.matchQuery sockeq r).2).2) := rfl

/-- **The locked loop of `do_recv`**: what the moves of the queries answered keep, it keeps. -/
theorem matchQueries_invariant {I : ThreadInfo → Prop} (sockeq : Nat → Nat → Bool)
    (rs : List ReceivedQuery)
    (hmove : ∀ t (qid : UInt16), I t → (t.queries qid.toNat).list = .outstanding →
      I (t.queryMove qid.toNat .appendUnused)) (h : I t) : I (matchQueries sockeq rs t).2 := by
  induction rs generalizing t with
  | nil => exact h
  | cons r rs ih =>
      rw [matchQueries_cons]
      rcases t.matchQuery_cases sockeq r with ⟨-, hsame⟩ | ⟨hlist, -, -, hmatch⟩
      · rw [hsame]
        exact ih h
      · rw [hmatch]
        exact ih (hmove t r.qid h hlist)

theorem Books.matchQuery (h : t.Books inFlight pending) (sockeq : Nat → Nat → Bool)
    {r : ReceivedQuery} (hr : r.unexpected = false) :
    (t.matchQuery sockeq r).2.Books inFlight
        (pending ++ [(t.matchQuery sockeq r).1].filter ReceivedQuery.matched) ∧
      Spared t (t.matchQuery sockeq r).2 := by
  rcases t.matchQuery_cases sockeq r with ⟨hnot, hsame⟩ | ⟨hlist, hstamp, hshort, heq⟩
  · rw [List.filter_cons_of_neg (by rw [hnot]; exact Bool.false_ne_true), List.filter_nil,
      List.append_nil, hsame]
    exact ⟨h, Spared.refl t⟩
  · have hq : r.qid.toNat ∈ t.outstanding := (h.lists.mem_outstanding _).mpr hlist
    have hbalance := h.balance
    rw [heq, List.filter_cons_of_pos (by simp [ReceivedQuery.matched, hshort, hr]),
      List.filter_nil]
    refine ⟨?_, spared_queryMove hlist hstamp⟩
    refine h.remove .appendUnused appendUnused_ne hlist rfl rfl rfl ?_ ?_
      (queryMove_serials t _ _) (fun n hn => Or.inl ?_) (fun n hn => ?_) (fun hn => ?_)
    · simp only [queryMove_stats, hstamp, if_true, List.length_append, List.length_singleton]
      omega
    · rw [queryMove_stats]
    · rwa [queryMove_failed] at hn
    · simp only [counted, queryMove_timedout, queryMove_completed, List.map_append, List.map_cons,
        List.map_nil, ← List.append_assoc] at hn
      exact (List.mem_append.mp hn).imp_right List.mem_singleton.mp
    · rw [queryMove_failed] at hn
      exact absurd hn (h.uses.notMem_left _ hq)

theorem Books.matchQueries (h : t.Books inFlight pending) (sockeq : Nat → Nat → Bool)
    {rs : List ReceivedQuery} (hrs : ∀ r ∈ rs, r.unexpected = false) :
    (ThreadInfo.matchQueries sockeq rs t).2.Books inFlight
        (pending ++ (ThreadInfo.matchQueries sockeq rs t).1.filter ReceivedQuery.matched) ∧
      Spared t (ThreadInfo.matchQueries sockeq rs t).2 := by
  induction rs generalizing t pending with
  | nil =>
      rw [ThreadInfo.matchQueries, List.filter_nil, List.append_nil]
      exact ⟨h, Spared.refl t⟩
  | cons r rs ih =>
      obtain ⟨hbooks, hspared⟩ := h.matchQuery sockeq (hrs r List.mem_cons_self)
      obtain ⟨hbooks', hspared'⟩ := ih hbooks fun r' hr' => hrs r' (List.mem_cons_of_mem r hr')
      rw [List.append_assoc, ← List.filter_append] at hbooks'
      exact ⟨hbooks', hspared.trans hspared'⟩

theorem Books.complete {r : ReceivedQuery} {rest : List ReceivedQuery}
    (h : t.Books inFlight ((r :: rest).filter ReceivedQuery.matched)) :
    (t.complete r).Books inFlight (rest.filter ReceivedQuery.matched) ∧
      Spared t (t.complete r) := by
  unfold ThreadInfo.complete
  split_ifs with hmatched
  · rw [List.filter_cons_of_pos hmatched] at h
    have hbalance := h.balance
    refine ⟨h.congr (h.lists.congr rfl rfl fun _ => rfl) rfl (fun _ _ => rfl) ?_ rfl rfl rfl
      (fun n => ?_), fun _ _ => rfl, fun _ => rfl, rfl⟩
    · rw [List.length_cons] at hbalance
      show t.stats.numSent + inFlight = t.stats.numTimedout + (t.stats.numCompleted + 1) +
        (rest.filter ReceivedQuery.matched).length + t.live
      omega
    · simp only [counted, List.map_cons, List.mem_append, List.mem_cons]
      tauto
  · rw [List.filter_cons_of_neg hmatched] at h
    exact ⟨h, Spared.refl t⟩

theorem cancelQuery_spec (h : t.Lists) (hq : q ∈ t.outstanding) :
    (t.cancelQuery q).Lists ∧ (t.cancelQuery q).outstanding = t.outstanding.erase q ∧
      (t.cancelQuery q).stats.numInterrupted + (t.cancelQuery q).live =
        t.stats.numInterrupted + t.live ∧
      (t.cancelQuery q).stats.numSent = t.stats.numSent ∧
      (t.cancelQuery q).stats.numTimedout = t.stats.numTimedout ∧
      (t.cancelQuery q).stats.numCompleted = t.stats.numCompleted := by
  have hlist : (t.queries q).list = .outstanding := (h.mem_outstanding q).mp hq
  have hlists := h.queryMove_unused hlist appendUnused_ne
  have hout := (queryMove_unused hlist appendUnused_ne).1
  have hlive := live_of_erase hq hout (stamped_queryMove .appendUnused)
  unfold cancelQuery
  dsimp only
  rw [queryMove_timestamp, queryMove_stats]
  split_ifs with hmax
  · have hstamp : t.stamped q = false := decide_eq_false (not_not.mpr hmax)
    rw [hstamp] at hlive
    exact ⟨hlists, hout, by rw [queryMove_stats, hlive]; rfl, by simp⟩
  · have hstamp : t.stamped q = true := decide_eq_true hmax
    rw [hstamp, if_pos rfl] at hlive
    refine ⟨hlists.congr rfl rfl fun _ => rfl, hout, ?_, rfl, rfl, rfl⟩
    show t.stats.numInterrupted + 1 + (t.queryMove q .appendUnused).live = _
    omega

/-- `cancel_queries` counts the live queries as interrupted. -/
theorem cancelQueries_stats (h : t.Lists) :
    (cancelQueries t.outstanding.length t).stats.numInterrupted =
        t.stats.numInterrupted + t.live ∧
      (cancelQueries t.outstanding.length t).stats.numSent = t.stats.numSent ∧
      (cancelQueries t.outstanding.length t).stats.numTimedout = t.stats.numTimedout ∧
      (cancelQueries t.outstanding.length t).stats.numCompleted = t.stats.numCompleted := by
  generalize hn : t.outstanding.length = n
  induction n generalizing t with
  | zero =>
      rw [cancelQueries, live, List.length_eq_zero_iff.mp hn]
      exact ⟨rfl, rfl, rfl, rfl⟩
  | succ n ih =>
      unfold cancelQueries
      cases hlast : t.outstanding.getLast? with
      | none =>
          rw [List.getLast?_eq_none_iff] at hlast
          rw [hlast] at hn
          exact nomatch hn
      | some q =>
          have hq : q ∈ t.outstanding := List.mem_of_getLast? hlast
          obtain ⟨hlists, hout, hint, hsent, htimedout, hcompleted⟩ := cancelQuery_spec h hq
          have hlen : (t.cancelQuery q).outstanding.length = n := by
            rw [hout, List.length_erase_of_mem hq, hn]
            rfl
          obtain ⟨hint', hsent', htimedout', hcompleted'⟩ := ih hlists hlen
          exact ⟨hint'.trans hint, hsent'.trans hsent, htimedout'.trans htimedout,
            hcompleted'.trans hcompleted⟩

end ThreadInfo

end Dnsperf.Thread
