import Dnsperf.Thread.Links
import Dnsperf.Thread.Fine

/-!
# Dnsperf.Thread.Mirror

The lists of `ThreadInfo` are what the pointers of `Entries` represent. Every operation of
a thread on its lists is one region on the pointers, so that **the pointers follow every
run of the two parties** (`Mirrored`): what is known of the pointers is known of the lists,
for every run and not only for undisturbed ones.
-/

namespace Dnsperf.Thread

open Dnsperf.Lib Dnsperf.Net

/-- The pointers represent the lists of a thread. -/
structure Entries.Mirrors (e : Entries) (t : ThreadInfo) : Prop where
  shows : e.Shows t.outstanding t.unused
  list : ∀ q, (t.queries q).list = e.list q

namespace Entries.Mirrors

open ThreadInfo (QueryMoveOp)

variable {e : Entries} {t t' : ThreadInfo} {q : Nat}

theorem init : Entries.init.Mirrors ThreadInfo.init where
  shows := by
    show Entries.init.Shows [] (List.range' 0 nqids)
    rw [← List.range_eq_range']
    exact init_shows
  list := fun q => by
    rw [(foldl_initEntry (e := Entries.init) rfl).1]
    rfl

theorem congr (h : e.Mirrors t) (hout : t'.outstanding = t.outstanding)
    (hunused : t'.unused = t.unused) (hlist : ∀ q, (t'.queries q).list = (t.queries q).list) :
    e.Mirrors t' :=
  ⟨by rw [hout, hunused]; exact h.shows, fun q => (hlist q).trans (h.list q)⟩

theorem list_unused (h : e.Mirrors t) (q : Nat) :
    (t.queries q).list = .outstanding ∧ q ∉ t.unused ∨
      (t.queries q).list = .unused ∧ q ∉ t.outstanding := by
  cases hlist : (t.queries q).list with
  | outstanding =>
      refine Or.inl ⟨rfl, fun hun => ?_⟩
      exact ((h.shows.split.mem_right q).mp hun).2 ((h.list q).symm.trans hlist)
  | unused =>
      refine Or.inr ⟨rfl, fun hout => ?_⟩
      have hout' := ((h.shows.split.mem_left q).mp hout).2
      exact nomatch hlist.symm.trans ((h.list q).trans hout')

theorem queryMove_lists (h : e.Mirrors t) (q : Nat) (op : QueryMoveOp) :
    (t.queryMove q op).outstanding = op.out q t.outstanding ∧
      (t.queryMove q op).unused = op.un q t.unused := by
  unfold ThreadInfo.queryMove ThreadInfo.unlink QueryMoveOp.out QueryMoveOp.un
  rcases h.list_unused q with ⟨hlist, hnot⟩ | ⟨hlist, hnot⟩
  · rw [hlist, List.erase_of_not_mem hnot]
    cases op <;> exact ⟨rfl, rfl⟩
  · rw [hlist, List.erase_of_not_mem hnot]
    cases op <;> exact ⟨rfl, rfl⟩

/-- **A move on the pointers is a move on the lists.** -/
theorem queryMove (h : e.Mirrors t) (hq : q < nqids) (op : QueryMoveOp) :
    ∃ e', e.queryMove q op = .ok e' ∧ e'.Mirrors (t.queryMove q op) := by
  obtain ⟨e', hmove, hlist', hshows⟩ := h.shows.queryMove hq op
  obtain ⟨hout, hun⟩ := h.queryMove_lists q op
  refine ⟨e', hmove, by rw [hout, hun]; exact hshows, fun q' => ?_⟩
  rw [hlist']
  by_cases hqq : q' = q
  · rw [hqq, Function.update_self]
    cases op <;> simp [ThreadInfo.queryMove, ThreadInfo.setQuery, QueryMoveOp.target]
  · rw [Function.update_of_ne hqq, ← h.list]
    cases op <;> simp [ThreadInfo.queryMove, ThreadInfo.setQuery, hqq]

/-! ### The operations of a thread -/

theorem lt_outstanding (h : e.Mirrors t) (hq : q ∈ t.outstanding) : q < nqids :=
  h.shows.lt_outstanding hq

theorem flushed {now : Nat} {P : UInt16 → Prop} (h : e.Mirrors t)
    (hflushed : ThreadInfo.Flushed now P t t') : e.Mirrors t' := by
  induction hflushed with
  | refl t => exact h
  | @sent t _ qid _ _ ih =>
      refine ih ?_
      unfold ThreadInfo.perfNetSent
      split_ifs
      · exact h.congr rfl rfl fun q => (ThreadInfo.setTimestamp_query now q).1
      · exact h
  | tried currentSock _ ih => exact ih (h.congr rfl rfl fun _ => rfl)

theorem take (h : e.Mirrors t) (hq : q < nqids) :
    ∃ e', e.queryMove q .prependOutstanding = .ok e' ∧ e'.Mirrors (t.take q) := by
  obtain ⟨e', hmove, h'⟩ := h.queryMove hq .prependOutstanding
  exact ⟨e', hmove, h'.congr rfl rfl fun q' => t.take_list q q'⟩

theorem setSock (h : e.Mirrors t) (sock : Option Nat) : e.Mirrors (t.setSock q sock) :=
  h.congr rfl rfl fun q' => (ThreadInfo.setSock_query sock q').1

theorem acquire (h : e.Mirrors t) {cfg : Config} {now : Nat}
    {calls : List ThreadInfo.SockreadyCall} {acquired : ThreadInfo.Acquired}
    (hacquire : t.acquire cfg now calls = some (acquired, t')) :
    ∃ e', (e' = e ∨ ∃ r, Step e r e') ∧ e'.Mirrors t' ∧
      ∀ q sock, acquired = .query q sock → q < nqids := by
  rcases ThreadInfo.acquire_cases hacquire with
    ⟨-, rfl, rfl⟩ | ⟨-, q, rest, t₁, hunused, hflushed, hcases⟩
  · exact ⟨e, Or.inl rfl, h, nofun⟩
  · have hq : q < nqids := h.shows.lt_unused (hunused ▸ List.mem_cons_self)
    have hhead : e.unused.head = some q := by rw [h.shows.unused.head, hunused]; rfl
    obtain ⟨e₁, hmove, h₁⟩ := h.take hq
    have h₂ := h₁.flushed hflushed
    have htake : ∀ ready, e.takeQuery ready =
        if ready then .ok e₁ else e₁.queryMove q .prependUnused := by
      intro ready
      rw [takeQuery, hhead]
      dsimp only
      rw [hmove]
      rfl
    rcases hcases with ⟨rfl, rfl⟩ | ⟨rfl, rfl⟩ | ⟨sock, rfl, rfl⟩
    · exact ⟨e₁, Or.inr ⟨.take true, htake true⟩, h₂, nofun⟩
    · obtain ⟨e', hback, h'⟩ := (h₂.setSock none).queryMove hq .prependUnused
      exact ⟨e', Or.inr ⟨.take false, (htake false).trans hback⟩, h', nofun⟩
    · refine ⟨e₁, Or.inr ⟨.take true, htake true⟩, h₂.setSock _, fun q' sock' heq => ?_⟩
      rw [← (ThreadInfo.Acquired.query.inj heq).1]
      exact hq

theorem back (h : e.Mirrors t) (hq : q < nqids) :
    ∃ r e', Step e r e' ∧ e'.Mirrors (t.queryMove q .prependUnused) := by
  obtain ⟨e', hmove, h'⟩ := h.queryMove hq .prependUnused
  refine ⟨.back (UInt16.ofNat q), e', ?_, h'⟩
  rw [Step, region, UInt16.toNat_ofNat_of_lt' hq]
  exact hmove

theorem timeoutQuery (h : e.Mirrors t) (hq : q < nqids) :
    ∃ e', e.queryMove q .appendUnused = .ok e' ∧ e'.Mirrors (t.timeoutQuery q) := by
  obtain ⟨e', hmove, h'⟩ := h.queryMove hq .appendUnused
  exact ⟨e', hmove, h'.congr rfl rfl fun _ => rfl⟩

theorem timeoutTail (h : e.Mirrors t) (cfg : Config) (now n : Nat) :
    ∃ rounds e', moveTails rounds e = .ok e' ∧ e'.Mirrors (ThreadInfo.timeoutTail cfg now n t) := by
  induction n generalizing e t with
  | zero => exact ⟨0, e, rfl, h⟩
  | succ n ih =>
      unfold ThreadInfo.timeoutTail
      split
      · exact ⟨0, e, rfl, h⟩
      · rename_i q hlast
        split_ifs
        · have htail : e.outstanding.tail = some q := h.shows.outstanding.tail.trans hlast
          obtain ⟨e₁, hmove, h₁⟩ := h.timeoutQuery
            (h.lt_outstanding (List.mem_of_mem_getLast? hlast))
          obtain ⟨rounds, e', hmoves, h'⟩ := ih h₁
          refine ⟨rounds + 1, e', ?_, h'⟩
          rw [moveTails, htail]
          dsimp only
          rw [hmove]
          exact hmoves
        · exact ⟨0, e, rfl, h⟩

theorem processTimeouts (h : e.Mirrors t) (hq : q < nqids) (cfg : Config) (now : Nat) :
    ∃ r e', Step e r e' ∧ e'.Mirrors (t.processTimeouts cfg now q) := by
  obtain ⟨e₁, hmove, h₁⟩ := h.timeoutQuery hq
  obtain ⟨rounds, e', hmoves, h'⟩ := h₁.timeoutTail cfg now (t.timeoutQuery q).outstanding.length
  refine ⟨.timeouts (UInt16.ofNat q) rounds, e', ?_, h'⟩
  rw [Step, region, expire, UInt16.toNat_ofNat_of_lt' hq, hmove]
  exact hmoves

theorem matchQueries (h : e.Mirrors t) (sockeq : Nat → Nat → Bool) (rs : List ReceivedQuery) :
    ∃ recvd e', matchAll recvd e = .ok e' ∧
      e'.Mirrors (ThreadInfo.matchQueries sockeq rs t).2 := by
  induction rs generalizing e t with
  | nil => exact ⟨[], e, rfl, h⟩
  | cons r rs ih =>
      rw [ThreadInfo.matchQueries_cons]
      rcases t.matchQuery_cases sockeq r with ⟨-, hsame⟩ | ⟨hlist, -, -, hmatch⟩
      · rw [hsame]
        exact ih h
      · obtain ⟨e₁, hmove, h₁⟩ := h.queryMove r.qid.toNat_lt .appendUnused
        rw [hmatch]
        obtain ⟨recvd, e', hrest, h'⟩ := ih h₁
        refine ⟨(r.qid, true) :: recvd, e', ?_, h'⟩
        rw [matchAll, if_pos ⟨(h.list _).symm.trans hlist, rfl⟩, hmove]
        exact hrest

theorem cancelQuery_outstanding (t : ThreadInfo) (q : Nat) :
    (t.cancelQuery q).outstanding = (t.queryMove q .appendUnused).outstanding := by
  unfold ThreadInfo.cancelQuery
  dsimp only
  split_ifs <;> rfl

theorem cancelQuery (h : e.Mirrors t) (hq : q < nqids) :
    ∃ e', e.queryMove q .appendUnused = .ok e' ∧ e'.Mirrors (t.cancelQuery q) := by
  obtain ⟨e', hmove, h'⟩ := h.queryMove hq .appendUnused
  refine ⟨e', hmove, ?_⟩
  unfold ThreadInfo.cancelQuery
  dsimp only
  split_ifs
  · exact h'
  · exact h'.congr rfl rfl fun _ => rfl

theorem cancelQueries (h : e.Mirrors t) {n m : Nat} (hn : t.outstanding.length ≤ n)
    (hm : t.outstanding.length ≤ m) :
    ∃ e', moveTails n e = .ok e' ∧ e'.Mirrors (ThreadInfo.cancelQueries m t) := by
  induction n generalizing e t m with
  | zero =>
      have hnil : t.outstanding = [] := List.length_eq_zero_iff.mp (Nat.le_zero.mp hn)
      refine ⟨e, rfl, ?_⟩
      cases m with
      | zero => exact h
      | succ m => rwa [ThreadInfo.cancelQueries, hnil]
  | succ n ih =>
      have htail := h.shows.outstanding.tail
      rw [moveTails]
      cases m with
      | zero =>
          have hnil : t.outstanding = [] := List.length_eq_zero_iff.mp (Nat.le_zero.mp hm)
          rw [htail, hnil]
          exact ⟨e, rfl, h⟩
      | succ m =>
          rw [ThreadInfo.cancelQueries, htail]
          cases hlast : t.outstanding.getLast? with
          | none => exact ⟨e, rfl, h⟩
          | some q =>
              have hmem : q ∈ t.outstanding := List.mem_of_mem_getLast? hlast
              obtain ⟨e₁, hmove, h₁⟩ := h.cancelQuery (h.lt_outstanding hmem)
              have hlen : (t.cancelQuery q).outstanding.length + 1 = t.outstanding.length := by
                rw [cancelQuery_outstanding, (h.queryMove_lists _ _).1]
                exact List.length_erase_add_one hmem
              dsimp only
              rw [hmove]
              exact ih h₁ (by omega) (by omega)

end Entries.Mirrors

/-! ### The two parties -/

/-- The query `do_send` is at. -/
def SenderAt.query : SenderAt → Option Nat
  | .input q _ | .undo q | .clock q _ _ | .stamp q _ _ | .send q _ _ | .count q _ | .failed q =>
      some q
  | _ => none

namespace Pair

/-- The regions may lead to pointers that represent the lists of the thread. -/
structure Mirrored (c : Pair) : Prop where
  lists : ∃ rs e, Run Entries.Step Entries.init rs e ∧ e.Mirrors c.tinfo
  sender : ∀ q, c.sender.query = some q → q < nqids
  receiver : ∀ q, c.receiver = .expire q → q < nqids

variable {cfg : Config} {c c' : Pair} {t : ThreadInfo}

theorem mirrored_start (now : Nat) : Mirrored (start now) where
  lists := ⟨[], Entries.init, Run.nil _, Entries.Mirrors.init⟩
  sender := nofun
  receiver := nofun

namespace Mirrored

theorem stay (h : Mirrored c) (ht : c'.tinfo = c.tinfo)
    (hsender : ∀ q, c'.sender.query = some q → q < nqids)
    (hreceiver : ∀ q, c'.receiver = .expire q → q < nqids) : Mirrored c' :=
  ⟨ht ▸ h.lists, hsender, hreceiver⟩

theorem region (h : Mirrored c)
    (hregion : ∀ e : Entries, e.Mirrors c.tinfo →
      ∃ e', (e' = e ∨ ∃ r, Entries.Step e r e') ∧ e'.Mirrors c'.tinfo)
    (hsender : ∀ q, c'.sender.query = some q → q < nqids)
    (hreceiver : ∀ q, c'.receiver = .expire q → q < nqids) : Mirrored c' := by
  obtain ⟨rs, e, hrun, hmirrors⟩ := h.lists
  obtain ⟨e', hstep, hmirrors'⟩ := hregion e hmirrors
  refine ⟨?_, hsender, hreceiver⟩
  rcases hstep with rfl | ⟨r, hstep⟩
  · exact ⟨rs, e', hrun, hmirrors'⟩
  · exact ⟨rs ++ [r], e', hrun.append (.cons hstep (.nil e')), hmirrors'⟩

theorem same (h : Mirrored c) (hmirrors : ∀ e : Entries, e.Mirrors c.tinfo → e.Mirrors c'.tinfo)
    (hsender : ∀ q, c'.sender.query = some q → q < nqids)
    (hreceiver : ∀ q, c'.receiver = .expire q → q < nqids) : Mirrored c' :=
  h.region (fun e he => ⟨e, Or.inl rfl, hmirrors e he⟩) hsender hreceiver

end Mirrored

theorem lt_of_none {held : Option Nat} (hnone : held = none) (q : Nat) (h : held = some q) :
    q < nqids := by
  rw [hnone] at h
  cases h

theorem mirrored_sends (h : Mirrored c) {step : SenderStep} (hsends : Sends cfg c step c') :
    Mirrored c' := by
  have hq := h.sender
  have hr := h.receiver
  cases hsends with
  | loop _ | stop _ | throttle _ _ | limit _ _ | wait _ _ | again _ _ | eof _ =>
      exact h.stay rfl (lt_of_none rfl) hr
  | flush _ hflushed _ =>
      exact h.same (fun e he => he.flushed hflushed) (lt_of_none rfl) hr
  | @lock _ acquired _ _ hacquire =>
      refine h.region (fun e he => ?_) (fun q hq' => ?_) hr
      · obtain ⟨e', hstep', he', -⟩ := he.acquire hacquire
        exact ⟨e', hstep', he'⟩
      · obtain ⟨-, e, -, he⟩ := h.lists
        obtain ⟨-, -, -, hlt⟩ := he.acquire hacquire
        cases acquired with
        | query q' sock => exact Option.some.inj hq' ▸ hlt q' sock rfl
        | _ => cases hq'
  | unbuilt hat | built hat | clock hat _ | sent hat _ | failed hat =>
      rw [hat] at hq
      exact h.stay rfl hq hr
  | @undo q hat =>
      refine h.region (fun e he => ?_) (lt_of_none rfl) hr
      obtain ⟨r, e', hstep', he'⟩ := he.back (hq q (by rw [hat]; rfl))
      exact ⟨e', Or.inr ⟨r, hstep'⟩, he'⟩
  | stamp hat =>
      rw [hat] at hq
      refine h.same (fun e he => ?_) hq hr
      exact he.congr rfl rfl fun q' => (ThreadInfo.setTimestamp_query _ q').1
  | count _ _ | done _ =>
      exact h.same (fun e he => he.congr rfl rfl fun _ => rfl) (lt_of_none rfl) hr
  | @rollback q hat =>
      refine h.region (fun e he => ?_) (lt_of_none rfl) hr
      obtain ⟨r, e', hstep', he'⟩ := he.back (hq q (by rw [hat]; rfl))
      exact ⟨e', Or.inr ⟨r, hstep'⟩, he'.congr rfl rfl fun _ => rfl⟩
  | drain _ hflushed _ => exact h.same (fun e he => he.flushed hflushed) hq hr

theorem complete_lists (t : ThreadInfo) (r : ReceivedQuery) :
    (t.complete r).outstanding = t.outstanding ∧ (t.complete r).unused = t.unused ∧
      (t.complete r).queries = t.queries := by
  unfold ThreadInfo.complete
  split_ifs <;> exact ⟨rfl, rfl, rfl⟩

theorem expiredTail_mem {now q : Nat} (h : t.expiredTail cfg now = some q) : q ∈ t.outstanding := by
  unfold ThreadInfo.expiredTail at h
  split at h
  · exact nomatch h
  · rename_i q' hlast
    split_ifs at h
    rw [← Option.some.inj h]
    exact List.mem_of_mem_getLast? hlast

theorem mirrored_receives (h : Mirrored c) {step : ReceiverStep}
    (hreceives : Receives cfg c step c') : Mirrored c' := by
  have hs := h.sender
  cases hreceives with
  | loop _ | interrupted _ _ | timeouts _ | check _ | done _ _ _ | packet _ | batch _ =>
      refine h.stay rfl hs fun q heq => ?_
      cases heq
  | expired _ htail =>
      refine h.stay rfl hs fun q heq => ?_
      obtain ⟨-, e, -, he⟩ := h.lists
      exact he.lt_outstanding (expiredTail_mem (ReceiverAt.expire.inj heq ▸ htail))
  | @expire q hat =>
      refine h.region (fun e he => ?_) hs fun q' heq => ?_
      · obtain ⟨r, e', hstep', he'⟩ := he.processTimeouts (h.receiver q hat) cfg c.receiverNow
        exact ⟨e', Or.inr ⟨r, hstep'⟩, he'⟩
      · cases heq
  | @lock recvd sockeq _ =>
      refine h.region (fun e he => ?_) hs fun q heq => ?_
      · obtain ⟨rs, e', hmatch, he'⟩ := he.matchQueries sockeq recvd
        exact ⟨e', Or.inr ⟨.responses rs, hmatch⟩, he'⟩
      · cases heq
  | @count _ _ r _ =>
      obtain ⟨hout, hun, hqueries⟩ := complete_lists c.tinfo r
      refine h.same (fun e he => ?_) hs fun q heq => ?_
      · exact he.congr hout hun fun q => by rw [hqueries]
      · cases heq
  | again _ _ =>
      refine h.same (fun e he => ?_) hs fun q heq => ?_
      · exact he.congr rfl rfl fun _ => rfl
      · cases heq

/-- **The pointers follow every step** of either party. -/
theorem mirrored_nextFine (cfg : Config) (c : Pair) (step : FineStep) (c' : Pair) (h : Mirrored c)
    (hstep : StepOf (nextFine cfg) c step c') : Mirrored c' := by
  cases moves_of_nextFine hstep with
  | sender hsends => exact mirrored_sends h hsends
  | receiver hreceives => exact mirrored_receives h hreceives
  | tick | interrupt => exact h.stay rfl h.sender h.receiver
  | sent =>
      refine h.same (fun e he => ?_) h.sender h.receiver
      exact he.flushed (P := fun _ => True) (.sent trivial (.refl _))
  | @glimpse qid _ =>
      refine h.stay rfl h.sender fun q hq' => ?_
      rw [← ReceiverAt.expire.inj hq']
      exact qid.toNat_lt

theorem Mirrored.cleanup (h : Mirrored c) :
    ∃ rs e, Run Entries.Step Entries.init rs e ∧ e.Mirrors c.cleanup := by
  obtain ⟨rs, e, hrun, he⟩ := h.lists
  unfold Pair.cleanup
  split_ifs
  · have hlen : c.tinfo.outstanding.length ≤ nqids := by
      have := he.shows.split.length
      omega
    obtain ⟨e', hcancel, he'⟩ := he.cancelQueries hlen (Nat.le_refl _)
    have hstep : Entries.Step e .cancel e' := hcancel
    exact ⟨rs ++ [.cancel], e', hrun.append (.cons hstep (.nil e')), he'⟩
  · exact ⟨rs, e, hrun, he⟩

end Pair

end Dnsperf.Thread
