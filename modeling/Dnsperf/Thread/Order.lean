import Dnsperf.Lib.Descending
import Dnsperf.Thread.Latency
import Dnsperf.Thread.Limit

/-!
# Dnsperf.Thread.Order

**The order of the outstanding queries.** `process_timeouts` looks at the tail of the list and stops
at the first query that has not timed out. It misses none as long as the timestamps never increase
from head to tail. `do_send` puts a query in front and stamps it later than any other; but
`perf__net_sent` gives a delayed query a new timestamp where it is. If another query has been sent
meanwhile, the older one is in front of the newer one, and out of sight of `process_timeouts`.

`Pair.KeepsOrder` excludes that.
-/

namespace Dnsperf.Thread

open Dnsperf.Lib Dnsperf.Net

namespace ThreadInfo

variable {cfg : Config} {t t' : ThreadInfo} {e : Entries} {now q : Nat}

/-- The timestamps never increase from head to tail. -/
def Ordered (t : ThreadInfo) : Prop := Descending t.sentAt t.outstanding

/-- `q` has timed out at `now`. -/
def Expired (t : ThreadInfo) (cfg : Config) (now q : Nat) : Prop :=
  t.sentAt q ≤ now ∧ cfg.timeout ≤ now - t.sentAt q

instance (t : ThreadInfo) (cfg : Config) (now q : Nat) : Decidable (t.Expired cfg now q) :=
  inferInstanceAs (Decidable (t.sentAt q ≤ now ∧ cfg.timeout ≤ now - t.sentAt q))

/-- The new timestamp `now` of a delayed query is not older than the one it has, and no query
nearer to the head has an older one. -/
def KeepsOrder (t : ThreadInfo) (q now : Nat) : Prop :=
  q ∈ t.outstanding → t.sentAt q ≠ uint64Max →
    t.sentAt q ≤ now ∧ ∀ x ∈ t.outstanding.takeWhile (· ≠ q), now ≤ t.sentAt x

instance (t : ThreadInfo) (q now : Nat) : Decidable (t.KeepsOrder q now) :=
  inferInstanceAs (Decidable (q ∈ t.outstanding → t.sentAt q ≠ uint64Max →
    t.sentAt q ≤ now ∧ ∀ x ∈ t.outstanding.takeWhile (· ≠ q), now ≤ t.sentAt x))

/-! ### The tail of the list -/

theorem Ordered.none_expired (h : t.Ordered) (hlast : t.outstanding.getLast? = some q)
    (hq : ¬ t.Expired cfg now q) : ∀ x ∈ t.outstanding, ¬ t.Expired cfg now x := by
  rintro x hx ⟨hle, htimeout⟩
  have hqx := h.last_le hlast x hx
  refine hq ⟨hqx.trans hle, ?_⟩
  omega

theorem none_expired_of_getLast?_eq_none (hlast : t.outstanding.getLast? = none) :
    ∀ x ∈ t.outstanding, ¬ t.Expired cfg now x := by
  intro x hx
  rw [List.getLast?_eq_none_iff.mp hlast] at hx
  cases hx

theorem Ordered.none_expired_of_expiredTail (h : t.Ordered)
    (htail : t.expiredTail cfg now = none) : ∀ x ∈ t.outstanding, ¬ t.Expired cfg now x := by
  unfold expiredTail at htail
  split at htail
  · rename_i hlast
    exact none_expired_of_getLast?_eq_none hlast
  · rename_i q hlast
    split_ifs at htail with hq
    refine h.none_expired hlast ?_
    rintro ⟨hle, htimeout⟩
    rcases hq with hlt | hlt
    · exact absurd hle (Nat.not_le.mpr hlt)
    · exact absurd htimeout (Nat.not_le.mpr hlt)

theorem Ordered.fewer (h : t.Ordered) (hsub : t'.outstanding.Sublist t.outstanding)
    (hsame : ∀ q, t'.sentAt q = t.sentAt q) : t'.Ordered :=
  (h.sublist hsub).congr fun q _ => hsame q

theorem ordered_timeoutQuery (h : t.Ordered) (q : Nat) : (t.timeoutQuery q).Ordered :=
  h.fewer (t.fewer_timeoutQuery q).sublist (t.sentAt_queryMove q .appendUnused)

/-- The loop of `process_timeouts`, with enough rounds. A timeout is not 0, so that its `<` does for
`≤`. -/
theorem Ordered.none_expired_timeoutTail (he : e.Mirrors t) (h : t.Ordered)
    (htimeout : 0 < cfg.timeout) {n : Nat} (hn : t.outstanding.length ≤ n) :
    ∀ x ∈ (timeoutTail cfg now n t).outstanding, ¬ (timeoutTail cfg now n t).Expired cfg now x := by
  induction n generalizing t e with
  | zero =>
      intro x hx
      rw [timeoutTail, List.length_eq_zero_iff.mp (Nat.le_zero.mp hn)] at hx
      cases hx
  | succ n ih =>
      unfold timeoutTail
      split
      · rename_i hlast
        exact none_expired_of_getLast?_eq_none hlast
      · rename_i q hlast
        have hmem : q ∈ t.outstanding := List.mem_of_mem_getLast? hlast
        split_ifs with hq
        · obtain ⟨e', -, he'⟩ := he.timeoutQuery (he.lt_outstanding hmem)
          refine ih he' (ordered_timeoutQuery h q) ?_
          have hout : (t.timeoutQuery q).outstanding = t.outstanding.erase q :=
            (he.queryMove_lists q .appendUnused).1
          rw [hout, List.length_erase_of_mem hmem]
          omega
        · refine h.none_expired hlast ?_
          rintro ⟨hle, hexpired⟩
          refine hq ⟨?_, hexpired⟩
          change t.sentAt q < now
          omega

/-! ### New timestamps -/

theorem sentAt_perfNetSent (t : ThreadInfo) (now : Nat) (qid : UInt16) (q : Nat) :
    (t.perfNetSent now qid).sentAt q =
      if q = qid.toNat ∧ t.sentAt q ≠ uint64Max then now else t.sentAt q := by
  unfold perfNetSent
  by_cases hsent : (t.queries qid.toNat).timestamp ≠ uint64Max
  · rw [if_pos hsent, sentAt_setTimestamp]
    by_cases hq : q = qid.toNat
    · subst hq
      rw [if_pos rfl, if_pos ⟨rfl, hsent⟩]
    · rw [if_neg hq, if_neg fun h => hq h.1]
  · rw [if_neg hsent, if_neg]
    rintro ⟨rfl, hne⟩
    exact hsent hne

theorem outstanding_perfNetSent (t : ThreadInfo) (now : Nat) (qid : UInt16) :
    (t.perfNetSent now qid).outstanding = t.outstanding := by
  unfold perfNetSent
  split_ifs <;> rfl

theorem Ordered.perfNetSent {qid : UInt16} (hnodup : t.outstanding.Nodup) (h : t.Ordered)
    (hkeeps : t.KeepsOrder qid.toNat now) : (t.perfNetSent now qid).Ordered := by
  unfold Ordered
  rw [outstanding_perfNetSent]
  by_cases hmem : qid.toNat ∈ t.outstanding ∧ t.sentAt qid.toNat ≠ uint64Max
  · obtain ⟨hle, hahead⟩ := hkeeps hmem.1 hmem.2
    obtain ⟨l₂, hsplit⟩ := exists_takeWhile_ne hmem.1
    unfold Ordered at h
    generalize t.outstanding.takeWhile (· ≠ qid.toNat) = l₁ at hahead hsplit
    rw [hsplit] at h hnodup ⊢
    have hnew : (t.perfNetSent now qid).sentAt qid.toNat = now := by
      rw [sentAt_perfNetSent, if_pos ⟨rfl, hmem.2⟩]
    refine h.update hnodup ?_ ?_ fun x hx => ?_
    · rw [hnew]
      exact hahead
    · rw [hnew]
      exact fun x hx => (h.split.2 x hx).trans hle
    · rw [sentAt_perfNetSent, if_neg fun hand => hx hand.1]
  · refine h.congr fun x hx => ?_
    rw [sentAt_perfNetSent, if_neg]
    rintro ⟨rfl, hne⟩
    exact hmem ⟨hx, hne⟩

/-- A query without a timestamp, if it is on the list, is in front; so it may get the latest one. -/
theorem Ordered.setTimestamp (h : t.Ordered) (hnodup : t.outstanding.Nodup)
    (hunsent : t.sentAt q = uint64Max) (hnow : now < uint64Max)
    (hle : ∀ x ∈ t.outstanding, x ≠ q → t.sentAt x ≤ now) : (t.setTimestamp q now).Ordered := by
  have hnew : (t.setTimestamp q now).sentAt q = now := by
    rw [sentAt_setTimestamp, if_pos rfl]
  have hsame : ∀ x, x ≠ q → (t.setTimestamp q now).sentAt x = t.sentAt x := by
    intro x hx
    rw [sentAt_setTimestamp, if_neg hx]
  unfold Ordered at h
  change Descending _ t.outstanding
  by_cases hmem : q ∈ t.outstanding
  · obtain ⟨l₁, l₂, hsplit⟩ := List.append_of_mem hmem
    rw [hsplit] at h hnodup hle ⊢
    have hnot : q ∉ l₁ ++ l₂ := (List.nodup_middle.mp hnodup).notMem
    refine h.update hnodup (fun x hx => ?_) (fun x hx => ?_) hsame
    · -- nothing stands before it
      have hne : x ≠ q := fun hxq => hnot (List.mem_append_left l₂ (hxq ▸ hx))
      have hbefore := h.split.1 x hx
      have hxle := hle x (List.mem_append_left _ hx) hne
      omega
    · have hne : x ≠ q := fun hxq => hnot (List.mem_append_right l₁ (hxq ▸ hx))
      rw [hnew]
      exact hle x (List.mem_append_right _ (List.mem_cons_of_mem q hx)) hne
  · exact h.congr fun x hx => hsame x fun hxq => hmem (hxq ▸ hx)

/-- Timestamps of the same time do not get in the way of each other. -/
theorem KeepsOrder.perfNetSent (h : t.KeepsOrder q now) (qid : UInt16) :
    (t.perfNetSent now qid).KeepsOrder q now := by
  intro hmem hne
  rw [outstanding_perfNetSent] at hmem
  rw [outstanding_perfNetSent]
  have hsent : t.sentAt q ≠ uint64Max := by
    intro hmax
    rw [sentAt_perfNetSent, if_neg fun hand => hand.2 hmax] at hne
    exact hne hmax
  obtain ⟨hle, hahead⟩ := h hmem hsent
  refine ⟨?_, fun x hx => ?_⟩
  · rw [sentAt_perfNetSent]
    split_ifs
    · exact le_rfl
    · exact hle
  · rw [sentAt_perfNetSent]
    split_ifs
    · exact le_rfl
    · exact hahead x hx

theorem Flushed.ordered {P : UInt16 → Prop} (hflushed : Flushed now P t t')
    (hnodup : t.outstanding.Nodup) (h : t.Ordered)
    (hkeeps : ∀ qid, P qid → t.KeepsOrder qid.toNat now) : t'.Ordered := by
  induction hflushed with
  | refl t => exact h
  | @sent t _ qid hqid _ ih =>
      refine ih ?_ (h.perfNetSent hnodup (hkeeps qid hqid)) fun qid' hqid' => ?_
      · rw [outstanding_perfNetSent]
        exact hnodup
      · exact (hkeeps qid' hqid').perfNetSent qid
  | tried currentSock _ ih => exact ih hnodup h hkeeps

/-- A query without a timestamp gets none. -/
theorem Flushed.sentAt_eq_uint64Max {P : UInt16 → Prop} (hflushed : Flushed now P t t')
    (h : t.sentAt q = uint64Max) : t'.sentAt q = uint64Max := by
  induction hflushed with
  | refl t => exact h
  | sent _ _ ih =>
      refine ih ?_
      rw [sentAt_perfNetSent, if_neg fun hand => hand.2 h]
      exact h
  | tried currentSock _ ih => exact ih h

theorem outstanding_take (he : e.Mirrors t) (hq : q ∈ t.unused) :
    q ∉ t.outstanding ∧ (t.take q).outstanding = q :: t.outstanding := by
  have hnot : q ∉ t.outstanding := fun hout => he.shows.not_both hout hq
  refine ⟨hnot, (he.queryMove_lists q .prependOutstanding).1.trans ?_⟩
  rw [QueryMoveOp.out, List.erase_of_not_mem hnot]

theorem Ordered.take (he : e.Mirrors t) (h : t.Ordered) (hq : q ∈ t.unused)
    (hle : ∀ x, t.sentAt x ≤ uint64Max) : (t.take q).Ordered := by
  obtain ⟨hnot, hout⟩ := outstanding_take he hq
  have hsame : ∀ x ∈ t.outstanding, (t.take q).sentAt x = t.sentAt x := by
    intro x hx
    have hne : x ≠ q := fun hxq => hnot (hxq ▸ hx)
    rw [sentAt_take, if_neg hne]
  unfold Ordered
  rw [hout]
  refine Descending.cons (h.congr hsame) fun x hx => ?_
  rw [hsame x hx, sentAt_take, if_pos rfl]
  exact hle x

theorem KeepsOrder.take {x : Nat} (he : e.Mirrors t) (h : t.KeepsOrder x now) (hq : q ∈ t.unused)
    (hnow : now ≤ uint64Max) : (t.take q).KeepsOrder x now := by
  obtain ⟨hnot, hout⟩ := outstanding_take he hq
  intro hmem hne
  have hxq : x ≠ q := by
    rintro rfl
    rw [sentAt_take, if_pos rfl] at hne
    exact hne rfl
  rw [hout] at hmem
  rw [sentAt_take, if_neg hxq] at hne
  obtain ⟨hle, hahead⟩ := h ((List.mem_cons.mp hmem).resolve_left hxq) hne
  rw [sentAt_take, if_neg hxq, hout, List.takeWhile_cons_of_pos (by simpa using hxq.symm)]
  refine ⟨hle, fun y hy => ?_⟩
  rw [sentAt_take]
  rcases List.mem_cons.mp hy with rfl | hy
  · rw [if_pos rfl]
    exact hnow
  · split_ifs
    · exact hnow
    · exact hahead y hy

end ThreadInfo

/-! ### What holds between steps -/

/-- The query that `do_send` is about to send has no timestamp yet, and when its time has been read
there is no later timestamp. -/
def SenderAt.Awaits (t : ThreadInfo) (now : Nat) : SenderAt → Prop
  | .input q _ | .undo q | .clock q _ _ => t.sentAt q = uint64Max
  | .stamp q _ _ => t.sentAt q = uint64Max ∧ ∀ x, t.sentAt x = uint64Max ∨ t.sentAt x ≤ now
  | _ => True

namespace Pair

variable {cfg : Config} {c c' : Pair}

/-- The queries that `calls` finish writing get timestamps that keep the order. -/
def CallsKeepOrder (c : Pair) (calls : List ThreadInfo.SockreadyCall) : Prop :=
  ∀ call ∈ calls, ∀ qid ∈ call.sent, c.tinfo.KeepsOrder qid.toNat c.clock

instance (c : Pair) (calls : List ThreadInfo.SockreadyCall) : Decidable (c.CallsKeepOrder calls) :=
  -- go through the ids of the calls, not through all ids
  @List.decidableBAll ThreadInfo.SockreadyCall
    (fun call => ∀ qid ∈ call.sent, c.tinfo.KeepsOrder qid.toNat c.clock)
    (fun call => List.decidableBAll (fun qid => c.tinfo.KeepsOrder qid.toNat c.clock) call.sent)
    calls

/-- `perf__net_sent` stores no timestamp later than that of a query nearer to the head. -/
def KeepsOrder (c : Pair) : FineStep → Prop
  | .step (.sender (.flush calls)) => c.CallsKeepOrder calls
  | .step (.sender (.lock calls)) => c.CallsKeepOrder calls
  | .step (.sender (.drain calls)) => c.CallsKeepOrder calls
  | .sent qid now => c.tinfo.KeepsOrder qid.toNat now
  | _ => True

instance (c : Pair) : (step : FineStep) → Decidable (c.KeepsOrder step)
  | .step (.sender (.flush calls)) | .step (.sender (.lock calls))
  | .step (.sender (.drain calls)) =>
      inferInstanceAs (Decidable (c.CallsKeepOrder calls))
  | .sent qid now => inferInstanceAs (Decidable (c.tinfo.KeepsOrder qid.toNat now))
  | .step (.sender .loop) | .step (.sender .throttle) | .step (.sender .limit)
  | .step (.sender .again) | .step (.sender (.input _)) | .step (.sender .undo)
  | .step (.sender .clock) | .step (.sender .stamp) | .step (.sender (.send _))
  | .step (.sender .count) | .step (.sender .rollback) | .step (.receiver _) | .step (.tick _)
  | .step .interrupt | .glimpse _ => isTrue trivial

theorem keepsOrder_of_finished {calls : List ThreadInfo.SockreadyCall} (h : c.CallsKeepOrder calls)
    (qid : UInt16) (hqid : Finished calls qid) : c.tinfo.KeepsOrder qid.toNat c.clock := by
  obtain ⟨call, hcall, hmem⟩ := hqid
  exact h call hcall qid hmem

/-- What every step that keeps the order keeps. -/
structure InOrder (c : Pair) : Prop where
  clock : c.clock < uint64Max
  senderNow : c.vars.now ≤ c.clock
  /-- No query was sent in the future. -/
  past : ∀ q, c.tinfo.sentAt q = uint64Max ∨ c.tinfo.sentAt q ≤ c.clock
  order : c.tinfo.Ordered
  sent : ∀ q ∈ c.tinfo.outstanding, c.tinfo.sentAt q = uint64Max → c.sender.MayBeUnsent q
  awaits : c.sender.Awaits c.tinfo c.vars.now

theorem inOrder_start {now : Nat} (hnow : now < uint64Max) : InOrder (start now) where
  clock := hnow
  senderNow := le_rfl
  past := fun _ => Or.inr (Nat.zero_le now)
  order := Descending.nil _
  sent := fun _ hq => absurd hq List.not_mem_nil
  awaits := trivial

theorem InOrder.sentAt_le (h : InOrder c) (q : Nat) : c.tinfo.sentAt q ≤ uint64Max :=
  (h.past q).elim (fun hmax => hmax.le) fun hle => hle.trans h.clock.le

theorem past_restamped {t t' : ThreadInfo} {now clock : Nat} {P : Nat → Prop}
    (hpast : ∀ q, t.sentAt q = uint64Max ∨ t.sentAt q ≤ clock)
    (hstamps : ThreadInfo.Restamped now P t t') (hnow : now ≤ clock) (q : Nat) :
    t'.sentAt q = uint64Max ∨ t'.sentAt q ≤ clock := by
  rcases hstamps q with hsame | hmax | ⟨heq, -⟩
  · rw [hsame]
    exact hpast q
  · exact Or.inl hmax
  · exact Or.inr (heq ▸ hnow)

theorem InOrder.sendAt (h : InOrder c) {t : ThreadInfo} {place : SenderAt} {vars : SenderVars}
    (hsub : t.outstanding.Sublist c.tinfo.outstanding)
    (hsame : ∀ q, t.sentAt q = c.tinfo.sentAt q) (hvars : vars.now ≤ c.clock)
    (hsent : ∀ q ∈ t.outstanding, c.sender.MayBeUnsent q → place.MayBeUnsent q)
    (hawaits : place.Awaits t vars.now) :
    InOrder { c with tinfo := t, sender := place, vars := vars } where
  clock := h.clock
  senderNow := hvars
  past := fun q => hsame q ▸ h.past q
  order := h.order.fewer hsub hsame
  sent := fun q hq hmax => hsent q hq (h.sent q (hsub.subset hq) ((hsame q).symm.trans hmax))
  awaits := hawaits

theorem InOrder.flush (h : InOrder c) {t : ThreadInfo} {place : SenderAt} {vars : SenderVars}
    {now : Nat} {P : UInt16 → Prop} {e : Entries} (he : e.Mirrors c.tinfo)
    (hflushed : ThreadInfo.Flushed now P c.tinfo t) (hnow : now ≤ c.clock)
    (hkeeps : ∀ qid, P qid → c.tinfo.KeepsOrder qid.toNat now) (hvars : vars.now ≤ c.clock)
    (hsent : ∀ q, c.sender.MayBeUnsent q → place.MayBeUnsent q)
    (hawaits : place.Awaits t vars.now) :
    InOrder { c with tinfo := t, sender := place, vars := vars } := by
  have hfewer := hflushed.fewer (hnow.trans_lt h.clock)
  refine ⟨h.clock, hvars, past_restamped h.past hflushed.restamped hnow, ?_, ?_, hawaits⟩
  · exact hflushed.ordered he.shows.split.nodup_left h.order hkeeps
  · intro q hq hmax
    refine hsent q (h.sent q (hfewer.sublist.subset hq) ?_)
    by_contra hne
    exact of_decide_eq_true (hfewer.stamped q (decide_eq_true hne)) hmax

theorem InOrder.stamp (h : InOrder c) {q sock length : Nat} {e : Entries} (he : e.Mirrors c.tinfo)
    (hat : c.sender = .stamp q sock length) :
    InOrder { c with
      tinfo := c.tinfo.setTimestamp q c.vars.now, sender := .send q sock length } := by
  have hlt : c.vars.now < uint64Max := h.senderNow.trans_lt h.clock
  have hawaits := h.awaits
  rw [hat] at hawaits
  obtain ⟨hunsent, hread⟩ := hawaits
  -- nothing else is without a timestamp
  have honly : ∀ x ∈ c.tinfo.outstanding, c.tinfo.sentAt x = uint64Max → x = q := by
    intro x hx hmax
    have hmay := h.sent x hx hmax
    rw [hat] at hmay
    exact hmay.symm
  refine ⟨h.clock, h.senderNow, fun x => ?_, ?_, fun x hx hmax => ?_, trivial⟩
  · change (c.tinfo.setTimestamp q c.vars.now).sentAt x = uint64Max ∨ _
    rw [ThreadInfo.sentAt_setTimestamp]
    split_ifs
    · exact Or.inr h.senderNow
    · exact h.past x
  · refine h.order.setTimestamp he.shows.split.nodup_left hunsent hlt fun x hx hne => ?_
    exact (hread x).resolve_left fun hmax => hne (honly x hx hmax)
  · change (c.tinfo.setTimestamp q c.vars.now).sentAt x = uint64Max at hmax
    rw [ThreadInfo.sentAt_setTimestamp] at hmax
    split_ifs at hmax with hxq
    · exact absurd hmax hlt.ne
    · exact absurd (honly x hx hmax) hxq

theorem not_mem_queryMove {t : ThreadInfo} {e : Entries} (he : e.Mirrors t) (q : Nat) :
    q ∉ (t.queryMove q .prependUnused).outstanding := by
  rw [(he.queryMove_lists q .prependUnused).1]
  exact he.shows.split.nodup_left.not_mem_erase

theorem InOrder.lock (h : InOrder c) {calls : List ThreadInfo.SockreadyCall}
    {acquired : ThreadInfo.Acquired} {t : ThreadInfo} {e : Entries} (he : e.Mirrors c.tinfo)
    (hat : c.sender = .lock) (hkeeps : c.CallsKeepOrder calls)
    (hacquire : c.tinfo.acquire cfg c.clock calls = some (acquired, t)) :
    InOrder { c with tinfo := t, sender := .ofAcquired acquired } := by
  have hpast := past_restamped h.past (ThreadInfo.restamped_acquire hacquire) le_rfl
  rcases ThreadInfo.acquire_cases hacquire with
    ⟨-, rfl, rfl⟩ | ⟨-, q, rest, t₁, hunused, hflushed, hcases⟩
  · refine h.sendAt (List.Sublist.refl _) (fun _ => rfl) h.senderNow (fun q _ hq => ?_) trivial
    rw [hat] at hq
    exact hq.elim
  · have hq : q ∈ c.tinfo.unused := hunused ▸ List.mem_cons_self
    obtain ⟨-, hout⟩ := ThreadInfo.outstanding_take he hq
    obtain ⟨e₁, -, he₁⟩ := he.take (he.shows.lt_unused hq)
    have he₂ := he₁.flushed hflushed
    -- the query taken is the new head, with the largest of all timestamps
    have horder : t₁.Ordered :=
      hflushed.ordered he₁.shows.split.nodup_left (h.order.take he hq h.sentAt_le)
        fun qid hqid => (keepsOrder_of_finished hkeeps qid hqid).take he hq h.clock.le
    have hfewer := hflushed.fewer h.clock
    have hstamped : ∀ x ∈ c.tinfo.outstanding, c.tinfo.stamped x = true := by
      refine fun x hx => decide_eq_true fun hmax => ?_
      have hmay := h.sent x hx hmax
      rw [hat] at hmay
      exact hmay
    have hsent : ∀ x ∈ t₁.outstanding, t₁.sentAt x = uint64Max → x = q := by
      intro x hx hmax
      by_contra hxq
      exact of_decide_eq_true (hfewer.stamped_of_take hout hstamped x hx hxq) hmax
    rcases hcases with ⟨rfl, rfl⟩ | ⟨rfl, rfl⟩ | ⟨sock, rfl, rfl⟩
    · exact ⟨h.clock, h.senderNow, hpast, horder, fun _ _ _ => trivial, trivial⟩
    -- no socket is ready, and the query goes back to `unused_queries`
    · have hback := (t₁.setSock q none).fewer_queryMove q ThreadInfo.prependUnused_ne
      have hsame : ∀ x, ((t₁.setSock q none).queryMove q .prependUnused).sentAt x =
          t₁.sentAt x := by
        intro x
        rw [ThreadInfo.sentAt_queryMove, ThreadInfo.sentAt_setSock]
      refine ⟨h.clock, h.senderNow, hpast, horder.fewer hback.sublist hsame, ?_, trivial⟩
      intro x hx hmax
      obtain rfl := hsent x (hback.sublist.subset hx) ((hsame x).symm.trans hmax)
      exact absurd hx (not_mem_queryMove (he₂.setSock none) x)
    · have hsame := t₁.sentAt_setSock q (some sock)
      refine ⟨h.clock, h.senderNow, hpast, horder.fewer (List.Sublist.refl _) hsame, ?_, ?_⟩
      · exact fun x hx hmax => (hsent x hx ((hsame x).symm.trans hmax)).symm
      · change (t₁.setSock q (some sock)).sentAt q = uint64Max
        rw [hsame]
        exact hflushed.sentAt_eq_uint64Max (by rw [ThreadInfo.sentAt_take, if_pos rfl])

theorem inOrder_sends (h : InOrder c) {e : Entries} (he : e.Mirrors c.tinfo) {step : SenderStep}
    (hkeeps : c.KeepsOrder (.step (.sender step))) (hsends : Sends cfg c step c') : InOrder c' := by
  have hle := h.senderNow
  have hawaits := h.awaits
  have hsub := List.Sublist.refl c.tinfo.outstanding
  cases hsends with
  | loop hat | stop hat | failed hat =>
      exact h.sendAt hsub (fun _ => rfl) hle
        (fun q _ hq => by rw [hat] at hq; exact hq.elim) trivial
  | throttle hat hnow =>
      refine h.sendAt hsub (fun _ => rfl) ?_
        (fun q _ hq => by rw [hat] at hq; exact hq.elim) trivial
      exact hnow.elim (fun hnow => hnow.trans_le hle) fun hnow => hnow.le
  | limit hat hnow | wait hat hnow | sent hat hnow | count hat hnow =>
      exact h.sendAt hsub (fun _ => rfl) (hnow.trans_le hle)
        (fun q _ hq => by rw [hat] at hq; exact hq.elim) trivial
  | again hat hnow =>
      exact h.sendAt hsub (fun _ => rfl) hnow.le
        (fun q _ hq => by rw [hat] at hq; exact hq.elim) trivial
  | flush hat hflushed hnow =>
      exact h.flush he hflushed le_rfl (keepsOrder_of_finished hkeeps) (hnow.trans_le hle)
        (fun q hq => by rw [hat] at hq; exact hq.elim) trivial
  | lock hat hacquire => exact h.lock he hat hkeeps hacquire
  | eof hat | done hat => exact h.sendAt hsub (fun _ => rfl) hle (fun _ _ _ => trivial) trivial
  | unbuilt hat | built hat =>
      rw [hat] at hawaits
      exact h.sendAt hsub (fun _ => rfl) hle (fun q _ hq => by rw [hat] at hq; exact hq) hawaits
  -- the time read here is the one for the stamp, and no other stamp is later
  | clock hat hnow =>
      rw [hat] at hawaits
      refine h.sendAt hsub (fun _ => rfl) hnow.le (fun q _ hq => by rw [hat] at hq; exact hq) ?_
      exact ⟨hawaits, fun x => hnow.symm ▸ h.past x⟩
  -- the only query without a timestamp leaves the list
  | @undo q hat =>
      refine h.sendAt (c.tinfo.fewer_queryMove q ThreadInfo.prependUnused_ne).sublist
        (c.tinfo.sentAt_queryMove q _) hle (fun x hx hmay => ?_) trivial
      rw [hat] at hmay
      obtain rfl : q = x := hmay
      exact absurd hx (not_mem_queryMove he q)
  | stamp hat => exact h.stamp he hat
  | @rollback q hat =>
      exact h.sendAt (c.tinfo.fewer_queryMove q ThreadInfo.prependUnused_ne).sublist
        (c.tinfo.sentAt_queryMove q .prependUnused) hle
        (fun x _ hx => by rw [hat] at hx; exact hx.elim) trivial
  | drain hat hflushed hnow =>
      refine h.flush he hflushed le_rfl (keepsOrder_of_finished hkeeps) (hnow.trans_le hle)
        (fun q hq => hq) ?_
      rw [hat]
      trivial

theorem Receives.sentAt {step : ReceiverStep} (h : Receives cfg c step c') (q : Nat) :
    c'.tinfo.sentAt q = c.tinfo.sentAt q := by
  cases h with
  | loop _ | interrupted _ _ | timeouts _ | expired _ _ | check _ | done _ _ _ | packet _ | batch _
  | again _ _ => rfl
  | expire _ => exact ThreadInfo.sentAt_processTimeouts cfg _ _ _ q
  | @lock _ sockeq _ => exact (ThreadInfo.matchQueries_sent sockeq).1 q
  | @count _ _ r _ =>
      unfold ThreadInfo.sentAt
      rw [(complete_lists c.tinfo r).2.2]

theorem awaits_congr {place : SenderAt} {t t' : ThreadInfo} {now : Nat}
    (hsame : ∀ q, t'.sentAt q = t.sentAt q) (h : place.Awaits t now) : place.Awaits t' now := by
  cases place with
  | input q | undo q | clock q => exact (hsame q).trans h
  | stamp q => exact ⟨(hsame q).trans h.1, fun x => hsame x ▸ h.2 x⟩
  | _ => trivial

theorem inOrder_receives (h : InOrder c) {step : ReceiverStep}
    (hreceives : Receives cfg c step c') :
    InOrder c' := by
  obtain ⟨hsender, hvars, hclock, -⟩ := hreceives.frame
  have hsame := hreceives.sentAt
  have hsub := (fewer_receives hreceives).1.sublist
  refine ⟨hclock.trans_lt h.clock, ?_, fun q => ?_, h.order.fewer hsub hsame,
    fun q hq hmax => ?_, ?_⟩
  · rw [hvars, hclock]
    exact h.senderNow
  · rw [hsame, hclock]
    exact h.past q
  · rw [hsender]
    exact h.sent q (hsub.subset hq) ((hsame q).symm.trans hmax)
  · rw [hsender, hvars]
    exact awaits_congr hsame h.awaits

theorem InOrder.tick (h : InOrder c) {now : Nat} (hle : c.clock ≤ now) (hnow : now < uint64Max) :
    InOrder { c with clock := now } where
  clock := hnow
  senderNow := h.senderNow.trans hle
  past := fun q => (h.past q).imp_right fun hq => hq.trans hle
  order := h.order
  sent := h.sent
  awaits := h.awaits

theorem inOrder_nextFine (cfg : Config) (c : Pair) (step : FineStep) (c' : Pair)
    (h : Mirrored c ∧ InOrder c) (hstep : Guarded KeepsOrder (StepOf (nextFine cfg)) c step c') :
    Mirrored c' ∧ InOrder c' := by
  obtain ⟨hmirrored, h⟩ := h
  obtain ⟨hkeeps, hstep⟩ := hstep
  refine ⟨mirrored_nextFine cfg c step c' hmirrored hstep, ?_⟩
  obtain ⟨-, e, -, he⟩ := hmirrored.lists
  cases moves_of_nextFine hstep with
  | sender hsends => exact inOrder_sends h he hkeeps hsends
  | receiver hreceives => exact inOrder_receives h hreceives
  | tick hle hnow => exact h.tick hle hnow
  | interrupt | glimpse => exact ⟨h.clock, h.senderNow, h.past, h.order, h.sent, h.awaits⟩
  | @sent qid now hat hnow =>
      have hflushed : ThreadInfo.Flushed now (· = qid) c.tinfo (c.tinfo.perfNetSent now qid) :=
        .sent rfl (.refl _)
      refine h.flush he hflushed hnow (fun qid' hqid' => hqid' ▸ hkeeps) h.senderNow
        (fun q hq => hq) ?_
      cases hplace : c.sender <;> first | trivial | (rw [hplace] at hat; cases hat)

end Pair

/-- `do_recv` is in `process_timeouts`. -/
def ReceiverAt.inProcessTimeouts : ReceiverAt → Bool
  | .timeouts | .expire _ => true
  | _ => false

/-- **`process_timeouts` misses no query that has timed out**, in every run in which
`perf__net_sent` keeps the order: the timestamps never increase from head to tail, and whenever
`process_timeouts` returns nothing on the list has timed out. -/
theorem process_timeouts_complete (cfg : Config) (htimeout : 0 < cfg.timeout) (now : Nat)
    (hnow : now < uint64Max) (steps : List Pair.FineStep) (c : Pair)
    (hrun : Run (Guarded Pair.KeepsOrder (StepOf (Pair.nextFine cfg))) (Pair.start now) steps c) :
    c.tinfo.Ordered ∧
      ∀ (step : ReceiverStep) (c' : Pair), c.nextReceiver cfg step = some c' →
        c.receiver.inProcessTimeouts = true → c'.receiver = .check →
        ∀ q ∈ c'.tinfo.outstanding, ¬ c'.tinfo.Expired cfg c.receiverNow q := by
  obtain ⟨hmirrored, h⟩ := hrun.invariant (Pair.inOrder_nextFine cfg)
    ⟨Pair.mirrored_start now, Pair.inOrder_start hnow⟩
  obtain ⟨-, e, -, he⟩ := hmirrored.lists
  refine ⟨h.order, fun step c' hstep hin hcheck => ?_⟩
  -- only two steps of `process_timeouts` lead out of it
  cases step with
  | timeouts =>
      cases hat : c.receiver with
      | timeouts =>
          simp only [Pair.nextReceiver, hat, Option.some.injEq] at hstep
          rw [← hstep] at hcheck ⊢
          cases htail : c.tinfo.expiredTail cfg c.receiverNow with
          | none => exact h.order.none_expired_of_expiredTail htail
          | some q =>
              rw [htail] at hcheck
              cases hcheck
      | _ => simp [Pair.nextReceiver, hat] at hstep
  | expire =>
      cases hat : c.receiver with
      | expire q =>
          simp only [Pair.nextReceiver, hat, Option.some.injEq] at hstep
          rw [← hstep]
          obtain ⟨e', -, he'⟩ := he.timeoutQuery (hmirrored.receiver q hat)
          exact (ThreadInfo.ordered_timeoutQuery h.order q).none_expired_timeoutTail he' htimeout
            le_rfl
      | _ => simp [Pair.nextReceiver, hat] at hstep
  | _ => cases hat : c.receiver <;> simp [Pair.nextReceiver, hat,
      ReceiverAt.inProcessTimeouts] at hstep hin

namespace Pair

/-- As `oneSocket`, with another one. -/
def twoSockets : Config := { oneSocket with nsocks := 2 }

/-- Query 0 is sent at 1000 and query 1 at 1500, on sockets of their own. `delayed` is the one that
is written with a delay, at 2000. -/
def delayOne (delayed : UInt16) : List Step :=
  let first : SenderStep := .send (if delayed = 0 then .error .einprogress else .ok 29)
  let second : SenderStep := .send (if delayed = 0 then .ok 29 else .error .einprogress)
  List.flatten [stampQuery, [.sender first, .sender .count, .tick 1500],
    [.loop, .throttle, .flush [⟨0, []⟩], .limit, .lock [⟨1, []⟩], .input (.built 29),
      .clock, .stamp, second, .count].map .sender,
    [.tick 2000, .sender .loop, .sender .throttle, .sender (.flush [⟨1, [delayed]⟩])]]

/-- `do_recv` gets to `process_timeouts` when the second query has timed out with its first
timestamp, but not with its second one. -/
def lateTimeouts : List Step :=
  .tick 5001700 :: receiveRound [] ++ [.receiver .loop]

end Pair

/-- The query of 1500 is delayed. The other one times out, and is taken off. -/
theorem process_timeouts_complete_delayed :
    ∃ c c' : Pair, c.nextReceiver Pair.twoSockets .expire = some c' ∧
      c.tinfo.outstanding = [1, 0] ∧ c'.tinfo.outstanding = [1] ∧ c.tinfo.Ordered ∧
      ∀ q ∈ c'.tinfo.outstanding, ¬ c'.tinfo.Expired Pair.twoSockets c.receiverNow q := by
  obtain ⟨c, hrun, hend⟩ := Run.exists_of_follow Pair.KeepsOrder (Pair.nextFine Pair.twoSockets)
    (Pair.start 1000)
    ((Pair.delayOne 1 ++ Pair.lateTimeouts ++ [Pair.Step.receiver .timeouts]).map .step)
    (fun c => c.receiver = .expire 0 ∧ c.tinfo.outstanding = [1, 0] ∧
      (c.nextReceiver Pair.twoSockets .expire).any fun c' =>
        c'.tinfo.outstanding = [1] ∧ c'.receiver = .check)
    (by decide)
  obtain ⟨hat, hout, hnext⟩ := of_decide_eq_true hend
  obtain ⟨c', hc', hend'⟩ := (Option.any_eq_true _ _).mp hnext
  obtain ⟨hout', hcheck⟩ := of_decide_eq_true hend'
  obtain ⟨hordered, hnone⟩ :=
    process_timeouts_complete Pair.twoSockets (by decide) 1000 (by decide) _ c hrun
  exact ⟨c, c', hc', hout, hout', hordered, hnone .expire c' hc' (by rw [hat]; rfl) hcheck⟩

/-- **A query that has timed out stays on the list**: the query of 1000 is written with a delay, and
its timestamp of 2000 hides the one of 1500. -/
theorem process_timeouts_misses :
    ∃ steps c, Run (StepOf (Pair.nextFine Pair.twoSockets)) (Pair.start 1000)
        (steps ++ [.step (.receiver .timeouts)]) c ∧
      c.receiver = .check ∧ c.tinfo.outstanding = [1, 0] ∧
      c.tinfo.Expired Pair.twoSockets c.receiverNow 1 := by
  obtain ⟨c, hrun, hend⟩ := Run.exists_of_follow (fun _ _ => True) (Pair.nextFine Pair.twoSockets)
    (Pair.start 1000)
    ((Pair.delayOne 0 ++ Pair.lateTimeouts).map .step ++ [.step (.receiver .timeouts)])
    (fun c => c.receiver = .check ∧ c.tinfo.outstanding = [1, 0] ∧
      c.tinfo.Expired Pair.twoSockets c.receiverNow 1)
    (by decide)
  exact ⟨_, c, hrun.mono fun _ _ _ hstep => hstep.2, of_decide_eq_true hend⟩

end Dnsperf.Thread
