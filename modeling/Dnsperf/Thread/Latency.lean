import Dnsperf.Thread.Fine

/-!
# Dnsperf.Thread.Latency

**A recorded latency is the time that has passed.** `recv_one` stamps a packet when it
arrives; the locked loop of `do_recv` looks up when the query was sent, later. A timestamp
that is stored in between is later than the packet's, and the difference wraps. That
happens

* to a delayed query: it has been written, and is answered, before `perf__net_sent` stores
  the time;
* to a query id in a new use, if the packet answers an old one.

`Pair.Prompt` excludes both: no query gets a timestamp later than a packet that has its id
and waits to be looked up.
-/

namespace Dnsperf.Thread

open Dnsperf.Lib Dnsperf.Net

/-- The time a query was sent at. -/
def ThreadInfo.sentAt (t : ThreadInfo) (q : Nat) : Nat := (t.queries q).timestamp

namespace Pair

variable {cfg : Config} {c c' : Pair}

/-- No packet that waits to be looked up and has the id of `q` is older than `now`. -/
def NoEarlier (c : Pair) (q now : Nat) : Prop :=
  ∀ r ∈ c.receiver.fresh, r.qid.toNat = q → now ≤ r.when

instance (c : Pair) (q now : Nat) : Decidable (c.NoEarlier q now) := by
  unfold NoEarlier
  infer_instance

/-- If `perf__net_sent` stores a timestamp of `now`, it is in time. It stores none for a query that
has none yet. -/
def PromptSent (c : Pair) (q now : Nat) : Prop :=
  c.tinfo.sentAt q ≠ uint64Max → c.NoEarlier q now

instance (c : Pair) (q now : Nat) : Decidable (c.PromptSent q now) :=
  inferInstanceAs (Decidable (_ → _))

/-- The queries that `calls` finish writing get their timestamps in time. The one that is being
`taken` has lost its own. -/
def PromptCalls (c : Pair) (taken : Option Nat) (calls : List ThreadInfo.SockreadyCall) : Prop :=
  ∀ call ∈ calls, ∀ qid ∈ call.sent, taken ≠ some qid.toNat → c.PromptSent qid.toNat c.clock

instance (c : Pair) (taken : Option Nat) (calls : List ThreadInfo.SockreadyCall) :
    Decidable (c.PromptCalls taken calls) :=
  -- go through the ids of the calls, not through all ids
  @List.decidableBAll ThreadInfo.SockreadyCall
    (fun call => ∀ qid ∈ call.sent, taken ≠ some qid.toNat → c.PromptSent qid.toNat c.clock)
    (fun call => List.decidableBAll
      (fun qid => taken ≠ some qid.toNat → c.PromptSent qid.toNat c.clock) call.sent) calls

/-- The query that `do_send` stamps at `place` gets its timestamp in time. -/
def PromptStamp (c : Pair) : SenderAt → Prop
  | .stamp q _ _ => c.NoEarlier q c.vars.now
  | _ => True

instance (c : Pair) (place : SenderAt) : Decidable (c.PromptStamp place) :=
  match place with
  | .stamp q _ _ => inferInstanceAs (Decidable (c.NoEarlier q c.vars.now))
  | .top | .throttle | .flush | .limit | .again | .lock | .input _ _ | .undo _ | .clock _ _ _
  | .send _ _ _ | .count _ _ | .failed _ | .drain | .done | .fatal => isTrue trivial

/-- A timestamp is stored before the answer to its query arrives. -/
def Prompt (c : Pair) : FineStep → Prop
  | .step (.sender .stamp) => c.PromptStamp c.sender
  | .step (.sender (.flush calls)) => c.PromptCalls none calls
  | .step (.sender (.lock calls)) => c.PromptCalls c.tinfo.unused.head? calls
  | .step (.sender (.drain calls)) => c.PromptCalls none calls
  | .sent qid now => c.PromptSent qid.toNat now
  | _ => True

instance (c : Pair) : (step : FineStep) → Decidable (c.Prompt step)
  | .step (.sender .stamp) => inferInstanceAs (Decidable (c.PromptStamp c.sender))
  | .step (.sender (.flush calls)) | .step (.sender (.drain calls)) =>
      inferInstanceAs (Decidable (c.PromptCalls none calls))
  | .step (.sender (.lock calls)) =>
      inferInstanceAs (Decidable (c.PromptCalls c.tinfo.unused.head? calls))
  | .sent qid now => inferInstanceAs (Decidable (c.PromptSent qid.toNat now))
  | .step (.sender .loop) | .step (.sender .throttle) | .step (.sender .limit)
  | .step (.sender .again) | .step (.sender (.input _)) | .step (.sender .undo)
  | .step (.sender .clock) | .step (.sender (.send _)) | .step (.sender .count)
  | .step (.sender .rollback) | .step (.receiver _) | .step (.tick _) | .step .interrupt
  | .glimpse _ => isTrue trivial

end Pair

/-! ### Timestamps -/

namespace ThreadInfo

variable {t t' t'' : ThreadInfo} {now : Nat} {P : Nat → Prop}

/-- Where `t'` has another timestamp than `t`, there is none, or it is `now` and the query
meets `P`. -/
def Restamped (now : Nat) (P : Nat → Prop) (t t' : ThreadInfo) : Prop :=
  ∀ q, t'.sentAt q = t.sentAt q ∨ t'.sentAt q = uint64Max ∨ t'.sentAt q = now ∧ P q

theorem Restamped.of_eq (h : ∀ q, t'.sentAt q = t.sentAt q) : Restamped now P t t' :=
  fun q => Or.inl (h q)

theorem Restamped.trans (h : Restamped now P t t') (h' : Restamped now P t' t'') :
    Restamped now P t t'' := by
  intro q
  rcases h' q with heq | hnew
  · rw [heq]
    exact h q
  · exact Or.inr hnew

theorem sentAt_setTimestamp (t : ThreadInfo) (q now q' : Nat) :
    (t.setTimestamp q now).sentAt q' = if q' = q then now else t.sentAt q' :=
  (setTimestamp_query now q').2.2

theorem sentAt_queryMove (t : ThreadInfo) (q : Nat) (op : QueryMoveOp) (q' : Nat) :
    (t.queryMove q op).sentAt q' = t.sentAt q' :=
  t.queryMove_timestamp q op q'

theorem sentAt_setSock (t : ThreadInfo) (q : Nat) (sock : Option Nat) (q' : Nat) :
    (t.setSock q sock).sentAt q' = t.sentAt q' := by
  by_cases hq : q' = q <;> simp [sentAt, setSock, setQuery, hq]

/-- A timestamp is only stored for a query that has one. -/
theorem perfNetSent_restamped (t : ThreadInfo) (now : Nat) (qid : UInt16) :
    Restamped now (fun q => q = qid.toNat ∧ t.sentAt q ≠ uint64Max) t (t.perfNetSent now qid) := by
  intro q
  unfold perfNetSent
  split_ifs with hstamped
  · rw [sentAt_setTimestamp]
    split_ifs with hq
    · exact Or.inr (Or.inr ⟨rfl, hq, hq ▸ hstamped⟩)
    · exact Or.inl rfl
  · exact Or.inl rfl

/-- Whatever `perf_net_sockready` is called for, a query without a timestamp stays without. -/
theorem Flushed.restamped {P : UInt16 → Prop} (h : Flushed now P t t') :
    Restamped now (fun q => (∃ qid, P qid ∧ qid.toNat = q) ∧ t.sentAt q ≠ uint64Max) t t' := by
  induction h with
  | refl t => exact .of_eq fun _ => rfl
  | @sent t t' qid hqid _ ih =>
      intro q
      have hsent := t.perfNetSent_restamped now qid q
      rcases ih q with heq | hmax | ⟨hnow, hP, hstamped⟩
      · rw [heq]
        exact hsent.imp_right (Or.imp_right fun ⟨hnow, hq, hne⟩ =>
          ⟨hnow, ⟨qid, hqid, hq.symm⟩, hne⟩)
      · exact Or.inr (Or.inl hmax)
      · rcases hsent with heq | hmax | ⟨-, -, hne⟩
        · exact Or.inr (Or.inr ⟨hnow, hP, heq ▸ hstamped⟩)
        · exact absurd hmax hstamped
        · exact Or.inr (Or.inr ⟨hnow, hP, hne⟩)
  | tried currentSock _ ih => exact ih

theorem sentAt_take (t : ThreadInfo) (q q' : Nat) :
    (t.take q).sentAt q' = if q' = q then uint64Max else t.sentAt q' := by
  by_cases hq : q' = q <;> simp [sentAt, take, setQuery, hq]

theorem restamped_acquire {calls : List SockreadyCall} {acquired : Acquired}
    (hacquire : t.acquire cfg now calls = some (acquired, t')) :
    Restamped now (fun q => (∃ qid, Finished calls qid ∧ qid.toNat = q) ∧
      t.unused.head? ≠ some q ∧ t.sentAt q ≠ uint64Max) t t' := by
  rcases acquire_cases hacquire with ⟨-, -, rfl⟩ | ⟨-, q, rest, t₁, hunused, hflushed, hcases⟩
  · exact .of_eq fun _ => rfl
  · have hstamps : Restamped now (fun q => (∃ qid, Finished calls qid ∧ qid.toNat = q) ∧
        t.unused.head? ≠ some q ∧ t.sentAt q ≠ uint64Max) t t₁ := by
      intro q'
      have hsent := hflushed.restamped q'
      dsimp only at hsent ⊢
      rw [sentAt_take] at hsent
      rw [hunused, List.head?_cons, ne_eq, Option.some.injEq]
      by_cases hq : q' = q
      · rw [if_pos hq] at hsent
        exact Or.inr (Or.inl (hsent.elim id (Or.elim · id fun h => absurd rfl h.2.2)))
      · rw [if_neg hq] at hsent
        exact hsent.imp_right (Or.imp_right fun ⟨hnow, hP, hne⟩ => ⟨hnow, hP, Ne.symm hq, hne⟩)
    rcases hcases with ⟨-, rfl⟩ | ⟨-, rfl⟩ | ⟨sock, -, rfl⟩
    · exact hstamps
    · refine hstamps.trans (.of_eq fun q' => ?_)
      rw [sentAt_queryMove, sentAt_setSock]
    · exact hstamps.trans (.of_eq fun q' => sentAt_setSock t₁ q _ q')

theorem sentAt_timeoutTail (cfg : Config) (now n : Nat) (t : ThreadInfo) (q : Nat) :
    (timeoutTail cfg now n t).sentAt q = t.sentAt q :=
  timeoutTail_invariant (I := fun t' => t'.sentAt q = t.sentAt q) cfg n
    (fun t' q' h _ _ => (t'.sentAt_queryMove q' .appendUnused q).trans h) rfl

theorem sentAt_processTimeouts (cfg : Config) (now q : Nat) (t : ThreadInfo) (q' : Nat) :
    (t.processTimeouts cfg now q).sentAt q' = t.sentAt q' := by
  unfold processTimeouts
  rw [sentAt_timeoutTail]
  exact t.sentAt_queryMove q .appendUnused q'

theorem matchQueries_sent (sockeq : Nat → Nat → Bool) {rs : List ReceivedQuery} {t : ThreadInfo} :
    (∀ q, (matchQueries sockeq rs t).2.sentAt q = t.sentAt q) ∧
      ∀ r ∈ (matchQueries sockeq rs t).1, r.matched = true → ∃ r₀ ∈ rs, r.when = r₀.when ∧
        r.sent = t.sentAt r₀.qid.toNat ∧ t.sentAt r₀.qid.toNat ≠ uint64Max := by
  induction rs generalizing t with
  | nil => exact ⟨fun _ => rfl, fun r hr => absurd hr List.not_mem_nil⟩
  | cons r₀ rs ih =>
      obtain ⟨htail, hmatched⟩ := @ih (t.matchQuery sockeq r₀).2
      have hsame : ∀ q, (t.matchQuery sockeq r₀).2.sentAt q = t.sentAt q := by
        intro q
        rcases t.matchQuery_cases sockeq r₀ with ⟨-, hsame⟩ | ⟨-, -, -, heq⟩
        · rw [hsame]
        · rw [heq]
          exact t.sentAt_queryMove r₀.qid.toNat .appendUnused q
      refine ⟨fun q => (htail q).trans (hsame q), ?_⟩
      intro r hr hm
      rw [matchQueries_cons] at hr
      rcases List.mem_cons.mp hr with hhead | hrest
      · rcases t.matchQuery_cases sockeq r₀ with ⟨hnot, -⟩ | ⟨-, hstamped, -, heq⟩
        · rw [hhead, hnot] at hm
          exact nomatch hm
        · rw [heq] at hhead
          rw [hhead]
          exact ⟨r₀, List.mem_cons_self, rfl, rfl, of_decide_eq_true hstamped⟩
      · obtain ⟨r₁, hmem, hwhen, hsent, hne⟩ := hmatched r hrest hm
        rw [hsame] at hsent hne
        exact ⟨r₁, List.mem_cons_of_mem r₀ hmem, hwhen, hsent, hne⟩

end ThreadInfo

/-! ### What holds between steps -/

namespace Pair

variable {cfg : Config} {c c' : Pair}

/-- What every prompt step keeps. -/
structure Timely (c : Pair) : Prop where
  clock : c.clock < uint64Max
  senderNow : c.vars.now ≤ c.clock
  /-- No query was sent in the future. -/
  past : ∀ q, c.tinfo.sentAt q = uint64Max ∨ c.tinfo.sentAt q ≤ c.clock
  /-- Nor after a packet that has its id. -/
  fresh : ∀ r ∈ c.receiver.fresh, r.when ≤ c.clock ∧
    (c.tinfo.sentAt r.qid.toNat = uint64Max ∨ c.tinfo.sentAt r.qid.toNat ≤ r.when)
  pending : ∀ r ∈ c.receiver.pending, r.sent ≤ r.when ∧ r.when < uint64Max

theorem timely_start {now : Nat} (hnow : now < uint64Max) : Timely (start now) where
  clock := hnow
  senderNow := Nat.le_refl now
  past := fun _ => Or.inr (Nat.zero_le now)
  fresh := fun _ hr => absurd hr List.not_mem_nil
  pending := fun _ hr => absurd hr List.not_mem_nil

theorem Timely.send (h : Timely c) {t : ThreadInfo} {place : SenderAt} {vars : SenderVars}
    {now : Nat} {P : Nat → Prop} (hstamps : ThreadInfo.Restamped now P c.tinfo t)
    (hnow : now ≤ c.clock) (hprompt : ∀ q, P q → c.NoEarlier q now)
    (hvars : vars.now ≤ c.clock) :
    Timely { c with tinfo := t, sender := place, vars := vars } where
  clock := h.clock
  senderNow := hvars
  past := by
    intro q
    rcases hstamps q with heq | hmax | ⟨heq, -⟩
    · rw [heq]
      exact h.past q
    · exact Or.inl hmax
    · exact Or.inr (heq ▸ hnow)
  fresh := by
    intro r hr
    obtain ⟨hwhen, hsent⟩ := h.fresh r hr
    refine ⟨hwhen, ?_⟩
    rcases hstamps r.qid.toNat with heq | hmax | ⟨heq, hP⟩
    · rw [heq]
      exact hsent
    · exact Or.inl hmax
    · exact Or.inr (heq ▸ hprompt _ hP r hr rfl)
  pending := h.pending

theorem Timely.sendAt (h : Timely c) {t : ThreadInfo} {place : SenderAt} {vars : SenderVars}
    (hsame : ∀ q, t.sentAt q = c.tinfo.sentAt q) (hvars : vars.now ≤ c.clock) :
    Timely { c with tinfo := t, sender := place, vars := vars } :=
  h.send (P := fun _ => False) (.of_eq hsame) (Nat.le_refl _) (fun _ hP => hP.elim) hvars

theorem PromptCalls.noEarlier {taken : Option Nat} {calls : List ThreadInfo.SockreadyCall}
    (h : c.PromptCalls taken calls) {q : Nat} (hq : ∃ qid, Finished calls qid ∧ qid.toNat = q)
    (htaken : taken ≠ some q) (hstamped : c.tinfo.sentAt q ≠ uint64Max) :
    c.NoEarlier q c.clock := by
  obtain ⟨qid, ⟨call, hcall, hqid⟩, rfl⟩ := hq
  exact h call hcall qid hqid htaken hstamped

theorem timely_sends (h : Timely c) {step : SenderStep}
    (hprompt : c.Prompt (.step (.sender step))) (hsends : Sends cfg c step c') : Timely c' := by
  have hle := h.senderNow
  cases hsends with
  | loop _ | stop _ | eof _ | unbuilt _ | built _ | failed _ | done _ =>
      exact h.sendAt (fun _ => rfl) hle
  | throttle _ hnow =>
      exact h.sendAt (fun _ => rfl) (hnow.elim (fun hnow => hnow.trans_le hle) fun hnow => hnow.le)
  | limit _ hnow | wait _ hnow | sent _ hnow | count _ hnow =>
      exact h.sendAt (fun _ => rfl) (hnow.trans_le hle)
  | again _ hnow | clock _ hnow => exact h.sendAt (fun _ => rfl) hnow.le
  | flush _ hflushed hnow | drain _ hflushed hnow =>
      exact h.send hflushed.restamped (Nat.le_refl _)
        (fun q hq => PromptCalls.noEarlier hprompt hq.1 nofun hq.2) (hnow.trans_le hle)
  | lock _ hacquire =>
      exact h.send (ThreadInfo.restamped_acquire hacquire) (Nat.le_refl _)
        (fun q hq => PromptCalls.noEarlier hprompt hq.1 hq.2.1 hq.2.2) hle
  | undo _ => exact h.sendAt (ThreadInfo.sentAt_queryMove _ _ _) hle
  | @stamp q _ _ hat =>
      simp only [Prompt, PromptStamp, hat] at hprompt
      refine h.send (P := (· = q)) (fun q' => ?_) hle (fun q' hq' => hq' ▸ hprompt) hle
      rw [ThreadInfo.sentAt_setTimestamp]
      split_ifs with hq
      · exact Or.inr (Or.inr ⟨rfl, hq⟩)
      · exact Or.inl rfl
  | rollback _ => exact h.sendAt (ThreadInfo.sentAt_queryMove c.tinfo _ .prependUnused) hle

theorem Timely.receive (h : Timely c) {t : ThreadInfo} {place : ReceiverAt} {now : Nat}
    (hsame : ∀ q, t.sentAt q = c.tinfo.sentAt q)
    (hfresh : ∀ r ∈ place.fresh, r ∈ c.receiver.fresh ∨ r.when = c.clock)
    (hpending : ∀ r ∈ place.pending, r.sent ≤ r.when ∧ r.when < uint64Max) :
    Timely { c with tinfo := t, receiver := place, receiverNow := now } where
  clock := h.clock
  senderNow := h.senderNow
  past := fun q => hsame q ▸ h.past q
  fresh := by
    intro r hr
    rw [hsame]
    rcases hfresh r hr with hold | hnew
    · exact h.fresh r hold
    · rw [hnew]
      exact ⟨Nat.le_refl _, h.past _⟩
  pending := hpending

theorem Timely.recvAt (h : Timely c) {place : ReceiverAt}
    (hfresh : ∀ r ∈ place.fresh, r ∈ c.receiver.fresh ∨ r.when = c.clock)
    (hpending : place.pending = []) : Timely (c.recvAt place) :=
  h.receive (fun _ => rfl) hfresh (by rw [hpending]; exact fun _ hr => absurd hr List.not_mem_nil)

theorem Timely.lookUp (h : Timely c) (sockeq : Nat → Nat → Bool) {recvd : List ReceivedQuery}
    (hat : c.receiver = .lock recvd) :
    ∀ r ∈ (ThreadInfo.matchQueries sockeq recvd c.tinfo).1, r.matched = true →
      r.sent ≤ r.when ∧ r.when < uint64Max := by
  intro r hr hm
  obtain ⟨r₀, hmem, hwhen, hsent, hne⟩ := (ThreadInfo.matchQueries_sent sockeq).2 r hr hm
  obtain ⟨hclock, htime⟩ := h.fresh r₀ (by rw [hat]; exact hmem)
  rw [hsent, hwhen]
  exact ⟨htime.resolve_left hne, Nat.lt_of_le_of_lt hclock h.clock⟩

theorem timely_receives (h : Timely c) {step : ReceiverStep}
    (hreceives : Receives cfg c step c') : Timely c' := by
  have hnone : ∀ r ∈ ([] : List ReceivedQuery), r ∈ c.receiver.fresh ∨ r.when = c.clock :=
    fun _ hr => absurd hr List.not_mem_nil
  cases hreceives with
  | loop _ | interrupted _ _ | timeouts _ | expired _ _ | check _ | done _ _ _ =>
      exact h.recvAt hnone rfl
  | expire _ =>
      exact h.receive (ThreadInfo.sentAt_processTimeouts cfg _ _ _) hnone
        fun _ hr => absurd hr List.not_mem_nil
  | packet hat =>
      refine h.recvAt (fun r hr => ?_) rfl
      rcases List.mem_append.mp hr with hold | hnew
      · exact Or.inl (by rw [hat]; exact hold)
      · exact Or.inr (by rw [List.mem_singleton.mp hnew]; rfl)
  | batch hat => exact h.recvAt (fun r hr => Or.inl (by rw [hat]; exact hr)) rfl
  | @lock _ sockeq hat =>
      refine h.receive (ThreadInfo.matchQueries_sent sockeq).1 hnone fun r hr => ?_
      obtain ⟨hmem, hm⟩ := List.mem_filter.mp hr
      exact h.lookUp sockeq hat r hmem hm
  | @count _ _ r hat =>
      have hpending := h.pending
      rw [hat] at hpending
      refine h.receive (fun q => ?_) hnone fun r' hr' => ?_
      · unfold ThreadInfo.complete
        split_ifs <;> rfl
      · obtain ⟨hmem, hm⟩ := List.mem_filter.mp hr'
        exact hpending r' (List.mem_filter.mpr ⟨List.mem_cons_of_mem r hmem, hm⟩)
  | again _ _ =>
      exact h.receive (fun _ => rfl) hnone fun _ hr => absurd hr List.not_mem_nil

theorem Timely.tick (h : Timely c) {now : Nat} (hle : c.clock ≤ now) (hnow : now < uint64Max) :
    Timely { c with clock := now } where
  clock := hnow
  senderNow := h.senderNow.trans hle
  past := fun q => (h.past q).imp_right fun hq => hq.trans hle
  fresh := fun r hr => ⟨(h.fresh r hr).1.trans hle, (h.fresh r hr).2⟩
  pending := h.pending

theorem timely_nextFine (cfg : Config) (c : Pair) (step : FineStep) (c' : Pair) (h : Timely c)
    (hstep : Guarded Prompt (StepOf (nextFine cfg)) c step c') : Timely c' := by
  obtain ⟨hprompt, hstep⟩ := hstep
  cases moves_of_nextFine hstep with
  | sender hsends => exact timely_sends h hprompt hsends
  | receiver hreceives => exact timely_receives h hreceives
  | tick hle hnow => exact h.tick hle hnow
  | interrupt => exact ⟨h.clock, h.senderNow, h.past, h.fresh, h.pending⟩
  | @sent qid now _ hnow =>
      refine h.send (c.tinfo.perfNetSent_restamped now qid) hnow (fun q hq => ?_) h.senderNow
      obtain ⟨rfl, hstamped⟩ := hq
      exact hprompt hstamped
  | glimpse => exact h.recvAt (fun _ hr => absurd hr List.not_mem_nil) rfl

end Pair

/-! ### Latencies -/

theorem ReceivedQuery.latency_eq {r : ReceivedQuery} (hsent : r.sent ≤ r.when)
    (hwhen : r.when < uint64Max) : r.latency = r.when - r.sent := by
  unfold latency
  unfold uint64Max at hwhen
  omega

/-- **A recorded latency is the time that has passed**: in every prompt run, for every
response `do_recv` has matched and is about to count. -/
theorem pair_latency (cfg : Config) (now : Nat) (hnow : now < uint64Max)
    (steps : List Pair.FineStep) (c : Pair)
    (hrun : Run (Guarded Pair.Prompt (StepOf (Pair.nextFine cfg))) (Pair.start now) steps c) :
    ∀ r ∈ c.receiver.pending, r.sent ≤ r.when ∧ r.latency = r.when - r.sent := by
  intro r hr
  have htimely := hrun.invariant (Pair.timely_nextFine cfg) (Pair.timely_start hnow)
  obtain ⟨hsent, hwhen⟩ := htimely.pending r hr
  exact ⟨hsent, ReceivedQuery.latency_eq hsent hwhen⟩

namespace Pair

/-- A query is sent with a delay, and the next round of `do_send` gets to
`perf_net_sockready`. -/
def delayedQuery : List FineStep :=
  stampQuery.map .step ++
    [SenderStep.send (.error .einprogress), .count, .loop, .throttle].map (.step <| .sender ·)

/-- `do_recv` up to the packets it has received. -/
def receivePackets (packets : List Bytes) : List FineStep :=
  ([ReceiverStep.loop, .timeouts, .check] ++ packets.map (ReceiverStep.packet 0)).map
    (.step <| .receiver ·)

/-- `do_recv` looks the packets up. -/
def lookUp : List FineStep :=
  [.step (.receiver .batch), .step (.receiver (.lock fun a b => a == b))]

end Pair

/-- A delayed query is written at 1500, and answered at 2000. -/
theorem pair_latency_delayed :
    ∃ c : Pair, ∃ r ∈ c.receiver.pending, r.sent = 1500 ∧ r.when = 2000 ∧
      r.sent ≤ r.when ∧ r.latency = r.when - r.sent := by
  obtain ⟨c, hrun, hend⟩ := Run.exists_of_follow Pair.Prompt (Pair.nextFine Pair.oneSocket)
    (Pair.start 1000)
    (List.flatten [Pair.delayedQuery, [.step (.tick 1500), .sent 0 1500, .step (.tick 2000)],
      Pair.receivePackets [[0, 0, 128, 0]], Pair.lookUp])
    (fun c => c.receiver.pending = [⟨0, 0, 0, 4, 2000, 1500, false, false, 0⟩])
    (by decide)
  have hpending := of_decide_eq_true hend
  have hmem : ⟨0, 0, 0, 4, 2000, 1500, false, false, 0⟩ ∈ c.receiver.pending := by
    rw [hpending]
    exact List.mem_singleton_self _
  exact ⟨c, _, hmem, rfl, rfl, pair_latency Pair.oneSocket 1000 (by decide) _ c hrun _ hmem⟩

/-- **A latency of nearly `2^64`**: the query has been written and is answered at 2000,
`perf__net_sent` reads the clock at 3000, and only then the response is looked up. -/
theorem pair_latency_wraps :
    ∃ steps c, Run (StepOf (Pair.nextFine Pair.oneSocket)) (Pair.start 1000) steps c ∧
      c.tinfo.stats.numCompleted = 1 ∧ c.tinfo.stats.latencySum = 2 ^ 64 - 1000 := by
  obtain ⟨c, hrun, hend⟩ := Run.exists_of_follow (fun _ _ => True) (Pair.nextFine Pair.oneSocket)
    (Pair.start 1000)
    (List.flatten [Pair.delayedQuery, [.step (.tick 2000)],
      Pair.receivePackets [[0, 0, 128, 0]], [.step (.tick 3000), .sent 0 3000],
      Pair.lookUp, [.step (.receiver .count)]])
    (fun c => c.tinfo.stats.numCompleted = 1 ∧ c.tinfo.stats.latencySum = 2 ^ 64 - 1000)
    (by decide)
  obtain ⟨hcompleted, hsum⟩ := of_decide_eq_true hend
  exact ⟨_, c, hrun.mono fun _ _ _ hstep => hstep.2, hcompleted, hsum⟩

end Dnsperf.Thread
