import Dnsperf.Resperf.Integers

/-!
# Dnsperf.Resperf.Changes

**What an iteration of the main loop can do.** `Settle` lists the changes that callbacks, responses
and timeouts make, and `Change` adds those of sending and of the phases, each with what the code has
checked before it. An iteration is a sequence of changes (`next_changes`), and then the clock is
read. What all changes keep, the main loop keeps (`next_invariant`).

Two of them need a transport that goes on sending after `perf_net_sendto` has returned, `late`.
-/

namespace Dnsperf.Resperf

open Relation Dnsperf.Lib Dnsperf.Stats

/-- The last time at which a query may have been sent. -/
def State.lastSend (s : State) : Nat := if s.phase = .wait then s.waitPhaseBegan else s.timeNow

/-- A change by a callback, a response or a timeout. -/
inductive Settle (c : Setup) (late : Prop) : State → State → Prop
  | attempt {s : State} : Settle c late s { s with numConnAttempts := s.numConnAttempts + 1 }
  | connection {s : State} :
      Settle c late s { s.atBucket (c.findBucket s.timeNow) RampBucket.connection with
        numConnCompleted := s.numConnCompleted + 1 }
  /-- `perf__net_sent`. -/
  | completed {s : State} {q : Nat} : late → q < c.maxOutstanding →
      Settle c late s (((s.atBucket (c.findBucket s.timeNow) RampBucket.query).setSentTimestamp q
        s.timeNow).record (.completed q (s.queries q)))
  | respond {s : State} {q : Nat} (rcode : Fin 16) : q < c.maxOutstanding →
      (s.queries q).list = .outstanding → Settle c late s (c.respond s q rcode)
  /-- The response has an unexpected id. -/
  | reject {s : State} {q : Nat} :
      (q < c.maxOutstanding → (s.queries q).list ≠ .outstanding) →
      Settle c late s (s.record (.rejected q (s.queries q)))
  | expire {s : State} {q : Nat} : q ∈ s.outstanding → Settle c late s (s.expire q)
  /-- The next socket. -/
  | sock {s : State} (n : Nat) : Settle c late s { s with currentSock := n }

/-- A change of the state. -/
inductive Change (c : Setup) (late : Prop) : State → State → Prop
  | settle {s s' : State} : Settle c late s s' → Change c late s s'
  /-- A query is about to be sent. -/
  | stamp {s : State} {q : Nat} : s.instanding.head? = some q →
      Change c late s (s.setSentTimestamp q s.timeNow)
  /-- A query is not sent yet. -/
  | defer {s : State} {q : Nat} : late → s.instanding.head? = some q →
      (s.queries q).isInprogress = false →
      Change c late s ((s.setInprogress q true).record (.deferred q))
  /-- And now it is. -/
  | finish {s : State} {q : Nat} : s.instanding.head? = some q → (s.queries q).isInprogress = true →
      Change c late s ((s.setInprogress q false).moveOutstanding q)
  /-- A query is sent, and put into its bucket. -/
  | send {s : State} {q : Nat} : s.instanding.head? = some q → (s.queries q).isInprogress = false →
      (s.queries q).sentTimestamp = s.timeNow → s.lastSend = s.timeNow →
      Change c late s (((s.moveOutstanding q).record (.transmitted q)).atBucket
        (c.findBucket s.timeNow) RampBucket.query)
  | sustain {s : State} : s.phase = .ramp → Change c late s s.enterSustainPhase
  | wait {s : State} : s.lastSend = s.timeNow → Change c late s s.enterWaitPhase

/-- Callbacks, responses and timeouts, one after another. -/
def Settles (c : Setup) (late : Prop) : State → State → Prop := ReflTransGen (Settle c late)

/-- A sequence of changes. -/
def Changes (c : Setup) (late : Prop) : State → State → Prop := ReflTransGen (Change c late)

variable {c : Setup} {late : Prop} {s s' s'' : State} {q : Nat}

theorem Settles.refl (s : State) : Settles c late s s := ReflTransGen.refl

theorem Settles.single (h : Settle c late s s') : Settles c late s s' := ReflTransGen.single h

theorem Settles.trans (h : Settles c late s s') (h' : Settles c late s' s'') :
    Settles c late s s'' := ReflTransGen.trans h h'

theorem Changes.refl (s : State) : Changes c late s s := ReflTransGen.refl

theorem Changes.single (h : Change c late s s') : Changes c late s s' := ReflTransGen.single h

theorem Changes.trans (h : Changes c late s s') (h' : Changes c late s' s'') :
    Changes c late s s'' := ReflTransGen.trans h h'

/-- **Invariant rule.** -/
theorem Settles.invariant {I : State → Prop} (hstep : ∀ s s', I s → Settle c late s s' → I s')
    (h : Settles c late s s') (hs : I s) : I s' := by
  induction h with
  | refl => exact hs
  | tail _ hsettle ih => exact hstep _ _ ih hsettle

/-- **Invariant rule.** -/
theorem Changes.invariant {I : State → Prop} (hstep : ∀ s s', I s → Change c late s s' → I s')
    (h : Changes c late s s') (hs : I s) : I s' := by
  induction h with
  | refl => exact hs
  | tail _ hchange ih => exact hstep _ _ ih hchange

theorem Settles.changes (h : Settles c late s s') : Changes c late s s' :=
  h.invariant (fun _ _ hs hsettle => hs.trans (.single (.settle hsettle))) (.refl s)

/-! ### What changes leave alone -/

theorem setQuery_field {α : Type} (f : QueryInfo → α) (info : QueryInfo)
    (h : f info = f (s.queries q)) (q' : Nat) :
    f ((s.setQuery q info).queries q') = f (s.queries q') := by
  simp only [State.setQuery]
  split_ifs with hq
  · rw [h, hq]
  · rfl

/-! An entry that is stamped or changes its list keeps the rest. -/

theorem setSentTimestamp_inprogress (s : State) (q timestamp q' : Nat) :
    ((s.setSentTimestamp q timestamp).queries q').isInprogress = (s.queries q').isInprogress :=
  setQuery_field QueryInfo.isInprogress { s.queries q with sentTimestamp := timestamp } rfl q'

theorem setSentTimestamp_list (s : State) (q timestamp q' : Nat) :
    ((s.setSentTimestamp q timestamp).queries q').list = (s.queries q').list :=
  setQuery_field QueryInfo.list { s.queries q with sentTimestamp := timestamp } rfl q'

theorem setSentTimestamp_self (s : State) (q timestamp : Nat) :
    ((s.setSentTimestamp q timestamp).queries q).sentTimestamp = timestamp := by
  simp only [State.setSentTimestamp, State.setQuery, if_true]

theorem setInprogress_inprogress (s : State) (q q' : Nat) (b : Bool) :
    ((s.setInprogress q b).queries q').isInprogress =
      if q' = q then b else (s.queries q').isInprogress := by
  simp only [State.setInprogress, State.setQuery]
  split_ifs <;> rfl

theorem moveOutstanding_stamp (s : State) (q q' : Nat) :
    ((s.moveOutstanding q).queries q').sentTimestamp = (s.queries q').sentTimestamp :=
  setQuery_field QueryInfo.sentTimestamp { s.queries q with list := .outstanding } rfl q'

theorem moveOutstanding_inprogress (s : State) (q q' : Nat) :
    ((s.moveOutstanding q).queries q').isInprogress = (s.queries q').isInprogress :=
  setQuery_field QueryInfo.isInprogress { s.queries q with list := .outstanding } rfl q'

theorem moveInstanding_stamp (s : State) (q q' : Nat) :
    ((s.moveInstanding q).queries q').sentTimestamp = (s.queries q').sentTimestamp :=
  setQuery_field QueryInfo.sentTimestamp { s.queries q with list := .instanding } rfl q'

theorem moveInstanding_inprogress (s : State) (q q' : Nat) :
    ((s.moveInstanding q).queries q').isInprogress = (s.queries q').isInprogress :=
  setQuery_field QueryInfo.isInprogress { s.queries q with list := .instanding } rfl q'

/-- Queries are done with, and nothing else. -/
structure SettleFrame (s s' : State) : Prop where
  phase : s'.phase = s.phase
  numQueriesSent : s'.numQueriesSent = s.numQueriesSent
  inprogress : ∀ q, (s'.queries q).isInprogress = (s.queries q).isInprogress
  outstanding : s'.outstanding.Sublist s.outstanding
  instanding : s.instanding <+: s'.instanding

namespace SettleFrame

theorem refl (s : State) : SettleFrame s s :=
  ⟨rfl, rfl, fun _ => rfl, List.Sublist.refl _, List.prefix_refl _⟩

theorem trans (h : SettleFrame s s') (h' : SettleFrame s' s'') : SettleFrame s s'' where
  phase := h'.phase.trans h.phase
  numQueriesSent := h'.numQueriesSent.trans h.numQueriesSent
  inprogress := fun q => (h'.inprogress q).trans (h.inprogress q)
  outstanding := h'.outstanding.trans h.outstanding
  instanding := h.instanding.trans h'.instanding

theorem head? (h : SettleFrame s s') (hq : s.instanding.head? = some q) :
    s'.instanding.head? = some q := by
  obtain ⟨rest, hrest⟩ := h.instanding
  rw [← hrest, List.head?_append, hq, Option.some_or]

end SettleFrame

theorem Settle.frame (h : Settle c late s s') : SettleFrame s s' := by
  have hmove : ∀ q, SettleFrame s (s.moveInstanding q) := fun q =>
    ⟨rfl, rfl, moveInstanding_inprogress s q, List.erase_sublist, List.prefix_append _ _⟩
  cases h with
  | attempt => exact ⟨rfl, rfl, fun _ => rfl, List.Sublist.refl _, List.prefix_refl _⟩
  | connection => exact ⟨rfl, rfl, fun _ => rfl, List.Sublist.refl _, List.prefix_refl _⟩
  | completed _ _ =>
      exact ⟨rfl, rfl, setSentTimestamp_inprogress _ _ _, List.Sublist.refl _, List.prefix_refl _⟩
  | respond rcode _ _ =>
      obtain ⟨hphase, hsent, hinprogress, hout, hin⟩ := hmove _
      exact ⟨hphase, hsent, hinprogress, hout, hin⟩
  | reject _ => exact ⟨rfl, rfl, fun _ => rfl, List.Sublist.refl _, List.prefix_refl _⟩
  | expire _ =>
      obtain ⟨hphase, hsent, hinprogress, hout, hin⟩ := hmove _
      exact ⟨hphase, hsent, hinprogress, hout, hin⟩
  | sock n => exact ⟨rfl, rfl, fun _ => rfl, List.Sublist.refl _, List.prefix_refl _⟩

theorem Settles.frame (h : Settles c late s s') : SettleFrame s s' :=
  h.invariant (fun _ _ hframe hsettle => hframe.trans hsettle.frame) (.refl s)

/-- The clock is read only at the end of an iteration, and the wait phase begins at the last time
at which a query may have been sent. -/
theorem Change.time (h : Change c late s s') :
    s'.timeNow = s.timeNow ∧ s'.lastSend = s.lastSend := by
  cases h with
  | settle h => cases h <;> exact ⟨rfl, rfl⟩
  | sustain hphase =>
      have hnow : s.lastSend = s.timeNow := if_neg (by rw [hphase]; decide)
      exact ⟨rfl, hnow.symm⟩
  | wait hnow => exact ⟨rfl, hnow.symm⟩
  | _ => exact ⟨rfl, rfl⟩

theorem Changes.time (h : Changes c late s s') :
    s'.timeNow = s.timeNow ∧ s'.lastSend = s.lastSend :=
  h.invariant (I := fun s' => s'.timeNow = s.timeNow ∧ s'.lastSend = s.lastSend)
    (fun _ _ hsame hchange => ⟨hchange.time.1.trans hsame.1, hchange.time.2.trans hsame.2⟩)
    ⟨rfl, rfl⟩

theorem Changes.now (h : Changes c late s s') (hnow : s.lastSend = s.timeNow) :
    s'.lastSend = s'.timeNow := by
  rw [h.time.1, h.time.2, hnow]

/-! ### Callbacks -/

theorem perfNetEvent_settle (s : State) (event : SocketEvent) :
    Settle c late s (c.perfNetEvent s event) := by
  cases event with
  | connecting => exact .attempt
  | reconnecting => exact .attempt
  | connected => exact .connection
  | reconnected => exact .connection

theorem perfNetEvents_settles (events : List SocketEvent) (s : State) :
    Settles c late s (events.foldl c.perfNetEvent s) := by
  induction events generalizing s with
  | nil => exact .refl s
  | cons event events ih => exact (Settles.single (perfNetEvent_settle s event)).trans (ih _)

theorem perfNetEvents_queries (events : List SocketEvent) (s : State) :
    (events.foldl c.perfNetEvent s).queries = s.queries := by
  induction events generalizing s with
  | nil => rfl
  | cons event events ih =>
      have hfirst : (c.perfNetEvent s event).queries = s.queries := by cases event <;> rfl
      exact (ih _).trans hfirst

/-- The call has a query completed that was not sent at once. -/
def SockReady.Late (r : SockReady) : Prop := ∃ qid, Callback.sent qid ∈ r.callbacks

theorem callback_settle {sock : Nat} {cb : Callback} (hlate : ∀ qid, cb = .sent qid → late)
    (h : c.callback sock s cb = some s') : Settle c late s s' := by
  cases cb with
  | event event => exact Option.some.inj h ▸ perfNetEvent_settle s event
  | sent qid =>
      simp only [Setup.callback, Setup.perfNetSent] at h
      split_ifs at h with hidx
      exact Option.some.inj h ▸ .completed (hlate qid rfl) hidx

theorem perfNetSockready_settles {sock : Nat} {r : SockReady} (hlate : r.Late → late)
    (h : c.perfNetSockready s sock r = some s') : Settles c late s s' := by
  have hlates : ∀ cb ∈ r.callbacks, ∀ qid, cb = .sent qid → late := by
    rintro cb hcb qid rfl
    exact hlate ⟨qid, hcb⟩
  exact ((Run.of_foldlM h).guarded hlates).invariant
    (fun _ _ _ hs hstep => hs.trans (.single (callback_settle hstep.1 hstep.2))) (.refl s)

/-! ### Sending -/

/-- The loop over the queries in progress ends with the entry at the head of the list, or with a
result other than success. -/
theorem finishInprogress_changes {readies : List SockReady} {r : Except PerfResult Nat}
    (hlate : ∀ r ∈ readies, r.Late → late) (h : c.finishInprogress readies s = some (s', r)) :
    Changes c late s s' ∧ r ≠ .error .success ∧
      ∀ q, r = .ok q → s'.instanding.head? = some q ∧ (s'.queries q).isInprogress = false := by
  fun_induction Setup.finishInprogress c readies s with
  | case1 s =>
      obtain ⟨rfl, rfl⟩ := Prod.mk.inj (Option.some.inj h)
      exact ⟨.refl _, nofun, nofun⟩
  | case2 s q hhead hinprogress =>
      obtain ⟨rfl, rfl⟩ := Prod.mk.inj (Option.some.inj h)
      exact ⟨.refl _, nofun, nofun⟩
  | case3 s q hhead hinprogress ready readies ih =>
      obtain ⟨s₁, hready, h⟩ := Option.bind_eq_some_iff.mp h
      have hsettles := perfNetSockready_settles (hlate ready List.mem_cons_self) hready
      split_ifs at h
      · obtain ⟨rfl, rfl⟩ := Prod.mk.inj (Option.some.inj h)
        exact ⟨hsettles.changes, nofun, nofun⟩
      · have hfinish : Change c late s₁ ((s₁.setInprogress q false).moveOutstanding q) :=
          .finish (hsettles.frame.head? hhead) ((hsettles.frame.inprogress q).trans hinprogress)
        obtain ⟨hrest, hend⟩ := ih s₁ (fun r hr => hlate r (List.mem_cons_of_mem _ hr)) h
        exact ⟨(hsettles.changes.trans (.single hfinish)).trans hrest, hend⟩
  | case4 readies s q hhead hinprogress =>
      obtain ⟨rfl, rfl⟩ := Prod.mk.inj (Option.some.inj h)
      refine ⟨.refl _, nofun, fun q' hq' => ?_⟩
      obtain rfl := Except.ok.inj hq'
      exact ⟨hhead, eq_false_of_ne_true hinprogress⟩

/-- `do_one_line`, and in its bucket the query that was sent. -/
theorem doOneLine_changes {call : SendCall} {result : PerfResult}
    (hready : ∀ r ∈ call.inprogress ++ [call.ready], r.Late → late)
    (hsendto : call.sendto = .inprogress → late) (hnow : s.lastSend = s.timeNow)
    (h : c.doOneLine s call = some (result, s')) :
    Changes c late s
      (if result = .success then s'.atBucket (c.findBucket s'.timeNow) RampBucket.query
        else s') := by
  obtain ⟨⟨s₁, r⟩, hfinish, h⟩ := Option.bind_eq_some_iff.mp h
  obtain ⟨hchanges₁, hne, hok⟩ := finishInprogress_changes
    (fun r hr => hready r (List.mem_append_left _ hr)) hfinish
  -- a call that does not succeed leaves no query to count
  have hstop : ∀ {result₁ s₁}, result₁ ≠ .success → Changes c late s s₁ →
      some (result₁, s₁) = some (result, s') → Changes c late s
        (if result = .success then s'.atBucket (c.findBucket s'.timeNow) RampBucket.query
          else s') := by
    intro result₁ s₁ hresult hchanges heq
    obtain ⟨rfl, rfl⟩ := Prod.mk.inj (Option.some.inj heq)
    rwa [if_neg hresult]
  cases r with
  | error result₁ => exact hstop (fun heq => hne (heq ▸ rfl)) hchanges₁ h
  | ok q =>
      obtain ⟨hhead₁, hidle₁⟩ := hok q rfl
      obtain ⟨s₂, hsock, h⟩ := Option.bind_eq_some_iff.mp h
      have hsettles := perfNetSockready_settles (hready call.ready (by simp)) hsock
      have hhead₂ := hsettles.frame.head? hhead₁
      have hchanges := hchanges₁.trans hsettles.changes
      by_cases hres : call.ready.result = 0 ∨ call.ready.result = -1
      · rw [if_pos hres] at h
        exact hstop (by decide) hchanges h
      rw [if_neg hres] at h
      by_cases hnext : call.next ≠ .success
      · rw [if_pos hnext] at h
        exact nomatch h
      rw [if_neg hnext] at h
      by_cases hbuild : call.build ≠ .success
      · rw [if_pos hbuild] at h
        exact hstop hbuild hchanges h
      rw [if_neg hbuild] at h
      -- the query has its timestamp; `perf__net_event` does not touch it
      have hevents : Settles c late _ _ :=
        perfNetEvents_settles (c := c) call.events (s₂.setSentTimestamp q s₂.timeNow)
      have hqueries := perfNetEvents_queries (c := c) call.events (s₂.setSentTimestamp q s₂.timeNow)
      have hsent := (hchanges.trans (.single (.stamp hhead₂))).trans hevents.changes
      dsimp only at h
      generalize call.events.foldl c.perfNetEvent (s₂.setSentTimestamp q s₂.timeNow) = s₃
        at h hevents hqueries hsent
      have hhead₃ : s₃.instanding.head? = some q := hevents.frame.head? hhead₂
      have hidle₃ : (s₃.queries q).isInprogress = false := by
        rw [hqueries, setSentTimestamp_inprogress, hsettles.frame.inprogress, hidle₁]
      split at h
      · rename_i hinprogress
        refine hstop ?_ (hsent.trans (.single (.defer (hsendto hinprogress) hhead₃ hidle₃))) h
        decide
      · refine hstop ?_ hsent h
        decide
      · obtain ⟨rfl, rfl⟩ := Prod.mk.inj (Option.some.inj h)
        have hstamp : (s₃.queries q).sentTimestamp = s₃.timeNow := by
          rw [hqueries, setSentTimestamp_self, hevents.changes.time.1]
          rfl
        rw [if_pos rfl]
        exact hsent.trans (.single (.send hhead₃ hidle₃ hstamp (hsent.now hnow)))

/-- It has fallen behind by `max_fall_behind` queries. -/
def Setup.Behind (c : Setup) (s : State) : Prop :=
  c.maxFallBehind ≠ 0 ∧ c.maxFallBehind ≤ toUint32 (c.shouldSend s)

instance (c : Setup) (s : State) : Decidable (c.Behind s) := inferInstanceAs (Decidable (_ ∧ _))

/-- The state after that has been looked at. -/
def Setup.endBehind (c : Setup) (s : State) : State := if c.Behind s then s.enterWaitPhase else s

theorem sendDue_cases {call : SendCall} (h : c.sendDue s call = some s') :
    s.phase = .wait ∧ s' = s ∨ s.phase ≠ .wait ∧
      (¬ 0 < c.shouldSend s ∧ s' = c.endBehind s ∨ 0 < c.shouldSend s ∧
        ∃ result s₁, c.doOneLine (c.endBehind s) call = some (result, s₁) ∧
          s' = if result = .success then s₁.atBucket (c.findBucket s₁.timeNow) RampBucket.query
            else if result = .nomore then s₁.enterWaitPhase else s₁) := by
  unfold Setup.sendDue at h
  by_cases hwait : s.phase = .wait
  · rw [if_pos hwait] at h
    exact Or.inl ⟨hwait, (Option.some.inj h).symm⟩
  rw [if_neg hwait] at h
  refine Or.inr ⟨hwait, ?_⟩
  by_cases hdue : 0 < c.shouldSend s
  · obtain ⟨⟨result, s₁⟩, hline, h⟩ := Option.bind_eq_some_iff.mp ((if_pos hdue).symm.trans h)
    exact Or.inr ⟨hdue, result, s₁, hline, (Option.some.inj h).symm⟩
  · exact Or.inl ⟨hdue, (Option.some.inj ((if_neg hdue).symm.trans h)).symm⟩

theorem endBehind_changes (hwait : s.phase ≠ .wait) : Changes c late s (c.endBehind s) := by
  unfold Setup.endBehind
  split_ifs
  · exact .single (.wait (if_neg hwait))
  · exact .refl s

/-- The sending part of an iteration. The wait phase may begin before a query is sent. -/
theorem sendDue_changes {call : SendCall}
    (hready : ∀ r ∈ call.inprogress ++ [call.ready], r.Late → late)
    (hsendto : call.sendto = .inprogress → late) (h : c.sendDue s call = some s') :
    s.phase = .wait ∧ s' = s ∨ s.phase ≠ .wait ∧ Changes c late (c.endBehind s) s' := by
  rcases sendDue_cases h with hwait | ⟨hwait, h⟩
  · exact Or.inl hwait
  refine Or.inr ⟨hwait, ?_⟩
  have hbehind : Changes c late s (c.endBehind s) := endBehind_changes hwait
  have hnow := hbehind.now (if_neg hwait)
  rcases h with ⟨-, rfl⟩ | ⟨-, result, s₁, hline, rfl⟩
  · exact .refl _
  · have hchanges := doOneLine_changes hready hsendto hnow hline
    by_cases hresult : result = .success
    · simpa only [if_pos hresult] using hchanges
    · simp only [if_neg hresult] at hchanges ⊢
      split_ifs
      · exact hchanges.trans (.single (.wait (hchanges.now hnow)))
      · exact hchanges

/-! ### Responses -/

theorem tryProcessResponse_settles {sockindex : Nat} {call : RecvCall}
    (hlate : call.ready.Late → late) (h : c.tryProcessResponse s sockindex call = some s') :
    Settles c late s s' := by
  obtain ⟨s₁, hsock, h⟩ := Option.bind_eq_some_iff.mp h
  have hevents := (perfNetSockready_settles hlate hsock).trans
    (perfNetEvents_settles (c := c) call.events s₁)
  generalize call.events.foldl c.perfNetEvent s₁ = s₂ at h hevents
  dsimp only at h
  split at h
  · exact Option.some.inj h ▸ hevents
  · exact nomatch h
  · split_ifs at h with hshort hother
    · exact Option.some.inj h ▸ hevents
    · rw [← Option.some.inj h]
      refine hevents.trans (.single (.reject fun hlt => ?_))
      -- the index of an entry does not wrap
      rw [toUint32_of_lt (hlt.trans c.maxOutstanding_lt)] at hother
      exact hother.resolve_left (Nat.not_le.mpr hlt)
    · rw [← Option.some.inj h]
      rw [not_or, not_not, Nat.not_le] at hother
      exact hevents.trans (.single (.respond _ hother.1 hother.2))

theorem receive_settles (i : Nat) {calls : List RecvCall}
    (hlate : ∀ call ∈ calls, call.ready.Late → late) (h : c.receive i calls s = some s') :
    Settles c late s s' := by
  induction i generalizing s calls with
  | zero => exact Option.some.inj h ▸ .refl s
  | succ i ih =>
      obtain ⟨s₁, hcall, h⟩ := Option.bind_eq_some_iff.mp h
      have hhead : (calls.headD .none).ready.Late → late := by
        cases calls with
        | nil => exact fun ⟨qid, hmem⟩ => nomatch hmem
        | cons call calls => exact hlate call List.mem_cons_self
      have hround : Settles c late s₁
          (if c.nsocks ≤ s₁.currentSock then { s₁ with currentSock := 0 } else s₁) := by
        split_ifs
        · exact .single (.sock 0)
        · exact .refl s₁
      have hrest := ih (fun call hmem => hlate call (List.mem_of_mem_tail hmem)) h
      exact (((Settles.single (.sock (s.currentSock + 1))).trans
        (tryProcessResponse_settles hhead hcall)).trans hround).trans hrest

theorem retire_settles (fuel : Nat) (s : State) : Settles c late s (c.retire fuel s) := by
  induction fuel generalizing s with
  | zero => exact .refl s
  | succ fuel ih =>
      rw [Setup.retire]
      split
      · exact .refl s
      · rename_i q hlast
        split_ifs
        · exact .refl s
        · exact (Settles.single (.expire (List.mem_of_getLast? hlast))).trans (ih _)

/-! ### An iteration -/

theorem switchPhase_changes (h : c.switchPhase s = some s') : Changes c late s s' := by
  unfold Setup.switchPhase at h
  split at h <;> rename_i hphase
  · rw [← Option.some.inj h]
    split_ifs
    · exact .single (.sustain hphase)
    · exact .refl s
  · rw [← Option.some.inj h]
    split_ifs
    · exact .single (.wait (if_neg (by rw [hphase]; decide)))
    · exact .refl s
  · split_ifs at h
    exact Option.some.inj h ▸ .refl s

/-- An iteration over UDP: no send is left in progress, and `perf__net_sent` is not called. -/
def Iteration.Udp (it : Iteration) : Prop :=
  it.send.sendto ≠ .inprogress ∧
    ∀ r ∈ (it.send.inprogress ++ [it.send.ready]) ++ it.recvs.map RecvCall.ready, ¬ r.Late

/-- **The parts of an iteration**: the change of the phase, the sending, what is received and
retired, and the clock. -/
theorem next_parts {it : Iteration} (h : c.next s it = some s') :
    ∃ s₁ s₂ s₃, c.switchPhase s = some s₁ ∧ c.sendDue s₁ it.send = some s₂ ∧
      (s₁.phase = .wait ∧ s₂ = s₁ ∨ s₁.phase ≠ .wait ∧ Changes c (¬ it.Udp) (c.endBehind s₁) s₂) ∧
      Settles c (¬ it.Udp) s₂ s₃ ∧ s' = { s₃ with timeNow := it.now } := by
  have hlate : ∀ r ∈ (it.send.inprogress ++ [it.send.ready]) ++ it.recvs.map RecvCall.ready,
      r.Late → ¬ it.Udp := fun r hr hlate hudp => hudp.2 r hr hlate
  obtain ⟨s₁, hswitch, h⟩ := Option.bind_eq_some_iff.mp h
  obtain ⟨s₂, hsend, h⟩ := Option.bind_eq_some_iff.mp h
  obtain ⟨s₃, hreceive, h⟩ := Option.bind_eq_some_iff.mp h
  have hchanges := sendDue_changes (fun r hr => hlate r (List.mem_append_left _ hr))
    (fun hsendto hudp => hudp.1 hsendto) hsend
  have hsettles := receive_settles _
    (fun call hcall => hlate _ (List.mem_append_right _ (List.mem_map_of_mem hcall))) hreceive
  exact ⟨s₁, s₂, _, hswitch, hsend, hchanges, hsettles.trans (retire_settles _ s₃),
    (Option.some.inj h).symm⟩

/-- **An iteration is a sequence of changes**, and then the clock is read. -/
theorem next_changes {it : Iteration} (h : c.next s it = some s') :
    ∃ s₁ s₂, c.switchPhase s = some s₁ ∧ Changes c (¬ it.Udp) s₁ s₂ ∧
      s' = { s₂ with timeNow := it.now } := by
  obtain ⟨s₁, s₂, s₃, hswitch, -, hsend, hsettles, rfl⟩ := next_parts h
  refine ⟨s₁, s₃, hswitch, ?_, rfl⟩
  rcases hsend with ⟨-, rfl⟩ | ⟨hwait, hchanges⟩
  · exact hsettles.changes
  · exact ((endBehind_changes hwait).trans hchanges).trans hsettles.changes

/-- **Invariant rule** of the main loop. -/
theorem next_invariant {I : State → Prop} {it : Iteration}
    (hchange : ∀ s s', I s → Change c (¬ it.Udp) s s' → I s')
    (hclock : ∀ s₁, s₁.timeNow = s.timeNow → I s₁ → I { s₁ with timeNow := it.now }) (hs : I s)
    (h : c.next s it = some s') : I s' := by
  obtain ⟨s₁, s₂, hswitch, hchanges, rfl⟩ := next_changes h
  have hall := (switchPhase_changes hswitch).trans hchanges
  exact hclock s₂ hall.time.1 (hall.invariant hchange hs)

end Dnsperf.Resperf
