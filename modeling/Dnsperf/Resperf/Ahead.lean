import Dnsperf.Resperf.Buckets
import Dnsperf.Resperf.Changes

/-!
# Dnsperf.Resperf.Ahead

**The query in progress.** A query whose sending is in progress stays at the head of the list of
available entries, and `do_one_line` looks at the head first; so there is at most one such query,
and the loop over the queries in progress ends after its first round (`inprogress_at_head`).

A call of `do_one_line` then counts two queries at most, and `CountsTwo` says when: the one that was
in progress, and another one that is sent at once.
-/

namespace Dnsperf.Resperf

open Dnsperf.Lib Dnsperf.Stats

variable {c : Setup} {late : Prop} {s s' : State} {q : Nat}

/-! ### The head of the list -/

/-- Only the head of the list can be in progress. -/
def AtHead (s : State) : Prop :=
  ∀ q, (s.queries q).isInprogress = true → s.instanding.head? = some q

/-- No query is in progress. -/
def Idle (s : State) : Prop := ∀ q, (s.queries q).isInprogress = false

theorem Idle.atHead (h : Idle s) : AtHead s := fun q hq => by
  rw [h q] at hq
  cases hq

theorem AtHead.settles (h : AtHead s) (hs : SettleFrame s s') : AtHead s' :=
  fun q hq => hs.head? (h q ((hs.inprogress q).symm.trans hq))

theorem AtHead.idle (h : AtHead s) (hhead : s.instanding.head? = some q)
    (hq : (s.queries q).isInprogress = false) : Idle s := by
  refine fun q' => eq_false_of_ne_true fun hq' => ?_
  obtain rfl := Option.some.inj ((h q' hq').symm.trans hhead)
  rw [hq] at hq'
  cases hq'

theorem AtHead.finished (h : AtHead s) (hhead : s.instanding.head? = some q) :
    Idle ((s.setInprogress q false).moveOutstanding q) := by
  intro q'
  rw [moveOutstanding_inprogress, setInprogress_inprogress]
  split_ifs with hq
  · rfl
  · refine eq_false_of_ne_true fun hq' => hq ?_
    exact Option.some.inj ((h q' hq').symm.trans hhead)

theorem Idle.deferred (h : Idle s) (hhead : s.instanding.head? = some q) :
    AtHead (s.setInprogress q true) := by
  intro q' hq'
  rw [setInprogress_inprogress] at hq'
  split_ifs at hq' with hq
  · rw [hq]
    exact hhead
  · rw [h q'] at hq'
    cases hq'

/-- **Every change keeps it there.** -/
theorem AtHead.change (h : AtHead s) (hchange : Change c late s s') : AtHead s' := by
  cases hchange with
  | settle hsettle => exact h.settles hsettle.frame
  | stamp _ => exact fun q' hq' => h q' ((setSentTimestamp_inprogress s _ _ q').symm.trans hq')
  | defer _ hhead hidle => exact (h.idle hhead hidle).deferred hhead
  | finish hhead _ => exact (h.finished hhead).atHead
  | send hhead hidle _ _ =>
      exact Idle.atHead fun q' => (moveOutstanding_inprogress s _ q').trans (h.idle hhead hidle q')
  | sustain _ => exact h
  | wait _ => exact h

theorem AtHead.next {it : Iteration} (hat : AtHead s) (h : c.next s it = some s') : AtHead s' :=
  next_invariant (fun _ _ => AtHead.change) (fun _ _ => id) hat h

theorem start_atHead (c : Setup) (opened : List SocketEvent) : AtHead (c.start opened) := by
  have hidle : Idle c.initial := fun _ => rfl
  have hsettles : Settles c False c.initial (c.start opened) :=
    perfNetEvents_settles opened c.initial
  exact hidle.atHead.settles hsettles.frame

/-! ### The loop over the queries in progress -/

/-- What the loop returns when the head is not in progress. -/
def entryOrNomore (s : State) : Except PerfResult Nat :=
  s.instanding.head?.elim (.error .nomore) .ok

theorem finishInprogress_idle (readies : List SockReady) (h : Idle s) :
    c.finishInprogress readies s = some (s, entryOrNomore s) := by
  unfold Setup.finishInprogress entryOrNomore
  cases hhead : s.instanding.head? with
  | none => rfl
  | some q => simp only [h q, Bool.false_eq_true, if_false, Option.elim]

theorem finishInprogress_round (hat : AtHead s) (hhead : s.instanding.head? = some q)
    (hq : (s.queries q).isInprogress = true) (ready : SockReady) (readies : List SockReady) :
    c.finishInprogress (ready :: readies) s =
      (c.perfNetSockready s (q % c.nsocks) ready).map fun s₁ =>
        let s₂ := (s₁.setInprogress q false).moveOutstanding q
        if ready.result = -1 then (s₁, .error .failure) else (s₂, entryOrNomore s₂) := by
  rw [Setup.finishInprogress]
  simp only [hhead, hq, if_true]
  cases hready : c.perfNetSockready s (q % c.nsocks) ready with
  | none => rfl
  | some s₁ =>
      have hsettles : Settles c True s s₁ := perfNetSockready_settles (fun _ => trivial) hready
      have hs := hsettles.frame
      have hidle := (hat.settles hs).finished (hs.head? hhead)
      simp only [Option.bind_eq_bind, Option.bind_some, Option.map_some,
        finishInprogress_idle readies hidle]
      split_ifs <;> rfl

/-- `perf_net_sockready` is called once at most. -/
theorem finishInprogress_take (hat : AtHead s) (readies : List SockReady) :
    c.finishInprogress readies s = c.finishInprogress (readies.take 1) s := by
  cases readies with
  | nil => rfl
  | cons ready readies =>
      rw [List.take_succ_cons, List.take_zero]
      cases hhead : s.instanding.head? with
      | none => rw [Setup.finishInprogress, Setup.finishInprogress, hhead]
      | some q =>
          cases hq : (s.queries q).isInprogress with
          | false =>
              have hidle := hat.idle hhead hq
              rw [finishInprogress_idle _ hidle, finishInprogress_idle _ hidle]
          | true =>
              rw [finishInprogress_round hat hhead hq, finishInprogress_round hat hhead hq]

/-- **At most one query is in progress, and it is the next entry to be used.** In every state of
every run a query that is marked as in progress is the head of the list of available entries. So
`do_one_line` asks `perf_net_sockready` about queries in progress once at most, however long its
loop could be. -/
theorem inprogress_at_head (c : Setup) (opened : List SocketEvent) (es : List Iteration) (s : State)
    (hrun : Run (StepOf c.next) (c.start opened) es s) :
    (∀ q, (s.queries q).isInprogress = true → s.instanding.head? = some q) ∧
      ∀ readies, c.finishInprogress readies s = c.finishInprogress (readies.take 1) s := by
  have hat : AtHead s := hrun.invariant (fun _ _ _ hat h => hat.next h) (start_atHead c opened)
  exact ⟨hat, finishInprogress_take hat⟩

/-- The first query is sent, the second is left in progress. -/
theorem inprogress_at_head_second :
    ∃ s, (s.queries 1).isInprogress = true ∧ s.instanding.head? = some 1 ∧
      ∀ readies, minuteLong.finishInprogress readies s =
        minuteLong.finishInprogress (readies.take 1) s := by
  let send (sendto : SendtoResult) : SendCall := ⟨[], ⟨[], 1⟩, .success, .success, [], sendto⟩
  obtain ⟨s, hrun, hend⟩ := Run.exists_of_follow (fun _ _ => True) minuteLong.next
    (minuteLong.start [])
    [⟨send .sent, [], 1000 + 30 * million⟩, ⟨send .sent, [], 1000 + 30 * million⟩,
      ⟨send .inprogress, [], 1000 + 30 * million⟩]
    (fun s => (s.queries 1).isInprogress = true) (by decide +kernel)
  obtain ⟨hhead, htake⟩ := inprogress_at_head minuteLong [] _ s (hrun.mono fun _ _ _ h => h.2)
  exact ⟨s, of_decide_eq_true hend, hhead 1 (of_decide_eq_true hend), htake⟩

/-! ### How many queries a call counts -/

/-- The query in progress is found sent. -/
def CountsOne (s : State) (readies : List SockReady) : Prop :=
  (∃ q ∈ s.instanding.head?, (s.queries q).isInprogress = true) ∧
    ∃ r ∈ readies.head?, r.result ≠ -1

/-- And another query is there to be sent, and is sent at once. -/
def CountsTwo (s : State) (call : SendCall) : Prop :=
  CountsOne s call.inprogress ∧ 2 ≤ s.instanding.length ∧ call.ready.result ≠ 0 ∧
    call.ready.result ≠ -1 ∧ call.build = .success ∧ call.sendto = .sent

instance (s : State) (readies : List SockReady) : Decidable (CountsOne s readies) :=
  inferInstanceAs (Decidable (_ ∧ _))

instance (s : State) (call : SendCall) : Decidable (CountsTwo s call) :=
  inferInstanceAs (Decidable (_ ∧ _))

theorem callback_instanding {sock : Nat} {cb : Callback} (h : c.callback sock s cb = some s') :
    s'.instanding = s.instanding := by
  cases cb with
  | event event =>
      rw [← Option.some.inj h]
      cases event <;> rfl
  | sent qid =>
      simp only [Setup.callback, Setup.perfNetSent] at h
      split_ifs at h
      rw [← Option.some.inj h]
      rfl

theorem perfNetSockready_instanding {sock : Nat} {r : SockReady}
    (h : c.perfNetSockready s sock r = some s') : s'.instanding = s.instanding :=
  (Run.of_foldlM h).invariant (I := fun s' => s'.instanding = s.instanding)
    (fun _ _ _ hlist hcb => (callback_instanding hcb).trans hlist) rfl

/-- After the loop: the query in progress has been counted or none has; and if there is an entry to
go on with, there was one more. -/
theorem finishInprogress_count {readies : List SockReady} {r : Except PerfResult Nat}
    (hat : AtHead s) (h : c.finishInprogress readies s = some (s', r)) :
    s'.numQueriesSent = s.numQueriesSent ∨
      s'.numQueriesSent = s.numQueriesSent + 1 ∧ CountsOne s readies ∧
        ∀ q, r = .ok q → 2 ≤ s.instanding.length := by
  cases hhead : s.instanding.head? with
  | none =>
      rw [Setup.finishInprogress, hhead] at h
      obtain ⟨rfl, -⟩ := Prod.mk.inj (Option.some.inj h)
      exact Or.inl rfl
  | some q =>
      cases hq : (s.queries q).isInprogress with
      | false =>
          rw [finishInprogress_idle _ (hat.idle hhead hq)] at h
          obtain ⟨rfl, -⟩ := Prod.mk.inj (Option.some.inj h)
          exact Or.inl rfl
      | true =>
          cases readies with
          | nil =>
              rw [Setup.finishInprogress] at h
              simp only [hhead, hq, if_true, Option.some.injEq, Prod.mk.injEq] at h
              exact Or.inl (h.1 ▸ rfl)
          | cons ready readies =>
              rw [finishInprogress_round hat hhead hq] at h
              obtain ⟨s₁, hready, h⟩ := Option.map_eq_some_iff.mp h
              have hsettles : Settles c True s s₁ :=
                perfNetSockready_settles (fun _ => trivial) hready
              have hs := hsettles.frame
              have hlist := perfNetSockready_instanding hready
              dsimp only at h
              split_ifs at h with hresult
              · obtain ⟨rfl, -⟩ := Prod.mk.inj h
                exact Or.inl hs.numQueriesSent
              · obtain ⟨rfl, rfl⟩ := Prod.mk.inj h
                refine Or.inr ⟨congrArg (· + 1) hs.numQueriesSent,
                  ⟨⟨q, hhead, hq⟩, ready, rfl, hresult⟩, fun q' hok => ?_⟩
                -- what is left of the list is not empty
                have hrest : s.instanding.erase q ≠ [] := by
                  rintro hnil
                  have hempty : ((s₁.setInprogress q false).moveOutstanding q).instanding = [] :=
                    (congrArg (List.erase · q) hlist).trans hnil
                  rw [entryOrNomore, hempty] at hok
                  cases hok
                have hlength := List.length_erase_of_mem (List.mem_of_mem_head? hhead)
                have hpos := List.length_pos_iff.mpr hrest
                omega

/-- **A call counts one query at most, except under `CountsTwo`.** -/
theorem doOneLine_count {call : SendCall} {result : PerfResult} (hat : AtHead s)
    (h : c.doOneLine s call = some (result, s')) :
    s'.numQueriesSent ≤ s.numQueriesSent + if CountsTwo s call then 2 else 1 := by
  obtain ⟨⟨s₁, r⟩, hfinish, h⟩ := Option.bind_eq_some_iff.mp h
  have hcount := finishInprogress_count hat hfinish
  have hone : s₁.numQueriesSent ≤ s.numQueriesSent + 1 := by omega
  have hle : s₁.numQueriesSent ≤ s.numQueriesSent + if CountsTwo s call then 2 else 1 := by
    split_ifs <;> omega
  cases r with
  | error result₁ =>
      obtain ⟨-, rfl⟩ := Prod.mk.inj (Option.some.inj h)
      exact hle
  | ok q =>
      obtain ⟨s₂, hsock, h⟩ := Option.bind_eq_some_iff.mp h
      have hready : Settles c True s₁ s₂ := perfNetSockready_settles (fun _ => trivial) hsock
      have hsent₂ := hready.frame.numQueriesSent
      have hevents : Settles c True (s₂.setSentTimestamp q s₂.timeNow) _ :=
        perfNetEvents_settles call.events _
      have hsent₃ : (call.events.foldl c.perfNetEvent
          (s₂.setSentTimestamp q s₂.timeNow)).numQueriesSent = s₁.numQueriesSent :=
        hevents.frame.numQueriesSent.trans hsent₂
      dsimp only at h
      generalize call.events.foldl c.perfNetEvent (s₂.setSentTimestamp q s₂.timeNow) = s₃
        at h hsent₃
      split_ifs at h with hres hnext hbuild
      · obtain ⟨-, rfl⟩ := Prod.mk.inj (Option.some.inj h)
        rwa [hsent₂]
      · obtain ⟨-, rfl⟩ := Prod.mk.inj (Option.some.inj h)
        rwa [hsent₂]
      · split at h <;> rename_i hsendto <;> obtain ⟨-, rfl⟩ := Prod.mk.inj (Option.some.inj h)
        · exact hsent₃.trans_le hle
        · exact hsent₃.trans_le hle
        · rw [not_or] at hres
          change s₃.numQueriesSent + 1 ≤ _
          rw [hsent₃]
          rcases hcount with hsame | ⟨hmore, hfound, hrest⟩
          · rw [hsame]
            split_ifs <;> omega
          · have htwo : CountsTwo s call :=
              ⟨hfound, hrest q rfl, hres.1, hres.2, not_not.mp hbuild, hsendto⟩
            rw [if_pos htwo, hmore]

/-- The sending part counts a query only if one is due. -/
theorem sendDue_count {call : SendCall} (hat : AtHead s) (h : c.sendDue s call = some s') :
    s'.numQueriesSent ≤ s.numQueriesSent +
      if 0 < c.shouldSend s then if CountsTwo s call then 2 else 1 else 0 := by
  have hbehind : c.endBehind s = s.enterWaitPhase ∨ c.endBehind s = s := ite_eq_or_eq _ _ _
  rcases sendDue_cases h with ⟨-, rfl⟩ | ⟨-, ⟨hdue, rfl⟩ | ⟨hdue, result, s₁, hline, rfl⟩⟩
  · exact Nat.le_add_right _ _
  · rcases hbehind with heq | heq <;> rw [if_neg hdue, heq] <;> exact le_rfl
  · have hcount : s₁.numQueriesSent ≤ s.numQueriesSent + if CountsTwo s call then 2 else 1 := by
      rcases hbehind with heq | heq <;> rw [heq] at hline
      · exact doOneLine_count (s := s.enterWaitPhase) hat hline
      · exact doOneLine_count hat hline
    rw [if_pos hdue]
    split_ifs at hcount ⊢ <;> exact hcount

end Dnsperf.Resperf
