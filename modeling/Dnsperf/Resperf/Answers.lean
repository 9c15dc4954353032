import Dnsperf.Resperf.Conservation
import Dnsperf.Resperf.Index
import Dnsperf.Resperf.Phases

/-!
# Dnsperf.Resperf.Answers

**Which answers `resperf` turns away.** A query that was left in progress stays among the available
ones until a later `do_one_line` has it in its hands again. The transport may be through with it
before, in any call of `perf_net_sockready` for its socket, and the answer may be there, too:
`try_process_response` then finds no such query.

The same happens to a query that the transport is still busy with when `do_one_line` takes it for
sent, if it has been retired by the time it is.

There is no other way: a query that has been sent to the end, is not marked as in progress any more
and was not given up before is credited with its answer. Which queries have been sent to the end,
and which answers to them were turned away, is read off the log (`State.transmissions`).
-/

namespace Dnsperf.Resperf

open Dnsperf.Lib Dnsperf.Stats

/-! ### What the log says -/

/-- A response to a transmitted query that was reported as unexpected. -/
structure Rejection where
  query : Nat
  /-- The query was still marked as in progress. -/
  inprogress : Bool
  /-- It had been given up before it was sent to the end. -/
  stale : Bool
  deriving DecidableEq

/-- What has become of the queries that the transport was given. -/
structure Record where
  /-- `EINPROGRESS` was returned for the query, and `perf__net_sent` has not been called for it. -/
  deferred : Nat → Bool
  /-- The query has been sent to the end, and since been neither answered nor retired. -/
  transmitted : Nat → Bool
  /-- The query was sent to the end only after `do_one_line` had taken it for sent and it had been
  retired or answered, and has not been sent again. -/
  stale : Nat → Bool
  rejected : List Rejection

namespace Record

/-- Nothing has been sent. -/
def empty : Record := ⟨fun _ => false, fun _ => false, fun _ => false, []⟩

/-- Query `q` has been sent to the end. -/
def transmit (r : Record) (q : Nat) (stale : Bool) : Record :=
  { r with
    transmitted := Function.update r.transmitted q true
    stale := Function.update r.stale q stale }

/-- An entry of the log. -/
def add (r : Record) : QueryEvent → Record
  | .transmitted q => r.transmit q false
  | .deferred q =>
      { deferred := Function.update r.deferred q true
        transmitted := Function.update r.transmitted q false
        stale := Function.update r.stale q false
        rejected := r.rejected }
  | .completed q info =>
      if r.deferred q then
        { r.transmit q (info.list = .instanding ∧ info.isInprogress = false) with
          deferred := Function.update r.deferred q false }
      else r
  | .settled q => { r with transmitted := Function.update r.transmitted q false }
  | .rejected q info =>
      if r.transmitted q then
        { r with rejected := ⟨q, info.isInprogress, r.stale q⟩ :: r.rejected }
      else r

end Record

/-- The record of the whole log. -/
def State.transmissions (s : State) : Record := s.log.foldr (fun e r => r.add e) .empty

variable {c : Setup} {late : Prop} {s s' : State} {q : Nat} {r r' : Record}
  {queries queries' : Nat → QueryInfo}

/-! ### Transmitted queries -/

/-- A transmitted query is outstanding, is marked as in progress, or was given up before; and what
has been turned away was not to one that is outstanding. -/
structure Record.Sound (c : Setup) (queries : Nat → QueryInfo) (r : Record) : Prop where
  transmitted : ∀ i, r.transmitted i = true → i < c.maxOutstanding ∧
    ((queries i).list = .outstanding ∨ (queries i).isInprogress = true ∨ r.stale i = true)
  rejected : ∀ a ∈ r.rejected, a.inprogress = true ∨ a.stale = true

namespace Record.Sound

/-- **One entry changes**, along with the record of it. -/
theorem entry (h : r.Sound c queries) (hqueries : ∀ i ≠ q, queries' i = queries i)
    (hothers : ∀ i ≠ q, r'.transmitted i = r.transmitted i)
    (hstale : ∀ i ≠ q, r'.stale i = r.stale i) (hrejected : r'.rejected = r.rejected)
    (hq : r'.transmitted q = true → q < c.maxOutstanding ∧
      ((queries' q).list = .outstanding ∨ (queries' q).isInprogress = true ∨ r'.stale q = true)) :
    r'.Sound c queries' where
  transmitted i hi := by
    by_cases hiq : i = q
    · rw [hiq] at hi ⊢
      exact hq hi
    · rw [hqueries i hiq, hstale i hiq]
      exact h.transmitted i (hothers i hiq ▸ hi)
  rejected := by
    rw [hrejected]
    exact h.rejected

theorem stamp (h : r.Sound c s.queries) (q timestamp : Nat) :
    r.Sound c (s.setSentTimestamp q timestamp).queries where
  transmitted i hi := by
    rw [setSentTimestamp_list, setSentTimestamp_inprogress]
    exact h.transmitted i hi
  rejected := h.rejected

theorem finish (h : r.Sound c s.queries) (hq : q < c.maxOutstanding) :
    r.Sound c ((s.setInprogress q false).moveOutstanding q).queries := by
  refine h.entry (q := q) (fun i hi => ?_) (fun _ _ => rfl) (fun _ _ => rfl) rfl
    fun _ => ⟨hq, Or.inl ?_⟩
  · simp [State.moveOutstanding, State.setInprogress, State.setQuery, hi]
  · simp [State.moveOutstanding, State.setInprogress, State.setQuery]

theorem send (h : r.Sound c s.queries) (hq : q < c.maxOutstanding) :
    (r.add (.transmitted q)).Sound c (s.moveOutstanding q).queries := by
  refine h.entry (q := q) (fun i hi => ?_) (fun i hi => ?_) (fun i hi => ?_) rfl
    fun _ => ⟨hq, Or.inl ?_⟩
  · simp [State.moveOutstanding, State.setQuery, hi]
  · exact Function.update_of_ne hi _ _
  · exact Function.update_of_ne hi _ _
  · simp [State.moveOutstanding, State.setQuery]

theorem defer (h : r.Sound c s.queries) (q : Nat) :
    (r.add (.deferred q)).Sound c (s.setInprogress q true).queries := by
  refine h.entry (q := q) (fun i hi => ?_) (fun i hi => ?_) (fun i hi => ?_) rfl
    fun htransmitted => ?_
  · simp [State.setInprogress, State.setQuery, hi]
  · exact Function.update_of_ne hi _ _
  · exact Function.update_of_ne hi _ _
  · simp [Record.add] at htransmitted

theorem settled (h : r.Sound c s.queries) (q : Nat) :
    (r.add (.settled q)).Sound c (s.moveInstanding q).queries := by
  refine h.entry (q := q) (fun i hi => ?_) (fun i hi => ?_) (fun _ _ => rfl) rfl
    fun htransmitted => ?_
  · simp [State.moveInstanding, State.setQuery, hi]
  · exact Function.update_of_ne hi _ _
  · simp [Record.add] at htransmitted

theorem completed (h : r.Sound c queries) (hq : q < c.maxOutstanding) :
    (r.add (.completed q (queries q))).Sound c queries := by
  rw [Record.add]
  by_cases hdeferred : r.deferred q = true
  · rw [if_pos hdeferred]
    refine h.entry (q := q) (fun _ _ => rfl) (fun i hi => ?_) (fun i hi => ?_) rfl
      fun _ => ⟨hq, ?_⟩
    · exact Function.update_of_ne hi _ _
    · exact Function.update_of_ne hi _ _
    · dsimp only [transmit]
      rw [Function.update_self]
      cases hlist : (queries q).list with
      | outstanding => exact Or.inl rfl
      | instanding =>
          cases hinprogress : (queries q).isInprogress with
          | true => exact Or.inr (Or.inl rfl)
          | false => exact Or.inr (Or.inr rfl)
  · rw [if_neg hdeferred]
    exact h

theorem reject (h : r.Sound c queries)
    (hother : q < c.maxOutstanding → (queries q).list ≠ .outstanding) :
    (r.add (.rejected q (queries q))).Sound c queries := by
  rw [Record.add]
  by_cases htransmitted : r.transmitted q = true
  · rw [if_pos htransmitted]
    obtain ⟨hlt, hcases⟩ := h.transmitted q htransmitted
    exact ⟨h.transmitted, List.forall_mem_cons.mpr ⟨hcases.resolve_left (hother hlt), h.rejected⟩⟩
  · rw [if_neg htransmitted]
    exact h

end Record.Sound

/-! ### Runs -/

/-- The record of a state is right. -/
def Sound (c : Setup) (s : State) : Prop := s.transmissions.Sound c s.queries

theorem Sound.settle (h : Sound c s) (hsettle : Settle c late s s') : Sound c s' := by
  cases hsettle with
  | completed _ hq => exact (h.completed hq).stamp (s := s) _ _
  | respond rcode _ _ => exact h.settled (s := s) _
  | reject hother => exact Record.Sound.reject h hother
  | expire _ => exact h.settled (s := s) _
  | _ => exact h

/-- **Every change keeps the record right.** -/
theorem Sound.change (hc : Conserved c s) (h : Sound c s) (hchange : Change c late s s') :
    Sound c s' := by
  have hentry : ∀ {q}, s.instanding.head? = some q → q < c.maxOutstanding := fun hhead =>
    ((hc.lists.mem_right _).mp (List.mem_of_mem_head? hhead)).1
  cases hchange with
  | settle hsettle => exact h.settle hsettle
  | stamp _ => exact Record.Sound.stamp h _ _
  | defer _ _ _ => exact Record.Sound.defer h _
  | finish hhead _ => exact Record.Sound.finish h (hentry hhead)
  | send hhead _ _ _ => exact Record.Sound.send h (hentry hhead)
  | sustain _ => exact h
  | wait _ => exact h

theorem Sound.next {it : Iteration} (h : Kept c s ∧ Sound c s) (hnext : c.next s it = some s') :
    Kept c s' ∧ Sound c s' :=
  next_invariant (I := fun s => Kept c s ∧ Sound c s)
    (fun _ _ h hchange => ⟨h.1.change hchange, h.2.change h.1.1 hchange⟩)
    (fun _ _ h => ⟨h.1.clock _, h.2⟩) h hnext

theorem start_sound (c : Setup) (opened : List SocketEvent) : Sound c (c.start opened) := by
  have hinitial : Sound c c.initial := ⟨nofun, nofun⟩
  have hsettles : Settles c False c.initial (c.start opened) :=
    perfNetEvents_settles opened c.initial
  exact hsettles.invariant (fun _ _ => Sound.settle) hinitial

/-! ### Answers -/

theorem Sound.credited (h : Sound c s) {i : Nat} {bytes : Bytes}
    (hi : s.transmissions.transmitted i = true) (hinprogress : (s.queries i).isInprogress = false)
    (hstale : s.transmissions.stale i = false) (hlen : 4 ≤ bytes.length)
    (hqid : ofBe16 (bytes.getD 0 0) (bytes.getD 1 0) = i / c.nsocks) (ready : Int) :
    c.tryProcessResponse s (i % c.nsocks) ⟨⟨[], ready⟩, [], .packet bytes⟩ =
      some (c.respond s i (Fin.ofNat 16 (ofBe16 (bytes.getD 2 0) (bytes.getD 3 0)))) := by
  obtain ⟨hlt, hcases⟩ := h.transmitted i hi
  have hlist : (s.queries i).list = .outstanding := by
    rcases hcases with hlist | hmarked | hgiven
    · exact hlist
    · rw [hinprogress] at hmarked
      cases hmarked
    · rw [hstale] at hgiven
      cases hgiven
  rw [c.tryProcessResponse_packet rfl rfl hlen, Setup.answer, hqid, Setup.responseEntry_index hlt]
  exact congrArg some (if_pos hlist)

/-- **Answers to transmitted queries.** In every run, those that were turned away came while their
query was still marked as in progress, or were to a query whose transmission ended only after it
had been given up. At the end of any number of iterations, every other query that has been sent to
the end is credited with its answer. -/
theorem answers_credited (c : Setup) (opened : List SocketEvent) (es : List Iteration) (s : State)
    (hrun : Run (StepOf c.next) (c.start opened) es s) :
    (∀ a ∈ s.transmissions.rejected, a.inprogress = true ∨ a.stale = true) ∧
    ∀ i bytes ready, s.transmissions.transmitted i = true → (s.queries i).isInprogress = false →
      s.transmissions.stale i = false → 4 ≤ bytes.length →
      ofBe16 (bytes.getD 0 0) (bytes.getD 1 0) = i / c.nsocks →
      c.tryProcessResponse s (i % c.nsocks) ⟨⟨[], ready⟩, [], .packet bytes⟩ =
        some (c.respond s i (Fin.ofNat 16 (ofBe16 (bytes.getD 2 0) (bytes.getD 3 0)))) := by
  have hsound := hrun.invariant (I := fun s => Kept c s ∧ Sound c s)
    (fun _ _ _ h hnext => Sound.next h hnext) ⟨(start_kept c opened).1, start_sound c opened⟩
  refine ⟨hsound.2.rejected, ?_⟩
  intro i bytes ready hi hinprogress hstale hlen hqid
  exact hsound.2.credited hi hinprogress hstale hlen hqid ready

/-- A query is left in progress, and sent to the end in the next `do_one_line`. Its answer is
credited. -/
theorem answers_credited_delayed :
    ∃ s : State, s.transmissions.transmitted 0 = true ∧
      oneScheduled.tryProcessResponse s 0 ⟨⟨[], 1⟩, [], .packet [0, 0, 128, 0]⟩ =
        some (oneScheduled.respond s 0 0) := by
  obtain ⟨s, hrun, hend⟩ := Run.exists_of_follow (fun _ _ => True) oneScheduled.next
    (oneScheduled.start [])
    [⟨⟨[], ⟨[], 1⟩, .success, .success, [], .inprogress⟩, [], 1000⟩,
      ⟨⟨[⟨[.sent 0], 1⟩], ⟨[], 0⟩, .success, .success, [], .failed⟩, [], 1000⟩]
    (fun s => s.transmissions.transmitted 0 = true ∧ (s.queries 0).isInprogress = false ∧
      s.transmissions.stale 0 = false) (by decide +kernel)
  obtain ⟨hsent, hinprogress, hstale⟩ := of_decide_eq_true hend
  obtain ⟨-, hcredited⟩ :=
    answers_credited oneScheduled [] _ s (hrun.mono fun _ _ _ hstep => hstep.2)
  exact ⟨s, hsent, hcredited 0 [0, 0, 128, 0] 1 hsent hinprogress hstale (by decide) (by decide)⟩

/-- **An answer that is turned away.** The query is left in progress. In the same iteration,
`try_process_response` has its transmission completed, receives the answer and finds no query
outstanding. -/
theorem answer_rejected :
    ∃ es s, Run (StepOf oneScheduled.next) (oneScheduled.start []) es s ∧
      s.transmissions.transmitted 0 = true ∧ s.transmissions.rejected = [⟨0, true, false⟩] ∧
      s.numResponsesReceived = 0 := by
  obtain ⟨s, hrun, hend⟩ := Run.exists_of_follow (fun _ _ => True) oneScheduled.next
    (oneScheduled.start [])
    [⟨⟨[], ⟨[], 1⟩, .success, .success, [], .inprogress⟩,
      [⟨⟨[.sent 0], 1⟩, [], .packet [0, 0, 128, 0]⟩], 1000⟩]
    (fun s => s.transmissions.transmitted 0 = true ∧
      s.transmissions.rejected = [⟨0, true, false⟩] ∧ s.numResponsesReceived = 0)
    (by decide +kernel)
  exact ⟨_, s, hrun.mono fun _ _ _ hstep => hstep.2, of_decide_eq_true hend⟩

end Dnsperf.Resperf
