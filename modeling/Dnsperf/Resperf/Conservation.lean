import Mathlib.Algebra.BigOperators.Intervals
import Mathlib.Algebra.Order.BigOperators.Group.Finset
import Dnsperf.Lib.Split
import Dnsperf.Resperf.Changes
import Dnsperf.Resperf.Buckets

/-!
# Dnsperf.Resperf.Conservation

**No query is lost from the books of `resperf`**: every entry is on one of the two lists, every
query sent has been answered, has timed out or is outstanding, and the response codes add up to
the responses.

So do the buckets, if there are any: **`n_buckets` may be 0**, and `find_bucket` then returns the
element before the array.
-/

namespace Dnsperf.Resperf

open Dnsperf.Lib Dnsperf.Stats

variable {c : Setup} {late : Prop} {s s' : State} {q : Nat}

/-! ### Buckets -/

theorem atBucket_field {α : Type} (g : RampBucket → α) (s : State) (i : Int)
    {f : RampBucket → RampBucket} (hf : ∀ b, g (f b) = g b) (j : Int) :
    g ((s.atBucket i f).buckets j) = g (s.buckets j) := by
  simp only [State.atBucket]
  split_ifs
  · exact hf _
  · rfl

theorem sum_bump {n j : Int} {f g : Int → Int} (h0 : 0 ≤ j) (hj : j < n)
    (hg : ∀ i, g i = f i + if i = j then 1 else 0) :
    ∑ i ∈ Finset.range n.toNat, g i = ∑ i ∈ Finset.range n.toNat, f i + 1 := by
  obtain ⟨k, rfl⟩ := Int.eq_ofNat_of_zero_le h0
  have hk : k ∈ Finset.range n.toNat := Finset.mem_range.mpr (by omega)
  simp only [hg, Finset.sum_add_distrib, Nat.cast_inj, Finset.sum_ite_eq', hk, if_true]

/-! ### The lists and the counters -/

variable (c) in
/-- The books. -/
structure Conserved (s : State) : Prop where
  /-- Every entry is on exactly one list, and `list` names it. -/
  lists : Split (· < c.maxOutstanding) (fun q => (s.queries q).list = .outstanding) s.outstanding
    s.instanding
  outstanding : s.numQueriesOutstanding = s.outstanding.length
  sent : s.numQueriesSent =
    s.numResponsesReceived + s.numQueriesTimedOut + s.numQueriesOutstanding
  rcodes : ∑ rcode, s.rcodecounts rcode = s.numResponsesReceived

theorem Conserved.setQuery (h : Conserved c s) (info : QueryInfo)
    (hlist : info.list = (s.queries q).list) : Conserved c (s.setQuery q info) := by
  refine ⟨?_, h.outstanding, h.sent, h.rcodes⟩
  have hlists := h.lists
  simp only [setQuery_field QueryInfo.list info hlist]
  exact hlists

theorem Conserved.setSentTimestamp (h : Conserved c s) (q timestamp : Nat) :
    Conserved c (s.setSentTimestamp q timestamp) := h.setQuery _ rfl

theorem Conserved.setInprogress (h : Conserved c s) (q : Nat) (b : Bool) :
    Conserved c (s.setInprogress q b) := h.setQuery _ rfl

theorem Conserved.atBucket (h : Conserved c s) (i : Int) (f : RampBucket → RampBucket) :
    Conserved c (s.atBucket i f) :=
  ⟨h.lists, h.outstanding, h.sent, h.rcodes⟩

theorem Conserved.record (h : Conserved c s) (e : QueryEvent) : Conserved c (s.record e) :=
  ⟨h.lists, h.outstanding, h.sent, h.rcodes⟩

theorem Conserved.not_mem_outstanding (h : Conserved c s) (hq : q ∈ s.instanding) :
    q ∉ s.outstanding :=
  fun hmem => ((h.lists.mem_right q).mp hq).2 ((h.lists.mem_left q).mp hmem).2

theorem Conserved.outstanding_le (h : Conserved c s) : s.outstanding.length ≤ c.maxOutstanding := by
  have hlen := h.lists.length
  omega

theorem Conserved.moveOutstanding (h : Conserved c s) (hq : q ∈ s.instanding) :
    Conserved c (s.moveOutstanding q) := by
  have hnot := h.not_mem_outstanding hq
  refine ⟨?_, ?_, ?_, h.rcodes⟩
  · refine h.lists.putLeft ((h.lists.mem_right q).mp hq).1 ?_ fun b => ?_
    · rw [List.erase_of_not_mem hnot]
      exact List.Perm.refl _
    · simp only [State.moveOutstanding, State.setQuery]
      split_ifs with hb
      · simp [hb]
      · simp [hb]
  · simp only [State.moveOutstanding, List.length_cons, h.outstanding]
  · simp only [State.moveOutstanding, State.setQuery, h.sent]
    omega

theorem Conserved.moveInstanding (h : Conserved c s) (hq : q ∈ s.outstanding) :
    Split (· < c.maxOutstanding) (fun q' => ((s.moveInstanding q).queries q').list = .outstanding)
        (s.moveInstanding q).outstanding (s.moveInstanding q).instanding ∧
      (s.moveInstanding q).numQueriesOutstanding = (s.moveInstanding q).outstanding.length ∧
      (s.moveInstanding q).numQueriesOutstanding + 1 = s.numQueriesOutstanding := by
  have hlt := ((h.lists.mem_left q).mp hq).1
  have hnot : q ∉ s.instanding := fun hmem => h.not_mem_outstanding hmem hq
  have hpos := List.length_pos_of_mem hq
  have hle := h.outstanding_le
  have hmax := c.maxOutstanding_lt
  have hpred : (s.moveInstanding q).numQueriesOutstanding = s.numQueriesOutstanding - 1 :=
    toUint64_pred (by rw [h.outstanding]; exact hpos) (by rw [h.outstanding]; omega)
  refine ⟨h.lists.putRight hlt ?_ fun b => ?_, ?_, ?_⟩
  · rw [List.erase_of_not_mem hnot]
    exact (List.perm_append_singleton q s.instanding)
  · simp only [State.moveInstanding, State.setQuery]
    split_ifs with hb
    · simp [hb]
    · simp [hb]
  · rw [hpred, h.outstanding]
    simp only [State.moveInstanding, List.length_erase_of_mem hq]
  · rw [hpred, h.outstanding]
    omega

theorem Conserved.expire (h : Conserved c s) (hq : q ∈ s.outstanding) :
    Conserved c (s.expire q) := by
  obtain ⟨hlists, hlength, hcount⟩ := h.moveInstanding hq
  refine ⟨hlists, hlength, ?_, h.rcodes⟩
  have hsent : s.numQueriesSent = _ := h.sent
  change s.numQueriesSent = s.numResponsesReceived + (s.numQueriesTimedOut + 1) +
    (s.moveInstanding q).numQueriesOutstanding
  omega

theorem Conserved.respond (h : Conserved c s) (hq : q ∈ s.outstanding) (rcode : Fin 16) :
    Conserved c (c.respond s q rcode) := by
  obtain ⟨hlists, hlength, hcount⟩ := h.moveInstanding hq
  refine ⟨hlists, hlength, ?_, ?_⟩
  · have hsent : s.numQueriesSent = _ := h.sent
    change s.numQueriesSent = s.numResponsesReceived + 1 + s.numQueriesTimedOut +
      (s.moveInstanding q).numQueriesOutstanding
    omega
  · change ∑ r, Function.update s.rcodecounts rcode (s.rcodecounts rcode + 1) r =
      s.numResponsesReceived + 1
    rw [Finset.sum_update_of_mem (Finset.mem_univ rcode), ← h.rcodes,
      ← Finset.add_sum_erase _ _ (Finset.mem_univ rcode), Finset.sdiff_singleton_eq_erase]
    omega

/-- Callbacks, responses and timeouts keep the books. -/
theorem Conserved.settle (h : Conserved c s) (hsettle : Settle c late s s') : Conserved c s' := by
  cases hsettle with
  | attempt => exact ⟨h.lists, h.outstanding, h.sent, h.rcodes⟩
  | connection => exact ⟨h.lists, h.outstanding, h.sent, h.rcodes⟩
  | completed _ _ => exact ((h.atBucket _ _).setSentTimestamp _ _).record _
  | respond rcode hlt hlist => exact h.respond ((h.lists.mem_left _).mpr ⟨hlt, hlist⟩) rcode
  | reject _ => exact h.record _
  | expire hq => exact h.expire hq
  | sock n => exact ⟨h.lists, h.outstanding, h.sent, h.rcodes⟩

/-- **Every change keeps the books.** -/
theorem Conserved.change (h : Conserved c s) (hchange : Change c late s s') : Conserved c s' := by
  cases hchange with
  | settle hsettle => exact h.settle hsettle
  | stamp _ => exact h.setSentTimestamp _ _
  | defer _ _ _ => exact (h.setInprogress _ true).record _
  | finish hhead _ =>
      exact (h.setInprogress _ false).moveOutstanding (List.mem_of_mem_head? hhead)
  | send hhead _ _ _ =>
      exact ((h.moveOutstanding (List.mem_of_mem_head? hhead)).record _).atBucket _ _
  | sustain _ => exact ⟨h.lists, h.outstanding, h.sent, h.rcodes⟩
  | wait _ => exact ⟨h.lists, h.outstanding, h.sent, h.rcodes⟩

/-! ### The buckets -/

variable (c) in
/-- The responses in the buckets, as long as no `int` overflows. -/
structure Bucketed (s : State) : Prop where
  responses : ∑ i ∈ Finset.range c.nBuckets.toNat, (s.buckets i).responses = s.numResponsesReceived
  nonneg : ∀ i, 0 ≤ (s.buckets i).responses

theorem Bucketed.congr (h : Bucketed c s) (hbuckets : ∀ i, (s'.buckets i).responses =
    (s.buckets i).responses) (hreceived : s'.numResponsesReceived = s.numResponsesReceived) :
    Bucketed c s' := by
  refine ⟨?_, fun i => ?_⟩
  · simp only [hbuckets, hreceived, h.responses]
  · rw [hbuckets]
    exact h.nonneg i

theorem Bucketed.le (h : Bucketed c s) {i : Int} (h0 : 0 ≤ i) (hi : i < c.nBuckets) :
    (s.buckets i).responses ≤ s.numResponsesReceived := by
  obtain ⟨k, rfl⟩ := Int.eq_ofNat_of_zero_le h0
  rw [← h.responses]
  exact Finset.single_le_sum (f := fun k : Nat => (s.buckets k).responses)
    (fun k _ => h.nonneg k) (Finset.mem_range.mpr (by omega))

/-- A response is one more in the bucket of its query. -/
theorem respond_responses (rcode : Fin 16)
    (h0 : 0 ≤ (s.buckets (c.findBucket (s.queries q).sentTimestamp)).responses)
    (hlt : (s.buckets (c.findBucket (s.queries q).sentTimestamp)).responses + 1 < 2 ^ 31)
    (i : Int) :
    ((c.respond s q rcode).buckets i).responses = (s.buckets i).responses +
      if i = c.findBucket (s.queries q).sentTimestamp then 1 else 0 := by
  change (if i = c.findBucket ((s.moveInstanding q).queries q).sentTimestamp
    then (s.buckets i).response rcode else s.buckets i).responses = _
  rw [moveInstanding_stamp]
  split_ifs with hi
  · rw [hi]
    exact toInt_of_lt (by omega) hlt
  · rw [add_zero]

theorem Bucketed.respond (h : Bucketed c s) (hn : 0 < c.nBuckets) (rcode : Fin 16)
    (hlt : s.numResponsesReceived + 1 < 2 ^ 31) : Bucketed c (c.respond s q rcode) := by
  obtain ⟨h0, hi⟩ := findBucket_mem hn (s.queries q).sentTimestamp
  have hle := h.le h0 hi
  have hlt' : (s.buckets (c.findBucket (s.queries q).sentTimestamp)).responses + 1 < 2 ^ 31 := by
    omega
  have hbump := respond_responses rcode (h.nonneg _) hlt'
  refine ⟨?_, fun i => ?_⟩
  · rw [sum_bump h0 hi hbump, h.responses]
    rfl
  · have hnonneg := h.nonneg i
    rw [hbump]
    split_ifs <;> omega

theorem Bucketed.settle (hn : 0 < c.nBuckets) (hc : Conserved c s)
    (hfew : s.numQueriesSent < 2 ^ 31)
    (h : Bucketed c s) (hsettle : Settle c late s s') : Bucketed c s' := by
  have hbucket : ∀ {f : RampBucket → RampBucket}, (∀ b, (f b).responses = b.responses) →
      ∀ i, ((s.atBucket (c.findBucket s.timeNow) f).buckets i).responses =
        (s.buckets i).responses := fun hf => atBucket_field RampBucket.responses s _ hf
  cases hsettle with
  | connection => exact h.congr (hbucket fun _ => rfl) rfl
  | completed _ _ => exact h.congr (hbucket fun _ => rfl) rfl
  | respond rcode hlt hlist =>
      have hpos := List.length_pos_of_mem ((hc.lists.mem_left _).mpr ⟨hlt, hlist⟩)
      have hsent := hc.sent
      have hlength := hc.outstanding
      exact h.respond hn rcode (by omega)
  | _ => exact h.congr (fun _ => rfl) rfl

/-- **Every change keeps the buckets**, if there are any. -/
theorem Bucketed.change (hn : 0 < c.nBuckets) (hc : Conserved c s)
    (h : s.numQueriesSent < 2 ^ 31 → Bucketed c s) (hchange : Change c late s s')
    (hfew : s'.numQueriesSent < 2 ^ 31) : Bucketed c s' := by
  cases hchange with
  | settle hsettle =>
      rw [hsettle.frame.numQueriesSent] at hfew
      exact (h hfew).settle hn hc hfew hsettle
  | finish _ _ => exact (h (Nat.lt_of_succ_lt hfew)).congr (fun _ => rfl) rfl
  | send _ _ _ _ =>
      exact (h (Nat.lt_of_succ_lt hfew)).congr
        (atBucket_field RampBucket.responses _ _ fun _ => rfl) rfl
  | _ => exact (h hfew).congr (fun _ => rfl) rfl

/-! ### Over UDP -/

variable (c) in
/-- The outstanding queries of a bucket. -/
def pendingIn (s : State) (i : Int) : Nat :=
  s.outstanding.countP fun q => c.findBucket (s.queries q).sentTimestamp = i

variable (c) in
/-- Over UDP a bucket has had all the queries whose responses it has. -/
structure NoGain (s : State) : Prop where
  idle : ∀ q, (s.queries q).isInprogress = false
  loss : s.numQueriesSent < 2 ^ 31 → ∀ i, 0 ≤ i → i < c.nBuckets →
    (s.buckets i).responses + pendingIn c s i ≤ (s.buckets i).queries ∧
      (s.buckets i).queries ≤ s.numQueriesSent

theorem pendingIn_congr (hlist : s'.outstanding = s.outstanding)
    (hstamp : ∀ q ∈ s.outstanding, (s'.queries q).sentTimestamp = (s.queries q).sentTimestamp)
    (i : Int) : pendingIn c s' i = pendingIn c s i := by
  unfold pendingIn
  rw [hlist]
  refine List.countP_congr fun q hq => ?_
  rw [hstamp q hq]

theorem pendingIn_moveOutstanding (s : State) (q : Nat) (i : Int) :
    pendingIn c (s.moveOutstanding q) i =
      pendingIn c s i + if c.findBucket (s.queries q).sentTimestamp = i then 1 else 0 := by
  simp only [pendingIn, moveOutstanding_stamp]
  simp only [State.moveOutstanding, List.countP_cons, decide_eq_true_eq]

theorem pendingIn_moveInstanding (hq : q ∈ s.outstanding) (i : Int) :
    pendingIn c (s.moveInstanding q) i +
      (if c.findBucket (s.queries q).sentTimestamp = i then 1 else 0) = pendingIn c s i := by
  simp only [pendingIn, moveInstanding_stamp]
  rw [(List.perm_cons_erase hq).countP_eq, List.countP_cons]
  simp only [State.moveInstanding, decide_eq_true_eq]

theorem NoGain.congr (h : NoGain c s) (hidle : ∀ q, (s'.queries q).isInprogress = false)
    (hpending : ∀ i, pendingIn c s' i = pendingIn c s i)
    (hqueries : ∀ i, (s'.buckets i).queries = (s.buckets i).queries)
    (hresponses : ∀ i, (s'.buckets i).responses = (s.buckets i).responses)
    (hsent : s'.numQueriesSent = s.numQueriesSent) : NoGain c s' := by
  refine ⟨hidle, fun hfew i h0 hi => ?_⟩
  rw [hsent] at hfew
  rw [hpending, hqueries, hresponses, hsent]
  exact h.loss hfew i h0 hi

theorem NoGain.send (h : NoGain c s) (hb : s.numQueriesSent < 2 ^ 31 → Bucketed c s)
    (hstamp : (s.queries q).sentTimestamp = s.timeNow) :
    NoGain c ((s.moveOutstanding q).atBucket (c.findBucket s.timeNow) RampBucket.query) := by
  refine ⟨fun q' => ?_, fun hfew i h0 hi => ?_⟩
  · exact (moveOutstanding_inprogress s q q').trans (h.idle q')
  · have hfew' : s.numQueriesSent + 1 < 2 ^ 31 := hfew
    obtain ⟨hloss, hle⟩ := h.loss (by omega) i h0 hi
    have hnonneg := (hb (by omega)).nonneg i
    have hpending := pendingIn_moveOutstanding (c := c) s q i
    rw [hstamp] at hpending
    change (((s.moveOutstanding q).atBucket (c.findBucket s.timeNow) RampBucket.query).buckets
        i).responses + (pendingIn c (s.moveOutstanding q) i : Int) ≤ _ ∧
      _ ≤ ((s.numQueriesSent + 1 : Nat) : Int)
    rw [hpending]
    simp only [State.atBucket]
    by_cases hbucket : i = c.findBucket s.timeNow
    · have hquery : ((s.buckets i).query).queries = (s.buckets i).queries + 1 :=
        toInt_of_lt (by omega) (by omega)
      rw [if_pos hbucket, if_pos hbucket.symm]
      change (s.buckets i).responses + _ ≤ ((s.buckets i).query).queries ∧
        ((s.buckets i).query).queries ≤ _
      rw [hquery]
      push_cast
      omega
    · rw [if_neg hbucket, if_neg fun heq => hbucket heq.symm]
      change (s.buckets i).responses + _ ≤ (s.buckets i).queries ∧ (s.buckets i).queries ≤ _
      push_cast
      omega

theorem NoGain.expire (h : NoGain c s) (hq : q ∈ s.outstanding) : NoGain c (s.expire q) := by
  refine ⟨fun q' => (moveInstanding_inprogress s q q').trans (h.idle q'), fun hfew i h0 hi => ?_⟩
  obtain ⟨hloss, hle⟩ := h.loss hfew i h0 hi
  have hpending := pendingIn_moveInstanding (c := c) hq i
  change (s.buckets i).responses + (pendingIn c (s.moveInstanding q) i : Int) ≤
    (s.buckets i).queries ∧ (s.buckets i).queries ≤ s.numQueriesSent
  omega

theorem NoGain.respond (h : NoGain c s) (hn : 0 < c.nBuckets)
    (hb : s.numQueriesSent < 2 ^ 31 → Bucketed c s) (hq : q ∈ s.outstanding) (rcode : Fin 16) :
    NoGain c (c.respond s q rcode) := by
  refine ⟨fun q' => (moveInstanding_inprogress s q q').trans (h.idle q'), fun hfew i h0 hi => ?_⟩
  have hfew' : s.numQueriesSent < 2 ^ 31 := hfew
  obtain ⟨hloss, hle⟩ := h.loss hfew' i h0 hi
  have hpending := pendingIn_moveInstanding (c := c) hq
  -- the query is one of those the bucket has had
  obtain ⟨hb0, hbn⟩ := findBucket_mem hn (s.queries q).sentTimestamp
  have hlt : (s.buckets (c.findBucket (s.queries q).sentTimestamp)).responses + 1 < 2 ^ 31 := by
    have hown := hpending (c.findBucket (s.queries q).sentTimestamp)
    rw [if_pos rfl] at hown
    have hloss' := h.loss hfew' _ hb0 hbn
    omega
  have hbump := respond_responses rcode ((hb hfew').nonneg _) hlt i
  have hqueries : ((c.respond s q rcode).buckets i).queries = (s.buckets i).queries := by
    simp only [Setup.respond, State.atBucket]
    split_ifs <;> rfl
  have hpending := hpending i
  change ((c.respond s q rcode).buckets i).responses + (pendingIn c (s.moveInstanding q) i : Int) ≤
    ((c.respond s q rcode).buckets i).queries ∧ ((c.respond s q rcode).buckets i).queries ≤
      s.numQueriesSent
  rw [hbump, hqueries]
  by_cases hbucket : i = c.findBucket (s.queries q).sentTimestamp
  · rw [if_pos hbucket]
    rw [if_pos hbucket.symm] at hpending
    omega
  · rw [if_neg hbucket]
    rw [if_neg fun heq => hbucket heq.symm] at hpending
    omega

/-- Over UDP, callbacks, responses and timeouts keep the responses of a bucket below its queries. -/
theorem NoGain.settle (hn : 0 < c.nBuckets) (hudp : ¬ late) (hc : Conserved c s)
    (hb : s.numQueriesSent < 2 ^ 31 → Bucketed c s) (h : NoGain c s)
    (hsettle : Settle c late s s') : NoGain c s' := by
  cases hsettle with
  | connection =>
      exact h.congr h.idle (fun _ => rfl) (atBucket_field RampBucket.queries _ _ fun _ => rfl)
        (atBucket_field RampBucket.responses _ _ fun _ => rfl) rfl
  | completed hlate _ => exact absurd hlate hudp
  | respond rcode hlt hlist => exact h.respond hn hb ((hc.lists.mem_left _).mpr ⟨hlt, hlist⟩) rcode
  | expire hq => exact h.expire hq
  | _ => exact h.congr h.idle (fun _ => rfl) (fun _ => rfl) (fun _ => rfl) rfl

/-- **Every change over UDP** keeps the responses of a bucket below its queries. -/
theorem NoGain.change (hn : 0 < c.nBuckets) (hudp : ¬ late) (hc : Conserved c s)
    (hb : s.numQueriesSent < 2 ^ 31 → Bucketed c s) (h : NoGain c s)
    (hchange : Change c late s s') : NoGain c s' := by
  cases hchange with
  | settle hsettle => exact h.settle hn hudp hc hb hsettle
  | stamp hhead =>
      rename_i q
      refine h.congr (fun q' => (setSentTimestamp_inprogress s q s.timeNow q').trans (h.idle q')) ?_
        (fun _ => rfl) (fun _ => rfl) rfl
      refine pendingIn_congr rfl fun q' hq' => ?_
      -- the entry is not on the other list
      have hne : q' ≠ q :=
        fun heq => hc.not_mem_outstanding (List.mem_of_mem_head? hhead) (heq ▸ hq')
      simp only [State.setSentTimestamp, State.setQuery, if_neg hne]
  | defer hlate _ _ => exact absurd hlate hudp
  | finish _ hinprogress => exact absurd (hinprogress.symm.trans (h.idle _)) (by decide)
  | send _ _ hstamp _ =>
      have hsend := h.send hb hstamp
      exact hsend.congr hsend.idle (fun _ => rfl) (fun _ => rfl) (fun _ => rfl) rfl
  | _ => exact h.congr h.idle (fun _ => rfl) (fun _ => rfl) (fun _ => rfl) rfl

/-! ### Runs -/

variable (c) in
/-- The books and, if there are any, the buckets. -/
def Kept (s : State) : Prop :=
  Conserved c s ∧ (0 < c.nBuckets → s.numQueriesSent < 2 ^ 31 → Bucketed c s)

theorem Kept.change (h : Kept c s) (hchange : Change c late s s') : Kept c s' :=
  ⟨h.1.change hchange, fun hn => Bucketed.change hn h.1 (h.2 hn) hchange⟩

theorem Kept.clock (h : Kept c s) (now : Nat) : Kept c { s with timeNow := now } :=
  ⟨⟨h.1.lists, h.1.outstanding, h.1.sent, h.1.rcodes⟩,
    fun hn hfew => (h.2 hn hfew).congr (fun _ => rfl) rfl⟩

theorem NoGain.clock (h : NoGain c s) (now : Nat) : NoGain c { s with timeNow := now } :=
  h.congr h.idle (fun _ => rfl) (fun _ => rfl) (fun _ => rfl) rfl

theorem NoGain.next {it : Iteration} (hn : 0 < c.nBuckets) (hudp : it.Udp)
    (h : Kept c s ∧ NoGain c s) (hnext : c.next s it = some s') : Kept c s' ∧ NoGain c s' :=
  next_invariant (I := fun s => Kept c s ∧ NoGain c s)
    (fun _ _ h hchange =>
      ⟨h.1.change hchange, h.2.change hn (not_not.mpr hudp) h.1.1 (h.1.2 hn) hchange⟩)
    (fun _ _ h => ⟨h.1.clock _, h.2.clock _⟩) h hnext

theorem initial_kept (c : Setup) : Kept c c.initial ∧ NoGain c c.initial := by
  have hlists : Split (· < c.maxOutstanding) (fun q => (c.initial.queries q).list = .outstanding)
      c.initial.outstanding c.initial.instanding := by
    refine ⟨List.nodup_nil, List.nodup_range, fun q => ?_, fun q => ?_⟩
    · simp [Setup.initial]
    · simp [Setup.initial]
  refine ⟨⟨⟨hlists, rfl, rfl, ?_⟩, fun _ _ => ⟨?_, fun _ => le_rfl⟩⟩, fun _ => rfl,
    fun _ _ _ _ => ?_⟩
  · simp [Setup.initial]
  · simp [Setup.initial]
  · simp [Setup.initial, pendingIn]

theorem start_kept (c : Setup) (opened : List SocketEvent) :
    Kept c (c.start opened) ∧ (0 < c.nBuckets → NoGain c (c.start opened)) := by
  have hsettles : Settles c False c.initial (c.start opened) :=
    perfNetEvents_settles opened c.initial
  obtain ⟨hkept, hnoGain⟩ := initial_kept c
  refine ⟨hsettles.changes.invariant (fun _ _ => Kept.change) hkept, fun hn => ?_⟩
  have hboth := hsettles.changes.invariant (I := fun s => Kept c s ∧ NoGain c s)
    (fun _ _ h hchange => ⟨h.1.change hchange, h.2.change hn id h.1.1 (h.1.2 hn) hchange⟩)
    ⟨hkept, hnoGain⟩
  exact hboth.2

/-- **Conservation.** In every state of the main loop the books are right; so are the buckets,
if there is one and fewer than 2³¹ queries have been sent, and over UDP no bucket has more
responses than queries. -/
theorem conserved_run (c : Setup) (opened : List SocketEvent) (es : List Iteration) (s : State)
    (hrun : Run (StepOf c.next) (c.start opened) es s) :
    Conserved c s ∧
      (0 < c.nBuckets → s.numQueriesSent < 2 ^ 31 →
        ∑ i ∈ Finset.range c.nBuckets.toNat, (s.buckets i).responses = s.numResponsesReceived ∧
          ((∀ it ∈ es, it.Udp) → ∀ i, 0 ≤ i → i < c.nBuckets →
            (s.buckets i).responses ≤ (s.buckets i).queries)) := by
  obtain ⟨hkept, hnoGain⟩ := start_kept c opened
  have hall : Kept c s := hrun.invariant
    (fun _ _ _ => next_invariant (fun _ _ => Kept.change) fun _ _ h => h.clock _) hkept
  refine ⟨hall.1, fun hn hfew => ⟨(hall.2 hn hfew).responses, fun hudp i h0 hi => ?_⟩⟩
  have hudpRun := (hrun.guarded hudp).invariant (I := fun s => Kept c s ∧ NoGain c s)
    (fun _ _ _ h hstep => NoGain.next hn hstep.1 h hstep.2) ⟨hkept, hnoGain hn⟩
  obtain ⟨hloss, -⟩ := hudpRun.2.loss hfew i h0 hi
  omega

/-- A query is sent when the first one is due, and answered. -/
def oneAnswer (due : Nat) : List Iteration :=
  let send : SendCall := ⟨[], ⟨[], 1⟩, .success, .success, [], .sent⟩
  [⟨send, [], 1000 + due⟩, ⟨send, [⟨⟨[], 1⟩, [], .packet [0, 0, 128, 0]⟩], 1000 + due⟩]

/-- An hour with a bucket for every half second. -/
def hourLong : Setup :=
  { slowRamp (3600 * million) 500000 with
    perClient := by decide
    traffic_pos := by decide
    interval_pos := by decide
    nBuckets_nonneg := by decide }

/-- After a response to one query, over UDP. -/
theorem conserved_run_hour :
    ∃ s, s.numResponsesReceived = 1 ∧ Conserved hourLong s ∧
      ∑ i ∈ Finset.range hourLong.nBuckets.toNat, (s.buckets i).responses = s.numResponsesReceived ∧
      ∀ i, 0 ≤ i → i < hourLong.nBuckets → (s.buckets i).responses ≤ (s.buckets i).queries := by
  obtain ⟨s, hrun, hend⟩ := Run.exists_of_follow (fun _ _ => True) hourLong.next
    (hourLong.start []) (oneAnswer (30 * million))
    (fun s => s.numResponsesReceived = 1 ∧ s.numQueriesSent < 2 ^ 31) (by decide +kernel)
  obtain ⟨hone, hfew⟩ := of_decide_eq_true hend
  obtain ⟨hconserved, hbuckets⟩ := conserved_run hourLong [] _ s
    (hrun.mono fun _ _ _ hstep => hstep.2)
  obtain ⟨hsum, hudp⟩ := hbuckets (by decide) hfew
  exact ⟨s, hone, hconserved, hsum, hudp (by simp [oneAnswer, Iteration.Udp, SockReady.Late])⟩

/-- **A bucket for every microsecond of 2³² microseconds.** `n_buckets` is 0, and the only
response is in no bucket. -/
theorem no_bucket_for_response :
    ∃ c s, setup (slowRamp (2 ^ 32) 1) = some c ∧
      Run (StepOf c.next) (c.start []) (oneAnswer (30 * million)) s ∧
      s.numResponsesReceived = 1 ∧
      ∑ i ∈ Finset.range c.nBuckets.toNat, (s.buckets i).responses = 0 := by
  let c : Setup :=
    { slowRamp (2 ^ 32) 1 with
      perClient := by decide
      traffic_pos := by decide
      interval_pos := by decide
      nBuckets_nonneg := by decide }
  obtain ⟨s, hrun, hend⟩ := Run.exists_of_follow (fun _ _ => True) c.next (c.start [])
    (oneAnswer (30 * million)) (fun s => s.numResponsesReceived = 1) (by decide +kernel)
  have hn : c.nBuckets.toNat = 0 := by decide
  refine ⟨c, s, rfl, hrun.mono fun _ _ _ hstep => hstep.2, of_decide_eq_true hend, ?_⟩
  rw [hn]
  rfl

end Dnsperf.Resperf
