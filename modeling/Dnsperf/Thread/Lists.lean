import Dnsperf.Thread.Model

/-!
# Dnsperf.Thread.Lists

The two lists of a thread and `query_move` between them. **A query is on the list it
says it is on** (`Lists`), and moving it changes nothing else about it.
-/

namespace Dnsperf.Thread.ThreadInfo

variable (t : ThreadInfo) (q : Nat) (op : QueryMoveOp)

/-! ### What `query_move` leaves alone -/

@[simp] theorem unlink_queries : (t.unlink q).queries = t.queries := by
  unfold unlink
  split <;> rfl

theorem queryMove_query (q' : Nat) :
    ((t.queryMove q op).queries q').timestamp = (t.queries q').timestamp ∧
      ((t.queryMove q op).queries q').serial = (t.queries q').serial ∧
      ((t.queryMove q op).queries q').sock = (t.queries q').sock := by
  by_cases hq : q' = q
  · cases op <;> simp [queryMove, setQuery, hq]
  · cases op <;> simp [queryMove, setQuery, hq]

@[simp] theorem queryMove_timestamp (q' : Nat) :
    ((t.queryMove q op).queries q').timestamp = (t.queries q').timestamp :=
  (t.queryMove_query q op q').1

@[simp] theorem queryMove_serial (q' : Nat) :
    ((t.queryMove q op).queries q').serial = (t.queries q').serial :=
  (t.queryMove_query q op q').2.1

/-- Everything but the queries and the lists. -/
theorem queryMove_rest :
    (t.queryMove q op).stats = t.stats ∧ (t.queryMove q op).serials = t.serials ∧
      (t.queryMove q op).failed = t.failed ∧ (t.queryMove q op).timedout = t.timedout ∧
      (t.queryMove q op).completed = t.completed ∧
      (t.queryMove q op).doneSending = t.doneSending := by
  unfold queryMove unlink
  cases op <;> cases (t.queries q).list <;> exact ⟨rfl, rfl, rfl, rfl, rfl, rfl⟩

@[simp] theorem queryMove_stats : (t.queryMove q op).stats = t.stats := (t.queryMove_rest q op).1

@[simp] theorem queryMove_serials : (t.queryMove q op).serials = t.serials :=
  (t.queryMove_rest q op).2.1

@[simp] theorem queryMove_failed : (t.queryMove q op).failed = t.failed :=
  (t.queryMove_rest q op).2.2.1

@[simp] theorem queryMove_timedout : (t.queryMove q op).timedout = t.timedout :=
  (t.queryMove_rest q op).2.2.2.1

@[simp] theorem queryMove_completed : (t.queryMove q op).completed = t.completed :=
  (t.queryMove_rest q op).2.2.2.2.1

@[simp] theorem queryMove_doneSending : (t.queryMove q op).doneSending = t.doneSending :=
  (t.queryMove_rest q op).2.2.2.2.2

/-! ### The lists -/

/-- No query is on a list twice, and each says which list it is on. -/
structure Lists : Prop where
  nodup_outstanding : t.outstanding.Nodup
  nodup_unused : t.unused.Nodup
  mem_outstanding : ∀ q, q ∈ t.outstanding ↔ (t.queries q).list = .outstanding
  mem_unused : ∀ q ∈ t.unused, (t.queries q).list = .unused

theorem lists_init : init.Lists where
  nodup_outstanding := List.nodup_nil
  nodup_unused := List.nodup_range'
  mem_outstanding := fun q => ⟨fun hq => absurd hq List.not_mem_nil, fun hlist => nomatch hlist⟩
  mem_unused := fun _ _ => rfl

variable {t q op}

theorem Lists.congr {t' : ThreadInfo} (h : t.Lists) (hout : t'.outstanding = t.outstanding)
    (hunused : t'.unused = t.unused) (hlist : ∀ q, (t'.queries q).list = (t.queries q).list) :
    t'.Lists where
  nodup_outstanding := by rw [hout]; exact h.nodup_outstanding
  nodup_unused := by rw [hunused]; exact h.nodup_unused
  mem_outstanding := fun q => by rw [hout, hlist]; exact h.mem_outstanding q
  mem_unused := fun q hq => by
    rw [hunused] at hq
    rw [hlist]
    exact h.mem_unused q hq

theorem prependUnused_ne : QueryMoveOp.prependUnused ≠ .prependOutstanding := fun h => nomatch h

theorem appendUnused_ne : QueryMoveOp.appendUnused ≠ .prependOutstanding := fun h => nomatch h

/-- A move away from the outstanding queries, to either end of the unused ones. -/
theorem queryMove_unused (hlist : (t.queries q).list = .outstanding)
    (hop : op ≠ .prependOutstanding) :
    (t.queryMove q op).outstanding = t.outstanding.erase q ∧
      ((t.queryMove q op).unused = q :: t.unused ∨ (t.queryMove q op).unused = t.unused ++ [q]) ∧
      ∀ q', ((t.queryMove q op).queries q').list =
        if q' = q then .unused else (t.queries q').list := by
  unfold queryMove unlink
  rw [hlist]
  cases op with
  | prependUnused =>
      refine ⟨rfl, Or.inl rfl, fun q' => ?_⟩
      by_cases hq : q' = q <;> simp [setQuery, hq]
  | appendUnused =>
      refine ⟨rfl, Or.inr rfl, fun q' => ?_⟩
      by_cases hq : q' = q <;> simp [setQuery, hq]
  | prependOutstanding => exact absurd rfl hop

theorem Lists.queryMove_unused (h : t.Lists) (hlist : (t.queries q).list = .outstanding)
    (hop : op ≠ .prependOutstanding) : (t.queryMove q op).Lists := by
  obtain ⟨hout, hunused, hlists⟩ := ThreadInfo.queryMove_unused hlist hop
  have hq : q ∉ t.unused := fun hq => nomatch hlist.symm.trans (h.mem_unused q hq)
  refine ⟨?_, ?_, ?_, ?_⟩
  · rw [hout]
    exact h.nodup_outstanding.erase q
  · rcases hunused with hunused | hunused
    · rw [hunused]
      exact List.nodup_cons.mpr ⟨hq, h.nodup_unused⟩
    · rw [hunused, List.nodup_append_comm]
      exact List.nodup_cons.mpr ⟨hq, h.nodup_unused⟩
  · intro q'
    rw [hout, h.nodup_outstanding.mem_erase_iff, hlists, h.mem_outstanding]
    by_cases hqq : q' = q <;> simp [hqq]
  · intro q' hq'
    rw [hlists]
    split_ifs with hqq
    · rfl
    · have hmem : q' = q ∨ q' ∈ t.unused := by
        rcases hunused with hunused | hunused
        · exact List.mem_cons.mp (hunused ▸ hq')
        · rw [hunused] at hq'
          exact (List.mem_append.mp hq').symm.imp_left List.mem_singleton.mp
      exact h.mem_unused q' (hmem.resolve_left hqq)

/-- A move of an unused query to the outstanding ones. -/
theorem queryMove_outstanding (hlist : (t.queries q).list = .unused) :
    (t.queryMove q .prependOutstanding).outstanding = q :: t.outstanding ∧
      (t.queryMove q .prependOutstanding).unused = t.unused.erase q ∧
      ∀ q', ((t.queryMove q .prependOutstanding).queries q').list =
        if q' = q then .outstanding else (t.queries q').list := by
  unfold queryMove unlink
  rw [hlist]
  refine ⟨rfl, rfl, fun q' => ?_⟩
  by_cases hq : q' = q <;> simp [setQuery, hq]

theorem Lists.queryMove_outstanding (h : t.Lists) (hlist : (t.queries q).list = .unused) :
    (t.queryMove q .prependOutstanding).Lists := by
  obtain ⟨hout, hunused, hlists⟩ := ThreadInfo.queryMove_outstanding hlist
  have hq : q ∉ t.outstanding := fun hq =>
    nomatch hlist.symm.trans ((h.mem_outstanding q).mp hq)
  refine ⟨?_, ?_, ?_, ?_⟩
  · rw [hout]
    exact List.nodup_cons.mpr ⟨hq, h.nodup_outstanding⟩
  · rw [hunused]
    exact h.nodup_unused.erase q
  · intro q'
    rw [hout, List.mem_cons, hlists, h.mem_outstanding]
    by_cases hqq : q' = q <;> simp [hqq]
  · intro q' hq'
    rw [hunused, h.nodup_unused.mem_erase_iff] at hq'
    rw [hlists, if_neg hq'.1]
    exact h.mem_unused q' hq'.2

end Dnsperf.Thread.ThreadInfo
