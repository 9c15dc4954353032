import Dnsperf.Thread.Model

/-!
# Dnsperf.Thread.Flush

What `perf_net_sockready` does to a thread. `do_send` calls it in three loops: to find a
socket, to flush those still sending, and at its end. All that **any of them** does to the
`threadinfo_t` is to store timestamps of delayed queries and to go on to the next socket:
`Flushed`. What both keep, all three loops keep.
-/

namespace Dnsperf.Thread

/-- One of `calls` has finished writing the query. -/
def Finished (calls : List ThreadInfo.SockreadyCall) (qid : UInt16) : Prop :=
  ∃ call ∈ calls, qid ∈ call.sent

namespace ThreadInfo

/-- Queries that meet `P` have got their timestamps, and sockets have been tried. -/
inductive Flushed (now : Nat) (P : UInt16 → Prop) : ThreadInfo → ThreadInfo → Prop
  | refl (t : ThreadInfo) : Flushed now P t t
  | sent {t t' : ThreadInfo} {qid : UInt16} (hqid : P qid)
      (h : Flushed now P (t.perfNetSent now qid) t') : Flushed now P t t'
  | tried {t t' : ThreadInfo} (currentSock : UInt32)
      (h : Flushed now P { t with currentSock := currentSock } t') : Flushed now P t t'

variable {now : Nat} {P : UInt16 → Prop} {t t' t'' : ThreadInfo}

namespace Flushed

theorem trans (h : Flushed now P t t') (h' : Flushed now P t' t'') : Flushed now P t t'' := by
  induction h with
  | refl t => exact h'
  | sent hqid _ ih => exact .sent hqid (ih h')
  | tried currentSock _ ih => exact .tried currentSock (ih h')

theorem mono {Q : UInt16 → Prop} (h : Flushed now P t t') (hPQ : ∀ qid, P qid → Q qid) :
    Flushed now Q t t' := by
  induction h with
  | refl t => exact .refl t
  | sent hqid _ ih => exact .sent (hPQ _ hqid) ih
  | tried currentSock _ ih => exact .tried currentSock ih

theorem more {call : SockreadyCall} {calls : List SockreadyCall}
    (h : Flushed now (Finished calls) t t') : Flushed now (Finished (call :: calls)) t t' := by
  refine h.mono ?_
  rintro qid ⟨call', hmem, hqid⟩
  exact ⟨call', List.mem_cons_of_mem call hmem, hqid⟩

end Flushed

theorem flushed_sockready (t : ThreadInfo) (now : Nat) (call : SockreadyCall)
    (calls : List SockreadyCall) :
    Flushed now (Finished (call :: calls)) t (t.sockready now call) := by
  suffices h : ∀ (qids : List UInt16) (t : ThreadInfo), (∀ qid ∈ qids, qid ∈ call.sent) →
      Flushed now (Finished (call :: calls)) t
        (qids.foldl (fun t qid => t.perfNetSent now qid) t) from h call.sent t fun _ hqid => hqid
  intro qids
  induction qids with
  | nil => exact fun t _ => .refl t
  | cons qid qids ih =>
      intro t hsent
      have hfinished : Finished (call :: calls) qid :=
        ⟨call, List.mem_cons_self, hsent qid List.mem_cons_self⟩
      refine .sent hfinished ?_
      exact ih _ fun qid' hqid' => hsent qid' (List.mem_cons_of_mem qid hqid')

theorem flushed_scan {nsocks i : Nat} {calls : List SockreadyCall} {allFail : Bool}
    {found : Option Nat × Bool} (hscan : scan nsocks now i calls allFail t = some (found, t')) :
    Flushed now (Finished calls) t t' := by
  induction i generalizing t calls allFail with
  | zero =>
      rw [scan, Option.some.injEq] at hscan
      rw [(Prod.mk.inj hscan).2]
      exact .refl t'
  | succ i ih =>
      cases calls with
      | nil => exact nomatch hscan
      | cons call calls =>
          have hcall := t.flushed_sockready now call calls
          rw [scan] at hscan
          dsimp only at hscan
          split_ifs at hscan
          · exact hcall.trans (.tried _ (ih hscan).more)
          · exact hcall.trans (.tried _ (ih hscan).more)
          · rw [← (Prod.mk.inj (Option.some.inj hscan)).2]
            exact hcall.trans (.tried _ (.refl _))

theorem flushed_flushSocks {socks : List Nat} {calls : List SockreadyCall} {v v' : SenderVars}
    (hflush : flushSocks now socks calls v t = some (v', t')) :
    Flushed now (Finished calls) t t' ∧ v'.now = v.now := by
  induction socks generalizing t calls v with
  | nil =>
      rw [flushSocks, Option.some.injEq] at hflush
      obtain ⟨rfl, rfl⟩ := Prod.mk.inj hflush
      exact ⟨.refl t, rfl⟩
  | cons i socks ih =>
      unfold flushSocks at hflush
      split_ifs at hflush
      · cases calls with
        | nil => exact nomatch hflush
        | cons call calls =>
            obtain ⟨hrest, hnow⟩ := ih hflush
            refine ⟨(t.flushed_sockready now call calls).trans hrest.more, hnow.trans ?_⟩
            split_ifs <;> rfl
      · exact ih hflush

theorem flushed_drainSocks {n : Nat} {calls : List SockreadyCall} {v v' : SenderVars}
    (hdrain : drainSocks now n calls v t = some (v', t')) :
    Flushed now (Finished calls) t t' ∧ v'.now = v.now := by
  induction n generalizing t calls v with
  | zero =>
      rw [drainSocks, Option.some.injEq] at hdrain
      obtain ⟨rfl, rfl⟩ := Prod.mk.inj hdrain
      exact ⟨.refl t, rfl⟩
  | succ n ih =>
      cases calls with
      | nil => exact nomatch hdrain
      | cons call calls =>
          obtain ⟨hrest, hnow⟩ := ih hdrain
          refine ⟨(t.flushed_sockready now call calls).trans hrest.more, hnow.trans ?_⟩
          split_ifs <;> rfl

/-- **The locked region of `do_send`**: too many queries are outstanding, or the first
unused query is taken and the sockets are tried. Then it goes back if none is ready. -/
theorem acquire_cases {cfg : Config} {calls : List SockreadyCall} {acquired : Acquired}
    (h : t.acquire cfg now calls = some (acquired, t')) :
    (cfg.maxOutstanding ≤ t.stats.numOutstanding ∧ acquired = .nothing ∧ t' = t) ∨
      (t.stats.numOutstanding < cfg.maxOutstanding ∧
        ∃ q rest t₁, t.unused = q :: rest ∧ Flushed now (Finished calls) (t.take q) t₁ ∧
          (acquired = .fatal ∧ t' = t₁ ∨
            acquired = .nothing ∧ t' = (t₁.setSock q none).queryMove q .prependUnused ∨
            ∃ sock, acquired = .query q sock ∧ t' = t₁.setSock q (some sock))) := by
  unfold acquire at h
  split_ifs at h with hlimit
  · obtain ⟨rfl, rfl⟩ := Prod.mk.inj (Option.some.inj h)
    exact Or.inl ⟨hlimit, rfl, rfl⟩
  · refine Or.inr ⟨Nat.lt_of_not_le hlimit, ?_⟩
    split at h
    · exact nomatch h
    · rename_i q rest hunused
      split at h
      · exact nomatch h
      · rename_i t₁ hscan
        obtain ⟨rfl, rfl⟩ := Prod.mk.inj (Option.some.inj h)
        exact ⟨q, rest, t₁, hunused, flushed_scan hscan, Or.inl ⟨rfl, rfl⟩⟩
      · rename_i t₁ hscan
        obtain ⟨rfl, rfl⟩ := Prod.mk.inj (Option.some.inj h)
        exact ⟨q, rest, t₁, hunused, flushed_scan hscan, Or.inr (Or.inl ⟨rfl, rfl⟩)⟩
      · rename_i sock t₁ hscan
        obtain ⟨rfl, rfl⟩ := Prod.mk.inj (Option.some.inj h)
        exact ⟨q, rest, t₁, hunused, flushed_scan hscan, Or.inr (Or.inr ⟨sock, rfl, rfl⟩)⟩

end ThreadInfo

end Dnsperf.Thread
