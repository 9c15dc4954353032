import Dnsperf.Lib.Run

/-!
# Dnsperf.Lib.RoundRobin

**Sources asked in turn.** The sources that may still have something stand in a queue. The
first is asked; it goes to the back if it gave something and leaves the queue if it did
not. A list of turns is fair: of the sources that always gave, none is ever more than one
ahead of another (`Turn.balanced`).

What the queue does to the sources of interest is all that matters to them, so `Balanced`
speaks about a part of the queue. It is then kept, too, when sources of no interest come
back.
-/

namespace Dnsperf.Lib

variable {α : Type*}

/-- A turn: who was asked, and whether it gave something. -/
inductive Turn : List α → α × Bool → List α → Prop
  | gave (a : α) (q : List α) : Turn (a :: q) (a, true) (q ++ [a])
  | dry (a : α) (q : List α) : Turn (a :: q) (a, false) q

/-- How often a source gave something. -/
def gaves [DecidableEq α] (turns : List (α × Bool)) (a : α) : Nat := turns.count (a, true)

/-- Who is asked earlier has been given as much as who is asked later, or one less. -/
def Balanced (n : α → Nat) (q : List α) : Prop := q.Pairwise fun a b => n a ≤ n b ∧ n b ≤ n a + 1

namespace Turn

variable {q q' : List α} {turns : List (α × Bool)}

theorem nodup (hrun : Run Turn q turns q') (hq : q.Nodup) : q'.Nodup := by
  refine hrun.invariant (I := List.Nodup) ?_ hq
  intro q turn q' hq hturn
  cases hturn with
  | gave a q => exact (List.perm_append_singleton a q).nodup_iff.mpr hq
  | dry a q => exact hq.of_cons

/-- Who is no longer in the queue was asked in vain. -/
theorem asked_in_vain (hrun : Run Turn q turns q') {a : α} (ha : a ∈ q) (ha' : a ∉ q') :
    (a, false) ∈ turns := by
  induction hrun with
  | nil q => exact absurd ha ha'
  | cons hturn _ ih =>
      cases hturn with
      | gave b q => exact List.mem_cons_of_mem _ (ih (by simpa [or_comm] using ha) ha')
      | dry b q =>
          rcases List.mem_cons.mp ha with rfl | ha
          · exact List.mem_cons_self
          · exact List.mem_cons_of_mem _ (ih ha ha')

theorem mem_of_asked (hrun : Run Turn q turns q') {turn : α × Bool} (hturn : turn ∈ turns) :
    turn.1 ∈ q := by
  induction hrun with
  | nil q => exact nomatch hturn
  | cons hstep _ ih =>
      rcases List.mem_cons.mp hturn with rfl | hturn
      · cases hstep <;> exact List.mem_cons_self
      · have hmem := ih hturn
        cases hstep with
        | gave a q => simpa [or_comm] using hmem
        | dry a => exact List.mem_cons_of_mem _ hmem

theorem not_again (hrun : Run Turn q turns q') (hq : q.Nodup) :
    turns.Pairwise fun turn later => turn.2 = false → later.1 ≠ turn.1 := by
  induction hrun with
  | nil q => exact List.Pairwise.nil
  | @cons q q₁ q' turn turns hturn hrest ih =>
      have hone : Run Turn q [turn] q₁ := Run.cons hturn (Run.nil _)
      refine List.pairwise_cons.mpr ⟨?_, ih (nodup hone hq)⟩
      intro later hlater hvain
      cases hturn with
      | gave a q => exact absurd hvain (by simp)
      | dry a q =>
          intro heq
          obtain rfl : later.1 = a := heq
          exact (List.nodup_cons.mp hq).1 (mem_of_asked hrest hlater)

end Turn

section Fair

variable [DecidableEq α] {q q' : List α} {turns : List (α × Bool)} {S : α → Bool} {n : α → Nat}

theorem gaves_cons (turn : α × Bool) (turns : List (α × Bool)) (a : α) :
    gaves (turn :: turns) a = gaves turns a + if turn = (a, true) then 1 else 0 := by
  simp only [gaves, List.count_cons, beq_iff_eq]

theorem Turn.balanced_step {turn : α × Bool} (hturn : Turn q turn q') (hq : q.Nodup)
    (hS : S turn.1 = true → turn.2 = true) (h : Balanced n (q.filter S)) :
    Balanced (fun a => n a + if turn = (a, true) then 1 else 0) (q'.filter S) := by
  cases hturn with
  | dry a q =>
      have ha : S a = false := by simpa using hS
      simpa [ha] using h
  | gave a q =>
      obtain ⟨ha, -⟩ := List.nodup_cons.mp hq
      have hrest : Balanced (fun b => n b + if (a, true) = (b, true) then 1 else 0)
          (q.filter S) := by
        have htail : Balanced n (q.filter S) := by
          by_cases hSa : S a
          · rw [List.filter_cons_of_pos hSa] at h
            exact (List.pairwise_cons.mp h).2
          · rwa [List.filter_cons_of_neg hSa] at h
        refine List.Pairwise.imp_of_mem ?_ htail
        intro x y hx hy hxy
        have hne : ∀ z ∈ q.filter S, (a, true) ≠ (z, true) := by
          intro z hz heq
          exact ha (by rw [(Prod.mk.inj heq).1]; exact List.mem_of_mem_filter hz)
        simpa only [if_neg (hne x hx), if_neg (hne y hy), Nat.add_zero] using hxy
      by_cases hSa : S a
      · rw [List.filter_append, List.filter_cons_of_pos hSa, List.filter_nil]
        rw [List.filter_cons_of_pos hSa] at h
        refine List.pairwise_append.mpr ⟨hrest, List.pairwise_singleton _ _, ?_⟩
        intro x hx y hy
        obtain rfl := List.mem_singleton.mp hy
        have hxy := (List.pairwise_cons.mp h).1 x hx
        have hne : (y, true) ≠ (x, true) := by
          intro heq
          exact ha (by rw [(Prod.mk.inj heq).1]; exact List.mem_of_mem_filter hx)
        simp only [if_neg hne, if_true]
        omega
      · rw [List.filter_append, List.filter_cons_of_neg hSa, List.filter_nil, List.append_nil]
        exact hrest

/-- **Turns are fair** to the sources that always give. -/
theorem Turn.balanced (hrun : Run Turn q turns q') (hq : q.Nodup)
    (hS : ∀ turn ∈ turns, S turn.1 = true → turn.2 = true) (h : Balanced n (q.filter S)) :
    Balanced (fun a => n a + gaves turns a) (q'.filter S) := by
  induction hrun generalizing n with
  | nil q => simpa [gaves] using h
  | @cons q q₁ q' turn turns hturn hrest ih =>
      have hone : Run Turn q [turn] q₁ := Run.cons hturn (Run.nil _)
      have hstep := hturn.balanced_step hq (hS turn List.mem_cons_self) h
      have := ih (Turn.nodup hone hq) (fun t ht => hS t (List.mem_cons_of_mem _ ht)) hstep
      simpa only [gaves_cons, Nat.add_assoc, Nat.add_comm (gaves turns _)] using this

omit [DecidableEq α] in
/-- Of the sources in a balanced queue none is more than one ahead of another. -/
theorem Balanced.le_succ (h : Balanced n q) {a b : α} (ha : a ∈ q) (hb : b ∈ q) :
    n a ≤ n b + 1 := by
  have hsymm : q.Pairwise fun a b => n a ≤ n b + 1 ∧ n b ≤ n a + 1 :=
    h.imp fun ⟨h₁, h₂⟩ => ⟨by omega, h₂⟩
  have : Std.Symm fun a b => n a ≤ n b + 1 ∧ n b ≤ n a + 1 := ⟨fun _ _ h => ⟨h.2, h.1⟩⟩
  exact (hsymm.forall_of_forall (fun _ _ => ⟨by omega, by omega⟩) ha hb).1

end Fair

end Dnsperf.Lib
