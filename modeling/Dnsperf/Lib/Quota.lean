import Mathlib.Data.List.Count

/-!
# Dnsperf.Lib.Quota

**A counter that keeps a quota in every window.** What is admitted falls into the window `w`
says. The counter knows one window `j` and how many it has admitted there; it starts again from 0
when it goes on to the next.
-/

namespace Dnsperf.Lib

variable {α : Type*} {w : α → Nat} {quota j n : Nat} {l : List α} {a : α}

/-- How many of `l` fall into window `k`. -/
def inWindow (w : α → Nat) (k : Nat) (l : List α) : Nat := l.countP fun a => w a = k

theorem inWindow_cons (w : α → Nat) (k : Nat) (a : α) (l : List α) :
    inWindow w k (a :: l) = inWindow w k l + if w a = k then 1 else 0 := by
  unfold inWindow
  rw [List.countP_cons]
  simp only [decide_eq_true_eq]

/-- `l` keeps the quota, with no more than `n` in window `j` and nothing later. -/
structure Quota (w : α → Nat) (quota j n : Nat) (l : List α) : Prop where
  le : ∀ k, inWindow w k l ≤ quota
  current : inWindow w j l ≤ n
  later : ∀ k, j < k → inWindow w k l = 0

theorem Quota.nil (w : α → Nat) (quota j n : Nat) : Quota w quota j n [] :=
  ⟨fun _ => Nat.zero_le _, Nat.zero_le _, fun _ _ => rfl⟩

theorem Quota.admit (h : Quota w quota j n l) (hn : n < quota) (ha : w a = j) :
    Quota w quota j (n + 1) (a :: l) := by
  have hcurrent := h.current
  refine ⟨fun k => ?_, ?_, fun k hk => ?_⟩
  · rw [inWindow_cons]
    split_ifs with hk
    · obtain rfl : j = k := ha.symm.trans hk
      omega
    · exact h.le k
  · rw [inWindow_cons, if_pos ha]
    omega
  · rw [inWindow_cons, if_neg (by omega), h.later k hk]

theorem Quota.advance (h : Quota w quota j n l) : Quota w quota (j + 1) 0 l :=
  ⟨h.le, Nat.le_of_eq (h.later (j + 1) (Nat.lt_succ_self j)), fun k hk => h.later k (by omega)⟩

end Dnsperf.Lib
