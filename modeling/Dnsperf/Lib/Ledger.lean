import Mathlib.Tactic

/-!
# Dnsperf.Lib.Ledger

A ledger of uses. Numbers are given out in order; each holder has an **open use** under
a number of its own, and a use ends in one of two ways, recorded in `left` and in
`right`. Taking a new use and closing an open one keep the ledger; above all, **no use
ends both ways**.
-/

namespace Dnsperf.Lib

variable {α : Type*} {holders : List α} {number number' : α → Nat} {next : Nat}
  {left right left' right' : List Nat} {a : α}

/-- The open uses are those of `holders`, the next number to give out is `next`. -/
structure Ledger (holders : List α) (number : α → Nat) (next : Nat) (left right : List Nat) :
    Prop where
  inj : ∀ a ∈ holders, ∀ b ∈ holders, number a = number b → a = b
  lt : ∀ a ∈ holders, number a < next
  notMem_left : ∀ a ∈ holders, number a ∉ left
  notMem_right : ∀ a ∈ holders, number a ∉ right
  left_lt : ∀ n ∈ left, n < next
  right_lt : ∀ n ∈ right, n < next
  disjoint : ∀ n ∈ left, n ∉ right

namespace Ledger

theorem nil (number : α → Nat) : Ledger [] number 0 [] [] where
  inj := fun _ ha => absurd ha List.not_mem_nil
  lt := fun _ ha => absurd ha List.not_mem_nil
  notMem_left := fun _ ha => absurd ha List.not_mem_nil
  notMem_right := fun _ ha => absurd ha List.not_mem_nil
  left_lt := fun _ hn => absurd hn List.not_mem_nil
  right_lt := fun _ hn => absurd hn List.not_mem_nil
  disjoint := fun _ hn => absurd hn List.not_mem_nil

theorem congr (h : Ledger holders number next left right)
    (hnumber : ∀ a ∈ holders, number' a = number a) (hright : ∀ n, n ∈ right' ↔ n ∈ right) :
    Ledger holders number' next left right' where
  inj := fun a ha b hb heq => h.inj a ha b hb (by rwa [hnumber a ha, hnumber b hb] at heq)
  lt := fun a ha => by rw [hnumber a ha]; exact h.lt a ha
  notMem_left := fun a ha => by rw [hnumber a ha]; exact h.notMem_left a ha
  notMem_right := fun a ha => by rw [hnumber a ha, hright]; exact h.notMem_right a ha
  left_lt := h.left_lt
  right_lt := fun n hn => h.right_lt n ((hright n).mp hn)
  disjoint := fun n hn hn' => h.disjoint n hn ((hright n).mp hn')

/-- **A new use**, under the next number. -/
theorem take (h : Ledger holders number next left right) (hnew : number' a = next)
    (hold : ∀ b ∈ holders, number' b = number b) :
    Ledger (a :: holders) number' (next + 1) left right := by
  have hne : ∀ b ∈ holders, number' b ≠ next := fun b hb => by
    rw [hold b hb]
    exact Nat.ne_of_lt (h.lt b hb)
  refine ⟨?_, ?_, ?_, ?_, ?_, ?_, h.disjoint⟩
  · intro b hb c hc heq
    rcases List.mem_cons.mp hb with hba | hb' <;> rcases List.mem_cons.mp hc with hca | hc'
    · rw [hba, hca]
    · rw [hba] at heq
      exact absurd (heq.symm.trans hnew) (hne c hc')
    · rw [hca] at heq
      exact absurd (heq.trans hnew) (hne b hb')
    · rw [hold b hb', hold c hc'] at heq
      exact h.inj b hb' c hc' heq
  · refine List.forall_mem_cons.mpr ⟨by rw [hnew]; exact Nat.lt_succ_self next, fun b hb => ?_⟩
    rw [hold b hb]
    exact Nat.lt_succ_of_lt (h.lt b hb)
  · refine List.forall_mem_cons.mpr ⟨fun hn => ?_, fun b hb => ?_⟩
    · exact Nat.lt_irrefl next (h.left_lt next (hnew ▸ hn))
    · rw [hold b hb]
      exact h.notMem_left b hb
  · refine List.forall_mem_cons.mpr ⟨fun hn => ?_, fun b hb => ?_⟩
    · exact Nat.lt_irrefl next (h.right_lt next (hnew ▸ hn))
    · rw [hold b hb]
      exact h.notMem_right b hb
  · exact fun n hn => Nat.lt_succ_of_lt (h.left_lt n hn)
  · exact fun n hn => Nat.lt_succ_of_lt (h.right_lt n hn)

/-- **A use is closed**: it may end, in one way. -/
theorem close [DecidableEq α] (h : Ledger holders number next left right) (hnodup : holders.Nodup)
    (ha : a ∈ holders) (hleft : ∀ n ∈ left', n ∈ left ∨ n = number a)
    (hright : ∀ n ∈ right', n ∈ right ∨ n = number a)
    (hone : number a ∈ left' → number a ∉ right') :
    Ledger (holders.erase a) number next left' right' := by
  have hmem : ∀ b ∈ holders.erase a, b ∈ holders := fun b hb => List.mem_of_mem_erase hb
  have hne : ∀ b ∈ holders.erase a, number b ≠ number a := fun b hb heq =>
    (hnodup.mem_erase_iff.mp hb).1 (h.inj b (hmem b hb) a ha heq)
  refine ⟨?_, ?_, ?_, ?_, ?_, ?_, ?_⟩
  · exact fun b hb c hc => h.inj b (hmem b hb) c (hmem c hc)
  · exact fun b hb => h.lt b (hmem b hb)
  · exact fun b hb hn => (hleft _ hn).elim (h.notMem_left b (hmem b hb)) (hne b hb)
  · exact fun b hb hn => (hright _ hn).elim (h.notMem_right b (hmem b hb)) (hne b hb)
  · exact fun n hn => (hleft n hn).elim (h.left_lt n) fun heq => heq ▸ h.lt a ha
  · exact fun n hn => (hright n hn).elim (h.right_lt n) fun heq => heq ▸ h.lt a ha
  · intro n hn hn'
    by_cases heq : n = number a
    · subst heq
      exact hone hn hn'
    · exact h.disjoint n ((hleft n hn).resolve_right heq) ((hright n hn').resolve_right heq)

end Ledger

end Dnsperf.Lib
