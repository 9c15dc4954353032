import Mathlib.Tactic

/-!
# Dnsperf.Lib.Segments

A list cut at its **terminators** (the elements that satisfy `p`): the terminated
segments, without their terminators, and what follows the last one.
-/

namespace Dnsperf.Lib

variable {α : Type*} (p : α → Bool)

/-- The terminated segments and the unterminated rest. -/
def segments : List α → List (List α) × List α
  | [] => ([], [])
  | a :: s =>
      if p a then ([] :: (segments s).1, (segments s).2)
      else
        match segments s with
        | ([], rest) => ([], a :: rest)
        | (l :: ls, rest) => ((a :: l) :: ls, rest)

variable {p}

theorem segments_congr {q : α → Bool} {s : List α} (h : ∀ a ∈ s, p a = q a) :
    segments p s = segments q s := by
  induction s with
  | nil => rfl
  | cons a s ih =>
      rw [segments, segments, h a (List.mem_cons_self ..),
        ih fun b hb => h b (List.mem_cons_of_mem _ hb)]

theorem segments_of_forall {l : List α} (h : ∀ a ∈ l, p a = false) : segments p l = ([], l) := by
  induction l with
  | nil => rfl
  | cons a l ih =>
      rw [segments, if_neg (by simp [h a (List.mem_cons_self ..)]),
        ih (fun b hb => h b (List.mem_cons_of_mem _ hb))]

theorem segments_append_cons {l : List α} (h : ∀ a ∈ l, p a = false) {t : α} (ht : p t = true)
    (s : List α) :
    segments p (l ++ t :: s) = (l :: (segments p s).1, (segments p s).2) := by
  induction l with
  | nil => simp [segments, ht]
  | cons a l ih =>
      rw [List.cons_append, segments, if_neg (by simp [h a (List.mem_cons_self ..)]),
        ih (fun b hb => h b (List.mem_cons_of_mem _ hb))]

/-- Every list is terminator-free, or a terminator-free segment, a terminator and a
shorter list. -/
theorem segments_cases (p : α → Bool) (s : List α) :
    (∀ a ∈ s, p a = false) ∨
      ∃ l t r, s = l ++ t :: r ∧ (∀ a ∈ l, p a = false) ∧ p t = true := by
  induction s with
  | nil => exact Or.inl (by simp)
  | cons a s ih =>
      by_cases ha : p a = true
      · exact Or.inr ⟨[], a, s, rfl, by simp, ha⟩
      · rw [Bool.not_eq_true] at ha
        rcases ih with h | ⟨l, t, r, rfl, hl, ht⟩
        · exact Or.inl (List.forall_mem_cons.mpr ⟨ha, h⟩)
        · exact Or.inr ⟨a :: l, t, r, rfl, List.forall_mem_cons.mpr ⟨ha, hl⟩, ht⟩

theorem segments_free (p : α → Bool) (s : List α) :
    (∀ l ∈ (segments p s).1, ∀ a ∈ l, p a = false) ∧ ∀ a ∈ (segments p s).2, p a = false := by
  induction s with
  | nil => exact ⟨nofun, nofun⟩
  | cons a s ih =>
      rw [segments]
      split
      · exact ⟨List.forall_mem_cons.mpr ⟨nofun, ih.1⟩, ih.2⟩
      · rename_i ha
        rw [Bool.not_eq_true] at ha
        split <;> rename_i heq <;> rw [heq] at ih
        · exact ⟨nofun, List.forall_mem_cons.mpr ⟨ha, ih.2⟩⟩
        · obtain ⟨hl, hls⟩ := List.forall_mem_cons.mp ih.1
          exact ⟨List.forall_mem_cons.mpr ⟨List.forall_mem_cons.mpr ⟨ha, hl⟩, hls⟩, ih.2⟩

/-- The segments, a terminator each, and the rest make up the list. -/
theorem segments_length (p : α → Bool) (s : List α) :
    ((segments p s).1.map (·.length + 1)).sum + (segments p s).2.length = s.length := by
  induction s with
  | nil => simp [segments]
  | cons a s ih =>
      rw [segments]
      split
      · simp only [List.map_cons, List.sum_cons, List.length_nil, List.length_cons]
        omega
      · split
        · rename_i heq
          rw [heq] at ih
          simp only [List.map_nil, List.sum_nil, List.length_cons] at ih ⊢
          omega
        · rename_i heq
          rw [heq] at ih
          simp only [List.map_cons, List.sum_cons, List.length_cons] at ih ⊢
          omega

end Dnsperf.Lib
