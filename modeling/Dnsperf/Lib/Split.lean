import Mathlib.Tactic
import Mathlib.Data.List.Perm.Basic

/-!
# Dnsperf.Lib.Split

A set split between two lists. Each element of it is on **exactly one list**, once, and
`left` says on which. An element may be put anywhere on either list.
-/

namespace Dnsperf.Lib

variable {α : Type*} {all left left' : α → Prop} {xs ys xs' ys' : List α} {a : α}

/-- The elements that meet `all` are on `xs` if they meet `left`, and on `ys` if not. -/
structure Split (all left : α → Prop) (xs ys : List α) : Prop where
  nodup_left : xs.Nodup
  nodup_right : ys.Nodup
  mem_left : ∀ a, a ∈ xs ↔ all a ∧ left a
  mem_right : ∀ a, a ∈ ys ↔ all a ∧ ¬ left a

namespace Split

theorem swap (h : Split all left xs ys) : Split all (fun a => ¬ left a) ys xs where
  nodup_left := h.nodup_right
  nodup_right := h.nodup_left
  mem_left := h.mem_right
  mem_right := fun a => by rw [h.mem_left, not_not]

/-- **An element is put on the left list**, wherever it was before. -/
theorem putLeft [DecidableEq α] (h : Split all left xs ys) (ha : all a)
    (hxs : xs'.Perm (a :: xs.erase a)) (hleft : ∀ b, left' b ↔ left b ∨ b = a) :
    Split all left' xs' (ys.erase a) := by
  refine ⟨hxs.nodup_iff.mpr ?_, h.nodup_right.erase a, fun b => ?_, fun b => ?_⟩
  · exact List.nodup_cons.mpr ⟨h.nodup_left.not_mem_erase, h.nodup_left.erase a⟩
  · rw [hxs.mem_iff, List.mem_cons, h.nodup_left.mem_erase_iff, h.mem_left, hleft]
    by_cases hb : b = a
    · simp [hb, ha]
    · tauto
  · rw [h.nodup_right.mem_erase_iff, h.mem_right, hleft]
    tauto

theorem putRight [DecidableEq α] (h : Split all left xs ys) (ha : all a)
    (hys : ys'.Perm (a :: ys.erase a)) (hleft : ∀ b, left' b ↔ left b ∧ b ≠ a) :
    Split all left' (xs.erase a) ys' := by
  have hput : Split all (fun b => ¬ left' b) ys' (xs.erase a) := h.swap.putLeft ha hys fun b => by
    rw [hleft]
    tauto
  exact ⟨hput.nodup_right, hput.nodup_left, fun b => by rw [hput.mem_right, not_not], hput.mem_left⟩

theorem length {left : Nat → Prop} {xs ys : List Nat} {n : Nat} (h : Split (· < n) left xs ys) :
    xs.length + ys.length = n := by
  have hdisj : List.Disjoint xs ys := fun a hx hy =>
    ((h.mem_right a).mp hy).2 ((h.mem_left a).mp hx).2
  have hperm : (xs ++ ys).Perm (List.range n) := by
    refine (List.perm_ext_iff_of_nodup ?_ List.nodup_range).mpr fun a => ?_
    · exact List.nodup_append'.mpr ⟨h.nodup_left, h.nodup_right, hdisj⟩
    · rw [List.mem_append, h.mem_left, h.mem_right, List.mem_range]
      tauto
  rw [← List.length_append, hperm.length_eq, List.length_range]

end Split

end Dnsperf.Lib
