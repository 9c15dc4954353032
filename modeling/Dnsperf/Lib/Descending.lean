import Mathlib.Data.List.Basic
import Mathlib.Data.List.Nodup
import Mathlib.Order.Basic

/-!
# Dnsperf.Lib.Descending

**A list whose keys never increase** from head to tail. It stays so when elements leave it, when one
with the greatest key is put in front, and when an element gets a new key between those of its
neighbours. The last key is the least.
-/

namespace Dnsperf.Lib

variable {α β : Type*} [Preorder β] {f g : α → β} {l l' l₁ l₂ : List α} {a : α}

/-- The keys never increase. -/
def Descending (f : α → β) (l : List α) : Prop := l.Pairwise fun a b => f b ≤ f a

namespace Descending

theorem nil (f : α → β) : Descending f [] := List.Pairwise.nil

theorem sublist (h : Descending f l) (hsub : l'.Sublist l) : Descending f l' :=
  List.Pairwise.sublist hsub h

theorem congr (h : Descending f l) (hsame : ∀ x ∈ l, g x = f x) : Descending g l := by
  refine List.Pairwise.imp_of_mem (fun {a b} ha hb hab => ?_) h
  rw [hsame a ha, hsame b hb]
  exact hab

theorem cons (h : Descending f l) (hle : ∀ x ∈ l, f x ≤ f a) : Descending f (a :: l) :=
  List.pairwise_cons.mpr ⟨hle, h⟩

theorem split (h : Descending f (l₁ ++ a :: l₂)) :
    (∀ x ∈ l₁, f a ≤ f x) ∧ ∀ x ∈ l₂, f x ≤ f a := by
  obtain ⟨-, htail, hbefore⟩ := List.pairwise_append.mp h
  exact ⟨fun x hx => hbefore x hx a List.mem_cons_self, (List.pairwise_cons.mp htail).1⟩

theorem last_le (h : Descending f l) (hlast : l.getLast? = some a) : ∀ x ∈ l, f a ≤ f x := by
  obtain ⟨l₁, rfl⟩ := List.getLast?_eq_some_iff.mp hlast
  intro x hx
  rcases List.mem_append.mp hx with hx | hx
  · exact h.split.1 x hx
  · rw [List.mem_singleton.mp hx]

theorem update (h : Descending f (l₁ ++ a :: l₂)) (hnodup : (l₁ ++ a :: l₂).Nodup)
    (hbefore : ∀ x ∈ l₁, g a ≤ f x) (hafter : ∀ x ∈ l₂, f x ≤ g a)
    (hsame : ∀ x, x ≠ a → g x = f x) : Descending g (l₁ ++ a :: l₂) := by
  have hnot : a ∉ l₁ ++ l₂ := (List.nodup_middle.mp hnodup).notMem
  have hleft : ∀ x ∈ l₁, g x = f x := fun x hx =>
    hsame x fun hxa => hnot (List.mem_append_left l₂ (hxa ▸ hx))
  have hright : ∀ x ∈ l₂, g x = f x := fun x hx =>
    hsame x fun hxa => hnot (List.mem_append_right l₁ (hxa ▸ hx))
  obtain ⟨hl₁, htail, hcross⟩ := List.pairwise_append.mp h
  obtain ⟨-, hl₂⟩ := List.pairwise_cons.mp htail
  refine List.pairwise_append.mpr ⟨congr hl₁ hleft, cons (congr hl₂ hright) ?_, ?_⟩
  · intro x hx
    rw [hright x hx]
    exact hafter x hx
  · intro x hx y hy
    rw [hleft x hx]
    rcases List.mem_cons.mp hy with rfl | hy
    · exact hbefore x hx
    · rw [hright y hy]
      exact hcross x hx y (List.mem_cons_of_mem a hy)

end Descending

theorem exists_takeWhile_ne [DecidableEq α] (h : a ∈ l) :
    ∃ l₂, l = l.takeWhile (· ≠ a) ++ a :: l₂ := by
  induction l with
  | nil => cases h
  | cons b l ih =>
      by_cases hb : b = a
      · subst hb
        exact ⟨l, by rw [List.takeWhile_cons_of_neg (by simp)]; rfl⟩
      · obtain ⟨l₂, hl₂⟩ := ih ((List.mem_cons.mp h).resolve_left fun hab => hb hab.symm)
        refine ⟨l₂, ?_⟩
        rw [List.takeWhile_cons_of_pos (by simpa using hb), List.cons_append, ← hl₂]

end Dnsperf.Lib
