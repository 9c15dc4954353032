import Mathlib.Tactic
import Mathlib.Data.List.Chain

/-!
# Dnsperf.Lib.Dlist

Doubly linked lists, linked through their elements. `Links` are the two pointers of
every element and `Ends` the first and the last of a list; **`Rep l e xs` says that they
represent `xs`**. An element may be on one list only, so that lists with different
elements share the links: what is stored at an element that is not on a list leaves it
alone (`Rep.frame`).
-/

namespace Dnsperf.Lib

variable {α : Type*}

/-- The pointers of the elements. -/
structure Links (α : Type*) where
  prev : α → Option α
  next : α → Option α

/-- The pointers of a list. -/
structure Ends (α : Type*) where
  head : Option α
  tail : Option α
  deriving DecidableEq

section Store

variable [DecidableEq α]

/-- A pointer to the next element is stored. -/
def Links.setNext (l : Links α) (a : α) (b : Option α) : Links α :=
  { l with next := Function.update l.next a b }

/-- A pointer to the previous element is stored. -/
def Links.setPrev (l : Links α) (a : α) (b : Option α) : Links α :=
  { l with prev := Function.update l.prev a b }

variable (l : Links α) (a : α) (b : Option α)

@[simp] theorem setNext_self : (l.setNext a b).next a = b := Function.update_self ..

@[simp] theorem setPrev_self : (l.setPrev a b).prev a = b := Function.update_self ..

@[simp] theorem setNext_of_ne {c : α} (h : c ≠ a) : (l.setNext a b).next c = l.next c :=
  Function.update_of_ne h ..

@[simp] theorem setPrev_of_ne {c : α} (h : c ≠ a) : (l.setPrev a b).prev c = l.prev c :=
  Function.update_of_ne h ..

end Store

/-! ### Chains -/

/-- `xs` are linked one after another, between `before` and `after`. -/
def Chain (l : Links α) : Option α → List α → Option α → Prop
  | _, [], _ => True
  | before, x :: xs, after =>
      l.prev x = before ∧ l.next x = xs.head?.or after ∧ Chain l (some x) xs after

variable {l l' : Links α} {e : Ends α} {xs ys : List α} {before before' after after' : Option α}
  {a : α}

/-- The links are the same at `a`. -/
def SameAt (l l' : Links α) (a : α) : Prop := l'.prev a = l.prev a ∧ l'.next a = l.next a

theorem SameAt.refl (l : Links α) (a : α) : SameAt l l a := ⟨rfl, rfl⟩

theorem SameAt.trans {l'' : Links α} (h : SameAt l l' a) (h' : SameAt l' l'' a) : SameAt l l'' a :=
  ⟨h'.1.trans h.1, h'.2.trans h.2⟩

theorem SameAt.setPrev [DecidableEq α] {l'' : Links α} (h : SameAt l l'' a) {b : α} (hne : a ≠ b)
    (c : Option α) : SameAt l (l''.setPrev b c) a :=
  h.trans ⟨setPrev_of_ne l'' b c hne, rfl⟩

theorem SameAt.setNext [DecidableEq α] {l'' : Links α} (h : SameAt l l'' a) {b : α} (hne : a ≠ b)
    (c : Option α) : SameAt l (l''.setNext b c) a :=
  h.trans ⟨rfl, setNext_of_ne l'' b c hne⟩

namespace Chain

theorem frame (h : Chain l before xs after) (hsame : ∀ a ∈ xs, SameAt l l' a) :
    Chain l' before xs after := by
  induction xs generalizing before with
  | nil => trivial
  | cons x xs ih =>
      obtain ⟨hprev, hnext, hrest⟩ := h
      obtain ⟨hsx, hsrest⟩ := List.forall_mem_cons.mp hsame
      exact ⟨hsx.1.trans hprev, hsx.2.trans hnext, ih hrest hsrest⟩

theorem append_iff :
    Chain l before (xs ++ ys) after ↔
      Chain l before xs (ys.head?.or after) ∧ Chain l (xs.getLast?.or before) ys after := by
  induction xs generalizing before with
  | nil => simp [Chain]
  | cons x xs ih =>
      have hlast : (x :: xs).getLast?.or before = xs.getLast?.or (some x) := by
        rw [List.getLast?_cons]
        cases xs.getLast? <;> rfl
      rw [List.cons_append, Chain, Chain, ih, hlast, List.head?_append, Option.or_assoc]
      tauto

variable [DecidableEq α]

theorem setPrev (h : Chain l before (a :: xs) after) (ha : a ∉ xs) :
    Chain (l.setPrev a before') before' (a :: xs) after := by
  obtain ⟨-, hnext, hrest⟩ := h
  refine ⟨setPrev_self l a _, hnext, hrest.frame fun b hb => ⟨?_, rfl⟩⟩
  exact setPrev_of_ne l a _ fun heq => ha (heq ▸ hb)

theorem setNext (h : Chain l before (xs ++ [a]) after) (ha : a ∉ xs) :
    Chain (l.setNext a after') before (xs ++ [a]) after' := by
  obtain ⟨hinit, hprev, -, -⟩ := append_iff.mp h
  refine append_iff.mpr ⟨hinit.frame fun b hb => ⟨rfl, ?_⟩, hprev, setNext_self l a _, trivial⟩
  exact setNext_of_ne l a _ fun heq => ha (heq ▸ hb)

end Chain

/-! ### Lists -/

/-- The links and the ends represent `xs`. -/
structure Rep (l : Links α) (e : Ends α) (xs : List α) : Prop where
  head : e.head = xs.head?
  tail : e.tail = xs.getLast?
  chain : Chain l none xs none
  nodup : xs.Nodup

namespace Rep

theorem nil (l : Links α) : Rep l ⟨none, none⟩ [] := ⟨rfl, rfl, trivial, List.nodup_nil⟩

theorem frame (h : Rep l e xs) (hsame : ∀ a ∈ xs, SameAt l l' a) : Rep l' e xs :=
  ⟨h.head, h.tail, h.chain.frame hsame, h.nodup⟩

theorem mid {zs : List α} (h : Rep l e (ys ++ a :: zs)) :
    Chain l none ys (some a) ∧ l.prev a = ys.getLast? ∧ l.next a = zs.head? ∧
      Chain l (some a) zs none := by
  obtain ⟨hys, hprev, hnext, hzs⟩ := Chain.append_iff.mp h.chain
  rw [Option.or_none] at hprev hnext
  exact ⟨hys, hprev, hnext, hzs⟩

theorem prev_head (h : Rep l e xs) (ha : e.head = some a) : l.prev a = none := by
  rw [h.head, List.head?_eq_some_iff] at ha
  obtain ⟨zs, rfl⟩ := ha
  rw [← List.nil_append (a :: zs)] at h
  exact h.mid.2.1

theorem next_tail (h : Rep l e xs) (ha : e.tail = some a) : l.next a = none := by
  rw [h.tail, List.getLast?_eq_some_iff] at ha
  obtain ⟨ys, rfl⟩ := ha
  exact h.mid.2.2.1

/-- **The pointers are inverse to each other.** -/
theorem next_iff_prev (h : Rep l e xs) {b : α} :
    a ∈ xs ∧ l.next a = some b ↔ b ∈ xs ∧ l.prev b = some a := by
  constructor
  · rintro ⟨ha, hnext⟩
    obtain ⟨ys, zs, rfl⟩ := List.append_of_mem ha
    obtain ⟨-, -, hnext', hzs⟩ := h.mid
    rw [hnext', List.head?_eq_some_iff] at hnext
    obtain ⟨zs, rfl⟩ := hnext
    exact ⟨by simp, hzs.1⟩
  · rintro ⟨hb, hprev⟩
    obtain ⟨ys, zs, rfl⟩ := List.append_of_mem hb
    obtain ⟨-, hprev', -, -⟩ := h.mid
    rw [hprev', List.getLast?_eq_some_iff] at hprev
    obtain ⟨ys, rfl⟩ := hprev
    rw [List.append_assoc, List.singleton_append] at h
    exact ⟨by simp, h.mid.2.2.1⟩

/-- **Following the pointers from the first element** visits each element once. -/
theorem isChain (h : Rep l e xs) : xs.IsChain (fun a b => l.next a = some b) := by
  refine List.isChain_iff_forall_rel_of_append_cons_cons.mpr ?_
  intro a b ys zs heq
  rw [heq] at h
  exact h.mid.2.2.1

end Rep

/-- A well-formed list of `xs`, as a walk along its pointers sees it. -/
structure WellFormed (l : Links α) (e : Ends α) (xs : List α) : Prop where
  head : e.head = xs.head?
  tail : e.tail = xs.getLast?
  prev_head : ∀ a, e.head = some a → l.prev a = none
  next_tail : ∀ a, e.tail = some a → l.next a = none
  inverse : ∀ a b, a ∈ xs ∧ l.next a = some b ↔ b ∈ xs ∧ l.prev b = some a
  walk : xs.IsChain fun a b => l.next a = some b
  /-- There are no cycles. -/
  nodup : xs.Nodup
  empty : e.head = none ↔ e.tail = none

theorem Rep.wellFormed (h : Rep l e xs) : WellFormed l e xs where
  head := h.head
  tail := h.tail
  prev_head := fun _ => h.prev_head
  next_tail := fun _ => h.next_tail
  inverse := fun _ _ => h.next_iff_prev
  walk := h.isChain
  nodup := h.nodup
  empty := by rw [h.head, h.tail, List.head?_eq_none_iff, List.getLast?_eq_none_iff]

end Dnsperf.Lib
