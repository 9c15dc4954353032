import Dnsperf.Lib.Dlist

/-!
# Dnsperf.PerfList

The list macros of `list.h`, as they store one pointer after another. Each of them does
on the pointers **what its name says of the list** they represent, and leaves the links
of all elements that are not on the list alone; the assertions of `perf_list_unlink` hold
whenever the element is on the list.
-/

namespace Dnsperf

open Dnsperf.Lib

variable {α : Type*} [DecidableEq α]

/-- `perf_list_init`. -/
def perfListInit : Ends α := ⟨none, none⟩

/-- `perf_link_init`. -/
def perfLinkInit (l : Links α) (link : α) : Links α := (l.setPrev link none).setNext link none

/-- `perf_list_append`. -/
def perfListAppend (l : Links α) (list : Ends α) (link : α) : Links α × Ends α :=
  let (l, head) := match list.tail with
    | some tail => (l.setNext tail (some link), list.head)
    | none => (l, some link)
  let l := l.setPrev link list.tail
  let l := l.setNext link none
  (l, ⟨head, some link⟩)

/-- `perf_list_prepend`. -/
def perfListPrepend (l : Links α) (list : Ends α) (link : α) : Links α × Ends α :=
  let (l, tail) := match list.head with
    | some head => (l.setPrev head (some link), list.tail)
    | none => (l, some link)
  let l := l.setPrev link none
  let l := l.setNext link list.head
  (l, ⟨some link, tail⟩)

/-- The assertions of `perf_list_unlink`, in order. -/
inductive ListAssert
  | isTail
  | isHead
  | leftHead
  | leftTail
  deriving Repr, DecidableEq

/-- The next element, or the end of the list, gets a new predecessor. -/
def unlinkNext (l : Links α) (list : Ends α) (link : α) : Except ListAssert (Links α × Ends α) :=
  match l.next link with
  | some next => .ok (l.setPrev next (l.prev link), list)
  | none =>
      if list.tail = some link then .ok (l, { list with tail := l.prev link })
      else .error .isTail

/-- The previous element, or the start of the list, gets a new successor. -/
def unlinkPrev (l : Links α) (list : Ends α) (link : α) : Except ListAssert (Links α × Ends α) :=
  match l.prev link with
  | some prev => .ok (l.setNext prev (l.next link), list)
  | none =>
      if list.head = some link then .ok (l, { list with head := l.next link })
      else .error .isHead

/-- `perf_list_unlink`. -/
def perfListUnlink (l : Links α) (list : Ends α) (link : α) :
    Except ListAssert (Links α × Ends α) := do
  let (l, list) ← unlinkNext l list link
  let (l, list) ← unlinkPrev l list link
  let l := l.setNext link none
  let l := l.setPrev link none
  if list.head = some link then .error .leftHead
  else if list.tail = some link then .error .leftTail
  else .ok (l, list)

variable {l : Links α} {list : Ends α} {xs ys zs : List α} {a : α}

theorem perfListAppend_rep (h : Rep l list xs) (ha : a ∉ xs) :
    Rep (perfListAppend l list a).1 (perfListAppend l list a).2 (xs ++ [a]) ∧
      ∀ b ∉ xs, b ≠ a → SameAt l (perfListAppend l list a).1 b := by
  have hnodup : (xs ++ [a]).Nodup := by
    rw [List.nodup_append_comm]
    exact List.nodup_cons.mpr ⟨ha, h.nodup⟩
  have htail := h.tail
  unfold perfListAppend
  rcases List.eq_nil_or_concat' xs with rfl | ⟨ys, y, rfl⟩
  · rw [htail]
    refine ⟨⟨rfl, rfl, ⟨?_, setNext_self .., trivial⟩, hnodup⟩, fun b _ hb => ?_⟩
    · exact setPrev_self ..
    · exact ((SameAt.refl l b).setPrev hb none).setNext hb none
  · have hlast : (ys ++ [y]).getLast? = some y := List.getLast?_concat
    have hy : y ∉ ys := fun hmem => (List.nodup_append'.mp h.nodup).2.2 hmem List.mem_cons_self
    rw [htail, hlast]
    dsimp only
    refine ⟨⟨?_, List.getLast?_concat.symm, ?_, hnodup⟩, fun b hb hne => ?_⟩
    · rw [h.head, List.head?_append (l := ys ++ [y])]
      cases ys <;> rfl
    · refine Chain.append_iff.mpr ⟨?_, ?_, setNext_self .., trivial⟩
      · have hset : Chain (l.setNext y (some a)) none (ys ++ [y]) (some a) := h.chain.setNext hy
        refine hset.frame fun b hb => ?_
        have hne : b ≠ a := fun heq => ha (heq ▸ hb)
        exact ((SameAt.refl _ b).setPrev hne (some y)).setNext hne none
      · rw [hlast]
        exact setPrev_self ..
    · have hby : b ≠ y := fun heq => hb (heq ▸ List.mem_append_right ys List.mem_cons_self)
      exact (((SameAt.refl l b).setNext hby (some a)).setPrev hne (some y)).setNext hne none

theorem perfListPrepend_rep (h : Rep l list xs) (ha : a ∉ xs) :
    Rep (perfListPrepend l list a).1 (perfListPrepend l list a).2 (a :: xs) ∧
      ∀ b ∉ xs, b ≠ a → SameAt l (perfListPrepend l list a).1 b := by
  have hnodup : (a :: xs).Nodup := List.nodup_cons.mpr ⟨ha, h.nodup⟩
  have hhead := h.head
  unfold perfListPrepend
  cases xs with
  | nil =>
      rw [hhead]
      refine ⟨⟨rfl, rfl, ⟨?_, setNext_self .., trivial⟩, hnodup⟩, fun b _ hb => ?_⟩
      · exact setPrev_self ..
      · exact ((SameAt.refl l b).setPrev hb none).setNext hb none
  | cons x xs =>
      have hx : x ∉ xs := (List.nodup_cons.mp h.nodup).1
      rw [hhead]
      refine ⟨⟨rfl, ?_, ⟨setPrev_self .., setNext_self .., ?_⟩, hnodup⟩, fun b hb hne => ?_⟩
      · exact h.tail.trans (List.getLast?_cons_cons).symm
      · have hset : Chain (l.setPrev x (some a)) (some a) (x :: xs) none := h.chain.setPrev hx
        refine hset.frame fun b hb => ?_
        have hne : b ≠ a := fun heq => ha (heq ▸ hb)
        exact ((SameAt.refl _ b).setPrev hne none).setNext hne (some x)
      · have hbx : b ≠ x := fun heq => hb (heq ▸ List.mem_cons_self)
        exact (((SameAt.refl l b).setPrev hbx (some a)).setPrev hne none).setNext hne (some x)

/-! ### Unlinking -/

theorem unlinkNext_spec (h : Rep l list (ys ++ a :: zs)) :
    ∃ l' tail, unlinkNext l list a = .ok (l', ⟨list.head, tail⟩) ∧
      tail = (ys ++ zs).getLast? ∧ Chain l' ys.getLast? zs none ∧
      ∀ b ∉ zs, SameAt l l' b := by
  obtain ⟨-, hprev, hnext, hzs⟩ := h.mid
  have htail := h.tail
  unfold unlinkNext
  rw [hnext]
  cases zs with
  | nil =>
      rw [List.getLast?_concat] at htail
      refine ⟨l, l.prev a, if_pos htail, ?_, trivial, fun b _ => SameAt.refl l b⟩
      rw [hprev, List.append_nil]
  | cons z zs =>
      obtain ⟨-, hnodup⟩ := List.nodup_cons.mp (List.nodup_middle.mp h.nodup)
      obtain ⟨-, hzs', -⟩ := List.nodup_append'.mp hnodup
      refine ⟨l.setPrev z (l.prev a), list.tail, rfl, ?_, ?_, fun b hb => ?_⟩
      · rw [htail, List.getLast?_append, List.getLast?_append, List.getLast?_cons_cons]
      · rw [hprev]
        exact hzs.setPrev (List.nodup_cons.mp hzs').1
      · exact (SameAt.refl l b).setPrev (fun heq => hb (heq ▸ List.mem_cons_self)) _

theorem unlinkPrev_spec (hys : Chain l none ys (some a)) (hnodup : ys.Nodup)
    (hprev : l.prev a = ys.getLast?) (hhead : list.head = (ys ++ [a]).head?)
    (hnext : l.next a = zs.head?) :
    ∃ l' head, unlinkPrev l list a = .ok (l', ⟨head, list.tail⟩) ∧
      head = (ys ++ zs).head? ∧ Chain l' none ys zs.head? ∧ ∀ b ∉ ys, SameAt l l' b := by
  unfold unlinkPrev
  rw [hprev]
  rcases List.eq_nil_or_concat' ys with rfl | ⟨ys, y, rfl⟩
  · exact ⟨l, l.next a, if_pos hhead, hnext, trivial, fun b _ => SameAt.refl l b⟩
  · rw [List.getLast?_concat]
    refine ⟨l.setNext y (l.next a), list.head, rfl, ?_, ?_, fun b hb => ?_⟩
    · rw [hhead]
      cases ys <;> rfl
    · rw [hnext]
      exact hys.setNext fun hy => (List.nodup_append'.mp hnodup).2.2 hy List.mem_cons_self
    · exact (SameAt.refl l b).setNext
        (fun heq => hb (heq ▸ List.mem_append_right ys List.mem_cons_self)) _

/-- **An element of the list is unlinked** and no assertion fails; elsewhere nothing is
stored. -/
theorem perfListUnlink_rep (h : Rep l list xs) (hmem : a ∈ xs) :
    ∃ l' list', perfListUnlink l list a = .ok (l', list') ∧ Rep l' list' (xs.erase a) ∧
      ∀ b ∉ xs, SameAt l l' b := by
  obtain ⟨ys, zs, -, rfl, herase⟩ := List.exists_erase_eq hmem
  rw [herase]
  obtain ⟨hys, hprev, hnext, -⟩ := h.mid
  obtain ⟨ha, hnodup⟩ := List.nodup_cons.mp (List.nodup_middle.mp h.nodup)
  obtain ⟨hnys, -, hdisj⟩ := List.nodup_append'.mp hnodup
  have hays : a ∉ ys := fun hmem' => ha (List.mem_append_left zs hmem')
  have hazs : a ∉ zs := fun hmem' => ha (List.mem_append_right ys hmem')
  have hhead : list.head = (ys ++ [a]).head? := by
    rw [h.head]
    cases ys <;> rfl
  -- the first store is at an element of `zs`, the second at one of `ys`
  obtain ⟨l₁, tail, hunlink₁, htail, hzs₁, hsame₁⟩ := unlinkNext_spec h
  have hys₁ : Chain l₁ none ys (some a) := hys.frame fun b hb => hsame₁ b (hdisj hb)
  have hhead₁ : (Ends.mk list.head tail).head = (ys ++ [a]).head? := hhead
  obtain ⟨l₂, head, hunlink₂, hhead₂, hys₂, hsame₂⟩ := unlinkPrev_spec hys₁ hnys
    ((hsame₁ a hazs).1.trans hprev) hhead₁ ((hsame₁ a hazs).2.trans hnext)
  have hzs₂ : Chain l₂ ys.getLast? zs none :=
    hzs₁.frame fun b hb => hsame₂ b fun hmem => hdisj hmem hb
  have hself : ∀ b, b ≠ a → SameAt l₂ ((l₂.setNext a none).setPrev a none) b := fun b hb =>
    ((SameAt.refl l₂ b).setNext hb none).setPrev hb none
  refine ⟨(l₂.setNext a none).setPrev a none, ⟨head, tail⟩, ?_, ⟨hhead₂, htail, ?_, hnodup⟩, ?_⟩
  · have hne₁ : head ≠ some a := fun heq => ha (List.mem_of_mem_head? (hhead₂ ▸ heq))
    have hne₂ : tail ≠ some a := fun heq => ha (List.mem_of_mem_getLast? (htail ▸ heq))
    rw [perfListUnlink, hunlink₁]
    show (unlinkPrev l₁ ⟨list.head, tail⟩ a >>= _) = _
    rw [hunlink₂]
    exact (if_neg hne₁).trans (if_neg hne₂)
  · rw [Chain.append_iff, Option.or_none, Option.or_none]
    refine ⟨hys₂.frame fun b hb => ?_, hzs₂.frame fun b hb => ?_⟩
    · exact hself b fun heq => hays (heq ▸ hb)
    · exact hself b fun heq => hazs (heq ▸ hb)
  · intro b hb
    rw [List.mem_append, List.mem_cons, not_or, not_or] at hb
    exact ((hsame₁ b hb.2.2).trans (hsame₂ b hb.1)).trans (hself b hb.2.1)

end Dnsperf
