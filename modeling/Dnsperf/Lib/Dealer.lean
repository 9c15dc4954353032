import Mathlib.Algebra.BigOperators.Group.Finset.Piecewise
import Mathlib.Algebra.Order.Group.Multiset
import Mathlib.Data.Fintype.Basic
import Dnsperf.Lib.Run

/-!
# Dnsperf.Lib.Dealer

**Items dealt out from one pile.** Several players take items from the top of a pile. A player
has one item at a time, and is either done with it or drops it before it takes the next one.

Whatever the order of their moves, no item is lost or dealt twice (`Dealer.Moves.all`), and every
player has its items in the order of the pile (`Dealer.InOrder`).
-/

namespace Dnsperf.Lib

variable {ι α : Type*}

/-- The pile, and for each player the item in its hand, those it is done with and those it has
dropped. -/
@[ext] structure Dealer (ι α : Type*) where
  pile : List α
  hand : ι → Option α
  done : ι → List α
  dropped : ι → List α

namespace Dealer

/-- Nothing has been dealt. -/
def start (pile : List α) : Dealer ι α := ⟨pile, fun _ => none, fun _ => [], fun _ => []⟩

variable [DecidableEq ι]

/-- The player takes the first item of the pile. -/
def take (d : Dealer ι α) (i : ι) (a : α) (rest : List α) : Dealer ι α :=
  { d with pile := rest, hand := Function.update d.hand i (some a) }

/-- The player is done with its item. -/
def finish (d : Dealer ι α) (i : ι) (a : α) : Dealer ι α :=
  { d with
    hand := Function.update d.hand i none
    done := Function.update d.done i (d.done i ++ [a]) }

/-- The player drops its item. -/
def drop (d : Dealer ι α) (i : ι) (a : α) : Dealer ι α :=
  { d with
    hand := Function.update d.hand i none
    dropped := Function.update d.dropped i (d.dropped i ++ [a]) }

/-- A move of a player, or none. -/
inductive Moves (d : Dealer ι α) : Dealer ι α → Prop
  | stay : Moves d d
  | take {i : ι} {a : α} {rest : List α} : d.hand i = none → d.pile = a :: rest →
      Moves d (d.take i a rest)
  | finish {i : ι} {a : α} : d.hand i = some a → Moves d (d.finish i a)
  | drop {i : ι} {a : α} : d.hand i = some a → Moves d (d.drop i a)

variable {d d' : Dealer ι α}

/-! ### Nothing is lost -/

/-- The items a player has got. -/
def got (d : Dealer ι α) (i : ι) : Multiset α := d.done i + d.dropped i + (d.hand i).toList

/-- All items. -/
def all [Fintype ι] (d : Dealer ι α) : Multiset α := d.pile + ∑ i, d.got i

omit [DecidableEq ι] in
theorem all_start [Fintype ι] (pile : List α) : (start pile : Dealer ι α).all = pile := by
  simp [all, got, start]

theorem got_take {i : ι} (hnone : d.hand i = none) (a : α) (rest : List α) :
    (d.take i a rest).got = Function.update d.got i (d.got i + {a}) := by
  funext j
  by_cases hj : j = i
  · subst hj
    simp [got, take, hnone]
  · simp [got, take, Function.update_of_ne hj]

theorem got_finish {i : ι} {a : α} (hsome : d.hand i = some a) : (d.finish i a).got = d.got := by
  funext j
  by_cases hj : j = i
  · subst hj
    simp only [got, finish, Function.update_self, hsome, Option.toList_none, Option.toList_some,
      ← Multiset.coe_add, Multiset.coe_nil, add_zero]
    ac_rfl
  · simp [got, finish, Function.update_of_ne hj]

theorem got_drop {i : ι} {a : α} (hsome : d.hand i = some a) : (d.drop i a).got = d.got := by
  funext j
  by_cases hj : j = i
  · subst hj
    simp only [got, drop, Function.update_self, hsome, Option.toList_none, Option.toList_some,
      ← Multiset.coe_add, Multiset.coe_nil, add_zero]
    ac_rfl
  · simp [got, drop, Function.update_of_ne hj]

/-- **No item is lost or dealt twice.** -/
theorem Moves.all [Fintype ι] (h : Moves d d') : d'.all = d.all := by
  cases h with
  | stay => rfl
  | @take i a rest hnone hpile =>
      have hsum : ∑ j, (d.take i a rest).got j = ∑ j, d.got j + {a} := by
        rw [got_take hnone, Finset.sum_update_of_mem (Finset.mem_univ i),
          ← Finset.add_sum_erase _ _ (Finset.mem_univ i), Finset.sdiff_singleton_eq_erase]
        ac_rfl
      have hrest : (d.pile : Multiset α) = {a} + rest := by
        rw [hpile]
        rfl
      rw [Dealer.all, Dealer.all, hsum, hrest]
      change (rest : Multiset α) + _ = _
      ac_rfl
  | finish hsome => rw [Dealer.all, Dealer.all, got_finish hsome]; rfl
  | drop hsome => rw [Dealer.all, Dealer.all, got_drop hsome]; rfl

/-! ### In order -/

/-- A part of `pile` has been dealt, and every player has what it is done with in that order. -/
def InOrder (pile : List α) (d : Dealer ι α) : Prop :=
  ∃ dealt, dealt ++ d.pile = pile ∧ ∀ i, (d.done i ++ (d.hand i).toList).Sublist dealt

omit [DecidableEq ι] in
theorem inOrder_start (pile : List α) : InOrder pile (start pile : Dealer ι α) :=
  ⟨[], rfl, fun _ => List.Sublist.refl _⟩

theorem InOrder.moves {pile : List α} (h : InOrder pile d) (hmoves : Moves d d') :
    InOrder pile d' := by
  obtain ⟨dealt, hpile, hsub⟩ := h
  cases hmoves with
  | stay => exact ⟨dealt, hpile, hsub⟩
  | @take i a rest hnone hrest =>
      refine ⟨dealt ++ [a], by rw [List.append_assoc, List.singleton_append]; exact hrest ▸ hpile,
        fun j => ?_⟩
      have hj := hsub j
      by_cases hji : j = i
      · subst hji
        rw [hnone, Option.toList_none, List.append_nil] at hj
        simpa [take] using hj.append_right [a]
      · simpa [take, Function.update_of_ne hji] using hj.trans (List.sublist_append_left _ _)
  | @finish i a hsome =>
      refine ⟨dealt, hpile, fun j => ?_⟩
      have hj := hsub j
      by_cases hji : j = i
      · subst hji
        rw [hsome] at hj
        simpa [finish] using hj
      · simpa [finish, Function.update_of_ne hji] using hj
  | @drop i a hsome =>
      refine ⟨dealt, hpile, fun j => ?_⟩
      have hj := hsub j
      by_cases hji : j = i
      · subst hji
        simpa [drop] using (List.sublist_append_left _ _).trans hj
      · simpa [drop, Function.update_of_ne hji] using hj

end Dealer

end Dnsperf.Lib
