import Mathlib.Tactic

/-!
# Dnsperf.Lib.Parse

**Readers of a prefix.** A reader takes a value off the head of its input and returns the
rest. It is *stable* if what comes after the part it reads makes no difference: more input
is passed through. Stable readers compose.
-/

namespace Dnsperf.Lib

variable {ι α β : Type}

/-- More input than is read is passed through. -/
def Stable (p : List ι → Option (α × List ι)) : Prop :=
  ∀ ⦃s a rest⦄, p s = some (a, rest) → ∀ more, p (s ++ more) = some (a, rest ++ more)

theorem stable_some (a : α) : Stable fun s : List ι => some (a, s) := by
  intro s b rest h more
  obtain ⟨rfl, rfl⟩ := Prod.mk.inj (Option.some.inj h)
  rfl

theorem Stable.bind {p : List ι → Option (α × List ι)} {k : α × List ι → Option (β × List ι)}
    (hp : Stable p) (hk : ∀ a, Stable fun s => k (a, s)) : Stable fun s => (p s).bind k := by
  intro s b rest h more
  obtain ⟨⟨a, s'⟩, hread, hrest⟩ := Option.bind_eq_some_iff.mp h
  change (p (s ++ more)).bind k = some (b, rest ++ more)
  rw [hp hread more]
  exact hk a hrest more

theorem stable_take (n : Nat) (f : List ι → α) :
    Stable fun s => if s.length < n then none else some (f (s.take n), s.drop n) := by
  intro s a rest h more
  dsimp only at h ⊢
  split_ifs at h with hlen
  obtain ⟨rfl, rfl⟩ := Prod.mk.inj (Option.some.inj h)
  push Not at hlen
  rw [if_neg (by rw [List.length_append]; omega), List.take_append_of_le_length hlen,
    List.drop_append_of_le_length hlen]

/-- A fixed number of items. -/
def takeN (n : Nat) (s : List ι) : Option (List ι × List ι) :=
  if s.length < n then none else some (s.take n, s.drop n)

theorem takeN_append (xs rest : List ι) : takeN xs.length (xs ++ rest) = some (xs, rest) := by
  rw [takeN, if_neg (by simp), List.take_left, List.drop_left]

end Dnsperf.Lib
