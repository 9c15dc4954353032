import Dnsperf.Lib.Locked

/-!
# Dnsperf.Lib.LockedLog

**Invariants of threads with a lock and a log.** The effects of the steps are collected in a log.
`Good s l p` says that the state, the log and the rest of a thread's program fit.

* For the thread itself: `Advances` says that wherever its next step ends, things fit; there is one
  rule for each way a program can begin, and `InRegion` with its rules follows a region to its end.
* For another thread: `Accesses P` says that every access of its program is of a kind `P`. What such
  accesses keep, its steps keep (`Accesses.advance`).
-/

namespace Dnsperf.Lib.Prog

variable {σ ε α Λ : Type} [HasLock σ] {record : Λ → ε → Λ}
  {Good : σ → Λ → Prog σ ε α → Prop} {s : σ} {l : Λ} {p q : Prog σ ε α}

/-! ### The thread's own steps -/

/-- Wherever the next step of `p` ends, things fit. -/
def Advances (record : Λ → ε → Λ) (Good : σ → Λ → Prog σ ε α → Prop) (s : σ) (l : Λ)
    (p : Prog σ ε α) : Prop :=
  ∀ p' s' effects, p.advance s = some (p', s', effects) → Good s' (effects.foldl record l) p'

/-- At the end of the region `p` is in, things fit. -/
def InRegion (record : Λ → ε → Λ) (Good : σ → Λ → Prog σ ε α → Prop) (s : σ) (l : Λ)
    (p : Prog σ ε α) : Prop :=
  Good (p.region s).2.1 ((p.region s).2.2.foldl record l) (p.region s).1

theorem Advances.ret {a : α} : Advances record Good s l (.ret a) :=
  fun _ _ _ hadv => nomatch hadv

theorem Advances.lock (h : InRegion record Good (HasLock.setHeld true s) l p) :
    Advances record Good s l (.lock p) := by
  intro p' s' effects hadv
  obtain ⟨-, hadv⟩ := Option.ite_none_left_eq_some.mp hadv
  unfold InRegion at h
  rwa [Option.some.inj hadv] at h

theorem Advances.step {f : σ → σ × List ε} {k : σ → Prog σ ε α}
    (h : Good (f s).1 ((f s).2.foldl record l) (k s)) :
    Advances record Good s l (.step f k) := by
  intro p' s' effects hadv
  obtain ⟨rfl, hf⟩ := Prod.mk.inj (Option.some.inj hadv)
  rwa [hf] at h

theorem Advances.put {f : σ → σ} (h : Good (f s) l p) : Advances record Good s l (.put f p) :=
  Advances.step h

theorem Advances.look {k : σ → Prog σ ε α} (h : Good s l (k s)) :
    Advances record Good s l (.look k) := Advances.step h

theorem InRegion.ret {a : α} (h : Good s l (.ret a)) : InRegion record Good s l (.ret a) := h

theorem InRegion.unlock (h : Good (HasLock.setHeld false s) l p) :
    InRegion record Good s l (.unlock p) := h

theorem InRegion.step {f : σ → σ × List ε} {k : σ → Prog σ ε α}
    (h : InRegion record Good (f s).1 ((f s).2.foldl record l) (k s)) :
    InRegion record Good s l (.step f k) := by
  unfold InRegion at h ⊢
  simp only [region]
  rwa [List.foldl_append]

theorem InRegion.put {f : σ → σ} (h : InRegion record Good (f s) l p) :
    InRegion record Good s l (.put f p) := InRegion.step h

theorem InRegion.look {k : σ → Prog σ ε α} (h : InRegion record Good s l (k s)) :
    InRegion record Good s l (.look k) := InRegion.step h

/-! ### Another thread's steps -/

/-- Every access of the program is of the kind `P`. -/
def Accesses (P : (σ → σ × List ε) → Prop) : Prog σ ε α → Prop
  | .ret _ => True
  | .lock k | .unlock k => Accesses P k
  | .step f k => P f ∧ ∀ s, Accesses P (k s)

variable {P : (σ → σ × List ε) → Prop}

omit [HasLock σ] in
theorem Accesses.ite {c : Prop} [Decidable c] (h : Accesses P p) (h' : Accesses P q) :
    Accesses P (if c then p else q) := by
  split
  · exact h
  · exact h'

theorem Accesses.region (h : Accesses P q) {I : σ → Λ → Prop}
    (haccess : ∀ f, P f → ∀ s l, I s l → I (f s).1 ((f s).2.foldl record l))
    (hunlock : ∀ b s l, I s l → I (HasLock.setHeld b s) l) (hI : I s l) :
    I (q.region s).2.1 ((q.region s).2.2.foldl record l) ∧ Accesses P (q.region s).1 := by
  induction q generalizing s l with
  | ret a => exact ⟨hI, h⟩
  | lock k => exact ⟨hI, h⟩
  | unlock k => exact ⟨hunlock false s l hI, h⟩
  | step f k ih =>
      simp only [Prog.region, List.foldl_append]
      exact ih s (h.2 s) (haccess f h.1 s l hI)

/-- **What the accesses keep, the steps keep.** -/
theorem Accesses.advance (record : Λ → ε → Λ) (h : Accesses P q) {I : σ → Λ → Prop}
    (haccess : ∀ f, P f → ∀ s l, I s l → I (f s).1 ((f s).2.foldl record l))
    (hlock : ∀ b s l, I s l → I (HasLock.setHeld b s) l) (hI : I s l) {q' : Prog σ ε α} {s' : σ}
    {effects : List ε} (hadv : q.advance s = some (q', s', effects)) :
    I s' (effects.foldl record l) ∧ Accesses P q' := by
  cases q with
  | ret a => exact nomatch hadv
  | lock k =>
      obtain ⟨-, hadv⟩ := Option.ite_none_left_eq_some.mp hadv
      have hregion := Accesses.region (q := k) h haccess hlock (hlock true s l hI)
      rwa [Option.some.inj hadv] at hregion
  | unlock k =>
      cases hadv
      exact ⟨hlock false s l hI, h⟩
  | step f k =>
      obtain ⟨rfl, hf⟩ := Prod.mk.inj (Option.some.inj hadv)
      have haccess := haccess f h.1 s l hI
      rw [hf] at haccess
      exact ⟨haccess, h.2 s⟩

theorem Accesses.next (h : Accesses P q) {q' : Prog σ ε α} {s' : σ} {effects : List ε}
    (hadv : q.advance s = some (q', s', effects)) : Accesses P q' :=
  (h.advance (fun u _ => u) (I := fun _ (_ : Unit) => True) (fun _ _ _ _ _ => trivial)
    (fun _ _ _ _ => trivial) (l := ()) trivial hadv).2

end Dnsperf.Lib.Prog
