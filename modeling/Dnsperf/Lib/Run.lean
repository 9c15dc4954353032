import Mathlib.Tactic

/-!
# Dnsperf.Lib.Run

**Runs of a labelled transition system.** A step relation `step s e s'` says
that event `e` may take state `s` to `s'`; `Run step s es s'` chains the events
`es`. Interleavings of several parties are runs whose events name the party
that moves, so the invariant rule below is the only induction the concurrent
components need.

`Guarded g step` keeps the steps whose state and event satisfy `g`: a run of
it is a run in which every step met the condition `g`.

Where the steps are those of a function (`StepOf next`), `follow` carries a list of
events out, so that a particular run is found by evaluation. A loop of the code that handles
one event after another is a `foldlM`, and that is a run, too.
-/

namespace Dnsperf.Lib

variable {σ ε : Type*}

/-- The events `es`, taken one after another, lead from the first state to the
last. -/
inductive Run (step : σ → ε → σ → Prop) : σ → List ε → σ → Prop
  | nil (s : σ) : Run step s [] s
  | cons {s s' s'' : σ} {e : ε} {es : List ε} :
      step s e s' → Run step s' es s'' → Run step s (e :: es) s''

/-- The steps of `step` taken from a state and on an event that meet `g`. -/
def Guarded (g : σ → ε → Prop) (step : σ → ε → σ → Prop) (s : σ) (e : ε) (s' : σ) : Prop :=
  g s e ∧ step s e s'

/-- The steps of a function that says whether an event is possible. -/
def StepOf (next : σ → ε → Option σ) (s : σ) (e : ε) (s' : σ) : Prop := next s e = some s'

/-- The events carried out one after another, if each is possible and meets `g`. -/
def follow (g : σ → ε → Prop) [∀ s e, Decidable (g s e)] (next : σ → ε → Option σ) :
    σ → List ε → Option σ
  | s, [] => some s
  | s, e :: es => if g s e then (next s e).bind fun s' => follow g next s' es else none

namespace Run

variable {step : σ → ε → σ → Prop} {s s' s'' : σ} {e : ε} {es fs : List ε}

/-- **Invariant rule.** What every step preserves, every run preserves. -/
theorem invariant {I : σ → Prop} (hstep : ∀ s e s', I s → step s e s' → I s')
    (hrun : Run step s es s') (hs : I s) : I s' := by
  induction hrun with
  | nil s => exact hs
  | cons h _ ih => exact ih (hstep _ _ _ hs h)

theorem append (h₁ : Run step s es s') (h₂ : Run step s' fs s'') :
    Run step s (es ++ fs) s'' := by
  induction h₁ with
  | nil s => exact h₂
  | cons h _ ih => exact Run.cons h (ih h₂)

theorem of_append (h : Run step s (es ++ fs) s'') :
    ∃ s', Run step s es s' ∧ Run step s' fs s'' := by
  induction es generalizing s with
  | nil => exact ⟨s, Run.nil s, h⟩
  | cons e es ih =>
      cases h with
      | cons hstep hrest =>
          obtain ⟨s', hes, hfs⟩ := ih hrest
          exact ⟨s', Run.cons hstep hes, hfs⟩

theorem mono {step' : σ → ε → σ → Prop} (himp : ∀ s e s', step s e s' → step' s e s')
    (hrun : Run step s es s') : Run step' s es s' := by
  induction hrun with
  | nil s => exact Run.nil s
  | cons h _ ih => exact Run.cons (himp _ _ _ h) ih

theorem map {τ : Type*} {step' : τ → ε → τ → Prop} (f : σ → τ)
    (himp : ∀ s e s', step s e s' → step' (f s) e (f s')) (hrun : Run step s es s') :
    Run step' (f s) es (f s') := by
  induction hrun with
  | nil s => exact Run.nil (f s)
  | cons h _ ih => exact Run.cons (himp _ _ _ h) ih

theorem guarded {p : ε → Prop} (hes : ∀ e ∈ es, p e) (hrun : Run step s es s') :
    Run (Guarded (fun _ e => p e) step) s es s' := by
  induction hrun with
  | nil s => exact Run.nil s
  | cons h _ ih =>
      exact Run.cons ⟨hes _ (List.mem_cons_self ..), h⟩
        (ih fun e he => hes e (List.mem_cons_of_mem _ he))

section Follow

variable {g : σ → ε → Prop} [∀ s e, Decidable (g s e)] {next : σ → ε → Option σ}

theorem of_follow (h : follow g next s es = some s') : Run (Guarded g (StepOf next)) s es s' := by
  induction es generalizing s with
  | nil =>
      rw [follow, Option.some.injEq] at h
      rw [h]
      exact Run.nil s'
  | cons e es ih =>
      rw [follow] at h
      split_ifs at h with hg
      obtain ⟨t, ht, htail⟩ := Option.bind_eq_some_iff.mp h
      exact Run.cons ⟨hg, ht⟩ (ih htail)

/-- A run, by evaluation: the events lead to a state that passes the test `p`. -/
theorem exists_of_follow (g : σ → ε → Prop) [∀ s e, Decidable (g s e)] (next : σ → ε → Option σ)
    (s : σ) (es : List ε) (p : σ → Bool) (h : (follow g next s es).any p = true) :
    ∃ s', Run (Guarded g (StepOf next)) s es s' ∧ p s' = true := by
  obtain ⟨s', hs', hp⟩ := (Option.any_eq_true p _).mp h
  exact ⟨s', of_follow hs', hp⟩

end Follow

theorem of_foldlM {next : σ → ε → Option σ} (h : es.foldlM next s = some s') :
    Run (StepOf next) s es s' := by
  induction es generalizing s with
  | nil =>
      obtain rfl := Option.some.inj h
      exact Run.nil s
  | cons e es ih =>
      rw [List.foldlM_cons] at h
      obtain ⟨t, ht, htail⟩ := Option.bind_eq_some_iff.mp h
      exact Run.cons ht (ih htail)

end Run

end Dnsperf.Lib
