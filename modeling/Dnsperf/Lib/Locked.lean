import Mathlib.Tactic

/-!
# Dnsperf.Lib.Locked

**Programs of threads that share a state and a lock.** A program is a tree of single accesses to
the state, with the places where it takes and releases the lock. Three things are read off it:

* `exec` — what it does when nothing comes in between;
* `advance` — one step of it among other threads: a region between `lock` and `unlock` as a whole,
  or an access outside;
* `Path` — the operations on the lock along a way through it, whatever the state looks like at each
  access. `Balanced` programs take and release the lock in turn on every path (`Balanced.path`).

A call is its steps when nothing comes in between (`exec_advance`).
-/

namespace Dnsperf.Lib

/-- A state with a lock in it. -/
class HasLock (σ : Type) where
  held : σ → Bool
  setHeld : Bool → σ → σ
  held_setHeld : ∀ b s, held (setHeld b s) = b

/-- A program over the state `σ` that reports effects in `ε` and returns an `α`. What follows an
access may depend on the state the access found. -/
inductive Prog (σ ε α : Type)
  | ret (a : α)
  | lock (k : Prog σ ε α)
  | unlock (k : Prog σ ε α)
  | step (f : σ → σ × List ε) (k : σ → Prog σ ε α)

/-- An operation on the lock. -/
inductive LockOp
  | lock
  | unlock
  deriving DecidableEq, Repr

/-- What a program has done. -/
structure Outcome (σ ε α : Type) where
  ret : α
  state : σ
  effects : List ε
  ops : List LockOp

namespace Prog

variable {σ ε α : Type}

/-- An update of the state. -/
def put (f : σ → σ) (k : Prog σ ε α) : Prog σ ε α := .step (fun s => (f s, [])) fun _ => k

/-- A look at the state. -/
def look (k : σ → Prog σ ε α) : Prog σ ε α := .step (fun s => (s, [])) k

/-! ### By itself -/

section

variable [HasLock σ]

/-- The program with nothing in between. -/
def exec : Prog σ ε α → σ → Outcome σ ε α
  | .ret a, s => ⟨a, s, [], []⟩
  | .lock k, s =>
      let r := exec k (HasLock.setHeld true s)
      ⟨r.ret, r.state, r.effects, .lock :: r.ops⟩
  | .unlock k, s =>
      let r := exec k (HasLock.setHeld false s)
      ⟨r.ret, r.state, r.effects, .unlock :: r.ops⟩
  | .step f k, s =>
      let r := exec (k s) (f s).1
      ⟨r.ret, r.state, (f s).2 ++ r.effects, r.ops⟩

/-- The program, from state `s`, returns `ret` and leaves `s'`, with these effects. -/
structure Does (p : Prog σ ε α) (s : σ) (ret : α) (s' : σ) (effects : List ε) : Prop where
  ret : (p.exec s).ret = ret
  state : (p.exec s).state = s'
  effects : (p.exec s).effects = effects

section Does

variable {s s' : σ} {ret : α} {effects : List ε} {k : Prog σ ε α}

theorem Does.done : Does (.ret ret : Prog σ ε α) s ret s [] := ⟨rfl, rfl, rfl⟩

theorem Does.step {f : σ → σ × List ε} {k : σ → Prog σ ε α}
    (h : Does (k s) (f s).1 ret s' effects) :
    Does (.step f k) s ret s' ((f s).2 ++ effects) :=
  ⟨h.ret, h.state, congrArg ((f s).2 ++ ·) h.effects⟩

theorem Does.step_last {f : σ → σ × List ε} {k : σ → Prog σ ε α}
    (h : Does (k s) (f s).1 ret s' []) :
    Does (.step f k) s ret s' (f s).2 := by
  have hstep := Does.step h
  rwa [List.append_nil] at hstep

theorem Does.put {f : σ → σ} (h : Does k (f s) ret s' effects) : Does (.put f k) s ret s' effects :=
  Does.step h

theorem Does.look {k : σ → Prog σ ε α} (h : Does (k s) s ret s' effects) :
    Does (.look k) s ret s' effects := Does.step h

theorem Does.lock (h : Does k (HasLock.setHeld true s) ret s' effects) :
    Does (.lock k) s ret s' effects := ⟨h.ret, h.state, h.effects⟩

theorem Does.unlock (h : Does k (HasLock.setHeld false s) ret s' effects) :
    Does (.unlock k) s ret s' effects := ⟨h.ret, h.state, h.effects⟩

end Does

/-! ### Among others -/

/-- From inside a region to its end. A program that returns or takes the lock again stays there. -/
def region : Prog σ ε α → σ → Prog σ ε α × σ × List ε
  | .unlock k, s => (k, HasLock.setHeld false s, [])
  | .step f k, s =>
      let r := region (k s) (f s).1
      (r.1, r.2.1, (f s).2 ++ r.2.2)
  | p, s => (p, s, [])

/-- One step: a whole region, for which the lock has to be free, or an access outside. -/
def advance : Prog σ ε α → σ → Option (Prog σ ε α × σ × List ε)
  | .ret _, _ => none
  | .lock k, s =>
      if HasLock.held s then none else some (region k (HasLock.setHeld true s))
  | .unlock k, s => some (k, HasLock.setHeld false s, [])
  | .step f k, s => some (k s, f s)

theorem exec_region (p : Prog σ ε α) (s : σ) :
    (p.exec s).ret = ((p.region s).1.exec (p.region s).2.1).ret ∧
      (p.exec s).state = ((p.region s).1.exec (p.region s).2.1).state ∧
      (p.exec s).effects = (p.region s).2.2 ++ ((p.region s).1.exec (p.region s).2.1).effects := by
  induction p generalizing s with
  | ret a => exact ⟨rfl, rfl, rfl⟩
  | lock k => exact ⟨rfl, rfl, rfl⟩
  | unlock k => exact ⟨rfl, rfl, rfl⟩
  | step f k ih =>
      obtain ⟨hret, hstate, heffects⟩ := ih s (f s).1
      refine ⟨hret, hstate, ?_⟩
      simp only [exec, region, heffects, List.append_assoc]

/-- **A step is part of the call.** -/
theorem exec_advance {p p' : Prog σ ε α} {s s' : σ} {effects : List ε}
    (h : p.advance s = some (p', s', effects)) :
    (p.exec s).ret = (p'.exec s').ret ∧ (p.exec s).state = (p'.exec s').state ∧
      (p.exec s).effects = effects ++ (p'.exec s').effects := by
  cases p with
  | ret a => exact nomatch h
  | lock k =>
      obtain ⟨-, h⟩ := Option.ite_none_left_eq_some.mp h
      have hregion := exec_region k (HasLock.setHeld true s)
      rw [Option.some.inj h] at hregion
      exact hregion
  | unlock k =>
      cases h
      exact ⟨rfl, rfl, rfl⟩
  | step f k =>
      obtain ⟨rfl, hf⟩ := Prod.mk.inj (Option.some.inj h)
      simp only [exec, hf, and_self]

end

/-! ### The operations on the lock -/

/-- A way through the program, with any state found at each access. -/
inductive Path : Prog σ ε α → List LockOp → Prop
  | ret (a : α) : Path (.ret a) []
  | lock {k : Prog σ ε α} {ops : List LockOp} : Path k ops → Path (.lock k) (.lock :: ops)
  | unlock {k : Prog σ ε α} {ops : List LockOp} : Path k ops → Path (.unlock k) (.unlock :: ops)
  | step {f : σ → σ × List ε} {k : σ → Prog σ ε α} {ops : List LockOp} (s : σ) :
      Path (k s) ops → Path (.step f k) ops

theorem path_exec [HasLock σ] (p : Prog σ ε α) (s : σ) : Path p (p.exec s).ops := by
  induction p generalizing s with
  | ret a => exact .ret a
  | lock k ih => exact .lock (ih _)
  | unlock k ih => exact .unlock (ih _)
  | step f k ih => exact .step s (ih s _)

section

variable [HasLock σ]

/-- On every way through the program the lock, which is held or free at its start, is taken when it
is free and released when it is held, and it is free at the end. No access changes it otherwise. -/
def Balanced : Bool → Prog σ ε α → Prop
  | held, .ret _ => held = false
  | held, .lock k => held = false ∧ Balanced true k
  | held, .unlock k => held = true ∧ Balanced false k
  | held, .step f k =>
      (∀ s, HasLock.held (f s).1 = HasLock.held s) ∧ ∀ s, Balanced held (k s)

variable {held : Bool} {p q k : Prog σ ε α}

theorem Balanced.done {a : α} : Balanced false (.ret a : Prog σ ε α) := rfl

theorem Balanced.lock (h : Balanced true k) : Balanced false (.lock k) := ⟨rfl, h⟩

theorem Balanced.unlock (h : Balanced false k) : Balanced true (.unlock k) := ⟨rfl, h⟩

theorem Balanced.step {f : σ → σ × List ε} {k : σ → Prog σ ε α}
    (hf : ∀ s, HasLock.held (f s).1 = HasLock.held s) (h : ∀ s, Balanced held (k s)) :
    Balanced held (.step f k) := ⟨hf, h⟩

theorem Balanced.put {f : σ → σ} (hf : ∀ s, HasLock.held (f s) = HasLock.held s)
    (h : Balanced held k) : Balanced held (.put f k) := ⟨hf, fun _ => h⟩

theorem Balanced.look {k : σ → Prog σ ε α} (h : ∀ s, Balanced held (k s)) :
    Balanced held (.look k) := ⟨fun _ => rfl, h⟩

theorem Balanced.ite {c : Prop} [Decidable c] (h : Balanced held p) (h' : Balanced held q) :
    Balanced held (if c then p else q) := by
  split
  · exact h
  · exact h'

/-- One `lock` and one `unlock`, any number of times. -/
inductive Matched : List LockOp → Prop
  | nil : Matched []
  | cons {ops : List LockOp} : Matched ops → Matched (.lock :: .unlock :: ops)

/-- **Every path is matched.** -/
theorem Balanced.path {ops : List LockOp} (h : Balanced held p) (hpath : Path p ops) :
    Matched (if held then .lock :: ops else ops) := by
  induction hpath generalizing held with
  | ret a =>
      obtain rfl : held = false := h
      exact .nil
  | lock _ ih =>
      obtain ⟨rfl, hk⟩ := h
      exact ih hk
  | unlock _ ih =>
      obtain ⟨rfl, hk⟩ := h
      exact .cons (ih hk)
  | step s _ ih => exact ih (h.2 s)

/-- **The lock is free at the end.** -/
theorem Balanced.held_exec (h : Balanced held p) {s : σ} (hs : HasLock.held s = held) :
    HasLock.held (p.exec s).state = false := by
  induction p generalizing held s with
  | ret a => exact hs.trans h
  | lock k ih => exact ih h.2 (HasLock.held_setHeld true s)
  | unlock k ih => exact ih h.2 (HasLock.held_setHeld false s)
  | step f k ih => exact ih s (h.2 s) ((h.1 s).trans hs)

end

end Prog

end Dnsperf.Lib
