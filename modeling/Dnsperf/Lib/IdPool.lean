import Mathlib.Order.Interval.Finset.Nat
import Mathlib.Tactic

/-!
# Dnsperf.Lib.IdPool

**A pool of ids, used in turn.** Ids are taken from the head of a queue and go back to one
of its ends; each use has a number. An id that goes back to the front is used again at once,
so the pool says nothing about those. For an id `q` that is *not* put to the front, every id
before it in the queue is used first, and so the numbers of two uses of `q` are at least as
far apart as `q` had ids before it.

`Moves since q ahead` are the operations that respect this for the ids `ahead` of `q`: `q`
does not go to the front before its next use, and none of these ids goes to the back out of its
place in the queue.
-/

namespace Dnsperf.Lib

variable {ι : Type*}

/-- The ids that are not in use, the number of each id's last use, and the number of the
next use. -/
structure IdPool (ι : Type*) where
  queue : List ι
  serial : ι → Nat
  count : Nat

namespace IdPool

section

variable {r : IdPool ι} {since : Nat} {q : ι} {ahead : List ι}

/-- Uses are numbered one after another. -/
structure Numbered (since : Nat) (r : IdPool ι) : Prop where
  since_le : since ≤ r.count
  lt : ∀ p, r.serial p < r.count
  inj : ∀ p p', since ≤ r.serial p → r.serial p = r.serial p' → p = p'

theorem Numbered.of_lt (hlt : ∀ p, r.serial p < r.count) : r.Numbered r.count where
  since_le := le_rfl
  lt := hlt
  inj p _ h := absurd (hlt p) (not_lt.mpr h)

/-- Ids used since then have numbers of their own. -/
theorem Numbered.length_le (h : r.Numbered since) {l : List ι} (hnodup : l.Nodup)
    (hused : ∀ p ∈ l, since ≤ r.serial p) : since + l.length ≤ r.count := by
  have hmap : (l.map r.serial).Nodup :=
    hnodup.map_on fun a ha b _ hab => h.inj a b (hused a ha) hab
  have hsub : (l.map r.serial).toFinset ⊆ Finset.Ico since r.count := by
    intro n hn
    obtain ⟨p, hp, rfl⟩ := List.mem_map.mp (List.mem_toFinset.mp hn)
    exact Finset.mem_Ico.mpr ⟨hused p hp, h.lt p⟩
  have hcard := Finset.card_le_card hsub
  rw [List.toFinset_card_of_nodup hmap, List.length_map, Nat.card_Ico] at hcard
  have := h.since_le
  omega

/-- The place of `q`: before its next use, what is left of `ahead` is still before it; and
by then all of them have been used. -/
structure InTurn (since : Nat) (q : ι) (ahead : List ι) (r : IdPool ι) : Prop where
  numbered : r.Numbered since
  nodup : r.queue.Nodup
  home : ∀ p ∈ q :: ahead, p ∈ r.queue ∨ since ≤ r.serial p
  waiting : r.serial q < since →
    ∃ m l, r.queue = m ++ q :: l ∧ ∀ p ∈ ahead, p ∈ m ∨ since ≤ r.serial p
  used : since ≤ r.serial q →
    since + ahead.length ≤ r.serial q ∧ ∀ p ∈ ahead, since ≤ r.serial p

theorem InTurn.init (hlt : ∀ p, r.serial p < r.count) (hnodup : r.queue.Nodup) {l : List ι}
    (hqueue : r.queue = ahead ++ q :: l) : r.InTurn r.count q ahead where
  numbered := .of_lt hlt
  nodup := hnodup
  home p hp := Or.inl <| by
    rw [hqueue]
    exact List.perm_middle.mem_iff.mpr (List.mem_append_left l hp)
  waiting _ := ⟨ahead, l, hqueue, fun _ hp => Or.inl hp⟩
  used h := absurd (hlt q) (not_lt.mpr h)

end

variable [DecidableEq ι]

/-- The id `p` is used. -/
def use (r : IdPool ι) (p : ι) (rest : List ι) : IdPool ι :=
  ⟨rest, Function.update r.serial p r.count, r.count + 1⟩

def toFront (r : IdPool ι) (p : ι) : IdPool ι := { r with queue := p :: r.queue.erase p }

def toBack (r : IdPool ι) (p : ι) : IdPool ι := { r with queue := r.queue.erase p ++ [p] }

/-- An operation on the pool that does not favour `q`. -/
inductive Moves (since : Nat) (q : ι) (ahead : List ι) : IdPool ι → IdPool ι → Prop
  | use {r : IdPool ι} {p : ι} {rest : List ι} (hqueue : r.queue = p :: rest) :
      Moves since q ahead r (r.use p rest)
  | toFront {r : IdPool ι} {p : ι} (hp : p = q → since ≤ r.serial p) :
      Moves since q ahead r (r.toFront p)
  | toBack {r : IdPool ι} {p : ι} (hp : p ∈ q :: ahead → p ∈ r.queue → since ≤ r.serial p) :
      Moves since q ahead r (r.toBack p)

variable {r r' : IdPool ι} {since : Nat} {p q : ι} {ahead : List ι}

theorem use_serial_self (rest : List ι) : (r.use p rest).serial p = r.count :=
  Function.update_self ..

theorem use_serial_of_ne (rest : List ι) (h : q ≠ p) : (r.use p rest).serial q = r.serial q :=
  Function.update_of_ne h ..

theorem Numbered.use (h : r.Numbered since) (p : ι) (rest : List ι) :
    (r.use p rest).Numbered since := by
  have hne {p' : ι} (hp : p' ≠ p) : r.serial p' ≠ r.count := (h.lt p').ne
  refine ⟨h.since_le.trans (Nat.le_succ _), fun p' => ?_, fun a b ha hab => ?_⟩
  · by_cases hp : p' = p
    · subst hp
      rw [use_serial_self]
      exact Nat.lt_succ_self _
    · rw [use_serial_of_ne rest hp]
      exact (h.lt p').trans (Nat.lt_succ_self _)
  · by_cases hap : a = p <;> by_cases hbp : b = p
    · exact hap.trans hbp.symm
    · subst hap
      rw [use_serial_self, use_serial_of_ne rest hbp] at hab
      exact absurd hab.symm (h.lt b).ne
    · subst hbp
      rw [use_serial_self, use_serial_of_ne rest hap] at hab
      exact absurd hab (h.lt a).ne
    · rw [use_serial_of_ne rest hap] at ha hab
      rw [use_serial_of_ne rest hbp] at hab
      exact h.inj a b ha hab

theorem Moves.numbered (hmove : Moves since q ahead r r') (h : r.Numbered since) :
    r'.Numbered since := by
  cases hmove with
  | use _ => exact h.use _ _
  | toFront _ => exact ⟨h.since_le, h.lt, h.inj⟩
  | toBack _ => exact ⟨h.since_le, h.lt, h.inj⟩

theorem Moves.serial_le (hmove : Moves since q ahead r r') (h : r.Numbered since) (p : ι) :
    r.serial p ≤ r'.serial p := by
  cases hmove with
  | @use p' rest _ =>
      by_cases hp : p = p'
      · subst hp
        rw [use_serial_self]
        exact (h.lt p).le
      · rw [use_serial_of_ne rest hp]
  | toFront _ => exact le_rfl
  | toBack _ => exact le_rfl

/-- An id is in the queue until it is used. -/
theorem Moves.mem_or_used (hmove : Moves since q ahead r r') (h : r.Numbered since)
    (hp : p ∈ r.queue ∨ since ≤ r.serial p) : p ∈ r'.queue ∨ since ≤ r'.serial p := by
  rcases hp with hp | hp
  · cases hmove with
    | @use p' rest hqueue =>
        by_cases hpp : p = p'
        · subst hpp
          exact Or.inr (h.since_le.trans (use_serial_self rest).ge)
        · rw [hqueue] at hp
          exact Or.inl ((List.mem_cons.mp hp).resolve_left hpp)
    | @toFront p' _ =>
        refine Or.inl (List.mem_cons.mpr ?_)
        by_cases hpp : p = p'
        · exact Or.inl hpp
        · exact Or.inr ((List.mem_erase_of_ne hpp).mpr hp)
    | @toBack p' _ =>
        refine Or.inl (List.mem_append.mpr ?_)
        by_cases hpp : p = p'
        · exact Or.inr (List.mem_singleton.mpr hpp)
        · exact Or.inl ((List.mem_erase_of_ne hpp).mpr hp)
  · exact Or.inr (hp.trans (hmove.serial_le h p))

theorem Moves.nodup (hmove : Moves since q ahead r r') (h : r.queue.Nodup) : r'.queue.Nodup := by
  cases hmove with
  | use hqueue => exact (List.nodup_cons.mp (hqueue ▸ h)).2
  | toFront _ => exact List.nodup_cons.mpr ⟨h.not_mem_erase, h.erase _⟩
  | toBack _ =>
      refine List.nodup_append_comm.mp ?_
      exact List.nodup_cons.mpr ⟨h.not_mem_erase, h.erase _⟩

theorem InTurn.home_moves (h : r.InTurn since q ahead) (hmove : Moves since q ahead r r') :
    ∀ p ∈ q :: ahead, p ∈ r'.queue ∨ since ≤ r'.serial p :=
  fun p hp => hmove.mem_or_used h.numbered (h.home p hp)

/-- Once `q` has been used again, nothing goes back on it. -/
theorem InTurn.of_used (h : r.InTurn since q ahead) (hmove : Moves since q ahead r r')
    (hq : since ≤ r.serial q) : r'.InTurn since q ahead := by
  obtain ⟨hcount, hahead⟩ := h.used hq
  have hle := hmove.serial_le h.numbered
  exact ⟨hmove.numbered h.numbered, hmove.nodup h.nodup, h.home_moves hmove,
    fun hlt => absurd (hq.trans (hle q)) (not_le.mpr hlt),
    fun _ => ⟨hcount.trans (hle q), fun p hp => (hahead p hp).trans (hle p)⟩⟩

/-- The head of the queue is used: an id before `q`, or `q` itself when none is left. -/
theorem InTurn.use {rest : List ι} (h : r.InTurn since q ahead) (hnodup : ahead.Nodup)
    (hwaits : r.serial q < since) (hqueue : r.queue = p :: rest) :
    (r.use p rest).InTurn since q ahead := by
  have hmove : Moves since q ahead r (r.use p rest) := .use hqueue
  have hle := hmove.serial_le h.numbered
  obtain ⟨m, l, hm, hahead⟩ := h.waiting hwaits
  rw [hm] at hqueue
  cases m with
  | nil =>
      obtain ⟨rfl, rfl⟩ := List.cons.inj hqueue
      have hall : ∀ p ∈ ahead, since ≤ r.serial p := fun p hp =>
        (hahead p hp).resolve_left List.not_mem_nil
      have hcount := h.numbered.length_le hnodup hall
      refine ⟨hmove.numbered h.numbered, hmove.nodup h.nodup, h.home_moves hmove, fun hlt => ?_,
        fun _ => ⟨?_, fun p hp => (hall p hp).trans (hle p)⟩⟩
      · rw [use_serial_self] at hlt
        exact absurd h.numbered.since_le (not_le.mpr hlt)
      · rwa [use_serial_self]
  | cons p' m =>
      obtain ⟨rfl, rfl⟩ := List.cons.inj hqueue
      have hne : q ≠ p' := by
        rintro rfl
        have hnot := (List.nodup_cons.mp (hm ▸ h.nodup)).1
        exact hnot (List.mem_append_right m List.mem_cons_self)
      have hq := use_serial_of_ne (r := r) (m ++ q :: l) hne
      refine ⟨hmove.numbered h.numbered, hmove.nodup h.nodup, h.home_moves hmove,
        fun _ => ⟨m, l, rfl, fun p hp => ?_⟩, fun hused => ?_⟩
      · rcases hahead p hp with hpm | hused
        · rcases List.mem_cons.mp hpm with rfl | hpm
          · exact Or.inr (h.numbered.since_le.trans (use_serial_self _).ge)
          · exact Or.inl hpm
        · exact Or.inr (hused.trans (hle p))
      · exact absurd hwaits (not_lt.mpr (hused.trans hq.le))

theorem exists_erase_append_cons (hp : p ≠ q) (m l : List ι) :
    ∃ m' l', (m ++ q :: l).erase p = m' ++ q :: l' ∧ ∀ x ∈ m, x ≠ p → x ∈ m' := by
  rw [List.erase_append]
  split_ifs with hpm
  · exact ⟨m.erase p, l, rfl, fun x hx hxp => (List.mem_erase_of_ne hxp).mpr hx⟩
  · rw [List.erase_cons_tail (by simpa using Ne.symm hp)]
    exact ⟨m, l.erase p, rfl, fun x hx _ => hx⟩

theorem InTurn.toFront (h : r.InTurn since q ahead) (hwaits : r.serial q < since) (hp : p ≠ q) :
    (r.toFront p).InTurn since q ahead := by
  have hmove : Moves since q ahead r (r.toFront p) := .toFront fun hpq => absurd hpq hp
  obtain ⟨m, l, hm, hahead⟩ := h.waiting hwaits
  obtain ⟨m', l', herase, hsub⟩ := exists_erase_append_cons hp m l
  refine ⟨hmove.numbered h.numbered, hmove.nodup h.nodup, h.home_moves hmove, fun _ =>
    ⟨p :: m', l', ?_, fun x hx => ?_⟩, fun hused => absurd hwaits (not_lt.mpr hused)⟩
  · rw [IdPool.toFront, hm, herase]
    rfl
  · refine (hahead x hx).imp_left fun hxm => List.mem_cons.mpr ?_
    exact or_iff_not_imp_left.mpr (hsub x hxm)

theorem InTurn.toBack (h : r.InTurn since q ahead) (hwaits : r.serial q < since)
    (hp : p ∈ q :: ahead → p ∈ r.queue → since ≤ r.serial p) :
    (r.toBack p).InTurn since q ahead := by
  have hmove : Moves since q ahead r (r.toBack p) := .toBack hp
  replace hp (hmem : p ∈ q :: ahead) : since ≤ r.serial p := (h.home p hmem).elim (hp hmem) id
  have hne : p ≠ q := by
    rintro rfl
    exact absurd hwaits (not_lt.mpr (hp List.mem_cons_self))
  obtain ⟨m, l, hm, hahead⟩ := h.waiting hwaits
  obtain ⟨m', l', herase, hsub⟩ := exists_erase_append_cons hne m l
  refine ⟨hmove.numbered h.numbered, hmove.nodup h.nodup, h.home_moves hmove,
    fun _ => ⟨m', l' ++ [p], ?_, fun x hx => ?_⟩, fun hused => absurd hwaits (not_lt.mpr hused)⟩
  · rw [IdPool.toBack, hm, herase, List.append_assoc, List.cons_append]
  · by_cases hxp : x = p
    · subst hxp
      exact Or.inr (hp (List.mem_cons_of_mem q hx))
    · exact (hahead x hx).imp_left fun hxm => hsub x hxm hxp

theorem InTurn.move (h : r.InTurn since q ahead) (hnodup : ahead.Nodup)
    (hmove : Moves since q ahead r r') : r'.InTurn since q ahead := by
  rcases lt_or_ge (r.serial q) since with hwaits | hused
  · cases hmove with
    | use hqueue => exact h.use hnodup hwaits hqueue
    | toFront hp =>
        refine h.toFront hwaits ?_
        rintro rfl
        exact absurd hwaits (not_lt.mpr (hp rfl))
    | toBack hp => exact h.toBack hwaits hp
  · exact h.of_used hmove hused

/-- **An id is used in its turn**, whatever the operations. -/
theorem InTurn.moves (h : r.InTurn since q ahead) (hnodup : ahead.Nodup)
    (hmoves : Relation.ReflTransGen (Moves since q ahead) r r') :
    r'.InTurn since q ahead ∧ ∀ p, r.serial p ≤ r'.serial p := by
  induction hmoves with
  | refl => exact ⟨h, fun p => le_rfl⟩
  | tail _ hmove ih =>
      exact ⟨ih.1.move hnodup hmove, fun p => (ih.2 p).trans (hmove.serial_le ih.1.numbered p)⟩

theorem Moves.lt_count (hmove : Moves since q ahead r r')
    (h : ∀ p, r.serial p ≠ 0 → r.serial p < r.count) (p : ι) (hp : r'.serial p ≠ 0) :
    r'.serial p < r'.count := by
  cases hmove with
  | @use p' rest _ =>
      by_cases hpp : p = p'
      · subst hpp
        rw [use_serial_self]
        exact Nat.lt_succ_self _
      · rw [use_serial_of_ne rest hpp] at hp ⊢
        exact (h p hp).trans (Nat.lt_succ_self _)
  | toFront _ => exact h p hp
  | toBack _ => exact h p hp

theorem lt_count_of_moves (h : ∀ p, r.serial p ≠ 0 → r.serial p < r.count)
    (hmoves : Relation.ReflTransGen (Moves since q ahead) r r') :
    ∀ p, r'.serial p ≠ 0 → r'.serial p < r'.count := by
  induction hmoves with
  | refl => exact h
  | tail _ hmove ih => exact hmove.lt_count ih

end IdPool

end Dnsperf.Lib
