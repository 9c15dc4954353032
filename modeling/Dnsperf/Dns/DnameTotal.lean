import Dnsperf.Dns.DnameSound

/-!
# Dnsperf.Dns.DnameTotal

`perf_dname_fromstring` **never runs out of space** in a buffer with room for 256 bytes, or
for two more than the text has: its own check compares the length of the text, which may
be less than the name takes. What it appends depends on the text alone.
-/

namespace Dnsperf.Dns

open Dnsperf.Lib

/-- The most a name can take: what the loop may still write, or the text with a length
byte in place of each dot, one at the start and the last zero. -/
def nameBound (max : Int) (s : Bytes) : Nat := min (max.toNat + 1) (s.length + 2)

/-- A label with a bad escape is a failure, and any other is copied. -/
theorem copyLabel_total {l : List Piece} {rest : Bytes} {t : PerfBuffer} (hrest : Stops rest)
    (ht : t.Fits (l.length + 1)) :
    (∃ rest' t', copyLabel (renderLabel l ++ rest) l.length (l.any Piece.escaped) t =
        some (.failure, rest', t')) ∨
      copyLabel (renderLabel l ++ rest) l.length (l.any Piece.escaped) t =
        some (.success, rest, t.push (UInt8.ofNat l.length :: copiedBytes l)) := by
  by_cases hbad : ∃ p ∈ l, 255 < p.copied
  · exact Or.inl (copyLabel_failure rest hbad ht)
  · refine Or.inr (copyLabel_render hrest (fun p hp => ?_) ht)
    by_contra hgt
    exact hbad ⟨p, hp, by omega⟩

/-- A result, and a name of at most `n` bytes appended if it is a success. -/
def Writes (n : Nat) (t : PerfBuffer) (outcome : Option (PerfResult × PerfBuffer)) : Prop :=
  ∃ result t', outcome = some (result, t') ∧
    (result = .success → t'.length = t.length ∧ t'.base.length ≤ t.base.length + n)

theorem writes_failure (n : Nat) (t t' : PerfBuffer) : Writes n t (some (.failure, t')) :=
  ⟨.failure, t', rfl, nofun⟩

theorem writes_putmem {n : Nat} {t : PerfBuffer} {mem : Bytes} (ht : t.Fits mem.length)
    (hn : mem.length ≤ n) : Writes n t ((t.putmem mem).bind fun t => some (.success, t)) := by
  refine ⟨.success, t.push mem, by rw [PerfBuffer.putmem_eq_push ht]; rfl, fun _ => ⟨rfl, ?_⟩⟩
  rw [PerfBuffer.push_base ht, List.length_append]
  exact Nat.add_le_add_left hn _

theorem Writes.of_push {n m : Nat} {t : PerfBuffer} {mem : Bytes}
    {outcome : Option (PerfResult × PerfBuffer)} (h : Writes n (t.push mem) outcome)
    (ht : t.Fits mem.length) (hm : mem.length + n ≤ m) : Writes m t outcome := by
  obtain ⟨result, t', houtcome, hsuccess⟩ := h
  refine ⟨result, t', houtcome, fun hr => ?_⟩
  obtain ⟨hlen, hle⟩ := hsuccess hr
  rw [PerfBuffer.push_base ht, List.length_append] at hle
  exact ⟨hlen, by omega⟩

/-- **No space assertion of the loop fails.** -/
theorem dnameLoop_writes {fuel : Nat} {atStart : Bool} {max : Int} {s : Bytes} {t : PerfBuffer}
    (hfuel : s.length < fuel) (ht : t.Fits (nameBound max s)) :
    Writes (nameBound max s) t (dnameLoop fuel atStart max s t) := by
  induction fuel generalizing atStart max s t with
  | zero => omega
  | succ fuel ih =>
      by_cases hs : s = []
      · rw [dnameLoop, if_pos hs]
        exact ⟨.success, t, rfl, fun _ => ⟨rfl, Nat.le_add_right _ _⟩⟩
      cases hcount : countLabel 0 false s with
      | none =>
          rw [dnameLoop, if_neg hs, hcount]
          exact writes_failure _ t t
      | some r =>
          obtain ⟨l, rest, rfl, hrest⟩ := countLabel_eq_some hcount
          have hbound : 1 ≤ nameBound max (renderLabel l ++ rest) := by unfold nameBound; omega
          by_cases hok : LabelOk l ∧ ((l.length + 1 : Nat) : Int) ≤ max
          · obtain ⟨hl, hmax⟩ := hok
            have hsize := length_le_renderLabel l
            have hlabel : l.length + 2 ≤ nameBound max (renderLabel l ++ rest) := by
              unfold nameBound
              rw [List.length_append]
              omega
            have hfits : t.Fits (UInt8.ofNat l.length :: copiedBytes l).length := by
              refine ht.mono ?_
              rw [List.length_cons, copiedBytes_length]
              omega
            rw [dnameLoop_label hl hrest hmax]
            rcases copyLabel_total hrest (ht.mono (by omega : l.length + 1 ≤ _)) with
              ⟨rest', t', hcopy⟩ | hcopy
            · rw [hcopy]
              exact writes_failure _ t t'
            · rw [hcopy, Option.bind_some]
              dsimp only
              rw [if_neg (by simp)]
              split_ifs with hshort
              · have hmem : (UInt8.ofNat l.length :: copiedBytes l).length + 1 ≤
                    nameBound max (renderLabel l ++ rest) := by
                  rw [List.length_cons, copiedBytes_length]
                  exact hlabel
                exact (writes_putmem (PerfBuffer.fits_push (ht.mono hmem)) (Nat.le_refl 1)).of_push
                  hfits hmem
              · -- the rest of the text, after the dot
                have hnext : l.length + 1 + nameBound (max - (l.length + 1)) rest.tail ≤
                    nameBound max (renderLabel l ++ rest) := by
                  unfold nameBound
                  rw [List.length_append, List.length_tail]
                  push_cast at hmax
                  omega
                refine (ih ?_ ?_).of_push hfits (by simpa using hnext)
                · rw [List.length_append] at hfuel
                  rw [List.length_tail]
                  omega
                · exact PerfBuffer.fits_push (ht.mono (by simpa using hnext))
          · -- a lone dot, or a label that is refused
            rw [dnameLoop, if_neg hs, countLabel_render l hrest, Nat.zero_add]
            dsimp only
            split_ifs with hzero _ _ _ hmax
            · exact writes_failure _ t t
            · exact writes_failure _ t t
            · exact writes_putmem (ht.mono hbound) hbound
            · exact writes_failure _ t t
            · exact writes_failure _ t t
            · exact absurd ⟨⟨by omega, by omega⟩, by push_cast; omega⟩ hok

/-- **`perf_dname_fromstring` never runs out of space**, with room for 256 bytes or for two
more than the text. -/
theorem perfDnameFromstring_writes (s : Bytes) {t : PerfBuffer}
    (ht : t.Fits (nameBound 255 s)) :
    Writes (nameBound 255 s) t (perfDnameFromstring s t) := by
  unfold perfDnameFromstring
  split_ifs
  · exact ⟨.nospace, t, rfl, nofun⟩
  · exact dnameLoop_writes (Nat.lt_succ_self _) ht

/-! ### The same name in two buffers -/

theorem dnameLoop_same {fuel : Nat} {atStart : Bool} {max : Int} {s : Bytes}
    {t t' u u' : PerfBuffer} (ht : dnameLoop fuel atStart max s t = some (.success, t'))
    (hu : dnameLoop fuel atStart max s u = some (.success, u')) :
    ∃ bytes, t'.base = t.base ++ bytes ∧ u'.base = u.base ++ bytes := by
  induction fuel generalizing atStart max s t t' u u' with
  | zero => cases ht
  | succ fuel ih =>
      by_cases hs : s = []
      · rw [dnameLoop, if_pos hs] at ht hu
        obtain ⟨-, rfl⟩ := Prod.mk.inj (Option.some.inj ht)
        obtain ⟨-, rfl⟩ := Prod.mk.inj (Option.some.inj hu)
        exact ⟨[], by rw [List.append_nil], by rw [List.append_nil]⟩
      obtain ⟨l, rest, rfl, hrest⟩ : ∃ l rest, s = renderLabel l ++ rest ∧ Stops rest := by
        cases hcount : countLabel 0 false s with
        | none =>
            rw [dnameLoop, if_neg hs, hcount] at ht
            cases ht
        | some r => exact countLabel_eq_some hcount
      rcases dnameLoop_cases hrest hs ht with ⟨rfl, -, -, hput⟩ | ⟨hl, hmax⟩
      · rcases dnameLoop_cases hrest hs hu with ⟨-, -, -, hput'⟩ | ⟨hl, -⟩
        · exact ⟨[0], (PerfBuffer.putmem_eq_some.mp hput).2.1,
            (PerfBuffer.putmem_eq_some.mp hput').2.1⟩
        · exact absurd hl.1 (by simp)
      · obtain ⟨t₁, hbase, -, hround⟩ := dnameLoop_round hl hrest hmax ht
        obtain ⟨u₁, hbase', -, hround'⟩ := dnameLoop_round hl hrest hmax hu
        obtain ⟨more, hmore, hmore'⟩ : ∃ more, t'.base = t₁.base ++ more ∧
            u'.base = u₁.base ++ more := by
          rcases hround with ⟨hshort, hput⟩ | ⟨hlong, hloop⟩ <;>
            rcases hround' with ⟨hshort', hput'⟩ | ⟨hlong', hloop'⟩
          · exact ⟨[0], (PerfBuffer.putmem_eq_some.mp hput).2.1,
              (PerfBuffer.putmem_eq_some.mp hput').2.1⟩
          · omega
          · omega
          · exact ih hloop hloop'
        rw [hbase, List.append_assoc] at hmore
        rw [hbase', List.append_assoc] at hmore'
        exact ⟨_, hmore, hmore'⟩

/-- **What is appended depends on the text alone.** -/
theorem perfDnameFromstring_same {s : Bytes} {t t' u u' : PerfBuffer}
    (ht : perfDnameFromstring s t = some (.success, t'))
    (hu : perfDnameFromstring s u = some (.success, u')) :
    ∃ bytes, t'.base = t.base ++ bytes ∧ u'.base = u.base ++ bytes := by
  unfold perfDnameFromstring at ht hu
  split_ifs at ht hu
  · cases ht
  · cases ht
  · cases hu
  · exact dnameLoop_same ht hu

end Dnsperf.Dns
