import Dnsperf.Lib.Framing

/-!
# Dnsperf.Buffer

The result codes of `result.h` and the output buffer of `buffer.h`.

A `perf_buffer_t` is a block of `length` bytes of which the first `used` are
filled. `PerfBuffer.base` holds exactly those `used` bytes, and the structure
carries `used ≤ length`, so the buffer cannot be overrun by construction: each
`put` operation first checks the assertion its macro makes and answers `none`
when it fails (the process aborts there).
-/

namespace Dnsperf

open Dnsperf.Lib

/-- `perf_result_t`. -/
inductive PerfResult
  | success
  | failure
  | canceled
  | eof
  | invalidfile
  | nomore
  | nospace
  | timedout
  | invalidupdate
  deriving Repr, DecidableEq

/-- `perf_buffer_t`: the used bytes of a block of `length` bytes. -/
@[ext] structure PerfBuffer where
  /-- `base[0 .. used)`. -/
  base : Bytes
  length : Nat
  used_le : base.length ≤ length
  deriving DecidableEq

namespace PerfBuffer

variable {b b' : PerfBuffer} {mem : Bytes}

/-- `perf_buffer_init`. -/
def init (length : Nat) : PerfBuffer := ⟨[], length, Nat.zero_le _⟩

/-- `perf_buffer_clear`. -/
def clear (b : PerfBuffer) : PerfBuffer := init b.length

/-- `perf_buffer_usedlength`. -/
def usedlength (b : PerfBuffer) : Nat := b.base.length

/-- `perf_buffer_availablelength`. -/
def availablelength (b : PerfBuffer) : Nat := b.length - b.usedlength

/-- `perf_buffer_putmem`: `none` is the failed space assertion. -/
def putmem (b : PerfBuffer) (mem : Bytes) : Option PerfBuffer :=
  if h : b.base.length + mem.length ≤ b.length then
    some ⟨b.base ++ mem, b.length, by simpa using h⟩
  else none

/-- `perf_buffer_putuint8`: the value is cut to 8 bits. -/
def putuint8 (b : PerfBuffer) (val : Nat) : Option PerfBuffer := b.putmem [UInt8.ofNat val]

/-- `perf_buffer_putuint16`: the value is cut to 16 bits, big-endian. -/
def putuint16 (b : PerfBuffer) (val : Nat) : Option PerfBuffer := b.putmem (be16 val)

/-- `perf_buffer_putuint32`: the value is cut to 32 bits, big-endian. -/
def putuint32 (b : PerfBuffer) (val : Nat) : Option PerfBuffer := b.putmem (be32 val)

/-- `base[i] = f(base[i])` for an index inside the used bytes. -/
def modify (b : PerfBuffer) (i : Nat) (f : UInt8 → UInt8) : PerfBuffer :=
  ⟨b.base.modify i f, b.length, by simpa using b.used_le⟩

theorem putmem_eq_some :
    b.putmem mem = some b' ↔
      b.base.length + mem.length ≤ b.length ∧ b'.base = b.base ++ mem ∧
        b'.length = b.length := by
  unfold putmem
  split
  · rename_i h
    simp only [Option.some.injEq, h, true_and]
    constructor
    · rintro rfl
      exact ⟨rfl, rfl⟩
    · rintro ⟨hb, hl⟩
      exact PerfBuffer.ext hb.symm hl.symm
  · rename_i h
    simp [h]

theorem putmem_nil (b : PerfBuffer) : b.putmem [] = some b :=
  putmem_eq_some.mpr ⟨b.used_le, (List.append_nil _).symm, rfl⟩

theorem putmem_bind_putmem {α : Type*} (b : PerfBuffer) (m₁ m₂ : Bytes)
    (k : PerfBuffer → Option α) :
    ((b.putmem m₁).bind fun b => (b.putmem m₂).bind k) = (b.putmem (m₁ ++ m₂)).bind k := by
  by_cases h₁ : b.base.length + m₁.length ≤ b.length
  · by_cases h₂ : b.base.length + (m₁ ++ m₂).length ≤ b.length
    · have h₂' : (b.base ++ m₁).length + m₂.length ≤ b.length := by
        simpa [Nat.add_assoc] using h₂
      simp only [putmem, dif_pos h₁, dif_pos h₂, dif_pos h₂', Option.bind_some, List.append_assoc]
    · have h₂' : ¬ (b.base ++ m₁).length + m₂.length ≤ b.length := by
        simpa [Nat.add_assoc] using h₂
      simp only [putmem, dif_pos h₁, dif_neg h₂, dif_neg h₂', Option.bind_some, Option.bind_none]
  · have h₂ : ¬ b.base.length + (m₁ ++ m₂).length ≤ b.length := by
      rw [List.length_append]
      omega
    simp only [putmem, dif_neg h₁, dif_neg h₂, Option.bind_none]

theorem putmem_bind_putmem_last (b : PerfBuffer) (m₁ m₂ : Bytes) :
    ((b.putmem m₁).bind fun b => b.putmem m₂) = b.putmem (m₁ ++ m₂) := by
  simpa only [Option.bind_fun_some] using putmem_bind_putmem b m₁ m₂ some

/-- `b` with `mem` appended; bytes beyond the block are cut, so that this is total.
Under `Fits` it is what `putmem` computes. -/
def push (b : PerfBuffer) (mem : Bytes) : PerfBuffer :=
  ⟨(b.base ++ mem).take b.length, b.length, by simp⟩

/-- There is room for `n` more bytes. -/
def Fits (b : PerfBuffer) (n : Nat) : Prop := b.base.length + n ≤ b.length

theorem fits_iff {n : Nat} : b.Fits n ↔ n ≤ b.availablelength := by
  have hused := b.used_le
  unfold Fits availablelength usedlength
  omega

theorem putmem_eq_none (h : ¬ b.Fits mem.length) : b.putmem mem = none := dif_neg h

theorem push_base (h : b.Fits mem.length) : (b.push mem).base = b.base ++ mem := by
  have h' : (b.base ++ mem).length ≤ b.length := by simpa [Fits] using h
  simp [push, List.take_of_length_le h']

@[simp] theorem push_length (b : PerfBuffer) (mem : Bytes) : (b.push mem).length = b.length := rfl

theorem putmem_eq_push (h : b.Fits mem.length) : b.putmem mem = some (b.push mem) :=
  putmem_eq_some.mpr ⟨h, push_base h, rfl⟩

theorem putuint8_eq_push (val : Nat) (h : b.Fits 1) :
    b.putuint8 val = some (b.push [UInt8.ofNat val]) :=
  putmem_eq_push h

theorem fits_push {n : Nat} (h : b.Fits (mem.length + n)) : (b.push mem).Fits n := by
  have hm : b.Fits mem.length := by
    unfold Fits at h ⊢
    omega
  unfold Fits at h ⊢
  rw [push_base hm, push_length, List.length_append]
  omega

theorem Fits.mono {m n : Nat} (h : b.Fits n) (hmn : m ≤ n) : b.Fits m := by
  unfold Fits at h ⊢
  omega

@[simp] theorem modify_base (b : PerfBuffer) (i : Nat) (f : UInt8 → UInt8) :
    (b.modify i f).base = b.base.modify i f := rfl

@[simp] theorem init_base (n : Nat) : (init n).base = [] := rfl

@[simp] theorem init_length (n : Nat) : (init n).length = n := rfl

end PerfBuffer

/-- Before a success, a step whose failure is passed on has succeeded. -/
theorem bind_success {α : Type} {x : Option (PerfResult × α)} {b : α}
    {k : PerfResult × α → Option (PerfResult × α)}
    (hfail : ∀ result a, result ≠ .success → k (result, a) = some (result, a))
    (h : x.bind k = some (.success, b)) :
    ∃ a, x = some (.success, a) ∧ k (.success, a) = some (.success, b) := by
  obtain ⟨⟨result, a⟩, hx, hk⟩ := Option.bind_eq_some_iff.mp h
  by_cases hresult : result = .success
  · subst hresult
    exact ⟨a, hx, hk⟩
  · rw [hfail result a hresult] at hk
    exact absurd (congrArg Prod.fst (Option.some.inj hk)) hresult

end Dnsperf
