import Mathlib.Tactic

/-!
# Dnsperf.Lib.Framing

**Length-prefixed records.** A record is a 16-bit big-endian length followed by
that many bytes; a stream is a concatenation of records. This is the framing of
DNS over a byte stream and of the binary input format alike, so it is developed
here once, over plain byte lists and without reference to either.

* `frame`/`frames` — the encoder;
* `nextFrame?` — the record at the head of a stream, if it is complete;
* `splitFrames` — the maximal run of complete records and what is left over;
* `FramedPrefix` — a stream cut anywhere: whole records, then at most one
  record that is not finished.

Everything rests on one inversion, `nextFrame?_eq_some`: a complete head record
is the same thing as a way to write the stream as `frame p ++ rest`.
-/

namespace Dnsperf.Lib

/-- A byte string. -/
abbrev Bytes := List UInt8

/-! ### Big-endian 16-bit values -/

/-- The two bytes of `n mod 2^16`, most significant first. -/
def be16 (n : Nat) : Bytes := [UInt8.ofNat (n / 256), UInt8.ofNat n]

/-- The value of two bytes, most significant first. -/
def ofBe16 (hi lo : UInt8) : Nat := hi.toNat * 256 + lo.toNat

@[simp] theorem be16_length (n : Nat) : (be16 n).length = 2 := rfl

/-- The four bytes of `n mod 2^32`, most significant first. -/
def be32 (n : Nat) : Bytes := be16 (n / 65536) ++ be16 n

@[simp] theorem be32_length (n : Nat) : (be32 n).length = 4 := rfl

theorem ofBe16_lt (hi lo : UInt8) : ofBe16 hi lo < 65536 := by
  have h1 := hi.toNat_lt
  have h2 := lo.toNat_lt
  unfold ofBe16
  omega

theorem ofBe16_ofNat (n : Nat) :
    ofBe16 (UInt8.ofNat (n / 256)) (UInt8.ofNat n) = n % 65536 := by
  simp only [ofBe16, UInt8.toNat_ofNat']
  omega

theorem be16_ofBe16 (hi lo : UInt8) : be16 (ofBe16 hi lo) = [hi, lo] := by
  have h1 := hi.toNat_lt
  have h2 := lo.toNat_lt
  have hhi : UInt8.ofNat (ofBe16 hi lo / 256) = hi := by
    apply UInt8.toNat_inj.mp
    simp only [ofBe16, UInt8.toNat_ofNat']
    omega
  have hlo : UInt8.ofNat (ofBe16 hi lo) = lo := by
    apply UInt8.toNat_inj.mp
    simp only [ofBe16, UInt8.toNat_ofNat']
    omega
  rw [be16, hhi, hlo]

/-! ### Records -/

/-- The longest payload a 16-bit length can announce. -/
def maxPayload : Nat := 65535

/-- One record: the payload's length, then the payload. -/
def frame (p : Bytes) : Bytes := be16 p.length ++ p

/-- Records one after another. -/
def frames (ps : List Bytes) : Bytes := (ps.map frame).flatten

@[simp] theorem frame_length (p : Bytes) : (frame p).length = p.length + 2 := by
  simp [frame]; omega

@[simp] theorem frames_nil : frames [] = [] := rfl

theorem frames_cons (p : Bytes) (ps : List Bytes) :
    frames (p :: ps) = frame p ++ frames ps := by
  simp [frames]

theorem frames_concat (ps : List Bytes) (p : Bytes) :
    frames (ps ++ [p]) = frames ps ++ frame p := by
  simp [frames]

/-- The record at the head of a stream and the rest, when all of its bytes are
there. -/
def nextFrame? : Bytes → Option (Bytes × Bytes)
  | hi :: lo :: rest =>
      if ofBe16 hi lo ≤ rest.length then
        some (rest.take (ofBe16 hi lo), rest.drop (ofBe16 hi lo))
      else none
  | _ => none

/-- **Inversion.** A stream has a complete record at its head exactly when it
can be written as that record followed by the rest. -/
theorem nextFrame?_eq_some {s p r : Bytes} :
    nextFrame? s = some (p, r) ↔ s = frame p ++ r ∧ p.length ≤ maxPayload := by
  constructor
  · intro h
    match s, h with
    | hi :: lo :: rest, h =>
      simp only [nextFrame?] at h
      split at h
      · rename_i hle
        obtain ⟨rfl, rfl⟩ : rest.take (ofBe16 hi lo) = p ∧ rest.drop (ofBe16 hi lo) = r := by
          simpa using h
        have hlen : (rest.take (ofBe16 hi lo)).length = ofBe16 hi lo := by
          simpa using hle
        refine ⟨?_, ?_⟩
        · rw [frame, hlen, be16_ofBe16]
          simp
        · have := ofBe16_lt hi lo
          simp only [maxPayload]
          omega
      · simp at h
  · rintro ⟨rfl, hp⟩
    simp only [maxPayload] at hp
    have hdec : ofBe16 (UInt8.ofNat (p.length / 256)) (UInt8.ofNat p.length) = p.length := by
      rw [ofBe16_ofNat]
      omega
    simp [frame, be16, nextFrame?, hdec]

theorem nextFrame?_frame_append {p : Bytes} (hp : p.length ≤ maxPayload) (r : Bytes) :
    nextFrame? (frame p ++ r) = some (p, r) :=
  nextFrame?_eq_some.mpr ⟨rfl, hp⟩

theorem nextFrame?_eq_none_of_short {s : Bytes} (h : s.length < 2) : nextFrame? s = none := by
  match s, h with
  | [], _ => rfl
  | [_], _ => rfl

theorem nextFrame?_of_le {hi lo : UInt8} {rest : Bytes} (h : ofBe16 hi lo ≤ rest.length) :
    ∃ p r, nextFrame? (hi :: lo :: rest) = some (p, r) ∧ ofBe16 hi lo = p.length := by
  refine ⟨rest.take (ofBe16 hi lo), rest.drop (ofBe16 hi lo), ?_, ?_⟩
  · rw [nextFrame?, if_pos h]
  · rw [List.length_take, Nat.min_eq_left h]

theorem nextFrame?_eq_none_of_lt {hi lo : UInt8} {rest : Bytes}
    (h : rest.length < ofBe16 hi lo) : nextFrame? (hi :: lo :: rest) = none := by
  rw [nextFrame?, if_neg (by omega)]

/-- A stream with no complete record is shorter than the longest record. -/
theorem length_lt_of_nextFrame?_eq_none {s : Bytes} (h : nextFrame? s = none) :
    s.length < maxPayload + 2 := by
  match s, h with
  | [], _ => simp [maxPayload]
  | [_], _ => simp [maxPayload]
  | hi :: lo :: rest, h =>
    simp only [nextFrame?] at h
    split at h
    · simp at h
    · have := ofBe16_lt hi lo
      simp only [List.length_cons, maxPayload]
      omega

/-! ### The maximal run of complete records -/

/-- Peel complete records off the head, at most `n` of them. -/
def splitFramesAux : Nat → Bytes → List Bytes × Bytes
  | 0, s => ([], s)
  | n + 1, s =>
      match nextFrame? s with
      | none => ([], s)
      | some (p, r) => (p :: (splitFramesAux n r).1, (splitFramesAux n r).2)

/-- The maximal sequence of complete records a stream starts with, and the bytes
after it. A record takes at least two bytes, so the stream's own length bounds
their number. -/
def splitFrames (s : Bytes) : List Bytes × Bytes := splitFramesAux s.length s

theorem splitFramesAux_eq {ps : List Bytes} {r : Bytes} (hps : ∀ p ∈ ps, p.length ≤ maxPayload)
    (hr : nextFrame? r = none) :
    ∀ n, (frames ps ++ r).length ≤ n → splitFramesAux n (frames ps ++ r) = (ps, r) := by
  induction ps with
  | nil =>
      intro n _
      cases n with
      | zero => rfl
      | succ n => simp [splitFramesAux, hr]
  | cons p ps ih =>
      intro n hn
      rw [frames_cons, List.append_assoc] at hn ⊢
      cases n with
      | zero => simp at hn
      | succ n =>
          have hp := hps p (List.mem_cons_self ..)
          have hlen : (frames ps ++ r).length ≤ n := by
            rw [List.length_append, frame_length] at hn
            omega
          simp only [splitFramesAux, nextFrame?_frame_append hp,
            ih (fun q hq => hps q (List.mem_cons_of_mem _ hq)) n hlen]

/-- `splitFrames` finds the records a stream was built from, provided what
follows them holds no further complete record. -/
theorem splitFrames_eq {ps : List Bytes} {r : Bytes} (hps : ∀ p ∈ ps, p.length ≤ maxPayload)
    (hr : nextFrame? r = none) : splitFrames (frames ps ++ r) = (ps, r) :=
  splitFramesAux_eq hps hr _ (Nat.le_refl _)

/-- Every stream is a run of complete records followed by bytes that start with
no complete record. -/
theorem exists_frames (s : Bytes) :
    ∃ ps r, s = frames ps ++ r ∧ (∀ p ∈ ps, p.length ≤ maxPayload) ∧ nextFrame? r = none := by
  induction hn : s.length using Nat.strong_induction_on generalizing s with
  | _ n ih =>
      cases h : nextFrame? s with
      | none => exact ⟨[], s, rfl, by simp, h⟩
      | some pr =>
          obtain ⟨p, r⟩ := pr
          obtain ⟨rfl, hp⟩ := nextFrame?_eq_some.mp h
          have hlt : r.length < n := by
            rw [← hn, List.length_append, frame_length]
            omega
          obtain ⟨ps, r', rfl, hps, hr'⟩ := ih r.length hlt r rfl
          refine ⟨p :: ps, r', by rw [frames_cons, List.append_assoc], ?_, hr'⟩
          intro q hq
          rcases List.mem_cons.mp hq with rfl | hq
          · exact hp
          · exact hps q hq

/-- The decomposition `splitFrames` computes is the one of `exists_frames`. -/
theorem splitFrames_spec (s : Bytes) :
    s = frames (splitFrames s).1 ++ (splitFrames s).2 ∧
      (∀ p ∈ (splitFrames s).1, p.length ≤ maxPayload) ∧
      nextFrame? (splitFrames s).2 = none := by
  obtain ⟨ps, r, rfl, hps, hr⟩ := exists_frames s
  rw [splitFrames_eq hps hr]
  exact ⟨rfl, hps, hr⟩

/-! ### Streams cut anywhere -/

theorem nextFrame?_take_frame {p : Bytes} (hp : p.length ≤ maxPayload) {k : Nat}
    (hk : k < (frame p).length) : nextFrame? ((frame p).take k) = none := by
  match k with
  | 0 | 1 =>
      exact nextFrame?_eq_none_of_short (lt_of_le_of_lt (List.length_take_le _ _) (by decide))
  | k + 2 =>
      simp only [maxPayload] at hp
      rw [frame_length] at hk
      refine nextFrame?_eq_none_of_lt ?_
      rw [List.length_take, ofBe16_ofNat]
      omega

/-- Whole records with payloads of `Q`, then at most one record of `Q` that is not
finished. -/
def FramedPrefix (Q : Bytes → Prop) (s : Bytes) : Prop :=
  ∃ ps tail, s = frames ps ++ tail ∧ (∀ p ∈ ps, Q p) ∧
    (tail = [] ∨ ∃ p, Q p ∧ tail <+: frame p ∧ tail.length < (frame p).length)

theorem FramedPrefix.mono {Q Q' : Bytes → Prop} {s : Bytes} (h : FramedPrefix Q s)
    (hQ : ∀ p, Q p → Q' p) : FramedPrefix Q' s := by
  obtain ⟨ps, tail, hs, hps, htail⟩ := h
  refine ⟨ps, tail, hs, fun p hp => hQ p (hps p hp), ?_⟩
  rcases htail with hnil | ⟨p, hp, hpre, hlt⟩
  · exact Or.inl hnil
  · exact Or.inr ⟨p, hQ p hp, hpre, hlt⟩

/-- Such a stream does not begin in the middle of a record. -/
theorem FramedPrefix.head {Q : Bytes → Prop} {b : UInt8} {s : Bytes} (h : FramedPrefix Q (b :: s)) :
    ∃ p, Q p ∧ (frame p).head? = some b := by
  obtain ⟨ps, tail, hs, hps, htail⟩ := h
  cases ps with
  | nil =>
      rcases htail with rfl | ⟨p, hp, ⟨rest, hrest⟩, -⟩
      · exact absurd hs (List.cons_ne_nil b s)
      · rw [frames_nil, List.nil_append] at hs
        exact ⟨p, hp, by rw [← hrest, ← hs]; rfl⟩
  | cons p ps =>
      refine ⟨p, hps p List.mem_cons_self, ?_⟩
      rw [frames_cons, List.append_assoc] at hs
      exact congrArg List.head? hs.symm

end Dnsperf.Lib
