import Mathlib.Data.List.GetD
import Mathlib.Data.List.Nodup
import Dnsperf.Lib.CString

/-!
# Dnsperf.Lib.Base64

**Base64** over any alphabet of 64 characters: a message is cut into groups of six bits, the
last of them filled up with zeros, and each group is a character. The standard form is padded
to a multiple of four characters; the form for URLs is not, and has two other characters.
-/

namespace Dnsperf.Lib.Base64

/-! ### Groups of six bits -/

/-- The groups of a message. -/
def sextets : Bytes → List Nat
  | b₀ :: b₁ :: b₂ :: rest =>
      b₀.toNat / 4 :: (b₀.toNat % 4 * 16 + b₁.toNat / 16) ::
        (b₁.toNat % 16 * 4 + b₂.toNat / 64) :: b₂.toNat % 64 :: sextets rest
  | [b₀, b₁] =>
      [b₀.toNat / 4, b₀.toNat % 4 * 16 + b₁.toNat / 16, b₁.toNat % 16 * 4]
  | [b₀] => [b₀.toNat / 4, b₀.toNat % 4 * 16]
  | [] => []

/-- The message of the groups. What fills up the last one has to be zero. -/
def ofSextets : List Nat → Option Bytes
  | s₀ :: s₁ :: s₂ :: s₃ :: rest =>
      (ofSextets rest).map fun bs =>
        UInt8.ofNat (s₀ * 4 + s₁ / 16) :: UInt8.ofNat (s₁ % 16 * 16 + s₂ / 4) ::
          UInt8.ofNat (s₂ % 4 * 64 + s₃) :: bs
  | [s₀, s₁, s₂] =>
      if s₂ % 4 = 0 then
        some [UInt8.ofNat (s₀ * 4 + s₁ / 16), UInt8.ofNat (s₁ % 16 * 16 + s₂ / 4)]
      else none
  | [s₀, s₁] => if s₁ % 16 = 0 then some [UInt8.ofNat (s₀ * 4 + s₁ / 16)] else none
  | [_] => none
  | [] => some []

theorem sextets_lt (bs : Bytes) : ∀ d ∈ sextets bs, d < 64 := by
  have hdiv (b : UInt8) : b.toNat / 4 < 64 := by have := b.toNat_lt; omega
  have hmid (b c : UInt8) : b.toNat % 4 * 16 + c.toNat / 16 < 64 := by have := c.toNat_lt; omega
  have hlow (b c : UInt8) : b.toNat % 16 * 4 + c.toNat / 64 < 64 := by have := c.toNat_lt; omega
  fun_induction sextets bs with
  | case1 b₀ b₁ b₂ rest ih =>
      simp only [List.forall_mem_cons]
      exact ⟨hdiv b₀, hmid b₀ b₁, hlow b₁ b₂, Nat.mod_lt _ (by decide), ih⟩
  | case2 b₀ b₁ =>
      simp only [List.forall_mem_cons]
      exact ⟨hdiv b₀, hmid b₀ b₁, by omega, nofun⟩
  | case3 b₀ =>
      simp only [List.forall_mem_cons]
      exact ⟨hdiv b₀, by omega, nofun⟩
  | case4 => exact nofun

theorem sextets_length (bs : Bytes) : (sextets bs).length = (4 * bs.length + 2) / 3 := by
  fun_induction sextets bs with
  | case1 b₀ b₁ b₂ rest ih =>
      simp only [List.length_cons, ih]
      omega
  | case2 b₀ b₁ => simp only [List.length_cons, List.length_nil]
  | case3 b₀ => simp only [List.length_cons, List.length_nil]
  | case4 => rfl

/-- Whole groups of four come from whole groups of three bytes. -/
theorem sextets_take (bs : Bytes) (m : Nat) :
    (sextets bs).take (4 * m) = sextets (bs.take (3 * m)) := by
  fun_induction sextets bs generalizing m with
  | case1 b₀ b₁ b₂ rest ih =>
      cases m with
      | zero => rfl
      | succ m =>
          rw [show 4 * (m + 1) = 4 * m + 4 by omega, show 3 * (m + 1) = 3 * m + 3 by omega]
          simp only [List.take_succ_cons, sextets, ih]
  | case2 b₀ b₁ =>
      cases m with
      | zero => rfl
      | succ m =>
          rw [List.take_of_length_le (by simp; omega),
            List.take_of_length_le (by simp; omega), sextets]
  | case3 b₀ =>
      cases m with
      | zero => rfl
      | succ m =>
          rw [List.take_of_length_le (by simp; omega),
            List.take_of_length_le (by simp; omega), sextets]
  | case4 => simp [sextets]

/-- **The groups hold the message.** -/
theorem ofSextets_sextets (bs : Bytes) : ofSextets (sextets bs) = some bs := by
  -- a byte is put together from the parts it was cut into
  have hfst (b c : UInt8) :
      UInt8.ofNat (b.toNat / 4 * 4 + (b.toNat % 4 * 16 + c.toNat / 16) / 16) = b := by
    have hc := c.toNat_lt
    rw [show b.toNat / 4 * 4 + (b.toNat % 4 * 16 + c.toNat / 16) / 16 = b.toNat by omega]
    exact UInt8.ofNat_toNat
  have hfst' (b : UInt8) : UInt8.ofNat (b.toNat / 4 * 4 + b.toNat % 4 * 16 / 16) = b := by
    rw [show b.toNat / 4 * 4 + b.toNat % 4 * 16 / 16 = b.toNat by omega]
    exact UInt8.ofNat_toNat
  have hsnd (b c d : UInt8) :
      UInt8.ofNat ((b.toNat % 4 * 16 + c.toNat / 16) % 16 * 16 +
        (c.toNat % 16 * 4 + d.toNat / 64) / 4) = c := by
    have hc := c.toNat_lt
    have hd := d.toNat_lt
    rw [show (b.toNat % 4 * 16 + c.toNat / 16) % 16 * 16 +
      (c.toNat % 16 * 4 + d.toNat / 64) / 4 = c.toNat by omega]
    exact UInt8.ofNat_toNat
  have hsnd' (b c : UInt8) :
      UInt8.ofNat ((b.toNat % 4 * 16 + c.toNat / 16) % 16 * 16 + c.toNat % 16 * 4 / 4) = c := by
    have hc := c.toNat_lt
    rw [show (b.toNat % 4 * 16 + c.toNat / 16) % 16 * 16 + c.toNat % 16 * 4 / 4 = c.toNat by omega]
    exact UInt8.ofNat_toNat
  have htrd (c d : UInt8) :
      UInt8.ofNat ((c.toNat % 16 * 4 + d.toNat / 64) % 4 * 64 + d.toNat % 64) = d := by
    have hd := d.toNat_lt
    rw [show (c.toNat % 16 * 4 + d.toNat / 64) % 4 * 64 + d.toNat % 64 = d.toNat by omega]
    exact UInt8.ofNat_toNat
  fun_induction sextets bs with
  | case1 b₀ b₁ b₂ rest ih =>
      rw [ofSextets, ih, hfst, hsnd, htrd]
      rfl
  | case2 b₀ b₁ =>
      rw [ofSextets, if_pos (Nat.mul_mod_left _ _), hfst, hsnd']
  | case3 b₀ =>
      rw [ofSextets, if_pos (Nat.mul_mod_left _ _), hfst']
  | case4 => rfl

/-! ### Characters -/

/-- The characters, in order. -/
structure Alphabet where
  chars : Bytes
  length_eq : chars.length = 64
  nodup : chars.Nodup

namespace Alphabet

variable (a : Alphabet)

/-- The character of a group. -/
def char (d : Nat) : UInt8 := a.chars.getD d 0

/-- The group of a character. -/
def value (c : UInt8) : Option Nat := if c ∈ a.chars then some (a.chars.idxOf c) else none

theorem char_mem {d : Nat} (hd : d < 64) : a.char d ∈ a.chars := by
  have hlt : d < a.chars.length := a.length_eq ▸ hd
  rw [char, List.getD_eq_getElem _ _ hlt]
  exact List.getElem_mem hlt

theorem value_char {d : Nat} (hd : d < 64) : a.value (a.char d) = some d := by
  have hlt : d < a.chars.length := a.length_eq ▸ hd
  rw [value, if_pos (a.char_mem hd), char, List.getD_eq_getElem _ _ hlt,
    a.nodup.idxOf_getElem]

/-- The message in characters, without padding. -/
def encodeUnpadded (bs : Bytes) : Bytes := (sextets bs).map a.char

/-- The message of a text without padding. -/
def decodeUnpadded (s : Bytes) : Option Bytes := (s.mapM a.value).bind ofSextets

theorem encodeUnpadded_length (bs : Bytes) :
    (a.encodeUnpadded bs).length = (4 * bs.length + 2) / 3 := by
  rw [encodeUnpadded, List.length_map, sextets_length]

theorem encodeUnpadded_mem (bs : Bytes) : ∀ c ∈ a.encodeUnpadded bs, c ∈ a.chars := by
  intro c hc
  obtain ⟨d, hd, rfl⟩ := List.mem_map.mp hc
  exact a.char_mem (sextets_lt bs d hd)

/-- **Round trip.** -/
theorem decodeUnpadded_encodeUnpadded (bs : Bytes) :
    a.decodeUnpadded (a.encodeUnpadded bs) = some bs := by
  have hvalues (ds : List Nat) (hds : ∀ d ∈ ds, d < 64) :
      (ds.map a.char).mapM a.value = some ds := by
    induction ds with
    | nil => rfl
    | cons d ds ih =>
        rw [List.map_cons, List.mapM_cons, a.value_char (hds d List.mem_cons_self),
          ih fun d' hd' => hds d' (List.mem_cons_of_mem _ hd')]
        rfl
  rw [decodeUnpadded, encodeUnpadded, hvalues _ (sextets_lt bs)]
  exact ofSextets_sextets bs

/-- The message in characters, with `=` up to a multiple of four. -/
def encode (bs : Bytes) : Bytes :=
  a.encodeUnpadded bs ++ List.replicate ((3 - bs.length % 3) % 3) 61

theorem encode_length (bs : Bytes) : (a.encode bs).length = 4 * ((bs.length + 2) / 3) := by
  rw [encode, List.length_append, encodeUnpadded_length, List.length_replicate]
  omega

/-- The beginning of a text, in whole groups of four and without padding, is the text of the
beginning of the message. -/
theorem encode_take (bs : Bytes) {m : Nat} (hm : 3 * m ≤ bs.length) :
    (a.encode bs).take (4 * m) = a.encode (bs.take (3 * m)) := by
  have hlen : (bs.take (3 * m)).length = 3 * m := List.length_take_of_le hm
  have hpad : (3 - 3 * m % 3) % 3 = 0 := by omega
  rw [encode, encode, hlen, hpad, List.replicate_zero, List.append_nil,
    List.take_append_of_le_length (by rw [encodeUnpadded_length]; omega), encodeUnpadded,
    encodeUnpadded, ← List.map_take, sextets_take]

end Alphabet

/-- The standard alphabet. -/
def standard : Alphabet where
  chars := ascii "ABCDEFGHIJKLMNOPQRSTUVWXYZabcdefghijklmnopqrstuvwxyz0123456789+/"
  length_eq := by decide
  nodup := by decide

/-- The alphabet for URLs and file names. -/
def url : Alphabet where
  chars := ascii "ABCDEFGHIJKLMNOPQRSTUVWXYZabcdefghijklmnopqrstuvwxyz0123456789-_"
  length_eq := by decide
  nodup := by decide

end Dnsperf.Lib.Base64
