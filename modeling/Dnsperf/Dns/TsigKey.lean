import Mathlib.Data.List.Find
import Dnsperf.Lib.Base64
import Dnsperf.Dns.Tsig

/-!
# Dnsperf.Dns.TsigKey

**The argument of a TSIG key**, `[alg:]name:secret`, and the secret in it. `decode64` gives the
whole secret to `EVP_DecodeUpdate` and takes every status but 0 for an error. That status says
whether the text ended in padding, which it does not if the length of the secret is a multiple
of three.
-/

namespace Dnsperf.Dns

open Dnsperf.Lib

/-! ### The argument -/

section Parts

variable {decode64 : Bytes → Option Bytes} {hmac : TsigAlg → Bytes → Bytes → Md}
  {alg name secret : Bytes}

theorem perfTsigParsekey_name (hname : (58 : UInt8) ∉ name) (hsecret : (58 : UInt8) ∉ secret)
    (hnul : (0 : UInt8) ∉ name ++ 58 :: secret) :
    perfTsigParsekey decode64 hmac (name ++ 58 :: secret) =
      setupKey decode64 hmac (some .hmacMd5) name secret := by
  rw [perfTsigParsekey, cstr_of_not_mem hnul]
  simp only [dropWhile_bne_append hname, dropWhile_bne_of_not_mem hsecret,
    takeWhile_bne_append hname]

theorem perfTsigParsekey_alg (halg : (58 : UInt8) ∉ alg) (hname : (58 : UInt8) ∉ name)
    (hnul : (0 : UInt8) ∉ alg ++ 58 :: (name ++ 58 :: secret)) :
    perfTsigParsekey decode64 hmac (alg ++ 58 :: (name ++ 58 :: secret)) =
      setupKey decode64 hmac (parseAlg (alg ++ 58 :: (name ++ 58 :: secret))) name secret := by
  rw [perfTsigParsekey, cstr_of_not_mem hnul]
  simp only [dropWhile_bne_append halg, dropWhile_bne_append hname, takeWhile_bne_append hname]

end Parts

/-- Of two texts that end with their only colon, one starts the other only if they are equal. -/
theorem colon_prefix {u v rest : Bytes} (hu : (58 : UInt8) ∉ u) (hv : (58 : UInt8) ∉ v) :
    u ++ [58] <+: v ++ 58 :: rest ↔ u = v := by
  constructor
  · rintro ⟨more, hmore⟩
    have htake := congrArg (List.takeWhile (· != 58)) hmore
    rwa [List.append_assoc, List.singleton_append, takeWhile_bne_append hu,
      takeWhile_bne_append hv] at htake
  · rintro rfl
    exact ⟨rest, by simp⟩

theorem algTable_texts : ∀ entry ∈ TsigAlg.table,
    (ascii entry.1).length = entry.1.length ∧ (0 : UInt8) ∉ ascii entry.1 ∧
      (ascii entry.1).map tolower = ascii entry.1 ∧
      ascii entry.1 = (ascii entry.1).dropLast ++ [58] ∧
      (58 : UInt8) ∉ (ascii entry.1).dropLast ∧
      TsigAlg.table.find? (fun other => (ascii other.1).dropLast = (ascii entry.1).dropLast) =
        some entry := by
  decide

theorem tolower_colon : tolower 58 = 58 := by decide

theorem alg_chars {entry : String × TsigAlg} (hentry : entry ∈ TsigAlg.table) {alg : Bytes}
    (halg : (alg ++ [58]).map tolower = ascii entry.1) :
    alg.map tolower = (ascii entry.1).dropLast ∧ (58 : UInt8) ∉ alg ∧ (0 : UInt8) ∉ alg := by
  obtain ⟨-, hnul, -, hcolon, hne, -⟩ := algTable_texts entry hentry
  have hlower : alg.map tolower = (ascii entry.1).dropLast := by
    rw [← halg, List.map_append]
    exact (List.dropLast_concat ..).symm
  refine ⟨hlower, fun hmem => hne ?_, fun hmem => hnul ?_⟩
  · rw [← hlower]
    exact List.mem_map.mpr ⟨58, hmem, tolower_colon⟩
  · rw [← halg]
    exact List.mem_map.mpr ⟨0, List.mem_append_left _ hmem, by decide⟩

/-- **The algorithm**, in upper or lower case. -/
theorem parseAlg_eq {entry : String × TsigAlg} (hentry : entry ∈ TsigAlg.table) {alg : Bytes}
    (halg : (alg ++ [58]).map tolower = ascii entry.1) (rest : Bytes) :
    parseAlg (alg ++ 58 :: rest) = some entry.2 := by
  obtain ⟨-, -, -, hcolon, hne, hfind⟩ := algTable_texts entry hentry
  obtain ⟨hlower, -, -⟩ := alg_chars hentry halg
  have hcongr : TsigAlg.table.find? (fun other =>
        strncasecmpEq other.1.length (alg ++ 58 :: rest) (ascii other.1)) =
      TsigAlg.table.find? (fun other =>
        (ascii other.1).dropLast = (ascii entry.1).dropLast) := by
    refine List.find?_congr fun other hother => ?_
    obtain ⟨hlen, hnul, hmap, hcolon', hne', -⟩ := algTable_texts other hother
    have hcmp := strncasecmpEq_iff hnul (alg ++ 58 :: rest) []
    rw [List.append_nil, hlen, hmap, List.map_append, List.map_cons, hlower, tolower_colon] at hcmp
    refine Bool.eq_iff_iff.mpr (hcmp.trans ?_)
    rw [decide_eq_true_iff, hcolon', colon_prefix hne' hne, ← hcolon']
  rw [parseAlg, hcongr, hfind]
  rfl

/-! ### The secret -/

/-- `EVP_DecodeUpdate`, as documented, on a whole text: the bytes, and 0 if the text ends in
padding or 1 if more could follow. -/
structure Documented (evpDecodeUpdate : Bytes → Int × Bytes) : Prop where
  padded : ∀ k, k.length % 3 ≠ 0 → evpDecodeUpdate (Base64.standard.encode k) = (0, k)
  whole : ∀ k, k.length % 3 = 0 → evpDecodeUpdate (Base64.standard.encode k) = (1, k)

theorem encode_chars (k : Bytes) : (58 : UInt8) ∉ Base64.standard.encode k ∧
    (0 : UInt8) ∉ Base64.standard.encode k := by
  have hchars : (58 : UInt8) ∉ Base64.standard.chars ∧ (0 : UInt8) ∉ Base64.standard.chars := by
    decide
  have hmem (c : UInt8) (hc : c ∈ Base64.standard.encode k) :
      c ∈ Base64.standard.chars ∨ c = 61 :=
    (List.mem_append.mp hc).imp (Base64.standard.encodeUnpadded_mem k c) List.eq_of_mem_replicate
  exact ⟨fun hc => (hmem _ hc).elim hchars.1 (by decide),
    fun hc => (hmem _ hc).elim hchars.2 (by decide)⟩

/-- **What `decode64` makes of a secret**: the secret, unless its length is a multiple of three or
that of its text does not fit an `int`. In the second case what is left of the length is negative,
or the text is cut off before its padding. -/
theorem decode64_encode {evpDecodeUpdate : Bytes → Int × Bytes} (h : Documented evpDecodeUpdate)
    {k : Bytes} (hk : k ≠ []) :
    decode64 evpDecodeUpdate (Base64.standard.encode k) =
      if k.length % 3 = 0 ∨ 2 ^ 31 ≤ 4 * ((k.length + 2) / 3) then none else some k := by
  have hpos := List.length_pos_of_ne_nil hk
  have htext := Base64.standard.encode_length k
  unfold decode64
  dsimp only
  rw [htext]
  by_cases hint : 4 * ((k.length + 2) / 3) < 2 ^ 31
  · have hmod : ((4 * ((k.length + 2) / 3) : Nat) : Int).bmod (2 ^ 32) =
        (4 * ((k.length + 2) / 3) : Nat) := Int.bmod_eq_of_le (by omega) (by omega)
    rw [hmod, if_neg (by omega), Int.toNat_natCast, List.take_of_length_le htext.le]
    by_cases hwhole : k.length % 3 = 0
    · rw [if_pos (Or.inl hwhole), h.whole k hwhole]
      rfl
    · have hfits : ¬ (k.length % 3 = 0 ∨ 2 ^ 31 ≤ 4 * ((k.length + 2) / 3)) := by omega
      rw [if_neg hfits, h.padded k hwhole]
      rfl
  · rw [if_pos (Or.inr (Nat.le_of_not_lt hint))]
    by_cases hneg : ((4 * ((k.length + 2) / 3) : Nat) : Int).bmod (2 ^ 32) ≤ 0
    · exact if_pos hneg
    · rw [if_neg hneg]
      obtain ⟨m, hm, hle⟩ : ∃ m : Nat,
          ((4 * ((k.length + 2) / 3) : Nat) : Int).bmod (2 ^ 32) = (4 * m : Nat) ∧
            3 * m ≤ k.length := by
        refine ⟨(((4 * ((k.length + 2) / 3) : Nat) : Int).bmod (2 ^ 32)).toNat / 4, ?_⟩
        rw [Int.bmod_def] at hneg ⊢
        split_ifs at hneg ⊢ <;> omega
      have hwhole : (k.take (3 * m)).length % 3 = 0 := by
        rw [List.length_take_of_le hle]
        omega
      rw [hm, Int.toNat_natCast, Base64.standard.encode_take k hle, h.whole _ hwhole]
      rfl
/-- The text of an argument before the name: nothing, for HMAC-MD5, or an algorithm and a
colon. -/
inductive AlgPrefix : Bytes → TsigAlg → Prop
  | absent : AlgPrefix [] .hmacMd5
  | present {entry : String × TsigAlg} {alg : Bytes} : entry ∈ TsigAlg.table →
      (alg ++ [58]).map tolower = ascii entry.1 → AlgPrefix (alg ++ [58]) entry.2

theorem perfTsigParsekey_parts (decode64 : Bytes → Option Bytes)
    (hmac : TsigAlg → Bytes → Bytes → Md) {pre : Bytes} {alg : TsigAlg} (hpre : AlgPrefix pre alg)
    {name secret : Bytes} (hname : (58 : UInt8) ∉ name ∧ (0 : UInt8) ∉ name)
    (hsecret : (58 : UInt8) ∉ secret ∧ (0 : UInt8) ∉ secret) :
    perfTsigParsekey decode64 hmac (pre ++ name ++ [58] ++ secret) =
      setupKey decode64 hmac (some alg) name secret := by
  cases hpre with
  | absent =>
      rw [List.nil_append, List.append_assoc]
      exact perfTsigParsekey_name hname.1 hsecret.1 (by simp [hname.2, hsecret.2])
  | @present entry text hentry htext =>
      obtain ⟨-, hcolon, hzero⟩ := alg_chars hentry htext
      have harg :
          text ++ [58] ++ name ++ [58] ++ secret = text ++ 58 :: (name ++ 58 :: secret) := by
        simp
      rw [harg, perfTsigParsekey_alg hcolon hname.1 (by simp [hzero, hname.2, hsecret.2]),
        parseAlg_eq hentry htext]

theorem setupKey_encode {evpDecodeUpdate : Bytes → Int × Bytes} (hevp : Documented evpDecodeUpdate)
    (hmac : TsigAlg → Bytes → Bytes → Md) (alg : TsigAlg) {name : Bytes}
    (hlen : name.length ≤ 256) {k : Bytes} (hk : k ≠ []) :
    setupKey (decode64 evpDecodeUpdate) hmac (some alg) name (Base64.standard.encode k) =
      if k.length % 3 = 0 ∨ 2 ^ 31 ≤ 4 * ((k.length + 2) / 3) then none
      else some ⟨name.map tolower, alg, hmac alg k, by rwa [List.length_map]⟩ := by
  have hsecret : (Base64.standard.encode k).length ≠ 0 := by
    have hpos := List.length_pos_of_ne_nil hk
    rw [Base64.standard.encode_length]
    omega
  rw [setupKey]
  simp only [dif_pos hlen, if_neg hsecret, decode64_encode hevp hk]
  split_ifs <;> rfl

/-- **A TSIG secret round-trips through base64** if and only if its length is not a multiple of
three and its text is not too long for an `int`: the key is set up with exactly these bytes. The
name is one that fits its array and can stand between two colons. -/
theorem perfTsigParsekey_secret {evpDecodeUpdate : Bytes → Int × Bytes}
    (hevp : Documented evpDecodeUpdate) (hmac : TsigAlg → Bytes → Bytes → Md) {pre : Bytes}
    {alg : TsigAlg} (hpre : AlgPrefix pre alg) {name : Bytes} (hlen : name.length ≤ 256)
    (hname : (58 : UInt8) ∉ name ∧ (0 : UInt8) ∉ name) {k : Bytes} (hk : k ≠ []) :
    (∃ key, perfTsigParsekey (decode64 evpDecodeUpdate) hmac
          (pre ++ name ++ [58] ++ Base64.standard.encode k) = some key ∧
        key.name = name.map tolower ∧ key.alg = alg ∧ key.digest = hmac alg k) ↔
      k.length % 3 ≠ 0 ∧ 4 * ((k.length + 2) / 3) < 2 ^ 31 := by
  rw [perfTsigParsekey_parts _ _ hpre hname (encode_chars k), setupKey_encode hevp hmac alg hlen hk]
  by_cases hrefused : k.length % 3 = 0 ∨ 2 ^ 31 ≤ 4 * ((k.length + 2) / 3)
  · rw [if_pos hrefused]
    exact iff_of_false (fun ⟨_, hnone, _⟩ => (nomatch hnone)) (by omega)
  · rw [if_neg hrefused]
    exact iff_of_true ⟨_, rfl, rfl, rfl, rfl⟩ (by omega)

/-- A decoder that behaves as documented. -/
def evpDecodeUpdate (base64 : Bytes) : Int × Bytes :=
  let text := base64.takeWhile (· != 61)
  match Base64.standard.decodeUnpadded text with
  | none => (-1, [])
  | some k => (if text.length = base64.length then 1 else 0, k)

theorem documented_evpDecodeUpdate : Documented evpDecodeUpdate := by
  have hchars (k : Bytes) : (61 : UInt8) ∉ Base64.standard.encodeUnpadded k := fun hmem =>
    absurd (Base64.standard.encodeUnpadded_mem k 61 hmem) (by decide)
  constructor
  · intro k hk
    obtain ⟨n, hn⟩ : ∃ n, (3 - k.length % 3) % 3 = n + 1 := ⟨(3 - k.length % 3) % 3 - 1, by omega⟩
    have hencode : Base64.standard.encode k =
        Base64.standard.encodeUnpadded k ++ 61 :: List.replicate n 61 := by
      rw [Base64.Alphabet.encode, hn, List.replicate_succ]
    simp only [evpDecodeUpdate, hencode, takeWhile_bne_append (hchars k),
      Base64.Alphabet.decodeUnpadded_encodeUnpadded]
    rw [if_neg (by simp)]
  · intro k hk
    have hencode : Base64.standard.encode k = Base64.standard.encodeUnpadded k := by
      rw [Base64.Alphabet.encode, hk]
      exact List.append_nil _
    simp only [evpDecodeUpdate, hencode, takeWhile_bne_of_not_mem (hchars k),
      Base64.Alphabet.decodeUnpadded_encodeUnpadded, if_true]

/-- `HMAC-SHA256:Key:c2VjcmV0cw==`, with a digest that is the start of the key. -/
theorem perfTsigParsekey_secret_sha256 :
    Base64.standard.encode (ascii "secrets") = ascii "c2VjcmV0cw==" ∧
      ∃ key, perfTsigParsekey (decode64 evpDecodeUpdate)
          (fun _ key _ => ⟨key.take 64, List.length_take_le 64 key⟩)
          (ascii "HMAC-SHA256:" ++ ascii "Key" ++ [58] ++
            Base64.standard.encode (ascii "secrets")) = some key ∧
        key.name = (ascii "Key").map tolower ∧ key.alg = .hmacSha256 ∧
        key.digest = fun _ => ⟨(ascii "secrets").take 64, List.length_take_le 64 _⟩ := by
  refine ⟨by decide, ?_⟩
  have hentry : ("hmac-sha256:", TsigAlg.hmacSha256) ∈ TsigAlg.table := by decide
  have hpre : AlgPrefix (ascii "HMAC-SHA256" ++ [58]) .hmacSha256 := .present hentry (by decide)
  exact (perfTsigParsekey_secret documented_evpDecodeUpdate _ hpre (by decide) (by decide)
    (by decide)).mpr (by decide)

/-- **A secret that is refused**: three bytes, whose text `AQID` has no padding. -/
theorem perfTsigParsekey_refuses :
    Documented evpDecodeUpdate ∧ Base64.standard.encode [1, 2, 3] = ascii "AQID" ∧
      perfTsigParsekey (decode64 evpDecodeUpdate)
        (fun _ key _ => ⟨key.take 64, List.length_take_le 64 key⟩) (ascii "key:AQID") = none := by
  refine ⟨documented_evpDecodeUpdate, by decide, ?_⟩
  have hdecode : decode64 evpDecodeUpdate (ascii "AQID") = none :=
    decode64_encode (k := [1, 2, 3]) documented_evpDecodeUpdate (by decide)
  have hname : (58 : UInt8) ∉ ascii "key" ∧ (0 : UInt8) ∉ ascii "key" := by decide
  have hsecret : (58 : UInt8) ∉ ascii "AQID" ∧ (0 : UInt8) ∉ ascii "AQID" := by decide
  refine (perfTsigParsekey_parts (decode64 evpDecodeUpdate) _ .absent hname hsecret).trans ?_
  rw [setupKey]
  simp only [hdecode]
  rfl

end Dnsperf.Dns
