import Dnsperf.Lib.Base64

/-!
# Dnsperf.Net.DohGet

**A DoH request with GET** (`_submit_dns_query_get`). The path is put together in an array on
the stack, whose size is worked out beforehand; OpenSSL writes the message there in standard
base64, and a loop turns that into the form for URLs, in place. A write outside the array, or
the loop leaving it, ends in `none`.
-/

namespace Dnsperf.Net

open Dnsperf.Lib

/-- `struct URI`, as far as a request has to do with it. -/
structure Uri where
  path : Bytes
  hostport : Bytes

/-- `DNS_GET_REQUEST_VAR`. -/
def dnsGetRequestVar : Bytes := ascii "?dns="

/-- `path_len`. -/
def Uri.pathLen (uri : Uri) (len : Nat) : Nat :=
  uri.path.length + dnsGetRequestVar.length + 4 * ((len + 2) / 3) + 1

/-- Bytes written at the offset `p` of an array. -/
def store (mem : Bytes) (p : Nat) (bytes : Bytes) : Option Bytes :=
  if p + bytes.length ≤ mem.length then
    some (mem.take p ++ bytes ++ mem.drop (p + bytes.length))
  else none

/-- What is documented of `EVP_EncodeBlock`: it writes the message in standard base64, and a NUL. -/
def EncodesBlock (evpEncodeBlock : Bytes → Bytes) : Prop :=
  ∀ buf, evpEncodeBlock buf = Base64.standard.encode buf ++ [0]

/-- The loop over `*p`: the array from `p` on when it ends, and how far `p` has moved. -/
def toBase64url : Bytes → Option (Bytes × Nat)
  | [] => none
  | c :: mem =>
      if c = 0 then some (c :: mem, 0)
      else if c = 43 then (toBase64url mem).map fun (mem, n) => (45 :: mem, n + 1)
      else if c = 47 then (toBase64url mem).map fun (mem, n) => (95 :: mem, n + 1)
      else if c = 61 then
        -- `*p = 0`, which ends the loop
        some (0 :: mem, 0)
      else (toBase64url mem).map fun (mem, n) => (c :: mem, n + 1)

/-- `_submit_dns_query_get`: the header fields of the request, which has no body. What is in the
array at first is left from before. -/
def submitDnsQueryGet (evpEncodeBlock : Bytes → Bytes) (uri : Uri) (userAgent buf : Bytes)
    (fullPath : { mem : Bytes // mem.length = uri.pathLen buf.length }) :
    Option (List (Bytes × Bytes)) := do
  let p := 0
  let mem ← store fullPath.val p uri.path
  let p := p + uri.path.length
  let mem ← store mem p dnsGetRequestVar
  let p := p + dnsGetRequestVar.length
  let mem ← store mem p (evpEncodeBlock buf)
  let (rest, n) ← toBase64url (mem.drop p)
  let mem := mem.take p ++ rest
  let p := p + n
  some [(ascii ":method", ascii "GET"), (ascii ":scheme", ascii "https"),
    (ascii ":authority", uri.hostport), (ascii ":path", mem.take p),
    (ascii "accept", ascii "application/dns-message"), (ascii "user-agent", userAgent)]

/-! ### The array -/

theorem store_append (done : Bytes) {mem bytes : Bytes} (hlen : bytes.length ≤ mem.length) :
    store (done ++ mem) done.length bytes = some ((done ++ bytes) ++ mem.drop bytes.length) := by
  rw [store, if_pos (by rw [List.length_append]; omega), List.take_left, List.drop_append]
  simp

/-! ### The loop -/

/-- Each character of the standard alphabet becomes the one of the URL alphabet. -/
theorem toBase64url_char {d : Nat} (hd : d < 64) (mem : Bytes) :
    toBase64url (Base64.standard.char d :: mem) =
      (toBase64url mem).map fun (mem, n) => (Base64.url.char d :: mem, n + 1) := by
  have htable : ∀ d < 64, Base64.standard.char d ≠ 0 ∧ Base64.standard.char d ≠ 61 ∧
      Base64.url.char d = (if Base64.standard.char d = 43 then 45
        else if Base64.standard.char d = 47 then 95 else Base64.standard.char d) := by
    decide +kernel
  obtain ⟨hnul, hpad, hurl⟩ := htable d hd
  rw [toBase64url, if_neg hnul, if_neg hpad, hurl]
  split_ifs <;> rfl

theorem toBase64url_chars {ds : List Nat} (hds : ∀ d ∈ ds, d < 64) (mem : Bytes) :
    toBase64url (ds.map Base64.standard.char ++ mem) =
      (toBase64url mem).map fun (mem, n) => (ds.map Base64.url.char ++ mem, n + ds.length) := by
  induction ds with
  | nil =>
      rw [List.map_nil, List.nil_append]
      cases toBase64url mem <;> rfl
  | cons d ds ih =>
      rw [List.map_cons, List.cons_append, toBase64url_char (hds d List.mem_cons_self),
        ih fun d' hd' => hds d' (List.mem_cons_of_mem _ hd'), Option.map_map]
      rfl

/-- The loop ends at the padding or at the NUL. -/
theorem toBase64url_padding (n : Nat) :
    ∃ mem, toBase64url (List.replicate n 61 ++ [0]) = some (mem, 0) := by
  cases n with
  | zero => exact ⟨_, rfl⟩
  | succ n => exact ⟨_, rfl⟩

section EncodesBlock

variable {evpEncodeBlock : Bytes → Bytes}

/-- **The loop** leaves the message in unpadded base64url, and `p` behind it. -/
theorem toBase64url_evpEncodeBlock (hevp : EncodesBlock evpEncodeBlock) (buf : Bytes) :
    ∃ mem, toBase64url (evpEncodeBlock buf) =
      some (Base64.url.encodeUnpadded buf ++ mem, (Base64.url.encodeUnpadded buf).length) := by
  obtain ⟨mem, hmem⟩ := toBase64url_padding ((3 - buf.length % 3) % 3)
  refine ⟨mem, ?_⟩
  rw [hevp, Base64.Alphabet.encode, List.append_assoc, Base64.Alphabet.encodeUnpadded,
    toBase64url_chars (Base64.sextets_lt buf), hmem]
  simp [Base64.Alphabet.encodeUnpadded]

/-! ### The request -/

theorem submitDnsQueryGet_eq (hevp : EncodesBlock evpEncodeBlock) (uri : Uri)
    (userAgent buf : Bytes) (fullPath : { mem : Bytes // mem.length = uri.pathLen buf.length }) :
    submitDnsQueryGet evpEncodeBlock uri userAgent buf fullPath =
      some [(ascii ":method", ascii "GET"), (ascii ":scheme", ascii "https"),
        (ascii ":authority", uri.hostport),
        (ascii ":path", uri.path ++ dnsGetRequestVar ++ Base64.url.encodeUnpadded buf),
        (ascii "accept", ascii "application/dns-message"), (ascii "user-agent", userAgent)] := by
  obtain ⟨mem₀, hlen⟩ := fullPath
  have hblock : (evpEncodeBlock buf).length = 4 * ((buf.length + 2) / 3) + 1 := by
    rw [hevp, List.length_append, Base64.Alphabet.encode_length]
    rfl
  rw [Uri.pathLen] at hlen
  have hpath : store mem₀ 0 uri.path = some (uri.path ++ mem₀.drop uri.path.length) :=
    store_append [] (by omega)
  obtain ⟨mem, hloop⟩ := toBase64url_evpEncodeBlock hevp buf
  simp only [submitDnsQueryGet, hpath, Nat.zero_add, Option.bind_eq_bind, Option.bind_some]
  rw [store_append _ (by rw [List.length_drop]; omega), Option.bind_some, ← List.length_append,
    store_append _ (by rw [List.length_drop, List.length_drop]; omega), Option.bind_some]
  -- the array is full now
  have hrest : (((mem₀.drop uri.path.length).drop dnsGetRequestVar.length).drop
      (evpEncodeBlock buf).length) = [] := by
    refine List.drop_eq_nil_of_le ?_
    rw [List.length_drop, List.length_drop]
    omega
  rw [hrest, List.append_nil, List.drop_left, hloop, Option.bind_some, List.take_left,
    ← List.append_assoc, ← List.length_append, List.take_left]

/-- **A request with GET carries the message unchanged**: all writes stay within the array, and
the path is that of the URI, `?dns=`, and a text over the URL alphabet, without padding or
terminator, whose decoding is the message. -/
theorem submitDnsQueryGet_path (hevp : EncodesBlock evpEncodeBlock) (uri : Uri)
    (userAgent buf : Bytes)
    (fullPath : { mem : Bytes // mem.length = uri.pathLen buf.length }) :
    ∃ hdrs text, submitDnsQueryGet evpEncodeBlock uri userAgent buf fullPath = some hdrs ∧
      hdrs.lookup (ascii ":path") = some (uri.path ++ ascii "?dns=" ++ text) ∧
      (∀ c ∈ text, c ∈ Base64.url.chars ∧ c ≠ 61 ∧ c ≠ 0) ∧
      text.length = (4 * buf.length + 2) / 3 ∧
      Base64.url.decodeUnpadded text = some buf := by
  refine ⟨_, Base64.url.encodeUnpadded buf, submitDnsQueryGet_eq hevp uri userAgent buf fullPath,
    rfl, fun c hc => ?_, Base64.url.encodeUnpadded_length buf,
    Base64.url.decodeUnpadded_encodeUnpadded buf⟩
  have hmem := Base64.url.encodeUnpadded_mem buf c hc
  have hpad : (61 : UInt8) ∉ Base64.url.chars := by decide
  have hnul : (0 : UInt8) ∉ Base64.url.chars := by decide
  exact ⟨hmem, ne_of_mem_of_not_mem hmem hpad, ne_of_mem_of_not_mem hmem hnul⟩

end EncodesBlock

/-- A message of four bytes: two characters of padding become the end of the path. -/
theorem submitDnsQueryGet_path_four :
    EncodesBlock (fun buf => Base64.standard.encode buf ++ [0]) ∧
      ∃ hdrs text, submitDnsQueryGet (fun buf => Base64.standard.encode buf ++ [0])
          ⟨ascii "/q", ascii "h"⟩ [] [251, 255, 0, 1] ⟨List.replicate 16 7, rfl⟩ = some hdrs ∧
        hdrs.lookup (ascii ":path") = some (ascii "/q" ++ ascii "?dns=" ++ text) ∧
        text.length = 6 := by
  have hevp : EncodesBlock (fun buf => Base64.standard.encode buf ++ [0]) := fun _ => rfl
  obtain ⟨hdrs, text, hget, hpath, -, hlen, -⟩ :=
    submitDnsQueryGet_path hevp ⟨ascii "/q", ascii "h"⟩ [] [251, 255, 0, 1]
      ⟨List.replicate 16 7, rfl⟩
  exact ⟨hevp, hdrs, text, hget, hpath, hlen⟩

end Dnsperf.Net
