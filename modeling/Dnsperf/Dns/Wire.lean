import Dnsperf.Lib.Framing

/-!
# Dnsperf.Dns.Wire

**The DNS wire format**, as the abstract side of the message builders: names as
label lists, and messages as header, question section and record sections. None
of this is translated from the source; it states what the bytes the builders
produce are supposed to mean.

Compression pointers are not read back: the builders modelled here write none. Nor is the limit
of 255 bytes for a whole name: `parseName` takes every sequence of labels of at most 63 bytes, so
that what it reads says nothing about that limit.
-/

namespace Dnsperf.Dns

open Dnsperf.Lib

/-- A name in wire format: each label after its length byte, then a zero byte. -/
def wireName (ls : List Bytes) : Bytes :=
  (ls.map (fun l => UInt8.ofNat l.length :: l)).flatten ++ [0]

@[simp] theorem wireName_nil : wireName [] = [0] := rfl

theorem wireName_cons (l : Bytes) (ls : List Bytes) :
    wireName (l :: ls) = UInt8.ofNat l.length :: (l ++ wireName ls) := by
  simp [wireName]

theorem wireName_length (ls : List Bytes) :
    (wireName ls).length = (ls.map (fun l => l.length + 1)).sum + 1 := by
  induction ls with
  | nil => rfl
  | cons l ls ih =>
      rw [wireName_cons, List.length_cons, List.length_append, ih, List.map_cons, List.sum_cons]
      omega

/-! ### Reading names and numbers -/

/-- The labels of an uncompressed name, at most `fuel - 1` of them, and the bytes
after it. -/
def parseNameAux : Nat → Bytes → Option (List Bytes × Bytes)
  | 0, _ => none
  | _ + 1, [] => none
  | fuel + 1, n :: rest =>
      if n = 0 then some ([], rest)
      else if 63 < n.toNat then none
      else if rest.length < n.toNat then none
      else
        (parseNameAux fuel (rest.drop n.toNat)).map
          (fun (ls, rest') => (rest.take n.toNat :: ls, rest'))

/-- The uncompressed name a byte string starts with. It may be longer than 255 octets. -/
def parseName (s : Bytes) : Option (List Bytes × Bytes) := parseNameAux s.length s

theorem parseNameAux_wireName {ls : List Bytes} (hls : ∀ l ∈ ls, 1 ≤ l.length ∧ l.length ≤ 63)
    (rest : Bytes) :
    ∀ fuel, ls.length < fuel → parseNameAux fuel (wireName ls ++ rest) = some (ls, rest) := by
  induction ls with
  | nil =>
      intro fuel hfuel
      obtain ⟨fuel, rfl⟩ : ∃ f, fuel = f + 1 := ⟨fuel - 1, by omega⟩
      simp [parseNameAux]
  | cons l ls ih =>
      intro fuel hfuel
      obtain ⟨fuel, rfl⟩ : ∃ f, fuel = f + 1 := ⟨fuel - 1, by omega⟩
      obtain ⟨h1, h63⟩ := hls l (List.mem_cons_self ..)
      have hn : (UInt8.ofNat l.length).toNat = l.length := by
        rw [UInt8.toNat_ofNat']
        omega
      have h0 : UInt8.ofNat l.length ≠ 0 := by
        intro h
        rw [h] at hn
        simp at hn
        omega
      rw [wireName_cons, List.cons_append, List.append_assoc, parseNameAux, if_neg h0, hn,
        if_neg (by omega), if_neg (by simp), List.drop_left, List.take_left,
        ih (fun l' h => hls l' (List.mem_cons_of_mem _ h)) fuel (by simpa using hfuel)]
      rfl

theorem parseName_wireName {ls : List Bytes} (hls : ∀ l ∈ ls, 1 ≤ l.length ∧ l.length ≤ 63)
    (rest : Bytes) : parseName (wireName ls ++ rest) = some (ls, rest) := by
  refine parseNameAux_wireName hls rest _ ?_
  have hlen : ls.length ≤ (ls.map (fun l => l.length + 1)).sum := by
    clear hls
    induction ls with
    | nil => simp
    | cons l ls ih =>
        rw [List.map_cons, List.sum_cons, List.length_cons]
        omega
  rw [List.length_append, wireName_length]
  omega

/-- A 16-bit number. -/
def take16 : Bytes → Option (Nat × Bytes)
  | hi :: lo :: rest => some (ofBe16 hi lo, rest)
  | _ => none

theorem take16_be16 {n : Nat} (hn : n < 65536) (rest : Bytes) :
    take16 (be16 n ++ rest) = some (n, rest) := by
  simp only [be16, List.cons_append, List.nil_append, take16, ofBe16_ofNat,
    Nat.mod_eq_of_lt hn]

/-! ### Messages -/

/-- An entry of the question section. -/
structure Question where
  name : List Bytes
  qtype : Nat
  qclass : Nat
  deriving DecidableEq

/-- A resource record. -/
structure Record where
  owner : List Bytes
  type : Nat
  cls : Nat
  ttl : Nat
  rdata : Bytes
  deriving DecidableEq

/-- A message. The four counts of the header are the lengths of the sections. -/
structure Message where
  id : Nat
  flags : Nat
  questions : List Question
  answers : List Record
  authority : List Record
  additional : List Record
  deriving DecidableEq

def parseQuestion (s : Bytes) : Option (Question × Bytes) := do
  let (name, s) ← parseName s
  let (qtype, s) ← take16 s
  let (qclass, s) ← take16 s
  some (⟨name, qtype, qclass⟩, s)

def parseRecord (s : Bytes) : Option (Record × Bytes) := do
  let (owner, s) ← parseName s
  let (type, s) ← take16 s
  let (cls, s) ← take16 s
  let (ttlHi, s) ← take16 s
  let (ttlLo, s) ← take16 s
  let (rdlength, s) ← take16 s
  if s.length < rdlength then none
  else some (⟨owner, type, cls, ttlHi * 65536 + ttlLo, s.take rdlength⟩, s.drop rdlength)

/-- `n` entries of a section. -/
def parseMany {α : Type} (p : Bytes → Option (α × Bytes)) : Nat → Bytes → Option (List α × Bytes)
  | 0, s => some ([], s)
  | n + 1, s => do
      let (a, s) ← p s
      let (as, s) ← parseMany p n s
      some (a :: as, s)

/-- A whole message: the header, as many entries as it counts in each section, and
nothing after them. -/
def parseMessage (s : Bytes) : Option Message := do
  let (id, s) ← take16 s
  let (flags, s) ← take16 s
  let (qdcount, s) ← take16 s
  let (ancount, s) ← take16 s
  let (nscount, s) ← take16 s
  let (arcount, s) ← take16 s
  let (questions, s) ← parseMany parseQuestion qdcount s
  let (answers, s) ← parseMany parseRecord ancount s
  let (authority, s) ← parseMany parseRecord nscount s
  let (additional, s) ← parseMany parseRecord arcount s
  if s = [] then some ⟨id, flags, questions, answers, authority, additional⟩ else none

theorem parseMessage_header (b₀ b₁ b₂ b₃ b₄ b₅ b₆ b₇ b₈ b₉ b₁₀ b₁₁ : UInt8) (body : Bytes) :
    parseMessage
        (b₀ :: b₁ :: b₂ :: b₃ :: b₄ :: b₅ :: b₆ :: b₇ :: b₈ :: b₉ :: b₁₀ :: b₁₁ :: body) =
      (parseMany parseQuestion (ofBe16 b₄ b₅) body).bind fun qd =>
        (parseMany parseRecord (ofBe16 b₆ b₇) qd.2).bind fun an =>
          (parseMany parseRecord (ofBe16 b₈ b₉) an.2).bind fun ns =>
            (parseMany parseRecord (ofBe16 b₁₀ b₁₁) ns.2).bind fun ar =>
              if ar.2 = [] then some ⟨ofBe16 b₀ b₁, ofBe16 b₂ b₃, qd.1, an.1, ns.1, ar.1⟩
              else none := rfl

theorem parseQuestion_wire {ls : List Bytes} (hls : ∀ l ∈ ls, 1 ≤ l.length ∧ l.length ≤ 63)
    {ty cls : Nat} (hty : ty < 65536) (hcls : cls < 65536) (rest : Bytes) :
    parseQuestion (wireName ls ++ (be16 ty ++ (be16 cls ++ rest))) =
      some (⟨ls, ty, cls⟩, rest) := by
  simp only [parseQuestion, parseName_wireName hls, take16_be16 hty, take16_be16 hcls,
    Option.bind_eq_bind, Option.bind_some]

theorem parseRecord_wire {ls : List Bytes} (hls : ∀ l ∈ ls, 1 ≤ l.length ∧ l.length ≤ 63)
    {ty cls hi lo : Nat} {rdata : Bytes} (hty : ty < 65536) (hcls : cls < 65536)
    (hhi : hi < 65536) (hlo : lo < 65536) (hrd : rdata.length < 65536) (rest : Bytes) :
    parseRecord (wireName ls ++ (be16 ty ++ (be16 cls ++ (be16 hi ++ (be16 lo ++
        (be16 rdata.length ++ (rdata ++ rest))))))) =
      some (⟨ls, ty, cls, hi * 65536 + lo, rdata⟩, rest) := by
  simp only [parseRecord, parseName_wireName hls, take16_be16 hty, take16_be16 hcls,
    take16_be16 hhi, take16_be16 hlo, take16_be16 hrd, Option.bind_eq_bind, Option.bind_some,
    List.take_left, List.drop_left]
  rw [if_neg (by simp)]

end Dnsperf.Dns
