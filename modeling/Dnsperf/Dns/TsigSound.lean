import Dnsperf.Lib.Parse
import Dnsperf.Dns.DnameTotal
import Dnsperf.Dns.RequestSound
import Dnsperf.Dns.Tsig

/-!
# Dnsperf.Dns.TsigSound

**A TSIG record that `perf_add_tsig` adds verifies.** The two halves of the function write
the same names and numbers, once into the scratch buffer that is digested and once into the
packet. The verifier is stated here: it reads the record back, takes it off, lowers the count
in the header and computes the digest over what it has read.
-/

namespace Dnsperf.Dns

open Dnsperf.Lib

/-! ### More bytes after a message -/

theorem stable_take16 : Stable take16 := by
  intro s n rest h more
  match s, h with
  | hi :: lo :: s, h =>
      obtain ⟨rfl, rfl⟩ := Prod.mk.inj (Option.some.inj h)
      rfl

theorem parseNameAux_append {fuel : Nat} {s : Bytes} {labels : List Bytes} {rest : Bytes}
    (h : parseNameAux fuel s = some (labels, rest)) (more : Bytes) {fuel' : Nat}
    (hfuel : fuel ≤ fuel') : parseNameAux fuel' (s ++ more) = some (labels, rest ++ more) := by
  induction fuel generalizing s labels fuel' with
  | zero => exact nomatch h
  | succ fuel ih =>
      obtain ⟨fuel', rfl⟩ : ∃ f, fuel' = f + 1 := ⟨fuel' - 1, by omega⟩
      match s, h with
      | n :: s, h =>
          rw [parseNameAux] at h
          rw [List.cons_append, parseNameAux]
          split_ifs at h with hzero hlong hshort
          · obtain ⟨rfl, rfl⟩ := Prod.mk.inj (Option.some.inj h)
            rw [if_pos hzero]
          · obtain ⟨⟨labels', rest'⟩, htail, heq⟩ := Option.map_eq_some_iff.mp h
            obtain ⟨rfl, rfl⟩ := Prod.mk.inj heq
            push Not at hshort
            rw [if_neg hzero, if_neg hlong, if_neg (by rw [List.length_append]; omega),
              List.drop_append_of_le_length hshort, List.take_append_of_le_length hshort,
              ih htail (Nat.le_of_succ_le_succ hfuel)]
            rfl

theorem stable_parseName : Stable parseName := by
  intro s labels rest h more
  exact parseNameAux_append h more (by rw [List.length_append]; omega)

theorem stable_parseQuestion : Stable parseQuestion := by
  refine stable_parseName.bind fun name => ?_
  refine stable_take16.bind fun qtype => ?_
  refine stable_take16.bind fun qclass => ?_
  exact stable_some _

theorem stable_parseRecord : Stable parseRecord := by
  refine stable_parseName.bind fun owner => ?_
  refine stable_take16.bind fun type => ?_
  refine stable_take16.bind fun cls => ?_
  refine stable_take16.bind fun ttlHi => ?_
  refine stable_take16.bind fun ttlLo => ?_
  refine stable_take16.bind fun rdlength => ?_
  exact stable_take rdlength (Record.mk owner type cls (ttlHi * 65536 + ttlLo))

theorem stable_parseMany {α : Type} {p : Bytes → Option (α × Bytes)} (hp : Stable p) (n : Nat) :
    Stable (parseMany p n) := by
  induction n with
  | zero => exact stable_some []
  | succ n ih => exact hp.bind fun a => ih.bind fun as => stable_some (a :: as)

theorem parseMany_snoc {α : Type} {p : Bytes → Option (α × Bytes)} (hp : Stable p) {n : Nat}
    {s : Bytes} {as : List α} (h : parseMany p n s = some (as, [])) {more rest : Bytes} {a : α}
    (hmore : p more = some (a, rest)) :
    parseMany p (n + 1) (s ++ more) = some (as ++ [a], rest) := by
  induction n generalizing s as with
  | zero =>
      obtain ⟨rfl, rfl⟩ := Prod.mk.inj (Option.some.inj h)
      simp [parseMany, hmore]
  | succ n ih =>
      obtain ⟨⟨b, s'⟩, hb, hrest⟩ := Option.bind_eq_some_iff.mp h
      obtain ⟨⟨bs, s''⟩, hbs, heq⟩ := Option.bind_eq_some_iff.mp hrest
      obtain ⟨rfl, rfl⟩ := Prod.mk.inj (Option.some.inj heq)
      rw [parseMany, hp hb more]
      simp only [Option.bind_eq_bind, Option.bind_some, ih hbs]
      rfl

/-- `ARCOUNT`, in the header. -/
def arcount (s : Bytes) : Nat := ofBe16 (s.getD 10 0) (s.getD 11 0)

theorem exists_header {s : Bytes} (hlen : 12 ≤ s.length) :
    ∃ b₀ b₁ b₂ b₃ b₄ b₅ b₆ b₇ b₈ b₉ b₁₀ b₁₁ body,
      s = b₀ :: b₁ :: b₂ :: b₃ :: b₄ :: b₅ :: b₆ :: b₇ :: b₈ :: b₉ :: b₁₀ :: b₁₁ :: body := by
  match s, hlen with
  | b₀ :: b₁ :: b₂ :: b₃ :: b₄ :: b₅ :: b₆ :: b₇ :: b₈ :: b₉ :: b₁₀ :: b₁₁ :: body, _ =>
      exact ⟨b₀, b₁, b₂, b₃, b₄, b₅, b₆, b₇, b₈, b₉, b₁₀, b₁₁, body, rfl⟩

/-- The count is in the header, whatever comes after it. -/
theorem modify_append {s : Bytes} (hlen : 12 ≤ s.length) (f : UInt8 → UInt8) (more : Bytes) :
    (s ++ more).modify 11 f = s.modify 11 f ++ more := by
  obtain ⟨b₀, b₁, b₂, b₃, b₄, b₅, b₆, b₇, b₈, b₉, b₁₀, b₁₁, body, rfl⟩ := exists_header hlen
  rfl

/-- Counting one more does not carry. -/
theorem ofBe16_succ (hi : UInt8) {lo : UInt8} (hlo : lo < 255) :
    ofBe16 hi (lo + 1) = ofBe16 hi lo + 1 := by
  have hlt : lo.toNat < 255 := UInt8.lt_iff_toNat_lt.mp hlo
  simp only [ofBe16, UInt8.toNat_add, UInt8.toNat_one]
  omega

/-- **A record after a message, counted in the header, is one more additional record.** -/
theorem parseMessage_snoc {s record : Bytes} {rr : Record} {m : Message} (hlen : 12 ≤ s.length)
    (hcount : s[11] < 255) (hrecord : parseRecord record = some (rr, []))
    (hm : parseMessage s = some m) :
    parseMessage (s.modify 11 (· + 1) ++ record) =
      some { m with additional := m.additional ++ [rr] } := by
  obtain ⟨b₀, b₁, b₂, b₃, b₄, b₅, b₆, b₇, b₈, b₉, b₁₀, b₁₁, body, rfl⟩ := exists_header hlen
  change b₁₁ < 255 at hcount
  rw [parseMessage_header] at hm
  obtain ⟨⟨questions, s₁⟩, hquestions, hm⟩ := Option.bind_eq_some_iff.mp hm
  obtain ⟨⟨answers, s₂⟩, hanswers, hm⟩ := Option.bind_eq_some_iff.mp hm
  obtain ⟨⟨authority, s₃⟩, hauthority, hm⟩ := Option.bind_eq_some_iff.mp hm
  obtain ⟨⟨additional, s₄⟩, hadditional, hm⟩ := Option.bind_eq_some_iff.mp hm
  dsimp only at hm
  split_ifs at hm with hnil
  obtain rfl := Option.some.inj hm
  subst hnil
  change parseMessage (b₀ :: b₁ :: b₂ :: b₃ :: b₄ :: b₅ :: b₆ :: b₇ :: b₈ :: b₉ :: b₁₀ ::
    (b₁₁ + 1) :: (body ++ record)) = _
  rw [parseMessage_header, stable_parseMany stable_parseQuestion _ hquestions, Option.bind_some,
    stable_parseMany stable_parseRecord _ hanswers, Option.bind_some,
    stable_parseMany stable_parseRecord _ hauthority, Option.bind_some, ofBe16_succ b₁₀ hcount,
    parseMany_snoc stable_parseRecord hadditional hrecord, Option.bind_some, if_pos rfl]

/-! ### The verifier -/

/-- The data of a TSIG record. -/
structure TsigRdata where
  algorithm : List Bytes
  timeHigh : Nat
  timeLow : Nat
  fudge : Nat
  mac : Bytes
  originalId : Nat
  error : Nat
  other : Bytes
  deriving DecidableEq

/-- A 32-bit number. -/
def take32 (s : Bytes) : Option (Nat × Bytes) := do
  let (hi, s) ← take16 s
  let (lo, s) ← take16 s
  some (hi * 65536 + lo, s)

theorem take32_be32 (n : UInt32) (rest : Bytes) :
    take32 (be32 n.toNat ++ rest) = some (n.toNat, rest) := by
  have hlt := n.toNat_lt
  simp only [take32, be32, be16, List.cons_append, List.nil_append, take16, ofBe16_ofNat,
    Option.bind_eq_bind, Option.bind_some]
  rw [show n.toNat / 65536 % 65536 * 65536 + n.toNat % 65536 = n.toNat by omega]

/-- The fields of the data, which are all of it. -/
def parseTsig (rdata : Bytes) : Option TsigRdata := do
  let (algorithm, s) ← parseName rdata
  let (timeHigh, s) ← take16 s
  let (timeLow, s) ← take32 s
  let (fudge, s) ← take16 s
  let (macSize, s) ← take16 s
  let (mac, s) ← takeN macSize s
  let (originalId, s) ← take16 s
  let (error, s) ← take16 s
  let (otherLen, s) ← take16 s
  if s.length = otherLen then
    some ⟨algorithm, timeHigh, timeLow, fudge, mac, originalId, error, s⟩
  else none

/-- What is digested after the packet, as read from the record. -/
def tsigVariables (rr : Record) (tsig : TsigRdata) : Bytes :=
  wireName rr.owner ++ (be16 rr.cls ++ (be32 rr.ttl ++ (wireName tsig.algorithm ++
    (be16 tsig.timeHigh ++ (be32 tsig.timeLow ++ (be16 tsig.fudge ++ (be16 tsig.error ++
      (be16 tsig.other.length ++ tsig.other))))))))

/-- The digest over the message without its last record, which starts at `off`, is the one
in that record. -/
def verifyTsig (digest : Bytes → Md) (off : Nat) (msg : Bytes) : Bool :=
  match parseRecord (msg.drop off) with
  | some (rr, []) =>
      match parseTsig rr.rdata with
      | some tsig =>
          rr.type = 250 ∧
            (digest ((msg.take off).modify 11 (· - 1) ++ tsigVariables rr tsig)).val = tsig.mac
      | none => false
  | _ => false

/-! ### What is written -/

/-- What `perf_dname_fromstring` appends for `s`, wherever it succeeds. -/
def Encodes (s bytes : Bytes) : Prop :=
  ∀ t t', perfDnameFromstring s t = some (.success, t') →
    t'.base = t.base ++ bytes ∧ t'.length = t.length

theorem encodes_of_success {s : Bytes} (hs : s ≠ []) {t t' : PerfBuffer} {bytes : Bytes}
    (h : perfDnameFromstring s t = some (.success, t')) (hbytes : t'.base = t.base ++ bytes) :
    Encodes s bytes := by
  intro u u' hu
  obtain ⟨bytes', hb, hb'⟩ := perfDnameFromstring_same h hu
  obtain rfl := List.append_cancel_left (hbytes.symm.trans hb)
  obtain ⟨-, -, -, hlen⟩ := perfDnameFromstring_success hs hu
  exact ⟨hb', hlen⟩

/-- The labels of an algorithm's name. -/
def TsigAlg.labels : TsigAlg → List Bytes
  | .hmacMd5 => [ascii "hmac-md5", ascii "sig-alg", ascii "reg", ascii "int"]
  | alg => [alg.name]

theorem algLabels_ok (alg : TsigAlg) : ∀ l ∈ alg.labels, 1 ≤ l.length ∧ l.length ≤ 63 := by
  cases alg <;> decide +kernel

theorem algName_ne_nil (alg : TsigAlg) : alg.name ≠ [] := by
  cases alg <;> decide

theorem perfDnameFromstring_algName_init (alg : TsigAlg) :
    perfDnameFromstring alg.name (PerfBuffer.init 32) =
      some (.success, (PerfBuffer.init 32).push (wireName alg.labels)) := by
  cases alg <;> decide +kernel

theorem encodes_algName (alg : TsigAlg) : Encodes alg.name (wireName alg.labels) := by
  refine encodes_of_success (algName_ne_nil alg) (perfDnameFromstring_algName_init alg) ?_
  cases alg <;> decide +kernel

/-- **`alglen + 18 + mdlen` is the length of the data.** -/
theorem wireName_algLabels_length (alg : TsigAlg) :
    (wireName alg.labels).length = alg.name.length + 2 := by
  cases alg <;> decide +kernel

/-- The record's data, for the digest `md` and the packet's first two bytes `id`. -/
def tsigRdata (alg : TsigAlg) (now : UInt32) (md id : Bytes) : Bytes :=
  wireName alg.labels ++ (be16 0 ++ (be32 now.toNat ++ (be16 300 ++ (be16 md.length ++ (md ++
    (id ++ (be16 0 ++ be16 0)))))))

/-- The record. -/
def tsigRecord (owner : List Bytes) (alg : TsigAlg) (now : UInt32) (md id : Bytes) : Bytes :=
  wireName owner ++ (be16 250 ++ (be16 255 ++ (be32 0 ++
    (be16 (alg.name.length + 18 + md.length) ++ tsigRdata alg now md id))))

theorem digestRecord_success {now : UInt32} {key : PerfTsigkey} {tmp : PerfBuffer}
    (hname : key.name ≠ []) (h : digestRecord now key = some (.success, tmp)) :
    ∃ owner t, (∀ l ∈ owner, 1 ≤ l.length ∧ l.length ≤ 63) ∧
      perfDnameFromstring key.name (PerfBuffer.init 512) = some (.success, t) ∧
      t.base = wireName owner ∧
      tmp.base = wireName owner ++ (be16 255 ++ (be32 0 ++ (wireName key.alg.labels ++
        (be16 0 ++ (be32 now.toNat ++ (be16 300 ++ (be16 0 ++ be16 0))))))) := by
  rw [digestRecord_eq] at h
  obtain ⟨t₁, h₁, h⟩ := bind_success (fun _ _ hr => if_pos hr) h
  simp only [ne_eq, not_true_eq_false, if_false] at h
  obtain ⟨t₂, h₂, h⟩ := Option.bind_eq_some_iff.mp h
  obtain ⟨t₃, h₃, h⟩ := bind_success (fun _ _ hr => if_pos hr) h
  simp only [not_true_eq_false, if_false] at h
  obtain ⟨t₄, h₄, h⟩ := Option.bind_eq_some_iff.mp h
  obtain ⟨-, rfl⟩ := Prod.mk.inj (Option.some.inj h)
  obtain ⟨owner, howner, hbase₁, -⟩ := perfDnameFromstring_success hname h₁
  refine ⟨owner, t₁, howner, h₁, hbase₁, ?_⟩
  rw [(PerfBuffer.putmem_eq_some.mp h₄).2.1, (encodes_algName key.alg _ _ h₃).1,
    (PerfBuffer.putmem_eq_some.mp h₂).2.1, hbase₁]
  simp only [PerfBuffer.init_base, List.nil_append, List.append_assoc]

theorem addRecord_success {now : UInt32} {key : PerfTsigkey} {md : Bytes}
    {packet packet' : PerfBuffer} {owner : List Bytes} (howner : Encodes key.name (wireName owner))
    (hlen : 12 ≤ packet.base.length) (h : addRecord now key md packet = some (.success, packet')) :
    packet'.base = (packet.base ++
      tsigRecord owner key.alg now md (packet.base.take 2)).modify 11 (· + 1) := by
  rw [addRecord_eq] at h
  obtain ⟨p₁, h₁, h⟩ := bind_success (fun _ _ hr => if_pos hr) h
  simp only [ne_eq, not_true_eq_false, if_false] at h
  obtain ⟨p₂, h₂, h⟩ := Option.bind_eq_some_iff.mp h
  obtain ⟨p₃, h₃, h⟩ := bind_success (fun _ _ hr => if_pos hr) h
  simp only [not_true_eq_false, if_false] at h
  obtain ⟨p₄, h₄, h⟩ := Option.bind_eq_some_iff.mp h
  obtain ⟨p₅, h₅, h⟩ := Option.bind_eq_some_iff.mp h
  obtain ⟨-, rfl⟩ := Prod.mk.inj (Option.some.inj h)
  have hbase : p₄.base = packet.base ++ (wireName owner ++ (be16 250 ++ (be16 255 ++ (be32 0 ++
      (be16 (key.alg.name.length + 18 + md.length) ++ (wireName key.alg.labels ++ (be16 0 ++
        (be32 now.toNat ++ (be16 300 ++ (be16 md.length ++ md)))))))))) := by
    rw [(PerfBuffer.putmem_eq_some.mp h₄).2.1, (encodes_algName key.alg _ _ h₃).1,
      (PerfBuffer.putmem_eq_some.mp h₂).2.1, (howner _ _ h₁).1]
    simp only [List.append_assoc]
  have hid : p₄.base.take 2 = packet.base.take 2 := by
    rw [hbase, List.take_append_of_le_length (by omega)]
  rw [PerfBuffer.modify_base, (PerfBuffer.putmem_eq_some.mp h₅).2.1, hid, hbase]
  simp only [tsigRecord, tsigRdata, List.append_assoc]

/-! ### Reading it back -/

/-- The record as it is read. -/
def tsigRr (owner : List Bytes) (rdata : Bytes) : Record :=
  { owner := owner, type := 250, cls := 255, ttl := 0, rdata := rdata }

theorem parseRecord_tsigRecord {owner : List Bytes}
    (howner : ∀ l ∈ owner, 1 ≤ l.length ∧ l.length ≤ 63) (alg : TsigAlg) (now : UInt32)
    {md id : Bytes} (hmd : md.length ≤ 64) (hid : id.length = 2) :
    parseRecord (tsigRecord owner alg now md id) =
      some (tsigRr owner (tsigRdata alg now md id), []) := by
  have hlen : (tsigRdata alg now md id).length = alg.name.length + 18 + md.length := by
    simp only [tsigRdata, List.length_append, wireName_algLabels_length, be16_length, be32_length,
      hid]
    omega
  have hname := algName_length alg
  have hparse := parseRecord_wire howner (show 250 < 65536 by decide) (show 255 < 65536 by decide)
    (show 0 < 65536 by decide) (show 0 < 65536 by decide)
    (show (tsigRdata alg now md id).length < 65536 by omega) []
  rw [hlen, List.append_nil] at hparse
  exact hparse

theorem parseTsig_tsigRdata (alg : TsigAlg) (now : UInt32) {md : Bytes} (hmd : md.length ≤ 64)
    {id : Nat} (hid : id < 65536) :
    parseTsig (tsigRdata alg now md (be16 id)) =
      some { algorithm := alg.labels, timeHigh := 0, timeLow := now.toNat, fudge := 300, mac := md,
             originalId := id, error := 0, other := [] } := by
  simp only [parseTsig, tsigRdata, parseName_wireName (algLabels_ok alg),
    take16_be16 (show 0 < 65536 by decide), take32_be32, take16_be16 (show 300 < 65536 by decide),
    take16_be16 (show md.length < 65536 by omega), takeN_append, take16_be16 hid,
    show take16 (be16 0) = some (0, []) from rfl, Option.bind_eq_bind, Option.bind_some]
  rfl

theorem perfAddTsig_success {now : UInt32} {key : PerfTsigkey} {packet packet' : PerfBuffer}
    (hname : key.name ≠ []) (hlen : 12 ≤ packet.base.length)
    (h : perfAddTsig now key packet = some (.success, packet')) :
    ∃ owner t id, (∀ l ∈ owner, 1 ≤ l.length ∧ l.length ≤ 63) ∧
      perfDnameFromstring key.name (PerfBuffer.init 512) = some (.success, t) ∧
      t.base = wireName owner ∧ id < 65536 ∧ packet.base.take 2 = be16 id ∧
      packet'.base = packet.base.modify 11 (· + 1) ++ tsigRecord owner key.alg now
        (key.digest (packet.base ++ (wireName owner ++ (be16 255 ++ (be32 0 ++
          (wireName key.alg.labels ++ (be16 0 ++ (be32 now.toNat ++ (be16 300 ++ (be16 0 ++
            be16 0)))))))))).val (be16 id) := by
  obtain ⟨⟨result, tmp⟩, hdigest, h⟩ := Option.bind_eq_some_iff.mp h
  dsimp only at h
  split_ifs at h with hresult hroom
  · exact absurd (Prod.mk.inj (Option.some.inj h)).1 hresult
  · exact nomatch h
  obtain rfl : result = .success := not_not.mp hresult
  obtain ⟨owner, t, howner, ht, hbase, htmp⟩ := digestRecord_success hname hdigest
  obtain ⟨b₀, b₁, b₂, b₃, b₄, b₅, b₆, b₇, b₈, b₉, b₁₀, b₁₁, body, hpacket⟩ := exists_header hlen
  have hid : packet.base.take 2 = be16 (ofBe16 b₀ b₁) := by
    rw [hpacket, be16_ofBe16]
    rfl
  refine ⟨owner, t, ofBe16 b₀ b₁, howner, ht, hbase, ofBe16_lt b₀ b₁, hid, ?_⟩
  have hrecord := addRecord_success (encodes_of_success hname ht hbase) hlen h
  rw [hid, htmp, modify_append hlen] at hrecord
  exact hrecord

theorem arcount_modify {s : Bytes} (hlen : 12 ≤ s.length) (hcount : s[11] < 255) (more : Bytes) :
    arcount (s.modify 11 (· + 1) ++ more) = arcount s + 1 ∧
      (s.modify 11 (· + 1)).modify 11 (· - 1) = s := by
  obtain ⟨b₀, b₁, b₂, b₃, b₄, b₅, b₆, b₇, b₈, b₉, b₁₀, b₁₁, body, rfl⟩ := exists_header hlen
  refine ⟨ofBe16_succ b₁₀ hcount, ?_⟩
  change b₀ :: b₁ :: b₂ :: b₃ :: b₄ :: b₅ :: b₆ :: b₇ :: b₈ :: b₉ :: b₁₀ ::
    (b₁₁ + 1 - 1) :: body = _
  rw [UInt8.add_sub_cancel]

/-- **A TSIG record that `perf_add_tsig` adds verifies**: the packet is followed by one
record, which is counted; its data is the fields of a TSIG record and nothing else; and the
digest of what a verifier reads is the one in the record. -/
theorem perfAddTsig_verifies (now : UInt32) (key : PerfTsigkey) (packet packet' : PerfBuffer)
    (hname : key.name ≠ []) (hlen : 12 ≤ packet.base.length) (hcount : packet.base[11] < 255)
    (h : perfAddTsig now key packet = some (.success, packet')) :
    ∃ owner record rdata tsig,
      -- the packet, counted up, and the record
      packet'.base = packet.base.modify 11 (· + 1) ++ record ∧
      arcount packet'.base = arcount packet.base + 1 ∧
      parseRecord record = some (tsigRr owner rdata, []) ∧
      (∀ m, parseMessage packet.base = some m → parseMessage packet'.base =
        some { m with additional := m.additional ++ [tsigRr owner rdata] }) ∧
      -- the owner is the key's name
      (∃ t, perfDnameFromstring key.name (PerfBuffer.init 512) = some (.success, t) ∧
        t.base = wireName owner) ∧
      -- the fields are all of the data
      parseTsig rdata = some tsig ∧ tsig.algorithm = key.alg.labels ∧ tsig.timeHigh = 0 ∧
      tsig.timeLow = now.toNat ∧ tsig.fudge = 300 ∧ packet.base.take 2 = be16 tsig.originalId ∧
      tsig.error = 0 ∧ tsig.other = [] ∧
      verifyTsig key.digest packet.base.length packet'.base = true := by
  obtain ⟨owner, t, id, howner, ht, hbase, hid, htake, hpacket⟩ :=
    perfAddTsig_success hname hlen h
  generalize hmd : key.digest _ = md at hpacket
  have hrecord := parseRecord_tsigRecord howner key.alg now md.property (be16_length id)
  have htsig := parseTsig_tsigRdata key.alg now md.property hid
  obtain ⟨harcount, hback⟩ :=
    arcount_modify hlen hcount (tsigRecord owner key.alg now md.val (be16 id))
  refine ⟨owner, _, _, _, hpacket, by rw [hpacket, harcount], hrecord, ?_, ⟨t, ht, hbase⟩, htsig,
    rfl, rfl, rfl, rfl, htake, rfl, rfl, ?_⟩
  · intro m hm
    rw [hpacket]
    exact parseMessage_snoc hlen hcount hrecord hm
  · have hoff : packet.base.length = (packet.base.modify 11 (· + 1)).length := by simp
    rw [hpacket, verifyTsig, hoff, List.drop_left, List.take_left, hrecord]
    dsimp only [tsigRr]
    rw [htsig, hback]
    simpa [tsigVariables] using congrArg Subtype.val hmd

/-- A key of one byte, with a digest of two, on a header without any section. -/
theorem perfAddTsig_verifies_header :
    verifyTsig (fun _ => ⟨[1, 2], by decide⟩) 12
      ([0, 7, 1, 0, 0, 0, 0, 0, 0, 0, 0, 1] ++
        tsigRecord [[107]] .hmacSha1 5 [1, 2] [0, 7]) = true := by
  obtain ⟨owner, record, rdata, tsig, -, -, -, -, -, -, -, -, -, -, -, -, -, hverify⟩ :=
    perfAddTsig_verifies 5 ⟨[107], .hmacSha1, fun _ => ⟨[1, 2], by decide⟩, by decide⟩
      ((PerfBuffer.init 64).push [0, 7, 1, 0, 0, 0, 0, 0, 0, 0, 0, 0])
      ((PerfBuffer.init 64).push ([0, 7, 1, 0, 0, 0, 0, 0, 0, 0, 0, 1] ++
        tsigRecord [[107]] .hmacSha1 5 [1, 2] [0, 7])) (by decide) (by decide) (by decide)
      (by decide +kernel)
  exact hverify

end Dnsperf.Dns
