import Dnsperf.Dns.TsigSound

/-!
# Dnsperf.Dns.Signed

**A signed query**, from the input line to what a server makes of it: with a TSIG key
`perf_dns_buildrequest` leaves the message it would have built without the key, with one more
record that a server can verify over that message.
-/

namespace Dnsperf.Dns

open Dnsperf.Lib

/-- A signed message is the unsigned one, signed. -/
theorem perfDnsBuildrequest_tsig {Rdf Tree : Type} (ldns : Option (Ldns Rdf Tree)) (record : Bytes)
    (qid : UInt16) (edns dnssec isUpdate : Bool)
    (addTsig : PerfBuffer → Option (PerfResult × PerfBuffer)) (ednsOption : Option PerfBuffer)
    (msg : PerfBuffer) :
    perfDnsBuildrequest ldns record qid edns dnssec isUpdate (some addTsig) ednsOption msg =
      (perfDnsBuildrequest ldns record qid edns dnssec isUpdate none ednsOption msg).bind fun r =>
        if r.1 = .success then addTsig r.2 else some r := by
  have hedns (r : PerfResult × PerfBuffer) :
      (if r.1 = .success ∧ edns = true then
        (perfAddEdns r.2 dnssec ednsOption).bind fun r =>
          if r.1 = .success then addTsig r.2 else some (r.1, r.2)
        else if r.1 = .success then addTsig r.2 else some (r.1, r.2)) =
      (if r.1 = .success ∧ edns = true then
        (perfAddEdns r.2 dnssec ednsOption).bind fun r => some (r.1, r.2)
        else some (r.1, r.2)).bind fun r => if r.1 = .success then addTsig r.2 else some r := by
    split_ifs <;> simp [*]
  cases isUpdate with
  | false =>
      simp only [perfDnsBuildrequest, Option.bind_eq_bind, Option.bind_assoc, Option.bind_some,
        Bool.false_eq_true, if_false, hedns]
  | true =>
      cases ldns with
      | none => simp [perfDnsBuildrequest, Option.bind_assoc]
      | some ldns =>
          simp only [perfDnsBuildrequest, Option.bind_eq_bind, Option.bind_assoc, Option.bind_some,
            if_true, hedns]

/-- **A signed query decodes, and verifies.** The message that `perf_dns_buildrequest` builds
with a key is read as the query that it builds without one, with a TSIG record after the OPT
record, if there is one: the record names the key, has the id of the query, and its digest is
that of the query as it would have been sent without the key. -/
theorem signed_query_decodes {Rdf Tree : Type} (ldns : Option (Ldns Rdf Tree)) (line : Bytes)
    (qid : UInt16) (edns dnssec : Bool) (ednsOption : Option PerfBuffer) (now : UInt32)
    (key : PerfTsigkey) (msg' : PerfBuffer) (hname : key.name ≠ [])
    (h : perfDnsBuildrequest ldns line qid edns dnssec false (some (perfAddTsig now key)) ednsOption
      (PerfBuffer.init (if edns then maxEdnsPacket else maxUdpPacket)) = some (.success, msg')) :
    ∃ msg labels ty owner rdata tsig,
      -- the query without the key
      perfDnsBuildrequest ldns line qid edns dnssec false none ednsOption
        (PerfBuffer.init (if edns then maxEdnsPacket else maxUdpPacket)) = some (.success, msg) ∧
      parseMessage msg.base = some ⟨qid.toNat, 0x0100, [⟨labels, ty, 1⟩], [], [],
        if edns then [optRr dnssec (ednsOption.elim [] PerfBuffer.base)] else []⟩ ∧
      -- and with it
      parseMessage msg'.base = some ⟨qid.toNat, 0x0100, [⟨labels, ty, 1⟩], [], [],
        (if edns then [optRr dnssec (ednsOption.elim [] PerfBuffer.base)] else []) ++
          [tsigRr owner rdata]⟩ ∧
      (∃ t, perfDnameFromstring key.name (PerfBuffer.init 512) = some (.success, t) ∧
        t.base = wireName owner) ∧
      parseTsig rdata = some tsig ∧ tsig.algorithm = key.alg.labels ∧ tsig.originalId = qid.toNat ∧
      tsig.mac = (key.digest (msg.base ++ tsigVariables (tsigRr owner rdata) tsig)).val := by
  rw [perfDnsBuildrequest_tsig] at h
  obtain ⟨⟨result, msg⟩, hmsg, h⟩ := Option.bind_eq_some_iff.mp h
  dsimp only at h
  split_ifs at h with hresult
  · subst hresult
    obtain ⟨labels, ty, hlabels, hty, hrdata, hbytes, -⟩ := perfDnsBuildrequest_bytes hmsg
    have hparse := parseMessage_bytes dnssec qid.toNat_lt hlabels hty hrdata
    rw [← hbytes] at hparse
    have hlen : 12 ≤ msg.base.length := by
      rw [hbytes, List.length_append, headerBytes_length]
      omega
    have hcount : msg.base[11] < 255 := by
      simp only [hbytes]
      cases edns with
      | false => exact show (0 : UInt8) < 255 by decide
      | true => exact show (1 : UInt8) < 255 by decide
    obtain ⟨owner, t, id, howner, ht, hbase, hid, htake, hpacket⟩ :=
      perfAddTsig_success hname hlen h
    obtain rfl : id = qid.toNat := by
      have hid' : be16 id = be16 qid.toNat := by
        rw [← htake, hbytes]
        rfl
      have htake16 := take16_be16 hid []
      rw [hid', take16_be16 qid.toNat_lt] at htake16
      exact (Prod.mk.inj (Option.some.inj htake16)).1.symm
    generalize hmd : key.digest _ = md at hpacket
    have hrecord := parseRecord_tsigRecord howner key.alg now md.property (be16_length qid.toNat)
    have htsig := parseTsig_tsigRdata key.alg now md.property qid.toNat_lt
    have hsigned := parseMessage_snoc hlen hcount hrecord hparse
    rw [← hpacket] at hsigned
    refine ⟨msg, labels, ty, owner, _, _, hmsg, hparse, hsigned, ⟨t, ht, hbase⟩, htsig,
      rfl, rfl, ?_⟩
    rw [← hmd]
    simp [tsigVariables, tsigRr]
  · exact absurd (Prod.mk.inj (Option.some.inj h)).1 hresult

/-- A key of one byte, with a digest of two. -/
def shortKey : PerfTsigkey := ⟨[107], .hmacSha1, fun _ => ⟨[1, 2], by decide⟩, by decide⟩

/-- The query `a. A` with the DO bit, signed. -/
theorem signed_query_decodes_a :
    ∃ msg' : PerfBuffer, perfDnsBuildrequest (none : Option (Ldns Unit Unit)) (ascii "a. A")
        7 true true false (some (perfAddTsig 5 shortKey)) none (PerfBuffer.init maxEdnsPacket) =
          some (.success, msg') ∧
      ∃ labels ty owner rdata, parseMessage msg'.base =
        some ⟨7, 0x0100, [⟨labels, ty, 1⟩], [], [], [optRr true [], tsigRr owner rdata]⟩ := by
  have hsome : (perfDnsBuildrequest (none : Option (Ldns Unit Unit)) (ascii "a. A") 7 true true
      false (some (perfAddTsig 5 shortKey)) none (PerfBuffer.init maxEdnsPacket)).any
        (fun r => r.1 = .success) = true := by
    decide +kernel
  obtain ⟨⟨result, msg'⟩, hbuild, hresult⟩ := (Option.any_eq_true _ _).mp hsome
  obtain rfl : result = .success := of_decide_eq_true hresult
  obtain ⟨-, labels, ty, owner, rdata, -, -, -, hparse, -⟩ :=
    signed_query_decodes none (ascii "a. A") 7 true true none 5 shortKey msg' (by decide) hbuild
  exact ⟨msg', hbuild, labels, ty, owner, rdata, hparse⟩

end Dnsperf.Dns
