import Dnsperf.Dns.Request
import Dnsperf.Dns.DnameSound

/-!
# Dnsperf.Dns.RequestSound

A query message decodes to what was asked: whenever `perf_dns_buildrequest`
succeeds on a query line, reading the bytes back gives the query id, the one
question the line spells, and the OPT record if one was asked for.
-/

namespace Dnsperf.Dns

open Dnsperf.Lib

/-! ### What the builders append -/

/-- The twelve bytes of the header. -/
def headerBytes (id flags ar : Nat) : Bytes :=
  be16 id ++ be16 flags ++ be16 1 ++ be16 0 ++ be16 0 ++ be16 ar

@[simp] theorem headerBytes_length (id flags ar : Nat) : (headerBytes id flags ar).length = 12 := by
  simp [headerBytes, be16]

theorem putHeader_eq (qid : UInt16) (isUpdate : Bool) (msg : PerfBuffer) :
    putHeader qid isUpdate msg =
      msg.putmem (headerBytes qid.toNat (if isUpdate then 5 <<< 11 else 0x0100) 0) := by
  simp only [putHeader, PerfBuffer.putuint16, Option.bind_eq_bind]
  simp only [PerfBuffer.putmem_bind_putmem_last, headerBytes, List.append_assoc]

/-- What a successful `build_query` appended: the name and type it read off the
line, and class IN. -/
theorem buildQuery_success {line : Bytes} {m m' : PerfBuffer}
    (h : buildQuery line m = some (.success, m')) :
    ∃ labels ty m₁ m₂, (∀ l ∈ labels, 1 ≤ l.length ∧ l.length ≤ 63) ∧ ty < 65536 ∧
      perfDnameFromstring (domainToken line) m = some (.success, m₁) ∧
      m₁.base = m.base ++ wireName labels ∧
      perfQtypeFromstring (qtypeStr line) (qtypeLen line) m₁ = some (.success, m₂) ∧
      m₂.base = m₁.base ++ be16 ty ∧ m'.base = m₂.base ++ be16 1 ∧ m'.length = m.length := by
  unfold buildQuery at h
  split at h
  · simp at h
  rename_i hdl
  obtain ⟨m₁, h₁, h⟩ := bind_success (fun _ _ hr => if_pos hr) h
  simp only [ne_eq, not_true_eq_false, if_false] at h
  split at h
  · simp at h
  obtain ⟨m₂, h₂, h⟩ := bind_success (fun _ _ hr => if_pos hr) h
  simp only [not_true_eq_false, if_false] at h
  obtain ⟨m₃, h₃, h⟩ := Option.bind_eq_some_iff.mp h
  obtain rfl : m₃ = m' := by simpa using h
  obtain ⟨-, hbase₃, hlen₃⟩ := PerfBuffer.putmem_eq_some.mp h₃
  have hne : domainToken line ≠ [] := by
    intro hnil
    have hlen := congrArg List.length hnil
    simp only [domainToken, List.length_take, List.length_nil] at hlen
    have hle : strcspn line whitespace ≤ line.length := (List.takeWhile_prefix _).length_le
    omega
  obtain ⟨labels, hlabels, hbase₁, hlen₁⟩ := perfDnameFromstring_success hne h₁
  obtain ⟨ty, hty, hbase₂, hlen₂⟩ := perfQtypeFromstring_success h₂
  exact ⟨labels, ty, m₁, m₂, hlabels, hty, h₁, hbase₁, h₂, hbase₂, hbase₃,
    hlen₃.trans (hlen₂.trans hlen₁)⟩

/-! ### Reading the message back -/

/-- The OPT record of a message: UDP payload size 4096, the DO bit, the options. -/
def optRr (dnssec : Bool) (rdata : Bytes) : Record :=
  { owner := [], type := 41, cls := maxEdnsPacket, ttl := if dnssec then 0x8000 else 0,
    rdata := rdata }

theorem parseRecord_optRecord {dnssec : Bool} {rdata : Bytes} (h : rdata.length < 65536) :
    parseRecord (optRecord dnssec rdata) = some (optRr dnssec rdata, []) := by
  have hbytes : optRecord dnssec rdata =
      wireName [] ++ (be16 41 ++ (be16 maxEdnsPacket ++ (be16 0 ++
        (be16 (if dnssec then 0x8000 else 0) ++ (be16 rdata.length ++ (rdata ++ [])))))) := by
    simp [optRecord, be16]
  rw [hbytes, parseRecord_wire (by simp) (by decide) (by decide) (by decide)
    (by split <;> decide) h]
  simp [optRr]

/-- Counting the additional record: the twelfth byte goes from 0 to 1. -/
theorem headerBytes_modify (id flags : Nat) (body : Bytes) :
    (headerBytes id flags 0 ++ body).modify 11 (· + 1) = headerBytes id flags 1 ++ body := by
  simp [headerBytes, be16, List.modify, List.modifyTailIdx, List.modifyTailIdx.go,
    List.modifyHead]

theorem parseMessage_query {id flags ty ar : Nat} {labels : List Bytes} (opt : Bytes)
    {additional : List Record} (hid : id < 65536) (hflags : flags < 65536)
    (hlabels : ∀ l ∈ labels, 1 ≤ l.length ∧ l.length ≤ 63) (hty : ty < 65536) (har : ar < 65536)
    (hopt : parseMany parseRecord ar opt = some (additional, [])) :
    parseMessage (headerBytes id flags ar ++
        (wireName labels ++ (be16 ty ++ (be16 1 ++ opt)))) =
      some ⟨id, flags, [⟨labels, ty, 1⟩], [], [], additional⟩ := by
  refine (parseMessage_header _ _ _ _ _ _ _ _ _ _ _ _
    (wireName labels ++ (be16 ty ++ (be16 1 ++ opt)))).trans ?_
  rw [ofBe16_ofNat, ofBe16_ofNat, ofBe16_ofNat, ofBe16_ofNat, ofBe16_ofNat, Nat.mod_eq_of_lt hid,
    Nat.mod_eq_of_lt hflags, Nat.mod_eq_of_lt har]
  simp only [parseMany, parseQuestion_wire hlabels hty (show 1 < 65536 by decide),
    Option.bind_eq_bind, Option.bind_some, hopt, if_true]

/-- What a successful `perf_dns_buildrequest` on a query line left in the buffer. -/
theorem perfDnsBuildrequest_query_success {Rdf Tree : Type} {ldns : Option (Ldns Rdf Tree)}
    {line : Bytes} {qid : UInt16} {edns dnssec : Bool} {ednsOption : Option PerfBuffer}
    {size : Nat} {msg' : PerfBuffer}
    (h : perfDnsBuildrequest ldns line qid edns dnssec false none ednsOption
      (PerfBuffer.init size) = some (.success, msg')) :
    ∃ m query, m.base = headerBytes qid.toNat 0x0100 0 ∧ m.length = size ∧
      buildQuery line m = some (.success, query) ∧
      if edns then perfAddEdns query dnssec ednsOption = some (.success, msg')
      else msg' = query := by
  simp only [perfDnsBuildrequest, Bool.false_eq_true, if_false, Option.bind_eq_bind] at h
  obtain ⟨m, hm, h⟩ := Option.bind_eq_some_iff.mp h
  obtain ⟨⟨r, query⟩, hq, h⟩ := Option.bind_eq_some_iff.mp h
  simp only [Prod.mk.eta, Option.bind_fun_some] at h
  rw [putHeader_eq] at hm
  obtain ⟨-, hbase, hlen⟩ := PerfBuffer.putmem_eq_some.mp hm
  obtain rfl : r = .success := by
    by_contra hr
    rw [if_neg (fun hc => hr hc.1)] at h
    simp only [Option.some.injEq, Prod.mk.injEq] at h
    exact hr h.1
  refine ⟨m, query, by simpa using hbase, by simpa using hlen, by simpa using hq, ?_⟩
  cases edns with
  | true => simpa using h
  | false => simpa [eq_comm] using h

/-- The options of an OPT record that fits a message have a 16-bit length. -/
theorem perfAddEdns_rdata_lt {packet msg : PerfBuffer} {dnssec : Bool} {option : Option PerfBuffer}
    (hsize : packet.length = maxEdnsPacket)
    (h : perfAddEdns packet dnssec option = some (.success, msg)) :
    (option.elim [] PerfBuffer.base).length < 65536 := by
  obtain ⟨-, -, hlen⟩ := perfAddEdns_success h
  rw [hsize] at hlen
  exact lt_of_le_of_lt (le_trans (Nat.le_add_right _ _) hlen) (by decide)

/-- The bytes of an unsigned query, and where its name and type come from. -/
theorem perfDnsBuildrequest_bytes {Rdf Tree : Type} {ldns : Option (Ldns Rdf Tree)}
    {line : Bytes} {qid : UInt16} {edns dnssec : Bool} {ednsOption : Option PerfBuffer}
    {msg : PerfBuffer}
    (h : perfDnsBuildrequest ldns line qid edns dnssec false none ednsOption
      (PerfBuffer.init (if edns then maxEdnsPacket else maxUdpPacket)) = some (.success, msg)) :
    ∃ labels ty, (∀ l ∈ labels, 1 ≤ l.length ∧ l.length ≤ 63) ∧ ty < 65536 ∧
      (edns = true → (ednsOption.elim [] PerfBuffer.base).length < 65536) ∧
      msg.base = headerBytes qid.toNat 0x0100 (if edns then 1 else 0) ++
        (wireName labels ++ (be16 ty ++ (be16 1 ++
          if edns then optRecord dnssec (ednsOption.elim [] PerfBuffer.base) else []))) ∧
      ∃ m m₁ m₂, m.base.length = 12 ∧
        perfDnameFromstring (domainToken line) m = some (.success, m₁) ∧
        m₁.base = m.base ++ wireName labels ∧
        perfQtypeFromstring (qtypeStr line) (qtypeLen line) m₁ = some (.success, m₂) ∧
        m₂.base = m₁.base ++ be16 ty := by
  obtain ⟨m, query, hm, hmlen, hquery, hedns⟩ := perfDnsBuildrequest_query_success h
  obtain ⟨labels, ty, m₁, m₂, hlabels, hty, h₁, hb₁, h₂, hb₂, hb₃, hlen⟩ :=
    buildQuery_success hquery
  have hbody : query.base =
      headerBytes qid.toNat 0x0100 0 ++ (wireName labels ++ (be16 ty ++ be16 1)) := by
    rw [hb₃, hb₂, hb₁, hm]
    simp only [List.append_assoc]
  have hm12 : m.base.length = 12 := by
    rw [hm, headerBytes_length]
  refine ⟨labels, ty, hlabels, hty, ?_, ?_, m, m₁, m₂, hm12, h₁, hb₁, h₂, hb₂⟩
  · rintro rfl
    exact perfAddEdns_rdata_lt (hlen.trans hmlen) hedns
  · cases edns with
    | false =>
        obtain rfl : msg = query := by simpa using hedns
        simpa using hbody
    | true =>
        rw [if_pos rfl] at hedns
        rw [(perfAddEdns_success hedns).1, hbody, List.append_assoc, headerBytes_modify]
        simp only [if_true, List.append_assoc]

theorem parseMessage_bytes (dnssec : Bool) {id ty : Nat} {labels : List Bytes} {edns : Bool}
    {rdata : Bytes} (hid : id < 65536) (hlabels : ∀ l ∈ labels, 1 ≤ l.length ∧ l.length ≤ 63)
    (hty : ty < 65536) (hrdata : edns = true → rdata.length < 65536) :
    parseMessage (headerBytes id 0x0100 (if edns then 1 else 0) ++
        (wireName labels ++ (be16 ty ++ (be16 1 ++ if edns then optRecord dnssec rdata else [])))) =
      some ⟨id, 0x0100, [⟨labels, ty, 1⟩], [], [], if edns then [optRr dnssec rdata] else []⟩ := by
  refine parseMessage_query _ hid (by decide) hlabels hty (by cases edns <;> decide) ?_
  cases edns with
  | false => rfl
  | true => simp [parseMany, parseRecord_optRecord (hrdata rfl)]

/-- **A query message decodes to what was asked.** -/
theorem perfDnsBuildrequest_decodes {Rdf Tree : Type} (ldns : Option (Ldns Rdf Tree))
    (line : Bytes) (qid : UInt16) (edns dnssec : Bool) (ednsOption : Option PerfBuffer)
    (msg' : PerfBuffer)
    (hopt : ∀ o, ednsOption = some o → ∃ arg, perfEdnsParseoption arg = some o)
    (h : perfDnsBuildrequest ldns line qid edns dnssec false none ednsOption
      (PerfBuffer.init (if edns then maxEdnsPacket else maxUdpPacket)) = some (.success, msg')) :
    ∃ labels ty,
      -- what the bytes mean
      parseMessage msg'.base = some
        { id := qid.toNat, flags := 0x0100, questions := [⟨labels, ty, 1⟩], answers := [],
          authority := [],
          additional := if edns then [optRr dnssec (ednsOption.elim [] (·.base))] else [] } ∧
      -- where the name and the type come from
      (∃ m m₁ m₂, m.base.length = 12 ∧
        perfDnameFromstring (domainToken line) m = some (.success, m₁) ∧
        m₁.base = m.base ++ wireName labels ∧
        perfQtypeFromstring (qtypeStr line) (qtypeLen line) m₁ = some (.success, m₂) ∧
        m₂.base = m₁.base ++ be16 ty) ∧
      -- what the options of the OPT record are
      (∀ o, ednsOption = some o → edns → ∃ code data, code < 65536 ∧ data.length < 65536 ∧
        o.base = be16 code ++ be16 data.length ++ data) := by
  obtain ⟨labels, ty, hlabels, hty, hrdata, hbytes, hspelled⟩ := perfDnsBuildrequest_bytes h
  refine ⟨labels, ty, ?_, hspelled, ?_⟩
  · rw [hbytes]
    exact parseMessage_bytes dnssec qid.toNat_lt hlabels hty hrdata
  · rintro o rfl rfl
    obtain ⟨arg, harg⟩ := hopt o rfl
    obtain ⟨code, data, hcode, hbase⟩ := perfEdnsParseoption_base harg
    refine ⟨code, data, hcode, lt_of_le_of_lt ?_ (hrdata rfl), hbase⟩
    change data.length ≤ o.base.length
    rw [hbase, List.length_append]
    omega

/-- The query `a. A` with the option `10:ff` and the DO bit. -/
theorem decodes_query_with_option :
    ∃ labels ty,
      parseMessage
          (((PerfBuffer.init maxEdnsPacket).push
            [0, 7, 1, 0, 0, 1, 0, 0, 0, 0, 0, 1, 1, 97, 0, 0, 1, 0, 1,
              0, 0, 41, 16, 0, 0, 0, 128, 0, 0, 5, 0, 10, 0, 1, 255]).base) = some
        { id := 7, flags := 0x0100, questions := [⟨labels, ty, 1⟩], answers := [],
          authority := [], additional := [optRr true [0, 10, 0, 1, 255]] } := by
  obtain ⟨labels, ty, hparse, -, -⟩ :=
    perfDnsBuildrequest_decodes (none : Option (Ldns Unit Unit)) (ascii "a. A") 7 true true
      (some ((PerfBuffer.init 5).push [0, 10, 0, 1, 255]))
      ((PerfBuffer.init maxEdnsPacket).push
        [0, 7, 1, 0, 0, 1, 0, 0, 0, 0, 0, 1, 1, 97, 0, 0, 1, 0, 1,
          0, 0, 41, 16, 0, 0, 0, 128, 0, 0, 5, 0, 10, 0, 1, 255])
      (by
        rintro o ho
        obtain rfl := Option.some.inj ho
        exact ⟨ascii "10:ff", by decide⟩)
      (by decide)
  exact ⟨labels, ty, hparse⟩

end Dnsperf.Dns
