import Dnsperf.Buffer
import Dnsperf.Lib.CString

/-!
# Dnsperf.Dns.Qtype

The query type table of `qtype.c` and `perf_qtype_fromstring` (`dns.c`).
-/

namespace Dnsperf.Dns

open Dnsperf.Lib

/-- `qtype_table`, without its terminating entry. -/
def qtypeTable : List (String × Nat) :=
  [("A", 1), ("NS", 2), ("MD", 3), ("MF", 4), ("CNAME", 5), ("SOA", 6), ("MB", 7), ("MG", 8),
   ("MR", 9), ("NULL", 10), ("WKS", 11), ("PTR", 12), ("HINFO", 13), ("MINFO", 14), ("MX", 15),
   ("TXT", 16), ("RP", 17), ("AFSDB", 18), ("X25", 19), ("ISDN", 20), ("RT", 21), ("NSAP", 22),
   ("NSAP-PTR", 23), ("SIG", 24), ("KEY", 25), ("PX", 26), ("GPOS", 27), ("AAAA", 28),
   ("LOC", 29), ("NXT", 30), ("EID", 31), ("NIMLOC", 32), ("SRV", 33), ("ATMA", 34),
   ("NAPTR", 35), ("KX", 36), ("CERT", 37), ("A6", 38), ("DNAME", 39), ("SINK", 40), ("OPT", 41),
   ("APL", 42), ("DS", 43), ("SSHFP", 44), ("IPSECKEY", 45), ("RRSIG", 46), ("NSEC", 47),
   ("DNSKEY", 48), ("DHCID", 49), ("NSEC3", 50), ("NSEC3PARAM", 51), ("TLSA", 52), ("SMIMEA", 53),
   ("HIP", 55), ("NINFO", 56), ("RKEY", 57), ("TALINK", 58), ("CDS", 59), ("CDNSKEY", 60),
   ("OPENPGPKEY", 61), ("CSYNC", 62), ("ZONEMD", 63), ("SVCB", 64), ("HTTPS", 65), ("SPF", 99),
   ("UINFO", 100), ("UID", 101), ("GID", 102), ("UNSPEC", 103), ("NID", 104), ("L32", 105),
   ("L64", 106), ("LP", 107), ("EUI48", 108), ("EUI64", 109), ("TKEY", 249), ("TSIG", 250),
   ("IXFR", 251), ("AXFR", 252), ("MAILB", 253), ("MAILA", 254), ("ANY", 255), ("URI", 256),
   ("CAA", 257), ("AVC", 258), ("DOA", 259), ("AMTRELAY", 260), ("TA", 32768), ("DLV", 32769)]

/-- `perf_qtype_fromstring`. The text is the rest of the line from the token on;
`len` is the token's length. The `TYPE` form reads its number past `len` if
digits go on, and then fails because the number does not end there; the table
look-up compares no more than `len` characters. -/
def perfQtypeFromstring (str : Bytes) (len : Nat) (target : PerfBuffer) :
    Option (PerfResult × PerfBuffer) :=
  if 4 < len && strncasecmpEq 4 str (ascii "TYPE") then
    let (u, stop) := strtoul 10 (str.drop 4)
    if 4 + stop ≠ len ∨ u = ulongMax ∨ 65535 < u then some (.failure, target)
    else do
      let target ← target.putuint16 u
      some (.success, target)
  else
    match qtypeTable.find? (fun q => strncasecmpEq len (ascii q.1) str) with
    | some q => do
        let target ← target.putuint16 q.2
        some (.success, target)
    | none => some (.failure, target)

theorem perfQtypeFromstring_success {str : Bytes} {len : Nat} {t t' : PerfBuffer}
    (h : perfQtypeFromstring str len t = some (.success, t')) :
    ∃ ty, ty < 65536 ∧ t'.base = t.base ++ be16 ty ∧ t'.length = t.length := by
  have htable : ∀ q ∈ qtypeTable, q.2 < 65536 := by decide
  unfold perfQtypeFromstring at h
  split at h
  · simp only at h
    split at h
    · simp at h
    · rename_i hu
      obtain ⟨t₁, h₁, h₂⟩ := Option.bind_eq_some_iff.mp h
      obtain rfl : t₁ = t' := by simpa using h₂
      obtain ⟨-, hbase, hlen⟩ := PerfBuffer.putmem_eq_some.mp h₁
      exact ⟨_, by omega, hbase, hlen⟩
  · split at h
    · rename_i q hq
      obtain ⟨t₁, h₁, h₂⟩ := Option.bind_eq_some_iff.mp h
      obtain rfl : t₁ = t' := by simpa using h₂
      obtain ⟨-, hbase, hlen⟩ := PerfBuffer.putmem_eq_some.mp h₁
      exact ⟨_, htable q (List.mem_of_find?_eq_some hq), hbase, hlen⟩
    · simp at h

end Dnsperf.Dns
