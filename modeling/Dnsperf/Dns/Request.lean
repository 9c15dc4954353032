import Dnsperf.Dns.Dname
import Dnsperf.Dns.Qtype
import Dnsperf.Dns.Edns
import Dnsperf.Dns.Update

/-!
# Dnsperf.Dns.Request

`build_query` and `perf_dns_buildrequest` (`dns.c`): the message sent for one
input line or update record.
-/

namespace Dnsperf.Dns

open Dnsperf.Lib

/-- `MAX_UDP_PACKET`. -/
def maxUdpPacket : Nat := 512

/-- The name token of a query line: up to the first white space. -/
def domainToken (line : Bytes) : Bytes := line.take (strcspn line whitespace)

/-- A query line from its type token on. -/
def qtypeStr (line : Bytes) : Bytes := (line.drop (strcspn line whitespace)).dropWhile isspace

/-- The length of the type token. -/
def qtypeLen (line : Bytes) : Nat := strcspn (qtypeStr line) whitespace

/-- `build_query`: the question section. -/
def buildQuery (line : Bytes) (msg : PerfBuffer) : Option (PerfResult × PerfBuffer) :=
  if strcspn line whitespace = 0 then some (.failure, msg)
  else do
    let (result, msg) ← perfDnameFromstring (domainToken line) msg
    if result ≠ .success then some (result, msg)
    else if qtypeLen line = 0 then some (.failure, msg)
    else do
      let (result, msg) ← perfQtypeFromstring (qtypeStr line) (qtypeLen line) msg
      if result ≠ .success then some (result, msg)
      else do
        let msg ← msg.putuint16 1 -- class IN
        some (.success, msg)

/-- The header `perf_dns_buildrequest` writes first. -/
def putHeader (qid : UInt16) (isUpdate : Bool) (msg : PerfBuffer) : Option PerfBuffer := do
  let msg ← msg.putuint16 qid.toNat
  let msg ← msg.putuint16 (if isUpdate then 5 <<< 11 else 0x0100)
  let msg ← msg.putuint16 1 -- qdcount
  let msg ← msg.putuint16 0 -- ancount
  let msg ← msg.putuint16 0 -- aucount
  msg.putuint16 0 -- arcount

/-- `perf_dns_buildrequest`. `ldns` is `none` in a build without it; `tsig` is
`perf_add_tsig` with the key, if there is one. -/
def perfDnsBuildrequest {Rdf Tree : Type} (ldns : Option (Ldns Rdf Tree)) (record : Bytes)
    (qid : UInt16) (edns dnssec isUpdate : Bool)
    (tsig : Option (PerfBuffer → Option (PerfResult × PerfBuffer)))
    (ednsOption : Option PerfBuffer) (msg : PerfBuffer) : Option (PerfResult × PerfBuffer) := do
  let msg ← putHeader qid isUpdate msg
  let (result, msg) ←
    if isUpdate then
      match ldns with
      | some ldns => buildUpdate ldns record msg
      | none => some (.failure, msg)
    else buildQuery record msg
  let (result, msg) ←
    if result = .success ∧ edns then perfAddEdns msg dnssec ednsOption else some (result, msg)
  match tsig with
  | some addTsig => if result = .success then addTsig msg else some (result, msg)
  | none => some (result, msg)

end Dnsperf.Dns
