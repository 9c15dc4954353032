import Dnsperf.Dns.Dname

/-!
# Dnsperf.Dns.Tsig

`perf_tsig_parsekey` and `perf_add_tsig` (`tsig.c`). OpenSSL comes in as two functions: the
base64 decoder, and the HMAC of a key. A digest fits `md[EVP_MAX_MD_SIZE]`, and a key's name
its `char name[256]`; both are part of the types.
-/

namespace Dnsperf.Dns

open Dnsperf.Lib

/-- What `EVP_DigestSignFinal` writes into `md[EVP_MAX_MD_SIZE]`. -/
abbrev Md : Type := { md : Bytes // md.length ≤ 64 }

/-- The algorithms of `perf_tsig_parsekey`. -/
inductive TsigAlg
  | hmacMd5
  | hmacSha1
  | hmacSha224
  | hmacSha256
  | hmacSha384
  | hmacSha512
  deriving Repr, DecidableEq

/-- `TSIG_HMACMD5_NAME` and so on. -/
def TsigAlg.name : TsigAlg → Bytes
  | .hmacMd5 => ascii "hmac-md5.sig-alg.reg.int"
  | .hmacSha1 => ascii "hmac-sha1"
  | .hmacSha224 => ascii "hmac-sha224"
  | .hmacSha256 => ascii "hmac-sha256"
  | .hmacSha384 => ascii "hmac-sha384"
  | .hmacSha512 => ascii "hmac-sha512"

theorem algName_length (alg : TsigAlg) : alg.name.length ≤ 24 := by
  cases alg <;> decide

/-- The texts that `perf_tsig_parsekey` compares with, in order. -/
def TsigAlg.table : List (String × TsigAlg) :=
  [("hmac-md5:", .hmacMd5), ("hmac-sha1:", .hmacSha1), ("hmac-sha224:", .hmacSha224),
    ("hmac-sha256:", .hmacSha256), ("hmac-sha384:", .hmacSha384), ("hmac-sha512:", .hmacSha512)]

/-- `perf_tsigkey_t`, with the digest context as the function it computes. -/
structure PerfTsigkey where
  name : Bytes
  alg : TsigAlg
  digest : Bytes → Md
  name_le : name.length ≤ 256

/-- The algorithm that `alg` starts with. -/
def parseAlg (alg : Bytes) : Option TsigAlg :=
  (TsigAlg.table.find? fun entry => strncasecmpEq entry.1.length alg (ascii entry.1)).map Prod.snd

/-- `decode64`, of a secret whose length was stored in an `int`. `EVP_DecodeUpdate` returns a
status and the bytes decoded, and anything but 0 counts as an error. `none` also where an
assertion fails: the length is 0, or negative and too much for `calloc`. -/
def decode64 (evpDecodeUpdate : Bytes → Int × Bytes) (base64 : Bytes) : Option Bytes :=
  let len := (base64.length : Int).bmod (2 ^ 32)
  if len ≤ 0 then none
  else
    let (ret, out) := evpDecodeUpdate (base64.take len.toNat)
    if ret ≠ 0 then none else some out

/-- The key of a name, an algorithm and a secret. -/
def setupKey (decode64 : Bytes → Option Bytes) (hmac : TsigAlg → Bytes → Bytes → Md)
    (alg : Option TsigAlg) (name secret : Bytes) : Option PerfTsigkey :=
  match alg with
  | none => none -- `invalid TSIG algorithm`
  | some alg =>
      if h : name.length ≤ 256 then
        if secret.length = 0 then none -- `secret empty`
        else
          match decode64 secret with
          | none => none -- `invalid base64 secret`
          | some key => some ⟨name.map tolower, alg, hmac alg key, by rwa [List.length_map]⟩
      else none -- `name too long`

/-- `perf_tsig_parsekey`: the key, or `none` when the process ends. -/
def perfTsigParsekey (decode64 : Bytes → Option Bytes) (hmac : TsigAlg → Bytes → Bytes → Md)
    (arg : Bytes) : Option PerfTsigkey :=
  let arg := cstr arg
  match arg.dropWhile (· != 58) with
  | [] => none -- `invalid TSIG [alg:]name:secret`
  | _ :: rest =>
      match rest.dropWhile (· != 58) with
      | [] => setupKey decode64 hmac (some .hmacMd5) (arg.takeWhile (· != 58)) rest
      | _ :: secret => setupKey decode64 hmac (parseAlg arg) (rest.takeWhile (· != 58)) secret

/-- What `perf_add_tsig` digests after the packet. `none` is a failed space assertion. -/
def digestRecord (now : UInt32) (key : PerfTsigkey) : Option (PerfResult × PerfBuffer) := do
  let (result, tmp) ← perfDnameFromstring key.name (PerfBuffer.init 512)
  if result ≠ .success then some (result, tmp)
  else do
    let tmp ← tmp.putuint16 255 -- class ANY
    let tmp ← tmp.putuint32 0 -- ttl
    let (result, tmp) ← perfDnameFromstring key.alg.name tmp
    if result ≠ .success then some (result, tmp)
    else do
      let tmp ← tmp.putuint16 0 -- time high
      let tmp ← tmp.putuint32 now.toNat -- time low
      let tmp ← tmp.putuint16 300 -- fudge
      let tmp ← tmp.putuint16 0 -- error
      let tmp ← tmp.putuint16 0 -- other length
      some (.success, tmp)

/-- The TSIG record, with the digest `md`. -/
def addRecord (now : UInt32) (key : PerfTsigkey) (md : Bytes) (packet : PerfBuffer) :
    Option (PerfResult × PerfBuffer) := do
  let rdlen := key.alg.name.length + 18 + md.length
  let (result, packet) ← perfDnameFromstring key.name packet
  if result ≠ .success then some (result, packet)
  else do
    let packet ← packet.putuint16 250 -- type TSIG
    let packet ← packet.putuint16 255 -- class ANY
    let packet ← packet.putuint32 0 -- ttl
    let packet ← packet.putuint16 rdlen -- rdlen
    let (result, packet) ← perfDnameFromstring key.alg.name packet
    if result ≠ .success then some (result, packet)
    else do
      let packet ← packet.putuint16 0 -- time high
      let packet ← packet.putuint32 now.toNat -- time low
      let packet ← packet.putuint16 300 -- fudge
      let packet ← packet.putuint16 md.length -- digest len
      let packet ← packet.putmem md -- digest
      let packet ← packet.putmem (packet.base.take 2) -- orig ID
      let packet ← packet.putuint16 0 -- error
      let packet ← packet.putuint16 0 -- other len
      some (.success, packet.modify 11 (· + 1))

theorem digestRecord_eq (now : UInt32) (key : PerfTsigkey) :
    digestRecord now key =
      (perfDnameFromstring key.name (PerfBuffer.init 512)).bind fun r =>
        if r.1 ≠ .success then some (r.1, r.2)
        else (r.2.putmem (be16 255 ++ be32 0)).bind fun tmp =>
          (perfDnameFromstring key.alg.name tmp).bind fun r =>
            if r.1 ≠ .success then some (r.1, r.2)
            else (r.2.putmem (be16 0 ++ (be32 now.toNat ++ (be16 300 ++ (be16 0 ++ be16 0))))).bind
              fun tmp => some (.success, tmp) := by
  simp only [digestRecord, PerfBuffer.putuint16, PerfBuffer.putuint32, Option.bind_eq_bind,
    PerfBuffer.putmem_bind_putmem]

theorem addRecord_eq (now : UInt32) (key : PerfTsigkey) (md : Bytes) (packet : PerfBuffer) :
    addRecord now key md packet =
      (perfDnameFromstring key.name packet).bind fun r =>
        if r.1 ≠ .success then some (r.1, r.2)
        else (r.2.putmem (be16 250 ++ (be16 255 ++ (be32 0 ++
            be16 (key.alg.name.length + 18 + md.length))))).bind fun packet =>
          (perfDnameFromstring key.alg.name packet).bind fun r =>
            if r.1 ≠ .success then some (r.1, r.2)
            else (r.2.putmem
                (be16 0 ++ (be32 now.toNat ++ (be16 300 ++ (be16 md.length ++ md))))).bind
              fun packet => (packet.putmem (packet.base.take 2 ++ (be16 0 ++ be16 0))).bind
                fun packet => some (.success, packet.modify 11 (· + 1)) := by
  simp only [addRecord, PerfBuffer.putuint16, PerfBuffer.putuint32, Option.bind_eq_bind,
    PerfBuffer.putmem_bind_putmem]

/-- `perf_add_tsig`, at the time `now`. -/
def perfAddTsig (now : UInt32) (key : PerfTsigkey) (packet : PerfBuffer) :
    Option (PerfResult × PerfBuffer) := do
  let (result, tmp) ← digestRecord now key
  if result ≠ .success then some (result, packet)
  else
    let md := (key.digest (packet.base ++ tmp.base)).val
    let rdlen := key.alg.name.length + 18 + md.length
    let totallen := key.name.length + 12 + rdlen
    if packet.availablelength < totallen then some (.nospace, packet)
    else addRecord now key md packet

end Dnsperf.Dns
