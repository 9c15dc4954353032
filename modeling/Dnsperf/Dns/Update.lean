import Dnsperf.Buffer
import Dnsperf.Lib.CString

/-!
# Dnsperf.Dns.Update

`read_update_line` and `build_update` (`dns.c`): a dynamic update message from a
record of NUL-terminated lines — the zone, then one command a line, then `send`.

Parsing names and resource records and writing them in wire format is done by
ldns, which is not part of this program: `Ldns` collects the calls the two
functions make. A call that can fail answers `none` on failure. The two writers
answer the bytes they append to the message and the new compression state.

**ldns need not answer the same call the same way twice**: a call may fail for want of memory, and
succeed the next time. `build_update` therefore takes the calls for the zone and those for every
line (`LineCalls`) from an `Ldns` of their own. No round makes the same call twice, so these are
all the ways in which the calls can come out.
-/

namespace Dnsperf.Dns

open Dnsperf.Lib

/-- `WHITESPACE`. -/
def whitespace : Bytes := [32, 9, 10]

/-- `ldns_rr`, with what the two functions set and read. -/
structure LdnsRr (Rdf : Type) where
  owner : Option Rdf
  ttl : Nat
  type : Nat
  cls : Nat
  rdata : List Rdf
  deriving DecidableEq

/-- The ldns calls. `Rdf` is a parsed name or data field, `Tree` the table of names
already written (for compression). -/
structure Ldns (Rdf Tree : Type) where
  /-- `ldns_rdf_new_frm_str(LDNS_RDF_TYPE_DNAME, str)`. -/
  rdfNewFrmStr : Bytes → Option Rdf
  /-- `ldns_dname_new_frm_str`. -/
  dnameNewFrmStr : Bytes → Option Rdf
  /-- `ldns_dname_str_absolute`. -/
  dnameStrAbsolute : Bytes → Bool
  /-- `ldns_dname_cat`. -/
  dnameCat : Rdf → Rdf → Option Rdf
  /-- `ldns_get_rr_type_by_name`; `0` for an unknown name. -/
  getRrTypeByName : Bytes → Nat
  /-- `ldns_rr_new_frm_str(&rr, str, 0, origin, 0)`. -/
  rrNewFrmStr : Bytes → Rdf → Option (LdnsRr Rdf)
  /-- `ldns_rbtree_init`. -/
  rbtreeInit : Tree
  /-- `ldns_dname2buffer_wire_compress`: the bytes appended to the message so far. -/
  dname2bufferWireCompress : Bytes → Tree → Rdf → Option (Bytes × Tree)
  /-- `ldns_rr2buffer_wire_compress`: the one record appended to the message so far. -/
  rr2bufferWireCompress : Bytes → Tree → LdnsRr Rdf → Option (Bytes × Tree)

/-- `LDNS_RR_TYPE_ANY`. -/
def rrTypeAny : Nat := 255
/-- `LDNS_RR_CLASS_IN`. -/
def rrClassIn : Nat := 1
/-- `LDNS_RR_CLASS_NONE`. -/
def rrClassNone : Nat := 254
/-- `LDNS_RR_CLASS_ANY`. -/
def rrClassAny : Nat := 255

/-- `ldns_rr_new` as `build_update` initialises it. -/
def rrNew (Rdf : Type) : LdnsRr Rdf :=
  { owner := none, ttl := 0, type := rrTypeAny, cls := rrClassIn, rdata := [] }

section

variable {Rdf Tree : Type} (ldns : Ldns Rdf Tree)

/-- What the end of `read_update_line` does with the text after the type. -/
def readRdata (str str2 : Bytes) (origin : Rdf) (wantRdata needRdata : Bool) (rr : LdnsRr Rdf) :
    PerfResult × LdnsRr Rdf × Option String :=
  if !wantRdata then (.success, rr, none)
  else if str.headD 0 = 0 then
    if !needRdata then (.success, rr, none) else (.invalidupdate, rr, some "RDATA required")
  else
    match ldns.rrNewFrmStr str2 origin with
    | none => (.invalidupdate, rr, some "invalid RDATA or out of memory")
    | some rr2 => (.success, { rr2 with ttl := rr.ttl }, none)

/-- What `read_update_line` does from the type on. -/
def readType (str str2 : Bytes) (origin : Rdf) (needType wantRdata needRdata : Bool)
    (rr : LdnsRr Rdf) : PerfResult × LdnsRr Rdf × Option String :=
  let len := strcspn str whitespace
  if len = 0 then
    if !needType then (.success, rr, none) else (.invalidupdate, rr, some "TYPE required")
  else if 255 < len then (.nospace, rr, some "TYPE string too large")
  else
    let type := ldns.getRrTypeByName (str.take len)
    if type = 0 then (.invalidupdate, rr, some "TYPE invalid")
    else
      readRdata ldns ((str.drop len).dropWhile isspace) str2 origin wantRdata needRdata
        { rr with type := type }

/-- `read_update_line`: the result, the record and `errstr`. -/
def readUpdateLine (str : Bytes) (origin : Rdf) (wantTtl needType wantRdata needRdata : Bool)
    (rr : LdnsRr Rdf) : PerfResult × LdnsRr Rdf × Option String :=
  let str := str.dropWhile isspace
  let str2 := str
  let len := strcspn str whitespace
  if 255 < len then (.nospace, rr, some "domain name too large")
  else
    let tmp := str.take len
    match ldns.dnameNewFrmStr tmp with
    | none => (.failure, rr, some "invalid name or out of memory")
    | some owner =>
        match (if !ldns.dnameStrAbsolute tmp then ldns.dnameCat owner origin else some owner) with
        | none => (.failure, { rr with owner := some owner }, none)
        | some owner =>
            let rr := { rr with owner := some owner }
            let str := (str.drop len).dropWhile isspace
            if wantTtl then
              let len := strcspn str whitespace
              if 255 < len then (.nospace, rr, some "TTL string too large")
              else
                let (u, stop) := strtoul 10 (str.take len)
                if stop < len ∨ u = ulongMax then (.invalidupdate, rr, some "TTL invalid")
                else
                  readType ldns ((str.drop len).dropWhile isspace) str2 origin needType wantRdata
                    needRdata { rr with ttl := u % 2 ^ 32 }
            else readType ldns str str2 origin needType wantRdata needRdata rr

/-- `token_equals`. -/
def tokenEquals (token : Bytes) (str : String) : Bool :=
  (ascii str).length == token.length && strncasecmpEq token.length (ascii str) token

/-- The command word of a line. -/
def commandToken (line : Bytes) : Bytes := line.take (strcspn line whitespace)

/-- One command line: the result, the record with its class, and `is_update`. An
unknown command word is `PERF_R_FAILURE`. -/
def readCommand (line : Bytes) (origin : Rdf) : PerfResult × LdnsRr Rdf × Bool :=
  let token := commandToken line
  let str := line.drop token.length
  let rr := rrNew Rdf
  if tokenEquals token "add" then
    let (result, rr, _) := readUpdateLine ldns str origin true true true true rr
    (result, { rr with cls := rrClassIn }, true)
  else if tokenEquals token "delete" then
    let (result, rr, _) := readUpdateLine ldns str origin false false true false rr
    (result, { rr with cls := if rr.rdata.length ≠ 0 then rrClassNone else rrClassAny }, true)
  else if tokenEquals token "require" then
    let (result, rr, _) := readUpdateLine ldns str origin false false true false rr
    (result, { rr with cls := if rr.rdata.length ≠ 0 then rrClassIn else rrClassAny }, false)
  else if tokenEquals token "prohibit" then
    let (result, rr, _) := readUpdateLine ldns str origin false false false false rr
    (result, { rr with cls := rrClassNone }, false)
  else (.failure, rr, false)

/-- How the command loop of `build_update` ended: at the `send` line with the
message and the two counters, or early with the result code it returns. -/
inductive LoopEnd
  | send (lmsg : Bytes) (updates prereqs : Nat)
  | done (result : PerfResult)
  deriving DecidableEq

end

section

variable {Rdf Tree : Type}

/-- The ldns calls made for each of the lines. -/
abbrev LineCalls (Rdf Tree : Type) := Nat → Ldns Rdf Tree

/-- The calls for the lines after the first one. -/
def LineCalls.tail (calls : LineCalls Rdf Tree) : LineCalls Rdf Tree := fun k => calls (k + 1)

/-- The command loop. `input` is the record from the current line on; each round
first moves to the next line. The round that fails to write a record leaves with
`result` as `read_update_line` set it. -/
def commandLoopOf (origin : Rdf) :
    Nat → LineCalls Rdf Tree → Bytes → Bytes → Tree → Nat → Nat → Option LoopEnd
  | 0, _, _, _, _, _, _ => none
  | fuel + 1, calls, input, lmsg, tree, updates, prereqs =>
      let input := input.drop ((cstr input).length + 1)
      if input = [] then some (.done .failure) -- incomplete update
      else
        let line := cstr input
        if tokenEquals (commandToken line) "send" then some (.send lmsg updates prereqs)
        else
          let (result, rr, isUpdate) := readCommand (calls 0) line origin
          if result ≠ .success then some (.done result)
          -- prereqs must precede updates
          else if !isUpdate && 0 < updates then some (.done .failure)
          else
            match (calls 0).rr2bufferWireCompress lmsg tree rr with
            | none => some (.done result)
            | some (bytes, tree) =>
                if isUpdate then
                  commandLoopOf origin fuel calls.tail input (lmsg ++ bytes) tree (updates + 1)
                    prereqs
                else
                  commandLoopOf origin fuel calls.tail input (lmsg ++ bytes) tree updates
                    (prereqs + 1)

/-- `build_update`, with the ldns calls for the zone and those for each command line. The message
is copied out of ldns's buffer only at the end, and only then are the two counts written, each
into one byte of the header. -/
def buildUpdateOf (zoneCalls : Ldns Rdf Tree) (calls : LineCalls Rdf Tree) (record : Bytes)
    (msg : PerfBuffer) : Option (PerfResult × PerfBuffer) :=
  match zoneCalls.rdfNewFrmStr (cstr record) with
  | none => some (.failure, msg)
  | some origin =>
      match zoneCalls.dname2bufferWireCompress msg.base zoneCalls.rbtreeInit origin with
      | none => some (.failure, msg)
      | some (zone, tree) =>
          -- the zone section: name, SOA, IN
          let lmsg := msg.base ++ zone ++ be16 6 ++ be16 1
          match commandLoopOf origin (record.length + 1) calls record lmsg tree 0 0 with
          | none => none
          | some (.done result) => some (result, msg)
          | some (.send lmsg updates prereqs) =>
              if msg.availablelength < lmsg.length - msg.usedlength then some (.nospace, msg)
              else do
                let msg ← msg.putmem (lmsg.drop msg.usedlength)
                some (.success, (msg.modify 7 (fun _ => UInt8.ofNat prereqs)).modify 9
                  (fun _ => UInt8.ofNat updates))

/-- `build_update`, where ldns always gives the same answer to the same call. -/
def buildUpdate (ldns : Ldns Rdf Tree) (record : Bytes) (msg : PerfBuffer) :
    Option (PerfResult × PerfBuffer) :=
  buildUpdateOf ldns (fun _ => ldns) record msg

end

end Dnsperf.Dns
