import Dnsperf.Buffer
import Dnsperf.Lib.CString

/-!
# Dnsperf.Dns.Dname

`perf_dname_fromstring` (`dns.c`): a domain name in presentation format, written
to a buffer in wire format.

Each label is scanned twice. The first pass (`countLabel`) checks the escapes,
counts the label's bytes and stops at an unescaped dot; the second
(`copyQuoted`, only when the label had an escape) undoes the escapes while it
copies. The two passes read the escapes separately, and the second one reads
`\DDD` through `strtol` — in base **7**.
-/

namespace Dnsperf.Dns

open Dnsperf.Lib

/-- `'\\'`. -/
def backslash : UInt8 := 92

/-- `'.'`. -/
def dot : UInt8 := 46

/-- The counting pass over one label: its length in bytes and whether an escape
was seen. `none` is `PERF_R_FAILURE`: an escape that is cut off, or a digit after
the backslash that does not start three digits. -/
def countLabel (labelLen : Nat) (isQuoted : Bool) : Bytes → Option (Nat × Bool)
  | [] => some (labelLen, isQuoted)
  | c :: rest =>
      if c = backslash then
        match rest with
        | [] => none
        | d :: rest =>
            if isdigit d then
              match rest with
              | [] => none
              | d' :: rest =>
                  if isdigit d' then
                    match rest with
                    | [] => none
                    | d'' :: rest =>
                        if isdigit d'' then countLabel (labelLen + 1) true rest else none
                  else none
            else countLabel (labelLen + 1) true rest
      else if c = dot then some (labelLen, isQuoted)
      else countLabel (labelLen + 1) isQuoted rest

/-- The copying pass over a label with escapes: the result, the text from the
terminating dot on, and the target. `none` is a failed space assertion, or a read
past the text, which the counting pass rules out. -/
def copyQuoted : Bytes → PerfBuffer → Option (PerfResult × Bytes × PerfBuffer)
  | [], target => some (.success, [], target)
  | c :: rest, target =>
      if c = backslash then
        match rest with
        | [] => none
        | d :: rest =>
            if isdigit d then
              match rest with
              | d' :: d'' :: rest =>
                  let v := strtol 7 [d, d', d'']
                  if v < 0 ∨ 255 < v then some (.failure, rest, target)
                  else do
                    let target ← target.putuint8 v.toNat
                    copyQuoted rest target
              | _ => none
            else do
              let target ← target.putmem [d]
              copyQuoted rest target
      else if c = dot then some (.success, c :: rest, target)
      else do
        let target ← target.putmem [c]
        copyQuoted rest target

/-- One label's length byte and bytes, and the text from the dot after it on. -/
def copyLabel (str : Bytes) (labelLen : Nat) (isQuoted : Bool) (target : PerfBuffer) :
    Option (PerfResult × Bytes × PerfBuffer) := do
  let target ← target.putuint8 labelLen
  if isQuoted then copyQuoted str target
  else do
    let target ← target.putmem (str.take labelLen)
    some (.success, str.drop labelLen, target)

/-- The `while (len)` loop, with what is left of the text, of the 255 bytes a
name may take, and whether the text is still at its start. Every round but the
last consumes a label and a dot, so `len + 1` rounds are enough. -/
def dnameLoop : Nat → Bool → Int → Bytes → PerfBuffer → Option (PerfResult × PerfBuffer)
  | 0, _, _, _, _ => none
  | fuel + 1, atStart, max, str, target =>
      if str = [] then some (.success, target)
      else
        match countLabel 0 false str with
        | none => some (.failure, target)
        | some (labelLen, isQuoted) =>
            if labelLen = 0 then
              -- just a dot: fine only as the whole text
              if 1 < str.length then some (.failure, target)
              else if !atStart then some (.failure, target)
              else do
                let target ← target.putuint8 0
                some (.success, target)
            else if 63 < labelLen then some (.failure, target)
            else if max - (labelLen + 1) < 0 then some (.failure, target)
            else do
              let (result, rest, target) ← copyLabel str labelLen isQuoted target
              if result ≠ .success then some (result, target)
              else if rest.length < 2 then do
                -- last label, with or without its dot
                let target ← target.putuint8 0
                some (.success, target)
              else dnameLoop fuel false (max - (labelLen + 1)) rest.tail target

/-- `perf_dname_fromstring`. -/
def perfDnameFromstring (str : Bytes) (target : PerfBuffer) : Option (PerfResult × PerfBuffer) :=
  if target.availablelength < str.length then some (.nospace, target)
  else dnameLoop (str.length + 1) true 255 str target

end Dnsperf.Dns
