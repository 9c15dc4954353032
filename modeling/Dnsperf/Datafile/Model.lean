import Dnsperf.Buffer
import Dnsperf.Lib.CString

/-!
# Dnsperf.Datafile.Model

The input reader (`datafile.c`): a fixed buffer `databuf` refilled by `read_more`,
and on top of it a reader for text lines, one for binary records, and
`perf_datafile_next`, which strings several runs through the input together.

`databuf` is kept as its first `have` bytes. The byte after them is the NUL the
text reader puts there; no other byte beyond `have` is ever looked at. What the
operating system does is in `Source`: what successive `read`s deliver, and from
where reading goes on after each `lseek`.
-/

namespace Dnsperf.Datafile

open Dnsperf.Lib

/-- `perf_input_format_t`. -/
inductive PerfInputFormat
  | textQuery
  | textUpdate
  | tcpWireFormat
  deriving Repr, DecidableEq

/-- The file descriptor as the program sees it. -/
structure Source where
  /-- What the coming `read`s find: `none` is an error, `some bytes` the bytes that
  are there; after the last one, end of file. -/
  reads : List (Option Bytes)
  /-- What the `read`s find after each coming `lseek`; an `lseek` beyond the list
  fails. -/
  seeks : List (List (Option Bytes))
  /-- The results of the coming waits for input; beyond the list they succeed. -/
  waits : List PerfResult
  /-- The sizes passed to `read` so far. -/
  spaces : List Nat
  deriving DecidableEq

/-- `read(fd, buf, space)`: the bytes delivered, `none` on error. A `read` takes no
more than it has space for and leaves the rest for the next one. -/
def Source.read (s : Source) (space : Nat) : Option Bytes × Source :=
  let s := { s with spaces := s.spaces ++ [space] }
  match s.reads with
  | [] => (some [], s)
  | none :: reads => (none, { s with reads := reads })
  | some bytes :: reads =>
      if space < bytes.length then
        (some (bytes.take space), { s with reads := some (bytes.drop space) :: reads })
      else (some bytes, { s with reads := reads })

/-- The number of bytes still to be read. -/
def Source.pending (s : Source) : Nat := (s.reads.map (fun r => (r.getD []).length)).sum

/-- The bytes of `databuf` that can be filled: all but the last one. -/
def dataSpace : Nat := 64 * 1024 + 2 - 1

/-- `struct perf_datafile`. -/
@[ext] structure PerfDatafile where
  /-- `pipe_fd >= 0`. -/
  hasPipe : Bool
  isFile : Bool
  size : Nat
  /-- `at`. -/
  atPos : Nat
  /-- `databuf[0 .. have)`. -/
  databuf : Bytes
  cached : Bool
  maxruns : Nat
  nruns : Nat
  readAny : Bool
  format : PerfInputFormat
  source : Source
  atPos_le : atPos ≤ databuf.length
  have_le : databuf.length ≤ dataSpace

namespace PerfDatafile

/-- `perf_datafile_open` on standard input (`file` is `none`) or on a regular file of
the given size, after `perf_datafile_setmaxruns`. -/
def perfDatafileOpen (file : Option Nat) (format : PerfInputFormat) (maxruns : Nat) (hasPipe : Bool)
    (source : Source) : PerfDatafile where
  hasPipe := hasPipe
  isFile := file.isSome
  size := file.getD 0
  atPos := 0
  databuf := []
  cached := false
  maxruns := maxruns
  nruns := 0
  readAny := false
  format := format
  source := source
  atPos_le := Nat.le_refl _
  have_le := Nat.zero_le _

/-- The bytes read but not yet consumed, `databuf[at .. have)`. -/
def rest (d : PerfDatafile) : Bytes := d.databuf.drop d.atPos

/-- `have - at`. -/
def nrem (d : PerfDatafile) : Nat := d.databuf.length - d.atPos

/-- `reopen_file`; `none` is the fatal `cannot reread input`. -/
def reopenFile (d : PerfDatafile) : Option PerfDatafile :=
  if d.cached then some { d with atPos := 0, atPos_le := Nat.zero_le _ }
  else
    match d.source.seeks with
    | [] => none
    | reads :: seeks =>
        some { d with
          atPos := 0
          databuf := []
          source := { d.source with reads := reads, seeks := seeks }
          atPos_le := Nat.le_refl _
          have_le := Nat.zero_le _ }

/-- How `read_more` makes room: what is left moves to the front. -/
def compact (d : PerfDatafile) : PerfDatafile :=
  if d.atPos ≠ 0 ∧ d.atPos < d.databuf.length then
    { d with
      databuf := d.databuf.drop d.atPos
      atPos := 0
      atPos_le := Nat.zero_le _
      have_le := le_trans (by simp) d.have_le }
  else if d.atPos = d.databuf.length then
    { d with databuf := [], atPos := 0, atPos_le := Nat.le_refl _, have_le := Nat.zero_le _ }
  else d

/-- `have += n`; what the buffer has no room for is cut, but `read` delivers no more
than that. -/
def append (d : PerfDatafile) (bytes : Bytes) : PerfDatafile :=
  { d with
    databuf := d.databuf ++ bytes.take (dataSpace - d.databuf.length)
    atPos_le := le_trans d.atPos_le (by simp)
    have_le := by
      have := d.have_le
      simp only [List.length_append, List.length_take]
      omega }

/-- `perf_os_waituntilreadable` on the input, if `read_more` calls it. -/
def waitReadable (d : PerfDatafile) : PerfResult × PerfDatafile :=
  if !d.isFile && d.hasPipe then
    match d.source.waits with
    | [] => (.success, d)
    | w :: waits => (w, { d with source := { d.source with waits := waits } })
  else (.success, d)

/-- What `read_more` does with the outcome of `read`. -/
def afterRead (d : PerfDatafile) : Option Bytes → PerfResult × PerfDatafile
  | none => (.failure, d)
  | some [] => (.eof, d)
  | some (b :: bytes) =>
      let d := d.append (b :: bytes)
      (.success, { d with cached := d.cached || (d.isFile && d.databuf.length == d.size) })

/-- `read_more`. -/
def readMore (d : PerfDatafile) : PerfResult × PerfDatafile :=
  let (result, d) := d.waitReadable
  if result ≠ .success then (result, d)
  else
    let d := d.compact
    -- leave space for \0 string termination at the end
    let (n, source) := d.source.read (dataSpace - d.databuf.length)
    { d with source := source }.afterRead n

/-- `at += n`. The callers never go past `have`. -/
def advance (d : PerfDatafile) (n : Nat) : PerfDatafile :=
  { d with
    atPos := min (d.atPos + n) d.databuf.length
    atPos_le := Nat.min_le_right _ _ }

/-! ### Binary records -/

/-- A refill loop of `read_one_blob`: read until `need` bytes are there. `onEnd` is
the result at the end of the input with that many bytes left. A round without end
adds a byte, so `need + 1` rounds are enough. -/
def fill : Nat → Nat → (Nat → PerfResult) → PerfDatafile → Option (PerfResult × PerfDatafile)
  | 0, _, _, _ => none
  | fuel + 1, need, onEnd, d =>
      if d.nrem < need then
        if d.cached then some (onEnd d.nrem, d)
        else
          match d.readMore with
          | (.success, d) => fill fuel need onEnd d
          | (.eof, d) => some (onEnd d.nrem, d)
          | (result, d) => some (result, d)
      else some (.success, d)

/-- `read_one_blob`. -/
def readOneBlob (d : PerfDatafile) (wire : PerfBuffer) :
    Option (PerfResult × PerfDatafile × PerfBuffer) := do
  let (result, d) ← fill 3 2 (fun nrem => if nrem = 0 then .eof else .invalidfile) d
  if result ≠ .success then some (result, d, wire)
  else
    let packetSize := ofBe16 (d.rest.getD 0 0) (d.rest.getD 1 0)
    let (result, d) ← fill (packetSize + 3) (2 + packetSize) (fun _ => .invalidfile) d
    if result ≠ .success then some (result, d, wire)
    else
      let wire ← wire.putmem ((d.rest.drop 2).take packetSize)
      some (.success, d.advance (2 + packetSize), wire)

/-! ### Text lines -/

/-- The loop of `read_one_line`: the line found, or the result it returns. `strcspn`
stops at a newline or at a NUL, and there is always a NUL at `have`. -/
def nextLine : Nat → PerfDatafile → Option (PerfDatafile × Except PerfResult Bytes)
  | 0, _ => none
  | fuel + 1, d =>
      let cur := d.rest
      let curlen := strcspn cur [10]
      let nrem := d.nrem
      -- Advance past the line; try again if it is empty or a comment.
      let found (d : PerfDatafile) :=
        let d := d.advance curlen
        let d := if d.atPos < d.databuf.length then d.advance 1 else d
        if 0 < curlen ∧ cur.headD 0 ≠ 59 then some (d, .ok (cur.take curlen))
        else nextLine fuel d
      if curlen = nrem then
        let (result, d) := if !d.cached then d.readMore else (.success, d)
        if result ≠ .success then some (d, .error result)
        else if d.nrem = 0 then some (d, .error .eof)
        else if nrem < d.nrem then nextLine fuel d
        else found d
      else found d

/-- `read_one_line`. A round either takes bytes out of the buffer or puts bytes into
it, which bounds their number. With no room in `lines` at all, `length - 1` wraps around
there and the assertion of `putmem` fails; here that of `putuint8` does. -/
def readOneLine (d : PerfDatafile) (lines : PerfBuffer) :
    Option (PerfResult × PerfDatafile × PerfBuffer) := do
  match ← nextLine (2 * d.source.pending + d.nrem + 1) d with
  | (d, .error result) => some (result, d, lines)
  | (d, .ok cur) =>
      let length := lines.availablelength
      let lines ← lines.putmem (cur.take (length - 1))
      let lines ← lines.putuint8 0
      some (.success, d, lines)

/-! ### Runs -/

/-- `readfunc`. -/
def readfunc (d : PerfDatafile) (lines : PerfBuffer) :
    Option (PerfResult × PerfDatafile × PerfBuffer) :=
  match d.format with
  | .textQuery | .textUpdate => d.readOneLine lines
  | .tcpWireFormat => d.readOneBlob lines

/-- The end of a run: the input is reopened unless it was the last one. `nruns` has 32 bits. -/
def endRun (d : PerfDatafile) : Option PerfDatafile :=
  let d := { d with nruns := (d.nruns + 1) % 2 ^ 32 }
  if d.maxruns ≠ d.nruns then d.reopenFile else some d

/-- The loop that collects the lines of an update up to `send`. It ends with `send`,
with an error, or at the end of the input; it adds a line each round, so the bytes
still to come bound it. -/
def updateLines : Nat → PerfDatafile → PerfBuffer → Option (PerfDatafile × PerfBuffer)
  | 0, _, _ => none
  | fuel + 1, d, lines => do
      let current := lines.usedlength
      let (result, d, lines) ← d.readfunc lines
      let d ← if result = .eof then d.endRun else some d
      if result ≠ .success then some (d, lines)
      else
        let line := cstr (lines.base.drop current)
        if line.length = 4 ∧ strncasecmpEq 4 line (ascii "send") then some (d, lines)
        else updateLines fuel d lines

/-- `perf_datafile_next`. -/
def perfDatafileNext (d : PerfDatafile) (lines : PerfBuffer) :
    Option (PerfResult × PerfDatafile × PerfBuffer) :=
  if 0 < d.maxruns ∧ d.maxruns = d.nruns then some (.eof, d, lines)
  else do
    let (result, d, lines) ← d.readfunc lines
    if result = .eof ∧ !d.readAny then some (.invalidfile, d, lines)
    else
      let (result, d, lines) ←
        if result = .eof then do
          let d' ← d.endRun
          if d'.maxruns ≠ d'.nruns then d'.readfunc lines else some (.eof, d', lines)
        else some (result, d, lines)
      if result ≠ .success then some (result, d, lines)
      else
        let d := { d with readAny := true }
        if d.format = .textUpdate then do
          let (d, lines) ← updateLines (d.source.pending + d.nrem + 1) d lines
          some (.success, d, lines)
        else some (.success, d, lines)

end PerfDatafile

end Dnsperf.Datafile
