import Dnsperf.Buffer
import Dnsperf.Lib.CString

/-!
# Dnsperf.Dns.Edns

`perf_edns_parseoption` and `perf_add_edns` (`edns.c`).
-/

namespace Dnsperf.Dns

open Dnsperf.Lib

/-- `MAX_EDNS_PACKET`. -/
def maxEdnsPacket : Nat := 4096

/-- `EDNSLEN`: an OPT record without options. -/
def ednsLen : Nat := 11

/-- The loop over the value's hexadecimal digit pairs. `none`: the process ends,
on a pair that is no number or on a failed space assertion. -/
def parseHexPairs : Bytes → PerfBuffer → Option PerfBuffer
  | a :: b :: value, buffer =>
      let (u, stop) := strtoul 16 [a, b]
      if stop < 2 ∨ u = ulongMax then none
      else do
        let buffer ← buffer.putuint8 u
        parseHexPairs value buffer
  | _, buffer => some buffer

/-- `perf_edns_parseoption`: the option buffer, or `none` when the process ends
with a usage error. The length field is reserved before the data is known and
filled in last. -/
def perfEdnsParseoption (arg : Bytes) : Option PerfBuffer :=
  let copy := cstr arg
  let code := copy.takeWhile (· != 58)
  match copy.dropWhile (· != 58) with
  | [] => none
  | _ :: value =>
      if value.length = 0 then none
      else if value.length % 2 = 1 then none
      else
        let (u, stop) := strtoul 10 code
        if stop < code.length ∨ u = ulongMax then none
        else do
          let buffer ← (PerfBuffer.init (value.length / 2 + 4)).putuint16 u
          let buffer ← buffer.putmem [0, 0]
          let buffer ← parseHexPairs value buffer
          let dataLen := buffer.usedlength - 4
          some ((buffer.modify 2 (fun _ => UInt8.ofNat (dataLen / 256))).modify 3
            (fun _ => UInt8.ofNat dataLen))

/-- `perf_add_edns`: append an OPT record and count it in the header. -/
def perfAddEdns (packet : PerfBuffer) (dnssec : Bool) (option : Option PerfBuffer) :
    Option (PerfResult × PerfBuffer) :=
  let optionLength := match option with
    | some o => o.usedlength
    | none => 0
  if packet.availablelength < ednsLen + optionLength then some (.nospace, packet)
  else do
    let packet ← packet.putuint8 0 -- root name
    let packet ← packet.putuint16 41 -- OPT record
    let packet ← packet.putuint16 maxEdnsPacket -- class
    let packet ← packet.putuint8 0 -- xrcode
    let packet ← packet.putuint8 0 -- version
    let packet ← packet.putuint16 (if dnssec then 0x8000 else 0) -- flags
    let packet ← packet.putuint16 optionLength -- rdlen
    let packet ← match option with
      | some o => packet.putmem o.base
      | none => some packet
    some (.success, packet.modify 11 (· + 1))

/-! ### The option buffer -/

theorem parseHexPairs_base : ∀ {value : Bytes} {b b' : PerfBuffer},
    parseHexPairs value b = some b' → ∃ data, b'.base = b.base ++ data ∧ b'.length = b.length
  | a :: c :: value, b, b', h => by
      rw [parseHexPairs] at h
      simp only at h
      split at h
      · simp at h
      · obtain ⟨b₁, h₁, h₂⟩ := Option.bind_eq_some_iff.mp h
        obtain ⟨-, hbase, hlen⟩ := PerfBuffer.putmem_eq_some.mp h₁
        obtain ⟨data, hd, hl⟩ := parseHexPairs_base h₂
        exact ⟨_, by rw [hd, hbase, List.append_assoc], hl.trans hlen⟩
  | [], b, b', h => by
      obtain rfl : b = b' := by simpa [parseHexPairs] using h
      exact ⟨[], by simp, rfl⟩
  | [_], b, b', h => by
      obtain rfl : b = b' := by simpa [parseHexPairs] using h
      exact ⟨[], by simp, rfl⟩

theorem be16_mod (n : Nat) : be16 (n % 65536) = be16 n := by
  have hhigh : UInt8.ofNat (n % 65536 / 256) = UInt8.ofNat (n / 256) := by
    apply UInt8.toNat_inj.mp
    simp only [UInt8.toNat_ofNat']
    omega
  have hlow : UInt8.ofNat (n % 65536) = UInt8.ofNat n := by
    apply UInt8.toNat_inj.mp
    simp only [UInt8.toNat_ofNat']
    omega
  rw [be16, be16, hhigh, hlow]

theorem modify_placeholder {b : PerfBuffer} {code : Nat} {data : Bytes}
    (hb : b.base = be16 code ++ ([0, 0] ++ data)) :
    ((b.modify 2 fun _ => UInt8.ofNat ((b.usedlength - 4) / 256)).modify 3
      fun _ => UInt8.ofNat (b.usedlength - 4)).base = be16 code ++ be16 data.length ++ data := by
  simp only [PerfBuffer.modify, PerfBuffer.usedlength, hb, be16]
  simp [List.modify]

/-- **Shape of a parsed option**: a 16-bit code, the data's length (its low 16
bits) and the data. -/
theorem perfEdnsParseoption_base {arg : Bytes} {o : PerfBuffer}
    (h : perfEdnsParseoption arg = some o) :
    ∃ code data, code < 65536 ∧ o.base = be16 code ++ be16 data.length ++ data := by
  unfold perfEdnsParseoption at h
  simp only at h
  split at h
  · simp at h
  split at h
  · simp at h
  split at h
  · simp at h
  split at h
  · simp at h
  obtain ⟨b₁, h₁, h⟩ := Option.bind_eq_some_iff.mp h
  obtain ⟨b₂, h₂, h⟩ := Option.bind_eq_some_iff.mp h
  obtain ⟨b₃, h₃, h⟩ := Option.bind_eq_some_iff.mp h
  obtain ⟨-, hbase₁, -⟩ := PerfBuffer.putmem_eq_some.mp h₁
  obtain ⟨-, hbase₂, -⟩ := PerfBuffer.putmem_eq_some.mp h₂
  obtain ⟨data, hbase₃, -⟩ := parseHexPairs_base h₃
  rw [hbase₂, hbase₁, List.append_assoc, PerfBuffer.init_base, List.nil_append,
    ← be16_mod] at hbase₃
  obtain rfl := Option.some.inj h
  exact ⟨_, data, Nat.mod_lt _ (by omega), modify_placeholder hbase₃⟩

/-! ### The OPT record -/

/-- The bytes of the OPT record `perf_add_edns` writes. -/
def optRecord (dnssec : Bool) (rdata : Bytes) : Bytes :=
  0 :: (be16 41 ++ be16 maxEdnsPacket ++ [0, 0] ++ be16 (if dnssec then 0x8000 else 0) ++
    be16 rdata.length ++ rdata)

/-- The record is written in one piece, or not at all. -/
theorem perfAddEdns_eq (packet : PerfBuffer) (dnssec : Bool) (option : Option PerfBuffer) :
    perfAddEdns packet dnssec option =
      let rdata := option.elim [] PerfBuffer.base
      if packet.availablelength < ednsLen + rdata.length then some (.nospace, packet)
      else (packet.putmem (optRecord dnssec rdata)).bind
        (fun packet => some (.success, packet.modify 11 (· + 1))) := by
  cases option with
  | none =>
      simp only [perfAddEdns, PerfBuffer.putuint8, PerfBuffer.putuint16, Option.bind_eq_bind,
        PerfBuffer.putmem_bind_putmem, Option.bind_some]
      simp [optRecord]
  | some o =>
      simp only [perfAddEdns, PerfBuffer.putuint8, PerfBuffer.putuint16, Option.bind_eq_bind,
        PerfBuffer.putmem_bind_putmem]
      simp only [optRecord, PerfBuffer.usedlength, Option.elim, List.append_assoc,
        List.cons_append, List.nil_append]
      rfl

theorem perfAddEdns_success {packet packet' : PerfBuffer} {dnssec : Bool}
    {option : Option PerfBuffer} (h : perfAddEdns packet dnssec option = some (.success, packet')) :
    packet'.base =
        (packet.base ++ optRecord dnssec (option.elim [] PerfBuffer.base)).modify 11 (· + 1) ∧
      packet'.length = packet.length ∧
      (option.elim [] PerfBuffer.base).length + ednsLen ≤ packet.length := by
  rw [perfAddEdns_eq] at h
  simp only at h
  split at h
  · simp at h
  · rename_i hav
    obtain ⟨p₁, h₁, h₂⟩ := Option.bind_eq_some_iff.mp h
    obtain ⟨-, hbase, hlen⟩ := PerfBuffer.putmem_eq_some.mp h₁
    obtain rfl : p₁.modify 11 (· + 1) = packet' := by simpa using h₂
    refine ⟨by rw [PerfBuffer.modify_base, hbase], hlen, ?_⟩
    simp only [PerfBuffer.availablelength] at hav
    omega

end Dnsperf.Dns
