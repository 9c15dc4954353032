import Dnsperf.Dns.DnameTotal
import Dnsperf.Dns.RequestSound
import Dnsperf.Dns.Tsig

/-!
# Dnsperf.Dns.RequestTotal

**Building a query never trips a buffer assertion.** A name takes 256 bytes at most, and
two more than its text; type and class are four bytes. The checks of `perf_add_edns` and
`perf_add_tsig` are for all that they write: the latter counts, for each of its two names,
two bytes more than the text.
-/

namespace Dnsperf.Dns

open Dnsperf.Lib

/-- There is a result: no assertion has failed. -/
def Returns {α : Type} (outcome : Option (PerfResult × α)) : Prop :=
  ∃ result a, outcome = some (result, a)

theorem returns_some {α : Type} (result : PerfResult) (a : α) : Returns (some (result, a)) :=
  ⟨result, a, rfl⟩

theorem Writes.returns {n : Nat} {t : PerfBuffer} {outcome : Option (PerfResult × PerfBuffer)}
    {k : PerfResult × PerfBuffer → Option (PerfResult × PerfBuffer)} (h : Writes n t outcome)
    (hfail : ∀ result t', result ≠ .success → k (result, t') = some (result, t'))
    (hk : ∀ t', t'.length = t.length → t'.base.length ≤ t.base.length + n →
      Returns (k (.success, t'))) : Returns (outcome.bind k) := by
  obtain ⟨result, t', rfl, hsuccess⟩ := h
  rw [Option.bind_some]
  by_cases hresult : result = .success
  · obtain ⟨hlen, hle⟩ := hsuccess hresult
    rw [hresult]
    exact hk t' hlen hle
  · rw [hfail result t' hresult]
    exact returns_some result t'

theorem returns_putmem {t : PerfBuffer} {mem : Bytes}
    {k : PerfBuffer → Option (PerfResult × PerfBuffer)} (ht : t.Fits mem.length)
    (hk : Returns (k (t.push mem))) : Returns ((t.putmem mem).bind k) := by
  rw [PerfBuffer.putmem_eq_push ht]
  exact hk

theorem nameBound_le (s : Bytes) : nameBound 255 s ≤ 256 := Nat.min_le_left _ _

theorem nameBound_le_length (s : Bytes) : nameBound 255 s ≤ s.length + 2 := Nat.min_le_right _ _

theorem fits_of_le {t t' : PerfBuffer} {n m : Nat} (ht : t.Fits (n + m))
    (hlen : t'.length = t.length) (hle : t'.base.length ≤ t.base.length + n) : t'.Fits m := by
  unfold PerfBuffer.Fits at ht ⊢
  omega

/-! ### The question -/

theorem perfQtypeFromstring_writes (str : Bytes) (len : Nat) {t : PerfBuffer} (ht : t.Fits 2) :
    Writes 2 t (perfQtypeFromstring str len t) := by
  unfold perfQtypeFromstring
  split_ifs
  · dsimp only
    split_ifs
    · exact writes_failure 2 t t
    · exact writes_putmem ht (Nat.le_refl 2)
  · split
    · exact writes_putmem ht (Nat.le_refl 2)
    · exact writes_failure 2 t t

theorem returns_buildQuery (line : Bytes) {msg : PerfBuffer} (hmsg : msg.Fits 260) :
    Returns (buildQuery line msg) := by
  unfold buildQuery
  split
  · exact returns_some _ _
  · have hname := nameBound_le (domainToken line)
    refine (perfDnameFromstring_writes (domainToken line) (hmsg.mono (by omega))).returns
      (fun _ _ hr => if_pos hr) fun m₁ hlen₁ hle₁ => ?_
    dsimp only
    rw [if_neg (not_not.mpr rfl)]
    have hm₁ : m₁.Fits (2 + 2) := fits_of_le (hmsg.mono (by omega)) hlen₁ hle₁
    split
    · exact returns_some _ _
    · refine (perfQtypeFromstring_writes _ _ (hm₁.mono (by omega))).returns
        (fun _ _ hr => if_pos hr) fun m₂ hlen₂ hle₂ => ?_
      dsimp only
      rw [if_neg (not_not.mpr rfl)]
      exact returns_putmem (fits_of_le hm₁ hlen₂ hle₂) (returns_some _ _)

/-! ### The additional records -/

/-- `perf_add_edns` checks for all that it writes. -/
theorem returns_perfAddEdns (packet : PerfBuffer) (dnssec : Bool) (option : Option PerfBuffer) :
    Returns (perfAddEdns packet dnssec option) := by
  rw [perfAddEdns_eq]
  dsimp only
  split_ifs with hroom
  · exact returns_some _ _
  · refine returns_putmem ?_ (returns_some _ _)
    simp only [ednsLen] at hroom
    simp only [PerfBuffer.fits_iff, optRecord, List.length_cons, List.length_append, be16_length,
      List.length_nil]
    omega

/-- The scratch buffer of 512 bytes is large enough. -/
theorem returns_digestRecord (now : UInt32) (key : PerfTsigkey) :
    Returns (digestRecord now key) := by
  have hname := nameBound_le key.name
  have halg := nameBound_le_length key.alg.name
  have hle := algName_length key.alg
  have hroom : (PerfBuffer.init 512).Fits (nameBound 255 key.name + (6 + (26 + 12))) := by
    simp only [PerfBuffer.Fits, PerfBuffer.init_base, PerfBuffer.init_length, List.length_nil]
    omega
  rw [digestRecord_eq]
  refine (perfDnameFromstring_writes key.name (hroom.mono (by omega))).returns
    (fun _ _ hr => if_pos hr) fun t₁ hlen₁ hle₁ => ?_
  rw [if_neg (not_not.mpr rfl)]
  have ht₁ := fits_of_le hroom hlen₁ hle₁
  refine returns_putmem (ht₁.mono (by decide)) ?_
  have ht₂ : (t₁.push (be16 255 ++ be32 0)).Fits (26 + 12) := PerfBuffer.fits_push ht₁
  refine (perfDnameFromstring_writes key.alg.name (ht₂.mono (by omega))).returns
    (fun _ _ hr => if_pos hr) fun t₃ hlen₃ hle₃ => ?_
  rw [if_neg (not_not.mpr rfl)]
  have ht₃ := fits_of_le (ht₂.mono (by omega : nameBound 255 key.alg.name + 12 ≤ _)) hlen₃ hle₃
  exact returns_putmem ht₃ (returns_some _ _)

theorem returns_addRecord (now : UInt32) (key : PerfTsigkey) {md : Bytes} {packet : PerfBuffer}
    (hroom : packet.Fits (key.name.length + 12 + (key.alg.name.length + 18 + md.length))) :
    Returns (addRecord now key md packet) := by
  have hname := nameBound_le_length key.name
  have halg := nameBound_le_length key.alg.name
  rw [addRecord_eq]
  refine (perfDnameFromstring_writes key.name (hroom.mono (by omega))).returns
    (fun _ _ hr => if_pos hr) fun p₁ hlen₁ hle₁ => ?_
  rw [if_neg (not_not.mpr rfl)]
  have hp₁ : p₁.Fits (10 + (key.alg.name.length + 2 + (16 + md.length))) :=
    fits_of_le (hroom.mono (by omega)) hlen₁ hle₁
  refine returns_putmem (hp₁.mono (by simp)) ?_
  have hp₂ : (p₁.push (be16 250 ++ (be16 255 ++ (be32 0 ++
      be16 (key.alg.name.length + 18 + md.length))))).Fits
      (key.alg.name.length + 2 + (16 + md.length)) :=
    PerfBuffer.fits_push hp₁
  refine (perfDnameFromstring_writes key.alg.name (hp₂.mono (by omega))).returns
    (fun _ _ hr => if_pos hr) fun p₃ hlen₃ hle₃ => ?_
  rw [if_neg (not_not.mpr rfl)]
  have hp₃ : p₃.Fits (10 + md.length + 6) := fits_of_le (hp₂.mono (by omega)) hlen₃ hle₃
  refine returns_putmem (hp₃.mono (by simp; omega)) ?_
  have hp₄ : (p₃.push (be16 0 ++ (be32 now.toNat ++ (be16 300 ++
      (be16 md.length ++ md))))).Fits 6 := PerfBuffer.fits_push (hp₃.mono (by simp; omega))
  exact returns_putmem (hp₄.mono (by simp)) (returns_some _ _)

theorem returns_perfAddTsig (now : UInt32) (key : PerfTsigkey) (packet : PerfBuffer) :
    Returns (perfAddTsig now key packet) := by
  obtain ⟨result, tmp, hdigest⟩ := returns_digestRecord now key
  rw [perfAddTsig, hdigest, Option.bind_eq_bind, Option.bind_some]
  dsimp only
  split_ifs with hresult hroom
  · exact returns_some _ _
  · exact returns_some _ _
  · refine returns_addRecord now key ?_
    rw [PerfBuffer.fits_iff]
    omega

/-! ### The request -/

theorem Returns.bind {α β : Type} {outcome : Option (PerfResult × α)}
    {k : PerfResult × α → Option (PerfResult × β)} (h : Returns outcome)
    (hk : ∀ result a, Returns (k (result, a))) : Returns (outcome.bind k) := by
  obtain ⟨result, a, rfl⟩ := h
  exact hk result a

theorem returns_sign (key : Option PerfTsigkey) (now : UInt32) (result : PerfResult)
    (msg : PerfBuffer) :
    Returns (match key.map fun key => perfAddTsig now key with
      | some addTsig => if result = .success then addTsig msg else some (result, msg)
      | none => some (result, msg)) := by
  cases key with
  | none => exact returns_some result msg
  | some key =>
      dsimp only [Option.map_some]
      split_ifs
      · exact returns_perfAddTsig now key msg
      · exact returns_some result msg

/-- **Building a query never trips a buffer assertion**: whatever the line, the options and
the key are, `perf_dns_buildrequest` returns a result code. -/
theorem perfDnsBuildrequest_returns {Rdf Tree : Type} (ldns : Option (Ldns Rdf Tree))
    (line : Bytes) (qid : UInt16) (edns dnssec : Bool) (key : Option PerfTsigkey) (now : UInt32)
    (ednsOption : Option PerfBuffer) :
    ∃ result msg, perfDnsBuildrequest ldns line qid edns dnssec false
      (key.map fun key => perfAddTsig now key) ednsOption
      (PerfBuffer.init (if edns then maxEdnsPacket else maxUdpPacket)) = some (result, msg) := by
  have hsize : (PerfBuffer.init (if edns then maxEdnsPacket else maxUdpPacket)).Fits
      (12 + 260) := by
    unfold PerfBuffer.Fits
    cases edns <;> decide
  generalize PerfBuffer.init (if edns then maxEdnsPacket else maxUdpPacket) = msg at hsize
  change Returns _
  rw [perfDnsBuildrequest, putHeader_eq]
  refine returns_putmem (hsize.mono (by simp)) ?_
  have hheader :
      (msg.push (headerBytes qid.toNat (if false then 5 <<< 11 else 0x0100) 0)).Fits 260 :=
    PerfBuffer.fits_push hsize
  refine (returns_buildQuery line hheader).bind fun result msg => ?_
  dsimp only
  split_ifs
  · exact (returns_perfAddEdns msg dnssec ednsOption).bind (returns_sign key now)
  · exact (returns_some result msg).bind (returns_sign key now)

end Dnsperf.Dns
