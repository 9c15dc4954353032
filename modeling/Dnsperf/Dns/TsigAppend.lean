import Dnsperf.Dns.RequestTotal
import Dnsperf.Dns.TsigKey
import Dnsperf.Dns.TsigSound

/-!
# Dnsperf.Dns.TsigAppend

**A record is appended whole or not at all**, and which keys it can be appended with.
`perf_add_tsig` encodes each name twice: first for the digest, where a bad name is found, and
then, after the check for the total length, in the packet. A name that could be encoded once
can be encoded again wherever there is room for two bytes more than its text
(`perfDnameFromstring_again`), and the total length counts just that.

`perf_tsig_parsekey` does not look at the name, so that a key with a bad one is accepted, and
then no record can be added.
-/

namespace Dnsperf.Dns

open Dnsperf.Lib

/-! ### A name encoded again -/

theorem wireName_renderName_le (trailing : Bool) (ls : List (List Piece)) :
    (wireName (ls.map copiedBytes)).length ≤ (renderName trailing ls).length + 2 := by
  have hsize := labelsSize_le_renderName trailing ls
  rw [wireName_copiedBytes_length]
  omega

/-- **A name that could be encoded can be encoded again**, as the same bytes. -/
theorem perfDnameFromstring_again {s : Bytes} (hs : s ≠ []) {t t' u : PerfBuffer}
    (h : perfDnameFromstring s t = some (.success, t')) (ht : s.length + 2 ≤ t.availablelength)
    (hu : s.length + 2 ≤ u.availablelength) :
    ∃ trailing ls u', s = renderName trailing ls ∧ (∀ l ∈ ls, LabelOk l) ∧ labelsSize ls ≤ 255 ∧
      t'.base = t.base ++ wireName (ls.map copiedBytes) ∧
      perfDnameFromstring s u = some (.success, u') ∧
      u'.base = u.base ++ wireName (ls.map copiedBytes) ∧ u'.length = u.length := by
  obtain ⟨trailing, ls, rfl, hok, hsize, hbase, -⟩ := perfDnameFromstring_spelling hs h
  by_cases hnil : ls = []
  · -- the root, which is a dot
    subst hnil
    have hdot : renderName trailing [] = [dot] := by
      cases trailing with
      | false => exact absurd rfl hs
      | true => rfl
    rw [hdot] at hu ⊢
    obtain ⟨u', hroot, hbase', hlen'⟩ := perfDnameFromstring_root (t := u) hu
    exact ⟨trailing, [], u', hdot.symm, hok, hsize, hbase, hroot, hbase', hlen'⟩
  · have hcopied : ∀ l ∈ ls, ∀ p ∈ l, p.copied ≤ 255 := by
      by_contra hbad
      push Not at hbad
      obtain ⟨hfuel, hfits, hav⟩ := loop_ready trailing hok ht
      have hmax : ((labelsSize ls : Nat) : Int) ≤ 255 := by omega
      obtain ⟨t'', hfail⟩ := dnameLoop_text_failure trailing ls hok hbad true hfuel hmax hfits
      rw [perfDnameFromstring, if_neg hav, hfail] at h
      cases h
    obtain ⟨hagain, hbase'⟩ := perfDnameFromstring_text trailing hnil hok hcopied hsize hu
    exact ⟨trailing, ls, _, rfl, hok, hsize, hbase, hagain, hbase', rfl⟩

theorem perfDnameFromstring_algName (alg : TsigAlg) {u : PerfBuffer}
    (hu : alg.name.length + 2 ≤ u.availablelength) :
    ∃ u', perfDnameFromstring alg.name u = some (.success, u') ∧
      u'.base = u.base ++ wireName alg.labels ∧ u'.length = u.length := by
  have ht : alg.name.length + 2 ≤ (PerfBuffer.init 32).availablelength := by
    have hle := algName_length alg
    exact (Nat.add_le_add_right hle 2).trans (by decide)
  obtain ⟨-, -, u', -, -, -, -, hagain, -, -⟩ := perfDnameFromstring_again (algName_ne_nil alg)
    (perfDnameFromstring_algName_init alg) ht hu
  obtain ⟨hbase, hlen⟩ := encodes_algName alg _ _ hagain
  exact ⟨u', hagain, hbase, hlen⟩

theorem renderLabel_length_of_plain {l : List Piece} (h : backslash ∉ renderLabel l) :
    (renderLabel l).length = l.length := by
  have hplain : l.any Piece.escaped = false := by
    refine List.any_eq_false.mpr fun p hp hescaped => h ?_
    refine List.mem_flatten.mpr ⟨p.render, List.mem_map_of_mem hp, ?_⟩
    cases p with
    | plain c h => exact nomatch hescaped
    | quoted c h => exact List.mem_cons_self
    | decimal n => exact List.mem_cons_self
  rw [(renderLabel_of_not_escaped hplain).1, copiedBytes_length]

/-- A text without escapes and without a dot at its end is its labels and the dots between
them. -/
theorem labelsSize_of_plain {ls : List (List Piece)} (hne : ls ≠ [])
    (h : backslash ∉ renderName false ls) : labelsSize ls = (renderName false ls).length + 1 := by
  induction ls with
  | nil => exact absurd rfl hne
  | cons l ls ih =>
      rw [renderName_cons, List.mem_append, not_or] at h
      rw [renderName_cons, labelsSize_cons, List.length_append, renderLabel_length_of_plain h.1]
      cases ls with
      | nil => rfl
      | cons l' ls =>
          rw [ih (List.cons_ne_nil _ _) fun hmem => h.2 (List.mem_cons_of_mem _ hmem), afterLabel,
            List.length_cons]
          omega

theorem wireName_length_of_plain {trailing : Bool} {ls : List (List Piece)}
    (hs : renderName trailing ls ≠ []) (hescape : backslash ∉ renderName trailing ls)
    (hlast : (renderName trailing ls).getLast? ≠ some dot) :
    (wireName (ls.map copiedBytes)).length = (renderName trailing ls).length + 2 := by
  cases trailing with
  | true => exact absurd (List.getLast?_concat ..) hlast
  | false =>
      have hne : ls ≠ [] := by
        rintro rfl
        exact hs rfl
      rw [wireName_copiedBytes_length, labelsSize_of_plain hne hescape]

/-! ### The record -/

/-- What `perf_add_tsig` reckons the record takes. -/
def PerfTsigkey.totallen (key : PerfTsigkey) (md : Bytes) : Nat :=
  key.name.length + 12 + (key.alg.name.length + 18 + md.length)

theorem digestRecord_name {now : UInt32} {key : PerfTsigkey} {tmp : PerfBuffer}
    (h : digestRecord now key = some (.success, tmp)) :
    ∃ t, perfDnameFromstring key.name (PerfBuffer.init 512) = some (.success, t) := by
  rw [digestRecord_eq] at h
  obtain ⟨t, ht, -⟩ := bind_success (fun _ _ hr => if_pos hr) h
  exact ⟨t, ht⟩

/-- The key's name in the packet. An empty one takes nothing. -/
theorem perfDnameFromstring_keyName {now : UInt32} {key : PerfTsigkey} {tmp u : PerfBuffer}
    (h : digestRecord now key = some (.success, tmp))
    (hu : key.name.length + 2 ≤ u.availablelength) :
    ∃ u' bytes, perfDnameFromstring key.name u = some (.success, u') ∧
      u'.base = u.base ++ bytes ∧ u'.length = u.length ∧ bytes.length ≤ key.name.length + 2 ∧
      (key.name ≠ [] → backslash ∉ key.name → key.name.getLast? ≠ some dot →
        bytes.length = key.name.length + 2) := by
  by_cases hname : key.name = []
  · refine ⟨u, [], ?_, (List.append_nil _).symm, rfl, Nat.zero_le _, fun hne => absurd hname hne⟩
    rw [hname]
    exact if_neg (Nat.not_lt_zero _)
  · obtain ⟨t, ht⟩ := digestRecord_name h
    have hroom : key.name.length + 2 ≤ (PerfBuffer.init 512).availablelength :=
      (Nat.add_le_add_right key.name_le 2).trans (by decide)
    obtain ⟨trailing, ls, u', hrender, -, -, -, hagain, hbase, hlen⟩ :=
      perfDnameFromstring_again hname ht hroom hu
    refine ⟨u', _, hagain, hbase, hlen, ?_, fun hne hescape hlast => ?_⟩
    · rw [hrender]
      exact wireName_renderName_le trailing ls
    · rw [hrender] at hne hescape hlast ⊢
      exact wireName_length_of_plain hne hescape hlast

theorem availablelength_of_append {t t' : PerfBuffer} {bytes : Bytes}
    (hbase : t'.base = t.base ++ bytes) (hlen : t'.length = t.length) :
    t'.availablelength = t.availablelength - bytes.length := by
  simp only [PerfBuffer.availablelength, PerfBuffer.usedlength, hbase, hlen, List.length_append]
  omega

theorem putmem_of_available {t : PerfBuffer} (mem : Bytes) (h : mem.length ≤ t.availablelength) :
    ∃ t', t.putmem mem = some t' ∧ t'.base = t.base ++ mem ∧ t'.length = t.length := by
  have hfits : t.Fits mem.length := PerfBuffer.fits_iff.mpr h
  exact ⟨t.push mem, PerfBuffer.putmem_eq_push hfits, PerfBuffer.push_base hfits, rfl⟩

/-- **After the check of the total length every write succeeds**, and the record takes no more
than that. -/
theorem addRecord_of_room {now : UInt32} {key : PerfTsigkey} {tmp packet : PerfBuffer} {md : Bytes}
    (h : digestRecord now key = some (.success, tmp))
    (hroom : key.totallen md ≤ packet.availablelength) :
    ∃ packet', addRecord now key md packet = some (.success, packet') ∧
      packet'.length = packet.length ∧
      packet'.base.length ≤ packet.base.length + key.totallen md ∧
      (key.name ≠ [] → backslash ∉ key.name → key.name.getLast? ≠ some dot →
        packet'.base.length = packet.base.length + key.totallen md) := by
  -- the record is put in five parts, `p₁` to `p₅`, each with room for what is left of it
  have halg := wireName_algLabels_length key.alg
  unfold PerfTsigkey.totallen at hroom ⊢
  obtain ⟨p₁, bytes, hname, hbase₁, hlen₁, hle, heq⟩ :=
    perfDnameFromstring_keyName (u := packet) h (by omega)
  have hav₁ := availablelength_of_append hbase₁ hlen₁
  obtain ⟨p₂, hput₂, hbase₂, hlen₂⟩ := putmem_of_available (t := p₁)
    (be16 250 ++ (be16 255 ++ (be32 0 ++ be16 (key.alg.name.length + 18 + md.length))))
    (by simp only [List.length_append, be16_length, be32_length]; omega)
  have hav₂ := availablelength_of_append hbase₂ hlen₂
  simp only [List.length_append, be16_length, be32_length] at hav₂
  obtain ⟨p₃, halgname, hbase₃, hlen₃⟩ := perfDnameFromstring_algName key.alg (u := p₂) (by omega)
  have hav₃ := availablelength_of_append hbase₃ hlen₃
  obtain ⟨p₄, hput₄, hbase₄, hlen₄⟩ := putmem_of_available (t := p₃)
    (be16 0 ++ (be32 now.toNat ++ (be16 300 ++ (be16 md.length ++ md))))
    (by simp only [List.length_append, be16_length, be32_length]; omega)
  have hav₄ := availablelength_of_append hbase₄ hlen₄
  simp only [List.length_append, be16_length, be32_length] at hav₄
  have hid : (p₄.base.take 2).length = 2 := by
    rw [List.length_take, hbase₄, hbase₃, hbase₂]
    simp only [List.length_append, be16_length, be32_length]
    omega
  obtain ⟨p₅, hput₅, hbase₅, hlen₅⟩ := putmem_of_available (t := p₄)
    (p₄.base.take 2 ++ (be16 0 ++ be16 0))
    (by simp only [List.length_append, be16_length, hid]; omega)
  have hlength : p₅.base.length =
      packet.base.length + bytes.length + (key.alg.name.length + 28 + md.length) := by
    have hlast : p₅.base.length = p₄.base.length + 6 := by
      rw [hbase₅]
      simp only [List.length_append, be16_length, hid]
    rw [hlast, hbase₄, hbase₃, hbase₂, hbase₁]
    simp only [List.length_append, be16_length, be32_length, halg]
    omega
  refine ⟨p₅.modify 11 (· + 1), ?_, ?_, ?_, fun hne hescape hlast => ?_⟩
  · rw [addRecord_eq, hname, Option.bind_some]
    simp only [ne_eq, not_true_eq_false, if_false, hput₂, Option.bind_some, halgname, hput₄, hput₅]
  · exact hlen₅.trans (hlen₄.trans (hlen₃.trans (hlen₂.trans hlen₁)))
  · rw [PerfBuffer.modify_base, List.length_modify, hlength]
    omega
  · rw [PerfBuffer.modify_base, List.length_modify, hlength, heq hne hescape hlast]
    omega

theorem perfAddTsig_of_digest {now : UInt32} {key : PerfTsigkey} {tmp : PerfBuffer}
    (h : digestRecord now key = some (.success, tmp)) (packet : PerfBuffer) :
    perfAddTsig now key packet =
      if packet.availablelength < key.totallen (key.digest (packet.base ++ tmp.base)).val then
        some (.nospace, packet)
      else addRecord now key (key.digest (packet.base ++ tmp.base)).val packet := by
  rw [perfAddTsig, h]
  rfl

/-- **A failed append leaves the packet as it was**: `perf_add_edns` and `perf_add_tsig` return,
and with anything but success the packet is the same. Once `perf_add_tsig` has passed its check
of the total length, it succeeds, and appends no more than that; just that, if the key's name
is not empty and has no escapes and no dot at its end. -/
theorem append_whole_or_not (packet : PerfBuffer) (dnssec : Bool) (option : Option PerfBuffer)
    (now : UInt32) (key : PerfTsigkey) :
    (∃ result packet', perfAddEdns packet dnssec option = some (result, packet') ∧
      (result ≠ .success → packet' = packet)) ∧
    (∃ result packet', perfAddTsig now key packet = some (result, packet') ∧
      (result ≠ .success → packet' = packet)) ∧
    ∀ tmp, digestRecord now key = some (.success, tmp) →
      key.totallen (key.digest (packet.base ++ tmp.base)).val ≤ packet.availablelength →
      ∃ packet', perfAddTsig now key packet = some (.success, packet') ∧
        packet'.base.length ≤ packet.base.length +
          key.totallen (key.digest (packet.base ++ tmp.base)).val ∧
        (key.name ≠ [] → backslash ∉ key.name → key.name.getLast? ≠ some dot →
          packet'.base.length = packet.base.length +
            key.totallen (key.digest (packet.base ++ tmp.base)).val) := by
  refine ⟨?_, ?_, fun tmp hdigest hroom => ?_⟩
  · obtain ⟨result, packet', hedns⟩ := returns_perfAddEdns packet dnssec option
    refine ⟨result, packet', hedns, fun hresult => ?_⟩
    rw [perfAddEdns_eq] at hedns
    dsimp only at hedns
    split_ifs at hedns with hroom
    · exact (Prod.mk.inj (Option.some.inj hedns)).2.symm
    · obtain ⟨p, -, heq⟩ := Option.bind_eq_some_iff.mp hedns
      exact absurd (Prod.mk.inj (Option.some.inj heq)).1.symm hresult
  · obtain ⟨result, tmp, hdigest⟩ := returns_digestRecord now key
    by_cases hresult : result = .success
    · subst hresult
      rw [perfAddTsig_of_digest hdigest]
      split_ifs with hroom
      · exact ⟨_, packet, rfl, fun _ => rfl⟩
      · obtain ⟨packet', hadd, -⟩ := addRecord_of_room hdigest (Nat.le_of_not_lt hroom)
        exact ⟨.success, packet', hadd, fun hne => absurd rfl hne⟩
    · refine ⟨result, packet, ?_, fun _ => rfl⟩
      rw [perfAddTsig, hdigest, Option.bind_eq_bind, Option.bind_some]
      exact if_pos hresult
  · obtain ⟨packet', hadd, -, hle, heq⟩ := addRecord_of_room hdigest hroom
    refine ⟨packet', ?_, hle, heq⟩
    rw [perfAddTsig_of_digest hdigest, if_neg (Nat.not_lt.mpr hroom)]
    exact hadd

/-- A key that is called `k`, on a header: the record takes 1 + 9 + 30 bytes and the digest. -/
theorem append_whole_or_not_header :
    digestRecord 5 ⟨[107], .hmacSha1, fun _ => ⟨[1, 2], by decide⟩, by decide⟩ =
        some (.success, (PerfBuffer.init 512).push (wireName [[107]] ++ (be16 255 ++ (be32 0 ++
          (wireName TsigAlg.hmacSha1.labels ++ (be16 0 ++ (be32 5 ++ (be16 300 ++ (be16 0 ++
            be16 0))))))))) ∧
      ∃ packet', perfAddTsig 5 ⟨[107], .hmacSha1, fun _ => ⟨[1, 2], by decide⟩, by decide⟩
          ((PerfBuffer.init 64).push [0, 7, 1, 0, 0, 0, 0, 0, 0, 0, 0, 0]) =
          some (.success, packet') ∧
        packet'.base.length = 12 + 42 := by
  have hdigest : digestRecord 5 ⟨[107], .hmacSha1, fun _ => ⟨[1, 2], by decide⟩, by decide⟩ =
      some (.success, (PerfBuffer.init 512).push (wireName [[107]] ++ (be16 255 ++ (be32 0 ++
        (wireName TsigAlg.hmacSha1.labels ++ (be16 0 ++ (be32 5 ++ (be16 300 ++ (be16 0 ++
          be16 0))))))))) := by
    decide +kernel
  obtain ⟨-, -, hrecord⟩ := append_whole_or_not
    ((PerfBuffer.init 64).push [0, 7, 1, 0, 0, 0, 0, 0, 0, 0, 0, 0]) false none 5
    ⟨[107], .hmacSha1, fun _ => ⟨[1, 2], by decide⟩, by decide⟩
  obtain ⟨packet', hadd, -, hlength⟩ := hrecord _ hdigest (by decide)
  exact ⟨hdigest, packet', hadd, hlength (by decide) (by decide) (by decide)⟩

/-! ### Keys that can be used -/

/-- The text of a domain name: labels of 1 to 63 bytes, at most 255 bytes in all, and escapes
that stand for bytes. -/
def DomainName (s : Bytes) : Prop := s ≠ [] ∧ ∃ n : NameText, n.text = s ∧ n.Denotes

theorem copied_le_of_value_le {p : Piece} (h : p.value ≤ 255) : p.copied ≤ 255 := by
  by_contra hgt
  obtain ⟨k, rfl, hk, -⟩ := copied_gt_iff.mp (not_le.mp hgt)
  change k.val ≤ 255 at h
  omega

theorem DomainName.encodes {s : Bytes} (h : DomainName s) {t : PerfBuffer}
    (ht : s.length + 2 ≤ t.availablelength) :
    ∃ t' labels, perfDnameFromstring s t = some (.success, t') ∧
      t'.base = t.base ++ wireName labels ∧ t'.length = t.length ∧
      (wireName labels).length ≤ 255 := by
  obtain ⟨hs, n, rfl, hdenotes⟩ := h
  by_cases hnil : n.labels = []
  · have hdot : n.text = [dot] := (labels_ne_nil_of_text hs).resolve_left (not_not.mpr hnil)
    rw [hdot] at ht ⊢
    obtain ⟨t', hroot, hbase, hlen⟩ := perfDnameFromstring_root (t := t) ht
    exact ⟨t', [], hroot, hbase, hlen, by decide⟩
  · obtain ⟨hres, hbase⟩ := perfDnameFromstring_copied ht hnil fun l hl p hp =>
      copied_le_of_value_le (hdenotes l hl p hp)
    refine ⟨_, _, hres, hbase, rfl, ?_⟩
    rw [wireName_copiedBytes_length]
    exact n.wire_le

theorem digestRecord_of_name (now : UInt32) {key : PerfTsigkey} {t : PerfBuffer}
    (h : perfDnameFromstring key.name (PerfBuffer.init 512) = some (.success, t))
    (hlen : t.length = 512) (hle : t.base.length ≤ 256) :
    ∃ tmp, digestRecord now key = some (.success, tmp) := by
  have halg := algName_length key.alg
  have hav : 256 ≤ t.availablelength := by
    simp only [PerfBuffer.availablelength, PerfBuffer.usedlength, hlen]
    omega
  obtain ⟨t₂, hput₂, hbase₂, hlen₂⟩ := putmem_of_available (t := t) (be16 255 ++ be32 0)
    (by simp only [List.length_append, be16_length, be32_length]; omega)
  have hav₂ := availablelength_of_append hbase₂ hlen₂
  simp only [List.length_append, be16_length, be32_length] at hav₂
  obtain ⟨t₃, hname₃, hbase₃, hlen₃⟩ := perfDnameFromstring_algName key.alg (u := t₂) (by omega)
  have hav₃ := availablelength_of_append hbase₃ hlen₃
  rw [wireName_algLabels_length] at hav₃
  obtain ⟨t₄, hput₄, -⟩ := putmem_of_available (t := t₃)
    (be16 0 ++ (be32 now.toNat ++ (be16 300 ++ (be16 0 ++ be16 0))))
    (by simp only [List.length_append, be16_length, be32_length]; omega)
  refine ⟨t₄, ?_⟩
  rw [digestRecord_eq, h, Option.bind_some]
  simp only [ne_eq, not_true_eq_false, if_false, hput₂, Option.bind_some, hname₃, hput₄]

/-! A domain name stays one in lower case. -/

theorem tolower_name_chars (c : UInt8) : (tolower c = dot ↔ c = dot) ∧
    (tolower c = backslash ↔ c = backslash) ∧ isdigit (tolower c) = isdigit c ∧
    (isdigit c = true → tolower c = c) := by
  have h : ∀ n : Fin 256, (tolower (UInt8.ofNat n) = dot ↔ UInt8.ofNat n = dot) ∧
      (tolower (UInt8.ofNat n) = backslash ↔ UInt8.ofNat n = backslash) ∧
      isdigit (tolower (UInt8.ofNat n)) = isdigit (UInt8.ofNat n) ∧
      (isdigit (UInt8.ofNat n) = true → tolower (UInt8.ofNat n) = UInt8.ofNat n) := by
    decide +kernel
  simpa using h ⟨c.toNat, c.toNat_lt⟩

/-- The piece in lower case. -/
def Piece.lower : Piece → Piece
  | .plain c h => .plain (tolower c) ⟨fun heq => h.1 ((tolower_name_chars c).1.mp heq),
      fun heq => h.2 ((tolower_name_chars c).2.1.mp heq)⟩
  | .quoted c h => .quoted (tolower c) ((tolower_name_chars c).2.2.1.trans h)
  | .decimal n => .decimal n

theorem Piece.lower_render (p : Piece) : p.lower.render = p.render.map tolower := by
  have hbackslash : tolower backslash = backslash := by decide
  cases p with
  | plain c h => rfl
  | quoted c h => simp [lower, render, hbackslash]
  | decimal n =>
      have hdigit (m : Nat) : tolower (digit m) = digit m :=
        (tolower_name_chars _).2.2.2 (digit_isdigit m)
      simp [lower, render, hbackslash, hdigit]

theorem Piece.lower_value_le_iff {p : Piece} : p.lower.value ≤ 255 ↔ p.value ≤ 255 := by
  cases p with
  | plain c _ =>
      exact iff_of_true (Nat.le_of_lt_succ (tolower c).toNat_lt) (Nat.le_of_lt_succ c.toNat_lt)
  | quoted c _ =>
      exact iff_of_true (Nat.le_of_lt_succ (tolower c).toNat_lt) (Nat.le_of_lt_succ c.toNat_lt)
  | decimal n => exact Iff.rfl

theorem renderName_lower (trailing : Bool) (ls : List (List Piece)) :
    renderName trailing (ls.map (List.map Piece.lower)) = (renderName trailing ls).map tolower := by
  have hlabel (l : List Piece) : renderLabel (l.map Piece.lower) = (renderLabel l).map tolower := by
    induction l with
    | nil => rfl
    | cons p l ih =>
        rw [List.map_cons, renderLabel_cons, renderLabel_cons, List.map_append, ih, p.lower_render]
  have hdot : tolower dot = dot := by decide
  induction ls with
  | nil => cases trailing <;> simp [renderName, List.intercalate, hdot]
  | cons l ls ih =>
      rw [List.map_cons, renderName_cons, renderName_cons, List.map_append, hlabel]
      cases ls with
      | nil => cases trailing <;> simp [afterLabel, hdot]
      | cons l' ls =>
          rw [List.map_cons] at ih ⊢
          rw [afterLabel, afterLabel, List.map_cons, hdot, ih]

/-- A piece that text in lower case begins with, in the case the text had. -/
theorem Piece.exists_of_lower {p : Piece} {s t : Bytes} (h : s.map tolower = p.render ++ t) :
    ∃ (p' : Piece) (s' : Bytes), s = p'.render ++ s' ∧ p'.lower = p ∧ s'.map tolower = t := by
  have hslash {c : UInt8} (hc : tolower c = backslash) : c = backslash :=
    (tolower_name_chars c).2.1.mp hc
  cases p with
  | plain c hc =>
      obtain ⟨a, s', rfl, rfl, rfl⟩ := List.map_eq_cons_iff.mp h
      exact ⟨.plain a ⟨fun ha => hc.1 ((tolower_name_chars a).1.mpr ha),
        fun ha => hc.2 ((tolower_name_chars a).2.1.mpr ha)⟩, s', rfl, rfl, rfl⟩
  | quoted c hc =>
      obtain ⟨a, s₁, rfl, ha, h₁⟩ := List.map_eq_cons_iff.mp h
      obtain ⟨b, s', rfl, rfl, rfl⟩ := List.map_eq_cons_iff.mp h₁
      obtain rfl := hslash ha
      exact ⟨.quoted b ((tolower_name_chars b).2.2.1 ▸ hc), s', rfl, rfl, rfl⟩
  | decimal n =>
      obtain ⟨a, s₁, rfl, ha, h₁⟩ := List.map_eq_cons_iff.mp h
      obtain ⟨b, s₂, rfl, hb, h₂⟩ := List.map_eq_cons_iff.mp h₁
      obtain ⟨c, s₃, rfl, hc, h₃⟩ := List.map_eq_cons_iff.mp h₂
      obtain ⟨d, s', rfl, hd, rfl⟩ := List.map_eq_cons_iff.mp h₃
      obtain rfl := hslash ha
      have hdigit {x : UInt8} {m : Nat} (hx : tolower x = digit m) : x = digit m := by
        have hisdigit := (tolower_name_chars x).2.2.1
        rw [hx, digit_isdigit] at hisdigit
        rw [← hx, (tolower_name_chars x).2.2.2 hisdigit.symm]
      rw [hdigit hb, hdigit hc, hdigit hd]
      exact ⟨.decimal n, s', rfl, rfl, rfl⟩

theorem exists_renderLabel_of_lower {l : List Piece} {s t : Bytes}
    (h : s.map tolower = renderLabel l ++ t) :
    ∃ l' s', s = renderLabel l' ++ s' ∧ l'.map Piece.lower = l ∧ s'.map tolower = t := by
  induction l generalizing s with
  | nil => exact ⟨[], s, rfl, rfl, h⟩
  | cons p l ih =>
      rw [renderLabel_cons, List.append_assoc] at h
      obtain ⟨p', s₁, rfl, rfl, h₁⟩ := Piece.exists_of_lower h
      obtain ⟨l', s', rfl, rfl, h'⟩ := ih h₁
      exact ⟨p' :: l', s', by rw [renderLabel_cons, List.append_assoc], rfl, h'⟩

theorem exists_renderName_of_lower {trailing : Bool} {ls : List (List Piece)} {s : Bytes}
    (h : s.map tolower = renderName trailing ls) :
    ∃ ls', s = renderName trailing ls' ∧ ls'.map (List.map Piece.lower) = ls := by
  have hdot {u : Bytes} (hu : u.map tolower = if trailing then [dot] else []) :
      u = if trailing then [dot] else [] := by
    cases trailing with
    | false => exact List.map_eq_nil_iff.mp hu
    | true =>
        obtain ⟨c, rfl, hc⟩ := List.map_eq_singleton_iff.mp hu
        rw [(tolower_name_chars c).1.mp hc]
        rfl
  induction ls generalizing s with
  | nil => exact ⟨[], hdot h, rfl⟩
  | cons l ls ih =>
      rw [renderName_cons] at h
      obtain ⟨l', s', rfl, rfl, h'⟩ := exists_renderLabel_of_lower h
      cases ls with
      | nil => exact ⟨[l'], by rw [renderName_cons, hdot h', afterLabel], rfl⟩
      | cons l₂ ls =>
          obtain ⟨c, s'', rfl, hc, h''⟩ := List.map_eq_cons_iff.mp h'
          obtain rfl := (tolower_name_chars c).1.mp hc
          obtain ⟨ls', rfl, hls⟩ := ih h''
          cases ls' with
          | nil => cases hls
          | cons l₃ ls' =>
              exact ⟨l' :: l₃ :: ls', (renderName_cons trailing l' (l₃ :: ls')).symm,
                by rw [List.map_cons, hls]⟩

theorem labelsSize_lower (ls : List (List Piece)) :
    labelsSize (ls.map (List.map Piece.lower)) = labelsSize ls := by
  simp [labelsSize, Function.comp_def]

/-- **The case of a domain name does not matter.** -/
theorem domainName_lower_iff {s : Bytes} : DomainName (s.map tolower) ↔ DomainName s := by
  constructor
  · rintro ⟨hs, n, hn, hdenotes⟩
    obtain ⟨ls, rfl, hls⟩ := exists_renderName_of_lower hn.symm
    have hmem {l : List Piece} (hl : l ∈ ls) : l.map Piece.lower ∈ n.labels :=
      hls ▸ List.mem_map_of_mem hl
    refine ⟨by simpa using hs, ⟨ls, n.trailing, ?_, ?_⟩, rfl, ?_⟩
    · intro l hl
      simpa [LabelOk] using n.label_ok _ (hmem hl)
    · rw [← labelsSize_lower, hls]
      exact n.wire_le
    · intro l hl p hp
      exact Piece.lower_value_le_iff.mp (hdenotes _ (hmem hl) _ (List.mem_map_of_mem hp))
  · rintro ⟨hs, n, rfl, hdenotes⟩
    refine ⟨by simpa using hs, ⟨n.labels.map (List.map Piece.lower), n.trailing, ?_, ?_⟩,
      renderName_lower n.trailing n.labels, ?_⟩
    · intro l hl
      obtain ⟨l', hl', rfl⟩ := List.mem_map.mp hl
      simpa [LabelOk] using n.label_ok l' hl'
    · rw [labelsSize_lower]
      exact n.wire_le
    · intro l hl p hp
      obtain ⟨l', hl', rfl⟩ := List.mem_map.mp hl
      obtain ⟨p', hp', rfl⟩ := List.mem_map.mp hp
      exact Piece.lower_value_le_iff.mpr (hdenotes l' hl' p' hp')

/-- The name in an argument `[alg:]name:secret`. -/
def keyName (arg : Bytes) : Bytes :=
  let first := (cstr arg).takeWhile (· != 58)
  let rest := ((cstr arg).dropWhile (· != 58)).tail
  if (58 : UInt8) ∈ rest then rest.takeWhile (· != 58) else first

/-- A key that is accepted has the name of the argument, in lower case. -/
theorem perfTsigParsekey_keyName {decode64 : Bytes → Option Bytes}
    {hmac : TsigAlg → Bytes → Bytes → Md} {arg : Bytes} {key : PerfTsigkey}
    (h : perfTsigParsekey decode64 hmac arg = some key) :
    key.name = (keyName arg).map tolower := by
  have hsetup {alg : Option TsigAlg} {name secret : Bytes}
      (h : setupKey decode64 hmac alg name secret = some key) : key.name = name.map tolower := by
    unfold setupKey at h
    split at h
    · exact nomatch h
    · split_ifs at h
      split at h
      · exact nomatch h
      · obtain rfl := Option.some.inj h
        rfl
  unfold perfTsigParsekey at h
  dsimp only at h
  unfold keyName
  split at h
  · exact nomatch h
  · rename_i c rest hrest
    rw [hrest]
    dsimp only
    split at h
    · rename_i hnone
      have hcolon : (58 : UInt8) ∉ rest := fun hmem => by
        have hall := List.dropWhile_eq_nil_iff.mp hnone 58 hmem
        exact absurd hall (by decide)
      rw [List.tail_cons, if_neg hcolon]
      exact hsetup h
    · rename_i d secret hsome
      obtain ⟨-, hsplit, -⟩ := exists_of_dropWhile_bne hsome
      have hcolon : (58 : UInt8) ∈ rest := by
        rw [hsplit]
        exact List.mem_append_right _ List.mem_cons_self
      rw [List.tail_cons, if_pos hcolon]
      exact hsetup h

/-- A key with the name of a domain signs every packet with a header and room for the record. -/
theorem DomainName.signs {key : PerfTsigkey} (hkey : DomainName key.name) (now : UInt32)
    {packet : PerfBuffer} (hheader : 12 ≤ packet.base.length)
    (hroom : ∀ data, key.name.length + key.alg.name.length + 30 + (key.digest data).val.length ≤
      packet.availablelength) :
    ∃ packet' owner rest, perfAddTsig now key packet = some (.success, packet') ∧
      packet'.base = packet.base.modify 11 (· + 1) ++ (wireName owner ++ rest) ∧
      (∀ l ∈ owner, 1 ≤ l.length ∧ l.length ≤ 63) ∧ (wireName owner).length ≤ 255 := by
  have hscratch : key.name.length + 2 ≤ (PerfBuffer.init 512).availablelength :=
    (Nat.add_le_add_right key.name_le 2).trans (by decide)
  obtain ⟨t, labels, ht, hbase, hlen, hle⟩ := hkey.encodes hscratch
  have hlength : t.base.length ≤ 256 := by
    rw [hbase, PerfBuffer.init_base, List.nil_append]
    omega
  obtain ⟨tmp, hdigest⟩ := digestRecord_of_name now ht hlen hlength
  have htotal :
      key.totallen (key.digest (packet.base ++ tmp.base)).val ≤ packet.availablelength := by
    have hdata := hroom (packet.base ++ tmp.base)
    unfold PerfTsigkey.totallen
    omega
  obtain ⟨packet', hadd, -⟩ := addRecord_of_room hdigest htotal
  have hsuccess : perfAddTsig now key packet = some (.success, packet') := by
    rw [perfAddTsig_of_digest hdigest, if_neg (Nat.not_lt.mpr htotal)]
    exact hadd
  obtain ⟨owner, t', id, howner, ht', hbase', -, -, hpacket⟩ :=
    perfAddTsig_success hkey.1 hheader hsuccess
  obtain rfl : t = t' := (Prod.mk.inj (Option.some.inj (ht.symm.trans ht'))).2
  have hwire : wireName labels = wireName owner := by
    rw [← hbase', hbase]
    rfl
  exact ⟨packet', owner, _, hsuccess, hpacket, howner, hwire ▸ hle⟩

/-- **A key that is accepted is usable** if and only if the name in the argument is that of a
domain: usable means that the name of the key is one, and that `perf_add_tsig` succeeds on every
packet with a header and room for the record, which starts with an owner name in wire format. -/
theorem perfTsigParsekey_usable {decode64 : Bytes → Option Bytes}
    {hmac : TsigAlg → Bytes → Bytes → Md} {arg : Bytes} {key : PerfTsigkey}
    (h : perfTsigParsekey decode64 hmac arg = some key) :
    (DomainName key.name ∧ ∀ (now : UInt32) (packet : PerfBuffer), 12 ≤ packet.base.length →
        (∀ data, key.name.length + key.alg.name.length + 30 + (key.digest data).val.length ≤
          packet.availablelength) →
        ∃ packet' owner rest, perfAddTsig now key packet = some (.success, packet') ∧
          packet'.base = packet.base.modify 11 (· + 1) ++ (wireName owner ++ rest) ∧
          (∀ l ∈ owner, 1 ≤ l.length ∧ l.length ≤ 63) ∧ (wireName owner).length ≤ 255) ↔
      DomainName (keyName arg) := by
  have hiff : DomainName key.name ↔ DomainName (keyName arg) := by
    rw [perfTsigParsekey_keyName h]
    exact domainName_lower_iff
  refine ⟨fun husable => hiff.mp husable.1, fun hname => ?_⟩
  have hkey := hiff.mpr hname
  exact ⟨hkey, fun now packet hheader hroom => hkey.signs now hheader hroom⟩

theorem perfTsigParsekey_one (hmac : TsigAlg → Bytes → Bytes → Md) (name : Bytes)
    (hlen : name.length ≤ 256) (hname : (58 : UInt8) ∉ name ∧ (0 : UInt8) ∉ name) :
    perfTsigParsekey (decode64 evpDecodeUpdate) hmac (name ++ ascii ":AQ==") =
      some ⟨name.map tolower, .hmacMd5, hmac .hmacMd5 [1], by rwa [List.length_map]⟩ := by
  have hsecret := encode_chars [1]
  have hparts := perfTsigParsekey_parts (decode64 evpDecodeUpdate) hmac .absent hname hsecret
  rw [setupKey_encode documented_evpDecodeUpdate hmac .hmacMd5 hlen (by decide),
    if_neg (by decide), List.nil_append, List.append_assoc] at hparts
  exact hparts

/-- `Key:AQ==`, with a digest of two bytes, on a header. -/
theorem perfTsigParsekey_usable_key :
    ∃ key, perfTsigParsekey (decode64 evpDecodeUpdate) (fun _ _ _ => ⟨[1, 2], by decide⟩)
        (ascii "Key:AQ==") = some key ∧
      ∃ packet' owner rest, perfAddTsig 5 key
          ((PerfBuffer.init 128).push [0, 7, 1, 0, 0, 0, 0, 0, 0, 0, 0, 0]) =
          some (.success, packet') ∧
        packet'.base = [0, 7, 1, 0, 0, 0, 0, 0, 0, 0, 0, 1] ++ (wireName owner ++ rest) ∧
        (∀ l ∈ owner, 1 ≤ l.length ∧ l.length ≤ 63) ∧ (wireName owner).length ≤ 255 := by
  have hkey := perfTsigParsekey_one (fun _ _ _ => ⟨[1, 2], by decide⟩) (ascii "Key")
    (by decide) (by decide)
  have hname : DomainName (keyName (ascii "Key:AQ==")) :=
    ⟨by decide, ⟨[[.plain 75 (by decide), .plain 101 (by decide), .plain 121 (by decide)]], false,
      by decide, by decide⟩, by decide, by decide⟩
  have hheader : 12 ≤
      ((PerfBuffer.init 128).push [0, 7, 1, 0, 0, 0, 0, 0, 0, 0, 0, 0]).base.length := by
    decide
  have hroom : 3 + 24 + 30 + 2 ≤
      ((PerfBuffer.init 128).push [0, 7, 1, 0, 0, 0, 0, 0, 0, 0, 0, 0]).availablelength := by
    decide
  obtain ⟨packet', owner, rest, hadd, hbase, howner⟩ :=
    ((perfTsigParsekey_usable hkey).mpr hname).2 5 _ hheader fun _ => hroom
  exact ⟨_, hkey, packet', owner, rest, hadd, hbase, howner⟩

/-- **A key that is accepted and cannot be used**: `a..b` has an empty label. -/
theorem perfTsigParsekey_unusable :
    ∃ key, perfTsigParsekey (decode64 evpDecodeUpdate) (fun _ _ _ => ⟨[1, 2], by decide⟩)
        (ascii "a..b:AQ==") = some key ∧ ¬ DomainName key.name ∧
      key.name.length + key.alg.name.length + 30 + 2 ≤
        ((PerfBuffer.init 128).push [0, 7, 1, 0, 0, 0, 0, 0, 0, 0, 0, 0]).availablelength ∧
      perfAddTsig 5 key ((PerfBuffer.init 128).push [0, 7, 1, 0, 0, 0, 0, 0, 0, 0, 0, 0]) =
        some (.failure, (PerfBuffer.init 128).push [0, 7, 1, 0, 0, 0, 0, 0, 0, 0, 0, 0]) := by
  have hname : ¬ DomainName ((ascii "a..b").map tolower) := by
    intro hdomain
    obtain ⟨t, -, hencodes, -⟩ := hdomain.encodes (t := PerfBuffer.init 64) (by decide)
    have hfails : (perfDnameFromstring ((ascii "a..b").map tolower) (PerfBuffer.init 64)).map
        Prod.fst = some .failure := by
      decide +kernel
    rw [hencodes] at hfails
    exact nomatch hfails
  exact ⟨_, perfTsigParsekey_one (fun _ _ _ => ⟨[1, 2], by decide⟩) (ascii "a..b") (by decide)
    (by decide), hname, by decide, by decide +kernel⟩

end Dnsperf.Dns
