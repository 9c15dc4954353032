import Dnsperf.Datafile.Refill

/-!
# Dnsperf.Datafile.Blob

**The binary reader is the format.** However the bytes arrive, the results of
`read_one_blob` are the payloads of the records the input consists of, and then
end of file, or an error if the input stops inside a record.
-/

namespace Dnsperf.Datafile.PerfDatafile

open Dnsperf.Lib

variable {d : PerfDatafile} {content : Bytes}

/-- Every `read` so far had room. -/
def Roomy (d : PerfDatafile) : Prop := ∀ space ∈ d.source.spaces, 0 < space

/-- **A refill loop** ends with enough bytes if the input has them, and otherwise at
the end of the input. -/
theorem fill_of_feeds (need : Nat) (hneed : need ≤ dataSpace) (onEnd : Nat → PerfResult) :
    ∀ (fuel : Nat) {d : PerfDatafile}, Feeds d content → need < fuel + d.nrem → 0 < fuel →
      ∃ d', (Roomy d → Roomy d') ∧
        ((need ≤ content.length ∧ fill fuel need onEnd d = some (.success, d') ∧
            Feeds d' content ∧ need ≤ d'.nrem) ∨
          (content.length < need ∧ fill fuel need onEnd d = some (onEnd content.length, d')))
  | 0, _, _, _, h0 => absurd h0 (Nat.lt_irrefl 0)
  | fuel + 1, d, hfeeds, hfuel, _ => by
      have hle := hfeeds.rest_le
      by_cases hlt : d.nrem < need
      · by_cases hc : d.cached = true
        · -- cached: the buffer is all there is
          have hlen : d.nrem = content.length := by
            rw [← length_rest, hfeeds.rest_eq_of_cached hc]
          refine ⟨d, id, Or.inr ⟨by omega, ?_⟩⟩
          rw [fill, if_pos hlt, if_pos hc, hlen]
        · obtain ⟨d', hfeeds', -, -, hspaces, ⟨hmore, hall, hrest⟩ | ⟨hmore, hgrow⟩⟩ :=
            readMore_of_feeds hfeeds (by simpa using hc) (Or.inl (by omega))
          all_goals
            have hroomy' : Roomy d → Roomy d' := by
              intro hroomy space hspace
              rw [hspaces, List.mem_append, List.mem_singleton] at hspace
              rcases hspace with hspace | rfl
              · exact hroomy space hspace
              · omega
          · have hlen : d'.nrem = content.length := by
              rw [← length_rest, hrest]
            have hnrem : d.nrem = content.length := by
              rw [← length_rest, hall]
            refine ⟨d', hroomy', Or.inr ⟨by omega, ?_⟩⟩
            rw [fill, if_pos hlt, if_neg hc, hmore, ← hlen]
          · obtain ⟨d'', hroomy'', hres⟩ :=
              fill_of_feeds need hneed onEnd fuel hfeeds' (by omega) (by omega)
            refine ⟨d'', hroomy'' ∘ hroomy', ?_⟩
            rw [fill, if_pos hlt, if_neg hc, hmore]
            exact hres
      · refine ⟨d, id, Or.inl ⟨by omega, ?_, hfeeds, by omega⟩⟩
        rw [fill, if_neg hlt]

theorem Feeds.packetSize {hi lo : UInt8} {r : Bytes} (h : Feeds d (hi :: lo :: r))
    (h2 : 2 ≤ d.nrem) : ofBe16 (d.rest.getD 0 0) (d.rest.getD 1 0) = ofBe16 hi lo := by
  have htake : d.rest.take 2 = [hi, lo] := Feeds.take_rest (p := [hi, lo]) h h2
  rw [← List.take_append_drop 2 d.rest, htake]
  rfl

/-- A record that is buffered as a whole: its payload, and the input after it. -/
theorem Feeds.record {p r : Bytes} (h : Feeds d (frame p ++ r)) (hrem : 2 + p.length ≤ d.nrem) :
    (d.rest.drop 2).take p.length = p ∧ Feeds (d.advance (2 + p.length)) r := by
  have hlen : (frame p).length = 2 + p.length := by
    rw [frame_length]
    omega
  have hdrop := congrArg (List.drop 2) (h.take_rest (hlen.trans_le hrem))
  rw [hlen, List.drop_take, Nat.add_sub_cancel_left] at hdrop
  refine ⟨hdrop, ?_⟩
  rw [← hlen]
  exact h.advance (hlen.trans_le hrem)

/-- **One record.** If the rest of the input starts with a complete record,
`read_one_blob` delivers its payload and moves past it; if not, it reports the end
of the file or, with bytes left over, an invalid file. -/
theorem readOneBlob_of_feeds (hfeeds : Feeds d content) {wire : PerfBuffer}
    (hwire : ∀ p r, nextFrame? content = some (p, r) → wire.Fits p.length) :
    ∃ d', (Roomy d → Roomy d') ∧
      match nextFrame? content with
      | some (p, r) => d.readOneBlob wire = some (.success, d', wire.push p) ∧ Feeds d' r
      | none => d.readOneBlob wire =
          some (if content = [] then .eof else .invalidfile, d', wire) := by
  unfold readOneBlob
  obtain ⟨d₁, hroomy₁, ⟨h2, hfill₁, hfeeds₁, hrem₁⟩ | ⟨hshort, hfill₁⟩⟩ :=
    fill_of_feeds 2 (by decide) (fun nrem => if nrem = 0 then .eof else .invalidfile) 3 hfeeds
      (by omega) (by omega)
  · obtain ⟨hi, lo, tail, rfl⟩ : ∃ hi lo tail, content = hi :: lo :: tail := by
      match content, h2 with
      | hi :: lo :: tail, _ => exact ⟨hi, lo, tail, rfl⟩
    have hlt := ofBe16_lt hi lo
    simp only [hfill₁, Option.bind_eq_bind, Option.bind_some, ne_eq, not_true_eq_false, if_false,
      hfeeds₁.packetSize hrem₁]
    obtain ⟨d₂, hroomy₂, ⟨hlong, hfill₂, hfeeds₂, hrem₂⟩ | ⟨hshort, hfill₂⟩⟩ :=
      fill_of_feeds (2 + ofBe16 hi lo)
        (by simp only [dataSpace]; omega) (fun _ => .invalidfile)
        (ofBe16 hi lo + 3) hfeeds₁ (by omega) (by omega)
    · -- the whole record is buffered
      obtain ⟨p, r, hnext, hplen⟩ : ∃ p r, nextFrame? (hi :: lo :: tail) = some (p, r) ∧
          ofBe16 hi lo = p.length :=
        nextFrame?_of_le (by simp only [List.length_cons] at hlong; omega)
      obtain ⟨hframe, -⟩ := nextFrame?_eq_some.mp hnext
      rw [hframe] at hfeeds₂
      rw [hplen] at hrem₂ hfill₂
      obtain ⟨hpayload, hfeeds₃⟩ := hfeeds₂.record hrem₂
      refine ⟨d₂.advance (2 + p.length), fun hroomy => hroomy₂ (hroomy₁ hroomy), ?_⟩
      rw [hnext]
      refine ⟨?_, hfeeds₃⟩
      simp only [hfill₂, Option.bind_some, not_true_eq_false, if_false, hplen, hpayload,
        PerfBuffer.putmem_eq_push (hwire p r hnext)]
    · refine ⟨d₂, hroomy₂ ∘ hroomy₁, ?_⟩
      rw [nextFrame?_eq_none_of_lt (by simp only [List.length_cons] at hshort; omega)]
      simp [hfill₂]
  · refine ⟨d₁, hroomy₁, ?_⟩
    rw [nextFrame?_eq_none_of_short hshort]
    by_cases hnil : content = []
    · simp [hfill₁, hnil]
    · simp [hfill₁, hnil]

/-! ### The whole input -/

/-- Calls of `read_one_blob`, each into the cleared buffer, until one does not
succeed: the payloads, and that last result. At most `n` calls. -/
def readBlobs (wire : PerfBuffer) :
    Nat → PerfDatafile → Option (List Bytes × PerfResult × PerfDatafile)
  | 0, _ => none
  | n + 1, d => do
      let (result, d, blob) ← d.readOneBlob wire.clear
      if result = .success then
        let (blobs, result, d) ← readBlobs wire n d
        some (blob.base :: blobs, result, d)
      else some ([], result, d)

theorem readBlobs_of_feeds {wire : PerfBuffer} (hwire : maxPayload ≤ wire.length) {r : Bytes}
    (hr : nextFrame? r = none) :
    ∀ {ps : List Bytes} {d : PerfDatafile}, (∀ p ∈ ps, p.length ≤ maxPayload) →
      Feeds d (frames ps ++ r) → Roomy d →
      ∃ d', Roomy d' ∧ readBlobs wire (ps.length + 1) d =
        some (ps, if r = [] then .eof else .invalidfile, d') := by
  have hfits : wire.clear.Fits maxPayload := by
    simpa [PerfBuffer.Fits, PerfBuffer.clear] using hwire
  have hnext : ∀ content p r, nextFrame? content = some (p, r) → wire.clear.Fits p.length :=
    fun _ _ _ h => hfits.mono (nextFrame?_eq_some.mp h).2
  intro ps
  induction ps with
  | nil =>
      intro d _ hfeeds hroomy
      obtain ⟨d', hroomy', hread⟩ := readOneBlob_of_feeds hfeeds (hnext _)
      rw [frames_nil, List.nil_append, hr] at hread
      refine ⟨d', hroomy' hroomy, ?_⟩
      by_cases hnil : r = []
      · simp [readBlobs, hread, hnil]
      · simp [readBlobs, hread, hnil]
  | cons p ps ih =>
      intro d hps hfeeds hroomy
      have hp := hps p (List.mem_cons_self ..)
      obtain ⟨d₁, hroomy₁, hread⟩ := readOneBlob_of_feeds hfeeds (hnext _)
      rw [frames_cons, List.append_assoc, nextFrame?_frame_append hp] at hread
      obtain ⟨hread, hfeeds₁⟩ := hread
      obtain ⟨d', hroomy', hrec⟩ := ih (fun q hq => hps q (List.mem_cons_of_mem _ hq)) hfeeds₁
        (hroomy₁ hroomy)
      refine ⟨d', hroomy', ?_⟩
      rw [readBlobs, hread]
      simp only [List.length_cons, Option.bind_eq_bind, Option.bind_some, if_true, hrec,
        PerfBuffer.push_base (hfits.mono hp)]
      rfl

/-- An input of non-empty pieces, from a regular file or from standard input. -/
def blobInput (file hasPipe : Bool) (chunks : List Bytes) : PerfDatafile :=
  perfDatafileOpen (if file then some chunks.flatten.length else none) .tcpWireFormat 1 hasPipe
    { reads := chunks.map some, seeks := [], waits := [], spaces := [] }

/-- **The binary reader is the format.** Whatever the pieces and whether or not the
input is a file, the results are the payloads of the maximal run of complete
records, then end of file or, if bytes remain, an invalid file; and no `read` on
the way is without room. -/
theorem readBlobs_eq_splitFrames (content : Bytes) (chunks : List Bytes)
    (hchunks : ∀ c ∈ chunks, c ≠ []) (hcontent : chunks.flatten = content) (file hasPipe : Bool)
    (wire : PerfBuffer) (hwire : maxPayload ≤ wire.length) :
    ∃ d', readBlobs wire ((splitFrames content).1.length + 1) (blobInput file hasPipe chunks) =
        some ((splitFrames content).1,
          if (splitFrames content).2 = [] then .eof else .invalidfile, d') ∧
      ∀ space ∈ d'.source.spaces, 0 < space := by
  obtain ⟨hsplit, hmax, hnone⟩ := splitFrames_spec content
  have hfeeds : Feeds (blobInput file hasPipe chunks)
      (frames (splitFrames content).1 ++ (splitFrames content).2) := by
    rw [← hsplit, ← hcontent]
    refine ⟨⟨chunks, rfl, hchunks, rfl, ?_, ?_⟩, by simp [blobInput, perfDatafileOpen]⟩
    · simp [blobInput, perfDatafileOpen]
    · intro hfile
      cases file with
      | true => simp [blobInput, perfDatafileOpen]
      | false => simp [blobInput, perfDatafileOpen] at hfile
  obtain ⟨d', hroomy', hread⟩ := readBlobs_of_feeds hwire hnone hmax hfeeds
    (by simp [Roomy, blobInput, perfDatafileOpen])
  exact ⟨d', hread, hroomy'⟩

/-- Two records and half a length, on standard input in three pieces. -/
theorem readBlobs_two_records :
    ∃ d',
      readBlobs (PerfBuffer.init 65538) 3 (blobInput false false [[0], [1, 7, 0, 2], [8, 9, 0]]) =
        some ([[7], [8, 9]], .invalidfile, d') ∧
      ∀ space ∈ d'.source.spaces, 0 < space :=
  readBlobs_eq_splitFrames [0, 1, 7, 0, 2, 8, 9, 0] [[0], [1, 7, 0, 2], [8, 9, 0]] (by decide) rfl
    false false (PerfBuffer.init 65538) (by decide)

end Dnsperf.Datafile.PerfDatafile
