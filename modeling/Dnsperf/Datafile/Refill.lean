import Dnsperf.Datafile.Model

/-!
# Dnsperf.Datafile.Refill

What `read_more` does to the input as a whole. `Feeds d content` says which bytes a
reader in state `d` will still hand out: those in the buffer, then those the
operating system has yet to deliver, in whatever pieces. `read_more` moves bytes
from the second group to the first and changes nothing else.
-/

namespace Dnsperf.Datafile.PerfDatafile

open Dnsperf.Lib

variable {d d' : PerfDatafile} {content : Bytes}

@[simp] theorem length_rest (d : PerfDatafile) : d.rest.length = d.nrem := by
  simp [rest, nrem]

theorem nrem_le (d : PerfDatafile) : d.nrem ≤ dataSpace :=
  le_trans (Nat.sub_le _ _) d.have_le

/-- `content` is what is left of the input: the buffered bytes and then non-empty
pieces from the operating system. A cached file has no such pieces left. -/
structure Feeds (d : PerfDatafile) (content : Bytes) : Prop where
  pieces : ∃ chunks : List Bytes, d.source.reads = chunks.map some ∧ (∀ c ∈ chunks, c ≠ []) ∧
    d.rest ++ chunks.flatten = content ∧ (d.cached = true → chunks = []) ∧
    (d.isFile = true → d.databuf.length + chunks.flatten.length ≤ d.size)
  waits : ∀ w ∈ d.source.waits, w = .success

/-- The part of the state the readers leave alone. -/
def SameRun (d d' : PerfDatafile) : Prop :=
  d'.format = d.format ∧ d'.isFile = d.isFile ∧ d'.maxruns = d.maxruns ∧ d'.nruns = d.nruns ∧
    d'.readAny = d.readAny

theorem SameRun.refl (d : PerfDatafile) : SameRun d d := ⟨rfl, rfl, rfl, rfl, rfl⟩

theorem SameRun.trans {d'' : PerfDatafile} (h : SameRun d d') (h' : SameRun d' d'') :
    SameRun d d'' :=
  ⟨h'.1.trans h.1, h'.2.1.trans h.2.1, h'.2.2.1.trans h.2.2.1, h'.2.2.2.1.trans h.2.2.2.1,
    h'.2.2.2.2.trans h.2.2.2.2⟩

theorem Feeds.rest_le (h : Feeds d content) : d.nrem ≤ content.length := by
  obtain ⟨chunks, -, -, rfl, -, -⟩ := h.pieces
  simp

theorem Feeds.readAny (h : Feeds d content) (any : Bool) :
    Feeds { d with readAny := any } content :=
  ⟨h.pieces, h.waits⟩

theorem Feeds.rest_eq_of_cached (h : Feeds d content) (hc : d.cached = true) :
    d.rest = content := by
  obtain ⟨chunks, -, -, rfl, hcached, -⟩ := h.pieces
  simp [hcached hc]

theorem Feeds.advance {p r : Bytes} (h : Feeds d (p ++ r)) (hp : p.length ≤ d.nrem) :
    Feeds (d.advance p.length) r := by
  obtain ⟨chunks, hreads, hne, hcontent, hcached, hsize⟩ := h.pieces
  have hpos : (d.advance p.length).atPos = d.atPos + p.length := by
    have := d.atPos_le
    simp only [PerfDatafile.advance, nrem] at hp ⊢
    omega
  have hrest : (d.advance p.length).rest = d.rest.drop p.length := by
    rw [rest, hpos, rest, List.drop_drop]
    rfl
  refine ⟨⟨chunks, hreads, hne, ?_, hcached, hsize⟩, h.waits⟩
  rw [hrest, ← List.drop_append_of_le_length (by simpa using hp), hcontent, List.drop_left]

theorem Feeds.take_rest {p r : Bytes} (h : Feeds d (p ++ r)) (hp : p.length ≤ d.nrem) :
    d.rest.take p.length = p := by
  obtain ⟨chunks, -, -, hcontent, -, -⟩ := h.pieces
  have htake := congrArg (List.take p.length) hcontent
  rwa [List.take_append_of_le_length (by simpa using hp), List.take_left] at htake

/-! ### The pieces of `read_more` -/

/-- `d` with what is left moved to the front, and another source. -/
def front (d : PerfDatafile) (source : Source) : PerfDatafile :=
  { d with
    databuf := d.rest
    atPos := 0
    source := source
    atPos_le := Nat.zero_le _
    have_le := by rw [length_rest]; exact d.nrem_le }

/-- All three cases of the move do the same. -/
theorem compact_eq (d : PerfDatafile) : d.compact = d.front d.source := by
  unfold compact
  have hle := d.atPos_le
  split
  · rfl
  · split
    · rename_i heq
      apply PerfDatafile.ext <;> simp [front, rest, heq]
    · have h0 : d.atPos = 0 := by omega
      apply PerfDatafile.ext <;> simp [front, rest, h0]

theorem waitReadable_of_success (h : ∀ w ∈ d.source.waits, w = .success) :
    ∃ waits, (∀ w ∈ waits, w = .success) ∧
      d.waitReadable = (.success, { d with source := { d.source with waits := waits } }) := by
  unfold waitReadable
  split
  · cases hw : d.source.waits with
    | nil => exact ⟨[], by simp, by simp [← hw]⟩
    | cons w waits =>
        rw [hw] at h
        exact ⟨waits, fun w' hw' => h w' (List.mem_cons_of_mem _ hw'),
          by rw [h w (List.mem_cons_self ..)]⟩
  · exact ⟨d.source.waits, h, rfl⟩

theorem read_nil {s : Source} (hreads : s.reads = []) (space : Nat) :
    s.read space = (some [], { s with spaces := s.spaces ++ [space] }) := by
  simp only [Source.read, hreads]

theorem read_pieces {s : Source} {chunk : Bytes} {chunks : List Bytes}
    (hreads : s.reads = (chunk :: chunks).map some) (hne : ∀ c ∈ chunk :: chunks, c ≠ [])
    {space : Nat} (hspace : 0 < space) :
    ∃ (bytes : Bytes) (chunks' : List Bytes), bytes ≠ [] ∧ bytes.length ≤ space ∧
      (∀ c ∈ chunks', c ≠ []) ∧
      (chunk :: chunks).flatten = bytes ++ chunks'.flatten ∧
      s.read space = (some bytes,
        { s with reads := chunks'.map some, spaces := s.spaces ++ [space] }) := by
  have hchunk := hne chunk (List.mem_cons_self ..)
  by_cases hlt : space < chunk.length
  · refine ⟨chunk.take space, chunk.drop space :: chunks, ?_, by simp, ?_, ?_, ?_⟩
    · simp only [ne_eq, List.take_eq_nil_iff, not_or]
      exact ⟨by omega, hchunk⟩
    · intro c hc
      rcases List.mem_cons.mp hc with rfl | hc
      · simpa using hlt
      · exact hne c (List.mem_cons_of_mem _ hc)
    · rw [List.flatten_cons, List.flatten_cons, ← List.append_assoc, List.take_append_drop]
    · simp only [Source.read, hreads, List.map_cons, if_pos hlt]
  · refine ⟨chunk, chunks, hchunk, by omega, fun c hc => hne c (List.mem_cons_of_mem _ hc), by simp,
      ?_⟩
    simp only [Source.read, hreads, List.map_cons, if_neg hlt]

/-- `read` without room takes nothing, which looks like the end of the input. -/
theorem read_zero {s : Source} {chunks : List Bytes} (hreads : s.reads = chunks.map some)
    (hne : ∀ c ∈ chunks, c ≠ []) :
    s.read 0 = (some [], { s with spaces := s.spaces ++ [0] }) := by
  cases chunks with
  | nil => exact read_nil (by simpa using hreads) 0
  | cons chunk chunks =>
      have hpos := List.length_pos_of_ne_nil (hne chunk (List.mem_cons_self ..))
      simp only [Source.read, hreads, List.map_cons, if_pos hpos, List.take_zero, List.drop_zero]

theorem readMore_eq {waits : List PerfResult}
    (hwait : d.waitReadable = (.success, { d with source := { d.source with waits := waits } }))
    {n : Option Bytes} {source : Source}
    (hread : { d.source with waits := waits }.read (dataSpace - d.nrem) = (n, source)) :
    d.readMore = (d.front source).afterRead n := by
  have h : d.readMore = (fun r : Option Bytes × Source => (d.front r.2).afterRead r.1)
      ({ d.source with waits := waits }.read (dataSpace - d.rest.length)) := by
    unfold readMore
    rw [hwait]
    simp only [ne_eq, not_true_eq_false, if_false, compact_eq]
    rfl
  rw [h, length_rest, hread]

theorem Feeds.front (h : Feeds d content) (hnc : d.cached = false) (source : Source)
    (hreads : source.reads = d.source.reads) (hwaits : ∀ w ∈ source.waits, w = .success) :
    Feeds (d.front source) content := by
  obtain ⟨chunks, hchunks, hne, hcontent, -, hsize⟩ := h.pieces
  refine ⟨⟨chunks, hreads.trans hchunks, hne, hcontent, fun hc => ?_, fun hfile => ?_⟩, hwaits⟩
  · exact absurd (hnc.symm.trans hc) Bool.false_ne_true
  · have hle : d.nrem ≤ d.databuf.length := Nat.sub_le _ _
    have hsize' := hsize hfile
    simp only [PerfDatafile.front, length_rest]
    omega

/-- `d` after a `read` that delivered `bytes`. -/
def refilled (d : PerfDatafile) (source : Source) (bytes : Bytes) : PerfDatafile :=
  let d := (d.front source).append bytes
  { d with cached := d.cached || (d.isFile && d.databuf.length == d.size) }

section Refilled

variable {source : Source} {bytes : Bytes} {chunks : List Bytes}

theorem refilled_databuf (hlen : bytes.length ≤ dataSpace - d.nrem) :
    (d.refilled source bytes).databuf = d.rest ++ bytes := by
  simp only [refilled, append, PerfDatafile.front, length_rest]
  rw [List.take_of_length_le hlen]

theorem refilled_rest (hlen : bytes.length ≤ dataSpace - d.nrem) :
    (d.refilled source bytes).rest = d.rest ++ bytes := by
  rw [rest, refilled_databuf hlen]
  rfl

theorem refilled_nrem (hlen : bytes.length ≤ dataSpace - d.nrem) :
    (d.refilled source bytes).nrem = d.nrem + bytes.length := by
  rw [← length_rest, refilled_rest hlen, List.length_append, length_rest]

/-- A file is cached when the buffer has its size; then nothing is left to read. -/
theorem refilled_cached (hnc : d.cached = false) (hlen : bytes.length ≤ dataSpace - d.nrem)
    (hne : ∀ c ∈ chunks, c ≠ [])
    (hsize : d.isFile = true → d.databuf.length + (bytes ++ chunks.flatten).length ≤ d.size)
    (hc : (d.refilled source bytes).cached = true) : chunks = [] := by
  obtain ⟨hfile, hhave⟩ : d.isFile = true ∧ (d.refilled source bytes).databuf.length = d.size := by
    simpa [refilled, append, PerfDatafile.front, hnc] using hc
  have hle := hsize hfile
  rw [List.length_append] at hle
  rw [refilled_databuf hlen, List.length_append, length_rest, nrem] at hhave
  have hnil : chunks.flatten = [] := List.length_eq_zero_iff.mp (by omega)
  refine List.eq_nil_iff_forall_not_mem.mpr fun c hmem => ?_
  exact hne c hmem (List.flatten_eq_nil_iff.mp hnil c hmem)

theorem Feeds.refilled (hnc : d.cached = false) (hlen : bytes.length ≤ dataSpace - d.nrem)
    (hreads : source.reads = chunks.map some) (hne : ∀ c ∈ chunks, c ≠ [])
    (hcontent : d.rest ++ (bytes ++ chunks.flatten) = content)
    (hsize : d.isFile = true → d.databuf.length + (bytes ++ chunks.flatten).length ≤ d.size)
    (hwaits : ∀ w ∈ source.waits, w = .success) : Feeds (d.refilled source bytes) content := by
  refine ⟨⟨chunks, hreads, hne, ?_, refilled_cached hnc hlen hne hsize, fun hfile => ?_⟩, hwaits⟩
  · rw [refilled_rest hlen, List.append_assoc, hcontent]
  · have hle : d.nrem ≤ d.databuf.length := Nat.sub_le _ _
    have hsize' : d.databuf.length + (bytes ++ chunks.flatten).length ≤ d.size := hsize hfile
    change (d.refilled source bytes).databuf.length + chunks.flatten.length ≤ d.size
    rw [refilled_databuf hlen, List.length_append, length_rest]
    rw [List.length_append] at hsize'
    omega

end Refilled

/-- **One refill.** With room in the buffer, or an input that fits it, `read_more`
finds the end of the input exactly when everything is buffered, and otherwise adds
at least one byte; the input as a whole stays what it was. -/
theorem readMore_of_feeds (h : Feeds d content) (hnc : d.cached = false)
    (hroom : d.nrem < dataSpace ∨ content.length ≤ dataSpace) :
    ∃ d', Feeds d' content ∧ SameRun d d' ∧ (d.isFile = false → d'.cached = false) ∧
      d'.source.spaces = d.source.spaces ++ [dataSpace - d.nrem] ∧
      ((d.readMore = (.eof, d') ∧ d.rest = content ∧ d'.rest = content) ∨
        (d.readMore = (.success, d') ∧ d.nrem < d'.nrem)) := by
  obtain ⟨chunks, hreads, hne, hcontent, -, hsize⟩ := h.pieces
  obtain ⟨waits, hwaits, hwait⟩ := waitReadable_of_success h.waits
  cases chunks with
  | nil =>
      have hrest : d.rest = content := by simpa using hcontent
      have hmore := readMore_eq hwait (read_nil (by simpa using hreads) _)
      have hfeeds := h.front hnc { d.source with
        waits := waits, spaces := d.source.spaces ++ [dataSpace - d.nrem] } rfl hwaits
      exact ⟨_, hfeeds, ⟨rfl, rfl, rfl, rfl, rfl⟩, fun _ => hnc, rfl,
        Or.inl ⟨hmore, hrest, hrest⟩⟩
  | cons chunk chunks =>
      -- without room `read` would return 0, as at the end of the file
      have hspace : 0 < dataSpace - d.nrem := by
        rcases hroom with hlt | hfit
        · omega
        · have hpos : 0 < chunk.length :=
            List.length_pos_of_ne_nil (hne chunk (List.mem_cons_self ..))
          have hlen := congrArg List.length hcontent
          simp only [List.length_append, length_rest, List.flatten_cons] at hlen
          omega
      obtain ⟨bytes, chunks', hbytes, hlen, hne', hflat, hread⟩ :=
        read_pieces (s := { d.source with waits := waits }) hreads hne hspace
      obtain ⟨b, bytes, rfl⟩ := List.exists_cons_of_ne_nil hbytes
      rw [hflat] at hcontent hsize
      have hmore := readMore_eq hwait hread
      refine ⟨d.refilled _ (b :: bytes), Feeds.refilled hnc hlen rfl hne' hcontent hsize hwaits,
        ⟨rfl, rfl, rfl, rfl, rfl⟩, fun hfile => ?_, rfl, Or.inr ⟨hmore, ?_⟩⟩
      · simp [PerfDatafile.refilled, append, PerfDatafile.front, hnc, hfile]
      · rw [refilled_nrem hlen, List.length_cons]
        omega

end Dnsperf.Datafile.PerfDatafile
