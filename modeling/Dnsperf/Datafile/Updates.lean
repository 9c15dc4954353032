import Dnsperf.Datafile.Runs
import Dnsperf.Dns.UpdateSound

/-!
# Dnsperf.Datafile.Updates

**Updates as `perf_datafile_next` reads them.** It appends line after line to one buffer until
a line is `send`, and cuts each line to the room that is left.

* A line that is cut fills the buffer. The next one finds no room for its NUL and an assertion
  fails, so an update is read safely only if its lines before the last one leave room.
* It compares the whole line with `send`, while `build_update` compares its first word. A line
  like `send now` ends the update for the second and not for the first, and what follows it is
  read as part of the same update and dropped.
-/

namespace Dnsperf.Datafile.PerfDatafile

open Dnsperf.Lib Dnsperf.Dns

variable {d d' : PerfDatafile} {lines : PerfBuffer} {content left l : Bytes}

/-! ### The line that ends an update -/

/-- The test in `perf_datafile_next`. -/
def endsUpdate (line : Bytes) : Bool := line.length = 4 ∧ strncasecmpEq 4 line (ascii "send")

/-- `send` in lower case. -/
def sendWord : Bytes := [115, 101, 110, 100]

theorem endsUpdate_iff {line : Bytes} : endsUpdate line = true ↔ line.map tolower = sendWord := by
  have hcmp : strncasecmpEq 4 line (ascii "send") = true ↔ sendWord <+: line.map tolower := by
    have h := strncasecmpEq_iff (s := ascii "send") (by decide) line []
    rwa [List.append_nil] at h
  simp only [endsUpdate, decide_eq_true_eq]
  rw [hcmp]
  constructor
  · rintro ⟨hlen, hpre⟩
    exact (hpre.eq_of_length (by simp [sendWord, hlen])).symm
  · intro h
    have hlen := congrArg List.length h
    rw [List.length_map] at hlen
    exact ⟨hlen, h ▸ List.prefix_rfl⟩

/-- A character of the first word of a line. -/
def isWordChar (c : UInt8) : Bool := c != 0 && !whitespace.contains c

theorem commandToken_eq (line : Bytes) : commandToken line = line.takeWhile isWordChar :=
  (List.prefix_iff_eq_take.mp (List.takeWhile_prefix _)).symm

theorem isSend_iff {line : Bytes} :
    isSend line = true ↔ (line.takeWhile isWordChar).map tolower = sendWord := by
  have hzero : (0 : UInt8) ∉ line.takeWhile isWordChar := fun hmem =>
    absurd (List.mem_takeWhile_imp hmem) (by decide)
  have hcmp := strncasecmpEq_iff hzero (ascii "send") []
  rw [List.append_nil] at hcmp
  rw [isSend, commandToken_eq, tokenEquals, Bool.and_eq_true, beq_iff_eq, hcmp]
  constructor
  · rintro ⟨hlen, hpre⟩
    exact hpre.eq_of_length (by rw [List.length_map, List.length_map]; exact hlen.symm)
  · intro h
    have hlen := congrArg List.length h
    rw [List.length_map] at hlen
    exact ⟨hlen.symm, h ▸ List.prefix_rfl⟩

/-- Where the reader ends an update, so does the builder. -/
theorem isSend_of_endsUpdate {line : Bytes} (h : endsUpdate line = true) : isSend line = true := by
  rw [endsUpdate_iff] at h
  have hchar : ∀ n : Fin 256, tolower (UInt8.ofNat n) ∈ sendWord →
      isWordChar (UInt8.ofNat n) = true := by
    decide +kernel
  have hall : ∀ c ∈ line, isWordChar c = true := by
    intro c hc
    have hmem : tolower c ∈ sendWord := h ▸ List.mem_map_of_mem hc
    have hc' := hchar ⟨c.toNat, c.toNat_lt⟩
    simp only [UInt8.ofNat_toNat] at hc'
    exact hc' hmem
  rwa [isSend_iff, List.takeWhile_eq_self_iff.mpr hall]

/-- On a line that is its first word the two tests agree. -/
theorem endsUpdate_of_isSend {line : Bytes} (h : isSend line = true) (hlen : line.length = 4) :
    endsUpdate line = true := by
  rw [isSend_iff] at h
  have hlen' := congrArg List.length h
  rw [List.length_map] at hlen'
  have hall : line.takeWhile isWordChar = line :=
    (List.takeWhile_prefix _).eq_of_length (by rw [hlen', hlen]; rfl)
  rwa [endsUpdate_iff, ← hall]

/-! ### The updates of a file -/

/-- The record that the lines make up, with a NUL each. -/
def spelled (ls : List Bytes) : Bytes := (ls.map (· ++ [0])).flatten

/-- The bytes of some lines, with a NUL each. -/
def spelledLength (ls : List Bytes) : Nat := (ls.map (·.length + 1)).sum

/-- The lines `u` as they are in a buffer of that size: cut to it, with a NUL at the end. -/
def cutTo (size : Nat) (u : List Bytes) : Bytes := truncated size (spelled u).dropLast

/-- A line that is read after the lines `u` of an update ends it: as far as it fits the buffer, it
is `send`. -/
def endsAfter (size : Nat) (u : List Bytes) (l : Bytes) : Bool :=
  endsUpdate (l.take (size - spelledLength u - 1))

/-- The lines put together into updates, with the lines of the one that is being read. Its first
line, the zone, is not looked at. -/
def updatesFrom (size : Nat) : Option (List Bytes) → List Bytes → List (List Bytes)
  | none, [] => []
  | some u, [] => [u]
  | none, l :: ls => updatesFrom size (some [l]) ls
  | some u, l :: ls =>
      if endsAfter size u l then (u ++ [l]) :: updatesFrom size none ls
      else updatesFrom size (some (u ++ [l])) ls

/-- A zone line, and the lines up to and with `send` or the end of the file. -/
def updates (size : Nat) (ls : List Bytes) : List (List Bytes) := updatesFrom size none ls

/-- In every update the lines before the last one leave room. -/
def UpdatesFit (size : Nat) (us : List (List Bytes)) : Prop :=
  ∀ u ∈ us, spelledLength u.dropLast < size

theorem spelledLength_le_of_isPrefix {ls ls' : List Bytes} (h : ls <+: ls') :
    spelledLength ls ≤ spelledLength ls' := by
  obtain ⟨s, rfl⟩ := h
  simp [spelledLength]

theorem spelledLength_concat (ls : List Bytes) (l : Bytes) :
    spelledLength (ls ++ [l]) = spelledLength ls + (l.length + 1) := by
  simp [spelledLength]

theorem length_spelled (ls : List Bytes) : (spelled ls).length = spelledLength ls := by
  simp [spelled, spelledLength, List.length_flatten, Function.comp_def]

theorem spelled_concat (ls : List Bytes) (l : Bytes) :
    spelled (ls ++ [l]) = spelled ls ++ (l ++ [0]) := by
  simp [spelled]

theorem cutTo_concat {size : Nat} {u : List Bytes} (h : spelledLength u < size) (l : Bytes) :
    cutTo size (u ++ [l]) = spelled u ++ truncated (size - spelledLength u) l := by
  have hlen := length_spelled u
  rw [cutTo, spelled_concat, ← List.append_assoc, List.dropLast_concat, truncated, truncated,
    List.take_append, List.take_of_length_le (by omega), hlen, Nat.sub_right_comm,
    List.append_assoc]

theorem recordLines_spelled {ls : List Bytes} (h : ∀ l ∈ ls, (0 : UInt8) ∉ l) :
    recordLines (spelled ls) = ls := by
  induction ls with
  | nil => rfl
  | cons l ls ih =>
      have hspelled : spelled (l :: ls) = l ++ 0 :: spelled ls := by simp [spelled]
      rw [hspelled, recordLines_append_cons (h l (List.mem_cons_self ..)),
        ih fun l' hl' => h l' (List.mem_cons_of_mem _ hl')]

/-- The lines the builder finds in such a record. -/
theorem recordLines_cutTo {size : Nat} {u : List Bytes} {l : Bytes} (h : spelledLength u < size)
    (hu : ∀ l' ∈ u ++ [l], (0 : UInt8) ∉ l') :
    recordLines (cutTo size (u ++ [l])) = u ++ [l.take (size - spelledLength u - 1)] := by
  rw [cutTo_concat h, truncated, ← spelled_concat]
  refine recordLines_spelled fun l' hl' => ?_
  rcases List.mem_append.mp hl' with hl' | hl'
  · exact hu l' (List.mem_append_left _ hl')
  · rw [List.mem_singleton.mp hl']
    exact fun hmem => hu l (by simp) (List.mem_of_mem_take hmem)

theorem exists_updatesFrom (size : Nat) (u ls : List Bytes) :
    ∃ u' ∈ updatesFrom size (some u) ls, u <+: u' := by
  induction ls generalizing u with
  | nil => exact ⟨u, List.mem_singleton_self _, List.prefix_rfl⟩
  | cons l ls ih =>
      rw [updatesFrom]
      split
      · exact ⟨_, List.mem_cons_self .., List.prefix_append _ _⟩
      · obtain ⟨u', hmem, hpre⟩ := ih (u ++ [l])
        exact ⟨u', hmem, (List.prefix_append _ _).trans hpre⟩

theorem UpdatesFit.room {size : Nat} {u ls : List Bytes}
    (h : UpdatesFit size (updatesFrom size (some u) (l :: ls))) : spelledLength u < size := by
  obtain ⟨u', hmem, hpre⟩ : ∃ u' ∈ updatesFrom size (some u) (l :: ls), u ++ [l] <+: u' := by
    rw [updatesFrom]
    split
    · exact ⟨_, List.mem_cons_self .., List.prefix_rfl⟩
    · exact exists_updatesFrom size (u ++ [l]) ls
  have hle : spelledLength u ≤ spelledLength u'.dropLast := by
    obtain ⟨s, rfl⟩ := hpre
    refine spelledLength_le_of_isPrefix ?_
    rw [List.append_assoc, List.dropLast_append_of_ne_nil (by simp)]
    exact List.prefix_append _ _
  exact hle.trans_lt (h u' hmem)

/-- The lines `v` found room after `u`, and none of them ends the update. -/
def NotEnded (size : Nat) : List Bytes → List Bytes → Prop
  | _, [] => True
  | u, l :: v => spelledLength u < size ∧ endsAfter size u l = false ∧ NotEnded size (u ++ [l]) v

section NotEnded

variable {size : Nat} {u v ls : List Bytes}

theorem NotEnded.updatesFrom_append (h : NotEnded size u v) (ls : List Bytes) :
    updatesFrom size (some u) (v ++ ls) = updatesFrom size (some (u ++ v)) ls := by
  induction v generalizing u with
  | nil => rw [List.nil_append, List.append_nil]
  | cons l v ih =>
      rw [List.cons_append, updatesFrom, h.2.1, if_neg Bool.false_ne_true, ih h.2.2,
        List.append_assoc]
      rfl

/-- With room after them, no line of `v` was cut. -/
theorem NotEnded.endsUpdate_eq_false (h : NotEnded size u v)
    (hroom : spelledLength (u ++ v) < size) :
    ∀ l ∈ v, endsUpdate l = false := by
  induction v generalizing u with
  | nil => exact nofun
  | cons l v ih =>
      have happend : u ++ l :: v = (u ++ [l]) ++ v := by simp
      rw [happend] at hroom
      refine List.forall_mem_cons.mpr ⟨?_, ih h.2.2 hroom⟩
      have hle := (spelledLength_le_of_isPrefix (List.prefix_append (u ++ [l]) v)).trans_lt hroom
      rw [spelledLength_concat] at hle
      have hline := h.2.1
      rwa [endsAfter, List.take_of_length_le (by omega)] at hline

theorem NotEnded.of_concat {l : Bytes} (h : NotEnded size u (v ++ [l])) :
    NotEnded size u v ∧ spelledLength (u ++ v) < size := by
  induction v generalizing u with
  | nil => exact ⟨trivial, by rw [List.append_nil]; exact h.1⟩
  | cons l' v ih =>
      obtain ⟨hopen, hroom⟩ := ih h.2.2
      refine ⟨⟨h.1, h.2.1, hopen⟩, ?_⟩
      rwa [List.append_assoc] at hroom

end NotEnded

/-- What is delivered as an update: its lines before the last one fit, and none of them after the
zone line ends an update. -/
structure IsUpdate (size : Nat) (u : List Bytes) : Prop where
  ne_nil : u ≠ []
  fits : spelledLength u.dropLast < size
  not_ended : ∀ l ∈ u.dropLast.drop 1, endsUpdate l = false

theorem IsUpdate.concat {size : Nat} {zone l : Bytes} {v : List Bytes} (h : NotEnded size [zone] v)
    (hroom : spelledLength (zone :: v) < size) : IsUpdate size (zone :: (v ++ [l])) := by
  have hdrop : (zone :: (v ++ [l])).dropLast = zone :: v := by
    rw [← List.cons_append, List.dropLast_concat]
  exact ⟨List.cons_ne_nil _ _, hdrop ▸ hroom, hdrop ▸ h.endsUpdate_eq_false hroom⟩

theorem IsUpdate.of_notEnded {size : Nat} {zone : Bytes} {v : List Bytes} (hsize : 0 < size)
    (h : NotEnded size [zone] v) : IsUpdate size (zone :: v) := by
  rcases List.eq_nil_or_concat' v with rfl | ⟨w, l, rfl⟩
  · exact ⟨List.cons_ne_nil _ _, hsize, nofun⟩
  · obtain ⟨hopen, hroom⟩ := NotEnded.of_concat h
    exact .concat hopen hroom

/-! ### One line of an update -/

theorem zero_notMem_of_firstLine (h : d.firstLine = some (d', .ok l)) : (0 : UInt8) ∉ l :=
  zero_notMem_of_nextLine h

theorem readfunc_line (hformat : d.format = .textUpdate) (hroom : 0 < lines.availablelength)
    (h : d.firstLine = some (d', .ok l)) :
    d.readfunc lines = some (.success, d', lines.push (truncated lines.availablelength l)) := by
  simp only [readfunc, hformat]
  rw [readOneLine_ok lines h, if_pos hroom]

theorem readfunc_error (lines : PerfBuffer) (hformat : d.format = .textUpdate) {result : PerfResult}
    (h : d.firstLine = some (d', .error result)) : d.readfunc lines = some (result, d', lines) := by
  simp only [readfunc, hformat]
  exact readOneLine_error lines h

theorem updateLines_line (hformat : d.format = .textUpdate) (hroom : 0 < lines.availablelength)
    (h : d.firstLine = some (d', .ok l)) (fuel : Nat) :
    updateLines (fuel + 1) d lines =
      if endsUpdate (l.take (lines.availablelength - 1)) then
        some (d', lines.push (truncated lines.availablelength l))
      else updateLines fuel d' (lines.push (truncated lines.availablelength l)) := by
  have hline : cstr ((lines.push (truncated lines.availablelength l)).base.drop lines.usedlength) =
      l.take (lines.availablelength - 1) := by
    rw [PerfBuffer.push_base (fits_truncated hroom l), PerfBuffer.usedlength, List.drop_left,
      truncated]
    exact cstr_append_cons (fun hmem => zero_notMem_of_firstLine h (List.mem_of_mem_take hmem)) []
  rw [updateLines, readfunc_line hformat hroom h]
  simp only [Option.bind_eq_bind, Option.bind_some, reduceCtorEq, if_false, ne_eq,
    not_true_eq_false, hline, endsUpdate, decide_eq_true_eq]

/-- Without room for its NUL an assertion fails. -/
theorem updateLines_full (hformat : d.format = .textUpdate) (hroom : lines.availablelength = 0)
    (h : d.firstLine = some (d', .ok l)) (fuel : Nat) : updateLines (fuel + 1) d lines = none := by
  simp only [updateLines, readfunc, hformat]
  rw [readOneLine_ok lines h, if_neg (by omega)]
  rfl

theorem updateLines_eof (hformat : d.format = .textUpdate)
    (h : d.firstLine = some (d', .error .eof))
    (fuel : Nat) : updateLines (fuel + 1) d lines = d'.endRun.map fun d'' => (d'', lines) := by
  rw [updateLines, readfunc_error lines hformat h]
  simp only [Option.bind_eq_bind, Option.bind_some, if_true, ne_eq, reduceCtorEq, not_false_eq_true]
  cases d'.endRun <;> rfl

theorem perfDatafileNext_zone {d₁ : PerfDatafile} {lines₁ : PerfBuffer}
    (hruns : ¬ (0 < d.maxruns ∧ d.maxruns = d.nruns)) (hformat : d₁.format = .textUpdate)
    (h : d.readfunc lines = some (.success, d₁, lines₁)) :
    d.perfDatafileNext lines = (updateLines (d₁.source.pending + d₁.nrem + 1)
      { d₁ with readAny := true } lines₁).map fun r => (.success, r.1, r.2) := by
  simp only [perfDatafileNext, if_neg hruns, h, Option.bind_eq_bind, Option.bind_some, reduceCtorEq,
    false_and, if_false, ne_eq, not_true_eq_false, hformat, if_true, Option.map_eq_bind]
  rfl

theorem perfDatafileNext_zone_again {d₁ d₂ d₃ : PerfDatafile} {lines₁ : PerfBuffer}
    (hruns : ¬ (0 < d.maxruns ∧ d.maxruns = d.nruns)) (hany : d₁.readAny = true)
    (hread : d.readfunc lines = some (.eof, d₁, lines)) (hend : d₁.endRun = some d₂)
    (hmore : d₂.maxruns ≠ d₂.nruns) (hformat : d₃.format = .textUpdate)
    (h : d₂.readfunc lines = some (.success, d₃, lines₁)) :
    d.perfDatafileNext lines = (updateLines (d₃.source.pending + d₃.nrem + 1)
      { d₃ with readAny := true } lines₁).map fun r => (.success, r.1, r.2) := by
  simp only [perfDatafileNext, if_neg hruns, hread, Option.bind_eq_bind, Option.bind_some,
    reduceCtorEq, hany, Bool.not_true, Bool.false_eq_true, and_false, hend, if_pos hmore, h,
    if_true, if_false, ne_eq, not_true_eq_false, hformat, Option.map_eq_bind]
  rfl

theorem availablelength_of_cutTo {size : Nat} {u : List Bytes} (hu : u ≠ [])
    (hsize : lines.length = size) (hpos : 0 < size) (hbase : lines.base = cutTo size u) :
    lines.availablelength = size - spelledLength u := by
  obtain ⟨w, l, rfl⟩ := (List.eq_nil_or_concat' u).resolve_left hu
  have hlen : (spelled (w ++ [l])).dropLast.length + 1 = spelledLength (w ++ [l]) := by
    rw [← length_spelled, List.length_dropLast, spelled_concat]
    simp only [List.length_append, List.length_singleton]
    omega
  have hused : lines.base.length = min (size - 1) (spelledLength (w ++ [l]) - 1) + 1 := by
    rw [hbase, cutTo, truncated, List.length_append, List.length_take, List.length_singleton]
    omega
  rw [PerfBuffer.availablelength, PerfBuffer.usedlength, hused]
  omega

theorem push_cutTo {size : Nat} {u : List Bytes} (hu : u ≠ []) (hsize : lines.length = size)
    (hpos : 0 < size) (hbase : lines.base = cutTo size u) (hroom : spelledLength u < size)
    (l : Bytes) :
    (lines.push (truncated lines.availablelength l)).base = cutTo size (u ++ [l]) := by
  have havail := availablelength_of_cutTo hu hsize hpos hbase
  obtain ⟨w, l', rfl⟩ := (List.eq_nil_or_concat' u).resolve_left hu
  have hwhole : cutTo size (w ++ [l']) = spelled (w ++ [l']) := by
    rw [spelledLength_concat] at hroom
    rw [cutTo_concat (by omega), truncated_of_le (by omega), spelled_concat]
  rw [PerfBuffer.push_base (fits_truncated (by omega) l), hbase, hwhole, cutTo_concat hroom, havail]

theorem push_zone {size : Nat} (hempty : lines.base = []) (hsize : lines.length = size)
    (hpos : 0 < size) (zone : Bytes) :
    (lines.push (truncated lines.availablelength zone)).base = cutTo size [zone] := by
  have havail : lines.availablelength = size := by
    simp [PerfBuffer.availablelength, PerfBuffer.usedlength, hempty, hsize]
  rw [PerfBuffer.push_base (fits_truncated (by omega) zone), hempty, havail]
  simp [cutTo, spelled]

/-! ### The lines of a pass -/

/-- The lines that are still to come: of a file that fits the buffer all, and of a longer one those
before the first that does not fit. -/
def linesLeft (content left : Bytes) : List Bytes :=
  if content.length ≤ dataSpace then textLines left else reachedLines left

theorem reachedLines_isPrefix (left : Bytes) : reachedLines left <+: linesOf false left := by
  simp only [reachedLines, linesOf, Bool.false_eq_true, if_false, List.append_nil]
  exact (List.takeWhile_prefix _).filter _

theorem linesLeft_isPrefix (content left : Bytes) : linesLeft content left <+: textLines left := by
  rw [linesLeft]
  split
  · exact List.prefix_rfl
  · refine (reachedLines_isPrefix left).trans ?_
    simp only [textLines, linesOf, Bool.false_eq_true, if_false, if_true, List.append_nil,
      List.filter_append]
    exact List.prefix_append _ _

theorem length_linesLeft_le (content left : Bytes) :
    (linesLeft content left).length ≤ left.length :=
  (linesLeft_isPrefix content left).length_le.trans (linesOf_length_le true left).1

theorem Within.length_le (h : Within content d) (hc : d.cached = true) :
    content.length ≤ dataSpace := by
  rw [← h.cached hc]
  exact d.have_le

/-- What `read_one_line` finds: the first of the lines that are left, or the end of the file. The
latter may come one line too early, if the file fits the buffer but is not cached. -/
theorem firstLine_cases (hwithin : Within content d) (hfeeds : Feeds d left) :
    (∃ d' l left', d.firstLine = some (d', .ok l) ∧ Moves d d' ∧ Feeds d' left' ∧
      linesLeft content left = l :: linesLeft content left') ∨
    ∃ d' left', d.firstLine = some (d', .error .eof) ∧ Moves d d' ∧ AtEnd d' left' ∧
      ((content.length ≤ dataSpace → d'.cached = true) → linesLeft content left = []) := by
  obtain ⟨⟨d', found⟩, hr, hnext⟩ := firstLine_spec hfeeds
  have hmoves : Moves d d' := nextLine_moves hr
  obtain ⟨hwithin', -⟩ := hmoves.within hwithin
  cases hnext with
  | @line _ l left' hfeeds' _ htext hreached =>
      refine .inl ⟨d', l, left', hr, hmoves, hfeeds', ?_⟩
      simp only [linesLeft]
      split
      · exact htext
      · rename_i hlong
        exact hreached (.inl (Bool.eq_false_iff.mpr fun hc => hlong (hwithin'.length_le hc)))
  | @eof _ left' hdone _ htext hreached _ =>
      refine .inr ⟨d', left', hr, hmoves, hdone, fun hcached => ?_⟩
      rw [linesLeft]
      split
      · rename_i hfit
        rw [htext, hdone.nothing (hcached hfit)]
        rfl
      · exact hreached

/-! ### The lines of an update -/

/-- What the loop does that collects the lines of an update after the lines `u`, in a buffer of that
size: a line finds no room and an assertion fails, or a line ends the update, or the file ends. -/
inductive Collected (content : Bytes) (size : Nat) (u : List Bytes) (d : PerfDatafile)
    (left : Bytes) :
    Option (PerfDatafile × PerfBuffer) → Prop
  | full {v ls : List Bytes} {l : Bytes} : linesLeft content left = v ++ l :: ls →
      NotEnded size u v → size ≤ spelledLength (u ++ v) → Collected content size u d left none
  | ended {v : List Bytes} {l left' : Bytes} {d' : PerfDatafile} {lines' : PerfBuffer} :
      linesLeft content left = v ++ l :: linesLeft content left' → NotEnded size u v →
      spelledLength (u ++ v) < size → endsAfter size (u ++ v) l = true → Moves d d' →
      Feeds d' left' → lines'.base = cutTo size (u ++ (v ++ [l])) →
      Collected content size u d left (some (d', lines'))
  | eof {v : List Bytes} {left' : Bytes} {d' : PerfDatafile} {lines' : PerfBuffer} :
      v <+: linesLeft content left →
      ((content.length ≤ dataSpace → d'.cached = true) → linesLeft content left = v) →
      NotEnded size u v → Moves d d' → AtEnd d' left' → lines'.base = cutTo size (u ++ v) →
      Collected content size u d left (d'.endRun.map fun d'' => (d'', lines'))

theorem Collected.next {size : Nat} {u : List Bytes} {d₁ : PerfDatafile} {left₁ : Bytes}
    {out : Option (PerfDatafile × PerfBuffer)} (h : Collected content size (u ++ [l]) d₁ left₁ out)
    (hleft : linesLeft content left = l :: linesLeft content left₁) (hroom : spelledLength u < size)
    (hends : endsAfter size u l = false) (hmoves : Moves d d₁) :
    Collected content size u d left out := by
  have happend : ∀ v, (u ++ [l]) ++ v = u ++ l :: v := fun v => by simp
  cases h with
  | full hlines hopen hfull =>
      exact .full (v := l :: _) (by rw [hleft, hlines]; rfl) ⟨hroom, hends, hopen⟩
        (happend _ ▸ hfull)
  | ended hlines hopen hroom' hends' hmoves' hfeeds hbase =>
      refine .ended (v := l :: _) (by rw [hleft, hlines]; rfl) ⟨hroom, hends, hopen⟩
        (happend _ ▸ hroom') (happend _ ▸ hends') (hmoves.trans hmoves') hfeeds ?_
      rw [hbase, happend]
      rfl
  | eof hstarts hexact hopen hmoves' hdone hbase =>
      refine .eof (v := l :: _) ?_ (fun hcached => ?_) ⟨hroom, hends, hopen⟩
        (hmoves.trans hmoves') hdone (happend _ ▸ hbase)
      · rw [hleft]
        exact List.cons_prefix_cons.mpr ⟨rfl, hstarts⟩
      · rw [hleft, hexact hcached]

/-- **The loop**, by induction on the lines it may still read. -/
theorem updateLines_collected {size : Nat} (fuel : Nat) {d : PerfDatafile} {lines : PerfBuffer}
    {left : Bytes} {u : List Bytes} (hformat : d.format = .textUpdate) (hwithin : Within content d)
    (hfeeds : Feeds d left) (hfuel : (linesLeft content left).length < fuel) (hu : u ≠ [])
    (hsize : lines.length = size) (hpos : 0 < size) (hbase : lines.base = cutTo size u) :
    Collected content size u d left (updateLines fuel d lines) := by
  induction fuel generalizing d lines left u with
  | zero => exact absurd hfuel (Nat.not_lt_zero _)
  | succ fuel ih =>
      have havail := availablelength_of_cutTo hu hsize hpos hbase
      obtain ⟨d', l, left', hr, hmoves, hfeeds', hleft⟩ | ⟨d', left', hr, hmoves, hdone, hexact⟩ :=
        firstLine_cases hwithin hfeeds
      · rcases Nat.lt_or_ge (spelledLength u) size with hroom | hfull
        · have hadded := push_cutTo hu hsize hpos hbase hroom l
          rw [updateLines_line hformat (by omega) hr, havail, ← endsAfter]
          rw [havail] at hadded
          by_cases hends : endsAfter size u l = true
          · rw [if_pos hends]
            exact .ended (v := []) hleft trivial (by simpa using hroom)
              (by simpa using hends) hmoves hfeeds' hadded
          · rw [if_neg hends]
            rw [hleft, List.length_cons] at hfuel
            obtain ⟨hwithin', hsame⟩ := hmoves.within hwithin
            have hrest := ih (hsame.1.trans hformat) hwithin' hfeeds' (by omega)
              (List.append_ne_nil_of_right_ne_nil u (List.cons_ne_nil l []))
              ((lines.push_length _).trans hsize) hadded
            exact hrest.next hleft hroom (Bool.eq_false_iff.mpr hends) hmoves
        · rw [updateLines_full hformat (by omega) hr]
          exact .full (v := []) hleft trivial (by simpa using hfull)
      · rw [updateLines_eof hformat hr]
        exact .eof (List.nil_prefix) hexact trivial hmoves hdone (by simpa using hbase)

/-! ### Between two calls -/

/-- Where a reader of updates is between two calls: in the last run's end, or at the end of the file
as it was found, or at some point of the file from which the lines that are left are such as `Q`
says. -/
structure Between (content : Bytes) (Q : List Bytes → Prop) (d : PerfDatafile) : Prop where
  format : d.format = .textUpdate
  within : Within content d
  left : (0 < d.maxruns ∧ d.maxruns = d.nruns) ∨ (∃ left, AtEnd d left) ∨
    ∃ left, Feeds d left ∧ Q (linesLeft content left)

section Call

variable {Q : List Bytes → Prop}

theorem Moves.format (h : Moves d d') (hwithin : Within content d)
    (hformat : d.format = .textUpdate) :
    d'.format = .textUpdate :=
  (h.within hwithin).2.1.trans hformat

/-- The end of a pass: the file is read again, or it was the last one. Without a limit there is no
last one, but the file is not read again when `nruns` comes back to 0. -/
theorem Between.endRun (hformat : d.format = .textUpdate) (hwithin : Within content d)
    (hdone : AtEnd d left) (hQ : Q (linesLeft content content)) (h : d.endRun = some d') :
    Between content Q d' := by
  obtain ⟨hwithin', -, hsame, hfeeds⟩ := hwithin.of_endRun h
  refine ⟨hsame.1.trans hformat, hwithin', ?_⟩
  by_cases hlast : d.maxruns = (d.nruns + 1) % 2 ^ 32
  · have hend : d.endRun = some { d with nruns := (d.nruns + 1) % 2 ^ 32 } := by
      simp [PerfDatafile.endRun, hlast]
    obtain rfl := Option.some.inj (hend.symm.trans h)
    rcases Nat.eq_zero_or_pos d.maxruns with hzero | hpos
    · exact .inr (.inl ⟨left, ⟨hdone.feeds.pieces, hdone.feeds.waits⟩, hdone.line_open,
        hdone.nothing, hdone.stuck⟩)
    · exact .inl ⟨hpos, hlast⟩
  · exact .inr (.inr ⟨content, hfeeds hlast, hQ⟩)

theorem Rereads.endRun {k : Nat} (hwithin : Within content d) (h : Rereads (k + 1) d) :
    ∃ d', d.endRun = some d' ∧ Rereads k d' := by
  by_cases hlast : d.maxruns = (d.nruns + 1) % 2 ^ 32
  · refine ⟨{ d with nruns := (d.nruns + 1) % 2 ^ 32 }, by simp [PerfDatafile.endRun, hlast], ?_⟩
    exact h.imp id fun hle => Nat.le_of_succ_le hle
  · have hseek : d.cached = true ∨ d.source.seeks ≠ [] := by
      refine h.imp id fun hle hnil => ?_
      rw [hnil, List.length_nil] at hle
      omega
    obtain ⟨d', hend, -, -, -, hrereads⟩ := hwithin.reopen hlast hseek
    exact ⟨d', hend, hrereads k h⟩

/-- The call has read a zone line, and goes on to collect the lines of the update. -/
structure ZoneRead (content : Bytes) (Q : List Bytes → Prop) (d : PerfDatafile) (lines : PerfBuffer)
    (d₁ : PerfDatafile) (zone left : Bytes) : Prop where
  format : d₁.format = .textUpdate
  within : Within content d₁
  feeds : Feeds d₁ left
  lines_left : Q (zone :: linesLeft content left)
  rereads : ∀ k, Rereads (k + 1) d → Rereads k d₁
  next : d.perfDatafileNext lines = (updateLines (d₁.source.pending + d₁.nrem + 1) d₁
    (lines.push (truncated lines.availablelength zone))).map fun r => (.success, r.1, r.2)

/-- The call returns without an update. -/
structure NoUpdate (content : Bytes) (Q : List Bytes → Prop) (d : PerfDatafile) (lines : PerfBuffer)
    (result : PerfResult) (d' : PerfDatafile) : Prop where
  failed : result ≠ .success
  between : Between content Q d'
  rereads : ∀ k, Rereads (k + 1) d → Rereads k d'
  next : d.perfDatafileNext lines = some (result, d', lines)

theorem zoneRead_of_firstLine {d₀ d₁ : PerfDatafile} {zone left' : Bytes}
    (hformat : d₀.format = .textUpdate) (hwithin : Within content d₀)
    (hleft : Q (linesLeft content left)) (hrereads : ∀ k, Rereads (k + 1) d → Rereads k d₀)
    (hmoves : Moves d₀ d₁) (hfeeds : Feeds d₁ left')
    (hlines : linesLeft content left = zone :: linesLeft content left')
    (hnext : d₁.format = .textUpdate → d.perfDatafileNext lines =
      (updateLines (d₁.source.pending + d₁.nrem + 1) { d₁ with readAny := true }
        (lines.push (truncated lines.availablelength zone))).map fun r => (.success, r.1, r.2)) :
    ZoneRead content Q d lines { d₁ with readAny := true } zone left' := by
  have hformat₁ := hmoves.format hwithin hformat
  exact ⟨hformat₁, (hmoves.within hwithin).1.readAny true, hfeeds.readAny true, hlines ▸ hleft,
    fun k hk => hmoves.rereads (hrereads k hk), hnext hformat₁⟩

theorem Between.call_eof {d₁ : PerfDatafile} (hd : Between content Q d)
    (hQ : Q (linesLeft content content)) (hroom : 0 < lines.availablelength)
    (hruns : ¬ (0 < d.maxruns ∧ d.maxruns = d.nruns))
    (heof : d.firstLine = some (d₁, .error .eof)) (hdone : AtEnd d₁ left)
    (hany : d₁.readAny = true) :
    (∃ result d', NoUpdate content Q d lines result d') ∨
      (∃ d₁ zone left, ZoneRead content Q d lines d₁ zone left) ∨
      (d.perfDatafileNext lines = none ∧ ¬ Rereads 1 d) := by
  have hmoves : Moves d d₁ := nextLine_moves heof
  obtain ⟨hwithin₁, -⟩ := hmoves.within hd.within
  have hread := readfunc_error lines hd.format heof
  cases hend : d₁.endRun with
  | none =>
      refine .inr (.inr ⟨by simp [perfDatafileNext, hruns, hread, hany, hend], fun hre => ?_⟩)
      obtain ⟨d', hend', -⟩ := Rereads.endRun (k := 0) hwithin₁ (hmoves.rereads hre)
      cases hend.symm.trans hend'
  | some d₂ =>
      have hd₂ : Between content Q d₂ :=
        .endRun (hmoves.format hd.within hd.format) hwithin₁ hdone hQ hend
      have hrereads₂ : ∀ k, Rereads (k + 1) d → Rereads k d₂ := by
        intro k hk
        obtain ⟨d', hend', hk'⟩ := Rereads.endRun hwithin₁ (hmoves.rereads hk)
        rwa [Option.some.inj (hend.symm.trans hend')]
      by_cases hlast : d₂.maxruns = d₂.nruns
      · exact .inl ⟨.eof, d₂, by decide, hd₂, hrereads₂,
          by simp [perfDatafileNext, hruns, hread, hany, hend, hlast]⟩
      -- the file is read again, and may be at its end at once
      have noUpdate_again : ∀ {d₃ : PerfDatafile} {left₃ : Bytes},
          d₂.firstLine = some (d₃, .error .eof) → AtEnd d₃ left₃ →
          ∃ result d', NoUpdate content Q d lines result d' := by
        intro d₃ left₃ hr hdone₃
        have hread₂ := readfunc_error lines hd₂.format hr
        have hmoves₃ : Moves d₂ d₃ := nextLine_moves hr
        refine ⟨.eof, d₃, by decide, ⟨hmoves₃.format hd₂.within hd₂.format,
          (hmoves₃.within hd₂.within).1, .inr (.inl ⟨left₃, hdone₃⟩)⟩,
          fun k hk => hmoves₃.rereads (hrereads₂ k hk), ?_⟩
        simp [perfDatafileNext, hruns, hread, hany, hend, hlast, hread₂]
      obtain ⟨left₂, hdone₂⟩ | ⟨left₂, hfeeds, hleft⟩ := hd₂.left.resolve_left fun h => hlast h.2
      · obtain ⟨d₃, hr, hdone₃⟩ := hdone₂.firstLine
        exact .inl (noUpdate_again hr hdone₃)
      obtain ⟨d₃, zone, left', hr, hmoves₃, hfeeds₃, hlines⟩ | ⟨d₃, left', hr, -, hdone₃, -⟩ :=
        firstLine_cases hd₂.within hfeeds
      · have hread₂ := readfunc_line hd₂.format hroom hr
        have hzone := zoneRead_of_firstLine hd₂.format hd₂.within hleft hrereads₂ hmoves₃ hfeeds₃
          hlines fun hformat =>
            perfDatafileNext_zone_again hruns hany hread hend hlast hformat hread₂
        exact .inr (.inl ⟨_, zone, left', hzone⟩)
      · exact .inl (noUpdate_again hr hdone₃)

/-- What a call does first: it returns without an update, or it has read a zone line, or it cannot
go back to the start of the file. -/
theorem Between.call (hd : Between content Q d) (hQ : Q (linesLeft content content))
    (hroom : 0 < lines.availablelength) :
    (∃ result d', NoUpdate content Q d lines result d') ∨
      (∃ d₁ zone left, ZoneRead content Q d lines d₁ zone left) ∨
      (d.perfDatafileNext lines = none ∧ ¬ Rereads 1 d) := by
  have hless : ∀ k, Rereads (k + 1) d → Rereads k d := fun k hk => hk.imp id Nat.le_of_succ_le
  by_cases hruns : 0 < d.maxruns ∧ d.maxruns = d.nruns
  · exact .inl ⟨.eof, d, by decide, hd, hless, by rw [perfDatafileNext, if_pos hruns]⟩
  have heof : ∀ {d₁ : PerfDatafile} {left : Bytes}, d.firstLine = some (d₁, .error .eof) →
      AtEnd d₁ left → (∃ result d', NoUpdate content Q d lines result d') ∨
        (∃ d₁ zone left, ZoneRead content Q d lines d₁ zone left) ∨
        (d.perfDatafileNext lines = none ∧ ¬ Rereads 1 d) := by
    intro d₁ left hr hdone
    by_cases hany : d₁.readAny = true
    · exact hd.call_eof hQ hroom hruns hr hdone hany
    · have hread := readfunc_error lines hd.format hr
      have hmoves : Moves d d₁ := nextLine_moves hr
      exact .inl ⟨.invalidfile, d₁, by decide, ⟨hmoves.format hd.within hd.format,
        (hmoves.within hd.within).1, .inr (.inl ⟨left, hdone⟩)⟩,
        fun k hk => hmoves.rereads (hless k hk), by simp [perfDatafileNext, hruns, hread, hany]⟩
  obtain ⟨left, hdone⟩ | ⟨left, hfeeds, hleft⟩ := hd.left.resolve_left hruns
  · obtain ⟨d₁, hr, hdone₁⟩ := hdone.firstLine
    exact heof hr hdone₁
  obtain ⟨d₁, zone, left', hr, hmoves, hfeeds₁, hlines⟩ | ⟨d₁, left', hr, -, hdone, -⟩ :=
    firstLine_cases hd.within hfeeds
  · have hread := readfunc_line hd.format hroom hr
    exact .inr (.inl ⟨_, zone, left', zoneRead_of_firstLine hd.format hd.within hleft hless hmoves
      hfeeds₁ hlines fun hformat => perfDatafileNext_zone hruns hformat hread⟩)
  · exact heof hr hdone

theorem ZoneRead.collected (size : Nat) {d₁ : PerfDatafile} {zone left : Bytes}
    (h : ZoneRead content Q d lines d₁ zone left) (hempty : lines.base = [])
    (hsize : lines.length = size) (hpos : 0 < size) :
    ∃ out, d.perfDatafileNext lines = out.map (fun r => (.success, r.1, r.2)) ∧
      Collected content size [zone] d₁ left out := by
  have hle := h.feeds.rest_le
  have hcount := length_linesLeft_le content left
  have hfuel : (linesLeft content left).length < d₁.source.pending + d₁.nrem + 1 := by
    rw [h.feeds.pending_eq]
    omega
  exact ⟨_, h.next, updateLines_collected _ h.format h.within h.feeds hfuel
    (List.cons_ne_nil _ _) hsize hpos (push_zone hempty hsize hpos zone)⟩

/-- `Q` holds after an update if it holds at its zone line. -/
def PassedOn (size : Nat) (Q : List Bytes → Prop) : Prop :=
  ∀ {zone l : Bytes} {v ls : List Bytes}, Q (zone :: (v ++ l :: ls)) → NotEnded size [zone] v →
    endsAfter size (zone :: v) l = true → Q ls

/-- What a call does: it returns without an update, or a line finds no room, or it cannot go back
to the start of the file, or it delivers an update. -/
inductive Called (content : Bytes) (Q : List Bytes → Prop) (size : Nat) (d : PerfDatafile) :
    Option (PerfResult × PerfDatafile × PerfBuffer) → Prop
  | failed {result : PerfResult} {d' : PerfDatafile} {lines' : PerfBuffer} : result ≠ .success →
      Between content Q d' → (∀ k, Rereads (k + 2) d → Rereads k d') →
      Called content Q size d (some (result, d', lines'))
  | full {zone l : Bytes} {v ls : List Bytes} : Q (zone :: (v ++ l :: ls)) →
      NotEnded size [zone] v → size ≤ spelledLength (zone :: v) → Called content Q size d none
  | stuck : ¬ Rereads 2 d → Called content Q size d none
  | update {u ls : List Bytes} {d' : PerfDatafile} {lines' : PerfBuffer} : Q ls → u <+: ls →
      IsUpdate size u → lines'.base = cutTo size u → Between content Q d' →
      (∀ k, Rereads (k + 2) d → Rereads k d') →
      Called content Q size d (some (.success, d', lines'))

/-- **One call.** -/
theorem Between.called {size : Nat} (hd : Between content Q d) (hQ : Q (linesLeft content content))
    (hpassed : PassedOn size Q) (hempty : lines.base = []) (hsize : lines.length = size)
    (hpos : 0 < size) : Called content Q size d (d.perfDatafileNext lines) := by
  have hroom : 0 < lines.availablelength := by
    simpa [PerfBuffer.availablelength, PerfBuffer.usedlength, hempty, hsize] using hpos
  have hless : ∀ {k : Nat} {d' : PerfDatafile}, Rereads (k + 1) d' → Rereads k d' :=
    fun hk => hk.imp id Nat.le_of_succ_le
  obtain ⟨result, d', hno⟩ | ⟨d₁, zone, left, hzone⟩ | ⟨hnone, hstuck⟩ := hd.call hQ hroom
  · rw [hno.next]
    exact .failed hno.failed hno.between fun k hk => hno.rereads k (hless hk)
  · obtain ⟨out, hnext, hout⟩ := hzone.collected size hempty hsize hpos
    rw [hnext]
    cases hout with
    | full hlines hopen hfull => exact .full (hlines ▸ hzone.lines_left) hopen hfull
    -- a `send` ends the update; the call after it goes on in the same run
    | ended hlines hopen hroom' hends hmoves hfeeds hbase =>
        have hleft := hzone.lines_left
        rw [hlines] at hleft
        refine .update hleft ?_ (.concat hopen hroom') hbase
          ⟨hmoves.format hzone.within hzone.format,
          (hmoves.within hzone.within).1, .inr (.inr ⟨_, hfeeds, hpassed hleft hopen hends⟩)⟩
          fun k hk => hmoves.rereads (hless (hzone.rereads _ hk))
        exact List.cons_prefix_cons.mpr ⟨rfl, by simp⟩
    -- so does the end of the file, with the next run
    | @eof _ _ d₂ _ hstarts _ hopen hmoves hdone hbase =>
        obtain ⟨hwithin₂, -⟩ := hmoves.within hzone.within
        cases hend : d₂.endRun with
        | none =>
            refine .stuck fun hre => ?_
            obtain ⟨_, hend', -⟩ :=
              Rereads.endRun (k := 0) hwithin₂ (hmoves.rereads (hzone.rereads _ hre))
            cases hend.symm.trans hend'
        | some d' =>
            refine .update hzone.lines_left (List.cons_prefix_cons.mpr ⟨rfl, hstarts⟩)
              (.of_notEnded hpos hopen) hbase
              (.endRun (hmoves.format hzone.within hzone.format) hwithin₂ hdone hQ hend)
              fun k hk => ?_
            obtain ⟨_, hend', hk'⟩ := Rereads.endRun hwithin₂ (hmoves.rereads (hzone.rereads _ hk))
            rwa [Option.some.inj (hend.symm.trans hend')]
  · rw [hnone]
    exact .stuck fun hre => hstuck (hless hre)

theorem between_seekableInput (hQ : Q (linesLeft content content)) (named hasPipe : Bool)
    (maxruns : Nat) {reads : List (Option Bytes)} {seeks : List (List (Option Bytes))}
    (hreads : IsPass content reads) (hseeks : ∀ reads ∈ seeks, IsPass content reads) :
    Between content Q (seekableInput named hasPipe .textUpdate maxruns content reads seeks) :=
  ⟨rfl, within_seekableInput hreads hseeks, .inr (.inr ⟨content, feeds_seekableInput hreads, hQ⟩)⟩

end Call

/-! ### Room for every line -/

/-- The lines from a zone line on. -/
structure FromZone (content : Bytes) (size : Nat) (ls : List Bytes) : Prop where
  suffix : ls <:+ linesLeft content content
  updates_subset : updates size ls ⊆ updates size (linesLeft content content)

theorem updates_cons {size : Nat} {zone l : Bytes} {v ls : List Bytes}
    (hopen : NotEnded size [zone] v) (hends : endsAfter size (zone :: v) l = true) :
    updates size (zone :: (v ++ l :: ls)) = (zone :: (v ++ [l])) :: updates size ls := by
  have hupdates : updates size (zone :: (v ++ l :: ls)) =
      updatesFrom size (some [zone]) (v ++ l :: ls) := rfl
  rw [hupdates, hopen.updatesFrom_append, List.singleton_append, updatesFrom, if_pos hends]
  rfl

theorem suffix_of_update {zone l : Bytes} {v ls ls' : List Bytes}
    (h : zone :: (v ++ l :: ls) <:+ ls') :
    ls <:+ ls' := by
  refine List.IsSuffix.trans ⟨zone :: (v ++ [l]), ?_⟩ h
  simp

theorem passedOn_fromZone (content : Bytes) (size : Nat) :
    PassedOn size (FromZone content size) := by
  intro zone l v ls h hopen hends
  refine ⟨suffix_of_update h.suffix, fun u hu => h.updates_subset ?_⟩
  rw [updates_cons hopen hends]
  exact List.mem_cons_of_mem _ hu

/-- The lines of the update that is delivered stand together in the file. -/
theorem infix_of_isPrefix {u ls : List Bytes} (hstarts : u <+: ls)
    (hsuffix : ls <:+ linesLeft content content) :
    u <:+: textLines content :=
  (hstarts.isInfix.trans hsuffix.isInfix).trans (linesLeft_isPrefix content content).isInfix

/-- **With room in every update** all calls return, and deliver updates as far as they fit. -/
theorem nextAll_of_updatesFit {size : Nat} (hpos : 0 < size)
    (hfit : UpdatesFit size (updates size (linesLeft content content))) (order : List Nat)
    {d : PerfDatafile} (hd : Between content (FromZone content size) d)
    (hrereads : Rereads (2 * order.length) d) :
    ∃ results d', nextAll (fun _ => PerfBuffer.init size) d order = some (results, d') ∧
      ∀ record, (.success, record) ∈ results →
        ∃ u, IsUpdate size u ∧ u <:+: textLines content ∧ record = cutTo size u := by
  induction order generalizing d with
  | nil => exact ⟨[], d, rfl, nofun⟩
  | cons thread order ih =>
      rw [List.length_cons, Nat.mul_add] at hrereads
      have hcalled :=
        hd.called ⟨List.suffix_rfl, List.Subset.refl _⟩ (passedOn_fromZone content size)
          (PerfBuffer.init_base size) rfl hpos
      cases hcall : d.perfDatafileNext (PerfBuffer.init size) with
      | none =>
          rw [hcall] at hcalled
          cases hcalled with
          -- the buffer filled up within an update, against `hfit`
          | @full zone l v ls hleft hopen hfull =>
              have hroom : UpdatesFit size
                  (updatesFrom size (some [zone]) (v ++ l :: ls)) := fun u hu =>
                hfit u (hleft.updates_subset hu)
              rw [hopen.updatesFrom_append] at hroom
              exact absurd hroom.room (Nat.not_lt.mpr hfull)
          | stuck hstuck => exact absurd (hrereads.imp id fun hle => by omega) hstuck
      | some out =>
          obtain ⟨result, d₁, lines'⟩ := out
          rw [hcall] at hcalled
          cases hcalled with
          | failed hresult hbetween hless =>
              obtain ⟨results, d', hrest, hrecords⟩ := ih hbetween (hless _ hrereads)
              refine ⟨_, d', nextAll_cons hcall hrest, fun record hmem => ?_⟩
              rcases List.mem_cons.mp hmem with heq | hmem
              · exact absurd (Prod.mk.inj heq).1.symm hresult
              · exact hrecords record hmem
          | @update u _ _ _ hleft hstarts hupdate hbase hbetween hless =>
              obtain ⟨results, d', hrest, hrecords⟩ := ih hbetween (hless _ hrereads)
              refine ⟨_, d', nextAll_cons hcall hrest, fun record hmem => ?_⟩
              rcases List.mem_cons.mp hmem with heq | hmem
              · exact ⟨u, hupdate, infix_of_isPrefix hstarts hleft.suffix,
                  (Prod.mk.inj heq).2.trans hbase⟩
              · exact hrecords record hmem

/-- **If all calls return**, there is room in every update. The file is cached if it fits the
buffer, so that no line is missed. -/
theorem updatesFit_of_nextAll {size : Nat} (hpos : 0 < size) (n : Nat)
    {d : PerfDatafile} {left : Bytes} {out : List (PerfResult × Bytes) × PerfDatafile}
    (hformat : d.format = .textUpdate) (hwithin : Within content d) (hfeeds : Feeds d left)
    (hruns : ¬ (0 < d.maxruns ∧ d.maxruns = d.nruns))
    (hcached : ∀ {d' found}, d.firstLine = some (d', found) → content.length ≤ dataSpace →
      d'.cached = true)
    (hn : (linesLeft content left).length ≤ n)
    (h : nextAll (fun _ => PerfBuffer.init size) d (List.replicate n 0) = some out) :
    UpdatesFit size (updates size (linesLeft content left)) := by
  induction n generalizing d left out with
  | zero =>
      rw [List.length_eq_zero_iff.mp (Nat.le_zero.mp hn)]
      exact nofun
  | succ n ih =>
      obtain ⟨d₁, zone, left₁, hr, hmoves, hfeeds₁, hlines⟩ | ⟨d₁, left₁, hr, -, -, hexact⟩ :=
        firstLine_cases hwithin hfeeds
      · have hroom : 0 < (PerfBuffer.init size).clear.availablelength := by
          simpa [PerfBuffer.availablelength, PerfBuffer.usedlength, PerfBuffer.clear] using hpos
        have hzone : ZoneRead content (fun _ => True) d (PerfBuffer.init size).clear
            { d₁ with readAny := true } zone left₁ :=
          zoneRead_of_firstLine hformat hwithin trivial
            (fun k hk => hk.imp id Nat.le_of_succ_le) hmoves hfeeds₁ hlines fun hformat₁ =>
              perfDatafileNext_zone hruns hformat₁ (readfunc_line hformat hroom hr)
        obtain ⟨called, hnext, hcollected⟩ := hzone.collected size (PerfBuffer.init_base _) rfl hpos
        obtain ⟨⟨result, d₂, lines₂⟩, hcall, h⟩ := Option.bind_eq_some_iff.mp h
        obtain ⟨⟨results, d₃⟩, hrest, -⟩ := Option.bind_eq_some_iff.mp h
        rw [hnext] at hcall
        rw [hlines] at hn ⊢
        cases hcollected with
        -- the call did return
        | full => cases hcall
        -- one update is read to its end; the rest is for the calls after it
        | @ended v l left₂ _ _ hlines₂ hopen hroom₂ hends hmoves₂ hfeeds₂ _ =>
            cases hcall
            obtain ⟨hwithin₂, -, -, hmaxruns, hnruns, -⟩ := hmoves₂.within hzone.within
            obtain ⟨-, -, -, hmaxruns₁, hnruns₁, -⟩ := hmoves.within hwithin
            dsimp only at hmaxruns hnruns
            rw [← hmaxruns₁, ← hnruns₁, ← hmaxruns, ← hnruns] at hruns
            rw [hlines₂, updates_cons hopen hends]
            refine List.forall_mem_cons.mpr ⟨(IsUpdate.concat hopen hroom₂).fits, ?_⟩
            refine ih (hmoves₂.format hzone.within hzone.format) hwithin₂ hfeeds₂ hruns
              (fun hr₂ hfit => ?_) ?_ hrest
            · have hc : d₁.cached = true := hcached hr hfit
              have hmoves₃ := nextLine_moves hr₂
              exact hmoves₃.cached (hmoves₂.cached hc)
            · rw [hlines₂, List.length_cons, List.length_append, List.length_cons] at hn
              omega
        -- the file ends in the middle of the update, which is then the last
        | eof _ hexact hopen hmoves₂ _ _ =>
            have hc : content.length ≤ dataSpace → d₁.cached = true := hcached hr
            rw [hexact fun hfit => hmoves₂.cached (hc hfit)]
            have hlast := hopen.updatesFrom_append []
            rw [List.append_nil] at hlast
            have hupdates : updates size (zone :: _) = _ := hlast
            rw [hupdates]
            exact List.forall_mem_singleton.mpr (IsUpdate.of_notEnded hpos hopen).fits
      · rw [hexact (hcached hr)]
        exact nofun

theorem cached_of_whole {hasPipe : Bool} {maxruns : Nat} {seeks : List (List (Option Bytes))}
    {found : Except PerfResult Bytes} (hne : content ≠ []) (hfit : content.length ≤ dataSpace)
    (h : (seekableInput true hasPipe .textUpdate maxruns content [some content] seeks).firstLine =
      some (d', found)) : d'.cached = true := by
  have hfeeds : Feeds (seekableInput true hasPipe .textUpdate maxruns content [some content] seeks)
      content := feeds_seekableInput ⟨[content], rfl, by simpa using hne, List.append_nil _⟩
  obtain ⟨d₁, -, -, -, -, ⟨-, hall, -⟩ | ⟨hmore, hgrow⟩⟩ :=
    readMore_of_feeds hfeeds rfl (Or.inr hfit)
  · exact absurd hall.symm hne
  · have hcached := readMore_whole hfeeds rfl rfl rfl rfl hne hfit
    rw [hmore] at hcached
    rw [firstLine, nextLine_more rfl (by simp [seekableInput, perfDatafileOpen, rest]) hmore
      hgrow] at h
    have hmoves := nextLine_moves h
    exact hmoves.cached hcached

/-- **Reading updates does not abort**, and delivers each update as far as it fits the buffer of
65538 bytes, exactly if in every update of the file the lines before the last one leave room:
whatever the size of the file, the number of lines of an update and the number of runs. -/
theorem nextAll_updates (content : Bytes) :
    (∀ (named hasPipe : Bool) (maxruns : Nat) (reads : List (Option Bytes)), IsPass content reads →
      ∀ seeks : List (List (Option Bytes)), (∀ reads ∈ seeks, IsPass content reads) →
      ∀ order : List Nat, maxruns + 2 * order.length ≤ seeks.length →
      ∃ results d', nextAll (fun _ => inputData)
          (seekableInput named hasPipe .textUpdate maxruns content reads seeks) order =
          some (results, d') ∧
        ∀ record, (.success, record) ∈ results →
          ∃ u, IsUpdate 65538 u ∧ u <:+: textLines content ∧ record = cutTo 65538 u) ↔
      ∀ u ∈ updates 65538 (linesLeft content content), spelledLength u.dropLast ≤ 65537 := by
  have hlength : inputData.length = 65538 := rfl
  have hiff : (∀ u ∈ updates 65538 (linesLeft content content), spelledLength u.dropLast ≤ 65537) ↔
      UpdatesFit 65538 (updates 65538 (linesLeft content content)) := by
    simp only [UpdatesFit, Nat.lt_succ_iff]
  rw [hiff]
  constructor
  · intro h
    by_cases hne : content = []
    · subst hne
      exact nofun
    -- one file read in one piece, and enough calls for all of it
    have hpass : IsPass content [some content] :=
      ⟨[content], rfl, by simpa using hne, List.append_nil _⟩
    have hseeks : ∀ reads ∈ List.replicate (1 + 2 * content.length) [some content],
        IsPass content reads := fun reads hmem => List.eq_of_mem_replicate hmem ▸ hpass
    obtain ⟨results, d', hall, -⟩ :=
      h true false 1 _ hpass _ hseeks (List.replicate content.length 0)
        (by simp only [List.length_replicate]; exact Nat.le_refl _)
    exact updatesFit_of_nextAll (by decide) _ rfl (within_seekableInput hpass hseeks)
      (feeds_seekableInput hpass) (fun hmet => Nat.one_ne_zero hmet.2)
      (fun hr hfit => cached_of_whole hne hfit hr) (length_linesLeft_le content content) hall
  · intro hfit named hasPipe maxruns reads hreads seeks hseeks order hmany
    exact nextAll_of_updatesFit (by decide) hfit order
      (between_seekableInput ⟨List.suffix_rfl, List.Subset.refl _⟩ named hasPipe maxruns
        hreads hseeks)
      (.inr (show _ ≤ seeks.length by omega))

theorem nextAll_updates_two :
    ∃ results d', nextAll (fun _ => inputData)
      (seekableInput true false .textUpdate 1 [122, 10, 115, 101, 110, 100, 10, 121, 10]
        [some [122, 10, 115, 101, 110, 100, 10, 121, 10]]
        (List.replicate 7 [some [122, 10, 115, 101, 110, 100, 10, 121, 10]])) [0, 1, 0] =
        some (results, d') := by
  have hpass : IsPass [122, 10, 115, 101, 110, 100, 10, 121, 10]
      [some [122, 10, 115, 101, 110, 100, 10, 121, 10]] := ⟨[_], rfl, by decide, rfl⟩
  obtain ⟨results, d', h, -⟩ := (nextAll_updates _).mpr (by decide +kernel) true false 1 _ hpass
    (List.replicate 7 _) (fun reads hreads => List.eq_of_mem_replicate hreads ▸ hpass) [0, 1, 0]
    (by decide)
  exact ⟨results, d', h⟩

/-- Of a file longer than the buffer: after a line that leaves no room another one is read. -/
theorem Collected.eq_none {size : Nat} {u ls : List Bytes} {l' : Bytes}
    {out : Option (PerfDatafile × PerfBuffer)} (h : Collected content size u d left out)
    (hlong : ¬ content.length ≤ dataSpace) (hleft : linesLeft content left = l :: l' :: ls)
    (hends : endsAfter size u l = false) (hfull : size ≤ spelledLength (u ++ [l])) :
    out = none := by
  cases h with
  | full => rfl
  | @ended v _ _ _ _ hlines _ hroom hends' _ _ _ =>
      rw [hleft] at hlines
      cases v with
      | nil =>
          obtain ⟨rfl, -⟩ := List.cons.inj hlines
          rw [List.append_nil, hends] at hends'
          exact nomatch hends'
      | cons a v =>
          obtain ⟨rfl, -⟩ := List.cons.inj hlines
          have hle : spelledLength (u ++ [l]) ≤ spelledLength (u ++ l :: v) :=
            spelledLength_le_of_isPrefix ⟨v, by simp⟩
          omega
  | eof _ hexact hopen _ _ _ =>
      obtain rfl := hleft.symm.trans (hexact fun hfit => absurd hfit hlong)
      exact absurd hopen.2.2.1 (Nat.not_lt.mpr hfull)

/-- A long zone line, and two more lines. -/
def longZone : Bytes := List.replicate 65536 97 ++ 10 :: [98, 10, 99, 10]

/-- The zone line leaves room for one byte, which the NUL of the next line takes. Then there is no
room for the line after it. -/
theorem perfDatafileNext_longZone :
    (seekableInput true false .textUpdate 1 longZone [some longZone] []).perfDatafileNext
      inputData = none := by
  have hopen : ∀ a ∈ List.replicate 65536 (97 : UInt8), isEol a = false := by
    intro a ha
    rw [List.eq_of_mem_replicate ha]
    rfl
  have hdel : deliverable (List.replicate 65536 97) = true := by
    rw [show 65536 = 65535 + 1 from rfl, List.replicate_succ]
    rfl
  have hended : (segments isEol longZone).2 = [] := by
    rw [longZone, segments_append_cons hopen (by decide)]
    rfl
  have hreached : reachedLines longZone = [List.replicate 65536 97, [98], [99]] := by
    rw [longZone, reachedLines_append_cons hopen (by decide)
      (by rw [List.length_replicate]; decide), if_pos hdel]
    rfl
  have hreads : IsPass longZone [some longZone] := by
    refine ⟨[longZone], rfl, ?_, List.append_nil _⟩
    intro c hc
    rw [List.mem_singleton.mp hc]
    exact List.append_ne_nil_of_right_ne_nil _ (List.cons_ne_nil _ _)
  have hlength : longZone.length = 65541 := by
    rw [longZone, List.length_append, List.length_replicate]
    rfl
  have hlong : ¬ longZone.length ≤ dataSpace := by
    rw [hlength]
    decide
  have hleft : linesLeft longZone longZone = [List.replicate 65536 97, [98], [99]] := by
    rw [linesLeft, if_neg hlong, hreached]
  have hused : spelledLength [List.replicate 65536 (97 : UInt8)] = 65537 := by
    rw [spelledLength, List.map_singleton, List.sum_singleton, List.length_replicate]
  have hstart : Within longZone
      (seekableInput true false .textUpdate 1 longZone [some longZone] []) :=
    within_seekableInput hreads nofun
  obtain ⟨d₁, zone, left₁, hr, hmoves, hfeeds₁, hlines⟩ | ⟨d₁, left₁, hr, hmoves, -, hexact⟩ :=
    firstLine_cases hstart (feeds_seekableInput hreads)
  · obtain ⟨rfl, hlines₁⟩ := List.cons.inj (hleft.symm.trans hlines)
    have hzone : ZoneRead longZone (fun _ => True) _ inputData { d₁ with readAny := true } _
        left₁ :=
      zoneRead_of_firstLine rfl hstart trivial (fun k hk => hk.imp id Nat.le_of_succ_le) hmoves
        hfeeds₁ hlines fun hformat =>
          perfDatafileNext_zone (by decide) hformat (readfunc_line rfl (by decide) hr)
    obtain ⟨out, hnext, hout⟩ := hzone.collected 65538 rfl rfl (by decide)
    have hends : endsAfter 65538 [List.replicate 65536 97] [98] = false := by
      rw [endsAfter, hused]
      rfl
    have hfull : 65538 ≤ spelledLength ([List.replicate 65536 (97 : UInt8)] ++ [[98]]) := by
      rw [spelledLength_concat, hused]
      decide
    rw [hnext, hout.eq_none hlong hlines₁.symm hends hfull]
    rfl
  · exact nomatch hleft.symm.trans (hexact fun hfit => absurd hfit hlong)

/-! ### Where an update ends -/

/-- With nothing after the word `send` on any line of the file, the builder stops at no line of a
record but the last. -/
theorem IsUpdate.not_isSend {size : Nat} {u : List Bytes} (h : IsUpdate size u)
    (hlines : u <:+: textLines content)
    (hbare : ∀ l ∈ textLines content, isSend l = true → l.length = 4) {pre post : List Bytes}
    {line : Bytes} (hrecord : (recordLines (cutTo size u)).drop 1 = pre ++ line :: post)
    (hsend : isSend line = true) : post = [] := by
  obtain ⟨w, l, rfl⟩ := (List.eq_nil_or_concat' u).resolve_left h.ne_nil
  have hmem : ∀ l' ∈ w ++ [l], l' ∈ textLines content := fun l' hl' => hlines.subset hl'
  have hfits := h.fits
  have hopen := h.not_ended
  rw [List.dropLast_concat] at hfits hopen
  rw [recordLines_cutTo hfits fun l' hl' => zero_notMem_of_mem_textLines (hmem l' hl')] at hrecord
  rcases List.eq_nil_or_concat' post with rfl | ⟨post, c, rfl⟩
  · rfl
  -- a line before the last is one the reader did not stop at
  have hline : line ∈ w.drop 1 := by
    cases w with
    | nil => simp at hrecord
    | cons zone w =>
        rw [List.cons_append, List.drop_succ_cons, List.drop_zero, ← List.cons_append,
          ← List.append_assoc] at hrecord
        rw [List.drop_succ_cons, List.drop_zero, (List.append_inj' hrecord rfl).1]
        simp
  have hends := endsUpdate_of_isSend hsend
    (hbare line (hmem line (List.mem_append_left _ (List.mem_of_mem_drop hline))) hsend)
  exact absurd hends (by simp [hopen line hline])

/-- **Reader and builder agree on where an update ends**, that is, the two tests select the same
lines of the file and in every record that is delivered a line that the builder stops at is the last
one, exactly if on no line of the file anything follows the word `send`. -/
theorem nextAll_send (content : Bytes) :
    ((∀ l ∈ textLines content, endsUpdate l = isSend l) ∧
      ∀ (named hasPipe : Bool) (maxruns : Nat) (reads : List (Option Bytes)), IsPass content reads →
        ∀ seeks : List (List (Option Bytes)), (∀ reads ∈ seeks, IsPass content reads) →
        ∀ buffers : Nat → PerfBuffer, (∀ thread, 1 ≤ (buffers thread).length) →
        ∀ (order : List Nat) (results : List (PerfResult × Bytes)) (d' : PerfDatafile),
        nextAll buffers (seekableInput named hasPipe .textUpdate maxruns content reads seeks)
          order = some (results, d') →
        ∀ record, (.success, record) ∈ results → ∀ pre line post,
          (recordLines record).drop 1 = pre ++ line :: post → isSend line = true → post = []) ↔
      ∀ l ∈ textLines content, isSend l = true → l.length = 4 := by
  constructor
  · rintro ⟨hsame, -⟩ l hl hsend
    rw [← hsame l hl] at hsend
    exact (decide_eq_true_eq.mp hsend).1
  intro hbare
  refine ⟨fun l hl => ?_, ?_⟩
  · rw [Bool.eq_iff_iff]
    exact ⟨isSend_of_endsUpdate, fun hsend => endsUpdate_of_isSend hsend (hbare l hl hsend)⟩
  -- by induction over the calls: between them `Between` holds of the input
  intro named hasPipe maxruns reads hreads seeks hseeks buffers hbuffers order results d' h
  have hstart := between_seekableInput (Q := (· <:+ linesLeft content content))
    List.suffix_rfl named hasPipe maxruns hreads hseeks
  generalize seekableInput named hasPipe .textUpdate maxruns content reads seeks = d at hstart h
  induction order generalizing d results with
  | nil =>
      cases h
      exact nofun
  | cons thread order ih =>
      obtain ⟨⟨result, d₁, lines'⟩, hcall, h⟩ := Option.bind_eq_some_iff.mp h
      obtain ⟨⟨results', d₂⟩, hrest, h⟩ := Option.bind_eq_some_iff.mp h
      cases h
      have hcalled := hstart.called List.suffix_rfl (fun h _ _ => suffix_of_update h)
        (PerfBuffer.init_base (buffers thread).length) rfl (hbuffers thread)
      rw [← PerfBuffer.clear, hcall] at hcalled
      intro record hmem pre line post hlines hsend
      rcases List.mem_cons.mp hmem with heq | hmem
      · obtain ⟨rfl, rfl⟩ := Prod.mk.inj heq
        cases hcalled with
        | failed hresult _ _ => exact absurd rfl hresult
        | update hleft hstarts hupdate hbase _ _ =>
            rw [hbase] at hlines
            exact hupdate.not_isSend (infix_of_isPrefix hstarts hleft) hbare hlines hsend
      · have hbetween : Between content (· <:+ linesLeft content content) d₁ := by
          cases hcalled with
          | failed _ hbetween _ => exact hbetween
          | update _ _ _ _ hbetween _ => exact hbetween
        exact ih results' d₁ hbetween hrest record hmem pre line post hlines hsend

/-- Two updates, the first ended by `sEnd` and the second by the end of the file. -/
theorem nextAll_send_two :
    ∃ results d', nextAll (fun _ => PerfBuffer.init 64)
        (seekableInput true false .textUpdate 1 [122, 10, 97, 10, 115, 69, 110, 100, 10, 121, 10]
          [some [122, 10, 97, 10, 115, 69, 110, 100, 10, 121, 10]] []) [0, 1] = some (results, d') ∧
      (.success, [122, 0, 97, 0, 115, 69, 110, 100, 0]) ∈ results ∧
      ∀ record, (.success, record) ∈ results → ∀ pre line post,
        (recordLines record).drop 1 = pre ++ line :: post → isSend line = true → post = [] := by
  have hresults : (nextAll (fun _ => PerfBuffer.init 64)
      (seekableInput true false .textUpdate 1 [122, 10, 97, 10, 115, 69, 110, 100, 10, 121, 10]
        [some [122, 10, 97, 10, 115, 69, 110, 100, 10, 121, 10]] []) [0, 1]).map Prod.fst =
      some [(.success, [122, 0, 97, 0, 115, 69, 110, 100, 0]), (.success, [121, 0])] := by
    decide +kernel
  obtain ⟨⟨results, d'⟩, h, rfl⟩ := Option.map_eq_some_iff.mp hresults
  have hreads : IsPass [122, 10, 97, 10, 115, 69, 110, 100, 10, 121, 10]
      [some [122, 10, 97, 10, 115, 69, 110, 100, 10, 121, 10]] := ⟨[_], rfl, by decide, rfl⟩
  exact ⟨_, d', h, by decide, ((nextAll_send [122, 10, 97, 10, 115, 69, 110, 100, 10, 121, 10]).mpr
    (by decide +kernel)).2 true false 1 _ hreads [] nofun (fun _ => PerfBuffer.init 64)
    (fun _ => by decide) _ _ d' h⟩

/-- `z`, `send x`, `y`, `a` and `send`: the reader takes all five lines for one update, and the
builder stops at the second. -/
theorem nextAll_send_swallowed :
    (nextAll (fun _ => PerfBuffer.init 64)
        (seekableInput true false .textUpdate 1
          [122, 10, 115, 101, 110, 100, 32, 120, 10, 121, 10, 97, 10, 115, 101, 110, 100, 10]
          [some [122, 10, 115, 101, 110, 100, 32, 120, 10, 121, 10, 97, 10, 115, 101, 110, 100, 10]]
          [])
        [0]).map Prod.fst =
      some [(.success,
        [122, 0, 115, 101, 110, 100, 32, 120, 0, 121, 0, 97, 0, 115, 101, 110, 100, 0])] ∧
      (recordLines
          [122, 0, 115, 101, 110, 100, 32, 120, 0, 121, 0, 97, 0, 115, 101, 110, 100, 0]).drop 1 =
        [[115, 101, 110, 100, 32, 120], [121], [97], [115, 101, 110, 100]] ∧
      isSend [115, 101, 110, 100, 32, 120] = true ∧
      endsUpdate [115, 101, 110, 100, 32, 120] = false := by
  decide +kernel

end Dnsperf.Datafile.PerfDatafile
