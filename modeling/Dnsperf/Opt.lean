import Dnsperf.Lib.CString

/-!
# Dnsperf.Opt

**The list of messages to suppress**, the argument of `-O suppress`. `perf_opt_parse_suppress`
compares an element with the name of each message type by `strncmp` up to the length of the
element, so every beginning of a name stands for the first name it begins, the empty element
included. A comma at the end of the list ends the loop before the empty element after it.
-/

namespace Dnsperf.Opt

open Dnsperf.Lib

/-! ### Message types -/

/-- The kinds of messages that can be suppressed. -/
inductive MessageType
  | timeouts
  | congestion
  | sendfailed
  | sockready
  | unexpected
  deriving DecidableEq, Repr

namespace MessageType

/-- The literal an element is compared with. -/
def name : MessageType → Bytes
  | timeouts => ascii "timeouts"
  | congestion => ascii "congestion"
  | sendfailed => ascii "sendfailed"
  | sockready => ascii "sockready"
  | unexpected => ascii "unexpected"

/-- The types in the order of the comparisons. -/
def all : List MessageType := [timeouts, congestion, sendfailed, sockready, unexpected]

theorem mem_all (t : MessageType) : t ∈ all := by cases t <;> decide

end MessageType

/-- `perf_suppress_t`. -/
structure PerfSuppress where
  timeouts : Bool
  congestion : Bool
  sendfailed : Bool
  sockready : Bool
  unexpected : Bool
  deriving DecidableEq, Repr

namespace PerfSuppress

/-- The flag of a message type. -/
def get (s : PerfSuppress) : MessageType → Bool
  | .timeouts => s.timeouts
  | .congestion => s.congestion
  | .sendfailed => s.sendfailed
  | .sockready => s.sockready
  | .unexpected => s.unexpected

/-- `s.<type> = true`. -/
def set (s : PerfSuppress) : MessageType → PerfSuppress
  | .timeouts => { s with timeouts := true }
  | .congestion => { s with congestion := true }
  | .sendfailed => { s with sendfailed := true }
  | .sockready => { s with sockready := true }
  | .unexpected => { s with unexpected := true }

/-- What the parser starts from. -/
def clear : PerfSuppress := ⟨false, false, false, false, false⟩

theorem get_set (s : PerfSuppress) (t u : MessageType) :
    (s.set t).get u = true ↔ u = t ∨ s.get u = true := by
  cases t <;> cases u <;> simp [set, get]

theorem get_clear (t : MessageType) : clear.get t = false := by cases t <;> rfl

end PerfSuppress

/-! ### The parser -/

/-- The length of an element as an `int`. -/
def intLen (n : Nat) : Int := Int.bmod n (2 ^ 32)

/-- An `int` given to a parameter of type `size_t`. -/
def sizeT (len : Int) : Nat := (len % 2 ^ 64).toNat

/-- The chain of comparisons: the first type whose name agrees with `val` in `len` characters. -/
def messageType? (val : Bytes) (len : Int) : Option MessageType :=
  MessageType.all.find? (fun t => strncmpEq (sizeT len) val t.name)

/-- What is printed before the usage. A negative precision of `%.*s` counts as none. -/
def unknownMessageType (len : Int) (val : Bytes) : Bytes :=
  ascii "unknown message type to suppress: " ++
    (if len < 0 then val else val.take len.toNat) ++ ascii "\n"

/-- `next`: the text after the first comma, or the null pointer. -/
def next (val : Bytes) : Option Bytes :=
  match val.dropWhile (· != 44) with
  | [] => none
  | _ :: rest => some rest

/-- `len`: the length of the element at `val`, the same whether a comma or the end follows it. -/
def elementLen (val : Bytes) : Int := intLen (val.takeWhile (· != 44)).length

/-- The end of the chain: a flag is set, or the process ends with a message and the usage. -/
def setFlag (s : PerfSuppress) (message : Bytes) : Option MessageType → Except Bytes PerfSuppress
  | some t => .ok (s.set t)
  | none => .error message

/-- The element at `val`. -/
def suppressElement (val : Bytes) (s : PerfSuppress) : Except Bytes PerfSuppress :=
  setFlag s (unknownMessageType (elementLen val) val) (messageType? val (elementLen val))

/-- How much of a list is left, the null pointer being less than the empty string. -/
def left (val : Option Bytes) : Nat := val.elim 0 (·.length + 1)

theorem left_next (val : Bytes) : left (next val) < left (some val) := by
  unfold next
  cases h : val.dropWhile (· != 44) with
  | nil => exact Nat.succ_pos _
  | cons c rest =>
      obtain ⟨-, hsplit, -⟩ := exists_of_dropWhile_bne h
      have hlength := congrArg List.length hsplit
      rw [List.length_append, List.length_cons] at hlength
      simp only [left, Option.elim_some]
      omega

/-- The loop of `perf_opt_parse_suppress` from `val`, where `none` is the null pointer. -/
def suppressLoop (val : Option Bytes) (s : PerfSuppress) : Except Bytes PerfSuppress :=
  match val with
  | none => .ok s
  | some v =>
      if v = [] then .ok s
      else do
        let s ← suppressElement v s
        suppressLoop (next v) s
termination_by left val
decreasing_by exact left_next v

/-- `perf_opt_parse_suppress`: the flags, or the message the process ends with. -/
def perfOptParseSuppress (val : Option Bytes) : Except Bytes PerfSuppress :=
  suppressLoop (val.map cstr) .clear

/-! ### The elements -/

/-- The elements of a list separated by commas. The null pointer and the empty string have none. -/
def elements : Option Bytes → List Bytes
  | none => []
  | some v => if cstr v = [] then [] else (cstr v).splitOn 44

/-- As much of an element as is compared: an `int` takes its length modulo `2^32`. -/
def compared (e : Bytes) : Bytes := e.take (e.length % 2 ^ 32)

/-- The type an element stands for, the first one whose name it begins. -/
def stands (e : Bytes) : Option MessageType :=
  MessageType.all.find? (fun t => compared e <+: t.name)

/-- The elements the loop looks at: all but an empty one at the end. -/
def lookedAt (val : Option Bytes) : List Bytes :=
  if (elements val).getLast? = some [] then (elements val).dropLast else elements val

theorem elements_eq (val : Option Bytes) :
    elements val = lookedAt val ∨ elements val = lookedAt val ++ [[]] := by
  unfold lookedAt
  split_ifs with h
  · exact Or.inr (List.dropLast_append_getLast? [] h).symm
  · exact Or.inl rfl

section Lists

variable {e rest : Bytes}

theorem elements_last (hnul : (0 : UInt8) ∉ e) (hcomma : (44 : UInt8) ∉ e) (hne : e ≠ []) :
    elements (some e) = [e] := by
  rw [elements, cstr_of_not_mem hnul, if_neg hne, List.splitOn_eq_singleton hcomma]

theorem elements_cons (hnul : (0 : UInt8) ∉ e ++ 44 :: rest) (hcomma : (44 : UInt8) ∉ e) :
    elements (some (e ++ 44 :: rest)) = e :: rest.splitOn 44 := by
  rw [elements, cstr_of_not_mem hnul, if_neg (by simp),
    List.splitOn_append_cons_self_of_not_mem hcomma]

theorem lookedAt_last (hnul : (0 : UInt8) ∉ e) (hcomma : (44 : UInt8) ∉ e) (hne : e ≠ []) :
    lookedAt (some e) = [e] := by
  rw [lookedAt, elements_last hnul hcomma hne, if_neg (by simpa using hne)]

theorem lookedAt_cons (hnul : (0 : UInt8) ∉ e ++ 44 :: rest) (hcomma : (44 : UInt8) ∉ e) :
    lookedAt (some (e ++ 44 :: rest)) = e :: lookedAt (some rest) := by
  have hrest : (0 : UInt8) ∉ rest := fun h => hnul (by simp [h])
  rw [lookedAt, lookedAt, elements_cons hnul hcomma]
  by_cases hnil : rest = []
  · subst hnil
    rfl
  · rw [elements, cstr_of_not_mem hrest, if_neg hnil]
    obtain ⟨f, fs, hsplit⟩ := List.exists_cons_of_ne_nil (List.splitOn_ne_nil 44 rest)
    rw [hsplit, List.getLast?_cons_cons, List.dropLast_cons_cons]
    split_ifs <;> rfl

theorem next_last (hcomma : (44 : UInt8) ∉ e) : next e = none := by
  rw [next, dropWhile_bne_of_not_mem hcomma]

theorem next_cons (hcomma : (44 : UInt8) ∉ e) : next (e ++ 44 :: rest) = some rest := by
  rw [next, dropWhile_bne_append hcomma]

/-! ### The comparisons -/

theorem MessageType.name_chars (t : MessageType) :
    (0 : UInt8) ∉ t.name ∧ t.name ≠ [] ∧ t.name.length ≤ 10 := by
  cases t <;> decide

theorem stands_name (t : MessageType) : stands t.name = some t := by
  cases t <;> decide

theorem compared_name (t : MessageType) : compared t.name = t.name := by
  have hlen := t.name_chars.2.2
  rw [compared, Nat.mod_eq_of_lt (by omega), List.take_length]

/-- `strncmp` up to an `int`. A length that becomes negative is a huge `size_t`, and then the
element is longer than a name anyway. -/
theorem strncmpEq_compared (hnul : (0 : UInt8) ∉ e ++ rest) (t : MessageType) :
    strncmpEq (sizeT (intLen e.length)) (e ++ rest) t.name = true ↔ compared e <+: t.name := by
  obtain ⟨hname, -, hshort⟩ := t.name_chars
  rw [strncmpEq_iff, cstr_of_not_mem hnul, cstr_of_not_mem hname, compared]
  have hr := Nat.mod_le e.length (2 ^ 32)
  by_cases hpos : e.length % 2 ^ 32 < 2 ^ 31
  · have hsize : sizeT (intLen e.length) = e.length % 2 ^ 32 := by
      unfold sizeT intLen
      rw [Int.bmod_def]
      split_ifs <;> omega
    rw [hsize, List.take_append_of_le_length hr, List.prefix_iff_eq_take, List.length_take,
      Nat.min_eq_left hr]
  · have hsize : 2 ^ 31 ≤ sizeT (intLen e.length) := by
      unfold sizeT intLen
      rw [Int.bmod_def]
      split_ifs <;> omega
    constructor
    · intro heq
      have hlen := congrArg List.length heq
      rw [List.length_take, List.length_take, List.length_append] at hlen
      omega
    · intro hstarts
      have hlen := hstarts.length_le
      rw [List.length_take] at hlen
      omega

theorem messageType?_eq (hnul : (0 : UInt8) ∉ e ++ rest) :
    messageType? (e ++ rest) (intLen e.length) = stands e := by
  have hcmp : (fun t : MessageType => strncmpEq (sizeT (intLen e.length)) (e ++ rest) t.name) =
      fun t => decide (compared e <+: t.name) := by
    funext t
    rw [Bool.eq_iff_iff, decide_eq_true_iff]
    exact strncmpEq_compared hnul t
  exact congrArg (fun p => MessageType.all.find? p) hcmp

theorem suppressElement_eq (hnul : (0 : UInt8) ∉ e ++ rest)
    (hstop : (e ++ rest).takeWhile (· != 44) = e) (s : PerfSuppress) :
    suppressElement (e ++ rest) s =
      setFlag s (unknownMessageType (intLen e.length) (e ++ rest)) (stands e) := by
  have hlen : elementLen (e ++ rest) = intLen e.length := by rw [elementLen, hstop]
  rw [suppressElement, hlen, messageType?_eq hnul]

end Lists

/-! ### The loop -/

/-- The flags after the elements `es`. -/
def setAll (s : PerfSuppress) (es : List Bytes) : PerfSuppress :=
  (es.filterMap stands).foldl PerfSuppress.set s

theorem get_setAll (s : PerfSuppress) (es : List Bytes) (t : MessageType) :
    (setAll s es).get t = true ↔ (∃ e ∈ es, stands e = some t) ∨ s.get t = true := by
  unfold setAll
  rw [← List.mem_filterMap]
  generalize es.filterMap stands = ts
  induction ts generalizing s with
  | nil => simp
  | cons u ts ih =>
      rw [List.foldl_cons, ih, PerfSuppress.get_set, List.mem_cons]
      tauto

theorem ok_iff_setAll_nil (s s' : PerfSuppress) :
    (.ok s : Except Bytes PerfSuppress) = .ok s' ↔
      (∀ e ∈ ([] : List Bytes), (stands e).isSome) ∧ s' = setAll s [] := by
  constructor
  · intro h
    exact ⟨fun e he => absurd he List.not_mem_nil, (Except.ok.inj h).symm⟩
  · rintro ⟨-, rfl⟩
    rfl

theorem suppressElement_bind {e rest : Bytes} (hnul : (0 : UInt8) ∉ e ++ rest)
    (hstop : (e ++ rest).takeWhile (· != 44) = e) {more : PerfSuppress → Except Bytes PerfSuppress}
    {es : List Bytes} {s s' : PerfSuppress}
    (hmore : ∀ s, more s = .ok s' ↔ (∀ e ∈ es, (stands e).isSome) ∧ s' = setAll s es) :
    (suppressElement (e ++ rest) s >>= more) = .ok s' ↔
      (∀ e' ∈ e :: es, (stands e').isSome) ∧ s' = setAll s (e :: es) := by
  rw [suppressElement_eq hnul hstop, List.forall_mem_cons]
  cases hstands : stands e with
  | none => simp [setFlag, bind, Except.bind]
  | some t =>
      have hset : setAll s (e :: es) = setAll (s.set t) es := by
        rw [setAll, List.filterMap_cons_some hstands, List.foldl_cons, setAll]
      rw [hset]
      simpa [setFlag, bind, Except.bind] using hmore (s.set t)

/-- The loop returns if every element it looks at begins a name, and then with their flags. -/
theorem suppressLoop_ok_iff (v : Bytes) (hnul : (0 : UInt8) ∉ v) (s s' : PerfSuppress) :
    suppressLoop (some v) s = .ok s' ↔
      (∀ e ∈ lookedAt (some v), (stands e).isSome) ∧ s' = setAll s (lookedAt (some v)) := by
  -- by the length of the text, since the text after a comma is shorter
  induction hlen : v.length using Nat.strong_induction_on generalizing v s with
  | _ n ih =>
      rw [suppressLoop]
      by_cases hnil : v = []
      · subst hnil
        rw [if_pos rfl]
        exact ok_iff_setAll_nil s s'
      · rw [if_neg hnil]
        by_cases hcomma : (44 : UInt8) ∈ v
        · obtain ⟨e, rest, rfl, he⟩ := List.eq_append_cons_of_mem hcomma
          rw [lookedAt_cons hnul he, next_cons he]
          refine suppressElement_bind hnul (takeWhile_bne_append he rest) fun s => ?_
          refine ih rest.length ?_ rest (fun h => hnul (by simp [h])) s rfl
          rw [← hlen, List.length_append, List.length_cons]
          omega
        · rw [lookedAt_last hnul hcomma hnil, next_last hcomma]
          have hstop : (v ++ []).takeWhile (· != 44) = v := by
            rw [List.append_nil, takeWhile_bne_of_not_mem hcomma]
          have hend : (suppressElement (v ++ []) s >>= suppressLoop none) = .ok s' ↔
              (∀ e ∈ [v], (stands e).isSome) ∧ s' = setAll s [v] := by
            refine suppressElement_bind (by rwa [List.append_nil]) hstop fun s => ?_
            rw [suppressLoop]
            exact ok_iff_setAll_nil s s'
          rwa [List.append_nil] at hend

theorem perfOptParseSuppress_ok_iff (val : Option Bytes) (s : PerfSuppress) :
    perfOptParseSuppress val = .ok s ↔
      (∀ e ∈ lookedAt val, (stands e).isSome) ∧ s = setAll .clear (lookedAt val) := by
  cases val with
  | none =>
      rw [perfOptParseSuppress, Option.map_none, suppressLoop]
      exact ok_iff_setAll_nil .clear s
  | some v =>
      have hnul : (0 : UInt8) ∉ cstr v := fun h => by simpa using List.mem_takeWhile_imp h
      have hsame : elements (some (cstr v)) = elements (some v) := by
        rw [elements, elements, cstr_of_not_mem hnul]
      rw [perfOptParseSuppress, Option.map_some, suppressLoop_ok_iff _ hnul, lookedAt, hsame,
        ← lookedAt]

theorem isSome_stands_iff (e : Bytes) :
    (stands e).isSome ↔ ∃ t : MessageType, compared e <+: t.name := by
  simp [stands, List.find?_isSome, MessageType.mem_all]

/-- The empty element begins every name, so that it does not matter here whether a last one is
looked at. -/
theorem perfOptParseSuppress_returns_iff (val : Option Bytes) :
    (∃ s, perfOptParseSuppress val = .ok s) ↔
      ∀ e ∈ elements val, ∃ t : MessageType, compared e <+: t.name := by
  have hlooked : (∃ s, perfOptParseSuppress val = .ok s) ↔
      ∀ e ∈ lookedAt val, ∃ t : MessageType, compared e <+: t.name := by
    simp only [perfOptParseSuppress_ok_iff, isSome_stands_iff, exists_and_left, exists_eq,
      and_true]
  rw [hlooked]
  rcases elements_eq val with heq | heq
  · rw [heq]
  · have hempty : ∃ t : MessageType, compared [] <+: t.name := ⟨.timeouts, List.nil_prefix⟩
    rw [heq, List.forall_mem_append, List.forall_mem_singleton, and_iff_left hempty]

/-- If every element is a name, the flags set are those named. -/
theorem perfOptParseSuppress_flags {val : Option Bytes} {s : PerfSuppress}
    (hok : perfOptParseSuppress val = .ok s)
    (hnames : ∀ e ∈ elements val, ∃ t : MessageType, e = t.name) (t : MessageType) :
    s.get t = true ↔ t.name ∈ elements val := by
  -- a name is not empty, so every element has been looked at
  have hall : lookedAt val = elements val := by
    rcases elements_eq val with heq | heq
    · exact heq.symm
    · obtain ⟨u, hu⟩ := hnames [] (by rw [heq]; simp)
      exact absurd hu.symm u.name_chars.2.1
  obtain ⟨-, rfl⟩ := (perfOptParseSuppress_ok_iff val s).mp hok
  rw [get_setAll, PerfSuppress.get_clear, hall]
  constructor
  · rintro (⟨e, he, hstands⟩ | hclear)
    · obtain ⟨u, rfl⟩ := hnames e he
      rw [stands_name, Option.some.injEq] at hstands
      exact hstands ▸ he
    · cases hclear
  · intro hmem
    exact Or.inl ⟨t.name, hmem, stands_name t⟩

/-- A list is parsed exactly, in that the parser returns if and only if all elements are names and
the flags are then those named, unless all of its elements begin names and one is no name. -/
theorem perfOptParseSuppress_exact_iff (val : Option Bytes) :
    (((∃ s, perfOptParseSuppress val = .ok s) ↔
          ∀ e ∈ elements val, ∃ t : MessageType, e = t.name) ∧
        ∀ s, perfOptParseSuppress val = .ok s →
          ∀ t : MessageType, s.get t = true ↔ t.name ∈ elements val) ↔
      ((∀ e ∈ elements val, ∃ t : MessageType, compared e <+: t.name) →
        ∀ e ∈ elements val, ∃ t : MessageType, e = t.name) := by
  constructor
  · rintro ⟨hreturns, -⟩ hbegin
    exact hreturns.mp ((perfOptParseSuppress_returns_iff val).mpr hbegin)
  · intro hexact
    have hreturns : (∃ s, perfOptParseSuppress val = .ok s) ↔
        ∀ e ∈ elements val, ∃ t : MessageType, e = t.name := by
      rw [perfOptParseSuppress_returns_iff]
      refine ⟨hexact, fun hnames e he => ?_⟩
      obtain ⟨t, rfl⟩ := hnames e he
      exact ⟨t, by rw [compared_name]⟩
    exact ⟨hreturns, fun s hok => perfOptParseSuppress_flags hok (hreturns.mp ⟨s, hok⟩)⟩

/-- `t` is taken for `timeouts` and `s` for `sendfailed`. The empty element of `,` is taken for
`timeouts` too, while the one at the end of `sockready,` is not looked at. -/
theorem perfOptParseSuppress_inexact :
    (elements (some (ascii "t")) = [ascii "t"] ∧
      (∀ t : MessageType, ascii "t" ≠ t.name) ∧
      perfOptParseSuppress (some (ascii "t")) = .ok ⟨true, false, false, false, false⟩) ∧
    perfOptParseSuppress (some (ascii "s")) = .ok ⟨false, false, true, false, false⟩ ∧
    (elements (some (ascii ",")) = [[], []] ∧
      perfOptParseSuppress (some (ascii ",")) = .ok ⟨true, false, false, false, false⟩) ∧
    elements (some (ascii "sockready,")) = [ascii "sockready", []] ∧
      perfOptParseSuppress (some (ascii "sockready,")) =
        .ok ⟨false, false, false, true, false⟩ := by
  refine ⟨⟨by decide, fun t => ?_, by decide +kernel⟩, by decide +kernel,
    ⟨by decide, by decide +kernel⟩, by decide, by decide +kernel⟩
  cases t <;> decide

end Dnsperf.Opt
