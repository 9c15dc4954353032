import Dnsperf.Dns.Update
import Dnsperf.Lib.Segments

/-!
# Dnsperf.Dns.UpdateLoop

The command loop of `build_update`, and the lines it goes through: what a round does, and what the
loop has written when it ends at `send`, or early.
-/

namespace Dnsperf.Dns

open Dnsperf.Lib

/-! ### The lines of a record -/

/-- The strings of a block of NUL-terminated strings. -/
def recordLines (record : Bytes) : List Bytes :=
  (segments (· == 0) record).1 ++
    if (segments (· == 0) record).2 = [] then [] else [(segments (· == 0) record).2]

theorem beq_zero_of_notMem {l : Bytes} (h : 0 ∉ l) : ∀ a ∈ l, (a == 0) = false := by
  intro a ha
  simp only [beq_eq_false_iff_ne]
  rintro rfl
  exact h ha

theorem recordLines_append_cons {l : Bytes} (h : 0 ∉ l) (s : Bytes) :
    recordLines (l ++ 0 :: s) = l :: recordLines s := by
  have hzero : ((0 : UInt8) == 0) = true := rfl
  simp only [recordLines, segments_append_cons (beq_zero_of_notMem h) hzero, List.cons_append]

theorem recordLines_eq {s : Bytes} (hs : s ≠ []) :
    recordLines s = cstr s :: recordLines (s.drop ((cstr s).length + 1)) := by
  by_cases h : 0 ∈ s
  · obtain ⟨l, r, rfl, hl⟩ := List.eq_append_cons_of_mem h
    have hdrop : (l ++ 0 :: r).drop (l.length + 1) = r := by simp
    rw [cstr_append_cons hl, hdrop, recordLines_append_cons hl]
  · rw [cstr_of_not_mem h, List.drop_of_length_le (by omega)]
    simp [recordLines, segments_of_forall (beq_zero_of_notMem h), hs, segments]

theorem recordLines_drop_one (s : Bytes) :
    (recordLines s).drop 1 = recordLines (s.drop ((cstr s).length + 1)) := by
  by_cases hs : s = []
  · subst hs
    rfl
  · rw [recordLines_eq hs, List.drop_one, List.tail_cons]

/-- The line that ends an update. -/
def isSend (line : Bytes) : Bool := tokenEquals (commandToken line) "send"

/-- A prerequisite line. -/
def isPrereq (line : Bytes) : Bool :=
  tokenEquals (commandToken line) "require" || tokenEquals (commandToken line) "prohibit"

/-- An update line. -/
def isUpdateLine (line : Bytes) : Bool :=
  tokenEquals (commandToken line) "add" || tokenEquals (commandToken line) "delete"

/-- The lines between the zone and `send`. -/
def commandLines (record : Bytes) : List Bytes :=
  ((recordLines record).drop 1).takeWhile (fun line => !isSend line)

theorem commandLines_append_cons {l line : Bytes} (hl : 0 ∉ l) (hline : 0 ∉ line)
    (hsend : isSend line = false) (s : Bytes) :
    commandLines (l ++ 0 :: (line ++ 0 :: s)) = line :: commandLines (line ++ 0 :: s) := by
  simp only [commandLines, recordLines_append_cons hl, recordLines_append_cons hline,
    List.drop_one, List.tail_cons]
  rw [List.takeWhile_cons_of_pos (by simp [hsend])]

/-- No command is of both kinds: the words have different lengths. -/
theorem isPrereq_eq_false_of_isUpdateLine {line : Bytes} (h : isUpdateLine line = true) :
    isPrereq line = false := by
  simp only [isUpdateLine, tokenEquals, Bool.or_eq_true, Bool.and_eq_true, beq_iff_eq] at h
  have hne : ∀ n, (ascii "add").length = n ∨ (ascii "delete").length = n →
      (ascii "require").length ≠ n ∧ (ascii "prohibit").length ≠ n := by
    rintro n (rfl | rfl) <;> decide
  obtain ⟨h₁, h₂⟩ := hne _ (h.imp And.left And.left)
  simp [isPrereq, tokenEquals, h₁, h₂]

/-! ### One round after another -/

section

variable {Rdf Tree : Type}

/-- The resource record of a command line. -/
def lineRr (ldns : Ldns Rdf Tree) (origin : Rdf) (line : Bytes) : LdnsRr Rdf :=
  (readCommand ldns line origin).2.1

/-- The records ldns appends for `lines`; `none` if a call fails. -/
def writeLines (origin : Rdf) : LineCalls Rdf Tree → Bytes → Tree → List Bytes → Option (List Bytes)
  | _, _, _, [] => some []
  | calls, lmsg, tree, line :: lines => do
      let (bytes, tree) ← (calls 0).rr2bufferWireCompress lmsg tree (lineRr (calls 0) origin line)
      let recs ← writeLines origin calls.tail (lmsg ++ bytes) tree lines
      some (bytes :: recs)

/-- The command words `readCommand` succeeds on, and what it then says of the line. -/
theorem readCommand_success (ldns : Ldns Rdf Tree) {line : Bytes} {origin : Rdf} {rr : LdnsRr Rdf}
    {isUpdate : Bool} (h : readCommand ldns line origin = (.success, rr, isUpdate)) :
    isUpdateLine line = isUpdate ∧ isPrereq line = !isUpdate ∧ lineRr ldns origin line = rr := by
  have hrr : lineRr ldns origin line = rr := by rw [lineRr, h]
  have hkind : isUpdateLine line = isUpdate ∧ (isUpdate = false → isPrereq line = true) := by
    unfold readCommand at h
    simp only at h
    split at h
    · rename_i hadd
      simp only [Prod.mk.injEq] at h
      simp [← h.2.2, isUpdateLine, hadd]
    rename_i hadd
    split at h
    · rename_i hdelete
      simp only [Prod.mk.injEq] at h
      simp [← h.2.2, isUpdateLine, hdelete]
    rename_i hdelete
    split at h
    · rename_i hrequire
      simp only [Prod.mk.injEq] at h
      simp [← h.2.2, isUpdateLine, isPrereq, hadd, hdelete, hrequire]
    split at h
    · rename_i hprohibit
      simp only [Prod.mk.injEq] at h
      simp [← h.2.2, isUpdateLine, isPrereq, hadd, hdelete, hprohibit]
    · simp at h
  refine ⟨hkind.1, ?_, hrr⟩
  cases isUpdate with
  | true => exact isPrereq_eq_false_of_isUpdateLine hkind.1
  | false => exact hkind.2 rfl

variable {origin : Rdf} {calls : LineCalls Rdf Tree} {lmsg : Bytes} {tree : Tree}
  {updates prereqs : Nat}

/-- **One round of the command loop**: it ends without success, at `send`, or at a
record ldns does not write; or it appends the record of one line and goes on. -/
theorem commandLoopOf_round {fuel : Nat} {input : Bytes} {e : LoopEnd}
    (h : commandLoopOf origin (fuel + 1) calls input lmsg tree updates prereqs = some e) :
    (∃ r, r ≠ .success ∧ e = .done r) ∨
    (commandLines input = [] ∧ e = .send lmsg updates prereqs) ∨
    ∃ line rest isUpdate, commandLines input = line :: commandLines rest ∧
      isUpdateLine line = isUpdate ∧ isPrereq line = !isUpdate ∧
      (isUpdate = false → updates = 0) ∧
      (((calls 0).rr2bufferWireCompress lmsg tree (lineRr (calls 0) origin line) = none ∧
          e = .done .success) ∨
        ∃ bytes tree', (calls 0).rr2bufferWireCompress lmsg tree (lineRr (calls 0) origin line) =
            some (bytes, tree') ∧
          commandLoopOf origin fuel calls.tail rest (lmsg ++ bytes) tree'
            (updates + if isUpdate then 1 else 0) (prereqs + if isUpdate then 0 else 1) =
              some e) := by
  rw [commandLoopOf] at h
  simp only at h
  split at h
  -- the input ends before a `send`
  · exact Or.inl ⟨_, by decide, (Option.some.inj h).symm⟩
  rename_i hne
  set rest := input.drop ((cstr input).length + 1) with hrest
  have hlines : (recordLines input).drop 1 =
      cstr rest :: recordLines (rest.drop ((cstr rest).length + 1)) := by
    rw [recordLines_drop_one, ← hrest, recordLines_eq hne]
  split at h
  -- the line is `send`
  · rename_i hsend
    refine Or.inr (Or.inl ⟨?_, (Option.some.inj h).symm⟩)
    rw [commandLines, hlines, List.takeWhile_cons_of_neg (by simpa [isSend] using hsend)]
  rename_i hsend
  have hcommands : commandLines input = cstr rest :: commandLines rest := by
    rw [commandLines, hlines, List.takeWhile_cons_of_pos (by simpa [isSend] using hsend),
      ← recordLines_drop_one, commandLines]
  rcases hread : readCommand (calls 0) (cstr rest) origin with ⟨result, rr, isUpdate⟩
  rw [hread] at h
  simp only at h
  split at h
  -- the line cannot be read as a command
  · rename_i hres
    exact Or.inl ⟨result, hres, (Option.some.inj h).symm⟩
  rename_i hres
  obtain rfl : result = .success := by simpa using hres
  split at h
  -- a prerequisite after an update
  · exact Or.inl ⟨_, by decide, (Option.some.inj h).symm⟩
  rename_i horder
  obtain ⟨hup, hpre, hrr⟩ := readCommand_success (calls 0) hread
  refine Or.inr (Or.inr ⟨cstr rest, rest, isUpdate, hcommands, hup, hpre, ?_, ?_⟩)
  · rintro rfl
    simpa using horder
  rw [hrr]
  cases hw : (calls 0).rr2bufferWireCompress lmsg tree rr with
  | none =>
      rw [hw] at h
      exact Or.inl ⟨rfl, (Option.some.inj h).symm⟩
  | some w =>
      obtain ⟨bytes, tree'⟩ := w
      rw [hw] at h
      refine Or.inr ⟨bytes, tree', rfl, ?_⟩
      cases isUpdate with
      | true => simpa using h
      | false => simpa using h

/-- A loop that reaches `send` has written the record of every command line, the
prerequisites before the updates, and counted both. -/
theorem commandLoopOf_send :
    ∀ {fuel : Nat} {calls : LineCalls Rdf Tree} {input lmsg lmsg' : Bytes} {tree : Tree}
    {updates prereqs updates' prereqs' : Nat},
    commandLoopOf origin fuel calls input lmsg tree updates prereqs =
      some (.send lmsg' updates' prereqs') →
    commandLines input =
        (commandLines input).filter isPrereq ++ (commandLines input).filter isUpdateLine ∧
      (0 < updates → (commandLines input).filter isPrereq = []) ∧
      updates' = updates + ((commandLines input).filter isUpdateLine).length ∧
      prereqs' = prereqs + ((commandLines input).filter isPrereq).length ∧
      ∃ recs, writeLines origin calls lmsg tree (commandLines input) =
        some recs ∧ lmsg' = lmsg ++ recs.flatten
  | 0, _, _, _, _, _, _, _, _, _, h => by simp [commandLoopOf] at h
  | fuel + 1, calls, input, lmsg, lmsg', tree, updates, prereqs, updates', prereqs', h => by
      rcases commandLoopOf_round h with ⟨r, -, he⟩ | ⟨hnil, he⟩ |
        ⟨line, rest, isUpdate, hcons, hup, hpre, horder, ⟨-, he⟩ | ⟨bytes, tree', hw, hrec⟩⟩
      · simp at he
      · obtain ⟨rfl, rfl, rfl⟩ : lmsg' = lmsg ∧ updates' = updates ∧ prereqs' = prereqs := by
          simpa using he
        simp [hnil, writeLines]
      · simp at he
      · obtain ⟨hsplit, hzero, hu, hp, recs, hrecs, hlmsg⟩ := commandLoopOf_send hrec
        have hwrite : writeLines origin calls lmsg tree (line :: commandLines rest) =
            some (bytes :: recs) := by
          simp only [writeLines, hw, Option.bind_eq_bind, Option.bind_some, hrecs]
        have hflat : lmsg' = lmsg ++ (bytes :: recs).flatten := by
          rw [hlmsg, List.flatten_cons, List.append_assoc]
        rw [hcons]
        cases isUpdate with
        | true =>
            -- the first update: no prerequisite may follow
            have hno : (commandLines rest).filter isPrereq = [] := hzero (by simp)
            rw [List.filter_cons_of_neg (by simp [hpre]), List.filter_cons_of_pos hup, hno]
            rw [hno, List.nil_append] at hsplit
            simp only [hno, if_true, List.length_nil] at hu hp
            refine ⟨by rw [List.nil_append, ← hsplit], fun _ => rfl, ?_, by simpa using hp,
              bytes :: recs, hwrite, hflat⟩
            rw [hu, List.length_cons]
            omega
        | false =>
            have h0 : updates = 0 := horder rfl
            rw [List.filter_cons_of_pos (by simpa using hpre),
              List.filter_cons_of_neg (by simp [hup])]
            refine ⟨by rw [List.cons_append, ← hsplit], fun hpos => by omega, by simpa using hu, ?_,
              bytes :: recs, hwrite, hflat⟩
            rw [hp, List.length_cons]
            simp
            omega

/-- A loop that ends early with success stopped at a command line whose record ldns
did not write. -/
theorem commandLoopOf_done_success :
    ∀ {fuel : Nat} {calls : LineCalls Rdf Tree} {input lmsg : Bytes} {tree : Tree}
    {updates prereqs : Nat},
    commandLoopOf origin fuel calls input lmsg tree updates prereqs = some (.done .success) →
    0 < ((commandLines input).filter isPrereq).length +
        ((commandLines input).filter isUpdateLine).length ∧
      writeLines origin calls lmsg tree (commandLines input) = none
  | 0, _, _, _, _, _, _, h => by simp [commandLoopOf] at h
  | fuel + 1, calls, input, lmsg, tree, updates, prereqs, h => by
      rcases commandLoopOf_round h with ⟨r, hr, he⟩ | ⟨-, he⟩ |
        ⟨line, rest, isUpdate, hcons, hup, hpre, -, hwrite⟩
      · exact absurd (LoopEnd.done.inj he).symm hr
      · simp at he
      have hpos : 0 < ((line :: commandLines rest).filter isPrereq).length +
          ((line :: commandLines rest).filter isUpdateLine).length := by
        cases isUpdate with
        | true =>
            rw [List.filter_cons_of_pos hup, List.length_cons]
            omega
        | false =>
            rw [List.filter_cons_of_pos (by simpa using hpre), List.length_cons]
            omega
      rw [hcons]
      refine ⟨hpos, ?_⟩
      rcases hwrite with ⟨hw, -⟩ | ⟨bytes, tree', hw, hrec⟩
      · simp only [writeLines, hw, Option.bind_eq_bind, Option.bind_none]
      · obtain ⟨-, hnone⟩ := commandLoopOf_done_success hrec
        simp only [writeLines, hw, Option.bind_eq_bind, Option.bind_some, hnone,
          Option.bind_none]

/-- A round takes a byte off the input at least, so the loop ends. -/
theorem commandLoopOf_isSome (origin : Rdf) : ∀ (fuel : Nat) (calls : LineCalls Rdf Tree)
    (input lmsg : Bytes) (tree : Tree) (updates prereqs : Nat), input.length < fuel →
    (commandLoopOf origin fuel calls input lmsg tree updates prereqs).isSome
  | 0, _, _, _, _, _, _, h => absurd h (Nat.not_lt_zero _)
  | fuel + 1, calls, input, lmsg, tree, updates, prereqs, h => by
      rw [commandLoopOf]
      set rest := input.drop ((cstr input).length + 1) with hrest
      have hshort : rest ≠ [] → rest.length < fuel := by
        intro hne
        have hpos := List.length_pos_iff.mpr hne
        rw [hrest, List.length_drop] at hpos ⊢
        omega
      dsimp only
      split_ifs with hnil
      · rfl
      · rfl
      · rfl
      · rfl
      · split
        · rfl
        · exact commandLoopOf_isSome origin fuel _ _ _ _ _ _ (hshort hnil)
      · split
        · rfl
        · exact commandLoopOf_isSome origin fuel _ _ _ _ _ _ (hshort hnil)

end

end Dnsperf.Dns
