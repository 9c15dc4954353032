import Dnsperf.Dns.UpdateLoop
import Dnsperf.Dns.RequestSound

/-!
# Dnsperf.Dns.UpdateSound

What an update message holds, against the lines it was made from.

`UpdateMessage` says it without the loop: the two counts of the header are the
numbers of `require`/`prohibit` and of `add`/`delete` lines, and after the zone
come the records of the first kind of line and then those of the second, each in
input order. `build_update` meets it exactly when ldns writes every record and
neither count needs more than one byte.
-/

namespace Dnsperf.Dns

open Dnsperf.Lib

section

variable {Rdf Tree : Type}

/-! ### How `build_update` ends -/

/-- A big-endian count of the header. -/
def count16 (base : Bytes) (i : Nat) : Nat := ofBe16 (base.getD i 0) (base.getD (i + 1) 0)

/-- The two counts are one byte each, and the rest of the message stays as it is. -/
theorem modify_counts (id flags updates prereqs : Nat) (body : Bytes) :
    let base := ((headerBytes id flags 0 ++ body).modify 7 (fun _ => UInt8.ofNat prereqs)).modify 9
      (fun _ => UInt8.ofNat updates)
    (count16 base 6 = prereqs % 256 ∧ count16 base 8 = updates % 256) ∧
      base.take 6 = (headerBytes id flags 0).take 6 ∧
      base.drop 10 = (headerBytes id flags 0).drop 10 ++ body ∧ base.drop 12 = body := by
  have h0 : ∀ n, ofBe16 0 (UInt8.ofNat n) = n % 256 := by
    intro n
    simp [ofBe16]
  simp [headerBytes, be16, List.modify, count16, h0]

theorem count16_headerBytes (id flags : Nat) :
    count16 (headerBytes id flags 0) 6 = 0 ∧ count16 (headerBytes id flags 0) 8 = 0 := by
  simp [headerBytes, be16, count16, ofBe16]

variable (zoneCalls : Ldns Rdf Tree) (calls : LineCalls Rdf Tree)

/-- ldns writes the record of every command line. -/
def LinesWritten (record : Bytes) (msg : PerfBuffer) : Prop :=
  ∀ origin zone tree, zoneCalls.rdfNewFrmStr (cstr record) = some origin →
    zoneCalls.dname2bufferWireCompress msg.base zoneCalls.rbtreeInit origin = some (zone, tree) →
    (writeLines origin calls (msg.base ++ zone ++ be16 6 ++ be16 1) tree
      (commandLines record)).isSome

variable {zoneCalls calls} {record : Bytes} {msg msg' : PerfBuffer}

theorem linesWritten_iff {origin : Rdf} {zone : Bytes} {tree : Tree}
    (horigin : zoneCalls.rdfNewFrmStr (cstr record) = some origin)
    (hzone : zoneCalls.dname2bufferWireCompress msg.base zoneCalls.rbtreeInit origin =
      some (zone, tree)) :
    LinesWritten zoneCalls calls record msg ↔
      (writeLines origin calls (msg.base ++ zone ++ be16 6 ++ be16 1) tree
        (commandLines record)).isSome := by
  constructor
  · intro h
    exact h origin zone tree horigin hzone
  · intro h origin' zone' tree' horigin' hzone'
    obtain rfl := Option.some.inj (horigin.symm.trans horigin')
    obtain ⟨rfl, rfl⟩ := Prod.mk.inj (Option.some.inj (hzone.symm.trans hzone'))
    exact h

/-- **How `build_update` ends**: without success, and the message as it was; or as the command
loop ended. -/
theorem buildUpdateOf_cases (zoneCalls : Ldns Rdf Tree) (calls : LineCalls Rdf Tree)
    (record : Bytes) (msg : PerfBuffer) :
    ∃ result msg', buildUpdateOf zoneCalls calls record msg = some (result, msg') ∧
      (result ≠ .success ∧ msg' = msg ∨
        result = .success ∧ ∃ origin zone tree,
          zoneCalls.rdfNewFrmStr (cstr record) = some origin ∧
          zoneCalls.dname2bufferWireCompress msg.base zoneCalls.rbtreeInit origin =
            some (zone, tree) ∧
          (commandLoopOf origin (record.length + 1) calls record
              (msg.base ++ zone ++ be16 6 ++ be16 1) tree 0 0 = some (.done .success) ∧
              msg' = msg ∨
            ∃ lmsg updates prereqs, commandLoopOf origin (record.length + 1) calls record
                (msg.base ++ zone ++ be16 6 ++ be16 1) tree 0 0 =
                  some (.send lmsg updates prereqs) ∧
              msg'.base = ((msg.base ++ lmsg.drop msg.base.length).modify 7
                (fun _ => UInt8.ofNat prereqs)).modify 9 (fun _ => UInt8.ofNat updates))) := by
  unfold buildUpdateOf
  cases horigin : zoneCalls.rdfNewFrmStr (cstr record) with
  | none => exact ⟨.failure, msg, rfl, Or.inl ⟨by decide, rfl⟩⟩
  | some origin =>
      dsimp only
      cases hzone : zoneCalls.dname2bufferWireCompress msg.base zoneCalls.rbtreeInit origin with
      | none => exact ⟨.failure, msg, rfl, Or.inl ⟨by decide, rfl⟩⟩
      | some z =>
          obtain ⟨zone, tree⟩ := z
          dsimp only
          -- every round takes a line off the record, so the fuel is enough
          obtain ⟨e, hloop⟩ := Option.isSome_iff_exists.mp
            (commandLoopOf_isSome origin (record.length + 1) calls record
              (msg.base ++ zone ++ be16 6 ++ be16 1) tree 0 0 (Nat.lt_succ_self _))
          rw [hloop]
          cases e with
          | done result =>
              refine ⟨result, msg, rfl, ?_⟩
              by_cases hresult : result = .success
              · subst hresult
                exact Or.inr ⟨rfl, origin, zone, tree, rfl, hzone, Or.inl ⟨hloop, rfl⟩⟩
              · exact Or.inl ⟨hresult, rfl⟩
          | send lmsg updates prereqs =>
              dsimp only
              split_ifs with hspace
              · exact ⟨.nospace, msg, rfl, Or.inl ⟨by decide, rfl⟩⟩
              · have hfits : msg.Fits (lmsg.drop msg.usedlength).length := by
                  rw [PerfBuffer.fits_iff, List.length_drop]
                  omega
                rw [PerfBuffer.putmem_eq_push hfits]
                refine ⟨.success, _, rfl, Or.inr ⟨rfl, origin, zone, tree, rfl, hzone,
                  Or.inr ⟨lmsg, updates, prereqs, hloop, ?_⟩⟩⟩
                rw [PerfBuffer.modify_base, PerfBuffer.modify_base, PerfBuffer.push_base hfits]
                rfl

/-- **At `send`** the message has the records of all command lines, prerequisites first, and the
counts modulo 256. -/
theorem message_of_send {id flags updates prereqs : Nat} {origin : Rdf} {tree : Tree}
    {zone lmsg : Bytes} (hmsg : msg.base = headerBytes id flags 0)
    (hloop : commandLoopOf origin (record.length + 1) calls record
      (msg.base ++ zone ++ be16 6 ++ be16 1) tree 0 0 = some (.send lmsg updates prereqs))
    (hbase : msg'.base = ((msg.base ++ lmsg.drop msg.base.length).modify 7
      (fun _ => UInt8.ofNat prereqs)).modify 9 (fun _ => UInt8.ofNat updates)) :
    commandLines record =
        (commandLines record).filter isPrereq ++ (commandLines record).filter isUpdateLine ∧
      (count16 msg'.base 6 = ((commandLines record).filter isPrereq).length % 256 ∧
        count16 msg'.base 8 = ((commandLines record).filter isUpdateLine).length % 256) ∧
      ∃ recs, writeLines origin calls (msg.base ++ zone ++ be16 6 ++ be16 1) tree
          (commandLines record) = some recs ∧
        msg'.base.take 6 = msg.base.take 6 ∧
        msg'.base.drop 10 = msg.base.drop 10 ++ zone ++ be16 6 ++ be16 1 ++ recs.flatten ∧
        msg'.base.drop 12 = zone ++ be16 6 ++ be16 1 ++ recs.flatten := by
  obtain ⟨hsplit, -, hu, hp, recs, hrecs, hlmsg⟩ := commandLoopOf_send hloop
  have hbody : lmsg.drop msg.base.length = zone ++ be16 6 ++ be16 1 ++ recs.flatten := by
    rw [hlmsg]
    simp only [List.append_assoc, List.drop_left]
  rw [Nat.zero_add] at hu hp
  obtain ⟨hcounts, htake, hdrop, hdrop'⟩ := modify_counts id flags updates prereqs
    (zone ++ be16 6 ++ be16 1 ++ recs.flatten)
  rw [hbody, hmsg] at hbase
  rw [← hbase] at hcounts htake hdrop hdrop'
  rw [hu, hp] at hcounts
  refine ⟨hsplit, hcounts, recs, hrecs, ?_, ?_, hdrop'⟩
  · rw [htake, hmsg]
  · rw [hdrop, hmsg]
    simp only [List.append_assoc]

/-! ### The message -/

variable (ldns : Ldns Rdf Tree)

/-- The records ldns appends when it is given `rrs` one after the other; `none` if
a call fails. -/
def writeRecords : Bytes → Tree → List (LdnsRr Rdf) → Option (List Bytes)
  | _, _, [] => some []
  | lmsg, tree, rr :: rrs => do
      let (bytes, tree) ← ldns.rr2bufferWireCompress lmsg tree rr
      let recs ← writeRecords (lmsg ++ bytes) tree rrs
      some (bytes :: recs)

/-- `msg'` is the update message of `record`: the header of `msg` with the two
counts, the zone, the prerequisite records and the update records. -/
def UpdateMessage (record : Bytes) (msg msg' : PerfBuffer) : Prop :=
  let prereqs := (commandLines record).filter isPrereq
  let updates := (commandLines record).filter isUpdateLine
  count16 msg'.base 6 = prereqs.length ∧ count16 msg'.base 8 = updates.length ∧
    ∃ origin zone tree recs, ldns.rdfNewFrmStr (cstr record) = some origin ∧
      ldns.dname2bufferWireCompress msg.base ldns.rbtreeInit origin = some (zone, tree) ∧
      writeRecords ldns (msg.base ++ zone ++ be16 6 ++ be16 1) tree
        ((prereqs ++ updates).map (lineRr ldns origin)) = some recs ∧
      msg'.base.drop 12 = zone ++ be16 6 ++ be16 1 ++ recs.flatten

/-- ldns writes a record for every command line. -/
def AllWritten (record : Bytes) (msg : PerfBuffer) : Prop :=
  ∀ origin zone tree, ldns.rdfNewFrmStr (cstr record) = some origin →
    ldns.dname2bufferWireCompress msg.base ldns.rbtreeInit origin = some (zone, tree) →
    (writeRecords ldns (msg.base ++ zone ++ be16 6 ++ be16 1) tree
      ((commandLines record).map (lineRr ldns origin))).isSome

/-- Line by line, or all records at once. -/
theorem writeLines_const (origin : Rdf) (lmsg : Bytes) (tree : Tree) (lines : List Bytes) :
    writeLines origin (fun _ => ldns) lmsg tree lines =
      writeRecords ldns lmsg tree (lines.map (lineRr ldns origin)) := by
  induction lines generalizing lmsg tree with
  | nil => rfl
  | cons line lines ih =>
      have htail : LineCalls.tail (fun _ => ldns) = fun _ => ldns := rfl
      simp only [writeLines, htail, ih, List.map_cons, writeRecords]

theorem allWritten_iff (ldns : Ldns Rdf Tree) (record : Bytes) (msg : PerfBuffer) :
    AllWritten ldns record msg ↔ LinesWritten ldns (fun _ => ldns) record msg := by
  simp only [AllWritten, LinesWritten, writeLines_const]

/-- **Section counts of an update message.** On success the message is the update
message of the record exactly when ldns wrote every record and there are at most
255 lines of either kind. -/
theorem buildUpdate_updateMessage_iff (ldns : Ldns Rdf Tree) (record : Bytes) (id flags : Nat)
    (msg msg' : PerfBuffer) (hmsg : msg.base = headerBytes id flags 0)
    (h : buildUpdate ldns record msg = some (.success, msg')) :
    UpdateMessage ldns record msg msg' ↔
      AllWritten ldns record msg ∧ ((commandLines record).filter isPrereq).length < 256 ∧
        ((commandLines record).filter isUpdateLine).length < 256 := by
  rw [allWritten_iff]
  obtain ⟨result, msg₁, hbuild, hcases⟩ := buildUpdateOf_cases ldns (fun _ => ldns) record msg
  obtain ⟨rfl, rfl⟩ := Prod.mk.inj (Option.some.inj (hbuild.symm.trans h))
  rcases hcases with ⟨hne, -⟩ | ⟨-, origin, zone, tree, horigin, hzone, hend⟩
  · exact absurd rfl hne
  rw [linesWritten_iff horigin hzone]
  rcases hend with ⟨hloop, rfl⟩ | ⟨lmsg, updates, prereqs, hloop, hbase⟩
  · -- the message is still the bare header, although there is a command line
    obtain ⟨hpos, hnone⟩ := commandLoopOf_done_success hloop
    obtain ⟨hpre, hup⟩ := count16_headerBytes id flags
    rw [hnone]
    refine ⟨?_, fun h => (nomatch h.1)⟩
    rintro ⟨hpm, hum, -⟩
    rw [hmsg] at hpm hum
    omega
  · obtain ⟨hsplit, ⟨hpre, hup⟩, recs, hrecs, -, -, hdrop⟩ := message_of_send hmsg hloop hbase
    simp only [UpdateMessage, hpre, hup, ← hsplit, ← writeLines_const]
    rw [hrecs]
    constructor
    · rintro ⟨hpm, hum, -⟩
      exact ⟨rfl, by omega, by omega⟩
    · rintro ⟨-, hplt, hult⟩
      exact ⟨Nat.mod_eq_of_lt hplt, Nat.mod_eq_of_lt hult, origin, zone, tree, recs, horigin,
        hzone, hrecs, hdrop⟩

end

/-! ### Updates of the root zone -/

/-- The ldns calls on names `.`, which is all the records below use: the name is one
zero byte and a record without data is eleven bytes. -/
def rootLdns : Ldns Unit Unit where
  rdfNewFrmStr s := if s = ascii "." then some () else none
  dnameNewFrmStr s := if s = ascii "." then some () else none
  dnameStrAbsolute s := s = ascii "."
  dnameCat _ _ := some ()
  getRrTypeByName _ := 0
  rrNewFrmStr _ _ := none
  rbtreeInit := ()
  dname2bufferWireCompress _ _ _ := some ([0], ())
  rr2bufferWireCompress _ _ rr :=
    some (0 :: (be16 rr.type ++ be16 rr.cls ++ be16 (rr.ttl / 65536) ++ be16 rr.ttl ++ be16 0), ())

/-- `n` lines that delete everything at the root, and `send`. -/
def deleteBlock (n : Nat) : Bytes :=
  (List.replicate n (ascii "delete ." ++ [0])).flatten ++ (ascii "send" ++ [0])

/-- An update of the root zone with `n` such lines. -/
def rootDeletes (n : Nat) : Bytes := ascii "." ++ 0 :: deleteBlock n

/-- The record each of the lines makes. -/
def deleteRecord : Bytes := [0, 0, 255, 0, 255, 0, 0, 0, 0, 0, 0]

/-- The message buffer with the header of an update. -/
def updateHeader (size : Nat) : PerfBuffer :=
  (PerfBuffer.init size).push (headerBytes 7 (5 <<< 11) 0)

/-- One deletion, in the smaller buffer. -/
theorem updateMessage_one_delete :
    UpdateMessage rootLdns (rootDeletes 1) (updateHeader 512)
      (((updateHeader 512).push ([0, 0, 6, 0, 1] ++ deleteRecord)).modify 9 (fun _ => 1)) :=
  (buildUpdate_updateMessage_iff rootLdns (rootDeletes 1) 7 (5 <<< 11) (updateHeader 512) _
    (by decide) (by decide)).mpr
    ⟨by
      intro _ _ _ _ _
      rw [show commandLines (rootDeletes 1) = [ascii "delete ."] by decide +kernel]
      rfl,
    by decide, by decide⟩

theorem deleteBlock_succ (n : Nat) :
    deleteBlock (n + 1) = ascii "delete ." ++ 0 :: deleteBlock n := by
  simp [deleteBlock, List.replicate_succ]

theorem commandLines_deleteBlock {l : Bytes} (hl : 0 ∉ l) (n : Nat) :
    commandLines (l ++ 0 :: deleteBlock n) = List.replicate n (ascii "delete .") := by
  induction n generalizing l with
  | zero =>
      rw [commandLines, recordLines_append_cons hl, List.drop_one, List.tail_cons]
      decide
  | succ n ih =>
      have hline : 0 ∉ ascii "delete ." := by decide
      rw [deleteBlock_succ, commandLines_append_cons hl hline (by decide), ih hline,
        List.replicate_succ]

theorem commandLoopOf_deleteBlock (n : Nat) : ∀ (fuel : Nat) {l : Bytes} (lmsg : Bytes)
    (updates : Nat), 0 ∉ l → n < fuel →
    commandLoopOf () fuel (fun _ => rootLdns) (l ++ 0 :: deleteBlock n) lmsg () updates 0 =
      some (.send (lmsg ++ (List.replicate n deleteRecord).flatten) (updates + n) 0) := by
  induction n with
  | zero =>
      intro fuel l lmsg updates hl hfuel
      obtain ⟨fuel, rfl⟩ : ∃ f, fuel = f + 1 := ⟨fuel - 1, by omega⟩
      have hdrop : (l ++ 0 :: deleteBlock 0).drop (l.length + 1) = ascii "send" ++ [0] := by
        simp [deleteBlock]
      rw [commandLoopOf]
      simp only [cstr_append_cons hl, hdrop]
      rw [if_neg (by decide), if_pos (by decide)]
      simp
  | succ n ih =>
      intro fuel l lmsg updates hl hfuel
      obtain ⟨fuel, rfl⟩ : ∃ f, fuel = f + 1 := ⟨fuel - 1, by omega⟩
      have hline : 0 ∉ ascii "delete ." := by decide
      have hdrop : (l ++ 0 :: deleteBlock (n + 1)).drop (l.length + 1) =
          ascii "delete ." ++ 0 :: deleteBlock n := by
        rw [← deleteBlock_succ]
        simp
      have hread : readCommand rootLdns (ascii "delete .") () =
          (.success, { rrNew Unit with owner := some (), cls := rrClassAny }, true) := by
        decide
      rw [commandLoopOf]
      simp only [cstr_append_cons hl, hdrop,
        cstr_append_cons hline, hread]
      rw [if_neg (by simp), if_neg (by decide)]
      simp only [ne_eq, not_true_eq_false, if_false, Bool.not_true, Bool.false_and, if_true]
      have hrec := ih fuel (lmsg ++ deleteRecord) (updates + 1) hline (by omega)
      rw [List.replicate_succ, List.flatten_cons, ← List.append_assoc,
        show updates + (n + 1) = updates + 1 + n by omega]
      exact hrec

theorem length_deleteBlock (n : Nat) : (deleteBlock n).length = 9 * n + 5 := by
  induction n with
  | zero => rfl
  | succ n ih =>
      have h8 : (ascii "delete .").length = 8 := by decide
      rw [deleteBlock_succ, List.length_append, List.length_cons, ih, h8]
      omega

/-- Any number of deletions that fits the buffer is built, and counted modulo 256. -/
theorem buildUpdate_rootDeletes (n size : Nat) (hfit : 11 * n + 17 ≤ size) :
    ∃ msg', buildUpdate rootLdns (rootDeletes n) (updateHeader size) = some (.success, msg') ∧
      count16 msg'.base 8 = n % 256 := by
  have hdot : 0 ∉ ascii "." := by decide
  set header := updateHeader size with hheader
  have hbase : header.base = headerBytes 7 (5 <<< 11) 0 := by
    rw [hheader, updateHeader, PerfBuffer.push_base (by simp [PerfBuffer.Fits]; omega)]
    rfl
  have hloop := commandLoopOf_deleteBlock n ((rootDeletes n).length + 1)
    (header.base ++ [0] ++ be16 6 ++ be16 1) 0 hdot (by
      rw [rootDeletes, List.length_append, List.length_cons, length_deleteBlock]
      omega)
  set body := [0] ++ be16 6 ++ be16 1 ++ (List.replicate n deleteRecord).flatten with hbody
  have hbodylen : body.length = 11 * n + 5 := by
    simp [hbody, be16, deleteRecord]
    omega
  have hlmsg : header.base ++ [0] ++ be16 6 ++ be16 1 ++
      (List.replicate n deleteRecord).flatten = header.base ++ body := by
    simp only [hbody, List.append_assoc]
  have hfits : header.Fits body.length := by
    rw [PerfBuffer.Fits, hbase, headerBytes_length, hbodylen]
    exact (by omega : 12 + (11 * n + 5) ≤ size)
  rw [hlmsg, Nat.zero_add] at hloop
  refine ⟨((header.push body).modify 7 (fun _ => UInt8.ofNat 0)).modify 9
    (fun _ => UInt8.ofNat n), ?_, ?_⟩
  · have hroom : ¬ header.availablelength < (header.base ++ body).length - header.usedlength := by
      simp only [PerfBuffer.availablelength, PerfBuffer.usedlength, List.length_append]
      unfold PerfBuffer.Fits at hfits
      omega
    have hdrop : (header.base ++ body).drop header.usedlength = body := List.drop_left
    unfold buildUpdate buildUpdateOf
    rw [rootDeletes] at hloop ⊢
    simp only [cstr_append_cons hdot, rootLdns, if_true]
    simp only [rootLdns] at hloop
    simp only [hloop, if_neg hroom, hdrop, PerfBuffer.putmem_eq_push hfits, Option.bind_eq_bind,
      Option.bind_some]
  · rw [PerfBuffer.modify_base, PerfBuffer.modify_base, PerfBuffer.push_base hfits, hbase]
    exact (modify_counts 7 (5 <<< 11) n 0 body).1.2

/-- **256 updates are counted as none.** The message is built and sent, with all its
records, but the byte the count is stored in is 0. -/
theorem not_updateMessage_256_deletes :
    ∃ msg', buildUpdate rootLdns (rootDeletes 256) (updateHeader 4096) = some (.success, msg') ∧
      ¬ UpdateMessage rootLdns (rootDeletes 256) (updateHeader 4096) msg' := by
  obtain ⟨msg', hbuild, hcount⟩ := buildUpdate_rootDeletes 256 4096 (by decide)
  refine ⟨msg', hbuild, ?_⟩
  rintro ⟨-, hupdates, -⟩
  rw [hcount, rootDeletes, commandLines_deleteBlock (by decide),
    List.filter_replicate_of_pos (by decide), List.length_replicate] at hupdates
  exact absurd hupdates (by decide)

end Dnsperf.Dns
