import Dnsperf.Dns.UpdateSound

/-!
# Dnsperf.Dns.UpdateResult

**What the result of `build_update` says about the message**, however the ldns calls come out.

Any result but `PERF_R_SUCCESS` leaves the message as it was. Success should mean that the
message is complete, but `result` is also what the last line left in it: when ldns does not
write the record of a line, the loop is left with the success of `read_update_line`, and the
message is still the bare header.
-/

namespace Dnsperf.Dns

open Dnsperf.Lib

section

variable {Rdf Tree : Type}

variable (zoneCalls : Ldns Rdf Tree) (calls : LineCalls Rdf Tree)

/-- `msg'` is the complete message of `record`: the header of `msg` with the two counts, the zone
section, and a record for every command line. -/
def CompleteUpdate (record : Bytes) (msg msg' : PerfBuffer) : Prop :=
  count16 msg'.base 6 = ((commandLines record).filter isPrereq).length ∧
    count16 msg'.base 8 = ((commandLines record).filter isUpdateLine).length ∧
    ∃ origin zone tree recs, zoneCalls.rdfNewFrmStr (cstr record) = some origin ∧
      zoneCalls.dname2bufferWireCompress msg.base zoneCalls.rbtreeInit origin = some (zone, tree) ∧
      writeLines origin calls (msg.base ++ zone ++ be16 6 ++ be16 1) tree (commandLines record) =
        some recs ∧
      msg'.base.take 6 = msg.base.take 6 ∧
      msg'.base.drop 10 = msg.base.drop 10 ++ zone ++ be16 6 ++ be16 1 ++ recs.flatten

/-- **The result of `build_update`.** It always returns. On success the message is complete
exactly when ldns wrote the record of every line and there are at most 255 lines of either kind;
on anything else the message is as it was. -/
theorem buildUpdateOf_result (zoneCalls : Ldns Rdf Tree) (calls : LineCalls Rdf Tree)
    (record : Bytes) (id flags : Nat) (msg : PerfBuffer)
    (hmsg : msg.base = headerBytes id flags 0) :
    ∃ result msg', buildUpdateOf zoneCalls calls record msg = some (result, msg') ∧
      (result = .success → (CompleteUpdate zoneCalls calls record msg msg' ↔
        LinesWritten zoneCalls calls record msg ∧
          ((commandLines record).filter isPrereq).length < 256 ∧
          ((commandLines record).filter isUpdateLine).length < 256)) ∧
      (result ≠ .success → msg' = msg) := by
  obtain ⟨result, msg', hbuild, hcases⟩ := buildUpdateOf_cases zoneCalls calls record msg
  refine ⟨result, msg', hbuild, ?_⟩
  rcases hcases with ⟨hne, hsame⟩ | ⟨rfl, origin, zone, tree, horigin, hzone, hend⟩
  · exact ⟨fun hresult => absurd hresult hne, fun _ => hsame⟩
  refine ⟨fun _ => ?_, fun hne => absurd rfl hne⟩
  rw [linesWritten_iff horigin hzone]
  rcases hend with ⟨hloop, rfl⟩ | ⟨lmsg, updates, prereqs, hloop, hbase⟩
  · -- the message is still the bare header, although there is a command line
    obtain ⟨hpos, hnone⟩ := commandLoopOf_done_success hloop
    obtain ⟨hpre, hup⟩ := count16_headerBytes id flags
    rw [hnone]
    refine ⟨?_, fun h => (nomatch h.1)⟩
    rintro ⟨hpm, hum, -⟩
    rw [hmsg] at hpm hum
    omega
  · obtain ⟨-, ⟨hpre, hup⟩, recs, hrecs, htake, hdrop, -⟩ := message_of_send hmsg hloop hbase
    unfold CompleteUpdate
    rw [hpre, hup, hrecs]
    constructor
    · rintro ⟨hpm, hum, -⟩
      exact ⟨rfl, by omega, by omega⟩
    · rintro ⟨-, hplt, hult⟩
      exact ⟨Nat.mod_eq_of_lt hplt, Nat.mod_eq_of_lt hult, origin, zone, tree, recs, horigin,
        hzone, hrecs, htake, hdrop⟩

end

/-- One deletion is built completely. -/
theorem completeUpdate_one_delete :
    CompleteUpdate rootLdns (fun _ => rootLdns) (rootDeletes 1) (updateHeader 512)
      (((updateHeader 512).push ([0, 0, 6, 0, 1] ++ deleteRecord)).modify 9 (fun _ => 1)) := by
  obtain ⟨result, msg', hbuild, hsuccess, -⟩ := buildUpdateOf_result rootLdns (fun _ => rootLdns)
    (rootDeletes 1) 7 (5 <<< 11) (updateHeader 512) (by decide)
  have hrun : buildUpdateOf rootLdns (fun _ => rootLdns) (rootDeletes 1) (updateHeader 512) =
      some (.success,
        ((updateHeader 512).push ([0, 0, 6, 0, 1] ++ deleteRecord)).modify 9 (fun _ => 1)) := by
    decide
  obtain ⟨rfl, rfl⟩ := Prod.mk.inj (Option.some.inj (hbuild.symm.trans hrun))
  refine (hsuccess rfl).mpr ⟨?_, by decide, by decide⟩
  intro origin zone tree _ _
  rw [show commandLines (rootDeletes 1) = [ascii "delete ."] by decide +kernel]
  rfl

/-- Calls that fail to write any record. -/
def unwritableLdns : Ldns Unit Unit := { rootLdns with rr2bufferWireCompress := fun _ _ _ => none }

/-- **A record that is not written is a success.** The line is read, ldns does not write it, and
`build_update` returns what `read_update_line` has returned, with a bare header for a message. -/
theorem buildUpdateOf_unwritten :
    buildUpdateOf rootLdns (fun _ => unwritableLdns) (rootDeletes 1) (updateHeader 512) =
        some (.success, updateHeader 512) ∧
      ¬ CompleteUpdate rootLdns (fun _ => unwritableLdns) (rootDeletes 1) (updateHeader 512)
        (updateHeader 512) := by
  refine ⟨by decide, ?_⟩
  rintro ⟨-, hupdates, -⟩
  exact absurd hupdates (by decide)

end Dnsperf.Dns
