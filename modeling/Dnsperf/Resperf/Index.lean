import Dnsperf.Resperf.Integers

/-!
# Dnsperf.Resperf.Index

**Which query an id on a socket stands for.** Query `i` is sent with the id `i / nsocks` on socket
`i % nsocks`; `try_process_response` and `perf__net_sent` find it again from the two. One of them
multiplies in 32 bits: with more than 65536 sockets the product wraps, and a response is taken for
one to a query that was sent with another id.
-/

namespace Dnsperf.Resperf

open Dnsperf.Lib Dnsperf.Stats

namespace Setup

variable (c : Setup)

/-- The entry that `try_process_response` finds for an id; `none` if there is no such one. -/
def responseEntry (qid sockindex : Nat) : Option Nat :=
  let idx := toUint32 (qid * c.nsocks + sockindex : Nat)
  if idx < c.maxOutstanding then some idx else none

/-- The entry that `perf__net_sent` finds for an id; `none` is its assertion. -/
def sentEntry (qid sock : Nat) : Option Nat :=
  let idx := qid * c.nsocks + sock
  if idx < c.maxOutstanding then some idx else none

/-- What becomes of a response to the query with an id. -/
def answer (s : State) (qid sockindex : Nat) (rcode : Fin 16) : State :=
  let q := qid * c.nsocks + sockindex
  let unexpected := s.record (.rejected q (s.queries q))
  match c.responseEntry qid sockindex with
  | none => unexpected
  | some i => if (s.queries i).list = .outstanding then c.respond s i rcode else unexpected

theorem tryProcessResponse_packet {s s' : State} {sockindex : Nat} {call : RecvCall} {bytes : Bytes}
    (hready : c.perfNetSockready s sockindex call.ready = some s')
    (hrecv : call.recv = .packet bytes) (hlen : 4 ≤ bytes.length) :
    c.tryProcessResponse s sockindex call =
      some (c.answer (call.events.foldl c.perfNetEvent s')
        (ofBe16 (bytes.getD 0 0) (bytes.getD 1 0)) sockindex
        (Fin.ofNat 16 (ofBe16 (bytes.getD 2 0) (bytes.getD 3 0)))) := by
  unfold tryProcessResponse answer responseEntry
  rw [hready, hrecv, Option.bind_eq_bind, Option.bind_some]
  dsimp only
  rw [if_neg (by omega)]
  generalize toUint32 (ofBe16 (bytes.getD 0 0) (bytes.getD 1 0) * c.nsocks + sockindex : Nat) = idx
  by_cases hidx : idx < c.maxOutstanding
  · rw [if_pos hidx]
    dsimp only
    by_cases hlist : ((call.events.foldl c.perfNetEvent s').queries idx).list = .outstanding
    · rw [if_pos hlist, if_neg]
      rintro (hle | hne)
      · omega
      · exact hne hlist
    · rw [if_neg hlist, if_pos (Or.inr hlist)]
  · rw [if_neg hidx, if_pos (Or.inl (Nat.le_of_not_lt hidx))]

theorem perfNetSent_eq (sock : Nat) (s : State) (qid : Nat) :
    c.perfNetSent sock s qid = (c.sentEntry qid sock).map fun i =>
      ((s.atBucket (c.findBucket s.timeNow) RampBucket.query).setSentTimestamp i s.timeNow).record
        (.completed i (s.queries i)) := by
  unfold perfNetSent sentEntry
  dsimp only
  split_ifs with hidx
  · rfl
  · rfl

/-! ### There and back -/

variable {c} {qid sock i : Nat}

theorem index_div_mod (hsock : sock < c.nsocks) :
    (qid * c.nsocks + sock) / c.nsocks = qid ∧ (qid * c.nsocks + sock) % c.nsocks = sock :=
  (Nat.div_mod_unique c.nsocks_pos).mpr ⟨by rw [Nat.mul_comm, Nat.add_comm], hsock⟩

/-- The check of `setup` is made in 32 bits, too, but it is no weaker for that. -/
theorem qid_lt (hi : i < c.maxOutstanding) : i / c.nsocks < 2 ^ 16 := by
  have hle : c.maxOutstanding ≤ c.nsocks * 65536 := by
    have hcheck := c.perClient
    rw [toUint32_natCast] at hcheck
    exact hcheck.trans (Nat.mod_le _ _)
  rw [Nat.div_lt_iff_lt_mul c.nsocks_pos, Nat.mul_comm]
  exact lt_of_lt_of_le hi hle

theorem responseEntry_index (hi : i < c.maxOutstanding) :
    c.responseEntry (i / c.nsocks) (i % c.nsocks) = some i := by
  have hsum : i / c.nsocks * c.nsocks + i % c.nsocks = i := Nat.div_add_mod' i c.nsocks
  unfold responseEntry
  dsimp only
  rw [hsum, toUint32_of_lt (hi.trans c.maxOutstanding_lt), if_pos hi]

theorem sentEntry_index (hi : i < c.maxOutstanding) :
    c.sentEntry (i / c.nsocks) (i % c.nsocks) = some i := by
  have hsum : i / c.nsocks * c.nsocks + i % c.nsocks = i := Nat.div_add_mod' i c.nsocks
  unfold sentEntry
  dsimp only
  rw [hsum, if_pos hi]

theorem sentEntry_sound (hsock : sock < c.nsocks) (h : c.sentEntry qid sock = some i) :
    i / c.nsocks = qid ∧ i % c.nsocks = sock := by
  obtain ⟨-, hi⟩ := Option.ite_none_right_eq_some.mp h
  rw [← Option.some.inj hi]
  exact index_div_mod hsock

/-- With up to 65536 sockets the product does not wrap. -/
theorem responseEntry_sound (hn : c.nsocks ≤ 65536) (hqid : qid < 2 ^ 16) (hsock : sock < c.nsocks)
    (h : c.responseEntry qid sock = some i) : i / c.nsocks = qid ∧ i % c.nsocks = sock := by
  have hlt : qid * c.nsocks + sock < 2 ^ 32 := by
    calc qid * c.nsocks + sock < qid * c.nsocks + c.nsocks := by omega
      _ = (qid + 1) * c.nsocks := by rw [Nat.succ_mul]
      _ ≤ 2 ^ 16 * 65536 := Nat.mul_le_mul hqid hn
      _ = 2 ^ 32 := by decide
  obtain ⟨-, hi⟩ := Option.ite_none_right_eq_some.mp h
  rw [toUint32_of_lt hlt] at hi
  rw [← Option.some.inj hi]
  exact index_div_mod hsock

/-- With more, some id other than 0 leads to the first entry. -/
theorem responseEntry_wraps (hn : 65536 < c.nsocks) :
    2 ^ 32 / c.nsocks < 2 ^ 16 ∧ 0 < 2 ^ 32 / c.nsocks ∧
      c.responseEntry (2 ^ 32 / c.nsocks) (2 ^ 32 % c.nsocks) = some 0 := by
  refine ⟨?_, Nat.div_pos c.nsocks_lt.le c.nsocks_pos, ?_⟩
  · rw [Nat.div_lt_iff_lt_mul c.nsocks_pos]
    calc 2 ^ 32 = 2 ^ 16 * 65536 := by decide
      _ < 2 ^ 16 * c.nsocks := Nat.mul_lt_mul_of_pos_left hn (by decide)
  · unfold responseEntry
    dsimp only
    rw [Nat.div_add_mod', toUint32_natCast, Nat.mod_self, if_pos c.maxOutstanding_pos]

/-- **Indices and pairs of an id and a socket.** `perf__net_sent` and `try_process_response` touch
the entry that they find and no other one. Every query has an id of 16 bits and is found by it on
its socket, and `perf__net_sent` finds it for nothing else. Nor does `try_process_response`, as long
as there are at most 65536 sockets. -/
theorem entries_one_to_one (c : Setup) :
    (∀ sock s qid, c.perfNetSent sock s qid = (c.sentEntry qid sock).map fun i =>
      ((s.atBucket (c.findBucket s.timeNow) RampBucket.query).setSentTimestamp i s.timeNow).record
        (.completed i (s.queries i))) ∧
    (∀ s s' sock call bytes, c.perfNetSockready s sock call.ready = some s' →
      call.recv = .packet bytes → 4 ≤ bytes.length → c.tryProcessResponse s sock call =
        some (c.answer (call.events.foldl c.perfNetEvent s')
          (ofBe16 (bytes.getD 0 0) (bytes.getD 1 0)) sock
          (Fin.ofNat 16 (ofBe16 (bytes.getD 2 0) (bytes.getD 3 0))))) ∧
    (∀ i < c.maxOutstanding, i / c.nsocks < 2 ^ 16 ∧
      c.responseEntry (i / c.nsocks) (i % c.nsocks) = some i ∧
      c.sentEntry (i / c.nsocks) (i % c.nsocks) = some i) ∧
    (∀ qid < 2 ^ 16, ∀ sock < c.nsocks, ∀ i, c.sentEntry qid sock = some i →
      i / c.nsocks = qid ∧ i % c.nsocks = sock) ∧
    ((∀ qid < 2 ^ 16, ∀ sock < c.nsocks, ∀ i, c.responseEntry qid sock = some i →
      i / c.nsocks = qid ∧ i % c.nsocks = sock) ↔ c.nsocks ≤ 65536) := by
  refine ⟨c.perfNetSent_eq, ?_, ?_, ?_, ?_⟩
  · intro s s' sock call bytes hready hrecv hlen
    exact c.tryProcessResponse_packet hready hrecv hlen
  · intro i hi
    exact ⟨qid_lt hi, responseEntry_index hi, sentEntry_index hi⟩
  · intro qid _ sock hsock i h
    exact sentEntry_sound hsock h
  constructor
  · intro hsound
    by_contra hn
    obtain ⟨hlt, hpos, hentry⟩ := responseEntry_wraps (Nat.lt_of_not_le hn)
    obtain ⟨hqid, -⟩ := hsound _ hlt _ (Nat.mod_lt _ c.nsocks_pos) 0 hentry
    rw [Nat.zero_div] at hqid
    omega
  · intro hn qid hqid sock hsock i h
    exact responseEntry_sound hn hqid hsock h

/-- Two queries at most, over 65537 sockets. -/
def manySocks : Setup where
  queryTimeout := 45 * million
  rampTime := 60 * million
  sustainTime := 0
  bucketInterval := 500000
  maxOutstanding := 2
  nsocks := 65537
  maxFallBehind := 0
  numScheduled := fun _ _ => 1
  tryResponses := 1
  timeOfProgramStart := 0
  maxOutstanding_pos := by decide
  maxOutstanding_lt := by decide
  nsocks_pos := by decide
  nsocks_lt := by decide
  perClient := by decide
  traffic_pos := by decide
  interval_pos := by decide
  nBuckets_nonneg := by decide

/-- **65537 sockets**: the first query is sent with id 0 on socket 0, and a response with id 65535
on socket 1 is taken for the answer to it. -/
theorem respond_to_another_id :
    ∃ s, manySocks.doOneLine manySocks.initial ⟨[], ⟨[], 1⟩, .success, .success, [], .sent⟩ =
        some (.success, s) ∧
      manySocks.tryProcessResponse s 1 ⟨⟨[], 1⟩, [], .packet [255, 255, 0, 0]⟩ =
        some (manySocks.respond s 0 0) ∧
      ¬ (0 / manySocks.nsocks = ofBe16 255 255 ∧ 0 % manySocks.nsocks = 1) := by
  refine ⟨_, rfl, ?_, by decide⟩
  rw [tryProcessResponse_packet manySocks rfl rfl (by decide), answer,
    show manySocks.responseEntry _ 1 = some 0 by decide]
  rfl

end Setup

end Dnsperf.Resperf
