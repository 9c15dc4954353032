import Dnsperf.Lib.Dealer
import Dnsperf.Datafile.Runs
import Dnsperf.Dns.Request
import Dnsperf.Thread.Waiting

/-!
# Dnsperf.Thread.Input

**The input shared by all threads.** Every `do_send` takes its next record from the one
`perf_datafile_t`, makes a request of it and tries to send that once; a record that cannot be made
into a request, or whose request cannot be sent, is not tried again.

`Process` puts the threads and the input together: a step is one of a `Pair`, except that what
comes of the input is what `perf_datafile_next` and `perf_dns_buildrequest` make of it. The logs of
what was sent and what was dropped are not in the program.

**Every record is sent once for every run through the file, or dropped** (`input_sent_once`): the
process deals out the records of all runs (`Deals`), so nothing that `Dealer` says of it depends on
the interleaving of the threads.
-/

namespace Dnsperf.Thread

open Dnsperf.Lib Dnsperf.Net Dnsperf.Dns Dnsperf.Datafile Dnsperf.Datafile.PerfDatafile

/-! ### Requests -/

/-- What `do_send` reads of `config_t` for a request. `perf_add_tsig` goes by the time. -/
structure RequestConfig (Rdf Tree : Type) where
  format : PerfInputFormat
  ldns : Option (Ldns Rdf Tree)
  edns : Bool
  dnssec : Bool
  tsig : Option (Nat → PerfBuffer → Option (PerfResult × PerfBuffer))
  ednsOption : Option PerfBuffer

/-- The id in the first two bytes of a message from the input. -/
def putQid (qid : Nat) (message : Bytes) : Bytes :=
  if 1 < message.length then UInt8.ofNat (qid >>> 8) :: UInt8.ofNat qid :: message.drop 2
  else message

/-- The request for what is in `lines`; `none` is a failed assertion. -/
def RequestConfig.request {Rdf Tree : Type} (r : RequestConfig Rdf Tree) (now qid : Nat)
    (lines : Bytes) : Option (PerfResult × Bytes) :=
  match r.format with
  | .tcpWireFormat => some (.success, putQid qid lines)
  | format =>
      (perfDnsBuildrequest r.ldns lines (UInt16.ofNat qid) r.edns r.dnssec
        (format = .textUpdate) (r.tsig.map (· now)) r.ednsOption
        (PerfBuffer.init (if r.edns then maxEdnsPacket else maxUdpPacket))).map
        fun (result, msg) => (result, msg.base)

/-- The message is a request for the record. -/
def RequestConfig.Asks {Rdf Tree : Type} (r : RequestConfig Rdf Tree) (record msg : Bytes) : Prop :=
  ∃ now qid, r.request now qid record = some (.success, msg)

/-! ### The process -/

/-- All threads, and the input. -/
structure Process (n : Nat) where
  pair : Fin n → Pair
  input : PerfDatafile
  /-- What a `do_send` has taken and not counted yet, with the request made of it. -/
  hand : Fin n → Option (Bytes × Bytes)
  sent : Fin n → List (Bytes × Bytes)
  dropped : Fin n → List Bytes

/-- `do_send` has a request that it has not counted yet. -/
def SenderAt.asking : SenderAt → Bool
  | .clock .. | .stamp .. | .send .. | .count .. | .failed _ => true
  | _ => false

/-- `do_send` has taken a record and not counted it yet. -/
def SenderAt.holding (place : SenderAt) : Bool :=
  match place with
  | .undo _ => true
  | _ => place.asking

theorem SenderAt.asking_eq_false {place : SenderAt} (h : place.holding = false) :
    place.asking = false := by
  cases place with
  | undo _ => cases h
  | _ => exact h

namespace Process

variable {n : Nat}

/-- A step of a thread, or the input for one, at a time. -/
inductive Event (n : Nat)
  | pair (i : Fin n) (step : Pair.Step)
  | input (i : Fin n) (now : Nat)

/-- All threads just started. -/
def start (now : Fin n → Nat) (input : PerfDatafile) : Process n where
  pair := fun i => Pair.start (now i)
  input := input
  hand := fun _ => none
  sent := fun _ => []
  dropped := fun _ => []

variable (p : Process n)

/-- A thread goes on. -/
def setPair (i : Fin n) (c : Pair) : Process n := { p with pair := Function.update p.pair i c }

/-- Where the record goes: it has been counted, or the query was taken back. -/
def settle (i : Fin n) : Pair.Step → Process n
  | .sender .count =>
      { p with
        hand := Function.update p.hand i none
        sent := Function.update p.sent i (p.sent i ++ (p.hand i).toList) }
  | .sender .undo | .sender .rollback =>
      { p with
        hand := Function.update p.hand i none
        dropped := Function.update p.dropped i (p.dropped i ++ ((p.hand i).map Prod.fst).toList) }
  | _ => p

/-- One step; `none` is not possible, or the end of the process. -/
def next {Rdf Tree : Type} (cfg : Fin n → Config) (r : RequestConfig Rdf Tree) (p : Process n) :
    Event n → Option (Process n)
  | .pair _ (.sender (.input _)) => none
  | .pair i step => ((p.pair i).next (cfg i) step).map fun c => (p.settle i step).setPair i c
  | .input i now =>
      match (p.pair i).sender with
      | .input q _ => do
          let (result, input, lines) ← p.input.perfDatafileNext inputData.clear
          let p := { p with input := input }
          match result with
          | .success => do
              let (result, msg) ← r.request now q lines.base
              let c ← (p.pair i).next (cfg i)
                (.sender (.input (if result = .success then .built msg.length else .unbuilt)))
              some { p.setPair i c with hand := Function.update p.hand i (some (lines.base, msg)) }
          -- input file contains no data
          | .invalidfile => none
          | _ => ((p.pair i).next (cfg i) (.sender (.input .eof))).map (p.setPair i)
      | _ => none

/-- No interrupt. -/
def Uninterrupted (_ : Process n) : Event n → Prop
  | .pair _ .interrupt => False
  | _ => True

instance (p : Process n) (e : Event n) : Decidable (p.Uninterrupted e) :=
  match e with
  | .pair _ .interrupt => isFalse id
  | .pair _ (.sender _) | .pair _ (.receiver _) | .pair _ (.tick _) | .input .. => isTrue trivial

end Process

/-! ### What a thread counts -/

namespace Pair

variable {cfg : Config} {c c' : Pair}

theorem Receives.numSent {step : ReceiverStep} (h : Receives cfg c step c') :
    c'.tinfo.stats.numSent = c.tinfo.stats.numSent := by
  cases h with
  | @expire q _ =>
      exact (ThreadInfo.timeoutTail_frame cfg c.receiverNow _ (c.tinfo.timeoutQuery q)).1
  | @lock recvd sockeq _ => rw [(ThreadInfo.matchQueries_frame sockeq recvd c.tinfo).1]
  | @count _ _ r _ =>
      unfold ThreadInfo.complete
      split_ifs <;> rfl
  | _ => rfl

/-- What a step of a thread does to the record it has taken. -/
inductive Settles (c c' : Pair) : Step → Prop
  | sent {step : Step} : step = .sender .count → c.sender.asking = true → c.sender.holding = true →
      c'.sender.holding = false → c'.tinfo.stats.numSent = c.tinfo.stats.numSent + 1 →
      Settles c c' step
  | back {step : Step} : step = .sender .undo ∨ step = .sender .rollback →
      c.sender.holding = true → c'.sender.holding = false →
      c'.tinfo.stats.numSent = c.tinfo.stats.numSent → Settles c c' step
  | other {step : Step} : step ≠ .sender .count → step ≠ .sender .undo → step ≠ .sender .rollback →
      c'.sender.asking = c.sender.asking → c'.sender.holding = c.sender.holding →
      c'.tinfo.stats.numSent = c.tinfo.stats.numSent →
      Settles c c' step

theorem Sends.settles {step : SenderStep} (h : Sends cfg c step c')
    (hinput : ∀ result, step ≠ .input result) : Settles c c' (.sender step) := by
  have hplace : ∀ place, c.sender = place →
      place.asking = c.sender.asking ∧ place.holding = c.sender.holding := fun place hat => by
    rw [hat]
    exact ⟨rfl, rfl⟩
  cases h with
  | count hat _ => exact .sent rfl (hplace _ hat).1.symm (hplace _ hat).2.symm rfl rfl
  | undo hat => exact .back (Or.inl rfl) (hplace _ hat).2.symm rfl (by simp)
  | rollback hat =>
      refine .back (Or.inr rfl) (hplace _ hat).2.symm rfl ?_
      simp [ThreadInfo.rollback]
  | eof hat | unbuilt hat | built hat => exact absurd rfl (hinput _)
  | flush hat hflushed _ =>
      obtain ⟨hasking, hholding⟩ := hplace _ hat
      exact .other (by simp) (by simp) (by simp) hasking hholding (by rw [hflushed.frame.1])
  | drain hat hflushed _ =>
      exact .other (by simp) (by simp) (by simp) rfl rfl (by rw [hflushed.frame.1])
  | @lock _ acquired _ hat hacquire =>
      obtain ⟨hasking, hholding⟩ := hplace _ hat
      refine .other (by simp) (by simp) (by simp) (hasking ▸ ?_) (hholding ▸ ?_)
        (by rw [(ThreadInfo.acquire_frame hacquire).1])
      all_goals cases acquired <;> rfl
  | loop hat | stop hat | throttle hat _ | limit hat _ | wait hat _ | again hat _ | clock hat _
  | stamp hat | sent hat _ | failed hat | done hat =>
      obtain ⟨hasking, hholding⟩ := hplace _ hat
      exact .other (by simp) (by simp) (by simp) hasking hholding rfl

theorem settles_of_next {step : Step} (h : c.next cfg step = some c')
    (hinput : ∀ result, step ≠ .sender (.input result)) : Settles c c' step := by
  cases step with
  | sender step =>
      exact (sends_of_nextSender h).settles fun result heq => hinput result (heq ▸ rfl)
  | receiver step =>
      have hreceives := receives_of_nextReceiver h
      have hsame := hreceives.frame.1
      exact .other (by simp) (by simp) (by simp) (by rw [hsame]) (by rw [hsame]) hreceives.numSent
  | tick now =>
      obtain ⟨-, hc'⟩ := Option.ite_none_right_eq_some.mp h
      obtain rfl := Option.some.inj hc'
      exact .other (by simp) (by simp) (by simp) rfl rfl rfl
  | interrupt =>
      obtain rfl := Option.some.inj h
      exact .other (by simp) (by simp) (by simp) rfl rfl rfl

theorem Sends.input {result : InputResult} (h : Sends cfg c (.input result) c') :
    c'.tinfo = c.tinfo ∧ (result = .eof ∧ c'.sender = .drain ∨
      result ≠ .eof ∧ c'.sender.holding = true ∧
        (c'.sender.asking = true → ∃ n, result = .built n)) := by
  cases h with
  | eof _ => exact ⟨rfl, Or.inl ⟨rfl, rfl⟩⟩
  | unbuilt _ => exact ⟨rfl, Or.inr ⟨by simp, rfl, fun h => by cases h⟩⟩
  | built _ => exact ⟨rfl, Or.inr ⟨by simp, rfl, fun _ => ⟨_, rfl⟩⟩⟩

/-! ### The end of the input -/

/-- Neither an interrupt nor the time ends the run. -/
structure Going (c : Pair) : Prop where
  interrupted : c.interrupted = false
  now : c.vars.now < uint64Max
  clock : c.clock < uint64Max

theorem going_start {now : Nat} (hnow : now < uint64Max) : Going (start now) := ⟨rfl, hnow, hnow⟩

theorem Going.next {step : Step} (h : Going c) (hstep : step ≠ .interrupt)
    (hnext : c.next cfg step = some c') : Going c' := by
  obtain ⟨hint, hnow, hclock⟩ := h
  cases step with
  | sender step =>
      cases sends_of_nextSender hnext with
      | throttle _ hvars =>
          exact ⟨hint, by rcases hvars with h | h <;> rw [h] <;> assumption, hclock⟩
      | again _ hvars | clock _ hvars => exact ⟨hint, hvars ▸ hclock, hclock⟩
      | flush _ _ hvars | limit _ hvars | wait _ hvars | sent _ hvars | count _ hvars
      | drain _ _ hvars => exact ⟨hint, hvars ▸ hnow, hclock⟩
      | _ => exact ⟨hint, hnow, hclock⟩
  | receiver step =>
      obtain ⟨-, hvars, hclock', hint'⟩ := (receives_of_nextReceiver hnext).frame
      exact ⟨hint' ▸ hint, hvars ▸ hnow, hclock' ▸ hclock⟩
  | tick now =>
      obtain ⟨⟨-, hlt⟩, hc'⟩ := Option.ite_none_right_eq_some.mp hnext
      obtain rfl := Option.some.inj hc'
      exact ⟨hint, hnow, hlt⟩
  | interrupt => exact absurd rfl hstep

end Pair

/-- `do_send` has left its loop. -/
def SenderAt.ended : SenderAt → Bool
  | .drain | .done => true
  | _ => false

namespace Pair

variable {cfg : Config} {c c' : Pair}

/-- Without a time limit, only the end of the input ends the loop of `do_send`. -/
theorem Going.ended {step : Step} (h : Going c) (hstop : cfg.stopTime = uint64Max)
    (hinput : ∀ result, step ≠ .sender (.input result)) (hnext : c.next cfg step = some c')
    (hended : c'.sender.ended = true) : c.sender.ended = true := by
  cases step with
  | sender step =>
      cases sends_of_nextSender hnext with
      | stop hat =>
          -- the condition of the loop holds
          have hloop : c.nextSender cfg .loop = some (c.sendAt .throttle) := by
            rw [nextSender, if_pos hat, if_pos ⟨h.interrupted, hstop ▸ h.now⟩]
          have hplace := congrArg (Option.map Pair.sender) (hloop.symm.trans hnext)
          simp [sendAt] at hplace
      | eof _ | unbuilt _ | built _ => exact absurd rfl (hinput _)
      | @lock _ acquired _ hat _ => cases acquired <;> cases hended
      | drain hat _ _ | done hat => rw [hat]; rfl
      | _ => cases hended
  | receiver step =>
      rw [(receives_of_nextReceiver hnext).frame.1] at hended
      exact hended
  | tick now =>
      obtain ⟨-, hc'⟩ := Option.ite_none_right_eq_some.mp hnext
      obtain rfl := Option.some.inj hc'
      exact hended
  | interrupt =>
      obtain rfl := Option.some.inj hnext
      exact hended

end Pair

/-! ### The process deals out the records -/

namespace Process

variable {n : Nat} {Rdf Tree : Type} {cfg : Fin n → Config} {r : RequestConfig Rdf Tree}
  {content : Bytes} {records : List Bytes} {maxruns : Nat} {p p' : Process n}
  {d : Dealer (Fin n) Bytes}

variable (r) in
/-- A thread, with the record it has taken and those it has sent. -/
structure Counts (c : Pair) (hand : Option (Bytes × Bytes)) (sent : List (Bytes × Bytes)) :
    Prop where
  holding : c.sender.holding = hand.isSome
  asking : c.sender.asking = true → ∀ x ∈ hand, r.Asks x.1 x.2
  asked : ∀ x ∈ sent, r.Asks x.1 x.2
  numSent : c.tinfo.stats.numSent = sent.length
  going : c.Going

variable (r content records maxruns) in
/-- The process is where the dealer is. -/
structure Deals (p : Process n) (d : Dealer (Fin n) Bytes) : Prop where
  hand : d.hand = fun i => (p.hand i).map Prod.fst
  done : d.done = fun i => (p.sent i).map Prod.fst
  dropped : d.dropped = p.dropped
  input : ∃ k todo, Owes content records r.format maxruns maxruns k todo p.input ∧
    d.pile = todo.map (delivered r.format)
  counts : ∀ i, Counts r (p.pair i) (p.hand i) (p.sent i)
  ended : ∀ i, (p.pair i).sender.ended = true → d.pile = []

theorem map_update {α β : Type} (f : α → β) (g : Fin n → α) (i : Fin n) (a : α) :
    (fun j => f (Function.update g i a j)) = Function.update (fun j => f (g j)) i (f a) := by
  funext j
  by_cases hj : j = i
  · subst hj
    simp
  · simp [Function.update_of_ne hj]

theorem counts_update (h : ∀ j, Counts r (p.pair j) (p.hand j) (p.sent j)) {i : Fin n} {c : Pair}
    {hand : Option (Bytes × Bytes)} {sent : List (Bytes × Bytes)} (hi : Counts r c hand sent)
    (j : Fin n) :
    Counts r (Function.update p.pair i c j) (Function.update p.hand i hand j)
      (Function.update p.sent i sent j) := by
  by_cases hj : j = i
  · subst hj
    simpa only [Function.update_self] using hi
  · simpa only [Function.update_of_ne hj] using h j

theorem ended_update {P : Prop} (h : ∀ j, (p.pair j).sender.ended = true → P) {i : Fin n} {c : Pair}
    (hi : c.sender.ended = true → P) (j : Fin n) :
    (Function.update p.pair i c j).sender.ended = true → P := by
  by_cases hj : j = i
  · subst hj
    simpa only [Function.update_self] using hi
  · simpa only [Function.update_of_ne hj] using h j

theorem Deals.hand_eq (h : Deals r content records maxruns p d) {i : Fin n} {x : Bytes × Bytes}
    (hhand : p.hand i = some x) : d.hand i = some x.1 := by
  rw [h.hand]
  simp only [hhand, Option.map_some]

theorem Deals.hand_update (h : Deals r content records maxruns p d) (i : Fin n)
    (x : Option (Bytes × Bytes)) :
    Function.update d.hand i (x.map Prod.fst) =
      fun j => (Function.update p.hand i x j).map Prod.fst := by
  rw [h.hand]
  exact (map_update (Option.map Prod.fst) p.hand i x).symm

theorem Deals.pair {i : Fin n} {step : Pair.Step} {c : Pair}
    (hstop : ∀ i, (cfg i).stopTime = uint64Max) (h : Deals r content records maxruns p d)
    (hinput : ∀ result, step ≠ .sender (.input result)) (hint : step ≠ .interrupt)
    (hnext : (p.pair i).next (cfg i) step = some c) :
    ∃ d', d.Moves d' ∧ Deals r content records maxruns ((p.settle i step).setPair i c) d' := by
  obtain ⟨hholding, hasking, hasked, hsent, hgoing⟩ := h.counts i
  have hgoing' := hgoing.next hint hnext
  have hended := ended_update h.ended (i := i)
    fun hc => h.ended i (hgoing.ended (hstop i) hinput hnext hc)
  cases Pair.settles_of_next hnext hinput with
  | other hcount hundo hrollback hask hhold hnum =>
      have hsettle : p.settle i step = p := by
        unfold settle
        split <;> simp_all
      have hcounts := counts_update h.counts (i := i)
        (show Counts r c (p.hand i) (p.sent i) from
          ⟨hhold.trans hholding, hask ▸ hasking, hasked, hnum.trans hsent, hgoing'⟩)
      rw [Function.update_eq_self, Function.update_eq_self] at hcounts
      rw [hsettle]
      exact ⟨d, .stay, h.hand, h.done, h.dropped, h.input, hcounts, hended⟩
  -- the record in hand becomes the last one sent
  | sent hstep hask hheld hfree hnum =>
      subst hstep
      obtain ⟨x, hhand⟩ := Option.isSome_iff_exists.mp (hholding.symm.trans hheld)
      have hsettle : p.settle i (.sender .count) =
          { p with
            hand := Function.update p.hand i none
            sent := Function.update p.sent i (p.sent i ++ [x]) } := by
        simp [settle, hhand]
      rw [hsettle]
      refine ⟨d.finish i x.1, .finish (h.hand_eq hhand), h.hand_update i none, ?_,
        h.dropped, h.input, counts_update h.counts ⟨hfree, ?_, fun y hy => ?_, ?_, hgoing'⟩, hended⟩
      · change Function.update d.done i (d.done i ++ [x.1]) = _
        rw [h.done]
        change _ = fun j => (Function.update p.sent i (p.sent i ++ [x]) j).map Prod.fst
        rw [map_update (List.map Prod.fst), List.map_append]
        rfl
      · rw [SenderAt.asking_eq_false hfree]
        exact fun h => by cases h
      · rcases List.mem_append.mp hy with hy | hy
        · exact hasked y hy
        · exact hasking hask y (by rw [hhand, List.mem_singleton.mp hy]; rfl)
      · rw [hnum, hsent, List.length_append, List.length_singleton]
  -- no request was built, or the send failed: the record in hand is dropped
  | back hstep hheld hfree hnum =>
      obtain ⟨x, hhand⟩ := Option.isSome_iff_exists.mp (hholding.symm.trans hheld)
      have hsettle : p.settle i step =
          { p with
            hand := Function.update p.hand i none
            dropped := Function.update p.dropped i (p.dropped i ++ [x.1]) } := by
        rcases hstep with rfl | rfl <;> simp [settle, hhand]
      have hcounts := counts_update h.counts (i := i)
        (show Counts r c none (p.sent i) from
          ⟨hfree, fun _ y hy => (by cases hy), hasked, hnum.trans hsent, hgoing'⟩)
      rw [Function.update_eq_self i p.sent] at hcounts
      rw [hsettle]
      refine ⟨d.drop i x.1, .drop (h.hand_eq hhand), h.hand_update i none, h.done, ?_,
        h.input, hcounts, hended⟩
      change Function.update d.dropped i (d.dropped i ++ [x.1]) = _
      rw [h.dropped]
      rfl

theorem fits_inputData {format : PerfInputFormat} (hrecords : Records format content records) :
    ∀ r ∈ records, inputData.clear.Fits (delivered format r).length := by
  intro record hrecord
  have hfits : (delivered format record).length ≤ 64 * 1024 + 2 := by
    cases hrecords with
    | blobs hmax =>
        have hle := hmax record hrecord
        simp only [maxPayload] at hle
        simp only [delivered]
        omega
    | lines _ _ hlong =>
        have hle := hlong record (List.mem_of_mem_filter hrecord)
        simp only [delivered, List.length_append, List.length_singleton]
        omega
  simpa [PerfBuffer.Fits, PerfBuffer.clear, PerfBuffer.init, inputData] using hfits

/-- The input for a thread: the next record, or the end of all runs. -/
theorem Deals.next_input {i : Fin n} {now : Nat} (hrecords : Records r.format content records)
    (hne : records ≠ []) (hpos : 1 ≤ maxruns) (hmaxruns : maxruns < 2 ^ 32)
    (h : Deals r content records maxruns p d) (hnext : p.next cfg r (.input i now) = some p') :
    ∃ d', d.Moves d' ∧ Deals r content records maxruns p' d' := by
  obtain ⟨hholding, -, hasked, hsent, hgoing⟩ := h.counts i
  have hall : runsOf maxruns = maxruns := if_neg (by omega)
  obtain ⟨k, todo, howes, hpile⟩ := h.input
  cases hat : (p.pair i).sender with
  | input q sock =>
      rw [hat] at hholding
      have hnone : p.hand i = none := Option.isNone_iff_eq_none.mp
        (by rw [← Option.not_isSome, ← hholding]; rfl)
      cases todo with
      -- no record is owed: the call returns end of file and the sender leaves its loop
      | nil =>
          have howes' : Owes content records r.format maxruns (runsOf maxruns) k [] p.input := by
            rw [hall]
            exact howes
          obtain ⟨input, hcall, hmax, hnruns, hle⟩ :=
            howes'.next_eof hmaxruns hne inputData.clear
          simp only [next, hat, hcall, Option.bind_eq_bind, Option.bind_some] at hnext
          obtain ⟨c, hstep, rfl⟩ := Option.map_eq_some_iff.mp hnext
          rw [hall] at hle
          have hsends : Pair.Sends (cfg i) (p.pair i) (.input .eof) c :=
            Pair.sends_of_nextSender hstep
          obtain ⟨htinfo, ⟨-, hdrain⟩ | ⟨hne, -, -⟩⟩ := hsends.input
          · have hcounts := counts_update h.counts (i := i)
              (show Counts r c (p.hand i) (p.sent i) from ⟨by rw [hdrain, hnone]; rfl,
                fun hc => (by rw [hdrain] at hc; cases hc), hasked, by rw [htinfo, hsent],
                hgoing.next (by simp) hstep⟩)
            rw [Function.update_eq_self, Function.update_eq_self] at hcounts
            exact ⟨d, .stay, h.hand, h.done, h.dropped,
              ⟨k + 1, [], .finished rfl hpos hmax hnruns (Nat.lt_succ_of_le hle), hpile⟩, hcounts,
              ended_update h.ended fun _ => hpile⟩
          · exact absurd rfl hne
      -- the next record goes to this thread, with the message built from it
      | cons record todo =>
          have hfits := fits_inputData hrecords
          obtain ⟨input, hcall, howes'⟩ := howes.next hrecords hfits hmaxruns hall.ge
          have hbase : (inputData.clear.push (delivered r.format record)).base =
              delivered r.format record :=
            PerfBuffer.push_base (hfits record (howes.mem record List.mem_cons_self))
          simp only [next, hat, hcall, Option.bind_eq_bind, Option.bind_some, hbase] at hnext
          obtain ⟨⟨result, msg⟩, hrequest, hnext⟩ := Option.bind_eq_some_iff.mp hnext
          obtain ⟨c, hstep, hnext⟩ := Option.bind_eq_some_iff.mp hnext
          obtain rfl := Option.some.inj hnext
          have hsends : Pair.Sends (cfg i) (p.pair i)
              (.input (if result = .success then .built msg.length else .unbuilt)) c :=
            Pair.sends_of_nextSender hstep
          obtain ⟨htinfo, ⟨heof, -⟩ | ⟨-, hheld, hask⟩⟩ := hsends.input
          · split_ifs at heof
          · have hbuilt : c.sender.asking = true →
                ∀ x ∈ some (delivered r.format record, msg), r.Asks x.1 x.2 := by
              intro hc x hx
              obtain rfl := Option.some.inj hx
              obtain ⟨m, hm⟩ := hask hc
              split_ifs at hm with hresult
              · exact ⟨now, q, hresult ▸ hrequest⟩
            have hcounts := counts_update h.counts (i := i)
              (show Counts r c (some (delivered r.format record, msg)) (p.sent i) from
                ⟨hheld, hbuilt, hasked, by rw [htinfo, hsent], hgoing.next (by simp) hstep⟩)
            rw [Function.update_eq_self i p.sent] at hcounts
            refine ⟨d.take i (delivered r.format record) (todo.map (delivered r.format)),
              .take (by rw [h.hand]; simp [hnone]) hpile, h.hand_update i (some (_, msg)), h.done,
              h.dropped, ⟨k + 1, todo, howes', rfl⟩, hcounts,
              ended_update (fun j hj => ?_) fun hc => ?_⟩
            -- a thread that has ended left nothing on the pile, but there was this record
            · rw [h.ended j hj] at hpile
              cases hpile
            · cases hplace : c.sender <;>
                simp_all [SenderAt.ended, SenderAt.holding, SenderAt.asking]
  | _ => simp [next, hat] at hnext

/-- **One step** of the process is a move of the dealer. -/
theorem Deals.next {e : Event n} (hstop : ∀ i, (cfg i).stopTime = uint64Max)
    (hrecords : Records r.format content records) (hne : records ≠ []) (hpos : 1 ≤ maxruns)
    (hmaxruns : maxruns < 2 ^ 32) (h : Deals r content records maxruns p d) (he : p.Uninterrupted e)
    (hnext : p.next cfg r e = some p') :
    ∃ d', d.Moves d' ∧ Deals r content records maxruns p' d' := by
  cases e with
  | input i now => exact h.next_input hrecords hne hpos hmaxruns hnext
  | pair i step =>
      by_cases hinput : ∃ result, step = .sender (.input result)
      · obtain ⟨result, rfl⟩ := hinput
        cases hnext
      · have hinput' : ∀ result, step ≠ .sender (.input result) := fun result heq =>
          hinput ⟨result, heq⟩
        have hpair : p.next cfg r (.pair i step) =
            ((p.pair i).next (cfg i) step).map fun c => (p.settle i step).setPair i c := by
          rw [Process.next]
          exact fun result => hinput' result
        rw [hpair] at hnext
        obtain ⟨c, hc, rfl⟩ := Option.map_eq_some_iff.mp hnext
        exact h.pair hstop hinput' (fun hint => by subst hint; exact he) hc

theorem deals_start {now : Fin n → Nat} {input : PerfDatafile}
    (hnow : ∀ i, now i < uint64Max)
    (howes : Owes content records r.format maxruns maxruns 0
      (List.replicate maxruns records).flatten input) :
    Deals r content records maxruns (start now input)
      (.start ((List.replicate maxruns records).flatten.map (delivered r.format))) where
  hand := rfl
  done := rfl
  dropped := rfl
  input := ⟨0, _, howes, rfl⟩
  counts := fun i => ⟨rfl, fun _ x hx => (by cases hx), fun x hx => (by cases hx), rfl,
    Pair.going_start (hnow i)⟩
  ended := fun i hi => by cases hi

/-- **A whole run**, in any interleaving of the threads. -/
theorem deals_of_run {now : Fin n → Nat} {input : PerfDatafile} {events : List (Event n)}
    (hstop : ∀ i, (cfg i).stopTime = uint64Max) (hrecords : Records r.format content records)
    (hne : records ≠ []) (hpos : 1 ≤ maxruns) (hmaxruns : maxruns < 2 ^ 32)
    (hnow : ∀ i, now i < uint64Max)
    (howes : Owes content records r.format maxruns maxruns 0
      (List.replicate maxruns records).flatten input)
    (hrun : Run (Guarded Uninterrupted (StepOf (next cfg r))) (start now input) events p) :
    ∃ d, Deals r content records maxruns p d ∧
      d.all = ((List.replicate maxruns records).flatten.map (delivered r.format) : List Bytes) ∧
      d.InOrder ((List.replicate maxruns records).flatten.map (delivered r.format)) := by
  refine hrun.invariant (I := fun p => ∃ d, Deals r content records maxruns p d ∧ d.all = _ ∧
    d.InOrder _) ?_ ⟨_, deals_start hnow howes, Dealer.all_start _, Dealer.inOrder_start _⟩
  rintro s e s' ⟨d, hdeals, hall, horder⟩ ⟨he, hnext⟩
  obtain ⟨d', hmoves, hdeals'⟩ := hdeals.next hstop hrecords hne hpos hmaxruns he hnext
  exact ⟨d', hdeals', hmoves.all.trans hall, horder.moves hmoves⟩

theorem Deals.sum_got_of_ended (h : Deals r content records maxruns p d) (hn : 0 < n)
    (hended : ∀ i, (p.pair i).sender.ended = true) :
    ∑ i, (((p.sent i).map Prod.fst : List Bytes) + p.dropped i : Multiset Bytes) = d.all := by
  have hhand : ∀ i, p.hand i = none := fun i => by
    have hholding := (h.counts i).holding
    have hi := hended i
    cases hplace : (p.pair i).sender <;> simp_all [SenderAt.ended, SenderAt.holding,
      SenderAt.asking]
  rw [Dealer.all, h.ended ⟨0, hn⟩ (hended _), Multiset.coe_nil, zero_add]
  refine Finset.sum_congr rfl fun i _ => ?_
  rw [Dealer.got, h.hand, h.done, h.dropped]
  simp [hhand i]

theorem Deals.sum_got_le (h : Deals r content records maxruns p d) :
    ∑ i, (((p.sent i).map Prod.fst : List Bytes) + p.dropped i : Multiset Bytes) ≤ d.all := by
  refine (Finset.sum_le_sum fun i _ => ?_).trans (Multiset.le_add_left _ _)
  rw [Dealer.got, h.done, h.dropped]
  exact Multiset.le_add_right _ _

end Process

/-- **Every record is sent once for every run through the file, or dropped.** Without a time limit
or an interrupt, for any interleaving of the threads: each thread sends requests for the records it
takes, in the order of the input, and counts them; all threads together never send or drop a record
more often than it is in all runs, and when they are done, exactly that often. -/
theorem input_sent_once {n : Nat} {Rdf Tree : Type} (cfg : Fin n → Config)
    (hstop : ∀ i, (cfg i).stopTime = uint64Max) (r : RequestConfig Rdf Tree) (content : Bytes)
    (records : List Bytes) (hrecords : Records r.format content records) (hne : records ≠ [])
    (maxruns : Nat) (hpos : 1 ≤ maxruns) (hmaxruns : maxruns < 2 ^ 32) (named hasPipe : Bool)
    (reads : List (Option Bytes)) (hreads : IsPass content reads)
    (seeks : List (List (Option Bytes)))
    (hseeks : ∀ reads ∈ seeks, IsPass content reads) (hmany : maxruns ≤ seeks.length + 1)
    (now : Fin n → Nat) (hnow : ∀ i, now i < uint64Max) (events : List (Process.Event n))
    (p : Process n)
    (hrun : Run (Guarded Process.Uninterrupted (StepOf (Process.next cfg r)))
      (.start now (seekableInput named hasPipe r.format maxruns content reads seeks)) events p) :
    (∀ i, (p.pair i).tinfo.stats.numSent = (p.sent i).length ∧
      ((p.sent i).map Prod.fst).Sublist
        ((List.replicate maxruns records).flatten.map (delivered r.format)) ∧
      ∀ x ∈ p.sent i, r.Asks x.1 x.2) ∧
    ∑ i, (((p.sent i).map Prod.fst : List Bytes) + p.dropped i : Multiset Bytes) ≤
      ((List.replicate maxruns records).flatten.map (delivered r.format) : List Bytes) ∧
    (0 < n → (∀ i, (p.pair i).sender = .done) →
      ∑ i, (((p.sent i).map Prod.fst : List Bytes) + p.dropped i : Multiset Bytes) =
        ((List.replicate maxruns records).flatten.map (delivered r.format) : List Bytes) ∧
      ∑ i, ((p.pair i).tinfo.stats.numSent + (p.dropped i).length) = maxruns * records.length) := by
  have howes : Owes content records r.format maxruns maxruns 0 _ _ :=
    owes_seekableInput hrecords hne hpos named hasPipe hreads hseeks hmany
  obtain ⟨d, hdeals, hall, dealt, hdealt, hsub⟩ :=
    Process.deals_of_run hstop hrecords hne hpos hmaxruns hnow howes hrun
  refine ⟨fun i => ⟨(hdeals.counts i).numSent, ?_, (hdeals.counts i).asked⟩,
    hall ▸ hdeals.sum_got_le, fun hn hdone => ?_⟩
  · have hsent := (List.sublist_append_left _ _).trans (hsub i)
    rw [hdeals.done] at hsent
    exact hsent.trans (hdealt ▸ List.sublist_append_left _ _)
  · have hgot := hdeals.sum_got_of_ended hn fun i => by rw [hdone i]; rfl
    rw [hall] at hgot
    refine ⟨hgot, ?_⟩
    have hcard := congrArg Multiset.card hgot
    simp only [Multiset.card_sum, Multiset.card_add, Multiset.coe_card, List.length_map,
      List.length_flatten, List.map_replicate, List.sum_replicate, smul_eq_mul] at hcard
    rw [← hcard]
    exact Finset.sum_congr rfl fun i _ => by rw [(hdeals.counts i).numSent]

namespace Process

/-- Up to the input, for a thread with a socket that is ready. -/
def upToInput (i : Fin 2) : List (Event 2) :=
  [.loop, .throttle, .flush [], .limit, .lock [⟨1, []⟩]].map fun step => .pair i (.sender step)

/-- Messages of two queries, sent as they are but for the id. -/
def twoMessages : RequestConfig Empty Empty :=
  ⟨.tcpWireFormat, none, false, false, none, none⟩

end Process

/-- Two threads take one record each; one sends it, and the other one's cannot be sent. -/
theorem input_sent_once_two :
    ∃ p : Process 2, p.sent 0 = [([1, 2, 3], [0, 0, 3])] ∧ p.dropped 1 = [[4, 5]] ∧
      ∑ i, ((p.pair i).tinfo.stats.numSent + (p.dropped i).length) = 1 * 2 := by
  obtain ⟨p, hrun, hend⟩ := Run.exists_of_follow Process.Uninterrupted
    (Process.next (fun _ => Pair.oneSocket) Process.twoMessages)
    (.start (fun _ => 1000) (seekableInput true false .tcpWireFormat 1 [0, 3, 1, 2, 3, 0, 2, 4, 5]
      [some [0, 3, 1, 2], some [3, 0, 2, 4, 5]] []))
    (Process.upToInput 0 ++ Process.upToInput 1 ++ [.input 0 1000, .input 1 1000] ++
      [SenderStep.clock, .stamp, .send (.ok 3), .count].map (fun step => .pair 0 (.sender step)) ++
      [SenderStep.clock, .stamp, .send (.error .econnrefused), .rollback].map
        (fun step => .pair 1 (.sender step)) ++
      Process.upToInput 0 ++ Process.upToInput 1 ++ [.input 0 1000, .input 1 1000,
        .pair 0 (.sender (.drain [])), .pair 1 (.sender (.drain []))])
    (fun p => p.sent 0 = [([1, 2, 3], [0, 0, 3])] ∧ p.dropped 1 = [[4, 5]] ∧
      ∀ i, (p.pair i).sender = .done) (by decide +kernel)
  obtain ⟨hsent, hdropped, hdone⟩ := of_decide_eq_true hend
  exact ⟨p, hsent, hdropped, ((input_sent_once (fun _ => Pair.oneSocket) (fun _ => rfl)
    Process.twoMessages _ [[1, 2, 3], [4, 5]] (Records.blobs (by decide)) (by decide) 1 (by decide)
    (by decide) true false _ ⟨[[0, 3, 1, 2], [3, 0, 2, 4, 5]], rfl, by decide, by decide⟩ []
    (by simp) (by decide) (fun _ => 1000) (fun _ => by decide) _ p hrun).2.2 (by decide) hdone).2⟩

end Dnsperf.Thread
