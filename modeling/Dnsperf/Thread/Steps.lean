import Dnsperf.Thread.Flush

/-!
# Dnsperf.Thread.Steps

**What the steps of the two parties do**, one constructor for each way through `Pair.nextSender`
and `Pair.nextReceiver`. Where a party was before its step, and what it makes of the
`threadinfo_t`, is said here once; what the steps keep is shown by cases on these.

Of the variables of `do_send` only the time it goes by matters here.
-/

namespace Dnsperf.Thread

open Dnsperf.Lib Dnsperf.Net

/-- Where `do_send` goes on after its locked region. -/
def SenderAt.ofAcquired : ThreadInfo.Acquired → SenderAt
  | .nothing => .again
  | .query q sock => .input q sock
  | .fatal => .fatal

namespace Pair

variable {cfg : Config} {c c' : Pair}

/-- A step of `do_send`. -/
inductive Sends (cfg : Config) (c : Pair) : SenderStep → Pair → Prop
  | loop (hat : c.sender = .top) : Sends cfg c .loop (c.sendAt .throttle)
  | stop (hat : c.sender = .top) : Sends cfg c .loop (c.sendAt .drain)
  | throttle {vars : SenderVars} (hat : c.sender = .throttle)
      (hnow : vars.now = c.vars.now ∨ vars.now = c.clock) :
      Sends cfg c .throttle { c with sender := .flush, vars := vars }
  | flush {calls : List ThreadInfo.SockreadyCall} {vars : SenderVars} {tinfo : ThreadInfo}
      (hat : c.sender = .flush)
      (hflushed : ThreadInfo.Flushed c.clock (Finished calls) c.tinfo tinfo)
      (hnow : vars.now = c.vars.now) :
      Sends cfg c (.flush calls) { c with tinfo := tinfo, sender := .limit, vars := vars }
  | limit {vars : SenderVars} (hat : c.sender = .limit) (hnow : vars.now = c.vars.now) :
      Sends cfg c .limit { c with sender := .lock, vars := vars }
  | wait {vars : SenderVars} (hat : c.sender = .limit) (hnow : vars.now = c.vars.now) :
      Sends cfg c .limit { c with sender := .again, vars := vars }
  | again {vars : SenderVars} (hat : c.sender = .again) (hnow : vars.now = c.clock) :
      Sends cfg c .again { c with sender := .top, vars := vars }
  | lock {calls : List ThreadInfo.SockreadyCall} {acquired : ThreadInfo.Acquired}
      {tinfo : ThreadInfo} (hat : c.sender = .lock)
      (hacquire : c.tinfo.acquire cfg c.clock calls = some (acquired, tinfo)) :
      Sends cfg c (.lock calls) { c with tinfo := tinfo, sender := .ofAcquired acquired }
  | eof {q sock : Nat} (hat : c.sender = .input q sock) :
      Sends cfg c (.input .eof) (c.sendAt .drain)
  | unbuilt {q sock : Nat} (hat : c.sender = .input q sock) :
      Sends cfg c (.input .unbuilt) (c.sendAt (.undo q))
  | built {q sock length : Nat} (hat : c.sender = .input q sock) :
      Sends cfg c (.input (.built length)) (c.sendAt (.clock q sock length))
  | undo {q : Nat} (hat : c.sender = .undo q) :
      Sends cfg c .undo { c with tinfo := c.tinfo.queryMove q .prependUnused, sender := .again }
  | clock {q sock length : Nat} {vars : SenderVars} (hat : c.sender = .clock q sock length)
      (hnow : vars.now = c.clock) :
      Sends cfg c .clock { c with sender := .stamp q sock length, vars := vars }
  | stamp {q sock length : Nat} (hat : c.sender = .stamp q sock length) :
      Sends cfg c .stamp
        { c with tinfo := c.tinfo.setTimestamp q c.vars.now, sender := .send q sock length }
  /-- All of the query is out, or the socket will see to it. -/
  | sent {q sock length : Nat} {result : Except Errno Nat} {vars : SenderVars}
      (hat : c.sender = .send q sock length) (hnow : vars.now = c.vars.now) :
      Sends cfg c (.send result) { c with sender := .count q length, vars := vars }
  | failed {q sock length : Nat} {result : Except Errno Nat}
      (hat : c.sender = .send q sock length) : Sends cfg c (.send result) (c.sendAt (.failed q))
  | count {q length : Nat} {vars : SenderVars} (hat : c.sender = .count q length)
      (hnow : vars.now = c.vars.now) :
      Sends cfg c .count
        { c with tinfo := c.tinfo.countSent length, sender := .top, vars := vars }
  | rollback {q : Nat} (hat : c.sender = .failed q) :
      Sends cfg c .rollback { c with tinfo := c.tinfo.rollback q, sender := .top }
  | drain {calls : List ThreadInfo.SockreadyCall} {vars : SenderVars} {tinfo : ThreadInfo}
      (hat : c.sender = .drain)
      (hflushed : ThreadInfo.Flushed c.clock (Finished calls) c.tinfo tinfo)
      (hnow : vars.now = c.vars.now) :
      Sends cfg c (.drain calls) { c with tinfo := tinfo, vars := vars }
  | done {calls : List ThreadInfo.SockreadyCall} (hat : c.sender = .drain) :
      Sends cfg c (.drain calls)
        { c with tinfo := { c.tinfo with doneSending := true }, sender := .done }

theorem rateLimit_now (cfg : Config) (v : SenderVars) : (v.rateLimit cfg).2.now = v.now := by
  unfold SenderVars.rateLimit
  dsimp only
  split_ifs <;> rfl

theorem rateLimit_new {v : SenderVars} (hqps : 0 < cfg.maxQps) (hslice : v.qSlice ≤ v.now) :
    v.rateLimit cfg = (true, { v with
      qSlice := v.qSlice + million, qSent := 0, reqTime := v.now + million / cfg.maxQps }) := by
  unfold SenderVars.rateLimit
  rw [if_pos hqps, if_pos hslice]
  dsimp only
  rw [if_neg (by omega), if_neg (by omega)]

theorem rateLimit_slice (cfg : Config) {v : SenderVars} (hslice : v.qSlice ≤ v.now) :
    (v.rateLimit cfg).1 = true := by
  by_cases hqps : 0 < cfg.maxQps
  · rw [rateLimit_new hqps hslice]
  · unfold SenderVars.rateLimit
    rw [if_neg hqps]

theorem rateLimit_within (cfg : Config) {v : SenderVars} (hslice : v.now < v.qSlice) :
    (v.rateLimit cfg).2.qSlice = v.qSlice ∧ (v.rateLimit cfg).2.qSent = v.qSent := by
  unfold SenderVars.rateLimit
  rw [if_neg (Nat.not_le.mpr hslice)]
  dsimp only
  split_ifs <;> exact ⟨rfl, rfl⟩

theorem rateLimit_anyInprogress (cfg : Config) (v : SenderVars) :
    (v.rateLimit cfg).2.anyInprogress = v.anyInprogress := by
  unfold SenderVars.rateLimit
  dsimp only
  split_ifs <;> rfl

theorem rateLimit_pass {v : SenderVars} (hqps : 0 < cfg.maxQps)
    (hpass : (v.rateLimit cfg).1 = true) : (v.rateLimit cfg).2.qSent < cfg.maxQps := by
  by_cases hslice : v.qSlice ≤ v.now
  · rw [rateLimit_new hqps hslice]
    exact hqps
  · unfold SenderVars.rateLimit at hpass ⊢
    rw [if_pos hqps, if_neg hslice] at hpass ⊢
    dsimp only at hpass ⊢
    split_ifs at hpass ⊢ with hlimit
    exact Nat.lt_of_not_le hlimit

theorem sends_of_nextSender {step : SenderStep} (hstep : c.nextSender cfg step = some c') :
    Sends cfg c step c' := by
  cases step with
  | loop =>
      obtain ⟨hat, hc'⟩ := Option.ite_none_right_eq_some.mp hstep
      rw [← Option.some.inj hc']
      split_ifs
      · exact .loop hat
      · exact .stop hat
  | throttle =>
      obtain ⟨hat, hc'⟩ := Option.ite_none_right_eq_some.mp hstep
      rw [← Option.some.inj hc']
      refine .throttle hat ?_
      dsimp only
      split_ifs
      · exact Or.inr rfl
      · exact Or.inl rfl
  | flush calls =>
      obtain ⟨hat, hc'⟩ := Option.ite_none_right_eq_some.mp hstep
      split_ifs at hc'
      · obtain ⟨⟨vars, tinfo⟩, hflush, rfl⟩ := Option.map_eq_some_iff.mp hc'
        obtain ⟨hflushed, hnow⟩ := ThreadInfo.flushed_flushSocks hflush
        exact .flush hat hflushed hnow
      · rw [← Option.some.inj hc']
        exact .flush hat (.refl _) rfl
  | limit =>
      obtain ⟨hat, hc'⟩ := Option.ite_none_right_eq_some.mp hstep
      change some { c with
        sender := if (c.vars.rateLimit cfg).1 then .lock else .again
        vars := (c.vars.rateLimit cfg).2 } = some c' at hc'
      rw [← Option.some.inj hc']
      cases (c.vars.rateLimit cfg).1 with
      | true => exact .limit hat (rateLimit_now cfg c.vars)
      | false => exact .wait hat (rateLimit_now cfg c.vars)
  | again =>
      obtain ⟨hat, hc'⟩ := Option.ite_none_right_eq_some.mp hstep
      rw [← Option.some.inj hc']
      exact .again hat rfl
  | lock calls =>
      obtain ⟨hat, hc'⟩ := Option.ite_none_right_eq_some.mp hstep
      obtain ⟨⟨acquired, tinfo⟩, hacquire, rfl⟩ := Option.map_eq_some_iff.mp hc'
      cases acquired with
      | nothing => exact .lock hat hacquire
      | query q sock => exact .lock hat hacquire
      | fatal => exact .lock hat hacquire
  -- from here on the place of `do_send` says which query it has
  | input result =>
      cases hat : c.sender with
      | input q sock =>
          cases result with
          | eof =>
              simp only [nextSender, hat, Option.some.injEq] at hstep
              exact hstep ▸ .eof hat
          | unbuilt =>
              simp only [nextSender, hat, Option.some.injEq] at hstep
              exact hstep ▸ .unbuilt hat
          | built length =>
              simp only [nextSender, hat, Option.some.injEq] at hstep
              exact hstep ▸ .built hat
      | _ => simp [nextSender, hat] at hstep
  | undo =>
      cases hat : c.sender with
      | undo q =>
          simp only [nextSender, hat, Option.some.injEq] at hstep
          exact hstep ▸ .undo hat
      | _ => simp [nextSender, hat] at hstep
  | clock =>
      cases hat : c.sender with
      | clock q sock length =>
          simp only [nextSender, hat, Option.some.injEq] at hstep
          exact hstep ▸ .clock hat rfl
      | _ => simp [nextSender, hat] at hstep
  | stamp =>
      cases hat : c.sender with
      | stamp q sock length =>
          simp only [nextSender, hat, Option.some.injEq] at hstep
          exact hstep ▸ .stamp hat
      | _ => simp [nextSender, hat] at hstep
  -- `EINPROGRESS` counts as sent, any other error and a short write as failed
  | send result =>
      cases hat : c.sender with
      | send q sock length =>
          simp only [nextSender, hat] at hstep
          split at hstep
          · rw [← Option.some.inj hstep]
            exact .sent hat rfl
          · rw [← Option.some.inj hstep]
            exact .failed hat
          · rw [← Option.some.inj hstep]
            split_ifs
            · exact .failed hat
            · exact .sent hat rfl
      | _ => simp [nextSender, hat] at hstep
  | count =>
      cases hat : c.sender with
      | count q length =>
          simp only [nextSender, hat, Option.some.injEq] at hstep
          exact hstep ▸ .count hat rfl
      | _ => simp [nextSender, hat] at hstep
  | rollback =>
      cases hat : c.sender with
      | failed q =>
          simp only [nextSender, hat, Option.some.injEq] at hstep
          exact hstep ▸ .rollback hat
      | _ => simp [nextSender, hat] at hstep
  | drain calls =>
      obtain ⟨hat, hc'⟩ := Option.ite_none_right_eq_some.mp hstep
      split_ifs at hc'
      · obtain ⟨⟨vars, tinfo⟩, hdrain, rfl⟩ := Option.map_eq_some_iff.mp hc'
        obtain ⟨hflushed, hnow⟩ := ThreadInfo.flushed_drainSocks hdrain
        exact .drain hat hflushed hnow
      · rw [← Option.some.inj hc']
        exact .done hat

theorem Sends.ne_done {step : SenderStep} (h : Sends cfg c step c') : c.sender ≠ .done := by
  intro hdone
  cases h <;> simp_all only [reduceCtorEq]

/-- A step of `do_recv`. -/
inductive Receives (cfg : Config) (c : Pair) : ReceiverStep → Pair → Prop
  | loop (hat : c.receiver = .top) : Receives cfg c .loop (c.recvAt .timeouts)
  | interrupted (hat : c.receiver = .top) (hint : c.interrupted = true) :
      Receives cfg c .loop (c.recvAt .done)
  | timeouts (hat : c.receiver = .timeouts) : Receives cfg c .timeouts (c.recvAt .check)
  | expired {q : Nat} (hat : c.receiver = .timeouts)
      (htail : c.tinfo.expiredTail cfg c.receiverNow = some q) :
      Receives cfg c .timeouts (c.recvAt (.expire q))
  | expire {q : Nat} (hat : c.receiver = .expire q) :
      Receives cfg c .expire
        { c with tinfo := c.tinfo.processTimeouts cfg c.receiverNow q, receiver := .check }
  | check (hat : c.receiver = .check) : Receives cfg c .check (c.recvAt (.recv []))
  | done (hat : c.receiver = .check) (hsending : c.tinfo.doneSending = true)
      (hnone : c.tinfo.stats.numOutstanding = 0) : Receives cfg c .check (c.recvAt .done)
  | packet {recvd : List ReceivedQuery} {sock : Nat} {packet : Bytes}
      (hat : c.receiver = .recv recvd) :
      Receives cfg c (.packet sock packet)
        (c.recvAt (.recv (recvd ++ [recvOne sock packet c.clock])))
  | batch {recvd : List ReceivedQuery} (hat : c.receiver = .recv recvd) :
      Receives cfg c .batch (c.recvAt (.lock recvd))
  | lock {recvd : List ReceivedQuery} {sockeq : Nat → Nat → Bool} (hat : c.receiver = .lock recvd) :
      Receives cfg c (.lock sockeq)
        { c with
          tinfo := (ThreadInfo.matchQueries sockeq recvd c.tinfo).2
          receiver := .count (ThreadInfo.matchQueries sockeq recvd c.tinfo).1
            (ThreadInfo.matchQueries sockeq recvd c.tinfo).1 }
  | count {recvd rest : List ReceivedQuery} {r : ReceivedQuery}
      (hat : c.receiver = .count recvd (r :: rest)) :
      Receives cfg c .count { c with tinfo := c.tinfo.complete r, receiver := .count recvd rest }
  | again {recvd : List ReceivedQuery} {eagain : Bool} {lastRecv now : Nat}
      (hat : c.receiver = .count recvd []) (hnow : now = c.receiverNow ∨ now = c.clock) :
      Receives cfg c (.again eagain)
        { c with
          tinfo := { c.tinfo with lastRecv := lastRecv }
          receiver := .top
          receiverNow := now }

theorem receives_of_nextReceiver {step : ReceiverStep}
    (hstep : c.nextReceiver cfg step = some c') : Receives cfg c step c' := by
  cases step with
  | loop =>
      cases hat : c.receiver with
      | top =>
          simp only [nextReceiver, hat, Option.some.injEq] at hstep
          subst hstep
          split_ifs with hint
          · exact .interrupted hat hint
          · exact .loop hat
      | _ => simp [nextReceiver, hat] at hstep
  | timeouts =>
      cases hat : c.receiver with
      | timeouts =>
          simp only [nextReceiver, hat, Option.some.injEq] at hstep
          subst hstep
          cases htail : c.tinfo.expiredTail cfg c.receiverNow with
          | none => exact .timeouts hat
          | some q => exact .expired hat htail
      | _ => simp [nextReceiver, hat] at hstep
  | expire =>
      cases hat : c.receiver with
      | expire q =>
          simp only [nextReceiver, hat, Option.some.injEq] at hstep
          exact hstep ▸ .expire hat
      | _ => simp [nextReceiver, hat] at hstep
  | check =>
      cases hat : c.receiver with
      | check =>
          simp only [nextReceiver, hat, Option.some.injEq] at hstep
          subst hstep
          split_ifs with hdone
          · exact .done hat hdone.1 hdone.2
          · exact .check hat
      | _ => simp [nextReceiver, hat] at hstep
  | packet sock packet =>
      cases hat : c.receiver with
      | recv recvd =>
          simp only [nextReceiver, hat] at hstep
          obtain ⟨-, hc'⟩ := Option.ite_none_right_eq_some.mp hstep
          exact Option.some.inj hc' ▸ .packet hat
      | _ => simp [nextReceiver, hat] at hstep
  | batch =>
      cases hat : c.receiver with
      | recv recvd =>
          simp only [nextReceiver, hat, Option.some.injEq] at hstep
          exact hstep ▸ .batch hat
      | _ => simp [nextReceiver, hat] at hstep
  | lock sockeq =>
      cases hat : c.receiver with
      | lock recvd =>
          simp only [nextReceiver, hat, Option.some.injEq] at hstep
          exact hstep ▸ .lock hat
      | _ => simp [nextReceiver, hat] at hstep
  | count =>
      cases hat : c.receiver with
      | count recvd rest =>
          cases rest with
          | nil => simp [nextReceiver, hat] at hstep
          | cons r rest =>
              simp only [nextReceiver, hat, Option.some.injEq] at hstep
              exact hstep ▸ .count hat
      | _ => simp [nextReceiver, hat] at hstep
  -- the clock is read again after a wait, that is where the batch was not full
  | again eagain =>
      cases hat : c.receiver with
      | count recvd rest =>
          cases rest with
          | nil =>
              simp only [nextReceiver, hat, Option.some.injEq] at hstep
              subst hstep
              refine .again hat ?_
              split_ifs
              · exact Or.inr rfl
              · exact Or.inl rfl
          | cons r rest => simp [nextReceiver, hat] at hstep
      | _ => simp [nextReceiver, hat] at hstep

theorem Receives.frame {step : ReceiverStep} (h : Receives cfg c step c') :
    c'.sender = c.sender ∧ c'.vars = c.vars ∧ c'.clock = c.clock ∧
      c'.interrupted = c.interrupted := by
  cases h <;> exact ⟨rfl, rfl, rfl, rfl⟩

end Pair

end Dnsperf.Thread
