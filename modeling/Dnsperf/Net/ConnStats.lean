import Dnsperf.Net.ConnEvents
import Dnsperf.Net.Readiness
import Dnsperf.Stats

/-!
# Dnsperf.Net.ConnStats

What `perf__net_event` makes of the connection events. A thread has any number of sockets of one
transport, and one `stats_t` to which all of them report. **The connection statistics are
consistent** after any calls on them (`connections_consistent`): a completion is reported once
for an attempt, and under the right name, so that there are never more of them.
-/

namespace Dnsperf.Net

open Dnsperf.Lib

/-! ### Sockets of a thread -/

/-- A transport: how a socket is opened, and what its calls do. All of it are moves. -/
structure Transport where
  Sock : Type
  Call : Type
  opensocket : OsConnect → (hasSent hasEvent : Bool) → (numQueriesPerConn nqpcTimeout : Nat) →
    Sock × List NetEffect
  /-- `none` when the process ends. -/
  call : Sock → Call → Option (Sock × List NetEffect)
  connView : Sock → ConnView
  opensocket_moves : ∀ os hasSent hasEvent numQueriesPerConn nqpcTimeout,
    ConnMoves ⟨hasEvent, .connecting, .connected, false⟩
      (opensocket os hasSent hasEvent numQueriesPerConn nqpcTimeout).2
      (connView (opensocket os hasSent hasEvent numQueriesPerConn nqpcTimeout).1)
  call_moves : ∀ {s c r}, call s c = some r → ConnMoves (connView s) r.2 (connView r.1)

/-- A call on a TCP socket, with the outcomes of what it calls. -/
inductive TcpCall
  | recv (os : OsRead) (len : Nat)
  | sendto (qid : UInt16) (buf : Bytes) (os : OsWrite)
  | sockready (os : PerfTcpSocket.OsSockready)

/-- A call on a DoT socket, with the outcomes of what it calls. -/
inductive DotCall
  | recv (openssl3 : Bool) (read : SslRead) (connect : OsConnect) (len : Nat)
  | sendto (qid : UInt16) (buf : Bytes) (write : SslWrite) (connect : OsConnect)
  | sockready (os : PerfDotSocket.OsSockready)

def PerfTcpSocket.call (s : PerfTcpSocket) : TcpCall → Option (PerfTcpSocket × List NetEffect)
  | .recv os len => some ((s.perfTcpRecv os len).sock, [])
  | .sendto qid buf os => some (s.perfTcpSendto qid buf os).2
  | .sockready os => some (s.perfTcpSockready os).2

def PerfDotSocket.call (s : PerfDotSocket) : DotCall → Option (PerfDotSocket × List NetEffect)
  | .recv openssl3 read connect len =>
      let (call, effects) := s.perfDotRecv openssl3 read connect len
      some (call.sock, effects)
  | .sendto qid buf write connect => some (s.perfDotSendto qid buf write connect).2
  | .sockready os => some (s.perfDotSockready os).2

def DohSocket.call (s : DohSocket) : DohCall → Option (DohSocket × List NetEffect)
  | .recv read mem len =>
      (s.perfDohRecv read mem len).map fun call => (call.sock, call.effects)
  | .sendto method qid len os =>
      (s.base.perfDohSendto method qid len os).map fun r => (s.withBase r.2.1 r.2.2, r.2.2)
  | .sockready os =>
      let (_, base, effects) := s.base.perfDohSockready os
      some (s.withBase base effects, effects)

/-- `net_tcp.c`. -/
def tcpTransport : Transport where
  Sock := PerfTcpSocket
  Call := TcpCall
  opensocket := PerfTcpSocket.perfNetTcpOpensocket
  call := PerfTcpSocket.call
  connView := PerfTcpSocket.connView
  opensocket_moves := PerfTcpSocket.perfNetTcpOpensocket_moves
  call_moves := by
    intro s c r h
    cases c with
    | recv os len =>
        obtain rfl := Option.some.inj h
        exact .silent rfl (s.perfTcpRecv_connView os len)
    | sendto qid buf os =>
        obtain rfl := Option.some.inj h
        exact s.perfTcpSendto_moves qid buf os
    | sockready os =>
        obtain rfl := Option.some.inj h
        exact s.perfTcpSockready_moves os

/-- `net_dot.c`. -/
def dotTransport : Transport where
  Sock := PerfDotSocket
  Call := DotCall
  opensocket := PerfDotSocket.perfNetDotOpensocket
  call := PerfDotSocket.call
  connView := PerfDotSocket.connView
  opensocket_moves := PerfDotSocket.perfNetDotOpensocket_moves
  call_moves := by
    intro s c r h
    cases c with
    | recv openssl3 read connect len =>
        obtain rfl := Option.some.inj h
        exact s.perfDotRecv_moves openssl3 read connect len
    | sendto qid buf write connect =>
        obtain rfl := Option.some.inj h
        exact s.perfDotSendto_moves qid buf write connect
    | sockready os =>
        obtain rfl := Option.some.inj h
        exact s.perfDotSockready_moves os

/-- `net_doh.c`. -/
def dohTransport : Transport where
  Sock := DohSocket
  Call := DohCall
  opensocket := fun os hasSent hasEvent numQueriesPerConn nqpcTimeout =>
    let (base, effects) :=
      PerfDohSocket.perfNetDohOpensocket os hasSent hasEvent numQueriesPerConn nqpcTimeout
    (⟨base, .empty, ⟨fun _ => 0, 0⟩, [], Nat.zero_le _⟩, effects)
  call := DohSocket.call
  connView := fun s => s.base.connView
  opensocket_moves := PerfDohSocket.perfNetDohOpensocket_moves
  call_moves := by
    intro s c r h
    cases c with
    | recv read mem len =>
        obtain ⟨call, hcall, rfl⟩ := Option.map_eq_some_iff.mp h
        exact s.perfDohRecv_moves hcall
    | sendto method qid len os =>
        obtain ⟨r, hr, rfl⟩ := Option.map_eq_some_iff.mp h
        exact s.base.perfDohSendto_moves hr
    | sockready os =>
        obtain rfl := Option.some.inj h
        exact s.base.perfDohSockready_moves os

def PerfNetMode.transport : PerfNetMode → Transport
  | .tcp => tcpTransport
  | .dot => dotTransport
  | .doh => dohTransport

/-- The event as `perf__net_event` gets it. -/
def SocketEvent.toStats : SocketEvent → Stats.SocketEvent
  | .connecting => .connecting
  | .connected => .connected
  | .reconnecting => .reconnecting
  | .reconnected => .reconnected

/-- The sockets of a thread: all that they have done, in order and each with its number, and the
statistics. -/
structure ThreadSocks (t : Transport) (n : Nat) where
  socks : Fin n → t.Sock
  log : List (Fin n × NetEffect)
  stats : Stats.StatsT

/-- The statistics of a thread, after its sockets have called `perf__net_event`. -/
def countEvents (stats : Stats.StatsT) (effects : List NetEffect) : Stats.StatsT :=
  (events effects).foldl
    (fun stats e => stats.perfNetEvent e.1.toStats (UInt64.ofNat e.2)) stats

namespace ThreadSocks

variable {t : Transport} {n : Nat}

/-- `threadinfo_init` opens the sockets, one after another. -/
def start (t : Transport) (os : Fin n → OsConnect) (hasSent hasEvent : Bool)
    (numQueriesPerConn nqpcTimeout : Nat) : ThreadSocks t n :=
  let opened i := t.opensocket (os i) hasSent hasEvent numQueriesPerConn nqpcTimeout
  { socks := fun i => (opened i).1
    log := (List.finRange n).flatMap fun i => (opened i).2.map (i, ·)
    stats := countEvents .zero ((List.finRange n).flatMap fun i => (opened i).2) }

/-- A call on one of them. -/
def next (c : ThreadSocks t n) (e : Fin n × t.Call) : Option (ThreadSocks t n) :=
  (t.call (c.socks e.1) e.2).map fun r =>
    { socks := Function.update c.socks e.1 r.1
      log := c.log ++ r.2.map (e.1, ·)
      stats := countEvents c.stats r.2 }

/-- What a socket has done. -/
def effectsOf (c : ThreadSocks t n) (i : Fin n) : List NetEffect :=
  (c.log.filter (·.1 = i)).map Prod.snd

/-- The events it has reported. -/
def reported (c : ThreadSocks t n) (i : Fin n) : List SocketEvent :=
  (events (c.effectsOf i)).map Prod.fst

/-- The number of attempts that all sockets have reported. -/
def attempts (c : ThreadSocks t n) : Nat :=
  (events (c.log.map Prod.snd)).countP fun e => e.1.isAttempt

/-- The number of completions. -/
def completions (c : ThreadSocks t n) : Nat :=
  (events (c.log.map Prod.snd)).countP fun e => !e.1.isAttempt

end ThreadSocks

/-- The effects of a socket so far, against its phase. -/
structure Told (hasEvent : Bool) (v : ConnView) (effects : List NetEffect) : Prop where
  callback : v.hasEvent = hasEvent
  without : hasEvent = false → events effects = []
  follows : hasEvent = true →
    ∃ p, Run (StepOf Phase.report) .start ((events effects).map Prod.fst) p ∧ v.Tells p ∧
      effects.countP NetEffect.isOpened =
        ((events effects).map Prod.fst).countP SocketEvent.isAttempt

namespace Told

variable {hasEvent : Bool} {v v' : ConnView} {effects effects' : List NetEffect}

theorem start (hasEvent : Bool) : Told hasEvent ⟨hasEvent, .connecting, .connected, false⟩ [] where
  callback := rfl
  without := fun _ => rfl
  follows := fun _ => ⟨.start, Run.nil _, ⟨rfl, rfl, fun hwaiting => nomatch hwaiting⟩, rfl⟩

/-- **A move goes on with what was told.** -/
theorem moves (h : Told hasEvent v effects) (hmoves : ConnMoves v effects' v') :
    Told hasEvent v' (effects ++ effects') where
  callback := hmoves.hasEvent_eq.trans h.callback
  without := by
    intro hhas
    rw [events_append, h.without hhas, hmoves.events_eq_nil (h.callback.trans hhas)]
    rfl
  follows := by
    intro hhas
    obtain ⟨p, hrun, hp, hcount⟩ := h.follows hhas
    obtain ⟨p', hrun', hp', hcount'⟩ := hmoves.reports (h.callback.trans hhas) hp
    refine ⟨p', ?_, hp', ?_⟩
    · rw [events_append, List.map_append]
      exact hrun.append hrun'
    · rw [events_append, List.map_append, List.countP_append, List.countP_append, hcount, hcount']

theorem consistent (h : Told hasEvent v effects) : Consistent ((events effects).map Prod.fst) := by
  cases hhas : hasEvent with
  | false =>
      rw [h.without hhas]
      exact consistent_of_run (Run.nil Phase.start)
  | true =>
      obtain ⟨p, hrun, -⟩ := h.follows hhas
      exact consistent_of_run hrun

theorem completions_le (h : Told hasEvent v effects) :
    (events effects).countP (fun e => !e.1.isAttempt) ≤
      (events effects).countP fun e => e.1.isAttempt := by
  cases hhas : hasEvent with
  | false =>
      rw [h.without hhas]
      exact Nat.le_refl 0
  | true =>
      obtain ⟨p, hrun, -⟩ := h.follows hhas
      have hle := Net.completions_le hrun
      rw [List.countP_map, List.countP_map] at hle
      exact (Nat.le_add_right _ _).trans hle

end Told

/-! ### The statistics -/

theorem countP_events {n : Nat} (log : List (Fin n × NetEffect)) (f : SocketEvent × Nat → Bool) :
    (events (log.map Prod.snd)).countP f =
      ∑ i, (events ((log.filter (·.1 = i)).map Prod.snd)).countP f := by
  induction log with
  | nil => simp [events]
  | cons entry log ih =>
      obtain ⟨j, effect⟩ := entry
      have hfirst : ∀ i, (events ((((j, effect) :: log).filter (·.1 = i)).map Prod.snd)).countP f =
          (if j = i then (events [effect]).countP f else 0) +
            (events ((log.filter (·.1 = i)).map Prod.snd)).countP f := by
        intro i
        by_cases hi : j = i
        · rw [List.filter_cons_of_pos (by simpa using hi), List.map_cons, if_pos hi,
            ← List.singleton_append, events_append, List.countP_append]
        · rw [List.filter_cons_of_neg (by simpa using hi), if_neg hi, Nat.zero_add]
      rw [List.map_cons, ← List.singleton_append, events_append, List.countP_append, ih,
        Finset.sum_congr rfl fun i _ => hfirst i, Finset.sum_add_distrib, Finset.sum_ite_eq,
        if_pos (Finset.mem_univ j)]

/-- What the thread counts. -/
def netEvents (effects : List NetEffect) : List Stats.Event :=
  (events effects).map fun e => .net e.1.toStats (UInt64.ofNat e.2)

theorem countEvents_zero (effects : List NetEffect) :
    countEvents .zero effects = Stats.run (netEvents effects) := by
  rw [netEvents, Stats.run, List.foldl_map]
  rfl

theorem countEvents_append (stats : Stats.StatsT) (effects effects' : List NetEffect) :
    countEvents (countEvents stats effects) effects' = countEvents stats (effects ++ effects') := by
  rw [countEvents, countEvents, countEvents, events_append, List.foldl_append]

theorem numConnAttempts_eq (effects : List NetEffect) :
    (countEvents .zero effects).numConnAttempts =
      UInt64.ofNat ((events effects).countP fun e => e.1.isAttempt) := by
  have hadds : ∀ es : List (SocketEvent × Nat),
      (es.map fun e => Stats.Event.adds (.net e.1.toStats (UInt64.ofNat e.2)) .connAttempts).sum =
        UInt64.ofNat (es.countP fun e => e.1.isAttempt) := by
    intro es
    induction es with
    | nil => rfl
    | cons e es ih =>
        obtain ⟨event, elapsed⟩ := e
        rw [List.map_cons, List.sum_cons, ih, List.countP_cons, UInt64.ofNat_add, UInt64.add_comm]
        cases event <;> rfl
  have hcounter := Stats.run_counter (netEvents effects) .connAttempts
  rw [netEvents, List.map_map] at hcounter
  rw [countEvents_zero, ← hadds]
  exact hcounter

theorem numConnCompleted_eq (effects : List NetEffect) :
    (countEvents .zero effects).connLatency.num =
      UInt64.ofNat ((events effects).countP fun e => !e.1.isAttempt) := by
  have hlength : ∀ es : List (SocketEvent × Nat),
      (Stats.latencies .connection
        (es.map fun e => .net e.1.toStats (UInt64.ofNat e.2))).length =
        es.countP fun e => !e.1.isAttempt := by
    intro es
    induction es with
    | nil => rfl
    | cons e es ih =>
        obtain ⟨event, elapsed⟩ := e
        rw [List.countP_cons, ← ih]
        cases event <;> rfl
  rw [countEvents_zero, ← hlength]
  exact (Stats.run_sums (netEvents effects) .connection).num

/-! ### Runs -/

theorem filter_tagged {n : Nat} (i j : Fin n) (effects : List NetEffect) :
    ((effects.map (j, ·)).filter (·.1 = i)).map Prod.snd = if j = i then effects else [] := by
  by_cases hj : j = i
  · rw [if_pos hj, List.filter_eq_self.mpr, List.map_map]
    · exact List.map_id _
    · simp [hj]
  · rw [if_neg hj, List.filter_eq_nil_iff.mpr, List.map_nil]
    simp [hj]

theorem flatMap_single {α β : Type} [DecidableEq α] (a : α) (f : α → List β) {l : List α}
    (hl : l.Nodup) :
    (l.flatMap fun b => if b = a then f b else []) = if a ∈ l then f a else [] := by
  induction l with
  | nil => rfl
  | cons b l ih =>
      rw [List.nodup_cons] at hl
      rw [List.flatMap_cons, ih hl.2]
      by_cases hb : b = a
      · subst hb
        simp [hl.1]
      · simp [hb, Ne.symm hb]

namespace ThreadSocks

variable {t : Transport} {n : Nat} {hasEvent : Bool}

/-- What every call keeps. -/
structure Inv (hasEvent : Bool) (c : ThreadSocks t n) : Prop where
  told : ∀ i, Told hasEvent (t.connView (c.socks i)) (c.effectsOf i)
  stats : c.stats = countEvents .zero (c.log.map Prod.snd)

theorem inv_start (os : Fin n → OsConnect) (hasSent hasEvent : Bool)
    (numQueriesPerConn nqpcTimeout : Nat) :
    Inv hasEvent (start t os hasSent hasEvent numQueriesPerConn nqpcTimeout) where
  told := by
    intro i
    have heffects : (start t os hasSent hasEvent numQueriesPerConn nqpcTimeout).effectsOf i =
        (t.opensocket (os i) hasSent hasEvent numQueriesPerConn nqpcTimeout).2 := by
      unfold effectsOf start
      dsimp only
      rw [List.filter_flatMap, List.map_flatMap]
      simp only [filter_tagged]
      rw [flatMap_single i _ (List.nodup_finRange n), if_pos (List.mem_finRange i)]
    rw [heffects]
    exact (Told.start hasEvent).moves (t.opensocket_moves _ _ _ _ _)
  stats := by
    unfold start
    dsimp only
    rw [List.map_flatMap]
    simp only [List.map_map, Function.comp_def, List.map_id']

theorem inv_step (c : ThreadSocks t n) (e : Fin n × t.Call) (c' : ThreadSocks t n)
    (h : Inv hasEvent c) (hstep : StepOf next c e c') : Inv hasEvent c' := by
  obtain ⟨i, call⟩ := e
  obtain ⟨⟨s', effects⟩, hcall, rfl⟩ := Option.map_eq_some_iff.mp hstep
  refine ⟨fun j => ?_, ?_⟩
  · unfold effectsOf
    dsimp only
    rw [List.filter_append, List.map_append, filter_tagged]
    by_cases hj : i = j
    · subst hj
      rw [if_pos rfl, Function.update_self]
      exact (h.told i).moves (t.call_moves hcall)
    · rw [if_neg hj, List.append_nil, Function.update_of_ne (Ne.symm hj)]
      exact h.told j
  · dsimp only
    rw [h.stats, countEvents_append, List.map_append, List.map_map]
    simp only [Function.comp_def, List.map_id']

end ThreadSocks

/-- **Connection statistics are consistent**, for any number of TCP, DoT or DoH sockets of a
thread and any calls on them. For each socket, a completion is reported right after an attempt,
which is its own, and the first attempt and completion are the only ones called `connecting` and
`connected`; every attempt to connect is reported. The counters are the numbers of attempts and
completions in 64 bits, and there are no more completions than attempts. -/
theorem connections_consistent (mode : PerfNetMode) {n : Nat} (os : Fin n → OsConnect)
    (hasSent hasEvent : Bool) (numQueriesPerConn nqpcTimeout : Nat)
    {calls : List (Fin n × mode.transport.Call)} {c : ThreadSocks mode.transport n}
    (hrun : Run (StepOf ThreadSocks.next)
      (.start mode.transport os hasSent hasEvent numQueriesPerConn nqpcTimeout) calls c) :
    (∀ i, Consistent (c.reported i) ∧ (hasEvent = true →
        (c.effectsOf i).countP NetEffect.isOpened = (c.reported i).countP SocketEvent.isAttempt)) ∧
      c.completions ≤ c.attempts ∧
      c.stats.numConnAttempts = UInt64.ofNat c.attempts ∧
      c.stats.connLatency.num = UInt64.ofNat c.completions ∧
      (c.attempts < 2 ^ 64 → c.stats.connLatency.num ≤ c.stats.numConnAttempts) := by
  have hinv : c.Inv hasEvent := hrun.invariant ThreadSocks.inv_step
    (ThreadSocks.inv_start os hasSent hasEvent numQueriesPerConn nqpcTimeout)
  have hle : c.completions ≤ c.attempts := by
    unfold ThreadSocks.completions ThreadSocks.attempts
    rw [countP_events, countP_events]
    exact Finset.sum_le_sum fun i _ => (hinv.told i).completions_le
  have hattempts : c.stats.numConnAttempts = UInt64.ofNat c.attempts := by
    rw [hinv.stats, numConnAttempts_eq]
    rfl
  have hcompletions : c.stats.connLatency.num = UInt64.ofNat c.completions := by
    rw [hinv.stats, numConnCompleted_eq]
    rfl
  refine ⟨fun i => ⟨(hinv.told i).consistent, fun hhas => ?_⟩, hle, hattempts, hcompletions,
    fun hlt => ?_⟩
  · obtain ⟨p, -, -, hcount⟩ := (hinv.told i).follows hhas
    exact hcount
  · rw [hattempts, hcompletions, UInt64.le_iff_toNat_le, UInt64.toNat_ofNat_of_lt' hlt,
      UInt64.toNat_ofNat_of_lt' (hle.trans_lt hlt)]
    exact hle

/-- The answers of a system on which every connection that was in progress is made. -/
def connects (fd : Int) : PerfTcpSocket.OsSockready :=
  ⟨⟨fd, true, 20⟩, .ok 0, ⟨fd, true, 30⟩, 0, 0, 0, .success, none, 25, .ok 0⟩

/-- A connection that is made, lost, and made again. -/
theorem connections_consistent_reconnected :
    ∃ c : ThreadSocks PerfNetMode.tcp.transport 1,
      c.reported 0 = [.connecting, .connected, .reconnecting, .reconnected] ∧
      Consistent (c.reported 0) ∧ c.stats.connLatency.num = 2 ∧ c.stats.numConnAttempts = 2 ∧
      c.completions ≤ c.attempts := by
  obtain ⟨c, hrun, hend⟩ := Run.exists_of_follow (fun _ _ => True) ThreadSocks.next
    (.start PerfNetMode.tcp.transport (fun _ : Fin 1 => ⟨5, true, 10⟩) true true 0 0)
    [(0, TcpCall.sockready (connects 6)), (0, TcpCall.recv (.data []) 512),
      (0, TcpCall.sockready (connects 6))]
    (fun c => c.reported 0 = [.connecting, .connected, .reconnecting, .reconnected] ∧
      c.stats.connLatency.num = 2 ∧ c.stats.numConnAttempts = 2) (by decide)
  obtain ⟨hreported, hcompleted, hattempts⟩ := of_decide_eq_true hend
  obtain ⟨hsocks, hle, -⟩ := connections_consistent .tcp (fun _ : Fin 1 => ⟨5, true, 10⟩) true true
    0 0 (hrun.mono fun _ _ _ hstep => hstep.2)
  exact ⟨c, hreported, (hsocks 0).1, hcompleted, hattempts, hle⟩

end Dnsperf.Net
