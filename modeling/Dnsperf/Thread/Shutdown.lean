import Dnsperf.Lib.Run
import Dnsperf.Net.Readiness
import Dnsperf.Thread.Model

/-!
# Dnsperf.Thread.Shutdown

The sending threads and `main` at the end of the input. The first sender that is done
writes to `mainpipe`; `main` then writes to `threadpipe`, which stays readable. Every
`perf_net_sockready` of the other senders waits for its socket **and for `threadpipe`**,
and `threadpipe` comes first: a socket that is still connecting reports -1. When all
attempts of a scan do, the sender ends the program.

Sockets are taken to become connected and writable when they are waited for, so that
-1 comes from nothing else. The scan is that of `Thread.Model`, with the transports in
place of what they return (`scan_of_attempts`). `process_not_fatal`: a scan **whose last attempt is
not made on an unconnected socket with `threadpipe` readable** does not end the program.
-/

namespace Dnsperf.Thread.Shutdown

open Dnsperf.Lib Dnsperf.Net

/-- Where a sending thread is in `do_send`. -/
inductive Place
  /-- At the head of the loop. -/
  | loop
  /-- Looking for a socket: the attempts left, and `all_fail`. -/
  | scan (i : Nat) (allFail : Bool)
  /-- A socket was ready, and a query is to be read from the input. -/
  | input
  /-- After the loop: finish what is in progress. -/
  | drain
  | done
  /-- `perf_log_fatal("all sockets reported failure, can not continue")`. -/
  | fatal
  deriving Repr, DecidableEq

/-- The part of `threadinfo_t` that the scan for a socket uses. Every thread has a
socket, as there are at most as many threads as clients. -/
structure Sender where
  socks : List NetSocket
  socks_ne : socks ≠ []
  /-- An `int`, as the unsigned number it is for `%`. -/
  currentSock : UInt32
  place : Place

namespace Sender

variable (s : Sender)

/-- `threadinfo_init`. -/
def start (socks : {socks : List NetSocket // socks ≠ []}) : Sender where
  socks := socks.1
  socks_ne := socks.2
  currentSock := 0
  place := .loop

/-- `nsocks`. -/
def nsocks : Nat := s.socks.length

theorem nsocks_pos : 0 < s.nsocks := List.length_pos_of_ne_nil s.socks_ne

/-- `current_sock % nsocks`, the socket to be tried next. -/
def sock : Fin s.nsocks := ⟨s.currentSock.toNat % s.nsocks, Nat.mod_lt _ s.nsocks_pos⟩

/-- The sender once socket `i` has become `sock`. -/
def setSock (i : Nat) (sock : NetSocket) : Sender :=
  { s with
    socks := s.socks.set i sock
    socks_ne := fun h => s.socks_ne ((List.set_eq_nil_iff _ _).mp h) }

/-- `perf_net_sockready` on socket `i`. Apart from `threadpipe` the wait would succeed. -/
def perfNetSockready (threadpipe : Bool) (i : Fin s.nsocks) (os : OsSockready) : Int × Sender :=
  let wait := perfOsWaituntilanywritable (.ready threadpipe)
  let (ret, sock, _) := (s.socks.get i).perfNetSockready (os.waiting wait none)
  (ret, s.setSock i sock)

/-- A query is taken, and the scan for a socket starts. -/
def take : Sender := { s with place := .scan (s.nsocks * 2) true }

/-- The scan after an attempt that returned `ret`. -/
def tried (i : Nat) (allFail : Bool) (ret : Int) : Place :=
  match ret with
  | 0 => .scan i false
  | -1 => .scan i allFail
  | _ => .input

/-- An attempt: `while (i--)`. -/
def attempt (threadpipe : Bool) (os : OsSockready) : Option Sender :=
  match s.place with
  | .scan (i + 1) allFail =>
      let (ret, s) := s.perfNetSockready threadpipe s.sock os
      some { s with currentSock := s.currentSock + 1, place := tried i allFail ret }
  | _ => none

/-- After the scan, when no socket was ready. -/
def scanned : Option Sender :=
  match s.place with
  | .scan 0 allFail => some { s with place := if allFail then .fatal else .loop }
  | _ => none

end Sender

/-- The process: its senders, and which of the pipes are readable. -/
structure Process (n : Nat) where
  senders : Fin n → Sender
  mainpipe : Bool
  threadpipe : Bool

/-- What happens in the process. -/
inductive Event (n : Nat)
  /-- A sender goes into the scan. -/
  | take (k : Fin n)
  /-- An attempt of the scan. -/
  | attempt (k : Fin n) (os : OsSockready)
  /-- The scan is over. -/
  | scanned (k : Fin n)
  /-- A query of the input was dealt with. -/
  | query (k : Fin n)
  /-- `perf_datafile_next` has no more queries. -/
  | eof (k : Fin n)
  /-- The time limit is over. -/
  | stop (k : Fin n)
  /-- A socket is flushed, in the loop or after it. -/
  | flush (k : Fin n) (i : Nat) (os : OsSockready)
  /-- `perf_net_sendto` or the receiving thread changes a socket in whatever way. -/
  | socket (k : Fin n) (i : Nat) (sock : NetSocket)
  /-- A sender writes to `mainpipe` and ends. -/
  | finish (k : Fin n)
  /-- `main` has read from `mainpipe`, or the time limit is over; it writes to
  `threadpipe`. -/
  | main (timedOut : Bool)

namespace Process

variable {n : Nat} (p : Process n)

/-- The senders have opened their sockets. -/
def start (socks : Fin n → {socks : List NetSocket // socks ≠ []}) : Process n where
  senders k := Sender.start (socks k)
  mainpipe := false
  threadpipe := false

/-- Sender `k` has become `s`. -/
def set (k : Fin n) (s : Sender) : Process n :=
  { p with senders := Function.update p.senders k s }

/-- Sender `k` goes from one place to another. -/
def goto (k : Fin n) (place place' : Place) : Option (Process n) :=
  if (p.senders k).place = place then some (p.set k { p.senders k with place := place' }) else none

/-- Sender `k` flushes socket `i`. -/
def flush (k : Fin n) (i : Nat) (os : OsSockready) : Option (Process n) :=
  if h : i < (p.senders k).nsocks then
    if (p.senders k).place = .loop ∨ (p.senders k).place = .drain then
      some (p.set k ((p.senders k).perfNetSockready p.threadpipe ⟨i, h⟩ os).2)
    else none
  else none

/-- One step of the process. -/
def next : Event n → Option (Process n)
  | .take k => if (p.senders k).place = .loop then some (p.set k (p.senders k).take) else none
  | .attempt k os => ((p.senders k).attempt p.threadpipe os).map (p.set k)
  | .scanned k => (p.senders k).scanned.map (p.set k)
  | .query k => p.goto k .input .loop
  | .eof k => p.goto k .input .drain
  | .stop k => p.goto k .loop .drain
  | .flush k i os => p.flush k i os
  | .socket k i sock => some (p.set k ((p.senders k).setSock i sock))
  | .finish k => (p.goto k .drain .done).map fun p => { p with mainpipe := true }
  | .main timedOut => if p.mainpipe || timedOut then some { p with threadpipe := true } else none

/-- The last attempt of a scan that has only failed so far is made with `threadpipe` not
readable, or on a socket that has its connection. -/
def Spared : Event n → Prop
  | .attempt k _ => (p.senders k).place = .scan 1 true →
      p.threadpipe = false ∨ ((p.senders k).socks.get (p.senders k).sock).Settled
  | _ => True

instance : (e : Event n) → Decidable (p.Spared e)
  | .attempt _ _ => inferInstanceAs (Decidable (_ → _))
  | .take _ | .scanned _ | .query _ | .eof _ | .stop _ | .flush _ _ _ | .socket _ _ _
  | .finish _ | .main _ => inferInstanceAs (Decidable True)

end Process

/-! ### The scan of the thread model -/

namespace Sender

variable {s s' : Sender} {i : Nat} {allFail : Bool}

/-- Attempts one after the other, and what `perf_net_sockready` returns at each. -/
def attempts : List (Bool × OsSockready) → Sender → Option (List Int × Sender)
  | [], s => some ([], s)
  | (threadpipe, os) :: calls, s => do
      let s' ← s.attempt threadpipe os
      let (rets, s') ← attempts calls s'
      some ((s.perfNetSockready threadpipe s.sock os).1 :: rets, s')

/-- What the scan has come to, if it is over: the socket found, and `all_fail`. -/
def found (s : Sender) : Option (Option Nat × Bool) :=
  match s.place with
  | .input => some (some ((s.currentSock - 1).toNat % s.nsocks), false)
  | .scan 0 allFail => some (none, allFail)
  | _ => none

theorem attempt_eq_none (hplace : ∀ i allFail, s.place ≠ .scan (i + 1) allFail)
    (threadpipe : Bool) (os : OsSockready) : s.attempt threadpipe os = none := by
  unfold attempt
  split
  · next i allFail heq => exact absurd heq (hplace i allFail)
  · rfl

theorem attempt_scan (hplace : s.place = .scan (i + 1) allFail) (threadpipe : Bool)
    (os : OsSockready) :
    ∃ s', s.attempt threadpipe os = some s' ∧
      s'.place = tried i allFail (s.perfNetSockready threadpipe s.sock os).1 ∧
      s'.currentSock = s.currentSock + 1 ∧ s'.nsocks = s.nsocks := by
  unfold attempt
  rw [hplace]
  exact ⟨_, rfl, rfl, rfl, List.length_set⟩

theorem tried_ready {ret : Int} (hzero : ret ≠ 0) (hfail : ret ≠ -1) :
    tried i allFail ret = .input := by
  unfold tried
  split
  · exact absurd rfl hzero
  · exact absurd rfl hfail
  · rfl

theorem attempts_input {calls : List (Bool × OsSockready)} {rets : List Int}
    (hplace : s.place = .input) (h : attempts calls s = some (rets, s')) : rets = [] ∧ s' = s := by
  cases calls with
  | nil =>
      obtain ⟨rfl, rfl⟩ := Prod.mk.inj (Option.some.inj h)
      exact ⟨rfl, rfl⟩
  | cons call calls =>
      rw [attempts, attempt_eq_none fun _ _ heq => nomatch hplace.symm.trans heq] at h
      exact nomatch h

/-- **The attempts of a sender are a scan of the thread model**, with what
`perf_net_sockready` returned. -/
theorem scan_of_attempts (now : Nat) {calls : List (Bool × OsSockready)} {rets : List Int}
    {r : Option Nat × Bool} (hplace : s.place = .scan i allFail)
    (h : attempts calls s = some (rets, s')) (hend : s'.found = some r) {t : ThreadInfo}
    (ht : t.currentSock = s.currentSock) :
    ∃ t', ThreadInfo.scan s.nsocks now i (rets.map (⟨·, []⟩)) allFail t = some (r, t') := by
  induction calls generalizing s i allFail rets t with
  | nil =>
      obtain ⟨rfl, rfl⟩ := Prod.mk.inj (Option.some.inj h)
      unfold found at hend
      rw [hplace] at hend
      cases i with
      | zero => exact ⟨t, congrArg (fun r => some (r, t)) (Option.some.inj hend)⟩
      | succ i => exact nomatch hend
  | cons call calls ih =>
      cases i with
      | zero =>
          rw [attempts, attempt_eq_none fun _ _ heq => nomatch hplace.symm.trans heq] at h
          exact nomatch h
      | succ i =>
          obtain ⟨s₁, hattempt, hplace₁, hsock₁, hnsocks₁⟩ := attempt_scan hplace call.1 call.2
          rw [attempts, hattempt, Option.bind_eq_bind, Option.bind_some] at h
          obtain ⟨⟨rets₁, s₂⟩, hrec, hsome⟩ := Option.bind_eq_some_iff.mp h
          obtain ⟨rfl, rfl⟩ := Prod.mk.inj (Option.some.inj hsome)
          generalize (s.perfNetSockready call.1 s.sock call.2).1 = ret at hplace₁ ⊢
          have ht₁ : t.currentSock + 1 = s₁.currentSock := by rw [ht, hsock₁]
          rw [List.map_cons, ThreadInfo.scan]
          dsimp only
          by_cases hzero : ret = 0
          · rw [if_pos hzero, ← hnsocks₁]
            rw [hzero] at hplace₁
            exact ih hplace₁ hrec ht₁
          · by_cases hfail : ret = -1
            · rw [if_neg hzero, if_pos hfail, ← hnsocks₁]
              rw [hfail] at hplace₁
              exact ih hplace₁ hrec ht₁
            · -- the socket is ready: the scan ends here
              rw [tried_ready hzero hfail] at hplace₁
              obtain ⟨-, rfl⟩ := attempts_input hplace₁ hrec
              unfold found at hend
              rw [hplace₁] at hend
              rw [if_neg hzero, if_neg hfail, ← Option.some.inj hend, ← ht₁, hnsocks₁,
                UInt32.add_sub_cancel]
              exact ⟨_, rfl⟩

end Sender

/-! ### No scan fails altogether -/

/-- A place from which the program does not end in failure at once. -/
def Place.Safe (place : Place) : Prop := place ≠ .fatal ∧ place ≠ .scan 0 true

namespace Sender

variable (s : Sender)

theorem take_safe : s.take.place.Safe := by
  refine ⟨nofun, fun h => ?_⟩
  have hzero : s.nsocks * 2 = 0 := congrArg (fun | .scan i _ => i | _ => 0) h
  exact absurd s.nsocks_pos (by omega)

theorem tried_safe {i : Nat} {allFail : Bool} {ret : Int}
    (h : i = 0 → allFail = true → ret ≠ -1) : (tried i allFail ret).Safe := by
  unfold tried
  split
  · exact ⟨nofun, nofun⟩
  · refine ⟨nofun, fun heq => ?_⟩
    obtain ⟨hi, hall⟩ := Place.scan.inj heq
    exact h hi hall rfl
  · exact ⟨nofun, nofun⟩

/-- An attempt returns -1 only if `threadpipe` is readable and the socket not settled. -/
theorem perfNetSockready_ne {threadpipe : Bool} {i : Fin s.nsocks} (os : OsSockready)
    (h : threadpipe = false ∨ (s.socks.get i).Settled) :
    (s.perfNetSockready threadpipe i os).1 ≠ -1 := by
  refine NetSocket.perfNetSockready_ne _ os _ none (h.imp_left fun hpipe => ?_)
  rw [hpipe]
  rfl

theorem attempt_safe {threadpipe : Bool} {os : OsSockready} {s' : Sender}
    (hspared : s.place = .scan 1 true → threadpipe = false ∨ (s.socks.get s.sock).Settled)
    (hstep : s.attempt threadpipe os = some s') : s'.place.Safe := by
  unfold attempt at hstep
  split at hstep
  · next i allFail hplace =>
      obtain rfl := Option.some.inj hstep
      refine tried_safe fun hi hall => s.perfNetSockready_ne os (hspared ?_)
      rw [hplace, hi, hall]
  · exact nomatch hstep

theorem scanned_safe {s' : Sender} (hsafe : s.place.Safe) (hstep : s.scanned = some s') :
    s'.place.Safe := by
  unfold scanned at hstep
  split at hstep
  · next allFail hplace =>
      obtain rfl := Option.some.inj hstep
      cases allFail with
      | true => exact absurd hplace hsafe.2
      | false => exact ⟨nofun, nofun⟩
  · exact nomatch hstep

end Sender

namespace Process

variable {n : Nat} {p p' : Process n}

/-- All senders are at safe places. -/
def Safe (p : Process n) : Prop := ∀ k, (p.senders k).place.Safe

theorem Safe.set (hp : p.Safe) {k : Fin n} {s : Sender} (hs : s.place.Safe) : (p.set k s).Safe := by
  intro j
  change (Function.update p.senders k s j).place.Safe
  by_cases hj : j = k
  · rw [hj, Function.update_self]
    exact hs
  · rw [Function.update_of_ne hj]
    exact hp j

theorem Safe.goto (hp : p.Safe) {k : Fin n} {place place' : Place} (hplace : place'.Safe)
    (hstep : p.goto k place place' = some p') : p'.Safe := by
  unfold Process.goto at hstep
  split at hstep
  · obtain rfl := Option.some.inj hstep
    exact hp.set hplace
  · exact nomatch hstep

/-- A flush changes a socket, and what it returns does not matter. -/
theorem Safe.flush (hp : p.Safe) {k : Fin n} {i : Nat} {os : OsSockready}
    (hstep : p.flush k i os = some p') : p'.Safe := by
  unfold Process.flush at hstep
  split_ifs at hstep
  obtain rfl := Option.some.inj hstep
  exact hp.set (hp k)

theorem Safe.next (hp : p.Safe) {e : Event n} (hspared : p.Spared e)
    (hstep : p.next e = some p') : p'.Safe := by
  have hloop : Place.loop.Safe := ⟨nofun, nofun⟩
  have hdrain : Place.drain.Safe := ⟨nofun, nofun⟩
  have hdone : Place.done.Safe := ⟨nofun, nofun⟩
  cases e with
  | take k =>
      obtain ⟨_, hsome⟩ := Option.ite_none_right_eq_some.mp hstep
      obtain rfl := Option.some.inj hsome
      exact hp.set (p.senders k).take_safe
  | attempt k os =>
      obtain ⟨s, hs, rfl⟩ := Option.map_eq_some_iff.mp hstep
      exact hp.set ((p.senders k).attempt_safe hspared hs)
  | scanned k =>
      obtain ⟨s, hs, rfl⟩ := Option.map_eq_some_iff.mp hstep
      exact hp.set ((p.senders k).scanned_safe (hp k) hs)
  | query k => exact hp.goto hloop hstep
  | eof k => exact hp.goto hdrain hstep
  | stop k => exact hp.goto hdrain hstep
  | flush k i os => exact hp.flush hstep
  | socket k i sock =>
      obtain rfl := Option.some.inj hstep
      exact hp.set (hp k)
  | finish k =>
      obtain ⟨q, hq, rfl⟩ := Option.map_eq_some_iff.mp hstep
      have hsafe : q.Safe := hp.goto hdone hq
      exact hsafe
  | main timedOut =>
      obtain ⟨_, hsome⟩ := Option.ite_none_right_eq_some.mp hstep
      obtain rfl := Option.some.inj hsome
      exact hp

theorem safe_start (socks : Fin n → {socks : List NetSocket // socks ≠ []}) : (start socks).Safe :=
  fun _ => ⟨nofun, nofun⟩

end Process

/-- **One sender's end does not fail another**, as long as no scan makes its last attempt
on a socket without a connection while `threadpipe` is readable. -/
theorem process_not_fatal {n : Nat} (socks : Fin n → {socks : List NetSocket // socks ≠ []})
    {es : List (Event n)} {p : Process n}
    (hrun : Run (Guarded Process.Spared (StepOf Process.next)) (Process.start socks) es p)
    (k : Fin n) : (p.senders k).place ≠ .fatal :=
  have hsafe : p.Safe :=
    hrun.invariant (fun _ _ _ hp hstep => hp.next hstep.1 hstep.2) (Process.safe_start socks)
  (hsafe k).1

/-! ### The first sender to end -/

/-- A socket of each of two senders, newly opened and still connecting. -/
def opened (mode : PerfNetMode) (k : Fin 2) : {socks : List NetSocket // socks ≠ []} :=
  ⟨[perfNetOpensocket mode { fd := 7 + (k.val : Int), inProgress := true, now := 0 } true true 0 0],
    List.cons_ne_nil _ _⟩

/-- Everything a socket needs to become ready. -/
def osReady : OsSockready where
  tcp :=
    { connect := { fd := 9, inProgress := true, now := 0 }, send := .ok 0,
      reconnect := { fd := 9, inProgress := true, now := 0 }, now := 0, now' := 0, nqpcRecv := 0,
      wait := .success, soError := none, connected := 0, resend := .ok 0 }
  dot :=
    { connect := { fd := 9, inProgress := true, now := 0 }, write := .ok 0,
      reconnect := { fd := 9, inProgress := true, now := 0 }, now := 0, now' := 0, nqpcRecv := 0,
      wait := .success, soError := none, handshake := .done, connected := 0 }
  doh :=
    { connect := { fd := 9, inProgress := true, now := 0 },
      send := { ok := true, reconnected := false, payloadSent := false, wantWrite := false },
      now := 0, now' := 0, nqpcRecv := 0, wait := .success, soError := none, handshake := .done,
      alpn := true, settings := true, connected := 0 }

/-- The first sender sends the only query of the input, and ends; `main` notices. -/
def firstEnds : List (Event 2) :=
  [.take 0, .attempt 0 osReady, .query 0, .take 0, .attempt 0 osReady, .eof 0, .finish 0,
    .main false]

/-- With the second sender's socket connected before, nothing happens to it. -/
theorem process_not_fatal_connected : ∃ p : Process 2,
    Run (Guarded Process.Spared (StepOf Process.next)) (Process.start (opened .tcp))
      ([.take 1, .attempt 1 osReady, .query 1] ++ firstEnds ++ [.take 1, .attempt 1 osReady]) p ∧
    p.threadpipe = true ∧ (p.senders 1).place = .input ∧ (p.senders 1).place ≠ .fatal := by
  obtain ⟨p, hrun, hp⟩ := Run.exists_of_follow Process.Spared Process.next
    (Process.start (opened .tcp))
    ([.take 1, .attempt 1 osReady, .query 1] ++ firstEnds ++ [.take 1, .attempt 1 osReady])
    (fun p => p.threadpipe && decide ((p.senders 1).place = .input)) (by decide)
  obtain ⟨hpipe, hplace⟩ := Bool.and_eq_true_iff.mp hp
  exact ⟨p, hrun, hpipe, of_decide_eq_true hplace, process_not_fatal (opened .tcp) hrun 1⟩

/-- The second sender scans its socket, which is still connecting, after that. -/
def firstEndsThenScan : List (Event 2) :=
  firstEnds ++ [.take 1, .attempt 1 osReady, .attempt 1 osReady, .scanned 1]

/-- On every transport the scan fails altogether. -/
theorem firstEndsThenScan_fatal (mode : PerfNetMode) : ∃ p : Process 2,
    Run (StepOf Process.next) (Process.start (opened mode)) firstEndsThenScan p ∧
    (p.senders 0).place = .done ∧ (p.senders 1).place = .fatal := by
  obtain ⟨p, hrun, hp⟩ := Run.exists_of_follow (fun _ _ => True) Process.next
    (Process.start (opened mode)) firstEndsThenScan
    (fun p => decide ((p.senders 0).place = .done) && decide ((p.senders 1).place = .fatal))
    (by cases mode <;> decide)
  obtain ⟨hdone, hfatal⟩ := Bool.and_eq_true_iff.mp hp
  exact ⟨p, hrun.mono fun _ _ _ hstep => hstep.2, of_decide_eq_true hdone, of_decide_eq_true hfatal⟩

/-- **The first sender's end fails the second**: a TCP socket that is still connecting
is not given the time to. -/
theorem process_fatal_connecting : ∃ p : Process 2,
    Run (StepOf Process.next) (Process.start (opened .tcp)) firstEndsThenScan p ∧
    (p.senders 0).place = .done ∧ (p.senders 1).place = .fatal :=
  firstEndsThenScan_fatal .tcp

end Dnsperf.Thread.Shutdown
