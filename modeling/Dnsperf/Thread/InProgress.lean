import Dnsperf.Net.Tcp
import Dnsperf.Thread.Accounting
import Dnsperf.Thread.Batch

/-!
# Dnsperf.Thread.InProgress

**Which sends `do_send` sees through.** A stream socket that cannot take all of a query at once
keeps the rest and reports `EINPROGRESS`; `perf_net_sockready` then has to be called until it
returns 1. `do_send` notes such sockets in `socketbits` and goes by `any_inprogress`: in the loop it
tries the sockets noted, and after it all of them. But it drops a socket for which
`perf_net_sockready` returns -1 too, as it does when the wait for a new connection times out,
although the socket keeps its query (`perfTcpSockready_timedout`).

`Watched` is the thread with the sockets that still have something to send, and those that were
dropped, as far as the calls say. The others are always among those noted, and when `do_send` is
done there are no others (`sends_finished_or_dropped`).

In `Thread.Model` the marks are a function. `flushSocks_refines` is the loop over the sockets
noted with the marks as they are in memory.
-/

namespace Dnsperf.Thread

open Dnsperf.Lib Dnsperf.Net

/-! ### The marks in memory -/

/-- The flush of the sockets that were still sending, on `any_inprogress` and `socketbits`. -/
def flushBits (now : Nat) : List Nat → List ThreadInfo.SockreadyCall → Bool × Socketbits →
    ThreadInfo → Option ((Bool × Socketbits) × ThreadInfo)
  | [], _, v, t => some (v, t)
  | i :: is, calls, (anyInprogress, socketbits), t =>
      if bitCheck socketbits i then
        match calls with
        | [] => none
        | call :: calls =>
            flushBits now is calls
              (if call.ret = 0 then (true, socketbits) else (anyInprogress, bitClear socketbits i))
              (t.sockready now call)
      else flushBits now is calls (anyInprogress, socketbits) t

/-- The variables of `do_send` with these marks. -/
def SenderVars.withBits (v : SenderVars) (bits : Bool × Socketbits) : SenderVars :=
  { v with anyInprogress := bits.1, socketbits := bitCheck bits.2 }

/-- **The marks in memory are the marks of the model.** -/
theorem flushSocks_refines (now : Nat) {socks : List Nat} (hsocks : ∀ i ∈ socks, i < maxSockets)
    (calls : List ThreadInfo.SockreadyCall) (v : SenderVars) (bits : Bool × Socketbits)
    (t : ThreadInfo) :
    flushSocks now socks calls (v.withBits bits) t
      = (flushBits now socks calls bits t).map fun (bits, t) => (v.withBits bits, t) := by
  induction socks generalizing calls bits t with
  | nil => rfl
  | cons i socks ih =>
      obtain ⟨anyInprogress, socketbits⟩ := bits
      have hi := hsocks i List.mem_cons_self
      have hrest := fun j hj => hsocks j (List.mem_cons_of_mem i hj)
      unfold flushSocks flushBits
      by_cases hbit : bitCheck socketbits i = true
      · rw [if_pos hbit]
        rw [if_pos (show (v.withBits (anyInprogress, socketbits)).socketbits i = true from hbit)]
        cases calls with
        | nil => rfl
        | cons call calls =>
            dsimp only
            rw [← ih hrest]
            congr 1
            split_ifs
            · rfl
            · simp only [SenderVars.withBits, funext (bitCheck_bitClear socketbits hi)]
      · rw [if_neg hbit]
        rw [if_neg (show ¬ (v.withBits (anyInprogress, socketbits)).socketbits i = true from hbit)]
        exact ih hrest calls _ t

/-! ### Sockets with something to send -/

/-- A thread, with the sockets that have something to send, and those that failed since. -/
structure Watched where
  pair : Pair
  inProgress : Nat → Bool
  dropped : Nat → Bool

namespace Watched

def start (now : Nat) : Watched := ⟨Pair.start now, fun _ => false, fun _ => false⟩

/-- What the flushing calls of a step returned, for each socket tried. -/
def answers (cfg : Config) (c : Pair) : SenderStep → List (Nat × Int)
  | .flush calls =>
      if c.vars.anyInprogress then
        ((List.range cfg.nsocks).filter c.vars.socketbits).zip (calls.map (·.ret))
      else []
  | .drain calls =>
      if c.vars.anyInprogress then (List.range cfg.nsocks).zip (calls.map (·.ret)) else []
  | _ => []

/-- Some answer of the socket was that it has nothing more to send. -/
def finished (answers : List (Nat × Int)) (sock : Nat) : Bool :=
  answers.any fun answer => answer.1 = sock ∧ 0 < answer.2

/-- Some answer of the socket was that it failed. -/
def failed (answers : List (Nat × Int)) (sock : Nat) : Bool :=
  answers.any fun answer => answer.1 = sock ∧ answer.2 < 0

/-- Some answer of the socket was not 0, which is all that `do_send` looks at. -/
def settled (answers : List (Nat × Int)) (sock : Nat) : Bool :=
  answers.any fun answer => answer.1 = sock ∧ answer.2 ≠ 0

theorem settled_eq_false_iff {answers : List (Nat × Int)} {sock : Nat} :
    settled answers sock = false ↔ finished answers sock = false ∧ failed answers sock = false := by
  simp only [settled, finished, failed, List.any_eq_false, decide_eq_true_eq]
  refine ⟨fun h => ⟨fun a ha hpos => h a ha ⟨hpos.1, ne_of_gt hpos.2⟩,
    fun a ha hneg => h a ha ⟨hneg.1, ne_of_lt hneg.2⟩⟩, fun h a ha hne => ?_⟩
  rcases lt_or_gt_of_ne hne.2 with hneg | hpos
  · exact h.2 a ha ⟨hne.1, hneg⟩
  · exact h.1 a ha ⟨hne.1, hpos⟩

/-- `perf_net_sendto` said that the socket still has something to send. -/
def began (c : Pair) (step : SenderStep) (sock : Nat) : Bool :=
  match c.sender, step with
  | .send _ sock' _, .send (.error .einprogress) => sock = sock'
  | _, _ => false

theorem began_iff {c : Pair} {step : SenderStep} {sock : Nat} :
    began c step sock = true ↔
      (∃ q length, c.sender = .send q sock length) ∧ step = .send (.error .einprogress) := by
  unfold began
  split
  · rename_i q sock' length hat
    rw [hat, decide_eq_true_eq]
    constructor
    · rintro rfl
      exact ⟨⟨q, length, rfl⟩, rfl⟩
    · rintro ⟨⟨q', length', hsend⟩, -⟩
      exact (SenderAt.send.inj hsend).2.1.symm
  · rename_i hne
    refine ⟨nofun, ?_⟩
    rintro ⟨⟨q, length, hat⟩, hstep⟩
    exact (hne q sock length hat hstep).elim

/-- The thread after a step of `do_send`. -/
def sent (cfg : Config) (w : Watched) (step : SenderStep) (c : Pair) : Watched where
  pair := c
  inProgress sock :=
    began w.pair step sock || w.inProgress sock && !finished (answers cfg w.pair step) sock
  dropped sock :=
    !began w.pair step sock && (w.dropped sock || failed (answers cfg w.pair step) sock)

@[simp] theorem sent_pair (cfg : Config) (w : Watched) (step : SenderStep) (c : Pair) :
    (w.sent cfg step c).pair = c := rfl

/-- The thread takes a step. -/
def next (cfg : Config) (w : Watched) (step : Pair.Step) : Option Watched :=
  (w.pair.next cfg step).map fun c =>
    match step with
    | .sender step => w.sent cfg step c
    | _ => { w with pair := c }

/-- The socket has something to send, and has not failed. -/
def Busy (w : Watched) (sock : Nat) : Prop := w.inProgress sock = true ∧ w.dropped sock = false

/-- A socket gets busy with a query, and is until `do_send` has another answer than 0. -/
theorem busy_sent_iff {cfg : Config} {w : Watched} {step : SenderStep} {c : Pair} {sock : Nat} :
    (w.sent cfg step c).Busy sock ↔ began w.pair step sock = true ∨
      w.Busy sock ∧ settled (answers cfg w.pair step) sock = false := by
  simp only [settled_eq_false_iff, Busy, sent]
  cases began w.pair step sock with
  | true => simp
  | false =>
      simp only [Bool.false_or, Bool.not_false, Bool.true_and, Bool.and_eq_true, Bool.not_eq_true',
        Bool.or_eq_false_iff, Bool.false_eq_true, false_or]
      exact and_and_and_comm

end Watched

/-! ### What the calls say about the marks -/

/-- Each socket noted is settled and no longer noted, or the flush has noted that one is left. -/
theorem flushSocks_spec {now : Nat} {socks : List Nat} {calls : List ThreadInfo.SockreadyCall}
    {v v' : SenderVars} {t t' : ThreadInfo} (hnodup : socks.Nodup)
    (hflush : flushSocks now socks calls v t = some (v', t')) :
    (v.anyInprogress = true → v'.anyInprogress = true) ∧
      (∀ sock ∉ socks, v'.socketbits sock = v.socketbits sock) ∧
      ∀ sock ∈ socks, v.socketbits sock = true →
        Watched.settled ((socks.filter v.socketbits).zip (calls.map (·.ret))) sock = true ∨
          v'.anyInprogress = true ∧ v'.socketbits sock = true := by
  induction socks generalizing t calls v with
  | nil =>
      rw [flushSocks, Option.some.injEq] at hflush
      obtain ⟨rfl, rfl⟩ := Prod.mk.inj hflush
      exact ⟨id, fun _ _ => rfl, fun sock hsock => absurd hsock List.not_mem_nil⟩
  | cons i socks ih =>
      obtain ⟨hi, hrest⟩ := List.nodup_cons.mp hnodup
      unfold flushSocks at hflush
      by_cases hbit : v.socketbits i = true
      · rw [if_pos hbit] at hflush
        cases calls with
        | nil => cases hflush
        | cons call calls =>
            dsimp only at hflush
            rw [List.filter_cons_of_pos hbit]
            by_cases hret : call.ret = 0
            -- still in progress: the mark stays and the flush reports it
            · rw [if_pos hret] at hflush
              obtain ⟨hany, hout, hin⟩ := ih hrest hflush
              refine ⟨fun _ => hany rfl, fun sock hsock => ?_, fun sock hsock hnoted => ?_⟩
              · exact hout sock fun h => hsock (List.mem_cons_of_mem i h)
              · rcases List.mem_cons.mp hsock with rfl | hsock
                · exact Or.inr ⟨hany rfl, (hout sock hi).trans hbit⟩
                · refine (hin sock hsock hnoted).imp_left fun h => ?_
                  rw [List.map_cons, List.zip_cons_cons, Watched.settled, List.any_cons,
                    ← Watched.settled, h, Bool.or_true]
            -- settled: the mark is cleared, which the sockets after it do not see
            · rw [if_neg hret] at hflush
              obtain ⟨hany, hout, hin⟩ := ih hrest hflush
              have hfilter : socks.filter (fun j => if j = i then false else v.socketbits j)
                  = socks.filter v.socketbits :=
                List.filter_congr fun j hj => if_neg fun (h : j = i) => hi (h ▸ hj)
              refine ⟨hany, fun sock hsock => ?_, fun sock hsock hnoted => ?_⟩
              · rw [hout sock fun h => hsock (List.mem_cons_of_mem i h)]
                exact if_neg fun (h : sock = i) => hsock (h ▸ List.mem_cons_self)
              · rw [List.map_cons, List.zip_cons_cons, Watched.settled, List.any_cons,
                  ← Watched.settled]
                rcases List.mem_cons.mp hsock with rfl | hsock
                · left
                  rw [decide_eq_true ⟨rfl, hret⟩, Bool.true_or]
                · have hne : sock ≠ i := fun h => hi (h ▸ hsock)
                  refine (hin sock hsock ((if_neg hne).trans hnoted)).imp_left fun h => ?_
                  rw [← hfilter, h, Bool.or_true]
      -- not noted, so not asked: the call is left for a later socket
      · rw [if_neg hbit] at hflush
        obtain ⟨hany, hout, hin⟩ := ih hrest hflush
        refine ⟨hany, fun sock hsock => hout sock fun h => hsock (List.mem_cons_of_mem i h),
          fun sock hsock hnoted => ?_⟩
        rw [List.filter_cons_of_neg hbit]
        rcases List.mem_cons.mp hsock with rfl | hsock
        · exact absurd hnoted hbit
        · exact hin sock hsock hnoted

theorem drainSocks_spec {now k n : Nat} {calls : List ThreadInfo.SockreadyCall}
    {v v' : SenderVars} {t t' : ThreadInfo} (hdrain : drainSocks now n calls v t = some (v', t')) :
    (v.anyInprogress = true → v'.anyInprogress = true) ∧
      ∀ sock, k ≤ sock → sock < k + n →
        Watched.settled ((List.range' k n).zip (calls.map (·.ret))) sock = true ∨
          v'.anyInprogress = true := by
  induction n generalizing t calls v k with
  | zero =>
      rw [drainSocks, Option.some.injEq] at hdrain
      obtain ⟨rfl, rfl⟩ := Prod.mk.inj hdrain
      exact ⟨id, fun sock hle hlt => absurd hlt (by omega)⟩
  | succ n ih =>
      cases calls with
      | nil => cases hdrain
      | cons call calls =>
          obtain ⟨hany, hin⟩ := ih (k := k + 1) hdrain
          refine ⟨fun h => hany (by split_ifs; exacts [rfl, h]), fun sock hle hlt => ?_⟩
          rw [List.range'_succ, List.map_cons, List.zip_cons_cons, Watched.settled, List.any_cons,
            ← Watched.settled]
          by_cases hsock : sock = k
          · by_cases hret : call.ret = 0
            · exact Or.inr (hany (by rw [if_pos hret]))
            · left
              rw [decide_eq_true ⟨hsock.symm, hret⟩, Bool.true_or]
          · refine (hin sock (by omega) (by omega)).imp_left fun h => ?_
            rw [h, Bool.or_true]

theorem ThreadInfo.scan_sock_lt {nsocks now i : Nat} {calls : List SockreadyCall} {allFail : Bool}
    {t t' : ThreadInfo} {sock : Nat} {fail : Bool} (hpos : 0 < nsocks)
    (hscan : scan nsocks now i calls allFail t = some ((some sock, fail), t')) :
    sock < nsocks := by
  induction i generalizing t calls allFail with
  | zero => cases hscan
  | succ i ih =>
      cases calls with
      | nil => cases hscan
      | cons call calls =>
          rw [scan] at hscan
          dsimp only at hscan
          split_ifs at hscan
          · exact ih hscan
          · exact ih hscan
          · obtain ⟨hfound, -⟩ := Prod.mk.inj (Option.some.inj hscan)
            rw [← Option.some.inj (Prod.mk.inj hfound).1]
            exact Nat.mod_lt _ hpos

theorem ThreadInfo.acquire_sock_lt {cfg : Config} {now : Nat} {calls : List SockreadyCall}
    {t t' : ThreadInfo} {q sock : Nat} (h : t.acquire cfg now calls = some (.query q sock, t')) :
    sock < cfg.nsocks := by
  unfold acquire at h
  split_ifs at h
  · cases h
  · split at h
    · cases h
    · split at h
      · cases h
      · cases h
      · cases h
      · rename_i sock' t₁ hscan
        cases h
        by_cases hpos : 0 < cfg.nsocks
        · exact scan_sock_lt hpos hscan
        · rw [show cfg.nsocks * 2 = 0 by omega] at hscan
          cases hscan

/-! ### The invariant -/

/-- The socket `do_send` has found for its query. -/
def SenderAt.sock : SenderAt → Option Nat
  | .input _ sock | .clock _ sock _ | .stamp _ sock _ | .send _ sock _ => some sock
  | _ => none

/-- Every step but these leaves the marks alone. -/
def SenderStep.marks : SenderStep → Bool
  | .flush _ | .send _ | .drain _ => true
  | _ => false

namespace Pair

variable {cfg : Config} {c c' : Pair}

theorem rateLimit_socketbits (cfg : Config) (v : SenderVars) :
    (v.rateLimit cfg).2.socketbits = v.socketbits := by
  unfold SenderVars.rateLimit
  dsimp only
  split_ifs <;> rfl

/-- Steps that leave the marks alone; a socket comes from the scan. -/
theorem nextSender_unmarked {step : SenderStep} (hmarks : step.marks = false)
    (hstep : c.nextSender cfg step = some c') :
    c'.vars.anyInprogress = c.vars.anyInprogress ∧ c'.vars.socketbits = c.vars.socketbits ∧
      c.sender ≠ .drain ∧ c'.sender ≠ .done ∧
      ∀ sock, c'.sender.sock = some sock → c.sender.sock = some sock ∨ sock < cfg.nsocks := by
  cases step with
  | flush | send | drain => cases hmarks
  | loop =>
      obtain ⟨hat, hc'⟩ := Option.ite_none_right_eq_some.mp hstep
      rw [← Option.some.inj hc', hat]
      refine ⟨rfl, rfl, by simp, ?_, ?_⟩ <;> dsimp only [sendAt] <;> split_ifs <;>
        simp [SenderAt.sock]
  | throttle | again =>
      obtain ⟨hat, hc'⟩ := Option.ite_none_right_eq_some.mp hstep
      rw [← Option.some.inj hc', hat]
      exact ⟨rfl, rfl, by simp, by simp, by simp [SenderAt.sock]⟩
  | limit =>
      obtain ⟨hat, hc'⟩ := Option.ite_none_right_eq_some.mp hstep
      change some { c with
        sender := if (c.vars.rateLimit cfg).1 then .lock else .again
        vars := (c.vars.rateLimit cfg).2 } = some c' at hc'
      rw [← Option.some.inj hc', hat]
      refine ⟨rateLimit_anyInprogress cfg c.vars, rateLimit_socketbits cfg c.vars, by simp,
        ?_, ?_⟩ <;> dsimp only <;> split_ifs <;> simp [SenderAt.sock]
  | lock calls =>
      obtain ⟨hat, hc'⟩ := Option.ite_none_right_eq_some.mp hstep
      obtain ⟨⟨acquired, tinfo⟩, hacquire, rfl⟩ := Option.map_eq_some_iff.mp hc'
      rw [hat]
      cases acquired with
      | nothing | fatal => exact ⟨rfl, rfl, by simp, by simp, by simp [SenderAt.sock]⟩
      | query q sock =>
          refine ⟨rfl, rfl, by simp, by simp, fun sock' hsock => Or.inr ?_⟩
          obtain rfl := Option.some.inj hsock
          exact ThreadInfo.acquire_sock_lt hacquire
  | input | undo | clock | stamp | count | rollback =>
      simp only [nextSender] at hstep
      split at hstep <;> cases hstep <;> rename_i hat <;> rw [hat] <;>
        exact ⟨rfl, rfl, by simp, by simp [sendAt], fun _ hsock => by
          first | exact Or.inl hsock | cases hsock⟩

end Pair

namespace Watched

variable {cfg : Config} {w w' : Watched}

/-- What has something to send is noted. -/
structure Noted (cfg : Config) (w : Watched) : Prop where
  sock : ∀ sock, w.pair.sender.sock = some sock → sock < cfg.nsocks
  noted : ∀ sock, w.Busy sock → sock < cfg.nsocks ∧
    w.pair.vars.anyInprogress = true ∧
    (w.pair.sender ≠ .drain → w.pair.vars.socketbits sock = true)
  done : w.pair.sender = .done → w.pair.vars.anyInprogress = false

theorem noted_start (cfg : Config) (now : Nat) : Noted cfg (start now) :=
  ⟨nofun, fun _ hbusy => absurd hbusy.1 Bool.false_ne_true, nofun⟩

theorem Noted.flush (h : Noted cfg w) {calls : List ThreadInfo.SockreadyCall} {c : Pair}
    (hc : w.pair.nextSender cfg (.flush calls) = some c) :
    Noted cfg (w.sent cfg (.flush calls) c) := by
  obtain ⟨hat, hc⟩ := Option.ite_none_right_eq_some.mp hc
  have hbegan : ∀ sock, began w.pair (.flush calls) sock ≠ true :=
    fun sock hsock => nomatch (began_iff.mp hsock).2
  split_ifs at hc with hany
  · obtain ⟨⟨vars, tinfo⟩, hflush, rfl⟩ := Option.map_eq_some_iff.mp hc
    obtain ⟨-, -, hin⟩ := flushSocks_spec List.nodup_range hflush
    refine ⟨nofun, fun sock hsock => ?_, nofun⟩
    obtain ⟨hin', hleft⟩ := (busy_sent_iff.mp hsock).resolve_left (hbegan sock)
    rw [answers, if_pos hany] at hleft
    obtain ⟨hlt, -, hbits⟩ := h.noted sock hin'
    have hbit := hbits (by rw [hat]; exact nofun)
    obtain ⟨hany', hbit'⟩ := (hin sock (List.mem_range.mpr hlt) hbit).resolve_left
      (by rw [hleft]; exact Bool.false_ne_true)
    exact ⟨hlt, hany', fun _ => hbit'⟩
  · rw [← Option.some.inj hc]
    refine ⟨nofun, fun sock hsock => ?_, nofun⟩
    obtain ⟨hin, -⟩ := (busy_sent_iff.mp hsock).resolve_left (hbegan sock)
    exact absurd (h.noted sock hin).2.1 hany

theorem Noted.drain (h : Noted cfg w) {calls : List ThreadInfo.SockreadyCall} {c : Pair}
    (hc : w.pair.nextSender cfg (.drain calls) = some c) :
    Noted cfg (w.sent cfg (.drain calls) c) := by
  obtain ⟨hat, hc⟩ := Option.ite_none_right_eq_some.mp hc
  have hbegan : ∀ sock, began w.pair (.drain calls) sock ≠ true :=
    fun sock hsock => nomatch (began_iff.mp hsock).2
  split_ifs at hc with hany
  · obtain ⟨⟨vars, tinfo⟩, hdrain, rfl⟩ := Option.map_eq_some_iff.mp hc
    obtain ⟨-, hin⟩ := drainSocks_spec (k := 0) hdrain
    refine ⟨fun sock hsock => h.sock sock hsock, fun sock hsock => ?_, fun hdone => ?_⟩
    · obtain ⟨hin', hleft⟩ := (busy_sent_iff.mp hsock).resolve_left (hbegan sock)
      rw [answers, if_pos hany, List.range_eq_range'] at hleft
      obtain ⟨hlt, -, -⟩ := h.noted sock hin'
      have hany' := (hin sock (Nat.zero_le _) (by omega)).resolve_left
        (by rw [hleft]; exact Bool.false_ne_true)
      exact ⟨hlt, hany', fun hne => absurd hat hne⟩
    · exact absurd (hat.symm.trans hdone) nofun
  · rw [← Option.some.inj hc]
    refine ⟨nofun, fun sock hsock => ?_, fun _ => eq_false_of_ne_true hany⟩
    obtain ⟨hin, -⟩ := (busy_sent_iff.mp hsock).resolve_left (hbegan sock)
    exact absurd (h.noted sock hin).2.1 hany

theorem Noted.send (h : Noted cfg w) {result : Except Errno Nat} {c : Pair}
    (hc : w.pair.nextSender cfg (.send result) = some c) :
    Noted cfg (w.sent cfg (.send result) c) := by
  cases hat : w.pair.sender with
  | send q sock length =>
      have hbits : ∀ sock', w.Busy sock' → w.pair.vars.socketbits sock' = true :=
        fun sock' hin => (h.noted sock' hin).2.2 (by simp [hat])
      by_cases hres : result = .error .einprogress
      -- delayed: `do_send` notes the socket
      · subst hres
        simp only [Pair.nextSender, hat, Option.some.injEq] at hc
        rw [← hc]
        refine ⟨by simp [SenderAt.sock], fun sock' hsock' => ?_, by simp⟩
        rcases busy_sent_iff.mp hsock' with hbegan | ⟨hin, -⟩
        · obtain ⟨⟨q', length', hsend⟩, -⟩ := began_iff.mp hbegan
          obtain ⟨-, heq, -⟩ := SenderAt.send.inj (hat.symm.trans hsend)
          exact ⟨h.sock sock' (by rw [hsend]; rfl), rfl, fun _ => if_pos heq.symm⟩
        · refine ⟨(h.noted sock' hin).1, rfl, fun _ => ?_⟩
          dsimp only [sent_pair]
          split_ifs
          · rfl
          · exact hbits sock' hin
      -- sent or failed: no socket is added to those noted
      · have hsame : c.vars = w.pair.vars ∧ c.sender.sock = none ∧ c.sender ≠ .done := by
          simp only [Pair.nextSender, hat] at hc
          split at hc
          · exact absurd rfl hres
          · rw [← Option.some.inj hc]
            exact ⟨rfl, rfl, by simp [Pair.sendAt]⟩
          · rw [← Option.some.inj hc]
            refine ⟨rfl, ?_⟩
            dsimp only [Pair.sendAt]
            split_ifs <;> exact ⟨rfl, by simp⟩
        obtain ⟨hvars, hnone, hdone⟩ := hsame
        refine ⟨fun sock' hsock' => ?_, fun sock' hsock' => ?_, fun hd => absurd hd hdone⟩
        · exact absurd (hnone.symm.trans hsock') (by simp)
        · obtain ⟨hin, -⟩ := (busy_sent_iff.mp hsock').resolve_left fun hbegan =>
            hres (SenderStep.send.inj (began_iff.mp hbegan).2)
          obtain ⟨hlt, hany, -⟩ := h.noted sock' hin
          rw [sent_pair, hvars]
          exact ⟨hlt, hany, fun _ => hbits sock' hin⟩
  | _ => simp [Pair.nextSender, hat] at hc

theorem noted_next (cfg : Config) (w : Watched) (step : Pair.Step) (w' : Watched)
    (h : Noted cfg w) (hstep : StepOf (next cfg) w step w') : Noted cfg w' := by
  obtain ⟨c, hc, rfl⟩ := Option.map_eq_some_iff.mp hstep
  cases step with
  | sender step =>
      cases hmarks : step.marks with
      | true =>
          cases step with
          | flush calls => exact h.flush hc
          | send result => exact h.send hc
          | drain calls => exact h.drain hc
          | _ => cases hmarks
      -- no other step changes the marks or ends `do_send`
      | false =>
          obtain ⟨hany, hbits, hdrain, hdone, hsock⟩ := Pair.nextSender_unmarked hmarks hc
          refine ⟨fun sock hs => (hsock sock hs).elim (h.sock sock) id, fun sock hs => ?_,
            fun hd => absurd hd hdone⟩
          have hin : w.Busy sock := by
            rcases busy_sent_iff.mp hs with hbegan | ⟨hin, -⟩
            · rw [(began_iff.mp hbegan).2] at hmarks
              cases hmarks
            · exact hin
          obtain ⟨hlt, hany', hbit⟩ := h.noted sock hin
          exact ⟨hlt, hany.trans hany', fun _ => (congrFun hbits sock).trans (hbit hdrain)⟩
  | receiver step =>
      obtain ⟨hsender, hvars, -⟩ := (Pair.receives_of_nextReceiver hc).frame
      refine ⟨?_, ?_, ?_⟩
      · rw [hsender]
        exact h.sock
      · rw [hsender, hvars]
        exact h.noted
      · rw [hsender, hvars]
        exact h.done
  | tick now =>
      obtain ⟨-, hc⟩ := Option.ite_none_right_eq_some.mp hc
      rw [← Option.some.inj hc]
      exact ⟨h.sock, h.noted, h.done⟩
  | interrupt =>
      rw [← Option.some.inj hc]
      exact ⟨h.sock, h.noted, h.done⟩

end Watched

/-- **Every send is seen through, or its socket failed.** In every run, whenever `do_send` is at the
head of its loop, a socket with something to send is marked and `any_inprogress` is set, or
`perf_net_sockready` has returned -1 for it since; and once `do_send` is done, every socket that
could not take all of a query has been asked again until it returned 1 or -1. -/
theorem sends_finished_or_dropped (cfg : Config) (now : Nat) (steps : List Pair.Step) (w : Watched)
    (hrun : Run (StepOf (Watched.next cfg)) (Watched.start now) steps w) :
    (w.pair.sender = .top → ∀ sock, w.inProgress sock = true → w.dropped sock = false →
      w.pair.vars.anyInprogress = true ∧ w.pair.vars.socketbits sock = true) ∧
    (w.pair.sender = .done → ∀ sock, w.inProgress sock = true → w.dropped sock = true) := by
  have h := hrun.invariant (Watched.noted_next cfg) (Watched.noted_start cfg now)
  refine ⟨fun hat sock hsock hkept => ?_, fun hdone sock hsock => ?_⟩
  · obtain ⟨-, hany, hbits⟩ := h.noted sock ⟨hsock, hkept⟩
    exact ⟨hany, hbits (by rw [hat]; exact nofun)⟩
  · by_contra hkept
    obtain ⟨-, hany, -⟩ := h.noted sock ⟨hsock, eq_false_of_ne_true hkept⟩
    rw [h.done hdone] at hany
    exact Bool.false_ne_true hany

/-- The end of the input while a query is still being written: the flush in the loop and the first
round after it find the socket busy, the second does not. -/
theorem sends_finished_or_dropped_drained :
    ∃ w : Watched, w.pair.sender = .done ∧ w.pair.tinfo.stats.numSent = 1 ∧
      w.dropped 0 = false ∧ ∀ sock, w.inProgress sock = true → w.dropped sock = true := by
  obtain ⟨w, hrun, hend⟩ := Run.exists_of_follow (fun _ _ => True) (Watched.next Pair.oneSocket)
    (Watched.start 1000)
    (Pair.stampQuery ++ [.send (.error .einprogress), .count, .loop, .throttle,
      .flush [⟨0, []⟩], .limit, .lock [⟨1, []⟩], .input .eof, .drain [⟨0, []⟩], .drain [⟨1, [0]⟩],
      .drain []].map .sender)
    (fun w => w.pair.sender = .done ∧ w.pair.tinfo.stats.numSent = 1 ∧ w.dropped 0 = false)
    (by decide +kernel)
  obtain ⟨hdone, hsent, hkept⟩ := of_decide_eq_true hend
  have hrun := hrun.mono fun _ _ _ h => h.2
  exact ⟨w, hdone, hsent, hkept, (sends_finished_or_dropped Pair.oneSocket 1000 _ w hrun).2 hdone⟩

/-- **A socket can fail with its query kept**: if the wait for a TCP connection times out,
`perf__tcp_sockready` returns -1, and a delayed query stays delayed. -/
theorem perfTcpSockready_timedout {s : PerfTcpSocket} {os : PerfTcpSocket.OsSockready}
    (hconnecting : (s.readyHead os).1.isReady = false) (hwait : os.wait = .timedout) :
    (s.perfTcpSockready os).1 = -1 ∧ (s.perfTcpSockready os).2.1.isSending = s.isSending := by
  have hkept : (s.readyHead os).1.isSending = s.isSending := by
    unfold PerfTcpSocket.readyHead
    split_ifs <;> rfl
  unfold PerfTcpSocket.perfTcpSockready PerfTcpSocket.readyBody PerfTcpSocket.connCont
  generalize s.readyHead os = head at hconnecting hkept ⊢
  simp only [hconnecting, hwait, Bool.false_eq_true, if_false, true_and]
  exact hkept

end Dnsperf.Thread
