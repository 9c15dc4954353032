import Mathlib.Data.Finset.Card
import Dnsperf.Net.TcpFraming

/-!
# Dnsperf.Net.TcpLimit

**The number of queries on one TCP connection.** `QueryLog` collects, connection by connection,
the queries that bytes were written of; a query that is put off keeps its number, so that it
counts on every connection it gets to. `Within` relates the log to `nqpc_sent`.

`perf__tcp_sockready` returns 1 at two places. The one on a connection in use has compared
`nqpc_sent` with `num_queries_per_conn`; the one on a new connection has not, though it may
just have sent a delayed query on it. That is one query at most, so it only matters where one
query is all that a connection may carry.
-/

namespace Dnsperf.Net

open Dnsperf.Lib

/-- The queries, by number, written to the current connection, whose descriptor is `fd`, and to
each earlier one. -/
structure QueryLog where
  fd : Int
  current : Finset Nat
  earlier : List (Finset Nat)

namespace QueryLog

/-- One effect, of a call that deals with query `q`. -/
def record (q : Nat) (l : QueryLog) : NetEffect → QueryLog
  | .opened fd => ⟨fd, ∅, l.current :: l.earlier⟩
  | .wrote fd _ =>
      if fd = l.fd then ⟨l.fd, insert q l.current, l.earlier⟩
      else ⟨l.fd, l.current, {q} :: l.earlier⟩
  | _ => l

/-- The effects of a call, in order. -/
def recordAll (q : Nat) (l : QueryLog) (effects : List NetEffect) : QueryLog :=
  effects.foldl (record q) l

variable {q : Nat} {l : QueryLog}

theorem recordAll_append (es fs : List NetEffect) :
    l.recordAll q (es ++ fs) = (l.recordAll q es).recordAll q fs := List.foldl_append

theorem recordAll_wrote {fd : Int} (h : l.fd = fd) (bytes : Bytes) :
    l.recordAll q [.wrote fd bytes] = ⟨l.fd, insert q l.current, l.earlier⟩ := if_pos h.symm

theorem recordAll_wrote_sent {s : PerfTcpSocket} (hfd : l.fd = s.fd) (bytes : Bytes) :
    l.recordAll q ([.wrote s.fd bytes] ++ if s.hasSent then [.sent s.qid] else []) =
      ⟨l.fd, insert q l.current, l.earlier⟩ := by
  rw [recordAll_append, recordAll_wrote hfd]
  cases hsent : s.hasSent <;> rfl

theorem recordAll_event (l : QueryLog) (c : Bool) (event : SocketEvent) (elapsed : Nat)
    (effects : List NetEffect) :
    l.recordAll q ((if c then [.event event elapsed] else []) ++ effects) =
      l.recordAll q effects := by
  cases c <;> rfl

theorem recordAll_reconnect (l : QueryLog) (s : PerfTcpSocket) (os : OsConnect) :
    l.recordAll q (s.reconnect os).2 = ⟨os.fd, ∅, l.current :: l.earlier⟩ := by
  cases hevent : s.hasEvent <;>
    simp [PerfTcpSocket.reconnect, PerfTcpSocket.perfTcpConnect, recordAll, record, hevent]

end QueryLog

/-! ### The log and the counter -/

/-- The log fits the socket, whose limit is `N`: `nqpc_sent` counts the queries on the current
connection, but for the query `q` that is being sent. -/
structure Within (N q : Nat) (s : PerfTcpSocket) (l : QueryLog) : Prop where
  fd : l.fd = s.fd
  limit : s.numQueriesPerConn = N
  earlier : ∀ qs ∈ l.earlier, qs.card ≤ N
  idle : s.isSending = false → l.current.card ≤ s.nqpcSent
  sending : s.isSending = true → (l.current.erase q).card ≤ s.nqpcSent ∧ s.nqpcSent < N
  sent : s.nqpcSent ≤ N
  connecting : s.isReady = false → s.nqpcSent = 0

/-- A socket that `perf__tcp_sockready` has returned 1 for, and that may carry one more query. -/
structure Returned1 (N : Nat) (s : PerfTcpSocket) : Prop where
  isReady : s.isReady = true
  isSending : s.isSending = false
  sent : s.nqpcSent < N

namespace PerfTcpSocket

variable (s : PerfTcpSocket) (os : OsSockready)

/-- There is a delayed query, and a write takes all that is left of it. -/
def Resends (os : OsWrite) : Prop :=
  s.isSending = true ∧ match os with
    | .ok n => dnslen s.sendbuf + 2 ≤ s.sending + n
    | .error _ => False

/-- `conn_cont` finds the connection established and sends the delayed query there. -/
def ContResends : Prop := os.wait = .success ∧ os.soError = none ∧ s.Resends os.resend

/-- The connection that `perf__tcp_sockready` goes on with is in use. -/
def inUse : Bool :=
  if s.recvNeedReconn = s.fd ∨ s.needReconnect then !os.connect.inProgress else s.isReady

/-- On a connection that is not in use yet, or if going on with a query of which nothing is out
fails, a delayed query comes to `conn_cont` and is sent there. -/
def CarriesOn (inUse : Bool) : Prop :=
  (!inUse || match os.send with
    | .error errno => errno ≠ .eagain && s.sending = 0
    | .ok _ => false) = true ∧ s.ContResends os

/-- **`perf__tcp_sockready` carries a delayed query over** to a connection it finds established. -/
def Carries : Prop := s.CarriesOn os (s.inUse os)

instance (os : OsWrite) : Decidable (s.Resends os) :=
  match os with
  | .ok _ | .error _ => inferInstanceAs (Decidable (_ ∧ _))

instance : Decidable (s.Carries os) := inferInstanceAs (Decidable (_ ∧ _ ∧ _ ∧ _))

end PerfTcpSocket

namespace Within

variable {N q : Nat} {s s' : PerfTcpSocket} {l : QueryLog}

theorem card_le (h : Within N q s l) : ∀ qs ∈ l.current :: l.earlier, qs.card ≤ N := by
  intro qs hqs
  rcases List.mem_cons.mp hqs with rfl | hqs
  · cases hsend : s.isSending with
    | false => exact (h.idle hsend).trans h.sent
    | true =>
        obtain ⟨hcard, hlt⟩ := h.sending hsend
        have herase : l.current.card - 1 ≤ (l.current.erase q).card :=
          Finset.pred_card_le_card_erase
        omega
  · exact h.earlier qs hqs

theorem congr (h : Within N q s l) (hfd : s'.fd = s.fd)
    (hlimit : s'.numQueriesPerConn = s.numQueriesPerConn) (hsend : s'.isSending = s.isSending)
    (hsent : s'.nqpcSent = s.nqpcSent) (hready : s'.isReady = false → s.isReady = false) :
    Within N q s' l where
  fd := h.fd.trans hfd.symm
  limit := hlimit.trans h.limit
  earlier := h.earlier
  idle := by rw [hsend, hsent]; exact h.idle
  sending := by rw [hsend, hsent]; exact h.sending
  sent := by rw [hsent]; exact h.sent
  connecting := fun hconn => hsent.trans (h.connecting (hready hconn))

theorem reopen (h : Within N q s l) (hN : 1 ≤ N)
    (hlimit : s'.numQueriesPerConn = s.numQueriesPerConn) (hsent : s'.nqpcSent = 0) :
    Within N q s' ⟨s'.fd, ∅, l.current :: l.earlier⟩ where
  fd := rfl
  limit := hlimit.trans h.limit
  earlier := h.card_le
  idle := fun _ => Nat.zero_le _
  sending := fun _ => ⟨Nat.zero_le _, by omega⟩
  sent := by omega
  connecting := fun _ => hsent

/-! ### Readiness -/

/-- Going on with a query: a write, and then some of it is still missing or it is out. -/
theorem flush_cases (s : PerfTcpSocket) (n : Nat) :
    ∃ bytes, (∃ k, s.flush n = (false, { s with sending := k }, [.wrote s.fd bytes])) ∨
      s.flush n =
        (true, { s with sending := 0, isSending := false, nqpcSent := (s.nqpcSent + 1) % 2 ^ 32 },
          [.wrote s.fd bytes] ++ if s.hasSent then [.sent s.qid] else []) := by
  unfold PerfTcpSocket.flush
  dsimp only
  by_cases hpart : s.sending + min n ((s.sendbuf.take (dnslen s.sendbuf + 2)).drop s.sending).length
      < dnslen s.sendbuf + 2
  · rw [if_pos hpart]
    exact ⟨_, Or.inl ⟨_, rfl⟩⟩
  · rw [if_neg hpart]
    exact ⟨_, Or.inr rfl⟩

/-- **Going on with a query**: it is counted when it is out. -/
theorem flush (h : Within N q s l) (hN : N < 2 ^ 32) (hsend : s.isSending = true)
    (hready : s.isReady = true) (n : Nat) :
    Within N q (s.flush n).2.1 (l.recordAll q (s.flush n).2.2) ∧
      (s.flush n).2.1.isReady = true ∧
      ((s.flush n).1 = true → (s.flush n).2.1.isSending = false ∧
        (s.flush n).2.1.nqpcSent = s.nqpcSent + 1) := by
  obtain ⟨hcard, hlt⟩ := h.sending hsend
  have hmod : (s.nqpcSent + 1) % 2 ^ 32 = s.nqpcSent + 1 := Nat.mod_eq_of_lt (by omega)
  have herase : (insert q l.current).erase q = l.current.erase q := Finset.erase_insert_eq_erase ..
  obtain ⟨bytes, ⟨k, hflush⟩ | hflush⟩ := flush_cases s n
  · rw [hflush, QueryLog.recordAll_wrote h.fd]
    refine ⟨⟨h.fd, h.limit, h.earlier, fun hidle => ?_, fun _ => ⟨?_, hlt⟩, h.sent, h.connecting⟩,
      hready, nofun⟩
    · exact nomatch hsend.symm.trans hidle
    · rw [herase]
      exact hcard
  · rw [hflush, QueryLog.recordAll_wrote_sent h.fd, hmod]
    refine ⟨⟨h.fd, h.limit, h.earlier, fun _ => ?_, nofun, hlt, fun hconn => ?_⟩, hready,
      fun _ => ⟨rfl, rfl⟩⟩
    · have hpred : (insert q l.current).card - 1 ≤ ((insert q l.current).erase q).card :=
        Finset.pred_card_le_card_erase
      rw [herase] at hpred
      exact Nat.le_add_of_sub_le (hpred.trans hcard)
    · exact nomatch hready.symm.trans hconn

/-- What a call that may return 1 keeps. Without a delayed query `carried` over, or with more than
one query per connection, there is then room for another query. -/
structure Keeps (N q : Nat) (l : QueryLog) (carried : Prop)
    (r : Int × PerfTcpSocket × List NetEffect) : Prop where
  within : Within N q r.2.1 (l.recordAll q r.2.2)
  ready : (N = 1 → ¬ carried) → r.1 = 1 → Returned1 N r.2.1

/-- A call that does not return 1 only has to keep the bound. -/
theorem keeps {es : List NetEffect} {code : Int} {carried : Prop}
    (h : Within N q s (l.recordAll q es)) (hcode : code ≠ 1) : Keeps N q l carried (code, s, es) :=
  ⟨h, fun _ hone => absurd hone hcode⟩

theorem Keeps.mono {carried C : Prop} {r : Int × PerfTcpSocket × List NetEffect}
    (h : Keeps N q l carried r) (himp : carried → C) : Keeps N q l C r :=
  ⟨h.within, fun hnone => h.ready fun hN hcarried => hnone hN (himp hcarried)⟩

theorem resends_of_flush {n : Nat} (hsend : s.isSending = true) (h : (s.flush n).1 = true) :
    s.Resends (.ok n) := by
  refine ⟨hsend, ?_⟩
  unfold PerfTcpSocket.flush at h
  dsimp only at h ⊢
  by_cases hpart : s.sending + min n ((s.sendbuf.take (dnslen s.sendbuf + 2)).drop s.sending).length
      < dnslen s.sendbuf + 2
  · rw [if_pos hpart] at h
    exact absurd h Bool.false_ne_true
  · omega

/-- A delayed query is the first one on its connection. -/
theorem resend (h : Within N q s l) (hN : 1 ≤ N) (hlt : N < 2 ^ 32) (hzero : s.nqpcSent = 0)
    (hready : s.isReady = true) (os : OsWrite) : Keeps N q l (s.Resends os) (s.resend os) := by
  unfold PerfTcpSocket.resend
  by_cases hsend : s.isSending = true
  · rw [if_pos hsend]
    cases os with
    | error errno =>
        by_cases hagain : errno ≠ .eagain
        · simp only [if_pos hagain]
          exact keeps (h.congr rfl rfl rfl rfl id) (by decide)
        · simp only [if_neg hagain]
          exact h.keeps (by decide)
    | ok n =>
        obtain ⟨hwithin, hready', hdone⟩ := h.flush hlt hsend hready n
        refine ⟨hwithin, fun hnone hone => ?_⟩
        have hall : (s.flush n).1 = true := by
          by_contra hpart
          simp only [if_neg hpart] at hone
          exact nomatch hone
        obtain ⟨hidle, hsent⟩ := hdone hall
        have hmore : N ≠ 1 := fun hone => hnone hone (resends_of_flush hsend hall)
        exact ⟨hready', hidle, hsent.trans_lt (by omega)⟩
  · rw [if_neg hsend]
    exact ⟨h, fun _ _ => ⟨hready, Bool.eq_false_iff.mpr hsend, hzero.trans_lt hN⟩⟩

theorem connCont (h : Within N q s l) (hN : 1 ≤ N) (hlt : N < 2 ^ 32) (hzero : s.nqpcSent = 0)
    (os : PerfTcpSocket.OsSockready) : Keeps N q l (s.ContResends os) (s.connCont os) := by
  unfold PerfTcpSocket.connCont PerfTcpSocket.ContResends
  cases os.wait with
  | success =>
      cases os.soError with
      | some errno =>
          by_cases hagain : errno = .einprogress ∨ errno = .eagain
          · simp only [if_pos hagain]
            exact h.keeps (by decide)
          · simp only [if_neg hagain]
            exact keeps (h.congr rfl rfl rfl rfl id) (by decide)
      | none =>
          have hest : Within N q s.established l := h.congr rfl rfl rfl rfl Bool.noConfusion
          obtain ⟨hwithin, hready⟩ := (hest.resend hN hlt hzero rfl os.resend).mono
            (C := _ ∧ _ ∧ s.Resends os.resend) fun hresends => ⟨rfl, rfl, hresends⟩
          refine ⟨?_, hready⟩
          rw [QueryLog.recordAll_event]
          exact hwithin
  | _ => exact h.keeps (by decide)

/-- The check of `num_queries_per_conn` lets no query pass that would be one too many. -/
theorem checkQueries (h : Within N q s l) (hN : 1 ≤ N) (hready : s.isReady = true)
    (hsend : s.isSending = false) (os : PerfTcpSocket.OsSockready) (carried : Prop) :
    Keeps N q l carried ((s.checkQueries os).1, (s.checkQueries os).2, []) := by
  have hlimit := h.limit
  simp only [PerfTcpSocket.checkQueries]
  split_ifs with hfull
  · exact keeps (h.congr rfl rfl rfl rfl id) Int.zero_ne_one
  · exact keeps (h.congr rfl rfl rfl rfl id) Int.zero_ne_one
  · exact keeps (h.congr rfl rfl rfl rfl id) Int.zero_ne_one
  · exact h.keeps Int.zero_ne_one
  · have hroom : s.nqpcSent < N := by omega
    exact ⟨h, fun _ _ => ⟨hready, hsend, hroom⟩⟩

/-- Of a query that is not given up nothing was out. -/
theorem contResends_giveUp {os : PerfTcpSocket.OsSockready} (h : s.giveUp.ContResends os) :
    s.sending = 0 ∧ s.ContResends os := by
  unfold PerfTcpSocket.giveUp at h
  split_ifs at h with hout
  · exact absurd h.2.2.1 Bool.false_ne_true
  · exact ⟨not_not.mp hout, h⟩

theorem sendFailed (h : Within N q s l) (hN : 1 ≤ N) (hlt : N < 2 ^ 32)
    (os : PerfTcpSocket.OsSockready) :
    Keeps N q l (s.sending = 0 ∧ s.ContResends os) (s.sendFailed os) := by
  set s' := (s.reconnect os.reconnect).1 with hs'
  have hkept : s'.giveUp.fd = os.reconnect.fd ∧
      s'.giveUp.numQueriesPerConn = s.numQueriesPerConn ∧ s'.giveUp.nqpcSent = 0 := by
    unfold PerfTcpSocket.giveUp
    split_ifs <;> exact ⟨rfl, rfl, rfl⟩
  obtain ⟨hfd, hlimit, hsent⟩ := hkept
  obtain ⟨hwithin, hready⟩ := ((h.reopen hN hlimit hsent).connCont hN hlt hsent os).mono
    (C := s.sending = 0 ∧ s.ContResends os) contResends_giveUp
  refine ⟨?_, hready⟩
  rw [hfd, ← QueryLog.recordAll_reconnect l s os.reconnect, ← QueryLog.recordAll_append] at hwithin
  exact hwithin

theorem readyBody (h : Within N q s l) (hN : 1 ≤ N) (hlt : N < 2 ^ 32)
    (os : PerfTcpSocket.OsSockready) : Keeps N q l (s.CarriesOn os s.isReady) (s.readyBody os) := by
  unfold PerfTcpSocket.readyBody PerfTcpSocket.CarriesOn
  by_cases hready : s.isReady = true
  · rw [if_pos hready]
    by_cases hsend : s.isSending = true
    · rw [if_pos hsend]
      cases os.send with
      | error errno =>
          by_cases hagain : errno = .eagain
          · simp only [if_pos hagain]
            exact h.keeps (by decide)
          · simp only [if_neg hagain]
            refine (h.sendFailed hN hlt os).mono fun hcont => ⟨?_, hcont.2⟩
            simp [hagain, hcont.1]
      | ok n =>
          obtain ⟨hwithin, hready', hdone⟩ := h.flush hlt hsend hready n
          by_cases hall : (s.flush n).1 = true
          · simp only [if_pos hall]
            obtain ⟨hwithin, hone⟩ := hwithin.checkQueries hN hready' (hdone hall).1 os _
            exact ⟨hwithin, hone⟩
          · simp only [if_neg hall]
            exact hwithin.keeps (by decide)
    · rw [if_neg hsend]
      obtain ⟨hwithin, hone⟩ := h.checkQueries hN hready (Bool.eq_false_iff.mpr hsend) os _
      exact ⟨hwithin, hone⟩
  · rw [if_neg hready]
    have hunready := Bool.eq_false_iff.mpr hready
    refine (h.connCont hN hlt (h.connecting hunready) os).mono fun hcont => ⟨?_, hcont⟩
    rw [hunready]
    rfl

theorem readyHead (h : Within N q s l) (hN : 1 ≤ N) (os : PerfTcpSocket.OsSockready) :
    Within N q (s.readyHead os).1 (l.recordAll q (s.readyHead os).2) := by
  unfold PerfTcpSocket.readyHead
  split_ifs with hneed
  · rw [QueryLog.recordAll_reconnect]
    exact h.reopen hN rfl rfl
  · exact h

theorem carries_readyHead {os : PerfTcpSocket.OsSockready}
    (h : (s.readyHead os).1.CarriesOn os (s.readyHead os).1.isReady) : s.Carries os := by
  unfold PerfTcpSocket.readyHead at h
  unfold PerfTcpSocket.Carries PerfTcpSocket.inUse
  split_ifs at h ⊢ with hneed
  · exact h
  · exact h

/-- **`perf__tcp_sockready`**. -/
theorem perfTcpSockready (h : Within N q s l) (hN : 1 ≤ N) (hlt : N < 2 ^ 32)
    (os : PerfTcpSocket.OsSockready) : Keeps N q l (s.Carries os) (s.perfTcpSockready os) := by
  obtain ⟨hwithin, hready⟩ := ((h.readyHead hN os).readyBody hN hlt os).mono carries_readyHead
  unfold PerfTcpSocket.perfTcpSockready
  refine ⟨?_, hready⟩
  rw [QueryLog.recordAll_append]
  exact hwithin

/-! ### Sending -/

/-- **`perf__tcp_sendto`**, on a connection that may carry one more query. -/
theorem perfTcpSendto (h : Within N q s l) (hlt : N < 2 ^ 32) (hready : Returned1 N s)
    (q' : Nat) (qid : UInt16) (buf : Bytes) (os : OsWrite) :
    Within N q' (s.perfTcpSendto qid buf os).2.1
      (l.recordAll q' (s.perfTcpSendto qid buf os).2.2) := by
  obtain ⟨hisReady, hidle, hroom⟩ := hready
  have hcard := h.idle hidle
  have hmod : (s.nqpcSent + 1) % 2 ^ 32 = s.nqpcSent + 1 := Nat.mod_eq_of_lt (by omega)
  have hconn {s' : PerfTcpSocket} (heq : s'.isReady = s.isReady) :
      s'.isReady = false → s'.nqpcSent = 0 := fun hfalse =>
    nomatch (heq.trans hisReady).symm.trans hfalse
  obtain ⟨hbuf, hlen⟩ := sendbuf_eq_frame buf
  set p := buf.take maxPayload
  -- put off to `perf__tcp_sockready`: not counted yet, and no byte of it is out
  have hdelay : Within N q' { s with sendbuf := frame p, qid := qid }.delay l :=
    ⟨h.fd, h.limit, h.earlier, nofun, fun _ => ⟨Finset.card_erase_le.trans hcard, hroom⟩, h.sent,
      hconn rfl⟩
  unfold PerfTcpSocket.perfTcpSendto
  simp only [hbuf, hlen]
  by_cases hneed : s.recvNeedReconn = s.fd
  · rw [if_pos hneed]
    exact hdelay
  · rw [if_neg hneed]
    cases os with
    | error errno =>
        cases errno with
        | econnrefused | econnreset | enotconn | epipe => exact hdelay
        | _ =>
            refine ⟨h.fd, h.limit, h.earlier, fun _ => hcard, fun hsend => ?_, h.sent, h.connecting⟩
            exact nomatch hidle.symm.trans hsend
    | ok n =>
        by_cases hpart : min n (frame p).length < (frame p).length
        -- a part of it is out, so the query is on this connection and will be counted
        · simp only [if_pos hpart]
          rw [QueryLog.recordAll_wrote h.fd]
          refine ⟨h.fd, h.limit, h.earlier, nofun, fun _ => ⟨?_, hroom⟩, h.sent, hconn rfl⟩
          calc ((insert q' l.current).erase q').card
              = (l.current.erase q').card := by rw [Finset.erase_insert_eq_erase]
            _ ≤ l.current.card := Finset.card_erase_le
            _ ≤ s.nqpcSent := hcard
        · simp only [if_neg hpart]
          rw [QueryLog.recordAll_wrote h.fd, hmod]
          refine ⟨h.fd, h.limit, h.earlier, fun _ => ?_, fun hsend => ?_, hroom, hconn rfl⟩
          · exact (Finset.card_insert_le _ _).trans (Nat.add_le_add_right hcard 1)
          · exact nomatch hidle.symm.trans hsend

end Within

/-! ### Runs -/

/-- What a call does outside the socket. -/
def Sending.effects (c : Sending) : Sending.Event → List NetEffect
  | .sendto qid buf os => (c.sock.perfTcpSendto qid buf os).2.2
  | .sockready os => (c.sock.perfTcpSockready os).2.2
  | .receiver .. => []

/-- The socket in use, and which queries went to which connection. A query's number says how
many have been handed over, with it. -/
structure Counting where
  sending : Sending
  log : QueryLog

namespace Counting

/-- The socket just opened. -/
def start (os : OsConnect) (hasSent hasEvent : Bool) (numQueriesPerConn nqpcTimeout : Nat) :
    Counting :=
  ⟨Sending.start os hasSent hasEvent numQueriesPerConn nqpcTimeout, ⟨os.fd, ∅, []⟩⟩

/-- One call. It deals with the query that was handed over last. -/
def next (c : Counting) (e : Sending.Event) : Option Counting :=
  (c.sending.next e).map fun sending =>
    ⟨sending, c.log.recordAll sending.queries.length (c.sending.effects e)⟩

/-- With one query per connection, `perf__tcp_sockready` carries no delayed query over. -/
def NoneCarried (c : Counting) : Sending.Event → Prop
  | .sockready os => c.sending.sock.numQueriesPerConn = 1 → ¬ c.sending.sock.Carries os
  | _ => True

instance (c : Counting) : (e : Sending.Event) → Decidable (c.NoneCarried e)
  | .sockready _ => inferInstanceAs (Decidable (_ → ¬ _))
  | .sendto .. | .receiver .. => inferInstanceAs (Decidable True)

/-- What every guarded step keeps. -/
structure Inv (N : Nat) (c : Counting) : Prop where
  within : Within N c.sending.queries.length c.sending.sock c.log
  ready : c.sending.ready = true → Returned1 N c.sending.sock

theorem inv_start (N : Nat) (os : OsConnect) (hasSent hasEvent : Bool) (nqpcTimeout : Nat) :
    Inv N (start os hasSent hasEvent N nqpcTimeout) where
  within :=
    ⟨rfl, rfl, nofun, fun _ => Nat.zero_le _, nofun, Nat.zero_le _, fun _ => rfl⟩
  ready := nofun

theorem inv_step {N : Nat} (hN : 1 ≤ N) (hlt : N < 2 ^ 32) (c : Counting) (e : Sending.Event)
    (c' : Counting) (h : Inv N c) (hstep : Guarded NoneCarried (StepOf next) c e c') :
    Inv N c' := by
  obtain ⟨hcarried, hstep⟩ := hstep
  obtain ⟨sending, hsending, rfl⟩ := Option.map_eq_some_iff.mp hstep
  cases e with
  | sendto qid buf os =>
      obtain ⟨hready, hc'⟩ := Option.ite_none_right_eq_some.mp hsending
      obtain rfl := Option.some.inj hc'
      exact ⟨h.within.perfTcpSendto hlt (h.ready hready) _ qid buf os, nofun⟩
  | sockready os =>
      obtain rfl := Option.some.inj hsending
      obtain ⟨hwithin, hready⟩ := h.within.perfTcpSockready hN hlt os
      exact ⟨hwithin, fun hone =>
        hready (fun hN1 => hcarried (h.within.limit.trans hN1)) (of_decide_eq_true hone)⟩
  | receiver recv recvfd recvNeedReconn nqpcRecv =>
      obtain rfl := Option.some.inj hsending
      refine ⟨h.within.congr rfl rfl rfl rfl id, fun hready => ?_⟩
      obtain ⟨hisReady, hidle, hsent⟩ := h.ready hready
      exact ⟨hisReady, hidle, hsent⟩

end Counting

/-- **No connection carries more than `num_queries_per_conn` queries**, in every run in which,
should that be one query, no delayed query is carried over: sent by the `perf__tcp_sockready` call
that finds the new connection there. The counter has 32 bits, and so has the limit. -/
theorem queries_per_conn_le (os : OsConnect) (hasSent hasEvent : Bool) (N nqpcTimeout : Nat)
    (hN : 1 ≤ N) (hlt : N < 2 ^ 32) (es : List Sending.Event) (c : Counting)
    (hrun : Run (Guarded Counting.NoneCarried (StepOf Counting.next))
      (Counting.start os hasSent hasEvent N nqpcTimeout) es c) :
    ∀ qs ∈ c.log.current :: c.log.earlier, qs.card ≤ N :=
  (hrun.invariant (Counting.inv_step hN hlt) (Counting.inv_start N ..)).within.card_le

/-- With two queries per connection: the first is delayed by the receiver, the second joins it
on the next connection, and the third has to wait for another one. -/
theorem queries_per_conn_le_two :
    ∃ c : Counting, c.log.current :: c.log.earlier = [{3}, {1, 2}, ∅] ∧
      ∀ qs ∈ c.log.current :: c.log.earlier, qs.card ≤ 2 := by
  obtain ⟨c, hrun, hlog⟩ := Run.exists_of_follow Counting.NoneCarried Counting.next
    (Counting.start ⟨5, true, 0⟩ true true 2 0)
    [.sockready (readyWith 6 (.ok 9)), .receiver RecvBuf.empty 5 5 0, .sendto 1 [7] (.ok 9),
      .sockready (readyWith 6 (.ok 9)), .sendto 2 [8] (.ok 9),
      .sockready { readyWith 7 (.ok 9) with nqpcRecv := 2 }, .sockready (readyWith 7 (.ok 9)),
      .sendto 3 [9] (.ok 9)]
    (fun c => c.log.current :: c.log.earlier = [{3}, {1, 2}, ∅]) (by decide)
  exact ⟨c, of_decide_eq_true hlog,
    queries_per_conn_le _ _ _ 2 _ (by decide) (by decide) _ c hrun⟩

/-- **Two queries on a connection that may carry one**: the first is delayed because the
receiver asks for a new connection, and `perf__tcp_sockready` sends it there and returns 1. Both
are written in full. -/
theorem two_queries_on_one_query_conn :
    ∃ es c, Run (StepOf Counting.next) (Counting.start ⟨5, true, 0⟩ true true 1 0) es c ∧
      c.sending.log = ⟨6, frame [7] ++ frame [8], [[]]⟩ ∧
      ¬ ∀ qs ∈ c.log.current :: c.log.earlier, qs.card ≤ 1 := by
  obtain ⟨c, hrun, hend⟩ := Run.exists_of_follow (fun _ _ => True) Counting.next
    (Counting.start ⟨5, true, 0⟩ true true 1 0)
    [.sockready (readyWith 6 (.ok 9)), .receiver RecvBuf.empty 5 5 0, .sendto 1 [7] (.ok 9),
      .sockready (readyWith 6 (.ok 9)), .sendto 2 [8] (.ok 9)]
    (fun c => c.sending.log = ⟨6, frame [7] ++ frame [8], [[]]⟩ ∧ c.log.current = {1, 2})
    (by decide)
  obtain ⟨hlog, hcurrent⟩ := of_decide_eq_true hend
  refine ⟨_, c, hrun.mono fun _ _ _ hstep => hstep.2, hlog, fun hle => ?_⟩
  have hcard := hle _ List.mem_cons_self
  rw [hcurrent] at hcard
  exact absurd hcard (by decide)

end Dnsperf.Net
