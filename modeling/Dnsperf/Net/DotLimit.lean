import Dnsperf.Net.DotFraming
import Dnsperf.Net.TcpLimit

/-!
# Dnsperf.Net.DotLimit

**The number of queries on one TLS connection**, in any interleaving of the two threads of a
socket. The log is that of `TcpLimit`: which queries were written to which connection.

Unlike `perf__tcp_sockready`, `perf__dot_sockready` returns 1 only after a look at `nqpc_sent` or
right after the handshake, before anything was written. And although `nqpc_sent++` comes after the
lock has been released, so that the receiving thread may have replaced the connection and set the
counter back, the counter is then only too high: it never counts less than was written.

`LimitAt` says for every place of the sending thread how the counter and the log compare. A query
is `Due` while it is delayed, and `Out` from its write to its count.
-/

namespace Dnsperf.Net.DotLimit

open Dnsperf.Lib PerfDotSocket

/-! ### The counter and the log -/

/-- The fields of the socket that matter here. -/
structure View where
  isSending : Bool
  isReady : Bool
  nqpcSent : Nat

def view (s : PerfDotSocket) : View := ⟨s.isSending, s.isReady, s.nqpcSent⟩

variable {N q : Nat} {v : View} {cur : Finset Nat}

/-- Every query written is counted. -/
structure Open (N : Nat) (v : View) (cur : Finset Nat) : Prop where
  counted : cur.card ≤ v.nqpcSent
  card : cur.card ≤ N
  bound : v.nqpcSent ≤ N + 1
  unready : v.isReady = false → v.nqpcSent ≤ 1

/-- The query `q` is to be written, or the rest of it, and then counted. -/
structure Due (N q : Nat) (v : View) (cur : Finset Nat) : Prop where
  counted : (cur.erase q).card ≤ v.nqpcSent
  card : (insert q cur).card ≤ N
  bound : v.nqpcSent ≤ N
  unready : v.isReady = false → v.nqpcSent ≤ 1

/-- The query `q` was written, and has not been counted. -/
structure Out (N q : Nat) (v : View) (cur : Finset Nat) : Prop where
  counted : (cur.erase q).card ≤ v.nqpcSent
  card : (insert q cur).card ≤ N
  bound : v.nqpcSent ≤ N
  unready : v.isReady = false → v.nqpcSent = 0

/-- There is room for another query. -/
structure Room (N : Nat) (v : View) (cur : Finset Nat) : Prop where
  counted : cur.card ≤ v.nqpcSent
  card : cur.card + 1 ≤ N
  bound : v.nqpcSent ≤ N
  unready : v.isReady = false → v.nqpcSent ≤ 1

/-- Nothing was written to the connection. -/
structure Blank (v : View) (cur : Finset Nat) : Prop where
  empty : cur = ∅
  bound : v.nqpcSent ≤ 1

/-- Between two calls. -/
structure Between (N q : Nat) (v : View) (cur : Finset Nat) : Prop where
  due : v.isSending = true → Due N q v cur
  idle : v.isSending = false → Open N v cur

theorem Out.due (h : Out N q v cur) : Due N q v cur :=
  ⟨h.counted, h.card, h.bound, fun hr => by rw [h.unready hr]; exact Nat.zero_le 1⟩

/-- `nqpc_sent++`, which does not wrap. -/
theorem Out.count (h : Out N q v cur) (hlt : N + 1 < 2 ^ 32) :
    Open N { v with nqpcSent := (v.nqpcSent + 1) % 2 ^ 32 } cur := by
  have hbound := h.bound
  rw [Nat.mod_eq_of_lt (by omega : v.nqpcSent + 1 < 2 ^ 32)]
  refine ⟨?_, (Finset.card_le_card (Finset.subset_insert q cur)).trans h.card,
    Nat.succ_le_succ hbound, fun hr => ?_⟩
  · have hcard : cur.card - 1 ≤ (cur.erase q).card := Finset.pred_card_le_card_erase
    have := h.counted
    show cur.card ≤ v.nqpcSent + 1
    omega
  · show v.nqpcSent + 1 ≤ 1
    rw [h.unready hr]

/-- The query is written, on a connection that is there. -/
theorem Due.write (h : Due N q v cur) (hready : v.isReady = true) :
    Out N q v (insert q cur) where
  counted := by rw [Finset.erase_insert_eq_erase]; exact h.counted
  card := by rw [Finset.insert_idem]; exact h.card
  bound := h.bound
  unready := fun hr => absurd (hready.symm.trans hr) nofun

theorem Room.due (h : Room N v cur) (q : Nat) : Due N q v cur where
  counted := Finset.card_erase_le.trans h.counted
  card := (Finset.card_insert_le q cur).trans h.card
  bound := h.bound
  unready := h.unready

theorem Room.open (h : Room N v cur) : Open N v cur :=
  ⟨h.counted, Nat.le_of_succ_le h.card, Nat.le_succ_of_le h.bound, h.unready⟩

theorem Open.between (h : Open N v cur) (hidle : v.isSending = false) : Between N q v cur :=
  ⟨fun hs => absurd (hidle.symm.trans hs) nofun, fun _ => h⟩

theorem Blank.room (h : Blank v cur) (hN : 1 ≤ N) : Room N v cur where
  counted := by rw [h.empty]; exact Nat.zero_le _
  card := by rw [h.empty]; exact hN
  bound := h.bound.trans hN
  unready := fun _ => h.bound

theorem Blank.between (h : Blank v cur) (hN : 1 ≤ N) : Between N q v cur :=
  ⟨fun _ => (h.room hN).due q, fun _ => (h.room hN).open⟩

theorem Between.card_le (h : Between N q v cur) : cur.card ≤ N := by
  cases hsend : v.isSending with
  | true => exact (Finset.card_le_card (Finset.subset_insert q cur)).trans (h.due hsend).card
  | false => exact (h.idle hsend).card

theorem Between.bound (h : Between N q v cur) : v.nqpcSent ≤ N + 1 := by
  cases hsend : v.isSending with
  | true => exact Nat.le_succ_of_le (h.due hsend).bound
  | false => exact (h.idle hsend).bound

theorem Between.unready (h : Between N q v cur) : v.isReady = false → v.nqpcSent ≤ 1 := by
  cases hsend : v.isSending with
  | true => exact (h.due hsend).unready
  | false => exact (h.idle hsend).unready

/-! ### Where the sending thread is -/

/-- The counter and the log, for each place the sending thread can be at. -/
inductive LimitAt (N q : Nat) (v : View) (cur : Finset Nat) : DotProg → Prop
  | returned {ret : DotRet} : Between N q v cur →
      (ret = .sockready 1 → v.isSending = false ∧ Room N v cur) → LimitAt N q v cur (.ret ret)
  | sockready (os : PerfDotSocket.OsSockready) : Between N q v cur →
      LimitAt N q v cur (sockreadyProg os)
  | sendto (qid : UInt16) (buf : Bytes) (write : SslWrite) (connect : OsConnect) :
      v.isSending = false → Room N v cur → LimitAt N q v cur (sendtoProg qid buf write connect)
  | add (os : PerfDotSocket.OsSockready) (n dnslen : Nat) : Out N q v cur →
      (v.isSending = false → cur = ∅) → LimitAt N q v cur (addProg os n dnslen)
  | check (os : PerfDotSocket.OsSockready) (dnslen : Nat) : Out N q v cur →
      (v.isSending = false → cur = ∅) → LimitAt N q v cur (checkProg os dnslen)
  | zero (os : PerfDotSocket.OsSockready) : Out N q v cur → LimitAt N q v cur (zeroProg os)
  | clear (os : PerfDotSocket.OsSockready) : Out N q v cur → LimitAt N q v cur (clearProg os)
  | sent (os : PerfDotSocket.OsSockready) : v.isSending = false → Out N q v cur →
      LimitAt N q v cur (sentProg os)
  | count (os : PerfDotSocket.OsSockready) : v.isSending = false → Out N q v cur →
      LimitAt N q v cur (countProg os)
  | sentWhole (n : Nat) : v.isSending = false → Out N q v cur →
      LimitAt N q v cur (sentWholeProg n)
  | queries (os : PerfDotSocket.OsSockready) : v.isSending = false → Open N v cur →
      LimitAt N q v cur (queriesProg os)
  | stamp (os : PerfDotSocket.OsSockready) : v.isSending = false → Open N v cur →
      LimitAt N q v cur (stampProg os)
  | timeout (os : PerfDotSocket.OsSockready) : v.isSending = false → Open N v cur →
      LimitAt N q v cur (timeoutProg os)
  | replace (os : PerfDotSocket.OsSockready) : v.isSending = false → Open N v cur →
      LimitAt N q v cur (replaceProg os)
  | connected (os : PerfDotSocket.OsSockready) : Blank v cur → LimitAt N q v cur (connectedProg os)
  | ask : Blank v cur → LimitAt N q v cur askProg

theorem LimitAt.card_le {p : DotProg} (h : LimitAt N q v cur p) (hN : 1 ≤ N) :
    cur.card ≤ N ∧ v.nqpcSent ≤ N + 1 := by
  have hout : Out N q v cur → cur.card ≤ N ∧ v.nqpcSent ≤ N + 1 := fun h =>
    ⟨(Finset.card_le_card (Finset.subset_insert q cur)).trans h.card, Nat.le_succ_of_le h.bound⟩
  cases h with
  | returned h _ | sockready _ h => exact ⟨h.card_le, h.bound⟩
  | sendto _ _ _ _ _ h => exact ⟨h.open.card, h.open.bound⟩
  | add _ _ _ h _ | check _ _ h _ | zero _ h | clear _ h | sent _ _ h | count _ _ h
  | sentWhole _ _ h => exact hout h
  | queries _ _ h | stamp _ _ h | timeout _ _ h | replace _ _ h => exact ⟨h.card, h.bound⟩
  | connected _ h | ask h => exact ⟨(h.room hN).open.card, (h.room hN).open.bound⟩

/-- **The receiving thread replaces the connection**, wherever the sending thread is. -/
theorem LimitAt.reconnected {p : DotProg} (h : LimitAt N q v cur p) (hN : 1 ≤ N) {isSending : Bool}
    (hkept : v.isSending = false → isSending = false) :
    LimitAt N q ⟨isSending, false, 0⟩ ∅ p := by
  have hblank : Blank ⟨isSending, false, 0⟩ ∅ := ⟨rfl, Nat.zero_le 1⟩
  have hroom := hblank.room hN
  have hout : Out N q ⟨isSending, false, 0⟩ ∅ :=
    ⟨(hroom.due q).counted, (hroom.due q).card, Nat.zero_le N, fun _ => rfl⟩
  cases h with
  | returned _ hone =>
      exact .returned (hblank.between hN) fun hret => ⟨hkept (hone hret).1, hroom⟩
  | sockready os _ => exact .sockready os (hblank.between hN)
  | sendto qid buf write connect hsend _ => exact .sendto qid buf write connect (hkept hsend) hroom
  | add os n dnslen _ _ => exact .add os n dnslen hout fun _ => rfl
  | check os dnslen _ _ => exact .check os dnslen hout fun _ => rfl
  | zero os _ => exact .zero os hout
  | clear os _ => exact .clear os hout
  | sent os hsend _ => exact .sent os (hkept hsend) hout
  | count os hsend _ => exact .count os (hkept hsend) hout
  | sentWhole n hsend _ => exact .sentWhole n (hkept hsend) hout
  | queries os hsend _ => exact .queries os (hkept hsend) hroom.open
  | stamp os hsend _ => exact .stamp os (hkept hsend) hroom.open
  | timeout os hsend _ => exact .timeout os (hkept hsend) hroom.open
  | replace os hsend _ => exact .replace os (hkept hsend) hroom.open
  | connected os _ => exact .connected os hblank
  | ask _ => exact .ask hblank

/-! ### Steps -/

/-- The log is that of the connection, which has carried nothing before it is ready. -/
structure Ledger (N : Nat) (l : QueryLog) (fd : Int) (numQueriesPerConn : Nat) (isReady : Bool) :
    Prop where
  fd : l.fd = fd
  limit : numQueriesPerConn = N
  earlier : ∀ qs ∈ l.earlier, qs.card ≤ N
  unready : isReady = false → l.current = ∅

theorem Ledger.wrote {l : QueryLog} {fd : Int} {numQueriesPerConn : Nat} {isReady : Bool}
    {current : Finset Nat} (h : Ledger N l fd numQueriesPerConn isReady) (hready : isReady = true) :
    Ledger N ⟨l.fd, current, l.earlier⟩ fd numQueriesPerConn isReady :=
  ⟨h.fd, h.limit, h.earlier, fun hr => absurd (hready.symm.trans hr) nofun⟩

/-- The log, the socket and the place of the sending thread fit. -/
structure Good (N q : Nat) (s : PerfDotSocket) (l : QueryLog) (p : DotProg) : Prop where
  ledger : Ledger N l s.fd s.numQueriesPerConn s.isReady
  place : LimitAt N q (view s) l.current p

variable {s s' : PerfDotSocket} {l : QueryLog} {p : DotProg}

theorem Good.card_le (h : Good N q s l p) (hN : 1 ≤ N) :
    ∀ qs ∈ l.current :: l.earlier, qs.card ≤ N :=
  List.forall_mem_cons.mpr ⟨(h.place.card_le hN).1, h.ledger.earlier⟩

theorem recordAll_perfDotReconnect (l : QueryLog) (s : PerfDotSocket) (os : OsConnect) :
    (s.perfDotReconnect os).2.foldl (QueryLog.record q) l
      = ⟨os.fd, ∅, l.current :: l.earlier⟩ := by
  cases hevent : s.hasEvent <;> simp [perfDotReconnect, perfDotConnect, QueryLog.record, hevent]

/-! ### The receiving thread -/

theorem Good.recvAccess (hN : 1 ≤ N) (p : DotProg)
    (f : PerfDotSocket → PerfDotSocket × List NetEffect) (hf : DotParty.RecvAccess f)
    (s : PerfDotSocket) (l : QueryLog) (h : Good N q s l p) :
    Good N q (f s).1 ((f s).2.foldl (QueryLog.record q) l) p := by
  rcases hf with hf | ⟨os, rfl⟩
  · obtain ⟨recv, nqpcRecv, hf⟩ := hf s
    rw [hf]
    exact ⟨h.ledger, h.place⟩
  · dsimp only
    rw [recordAll_perfDotReconnect]
    refine ⟨⟨rfl, h.ledger.limit, h.card_le hN, fun _ => rfl⟩,
      h.place.reconnected hN fun hsend => ?_⟩
    show (if s.sending ≠ 0 then false else s.isSending) = false
    rw [show s.isSending = false from hsend, ite_self]

/-! ### The sending thread -/

abbrev Advances (N q : Nat) (s : PerfDotSocket) (l : QueryLog) (p : DotProg) : Prop :=
  Prog.Advances (QueryLog.record q) (Good N q) s l p

abbrev InRegion (N q : Nat) (s : PerfDotSocket) (l : QueryLog) (p : DotProg) : Prop :=
  Prog.InRegion (QueryLog.record q) (Good N q) s l p

/-- The socket and the log between two calls of the sending thread. -/
structure Calm (N q : Nat) (s : PerfDotSocket) (l : QueryLog) : Prop where
  ledger : Ledger N l s.fd s.numQueriesPerConn s.isReady
  between : Between N q (view s) l.current

theorem Calm.returned (h : Calm N q s l) {ret : DotRet} (hret : ret ≠ .sockready 1) :
    LimitAt N q (view s) l.current (.ret ret) :=
  .returned h.between fun hone => absurd hone hret

theorem Calm.reconnect (h : Calm N q s l) (hN : 1 ≤ N) (os : OsConnect) :
    Calm N q (s.perfDotReconnect os).1
      ((s.perfDotReconnect os).2.foldl (QueryLog.record q) l) := by
  have hblank : Blank (view (s.perfDotReconnect os).1) ∅ := ⟨rfl, Nat.zero_le 1⟩
  rw [recordAll_perfDotReconnect]
  exact ⟨⟨rfl, h.ledger.limit, List.forall_mem_cons.mpr ⟨h.between.card_le, h.ledger.earlier⟩,
    fun _ => rfl⟩, hblank.between hN⟩

theorem Calm.retry (h : Calm N q s l) (hN : 1 ≤ N) (os : PerfDotSocket.OsSockready) :
    Calm N q (s.retry os).1 ((s.retry os).2.foldl (QueryLog.record q) l) := by
  unfold PerfDotSocket.retry
  split
  · have hnew := h.reconnect hN os.connect
    exact ⟨hnew.ledger, hnew.between⟩
  · exact h

theorem Calm.reconnect_region (h : Calm N q s l) (hN : 1 ≤ N) (os : OsConnect) {ret : DotRet}
    (hret : ret ≠ .sockready 1) :
    InRegion N q s l (.step (fun s => s.perfDotReconnect os) fun _ => .unlock (.ret ret)) :=
  have hnew := h.reconnect hN os
  .step (.unlock ⟨hnew.ledger, hnew.returned hret⟩)

theorem foldl_wrote (hfd : l.fd = s.fd) (bytes : Bytes) :
    [NetEffect.wrote s.fd bytes].foldl (QueryLog.record q) l
      = ⟨l.fd, insert q l.current, l.earlier⟩ :=
  if_pos hfd.symm

theorem Calm.readyProg (h : Calm N q s l) (hN : 1 ≤ N) (hready : s.isReady = true)
    (os : PerfDotSocket.OsSockready) : InRegion N q s l (readyProg os s) := by
  unfold PerfDotSocket.readyProg
  by_cases hsend : s.isSending = true
  · rw [if_pos hsend]
    cases os.write with
    | error e =>
        cases e with
        | syscall _ => exact h.reconnect_region hN os.reconnect nofun
        | wantRead | wantWrite | ssl | other _ =>
            exact .unlock ⟨h.ledger, h.returned nofun⟩
    | ok n =>
        have hout := (h.between.due hsend).write hready
        refine .step (.unlock ?_)
        dsimp only
        rw [foldl_wrote h.ledger.fd]
        exact ⟨h.ledger.wrote hready, .add os _ _ hout fun hs => absurd (hsend.symm.trans hs) nofun⟩
  · rw [if_neg hsend]
    have hidle : s.isSending = false := Bool.eq_false_iff.mpr hsend
    exact .unlock ⟨h.ledger, .queries os hidle (h.between.idle hidle)⟩

/-- The handshake finds the connection blank. -/
theorem Calm.handshakeProg (h : Calm N q s l) (hready : s.isReady = false)
    (os : PerfDotSocket.OsSockready) : InRegion N q s l (handshakeProg os) := by
  unfold PerfDotSocket.handshakeProg
  cases os.handshake with
  | shutdown => exact .put (.unlock ⟨h.ledger, h.returned nofun⟩)
  | done =>
      have hblank : Blank (view { s with isReady := true }) l.current :=
        ⟨h.ledger.unready hready, h.between.unready hready⟩
      exact .put (.unlock ⟨{ h.ledger with unready := nofun }, .connected os hblank⟩)
  | error e =>
      cases e with
      | wantRead | wantWrite => exact .unlock ⟨h.ledger, h.returned nofun⟩
      | syscall _ | ssl | other _ => exact .put (.unlock ⟨h.ledger, h.returned nofun⟩)

theorem Calm.connectProg (h : Calm N q s l) (hready : s.isReady = false)
    (os : PerfDotSocket.OsSockready) : InRegion N q s l (connectProg os s) := by
  unfold PerfDotSocket.connectProg
  by_cases hconn : (!s.isConnReady) = true
  · rw [if_pos hconn]
    cases os.wait with
    | success =>
        cases os.soError with
        | none =>
            have hconn : Calm N q { s with isConnReady := true } l := ⟨h.ledger, h.between⟩
            exact .put (hconn.handshakeProg hready os)
        | some errno =>
            by_cases hagain : errno = .einprogress ∨ errno = .eagain
            · simp only [if_pos hagain]
              exact .unlock ⟨h.ledger, h.returned nofun⟩
            · simp only [if_neg hagain]
              exact .put (.unlock ⟨h.ledger, h.returned nofun⟩)
    | _ => exact .unlock ⟨h.ledger, h.returned nofun⟩
  · rw [if_neg hconn]
    exact h.handshakeProg hready os

/-- The region at the start of **`perf__dot_sockready`**. -/
theorem Calm.sockreadyProg (h : Calm N q s l) (hN : 1 ≤ N) (os : PerfDotSocket.OsSockready) :
    Advances N q s l (sockreadyProg os) := by
  have hretry := Calm.retry (s := s.lock) ⟨h.ledger, h.between⟩ hN os
  refine .lock (.step (.look ?_))
  split
  · rename_i hready
    exact hretry.readyProg hN hready os
  · rename_i hready
    exact hretry.connectProg (Bool.eq_false_iff.mpr hready) os

theorem Due.delay_region (h : Due N q (view s) l.current)
    (hl : Ledger N l s.fd s.numQueriesPerConn s.isReady) :
    InRegion N q s l (.put delay <| .unlock <| .ret (.sendto (.error .einprogress))) := by
  refine .put (.unlock ⟨hl, .returned ⟨fun _ => ?_, nofun⟩ nofun⟩)
  exact ⟨h.counted, h.card, h.bound, h.unready⟩

/-- The region of **`perf__dot_sendto`**: there is room for the query. -/
theorem Room.sendtoReadyProg (h : Room N (view s) l.current) (hN : 1 ≤ N)
    (hl : Ledger N l s.fd s.numQueriesPerConn s.isReady) (hsend : s.isSending = false)
    (hready : s.isReady = true) (send : Nat) (write : SslWrite) (connect : OsConnect) :
    InRegion N q s l (sendtoReadyProg send write connect) := by
  have hcalm : Calm N q s l := ⟨hl, h.open.between hsend⟩
  unfold PerfDotSocket.sendtoReadyProg
  cases write with
  | error e =>
      cases e with
      | wantRead | wantWrite => exact (h.due q).delay_region hl
      | ssl | other _ => exact .ret ⟨hcalm.ledger, hcalm.returned nofun⟩
      | syscall errno =>
          by_cases hgone : errno ∈ [.econnrefused, .econnreset, .enotconn, .epipe]
          · simp only [if_pos hgone]
            have hnew := hcalm.reconnect hN connect
            have hblank : Blank (view (s.perfDotReconnect connect).1)
                ((s.perfDotReconnect connect).2.foldl (QueryLog.record q) l).current := by
              rw [recordAll_perfDotReconnect]
              exact ⟨rfl, Nat.zero_le 1⟩
            exact .step (((hblank.room hN).due q).delay_region hnew.ledger)
          · simp only [if_neg hgone]
            exact .unlock ⟨hcalm.ledger, hcalm.returned nofun⟩
  | ok n =>
      have hout := (h.due q).write hready
      refine .step ?_
      dsimp only
      rw [foldl_wrote hl.fd]
      split
      · refine .put (.unlock ⟨hl.wrote hready, .returned ⟨fun _ => ?_, nofun⟩ nofun⟩)
        exact ⟨hout.counted, hout.card, hout.bound, hout.due.unready⟩
      · exact .unlock ⟨hl.wrote hready, .sentWhole _ hsend hout⟩

theorem Room.filledProg (h : Room N (view s) l.current) (hN : 1 ≤ N)
    (hl : Ledger N l s.fd s.numQueriesPerConn s.isReady) (hsend : s.isSending = false) (send : Nat)
    (write : SslWrite) (connect : OsConnect) :
    InRegion N q s l
      (if !s.isReady then .put delay <| .unlock <| .ret (.sendto (.error .einprogress))
        else PerfDotSocket.sendtoReadyProg send write connect) := by
  cases hready : s.isReady with
  | false => exact (h.due q).delay_region hl
  | true => exact h.sendtoReadyProg hN hl hsend hready send write connect

/-- **A step of the sending thread.** -/
theorem Good.advances (h : Good N q s l p) (hN : 1 ≤ N) (hlt : N + 1 < 2 ^ 32) :
    Advances N q s l p := by
  obtain ⟨hl, hplace⟩ := h
  cases hplace with
  | returned _ _ => exact .ret
  | sockready os h => exact Calm.sockreadyProg ⟨hl, h⟩ hN os
  | sendto qid buf write connect hsend hroom =>
      refine .lock (.put (.look (Room.filledProg ?_ hN ?_ ?_ _ write connect)))
      · exact ⟨hroom.counted, hroom.card, hroom.bound, hroom.unready⟩
      · exact hl
      · exact hsend
  | add os n dnslen hout hnew =>
      exact .put ⟨hl, .check os dnslen hout hnew⟩
  -- a part of the query: the rest is due. All of it: `sending` is set back first
  | check os dnslen hout hnew =>
      refine .look ?_
      split
      · refine ⟨hl, .returned ⟨fun _ => hout.due, fun hidle => ?_⟩ nofun⟩
        have hempty := hnew hidle
        exact ⟨by rw [hempty]; exact Nat.zero_le _, by rw [hempty]; exact Nat.zero_le _,
          Nat.le_succ_of_le hout.bound, hout.due.unready⟩
      · exact ⟨hl, .zero os hout⟩
  | zero os hout => exact .put ⟨hl, .clear os hout⟩
  | clear os hout =>
      exact .put ⟨hl, .sent os rfl ⟨hout.counted, hout.card, hout.bound, hout.unready⟩⟩
  | sent os hsend hout =>
      refine .step ?_
      dsimp only
      cases s.hasSent <;> exact ⟨hl, .count os hsend hout⟩
  | count os hsend hout =>
      exact .put ⟨hl, .queries os hsend (hout.count hlt)⟩
  | sentWhole n hsend hout =>
      exact .put ⟨hl, .returned ((hout.count hlt).between hsend) nofun⟩
  -- at the limit a timeout is set; below it there is room for the next query
  | queries os hsend hopen =>
      refine .look ?_
      split
      · exact ⟨hl, .stamp os hsend hopen⟩
      · rename_i hroom
        have hlt : s.nqpcSent < N := by
          rw [hl.limit] at hroom
          exact Nat.lt_of_not_le fun hle => hroom ⟨by omega, hle⟩
        exact ⟨hl, .returned (hopen.between hsend) fun _ => ⟨hsend, hopen.counted,
          Nat.lt_of_le_of_lt hopen.counted hlt, Nat.le_of_lt hlt, hopen.unready⟩⟩
  | stamp os hsend hopen =>
      refine .put ?_
      split <;> exact ⟨hl, .timeout os hsend hopen⟩
  | timeout os hsend hopen =>
      refine .look ?_
      split
      · exact ⟨hl, .replace os hsend hopen⟩
      · exact ⟨hl, .returned (hopen.between hsend) nofun⟩
  -- the limit is reached and the wait for responses over: a new connection
  | replace os hsend hopen =>
      have hcalm : Calm N q s.lock l := ⟨hl, hopen.between hsend⟩
      exact .lock (hcalm.reconnect_region hN os.reconnect nofun)
  | connected os hblank =>
      refine .step ?_
      dsimp only
      cases s.hasEvent <;> exact ⟨hl, .ask hblank⟩
  | ask hblank =>
      refine .look ⟨hl, .returned (hblank.between hN) fun hone => ?_⟩
      refine ⟨?_, hblank.room hN⟩
      cases hsend : s.isSending with
      | true =>
          rw [hsend] at hone
          exact nomatch hone
      | false => exact hsend

/-! ### Runs -/

/-- A socket with its two threads, and which queries went to which connection. A query's number says
how many have been handed over, with it. -/
structure Counting where
  party : DotParty
  queries : Nat
  log : QueryLog

namespace Counting

/-- The socket just opened. -/
def start (os : OsConnect) (hasSent hasEvent : Bool) (numQueriesPerConn nqpcTimeout : Nat) :
    Counting :=
  ⟨DotParty.start os hasSent hasEvent numQueriesPerConn nqpcTimeout, 0, ⟨os.fd, ∅, []⟩⟩

/-- One step. It deals with the query that was handed over last. -/
def next (c : Counting) (e : DotParty.Event) : Option Counting :=
  (c.party.next e).map fun party =>
    let queries := if e.query?.isSome then c.queries + 1 else c.queries
    ⟨party, queries, c.log.recordAll queries (c.party.effects e)⟩

/-- What every step keeps. -/
structure Inv (N : Nat) (c : Counting) : Prop where
  good : Good N c.queries c.party.sock c.log c.party.sender
  quiet : DotParty.Receives c.party.receiver

theorem inv_start (N : Nat) (os : OsConnect) (hasSent hasEvent : Bool) (nqpcTimeout : Nat) :
    Inv N (start os hasSent hasEvent N nqpcTimeout) where
  good := ⟨⟨rfl, rfl, nofun, fun _ => rfl⟩, .returned
    ⟨nofun, fun _ => ⟨Nat.le_refl 0, Nat.zero_le N, Nat.zero_le _, fun _ => Nat.zero_le 1⟩⟩ nofun⟩
  quiet := trivial

theorem limitAt_ret {ret : DotRet} (h : LimitAt N q v cur (.ret ret)) :
    Between N q v cur ∧ (ret = .sockready 1 → v.isSending = false ∧ Room N v cur) := by
  cases h with
  | returned hbetween hone => exact ⟨hbetween, hone⟩

theorem inv_step {N : Nat} (hN : 1 ≤ N) (hlt : N + 1 < 2 ^ 32) (c : Counting) (e : DotParty.Event)
    (c' : Counting) (h : Inv N c) (hstep : StepOf next c e c') : Inv N c' := by
  obtain ⟨hgood, hquiet⟩ := h
  obtain ⟨party, hparty, rfl⟩ := Option.map_eq_some_iff.mp hstep
  cases e with
  | sockready os =>
      obtain ⟨⟨ret, hret⟩, rfl⟩ := DotParty.next_sockready hparty
      have hbetween := (limitAt_ret (hret ▸ hgood.place)).1
      exact ⟨⟨hgood.ledger, .sockready os hbetween⟩, hquiet⟩
  | sendto qid buf write connect =>
      obtain ⟨hone, rfl⟩ := DotParty.next_sendto hparty
      obtain ⟨hsend, hroom⟩ := (limitAt_ret (hone ▸ hgood.place)).2 rfl
      exact ⟨⟨hgood.ledger, .sendto qid buf write connect hsend hroom⟩, hquiet⟩
  | recv openssl3 read connect len =>
      obtain rfl := DotParty.next_recv hparty
      exact ⟨hgood, DotParty.receives_recvProg openssl3 read connect len⟩
  | sender =>
      obtain ⟨p, s, effects, hadv, rfl, rfl⟩ := DotParty.next_sender hparty
      exact ⟨hgood.advances hN hlt _ _ _ hadv, hquiet⟩
  | receiver =>
      obtain ⟨p, s, effects, hadv, rfl, rfl⟩ := DotParty.next_receiver hparty
      obtain ⟨hgood', hquiet'⟩ := hquiet.advance (QueryLog.record c.queries)
        (I := fun s l => Good N c.queries s l c.party.sender) (Good.recvAccess hN c.party.sender)
        (fun _ _ _ h => ⟨h.ledger, h.place⟩) hgood hadv
      exact ⟨hgood', hquiet'⟩

end Counting

end Dnsperf.Net.DotLimit

namespace Dnsperf.Net

open Dnsperf.Lib

/-- **No TLS connection carries more than `num_queries_per_conn` queries**, whatever the
interleaving of the two threads, whatever fails and however often the connection is replaced. The
counter never gets past the limit by more than one, so that with a limit below `2 ^ 32 - 1` its 32
bits are enough. -/
theorem dot_queries_per_conn_le (os : OsConnect) (hasSent hasEvent : Bool) (N nqpcTimeout : Nat)
    (hN : 1 ≤ N) (hlt : N + 1 < 2 ^ 32) (es : List DotParty.Event) (c : DotLimit.Counting)
    (hrun : Run (StepOf DotLimit.Counting.next)
      (DotLimit.Counting.start os hasSent hasEvent N nqpcTimeout) es c) :
    (∀ qs ∈ c.log.current :: c.log.earlier, qs.card ≤ N) ∧ c.party.sock.nqpcSent ≤ N + 1 := by
  have hinv := hrun.invariant (DotLimit.Counting.inv_step hN hlt) (DotLimit.Counting.inv_start N ..)
  exact ⟨hinv.good.card_le hN, (hinv.good.place.card_le hN).2⟩

/-- One query per connection. The receiving thread replaces the connection between the write of the
first query and its count, so that the counter says 1 on a connection that has carried nothing; it
may still carry the second query. -/
theorem dot_queries_per_conn_le_one :
    ∃ c : DotLimit.Counting, c.log.current :: c.log.earlier = [{2}, {1}] ∧
      c.party.sock.nqpcSent = 2 ∧ (∀ qs ∈ c.log.current :: c.log.earlier, qs.card ≤ 1) ∧
      c.party.sock.nqpcSent ≤ 1 + 1 := by
  obtain ⟨c, hrun, hend⟩ := Run.exists_of_follow (fun _ _ => True) DotLimit.Counting.next
    (DotLimit.Counting.start ⟨5, true, 0⟩ true true 1 0)
    [.sockready (dotReadyWith (.ok 0) .done), .sender, .sender, .sender,
      .sendto 1 [7, 8] (.ok 4) ⟨6, true, 0⟩, .sender,
      .recv false (.data []) ⟨6, true, 0⟩ 512, .receiver, .receiver, .sender,
      .sockready (dotReadyWith (.ok 0) .done), .sender, .sender, .sender,
      .sendto 2 [9] (.ok 3) ⟨7, true, 0⟩, .sender, .sender]
    (fun c => c.log.current :: c.log.earlier = [{2}, {1}] ∧ c.party.sock.nqpcSent = 2) (by decide)
  obtain ⟨hlog, hsent⟩ := of_decide_eq_true hend
  exact ⟨c, hlog, hsent, dot_queries_per_conn_le _ _ _ 1 _ (by decide) (by decide) _ c
    (hrun.mono fun _ _ _ h => h.2)⟩

end Dnsperf.Net
