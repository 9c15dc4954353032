import Dnsperf.Lib.Locked
import Dnsperf.Net.Dot

/-!
# Dnsperf.Net.DotSync

The DNS-over-TLS calls **access by access**, with the places where they take and release
`self->lock`. A region between the two is what the other thread cannot come into; after
`PERF_UNLOCK` each read and each update of the socket is an access of its own.

With nothing in between, the programs are the calls of `Dnsperf.Net.Dot` (`exec_recvProg`,
`exec_sendtoProg`, `exec_sockreadyProg`). On every path through them the lock is released
exactly as often as it is taken, except where `perf__dot_sendto` only logs an error.
-/

namespace Dnsperf.Net

open Dnsperf.Lib

/-- What the calls return. -/
inductive DotRet
  /-- With the bytes read from the connection. -/
  | recv (ret : RecvRet) (read : Bytes)
  | sendto (ret : Except Errno Nat)
  | sockready (ret : Int)

namespace PerfDotSocket

instance : HasLock PerfDotSocket where
  held := locked
  setHeld b s := { s with locked := b }
  held_setHeld _ _ := rfl

/-- A program of the two threads of a socket. -/
abbrev DotProg := Prog PerfDotSocket NetEffect DotRet

/-! ### Receiving -/

/-- `at += n`, with `mem` in `recvbuf`. If `at` was set back since the bytes were read, these are
not the bytes it then counts. -/
def grow (mem : Bytes) (n : Nat) (s : PerfDotSocket) : PerfDotSocket :=
  { s with recv :=
    { s.recv with
      recvbuf := (mem.take (s.recv.recvbuf.length + n)).take tcpRecvBufSize
      at_le := List.length_take_le _ _ } }

/-- The frame at the front is taken off. -/
def takeOff (n : Nat) (s : PerfDotSocket) : PerfDotSocket :=
  { s with recv :=
    { s.recv with
      recvbuf := s.recv.recvbuf.drop (2 + n)
      at_le := le_trans (by simp) s.recv.at_le } }

/-- `have_more` for what is left. -/
def noteMore (s : PerfDotSocket) : PerfDotSocket :=
  { s with recv :=
    { s.recv with
      haveMore := 2 < s.recv.recvbuf.length &&
        dnslen s.recv.recvbuf + 2 ≤ s.recv.recvbuf.length } }

/-- `ck_pr_inc_uint(&self->nqpc_recv)`. -/
def countRecv (s : PerfDotSocket) : PerfDotSocket :=
  { s with nqpcRecv := if s.numQueriesPerConn ≠ 0 then (s.nqpcRecv + 1) % 2 ^ 32 else s.nqpcRecv }

/-- The frame at the front is delivered: the rest is moved down, the counter, and `have_more`. -/
def noteProg (ret : DotRet) : DotProg := .put noteMore <| .ret ret

@[inherit_doc noteProg]
def countRecvProg (ret : DotRet) : DotProg := .put countRecv <| noteProg ret

@[inherit_doc noteProg]
def takeOffProg (n : Nat) (ret : DotRet) : DotProg := .put (takeOff n) <| countRecvProg ret

/-- The end of `perf__dot_recv`, having read `read`: the frame at the front of `recvbuf`. -/
def nextProg (read : Bytes) (len : Nat) : DotProg :=
  .look fun s =>
    let n := dnslen s.recv.recvbuf
    if s.recv.recvbuf.length < n + 2 then .ret (.recv (.error .eagain) read)
    else takeOffProg n (.recv (.packet n ((s.recv.recvbuf.drop 2).take (min len n))) read)

/-- Is there more than a length? -/
def shortProg (read : Bytes) (len : Nat) : DotProg :=
  .look fun s =>
    if s.recv.recvbuf.length < 3 then .ret (.recv (.error .eagain) read) else nextProg read len

/-- `perf__dot_recv` after it has read `read` and released the lock. -/
def readProg (mem read : Bytes) (len : Nat) : DotProg :=
  .put (grow mem read.length) <| shortProg read len

/-- `SSL_read` failed with a system error. -/
def recvSyscallProg (errno : Errno) (connect : OsConnect) : DotProg :=
  match errno with
  | .ebadf | .econnrefused | .econnreset | .enotconn =>
      .step (·.perfDotReconnect connect) fun _ => .unlock <| .ret (.recv (.error .eagain) [])
  | _ => .unlock <| .ret (.recv (.error errno) [])

/-- `perf__dot_recv` with the lock held, on a ready socket. -/
def recvReadyProg (openssl3 : Bool) (read : SslRead) (connect : OsConnect) (len : Nat)
    (s : PerfDotSocket) : DotProg :=
  match read with
  | .data bytes =>
      let bytes := bytes.take s.recv.space
      if bytes = [] then
        .step (·.perfDotReconnect connect) fun _ => .unlock <| .ret (.recv (.error .eagain) [])
      else .unlock <| readProg (s.recv.recvbuf ++ bytes) bytes len
  | .error .wantRead => .unlock <| .ret (.recv (.error .eagain) [])
  | .error .ssl =>
      if openssl3 then recvSyscallProg .ebadf connect
      else .unlock <| .ret (.recv (.error .ebadf) [])
  | .error (.syscall errno) => recvSyscallProg errno connect
  | .error _ => .unlock <| .ret (.recv (.error .ebadf) [])

/-- `perf__dot_recv` when there is not more to take from `recvbuf`. -/
def recvLockedProg (openssl3 : Bool) (read : SslRead) (connect : OsConnect) (len : Nat) : DotProg :=
  .lock <| .look fun s =>
    if !s.isReady then .unlock <| .ret (.recv (.error .eagain) [])
    else recvReadyProg openssl3 read connect len s

/-- `perf__dot_recv`. -/
def recvProg (openssl3 : Bool) (read : SslRead) (connect : OsConnect) (len : Nat) : DotProg :=
  .look fun s =>
    if !s.recv.haveMore then recvLockedProg openssl3 read connect len else nextProg [] len

/-! ### Sending -/

/-- The query is to be sent from its first byte on. -/
def delay (s : PerfDotSocket) : PerfDotSocket := { s with isSending := true, sending := 0 }

/-- All of the query is out: `nqpc_sent++`. -/
def sentWholeProg (dnslen : Nat) : DotProg :=
  .put (fun s => { s with nqpcSent := (s.nqpcSent + 1) % 2 ^ 32 }) <| .ret (.sendto (.ok dnslen))

/-- `perf__dot_sendto` with `sendbuf` filled, on a ready socket. The error that is only logged
returns without `PERF_UNLOCK`. -/
def sendtoReadyProg (send : Nat) (write : SslWrite) (connect : OsConnect) : DotProg :=
  match write with
  | .error (.syscall errno) =>
      if errno ∈ [.econnrefused, .econnreset, .enotconn, .epipe] then
        .step (·.perfDotReconnect connect) fun _ =>
          .put delay <| .unlock <| .ret (.sendto (.error .einprogress))
      else .unlock <| .ret (.sendto (.error errno))
  | .error .wantRead | .error .wantWrite =>
      .put delay <| .unlock <| .ret (.sendto (.error .einprogress))
  | .error _ => .ret (.sendto (.error .ebadf))
  | .ok n =>
      let n := max 1 (min n (send + 2))
      .step (fun s => (s, [.wrote s.fd (s.sendbuf.take n)])) fun _ =>
        if n < send + 2 then
          .put (fun s => { s with sending := n, isSending := true }) <| .unlock <|
            .ret (.sendto (.error .einprogress))
        else .unlock <| sentWholeProg (n - 2)

/-- `perf__dot_sendto`. -/
def sendtoProg (qid : UInt16) (buf : Bytes) (write : SslWrite) (connect : OsConnect) : DotProg :=
  let send := if buf.length < tcpSendBufSize - 2 then buf.length else tcpSendBufSize - 2
  .lock <| .put (fun s => { s with sendbuf := be16 send ++ buf.take send, qid := qid }) <|
    .look fun s =>
      if !s.isReady then .put delay <| .unlock <| .ret (.sendto (.error .einprogress))
      else sendtoReadyProg send write connect

/-! ### Readiness -/

section

variable (os : OsSockready)

/-- The connection is replaced after enough queries. -/
def replaceProg : DotProg :=
  .lock <| .step (·.perfDotReconnect os.reconnect) fun _ => .unlock <| .ret (.sockready 0)

/-- Have the answers come, or is it too late for them? -/
def timeoutProg : DotProg :=
  .look fun s =>
    if s.nqpcSent ≤ os.nqpcRecv ∨ s.nqpcTs < os.now' then replaceProg os else .ret (.sockready 0)

/-- From when on answers are waited for. -/
def stampProg : DotProg :=
  .put (fun s => if s.nqpcTs = 0 then { s with nqpcTs := os.now + s.nqpcTimeout } else s) <|
    timeoutProg os

/-- The check of `num_queries_per_conn`. -/
def queriesProg : DotProg :=
  .look fun s =>
    if s.numQueriesPerConn ≠ 0 ∧ s.numQueriesPerConn ≤ s.nqpcSent then stampProg os
    else .ret (.sockready 1)

/-- The delayed query is out: `sending = 0`, `is_sending = false`, the callback, `nqpc_sent++`. -/
def countProg : DotProg :=
  .put (fun s => { s with nqpcSent := (s.nqpcSent + 1) % 2 ^ 32 }) <| queriesProg os

@[inherit_doc countProg]
def sentProg : DotProg :=
  .step (fun s => (s, if s.hasSent then [.sent s.qid] else [])) fun _ => countProg os

@[inherit_doc countProg]
def clearProg : DotProg := .put (fun s => { s with isSending := false }) <| sentProg os

@[inherit_doc countProg]
def zeroProg : DotProg := .put (fun s => { s with sending := 0 }) <| clearProg os

/-- Is all of the delayed query out? -/
def checkProg (dnslen : Nat) : DotProg :=
  .look fun s => if s.sending < dnslen + 2 then .ret (.sockready 0) else zeroProg os

/-- `sending += n`. -/
def addProg (n dnslen : Nat) : DotProg :=
  .put (fun s => { s with sending := s.sending + n }) <| checkProg os dnslen

/-- A ready socket, with the lock held. -/
def readyProg (s : PerfDotSocket) : DotProg :=
  if s.isSending then
    match os.write with
    | .error (.syscall _) =>
        .step (·.perfDotReconnect os.reconnect) fun _ => .unlock <| .ret (.sockready 0)
    | .error _ => .unlock <| .ret (.sockready 0)
    | .ok n =>
        let rest := (s.sendbuf.take (dnslen s.sendbuf + 2)).drop s.sending
        let n := max 1 (min n rest.length)
        .step (fun s => (s, [.wrote s.fd (rest.take n)])) fun _ =>
          .unlock <| addProg os n (dnslen s.sendbuf)
  else .unlock <| queriesProg os

/-- Is there a query to send? -/
def askProg : DotProg := .look fun s => .ret (.sockready (if s.isSending then 0 else 1))

/-- The connection is there: the callback. -/
def connectedProg : DotProg :=
  .step (fun s => ({ s with connEvent := if s.hasEvent then .reconnected else s.connEvent },
      if s.hasEvent then [.event s.connEvent (os.connected - s.connTs)] else [])) fun _ => askProg

/-- The TLS handshake, with the lock held. -/
def handshakeProg : DotProg :=
  match os.handshake with
  | .shutdown => .put (fun s => { s with doReconnect := true }) <| .unlock <| .ret (.sockready 0)
  | .error .wantRead | .error .wantWrite => .unlock <| .ret (.sockready 0)
  | .error _ => .put (fun s => { s with doReconnect := true }) <| .unlock <| .ret (.sockready 0)
  | .done => .put (fun s => { s with isReady := true }) <| .unlock <| connectedProg os

/-- A socket that is not ready, with the lock held. -/
def connectProg (s : PerfDotSocket) : DotProg :=
  if !s.isConnReady then
    match os.wait, os.soError with
    | .success, some errno =>
        if errno = .einprogress ∨ errno = .eagain then .unlock <| .ret (.sockready 0)
        else .put (fun s => { s with doReconnect := true }) <| .unlock <| .ret (.sockready 0)
    | .success, none => .put (fun s => { s with isConnReady := true }) <| handshakeProg os
    | _, _ => .unlock <| .ret (.sockready (-1))
  else handshakeProg os

/-- The connection that could not be made is tried again. -/
def retry (s : PerfDotSocket) : PerfDotSocket × List NetEffect :=
  if s.doReconnect then
    ({ (s.perfDotReconnect os.connect).1 with doReconnect := false },
      (s.perfDotReconnect os.connect).2)
  else (s, [])

/-- `perf__dot_sockready`. -/
def sockreadyProg : DotProg :=
  .lock <| .step (retry os) fun _ =>
    .look fun s => if s.isReady then readyProg os s else connectProg os s

end

/-! ### Whole calls -/

theorem exec_nextProg (s : PerfDotSocket) (read : Bytes) (len : Nat) :
    Prog.Does (nextProg read len) s (.recv (s.recv.next len).1 read)
      (s.received (s.recv.next len).1 (s.recv.next len).2) [] := by
  unfold nextProg RecvBuf.next
  refine .look ?_
  dsimp only
  split
  · exact .done
  · exact .put (.put (.put .done))

theorem grow_eq {s : PerfDotSocket} {bytes : Bytes} (h : bytes.length ≤ s.recv.space) :
    grow (s.recv.recvbuf ++ bytes) bytes.length s = { s with recv := s.recv.add bytes } := by
  have hle := s.recv.at_le
  have hlen : (s.recv.recvbuf ++ bytes).length ≤ tcpRecvBufSize := by
    simp only [RecvBuf.space] at h
    rw [List.length_append]
    omega
  simp only [grow, RecvBuf.add, List.take_of_length_le h]
  congr 2
  rw [← List.length_append, List.take_length, List.take_of_length_le hlen]

theorem exec_readProg {s : PerfDotSocket} {bytes : Bytes} (h : bytes.length ≤ s.recv.space)
    (len : Nat) :
    Prog.Does (readProg (s.recv.recvbuf ++ bytes) bytes len) s
      (.recv (s.recv.read bytes len).1 bytes)
      (s.received (s.recv.read bytes len).1 (s.recv.read bytes len).2) [] := by
  unfold readProg RecvBuf.read
  refine .put (.look ?_)
  rw [grow_eq h]
  dsimp only
  split
  · exact .done
  · exact exec_nextProg _ _ _

theorem exec_recvSyscallProg (s : PerfDotSocket) (errno : Errno) (connect : OsConnect) :
    Prog.Does (recvSyscallProg errno connect) s (.recv (s.recvSyscall errno connect).1.ret
      (s.recvSyscall errno connect).1.read) (s.recvSyscall errno connect).1.sock
      (s.recvSyscall errno connect).2 := by
  cases errno with
  | ebadf | econnrefused | econnreset | enotconn =>
      exact .step_last (.unlock .done)
  | eagain | einprogress | epipe | other _ => exact .unlock .done

/-- **`perf__dot_recv`** with nothing in between. -/
theorem exec_recvProg (s : PerfDotSocket) (openssl3 : Bool) (read : SslRead) (connect : OsConnect)
    (len : Nat) :
    Prog.Does (recvProg openssl3 read connect len) s
      (.recv (s.perfDotRecv openssl3 read connect len).1.ret
        (s.perfDotRecv openssl3 read connect len).1.read)
      (s.perfDotRecv openssl3 read connect len).1.sock
      (s.perfDotRecv openssl3 read connect len).2 := by
  unfold recvProg perfDotRecv
  refine .look ?_
  by_cases hmore : (!s.recv.haveMore) = true
  · rw [if_pos hmore, if_pos hmore]
    refine .lock (.look ?_)
    change Prog.Does (if (!s.lock.isReady) = true then _ else _) s.lock _ _ _
    dsimp only
    by_cases hready : (!s.lock.isReady) = true
    · rw [if_pos hready, if_pos hready]
      exact .unlock .done
    rw [if_neg hready, if_neg hready]
    cases read with
    | data bytes =>
        change Prog.Does (recvReadyProg openssl3 (.data bytes) connect len s.lock) s.lock _ _ _
        unfold recvReadyProg
        by_cases hnil : bytes.take s.lock.recv.space = []
        · simp only [if_pos hnil]
          exact .step_last (.unlock .done)
        · simp only [if_neg hnil]
          exact .unlock (exec_readProg (s := s.unlock) (List.length_take_le _ _) len)
    | error e =>
        cases e with
        | wantRead | wantWrite | other _ => exact .unlock .done
        | syscall errno => exact exec_recvSyscallProg s.lock errno connect
        | ssl =>
            cases openssl3 with
            | true => exact exec_recvSyscallProg s.lock .ebadf connect
            | false => exact .unlock .done
  · rw [if_neg hmore, if_neg hmore]
    exact exec_nextProg s [] len

/-- **`perf__dot_sendto`** with nothing in between. -/
theorem exec_sendtoProg (s : PerfDotSocket) (qid : UInt16) (buf : Bytes) (write : SslWrite)
    (connect : OsConnect) :
    Prog.Does (sendtoProg qid buf write connect) s
      (.sendto (s.perfDotSendto qid buf write connect).1)
      (s.perfDotSendto qid buf write connect).2.1 (s.perfDotSendto qid buf write connect).2.2 := by
  unfold sendtoProg perfDotSendto
  generalize (if buf.length < tcpSendBufSize - 2 then buf.length else tcpSendBufSize - 2) = send
  refine .lock (.put (.look ?_))
  dsimp only
  change Prog.Does (if (!s.isReady) = true then _ else _) _ _ _ _
  by_cases hready : (!s.isReady) = true
  · rw [if_pos hready, if_pos (show (!s.lock.isReady) = true from hready)]
    exact .put (.unlock .done)
  rw [if_neg hready, if_neg (show ¬ (!s.lock.isReady) = true from hready)]
  unfold sendtoReadyProg
  cases write with
  | ok n =>
      by_cases hpart : max 1 (min n (send + 2)) < send + 2
      · simp only [if_pos hpart]
        exact .step (.put (.unlock .done))
      · simp only [if_neg hpart]
        exact .step (.unlock (.put .done))
  | error e =>
      cases e with
      | wantRead | wantWrite => exact .put (.unlock .done)
      | ssl | other _ => exact .done
      | syscall errno =>
          by_cases hgone : errno ∈ [.econnrefused, .econnreset, .enotconn, .epipe]
          · simp only [if_pos hgone]
            exact .step_last (.put (.unlock .done))
          · simp only [if_neg hgone]
            exact .unlock .done

section

variable (os : OsSockready)

theorem exec_queriesProg (s : PerfDotSocket) :
    Prog.Does (queriesProg os) s (.sockready (s.checkQueries os).1) (s.checkQueries os).2.1
      (s.checkQueries os).2.2 := by
  unfold queriesProg checkQueries
  refine .look ?_
  by_cases hlimit : s.numQueriesPerConn ≠ 0 ∧ s.numQueriesPerConn ≤ s.nqpcSent
  · rw [if_pos hlimit, if_pos hlimit]
    refine .put (.look ?_)
    dsimp only
    generalize (if s.nqpcTs = 0 then { s with nqpcTs := os.now + s.nqpcTimeout } else s) = s
    by_cases hdone : s.nqpcSent ≤ os.nqpcRecv ∨ s.nqpcTs < os.now'
    · rw [if_pos hdone, if_pos hdone]
      exact .lock (.step_last (.unlock .done))
    · rw [if_neg hdone, if_neg hdone]
      exact .done
  · rw [if_neg hlimit, if_neg hlimit]
    exact .done

theorem exec_addProg_part {s : PerfDotSocket} {n dnslen : Nat} (h : s.sending + n < dnslen + 2) :
    Prog.Does (addProg os n dnslen) s (.sockready 0) { s with sending := s.sending + n } [] := by
  refine .put (.look ?_)
  rw [if_pos h]
  exact .done

theorem exec_addProg_all {s : PerfDotSocket} {n dnslen : Nat} (h : ¬ s.sending + n < dnslen + 2) :
    let s' := { s with sending := 0, isSending := false, nqpcSent := (s.nqpcSent + 1) % 2 ^ 32 }
    Prog.Does (addProg os n dnslen) s (.sockready (s'.checkQueries os).1) (s'.checkQueries os).2.1
      ((if s.hasSent then [.sent s.qid] else []) ++ (s'.checkQueries os).2.2) := by
  refine .put (.look ?_)
  rw [if_neg h]
  exact .put (.put (.step (.put (exec_queriesProg os _))))

theorem exec_readyProg (s : PerfDotSocket) :
    Prog.Does (readyProg os s) s (.sockready (s.readyBody os).1) (s.readyBody os).2.1
      (s.readyBody os).2.2 := by
  unfold readyProg readyBody
  by_cases hsend : s.isSending = true
  · rw [if_pos hsend, if_pos hsend]
    cases os.write with
    | error e =>
        cases e with
        | syscall _ => exact .step_last (.unlock .done)
        | wantRead | wantWrite | ssl | other _ => exact .unlock .done
    | ok n =>
        dsimp only
        split
        · rename_i hpart
          exact .step (.unlock (exec_addProg_part os hpart))
        · rename_i hall
          exact .step (.unlock (exec_addProg_all os hall))
  · rw [if_neg hsend, if_neg hsend]
    exact .unlock (exec_queriesProg os s.unlock)

theorem exec_handshakeProg (s : PerfDotSocket) :
    Prog.Does (handshakeProg os) s (.sockready (s.handshakeBody os).1) (s.handshakeBody os).2.1
      (s.handshakeBody os).2.2 := by
  unfold handshakeProg handshakeBody
  cases os.handshake with
  | shutdown => exact .put (.unlock .done)
  | done => exact .put (.unlock (.step_last (.look .done)))
  | error e =>
      cases e with
      | wantRead | wantWrite => exact .unlock .done
      | syscall _ | ssl | other _ => exact .put (.unlock .done)

theorem exec_connectProg (s : PerfDotSocket) :
    Prog.Does (connectProg os s) s (.sockready (s.connectBody os).1) (s.connectBody os).2.1
      (s.connectBody os).2.2 := by
  unfold connectProg connectBody
  by_cases hconn : (!s.isConnReady) = true
  · rw [if_pos hconn, if_pos hconn]
    cases os.wait with
    | success =>
        cases os.soError with
        | none => exact .put (exec_handshakeProg os _)
        | some errno =>
            by_cases hagain : errno = .einprogress ∨ errno = .eagain
            · simp only [if_pos hagain]
              exact .unlock .done
            · simp only [if_neg hagain]
              exact .put (.unlock .done)
    | _ => exact .unlock .done
  · rw [if_neg hconn, if_neg hconn]
    exact exec_handshakeProg os s

/-- **`perf__dot_sockready`** with nothing in between. -/
theorem exec_sockreadyProg (s : PerfDotSocket) :
    Prog.Does (sockreadyProg os) s (.sockready (s.perfDotSockready os).1)
      (s.perfDotSockready os).2.1 (s.perfDotSockready os).2.2 := by
  have hcall : s.perfDotSockready os =
      let r := s.lock.retry os
      let body := if r.1.isReady then r.1.readyBody os else r.1.connectBody os
      (body.1, body.2.1, r.2 ++ body.2.2) := rfl
  rw [hcall]
  refine .lock (.step (.look ?_))
  change Prog.Does (if (s.lock.retry os).1.isReady = true then _ else _) _ _ _ _
  dsimp only
  by_cases hready : (s.lock.retry os).1.isReady = true
  · simp only [if_pos hready]
    exact exec_readyProg os _
  · simp only [if_neg hready]
    exact exec_connectProg os _

end

/-! ### The lock -/

theorem balanced_nextProg (read : Bytes) (len : Nat) : Prog.Balanced false (nextProg read len) := by
  refine .look fun s => .ite .done ?_
  exact .put (fun _ => rfl) (.put (fun _ => rfl) (.put (fun _ => rfl) .done))

theorem balanced_readProg (mem read : Bytes) (len : Nat) :
    Prog.Balanced false (readProg mem read len) :=
  .put (fun _ => rfl) (.look fun _ => .ite .done (balanced_nextProg read len))

theorem balanced_reconnect (connect : OsConnect) (ret : DotRet) :
    Prog.Balanced true
      (.step (fun s : PerfDotSocket => s.perfDotReconnect connect) fun _ => .unlock (.ret ret)) :=
  .step (fun _ => rfl) fun _ => .unlock .done

theorem balanced_recvSyscallProg (errno : Errno) (connect : OsConnect) :
    Prog.Balanced true (recvSyscallProg errno connect) := by
  cases errno with
  | ebadf | econnrefused | econnreset | enotconn => exact balanced_reconnect connect _
  | eagain | einprogress | epipe | other _ => exact .unlock .done

theorem balanced_recvReadyProg (openssl3 : Bool) (read : SslRead) (connect : OsConnect) (len : Nat)
    (s : PerfDotSocket) : Prog.Balanced true (recvReadyProg openssl3 read connect len s) := by
  cases read with
  | data bytes => exact .ite (balanced_reconnect connect _) (.unlock (balanced_readProg _ _ _))
  | error e =>
      cases e with
      | wantRead | wantWrite | other _ => exact .unlock .done
      | syscall errno => exact balanced_recvSyscallProg errno connect
      | ssl => exact .ite (balanced_recvSyscallProg .ebadf connect) (.unlock .done)

theorem balanced_recvProg (openssl3 : Bool) (read : SslRead) (connect : OsConnect) (len : Nat) :
    Prog.Balanced false (recvProg openssl3 read connect len) := by
  refine .look fun _ => .ite (.lock (.look fun s => .ite ?_ ?_)) (balanced_nextProg [] len)
  · exact .unlock .done
  · exact balanced_recvReadyProg openssl3 read connect len s

/-- The outcomes of `SSL_write` that `perf__dot_sendto` only logs. -/
def logged : SslWrite → Bool
  | .error .ssl | .error (.other _) => true
  | _ => false

theorem balanced_sendtoReadyProg (send : Nat) {write : SslWrite} (connect : OsConnect)
    (h : logged write = false) : Prog.Balanced true (sendtoReadyProg send write connect) := by
  cases write with
  | ok n =>
      refine .step (fun _ => rfl) fun _ => .ite ?_ ?_
      · exact .put (fun _ => rfl) (.unlock .done)
      · exact .unlock (.put (fun _ => rfl) .done)
  | error e =>
      cases e with
      | wantRead | wantWrite => exact .put (fun _ => rfl) (.unlock .done)
      | ssl | other _ => exact nomatch h
      | syscall errno =>
          refine .ite (.step (fun _ => rfl) fun _ => ?_) (.unlock .done)
          exact .put (fun _ => rfl) (.unlock .done)

theorem balanced_sendtoProg (qid : UInt16) (buf : Bytes) {write : SslWrite} (connect : OsConnect)
    (h : logged write = false) : Prog.Balanced false (sendtoProg qid buf write connect) := by
  refine .lock (.put (fun _ => rfl) (.look fun s => .ite ?_ ?_))
  · exact .put (fun _ => rfl) (.unlock .done)
  · exact balanced_sendtoReadyProg _ connect h

section

variable (os : OsSockready)

theorem balanced_queriesProg : Prog.Balanced false (queriesProg os) := by
  refine .look fun s => .ite (.put (fun s => ?_) (.look fun s => .ite ?_ .done)) .done
  · split <;> rfl
  · exact .lock (balanced_reconnect os.reconnect _)

theorem balanced_addProg (n dnslen : Nat) : Prog.Balanced false (addProg os n dnslen) := by
  refine .put (fun _ => rfl) (.look fun s => .ite .done ?_)
  exact .put (fun _ => rfl) (.put (fun _ => rfl) (.step (fun _ => rfl) fun _ =>
    .put (fun _ => rfl) (balanced_queriesProg os)))

theorem balanced_readyProg (s : PerfDotSocket) : Prog.Balanced true (readyProg os s) := by
  refine .ite ?_ (.unlock (balanced_queriesProg os))
  cases os.write with
  | ok n => exact .step (fun _ => rfl) fun _ => .unlock (balanced_addProg os _ _)
  | error e =>
      cases e with
      | syscall _ => exact balanced_reconnect os.reconnect _
      | wantRead | wantWrite | ssl | other _ => exact .unlock .done

theorem balanced_handshakeProg : Prog.Balanced true (handshakeProg os) := by
  unfold handshakeProg
  cases os.handshake with
  | shutdown => exact .put (fun _ => rfl) (.unlock .done)
  | done =>
      exact .put (fun _ => rfl) (.unlock (.step (fun _ => rfl) fun _ => .look fun _ => .done))
  | error e =>
      cases e with
      | wantRead | wantWrite => exact .unlock .done
      | syscall _ | ssl | other _ => exact .put (fun _ => rfl) (.unlock .done)

theorem balanced_connectProg (s : PerfDotSocket) : Prog.Balanced true (connectProg os s) := by
  refine .ite ?_ (balanced_handshakeProg os)
  cases os.wait with
  | success =>
      cases os.soError with
      | none => exact .put (fun _ => rfl) (balanced_handshakeProg os)
      | some errno => exact .ite (.unlock .done) (.put (fun _ => rfl) (.unlock .done))
  | _ => exact .unlock .done

theorem balanced_sockreadyProg : Prog.Balanced false (sockreadyProg os) := by
  refine .lock (.step (fun s => ?_) fun _ => .look fun s => .ite ?_ ?_)
  · unfold retry
    split <;> rfl
  · exact balanced_readyProg os s
  · exact balanced_connectProg os s

end

end PerfDotSocket

namespace PerfDotSocket

/-- What is asked of a call that finds the lock free: every `PERF_LOCK` it comes to is followed by
one `PERF_UNLOCK` before the next and before it returns, and the lock is then free. -/
def Releases (p : DotProg) (s : PerfDotSocket) : Prop :=
  Prog.Matched (p.exec s).ops ∧ (p.exec s).state.locked = false

theorem releases_of_balanced {p : DotProg} (h : Prog.Balanced false p) {s : PerfDotSocket}
    (hs : s.locked = false) : Releases p s :=
  ⟨h.path (Prog.path_exec p s), h.held_exec hs⟩

/-- On a socket that is not ready `SSL_write` is not called. -/
theorem releases_sendtoProg_unready (qid : UInt16) (buf : Bytes) (write : SslWrite)
    (connect : OsConnect) {s : PerfDotSocket} (hready : s.isReady = false) :
    Releases (sendtoProg qid buf write connect) s := by
  unfold Releases
  simp only [sendtoProg, Prog.put, Prog.look, Prog.exec, HasLock.setHeld, hready]
  exact ⟨.cons .nil, rfl⟩

/-- The error that is only logged leaves a `PERF_LOCK` without its `PERF_UNLOCK`. -/
theorem exec_sendtoProg_logged (qid : UInt16) (buf : Bytes) {write : SslWrite} (connect : OsConnect)
    {s : PerfDotSocket} (hready : s.isReady = true) (h : logged write = true) :
    ((sendtoProg qid buf write connect).exec s).ops = [.lock] ∧
      ((sendtoProg qid buf write connect).exec s).state.locked = true := by
  simp only [sendtoProg, Prog.put, Prog.look, Prog.exec, HasLock.setHeld, hready]
  cases write with
  | ok n => exact absurd h Bool.false_ne_true
  | error e =>
      cases e with
      | wantRead | wantWrite | syscall _ => exact absurd h Bool.false_ne_true
      | ssl | other _ => exact ⟨rfl, rfl⟩

/-- **`perf__dot_sendto`** releases the lock unless the error of `SSL_write` is only logged. -/
theorem releases_sendtoProg_cases (qid : UInt16) (buf : Bytes) (write : SslWrite)
    (connect : OsConnect) {s : PerfDotSocket} (hs : s.locked = false) :
    (s.isReady = true → logged write = false) ∧ Releases (sendtoProg qid buf write connect) s ∨
      ¬ (s.isReady = true → logged write = false) ∧
        ((sendtoProg qid buf write connect).exec s).ops = [.lock] ∧
        ((sendtoProg qid buf write connect).exec s).state.locked = true := by
  cases hready : s.isReady with
  | false => exact .inl ⟨nofun, releases_sendtoProg_unready qid buf write connect hready⟩
  | true =>
      cases hlogged : logged write with
      | false =>
          exact .inl ⟨fun _ => rfl,
            releases_of_balanced (balanced_sendtoProg qid buf connect hlogged) hs⟩
      | true =>
          exact .inr ⟨fun h => absurd (h rfl) Bool.true_eq_false.mp,
            exec_sendtoProg_logged qid buf connect hready hlogged⟩

end PerfDotSocket

/-- **When the calls release their lock**: exactly when `SSL_write` does not fail with an error that
is only logged in `perf__dot_sendto` on a ready socket. `perf__dot_recv` and `perf__dot_sockready`
always release it, whatever the state of the socket at each access. -/
theorem dot_calls_release_lock (openssl3 : Bool) (read : SslRead) (connect : OsConnect) (len : Nat)
    (qid : UInt16) (buf : Bytes) (write : SslWrite) (os : PerfDotSocket.OsSockready) :
    (∀ ops, Prog.Path (PerfDotSocket.recvProg openssl3 read connect len) ops → Prog.Matched ops) ∧
      (∀ ops, Prog.Path (PerfDotSocket.sockreadyProg os) ops → Prog.Matched ops) ∧
      (PerfDotSocket.logged write = false →
        ∀ ops, Prog.Path (PerfDotSocket.sendtoProg qid buf write connect) ops → Prog.Matched ops) ∧
      ∀ s : PerfDotSocket, s.locked = false →
        (PerfDotSocket.Releases (PerfDotSocket.recvProg openssl3 read connect len) s ∧
            PerfDotSocket.Releases (PerfDotSocket.sendtoProg qid buf write connect) s ∧
            PerfDotSocket.Releases (PerfDotSocket.sockreadyProg os) s ↔
          (s.isReady = true → PerfDotSocket.logged write = false)) ∧
        ((s.perfDotRecv openssl3 read connect len).1.sock.locked = false ∧
            (s.perfDotSendto qid buf write connect).2.1.locked = false ∧
            (s.perfDotSockready os).2.1.locked = false ↔
          (s.isReady = true → PerfDotSocket.logged write = false)) := by
  have hrecv := PerfDotSocket.balanced_recvProg openssl3 read connect len
  have hready := PerfDotSocket.balanced_sockreadyProg os
  refine ⟨fun ops => hrecv.path, fun ops => hready.path,
    fun hwrite ops => (PerfDotSocket.balanced_sendtoProg qid buf connect hwrite).path,
    fun s hs => ?_⟩
  have hrecv := PerfDotSocket.releases_of_balanced hrecv hs
  have hready := PerfDotSocket.releases_of_balanced hready hs
  rw [← (s.exec_recvProg openssl3 read connect len).state,
    ← (s.exec_sendtoProg qid buf write connect).state,
    ← (PerfDotSocket.exec_sockreadyProg os s).state]
  rcases PerfDotSocket.releases_sendtoProg_cases qid buf write connect hs with
    ⟨hwrite, hsendto⟩ | ⟨hwrite, hops, hlocked⟩
  · exact ⟨iff_of_true ⟨hrecv, hsendto, hready⟩ hwrite,
      iff_of_true ⟨hrecv.2, hsendto.2, hready.2⟩ hwrite⟩
  · refine ⟨iff_of_false (fun h => ?_) hwrite, iff_of_false (fun h => ?_) hwrite⟩
    · exact nomatch hops ▸ h.2.1.1
    · exact Bool.false_ne_true (h.2.1.symm.trans hlocked)

/-- A ready socket. -/
def readyDot : PerfDotSocket :=
  { (PerfDotSocket.perfNetDotOpensocket ⟨5, true, 0⟩ true true 0 0).1 with isReady := true }

/-- Outcomes of the calls of `perf__dot_sockready`, of which the write and the handshake are
given. -/
def dotReadyWith (write : SslWrite) (handshake : SslConnect) : PerfDotSocket.OsSockready :=
  ⟨⟨6, true, 0⟩, write, ⟨6, true, 0⟩, 0, 0, 0, .success, none, handshake, 0⟩

/-- A write that takes part of a query. -/
theorem dot_calls_release_lock_partial :
    PerfDotSocket.logged (.ok 3) = false ∧
      PerfDotSocket.Releases (PerfDotSocket.sendtoProg 1 [7, 8, 9] (.ok 3) ⟨6, true, 0⟩) readyDot ∧
      (readyDot.perfDotSendto 1 [7, 8, 9] (.ok 3) ⟨6, true, 0⟩).2.1.locked = false := by
  obtain ⟨-, -, -, hcalls⟩ := dot_calls_release_lock true (.data []) ⟨6, true, 0⟩ 512 1 [7, 8, 9]
    (.ok 3) (dotReadyWith (.ok 1) .done)
  obtain ⟨hreleases, hlocked⟩ := hcalls readyDot rfl
  exact ⟨rfl, (hreleases.mpr fun _ => rfl).2.1, (hlocked.mpr fun _ => rfl).2.1⟩

/-- An error of `SSL_write` that is only logged: `perf__dot_sendto` returns with the lock held. -/
theorem perfDotSendto_keeps_lock :
    ((PerfDotSocket.sendtoProg 1 [7, 8, 9] (.error .ssl) ⟨6, true, 0⟩).exec readyDot).ops =
      [.lock] ∧ readyDot.locked = false ∧
      (readyDot.perfDotSendto 1 [7, 8, 9] (.error .ssl) ⟨6, true, 0⟩).2.1.locked = true := by
  decide

end Dnsperf.Net
