import Dnsperf.Net.Tcp

/-!
# Dnsperf.Net.Dot

The DNS-over-TLS transport (`net_dot.c`), in the form of `Dnsperf.Net.Tcp`: each
function takes the outcomes of the system and OpenSSL calls it may make. Only
`SSL_read`, `SSL_write` and `SSL_connect` are visible here; setting up the TLS
session for a descriptor ends the process when it fails.
-/

namespace Dnsperf.Net

open Dnsperf.Lib

/-- `SSL_get_error`, with `errno` where the code looks at it. -/
inductive SslError
  | wantRead
  | wantWrite
  | syscall (errno : Errno)
  | ssl
  | other (code : Nat)
  deriving Repr, DecidableEq

/-- The outcome of `SSL_read`: `data []` is `0`. -/
inductive SslRead
  | data (bytes : Bytes)
  | error (error : SslError)
  deriving Repr, DecidableEq

/-- The outcome of `SSL_write`: up to how many bytes it takes, or a value below 1. -/
inductive SslWrite
  | ok (n : Nat)
  | error (error : SslError)
  deriving Repr, DecidableEq

/-- The outcome of `SSL_connect`. -/
inductive SslConnect
  | done
  /-- `0`: shut down by the peer. -/
  | shutdown
  | error (error : SslError)
  deriving Repr, DecidableEq

/-- `struct perf__dot_socket`. -/
structure PerfDotSocket where
  fd : Int
  /-- Whether `lock` is held. -/
  locked : Bool
  /-- `recvbuf`, `at` and `have_more`. -/
  recv : RecvBuf
  /-- The frame being sent: `sendbuf[0 .. dnslen + 2)`. -/
  sendbuf : Bytes
  sending : Nat
  isReady : Bool
  isConnReady : Bool
  isSending : Bool
  doReconnect : Bool
  qid : UInt16
  connTs : Nat
  connEvent : SocketEvent
  conningEvent : SocketEvent
  numQueriesPerConn : Nat
  nqpcTimeout : Nat
  /-- Two counters of 32 bits. -/
  nqpcSent : Nat
  nqpcRecv : Nat
  nqpcTs : Nat
  /-- Whether the `sent` and `event` callbacks are set. -/
  hasSent : Bool
  hasEvent : Bool
  deriving DecidableEq

namespace PerfDotSocket

variable (s : PerfDotSocket)

/-- `PERF_LOCK(&self->lock)`. -/
def lock : PerfDotSocket := { s with locked := true }

/-- `PERF_UNLOCK(&self->lock)`. -/
def unlock : PerfDotSocket := { s with locked := false }

/-- `perf__dot_connect`. -/
def perfDotConnect (os : OsConnect) : PerfDotSocket × List NetEffect :=
  ({ s with
      fd := os.fd
      isConnReady := if os.inProgress then s.isConnReady else true
      nqpcSent := 0
      nqpcRecv := 0
      nqpcTs := 0
      connTs := os.now
      conningEvent := if s.hasEvent then .reconnecting else s.conningEvent },
    .opened os.fd :: if s.hasEvent then [.event s.conningEvent os.now] else [])

/-- `perf__dot_reconnect`. -/
def perfDotReconnect (os : OsConnect) : PerfDotSocket × List NetEffect :=
  let (s', effects) := perfDotConnect
    { s with
      recv := RecvBuf.empty
      sending := 0
      isSending := if s.sending ≠ 0 then false else s.isSending
      isReady := false
      isConnReady := false } os
  (s', .closed s.fd :: effects)

/-- `perf_net_dot_opensocket`: the first connection. -/
def perfNetDotOpensocket (os : OsConnect) (hasSent hasEvent : Bool)
    (numQueriesPerConn nqpcTimeout : Nat) : PerfDotSocket × List NetEffect :=
  perfDotConnect
    { fd := 0, locked := false, recv := RecvBuf.empty, sendbuf := [], sending := 0,
      isReady := false, isConnReady := false, isSending := false, doReconnect := false, qid := 0,
      connTs := 0, connEvent := .connected, conningEvent := .connecting,
      numQueriesPerConn := numQueriesPerConn, nqpcTimeout := nqpcTimeout, nqpcSent := 0,
      nqpcRecv := 0, nqpcTs := 0, hasSent := hasSent, hasEvent := hasEvent } os

/-! ### Receiving -/

/-- The socket after `recvbuf` was looked at. -/
def received (ret : RecvRet) (recv : RecvBuf) : PerfDotSocket :=
  { s with
    recv := recv
    nqpcRecv := match ret with
      | .packet _ _ => if s.numQueriesPerConn ≠ 0 then (s.nqpcRecv + 1) % 2 ^ 32 else s.nqpcRecv
      | _ => s.nqpcRecv }

/-- `perf__dot_recv` when `SSL_read` failed with a system error. -/
def recvSyscall (errno : Errno) (connect : OsConnect) :
    RecvCall PerfDotSocket × List NetEffect :=
  match errno with
  | .ebadf | .econnrefused | .econnreset | .enotconn =>
      let (s, effects) := s.perfDotReconnect connect
      (⟨.error .eagain, [], s.unlock⟩, effects)
  | _ => (⟨.error errno, [], s.unlock⟩, [])

/-- `perf__dot_recv`. `openssl3` says which OpenSSL it is built with: since 3.0 an
`SSL_ERROR_SSL` is treated as a bad descriptor. -/
def perfDotRecv (openssl3 : Bool) (read : SslRead) (connect : OsConnect) (len : Nat) :
    RecvCall PerfDotSocket × List NetEffect :=
  if !s.recv.haveMore then
    let s := s.lock
    if !s.isReady then (⟨.error .eagain, [], s.unlock⟩, [])
    else
      match read with
      | .data bytes =>
          let bytes := bytes.take s.recv.space
          if bytes = [] then
            let (s, effects) := s.perfDotReconnect connect
            (⟨.error .eagain, [], s.unlock⟩, effects)
          else
            let s := s.unlock
            let (ret, recv) := s.recv.read bytes len
            (⟨ret, bytes, s.received ret recv⟩, [])
      | .error .wantRead => (⟨.error .eagain, [], s.unlock⟩, [])
      | .error .ssl =>
          if openssl3 then s.recvSyscall .ebadf connect
          else (⟨.error .ebadf, [], s.unlock⟩, [])
      | .error (.syscall errno) => s.recvSyscall errno connect
      | .error _ => (⟨.error .ebadf, [], s.unlock⟩, [])
  else
    let (ret, recv) := s.recv.next len
    (⟨ret, [], s.received ret recv⟩, [])

/-! ### Sending -/

/-- `perf__dot_sendto`: `dnslen` or `errno`. The error that is only logged leaves the
lock held. -/
def perfDotSendto (qid : UInt16) (buf : Bytes) (write : SslWrite) (connect : OsConnect) :
    Except Errno Nat × PerfDotSocket × List NetEffect :=
  let send := if buf.length < tcpSendBufSize - 2 then buf.length else tcpSendBufSize - 2
  let s := s.lock
  let s := { s with sendbuf := be16 send ++ buf.take send, qid := qid }
  if !s.isReady then
    (.error .einprogress, { s with isSending := true, sending := 0 }.unlock, [])
  else
    match write with
    | .error (.syscall errno) =>
        if errno ∈ [.econnrefused, .econnreset, .enotconn, .epipe] then
          let (s, effects) := s.perfDotReconnect connect
          (.error .einprogress, { s with isSending := true, sending := 0 }.unlock, effects)
        else (.error errno, s.unlock, [])
    | .error .wantRead | .error .wantWrite =>
        (.error .einprogress, { s with isSending := true, sending := 0 }.unlock, [])
    | .error _ => (.error .ebadf, s, [])
    | .ok n =>
        let n := max 1 (min n (send + 2))
        let effects := [.wrote s.fd (s.sendbuf.take n)]
        if n < send + 2 then
          (.error .einprogress, { s with sending := n, isSending := true }.unlock, effects)
        else
          let s := s.unlock
          (.ok (n - 2), { s with nqpcSent := (s.nqpcSent + 1) % 2 ^ 32 }, effects)

/-! ### Readiness -/

/-- The calls `perf__dot_sockready` may make, and what they find. -/
structure OsSockready where
  /-- Connecting again, at the start. -/
  connect : OsConnect
  /-- Going on with a delayed query. -/
  write : SslWrite
  /-- Connecting again, after that failed or after enough queries. -/
  reconnect : OsConnect
  /-- Two readings of the clock, and `nqpc_recv`. -/
  now : Nat
  now' : Nat
  nqpcRecv : Nat
  /-- `perf_os_waituntilanywritable`. -/
  wait : PerfResult
  /-- `SO_ERROR`. -/
  soError : Option Errno
  /-- The TLS handshake. -/
  handshake : SslConnect
  /-- The clock once connected. -/
  connected : Nat
  deriving DecidableEq

/-- The check of `num_queries_per_conn`. -/
def checkQueries (os : OsSockready) : Int × PerfDotSocket × List NetEffect :=
  if s.numQueriesPerConn ≠ 0 ∧ s.numQueriesPerConn ≤ s.nqpcSent then
    let s := if s.nqpcTs = 0 then { s with nqpcTs := os.now + s.nqpcTimeout } else s
    if s.nqpcSent ≤ os.nqpcRecv ∨ s.nqpcTs < os.now' then
      let s := s.lock
      let (s, effects) := s.perfDotReconnect os.reconnect
      (0, s.unlock, effects)
    else (0, s, [])
  else (1, s, [])

/-- A ready socket: go on with a delayed query, then check the number of queries. -/
def readyBody (os : OsSockready) : Int × PerfDotSocket × List NetEffect :=
  if s.isSending then
    match os.write with
    | .error (.syscall _) =>
        let (s, effects) := s.perfDotReconnect os.reconnect
        (0, s.unlock, effects)
    | .error _ => (0, s.unlock, [])
    | .ok n =>
        let s := s.unlock
        let rest := (s.sendbuf.take (dnslen s.sendbuf + 2)).drop s.sending
        let n := max 1 (min n rest.length)
        let effects := [.wrote s.fd (rest.take n)]
        if s.sending + n < dnslen s.sendbuf + 2 then
          (0, { s with sending := s.sending + n }, effects)
        else
          let s :=
            { s with sending := 0, isSending := false, nqpcSent := (s.nqpcSent + 1) % 2 ^ 32 }
          let (ret, s', effects') := s.checkQueries os
          (ret, s', effects ++ (if s.hasSent then [.sent s.qid] else []) ++ effects')
  else s.unlock.checkQueries os

/-- A connected socket: the TLS handshake. -/
def handshakeBody (os : OsSockready) : Int × PerfDotSocket × List NetEffect :=
  match os.handshake with
  | .shutdown =>
      -- unrecoverable error, reconnect
      (0, { s with doReconnect := true }.unlock, [])
  | .error .wantRead | .error .wantWrite => (0, s.unlock, [])
  | .error _ =>
      -- unrecoverable error, reconnect
      (0, { s with doReconnect := true }.unlock, [])
  | .done =>
      let s := { s with isReady := true }.unlock
      let effects := if s.hasEvent then [.event s.connEvent (os.connected - s.connTs)] else []
      let s := { s with connEvent := if s.hasEvent then .reconnected else s.connEvent }
      (if s.isSending then 0 else 1, s, effects)

/-- A socket that is not ready: wait for the connection, then the handshake. -/
def connectBody (os : OsSockready) : Int × PerfDotSocket × List NetEffect :=
  if !s.isConnReady then
    match os.wait, os.soError with
    | .success, some errno =>
        if errno = .einprogress ∨ errno = .eagain then (0, s.unlock, [])
        else
          -- unrecoverable error, reconnect
          (0, { s with doReconnect := true }.unlock, [])
    | .success, none => { s with isConnReady := true }.handshakeBody os
    | _, _ => (-1, s.unlock, [])
  else s.handshakeBody os

/-- `perf__dot_sockready`. -/
def perfDotSockready (os : OsSockready) : Int × PerfDotSocket × List NetEffect :=
  let s := s.lock
  let (s, effects) :=
    if s.doReconnect then
      let (s, effects) := s.perfDotReconnect os.connect
      ({ s with doReconnect := false }, effects)
    else (s, [])
  let (ret, s, effects') := if s.isReady then s.readyBody os else s.connectBody os
  (ret, s, effects ++ effects')

end PerfDotSocket

end Dnsperf.Net
