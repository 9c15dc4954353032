import Dnsperf.Buffer
import Dnsperf.Net.Stream

/-!
# Dnsperf.Net.Tcp

The TCP transport (`net_tcp.c`). Each function takes the socket and the outcomes of
the system calls it may make, and returns its value, the socket, and what it did
outside the socket (`NetEffect`), in order. System calls whose failure ends the
process (`socket`, `bind`, `fcntl`, `connect` other than `EINPROGRESS`) are taken
not to fail.
-/

namespace Dnsperf.Net

open Dnsperf.Lib

/-- `perf_socket_event_t`. -/
inductive SocketEvent
  | connecting
  | connected
  | reconnecting
  | reconnected
  deriving Repr, DecidableEq

/-- What a call does outside the socket. -/
inductive NetEffect
  /-- A new socket, being connected. -/
  | opened (fd : Int)
  | closed (fd : Int)
  /-- Bytes the kernel accepted. -/
  | wrote (fd : Int) (bytes : Bytes)
  /-- The `event` callback. -/
  | event (event : SocketEvent) (elapsed : Nat)
  /-- The `sent` callback. -/
  | sent (qid : UInt16)
  deriving Repr, DecidableEq

/-- The outcome of reading from the connection: bytes (none at all if the peer closed
it), or an error. -/
inductive OsRead
  | data (bytes : Bytes)
  | error (errno : Errno)
  deriving Repr, DecidableEq

/-- The outcome of writing to the connection: up to how many bytes it takes, or an
error. -/
inductive OsWrite
  | ok (n : Nat)
  | error (errno : Errno)
  deriving Repr, DecidableEq

/-- The outcome of connecting: the descriptor, whether `connect` is still in
progress, and the time. -/
structure OsConnect where
  fd : Int
  inProgress : Bool
  now : Nat
  deriving Repr, DecidableEq

/-- `TCP_SEND_BUF_SIZE`. -/
def tcpSendBufSize : Nat := 65535 + 2

/-- A receive call: what it returns, the bytes it read, and the socket after it. -/
structure RecvCall (Sock : Type) where
  ret : RecvRet
  read : Bytes
  sock : Sock

/-- `struct perf__tcp_socket`. -/
structure PerfTcpSocket where
  fd : Int
  /-- `recvbuf`, `at` and `have_more`. -/
  recv : RecvBuf
  /-- The frame being sent: `sendbuf[0 .. dnslen + 2)`. -/
  sendbuf : Bytes
  sending : Nat
  isReady : Bool
  needReconnect : Bool
  isSending : Bool
  recvfd : Int
  recvNeedReconn : Int
  qid : UInt16
  connTs : Nat
  connEvent : SocketEvent
  conningEvent : SocketEvent
  numQueriesPerConn : Nat
  nqpcTimeout : Nat
  /-- Two counters of 32 bits. -/
  nqpcSent : Nat
  nqpcRecv : Nat
  nqpcTs : Nat
  /-- Whether the `sent` and `event` callbacks are set. -/
  hasSent : Bool
  hasEvent : Bool
  deriving DecidableEq

namespace PerfTcpSocket

variable (s : PerfTcpSocket)

/-- `perf__tcp_connect`. The caller stores the new descriptor. -/
def perfTcpConnect (os : OsConnect) : PerfTcpSocket × List NetEffect :=
  ({ s with
      isReady := !os.inProgress
      nqpcSent := 0
      nqpcRecv := 0
      nqpcTs := 0
      connTs := os.now
      conningEvent := if s.hasEvent then .reconnecting else s.conningEvent },
    .opened os.fd :: if s.hasEvent then [.event s.conningEvent os.now] else [])

/-- `perf_net_tcp_opensocket`: the first connection. -/
def perfNetTcpOpensocket (os : OsConnect) (hasSent hasEvent : Bool)
    (numQueriesPerConn nqpcTimeout : Nat) : PerfTcpSocket × List NetEffect :=
  let (s, effects) := perfTcpConnect
    { fd := 0, recv := RecvBuf.empty, sendbuf := [], sending := 0, isReady := false,
      needReconnect := false, isSending := false, recvfd := 0, recvNeedReconn := 0, qid := 0,
      connTs := 0, connEvent := .connected, conningEvent := .connecting,
      numQueriesPerConn := numQueriesPerConn, nqpcTimeout := nqpcTimeout, nqpcSent := 0,
      nqpcRecv := 0, nqpcTs := 0, hasSent := hasSent, hasEvent := hasEvent } os
  ({ s with fd := os.fd, recvfd := os.fd, recvNeedReconn := -1 }, effects)

/-! ### Receiving -/

/-- The start of `perf__tcp_recv`, with `fd` as it was loaded: another descriptor
than at the previous call means another connection. -/
def recvSync (fd : Int) : PerfTcpSocket :=
  if fd ≠ s.recvfd then { s with recv := RecvBuf.empty, recvfd := fd } else s

/-- The socket after `recvbuf` was looked at. -/
def received (ret : RecvRet) (recv : RecvBuf) : PerfTcpSocket :=
  { s with
    recv := recv
    nqpcRecv := match ret with
      | .packet _ _ => if s.numQueriesPerConn ≠ 0 then (s.nqpcRecv + 1) % 2 ^ 32 else s.nqpcRecv
      | _ => s.nqpcRecv }

/-- The rest of `perf__tcp_recv`. -/
def recvFrom (fd : Int) (os : OsRead) (len : Nat) : RecvCall PerfTcpSocket :=
  if !s.recv.haveMore then
    match os with
    | .data bytes =>
        let bytes := bytes.take s.recv.space
        if bytes = [] then
          -- need reconnect
          ⟨.closed, [], { s with recvNeedReconn := fd }⟩
        else
          let (ret, recv) := s.recv.read bytes len
          ⟨ret, bytes, s.received ret recv⟩
    | .error .ebadf | .error .econnrefused | .error .econnreset | .error .enotconn =>
        -- need reconnect
        ⟨.error .eagain, [], { s with recvNeedReconn := fd }⟩
    | .error errno => ⟨.error errno, [], s⟩
  else
    let (ret, recv) := s.recv.next len
    ⟨ret, [], s.received ret recv⟩

/-- `perf__tcp_recv`. -/
def perfTcpRecv (os : OsRead) (len : Nat) : RecvCall PerfTcpSocket :=
  (s.recvSync s.fd).recvFrom s.fd os len

/-! ### Sending -/

/-- Put the query off until the next connection. -/
def delay : PerfTcpSocket := { s with needReconnect := true, isSending := true, sending := 0 }

/-- `perf__tcp_sendto`: `dnslen` or `errno`. -/
def perfTcpSendto (qid : UInt16) (buf : Bytes) (os : OsWrite) :
    Except Errno Nat × PerfTcpSocket × List NetEffect :=
  let send := if buf.length < tcpSendBufSize - 2 then buf.length else tcpSendBufSize - 2
  let s := { s with sendbuf := be16 send ++ buf.take send, qid := qid }
  if s.recvNeedReconn = s.fd then (.error .einprogress, s.delay, [])
  else
    match os with
    | .error .econnrefused | .error .econnreset | .error .enotconn | .error .epipe =>
        (.error .einprogress, s.delay, [])
    | .error errno => (.error errno, s, [])
    | .ok n =>
        let n := min n (send + 2)
        let effects := [.wrote s.fd (s.sendbuf.take n)]
        if n < send + 2 then
          (.error .einprogress, { s with isSending := true, sending := n }, effects)
        else (.ok (n - 2), { s with nqpcSent := (s.nqpcSent + 1) % 2 ^ 32 }, effects)

/-! ### Readiness -/

/-- The system calls `perf__tcp_sockready` may make, and what they find. -/
structure OsSockready where
  /-- Connecting again, at the start. -/
  connect : OsConnect
  /-- Going on with a delayed query. -/
  send : OsWrite
  /-- Connecting again, after that failed. -/
  reconnect : OsConnect
  /-- Two readings of the clock, and `nqpc_recv`. -/
  now : Nat
  now' : Nat
  nqpcRecv : Nat
  /-- `perf_os_waituntilanywritable`. -/
  wait : PerfResult
  /-- `SO_ERROR`. -/
  soError : Option Errno
  /-- The clock once connected. -/
  connected : Nat
  /-- Sending a delayed query on the new connection. -/
  resend : OsWrite
  deriving DecidableEq

/-- Connect again: the new socket is stored before the old one is closed. -/
def reconnect (os : OsConnect) : PerfTcpSocket × List NetEffect :=
  let (s', effects) := s.perfTcpConnect os
  ({ s' with fd := os.fd }, effects ++ [.closed s.fd])

/-- A delayed query of which the connection takes up to `n` more bytes: whether it is
out now. -/
def flush (n : Nat) : Bool × PerfTcpSocket × List NetEffect :=
  let rest := (s.sendbuf.take (dnslen s.sendbuf + 2)).drop s.sending
  let n := min n rest.length
  let effects := [.wrote s.fd (rest.take n)]
  if s.sending + n < dnslen s.sendbuf + 2 then (false, { s with sending := s.sending + n }, effects)
  else
    (true, { s with sending := 0, isSending := false, nqpcSent := (s.nqpcSent + 1) % 2 ^ 32 },
      effects ++ if s.hasSent then [.sent s.qid] else [])

/-- The check of `num_queries_per_conn`. -/
def checkQueries (os : OsSockready) : Int × PerfTcpSocket :=
  if s.numQueriesPerConn ≠ 0 ∧ s.numQueriesPerConn ≤ s.nqpcSent then
    let s := if s.nqpcTs = 0 then { s with nqpcTs := os.now + s.nqpcTimeout } else s
    if s.nqpcSent ≤ os.nqpcRecv ∨ s.nqpcTs < os.now' then (0, { s with needReconnect := true })
    else (0, s)
  else (1, s)

/-- The socket once connected. -/
def established : PerfTcpSocket :=
  { s with isReady := true, connEvent := if s.hasEvent then .reconnected else s.connEvent }

/-- Send a delayed query on the new connection. -/
def resend (os : OsWrite) : Int × PerfTcpSocket × List NetEffect :=
  if s.isSending then
    match os with
    | .error errno =>
        if errno ≠ .eagain then (0, { s with needReconnect := true }, []) else (0, s, [])
    | .ok n =>
        let (done, s, effects) := s.flush n
        (if done then 1 else 0, s, effects)
  else (1, s, [])

/-- `conn_cont`: wait for the connection, then send a delayed query. -/
def connCont (os : OsSockready) : Int × PerfTcpSocket × List NetEffect :=
  match os.wait with
  | .success =>
      match os.soError with
      | some errno =>
          if errno = .einprogress ∨ errno = .eagain then (0, s, [])
          else
            -- unrecoverable error, reconnect
            (0, { s with needReconnect := true }, [])
      | none =>
          let (ret, s', effects) := s.established.resend os.resend
          (ret, s',
            (if s.hasEvent then [.event s.connEvent (os.connected - s.connTs)] else []) ++ effects)
  | _ => (-1, s, [])

/-- Give the query up if some of it is out. -/
def giveUp : PerfTcpSocket :=
  if s.sending ≠ 0 then { s with sending := 0, isSending := false } else s

/-- Going on with a query failed: connect again. -/
def sendFailed (os : OsSockready) : Int × PerfTcpSocket × List NetEffect :=
  let (s, effects) := s.reconnect os.reconnect
  let (ret, s, effects') := s.giveUp.connCont os
  (ret, s, effects ++ effects')

/-- `perf__tcp_sockready` from the check of `is_ready` on. -/
def readyBody (os : OsSockready) : Int × PerfTcpSocket × List NetEffect :=
  if s.isReady then
    if s.isSending then
      match os.send with
      | .error errno => if errno = .eagain then (0, s, []) else s.sendFailed os
      | .ok n =>
          let (done, s, effects) := s.flush n
          if done then
            let (ret, s) := s.checkQueries os
            (ret, s, effects)
          else (0, s, effects)
    else
      let (ret, s) := s.checkQueries os
      (ret, s, [])
  else s.connCont os

/-- `perf__tcp_sockready` connects again if it, `perf__tcp_sendto` or the receiver
found that it has to. -/
def readyHead (os : OsSockready) : PerfTcpSocket × List NetEffect :=
  if s.recvNeedReconn = s.fd ∨ s.needReconnect then
    let (s, effects) := s.reconnect os.connect
    ({ s with needReconnect := false }, effects)
  else (s, [])

/-- `perf__tcp_sockready`. -/
def perfTcpSockready (os : OsSockready) : Int × PerfTcpSocket × List NetEffect :=
  let (s, effects) := s.readyHead os
  let (ret, s, effects') := s.readyBody os
  (ret, s, effects ++ effects')

end PerfTcpSocket

/-! ### What receiving does to the socket -/

theorem recvFrom_calls (s : PerfTcpSocket) (fd : Int) (os : OsRead) (len : Nat) :
    s.recv.Calls len (s.recvFrom fd os len).ret (s.recvFrom fd os len).read
      (s.recvFrom fd os len).sock.recv := by
  unfold PerfTcpSocket.recvFrom
  split
  · rename_i hmore
    rw [Bool.not_eq_true'] at hmore
    split
    · simp only
      split
      · exact .idle hmore (by simp)
      · rename_i hnil
        exact .read hmore hnil (by simp) rfl
    · exact .idle hmore (by simp)
    · exact .idle hmore (by simp)
    · exact .idle hmore (by simp)
    · exact .idle hmore (by simp)
    · exact .idle hmore (by simp)
  · rename_i hmore
    exact .more (by simpa using hmore) rfl

theorem recvFrom_fd (s : PerfTcpSocket) (fd : Int) (os : OsRead) (len : Nat) :
    (s.recvFrom fd os len).sock.fd = s.fd ∧ (s.recvFrom fd os len).sock.recvfd = s.recvfd := by
  unfold PerfTcpSocket.recvFrom
  split
  · split
    · simp only
      split <;> exact ⟨rfl, rfl⟩
    all_goals exact ⟨rfl, rfl⟩
  · exact ⟨rfl, rfl⟩

end Dnsperf.Net
