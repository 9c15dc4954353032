import Dnsperf.Net.Dot

/-!
# Dnsperf.Net.Doh

The DNS-over-HTTPS transport (`net_doh.c`) as far as connecting and readiness go. What
nghttp2 does with the session is an outcome: whether it could send, whether its send
callback replaced the connection, and what it still has to send.
-/

namespace Dnsperf.Net

/-- The outcome of `nghttp2_session_send`. -/
structure Http2Send where
  ok : Bool
  /-- `_http2_send_cb` called `perf__doh_reconnect`. -/
  reconnected : Bool
  /-- The payload of a POST has been read to its end. -/
  payloadSent : Bool
  /-- There are outbound frames left, or the session wants to write. -/
  wantWrite : Bool
  deriving Repr, DecidableEq

/-- `struct perf__doh_socket`, without what belongs to receiving. -/
structure PerfDohSocket where
  fd : Int
  /-- Whether `lock` is held. -/
  locked : Bool
  isReady : Bool
  isConnReady : Bool
  isSslReady : Bool
  isSending : Bool
  isPostSending : Bool
  doReconnect : Bool
  doConnect : Bool
  settingsSent : Bool
  qid : UInt16
  connTs : Nat
  connEvent : SocketEvent
  conningEvent : SocketEvent
  numQueriesPerConn : Nat
  nqpcTimeout : Nat
  /-- Two counters of 32 bits. -/
  nqpcSent : Nat
  nqpcRecv : Nat
  nqpcTs : Nat
  /-- Whether the `sent` and `event` callbacks are set. -/
  hasSent : Bool
  hasEvent : Bool
  deriving DecidableEq

namespace PerfDohSocket

variable (s : PerfDohSocket)

/-- `PERF_LOCK(&self->lock)`. -/
def lock : PerfDohSocket := { s with locked := true }

/-- `PERF_UNLOCK(&self->lock)`. -/
def unlock : PerfDohSocket := { s with locked := false }

/-- `perf__doh_connect`. -/
def perfDohConnect (os : OsConnect) : PerfDohSocket × List NetEffect :=
  ({ s with
      fd := os.fd
      isConnReady := if os.inProgress then s.isConnReady else true
      nqpcSent := 0
      nqpcRecv := 0
      nqpcTs := 0
      connTs := os.now
      conningEvent := if s.hasEvent then .reconnecting else s.conningEvent },
    .opened os.fd :: if s.hasEvent then [.event s.conningEvent os.now] else [])

/-- `perf__doh_reconnect`: the new connection is made by the next
`perf__doh_sockready`. -/
def perfDohReconnect : PerfDohSocket × List NetEffect :=
  ({ s with
      settingsSent := false
      isReady := false
      isConnReady := false
      isSslReady := false
      isSending := false
      isPostSending := false
      doConnect := true },
    [.closed s.fd])

/-- `perf_net_doh_opensocket`: the first connection. -/
def perfNetDohOpensocket (os : OsConnect) (hasSent hasEvent : Bool)
    (numQueriesPerConn nqpcTimeout : Nat) : PerfDohSocket × List NetEffect :=
  perfDohConnect
    { fd := 0, locked := false, isReady := false, isConnReady := false, isSslReady := false,
      isSending := false, isPostSending := false, doReconnect := false, doConnect := false,
      settingsSent := false, qid := 0, connTs := 0, connEvent := .connected,
      conningEvent := .connecting, numQueriesPerConn := numQueriesPerConn,
      nqpcTimeout := nqpcTimeout, nqpcSent := 0, nqpcRecv := 0, nqpcTs := 0, hasSent := hasSent,
      hasEvent := hasEvent } os

/-- What `nghttp2_session_send` does to the socket. -/
def sessionSend (send : Http2Send) : PerfDohSocket × List NetEffect :=
  let s := { s with isPostSending := if send.payloadSent then false else s.isPostSending }
  if send.reconnected then s.perfDohReconnect else (s, [])

/-! ### Readiness -/

/-- The calls `perf__doh_sockready` may make, and what they find. -/
structure OsSockready where
  /-- Connecting, at the start. -/
  connect : OsConnect
  /-- Flushing outstanding frames. -/
  send : Http2Send
  /-- Two readings of the clock, and `nqpc_recv`. -/
  now : Nat
  now' : Nat
  nqpcRecv : Nat
  /-- `perf_os_waituntilanywritable`. -/
  wait : PerfResult
  /-- `SO_ERROR`. -/
  soError : Option Errno
  /-- The TLS handshake, and whether it selected `h2`. -/
  handshake : SslConnect
  alpn : Bool
  /-- Whether the settings could be submitted. -/
  settings : Bool
  /-- The clock once connected. -/
  connected : Nat
  deriving DecidableEq

/-- `perf__doh_sockready` gives up and asks for another connection. -/
def giveUp : Int × PerfDohSocket × List NetEffect := (0, { s with doReconnect := true }.unlock, [])

/-- The check of `num_queries_per_conn`; `sent` says that a delayed query is out now. -/
def checkQueries (sent : Bool) (os : OsSockready) : Int × PerfDohSocket × List NetEffect :=
  let effects := if sent && s.hasSent then [.sent s.qid] else []
  if s.numQueriesPerConn ≠ 0 ∧ s.numQueriesPerConn ≤ s.nqpcSent then
    let s := if s.nqpcTs = 0 then { s with nqpcTs := os.now + s.nqpcTimeout } else s
    let s := if s.nqpcSent ≤ os.nqpcRecv ∨ s.nqpcTs < os.now' then { s with doReconnect := true }
      else s
    (0, s.unlock, effects)
  else (1, s.unlock, effects)

/-- A ready socket: flush outstanding frames, then check the number of queries. -/
def readyBody (os : OsSockready) : Int × PerfDohSocket × List NetEffect :=
  let (s, effects) := s.sessionSend os.send
  if !os.send.ok then
    let (ret, s, effects') := s.giveUp
    (ret, s, effects ++ effects')
  else if s.isSending then
    if s.isPostSending || os.send.wantWrite then (0, s.unlock, effects)
    else
      let (ret, s, effects') :=
        { s with isSending := false, nqpcSent := (s.nqpcSent + 1) % 2 ^ 32 }.checkQueries true os
      (ret, s, effects ++ effects')
  else
    let (ret, s, effects') := s.checkQueries false os
    (ret, s, effects ++ effects')

/-- The HTTP/2 settings, after which the socket is ready. -/
def settingsBody (os : OsSockready) : Int × PerfDohSocket × List NetEffect :=
  if !s.settingsSent && !os.settings then s.giveUp
  else
    (1, { s with
        settingsSent := true
        isReady := true
        connEvent := if s.hasEvent then .reconnected else s.connEvent }.unlock,
      if s.hasEvent then [.event s.connEvent (os.connected - s.connTs)] else [])

/-- A connected socket: the TLS handshake. -/
def handshakeBody (os : OsSockready) : Int × PerfDohSocket × List NetEffect :=
  if !s.isSslReady then
    match os.handshake with
    | .error .wantRead | .error .wantWrite => (0, s.unlock, [])
    | .shutdown | .error _ =>
        -- unrecoverable error, reconnect
        s.giveUp
    | .done => if !os.alpn then s.giveUp else { s with isSslReady := true }.settingsBody os
  else s.settingsBody os

/-- A socket that is not ready: wait for the connection, then the handshake. -/
def connectBody (os : OsSockready) : Int × PerfDohSocket × List NetEffect :=
  if !s.isConnReady then
    match os.wait, os.soError with
    | .success, some errno =>
        if errno = .einprogress ∨ errno = .eagain then (0, s.unlock, [])
        else
          -- unrecoverable error, reconnect
          s.giveUp
    | .success, none => { s with isConnReady := true }.handshakeBody os
    | _, _ => (-1, s.unlock, [])
  else s.handshakeBody os

/-- The start of `perf__doh_sockready`: close a connection to be replaced, and connect. -/
def readyHead (os : OsSockready) : PerfDohSocket × List NetEffect :=
  let (s, effects) :=
    if s.doReconnect then
      let (s, effects) := s.perfDohReconnect
      ({ s with doReconnect := false }, effects)
    else (s, [])
  if s.doConnect then
    let (s, effects') := s.perfDohConnect os.connect
    ({ s with doConnect := false }, effects ++ effects')
  else (s, effects)

/-- `perf__doh_sockready`. -/
def perfDohSockready (os : OsSockready) : Int × PerfDohSocket × List NetEffect :=
  let (s, effects) := s.lock.readyHead os
  let (ret, s, effects') := if s.isReady then s.readyBody os else s.connectBody os
  (ret, s, effects ++ effects')

end PerfDohSocket

end Dnsperf.Net
