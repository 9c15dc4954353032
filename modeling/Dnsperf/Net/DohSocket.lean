import Dnsperf.Lib.CString
import Dnsperf.Lib.Run
import Dnsperf.Net.Doh

/-!
# Dnsperf.Net.DohSocket

The rest of the DNS-over-HTTPS transport (`net_doh.c`): `perf__doh_recv` with the callbacks
that nghttp2 makes from it, and `perf__doh_sendto`. What nghttp2 finds in the bytes it is
given comes from outside, as the callbacks it makes in order; `nghttp2_session_mem_recv`
goes through them until one does not return 0.

`DohSession` is a socket together with its history, over any sequence of calls.
-/

namespace Dnsperf.Lib

/-- `atoi(s)`. -/
def atoi (s : Bytes) : Int := (strtol 10 s).bmod (2 ^ 32)

end Dnsperf.Lib

namespace Dnsperf.Net

open Dnsperf.Lib

/-- `DNS_MSG_MAX_SIZE`. -/
def dnsMsgMaxSize : Nat := 65535

/-- `nghttp2_frame_type`, as far as the callbacks look at it. -/
inductive FrameType
  | data
  | headers
  | rstStream
  | goaway
  | other (type : Nat)
  deriving Repr, DecidableEq

/-- A callback that `nghttp2_session_mem_recv` makes. -/
inductive Http2Event
  /-- A header field of a frame of the given type. -/
  | header (stream : Nat) (type : FrameType) (name : Bytes) (value : Option Bytes)
  /-- A part of the payload of a DATA frame. -/
  | chunk (stream : Nat) (data : Bytes)
  /-- A frame that is complete. -/
  | frame (stream : Nat) (type : FrameType) (endStream : Bool)
  deriving Repr, DecidableEq

/-- What a callback returns: 0, `NGHTTP2_ERR_PAUSE`, `NGHTTP2_ERR_CALLBACK_FAILURE`; or it ends
the process. -/
inductive CallbackRet
  | ok
  | pause
  | failure
  | fatal
  deriving Repr, DecidableEq

/-- The response being received: `dnsmsg[0 .. dnsmsg_at)` and what goes with it. -/
structure Http2 where
  dnsmsg : Bytes
  dnsmsgCompleted : Bool
  http2Code : Int
  http2IsDns : Bool
  at_le : dnsmsg.length ≤ dnsMsgMaxSize
  deriving DecidableEq

namespace Http2

/-- No response. -/
def empty : Http2 := ⟨[], false, 0, false, Nat.zero_le _⟩

/-- `dnsmsg_completed = false` and `dnsmsg_at = 0`. -/
def clear (h : Http2) : Http2 :=
  { h with dnsmsg := [], dnsmsgCompleted := false, at_le := Nat.zero_le _ }

/-- `_http2_on_header_callback`. -/
def onHeaderCallback (h : Http2) (type : FrameType) (name : Bytes) (value : Option Bytes) : Http2 :=
  match type, value with
  | .headers, some value =>
      if strncasecmpEq name.length (ascii ":status:") name then { h with http2Code := atoi value }
      else if strncasecmpEq name.length (ascii "content-type:") name then
        if strncasecmpEq value.length (ascii "application/dns-message") value then
          { h with http2IsDns := true }
        else h
      else h
  | _, _ => h

/-- `_http2_data_chunk_recv_cb`. -/
def dataChunkRecvCb (h : Http2) (data : Bytes) : CallbackRet × Http2 :=
  if h.dnsmsgCompleted then
    -- can only do one response at a time in `perf__doh_recv`
    (.pause, h)
  else if hle : h.dnsmsg.length + data.length ≤ dnsMsgMaxSize then
    (.ok, { h with dnsmsg := h.dnsmsg ++ data, at_le := by rwa [List.length_append] })
  else (.failure, h)

end Http2

/-- `struct _doh_stats`: `code[i]` counts the responses with code `100 + i`. -/
structure DohStats where
  code : Fin 500 → Nat
  unknownCode : Nat

/-- The counter of a response. -/
def DohStats.count (stats : DohStats) (code : Int) : DohStats :=
  if h : 99 < code ∧ code < 600 then
    let i : Fin 500 := ⟨(code - 100).toNat, by omega⟩
    { stats with code := Function.update stats.code i (stats.code i + 1) }
  else { stats with unknownCode := stats.unknownCode + 1 }

/-- `struct perf__doh_socket`. -/
structure DohSocket where
  base : PerfDohSocket
  http2 : Http2
  stats : DohStats
  /-- `recvbuf[0 .. recv_at)`. -/
  recvbuf : Bytes
  recv_le : recvbuf.length ≤ tcpRecvBufSize

/-- What nghttp2 does with the bytes it is given: the callbacks it makes, if none of them
stops it; then whether it finds an error, and what is in `errno` after one; and how many
bytes it has used. -/
structure OsMemRecv where
  events : List Http2Event
  error : Bool
  errno : Errno
  consumed : Nat

/-- A call of `nghttp2_session_mem_recv`: how it ended, the callbacks it made, and what they
did. -/
structure MemRecvCall where
  ret : CallbackRet
  made : List Http2Event
  sock : DohSocket
  effects : List NetEffect

/-- A call of `perf__doh_recv`: what it returns, the bytes read and those passed to nghttp2,
the callbacks made, and what it did. -/
structure DohRecvCall where
  ret : RecvRet
  read : Bytes
  fed : Bytes
  made : List Http2Event
  sock : DohSocket
  effects : List NetEffect

namespace DohSocket

variable (s : DohSocket)

/-- `PERF_UNLOCK(&self->lock)`. -/
def unlock : DohSocket := { s with base := s.base.unlock }

/-- `perf__doh_reconnect`: `recv_at` stays as it is. -/
def perfDohReconnect : DohSocket × List NetEffect :=
  let (base, effects) := s.base.perfDohReconnect
  ({ s with base := base, http2 := .empty }, effects)

/-! ### Receiving -/

/-- `_http2_frame_recv_cb`. -/
def frameRecvCb (type : FrameType) (endStream : Bool) : CallbackRet × DohSocket × List NetEffect :=
  match type with
  | .data =>
      if endStream then
        -- `frame received when already having a dns msg`
        if s.http2.dnsmsgCompleted then (.fatal, s, [])
        else (.ok, { s with http2 := { s.http2 with dnsmsgCompleted := true } }, [])
      else (.ok, s, [])
  | .rstStream | .goaway =>
      let (s, effects) := s.perfDohReconnect
      (.ok, s, effects)
  | _ => (.ok, s, [])

/-- One callback. The lock is held, so that none of them finds it free. -/
def callback : Http2Event → CallbackRet × DohSocket × List NetEffect
  | .header _ type name value =>
      (.ok, { s with http2 := s.http2.onHeaderCallback type name value }, [])
  | .chunk _ data =>
      let (ret, http2) := s.http2.dataChunkRecvCb data
      (ret, { s with http2 := http2 }, [])
  | .frame _ type endStream => s.frameRecvCb type endStream

/-- `nghttp2_session_mem_recv`: the callbacks, until one does not return 0. -/
def memRecv : DohSocket → List Http2Event → MemRecvCall
  | s, [] => ⟨.ok, [], s, []⟩
  | s, e :: es =>
      match s.callback e with
      | (.ok, s, effects) =>
          let call := memRecv s es
          ⟨call.ret, e :: call.made, call.sock, effects ++ call.effects⟩
      | (ret, s, effects) => ⟨ret, [e], s, effects⟩

/-- The end of `perf__doh_recv`: a response that is complete, if it is a good one. -/
def deliver (len : Nat) : RecvRet × DohSocket :=
  if s.http2.dnsmsgCompleted then
    let s := { s with stats := s.stats.count s.http2.http2Code }
    if !s.http2.http2IsDns then (.error .eagain, { s with http2 := .empty }.unlock)
    else if s.http2.http2Code < 200 ∨ 299 < s.http2.http2Code then
      -- `http2_is_dns` is not set back
      (.error .eagain, { s with http2 := { s.http2.clear with http2Code := 0 } }.unlock)
    else
      let n := if s.http2.dnsmsg.length < len then s.http2.dnsmsg.length else len
      let nqpcRecv :=
        if s.base.numQueriesPerConn ≠ 0 then (s.base.nqpcRecv + 1) % 2 ^ 32 else s.base.nqpcRecv
      -- neither `http2_is_dns` nor `http2_code` is set back
      (.packet n (s.http2.dnsmsg.take n),
        { s with http2 := s.http2.clear, base := { s.base with nqpcRecv := nqpcRecv } }.unlock)
  else (.error .eagain, s.unlock)

/-- `memmove` and `recv_at -= ret`. -/
def consume (n : Nat) : DohSocket :=
  { s with
    recvbuf := s.recvbuf.drop n
    recv_le := le_trans (by rw [List.length_drop]; exact Nat.sub_le _ _) s.recv_le }

/-- `perf__doh_recv` from nghttp2 on. `none` when a callback has ended the process. -/
def recvBody (read : Bytes) (mem : OsMemRecv) (len : Nat) : Option DohRecvCall :=
  let call := s.memRecv mem.events
  match call.ret with
  | .fatal => none
  | .failure => some ⟨.error mem.errno, read, s.recvbuf, call.made, call.sock.unlock, call.effects⟩
  | .ok | .pause =>
      if call.ret = .ok ∧ mem.error then
        some ⟨.error mem.errno, read, s.recvbuf, call.made, call.sock.unlock, call.effects⟩
      else
        let (ret, sock) := (call.sock.consume mem.consumed).deliver len
        some ⟨ret, read, s.recvbuf, call.made, sock, call.effects⟩

/-- `recv_at += n`, for bytes read into the space left. -/
def add (bytes : Bytes) : DohSocket :=
  { s with
    recvbuf := s.recvbuf ++ bytes.take (tcpRecvBufSize - s.recvbuf.length)
    recv_le := by
      have := s.recv_le
      rw [List.length_append, List.length_take]
      omega }

/-- Without a call of nghttp2. -/
def noData (errno : Errno) : Option DohRecvCall :=
  some ⟨.error errno, [], [], [], s.unlock, []⟩

/-- The connection is lost. -/
def lost : Option DohRecvCall :=
  let (s, effects) := s.perfDohReconnect
  some ⟨.error .eagain, [], [], [], s.unlock, effects⟩

/-- `perf__doh_recv`. -/
def perfDohRecv (read : SslRead) (mem : OsMemRecv) (len : Nat) : Option DohRecvCall :=
  let s := { s with base := s.base.lock }
  if !s.base.isReady then s.noData .eagain
  else if s.recvbuf.length < tcpRecvBufSize then
    -- try to recv more if we can
    match read with
    | .data [] => s.lost
    | .data bytes =>
        (s.add bytes).recvBody (bytes.take (tcpRecvBufSize - s.recvbuf.length)) mem len
    | .error .wantRead =>
        -- did not recv but we got something in buffer
        if s.recvbuf ≠ [] then s.recvBody [] mem len else s.noData .eagain
    | .error (.syscall errno) =>
        if errno = .ebadf ∨ errno = .econnrefused ∨ errno = .econnreset ∨ errno = .enotconn then
          s.lost
        else s.noData errno
    | .error _ => s.noData .ebadf
  else s.recvBody [] mem len

variable {s}

theorem memRecv_cons (s : DohSocket) (e : Http2Event) (es : List Http2Event) :
    s.memRecv (e :: es) = if (s.callback e).1 = .ok then
        ⟨((s.callback e).2.1.memRecv es).ret, e :: ((s.callback e).2.1.memRecv es).made,
          ((s.callback e).2.1.memRecv es).sock,
          (s.callback e).2.2 ++ ((s.callback e).2.1.memRecv es).effects⟩
      else ⟨(s.callback e).1, [e], (s.callback e).2.1, (s.callback e).2.2⟩ := by
  rw [memRecv]
  rcases s.callback e with ⟨ret, s', effects⟩
  cases ret <;> rfl

/-- A receive call does not get to nghttp2, or it finds the connection lost, or it passes on
what it has. -/
theorem perfDohRecv_cases {read : SslRead} {mem : OsMemRecv} {len : Nat} {call : DohRecvCall}
    (h : s.perfDohRecv read mem len = some call) :
    (∃ errno, call = ⟨.error errno, [], [], [], { s with base := s.base.lock }.unlock, []⟩) ∨
      (s.base.isReady = true ∧ call = ⟨.error .eagain, [], [], [],
        { s with base := s.base.lock }.perfDohReconnect.1.unlock, [.closed s.base.fd]⟩) ∨
      (s.base.isReady = true ∧ ∃ (s₁ : DohSocket) (bytes : Bytes), s₁.base = s.base.lock ∧
        s₁.http2 = s.http2 ∧ s₁.stats = s.stats ∧ s₁.recvbuf = s.recvbuf ++ bytes ∧
        s₁.recvbuf ≠ [] ∧ s₁.recvBody bytes mem len = some call) := by
  unfold perfDohRecv at h
  dsimp only at h
  have hnone (errno : Errno) (h : { s with base := s.base.lock }.noData errno = some call) :
      ∃ errno, call = ⟨.error errno, [], [], [], { s with base := s.base.lock }.unlock, []⟩ :=
    ⟨errno, (Option.some.inj h).symm⟩
  by_cases hready : s.base.lock.isReady = true
  · rw [if_neg (by rw [hready]; decide)] at h
    by_cases hspace : s.recvbuf.length < tcpRecvBufSize
    · rw [if_pos hspace] at h
      split at h
      · exact Or.inr (Or.inl ⟨hready, (Option.some.inj h).symm⟩)
      · rename_i bytes hdata
        refine Or.inr (Or.inr ⟨hready, { s with base := s.base.lock }.add bytes, _, rfl, rfl, rfl,
          rfl, ?_, h⟩)
        have hbytes : bytes ≠ [] := fun hnil => hdata (by rw [hnil])
        have hpos := List.length_pos_of_ne_nil hbytes
        refine List.ne_nil_of_length_pos ?_
        simp only [add, List.length_append, List.length_take]
        omega
      · split_ifs at h with hbuf
        · exact Or.inr (Or.inr ⟨hready, { s with base := s.base.lock }, [], rfl, rfl, rfl,
            (List.append_nil _).symm, hbuf, h⟩)
        · exact Or.inl (hnone _ h)
      · split_ifs at h
        · exact Or.inr (Or.inl ⟨hready, (Option.some.inj h).symm⟩)
        · exact Or.inl (hnone _ h)
      · exact Or.inl (hnone _ h)
    -- the buffer is full: `SSL_read` is not called, and what is there is passed on
    · rw [if_neg hspace] at h
      refine Or.inr (Or.inr ⟨hready, { s with base := s.base.lock }, [], rfl, rfl, rfl,
        (List.append_nil _).symm, ?_, h⟩)
      intro hnil
      exact hspace (lt_of_eq_of_lt (congrArg List.length hnil) (by decide))
  · rw [if_pos (by simpa using hready)] at h
    exact Or.inl (hnone _ h)

end DohSocket

/-! ### Sending -/

/-- `enum perf_doh_method`. -/
inductive DohMethod
  | get
  | post
  deriving Repr, DecidableEq

/-- The calls `perf__doh_sendto` may make: whether the request could be submitted, and
`nghttp2_session_send`. -/
structure OsSendto where
  submit : Bool
  send : Http2Send
  deriving DecidableEq

/-- `perf__doh_sendto`: `len` or `errno`. `none` when it ends the process. -/
def PerfDohSocket.perfDohSendto (s : PerfDohSocket) (method : DohMethod) (qid : UInt16) (len : Nat)
    (os : OsSendto) : Option (Except Errno Nat × PerfDohSocket × List NetEffect) :=
  let s := s.lock
  if !s.isReady then some (.error .einprogress, s.unlock, [])
  else if s.isSending then none -- `called when sending`
  else
    let s := { s with
      qid := qid
      isPostSending := if method = DohMethod.post then true else s.isPostSending }
    if !os.submit then none
    else
      let (s, effects) := s.sessionSend os.send
      if !os.send.ok then
        some (.error .einprogress, { s with doReconnect := true }.unlock, effects)
      else if s.isPostSending || os.send.wantWrite then
        some (.error .einprogress, { s with isSending := true }.unlock, effects)
      else some (.ok len, { s with nqpcSent := (s.nqpcSent + 1) % 2 ^ 32 }.unlock, effects)

/-! ### A socket and its history -/

def NetEffect.isOpened : NetEffect → Bool
  | .opened _ => true
  | _ => false

def NetEffect.isClosed : NetEffect → Bool
  | .closed _ => true
  | _ => false

/-- What a call on the rest of the socket means for the response being received:
`perf__doh_reconnect`, which closes the connection, drops it. -/
def DohSocket.withBase (s : DohSocket) (base : PerfDohSocket) (effects : List NetEffect) :
    DohSocket :=
  { s with base := base, http2 := if effects.any NetEffect.isClosed then .empty else s.http2 }

/-- A socket, all it has done, and the callbacks made and the responses returned on its
present connection. -/
structure DohSession where
  sock : DohSocket
  effects : List NetEffect
  events : List Http2Event
  packets : List Packet

/-- A call, with the outcomes of what it calls. -/
inductive DohCall
  | recv (read : SslRead) (mem : OsMemRecv) (len : Nat)
  | sendto (method : DohMethod) (qid : UInt16) (len : Nat) (os : OsSendto)
  | sockready (os : PerfDohSocket.OsSockready)

namespace DohSession

/-- `perf_net_doh_opensocket`. -/
def start (os : OsConnect) (hasSent hasEvent : Bool) (numQueriesPerConn nqpcTimeout : Nat) :
    DohSession :=
  let (base, effects) :=
    PerfDohSocket.perfNetDohOpensocket os hasSent hasEvent numQueriesPerConn nqpcTimeout
  ⟨⟨base, .empty, ⟨fun _ => 0, 0⟩, [], Nat.zero_le _⟩, effects, [], []⟩

/-- The session after a call on the rest of the socket. A new connection has a history of
its own. -/
def afterBase (c : DohSession) (base : PerfDohSocket) (effects : List NetEffect) : DohSession where
  sock := c.sock.withBase base effects
  effects := c.effects ++ effects
  events := if effects.any NetEffect.isOpened then [] else c.events
  packets := if effects.any NetEffect.isOpened then [] else c.packets

/-- One call. -/
def next (c : DohSession) : DohCall → Option DohSession
  | .recv read mem len =>
      (c.sock.perfDohRecv read mem len).map fun call =>
        ⟨call.sock, c.effects ++ call.effects, c.events ++ call.made,
          c.packets ++ call.ret.packets len⟩
  | .sendto method qid len os =>
      (c.sock.base.perfDohSendto method qid len os).map fun r => c.afterBase r.2.1 r.2.2
  | .sockready os =>
      let r := c.sock.base.perfDohSockready os
      some (c.afterBase r.2.1 r.2.2)

end DohSession

end Dnsperf.Net
