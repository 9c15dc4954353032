import Dnsperf.Net.Dot

/-!
# Dnsperf.Net.Deframe

**Stream deframing is exact**, for TCP and for TLS: within one connection, however
the bytes arrive and whatever the sending thread does in between, the frames
returned are the frames received.

Both receive functions are calls in the sense of `RecvBuf.Calls`, and the argument is
about those.
-/

namespace Dnsperf.Net

open Dnsperf.Lib Session

/-! ### TCP -/

/-- A receive call on a TCP connection: the socket as the sending thread left it since
the last call, what `recv` finds, and the length of the caller's buffer. -/
structure TcpRecvEvent where
  sock : PerfTcpSocket
  os : OsRead
  len : Nat

/-- The call, when the sending thread has not replaced the connection since. -/
def tcpRecvStep (c : Session PerfTcpSocket) (e : TcpRecvEvent) (c' : Session PerfTcpSocket) :
    Prop :=
  (e.sock.recv = c.sock.recv ∧ e.sock.recvfd = c.sock.recvfd ∧ e.sock.fd = c.sock.fd) ∧
    c' = c.after (e.sock.perfTcpRecv e.os e.len).read e.len (e.sock.perfTcpRecv e.os e.len).ret
      (e.sock.perfTcpRecv e.os e.len).sock

theorem exact_tcpRecvStep {c c' : Session PerfTcpSocket} {e : TcpRecvEvent}
    (hexact : Exact PerfTcpSocket.recv c) (hfd : c.sock.fd = c.sock.recvfd)
    (h : tcpRecvStep c e c') :
    Exact PerfTcpSocket.recv c' ∧ c'.sock.fd = c'.sock.recvfd := by
  obtain ⟨⟨hrecv, hrecvfd, hsockfd⟩, rfl⟩ := h
  have hsame : e.sock.fd = e.sock.recvfd := by rw [hsockfd, hrecvfd, hfd]
  have hsync : e.sock.perfTcpRecv e.os e.len = e.sock.recvFrom e.sock.fd e.os e.len := by
    rw [PerfTcpSocket.perfTcpRecv, PerfTcpSocket.recvSync, if_neg (not_not.mpr hsame)]
  have hcalls := recvFrom_calls e.sock e.sock.fd e.os e.len
  obtain ⟨hfd', hrecvfd'⟩ := recvFrom_fd e.sock e.sock.fd e.os e.len
  rw [hrecv] at hcalls
  rw [hsync]
  exact ⟨exact_of_calls hexact hcalls, by rw [after_sock, hfd', hrecvfd', hsame]⟩

/-! ### TLS -/

/-- A receive call on a TLS connection: the socket as the sending thread left it since
the last call, what `SSL_read` finds, the connection made if the call reconnects, and
the length of the caller's buffer. -/
structure DotRecvEvent where
  sock : PerfDotSocket
  openssl3 : Bool
  read : SslRead
  connect : OsConnect
  len : Nat

/-- The call, when neither it nor the sending thread replaces the connection. -/
def dotRecvStep (c : Session PerfDotSocket) (e : DotRecvEvent) (c' : Session PerfDotSocket) :
    Prop :=
  e.sock.recv = c.sock.recv ∧ (e.sock.perfDotRecv e.openssl3 e.read e.connect e.len).2 = [] ∧
    c' = c.after (e.sock.perfDotRecv e.openssl3 e.read e.connect e.len).1.read e.len
      (e.sock.perfDotRecv e.openssl3 e.read e.connect e.len).1.ret
      (e.sock.perfDotRecv e.openssl3 e.read e.connect e.len).1.sock

theorem perfDotReconnect_effects (s : PerfDotSocket) (os : OsConnect) :
    (s.perfDotReconnect os).2 ≠ [] := by
  simp [PerfDotSocket.perfDotReconnect]

theorem recvSyscall_calls {s : PerfDotSocket} (hmore : s.recv.haveMore = false) (errno : Errno)
    (connect : OsConnect) (len : Nat) :
    (s.recvSyscall errno connect).2 ≠ [] ∨
      s.recv.Calls len (s.recvSyscall errno connect).1.ret (s.recvSyscall errno connect).1.read
        (s.recvSyscall errno connect).1.sock.recv := by
  unfold PerfDotSocket.recvSyscall
  split
  · exact Or.inl (perfDotReconnect_effects s connect)
  · exact Or.inl (perfDotReconnect_effects s connect)
  · exact Or.inl (perfDotReconnect_effects s connect)
  · exact Or.inl (perfDotReconnect_effects s connect)
  · exact Or.inr (.idle hmore (by simp))

/-- `perf__dot_recv` reconnects, or is a receive call. -/
theorem perfDotRecv_calls (s : PerfDotSocket) (openssl3 : Bool) (read : SslRead)
    (connect : OsConnect) (len : Nat) :
    (s.perfDotRecv openssl3 read connect len).2 ≠ [] ∨
      s.recv.Calls len (s.perfDotRecv openssl3 read connect len).1.ret
        (s.perfDotRecv openssl3 read connect len).1.read
        (s.perfDotRecv openssl3 read connect len).1.sock.recv := by
  unfold PerfDotSocket.perfDotRecv
  split
  · rename_i hmore
    rw [Bool.not_eq_true'] at hmore
    simp only
    split
    · exact Or.inr (.idle hmore (by simp))
    · split
      · split
        · exact Or.inl (perfDotReconnect_effects _ connect)
        · rename_i hnil
          exact Or.inr (.read hmore hnil (by simp [PerfDotSocket.lock]) rfl)
      · exact Or.inr (.idle hmore (by simp))
      · split
        · exact recvSyscall_calls (s := s.lock) hmore _ connect len
        · exact Or.inr (.idle hmore (by simp))
      · exact recvSyscall_calls (s := s.lock) hmore _ connect len
      · exact Or.inr (.idle hmore (by simp))
  · rename_i hmore
    exact Or.inr (.more (by simpa using hmore) rfl)

/-- **Stream deframing is exact**, on a TCP and on a TLS connection, in every run of
receive calls. -/
theorem recv_deframes_exactly (tcp : PerfTcpSocket) (dot : PerfDotSocket)
    (htcp : tcp.recv = RecvBuf.empty ∧ tcp.fd = tcp.recvfd) (hdot : dot.recv = RecvBuf.empty)
    (tcpEvents : List TcpRecvEvent) (dotEvents : List DotRecvEvent)
    (tcpEnd : Session PerfTcpSocket) (dotEnd : Session PerfDotSocket)
    (htcpRun : Run tcpRecvStep (start tcp) tcpEvents tcpEnd)
    (hdotRun : Run dotRecvStep (start dot) dotEvents dotEnd) :
    Exact PerfTcpSocket.recv tcpEnd ∧ Exact PerfDotSocket.recv dotEnd := by
  constructor
  · have hinv : Exact PerfTcpSocket.recv tcpEnd ∧ tcpEnd.sock.fd = tcpEnd.sock.recvfd := by
      refine htcpRun.invariant (I := fun c => Exact PerfTcpSocket.recv c ∧
        c.sock.fd = c.sock.recvfd) ?_ ⟨exact_start htcp.1, htcp.2⟩
      rintro c e c' ⟨hexact, hfd⟩ hstep
      exact exact_tcpRecvStep hexact hfd hstep
    exact hinv.1
  · refine hdotRun.invariant ?_ (exact_start hdot)
    rintro c e c' hexact ⟨hrecv, heffects, rfl⟩
    have hcalls := (perfDotRecv_calls e.sock e.openssl3 e.read e.connect e.len).resolve_left
      (not_not.mpr heffects)
    rw [hrecv] at hcalls
    exact exact_of_calls hexact hcalls

theorem tcpRecvStep_self (c : Session PerfTcpSocket) (os : OsRead) (len : Nat) :
    tcpRecvStep c ⟨c.sock, os, len⟩ (c.after (c.sock.perfTcpRecv os len).read len
      (c.sock.perfTcpRecv os len).ret (c.sock.perfTcpRecv os len).sock) :=
  ⟨⟨rfl, rfl, rfl⟩, rfl⟩

theorem dotRecvStep_self (c : Session PerfDotSocket) (read : SslRead) (connect : OsConnect)
    (len : Nat) (h : (c.sock.perfDotRecv true read connect len).2 = []) :
    dotRecvStep c ⟨c.sock, true, read, connect, len⟩
      (c.after (c.sock.perfDotRecv true read connect len).1.read len
        (c.sock.perfDotRecv true read connect len).1.ret
        (c.sock.perfDotRecv true read connect len).1.sock) :=
  ⟨rfl, h, rfl⟩

/-- A frame in two pieces, on either connection. -/
theorem deframes_two_pieces :
    ∃ tcpEnd dotEnd, Exact PerfTcpSocket.recv tcpEnd ∧ Exact PerfDotSocket.recv dotEnd ∧
      tcpEnd.received = [0, 2, 7, 8] ∧ tcpEnd.packets = [⟨512, 2, [7, 8]⟩] ∧
      dotEnd.received = [0, 2, 7, 8] ∧ dotEnd.packets = [⟨512, 2, [7, 8]⟩] := by
  obtain ⟨htcp, hdot⟩ :=
    recv_deframes_exactly (PerfTcpSocket.perfNetTcpOpensocket ⟨5, false, 0⟩ true true 0 0).1
      { (PerfDotSocket.perfNetDotOpensocket ⟨5, false, 0⟩ true true 0 0).1 with isReady := true }
      ⟨rfl, rfl⟩ rfl _ _ _ _
      (.cons (tcpRecvStep_self _ (.data [0, 2, 7]) 512)
        (.cons (tcpRecvStep_self _ (.data [8]) 512) (.nil _)))
      (.cons (dotRecvStep_self _ (.data [0, 2, 7]) ⟨6, false, 0⟩ 512 (by decide))
        (.cons (dotRecvStep_self _ (.data [8]) ⟨6, false, 0⟩ 512 (by decide)) (.nil _)))
  exact ⟨_, _, htcp, hdot, by decide, by decide, by decide, by decide⟩

end Dnsperf.Net
