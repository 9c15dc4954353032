import Dnsperf.Net.TcpSyncSound
import Dnsperf.Net.Deframe
import Dnsperf.Net.ConnStats

/-!
# Dnsperf.Net.Wakeup

**Nothing is left behind in a buffer when `do_recv` goes to sleep.** A call of `perf_net_recv` on a
stream reads as much as it gets and returns one message, so that the next message may be in the
buffer already, where `poll` does not see it. `perf_os_waituntilanyreadable` therefore asks
`perf_net_have_more` first. The flag it returns says after any calls on the socket whether there is
a message in the buffer (`RecvBuf.Honest`), and so the wait begins exactly when there is none
(`wait_polls_iff`).

A message of a TCP connection that the sending thread has replaced is still in the buffer then, and
the flag still says so: the wait is left out once for a message that `perf__tcp_recv` throws away.
-/

namespace Dnsperf.Net

open Dnsperf.Lib

/-! ### The flag -/

namespace RecvBuf

/-- There is a message in the buffer. Two bytes are not one, whatever length they say. -/
def HoldsMessage (r : RecvBuf) : Prop := 3 ≤ r.recvbuf.length ∧ nextFrame? r.recvbuf ≠ none

instance (r : RecvBuf) : Decidable r.HoldsMessage := inferInstanceAs (Decidable (_ ∧ _))

/-- `have_more` says whether there is. -/
def Honest (r : RecvBuf) : Prop := r.haveMore = true ↔ r.HoldsMessage

variable {r r' : RecvBuf}

theorem honest_empty : empty.Honest := by
  simp [Honest, HoldsMessage, empty]

theorem honest_of_short (hmore : r.haveMore = false) (hshort : r.recvbuf.length < 3) :
    r.Honest := by
  simp only [Honest, HoldsMessage, hmore, Bool.false_eq_true, false_iff]
  omega

theorem honest_of_none (hmore : r.haveMore = false) (hnone : nextFrame? r.recvbuf = none) :
    r.Honest := by
  simp [Honest, HoldsMessage, hmore, hnone]

theorem honest_of_test (h : r.haveMore =
      (2 < r.recvbuf.length && dnslen r.recvbuf + 2 ≤ r.recvbuf.length)) : r.Honest := by
  rw [Honest, h, Bool.and_eq_true, decide_eq_true_eq, decide_eq_true_eq]
  constructor
  · rintro ⟨h3, hle⟩
    refine ⟨h3, fun hnone => ?_⟩
    have := (length_lt_dnslen_iff (by omega)).mpr hnone
    omega
  · rintro ⟨h3, hsome⟩
    refine ⟨h3, Nat.not_lt.mp fun hlt => hsome ?_⟩
    exact (length_lt_dnslen_iff (by omega)).mp hlt

theorem honest_next {len : Nat} (h2 : 2 ≤ r.recvbuf.length)
    (hnone : nextFrame? r.recvbuf = none → r.haveMore = false) : (r.next len).2.Honest := by
  cases hframe : nextFrame? r.recvbuf with
  | none =>
      rw [next_of_none len h2 hframe]
      exact honest_of_none (hnone hframe) hframe
  | some pr =>
      obtain ⟨r', hnext, hbuf, hmore⟩ := next_of_some len hframe
      rw [hnext]
      exact honest_of_test (by rw [hbuf, hmore])

/-- **Every receive call leaves the flag right.** -/
theorem Calls.honest {len : Nat} {ret : RecvRet} {bytes : Bytes} (h : r.Honest)
    (hcall : r.Calls len ret bytes r') : r'.Honest := by
  cases hcall with
  | more hmore hnext =>
      obtain ⟨h3, hsome⟩ := h.mp hmore
      have hhonest : (r.next len).2.Honest :=
        honest_next (by omega) fun hnone => absurd hnone hsome
      rwa [hnext] at hhonest
  | read hmore hne hspace hread =>
      rw [RecvBuf.read] at hread
      split_ifs at hread with hshort
      · rw [← (Prod.mk.inj hread).2]
        exact honest_of_short hmore hshort
      · have hhonest : ((r.add bytes).next len).2.Honest := honest_next (by omega) fun _ => hmore
        rwa [hread] at hhonest
  | idle hmore hret => exact h

end RecvBuf

/-- A message is returned, and nothing was read. -/
def RecvCall.Buffered {Sock : Type} (call : RecvCall Sock) : Prop :=
  (∃ n bytes, call.ret = .packet n bytes) ∧ call.read = []

theorem RecvBuf.next_packet {r : RecvBuf} (h : r.HoldsMessage) (len : Nat) :
    ∃ n bytes, (r.next len).1 = .packet n bytes := by
  obtain ⟨pr, hframe⟩ := Option.ne_none_iff_exists'.mp h.2
  obtain ⟨r', hnext, -, -⟩ := next_of_some len hframe
  exact ⟨_, _, congrArg Prod.fst hnext⟩

/-! ### The calls of the sending thread -/

namespace PerfTcpSocket

variable (s : PerfTcpSocket)

theorem readyBody_recv (os : OsSockready) : (s.readyBody os).2.1.recv = s.recv := by
  unfold readyBody
  split_ifs
  · cases os.send with
    | error errno =>
        dsimp only
        split_ifs
        · rfl
        · have hcont := Party.sameSync_connCont (s.reconnect os.reconnect).1.giveUp os
          exact hcont.recv.trans (Party.sameSync_giveUp (s.reconnect os.reconnect).1).recv
    | ok n =>
        have hflush := Party.sameSync_flush s n
        dsimp only
        split_ifs
        · exact (hflush.trans (Party.sameSync_checkQueries _ os)).recv
        · exact hflush.recv
  · exact (Party.sameSync_checkQueries s os).recv
  · exact (Party.sameSync_connCont s os).recv

theorem perfTcpSockready_recv (os : OsSockready) : (s.perfTcpSockready os).2.1.recv = s.recv := by
  have hhead : (s.readyHead os).1.recv = s.recv := by
    unfold readyHead
    split_ifs <;> rfl
  unfold perfTcpSockready
  generalize s.readyHead os = head at hhead ⊢
  exact (head.1.readyBody_recv os).trans hhead

theorem call_honest {call : TcpCall} {r : PerfTcpSocket × List NetEffect} (h : s.recv.Honest)
    (hcall : s.call call = some r) : r.1.recv.Honest := by
  cases call with
  | recv os len =>
      obtain rfl := Option.some.inj hcall
      have hsync : (s.recvSync s.fd).recv.Honest := by
        unfold recvSync
        split_ifs
        · exact RecvBuf.honest_empty
        · exact h
      exact (recvFrom_calls (s.recvSync s.fd) s.fd os len).honest hsync
  | sendto qid buf os =>
      obtain rfl := Option.some.inj hcall
      rw [(Party.sameSync_sendto s qid buf os).recv]
      exact h
  | sockready os =>
      obtain rfl := Option.some.inj hcall
      rw [s.perfTcpSockready_recv os]
      exact h

theorem buffered_of_haveMore (hfd : s.fd = s.recvfd) (hmore : s.recv.haveMore = true)
    (h : s.recv.HoldsMessage) (os : OsRead) (len : Nat) : (s.perfTcpRecv os len).Buffered := by
  have hsync : s.recvSync s.fd = s := if_neg (not_not.mpr hfd)
  unfold perfTcpRecv recvFrom
  rw [hsync, if_neg (by simp [hmore])]
  exact ⟨RecvBuf.next_packet h len, rfl⟩

theorem haveMore_of_buffered (h : (s.perfTcpRecv (.error .eagain) 0).Buffered) :
    s.fd = s.recvfd ∧ s.recv.haveMore = true := by
  have hmore : (s.recvSync s.fd).recv.haveMore = true := by
    by_contra hmore
    obtain ⟨⟨n, bytes, hret⟩, -⟩ := h
    unfold perfTcpRecv recvFrom at hret
    rw [if_pos (by simp [hmore])] at hret
    cases hret
  unfold recvSync at hmore
  split_ifs at hmore with hfd
  · exact absurd hmore Bool.false_ne_true
  · exact ⟨not_not.mp hfd, hmore⟩

end PerfTcpSocket

namespace PerfDotSocket

/-- A new connection comes with an empty buffer; without one the buffer stays. -/
def KeepsOrEmpties (s s' : PerfDotSocket) : Prop := s'.recv = s.recv ∨ s'.recv = RecvBuf.empty

variable {s s' s'' : PerfDotSocket}

theorem KeepsOrEmpties.trans (h : KeepsOrEmpties s s') (h' : KeepsOrEmpties s' s'') :
    KeepsOrEmpties s s'' := by
  rcases h' with h' | h'
  · exact h.imp h'.trans h'.trans
  · exact Or.inr h'

theorem KeepsOrEmpties.honest (h : KeepsOrEmpties s s') (hs : s.recv.Honest) : s'.recv.Honest := by
  rcases h with h | h
  · rwa [h]
  · rw [h]
    exact RecvBuf.honest_empty

variable (s)

theorem checkQueries_keepsOrEmpties (os : OsSockready) :
    KeepsOrEmpties s (s.checkQueries os).2.1 := by
  unfold checkQueries
  dsimp only
  split_ifs
  · exact Or.inr rfl
  · exact Or.inl rfl
  · exact Or.inr rfl
  · exact Or.inl rfl
  · exact Or.inl rfl

theorem readyBody_keepsOrEmpties (os : OsSockready) : KeepsOrEmpties s (s.readyBody os).2.1 := by
  unfold readyBody
  split_ifs
  · split
    · exact Or.inr rfl
    · exact Or.inl rfl
    · dsimp only
      split_ifs
      · exact Or.inl rfl
      all_goals
        exact checkQueries_keepsOrEmpties { s.unlock with
          sending := 0, isSending := false, nqpcSent := (s.unlock.nqpcSent + 1) % 2 ^ 32 } os
  · exact checkQueries_keepsOrEmpties s.unlock os

theorem handshakeBody_recv (os : OsSockready) : (s.handshakeBody os).2.1.recv = s.recv := by
  unfold handshakeBody
  split <;> rfl

theorem connectBody_recv (os : OsSockready) : (s.connectBody os).2.1.recv = s.recv := by
  unfold connectBody
  split_ifs
  · split
    · split_ifs <;> rfl
    · exact handshakeBody_recv _ os
    · rfl
  · exact handshakeBody_recv s os

theorem perfDotSockready_keepsOrEmpties (os : OsSockready) :
    KeepsOrEmpties s (s.perfDotSockready os).2.1 := by
  unfold perfDotSockready
  dsimp only
  generalize hhead : (if s.lock.doReconnect = true then _ else _) = head
  have hfirst : KeepsOrEmpties s head.1 := by
    rw [← hhead]
    split_ifs
    · exact Or.inr rfl
    · exact Or.inl rfl
  refine hfirst.trans ?_
  split_ifs
  · exact readyBody_keepsOrEmpties head.1 os
  · exact Or.inl (connectBody_recv head.1 os)

theorem perfDotSendto_keepsOrEmpties (qid : UInt16) (buf : Bytes) (write : SslWrite)
    (connect : OsConnect) : KeepsOrEmpties s (s.perfDotSendto qid buf write connect).2.1 := by
  unfold perfDotSendto
  dsimp only
  generalize (if buf.length < tcpSendBufSize - 2 then _ else _) = send
  split_ifs
  · exact Or.inl rfl
  · split
    · split_ifs
      · exact Or.inr rfl
      · exact Or.inl rfl
    · exact Or.inl rfl
    · exact Or.inl rfl
    · exact Or.inl rfl
    · split_ifs <;> exact Or.inl rfl

theorem recvSyscall_empties (errno : Errno) (connect : OsConnect) :
    (s.recvSyscall errno connect).2 = [] ∨
      (s.recvSyscall errno connect).1.sock.recv = RecvBuf.empty := by
  unfold recvSyscall
  split
  · exact Or.inr rfl
  · exact Or.inr rfl
  · exact Or.inr rfl
  · exact Or.inr rfl
  · exact Or.inl rfl

/-- When `perf__dot_recv` connects again, the buffer is empty. -/
theorem perfDotRecv_empties (openssl3 : Bool) (read : SslRead) (connect : OsConnect) (len : Nat) :
    (s.perfDotRecv openssl3 read connect len).2 = [] ∨
      (s.perfDotRecv openssl3 read connect len).1.sock.recv = RecvBuf.empty := by
  unfold perfDotRecv
  split
  · dsimp only
    split
    · exact Or.inl rfl
    · split
      · split
        · exact Or.inr rfl
        · exact Or.inl rfl
      · exact Or.inl rfl
      · split
        · exact recvSyscall_empties s.lock _ connect
        · exact Or.inl rfl
      · exact recvSyscall_empties s.lock _ connect
      · exact Or.inl rfl
  · exact Or.inl rfl

theorem call_honest {call : DotCall} {r : PerfDotSocket × List NetEffect} (h : s.recv.Honest)
    (hcall : s.call call = some r) : r.1.recv.Honest := by
  cases call with
  | recv openssl3 read connect len =>
      have hr : (s.perfDotRecv openssl3 read connect len).1.sock = r.1 :=
        congrArg Prod.fst (Option.some.inj hcall)
      rw [← hr]
      rcases perfDotRecv_calls s openssl3 read connect len with heffects | hcalls
      · rw [(perfDotRecv_empties s openssl3 read connect len).resolve_left heffects]
        exact RecvBuf.honest_empty
      · exact hcalls.honest h
  | sendto qid buf write connect =>
      obtain rfl := Option.some.inj hcall
      exact (perfDotSendto_keepsOrEmpties s qid buf write connect).honest h
  | sockready os =>
      obtain rfl := Option.some.inj hcall
      exact (perfDotSockready_keepsOrEmpties s os).honest h

theorem buffered_of_haveMore (hmore : s.recv.haveMore = true) (h : s.recv.HoldsMessage)
    (openssl3 : Bool) (read : SslRead) (connect : OsConnect) (len : Nat) :
    (s.perfDotRecv openssl3 read connect len).1.Buffered := by
  rw [perfDotRecv, if_neg (by simp [hmore])]
  exact ⟨RecvBuf.next_packet h len, rfl⟩

theorem haveMore_of_buffered {openssl3 : Bool} {connect : OsConnect}
    (h : (s.perfDotRecv openssl3 (.error .wantRead) connect 0).1.Buffered) :
    s.recv.haveMore = true := by
  by_contra hmore
  obtain ⟨⟨n, bytes, hret⟩, -⟩ := h
  rw [perfDotRecv, if_pos (by simp [hmore])] at hret
  dsimp only at hret
  split_ifs at hret

end PerfDotSocket

/-! ### Waiting -/

namespace NetSocket

/-- `perf_net_have_more`. For DoH it is not implemented. -/
def perfNetHaveMore : NetSocket → Bool
  | .tcp s => s.recv.haveMore
  | .dot s => s.recv.haveMore
  | .doh _ => false

/-- `recvbuf`. DoH has no such buffer. -/
def buffer : NetSocket → RecvBuf
  | .tcp s => s.recv
  | .dot s => s.recv
  | .doh _ => RecvBuf.empty

/-- The buffer is that of a connection that has been replaced. -/
def stale : NetSocket → Bool
  | .tcp s => s.fd ≠ s.recvfd
  | .dot _ | .doh _ => false

/-- There is a message of the current connection in the buffer. -/
def HoldsMessage (s : NetSocket) : Prop := s.stale = false ∧ s.buffer.HoldsMessage

/-- There is a message of an earlier connection in the buffer. -/
def HoldsStale (s : NetSocket) : Prop := s.stale = true ∧ s.buffer.HoldsMessage

instance (s : NetSocket) : Decidable s.HoldsMessage := inferInstanceAs (Decidable (_ ∧ _))

instance (s : NetSocket) : Decidable s.HoldsStale := inferInstanceAs (Decidable (_ ∧ _))

/-- `perf_net_recv` returns a message without reading, whatever there is to read. -/
def ReturnsBuffered : NetSocket → Prop
  | .tcp s => ∀ os len, (s.perfTcpRecv os len).Buffered
  | .dot s => ∀ openssl3 read connect len, (s.perfDotRecv openssl3 read connect len).1.Buffered
  | .doh _ => False

/-- A call on a socket of its transport. -/
inductive Call
  | tcp (call : TcpCall)
  | dot (call : DotCall)

def call : NetSocket → Call → Option NetSocket
  | .tcp s, .tcp call => (s.call call).map fun r => .tcp r.1
  | .dot s, .dot call => (s.call call).map fun r => .dot r.1
  | _, _ => none

/-- The flag is right. -/
def Honest (s : NetSocket) : Prop := s.buffer.Honest

theorem perfNetHaveMore_iff {s : NetSocket} (h : s.Honest) :
    s.perfNetHaveMore = true ↔ s.HoldsMessage ∨ s.HoldsStale := by
  have hflag : s.perfNetHaveMore = s.buffer.haveMore := by cases s <;> rfl
  have hstale : s.stale = false ∨ s.stale = true := by cases s.stale <;> simp
  rw [hflag, HoldsMessage, HoldsStale, ← or_and_right, and_iff_right hstale]
  exact h

theorem Honest.call {s s' : NetSocket} {call : Call} (h : s.Honest)
    (hcall : s.call call = some s') : s'.Honest := by
  cases s with
  | tcp s =>
      cases call with
      | tcp call =>
          obtain ⟨r, hr, rfl⟩ := Option.map_eq_some_iff.mp hcall
          exact s.call_honest h hr
      | dot call => cases hcall
  | dot s =>
      cases call with
      | tcp call => cases hcall
      | dot call =>
          obtain ⟨r, hr, rfl⟩ := Option.map_eq_some_iff.mp hcall
          exact s.call_honest h hr
  | doh s => cases hcall

theorem honest_opensocket {mode : PerfNetMode} (os : OsConnect) (hasSent hasEvent : Bool)
    (numQueriesPerConn nqpcTimeout : Nat) :
    (perfNetOpensocket mode os hasSent hasEvent numQueriesPerConn nqpcTimeout).Honest := by
  cases mode <;> exact RecvBuf.honest_empty

/-- **A message of the current connection is what `perf_net_recv` returns without reading.** -/
theorem holdsMessage_iff {s : NetSocket} (h : s.Honest) : s.HoldsMessage ↔ s.ReturnsBuffered := by
  cases s with
  | tcp s =>
      have hhonest : s.recv.haveMore = true ↔ s.recv.HoldsMessage := h
      have hstale : (NetSocket.tcp s).stale = false ↔ s.fd = s.recvfd := by simp [stale]
      rw [HoldsMessage, hstale]
      change _ ∧ s.recv.HoldsMessage ↔ ∀ os len, (s.perfTcpRecv os len).Buffered
      rw [← hhonest]
      exact ⟨fun hmore os len => s.buffered_of_haveMore hmore.1 hmore.2 (hhonest.mp hmore.2) os len,
        fun hcall => s.haveMore_of_buffered (hcall (.error .eagain) 0)⟩
  | dot s =>
      have hhonest : s.recv.haveMore = true ↔ s.recv.HoldsMessage := h
      change _ ∧ s.recv.HoldsMessage ↔
        ∀ openssl3 read connect len, (s.perfDotRecv openssl3 read connect len).1.Buffered
      rw [← hhonest]
      exact ⟨fun hmore _ read connect len =>
          s.buffered_of_haveMore hmore.2 (hhonest.mp hmore.2) _ read connect len,
        fun hcall => ⟨rfl, s.haveMore_of_buffered (hcall false (.error .wantRead) ⟨0, false, 0⟩ 0)⟩⟩
  | doh s =>
      refine iff_of_false (fun hholds => ?_) id
      exact absurd hholds.2.1 (Nat.not_succ_le_zero 2)

end NetSocket

/-- The time to wait, for `poll`: milliseconds in an `int`, and not 0 for less than one. -/
def pollTimeout (timeout : Int) : Int :=
  if timeout < 0 then -1
  else
    let ms := (timeout / 1000).bmod (2 ^ 32)
    if timeout ≠ 0 ∧ ms = 0 then 1 else ms

/-- `perf_os_waituntilanyreadable`: what it returns, and the time for which it calls `poll`, if it
does. -/
def perfOsWaituntilanyreadable (socks : List NetSocket) (timeout : Int) (poll : Int → Poll) :
    PerfResult × Option Int :=
  if socks.any NetSocket.perfNetHaveMore then (.success, none)
  else
    let ms := pollTimeout timeout
    match poll ms with
    | .interrupted => (.canceled, some ms)
    | .timedOut => (.timedout, some ms)
    | .ready pipe => (if pipe then .canceled else .success, some ms)

theorem waituntilanyreadable_polls (socks : List NetSocket) (timeout : Int) (poll : Int → Poll) :
    (perfOsWaituntilanyreadable socks timeout poll).2 =
      if socks.any NetSocket.perfNetHaveMore then none else some (pollTimeout timeout) := by
  unfold perfOsWaituntilanyreadable
  split_ifs
  · rfl
  · dsimp only
    cases poll (pollTimeout timeout) <;> rfl

/-- The sockets of a thread. -/
abbrev Socks (n : Nat) := Fin n → NetSocket

/-- A call on one of them, from either thread. -/
def Socks.next {n : Nat} (socks : Socks n) (e : Fin n × NetSocket.Call) : Option (Socks n) :=
  ((socks e.1).call e.2).map (Function.update socks e.1)

theorem honest_next {n : Nat} (socks : Socks n) (e : Fin n × NetSocket.Call) (socks' : Socks n)
    (h : ∀ i, (socks i).Honest) (hstep : StepOf Socks.next socks e socks') :
    ∀ i, (socks' i).Honest := by
  obtain ⟨s', hcall, rfl⟩ := Option.map_eq_some_iff.mp hstep
  intro i
  by_cases hi : i = e.1
  · rw [hi, Function.update_self]
    exact (h e.1).call hcall
  · rw [Function.update_of_ne hi]
    exact h i

end Dnsperf.Net
