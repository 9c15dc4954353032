import Dnsperf.Lib.LockedLog
import Dnsperf.Net.DotSync
import Dnsperf.Net.TcpFraming

/-!
# Dnsperf.Net.DotFraming

What the two threads of a DNS-over-TLS socket put on each connection, in any interleaving of their
steps. `SenderAt` says for every place the sending thread can be at between two steps what the
current connection holds: whole frames, and the part of the delayed query that is out.

One place is delicate. `perf__dot_sockready` writes a part of the delayed query and adds its length
to `sending` only after it has released the lock. If the receiving thread replaces the connection in
between, `perf__dot_reconnect` looks at `sending` to see whether a part of the query is out: with an
earlier part counted it gives the query up, but a **first** part is not counted yet, the query stays
delayed, and it is then continued on the new connection where it was left on the old one.
-/

namespace Dnsperf.Net

open Dnsperf.Lib PerfDotSocket

/-! ### The two threads -/

/-- The fields of the socket that say what is being sent. -/
structure SendView where
  isSending : Bool
  sendbuf : Bytes
  sending : Nat

/-- The delayed query of a socket. -/
def PerfDotSocket.view (s : PerfDotSocket) : SendView := ⟨s.isSending, s.sendbuf, s.sending⟩

/-- What `perf__dot_reconnect` makes of it. -/
def SendView.reconnected (v : SendView) : SendView :=
  ⟨if v.sending ≠ 0 then false else v.isSending, v.sendbuf, 0⟩

/-- A socket with its two threads, and what was written. -/
structure DotParty where
  sock : PerfDotSocket
  sender : DotProg
  receiver : DotProg
  log : SendLog

namespace DotParty

/-- A call begins, or a thread makes a step. -/
inductive Event
  | sockready (os : PerfDotSocket.OsSockready)
  | sendto (qid : UInt16) (buf : Bytes) (write : SslWrite) (connect : OsConnect)
  | recv (openssl3 : Bool) (read : SslRead) (connect : OsConnect) (len : Nat)
  | sender
  | receiver

/-- A query is only sent after `perf__dot_sockready` returned 1. -/
def next (c : DotParty) : Event → Option DotParty
  | .sockready os =>
      match c.sender with
      | .ret _ => some { c with sender := sockreadyProg os }
      | _ => none
  | .sendto qid buf write connect =>
      match c.sender with
      | .ret (.sockready 1) => some { c with sender := sendtoProg qid buf write connect }
      | _ => none
  | .recv openssl3 read connect len =>
      match c.receiver with
      | .ret _ => some { c with receiver := recvProg openssl3 read connect len }
      | _ => none
  | .sender => do
      let (p, s, effects) ← c.sender.advance c.sock
      some { c with sock := s, sender := p, log := c.log.recordAll effects }
  | .receiver => do
      let (p, s, effects) ← c.receiver.advance c.sock
      some { c with sock := s, receiver := p, log := c.log.recordAll effects }

/-- The socket just opened. -/
def start (os : OsConnect) (hasSent hasEvent : Bool) (numQueriesPerConn nqpcTimeout : Nat) :
    DotParty :=
  ⟨(perfNetDotOpensocket os hasSent hasEvent numQueriesPerConn nqpcTimeout).1, .ret (.sockready 0),
    .ret (.recv (.error .eagain) []), ⟨os.fd, [], []⟩⟩

/-- What a step does outside the socket. -/
def effects (c : DotParty) : Event → List NetEffect
  | .sender => ((c.sender.advance c.sock).map (·.2.2)).getD []
  | .receiver => ((c.receiver.advance c.sock).map (·.2.2)).getD []
  | .sockready .. | .sendto .. | .recv .. => []

/-- The receiving thread does not replace the connection while a part of a query is out that
`sending` does not count. -/
def Counted (c : DotParty) : Event → Prop
  | .receiver =>
      c.effects .receiver ≠ [] → c.sock.sending = 0 → (splitFrames c.log.current).2 = []
  | _ => True

instance (c : DotParty) : (e : Event) → Decidable (c.Counted e)
  | .receiver => inferInstanceAs (Decidable (_ → _ → _))
  | .sockready .. | .sendto .. | .recv .. | .sender => inferInstanceAs (Decidable True)

section Next

variable {c c' : DotParty}

/-! One lemma for each way a step can go. -/

theorem next_sockready {os : PerfDotSocket.OsSockready} (h : c.next (.sockready os) = some c') :
    (∃ ret, c.sender = .ret ret) ∧ c' = { c with sender := sockreadyProg os } := by
  obtain ⟨sock, sender, receiver, log⟩ := c
  cases sender with
  | ret ret => exact ⟨⟨ret, rfl⟩, (Option.some.inj h).symm⟩
  | lock _ | unlock _ | step _ _ => exact nomatch h

theorem next_sendto {qid : UInt16} {buf : Bytes} {write : SslWrite} {connect : OsConnect}
    (h : c.next (.sendto qid buf write connect) = some c') :
    c.sender = .ret (.sockready 1) ∧
      c' = { c with sender := sendtoProg qid buf write connect } := by
  unfold next at h
  dsimp only at h
  split at h
  · rename_i hsender
    exact ⟨hsender, (Option.some.inj h).symm⟩
  · exact nomatch h

theorem next_recv {openssl3 : Bool} {read : SslRead} {connect : OsConnect} {len : Nat}
    (h : c.next (.recv openssl3 read connect len) = some c') :
    c' = { c with receiver := recvProg openssl3 read connect len } := by
  obtain ⟨sock, sender, receiver, log⟩ := c
  cases receiver with
  | ret ret => exact (Option.some.inj h).symm
  | lock _ | unlock _ | step _ _ => exact nomatch h

theorem next_sender (h : c.next .sender = some c') :
    ∃ p s effects, c.sender.advance c.sock = some (p, s, effects) ∧ c.effects .sender = effects ∧
      c' = { c with sock := s, sender := p, log := c.log.recordAll effects } := by
  obtain ⟨⟨p, s, effects⟩, hadv, hc'⟩ := Option.bind_eq_some_iff.mp h
  exact ⟨p, s, effects, hadv, by simp only [DotParty.effects, hadv]; rfl,
    (Option.some.inj hc').symm⟩

theorem next_receiver (h : c.next .receiver = some c') :
    ∃ q s effects, c.receiver.advance c.sock = some (q, s, effects) ∧
      c.effects .receiver = effects ∧
      c' = { c with sock := s, receiver := q, log := c.log.recordAll effects } := by
  obtain ⟨⟨q, s, effects⟩, hadv, hc'⟩ := Option.bind_eq_some_iff.mp h
  exact ⟨q, s, effects, hadv, by simp only [DotParty.effects, hadv]; rfl,
    (Option.some.inj hc').symm⟩

end Next

/-- The sending thread by itself does what its program does with nothing in between. -/
theorem sender_alone {c c' : DotParty} {es : List Event} (hrun : Run (StepOf next) c es c')
    (hes : ∀ e ∈ es, e = .sender) {ret : DotRet} (hret : c'.sender = .ret ret) :
    (c.sender.exec c.sock).ret = ret ∧ (c.sender.exec c.sock).state = c'.sock ∧
      c'.log = c.log.recordAll (c.sender.exec c.sock).effects := by
  induction hrun with
  | nil c =>
      rw [hret]
      exact ⟨rfl, rfl, rfl⟩
  | cons hstep _ ih =>
      obtain ⟨rfl, htail⟩ := List.forall_mem_cons.mp hes
      obtain ⟨p, s, effects, hadv, -, rfl⟩ := next_sender hstep
      obtain ⟨hsame, hstate, heffects⟩ := Prog.exec_advance hadv
      obtain ⟨hret, hsock, hlog⟩ := ih htail hret
      refine ⟨hsame.trans hret, hstate.trans hsock, ?_⟩
      rw [hlog, heffects, SendLog.recordAll_append]

/-- **`perf__dot_sockready`**, step by step but undisturbed, is the call of `Dnsperf.Net.Dot`. -/
theorem sockready_alone {c c' : DotParty} {es : List Event} {os : PerfDotSocket.OsSockready}
    (hrun : Run (StepOf next) c (.sockready os :: es) c') (hes : ∀ e ∈ es, e = .sender)
    {ret : DotRet} (hret : c'.sender = .ret ret) :
    ret = .sockready (c.sock.perfDotSockready os).1 ∧ c'.sock = (c.sock.perfDotSockready os).2.1 ∧
      c'.log = c.log.recordAll (c.sock.perfDotSockready os).2.2 := by
  cases hrun with
  | cons hstep hrun =>
      obtain ⟨-, rfl⟩ := next_sockready hstep
      obtain ⟨hsame, hsock, hlog⟩ := sender_alone hrun hes hret
      obtain ⟨hcall, hstate, heffects⟩ := exec_sockreadyProg os c.sock
      rw [heffects] at hlog
      exact ⟨hsame.symm.trans hcall, hsock.symm.trans hstate, hlog⟩

/-! ### What the current connection holds -/

variable {Q : Bytes → Prop} {v : SendView} {s s' : PerfDotSocket} {l : SendLog}

/-- Whole frames. -/
def Whole (Q : Bytes → Prop) (l : SendLog) : Prop := ∃ ps, l.current = frames ps ∧ ∀ p ∈ ps, Q p

/-- Whole frames, and `k` bytes of the query in `sendbuf`. -/
def PartOut (Q : Bytes → Prop) (v : SendView) (l : SendLog) (q : Bytes) (k : Nat) : Prop :=
  Q q ∧ v.sendbuf = frame q ∧ k ≤ (frame q).length ∧
    ∃ ps, l.current = frames ps ++ (frame q).take k ∧ ∀ p ∈ ps, Q p

/-- Between two calls: `sending` bytes of a delayed query are out, or there is none. -/
structure Settled (Q : Bytes → Prop) (v : SendView) (l : SendLog) : Prop where
  delayed : v.isSending = true → ∃ q, PartOut Q v l q v.sending ∧ v.sending < (frame q).length
  idle : v.isSending = false → Whole Q l

theorem Whole.framedPrefix (h : Whole Q l) : FramedPrefix Q l.current := by
  obtain ⟨ps, hcur, hps⟩ := h
  exact ⟨ps, [], by rw [hcur, List.append_nil], hps, Or.inl rfl⟩

theorem PartOut.whole {q : Bytes} (h : PartOut Q v l q (frame q).length) : Whole Q l := by
  obtain ⟨hq, -, -, ps, hcur, hps⟩ := h
  refine ⟨ps ++ [q], ?_, List.forall_mem_append.mpr ⟨hps, List.forall_mem_singleton.mpr hq⟩⟩
  rw [hcur, frames_concat, List.take_length]

theorem PartOut.framedPrefix {q : Bytes} {k : Nat} (h : PartOut Q v l q k) :
    FramedPrefix Q l.current := by
  obtain ⟨hq, hbuf, hk, ps, hcur, hps⟩ := h
  rcases Nat.lt_or_eq_of_le hk with hlt | rfl
  · refine ⟨ps, _, hcur, hps, Or.inr ⟨q, hq, List.take_prefix _ _, ?_⟩⟩
    rw [List.length_take]
    omega
  · exact PartOut.whole ⟨hq, hbuf, hk, ps, hcur, hps⟩ |>.framedPrefix

theorem Settled.framedPrefix (h : Settled Q v l) : FramedPrefix Q l.current := by
  cases hsend : v.isSending with
  | true =>
      obtain ⟨q, hpart, -⟩ := h.delayed hsend
      exact hpart.framedPrefix
  | false => exact (h.idle hsend).framedPrefix

theorem Settled.of_idle (hsend : v.isSending = false) (h : Whole Q l) : Settled Q v l :=
  ⟨fun hs => absurd (hsend.symm.trans hs) Bool.false_ne_true, fun _ => h⟩

theorem whole_new (fd : Int) (earlier : List Bytes) : Whole Q ⟨fd, [], earlier⟩ :=
  ⟨[], rfl, nofun⟩

/-- After `perf__dot_reconnect` a delayed query starts over. -/
theorem Settled.reconnected (h : Settled Q v l) (fd : Int) (earlier : List Bytes) :
    Settled Q v.reconnected ⟨fd, [], earlier⟩ := by
  refine ⟨fun hsend => ?_, fun _ => whole_new fd earlier⟩
  have hsend' : v.isSending = true := by
    simp only [SendView.reconnected] at hsend
    split_ifs at hsend
    exact hsend
  obtain ⟨q, ⟨hq, hbuf, -, -⟩, -⟩ := h.delayed hsend'
  have hpos : 0 < (frame q).length := by
    rw [frame_length]
    exact Nat.succ_pos _
  exact ⟨q, ⟨hq, hbuf, Nat.zero_le _, [], rfl, nofun⟩, hpos⟩

theorem reconnected_isSending (h : v.isSending = false) : v.reconnected.isSending = false := by
  simp [SendView.reconnected, h]

/-! ### Where the sending thread is -/

/-- The programs `perf__dot_sockready` goes on with when there is no delayed query. -/
inductive CalmProg : DotProg → Prop
  | sent (os : PerfDotSocket.OsSockready) : CalmProg (sentProg os)
  | count (os : PerfDotSocket.OsSockready) : CalmProg (countProg os)
  | queries (os : PerfDotSocket.OsSockready) : CalmProg (queriesProg os)
  | stamp (os : PerfDotSocket.OsSockready) : CalmProg (stampProg os)
  | timeout (os : PerfDotSocket.OsSockready) : CalmProg (timeoutProg os)
  | replace (os : PerfDotSocket.OsSockready) : CalmProg (replaceProg os)
  | sentWhole (n : Nat) : CalmProg (sentWholeProg n)

/-- The current connection, for each place the sending thread can be at. After the write in
`perf__dot_sockready` the connection may have been replaced (`addNew`, `checkNew`). -/
inductive SenderAt (Q : Bytes → Prop) (v : SendView) (l : SendLog) : DotProg → Prop
  | returned (ret : DotRet) : Settled Q v l → (ret = .sockready 1 → v.isSending = false) →
      SenderAt Q v l (.ret ret)
  | sockready (os : PerfDotSocket.OsSockready) : Settled Q v l → SenderAt Q v l (sockreadyProg os)
  | sendto (qid : UInt16) (buf : Bytes) (write : SslWrite) (connect : OsConnect) :
      v.isSending = false → Whole Q l → Q (buf.take maxPayload) →
      SenderAt Q v l (sendtoProg qid buf write connect)
  | add (os : PerfDotSocket.OsSockready) {n : Nat} {q : Bytes} : v.isSending = true →
      PartOut Q v l q (v.sending + n) → 0 < n → SenderAt Q v l (addProg os n q.length)
  | addNew (os : PerfDotSocket.OsSockready) {n dnslen : Nat} : Whole Q l → v.sending = 0 →
      (v.isSending = true → n = dnslen + 2) → SenderAt Q v l (addProg os n dnslen)
  | check (os : PerfDotSocket.OsSockready) {q : Bytes} : v.isSending = true →
      PartOut Q v l q v.sending → 0 < v.sending → SenderAt Q v l (checkProg os q.length)
  | checkNew (os : PerfDotSocket.OsSockready) {dnslen : Nat} : Whole Q l →
      (v.isSending = true → v.sending = dnslen + 2) → SenderAt Q v l (checkProg os dnslen)
  | zero (os : PerfDotSocket.OsSockready) : Whole Q l → SenderAt Q v l (zeroProg os)
  | clear (os : PerfDotSocket.OsSockready) : Whole Q l → SenderAt Q v l (clearProg os)
  | calm {p : DotProg} : CalmProg p → v.isSending = false → Whole Q l → SenderAt Q v l p
  | connected (os : PerfDotSocket.OsSockready) : Settled Q v l → SenderAt Q v l (connectedProg os)
  | ask : Settled Q v l → SenderAt Q v l askProg

theorem SenderAt.framedPrefix {p : DotProg} (h : SenderAt Q v l p) : FramedPrefix Q l.current := by
  cases h with
  | returned _ h _ | sockready _ h | connected _ h | ask h => exact h.framedPrefix
  | add _ _ h _ | check _ _ h _ => exact h.framedPrefix
  | sendto _ _ _ _ _ h _ | addNew _ h _ _ | checkNew _ h _ | zero _ h | clear _ h | calm _ _ h =>
      exact h.framedPrefix

theorem SenderAt.settled {ret : DotRet} (h : SenderAt Q v l (.ret ret)) :
    Settled Q v l ∧ (ret = .sockready 1 → v.isSending = false) := by
  cases h with
  | returned _ hsettled hone => exact ⟨hsettled, hone⟩
  | calm hp _ _ => exact nomatch hp

/-- What is out of a query is seen at the end of the connection. -/
theorem PartOut.counted {q : Bytes} {k : Nat} (h : PartOut Q v l q k)
    (hQ : ∀ p, Q p → p.length ≤ maxPayload) (hk : 0 < k) (hsplit : (splitFrames l.current).2 = []) :
    k = (frame q).length := by
  obtain ⟨hq, -, hle, ps, hcur, hps⟩ := h
  by_contra hne
  have hcut := nextFrame?_take_frame (hQ q hq) (Nat.lt_of_le_of_ne hle hne)
  rw [hcur, splitFrames_eq (fun p hp => hQ p (hps p hp)) hcut] at hsplit
  have hlen := congrArg List.length hsplit
  rw [List.length_take, List.length_nil] at hlen
  omega

/-- **The receiving thread replaces the connection**, wherever the sending thread is: harmless, if
all that is out of a query is counted. -/
theorem SenderAt.reconnected {p : DotProg} (h : SenderAt Q v l p)
    (hQ : ∀ p, Q p → p.length ≤ maxPayload)
    (hcounted : v.sending = 0 → (splitFrames l.current).2 = []) (fd : Int) (earlier : List Bytes) :
    SenderAt Q v.reconnected ⟨fd, [], earlier⟩ p := by
  have hnew : Whole Q ⟨fd, [], earlier⟩ := whole_new fd earlier
  cases h with
  | returned ret h hone =>
      exact .returned ret (h.reconnected fd earlier) fun hret => reconnected_isSending (hone hret)
  | sockready os h => exact .sockready os (h.reconnected fd earlier)
  | connected os h => exact .connected os (h.reconnected fd earlier)
  | ask h => exact .ask (h.reconnected fd earlier)
  | sendto qid buf write connect hsend _ hq =>
      exact .sendto qid buf write connect (reconnected_isSending hsend) hnew hq
  -- with `sending` at 0 the query is not given up, so by `hcounted` it was all out
  | @add os n q _ hpart hn =>
      refine .addNew os hnew rfl fun hsend => ?_
      by_cases hzero : v.sending = 0
      · have hall := hpart.counted hQ (by omega) (hcounted hzero)
        rw [frame_length] at hall
        omega
      · simp [SendView.reconnected, hzero] at hsend
  | addNew os _ hzero hall =>
      refine .addNew os hnew rfl fun hsend => hall ?_
      simpa [SendView.reconnected, hzero] using hsend
  | @check os q _ _ hpos =>
      refine .checkNew os hnew fun hsend => ?_
      have hne : v.sending ≠ 0 := by omega
      simp [SendView.reconnected, hne] at hsend
  | @checkNew os dnslen _ hall =>
      refine .checkNew os hnew fun hsend => ?_
      by_cases hzero : v.sending = 0
      · have hsend' : v.isSending = true := by simpa [SendView.reconnected, hzero] using hsend
        have := hall hsend'
        omega
      · simp [SendView.reconnected, hzero] at hsend
  | zero os _ => exact .zero os hnew
  | clear os _ => exact .clear os hnew
  | calm hp hsend _ => exact .calm hp (reconnected_isSending hsend) hnew

/-! ### Steps -/

/-- The log, the socket and the place of the sending thread fit. -/
structure Good (Q : Bytes → Prop) (s : PerfDotSocket) (l : SendLog) (p : DotProg) : Prop where
  fd : l.fd = s.fd
  earlier : ∀ b ∈ l.earlier, FramedPrefix Q b
  sender : SenderAt Q s.view l p

theorem Good.framedPrefix {p : DotProg} (h : Good Q s l p) :
    ∀ b ∈ l.current :: l.earlier, FramedPrefix Q b :=
  List.forall_mem_cons.mpr ⟨h.sender.framedPrefix, h.earlier⟩

theorem recordAll_perfDotReconnect (l : SendLog) (s : PerfDotSocket) (os : OsConnect) :
    l.recordAll (s.perfDotReconnect os).2 = ⟨os.fd, [], l.current :: l.earlier⟩ := by
  cases hevent : s.hasEvent <;>
    simp [perfDotReconnect, perfDotConnect, SendLog.recordAll, SendLog.record, hevent]

/-! ### The receiving thread -/

/-- An access of the receiving thread: it changes `recvbuf` and `nqpc_recv` only, or it is
`perf__dot_reconnect`. -/
def RecvAccess (f : PerfDotSocket → PerfDotSocket × List NetEffect) : Prop :=
  (∀ s, ∃ recv nqpcRecv, f s = ({ s with recv := recv, nqpcRecv := nqpcRecv }, [])) ∨
    ∃ os, f = fun s => s.perfDotReconnect os

/-- A program of such accesses. -/
abbrev Receives (p : DotProg) : Prop := p.Accesses RecvAccess

section Receives

variable {p q : DotProg}

theorem receives_put {f : PerfDotSocket → PerfDotSocket}
    (hf : ∀ s, ∃ recv nqpcRecv, f s = { s with recv := recv, nqpcRecv := nqpcRecv })
    (h : Receives p) : Receives (.put f p) := by
  refine ⟨.inl fun s => ?_, fun _ => h⟩
  obtain ⟨recv, nqpcRecv, hs⟩ := hf s
  exact ⟨recv, nqpcRecv, congrArg (·, []) hs⟩

theorem receives_look {k : PerfDotSocket → DotProg} (h : ∀ s, Receives (k s)) :
    Receives (.look k) := ⟨.inl fun _ => ⟨_, _, rfl⟩, h⟩

theorem receives_reconnect (os : OsConnect) (h : Receives p) :
    Receives (.step (fun s => s.perfDotReconnect os) fun _ => p) := ⟨.inr ⟨os, rfl⟩, fun _ => h⟩

theorem receives_nextProg (read : Bytes) (len : Nat) : Receives (nextProg read len) := by
  refine receives_look fun s => .ite trivial ?_
  refine receives_put (fun _ => ⟨_, _, rfl⟩) (receives_put (fun _ => ⟨_, _, rfl⟩) ?_)
  exact receives_put (fun _ => ⟨_, _, rfl⟩) trivial

theorem receives_readProg (mem read : Bytes) (len : Nat) : Receives (readProg mem read len) :=
  receives_put (fun _ => ⟨_, _, rfl⟩)
    (receives_look fun _ => .ite trivial (receives_nextProg read len))

theorem receives_recvSyscallProg (errno : Errno) (connect : OsConnect) :
    Receives (recvSyscallProg errno connect) := by
  cases errno with
  | ebadf | econnrefused | econnreset | enotconn =>
      exact receives_reconnect (p := .unlock _) connect trivial
  | eagain | einprogress | epipe | other _ => exact trivial

theorem receives_recvReadyProg (openssl3 : Bool) (read : SslRead) (connect : OsConnect) (len : Nat)
    (s : PerfDotSocket) : Receives (recvReadyProg openssl3 read connect len s) := by
  cases read with
  | data bytes =>
      exact .ite (receives_reconnect (p := .unlock _) connect trivial) (receives_readProg _ _ _)
  | error e =>
      cases e with
      | wantRead | wantWrite | other _ => exact trivial
      | syscall errno => exact receives_recvSyscallProg errno connect
      | ssl => exact .ite (receives_recvSyscallProg .ebadf connect) trivial

/-- **`perf__dot_recv` makes no other accesses.** -/
theorem receives_recvProg (openssl3 : Bool) (read : SslRead) (connect : OsConnect) (len : Nat) :
    Receives (recvProg openssl3 read connect len) := by
  refine receives_look fun s => .ite ?_ (receives_nextProg [] len)
  exact receives_look fun s => .ite trivial (receives_recvReadyProg openssl3 read connect len s)

/-- Nothing is out of a query that `sending` does not count. -/
def Harmless (s : PerfDotSocket) (l : SendLog) : Prop :=
  s.sending = 0 → (splitFrames l.current).2 = []

/-- One access that may replace the connection, with the sending thread at `p`. -/
theorem Good.recvAccess (hQ : ∀ p, Q p → p.length ≤ maxPayload)
    {f : PerfDotSocket → PerfDotSocket × List NetEffect} (hf : RecvAccess f)
    (h : Good Q s l p ∧ Harmless s l) :
    Good Q (f s).1 (l.recordAll (f s).2) p ∧ Harmless (f s).1 (l.recordAll (f s).2) := by
  obtain ⟨hgood, hharmless⟩ := h
  rcases hf with hf | ⟨os, rfl⟩
  · obtain ⟨recv, nqpcRecv, hf⟩ := hf s
    rw [hf]
    exact ⟨⟨hgood.fd, hgood.earlier, hgood.sender⟩, hharmless⟩
  · dsimp only
    rw [recordAll_perfDotReconnect]
    exact ⟨⟨rfl, hgood.framedPrefix, hgood.sender.reconnected hQ hharmless os.fd _⟩, fun _ => rfl⟩

/-- The same, for one that has no effect outside: `sent` says whether there was one. -/
theorem Good.recvAccess_silent {f : PerfDotSocket → PerfDotSocket × List NetEffect}
    (hf : RecvAccess f) {sent : Bool} (h : sent = false → Good Q s l p) :
    (f s).2.foldl (fun _ _ => true) sent = false → Good Q (f s).1 l p := by
  rcases hf with hf | ⟨os, rfl⟩
  · obtain ⟨recv, nqpcRecv, hf⟩ := hf s
    rw [hf]
    intro hsent
    obtain ⟨hfd, hearlier, hsender⟩ := h hsent
    exact ⟨hfd, hearlier, hsender⟩
  · intro hsent
    cases hevent : s.hasEvent <;> simp [perfDotReconnect, perfDotConnect, hevent] at hsent

/-- **A step of the receiving thread** keeps the log, wherever the sending thread is. -/
theorem Good.receiver (h : Good Q s l p) (hQ : ∀ p, Q p → p.length ≤ maxPayload) (hq : Receives q)
    {q' : DotProg} {effects : List NetEffect} (hadv : q.advance s = some (q', s', effects))
    (hcounted : effects ≠ [] → Harmless s l) : Good Q s' (l.recordAll effects) p := by
  by_cases hharmless : Harmless s l
  · have hkept := hq.advance SendLog.record (I := fun s l => Good Q s l p ∧ Harmless s l)
      (fun f hf s l => Good.recvAccess hQ hf)
      (fun _ _ _ h => ⟨⟨h.1.fd, h.1.earlier, h.1.sender⟩, h.2⟩) ⟨h, hharmless⟩ hadv
    exact hkept.1.1
  · -- the connection is not replaced, so the log stays as it is
    obtain rfl : effects = [] := by_contra fun hne => hharmless (hcounted hne)
    have hkept := hq.advance (fun _ _ => true)
      (I := fun s (sent : Bool) => sent = false → Good Q s l p)
      (fun f hf s sent => Good.recvAccess_silent hf)
      (fun _ _ _ h hsent => ⟨(h hsent).fd, (h hsent).earlier, (h hsent).sender⟩)
      (l := false) (fun _ => h) hadv
    exact hkept.1 rfl

end Receives

/-! ### The sending thread -/

/-- Wherever the next step of `p` ends, it is good. -/
abbrev Advances (Q : Bytes → Prop) (s : PerfDotSocket) (l : SendLog) (p : DotProg) : Prop :=
  Prog.Advances SendLog.record (Good Q) s l p

/-- The end of the region `p` is in is good. -/
abbrev InRegion (Q : Bytes → Prop) (s : PerfDotSocket) (l : SendLog) (p : DotProg) : Prop :=
  Prog.InRegion SendLog.record (Good Q) s l p

theorem unlock_region {p : DotProg} (h : Good Q s l p) : InRegion Q s l (.unlock p) :=
  Prog.InRegion.unlock ⟨h.fd, h.earlier, h.sender⟩

/-- The log and the socket between two calls of the sending thread. -/
structure Quiescent (Q : Bytes → Prop) (s : PerfDotSocket) (l : SendLog) : Prop where
  fd : l.fd = s.fd
  earlier : ∀ b ∈ l.earlier, FramedPrefix Q b
  settled : Settled Q s.view l

theorem Quiescent.framedPrefix (h : Quiescent Q s l) :
    ∀ b ∈ l.current :: l.earlier, FramedPrefix Q b :=
  List.forall_mem_cons.mpr ⟨h.settled.framedPrefix, h.earlier⟩

theorem Quiescent.returned (h : Quiescent Q s l) {ret : DotRet}
    (hone : ret = .sockready 1 → s.isSending = false) : Good Q s l (.ret ret) :=
  ⟨h.fd, h.earlier, .returned ret h.settled hone⟩

theorem Quiescent.reconnect (h : Quiescent Q s l) (os : OsConnect) :
    Quiescent Q (s.perfDotReconnect os).1 (l.recordAll (s.perfDotReconnect os).2) := by
  rw [recordAll_perfDotReconnect]
  exact ⟨rfl, h.framedPrefix, h.settled.reconnected os.fd _⟩

theorem Quiescent.retry (h : Quiescent Q s l) (os : PerfDotSocket.OsSockready) :
    Quiescent Q (s.retry os).1 (l.recordAll (s.retry os).2) := by
  unfold PerfDotSocket.retry
  split
  · obtain ⟨hfd, hearlier, hsettled⟩ := h.reconnect os.connect
    exact ⟨hfd, hearlier, hsettled⟩
  · exact h

theorem Quiescent.reconnect_region (h : Quiescent Q s l) (os : OsConnect) {ret : DotRet}
    (hret : ret ≠ .sockready 1) :
    InRegion Q s l (.step (fun s => s.perfDotReconnect os) fun _ => .unlock (.ret ret)) :=
  .step (unlock_region ((h.reconnect os).returned fun h => absurd h hret))

/-- Going on with the delayed query: `n` more of its bytes are out. -/
theorem PartOut.write {q rest : Bytes} {k n : Nat} (h : PartOut Q v l q k)
    (hrest : rest = (frame q).drop k) (hn : n ≤ rest.length) :
    PartOut Q v ⟨l.fd, l.current ++ rest.take n, l.earlier⟩ q (k + n) := by
  obtain ⟨hq, hbuf, hk, ps, hcur, hps⟩ := h
  subst hrest
  refine ⟨hq, hbuf, ?_, ps, ?_, hps⟩
  · rw [List.length_drop] at hn
    omega
  · rw [List.take_add, hcur, List.append_assoc]

theorem Quiescent.readyProg (h : Quiescent Q s l) (hQ : ∀ p, Q p → p.length ≤ maxPayload)
    (os : PerfDotSocket.OsSockready) : InRegion Q s l (readyProg os s) := by
  unfold PerfDotSocket.readyProg
  by_cases hsend : s.isSending = true
  · rw [if_pos hsend]
    cases os.write with
    | error e =>
        cases e with
        | syscall _ => exact h.reconnect_region os.reconnect nofun
        | wantRead | wantWrite | ssl | other _ => exact unlock_region (h.returned nofun)
    | ok n =>
        obtain ⟨q, hpart, hlt⟩ := h.settled.delayed hsend
        have hbuf : s.sendbuf = frame q := hpart.2.1
        have hlen : dnslen s.sendbuf = q.length := by rw [hbuf, dnslen_frame (hQ q hpart.1)]
        have hrest : (s.sendbuf.take (dnslen s.sendbuf + 2)).drop s.sending =
            (frame q).drop s.sending := by
          rw [hlen, hbuf, ← frame_length, List.take_length]
        rw [hlen] at hrest
        simp only [hlen, hrest]
        have hlt : s.sending < (frame q).length := hlt
        have hn : max 1 (min n ((frame q).drop s.sending).length) ≤
            ((frame q).drop s.sending).length := by
          rw [List.length_drop]
          omega
        refine .step (unlock_region ?_)
        change Good Q s (l.recordAll [.wrote s.fd _]) _
        rw [SendLog.recordAll_wrote h.fd]
        exact ⟨h.fd, h.earlier, .add os hsend (hpart.write rfl hn) (by omega)⟩
  · rw [if_neg hsend]
    have hidle : s.isSending = false := Bool.eq_false_iff.mpr hsend
    exact .unlock ⟨h.fd, h.earlier, .calm (.queries os) hidle (h.settled.idle hidle)⟩

theorem Quiescent.handshakeProg (h : Quiescent Q s l) (os : PerfDotSocket.OsSockready) :
    InRegion Q s l (handshakeProg os) := by
  have hzero : Good Q s l (.ret (.sockready 0)) := h.returned nofun
  unfold PerfDotSocket.handshakeProg
  cases os.handshake with
  | shutdown => exact .put (.unlock ⟨hzero.fd, hzero.earlier, hzero.sender⟩)
  | done => exact .put (.unlock ⟨h.fd, h.earlier, .connected os h.settled⟩)
  | error e =>
      cases e with
      | wantRead | wantWrite => exact unlock_region hzero
      | syscall _ | ssl | other _ => exact .put (.unlock ⟨hzero.fd, hzero.earlier, hzero.sender⟩)

theorem Quiescent.connectProg (h : Quiescent Q s l) (os : PerfDotSocket.OsSockready) :
    InRegion Q s l (connectProg os s) := by
  have hzero : Good Q s l (.ret (.sockready 0)) := h.returned nofun
  unfold PerfDotSocket.connectProg
  by_cases hconn : (!s.isConnReady) = true
  · rw [if_pos hconn]
    cases os.wait with
    | success =>
        cases os.soError with
        | none =>
            have hconn : Quiescent Q { s with isConnReady := true } l :=
              ⟨h.fd, h.earlier, h.settled⟩
            exact .put (hconn.handshakeProg os)
        | some errno =>
            by_cases hagain : errno = .einprogress ∨ errno = .eagain
            · simp only [if_pos hagain]
              exact unlock_region hzero
            · simp only [if_neg hagain]
              exact .put (.unlock ⟨hzero.fd, hzero.earlier, hzero.sender⟩)
    | _ => exact unlock_region (h.returned nofun)
  · rw [if_neg hconn]
    exact h.handshakeProg os

/-- The region at the start of **`perf__dot_sockready`**. -/
theorem Quiescent.sockreadyProg (h : Quiescent Q s l) (hQ : ∀ p, Q p → p.length ≤ maxPayload)
    (os : PerfDotSocket.OsSockready) : Advances Q s l (sockreadyProg os) := by
  have hretry := Quiescent.retry (s := s.lock) ⟨h.fd, h.earlier, h.settled⟩ os
  refine .lock (.step (.look ?_))
  split
  · exact hretry.readyProg hQ os
  · exact hretry.connectProg os

section Sendto

variable {q : Bytes}

theorem delay_region (hfd : l.fd = s.fd) (hearlier : ∀ b ∈ l.earlier, FramedPrefix Q b)
    (hwhole : Whole Q l) (hbuf : s.sendbuf = frame q) (hq : Q q) :
    InRegion Q s l (.put delay <| .unlock <| .ret (.sendto (.error .einprogress))) := by
  obtain ⟨ps, hcur, hps⟩ := hwhole
  have hpart : PartOut Q s.delay.view l q 0 :=
    ⟨hq, hbuf, Nat.zero_le _, ps, by rw [hcur, List.take_zero, List.append_nil], hps⟩
  have hpos : 0 < (frame q).length := by
    rw [frame_length]
    exact Nat.succ_pos _
  have hsettled : Settled Q s.delay.view l := ⟨fun _ => ⟨q, hpart, hpos⟩, nofun⟩
  exact .put (.unlock ⟨hfd, hearlier, .returned _ hsettled nofun⟩)

theorem sendtoReadyProg_region (hfd : l.fd = s.fd) (hearlier : ∀ b ∈ l.earlier, FramedPrefix Q b)
    (hsend : s.isSending = false) (hwhole : Whole Q l) (hbuf : s.sendbuf = frame q) (hq : Q q)
    (write : SslWrite) (connect : OsConnect) :
    InRegion Q s l (sendtoReadyProg q.length write connect) := by
  have hquiet : Quiescent Q s l := ⟨hfd, hearlier, .of_idle hsend hwhole⟩
  unfold PerfDotSocket.sendtoReadyProg
  cases write with
  | error e =>
      cases e with
      | wantRead | wantWrite => exact delay_region hfd hearlier hwhole hbuf hq
      | ssl | other _ => exact hquiet.returned nofun
      | syscall errno =>
          by_cases hgone : errno ∈ [.econnrefused, .econnreset, .enotconn, .epipe]
          -- the connection is gone: the query waits for the new one
          · simp only [if_pos hgone]
            refine .step ?_
            change InRegion Q _ (l.recordAll (s.perfDotReconnect connect).2) _
            rw [recordAll_perfDotReconnect]
            exact delay_region rfl hquiet.framedPrefix (whole_new connect.fd _) hbuf hq
          · simp only [if_neg hgone]
            exact unlock_region (hquiet.returned nofun)
  | ok n =>
      -- so many bytes of the query come after the whole frames `ps`
      obtain ⟨ps, hcur, hps⟩ := hwhole
      have hnone : PartOut Q s.view l q 0 :=
        ⟨hq, hbuf, Nat.zero_le _, ps, by rw [hcur, List.take_zero, List.append_nil], hps⟩
      have hn : max 1 (min n (q.length + 2)) ≤ (frame q).length := by
        rw [frame_length]
        omega
      have hpart := hnone.write rfl hn
      rw [List.drop_zero, Nat.zero_add] at hpart
      refine .step ?_
      change InRegion Q s (l.recordAll [.wrote s.fd _]) _
      rw [SendLog.recordAll_wrote hfd, hbuf]
      by_cases hcut : max 1 (min n (q.length + 2)) < q.length + 2
      · rw [if_pos hcut]
        have hlt : max 1 (min n (q.length + 2)) < (frame q).length := by rwa [frame_length]
        exact .put (.unlock ⟨hfd, hearlier, .returned _ ⟨fun _ => ⟨q, hpart, hlt⟩, nofun⟩ nofun⟩)
      · rw [if_neg hcut]
        have hall : max 1 (min n (q.length + 2)) = (frame q).length := by
          rw [frame_length] at hn ⊢
          omega
        rw [hall] at hpart ⊢
        exact .unlock ⟨hfd, hearlier, .calm (.sentWhole _) hsend hpart.whole⟩

end Sendto

/-- The region of **`perf__dot_sendto`**, which writes the frame of the query. -/
theorem sendtoProg_advances (hfd : l.fd = s.fd) (hearlier : ∀ b ∈ l.earlier, FramedPrefix Q b)
    (hsend : s.isSending = false) (hwhole : Whole Q l) (qid : UInt16) {buf : Bytes}
    (hq : Q (buf.take maxPayload)) (write : SslWrite) (connect : OsConnect) :
    Advances Q s l (sendtoProg qid buf write connect) := by
  obtain ⟨hbuf, hlen⟩ := sendbuf_eq_frame buf
  rw [frame_length] at hlen
  unfold PerfDotSocket.sendtoProg
  dsimp only
  rw [hbuf, Nat.add_right_cancel hlen]
  refine .lock (.put (.look ?_))
  split
  · exact delay_region hfd hearlier hwhole rfl hq
  · refine sendtoReadyProg_region ?_ hearlier ?_ hwhole ?_ hq write connect
    · exact hfd
    · exact hsend
    · rfl

theorem calm_advances {p : DotProg} (hp : CalmProg p) (hfd : l.fd = s.fd)
    (hearlier : ∀ b ∈ l.earlier, FramedPrefix Q b) (hsend : s.isSending = false)
    (hwhole : Whole Q l) : Advances Q s l p := by
  have hquiet : Quiescent Q s l := ⟨hfd, hearlier, .of_idle hsend hwhole⟩
  have hcalm : ∀ {p : DotProg}, CalmProg p → Good Q s l p := fun hp =>
    ⟨hfd, hearlier, .calm hp hsend hwhole⟩
  cases hp with
  | sent os =>
      refine .step ?_
      dsimp only
      cases s.hasSent with
      | true => exact hcalm (.count os)
      | false => exact hcalm (.count os)
  | count os => exact .put ⟨hfd, hearlier, .calm (.queries os) hsend hwhole⟩
  | queries os =>
      refine .look ?_
      split
      · exact hcalm (.stamp os)
      · exact hquiet.returned fun _ => hsend
  | stamp os =>
      refine .put ?_
      split
      · exact ⟨hfd, hearlier, .calm (.timeout os) hsend hwhole⟩
      · exact hcalm (.timeout os)
  | timeout os =>
      refine .look ?_
      split
      · exact hcalm (.replace os)
      · exact hquiet.returned nofun
  | replace os =>
      have hlock : Quiescent Q s.lock l := ⟨hfd, hearlier, hquiet.settled⟩
      exact .lock (hlock.reconnect_region os.reconnect nofun)
  | sentWhole n => exact .put ⟨hfd, hearlier, .returned _ hquiet.settled nofun⟩

/-- **A step of the sending thread.** -/
theorem Good.advances {p : DotProg} (h : Good Q s l p) (hQ : ∀ p, Q p → p.length ≤ maxPayload) :
    Advances Q s l p := by
  obtain ⟨hfd, hearlier, hsender⟩ := h
  cases hsender with
  | returned ret _ _ =>
      intro p' s' effects hadv
      exact nomatch hadv
  | sockready os h => exact Quiescent.sockreadyProg ⟨hfd, hearlier, h⟩ hQ os
  | sendto qid buf write connect hsend hwhole hq =>
      exact sendtoProg_advances hfd hearlier hsend hwhole qid hq write connect
  -- `add`: the query is out on the current connection; `addNew`: on one replaced since
  | @add os n q hsend hpart hn =>
      exact .put ⟨hfd, hearlier, .check os hsend hpart (Nat.add_pos_right _ hn)⟩
  | @addNew os n dnslen hwhole hzero hall =>
      refine .put ⟨hfd, hearlier, .checkNew os hwhole fun hsend => ?_⟩
      exact (congrArg (· + n) hzero).trans ((Nat.zero_add n).trans (hall hsend))
  | @check os q hsend hpart hpos =>
      refine .look ?_
      split
      -- a part of the query is out, up to `sending`
      · rename_i hlt
        rw [← frame_length] at hlt
        exact ⟨hfd, hearlier, .returned _
          ⟨fun _ => ⟨q, hpart, hlt⟩, fun hidle => nomatch hsend.symm.trans hidle⟩ nofun⟩
      -- all of it is, and the connection carries whole frames
      · rename_i hall
        have hlen : s.view.sending = (frame q).length :=
          Nat.le_antisymm hpart.2.2.1 (by rw [frame_length]; exact Nat.le_of_not_lt hall)
        rw [hlen] at hpart
        exact ⟨hfd, hearlier, .zero os hpart.whole⟩
  | @checkNew os dnslen hwhole hall =>
      refine .look ?_
      split
      · rename_i hlt
        have hsend : s.isSending = false :=
          Bool.eq_false_iff.mpr fun hsend => absurd (hall hsend) (Nat.ne_of_lt hlt)
        exact ⟨hfd, hearlier, .returned _ (.of_idle hsend hwhole) nofun⟩
      · exact ⟨hfd, hearlier, .zero os hwhole⟩
  | zero os hwhole => exact .put ⟨hfd, hearlier, .clear os hwhole⟩
  | clear os hwhole => exact .put ⟨hfd, hearlier, .calm (.sent os) rfl hwhole⟩
  | calm hp hsend hwhole => exact calm_advances hp hfd hearlier hsend hwhole
  | connected os h =>
      refine .step ?_
      dsimp only
      cases s.hasEvent with
      | true => exact ⟨hfd, hearlier, .ask h⟩
      | false => exact ⟨hfd, hearlier, .ask h⟩
  | ask h =>
      refine .look ⟨hfd, hearlier, .returned _ h fun hone => ?_⟩
      cases hsend : s.isSending with
      | true =>
          rw [hsend] at hone
          exact nomatch hone
      | false => exact hsend

/-! ### Runs -/

/-- The query of a call. -/
def Event.query? : Event → Option Bytes
  | .sendto _ buf _ _ => some buf
  | _ => none

/-- A payload is a query of the run, or as much of one as a frame can hold. -/
def Payload (es : List Event) (p : Bytes) : Prop :=
  ∃ q ∈ es.filterMap Event.query?, p = q.take maxPayload

theorem Payload.length_le {es : List Event} {p : Bytes} (h : Payload es p) :
    p.length ≤ maxPayload := by
  obtain ⟨q, -, rfl⟩ := h
  exact List.length_take_le _ _

/-- What every guarded step keeps. -/
structure Inv (Q : Bytes → Prop) (c : DotParty) : Prop where
  good : Good Q c.sock c.log c.sender
  quiet : Receives c.receiver

theorem inv_start (os : OsConnect) (hasSent hasEvent : Bool) (numQueriesPerConn nqpcTimeout : Nat) :
    Inv Q (start os hasSent hasEvent numQueriesPerConn nqpcTimeout) where
  good := ⟨rfl, fun _ hb => absurd hb List.not_mem_nil,
    .returned _ (.of_idle rfl (whole_new os.fd [])) nofun⟩
  quiet := trivial

theorem inv_step {es : List Event} (c : DotParty) (e : Event) (c' : DotParty)
    (h : Inv (Payload es) c)
    (hstep : Guarded (fun _ e => e ∈ es) (Guarded Counted (StepOf next)) c e c') :
    Inv (Payload es) c' := by
  obtain ⟨hmem, hcounted, hstep⟩ := hstep
  obtain ⟨hgood, hquiet⟩ := h
  have hlen : ∀ p, Payload es p → p.length ≤ maxPayload := fun _ hp => hp.length_le
  cases e with
  -- the sending thread begins a call: it is between two
  | sockready os =>
      obtain ⟨⟨ret, hret⟩, rfl⟩ := next_sockready hstep
      have hsettled := (hret ▸ hgood.sender).settled.1
      exact ⟨⟨hgood.fd, hgood.earlier, .sockready os hsettled⟩, hquiet⟩
  | sendto qid buf write connect =>
      obtain ⟨hone, rfl⟩ := next_sendto hstep
      obtain ⟨hsettled, hidle⟩ := (hone ▸ hgood.sender).settled
      have hq : Payload es (buf.take maxPayload) :=
        ⟨buf, List.mem_filterMap.mpr ⟨_, hmem, rfl⟩, rfl⟩
      exact ⟨⟨hgood.fd, hgood.earlier,
        .sendto qid buf write connect (hidle rfl) (hsettled.idle (hidle rfl)) hq⟩, hquiet⟩
  | recv openssl3 read connect len =>
      obtain rfl := next_recv hstep
      exact ⟨hgood, receives_recvProg openssl3 read connect len⟩
  -- a thread makes a step
  | sender =>
      obtain ⟨p, s, effects, hadv, -, rfl⟩ := next_sender hstep
      exact ⟨hgood.advances hlen _ _ _ hadv, hquiet⟩
  | receiver =>
      obtain ⟨q, s, effects, hadv, rfl, rfl⟩ := next_receiver hstep
      exact ⟨hgood.receiver hlen hquiet hadv hcounted, hquiet.next hadv⟩

end DotParty

/-- **Every connection is framed, whatever the interleaving**, if the receiving thread never
replaces the connection while a part of a query is out that `sending` does not count: what was
written to each is whole frames and at most one frame cut off. And between the calls of the sending
thread a delayed query is out up to `sending` on the current connection, so on a new one it starts
over. -/
theorem dot_framed (os : OsConnect) (hasSent hasEvent : Bool) (numQueriesPerConn nqpcTimeout : Nat)
    (es : List DotParty.Event) (c : DotParty)
    (hrun : Run (Guarded DotParty.Counted (StepOf DotParty.next))
      (DotParty.start os hasSent hasEvent numQueriesPerConn nqpcTimeout) es c) :
    (∀ b ∈ c.log.current :: c.log.earlier, FramedPrefix (DotParty.Payload es) b) ∧
      ∀ ret, c.sender = .ret ret → c.sock.isSending = true →
        (∃ q ps, DotParty.Payload es q ∧ c.sock.sendbuf = frame q ∧
          c.sock.sending < (frame q).length ∧
          c.log.current = frames ps ++ (frame q).take c.sock.sending) ∧
        (c.log.current = [] → c.sock.sending = 0) := by
  have hinv := (hrun.guarded (p := fun e => e ∈ es) fun _ he => he).invariant DotParty.inv_step
    (DotParty.inv_start ..)
  refine ⟨hinv.good.framedPrefix, ?_⟩
  intro ret hret hsend
  have hsender := hinv.good.sender
  rw [hret] at hsender
  obtain ⟨q, ⟨hq, hbuf, -, ps, hcur, -⟩, hlt⟩ := hsender.settled.1.delayed hsend
  refine ⟨⟨q, ps, hq, hbuf, hlt, hcur⟩, fun hnil => ?_⟩
  have hlen := congrArg List.length (hcur.symm.trans hnil)
  rw [List.length_append, List.length_take, List.length_nil] at hlen
  have hlt : c.sock.sending < (frame q).length := hlt
  have hmin : min c.sock.sending (frame q).length = 0 := (Nat.add_eq_zero_iff.mp hlen).2
  omega

/-- A query in two pieces; the receiving thread then finds the connection closed, and another query
goes to the next one. -/
theorem dot_framed_two_connections :
    ∃ (es : List DotParty.Event) (c : DotParty), c.log = ⟨6, [0, 1, 9], [[0, 2, 7, 8]]⟩ ∧
      (∀ b ∈ c.log.current :: c.log.earlier, FramedPrefix (DotParty.Payload es) b) ∧
      ∀ ret, c.sender = .ret ret → c.sock.isSending = true →
        (∃ q ps, DotParty.Payload es q ∧ c.sock.sendbuf = frame q ∧
          c.sock.sending < (frame q).length ∧
          c.log.current = frames ps ++ (frame q).take c.sock.sending) ∧
        (c.log.current = [] → c.sock.sending = 0) := by
  obtain ⟨c, hrun, hlog⟩ := Run.exists_of_follow DotParty.Counted DotParty.next
    (DotParty.start ⟨5, true, 0⟩ true true 0 0)
    [.sockready (dotReadyWith (.ok 0) .done), .sender, .sender, .sender,
      .sendto 1 [7, 8] (.ok 3) ⟨6, true, 0⟩, .sender,
      .sockready (dotReadyWith (.ok 1) .done), .sender, .sender, .sender, .sender, .sender, .sender,
      .sender, .sender,
      .recv false (.data []) ⟨6, true, 0⟩ 512, .receiver, .receiver,
      .sockready (dotReadyWith (.ok 0) .done), .sender, .sender, .sender,
      .sendto 2 [9] (.ok 3) ⟨6, true, 0⟩, .sender, .sender]
    (fun c => c.log = ⟨6, [0, 1, 9], [[0, 2, 7, 8]]⟩) (by decide)
  exact ⟨_, c, of_decide_eq_true hlog, dot_framed _ _ _ _ _ _ c hrun⟩

/-- **A connection that starts in the middle of a frame**: `perf__dot_sockready` writes the first
three bytes of a delayed query, the receiving thread replaces the connection before they are
counted, and the last two bytes go to the next one. -/
theorem dot_starts_mid_frame :
    ∃ es c, Run (StepOf DotParty.next) (DotParty.start ⟨5, true, 0⟩ true true 0 0) es c ∧
      ¬ ∀ b ∈ c.log.current :: c.log.earlier, FramedPrefix (DotParty.Payload es) b := by
  obtain ⟨c, hrun, hend⟩ := Run.exists_of_follow (fun _ _ => True) DotParty.next
    (DotParty.start ⟨5, true, 0⟩ true true 0 0)
    [.sockready (dotReadyWith (.ok 0) .done), .sender, .sender, .sender,
      .sendto 1 [7, 8, 9] (.error .wantWrite) ⟨6, true, 0⟩, .sender,
      .sockready (dotReadyWith (.ok 3) .done), .sender,
      .recv false (.data []) ⟨6, true, 0⟩ 512, .receiver, .receiver,
      .sender, .sender,
      .sockready (dotReadyWith (.ok 0) .done), .sender, .sender, .sender,
      .sockready (dotReadyWith (.ok 2) .done), .sender]
    (fun c => c.log.current = [8, 9]) (by decide)
  have hcur := of_decide_eq_true hend
  refine ⟨_, c, hrun.mono fun _ _ _ hstep => hstep.2, fun hframed => ?_⟩
  have hhead : FramedPrefix _ [8, 9] := hcur ▸ hframed _ List.mem_cons_self
  obtain ⟨p, ⟨q, hq, hpq⟩, hfirst⟩ := hhead.head
  obtain rfl : q = [7, 8, 9] := List.mem_singleton.mp hq
  rw [hpq] at hfirst
  exact absurd hfirst (by decide)

end Dnsperf.Net
