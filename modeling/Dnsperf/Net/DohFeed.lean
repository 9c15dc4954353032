import Dnsperf.Net.DohClose

/-!
# Dnsperf.Net.DohFeed

Which bytes an nghttp2 session is given. `perf__doh_connect` makes the session together with its
connection. `perf__doh_recv` adds what it reads to `recvbuf` and passes all of `recvbuf` on; what
nghttp2 uses is dropped, the rest is passed again with what is read next. So the session has been
given, in order, what was read on its connection (`Fed.Own`).

`recvbuf` outlives the session: `perf__doh_reconnect` leaves `recv_at` as it is, and bytes that
were read on the old connection and not used are the first ones the next session is given. And a
failed `nghttp2_session_mem_recv` leaves in `recvbuf` what it has already used.
-/

namespace Dnsperf.Net

open Dnsperf.Lib

/-! ### One call -/

namespace DohSocket

variable {s s₁ s₂ : DohSocket}

/-- Whether `nghttp2_session_mem_recv` returns a value below 0. -/
def memFails (s : DohSocket) (mem : OsMemRecv) : Bool :=
  match (s.memRecv mem.events).ret with
  | .failure => true
  | .ok => mem.error
  | .pause | .fatal => false

/-- What a callback returns, and what it makes of the response, is up to the response alone. -/
theorem callback_congr (h : s₁.http2 = s₂.http2) (e : Http2Event) :
    (s₁.callback e).1 = (s₂.callback e).1 ∧
      (s₁.callback e).2.1.http2 = (s₂.callback e).2.1.http2 := by
  cases e with
  | header stream type name value => exact ⟨rfl, by simp only [callback, h]⟩
  | chunk stream data => simp only [callback, h, and_self]
  | frame stream type endStream =>
      simp only [callback]
      unfold frameRecvCb
      cases type with
      | data =>
          rw [h]
          split_ifs
          · exact ⟨rfl, h⟩
          · exact ⟨rfl, rfl⟩
          · exact ⟨rfl, h⟩
      | rstStream | goaway => exact ⟨rfl, rfl⟩
      | headers | other _ => exact ⟨rfl, h⟩

theorem memRecv_ret_congr (h : s₁.http2 = s₂.http2) (es : List Http2Event) :
    (s₁.memRecv es).ret = (s₂.memRecv es).ret := by
  induction es generalizing s₁ s₂ with
  | nil => rfl
  | cons e es ih =>
      obtain ⟨hret, hhttp2⟩ := callback_congr h e
      rw [memRecv_cons, memRecv_cons, hret]
      split
      · exact ih hhttp2
      · rfl

theorem memFails_congr (h : s₁.http2 = s₂.http2) (mem : OsMemRecv) :
    s₁.memFails mem = s₂.memFails mem := by
  unfold memFails
  rw [memRecv_ret_congr h]

theorem callback_recvbuf (s : DohSocket) (e : Http2Event) :
    (s.callback e).2.1.recvbuf = s.recvbuf := by
  cases e with
  | header stream type name value => rfl
  | chunk stream data => rfl
  | frame stream type endStream =>
      simp only [callback]
      unfold frameRecvCb
      cases type with
      | data => split_ifs <;> rfl
      | headers | rstStream | goaway | other _ => rfl

theorem memRecv_recvbuf (s : DohSocket) (es : List Http2Event) :
    (s.memRecv es).sock.recvbuf = s.recvbuf := by
  induction es generalizing s with
  | nil => rfl
  | cons e es ih =>
      rw [memRecv_cons]
      split
      · exact (ih _).trans (callback_recvbuf s e)
      · exact callback_recvbuf s e

theorem deliver_recvbuf (s : DohSocket) (len : Nat) : (s.deliver len).2.recvbuf = s.recvbuf := by
  unfold deliver
  dsimp only
  split_ifs <;> rfl

/-- What `perf__doh_recv` passes to nghttp2, and what it keeps of it. -/
theorem recvBody_recvbuf {read : Bytes} {mem : OsMemRecv} {len : Nat} {call : DohRecvCall}
    (h : s.recvBody read mem len = some call) :
    call.read = read ∧ call.fed = s.recvbuf ∧
      call.sock.recvbuf = if s.memFails mem then s.recvbuf else s.recvbuf.drop mem.consumed := by
  have hbuf := memRecv_recvbuf s mem.events
  unfold recvBody at h
  dsimp only at h
  unfold memFails
  cases hret : (s.memRecv mem.events).ret with
  | fatal =>
      rw [hret] at h
      exact nomatch h
  | failure =>
      rw [hret] at h
      obtain rfl := Option.some.inj h
      exact ⟨rfl, rfl, hbuf⟩
  | pause =>
      simp only [hret] at h
      obtain rfl := Option.some.inj h
      refine ⟨rfl, rfl, ?_⟩
      exact (deliver_recvbuf _ _).trans (congrArg (List.drop mem.consumed) hbuf)
  | ok =>
      simp only [hret, true_and] at h
      cases herror : mem.error with
      | true =>
          rw [if_pos herror] at h
          obtain rfl := Option.some.inj h
          exact ⟨rfl, rfl, hbuf⟩
      | false =>
          rw [if_neg (by rw [herror]; decide)] at h
          obtain rfl := Option.some.inj h
          refine ⟨rfl, rfl, ?_⟩
          exact (deliver_recvbuf _ _).trans (congrArg (List.drop mem.consumed) hbuf)

/-- **A receive call** passes nothing on and keeps `recvbuf`, or it passes on what was left and what
it has read. -/
theorem perfDohRecv_recvbuf {read : SslRead} {mem : OsMemRecv} {len : Nat} {call : DohRecvCall}
    (h : s.perfDohRecv read mem len = some call) :
    (call.fed = [] ∧ call.sock.recvbuf = s.recvbuf) ∨
      (call.fed ≠ [] ∧ call.fed = s.recvbuf ++ call.read ∧
        call.sock.recvbuf = if s.memFails mem then call.fed else call.fed.drop mem.consumed) := by
  rcases perfDohRecv_cases h with
    ⟨errno, rfl⟩ | ⟨-, rfl⟩ | ⟨-, s₁, bytes, -, hhttp2, -, hbuf, hne, hbody⟩
  · exact Or.inl ⟨rfl, rfl⟩
  · exact Or.inl ⟨rfl, rfl⟩
  · obtain ⟨hread, hfed, hafter⟩ := recvBody_recvbuf hbody
    refine Or.inr ⟨hfed ▸ hne, ?_, ?_⟩
    · rw [hfed, hread, hbuf]
    · rw [hafter, hfed, memFails_congr hhttp2]

end DohSocket

/-- `perf__doh_sockready` makes a connection only when it was asked to. -/
theorem PerfDohSocket.perfDohSockready_opened {s : PerfDohSocket} {os : OsSockready}
    (h : (s.perfDohSockready os).2.2.any NetEffect.isOpened = true) :
    s.doReconnect = true ∨ s.doConnect = true := by
  by_contra hnone
  obtain ⟨hreconnect, hconnect⟩ := not_or.mp hnone
  have hhead : s.lock.readyHead os = (s.lock, []) := by
    unfold readyHead
    rw [if_neg (show ¬ s.lock.doReconnect = true from hreconnect)]
    dsimp only
    rw [if_neg (show ¬ s.lock.doConnect = true from hconnect)]
  unfold perfDohSockready at h
  simp only [hhead, List.nil_append] at h
  split_ifs at h with hready
  · exact Bool.false_ne_true ((readyBody_conns s.lock os hready).opened.symm.trans h)
  · rw [any_isOpened_conns, (connectBody_conns s.lock os).1] at h
    exact Bool.false_ne_true h

namespace DohSocket

variable {s : DohSocket}

/-- `perf__doh_recv` passes something on: `recvbuf` is full, or something was read, or there was
nothing to read but `recvbuf` is not empty. -/
def passesOn (s : DohSocket) (read : SslRead) : Bool :=
  s.base.isReady && (tcpRecvBufSize ≤ s.recvbuf.length || match read with
    | .data bytes => bytes ≠ []
    | .error .wantRead => s.recvbuf ≠ []
    | .error _ => false)

theorem passesOn_of_fed {read : SslRead} {mem : OsMemRecv} {len : Nat} {call : DohRecvCall}
    (h : s.perfDohRecv read mem len = some call) (hfed : call.fed ≠ []) :
    s.passesOn read = true := by
  unfold perfDohRecv at h
  dsimp only at h
  have hnone (errno : Errno) : { s with base := s.base.lock }.noData errno ≠ some call :=
    fun h => hfed (congrArg DohRecvCall.fed (Option.some.inj h)).symm
  have hlost : { s with base := s.base.lock }.lost ≠ some call :=
    fun h => hfed (congrArg DohRecvCall.fed (Option.some.inj h)).symm
  unfold passesOn
  by_cases hready : s.base.isReady = true
  · rw [if_neg
      (show ¬ (!s.base.lock.isReady) = true by simpa [PerfDohSocket.lock] using hready)] at h
    rw [hready, Bool.true_and, Bool.or_eq_true]
    by_cases hspace : s.recvbuf.length < tcpRecvBufSize
    · rw [if_pos hspace] at h
      refine Or.inr ?_
      split at h
      · exact absurd h hlost
      · rename_i bytes hdata
        have hbytes : bytes ≠ [] := fun hnil => hdata (by rw [hnil])
        exact decide_eq_true hbytes
      · split_ifs at h with hbuf
        · exact decide_eq_true hbuf
        · exact absurd h (hnone _)
      · split_ifs at h
        · exact absurd h hlost
        · exact absurd h (hnone _)
      · exact absurd h (hnone _)
    · exact Or.inl (decide_eq_true (Nat.le_of_not_lt hspace))
  · rw [if_pos (show (!s.base.lock.isReady) = true by simpa [PerfDohSocket.lock] using hready)] at h
    exact absurd h (hnone _)

end DohSocket

/-! ### Sessions -/

/-- What an nghttp2 session was given. -/
structure Fed where
  /-- What `SSL_read` returned on the connection of the session. -/
  read : Bytes
  /-- What nghttp2 has used. -/
  taken : Bytes
  /-- What the last call gave it and it has not used. -/
  rest : Bytes
  /-- The last call failed. -/
  failed : Bool
  deriving DecidableEq

namespace Fed

/-- A new session. -/
def fresh : Fed := ⟨[], [], [], false⟩

/-- The session was given exactly what was read on its connection, in order. -/
def Own (f : Fed) : Prop := f.taken ++ f.rest = f.read

instance (f : Fed) : Decidable f.Own := inferInstanceAs (Decidable (_ = _))

/-- The session after a call of `perf__doh_recv`. -/
def pass (f : Fed) (call : DohRecvCall) (consumed : Nat) (failed : Bool) : Fed :=
  if call.fed = [] then f
  else ⟨f.read ++ call.read, f.taken ++ call.fed.take consumed, call.fed.drop consumed, failed⟩

theorem Own.pass {f : Fed} (h : f.Own) {call : DohRecvCall} (hfed : call.fed = f.rest ++ call.read)
    (consumed : Nat) (failed : Bool) : (f.pass call consumed failed).Own := by
  unfold Own at h ⊢
  unfold Fed.pass
  split
  · exact h
  · calc f.taken ++ call.fed.take consumed ++ call.fed.drop consumed
        = f.taken ++ call.fed := by rw [List.append_assoc, List.take_append_drop]
      _ = f.read ++ call.read := by rw [hfed, ← h, List.append_assoc]

end Fed

/-- A socket, its session and the earlier ones. -/
structure DohFeed where
  sock : DohSocket
  fed : Fed
  earlier : List Fed

namespace DohFeed

/-- `perf_net_doh_opensocket`. -/
def start (os : OsConnect) (hasSent hasEvent : Bool) (numQueriesPerConn nqpcTimeout : Nat) :
    DohFeed :=
  ⟨(DohSession.start os hasSent hasEvent numQueriesPerConn nqpcTimeout).sock, .fresh, []⟩

/-- After a call on the rest of the socket. A new connection has a new session. -/
def afterBase (c : DohFeed) (base : PerfDohSocket) (effects : List NetEffect) : DohFeed :=
  if effects.any NetEffect.isOpened then
    ⟨c.sock.withBase base effects, .fresh, c.fed :: c.earlier⟩
  else { c with sock := c.sock.withBase base effects }

/-- One call. -/
def next (c : DohFeed) : DohCall → Option DohFeed
  | .recv read mem len =>
      (c.sock.perfDohRecv read mem len).map fun call =>
        { c with sock := call.sock, fed := c.fed.pass call mem.consumed (c.sock.memFails mem) }
  | .sendto method qid len os =>
      (c.sock.base.perfDohSendto method qid len os).map fun r => c.afterBase r.2.1 r.2.2
  | .sockready os =>
      let r := c.sock.base.perfDohSockready os
      some (c.afterBase r.2.1 r.2.2)

theorem next_sock {c c' : DohFeed} {call : DohCall} (h : c.next call = some c') (d : DohSession)
    (hd : d.sock = c.sock) : ∃ d', d.next call = some d' ∧ d'.sock = c'.sock := by
  cases call with
  | recv read mem len =>
      obtain ⟨r, hr, rfl⟩ := Option.map_eq_some_iff.mp h
      exact ⟨_, Option.map_eq_some_iff.mpr ⟨r, hd ▸ hr, rfl⟩, rfl⟩
  | sendto method qid len os =>
      obtain ⟨r, hr, rfl⟩ := Option.map_eq_some_iff.mp h
      refine ⟨_, Option.map_eq_some_iff.mpr ⟨r, hd ▸ hr, rfl⟩, ?_⟩
      simp only [DohSession.afterBase, afterBase, hd]
      split <;> rfl
  | sockready os =>
      obtain rfl := Option.some.inj h
      refine ⟨_, rfl, ?_⟩
      simp only [DohSession.afterBase, afterBase, hd]
      split <;> rfl

/-- There is nothing in `recvbuf` when a session is to be made, and nothing is passed on after
`nghttp2_session_mem_recv` has failed. -/
def Clean (c : DohFeed) : DohCall → Prop
  | .recv read _ _ => c.sock.passesOn read = true → c.fed.failed = false
  | .sockready _ =>
      c.sock.base.doReconnect = true ∨ c.sock.base.doConnect = true → c.sock.recvbuf = []
  | .sendto .. => True

instance (c : DohFeed) : (call : DohCall) → Decidable (c.Clean call)
  | .recv .. => inferInstanceAs (Decidable (_ → _))
  | .sockready _ => inferInstanceAs (Decidable (_ → _))
  | .sendto .. => inferInstanceAs (Decidable True)

/-- What every guarded call keeps: `recvbuf` holds what nghttp2 has not used. -/
structure Inv (c : DohFeed) : Prop where
  own : ∀ f ∈ c.fed :: c.earlier, f.Own
  rest : c.fed.failed = false → c.fed.rest = c.sock.recvbuf

variable {c c' : DohFeed}

theorem Inv.afterBase (h : Inv c) (base : PerfDohSocket) {effects : List NetEffect}
    (hclean : effects.any NetEffect.isOpened = true → c.sock.recvbuf = []) :
    Inv (c.afterBase base effects) := by
  unfold DohFeed.afterBase
  split
  · rename_i hopened
    exact ⟨List.forall_mem_cons.mpr ⟨rfl, h.own⟩, fun _ => (hclean hopened).symm⟩
  · exact ⟨h.own, h.rest⟩

theorem inv_step (c : DohFeed) (call : DohCall) (c' : DohFeed) (h : Inv c)
    (hstep : Guarded Clean (StepOf next) c call c') : Inv c' := by
  obtain ⟨hclean, hstep⟩ := hstep
  cases call with
  | recv read mem len =>
      obtain ⟨r, hr, rfl⟩ := Option.map_eq_some_iff.mp hstep
      obtain ⟨hown, hearlier⟩ := List.forall_mem_cons.mp h.own
      rcases DohSocket.perfDohRecv_recvbuf hr with ⟨hnil, hbuf⟩ | ⟨hne, hfed, hbuf⟩
      · have hpass : c.fed.pass r mem.consumed (c.sock.memFails mem) = c.fed := if_pos hnil
        rw [hpass]
        exact ⟨h.own, fun hok => (h.rest hok).trans hbuf.symm⟩
      · have hok : c.fed.failed = false := hclean (DohSocket.passesOn_of_fed hr hne)
        rw [← h.rest hok] at hfed
        refine ⟨List.forall_mem_cons.mpr ⟨hown.pass hfed _ _, hearlier⟩, ?_⟩
        dsimp only
        rw [hbuf, Fed.pass, if_neg hne]
        intro hok'
        rw [if_neg (ne_true_of_eq_false hok')]
  | sendto method qid len os =>
      obtain ⟨⟨ret, base, effects⟩, hr, rfl⟩ := Option.map_eq_some_iff.mp hstep
      refine h.afterBase base fun hopened => ?_
      exact nomatch (PerfDohSocket.perfDohSendto_conns hr).opened.symm.trans hopened
  | sockready os =>
      obtain rfl := Option.some.inj hstep
      exact h.afterBase _ fun hopened => hclean (PerfDohSocket.perfDohSockready_opened hopened)

end DohFeed

/-- **Each session is given its own bytes**: in every run in which `recvbuf` is empty whenever a
session is made, and none is used after it has failed, what a session was given is, in order and
without gap or repetition, what was read on its connection. -/
theorem doh_sessions_own_bytes (os : OsConnect) (hasSent hasEvent : Bool)
    (numQueriesPerConn nqpcTimeout : Nat) (calls : List DohCall) (c : DohFeed)
    (hrun : Run (Guarded DohFeed.Clean (StepOf DohFeed.next))
      (DohFeed.start os hasSent hasEvent numQueriesPerConn nqpcTimeout) calls c) :
    ∀ f ∈ c.fed :: c.earlier, f.taken ++ f.rest = f.read := by
  refine (hrun.invariant DohFeed.inv_step ⟨?_, fun _ => rfl⟩).own
  exact List.forall_mem_singleton.mpr rfl

/-- Readiness on a new connection `fd`, all the way through. -/
def dohReadyOn (fd : Int) : PerfDohSocket.OsSockready :=
  ⟨⟨fd, true, 0⟩, ⟨true, false, false, false⟩, 0, 0, 0, .success, none, .done, true, true, 0⟩

/-- nghttp2 stops in front of a second response and has used `n` bytes. -/
def pausesAfter (n : Nat) : OsMemRecv :=
  ⟨[.chunk 1 [7], .frame 1 .data true, .chunk 3 [8]], false, .eagain, n⟩

/-- nghttp2 uses all of `n` bytes. -/
def usesAll (n : Nat) : OsMemRecv := ⟨[], false, .eagain, n⟩

/-- Two responses with one read, then another connection. -/
theorem doh_sessions_own_bytes_two :
    ∃ c : DohFeed, c.fed = ⟨[9, 10], [9, 10], [], false⟩ ∧
      c.earlier = [⟨[1, 2, 3, 4], [1, 2, 3, 4], [], false⟩] ∧
      ∀ f ∈ c.fed :: c.earlier, f.taken ++ f.rest = f.read := by
  obtain ⟨c, hrun, hend⟩ := Run.exists_of_follow DohFeed.Clean DohFeed.next
    (DohFeed.start ⟨5, true, 0⟩ true true 0 0)
    [.sockready (dohReadyOn 5), .recv (.data [1, 2, 3]) (pausesAfter 2) 512,
      .recv (.data [4]) (usesAll 2) 512, .recv (.data []) (usesAll 0) 512,
      .sockready (dohReadyOn 6), .recv (.data [9, 10]) (usesAll 2) 512]
    (fun c => c.fed = ⟨[9, 10], [9, 10], [], false⟩ ∧
      c.earlier = [⟨[1, 2, 3, 4], [1, 2, 3, 4], [], false⟩]) (by decide)
  obtain ⟨hfed, hearlier⟩ := of_decide_eq_true hend
  exact ⟨c, hfed, hearlier, doh_sessions_own_bytes _ _ _ _ _ _ c hrun⟩

/-- **A session that is given another's bytes**: nghttp2 stops in front of a second response, the
connection is lost, and the byte that was left is the first one for the next session. -/
theorem doh_session_other_bytes :
    ∃ calls c, Run (StepOf DohFeed.next) (DohFeed.start ⟨5, true, 0⟩ true true 0 0) calls c ∧
      ¬ ∀ f ∈ c.fed :: c.earlier, f.taken ++ f.rest = f.read := by
  obtain ⟨c, hrun, hend⟩ := Run.exists_of_follow (fun _ _ => True) DohFeed.next
    (DohFeed.start ⟨5, true, 0⟩ true true 0 0)
    [.sockready (dohReadyOn 5), .recv (.data [1, 2, 3]) (pausesAfter 2) 512,
      .recv (.data []) (usesAll 0) 512, .sockready (dohReadyOn 6),
      .recv (.data [9]) (usesAll 2) 512]
    (fun c => c.fed = ⟨[9], [3, 9], [], false⟩) (by decide)
  have hfed := of_decide_eq_true hend
  refine ⟨_, c, hrun.mono fun _ _ _ hstep => hstep.2, fun hown => ?_⟩
  have hlast := hown c.fed List.mem_cons_self
  rw [hfed] at hlast
  exact absurd hlast (by decide)

end Dnsperf.Net
