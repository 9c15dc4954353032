import Dnsperf.Net.Doh

/-!
# Dnsperf.Net.Readiness

`perf_net_sockready` of the connected transports, and the wait in it. **-1 comes from
the wait alone** (`perfNetSockready_ne`): `perf_os_waituntilanywritable` did not succeed.
A socket that is connected does not get there (`Settled`).
-/

namespace Dnsperf.Net

/-- The outcome of `poll` on a socket and the pipe. -/
inductive Poll
  /-- `-1` with `EINTR`. -/
  | interrupted
  | timedOut
  /-- Whether the pipe is readable; the socket is writable if it is not. -/
  | ready (pipe : Bool)
  deriving Repr, DecidableEq

/-- `perf_os_waituntilanywritable`: the pipe comes first. -/
def perfOsWaituntilanywritable : Poll → PerfResult
  | .interrupted => .canceled
  | .timedOut => .timedout
  | .ready pipe => if pipe then .canceled else .success

/-- `struct perf_net_socket`, for the transports that connect. -/
inductive NetSocket
  | tcp (s : PerfTcpSocket)
  | dot (s : PerfDotSocket)
  | doh (s : PerfDohSocket)
  deriving DecidableEq

/-- `enum perf_net_mode`, for the same transports. -/
inductive PerfNetMode
  | tcp
  | dot
  | doh
  deriving Repr, DecidableEq

/-- `perf_net_opensocket`. -/
def perfNetOpensocket (mode : PerfNetMode) (os : OsConnect) (hasSent hasEvent : Bool)
    (numQueriesPerConn nqpcTimeout : Nat) : NetSocket :=
  match mode with
  | .tcp =>
      .tcp (PerfTcpSocket.perfNetTcpOpensocket os hasSent hasEvent numQueriesPerConn nqpcTimeout).1
  | .dot =>
      .dot (PerfDotSocket.perfNetDotOpensocket os hasSent hasEvent numQueriesPerConn nqpcTimeout).1
  | .doh =>
      .doh (PerfDohSocket.perfNetDohOpensocket os hasSent hasEvent numQueriesPerConn nqpcTimeout).1

/-- What the calls made by `perf_net_sockready` find, for each transport. -/
structure OsSockready where
  tcp : PerfTcpSocket.OsSockready
  dot : PerfDotSocket.OsSockready
  doh : PerfDohSocket.OsSockready

/-- The same, with the outcome of waiting for the connection. -/
def OsSockready.waiting (os : OsSockready) (wait : PerfResult) (soError : Option Errno) :
    OsSockready where
  tcp := { os.tcp with wait := wait, soError := soError }
  dot := { os.dot with wait := wait, soError := soError }
  doh := { os.doh with wait := wait, soError := soError }

namespace NetSocket

/-- `perf_net_sockready`. -/
def perfNetSockready (os : OsSockready) : NetSocket → Int × NetSocket × List NetEffect
  | .tcp s =>
      let (ret, s, effects) := s.perfTcpSockready os.tcp
      (ret, .tcp s, effects)
  | .dot s =>
      let (ret, s, effects) := s.perfDotSockready os.dot
      (ret, .dot s, effects)
  | .doh s =>
      let (ret, s, effects) := s.perfDohSockready os.doh
      (ret, .doh s, effects)

/-- A socket that has a connection and is not to replace it. A TCP socket that is in
the middle of a query may still find out that it has to. -/
def Settled : NetSocket → Prop
  | .tcp s => s.isReady = true ∧ s.isSending = false ∧ s.needReconnect = false ∧
      s.recvNeedReconn ≠ s.fd
  | .dot s => (s.isReady = true ∨ s.isConnReady = true) ∧ s.doReconnect = false
  | .doh s => (s.isReady = true ∨ s.isConnReady = true) ∧ s.doReconnect = false ∧
      s.doConnect = false

instance : (s : NetSocket) → Decidable s.Settled
  | .tcp _ => inferInstanceAs (Decidable (_ ∧ _))
  | .dot _ => inferInstanceAs (Decidable (_ ∧ _))
  | .doh _ => inferInstanceAs (Decidable (_ ∧ _))

end NetSocket

theorem not_ready_ne : (0 : Int) ≠ -1 := by decide

theorem ready_ne : (1 : Int) ≠ -1 := by decide

/-! ### TCP -/

namespace PerfTcpSocket

variable (s : PerfTcpSocket) (os : OsSockready)

theorem checkQueries_ne : (s.checkQueries os).1 ≠ -1 := by
  unfold checkQueries
  dsimp only
  split_ifs
  · exact not_ready_ne
  · exact not_ready_ne
  · exact not_ready_ne
  · exact not_ready_ne
  · exact ready_ne

theorem resend_ne (w : OsWrite) : (s.resend w).1 ≠ -1 := by
  unfold resend
  split_ifs
  · cases w with
    | error errno =>
        dsimp only
        split_ifs
        · exact not_ready_ne
        · exact not_ready_ne
    | ok n =>
        dsimp only
        split_ifs
        · exact ready_ne
        · exact not_ready_ne
  · exact ready_ne

theorem connCont_ne (hwait : os.wait = .success) : (s.connCont os).1 ≠ -1 := by
  unfold connCont
  rw [hwait]
  cases os.soError with
  | some errno =>
      dsimp only
      split_ifs
      · exact not_ready_ne
      · exact not_ready_ne
  | none => exact resend_ne _ _

theorem readyBody_ne (h : os.wait = .success ∨ s.isReady = true ∧ s.isSending = false) :
    (s.readyBody os).1 ≠ -1 := by
  unfold readyBody
  by_cases hready : s.isReady = true
  · rw [if_pos hready]
    by_cases hsend : s.isSending = true
    · have hwait : os.wait = .success := h.resolve_right fun hs => nomatch hsend.symm.trans hs.2
      rw [if_pos hsend]
      cases os.send with
      | error errno =>
          dsimp only
          split_ifs
          · exact not_ready_ne
          · exact connCont_ne _ os hwait
      | ok n =>
          dsimp only
          split_ifs
          · exact checkQueries_ne _ os
          · exact not_ready_ne
    · rw [if_neg hsend]
      exact checkQueries_ne s os
  · rw [if_neg hready]
    exact connCont_ne s os (h.resolve_right fun hs => hready hs.1)

theorem readyHead_settled (h : (NetSocket.tcp s).Settled) : s.readyHead os = (s, []) := by
  obtain ⟨_, _, hneed, hrecv⟩ := h
  unfold readyHead
  rw [hneed, if_neg fun hor => hor.elim hrecv Bool.false_ne_true]

theorem perfTcpSockready_ne (h : os.wait = .success ∨ (NetSocket.tcp s).Settled) :
    (s.perfTcpSockready os).1 ≠ -1 := by
  unfold perfTcpSockready
  rcases h with hwait | hs
  · exact readyBody_ne _ os (Or.inl hwait)
  · rw [readyHead_settled s os hs]
    exact readyBody_ne s os (Or.inr ⟨hs.1, hs.2.1⟩)

end PerfTcpSocket

/-! ### TLS -/

namespace PerfDotSocket

variable (s : PerfDotSocket) (os : OsSockready)

theorem checkQueries_ne : (s.checkQueries os).1 ≠ -1 := by
  unfold checkQueries
  dsimp only
  split_ifs
  · exact not_ready_ne
  · exact not_ready_ne
  · exact not_ready_ne
  · exact not_ready_ne
  · exact ready_ne

theorem readyBody_ne : (s.readyBody os).1 ≠ -1 := by
  unfold readyBody
  split_ifs
  · cases os.write with
    | error error => cases error <;> exact not_ready_ne
    | ok n =>
        dsimp only
        split
        · exact not_ready_ne
        · exact checkQueries_ne _ os
  · exact checkQueries_ne _ os

theorem handshakeBody_ne : (s.handshakeBody os).1 ≠ -1 := by
  unfold handshakeBody
  cases os.handshake with
  | done =>
      dsimp only
      split_ifs
      · exact not_ready_ne
      · exact ready_ne
  | shutdown => exact not_ready_ne
  | error error => cases error <;> exact not_ready_ne

theorem connectBody_ne (h : os.wait = .success ∨ s.isConnReady = true) :
    (s.connectBody os).1 ≠ -1 := by
  unfold connectBody
  by_cases hconn : s.isConnReady = true
  · rw [if_neg (by rw [hconn]; decide)]
    exact handshakeBody_ne s os
  · rw [if_pos (by rw [Bool.eq_false_iff.mpr hconn]; rfl), h.resolve_right hconn]
    cases os.soError with
    | some errno =>
        dsimp only
        split_ifs
        · exact not_ready_ne
        · exact not_ready_ne
    | none => exact handshakeBody_ne _ os

theorem perfDotSockready_ne (h : os.wait = .success ∨ (NetSocket.dot s).Settled) :
    (s.perfDotSockready os).1 ≠ -1 := by
  have hbody : ∀ t : PerfDotSocket,
      (os.wait = .success ∨ t.isReady = true ∨ t.isConnReady = true) →
        (if t.isReady then t.readyBody os else t.connectBody os).1 ≠ -1 := by
    intro t ht
    split
    · exact readyBody_ne t os
    · next hready => exact connectBody_ne t os (ht.imp_right fun hor => hor.resolve_left hready)
  unfold perfDotSockready
  rcases h with hwait | ⟨hconn, hrec⟩
  · exact hbody _ (Or.inl hwait)
  · have hlock : ¬ s.lock.doReconnect = true := fun hd => nomatch hrec.symm.trans hd
    dsimp only
    rw [if_neg hlock]
    exact hbody s.lock (Or.inr hconn)

end PerfDotSocket

/-! ### HTTPS -/

namespace PerfDohSocket

variable (s : PerfDohSocket) (os : OsSockready)

theorem giveUp_ne : s.giveUp.1 ≠ -1 := not_ready_ne

theorem checkQueries_ne (sent : Bool) : (s.checkQueries sent os).1 ≠ -1 := by
  unfold checkQueries
  dsimp only
  split
  · exact not_ready_ne
  · exact ready_ne

theorem readyBody_ne : (s.readyBody os).1 ≠ -1 := by
  unfold readyBody
  dsimp only
  split_ifs
  · exact not_ready_ne
  · exact not_ready_ne
  · exact checkQueries_ne _ os true
  · exact checkQueries_ne _ os false

theorem settingsBody_ne : (s.settingsBody os).1 ≠ -1 := by
  unfold settingsBody
  split
  · exact giveUp_ne s
  · exact ready_ne

theorem handshakeBody_ne : (s.handshakeBody os).1 ≠ -1 := by
  unfold handshakeBody
  split
  · cases os.handshake with
    | done =>
        dsimp only
        split
        · exact giveUp_ne s
        · exact settingsBody_ne _ os
    | shutdown => exact giveUp_ne s
    | error error => cases error <;> exact not_ready_ne
  · exact settingsBody_ne s os

theorem connectBody_ne (h : os.wait = .success ∨ s.isConnReady = true) :
    (s.connectBody os).1 ≠ -1 := by
  unfold connectBody
  by_cases hconn : s.isConnReady = true
  · rw [if_neg (by rw [hconn]; decide)]
    exact handshakeBody_ne s os
  · rw [if_pos (by rw [Bool.eq_false_iff.mpr hconn]; rfl), h.resolve_right hconn]
    cases os.soError with
    | some errno =>
        dsimp only
        split
        · exact not_ready_ne
        · exact giveUp_ne s
    | none => exact handshakeBody_ne _ os

theorem readyHead_settled (h : (NetSocket.doh s).Settled) :
    s.lock.readyHead os = (s.lock, []) := by
  obtain ⟨_, hrec, hcon⟩ := h
  have hrec' : ¬ s.lock.doReconnect = true := fun hd => nomatch hrec.symm.trans hd
  have hcon' : ¬ s.lock.doConnect = true := fun hd => nomatch hcon.symm.trans hd
  unfold readyHead
  rw [if_neg hrec']
  exact if_neg hcon'

theorem perfDohSockready_ne (h : os.wait = .success ∨ (NetSocket.doh s).Settled) :
    (s.perfDohSockready os).1 ≠ -1 := by
  have hbody : ∀ t : PerfDohSocket,
      (os.wait = .success ∨ t.isReady = true ∨ t.isConnReady = true) →
        (if t.isReady then t.readyBody os else t.connectBody os).1 ≠ -1 := by
    intro t ht
    split
    · exact readyBody_ne t os
    · next hready => exact connectBody_ne t os (ht.imp_right fun hor => hor.resolve_left hready)
  unfold perfDohSockready
  rcases h with hwait | hs
  · exact hbody _ (Or.inl hwait)
  · rw [readyHead_settled s os hs]
    exact hbody s.lock (Or.inr hs.1)

end PerfDohSocket

/-! ### Any transport -/

/-- A check in which the wait succeeds, or whose socket is settled, does not fail. -/
theorem NetSocket.perfNetSockready_ne (s : NetSocket) (os : OsSockready) (wait : PerfResult)
    (soError : Option Errno) (h : wait = .success ∨ s.Settled) :
    (s.perfNetSockready (os.waiting wait soError)).1 ≠ -1 := by
  cases s with
  | tcp s => exact s.perfTcpSockready_ne _ h
  | dot s => exact s.perfDotSockready_ne _ h
  | doh s => exact s.perfDohSockready_ne _ h

end Dnsperf.Net
