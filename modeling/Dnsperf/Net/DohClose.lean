import Dnsperf.Net.DohSocket

/-!
# Dnsperf.Net.DohClose

**When a DoH socket closes its descriptor.** `perf__doh_reconnect` closes it and sets
`do_connect`; nothing else says that it is closed. So it is closed once as long as
`perf__doh_reconnect` is not called with `do_connect` set, and there are two places where
that can happen: at the start of `perf__doh_sockready`, when `do_reconnect` is set as well,
and in the callbacks of one receive, when there is a second frame that resets.
-/

namespace Dnsperf.Net

open Dnsperf.Lib

/-! ### Descriptors closed since the last one opened -/

/-- How often a descriptor has been closed since the last one was opened, after `n` before
these effects. -/
def closesSince (n : Nat) : List NetEffect → Nat
  | [] => n
  | .opened _ :: es => closesSince 0 es
  | .closed _ :: es => closesSince (n + 1) es
  | _ :: es => closesSince n es

/-- It never gets to two. -/
def ClosesOnce (n : Nat) : List NetEffect → Prop
  | [] => True
  | .opened _ :: es => ClosesOnce 0 es
  | .closed _ :: es => n = 0 ∧ ClosesOnce (n + 1) es
  | _ :: es => ClosesOnce n es

/-- The effects that matter for it. -/
def conns (es : List NetEffect) : List NetEffect := es.filter fun e => e.isOpened || e.isClosed

theorem conns_append (es fs : List NetEffect) : conns (es ++ fs) = conns es ++ conns fs :=
  List.filter_append ..

theorem closesSince_conns (n : Nat) (es : List NetEffect) :
    closesSince n (conns es) = closesSince n es := by
  induction es generalizing n with
  | nil => rfl
  | cons e es ih => cases e <;> exact ih _

theorem closesOnce_conns (n : Nat) (es : List NetEffect) :
    ClosesOnce n (conns es) ↔ ClosesOnce n es := by
  induction es generalizing n with
  | nil => exact Iff.rfl
  | cons e es ih =>
      cases e with
      | closed fd => exact and_congr_right fun _ => ih _
      | _ => exact ih _

theorem closesSince_append (n : Nat) (es fs : List NetEffect) :
    closesSince n (es ++ fs) = closesSince (closesSince n es) fs := by
  induction es generalizing n with
  | nil => rfl
  | cons e es ih => cases e <;> exact ih _

theorem closesOnce_append (n : Nat) (es fs : List NetEffect) :
    ClosesOnce n (es ++ fs) ↔ ClosesOnce n es ∧ ClosesOnce (closesSince n es) fs := by
  induction es generalizing n with
  | nil => exact (iff_of_eq (true_and _)).symm
  | cons e es ih =>
      cases e with
      | closed fd => exact (and_congr_right fun _ => ih _).trans and_assoc.symm
      | _ => exact ih _

theorem any_isOpened_conns (effects : List NetEffect) :
    effects.any NetEffect.isOpened = (conns effects).any NetEffect.isOpened := by
  induction effects with
  | nil => rfl
  | cons e effects ih =>
      cases e with
      | opened fd => rfl
      | _ => exact ih

/-- Between two connections at most one `close`. -/
theorem ClosesOnce.count_le {n : Nat} {es fs gs : List NetEffect}
    (h : ClosesOnce n (es ++ fs ++ gs))
    (hfs : ∀ e ∈ fs, e.isOpened = false) : fs.countP NetEffect.isClosed ≤ 1 := by
  have hmid := ((closesOnce_append _ _ _).mp ((closesOnce_append _ _ _).mp h).1).2
  generalize closesSince n es = m at hmid
  suffices hcount : ∀ m, ClosesOnce m fs → fs.countP NetEffect.isClosed ≤ 1 - m from
    le_trans (hcount m hmid) (Nat.sub_le 1 m)
  clear hmid h
  induction fs with
  | nil => exact fun m _ => Nat.zero_le _
  | cons e fs ih =>
      intro m hm
      have hrest := ih fun e' he' => hfs e' (List.mem_cons_of_mem e he')
      cases e with
      | opened fd => exact absurd (hfs _ List.mem_cons_self) (by simp [NetEffect.isOpened])
      | closed fd =>
          obtain ⟨rfl, hm⟩ := hm
          have := hrest 1 hm
          rw [List.countP_cons_of_pos (by rfl)]
          omega
      | _ => exact hrest m hm

/-! ### What a call does to the connection -/

/-- A call leaves the connection alone, or it closes it. -/
inductive Shuts (s s' : PerfDohSocket) (effects : List NetEffect) : Prop
  | same : conns effects = [] → s'.doConnect = s.doConnect →
      (s.doConnect = true → s'.isReady = s.isReady) → Shuts s s' effects
  | closed (fd : Int) : conns effects = [.closed fd] → s.isReady = true → s'.doConnect = true →
      s'.isReady = false → Shuts s s' effects

/-- A call makes another connection, and closes the old one before if it was asked to. -/
structure Replaces (s s' : PerfDohSocket) (effects : List NetEffect) : Prop where
  why : s.doReconnect = true ∨ s.doConnect = true
  conns : ∃ fd, conns effects = (if s.doReconnect then [.closed s.fd] else []) ++ [.opened fd]
  done : s'.doConnect = false

/-- A connection that is to be made is not ready. -/
def PerfDohSocket.Waits (s : PerfDohSocket) : Prop := s.doConnect = true → s.isReady = false

namespace Shuts

variable {s s' s'' : PerfDohSocket} {effects effects' : List NetEffect}

theorem waits (h : Shuts s s' effects) (hs : s.Waits) : s'.Waits := by
  intro hconnect
  cases h with
  | same hnil hdo hready =>
      rw [hdo] at hconnect
      rw [hready hconnect]
      exact hs hconnect
  | closed fd hclosed hready hdo hready' => exact hready'

theorem opened (h : Shuts s s' effects) : effects.any NetEffect.isOpened = false := by
  rw [any_isOpened_conns]
  cases h with
  | same hnil hdo hready =>
      rw [hnil]
      rfl
  | closed fd hclosed hready hdo hready' =>
      rw [hclosed]
      rfl

theorem trailing (h : Shuts s s' effects) (hnil : conns effects' = [])
    (hdo : s''.doConnect = s'.doConnect) (hready : s''.isReady = s'.isReady) :
    Shuts s s'' (effects ++ effects') := by
  have happend : conns (effects ++ effects') = conns effects := by
    rw [conns_append, hnil, List.append_nil]
  cases h with
  | same hsame hdo' hready' =>
      exact .same (happend.trans hsame) (hdo.trans hdo') fun hc => hready.trans (hready' hc)
  | closed fd hclosed hready₀ hdo' hready' =>
      exact .closed fd (happend.trans hclosed) hready₀ (hdo.trans hdo') (hready.trans hready')

theorem of_eq (h : Shuts s s' effects) (hdo : s''.doConnect = s'.doConnect)
    (hready : s''.isReady = s'.isReady) : Shuts s s'' effects := by
  have htrailing : Shuts s s'' (effects ++ []) := h.trailing rfl hdo hready
  rwa [List.append_nil] at htrailing

theorem leading (h : Shuts s' s'' effects) (hdo : s'.doConnect = s.doConnect)
    (hready : s'.isReady = s.isReady) : Shuts s s'' effects := by
  cases h with
  | same hsame hdo' hready' =>
      exact .same hsame (hdo'.trans hdo) fun hc => (hready' (hdo.trans hc)).trans hready
  | closed fd hclosed hready₀ hdo' hready' =>
      exact .closed fd hclosed (hready.symm.trans hready₀) hdo' hready'

end Shuts

namespace PerfDohSocket

theorem sessionSend_conns (s : PerfDohSocket) (send : Http2Send) (hready : s.isReady = true) :
    Shuts s (s.sessionSend send).1 (s.sessionSend send).2 := by
  unfold sessionSend
  dsimp only
  by_cases hsend : send.reconnected = true
  · rw [if_pos hsend]
    exact .closed s.fd rfl hready rfl rfl
  · rw [if_neg hsend]
    exact .same rfl rfl fun _ => rfl

theorem checkQueries_conns (s : PerfDohSocket) (sent : Bool) (os : OsSockready) :
    conns (s.checkQueries sent os).2.2 = [] ∧
      (s.checkQueries sent os).2.1.doConnect = s.doConnect ∧
      (s.checkQueries sent os).2.1.isReady = s.isReady := by
  unfold checkQueries
  dsimp only
  split_ifs <;> exact ⟨rfl, rfl, rfl⟩

theorem readyBody_conns (s : PerfDohSocket) (os : OsSockready) (hready : s.isReady = true) :
    Shuts s (s.readyBody os).2.1 (s.readyBody os).2.2 := by
  have hsend := sessionSend_conns s os.send hready
  unfold readyBody
  dsimp only
  split_ifs
  · exact hsend.trailing rfl rfl rfl
  · exact hsend.of_eq rfl rfl
  · obtain ⟨hnil, hdo, hready'⟩ := checkQueries_conns
      { (s.sessionSend os.send).1 with
        isSending := false, nqpcSent := ((s.sessionSend os.send).1.nqpcSent + 1) % 2 ^ 32 } true os
    exact hsend.trailing hnil hdo hready'
  · obtain ⟨hnil, hdo, hready'⟩ := checkQueries_conns (s.sessionSend os.send).1 false os
    exact hsend.trailing hnil hdo hready'

theorem settingsBody_conns (s : PerfDohSocket) (os : OsSockready) :
    conns (s.settingsBody os).2.2 = [] ∧ (s.settingsBody os).2.1.doConnect = s.doConnect := by
  unfold settingsBody
  split_ifs <;> exact ⟨rfl, rfl⟩

theorem handshakeBody_conns (s : PerfDohSocket) (os : OsSockready) :
    conns (s.handshakeBody os).2.2 = [] ∧ (s.handshakeBody os).2.1.doConnect = s.doConnect := by
  unfold handshakeBody
  by_cases hssl : (!s.isSslReady) = true
  · rw [if_pos hssl]
    split
    · exact ⟨rfl, rfl⟩
    · exact ⟨rfl, rfl⟩
    · exact ⟨rfl, rfl⟩
    · exact ⟨rfl, rfl⟩
    · split_ifs
      · exact ⟨rfl, rfl⟩
      · exact settingsBody_conns _ os
  · rw [if_neg hssl]
    exact settingsBody_conns s os

theorem connectBody_conns (s : PerfDohSocket) (os : OsSockready) :
    conns (s.connectBody os).2.2 = [] ∧ (s.connectBody os).2.1.doConnect = s.doConnect := by
  unfold connectBody
  by_cases hconn : (!s.isConnReady) = true
  · rw [if_pos hconn]
    split
    · split_ifs <;> exact ⟨rfl, rfl⟩
    · exact handshakeBody_conns _ os
    · exact ⟨rfl, rfl⟩
  · rw [if_neg hconn]
    exact handshakeBody_conns s os

theorem perfDohConnect_conns (s : PerfDohSocket) (os : OsConnect) :
    conns (s.perfDohConnect os).2 = [.opened os.fd] := by
  unfold perfDohConnect
  cases s.hasEvent <;> rfl

theorem readyHead_conns (s : PerfDohSocket) (os : OsSockready) (hs : s.Waits) :
    (s.doConnect = false ∧ s.readyHead os = (s, [])) ∨
      (Replaces s (s.readyHead os).1 (s.readyHead os).2 ∧ (s.readyHead os).1.isReady = false) := by
  cases hrec : s.doReconnect with
  -- closed here and replaced
  | true =>
      have hhead : s.readyHead os =
          ({ ({ s.perfDohReconnect.1 with doReconnect := false }.perfDohConnect os.connect).1 with
              doConnect := false },
            [NetEffect.closed s.fd] ++
              ({ s.perfDohReconnect.1 with doReconnect := false }.perfDohConnect
                os.connect).2) := by
        rw [readyHead, if_pos hrec]
        rfl
      rw [hhead]
      refine Or.inr ⟨⟨Or.inl hrec, ⟨os.connect.fd, ?_⟩, rfl⟩, rfl⟩
      rw [hrec, conns_append, perfDohConnect_conns]
      rfl
  | false =>
      cases hdo : s.doConnect with
      | true =>
          have hhead : s.readyHead os =
              ({ (s.perfDohConnect os.connect).1 with doConnect := false },
                (s.perfDohConnect os.connect).2) := by
            rw [readyHead, if_neg (by rw [hrec]; decide)]
            dsimp only
            rw [if_pos hdo, List.nil_append]
          rw [hhead]
          refine Or.inr ⟨⟨Or.inr hdo, ⟨os.connect.fd, ?_⟩, rfl⟩, hs hdo⟩
          rw [hrec, perfDohConnect_conns]
          rfl
      | false =>
          refine Or.inl ⟨rfl, ?_⟩
          rw [readyHead, if_neg (by rw [hrec]; decide)]
          dsimp only
          rw [if_neg (by rw [hdo]; decide)]

/-- **`perf__doh_sockready`.** -/
theorem perfDohSockready_conns (s : PerfDohSocket) (os : OsSockready) (hs : s.Waits) :
    Shuts s (s.perfDohSockready os).2.1 (s.perfDohSockready os).2.2 ∨
      Replaces s (s.perfDohSockready os).2.1 (s.perfDohSockready os).2.2 := by
  unfold perfDohSockready
  dsimp only
  rcases readyHead_conns s.lock os hs with ⟨hdo, hhead⟩ | ⟨⟨hwhy, ⟨fd, hconns⟩, hdo⟩, hready⟩
  · rw [hhead]
    dsimp only
    rw [List.nil_append]
    by_cases hready : s.lock.isReady = true
    · rw [if_pos hready]
      exact Or.inl ((readyBody_conns s.lock os hready).leading rfl rfl)
    · rw [if_neg hready]
      obtain ⟨hnil, hdo'⟩ := connectBody_conns s.lock os
      exact Or.inl (.same hnil hdo' fun hc => absurd (hdo.symm.trans hc) (by decide))
  · rw [if_neg (by rw [hready]; decide)]
    obtain ⟨hnil, hdo'⟩ := connectBody_conns (s.lock.readyHead os).1 os
    refine Or.inr ⟨hwhy, ⟨fd, ?_⟩, hdo'.trans hdo⟩
    rw [conns_append, hnil, List.append_nil, hconns]
    rfl

/-- **`perf__doh_sendto`.** -/
theorem perfDohSendto_conns {s : PerfDohSocket} {method : DohMethod} {qid : UInt16} {len : Nat}
    {os : OsSendto} {r : Except Errno Nat × PerfDohSocket × List NetEffect}
    (h : s.perfDohSendto method qid len os = some r) : Shuts s r.2.1 r.2.2 := by
  unfold perfDohSendto at h
  dsimp only at h
  by_cases hready : s.lock.isReady = true
  · rw [if_neg (by rw [hready]; decide)] at h
    generalize hs₁ : ({ s.lock with
      qid := qid
      isPostSending := if method = DohMethod.post then true else s.lock.isPostSending } :
        PerfDohSocket) = s₁ at h
    obtain ⟨hdo, hready'⟩ : s₁.doConnect = s.doConnect ∧ s₁.isReady = s.isReady := by
      subst hs₁
      exact ⟨rfl, rfl⟩
    have hsend := (sessionSend_conns s₁ os.send (hready'.trans hready)).leading hdo hready'
    split_ifs at h with hsending hsubmit hok hmore
    · obtain rfl := Option.some.inj h
      exact hsend.of_eq rfl rfl
    · obtain rfl := Option.some.inj h
      exact hsend.of_eq rfl rfl
    · obtain rfl := Option.some.inj h
      exact hsend.of_eq rfl rfl
  · rw [if_pos (by simpa using hready)] at h
    obtain rfl := Option.some.inj h
    exact .same rfl rfl fun _ => rfl

end PerfDohSocket

/-! ### Receiving -/

/-- A frame for which the callback calls `perf__doh_reconnect`. -/
def Http2Event.resets : Http2Event → Bool
  | .frame _ .rstStream _ | .frame _ .goaway _ => true
  | _ => false

namespace DohSocket

theorem callback_of_not_resets (s : DohSocket) {e : Http2Event} (he : e.resets = false) :
    (s.callback e).2.2 = [] ∧ (s.callback e).2.1.base = s.base := by
  cases e with
  | header stream type name value => exact ⟨rfl, rfl⟩
  | chunk stream data => exact ⟨rfl, rfl⟩
  | frame stream type endStream =>
      unfold callback frameRecvCb
      cases type with
      | data =>
          dsimp only
          split_ifs <;> exact ⟨rfl, rfl⟩
      | headers => exact ⟨rfl, rfl⟩
      | rstStream => exact absurd he (by simp [Http2Event.resets])
      | goaway => exact absurd he (by simp [Http2Event.resets])
      | other type => exact ⟨rfl, rfl⟩

theorem callback_of_resets (s : DohSocket) {e : Http2Event} (he : e.resets = true) :
    s.callback e = (.ok, s.perfDohReconnect.1, [.closed s.base.fd]) := by
  cases e with
  | header stream type name value => exact absurd he (by simp [Http2Event.resets])
  | chunk stream data => exact absurd he (by simp [Http2Event.resets])
  | frame stream type endStream =>
      cases type with
      | rstStream => rfl
      | goaway => rfl
      | _ => exact absurd he (by simp [Http2Event.resets])

theorem memRecv_of_not_resets (s : DohSocket) {es : List Http2Event}
    (hes : ∀ e ∈ es, e.resets = false) :
    (s.memRecv es).effects = [] ∧ (s.memRecv es).sock.base = s.base := by
  induction es generalizing s with
  | nil => exact ⟨rfl, rfl⟩
  | cons e es ih =>
      obtain ⟨heffects, hbase⟩ := s.callback_of_not_resets (hes e List.mem_cons_self)
      obtain ⟨heffects', hbase'⟩ :=
        ih (s.callback e).2.1 fun e' he' => hes e' (List.mem_cons_of_mem e he')
      rw [memRecv_cons]
      split_ifs
      · dsimp only
        rw [heffects, heffects', hbase', hbase]
        exact ⟨rfl, rfl⟩
      · exact ⟨heffects, hbase⟩

/-- **The callbacks close the connection at most once**, if at most one frame resets. -/
theorem memRecv_conns (s : DohSocket) {es : List Http2Event} (hready : s.base.isReady = true)
    (hes : es.countP Http2Event.resets ≤ 1) :
    Shuts s.base (s.memRecv es).sock.base (s.memRecv es).effects := by
  induction es generalizing s with
  | nil => exact .same rfl rfl fun _ => rfl
  | cons e es ih =>
      rw [memRecv_cons]
      by_cases he : e.resets = true
      · rw [List.countP_cons_of_pos he] at hes
        have hnone : ∀ e' ∈ es, e'.resets = false := by
          simpa using List.countP_eq_zero.mp (by omega : es.countP Http2Event.resets = 0)
        obtain ⟨heffects, hbase⟩ := s.perfDohReconnect.1.memRecv_of_not_resets hnone
        rw [s.callback_of_resets he, if_pos rfl]
        dsimp only
        rw [heffects, hbase]
        exact .closed s.base.fd rfl hready rfl rfl
      · rw [List.countP_cons_of_neg he] at hes
        obtain ⟨heffects, hbase⟩ := s.callback_of_not_resets (by simpa using he)
        have hrest := ih (s.callback e).2.1 (by rw [hbase]; exact hready) hes
        rw [hbase] at hrest
        split_ifs
        · dsimp only
          rw [heffects]
          exact hrest
        · dsimp only
          rw [heffects, hbase]
          exact .same rfl rfl fun _ => rfl

theorem deliver_base (s : DohSocket) (len : Nat) :
    (s.deliver len).2.base.doConnect = s.base.doConnect ∧
      (s.deliver len).2.base.isReady = s.base.isReady := by
  unfold deliver
  dsimp only
  split_ifs <;> exact ⟨rfl, rfl⟩

theorem recvBody_conns {s : DohSocket} {read : Bytes} {mem : OsMemRecv} {len : Nat}
    {call : DohRecvCall} (hready : s.base.isReady = true)
    (hmem : mem.events.countP Http2Event.resets ≤ 1) (h : s.recvBody read mem len = some call) :
    Shuts s.base call.sock.base call.effects := by
  have hconns := s.memRecv_conns hready hmem
  unfold recvBody at h
  dsimp only at h
  split at h
  · exact nomatch h
  · obtain rfl := Option.some.inj h
    exact hconns.of_eq rfl rfl
  all_goals
    split_ifs at h
    · obtain rfl := Option.some.inj h
      exact hconns.of_eq rfl rfl
    · obtain rfl := Option.some.inj h
      obtain ⟨hdo, hready'⟩ := ((s.memRecv mem.events).sock.consume mem.consumed).deliver_base len
      exact hconns.of_eq hdo hready'

/-- **`perf__doh_recv`.** -/
theorem perfDohRecv_conns {s : DohSocket} {read : SslRead} {mem : OsMemRecv} {len : Nat}
    {call : DohRecvCall} (hmem : mem.events.countP Http2Event.resets ≤ 1)
    (h : s.perfDohRecv read mem len = some call) : Shuts s.base call.sock.base call.effects := by
  rcases perfDohRecv_cases h with
    ⟨errno, rfl⟩ | ⟨hready, rfl⟩ | ⟨hready, s₁, bytes, hbase, -, -, -, -, hbody⟩
  · exact .same rfl rfl fun _ => rfl
  · exact .closed s.base.fd rfl hready rfl rfl
  · have hconns := recvBody_conns (by rw [hbase]; exact hready) hmem hbody
    rw [hbase] at hconns
    exact hconns.leading rfl rfl

end DohSocket

/-! ### Whole runs -/

namespace DohSession

/-- What nghttp2 promises: `nghttp2_session_send` fails if the send callback has failed, which
it does after `perf__doh_reconnect`. -/
def Sends : DohCall → Prop
  | .recv .. => True
  | .sendto _ _ _ os => os.send.reconnected = true → os.send.ok = false
  | .sockready os => os.send.reconnected = true → os.send.ok = false

instance : DecidablePred Sends
  | .recv .. => inferInstanceAs (Decidable True)
  | .sendto .. => inferInstanceAs (Decidable (_ → _))
  | .sockready _ => inferInstanceAs (Decidable (_ → _))

/-- `perf__doh_sockready` is not asked to replace a connection that is closed already, and
one receive finds at most one frame that resets. -/
def Single (c : DohSession) : DohCall → Prop
  | .recv _ mem _ => mem.events.countP Http2Event.resets ≤ 1
  | .sendto .. => True
  | .sockready _ => ¬(c.sock.base.doReconnect = true ∧ c.sock.base.doConnect = true)

instance (c : DohSession) : DecidablePred c.Single
  | .recv .. => inferInstanceAs (Decidable (_ ≤ _))
  | .sendto .. => inferInstanceAs (Decidable True)
  | .sockready _ => inferInstanceAs (Decidable (¬_))

/-- The descriptor is closed exactly if another connection is to be made. -/
structure Closed (c : DohSession) : Prop where
  once : ClosesOnce 0 c.effects
  since : closesSince 0 c.effects = if c.sock.base.doConnect then 1 else 0
  waits : c.sock.base.Waits

theorem closed_start (os : OsConnect) (hasSent hasEvent : Bool) (num timeout : Nat) :
    (start os hasSent hasEvent num timeout).Closed := by
  cases hasEvent <;> exact ⟨trivial, rfl, nofun⟩

theorem Closed.append {c c' : DohSession} {effects : List NetEffect} (hc : c.Closed)
    (heffects : c'.effects = c.effects ++ effects) (hwaits : c'.sock.base.Waits)
    (honce : ClosesOnce (if c.sock.base.doConnect then 1 else 0) (conns effects))
    (hsince : closesSince (if c.sock.base.doConnect then 1 else 0) (conns effects) =
      if c'.sock.base.doConnect then 1 else 0) : c'.Closed := by
  rw [← hc.since] at honce hsince
  refine ⟨?_, ?_, hwaits⟩
  · rw [heffects, closesOnce_append]
    exact ⟨hc.once, (closesOnce_conns _ _).mp honce⟩
  · rw [heffects, closesSince_append, ← closesSince_conns]
    exact hsince

theorem Closed.of_shuts {c c' : DohSession} {effects : List NetEffect} (hc : c.Closed)
    (h : Shuts c.sock.base c'.sock.base effects) (heffects : c'.effects = c.effects ++ effects) :
    c'.Closed := by
  have hwaits := h.waits hc.waits
  cases h with
  | same hnil hdo hready =>
      refine hc.append heffects hwaits ?_ ?_
      · rw [hnil]
        exact trivial
      · rw [hnil, hdo]
        rfl
  | closed fd hclosed hready hdo hready' =>
      have hopen : c.sock.base.doConnect = false := by
        by_contra hne
        have hnot := hc.waits (by simpa using hne)
        exact absurd (hready.symm.trans hnot) (by decide)
      refine hc.append heffects hwaits ?_ ?_
      · rw [hclosed, hopen]
        exact ⟨rfl, trivial⟩
      · rw [hclosed, hopen, hdo]
        rfl

theorem Closed.of_replaces {c c' : DohSession} {effects : List NetEffect} (hc : c.Closed)
    (h : Replaces c.sock.base c'.sock.base effects) (heffects : c'.effects = c.effects ++ effects)
    (hsingle : ¬(c.sock.base.doReconnect = true ∧ c.sock.base.doConnect = true)) : c'.Closed := by
  obtain ⟨hwhy, ⟨fd, hconns⟩, hdone⟩ := h
  have hwaits : c'.sock.base.Waits := fun hdo => absurd (hdone.symm.trans hdo) (by decide)
  refine hc.append heffects hwaits ?_ ?_
  · rw [hconns]
    cases hrec : c.sock.base.doReconnect with
    | false => exact trivial
    | true =>
        have hopen : c.sock.base.doConnect = false := by
          by_contra hne
          exact hsingle ⟨hrec, by simpa using hne⟩
        rw [hopen]
        exact ⟨rfl, trivial⟩
  · rw [hconns, hdone, closesSince_append]
    rfl

theorem closed_next (c : DohSession) (call : DohCall) (c' : DohSession) (hc : c.Closed)
    (hstep : Guarded Single (StepOf next) c call c') : c'.Closed := by
  obtain ⟨hsingle, hnext⟩ := hstep
  cases call with
  | recv read mem len =>
      obtain ⟨r, hrecv, rfl⟩ := Option.map_eq_some_iff.mp hnext
      exact hc.of_shuts (DohSocket.perfDohRecv_conns hsingle hrecv) rfl
  | sendto method qid len os =>
      obtain ⟨r, hsend, rfl⟩ := Option.map_eq_some_iff.mp hnext
      exact hc.of_shuts (PerfDohSocket.perfDohSendto_conns hsend) rfl
  | sockready os =>
      obtain rfl := Option.some.inj hnext
      rcases PerfDohSocket.perfDohSockready_conns c.sock.base os hc.waits with hshuts | hreplaces
      · exact hc.of_shuts hshuts rfl
      · exact hc.of_replaces hreplaces rfl hsingle

/-- **Each descriptor is closed once**: between two connections there is at most one
`close`, whatever the calls and their outcomes are. -/
theorem closes_once (os : OsConnect) (hasSent hasEvent : Bool) (num timeout : Nat)
    (calls : List DohCall) (c : DohSession)
    (hrun : Run (Guarded Single (StepOf next)) (start os hasSent hasEvent num timeout) calls c)
    (es fs gs : List NetEffect) (heffects : c.effects = es ++ fs ++ gs)
    (hfs : ∀ e ∈ fs, e.isOpened = false) : fs.countP NetEffect.isClosed ≤ 1 := by
  have hclosed := hrun.invariant closed_next (closed_start os hasSent hasEvent num timeout)
  have honce := hclosed.once
  rw [heffects] at honce
  exact honce.count_le hfs

/-- Nothing goes wrong in a call of `perf__doh_sockready`, and the new descriptor, if one is
made, is `fd`. -/
def smoothly (fd : Int) : PerfDohSocket.OsSockready :=
  { connect := ⟨fd, true, 0⟩, send := ⟨true, false, true, false⟩, now := 0, now' := 0,
    nqpcRecv := 0,
    wait := .success, soError := none, handshake := .done, alpn := true, settings := true,
    connected := 0 }

/-- The peer closes the connection, and there is another one. -/
theorem closes_once_reconnect :
    ∃ c, Run (Guarded Single (StepOf next)) (start ⟨3, true, 0⟩ false false 0 0)
        [.sockready (smoothly 4), .recv (.data []) ⟨[], false, .eagain, 0⟩ 512,
          .sockready (smoothly 4)] c ∧
      c.effects = [.opened 3] ++ [.closed 3] ++ [.opened 4] ∧
      [NetEffect.closed 3].countP NetEffect.isClosed ≤ 1 := by
  obtain ⟨c, hrun, hend⟩ := Run.exists_of_follow Single next (start ⟨3, true, 0⟩ false false 0 0)
    [.sockready (smoothly 4), .recv (.data []) ⟨[], false, .eagain, 0⟩ 512, .sockready (smoothly 4)]
    (fun c =>
      decide (c.effects = [NetEffect.opened 3] ++ [NetEffect.closed 3] ++ [NetEffect.opened 4]))
    (by decide)
  have heffects := of_decide_eq_true hend
  exact ⟨c, hrun, heffects, closes_once _ _ _ _ _ _ c hrun _ _ _ heffects (by decide)⟩

/-- `SSL_write` fails with `ECONNRESET` in a send: the send callback closes the descriptor and
fails, so `perf__doh_sendto` sets `do_reconnect`; the next `perf__doh_sockready` closes the
descriptor again before it connects. -/
theorem closes_twice :
    ∃ c, Run (Guarded (fun _ => Sends) (StepOf next)) (start ⟨3, true, 0⟩ false false 0 0)
        [.sockready (smoothly 4), .sendto .get 7 40 ⟨true, ⟨false, true, false, true⟩⟩,
          .sockready (smoothly 4)] c ∧
      c.effects = [.opened 3] ++ [.closed 3, .closed 3] ++ [.opened 4] := by
  obtain ⟨c, hrun, hend⟩ := Run.exists_of_follow (fun _ => Sends) next
    (start ⟨3, true, 0⟩ false false 0 0)
    [.sockready (smoothly 4), .sendto .get 7 40 ⟨true, ⟨false, true, false, true⟩⟩,
      .sockready (smoothly 4)]
    (fun c => decide (c.effects =
      [NetEffect.opened 3] ++ [NetEffect.closed 3, NetEffect.closed 3] ++ [NetEffect.opened 4]))
    (by decide)
  exact ⟨c, hrun, of_decide_eq_true hend⟩

end DohSession

end Dnsperf.Net
