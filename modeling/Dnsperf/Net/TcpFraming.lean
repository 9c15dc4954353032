import Dnsperf.Lib.Run
import Dnsperf.Net.Tcp

/-!
# Dnsperf.Net.TcpFraming

What the sending thread puts on each TCP connection. `SendLog` collects the bytes
written, connection by connection, from the effects of the calls; `Framed` relates
it to the socket: the current connection holds whole frames and then the first
`sending` bytes of `sendbuf`.

The one place that breaks it is the start of `perf__tcp_sockready`: it replaces the
connection because the **receiver** asked for it, and then goes on with a query it
had already written a part of to the old one. `perf__tcp_sendto` and the failed
flush, which replace it for their own reasons, start the query over or give it up.
-/

namespace Dnsperf.Net

open Dnsperf.Lib

/-- The bytes written to the current connection, whose descriptor is `fd`, and to each
earlier one. -/
structure SendLog where
  fd : Int
  current : Bytes
  earlier : List Bytes
  deriving DecidableEq

namespace SendLog

/-- One effect. Bytes for a descriptor other than the current one stand by themselves. -/
def record (l : SendLog) : NetEffect → SendLog
  | .opened fd => ⟨fd, [], l.current :: l.earlier⟩
  | .wrote fd bytes =>
      if fd = l.fd then ⟨l.fd, l.current ++ bytes, l.earlier⟩
      else ⟨l.fd, l.current, bytes :: l.earlier⟩
  | _ => l

/-- The effects of a call, in order. -/
def recordAll (l : SendLog) (effects : List NetEffect) : SendLog := effects.foldl record l

theorem recordAll_append (l : SendLog) (es fs : List NetEffect) :
    l.recordAll (es ++ fs) = (l.recordAll es).recordAll fs := List.foldl_append

theorem recordAll_wrote {l : SendLog} {fd : Int} (h : l.fd = fd) (bytes : Bytes) :
    l.recordAll [.wrote fd bytes] = ⟨l.fd, l.current ++ bytes, l.earlier⟩ := if_pos h.symm

end SendLog

/-! ### One connection at a time -/

/-- The log fits the socket: earlier connections hold frames up to a cut, the current
one holds frames and what is out of the query being sent. A query that has to start
over on another connection has nothing out. -/
structure Framed (Q : Bytes → Prop) (s : PerfTcpSocket) (l : SendLog) : Prop where
  fd : l.fd = s.fd
  earlier : ∀ b ∈ l.earlier, FramedPrefix Q b
  current : ∃ ps, l.current = frames ps ++ s.sendbuf.take s.sending ∧ ∀ p ∈ ps, Q p
  sending : s.isSending = true → ∃ p, Q p ∧ p.length ≤ maxPayload ∧ s.sendbuf = frame p ∧
    s.sending < (frame p).length
  idle : s.isSending = false → s.sending = 0
  reconnect : s.needReconnect = true → s.sending = 0
  connecting : s.isReady = false → s.sending = 0

variable {Q : Bytes → Prop} {s s' : PerfTcpSocket} {l : SendLog}

theorem Framed.framedPrefix (h : Framed Q s l) :
    ∀ b ∈ l.current :: l.earlier, FramedPrefix Q b := by
  intro b hb
  rcases List.mem_cons.mp hb with rfl | hb
  · obtain ⟨ps, hcur, hps⟩ := h.current
    refine ⟨ps, _, hcur, hps, ?_⟩
    cases hsend : s.isSending with
    | true =>
        obtain ⟨p, hp, -, hbuf, hlt⟩ := h.sending hsend
        refine Or.inr ⟨p, hp, ?_, ?_⟩
        · rw [hbuf]
          exact List.take_prefix _ _
        · rw [hbuf, List.length_take]
          omega
    | false =>
        rw [h.idle hsend]
        exact Or.inl rfl
  · exact h.earlier b hb

theorem Framed.of_idle {ps : List Bytes} (hfd : l.fd = s.fd)
    (hearlier : ∀ b ∈ l.earlier, FramedPrefix Q b) (hcur : l.current = frames ps)
    (hps : ∀ p ∈ ps, Q p) (hzero : s.sending = 0)
    (hsend : s.isSending = false) : Framed Q s l where
  fd := hfd
  earlier := hearlier
  current := ⟨ps, by rw [hcur, hzero, List.take_zero, List.append_nil], hps⟩
  sending := fun hs => nomatch hsend.symm.trans hs
  idle := fun _ => hzero
  reconnect := fun _ => hzero
  connecting := fun _ => hzero

theorem Framed.exists_frames (h : Framed Q s l) (hsend : s.isSending = false) :
    ∃ ps, l.current = frames ps ∧ ∀ p ∈ ps, Q p := by
  obtain ⟨ps, hcur, hps⟩ := h.current
  rw [h.idle hsend, List.take_zero, List.append_nil] at hcur
  exact ⟨ps, hcur, hps⟩

/-- Only the descriptor and the sending fields of the socket matter. -/
theorem Framed.congr (h : Framed Q s l) (hfd : s'.fd = s.fd) (hbuf : s'.sendbuf = s.sendbuf)
    (hsending : s'.sending = s.sending) (hsend : s'.isSending = s.isSending)
    (hreconn : s'.needReconnect = true → s.sending = 0)
    (hready : s'.isReady = false → s.sending = 0) : Framed Q s' l where
  fd := h.fd.trans hfd.symm
  earlier := h.earlier
  current := by rw [hbuf, hsending]; exact h.current
  sending := by rw [hbuf, hsending, hsend]; exact h.sending
  idle := by rw [hsending, hsend]; exact h.idle
  reconnect := by rw [hsending]; exact hreconn
  connecting := by rw [hsending]; exact hready

theorem Framed.mono {Q' : Bytes → Prop} (h : Framed Q s l) (hQ : ∀ p, Q p → Q' p) :
    Framed Q' s l where
  fd := h.fd
  earlier := fun b hb => (h.earlier b hb).mono hQ
  current := by
    obtain ⟨ps, hcur, hps⟩ := h.current
    exact ⟨ps, hcur, fun p hp => hQ p (hps p hp)⟩
  sending := by
    intro hsend
    obtain ⟨p, hp, hframe⟩ := h.sending hsend
    exact ⟨p, hQ p hp, hframe⟩
  idle := h.idle
  reconnect := h.reconnect
  connecting := h.connecting

theorem Framed.reopen (h : Framed Q s l) (hbuf : s'.sendbuf = s.sendbuf) (hzero : s'.sending = 0)
    (hsend : s'.isSending = true → s.isSending = true) :
    Framed Q s' ⟨s'.fd, [], l.current :: l.earlier⟩ where
  fd := rfl
  earlier := h.framedPrefix
  current := ⟨[], by simp [hzero], by simp⟩
  sending := by
    intro hs'
    obtain ⟨p, hp, hmax, hframe, -⟩ := h.sending (hsend hs')
    exact ⟨p, hp, hmax, hbuf.trans hframe, by rw [hzero, frame_length]; omega⟩
  idle := fun _ => hzero
  reconnect := fun _ => hzero
  connecting := fun _ => hzero

theorem recordAll_reconnect (l : SendLog) (s : PerfTcpSocket) (os : OsConnect) :
    l.recordAll (s.reconnect os).2 = ⟨os.fd, [], l.current :: l.earlier⟩ := by
  cases hevent : s.hasEvent <;>
    simp [PerfTcpSocket.reconnect, PerfTcpSocket.perfTcpConnect, SendLog.recordAll, SendLog.record,
      hevent]

theorem dnslen_frame {p : Bytes} (hp : p.length ≤ maxPayload) : dnslen (frame p) = p.length := by
  simp only [maxPayload] at hp
  simp only [dnslen, frame, be16, List.cons_append, List.getD_cons_zero, List.getD_cons_succ,
    ofBe16_ofNat]
  omega

/-- What going on with a query does: `k` more of its bytes are out, and either some are
still missing or it is done. -/
theorem flush_frame {p : Bytes} (hbuf : s.sendbuf = frame p) (hmax : p.length ≤ maxPayload)
    (hlt : s.sending < (frame p).length) (n : Nat) :
    (∃ k, s.sending + k < (frame p).length ∧
      s.flush n = (false, { s with sending := s.sending + k },
        [.wrote s.fd (((frame p).drop s.sending).take k)])) ∨
    s.flush n =
      (true, { s with sending := 0, isSending := false, nqpcSent := (s.nqpcSent + 1) % 2 ^ 32 },
      [.wrote s.fd ((frame p).drop s.sending)] ++ if s.hasSent then [.sent s.qid] else []) := by
  have hlen : dnslen s.sendbuf + 2 = (frame p).length := by
    rw [hbuf, dnslen_frame hmax, frame_length]
  have hwhole : s.sendbuf.take (frame p).length = frame p := by rw [hbuf, List.take_length]
  simp only [PerfTcpSocket.flush, hlen, hwhole]
  by_cases hpart : s.sending + min n ((frame p).drop s.sending).length < (frame p).length
  · exact Or.inl ⟨_, hpart, by rw [if_pos hpart]⟩
  · refine Or.inr ?_
    have hall : ((frame p).drop s.sending).length ≤ min n ((frame p).drop s.sending).length := by
      rw [List.length_drop] at hpart ⊢
      omega
    rw [if_neg hpart, List.take_of_length_le hall]

theorem recordAll_wrote_sent (hfd : l.fd = s.fd) (bytes : Bytes) :
    l.recordAll ([.wrote s.fd bytes] ++ if s.hasSent then [.sent s.qid] else []) =
      ⟨l.fd, l.current ++ bytes, l.earlier⟩ := by
  rw [SendLog.recordAll_append, SendLog.recordAll_wrote hfd]
  cases hsent : s.hasSent <;> rfl

/-- A socket that has nothing to do before the next query. -/
structure Ready (s : PerfTcpSocket) : Prop where
  isReady : s.isReady = true
  isSending : s.isSending = false
  needReconnect : s.needReconnect = false

/-- **Going on with a query** keeps the log framed, and makes a socket ready whose
query is then out. -/
theorem Framed.flush (h : Framed Q s l) (hsend : s.isSending = true) (hready : s.isReady = true)
    (hreconn : s.needReconnect = false) (n : Nat) :
    Framed Q (s.flush n).2.1 (l.recordAll (s.flush n).2.2) ∧
      ((s.flush n).1 = true → Ready (s.flush n).2.1) := by
  obtain ⟨p, hp, hmax, hbuf, hlt⟩ := h.sending hsend
  obtain ⟨ps, hcur, hps⟩ := h.current
  rw [hbuf] at hcur
  rcases flush_frame hbuf hmax hlt n with ⟨k, hk, hflush⟩ | hflush
  · rw [hflush, SendLog.recordAll_wrote h.fd]
    refine ⟨⟨h.fd, h.earlier, ⟨ps, ?_, hps⟩, fun _ => ⟨p, hp, hmax, hbuf, hk⟩, ?_, ?_, ?_⟩, by simp⟩
    · rw [hcur, hbuf, List.append_assoc, List.take_add]
    · exact fun hidle => nomatch hsend.symm.trans hidle
    · exact fun hneed => nomatch hreconn.symm.trans hneed
    · exact fun hconn => nomatch hready.symm.trans hconn
  · rw [hflush, recordAll_wrote_sent h.fd]
    have hcur' : l.current ++ (frame p).drop s.sending = frames (ps ++ [p]) := by
      rw [frames_concat, hcur, List.append_assoc, List.take_append_drop]
    have hps' : ∀ q ∈ ps ++ [p], Q q :=
      List.forall_mem_append.mpr ⟨hps, List.forall_mem_singleton.mpr hp⟩
    exact ⟨Framed.of_idle h.fd h.earlier hcur' hps' rfl rfl, fun _ => ⟨hready, rfl, hreconn⟩⟩

/-! ### Readiness -/

/-- What a call that may end with a ready socket keeps. -/
structure Keeps (Q : Bytes → Prop) (l : SendLog) (r : Int × PerfTcpSocket × List NetEffect) :
    Prop where
  framed : Framed Q r.2.1 (l.recordAll r.2.2)
  ready : r.1 = 1 → Ready r.2.1

theorem recordAll_event (l : SendLog) (c : Bool) (event : SocketEvent) (elapsed : Nat)
    (effects : List NetEffect) :
    l.recordAll ((if c then [.event event elapsed] else []) ++ effects) = l.recordAll effects := by
  cases c <;> rfl

theorem Framed.resend (h : Framed Q s l) (hzero : s.sending = 0) (hready : s.isReady = true)
    (hreconn : s.needReconnect = false) (os : OsWrite) : Keeps Q l (s.resend os) := by
  cases hsend : s.isSending with
  | false =>
      unfold PerfTcpSocket.resend
      rw [if_neg (by rw [hsend]; exact Bool.false_ne_true)]
      exact ⟨h, fun _ => ⟨hready, hsend, hreconn⟩⟩
  | true =>
      unfold PerfTcpSocket.resend
      rw [if_pos hsend]
      cases os with
      | error errno =>
          by_cases hagain : errno ≠ .eagain
          · simp only [if_pos hagain]
            exact ⟨h.congr rfl rfl rfl rfl (fun _ => hzero) (fun _ => hzero), nofun⟩
          · simp only [if_neg hagain]
            exact ⟨h, fun hone => nomatch hone⟩
      | ok n =>
          obtain ⟨hframed, hdone⟩ := h.flush hsend hready hreconn n
          refine ⟨hframed, fun hone => hdone ?_⟩
          by_contra hpart
          simp only [if_neg hpart] at hone
          exact nomatch hone

/-- Waiting for the connection writes nothing before it is there. -/
theorem Framed.connCont (h : Framed Q s l) (hzero : s.sending = 0)
    (hreconn : s.needReconnect = false) (os : PerfTcpSocket.OsSockready) :
    Keeps Q l (s.connCont os) := by
  rw [PerfTcpSocket.connCont]
  cases os.wait with
  | success =>
      cases os.soError with
      | some errno =>
          by_cases hagain : errno = .einprogress ∨ errno = .eagain
          · simp only [if_pos hagain]
            exact ⟨h, fun hone => nomatch hone⟩
          · simp only [if_neg hagain]
            exact ⟨h.congr rfl rfl rfl rfl (fun _ => hzero) (fun _ => hzero), nofun⟩
      | none =>
          have hest : Framed Q s.established l :=
            h.congr rfl rfl rfl rfl (fun _ => hzero) (fun _ => hzero)
          obtain ⟨hframed, hready⟩ := hest.resend hzero rfl hreconn os.resend
          refine ⟨?_, hready⟩
          rw [recordAll_event]
          exact hframed
  | _ => exact ⟨h, fun hone => nomatch hone⟩

/-- The check of `num_queries_per_conn` asks for a new connection between queries. -/
theorem Framed.checkQueries (h : Framed Q s l) (hready : Ready s)
    (os : PerfTcpSocket.OsSockready) :
    Framed Q (s.checkQueries os).2 l ∧
      ((s.checkQueries os).1 = 1 → Ready (s.checkQueries os).2) := by
  have hzero : s.sending = 0 := h.idle hready.isSending
  simp only [PerfTcpSocket.checkQueries]
  split_ifs
  · exact ⟨h.congr rfl rfl rfl rfl (fun _ => hzero) (fun _ => hzero), fun hone => nomatch hone⟩
  · exact ⟨h.congr rfl rfl rfl rfl (fun _ => hzero) (fun _ => hzero), fun hone => nomatch hone⟩
  · exact ⟨h.congr rfl rfl rfl rfl (fun _ => hzero) (fun _ => hzero), fun hone => nomatch hone⟩
  · exact ⟨h, fun hone => nomatch hone⟩
  · exact ⟨h, fun _ => hready⟩

theorem giveUp_sending (s : PerfTcpSocket) : s.giveUp.sending = 0 := by
  unfold PerfTcpSocket.giveUp
  split_ifs with hpart
  · rfl
  · exact not_not.mp hpart

/-- A query that could not go on starts over or is given up. -/
theorem Framed.sendFailed (h : Framed Q s l) (hreconn : s.needReconnect = false)
    (os : PerfTcpSocket.OsSockready) : Keeps Q l (s.sendFailed os) := by
  set s' := (s.reconnect os.reconnect).1 with hs'
  have hkept : s'.giveUp.fd = os.reconnect.fd ∧ s'.giveUp.sendbuf = s.sendbuf ∧
      s'.giveUp.needReconnect = false ∧ (s'.giveUp.isSending = true → s.isSending = true) := by
    unfold PerfTcpSocket.giveUp
    split_ifs
    · exact ⟨rfl, rfl, hreconn, fun hsend => nomatch hsend⟩
    · exact ⟨rfl, rfl, hreconn, id⟩
  obtain ⟨hfd, hbuf, hreconn', hsend⟩ := hkept
  have hreopen := h.reopen hbuf (giveUp_sending s') hsend
  obtain ⟨hframed, hready⟩ := hreopen.connCont (giveUp_sending s') hreconn' os
  refine ⟨?_, hready⟩
  rw [hfd, ← recordAll_reconnect l s os.reconnect, ← SendLog.recordAll_append] at hframed
  exact hframed

/-- **From the check of `is_ready` on**, every new connection starts the query over or
gives it up. -/
theorem Framed.readyBody (h : Framed Q s l) (hreconn : s.needReconnect = false)
    (os : PerfTcpSocket.OsSockready) : Keeps Q l (s.readyBody os) := by
  unfold PerfTcpSocket.readyBody
  by_cases hready : s.isReady = true
  · rw [if_pos hready]
    by_cases hsend : s.isSending = true
    · rw [if_pos hsend]
      cases os.send with
      | error errno =>
          by_cases hagain : errno = .eagain
          · simp only [if_pos hagain]
            exact ⟨h, fun hone => nomatch hone⟩
          · simp only [if_neg hagain]
            exact h.sendFailed hreconn os
      | ok n =>
          obtain ⟨hframed, hdone⟩ := h.flush hsend hready hreconn n
          by_cases hall : (s.flush n).1 = true
          · simp only [if_pos hall]
            obtain ⟨hframed, hone⟩ := hframed.checkQueries (hdone hall) os
            exact ⟨hframed, hone⟩
          · simp only [if_neg hall]
            exact ⟨hframed, fun hone => nomatch hone⟩
    · rw [if_neg hsend]
      obtain ⟨hframed, hone⟩ :=
        h.checkQueries ⟨hready, Bool.eq_false_iff.mpr hsend, hreconn⟩ os
      exact ⟨hframed, hone⟩
  · rw [if_neg hready]
    exact h.connCont (h.connecting (Bool.eq_false_iff.mpr hready)) hreconn os

/-- **A new connection that the receiver asked for** keeps the log framed if nothing of
a query is out. -/
theorem Framed.readyHead (h : Framed Q s l) (hzero : s.recvNeedReconn = s.fd → s.sending = 0)
    (os : PerfTcpSocket.OsSockready) :
    Framed Q (s.readyHead os).1 (l.recordAll (s.readyHead os).2) ∧
      (s.readyHead os).1.needReconnect = false := by
  unfold PerfTcpSocket.readyHead
  by_cases hneed : s.recvNeedReconn = s.fd ∨ s.needReconnect = true
  · rw [if_pos hneed]
    refine ⟨?_, rfl⟩
    rw [recordAll_reconnect]
    exact h.reopen rfl (hneed.elim hzero h.reconnect) id
  · rw [if_neg hneed]
    exact ⟨h, Bool.eq_false_iff.mpr fun hreconn => hneed (Or.inr hreconn)⟩

theorem Framed.perfTcpSockready (h : Framed Q s l)
    (hzero : s.recvNeedReconn = s.fd → s.sending = 0) (os : PerfTcpSocket.OsSockready) :
    Keeps Q l (s.perfTcpSockready os) := by
  obtain ⟨hhead, hreconn⟩ := h.readyHead hzero os
  obtain ⟨hframed, hready⟩ := hhead.readyBody hreconn os
  unfold PerfTcpSocket.perfTcpSockready
  refine ⟨?_, hready⟩
  rw [SendLog.recordAll_append]
  exact hframed

/-! ### Sending -/

/-- `sendbuf` holds a frame, whatever the length of the query. -/
theorem sendbuf_eq_frame (buf : Bytes) :
    let send := if buf.length < tcpSendBufSize - 2 then buf.length else tcpSendBufSize - 2
    be16 send ++ buf.take send = frame (buf.take maxPayload) ∧
      send + 2 = (frame (buf.take maxPayload)).length := by
  intro send
  have hsend : send = min maxPayload buf.length := by
    simp only [send]
    split_ifs with hshort
    · exact (Nat.min_eq_right (Nat.le_of_lt hshort)).symm
    · exact (Nat.min_eq_left (Nat.le_of_not_lt hshort)).symm
  rw [frame_length, frame, List.length_take, hsend, ← List.take_eq_take_min]
  exact ⟨rfl, rfl⟩

theorem Framed.begin (h : Framed Q s l) (hidle : s.isSending = false) {p : Bytes} (hp : Q p)
    (hmax : p.length ≤ maxPayload) (hfd : s'.fd = s.fd) (hbuf : s'.sendbuf = frame p)
    (hlt : s'.sending < (frame p).length) (hsend : s'.isSending = true)
    (hreconn : s'.needReconnect = true → s'.sending = 0)
    (hconn : s'.isReady = false → s'.sending = 0) :
    Framed Q s' ⟨l.fd, l.current ++ (frame p).take s'.sending, l.earlier⟩ where
  fd := h.fd.trans hfd.symm
  earlier := h.earlier
  current := by
    obtain ⟨ps, hcur, hps⟩ := h.exists_frames hidle
    exact ⟨ps, by rw [hcur, hbuf], hps⟩
  sending := fun _ => ⟨p, hp, hmax, hbuf, hlt⟩
  idle := fun hs => nomatch hsend.symm.trans hs
  reconnect := hreconn
  connecting := hconn

/-- `perf__tcp_sendto`, given a ready socket, writes the frame of the query, of which
`Q` knows. -/
theorem Framed.perfTcpSendto (h : Framed Q s l) (hready : Ready s) (qid : UInt16) (buf : Bytes)
    (hQ : Q (buf.take maxPayload)) (os : OsWrite) :
    Framed Q (s.perfTcpSendto qid buf os).2.1 (l.recordAll (s.perfTcpSendto qid buf os).2.2) := by
  have hzero : s.sending = 0 := h.idle hready.isSending
  have hmax : (buf.take maxPayload).length ≤ maxPayload := List.length_take_le _ _
  obtain ⟨ps, hcur, hps⟩ := h.exists_frames hready.isSending
  obtain ⟨hbuf, hlen⟩ := sendbuf_eq_frame buf
  set p := buf.take maxPayload
  -- put off to `perf__tcp_sockready`, with no byte of the query out
  have hdelay : Framed Q { s with sendbuf := frame p, qid := qid }.delay l := by
    have hnone : Framed Q { s with sendbuf := frame p, qid := qid }.delay
        ⟨l.fd, l.current ++ (frame p).take 0, l.earlier⟩ :=
      h.begin hready.isSending hQ hmax rfl rfl (by rw [frame_length]; exact Nat.succ_pos _) rfl
        (fun _ => rfl) (fun _ => rfl)
    simpa only [List.take_zero, List.append_nil] using hnone
  unfold PerfTcpSocket.perfTcpSendto
  simp only [hbuf, hlen]
  by_cases hneed : s.recvNeedReconn = s.fd
  · rw [if_pos hneed]
    exact hdelay
  · rw [if_neg hneed]
    cases os with
    | error errno =>
        cases errno with
        | econnrefused | econnreset | enotconn | epipe => exact hdelay
        | _ => exact Framed.of_idle h.fd h.earlier hcur hps hzero hready.isSending
    | ok n =>
        by_cases hpart : min n (frame p).length < (frame p).length
        · simp only [if_pos hpart]
          rw [SendLog.recordAll_wrote h.fd]
          exact h.begin hready.isSending hQ hmax rfl rfl hpart rfl
            (fun hneed => nomatch hready.needReconnect.symm.trans hneed)
            (fun hconn => nomatch hready.isReady.symm.trans hconn)
        · simp only [if_neg hpart]
          -- the whole frame is out
          have hcur' : l.current ++ (frame p).take (min n (frame p).length) =
              frames (ps ++ [p]) := by
            rw [List.take_of_length_le (Nat.le_of_not_lt hpart), frames_concat, hcur]
          rw [SendLog.recordAll_wrote h.fd]
          exact Framed.of_idle h.fd h.earlier hcur'
            (List.forall_mem_append.mpr ⟨hps, List.forall_mem_singleton.mpr hQ⟩) hzero
            hready.isSending

/-! ### Runs -/

/-- The socket in use: what was written, the queries handed over so far, and whether
the last call was a `perf__tcp_sockready` that returned 1. -/
structure Sending where
  sock : PerfTcpSocket
  log : SendLog
  queries : List Bytes
  ready : Bool

namespace Sending

/-- A payload is a query, or as much of one as a frame can hold. -/
def Payload (c : Sending) (p : Bytes) : Prop := ∃ q ∈ c.queries, p = q.take maxPayload

/-- The socket just opened. -/
def start (os : OsConnect) (hasSent hasEvent : Bool) (numQueriesPerConn nqpcTimeout : Nat) :
    Sending :=
  ⟨(PerfTcpSocket.perfNetTcpOpensocket os hasSent hasEvent numQueriesPerConn nqpcTimeout).1,
    ⟨os.fd, [], []⟩, [], false⟩

/-- A call of the sending thread, or what the receiving one stores in between. -/
inductive Event
  | sendto (qid : UInt16) (buf : Bytes) (os : OsWrite)
  | sockready (os : PerfTcpSocket.OsSockready)
  | receiver (recv : RecvBuf) (recvfd recvNeedReconn : Int) (nqpcRecv : Nat)

/-- A query is only sent after `perf__tcp_sockready` returned 1. -/
def next (c : Sending) : Event → Option Sending
  | .sendto qid buf os =>
      let (_, sock, effects) := c.sock.perfTcpSendto qid buf os
      if c.ready then some ⟨sock, c.log.recordAll effects, c.queries ++ [buf], false⟩ else none
  | .sockready os =>
      let (ret, sock, effects) := c.sock.perfTcpSockready os
      some ⟨sock, c.log.recordAll effects, c.queries, ret = 1⟩
  | .receiver recv recvfd recvNeedReconn nqpcRecv =>
      some { c with sock := { c.sock with
        recv := recv
        recvfd := recvfd
        recvNeedReconn := recvNeedReconn
        nqpcRecv := nqpcRecv } }

/-- `perf__tcp_sockready` is not called with a query partly out and the receiver
asking for a new connection. -/
def NoCut (c : Sending) : Event → Prop
  | .sockready _ => c.sock.recvNeedReconn = c.sock.fd → c.sock.sending = 0
  | _ => True

instance (c : Sending) : (e : Event) → Decidable (c.NoCut e)
  | .sockready _ => inferInstanceAs (Decidable (_ → _))
  | .sendto .. | .receiver .. => inferInstanceAs (Decidable True)

/-- What every guarded step keeps. -/
def Inv (c : Sending) : Prop := Framed c.Payload c.sock c.log ∧ (c.ready = true → Ready c.sock)

theorem inv_start (os : OsConnect) (hasSent hasEvent : Bool) (numQueriesPerConn nqpcTimeout : Nat) :
    Inv (start os hasSent hasEvent numQueriesPerConn nqpcTimeout) := by
  refine ⟨Framed.of_idle (l := ⟨os.fd, [], []⟩) rfl ?_ frames_nil.symm ?_ rfl rfl,
    fun hready => nomatch hready⟩
  · exact fun b hb => absurd hb List.not_mem_nil
  · exact fun p hp => absurd hp List.not_mem_nil

theorem inv_step (c : Sending) (e : Event) (c' : Sending) (h : Inv c)
    (hstep : Guarded NoCut (StepOf next) c e c') : Inv c' := by
  obtain ⟨hcut, hstep⟩ := hstep
  cases e with
  | sendto qid buf os =>
      obtain ⟨hready, hc'⟩ := Option.ite_none_right_eq_some.mp hstep
      rw [← Option.some.inj hc']
      refine ⟨?_, fun hready' => nomatch hready'⟩
      refine Framed.perfTcpSendto (h.1.mono ?_) (h.2 hready) qid buf ?_ os
      · intro p hp
        obtain ⟨q, hq, hpq⟩ := hp
        exact ⟨q, List.mem_append_left _ hq, hpq⟩
      · exact ⟨buf, List.mem_append_right _ (List.mem_singleton.mpr rfl), rfl⟩
  | sockready os =>
      obtain ⟨hframed, hready⟩ := h.1.perfTcpSockready hcut os
      rw [← Option.some.inj hstep]
      exact ⟨hframed, fun hone => hready (of_decide_eq_true hone)⟩
  | receiver recv recvfd recvNeedReconn nqpcRecv =>
      rw [← Option.some.inj hstep]
      refine ⟨h.1.congr rfl rfl rfl rfl h.1.reconnect h.1.connecting, fun hready => ?_⟩
      obtain ⟨hisReady, hisSending, hneed⟩ := h.2 hready
      exact ⟨hisReady, hisSending, hneed⟩

end Sending

/-- **Every connection is framed**: in every run in which the receiver's request for a
new connection never meets a query partly out, what was written to each connection is
whole frames and at most one frame cut off. -/
theorem sending_framed (os : OsConnect) (hasSent hasEvent : Bool)
    (numQueriesPerConn nqpcTimeout : Nat) (es : List Sending.Event) (c : Sending)
    (hrun : Run (Guarded Sending.NoCut (StepOf Sending.next))
      (Sending.start os hasSent hasEvent numQueriesPerConn nqpcTimeout) es c) :
    ∀ b ∈ c.log.current :: c.log.earlier, FramedPrefix c.Payload b :=
  (hrun.invariant Sending.inv_step (Sending.inv_start ..)).1.framedPrefix

/-- Readiness with `connect` and `send` as the only calls that matter. -/
def readyWith (fd : Int) (send : OsWrite) : PerfTcpSocket.OsSockready :=
  ⟨⟨fd, true, 0⟩, send, ⟨fd, true, 0⟩, 0, 0, 0, .success, none, 0, send⟩

/-- A query in two pieces, then another connection because the receiver asked for it,
and another query. -/
theorem sending_framed_two_connections :
    ∃ c : Sending, c.log = ⟨6, [0, 1, 9], [[0, 2, 7, 8]]⟩ ∧
      ∀ b ∈ c.log.current :: c.log.earlier, FramedPrefix c.Payload b := by
  obtain ⟨c, hrun, hlog⟩ := Run.exists_of_follow Sending.NoCut Sending.next
    (Sending.start ⟨5, true, 0⟩ true true 0 0)
    [.sockready (readyWith 6 (.ok 0)), .sendto 1 [7, 8] (.ok 3), .sockready (readyWith 6 (.ok 1)),
      .receiver RecvBuf.empty 5 5 0, .sockready (readyWith 6 (.ok 0)), .sendto 2 [9] (.ok 3)]
    (fun c => c.log = ⟨6, [0, 1, 9], [[0, 2, 7, 8]]⟩) (by decide)
  exact ⟨c, of_decide_eq_true hlog, sending_framed _ _ _ _ _ _ c hrun⟩

/-- **A connection that starts in the middle of a frame**: three bytes of a query are out
when the receiver finds the connection closed, and the last two go to the next one. -/
theorem sending_starts_mid_frame :
    ∃ es c, Run (StepOf Sending.next) (Sending.start ⟨5, true, 0⟩ true true 0 0) es c ∧
      ¬ ∀ b ∈ c.log.current :: c.log.earlier, FramedPrefix c.Payload b := by
  obtain ⟨c, hrun, hend⟩ := Run.exists_of_follow (fun _ _ => True) Sending.next
    (Sending.start ⟨5, true, 0⟩ true true 0 0)
    [.sockready (readyWith 6 (.ok 0)), .sendto 1 [7, 8, 9] (.ok 3),
      .receiver RecvBuf.empty 5 5 0, .sockready (readyWith 6 (.ok 2))]
    (fun c => c.log.current = [8, 9] ∧ c.queries = [[7, 8, 9]]) (by decide)
  obtain ⟨hcur, hqueries⟩ := of_decide_eq_true hend
  refine ⟨_, c, hrun.mono fun _ _ _ hstep => hstep.2, fun hframed => ?_⟩
  have hhead : FramedPrefix c.Payload [8, 9] := hcur ▸ hframed _ List.mem_cons_self
  obtain ⟨p, ⟨q, hq, hpq⟩, hfirst⟩ := hhead.head
  rw [hqueries, List.mem_singleton] at hq
  rw [hpq, hq] at hfirst
  exact absurd hfirst (by decide)

end Dnsperf.Net
