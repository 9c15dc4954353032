import Dnsperf.Net.DohSocket

/-!
# Dnsperf.Net.ConnEvents

The connection events of the stream transports.

`Phase` is the specification: at any time an attempt may be reported, and a completion only of
an attempt that is pending, each with the name that is due. A socket is seen through `ConnView`,
and `ConnMoves` lists all that its calls do to that: they leave it alone, attempt a connection, or
complete one while the socket waits for it. **Every move is reported as specified**
(`ConnMoves.reports`), so each transport only has to show that its calls are moves.
-/

namespace Dnsperf.Net

open Dnsperf.Lib

/-! ### Attempts and completions -/

/-- The event reports an attempt; the others report completions. -/
def SocketEvent.isAttempt : SocketEvent → Bool
  | .connecting | .reconnecting => true
  | .connected | .reconnected => false

/-- What has been reported of a socket: whether there were attempts and completions, and whether
the last attempt is still to be completed. -/
structure Phase where
  attempted : Bool
  completed : Bool
  pending : Bool
  deriving DecidableEq

namespace Phase

def start : Phase := ⟨false, false, false⟩

/-- How the next attempt is reported. -/
def attempt (p : Phase) : SocketEvent := if p.attempted then .reconnecting else .connecting

/-- How the next completion is reported. -/
def completion (p : Phase) : SocketEvent := if p.completed then .reconnected else .connected

@[simp] theorem attempt_isAttempt (p : Phase) : p.attempt.isAttempt = true := by
  unfold attempt
  split_ifs <;> rfl

@[simp] theorem completion_isAttempt (p : Phase) : p.completion.isAttempt = false := by
  unfold completion
  split_ifs <;> rfl

theorem attempt_eq_connecting {p : Phase} : p.attempt = .connecting ↔ p.attempted = false := by
  cases h : p.attempted <;> simp [attempt, h]

theorem completion_eq_connected {p : Phase} : p.completion = .connected ↔ p.completed = false := by
  cases h : p.completed <;> simp [completion, h]

/-- An event with the right name, and at the right time. -/
def report (p : Phase) (e : SocketEvent) : Option Phase :=
  if e = p.attempt then some { p with attempted := true, pending := true }
  else if e = p.completion ∧ p.pending = true then
    some { p with completed := true, pending := false }
  else none

theorem report_attempt (p : Phase) :
    p.report p.attempt = some { p with attempted := true, pending := true } := if_pos rfl

theorem completion_ne_attempt (p : Phase) : p.completion ≠ p.attempt := by
  intro h
  have hattempt := p.attempt_isAttempt
  rw [← h, completion_isAttempt] at hattempt
  exact nomatch hattempt

theorem report_completion {p : Phase} (h : p.pending = true) :
    p.report p.completion = some { p with completed := true, pending := false } := by
  rw [report, if_neg p.completion_ne_attempt, if_pos ⟨rfl, h⟩]

theorem report_cases {p p' : Phase} {e : SocketEvent} (h : p.report e = some p') :
    (e = p.attempt ∧ p' = { p with attempted := true, pending := true }) ∨
      (e = p.completion ∧ p.pending = true ∧
        p' = { p with completed := true, pending := false }) := by
  unfold report at h
  split_ifs at h with hattempt hcompletion
  · exact Or.inl ⟨hattempt, (Option.some.inj h).symm⟩
  · exact Or.inr ⟨hcompletion.1, hcompletion.2, (Option.some.inj h).symm⟩

/-- The phase that events leave. -/
def ofEvents (es : List SocketEvent) : Phase where
  attempted := es.any SocketEvent.isAttempt
  completed := es.any fun e => !e.isAttempt
  pending := es.getLast?.any SocketEvent.isAttempt

end Phase

section Traces

variable {es : List SocketEvent} {p : Phase}

theorem eq_ofEvents (h : Run (StepOf Phase.report) .start es p) : p = .ofEvents es := by
  induction es using List.reverseRecOn generalizing p with
  | nil =>
      cases h
      rfl
  | append_singleton es e ih =>
      obtain ⟨q, hq, hlast⟩ := h.of_append
      obtain rfl := ih hq
      cases hlast with
      | cons hstep hnil =>
          cases hnil
          rcases Phase.report_cases hstep with ⟨rfl, rfl⟩ | ⟨rfl, -, rfl⟩ <;>
            simp [Phase.ofEvents, Option.any]

/-- No more completions than attempts, and one less if an attempt is pending. -/
theorem completions_le (h : Run (StepOf Phase.report) .start es p) :
    es.countP (fun e => !e.isAttempt) + p.pending.toNat ≤ es.countP SocketEvent.isAttempt := by
  induction es using List.reverseRecOn generalizing p with
  | nil =>
      cases h
      exact Nat.le_refl 0
  | append_singleton es e ih =>
      obtain ⟨q, hq, hlast⟩ := h.of_append
      have hle := ih hq
      cases hlast with
      | cons hstep hnil =>
          cases hnil
          rw [List.countP_append, List.countP_append]
          rcases Phase.report_cases hstep with ⟨rfl, rfl⟩ | ⟨rfl, hpending, rfl⟩
          · simp
            omega
          · simp [hpending] at hle ⊢
            omega

/-- The events of a socket: each completion comes right after an attempt, which is its own, and
the first attempt and the first completion are the only ones that are called `connecting` and
`connected`. -/
structure Consistent (es : List SocketEvent) : Prop where
  own : ∀ pre e post, es = pre ++ e :: post → e.isAttempt = false →
    ∃ pre' a, pre = pre' ++ [a] ∧ a.isAttempt = true
  connecting : ∀ pre e post, es = pre ++ e :: post →
    (e = .connecting ↔ e.isAttempt = true ∧ ∀ x ∈ pre, x.isAttempt = false)
  connected : ∀ pre e post, es = pre ++ e :: post →
    (e = .connected ↔ e.isAttempt = false ∧ ∀ x ∈ pre, x.isAttempt = true)

/-- **What follows the phases is consistent.** -/
theorem consistent_of_run (h : Run (StepOf Phase.report) .start es p) : Consistent es := by
  have hsplit : ∀ pre e post, es = pre ++ e :: post →
      ∃ q', (Phase.ofEvents pre).report e = some q' := by
    rintro pre e post rfl
    obtain ⟨q, hpre, hrest⟩ := h.of_append
    obtain rfl := eq_ofEvents hpre
    cases hrest with
    | cons hstep _ => exact ⟨_, hstep⟩
  have hnone : ∀ pre : List SocketEvent,
      (Phase.ofEvents pre).attempted = false ↔ ∀ x ∈ pre, x.isAttempt = false := fun pre => by
    simp [Phase.ofEvents]
  have hall : ∀ pre : List SocketEvent,
      (Phase.ofEvents pre).completed = false ↔ ∀ x ∈ pre, x.isAttempt = true := fun pre => by
    simp [Phase.ofEvents]
  refine ⟨fun pre e post hes he => ?_, fun pre e post hes => ?_, fun pre e post hes => ?_⟩ <;>
    obtain ⟨q', hstep⟩ := hsplit pre e post hes
  · rcases Phase.report_cases hstep with ⟨rfl, -⟩ | ⟨-, hpending, -⟩
    · exact absurd ((Phase.attempt_isAttempt _).symm.trans he) (by decide)
    · obtain ⟨a, ha, hattempt⟩ := (Option.any_eq_true _ _).mp hpending
      obtain ⟨pre', rfl⟩ := List.getLast?_eq_some_iff.mp ha
      exact ⟨pre', a, rfl, hattempt⟩
  · rcases Phase.report_cases hstep with ⟨rfl, -⟩ | ⟨rfl, -, -⟩
    · rw [Phase.attempt_eq_connecting, hnone, Phase.attempt_isAttempt]
      exact (and_iff_right rfl).symm
    · have hne : (Phase.ofEvents pre).completion ≠ .connecting := fun h =>
        absurd ((Phase.completion_isAttempt _).symm.trans (congrArg _ h)) (by decide)
      simp [hne]
  · rcases Phase.report_cases hstep with ⟨rfl, -⟩ | ⟨rfl, -, -⟩
    · have hne : (Phase.ofEvents pre).attempt ≠ .connected := fun h =>
        absurd ((Phase.attempt_isAttempt _).symm.trans (congrArg _ h)) (by decide)
      simp [hne]
    · rw [Phase.completion_eq_connected, hall, Phase.completion_isAttempt]
      exact (and_iff_right rfl).symm

end Traces

/-! ### What calls do -/

/-- The events among the effects of a call, each with the time it is reported with. -/
def events (effects : List NetEffect) : List (SocketEvent × Nat) :=
  effects.filterMap fun
    | .event event elapsed => some (event, elapsed)
    | _ => none

theorem events_append (effects effects' : List NetEffect) :
    events (effects ++ effects') = events effects ++ events effects' := List.filterMap_append ..

/-- What has nothing to do with connecting. -/
def NetEffect.isQuiet : NetEffect → Bool
  | .opened _ | .event .. => false
  | _ => true

theorem events_of_quiet {effects : List NetEffect} (h : effects.all NetEffect.isQuiet = true) :
    events effects = [] ∧ effects.countP NetEffect.isOpened = 0 := by
  rw [List.all_eq_true] at h
  refine ⟨List.filterMap_eq_nil_iff.mpr fun e he => ?_, List.countP_eq_zero.mpr fun e he => ?_⟩
  · cases e with
    | event event elapsed => exact nomatch h _ he
    | _ => rfl
  · cases e with
    | opened fd => exact nomatch h _ he
    | _ => exact Bool.false_ne_true

/-- A socket as far as connection events go. -/
structure ConnView where
  hasEvent : Bool
  conningEvent : SocketEvent
  connEvent : SocketEvent
  /-- The next call may complete the connection. -/
  waiting : Bool

/-- The socket reports as the phase wants it. -/
structure ConnView.Tells (v : ConnView) (p : Phase) : Prop where
  attempt : v.conningEvent = p.attempt
  completion : v.connEvent = p.completion
  pending : v.waiting = true → p.pending = true

/-- What a call does: nothing to the connection, an attempt, a completion while the socket
waits for it, or one after another. -/
inductive ConnMoves : ConnView → List NetEffect → ConnView → Prop
  | quiet {v v' : ConnView} {effects : List NetEffect} : effects.all NetEffect.isQuiet = true →
      v'.hasEvent = v.hasEvent → v'.conningEvent = v.conningEvent → v'.connEvent = v.connEvent →
      (v'.waiting = true → v.waiting = true) → ConnMoves v effects v'
  | attempt {v v' : ConnView} (fd : Int) (now : Nat) : v'.hasEvent = v.hasEvent →
      v'.conningEvent = (if v.hasEvent then .reconnecting else v.conningEvent) →
      v'.connEvent = v.connEvent →
      ConnMoves v (.opened fd :: if v.hasEvent then [.event v.conningEvent now] else []) v'
  | complete {v v' : ConnView} (elapsed : Nat) : v.waiting = true → v'.hasEvent = v.hasEvent →
      v'.conningEvent = v.conningEvent →
      v'.connEvent = (if v.hasEvent then .reconnected else v.connEvent) → v'.waiting = false →
      ConnMoves v (if v.hasEvent then [.event v.connEvent elapsed] else []) v'
  | trans {v v' v'' : ConnView} {effects effects' : List NetEffect} : ConnMoves v effects v' →
      ConnMoves v' effects' v'' → ConnMoves v (effects ++ effects') v''

namespace ConnMoves

variable {v v' : ConnView} {effects : List NetEffect}

theorem hasEvent_eq (h : ConnMoves v effects v') : v'.hasEvent = v.hasEvent := by
  induction h with
  | quiet _ hhas => exact hhas
  | attempt _ _ hhas => exact hhas
  | complete _ _ hhas => exact hhas
  | trans _ _ ih ih' => exact ih'.trans ih

theorem events_eq_nil (h : ConnMoves v effects v') (hhas : v.hasEvent = false) :
    events effects = [] := by
  induction h with
  | quiet hquiet => exact (events_of_quiet hquiet).1
  | attempt fd now =>
      rw [hhas]
      rfl
  | complete elapsed =>
      rw [hhas]
      rfl
  | trans hfirst _ ih ih' =>
      rw [events_append, ih hhas, ih' (hfirst.hasEvent_eq.trans hhas)]
      rfl

/-- **Every move is reported as specified**, and the attempts reported are those made. -/
theorem reports (h : ConnMoves v effects v') (hhas : v.hasEvent = true) {p : Phase}
    (hp : v.Tells p) :
    ∃ p', Run (StepOf Phase.report) p ((events effects).map Prod.fst) p' ∧ v'.Tells p' ∧
      effects.countP NetEffect.isOpened =
        ((events effects).map Prod.fst).countP SocketEvent.isAttempt := by
  induction h generalizing p with
  -- by induction over the moves of the call, with what the socket tells in between
  | quiet hquiet _ hconning hconn hwaiting =>
      obtain ⟨hevents, hopened⟩ := events_of_quiet hquiet
      rw [hevents, hopened]
      exact ⟨p, Run.nil p, ⟨hconning.trans hp.attempt, hconn.trans hp.completion, fun hw =>
        hp.pending (hwaiting hw)⟩, rfl⟩
  | @attempt v v' fd now _ hconning hconn =>
      rw [hhas, if_pos rfl] at hconning ⊢
      refine ⟨{ p with attempted := true, pending := true }, Run.cons ?_ (Run.nil _),
        ⟨hconning, hconn.trans hp.completion, fun _ => rfl⟩, ?_⟩
      · rw [StepOf, hp.attempt]
        exact p.report_attempt
      · simp [events, List.countP_cons, NetEffect.isOpened, hp.attempt]
  | @complete v v' elapsed hwaiting _ hconning hconn hdone =>
      rw [hhas, if_pos rfl] at hconn ⊢
      refine ⟨{ p with completed := true, pending := false }, Run.cons ?_ (Run.nil _),
        ⟨hconning.trans hp.attempt, hconn, fun hw => ?_⟩, ?_⟩
      · rw [StepOf, hp.completion]
        exact Phase.report_completion (hp.pending hwaiting)
      · rw [hdone] at hw
        exact nomatch hw
      · simp [events, NetEffect.isOpened, hp.completion]
  | trans hfirst _ ih ih' =>
      obtain ⟨q, hrun, hq, hcount⟩ := ih hhas hp
      obtain ⟨p', hrun', hp', hcount'⟩ := ih' (hfirst.hasEvent_eq.trans hhas) hq
      refine ⟨p', ?_, hp', ?_⟩
      · rw [events_append, List.map_append]
        exact hrun.append hrun'
      · rw [events_append, List.map_append, List.countP_append, List.countP_append, hcount, hcount']

theorem silent (heffects : effects.all NetEffect.isQuiet = true) (h : v' = v) :
    ConnMoves v effects v' := by
  subst h
  exact .quiet heffects rfl rfl rfl id

end ConnMoves

/-! ### TCP -/

namespace PerfTcpSocket

variable (s : PerfTcpSocket)

def connView : ConnView := ⟨s.hasEvent, s.conningEvent, s.connEvent, !s.isReady⟩

/-- The socket at `conn_cont`, where it is taken to wait even if `connect` has returned 0. -/
def waitView : ConnView := { s.connView with waiting := true }

theorem waitView_of_not_ready {s : PerfTcpSocket} (h : s.isReady = false) :
    s.waitView = s.connView := by
  unfold waitView connView
  rw [h]
  rfl

theorem perfTcpRecv_connView (os : OsRead) (len : Nat) :
    (s.perfTcpRecv os len).sock.connView = s.connView := by
  have hsync : (s.recvSync s.fd).connView = s.connView := by
    unfold recvSync
    split_ifs <;> rfl
  rw [← hsync, perfTcpRecv]
  unfold recvFrom
  split
  · split
    · dsimp only
      split_ifs <;> rfl
    all_goals rfl
  · rfl

theorem perfTcpSendto_moves (qid : UInt16) (buf : Bytes) (os : OsWrite) :
    ConnMoves s.connView (s.perfTcpSendto qid buf os).2.2
      (s.perfTcpSendto qid buf os).2.1.connView := by
  unfold perfTcpSendto
  dsimp only
  by_cases hreconn : s.recvNeedReconn = s.fd
  · rw [if_pos hreconn]
    exact .silent rfl rfl
  · rw [if_neg hreconn]
    generalize (if buf.length < tcpSendBufSize - 2 then _ else _) = send
    split
    · exact .silent rfl rfl
    · exact .silent rfl rfl
    · exact .silent rfl rfl
    · exact .silent rfl rfl
    · exact .silent rfl rfl
    · split_ifs
      · exact .silent rfl rfl
      · exact .silent rfl rfl

/-- Connecting is an attempt, whatever the socket waits for after it. -/
theorem reconnect_moves (os : OsConnect) (waiting : Bool) :
    ConnMoves s.connView (s.reconnect os).2
      { (s.reconnect os).1.connView with waiting := waiting } := by
  have hattempt : ConnMoves s.connView (s.perfTcpConnect os).2
      { (s.reconnect os).1.connView with waiting := waiting } :=
    .attempt os.fd os.now rfl rfl rfl
  have hclosed : ConnMoves { (s.reconnect os).1.connView with waiting := waiting } [.closed s.fd]
      { (s.reconnect os).1.connView with waiting := waiting } := .silent rfl rfl
  exact hattempt.trans hclosed

theorem flush_moves (n : Nat) : ConnMoves s.connView (s.flush n).2.2 (s.flush n).2.1.connView := by
  unfold flush
  dsimp only
  split_ifs
  · exact .silent rfl rfl
  · exact .silent rfl rfl
  · exact .silent rfl rfl

theorem checkQueries_connView (os : OsSockready) :
    (s.checkQueries os).2.connView = s.connView := by
  unfold checkQueries
  dsimp only
  split_ifs <;> rfl

theorem resend_moves (os : OsWrite) :
    ConnMoves s.connView (s.resend os).2.2 (s.resend os).2.1.connView := by
  unfold resend
  split_ifs
  · split
    · split_ifs
      · exact .silent rfl rfl
      · exact .silent rfl rfl
    · exact s.flush_moves _
  · exact .silent rfl rfl

theorem connCont_moves (os : OsSockready) :
    ConnMoves s.waitView (s.connCont os).2.2 (s.connCont os).2.1.connView := by
  have hwaits (s' : PerfTcpSocket) (h : s'.connView = s.connView) :
      ConnMoves s.waitView [] s'.connView := by
    rw [h]
    exact .quiet rfl rfl rfl rfl fun _ => rfl
  unfold connCont
  split
  · split
    · split_ifs
      · exact hwaits s rfl
      · exact hwaits _ rfl
    · have hcomplete : ConnMoves s.waitView
          (if s.hasEvent then [.event s.connEvent (os.connected - s.connTs)] else [])
          s.established.connView := .complete _ rfl rfl rfl rfl rfl
      exact hcomplete.trans (s.established.resend_moves os.resend)
  · exact hwaits s rfl

theorem sendFailed_moves (os : OsSockready) :
    ConnMoves s.connView (s.sendFailed os).2.2 (s.sendFailed os).2.1.connView := by
  have hattempt := s.reconnect_moves os.reconnect true
  have hgiveUp : (s.reconnect os.reconnect).1.giveUp.waitView =
      { (s.reconnect os.reconnect).1.connView with waiting := true } := by
    unfold giveUp
    split_ifs <;> rfl
  rw [← hgiveUp] at hattempt
  exact hattempt.trans ((s.reconnect os.reconnect).1.giveUp.connCont_moves os)

theorem readyBody_moves (os : OsSockready) :
    ConnMoves s.connView (s.readyBody os).2.2 (s.readyBody os).2.1.connView := by
  unfold readyBody
  by_cases hready : s.isReady = true
  · rw [if_pos hready]
    split_ifs
    · split
      · split_ifs
        · exact .silent rfl rfl
        · exact s.sendFailed_moves os
      · rename_i n _
        have hflush := s.flush_moves n
        dsimp only
        split_ifs
        · have hcheck := (s.flush n).2.1.checkQueries_connView os
          dsimp only
          rw [hcheck]
          exact hflush
        · exact hflush
    · exact .silent rfl (s.checkQueries_connView os)
  · rw [if_neg hready, ← waitView_of_not_ready (Bool.eq_false_iff.mpr hready)]
    exact s.connCont_moves os

theorem perfTcpSockready_moves (os : OsSockready) :
    ConnMoves s.connView (s.perfTcpSockready os).2.2 (s.perfTcpSockready os).2.1.connView := by
  have hhead : ConnMoves s.connView (s.readyHead os).2 (s.readyHead os).1.connView := by
    have hattempt := s.reconnect_moves os.connect (s.reconnect os.connect).1.connView.waiting
    unfold readyHead
    split_ifs
    · exact hattempt
    · exact .silent rfl rfl
  unfold perfTcpSockready
  generalize s.readyHead os = head at hhead ⊢
  exact hhead.trans (head.1.readyBody_moves os)

theorem perfNetTcpOpensocket_moves (os : OsConnect) (hasSent hasEvent : Bool)
    (numQueriesPerConn nqpcTimeout : Nat) :
    ConnMoves ⟨hasEvent, .connecting, .connected, false⟩
      (perfNetTcpOpensocket os hasSent hasEvent numQueriesPerConn nqpcTimeout).2
      (perfNetTcpOpensocket os hasSent hasEvent numQueriesPerConn nqpcTimeout).1.connView :=
  .attempt os.fd os.now rfl rfl rfl

end PerfTcpSocket

/-! ### DNS over TLS -/

namespace PerfDotSocket

variable (s : PerfDotSocket)

def connView : ConnView := ⟨s.hasEvent, s.conningEvent, s.connEvent, !s.isReady⟩

theorem perfDotReconnect_moves (os : OsConnect) :
    ConnMoves s.connView (s.perfDotReconnect os).2 (s.perfDotReconnect os).1.connView := by
  have hclosed : ConnMoves s.connView [.closed s.fd] s.connView := .silent rfl rfl
  exact hclosed.trans (.attempt os.fd os.now rfl rfl rfl)

theorem recvSyscall_moves (errno : Errno) (connect : OsConnect) :
    ConnMoves s.connView (s.recvSyscall errno connect).2
      (s.recvSyscall errno connect).1.sock.connView := by
  unfold recvSyscall
  split
  · exact s.perfDotReconnect_moves connect
  · exact s.perfDotReconnect_moves connect
  · exact s.perfDotReconnect_moves connect
  · exact s.perfDotReconnect_moves connect
  · exact .silent rfl rfl

theorem perfDotRecv_moves (openssl3 : Bool) (read : SslRead) (connect : OsConnect) (len : Nat) :
    ConnMoves s.connView (s.perfDotRecv openssl3 read connect len).2
      (s.perfDotRecv openssl3 read connect len).1.sock.connView := by
  unfold perfDotRecv
  by_cases hmore : (!s.recv.haveMore) = true
  · rw [if_pos hmore]
    dsimp only
    by_cases hready : (!s.lock.isReady) = true
    · rw [if_pos hready]
      exact .silent rfl rfl
    · rw [if_neg hready]
      split
      · split_ifs
        · exact s.lock.perfDotReconnect_moves connect
        · exact .silent rfl rfl
      · exact .silent rfl rfl
      · split_ifs
        · exact s.lock.recvSyscall_moves .ebadf connect
        · exact .silent rfl rfl
      · exact s.lock.recvSyscall_moves _ connect
      · exact .silent rfl rfl
  · rw [if_neg hmore]
    exact .silent rfl rfl

theorem perfDotSendto_moves (qid : UInt16) (buf : Bytes) (write : SslWrite) (connect : OsConnect) :
    ConnMoves s.connView (s.perfDotSendto qid buf write connect).2.2
      (s.perfDotSendto qid buf write connect).2.1.connView := by
  unfold perfDotSendto
  dsimp only
  generalize (if buf.length < tcpSendBufSize - 2 then _ else _) = send
  split_ifs
  · exact .silent rfl rfl
  · split
    · split_ifs
      · exact perfDotReconnect_moves { s.lock with
          sendbuf := be16 send ++ buf.take send, qid := qid } connect
      · exact .silent rfl rfl
    · exact .silent rfl rfl
    · exact .silent rfl rfl
    · exact .silent rfl rfl
    · split_ifs
      · exact .silent rfl rfl
      · exact .silent rfl rfl

theorem checkQueries_moves (os : OsSockready) :
    ConnMoves s.connView (s.checkQueries os).2.2 (s.checkQueries os).2.1.connView := by
  unfold checkQueries
  by_cases hlimit : s.numQueriesPerConn ≠ 0 ∧ s.numQueriesPerConn ≤ s.nqpcSent
  · have hts : (if s.nqpcTs = 0 then { s with nqpcTs := os.now + s.nqpcTimeout } else s).connView =
        s.connView := by
      split_ifs <;> rfl
    rw [if_pos hlimit]
    dsimp only
    rw [← hts]
    generalize (if s.nqpcTs = 0 then { s with nqpcTs := os.now + s.nqpcTimeout } else s) = t
    split_ifs
    · exact t.lock.perfDotReconnect_moves os.reconnect
    · exact .silent rfl rfl
  · rw [if_neg hlimit]
    exact .silent rfl rfl

theorem readyBody_moves (os : OsSockready) :
    ConnMoves s.connView (s.readyBody os).2.2 (s.readyBody os).2.1.connView := by
  unfold readyBody
  by_cases hsending : s.isSending = true
  · rw [if_pos hsending]
    split
    · exact s.perfDotReconnect_moves os.reconnect
    · exact .silent rfl rfl
    · dsimp only
      split_ifs
      · exact .silent rfl rfl
      all_goals
        have hcheck := checkQueries_moves { s.unlock with
          sending := 0, isSending := false, nqpcSent := (s.unlock.nqpcSent + 1) % 2 ^ 32 } os
        exact ConnMoves.trans (.silent rfl rfl) hcheck
  · rw [if_neg hsending]
    exact s.unlock.checkQueries_moves os

variable {s}

theorem handshakeBody_moves (hready : s.isReady = false) (os : OsSockready) :
    ConnMoves s.connView (s.handshakeBody os).2.2 (s.handshakeBody os).2.1.connView := by
  unfold handshakeBody
  split
  · exact .silent rfl rfl
  · exact .silent rfl rfl
  · exact .silent rfl rfl
  · exact .silent rfl rfl
  · refine .complete _ ?_ rfl rfl rfl rfl
    rw [connView, hready]
    rfl

theorem connectBody_moves (hready : s.isReady = false) (os : OsSockready) :
    ConnMoves s.connView (s.connectBody os).2.2 (s.connectBody os).2.1.connView := by
  unfold connectBody
  by_cases hconn : (!s.isConnReady) = true
  · rw [if_pos hconn]
    split
    · split_ifs
      · exact .silent rfl rfl
      · exact .silent rfl rfl
    · exact handshakeBody_moves (s := { s with isConnReady := true }) hready os
    · exact .silent rfl rfl
  · rw [if_neg hconn]
    exact handshakeBody_moves hready os

theorem perfDotSockready_moves (s : PerfDotSocket) (os : OsSockready) :
    ConnMoves s.connView (s.perfDotSockready os).2.2 (s.perfDotSockready os).2.1.connView := by
  have hbody (t : PerfDotSocket) : ConnMoves t.connView
      (if t.isReady then t.readyBody os else t.connectBody os).2.2
      (if t.isReady then t.readyBody os else t.connectBody os).2.1.connView := by
    by_cases hready : t.isReady = true
    · rw [if_pos hready]
      exact t.readyBody_moves os
    · rw [if_neg hready]
      exact connectBody_moves (Bool.eq_false_iff.mpr hready) os
  unfold perfDotSockready
  dsimp only
  generalize hhead : (if s.lock.doReconnect = true then _ else _) = head
  have hmoves : ConnMoves s.connView head.2 head.1.connView := by
    rw [← hhead]
    split_ifs
    · exact s.lock.perfDotReconnect_moves os.connect
    · exact .silent rfl rfl
  exact hmoves.trans (hbody head.1)

theorem perfNetDotOpensocket_moves (os : OsConnect) (hasSent hasEvent : Bool)
    (numQueriesPerConn nqpcTimeout : Nat) :
    ConnMoves ⟨hasEvent, .connecting, .connected, false⟩
      (perfNetDotOpensocket os hasSent hasEvent numQueriesPerConn nqpcTimeout).2
      (perfNetDotOpensocket os hasSent hasEvent numQueriesPerConn nqpcTimeout).1.connView :=
  .attempt os.fd os.now rfl rfl rfl

end PerfDotSocket

/-! ### DNS over HTTPS -/

namespace PerfDohSocket

variable (s : PerfDohSocket)

/-- A connection that was closed is not waited for until another one is attempted. -/
def connView : ConnView :=
  ⟨s.hasEvent, s.conningEvent, s.connEvent, !s.isReady && !s.doConnect⟩

theorem perfDohReconnect_moves :
    ConnMoves s.connView s.perfDohReconnect.2 s.perfDohReconnect.1.connView :=
  .quiet rfl rfl rfl rfl fun hwaiting => nomatch hwaiting

theorem sessionSend_moves (send : Http2Send) :
    ConnMoves s.connView (s.sessionSend send).2 (s.sessionSend send).1.connView := by
  unfold sessionSend
  dsimp only
  split_ifs
  · exact perfDohReconnect_moves { s with isPostSending := false }
  · exact perfDohReconnect_moves { s with isPostSending := s.isPostSending }
  · exact .silent rfl rfl
  · exact .silent rfl rfl

theorem perfDohSendto_moves {method : DohMethod} {qid : UInt16} {len : Nat} {os : OsSendto}
    {r : Except Errno Nat × PerfDohSocket × List NetEffect}
    (h : s.perfDohSendto method qid len os = some r) :
    ConnMoves s.connView r.2.2 r.2.1.connView := by
  unfold perfDohSendto at h
  dsimp only at h
  generalize hpost : (if method = DohMethod.post then true else s.lock.isPostSending) = post at h
  have hsend := sessionSend_moves { s.lock with qid := qid, isPostSending := post } os.send
  generalize sessionSend { s.lock with qid := qid, isPostSending := post } os.send = sent at h hsend
  split_ifs at h
  · obtain rfl := Option.some.inj h
    exact .silent rfl rfl
  all_goals
    obtain rfl := Option.some.inj h
    exact hsend

theorem checkQueries_moves (sent : Bool) (os : OsSockready) :
    ConnMoves s.connView (s.checkQueries sent os).2.2 (s.checkQueries sent os).2.1.connView := by
  unfold checkQueries
  dsimp only
  refine .silent ?_ ?_
  · split_ifs <;> rfl
  · split_ifs <;> rfl

theorem readyBody_moves (os : OsSockready) :
    ConnMoves s.connView (s.readyBody os).2.2 (s.readyBody os).2.1.connView := by
  have hsend := s.sessionSend_moves os.send
  unfold readyBody
  generalize s.sessionSend os.send = sent at hsend ⊢
  dsimp only
  by_cases hok : (!os.send.ok) = true
  · rw [if_pos hok]
    exact hsend.trans (.silent rfl rfl)
  · rw [if_neg hok]
    split_ifs
    · exact hsend
    · exact hsend.trans (checkQueries_moves
        { sent.1 with isSending := false, nqpcSent := (sent.1.nqpcSent + 1) % 2 ^ 32 } true os)
    · exact hsend.trans (sent.1.checkQueries_moves false os)

variable {s}

theorem settingsBody_moves (hready : s.isReady = false) (hconnect : s.doConnect = false)
    (os : OsSockready) :
    ConnMoves s.connView (s.settingsBody os).2.2 (s.settingsBody os).2.1.connView := by
  unfold settingsBody
  by_cases hrefused : (!s.settingsSent && !os.settings) = true
  · rw [if_pos hrefused]
    exact .silent rfl rfl
  · rw [if_neg hrefused]
    refine .complete _ ?_ rfl rfl rfl rfl
    rw [connView, hready, hconnect]
    rfl

theorem handshakeBody_moves (hready : s.isReady = false) (hconnect : s.doConnect = false)
    (os : OsSockready) :
    ConnMoves s.connView (s.handshakeBody os).2.2 (s.handshakeBody os).2.1.connView := by
  unfold handshakeBody
  by_cases hssl : (!s.isSslReady) = true
  · rw [if_pos hssl]
    split
    · exact .silent rfl rfl
    · exact .silent rfl rfl
    · exact .silent rfl rfl
    · exact .silent rfl rfl
    · by_cases halpn : (!os.alpn) = true
      · rw [if_pos halpn]
        exact .silent rfl rfl
      · rw [if_neg halpn]
        exact settingsBody_moves (s := { s with isSslReady := true }) hready hconnect os
  · rw [if_neg hssl]
    exact settingsBody_moves hready hconnect os

theorem connectBody_moves (hready : s.isReady = false) (hconnect : s.doConnect = false)
    (os : OsSockready) :
    ConnMoves s.connView (s.connectBody os).2.2 (s.connectBody os).2.1.connView := by
  unfold connectBody
  by_cases hconn : (!s.isConnReady) = true
  · rw [if_pos hconn]
    split
    · split_ifs
      · exact .silent rfl rfl
      · exact .silent rfl rfl
    · exact handshakeBody_moves (s := { s with isConnReady := true }) hready hconnect os
    · exact .silent rfl rfl
  · rw [if_neg hconn]
    exact handshakeBody_moves hready hconnect os

/-- A connection that is to be made is made at the start of `perf__doh_sockready`. -/
theorem readyHead_moves (s : PerfDohSocket) (os : OsSockready) :
    ConnMoves s.connView (s.readyHead os).2 (s.readyHead os).1.connView ∧
      (s.readyHead os).1.doConnect = false := by
  unfold readyHead
  generalize hclose : (if s.doReconnect = true then _ else _) = closed
  have hmoves : ConnMoves s.connView closed.2 closed.1.connView := by
    rw [← hclose]
    split_ifs
    · exact s.perfDohReconnect_moves
    · exact .silent rfl rfl
  dsimp only
  by_cases hconnect : closed.1.doConnect = true
  · rw [if_pos hconnect]
    exact ⟨hmoves.trans (.attempt os.connect.fd os.connect.now rfl rfl rfl), rfl⟩
  · rw [if_neg hconnect]
    exact ⟨hmoves, Bool.eq_false_iff.mpr hconnect⟩

theorem perfDohSockready_moves (s : PerfDohSocket) (os : OsSockready) :
    ConnMoves s.connView (s.perfDohSockready os).2.2 (s.perfDohSockready os).2.1.connView := by
  obtain ⟨hhead, hconnect⟩ := s.lock.readyHead_moves os
  unfold perfDohSockready
  generalize s.lock.readyHead os = head at hhead hconnect ⊢
  dsimp only
  by_cases hready : head.1.isReady = true
  · rw [if_pos hready]
    exact hhead.trans (head.1.readyBody_moves os)
  · rw [if_neg hready]
    exact hhead.trans (connectBody_moves (Bool.eq_false_iff.mpr hready) hconnect os)

theorem perfNetDohOpensocket_moves (os : OsConnect) (hasSent hasEvent : Bool)
    (numQueriesPerConn nqpcTimeout : Nat) :
    ConnMoves ⟨hasEvent, .connecting, .connected, false⟩
      (perfNetDohOpensocket os hasSent hasEvent numQueriesPerConn nqpcTimeout).2
      (perfNetDohOpensocket os hasSent hasEvent numQueriesPerConn nqpcTimeout).1.connView :=
  .attempt os.fd os.now rfl rfl rfl

end PerfDohSocket

namespace DohSocket

variable (s : DohSocket)

theorem callback_moves (e : Http2Event) :
    ConnMoves s.base.connView (s.callback e).2.2 (s.callback e).2.1.base.connView := by
  cases e with
  | header stream type name value => exact .silent rfl rfl
  | chunk stream data => exact .silent rfl rfl
  | frame stream type endStream =>
      cases type with
      | data =>
          unfold callback frameRecvCb
          dsimp only
          split_ifs
          · exact .silent rfl rfl
          · exact .silent rfl rfl
          · exact .silent rfl rfl
      | headers => exact .silent rfl rfl
      | rstStream => exact s.base.perfDohReconnect_moves
      | goaway => exact s.base.perfDohReconnect_moves
      | other type => exact .silent rfl rfl

theorem memRecv_moves (es : List Http2Event) :
    ConnMoves s.base.connView (s.memRecv es).effects (s.memRecv es).sock.base.connView := by
  induction es generalizing s with
  | nil => exact .silent rfl rfl
  | cons e es ih =>
      have hfirst := s.callback_moves e
      rw [memRecv_cons]
      split_ifs
      · exact hfirst.trans (ih (s.callback e).2.1)
      · exact hfirst

theorem deliver_connView (len : Nat) : (s.deliver len).2.base.connView = s.base.connView := by
  unfold deliver
  dsimp only
  split_ifs <;> rfl

theorem recvBody_moves {read : Bytes} {mem : OsMemRecv} {len : Nat} {call : DohRecvCall}
    (h : s.recvBody read mem len = some call) :
    ConnMoves s.base.connView call.effects call.sock.base.connView := by
  have hmem := s.memRecv_moves mem.events
  unfold recvBody at h
  dsimp only at h
  split at h
  · exact nomatch h
  · obtain rfl := Option.some.inj h
    exact hmem
  all_goals
    split_ifs at h
    · obtain rfl := Option.some.inj h
      exact hmem
    · obtain rfl := Option.some.inj h
      rw [deliver_connView]
      exact hmem

theorem perfDohRecv_moves {read : SslRead} {mem : OsMemRecv} {len : Nat} {call : DohRecvCall}
    (h : s.perfDohRecv read mem len = some call) :
    ConnMoves s.base.connView call.effects call.sock.base.connView := by
  rcases perfDohRecv_cases h with ⟨errno, rfl⟩ | ⟨-, rfl⟩ | ⟨-, s₁, bytes, hbase, -, -, -, -, hbody⟩
  · exact .silent rfl rfl
  · exact s.base.lock.perfDohReconnect_moves
  · have hmoves := s₁.recvBody_moves hbody
    rw [hbase] at hmoves
    exact hmoves

end DohSocket

end Dnsperf.Net
