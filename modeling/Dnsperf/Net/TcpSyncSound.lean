import Dnsperf.Net.TcpSync

/-!
# Dnsperf.Net.TcpSyncSound

What descriptor numbers tell the threads of a TCP socket. As long as no new descriptor
is one the receiver still holds on to (`Party.Unknown`), **connections are not
confused**: the receiver's buffer is of one connection, and the sender gives a
connection up only if the receiver found it lost.

Descriptor numbers are used again. If one comes back that the receiver does hold on
to, the two connections are taken for one.
-/

namespace Dnsperf.Net

open Dnsperf.Lib

namespace Party

variable (c : Party)

/-! ### What the threads know of each other -/

/-- What the receiver works with is the same in both. -/
structure SameSync (s s' : PerfTcpSocket) : Prop where
  fd : s'.fd = s.fd
  recv : s'.recv = s.recv
  recvfd : s'.recvfd = s.recvfd
  recvNeedReconn : s'.recvNeedReconn = s.recvNeedReconn

theorem sameSync_flush (s : PerfTcpSocket) (n : Nat) : SameSync s (s.flush n).2.1 := by
  unfold PerfTcpSocket.flush
  dsimp only
  split_ifs <;> exact ⟨rfl, rfl, rfl, rfl⟩

theorem sameSync_resend (s : PerfTcpSocket) (os : OsWrite) : SameSync s (s.resend os).2.1 := by
  unfold PerfTcpSocket.resend
  split_ifs
  · cases os with
    | error errno =>
        dsimp only
        split_ifs <;> exact ⟨rfl, rfl, rfl, rfl⟩
    | ok n => exact sameSync_flush s n
  · exact ⟨rfl, rfl, rfl, rfl⟩

theorem sameSync_connCont (s : PerfTcpSocket) (os : PerfTcpSocket.OsSockready) :
    SameSync s (s.connCont os).2.1 := by
  unfold PerfTcpSocket.connCont
  cases os.wait with
  | success =>
      cases os.soError with
      | some errno =>
          dsimp only
          split_ifs <;> exact ⟨rfl, rfl, rfl, rfl⟩
      | none =>
          obtain ⟨hfd, hrecv, hrecvfd, hneed⟩ := sameSync_resend s.established os.resend
          exact ⟨hfd, hrecv, hrecvfd, hneed⟩
  | _ => exact ⟨rfl, rfl, rfl, rfl⟩

theorem sameSync_giveUp (s : PerfTcpSocket) : SameSync s s.giveUp := by
  unfold PerfTcpSocket.giveUp
  split_ifs <;> exact ⟨rfl, rfl, rfl, rfl⟩

theorem sameSync_checkQueries (s : PerfTcpSocket) (os : PerfTcpSocket.OsSockready) :
    SameSync s (s.checkQueries os).2 := by
  unfold PerfTcpSocket.checkQueries
  dsimp only
  split_ifs <;> exact ⟨rfl, rfl, rfl, rfl⟩

theorem SameSync.trans {s s' s'' : PerfTcpSocket} (h : SameSync s s') (h' : SameSync s' s'') :
    SameSync s s'' :=
  ⟨h'.fd.trans h.fd, h'.recv.trans h.recv, h'.recvfd.trans h.recvfd,
    h'.recvNeedReconn.trans h.recvNeedReconn⟩

theorem sameSync_readyBody {os : PerfTcpSocket.OsSockready} (h : ¬ c.sendFails os.send = true) :
    SameSync c.sock (c.sock.readyBody os).2.1 := by
  unfold PerfTcpSocket.readyBody
  split_ifs with hready hsending
  · cases hsend : os.send with
    | error errno =>
        by_cases hagain : errno = .eagain
        · simp only [if_pos hagain]
          exact ⟨rfl, rfl, rfl, rfl⟩
        · simp [sendFails, hready, hsending, hsend, hagain] at h
    | ok n =>
        dsimp only
        split_ifs
        · exact (sameSync_flush c.sock n).trans (sameSync_checkQueries _ os)
        · exact sameSync_flush c.sock n
  · exact sameSync_checkQueries c.sock os
  · exact sameSync_connCont c.sock os

theorem sameSync_sendto (s : PerfTcpSocket) (qid : UInt16) (buf : Bytes) (os : OsWrite) :
    SameSync s (s.perfTcpSendto qid buf os).2.1 := by
  unfold PerfTcpSocket.perfTcpSendto
  dsimp only
  by_cases hneed : s.recvNeedReconn = s.fd
  · rw [if_pos hneed]
    exact ⟨rfl, rfl, rfl, rfl⟩
  · rw [if_neg hneed]
    cases os with
    | error errno => cases errno <;> exact ⟨rfl, rfl, rfl, rfl⟩
    | ok n =>
        dsimp only
        split_ifs <;> exact ⟨rfl, rfl, rfl, rfl⟩

/-- A new descriptor is not one the receiver holds on to: it has not asked for a new
connection in its place, and it neither has it in hand nor keeps bytes that came from
it. -/
def Unknown : Step → Prop
  | .sender (.connect os) => os.fd ≠ c.sock.recvNeedReconn ∧
      (os.fd = c.sock.recvfd → c.receiver = .out ∧ c.sock.recv.recvbuf = [])
  | _ => True

instance : (step : Step) → Decidable (c.Unknown step)
  | .sender (.connect _) => inferInstanceAs (Decidable (_ ∧ (_ → _)))
  | .sender .check | .sender .store | .sender .close | .sender (.body _) | .sender (.cont _)
  | .sender (.sendto ..) | .receiver _ => inferInstanceAs (Decidable True)

/-- What the receiver holds on to is about the connection it takes it for, and about the
current one if the descriptor says so. -/
structure Inv : Prop where
  kernel_fd : c.kernel c.sock.fd = some c.current
  store : ∀ fd connection failed, c.sender = .store fd connection failed →
    c.kernel fd = some connection ∧ fd ≠ c.sock.fd ∧ fd ≠ c.sock.recvNeedReconn ∧
      (fd = c.sock.recvfd → c.receiver = .out ∧ c.sock.recv.recvbuf = [])
  close : ∀ oldfd failed, c.sender = .close oldfd failed → oldfd ≠ c.sock.fd
  recv : ∀ fd, c.receiver = .recv fd →
    fd = c.sock.recvfd ∧ ∀ connection, c.kernel fd = some connection → connection = c.recvConn
  ask : ∀ fd, c.receiver = .store fd → fd = c.sock.recvfd ∧ c.recvConn ∈ c.lost
  length : c.origin.length = c.sock.recv.recvbuf.length
  origin : ∀ connection ∈ c.origin, connection = c.recvConn
  sync : c.sock.fd = c.sock.recvfd → c.receiver ≠ .out ∨ c.sock.recv.recvbuf ≠ [] →
    c.recvConn = c.current
  needReconn : c.sock.recvNeedReconn = c.sock.fd → c.current ∈ c.lost
  parsed : ∀ l ∈ c.parsed, ∃ connection, ∀ b ∈ l, b = connection
  blamed : ∀ r ∈ c.blamed, r.1 ∈ r.2

variable {c} {c' : Party}

theorem inv_start (os : OsConnect) (hasSent hasEvent : Bool) (numQueriesPerConn nqpcTimeout : Nat)
    (hfd : 0 ≤ os.fd) : Inv (start os hasSent hasEvent numQueriesPerConn nqpcTimeout) where
  kernel_fd := if_pos rfl
  store := fun _ _ _ hat => nomatch hat
  close := fun _ _ hat => nomatch hat
  recv := fun _ hat => nomatch hat
  ask := fun _ hat => nomatch hat
  length := rfl
  origin := fun _ hb => absurd hb List.not_mem_nil
  sync := fun _ _ => rfl
  needReconn := fun hneed => by
    have hneg : os.fd = -1 := hneed.symm
    omega
  parsed := fun _ hl => absurd hl List.not_mem_nil
  blamed := fun _ hr => absurd hr List.not_mem_nil

/-! #### The sending thread -/

theorem Inv.of_sameSync (h : Inv c) {sock : PerfTcpSocket} (hsame : SameSync c.sock sock)
    {place : SenderAt} (hstore : ∀ fd connection failed, place ≠ .store fd connection failed)
    (hclose : ∀ oldfd failed, place ≠ .close oldfd failed) :
    Inv { c with sock := sock, sender := place } where
  kernel_fd := by rw [hsame.fd]; exact h.kernel_fd
  store := fun fd connection failed hat => absurd hat (hstore fd connection failed)
  close := fun oldfd failed hat => absurd hat (hclose oldfd failed)
  recv := by rw [hsame.recvfd]; exact h.recv
  ask := by rw [hsame.recvfd]; exact h.ask
  length := by rw [hsame.recv]; exact h.length
  origin := h.origin
  sync := by rw [hsame.fd, hsame.recvfd, hsame.recv]; exact h.sync
  needReconn := by rw [hsame.fd, hsame.recvNeedReconn]; exact h.needReconn
  parsed := h.parsed
  blamed := h.blamed

/-- **The receiver is only blamed for what it found.** -/
theorem Inv.blame (h : Inv c) : Inv c.blame := by
  unfold Party.blame
  split_ifs with hneed
  · refine { h with blamed := ?_ }
    intro r hr
    rcases List.mem_cons.mp hr with hr | hr
    · rw [hr]
      exact h.needReconn hneed
    · exact h.blamed r hr
  · exact h

theorem Inv.checked (h : Inv c) : Inv c.checked := by
  have hsame : SameSync c.blame.sock c.blame.sock := ⟨rfl, rfl, rfl, rfl⟩
  refine h.blame.of_sameSync hsame (fun fd connection failed => ?_) (fun oldfd failed => ?_)
  · split_ifs <;> exact fun hat => nomatch hat
  · split_ifs <;> exact fun hat => nomatch hat

/-- A new connection, under a descriptor the receiver does not hold on to. -/
theorem Inv.connected (h : Inv c) (os : OsConnect) (failed : Bool)
    (hunused : c.kernel os.fd = none) (hunknown : c.Unknown (.sender (.connect os))) :
    Inv (c.connected os failed) := by
  have hfd : os.fd ≠ c.sock.fd := by
    intro heq
    rw [heq, h.kernel_fd] at hunused
    exact nomatch hunused
  refine { h with kernel_fd := ?_, store := ?_, close := ?_, recv := ?_ }
  · exact (if_neg hfd.symm).trans h.kernel_fd
  · intro fd connection failed' hat
    obtain ⟨rfl, rfl, rfl⟩ := SenderAt.store.inj hat
    exact ⟨if_pos rfl, hfd, hunknown⟩
  · exact fun _ _ hat => nomatch hat
  · intro fd hat
    obtain ⟨hrecvfd, hconn⟩ := h.recv fd hat
    have hne : fd ≠ os.fd := by
      intro heq
      have hout := (hunknown.2 (heq.symm.trans hrecvfd)).1
      exact nomatch hat.symm.trans hout
    refine ⟨hrecvfd, fun connection hkernel => hconn connection ?_⟩
    exact (if_neg hne).symm.trans hkernel

theorem Inv.stored (h : Inv c) {fd : Int} {connection : Nat} {failed : Bool}
    (hat : c.sender = .store fd connection failed) : Inv (c.stored fd connection failed) := by
  obtain ⟨hkernel, hfd, hneed, hunknown⟩ := h.store fd connection failed hat
  refine { h with kernel_fd := hkernel, store := ?_, close := ?_, sync := ?_, needReconn := ?_ }
  · exact fun _ _ _ hat' => nomatch hat'
  · intro oldfd failed' hat'
    obtain ⟨rfl, rfl⟩ := SenderAt.close.inj hat'
    exact hfd.symm
  · intro hrecvfd hheld
    obtain ⟨hout, hempty⟩ := hunknown hrecvfd
    exact absurd hheld (not_or.mpr ⟨not_not.mpr hout, not_not.mpr hempty⟩)
  · exact fun hask => absurd hask.symm hneed

theorem Inv.closed (h : Inv c) {oldfd : Int} {failed : Bool}
    (hat : c.sender = .close oldfd failed) : Inv (c.closed oldfd failed) := by
  have hne : c.sock.fd ≠ oldfd := (h.close oldfd failed hat).symm
  have hclosed : Inv { c with
      sender := if failed then .cont else .body
      kernel := fun fd => if fd = oldfd then none else c.kernel fd } := by
    refine { h with kernel_fd := ?_, store := ?_, close := ?_, recv := ?_ }
    · exact (if_neg hne).trans h.kernel_fd
    · intro fd connection failed' hat'
      cases failed <;> exact nomatch hat'
    · intro fd failed' hat'
      cases failed <;> exact nomatch hat'
    · intro fd hrecv
      obtain ⟨hrecvfd, hconn⟩ := h.recv fd hrecv
      refine ⟨hrecvfd, fun connection hkernel => hconn connection ?_⟩
      by_cases hold : fd = oldfd
      · exact nomatch (if_pos hold).symm.trans hkernel
      · exact (if_neg hold).symm.trans hkernel
  refine hclosed.of_sameSync ?_ ?_ ?_
  · cases failed <;> exact ⟨rfl, rfl, rfl, rfl⟩
  · cases failed <;> exact fun _ _ _ hat' => nomatch hat'
  · cases failed <;> exact fun _ _ hat' => nomatch hat'

/-! #### The receiving thread -/

theorem recvSync_fd (s : PerfTcpSocket) :
    (s.recvSync s.fd).fd = s.fd ∧ (s.recvSync s.fd).recvfd = s.fd ∧
      (s.recvSync s.fd).recvNeedReconn = s.recvNeedReconn := by
  unfold PerfTcpSocket.recvSync
  split_ifs with hne
  · exact ⟨rfl, rfl, rfl⟩
  · exact ⟨rfl, (not_not.mp hne).symm, rfl⟩

/-- A load starts a buffer over, or goes on with one of the current connection. -/
theorem Inv.loaded (h : Inv c) : Inv c.loaded := by
  obtain ⟨hfd, hrecvfd, hneed⟩ := recvSync_fd c.sock
  have hbuf : c.loaded.origin.length = (c.sock.recvSync c.sock.fd).recv.recvbuf.length ∧
      ∀ b ∈ c.loaded.origin, b = c.current := by
    unfold Party.loaded PerfTcpSocket.recvSync
    dsimp only
    by_cases hne : c.sock.fd ≠ c.sock.recvfd
    · rw [if_pos hne, if_pos hne]
      exact ⟨rfl, fun b hb => absurd hb List.not_mem_nil⟩
    · rw [if_neg hne, if_neg hne]
      refine ⟨h.length, fun b hb => (h.origin b hb).trans ?_⟩
      refine h.sync (not_not.mp hne) (Or.inr fun hnil => ?_)
      rw [← List.length_eq_zero_iff, ← h.length, List.length_eq_zero_iff] at hnil
      exact absurd hb (hnil ▸ List.not_mem_nil)
  refine { h with
    kernel_fd := ?_, store := ?_, close := ?_, recv := ?_, ask := ?_, length := hbuf.1,
    origin := hbuf.2, sync := fun _ _ => rfl, needReconn := ?_ }
  · exact (congrArg c.kernel hfd).trans h.kernel_fd
  · intro fd connection failed hat
    obtain ⟨hkernel, hne, hask, -⟩ := h.store fd connection failed hat
    refine ⟨hkernel, fun heq => hne (heq.trans hfd), fun heq => hask (heq.trans hneed), ?_⟩
    exact fun heq => absurd (heq.trans hrecvfd) hne
  · exact fun oldfd failed hat heq => h.close oldfd failed hat (heq.trans hfd)
  · intro fd hat
    obtain rfl := ReceiverAt.recv.inj hat
    exact ⟨hrecvfd.symm, fun connection hkernel => Option.some.inj (hkernel.symm.trans h.kernel_fd)⟩
  · exact fun fd hat => nomatch hat
  · exact fun heq => h.needReconn (hneed.symm.trans (heq.trans hfd))

/-- In a call, `recv` is about the connection the receiver takes it for. -/
theorem Inv.heard_eq (h : Inv c) {fd : Int} (hat : c.receiver = .recv fd) :
    c.heard fd = c.recvConn := by
  unfold heard
  cases hkernel : c.kernel fd with
  | none => rfl
  | some connection => exact (h.recv fd hat).2 connection hkernel

/-- While the receiver is in a call, no connection is being made under its descriptor. -/
theorem Inv.store_ne (h : Inv c) (hin : c.receiver ≠ .out) {fd : Int} {connection : Nat}
    {failed : Bool} (hat : c.sender = .store fd connection failed) : fd ≠ c.sock.recvfd :=
  fun heq => hin ((h.store fd connection failed hat).2.2.2 heq).1

theorem Inv.found (h : Inv c) {fd : Int} (hat : c.receiver = .recv fd) :
    Inv { c with receiver := .store fd, lost := c.heard fd :: c.lost } := by
  have hin : c.receiver ≠ .out := fun hout => nomatch hat.symm.trans hout
  refine { h with store := ?_, recv := ?_, ask := ?_, sync := ?_, needReconn := ?_ }
  · intro fd' connection failed hat'
    obtain ⟨hkernel, hne, hask, -⟩ := h.store fd' connection failed hat'
    exact ⟨hkernel, hne, hask, fun heq => absurd heq (h.store_ne hin hat')⟩
  · exact fun _ hat' => nomatch hat'
  · intro fd' hat'
    obtain rfl := ReceiverAt.store.inj hat'
    rw [h.heard_eq hat]
    exact ⟨(h.recv fd hat).1, List.mem_cons_self⟩
  · exact fun heq _ => h.sync heq (Or.inl hin)
  · exact fun heq => List.mem_cons_of_mem _ (h.needReconn heq)

theorem Inv.asked (h : Inv c) {fd : Int} (hat : c.receiver = .store fd) : Inv (c.asked fd) := by
  have hin : c.receiver ≠ .out := fun hout => nomatch hat.symm.trans hout
  obtain ⟨hrecvfd, hlost⟩ := h.ask fd hat
  refine { h with store := ?_, recv := ?_, ask := ?_, sync := ?_, needReconn := ?_ }
  · intro fd' connection failed hat'
    obtain ⟨hkernel, hne, -, -⟩ := h.store fd' connection failed hat'
    have hne' := h.store_ne hin hat'
    exact ⟨hkernel, hne, fun heq => hne' (heq.trans hrecvfd), fun heq => absurd heq hne'⟩
  · exact fun _ hat' => nomatch hat'
  · exact fun _ hat' => nomatch hat'
  · exact fun heq _ => h.sync heq (Or.inl hin)
  · intro heq
    have hcur : c.recvConn = c.current := h.sync (heq.symm.trans hrecvfd) (Or.inl hin)
    exact hcur ▸ hlost

theorem recvFrom_of_not_finds {os : OsRead} (fd : Int) (len : Nat) (h : ¬ c.finds os = true) :
    (c.sock.recvFrom fd os len).sock.recvNeedReconn = c.sock.recvNeedReconn := by
  unfold PerfTcpSocket.recvFrom
  split_ifs with hmore
  · cases os with
    | data bytes =>
        dsimp only
        split_ifs with hnil
        · simp [finds, hnil, Bool.not_eq_true' _ ▸ hmore] at h
        · rfl
    | error errno =>
        cases errno with
        | ebadf | econnrefused | econnreset | enotconn =>
            simp [finds, Bool.not_eq_true' _ ▸ hmore] at h
        | _ => rfl
  · rfl

/-- **What a receive call looks at is of one connection.** -/
theorem Inv.received (h : Inv c) {fd : Int} (hat : c.receiver = .recv fd) {os : OsRead}
    (hfinds : ¬ c.finds os = true) (len : Nat) : Inv (c.received fd os len) := by
  have hin : c.receiver ≠ .out := fun hout => nomatch hat.symm.trans hout
  obtain ⟨hfd, hrecvfd⟩ := recvFrom_fd c.sock fd os len
  have hneed := recvFrom_of_not_finds fd len hfinds
  set call := c.sock.recvFrom fd os len with hcall
  -- all bytes in the buffer come from the connection the receiver takes them for
  have hlooked : ∀ b ∈ c.lookedAt fd call.read, b = c.recvConn := by
    intro b hb
    rcases List.mem_append.mp hb with hb | hb
    · exact h.origin b hb
    · exact (List.eq_of_mem_replicate hb).trans (h.heard_eq hat)
  have hlen : call.sock.recv.recvbuf.length ≤ (c.lookedAt fd call.read).length := by
    rw [lookedAt, List.length_append, List.length_replicate, h.length]
    exact (recvFrom_calls c.sock fd os len).length_le
  refine { h with
    kernel_fd := ?_, store := ?_, close := ?_, recv := ?_, ask := ?_, length := ?_,
    origin := ?_, sync := ?_, needReconn := ?_, parsed := ?_ }
  · exact (congrArg c.kernel hfd).trans h.kernel_fd
  · intro fd' connection failed hat'
    obtain ⟨hkernel, hne, hask, -⟩ := h.store fd' connection failed hat'
    refine ⟨hkernel, fun heq => hne (heq.trans hfd), fun heq => hask (heq.trans hneed), ?_⟩
    exact fun heq => absurd (heq.trans hrecvfd) (h.store_ne hin hat')
  · exact fun oldfd failed hat' heq => h.close oldfd failed hat' (heq.trans hfd)
  · exact fun _ hat' => nomatch hat'
  · exact fun _ hat' => nomatch hat'
  · show ((c.lookedAt fd call.read).drop _).length = _
    rw [List.length_drop]
    exact Nat.sub_sub_self hlen
  · exact fun b hb => hlooked b (List.mem_of_mem_drop hb)
  · exact fun heq _ => h.sync (hfd.symm.trans (heq.trans hrecvfd)) (Or.inl hin)
  · exact fun heq => h.needReconn (hneed.symm.trans (heq.trans hfd))
  · show ∀ l ∈ (if c.sock.recv.haveMore ∨ call.read ≠ [] then _ else _), _
    split_ifs
    · intro l hl
      rcases List.mem_cons.mp hl with hl | hl
      · exact ⟨c.recvConn, hl ▸ hlooked⟩
      · exact h.parsed l hl
    · exact h.parsed

/-! #### Runs -/

theorem inv_nextSender (h : Inv c) {step : SenderStep} (hunknown : c.Unknown (.sender step))
    (hstep : c.nextSender step = some c') : Inv c' := by
  have hsame : SameSync c.sock c.sock := ⟨rfl, rfl, rfl, rfl⟩
  cases step with
  | check =>
      obtain ⟨-, hc'⟩ := Option.ite_none_right_eq_some.mp hstep
      exact Option.some.inj hc' ▸ h.checked
  | connect os =>
      cases hat : c.sender with
      | connect failed =>
          simp only [nextSender, hat] at hstep
          obtain ⟨⟨-, hunused⟩, hc'⟩ := Option.ite_none_right_eq_some.mp hstep
          exact Option.some.inj hc' ▸ h.connected os failed hunused hunknown
      | _ => simp [nextSender, hat] at hstep
  | store =>
      cases hat : c.sender with
      | store fd connection failed =>
          simp only [nextSender, hat] at hstep
          exact Option.some.inj hstep ▸ h.stored hat
      | _ => simp [nextSender, hat] at hstep
  | close =>
      cases hat : c.sender with
      | close oldfd failed =>
          simp only [nextSender, hat] at hstep
          exact Option.some.inj hstep ▸ h.closed hat
      | _ => simp [nextSender, hat] at hstep
  -- from here on the connection is kept, and with it all that the receiver works with
  | body os =>
      obtain ⟨-, hc'⟩ := Option.ite_none_right_eq_some.mp hstep
      split_ifs at hc' with hfails
      · rw [← Option.some.inj hc']
        exact h.of_sameSync hsame (by simp) (by simp)
      · rw [← Option.some.inj hc']
        exact h.of_sameSync (c.sameSync_readyBody hfails) (by simp) (by simp)
  | cont os =>
      obtain ⟨-, hc'⟩ := Option.ite_none_right_eq_some.mp hstep
      rw [← Option.some.inj hc']
      exact h.of_sameSync ((sameSync_giveUp c.sock).trans (sameSync_connCont _ os))
        (by simp) (by simp)
  | sendto qid buf os =>
      obtain ⟨-, hc'⟩ := Option.ite_none_right_eq_some.mp hstep
      have hsend : SameSync c.blame.sock (c.sock.perfTcpSendto qid buf os).2.1 :=
        c.blame_sock.symm ▸ sameSync_sendto c.sock qid buf os
      rw [← Option.some.inj hc']
      exact h.blame.of_sameSync hsend (by simp) (by simp)

theorem inv_nextReceiver (h : Inv c) {step : ReceiverStep}
    (hstep : c.nextReceiver step = some c') : Inv c' := by
  cases step with
  | load =>
      obtain ⟨-, hc'⟩ := Option.ite_none_right_eq_some.mp hstep
      exact Option.some.inj hc' ▸ h.loaded
  | recv os len =>
      cases hat : c.receiver with
      | recv fd =>
          simp only [nextReceiver, hat] at hstep
          split_ifs at hstep with hfinds
          · exact Option.some.inj hstep ▸ h.found hat
          · exact Option.some.inj hstep ▸ h.received hat hfinds len
      | _ => simp [nextReceiver, hat] at hstep
  | store =>
      cases hat : c.receiver with
      | store fd =>
          simp only [nextReceiver, hat] at hstep
          exact Option.some.inj hstep ▸ h.asked hat
      | _ => simp [nextReceiver, hat] at hstep

theorem inv_next (c : Party) (step : Step) (c' : Party) (h : Inv c)
    (hstep : Guarded Unknown (StepOf next) c step c') : Inv c' := by
  obtain ⟨hunknown, hstep⟩ := hstep
  cases step with
  | sender step => exact inv_nextSender h hunknown hstep
  | receiver step => exact inv_nextReceiver h hstep

end Party

/-- **Connections are not confused**, in every run in which no new descriptor is one the
receiver holds on to: every receive call looks at bytes of one connection, and every
reconnect on account of `recv_need_reconn` is one the receiver found a reason for. -/
theorem party_not_confused (os : OsConnect) (hasSent hasEvent : Bool)
    (numQueriesPerConn nqpcTimeout : Nat) (hfd : 0 ≤ os.fd) (steps : List Party.Step) (c : Party)
    (hrun : Run (Guarded Party.Unknown (StepOf Party.next))
      (Party.start os hasSent hasEvent numQueriesPerConn nqpcTimeout) steps c) :
    (∀ l ∈ c.parsed, ∃ connection, ∀ b ∈ l, b = connection) ∧ ∀ r ∈ c.blamed, r.1 ∈ r.2 := by
  have hinv := hrun.invariant Party.inv_next (Party.inv_start os _ _ _ _ hfd)
  exact ⟨hinv.parsed, hinv.blamed⟩

namespace Party

/-- `perf__tcp_sockready` connecting again as `fd`, up to what `SO_ERROR` says. -/
def reconnectAs (fd : Int) (soError : Option Errno) : List Step :=
  [.check, .connect ⟨fd, true, 0⟩, .store, .close,
    .body ⟨⟨fd, true, 0⟩, .ok 0, ⟨fd, true, 0⟩, 0, 0, 0, .success, soError, 0, .ok 0⟩].map .sender

/-- A receive call on an open connection that is not lost. -/
def receive (bytes : Bytes) : List Step := [.load, .recv (.data bytes) 512].map .receiver

/-- A receive call that finds the connection closed. -/
def receiveClosed : List Step := [.load, .recv (.data []) 512, .store].map .receiver

end Party

/-- A descriptor comes back after the receiver let go of it. -/
theorem party_not_confused_descriptor_again :
    ∃ c : Party, c.sock.fd = 5 ∧ c.parsed = [[2, 2, 2], [1, 1, 1, 1], [0]] ∧
      c.blamed = [(1, [1, 0]), (0, [0])] ∧
      (∀ l ∈ c.parsed, ∃ connection, ∀ b ∈ l, b = connection) ∧ ∀ r ∈ c.blamed, r.1 ∈ r.2 := by
  obtain ⟨c, hrun, hend⟩ := Run.exists_of_follow Party.Unknown Party.next
    (Party.start ⟨5, true, 0⟩ true true 0 0)
    (Party.receive [0] ++ Party.receiveClosed ++ Party.reconnectAs 6 none ++
      Party.receive [0, 2, 7, 8] ++ Party.receiveClosed ++ Party.reconnectAs 5 none ++
      Party.receive [0, 1, 9])
    (fun c => c.sock.fd = 5 ∧ c.parsed = [[2, 2, 2], [1, 1, 1, 1], [0]] ∧
      c.blamed = [(1, [1, 0]), (0, [0])]) (by decide)
  obtain ⟨hfd, hparsed, hblamed⟩ := of_decide_eq_true hend
  exact ⟨c, hfd, hparsed, hblamed, party_not_confused _ _ _ _ _ (by decide) _ c hrun⟩

/-- **Two connections taken for one**: the receiver has a byte of the first and has asked
for another; the next connection is replaced before the receiver looks, by one with
the descriptor of the first. Its bytes go after that byte, and it is given up at once. -/
theorem party_confuses_connections :
    ∃ steps c, Run (StepOf Party.next) (Party.start ⟨5, true, 0⟩ true true 0 0) steps c ∧
      (¬ ∀ l ∈ c.parsed, ∃ connection, ∀ b ∈ l, b = connection) ∧
      ¬ ∀ r ∈ c.blamed, r.1 ∈ r.2 := by
  obtain ⟨c, hrun, hend⟩ := Run.exists_of_follow (fun _ _ => True) Party.next
    (Party.start ⟨5, true, 0⟩ true true 0 0)
    (Party.receive [0] ++ Party.receiveClosed ++ Party.reconnectAs 6 (some .econnrefused) ++
      Party.reconnectAs 5 none ++ Party.receive [2, 7, 8] ++ [.sender .check])
    (fun c => [0, 2, 2, 2] ∈ c.parsed ∧ (2, [0]) ∈ c.blamed) (by decide)
  obtain ⟨hparsed, hblamed⟩ := of_decide_eq_true hend
  refine ⟨_, c, hrun.mono fun _ _ _ hstep => hstep.2, fun hone => ?_, fun hfounded => ?_⟩
  · obtain ⟨connection, hall⟩ := hone _ hparsed
    have hfirst : 0 = connection := hall 0 (by decide)
    have hlast : 2 = connection := hall 2 (by decide)
    omega
  · exact absurd (hfounded _ hblamed) (by decide)

end Dnsperf.Net
