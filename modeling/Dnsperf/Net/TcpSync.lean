import Dnsperf.Lib.Run
import Dnsperf.Net.Tcp

/-!
# Dnsperf.Net.TcpSync

The sending and the receiving thread of a TCP socket, step by step, and the kernel's
descriptor table. The threads tell each other about connections by **descriptor
number** only: `sock->fd` says which one is current, `recv_need_reconn` which one the
receiver found lost, and `recvfd` is the one its buffer belongs to.

A step is one access to what the threads share, with what the thread does by itself
after it; `Party.sender` and `Party.receiver` follow `perf__tcp_sockready` and
`perf__tcp_recv` through theirs. The rest of `Party` is not in the program: which
connection each descriptor, each buffered byte and each decision was about.

With nothing in between, the steps are the calls (`receiver_call`, `sender_call`).
-/

namespace Dnsperf.Net

open Dnsperf.Lib

/-- Where the sending thread is. `failed` tells the reconnect after a failed send from
the one at the start of `perf__tcp_sockready`. -/
inductive SenderAt
  | out
  | connect (failed : Bool)
  | store (fd : Int) (connection : Nat) (failed : Bool)
  | close (oldfd : Int) (failed : Bool)
  | body
  | cont
  deriving DecidableEq

/-- Where the receiving thread is. -/
inductive ReceiverAt
  | out
  | recv (fd : Int)
  | store (fd : Int)
  deriving DecidableEq

/-- The two threads, and what only an observer knows. -/
structure Party where
  sock : PerfTcpSocket
  sender : SenderAt
  receiver : ReceiverAt
  /-- The open descriptors and their connections, which are numbered. -/
  kernel : Int → Option Nat
  opened : Nat
  /-- The connection of `sock->fd`. -/
  current : Nat
  /-- The connection that was current when the receiver last loaded `sock->fd`. -/
  recvConn : Nat
  /-- The connection each byte of `recvbuf` came from. -/
  origin : List Nat
  /-- The connections on which the receiver found a close or an error. -/
  lost : List Nat
  /-- For every receive call that looked at `recvbuf`, where the bytes came from. -/
  parsed : List (List Nat)
  /-- For every reconnect on account of `recv_need_reconn`, the connection that was
  current and those that were lost. -/
  blamed : List (Nat × List Nat)

namespace Party

variable (c : Party)

/-- The socket just opened. -/
def start (os : OsConnect) (hasSent hasEvent : Bool) (numQueriesPerConn nqpcTimeout : Nat) :
    Party where
  sock := (PerfTcpSocket.perfNetTcpOpensocket os hasSent hasEvent numQueriesPerConn nqpcTimeout).1
  sender := .out
  receiver := .out
  kernel := fun fd => if fd = os.fd then some 0 else none
  opened := 1
  current := 0
  recvConn := 0
  origin := []
  lost := []
  parsed := []
  blamed := []

/-! ### The sending thread -/

/-- `perf__tcp_sockready` and `perf__tcp_sendto` compare `recv_need_reconn` with
`sock->fd`. -/
def blame : Party :=
  if c.sock.recvNeedReconn = c.sock.fd then
    { c with blamed := (c.current, c.lost) :: c.blamed }
  else c

/-- Going on with a query fails. -/
def sendFails (os : OsWrite) : Bool :=
  c.sock.isReady && c.sock.isSending && match os with
    | .error errno => errno ≠ .eagain
    | .ok _ => false

/-- The start of `perf__tcp_sockready`. -/
def checked : Party :=
  { c.blame with
    sender := if c.sock.recvNeedReconn = c.sock.fd ∨ c.sock.needReconnect then .connect false
      else .body }

/-- `perf__tcp_connect`, given an unused descriptor by the kernel. -/
def connected (os : OsConnect) (failed : Bool) : Party :=
  { c with
    sock := (c.sock.perfTcpConnect os).1
    sender := .store os.fd c.opened failed
    kernel := fun fd => if fd = os.fd then some c.opened else c.kernel fd
    opened := c.opened + 1 }

/-- The new descriptor is stored into `sock->fd`. -/
def stored (fd : Int) (connection : Nat) (failed : Bool) : Party :=
  { c with
    sock := { c.sock with fd := fd }
    sender := .close c.sock.fd failed
    current := connection }

/-- The old descriptor is closed. -/
def closed (oldfd : Int) (failed : Bool) : Party :=
  { c with
    sock := if failed then c.sock else { c.sock with needReconnect := false }
    sender := if failed then .cont else .body
    kernel := fun fd => if fd = oldfd then none else c.kernel fd }

/-- A call returns. -/
def returned (sock : PerfTcpSocket) : Party := { c with sock := sock, sender := .out }

/-- The steps of the sending thread. -/
inductive SenderStep
  | check
  | connect (os : OsConnect)
  | store
  | close
  /-- `perf__tcp_sockready` from the check of `is_ready` on. -/
  | body (os : PerfTcpSocket.OsSockready)
  /-- `conn_cont`, after a failed send. -/
  | cont (os : PerfTcpSocket.OsSockready)
  /-- `perf__tcp_sendto`. -/
  | sendto (qid : UInt16) (buf : Bytes) (os : OsWrite)

def nextSender : SenderStep → Option Party
  | .check => if c.sender = .out then some c.checked else none
  | .connect os =>
      match c.sender with
      | .connect failed =>
          if 0 ≤ os.fd ∧ c.kernel os.fd = none then some (c.connected os failed) else none
      | _ => none
  | .store =>
      match c.sender with
      | .store fd connection failed => some (c.stored fd connection failed)
      | _ => none
  | .close =>
      match c.sender with
      | .close oldfd failed => some (c.closed oldfd failed)
      | _ => none
  | .body os =>
      if c.sender = .body then
        if c.sendFails os.send then some { c with sender := .connect true }
        else some (c.returned (c.sock.readyBody os).2.1)
      else none
  | .cont os =>
      if c.sender = .cont then some (c.returned (c.sock.giveUp.connCont os).2.1) else none
  | .sendto qid buf os =>
      if c.sender = .out then
        some (c.blame.returned (c.sock.perfTcpSendto qid buf os).2.1)
      else none

/-! ### The receiving thread -/

/-- `sock->fd` is loaded, and compared with `recvfd`. -/
def loaded : Party :=
  { c with
    sock := c.sock.recvSync c.sock.fd
    receiver := .recv c.sock.fd
    recvConn := c.current
    origin := if c.sock.fd ≠ c.sock.recvfd then [] else c.origin }

/-- What `recv` finds: on a descriptor that is not open, `EBADF`. -/
def found (fd : Int) (os : OsRead) : OsRead := if (c.kernel fd).isSome then os else .error .ebadf

/-- `perf__tcp_recv` finds that it needs a new connection. -/
def finds (os : OsRead) : Bool :=
  !c.sock.recv.haveMore && match os with
    | .data bytes => bytes.take c.sock.recv.space = []
    | .error errno => errno ∈ [.ebadf, .econnrefused, .econnreset, .enotconn]

/-- The connection `recv` was about. A descriptor that is not open any more was that of
the connection the receiver took it for. -/
def heard (fd : Int) : Nat := (c.kernel fd).getD c.recvConn

/-- Where the bytes of `recvbuf` came from when a call looks at it, having read `read`. -/
def lookedAt (fd : Int) (read : Bytes) : List Nat :=
  c.origin ++ List.replicate read.length (c.heard fd)

/-- A call that does not ask for a new connection. -/
def received (fd : Int) (os : OsRead) (len : Nat) : Party :=
  let call := c.sock.recvFrom fd os len
  let origin := c.lookedAt fd call.read
  { c with
    sock := call.sock
    receiver := .out
    -- what is left is the end of the buffer
    origin := origin.drop (origin.length - call.sock.recv.recvbuf.length)
    parsed := if c.sock.recv.haveMore ∨ call.read ≠ [] then origin :: c.parsed else c.parsed }

/-- The descriptor is stored into `recv_need_reconn`. -/
def asked (fd : Int) : Party :=
  { c with sock := { c.sock with recvNeedReconn := fd }, receiver := .out }

/-- The steps of the receiving thread. -/
inductive ReceiverStep
  | load
  | recv (os : OsRead) (len : Nat)
  | store

def nextReceiver : ReceiverStep → Option Party
  | .load => if c.receiver = .out then some c.loaded else none
  | .recv os len =>
      match c.receiver with
      | .recv fd =>
          if c.finds (c.found fd os) then
            some { c with receiver := .store fd, lost := c.heard fd :: c.lost }
          else some (c.received fd (c.found fd os) len)
      | _ => none
  | .store =>
      match c.receiver with
      | .store fd => some (c.asked fd)
      | _ => none

/-- The steps of either thread. -/
inductive Step
  | sender (step : SenderStep)
  | receiver (step : ReceiverStep)

def next : Step → Option Party
  | .sender step => c.nextSender step
  | .receiver step => c.nextReceiver step

/-! ### Whole calls

With nothing in between, the steps are the calls. -/

theorem recvFrom_of_finds {os : OsRead} (fd : Int) (len : Nat) (h : c.finds os = true) :
    (c.sock.recvFrom fd os len).sock = { c.sock with recvNeedReconn := fd } := by
  simp only [finds, Bool.and_eq_true, Bool.not_eq_true'] at h
  obtain ⟨hmore, hos⟩ := h
  unfold PerfTcpSocket.recvFrom
  rw [if_pos (by rw [hmore]; rfl)]
  cases os with
  | data bytes => simp only [if_pos (of_decide_eq_true hos)]
  | error errno =>
      cases errno with
      | ebadf | econnrefused | econnreset | enotconn => rfl
      | _ => exact absurd hos (by simp)

theorem receiver_call (os : OsRead) (len : Nat) (hout : c.receiver = .out)
    (hopen : (c.kernel c.sock.fd).isSome = true) :
    ∃ (steps : List ReceiverStep) (c' : Party),
      Run (StepOf next) c (steps.map .receiver) c' ∧ c'.receiver = .out ∧
        c'.sock = (c.sock.perfTcpRecv os len).sock := by
  have hload : c.next (.receiver .load) = some c.loaded := if_pos hout
  have hfound : c.loaded.found c.sock.fd os = os := if_pos hopen
  by_cases hfinds : c.loaded.finds os = true
  · have hrecv : c.loaded.next (.receiver (.recv os len)) =
        some { c.loaded with
          receiver := .store c.sock.fd
          lost := c.loaded.heard c.sock.fd :: c.loaded.lost } := by
      show (if c.loaded.finds (c.loaded.found c.sock.fd os) then _ else _) = _
      rw [hfound, if_pos hfinds]
    exact ⟨[.load, .recv os len, .store], _, .cons hload (.cons hrecv (.cons rfl (.nil _))), rfl,
      (c.loaded.recvFrom_of_finds _ len hfinds).symm⟩
  · have hrecv : c.loaded.next (.receiver (.recv os len)) =
        some (c.loaded.received c.sock.fd os len) := by
      show (if c.loaded.finds (c.loaded.found c.sock.fd os) then _ else _) = _
      rw [hfound, if_neg hfinds]
    exact ⟨[.load, .recv os len], _, .cons hload (.cons hrecv (.nil _)), rfl, rfl⟩

theorem sender_reconnect (os : OsConnect) (failed : Bool) (hat : c.sender = .connect failed)
    (hfd : 0 ≤ os.fd) (hunused : c.kernel os.fd = none) :
    ∃ c' : Party, Run (StepOf next) c ([.connect os, .store, .close].map Step.sender) c' ∧
      c'.sender = (if failed then .cont else .body) ∧
      c'.sock = (if failed then (c.sock.reconnect os).1
        else { (c.sock.reconnect os).1 with needReconnect := false }) ∧
      ∀ fd, fd ≠ os.fd → c.kernel fd = none → c'.kernel fd = none := by
  have hconnect : c.next (.sender (.connect os)) = some (c.connected os failed) := by
    simp only [next, nextSender, hat, if_pos (And.intro hfd hunused)]
  refine ⟨((c.connected os failed).stored os.fd c.opened failed).closed c.sock.fd failed,
    .cons hconnect (.cons rfl (.cons rfl (.nil _))), rfl, rfl, fun fd hne hnone => ?_⟩
  simp only [closed, stored, connected, if_neg hne, hnone, ite_self]

theorem readyBody_of_sendFails {os : PerfTcpSocket.OsSockready} (h : c.sendFails os.send = true) :
    c.sock.readyBody os = c.sock.sendFailed os := by
  simp only [sendFails, Bool.and_eq_true] at h
  obtain ⟨⟨hready, hsending⟩, hos⟩ := h
  unfold PerfTcpSocket.readyBody
  rw [if_pos hready, if_pos hsending]
  cases hsend : os.send with
  | error errno =>
      rw [hsend] at hos
      simp only [if_neg (of_decide_eq_true hos)]
  | ok n =>
      rw [hsend] at hos
      exact nomatch hos

theorem sender_body (os : PerfTcpSocket.OsSockready) (hat : c.sender = .body)
    (hfd : 0 ≤ os.reconnect.fd) (hunused : c.kernel os.reconnect.fd = none) :
    ∃ (steps : List SenderStep) (c' : Party), Run (StepOf next) c (steps.map .sender) c' ∧
      c'.sender = .out ∧ c'.sock = (c.sock.readyBody os).2.1 := by
  by_cases hfails : c.sendFails os.send = true
  · have hbody : c.next (.sender (.body os)) = some { c with sender := .connect true } := by
      simp only [next, nextSender, if_pos hat, if_pos hfails]
    obtain ⟨c₁, hrun, hcont, hsock, -⟩ :=
      sender_reconnect { c with sender := .connect true } os.reconnect true rfl hfd hunused
    have hlast : c₁.next (.sender (.cont os)) =
        some (c₁.returned (c₁.sock.giveUp.connCont os).2.1) := if_pos hcont
    refine ⟨[SenderStep.body os] ++ [SenderStep.connect os.reconnect, .store, .close] ++
        [SenderStep.cont os],
      c₁.returned (c₁.sock.giveUp.connCont os).2.1, ?_, rfl, ?_⟩
    · exact ((Run.cons hbody (.nil _)).append hrun).append (.cons hlast (.nil _))
    · rw [readyBody_of_sendFails c hfails, hsock]
      rfl
  · refine ⟨[.body os], c.returned (c.sock.readyBody os).2.1, .cons ?_ (.nil _), rfl, rfl⟩
    simp only [StepOf, next, nextSender, if_pos hat, if_neg hfails]

@[simp] theorem blame_sock : c.blame.sock = c.sock := by
  unfold blame
  split_ifs <;> rfl

@[simp] theorem blame_kernel : c.blame.kernel = c.kernel := by
  unfold blame
  split_ifs <;> rfl

/-- The sending thread, in a call of its own, with the kernel handing out the
descriptors of `os`. -/
theorem sender_call (os : PerfTcpSocket.OsSockready) (hout : c.sender = .out)
    (hfd : 0 ≤ os.connect.fd ∧ 0 ≤ os.reconnect.fd)
    (hunused : c.kernel os.connect.fd = none ∧ c.kernel os.reconnect.fd = none)
    (hne : os.reconnect.fd ≠ os.connect.fd) :
    ∃ (steps : List SenderStep) (c' : Party), Run (StepOf next) c (steps.map .sender) c' ∧
      c'.sender = .out ∧ c'.sock = (c.sock.perfTcpSockready os).2.1 := by
  have hcheck : c.next (.sender .check) = some c.checked := if_pos hout
  have hsock : c.checked.sock = c.sock := c.blame_sock
  have hkernel : c.checked.kernel = c.kernel := c.blame_kernel
  by_cases hneed : c.sock.recvNeedReconn = c.sock.fd ∨ c.sock.needReconnect = true
  · obtain ⟨c₁, hrun₁, hat, hsock₁, hkernel₁⟩ := c.checked.sender_reconnect os.connect false
      (if_pos hneed) hfd.1 (hkernel ▸ hunused.1)
    obtain ⟨steps, c₂, hrun₂, hout₂, hsock₂⟩ :=
      c₁.sender_body os hat hfd.2 (hkernel₁ _ hne (hkernel ▸ hunused.2))
    refine ⟨[SenderStep.check] ++ [SenderStep.connect os.connect, .store, .close] ++ steps, c₂, ?_,
      hout₂, ?_⟩
    · rw [List.map_append]
      exact ((Run.cons hcheck (.nil _)).append hrun₁).append hrun₂
    · rw [hsock₂, hsock₁, hsock]
      unfold PerfTcpSocket.perfTcpSockready PerfTcpSocket.readyHead
      rw [if_pos hneed]
      rfl
  · obtain ⟨steps, c₂, hrun₂, hout₂, hsock₂⟩ :=
      c.checked.sender_body os (if_neg hneed) hfd.2 (hkernel ▸ hunused.2)
    refine ⟨[.check] ++ steps, c₂, (Run.cons hcheck (.nil _)).append hrun₂, hout₂, ?_⟩
    rw [hsock₂, hsock]
    unfold PerfTcpSocket.perfTcpSockready PerfTcpSocket.readyHead
    rw [if_neg hneed]

end Party

end Dnsperf.Net
