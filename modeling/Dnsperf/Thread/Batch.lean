import Dnsperf.Lib.ByteBits
import Dnsperf.Lib.RoundRobin
import Dnsperf.Thread.Shares

/-!
# Dnsperf.Thread.Batch

How `do_recv` takes packets from its sockets. A batch has up to 16; the sockets are asked
in turn from `last_socket` on, and `socketbits` marks those that had nothing. `Thread.Model`
leaves open which packets make up a batch; here the two loops are as in the code, over
sockets of any kind (`recv`).

**`last_socket` with `socketbits` is a queue**: the sockets not marked, in the order in
which they come after `last_socket`. A call of `recv_one` is a turn of `Lib.RoundRobin`
(`recvBatch_turns`), and what is said there about queues holds for batches: no socket is
asked again once it had nothing, a batch is short only if every socket was asked in vain,
and sockets that always have something are served equally (`recvRounds_fair`).
-/

namespace Dnsperf.Thread

open Dnsperf.Lib Dnsperf.Net

/-! ### The marks -/

/-- `unsigned char socketbits[(MAX_SOCKETS / 8) + 1]`. -/
abbrev Socketbits := Vector UInt8 (maxSockets / 8 + 1)

/-- `memset(socketbits, 0, sizeof(socketbits))`. -/
def Socketbits.zero : Socketbits := Vector.replicate _ 0

/-- `bits[i]`. -/
def Socketbits.byte (bits : Socketbits) (i : Nat) : UInt8 := bits[i]?.getD 0

def bitSet (bits : Socketbits) (bit : Nat) : Socketbits :=
  let shift := 7 - bit % 8
  let mask := 1 <<< UInt8.ofNat shift
  bits.setIfInBounds (bit / 8) (bits.byte (bit / 8) ||| mask)

def bitClear (bits : Socketbits) (bit : Nat) : Socketbits :=
  let shift := 7 - bit % 8
  let mask := 1 <<< UInt8.ofNat shift
  bits.setIfInBounds (bit / 8) (bits.byte (bit / 8) &&& ~~~mask)

def bitCheck (bits : Socketbits) (bit : Nat) : Bool :=
  let shift := 7 - bit % 8
  bits.byte (bit / 8) >>> UInt8.ofNat shift &&& 1 != 0

theorem bitCheck_eq_testBit (bits : Socketbits) (bit : Nat) :
    bitCheck bits bit = (bits.byte (bit / 8)).toNat.testBit (7 - bit % 8) :=
  ByteBits.check_eq _ (by omega)

@[simp] theorem bitCheck_zero (bit : Nat) : bitCheck Socketbits.zero bit = false := by
  have hbyte : Socketbits.zero.byte (bit / 8) = 0 := by
    simp only [Socketbits.byte, Socketbits.zero, Vector.getElem?_replicate]
    split_ifs <;> rfl
  rw [bitCheck_eq_testBit, hbyte]
  exact Nat.zero_testBit _

theorem byte_setIfInBounds (bits : Socketbits) {i : Nat} (hi : i ≤ maxSockets / 8) (x : UInt8)
    (j : Nat) : Socketbits.byte (bits.setIfInBounds i x) j = if i = j then x else bits.byte j := by
  have hlt : i < maxSockets / 8 + 1 := by omega
  simp only [Socketbits.byte, Vector.getElem?_setIfInBounds]
  split_ifs <;> rfl

section Marks

variable (bits : Socketbits) {bit : Nat} (hbit : bit < maxSockets)
include hbit

/-- The marks are a set: `bit_set` adds a socket, -/
theorem bitCheck_bitSet (i : Nat) :
    bitCheck (bitSet bits bit) i = if i = bit then true else bitCheck bits i := by
  simp only [maxSockets] at hbit
  rw [bitCheck_eq_testBit, bitSet, byte_setIfInBounds bits (by simp only [maxSockets]; omega)]
  by_cases hbyte : bit / 8 = i / 8
  · rw [if_pos hbyte, ByteBits.testBit_set _ (by omega), hbyte, ← bitCheck_eq_testBit]
    by_cases hi : i = bit
    · rw [if_pos hi, hi, decide_eq_true rfl, Bool.true_or]
    · rw [if_neg hi, decide_eq_false (by omega), Bool.false_or]
  · rw [if_neg hbyte, if_neg (fun h => hbyte (by rw [h])), bitCheck_eq_testBit]

/-- and `bit_clear` takes it out. -/
theorem bitCheck_bitClear (i : Nat) :
    bitCheck (bitClear bits bit) i = if i = bit then false else bitCheck bits i := by
  simp only [maxSockets] at hbit
  rw [bitCheck_eq_testBit, bitClear, byte_setIfInBounds bits (by simp only [maxSockets]; omega)]
  by_cases hbyte : bit / 8 = i / 8
  · rw [if_pos hbyte, ByteBits.testBit_clear _ (by omega) (by omega), hbyte,
      ← bitCheck_eq_testBit]
    by_cases hi : i = bit
    · rw [if_pos hi, hi, decide_eq_true rfl, Bool.not_true, Bool.false_and]
    · rw [if_neg hi, decide_eq_false (by omega), Bool.not_false, Bool.true_and]
  · rw [if_neg hbyte, if_neg (fun h => hbyte (by rw [h])), bitCheck_eq_testBit]

end Marks

/-! ### A batch -/

/-- A call of `perf_net_recv`: the socket, and the message received (an empty one if the
connection was closed) or -1 with `errno`. -/
structure RecvCall where
  sock : Nat
  ret : Except Errno Bytes
  deriving DecidableEq

/-- The variables of `do_recv` while it fills a batch. `calls` is not in the program. -/
structure Batch (σ : Type*) where
  /-- The sockets, with the clock. -/
  socks : σ
  socketbits : Socketbits
  lastSocket : Nat
  /-- `saved_errno`, if not 0. -/
  savedErrno : Option Errno
  recvd : List ReceivedQuery
  calls : List RecvCall

/-- `EINTR`. -/
def eintr : Errno := .other 4

namespace Batch

variable {σ : Type*}

/-- The start of a batch. -/
def start (socks : σ) (lastSocket : Nat) : Batch σ where
  socks := socks
  socketbits := Socketbits.zero
  lastSocket := lastSocket
  savedErrno := none
  recvd := []
  calls := []

variable (recv : Nat → σ → Except Errno Bytes × σ) (clock : σ → Nat)

/-- `recv_one`: whether there was a packet. -/
def recvOne (whichSock : Nat) (b : Batch σ) : Bool × Batch σ :=
  let (n, socks) := recv whichSock b.socks
  let now := clock socks
  let b := { b with socks := socks, calls := b.calls ++ [RecvCall.mk whichSock n] }
  match n with
  | .error errno => (false, { b with savedErrno := some errno })
  -- a connection that was closed is treated like "try again"
  | .ok [] => (false, { b with savedErrno := some (b.savedErrno.getD .eagain) })
  | .ok (byte :: bytes) =>
      (true, { b with recvd := b.recvd ++ [Thread.recvOne whichSock (byte :: bytes) now] })

/-- The inner loop with `k` rounds left, so that `j` is `nsocks - k`. Whether it was left
by `break`. -/
def recvAny (nsocks : Nat) : Nat → Batch σ → Bool × Batch σ
  | 0, b => (false, b)
  | k + 1, b =>
      let currentSocket := (nsocks - (k + 1) + b.lastSocket) % nsocks
      if bitCheck b.socketbits currentSocket then recvAny nsocks k b
      else
        match recvOne recv clock currentSocket b with
        | (true, b) => (true, { b with lastSocket := currentSocket + 1 })
        | (false, b) =>
            recvAny nsocks k { b with socketbits := bitSet b.socketbits currentSocket }

/-- The outer loop, with `n` rounds left. -/
def recvMany (nsocks : Nat) : Nat → Batch σ → Batch σ
  | 0, b => b
  | n + 1, b =>
      match recvAny recv clock nsocks nsocks b with
      | (true, b) => recvMany nsocks n b
      | (false, b) => b

end Batch

/-- A batch of `do_recv`. -/
def recvBatch {σ : Type*} (recv : Nat → σ → Except Errno Bytes × σ) (clock : σ → Nat)
    (nsocks : Nat) (socks : σ) (lastSocket : Nat) : Batch σ :=
  Batch.recvMany recv clock nsocks recvBatchSize (Batch.start socks lastSocket)

/-- UDP sockets: the datagrams that wait at each. -/
abbrev UdpSocks := List (List Bytes)

/-- `perf__udp_recv` with a buffer of `MAX_EDNS_PACKET` bytes, on a socket that does not
block. -/
def perfUdpRecv (sock : Nat) (socks : UdpSocks) : Except Errno Bytes × UdpSocks :=
  match socks.getD sock [] with
  | [] => (.error .eagain, socks)
  | packet :: packets => (.ok (packet.take 4096), socks.set sock packets)

/-- What `do_recv` does after a batch. -/
inductive AfterBatch
  /-- The next batch at once. -/
  | again
  /-- `perf_os_waituntilanyreadable`. -/
  | wait
  /-- `failed to receive packet`. -/
  | fatal
  deriving Repr, DecidableEq

/-- How `do_recv` handles the error of a short batch. -/
def Batch.after {σ : Type*} (b : Batch σ) : AfterBatch :=
  if b.recvd.length < recvBatchSize then
    if b.savedErrno = some eintr then .again
    else if b.savedErrno = some .eagain then .wait
    else .fatal
  else .again

/-! ### The queue -/

/-- The call gave a packet. -/
def RecvCall.gave (call : RecvCall) : Bool :=
  match call.ret with
  | .ok (_ :: _) => true
  | _ => false

/-- The call as a turn. -/
def RecvCall.turn (call : RecvCall) : Nat × Bool := (call.sock, call.gave)

namespace Batch

variable {σ : Type*}

/-- The sockets in the order in which they are asked. -/
def order (nsocks : Nat) (b : Batch σ) : List Nat := (List.range nsocks).rotate b.lastSocket

/-- The socket is not marked. -/
def clear (b : Batch σ) (sock : Nat) : Bool := !bitCheck b.socketbits sock

/-- The sockets to be asked. -/
def queue (nsocks : Nat) (b : Batch σ) : List Nat := (b.order nsocks).filter b.clear

variable {nsocks : Nat} {b b' : Batch σ}

theorem length_order (b : Batch σ) : (b.order nsocks).length = nsocks := by
  rw [order, List.length_rotate, List.length_range]

theorem nodup_order (b : Batch σ) : (b.order nsocks).Nodup :=
  List.nodup_rotate.mpr List.nodup_range

theorem mem_order (b : Batch σ) {sock : Nat} : sock ∈ b.order nsocks ↔ sock < nsocks := by
  rw [order, List.mem_rotate, List.mem_range]

/-- The socket `j` places after `last_socket`. -/
theorem drop_order (b : Batch σ) {j : Nat} (hj : j < nsocks) :
    (b.order nsocks).drop j
      = (j + b.lastSocket) % nsocks :: (b.order nsocks).drop (j + 1) := by
  have hlt : j < (b.order nsocks).length := by rwa [length_order]
  rw [List.drop_eq_getElem_cons hlt]
  simp only [order, List.getElem_rotate, List.length_range, List.getElem_range]

theorem take_order (b : Batch σ) {j : Nat} (hj : j < nsocks) :
    (b.order nsocks).take (j + 1)
      = (b.order nsocks).take j ++ [(j + b.lastSocket) % nsocks] := by
  have hlt : j < (b.order nsocks).length := by rwa [length_order]
  rw [List.take_succ_eq_append_getElem hlt]
  simp only [order, List.getElem_rotate, List.length_range, List.getElem_range]

/-- Once that socket has been served, the order starts behind it. -/
theorem order_served {j : Nat} (hj : j < nsocks)
    (hlast : b'.lastSocket = (j + b.lastSocket) % nsocks + 1) :
    b'.order nsocks = (b.order nsocks).drop (j + 1) ++ (b.order nsocks).take (j + 1) := by
  have hmod : ∀ n, (List.range nsocks).rotate (n % nsocks) = (List.range nsocks).rotate n := by
    intro n
    conv_rhs => rw [← List.rotate_mod, List.length_range]
  rw [← List.rotate_eq_drop_append_take (by rw [length_order]; omega), order, order, hlast,
    List.rotate_rotate, ← List.rotate_rotate, hmod, List.rotate_rotate]
  congr 1
  omega

end Batch

/-! ### A call is a turn -/

/-- What the call makes of `saved_errno`. -/
def RecvCall.saved (call : RecvCall) (savedErrno : Option Errno) : Option Errno :=
  match call.ret with
  | .error errno => some errno
  | .ok [] => some (savedErrno.getD .eagain)
  | .ok (_ :: _) => savedErrno

/-- What the call adds to the batch. -/
def RecvCall.received (call : RecvCall) (now : Nat) : List ReceivedQuery :=
  match call.ret with
  | .ok (byte :: bytes) => [recvOne call.sock (byte :: bytes) now]
  | _ => []

theorem RecvCall.length_received (call : RecvCall) (now : Nat) :
    (call.received now).length = if call.gave then 1 else 0 := by
  unfold received gave
  split <;> simp_all

namespace Batch

variable {σ : Type*} {recv : Nat → σ → Except Errno Bytes × σ} {clock : σ → Nat} {nsocks : Nat}
  {b b' : Batch σ}

/-- A call and all that comes of it before the next one. -/
structure Asks (recv : Nat → σ → Except Errno Bytes × σ) (clock : σ → Nat) (nsocks : Nat)
    (b : Batch σ) (call : RecvCall) (b' : Batch σ) : Prop where
  socks : recv call.sock b.socks = (call.ret, b'.socks)
  turn : Turn (b.queue nsocks) call.turn (b'.queue nsocks)
  calls : b'.calls = b.calls ++ [call]
  savedErrno : b'.savedErrno = call.saved b.savedErrno
  recvd : b'.recvd = b.recvd ++ call.received (clock b'.socks)

theorem recvOne_spec {sock : Nat} {gave : Bool} (h : b.recvOne recv clock sock = (gave, b')) :
    ∃ call : RecvCall, call.sock = sock ∧ call.gave = gave ∧
      recv sock b.socks = (call.ret, b'.socks) ∧ b'.calls = b.calls ++ [call] ∧
      b'.savedErrno = call.saved b.savedErrno ∧
      b'.recvd = b.recvd ++ call.received (clock b'.socks) ∧
      b'.socketbits = b.socketbits ∧ b'.lastSocket = b.lastSocket := by
  refine ⟨⟨sock, (recv sock b.socks).1⟩, rfl, ?_⟩
  unfold recvOne at h
  dsimp only at h
  split at h <;> rename_i hret <;> obtain ⟨rfl, rfl⟩ := Prod.mk.inj h
  all_goals
    refine ⟨?_, Prod.ext rfl rfl, rfl, ?_, ?_, rfl, rfl⟩ <;>
      simp only [RecvCall.gave, RecvCall.saved, RecvCall.received, hret, List.append_nil]

/-- The sockets asked so far in a round of the outer loop are marked. -/
def AllMarked (nsocks : Nat) (b : Batch σ) (j : Nat) : Prop :=
  ∀ sock ∈ (b.order nsocks).take j, b.clear sock = false

theorem AllMarked.queue {j : Nat} (h : b.AllMarked nsocks j) :
    b.queue nsocks = ((b.order nsocks).drop j).filter b.clear := by
  have hnil : ((b.order nsocks).take j).filter b.clear = [] :=
    List.filter_eq_nil_iff.mpr fun sock hsock => by rw [h sock hsock]; exact Bool.false_ne_true
  rw [Batch.queue]
  conv_lhs => rw [← List.take_append_drop j (b.order nsocks), List.filter_append, hnil]
  exact List.nil_append _

theorem asks_gave {j : Nat} {call : RecvCall} (hj : j < nsocks) (hmarked : b.AllMarked nsocks j)
    (hsock : call.sock = (j + b.lastSocket) % nsocks) (hclear : b.clear call.sock = true)
    (hgave : call.gave = true) (hbits : b'.socketbits = b.socketbits)
    (hlast : b'.lastSocket = call.sock + 1) :
    Turn (b.queue nsocks) call.turn (b'.queue nsocks) := by
  have hsame : b'.clear = b.clear := by
    funext sock
    rw [clear, clear, hbits]
  have hqueue : b.queue nsocks
      = call.sock :: ((b.order nsocks).drop (j + 1)).filter b.clear := by
    rw [hmarked.queue, drop_order b hj, ← hsock, List.filter_cons_of_pos hclear]
  have hqueue' : b'.queue nsocks
      = ((b.order nsocks).drop (j + 1)).filter b.clear ++ [call.sock] := by
    have hnil : ((b.order nsocks).take j).filter b.clear = [] :=
      List.filter_eq_nil_iff.mpr fun sock hsock => by
        rw [hmarked sock hsock]
        exact Bool.false_ne_true
    rw [queue, order_served hj (hsock ▸ hlast), hsame, List.filter_append, take_order b hj,
      List.filter_append, hnil, ← hsock, List.filter_cons_of_pos hclear]
    rfl
  rw [hqueue, hqueue', RecvCall.turn, hgave]
  exact .gave _ _

theorem asks_dry {j : Nat} {call : RecvCall} (hn : nsocks ≤ maxSockets) (hj : j < nsocks)
    (hmarked : b.AllMarked nsocks j) (hsock : call.sock = (j + b.lastSocket) % nsocks)
    (hclear : b.clear call.sock = true) (hgave : call.gave = false)
    (hbits : b'.socketbits = bitSet b.socketbits call.sock)
    (hlast : b'.lastSocket = b.lastSocket) :
    Turn (b.queue nsocks) call.turn (b'.queue nsocks) ∧ b'.AllMarked nsocks (j + 1) := by
  have horder : b'.order nsocks = b.order nsocks := by rw [order, order, hlast]
  have hlt : call.sock < maxSockets := by
    have := Nat.mod_lt (j + b.lastSocket) (show 0 < nsocks by omega)
    omega
  have hsame : ∀ sock, b'.clear sock = if sock = call.sock then false else b.clear sock := by
    intro sock
    rw [clear, hbits, bitCheck_bitSet _ hlt]
    split_ifs <;> rfl
  have hmarked' : b'.AllMarked nsocks (j + 1) := by
    intro sock hmem
    rw [horder, take_order b hj, List.mem_append, List.mem_singleton, ← hsock] at hmem
    rw [hsame]
    rcases hmem with hmem | rfl
    · rw [hmarked sock hmem, ite_self]
    · rw [if_pos rfl]
  refine ⟨?_, hmarked'⟩
  -- the socket was the head of the queue, and is now marked
  have hqueue : b.queue nsocks
      = call.sock :: ((b.order nsocks).drop (j + 1)).filter b.clear := by
    rw [hmarked.queue, drop_order b hj, ← hsock, List.filter_cons_of_pos hclear]
  have hqueue' : b'.queue nsocks = ((b.order nsocks).drop (j + 1)).filter b.clear := by
    have hnot : call.sock ∉ (b.order nsocks).drop (j + 1) := by
      have hnodup := (List.drop_sublist j (b.order nsocks)).nodup (nodup_order b)
      rw [drop_order b hj, ← hsock] at hnodup
      exact (List.nodup_cons.mp hnodup).1
    rw [hmarked'.queue, horder]
    refine List.filter_congr fun sock hmem => ?_
    rw [hsame, if_neg]
    rintro rfl
    exact hnot hmem
  rw [hqueue, hqueue', RecvCall.turn, hgave]
  exact .dry _ _

/-- **The inner loop** asks the sockets of the queue until one gives a packet. If none does,
the queue is empty. -/
theorem recvAny_spec (hn : nsocks ≤ maxSockets) {k : Nat} (hk : k ≤ nsocks) {found : Bool}
    (hmarked : b.AllMarked nsocks (nsocks - k))
    (h : b.recvAny recv clock nsocks k = (found, b')) :
    ∃ calls, Run (Asks recv clock nsocks) b calls b' ∧
      b'.recvd.length = b.recvd.length + (if found then 1 else 0) ∧
      (found = false → b'.queue nsocks = []) := by
  induction k generalizing b with
  | zero =>
      obtain ⟨rfl, rfl⟩ := Prod.mk.inj h
      refine ⟨[], Run.nil _, rfl, fun _ => ?_⟩
      rw [hmarked.queue, List.drop_eq_nil_of_le (by rw [length_order]; omega), List.filter_nil]
  | succ k ih =>
      have hj : nsocks - (k + 1) < nsocks := by omega
      have hnext : nsocks - (k + 1) + 1 = nsocks - k := by omega
      rw [recvAny] at h
      split_ifs at h with hcheck
      -- passed over: its bit is set
      · refine ih (by omega) ?_ h
        intro sock hmem
        rw [← hnext, take_order b hj, List.mem_append, List.mem_singleton] at hmem
        rcases hmem with hmem | rfl
        · exact hmarked sock hmem
        · rw [clear, hcheck, Bool.not_true]
      · have hclear : b.clear ((nsocks - (k + 1) + b.lastSocket) % nsocks) = true := by
          rw [clear, eq_false_of_ne_true hcheck, Bool.not_false]
        split at h <;> rename_i b₁ hone <;>
          obtain ⟨call, hsock, hgave, hsocks, hcalls, hsaved, hrecvd, hbits, hlast⟩ :=
            recvOne_spec hone
        -- it gave a packet, and the next scan begins after it
        · obtain ⟨rfl, rfl⟩ := Prod.mk.inj h
          let served : Batch σ := { b₁ with lastSocket := call.sock + 1 }
          have hturn : Turn (b.queue nsocks) call.turn (served.queue nsocks) :=
            asks_gave hj hmarked hsock (hsock ▸ hclear) hgave hbits rfl
          rw [← hsock]
          refine ⟨[call], Run.cons ⟨hsock ▸ hsocks, hturn, hcalls, hsaved, hrecvd⟩ (Run.nil _), ?_,
            nofun⟩
          rw [hrecvd, List.length_append, RecvCall.length_received, hgave]
        -- it had none: its bit is set and the scan goes on
        · rw [← hsock] at h
          let marked : Batch σ := { b₁ with socketbits := bitSet b₁.socketbits call.sock }
          have hbits' : marked.socketbits = bitSet b.socketbits call.sock := by rw [← hbits]
          obtain ⟨hturn, hmarked'⟩ :=
            asks_dry hn hj hmarked hsock (hsock ▸ hclear) hgave hbits' hlast
          obtain ⟨calls, hrun, hlength, hend⟩ := ih (by omega) (hnext ▸ hmarked') h
          refine ⟨call :: calls,
            Run.cons ⟨hsock ▸ hsocks, hturn, hcalls, hsaved, hrecvd⟩ hrun, ?_, hend⟩
          rw [hlength, hrecvd, List.length_append, RecvCall.length_received, hgave]
          rfl

/-- **The outer loop** stops when the batch is full or the queue is empty. -/
theorem recvMany_spec (recv : Nat → σ → Except Errno Bytes × σ) (clock : σ → Nat)
    (hn : nsocks ≤ maxSockets) (n : Nat) (b : Batch σ) :
    ∃ calls, Run (Asks recv clock nsocks) b calls (b.recvMany recv clock nsocks n) ∧
      (b.recvMany recv clock nsocks n).recvd.length ≤ b.recvd.length + n ∧
      ((b.recvMany recv clock nsocks n).recvd.length < b.recvd.length + n →
        (b.recvMany recv clock nsocks n).queue nsocks = []) := by
  induction n generalizing b with
  | zero => exact ⟨[], Run.nil _, by simp [recvMany], by simp [recvMany]⟩
  | succ n ih =>
      have hmarked : b.AllMarked nsocks (nsocks - nsocks) := by
        rw [Nat.sub_self]
        exact nofun
      rw [recvMany]
      split <;> rename_i b₁ hany <;>
        obtain ⟨calls, hrun, hlength, hend⟩ := recvAny_spec hn (Nat.le_refl _) hmarked hany
      · obtain ⟨rest, hrest, hle, hempty⟩ := ih b₁
        rw [if_pos rfl] at hlength
        exact ⟨calls ++ rest, hrun.append hrest, by omega, fun hlt => hempty (by omega)⟩
      · rw [if_neg Bool.false_ne_true] at hlength
        exact ⟨calls, hrun, by omega, fun _ => hend rfl⟩

theorem calls_of_run {calls : List RecvCall} (hrun : Run (Asks recv clock nsocks) b calls b') :
    b'.calls = b.calls ++ calls := by
  induction hrun with
  | nil b => exact (List.append_nil _).symm
  | cons hasks _ ih => rw [ih, hasks.calls, List.append_assoc, List.singleton_append]

theorem turns_of_run {calls : List RecvCall} (hrun : Run (Asks recv clock nsocks) b calls b') :
    Run Turn (b.queue nsocks) (calls.map RecvCall.turn) (b'.queue nsocks) := by
  induction hrun with
  | nil b => exact Run.nil _
  | cons hasks _ ih => exact Run.cons hasks.turn ih

@[simp] theorem queue_start (socks : σ) (lastSocket : Nat) :
    (start socks lastSocket).queue nsocks = (start socks lastSocket).order nsocks := by
  refine List.filter_eq_self.mpr fun sock _ => ?_
  rw [clear]
  simp [start]

end Batch

/-! ### What a batch takes -/

section Batches

variable {σ : Type*} {recv : Nat → σ → Except Errno Bytes × σ} {clock : σ → Nat} {nsocks : Nat}

/-- A batch is the run of its calls. It ends full or with no socket left to ask. -/
theorem recvBatch_spec (recv : Nat → σ → Except Errno Bytes × σ) (clock : σ → Nat)
    (hn : nsocks ≤ maxSockets) (socks : σ) (lastSocket : Nat) :
    Run (Batch.Asks recv clock nsocks) (Batch.start socks lastSocket)
        (recvBatch recv clock nsocks socks lastSocket).calls
        (recvBatch recv clock nsocks socks lastSocket) ∧
      (recvBatch recv clock nsocks socks lastSocket).recvd.length ≤ recvBatchSize ∧
      ((recvBatch recv clock nsocks socks lastSocket).recvd.length < recvBatchSize →
        (recvBatch recv clock nsocks socks lastSocket).queue nsocks = []) := by
  obtain ⟨calls, hrun, hle, hempty⟩ :=
    Batch.recvMany_spec recv clock hn recvBatchSize (Batch.start socks lastSocket)
  have hcalls : (recvBatch recv clock nsocks socks lastSocket).calls = calls :=
    Batch.calls_of_run hrun
  have hzero : (Batch.start socks lastSocket).recvd.length = 0 := rfl
  rw [hzero, Nat.zero_add] at hle hempty
  rw [hcalls]
  exact ⟨hrun, hle, hempty⟩

/-- The turns of a batch: at first every socket is in the queue. -/
theorem recvBatch_turns (recv : Nat → σ → Except Errno Bytes × σ) (clock : σ → Nat)
    (hn : nsocks ≤ maxSockets) (socks : σ) (lastSocket : Nat) :
    Run Turn ((Batch.start socks lastSocket).order nsocks)
      ((recvBatch recv clock nsocks socks lastSocket).calls.map RecvCall.turn)
      ((recvBatch recv clock nsocks socks lastSocket).queue nsocks) := by
  obtain ⟨hrun, -⟩ := recvBatch_spec recv clock hn socks lastSocket
  have hturns := Batch.turns_of_run hrun
  rwa [Batch.queue_start] at hturns

/-- The calls of one batch after another. What happens to the sockets in between is
arbitrary: each batch finds them as it finds them. -/
def recvRounds (recv : Nat → σ → Except Errno Bytes × σ) (clock : σ → Nat) (nsocks : Nat) :
    List σ → Nat → List RecvCall
  | [], _ => []
  | socks :: rest, lastSocket =>
      let b := recvBatch recv clock nsocks socks lastSocket
      b.calls ++ recvRounds recv clock nsocks rest b.lastSocket

/-- How many packets came from a socket. -/
def packetsOf (calls : List RecvCall) (sock : Nat) : Nat :=
  calls.countP fun call => call.sock = sock ∧ call.gave = true

theorem packetsOf_eq_gaves (calls : List RecvCall) (sock : Nat) :
    packetsOf calls sock = gaves (calls.map RecvCall.turn) sock := by
  rw [gaves, List.count, List.countP_map, packetsOf]
  refine List.countP_congr fun call _ => ?_
  simp [RecvCall.turn]

/-- One batch after another keeps the sockets that always have something balanced. -/
theorem recvRounds_balanced (recv : Nat → σ → Except Errno Bytes × σ) (clock : σ → Nat)
    (hn : nsocks ≤ maxSockets) {S : Nat → Bool} (rounds : List σ) {lastSocket : Nat}
    {n : Nat → Nat}
    (hS : ∀ call ∈ recvRounds recv clock nsocks rounds lastSocket,
      S call.sock = true → call.gave = true)
    (h : Balanced n (((List.range nsocks).rotate lastSocket).filter S)) :
    ∃ last, Balanced
      (fun sock => n sock + packetsOf (recvRounds recv clock nsocks rounds lastSocket) sock)
      (((List.range nsocks).rotate last).filter S) := by
  induction rounds generalizing lastSocket n with
  | nil => exact ⟨lastSocket, by simpa [recvRounds, packetsOf] using h⟩
  | cons socks rounds ih =>
      have hturns := recvBatch_turns recv clock hn socks lastSocket
      rw [recvRounds] at hS ⊢
      set b := recvBatch recv clock nsocks socks lastSocket
      have hgave : ∀ turn ∈ b.calls.map RecvCall.turn, S turn.1 = true → turn.2 = true := by
        intro turn hturn
        obtain ⟨call, hcall, rfl⟩ := List.mem_map.mp hturn
        exact hS call (List.mem_append_left _ hcall)
      -- a socket of `S` is never marked, so to `S` the queue is the order
      have hqueue : (b.queue nsocks).filter S = (b.order nsocks).filter S := by
        rw [Batch.queue, List.filter_filter]
        refine List.filter_congr fun sock hsock => ?_
        by_contra hne
        have hSsock : S sock = true := by
          by_contra hnot
          exact hne (by rw [eq_false_of_ne_true hnot, Bool.false_and])
        have hdry := Turn.asked_in_vain hturns
          ((Batch.mem_order _).mpr ((Batch.mem_order b).mp hsock))
          (fun hmem => hne (by rw [(List.mem_filter.mp hmem).2, Bool.and_true]))
        exact Bool.false_ne_true (hgave _ hdry hSsock)
      have hbalanced := Turn.balanced hturns (Batch.nodup_order _) hgave h
      rw [hqueue] at hbalanced
      obtain ⟨last, hlast⟩ := ih (fun call hcall => hS call (List.mem_append_right _ hcall))
        hbalanced
      refine ⟨last, ?_⟩
      simpa only [packetsOf, List.countP_append, ← Nat.add_assoc, ← packetsOf_eq_gaves] using hlast

/-- **Batches are fair.** However the packets arrive, and over any number of batches: of two
sockets that gave a packet whenever they were asked, neither gave more than one packet more
than the other. -/
theorem recvRounds_fair (recv : Nat → σ → Except Errno Bytes × σ) (clock : σ → Nat)
    (hn : nsocks ≤ maxSockets) (rounds : List σ) (lastSocket : Nat) {sock sock' : Nat}
    (hsock : sock < nsocks) (hsock' : sock' < nsocks)
    (hgave : ∀ call ∈ recvRounds recv clock nsocks rounds lastSocket,
      call.sock = sock ∨ call.sock = sock' → call.gave = true) :
    packetsOf (recvRounds recv clock nsocks rounds lastSocket) sock
      ≤ packetsOf (recvRounds recv clock nsocks rounds lastSocket) sock' + 1 := by
  have hstart : Balanced (fun _ => 0)
      (((List.range nsocks).rotate lastSocket).filter fun s => s = sock ∨ s = sock') :=
    List.pairwise_iff_forall_sublist.mpr fun _ => ⟨Nat.le_refl 0, Nat.zero_le 1⟩
  obtain ⟨last, hbalanced⟩ := recvRounds_balanced recv clock hn rounds
    (fun call hcall hS => hgave call hcall (of_decide_eq_true hS)) hstart
  have hmem : ∀ {s}, s < nsocks → (s = sock ∨ s = sock') →
      s ∈ ((List.range nsocks).rotate last).filter fun s => s = sock ∨ s = sock' := by
    intro s hs heq
    exact List.mem_filter.mpr
      ⟨List.mem_rotate.mpr (List.mem_range.mpr hs), decide_eq_true heq⟩
  have hle := hbalanced.le_succ (hmem hsock (Or.inl rfl)) (hmem hsock' (Or.inr rfl))
  simpa only [Nat.zero_add] using hle

/-- Three UDP sockets, of which the second has one datagram and the others have more than fit
into a batch. -/
def threeUdpSocks : UdpSocks :=
  [List.replicate 20 [0, 1, 128, 0], [[0, 2, 128, 0]], List.replicate 20 [0, 3, 128, 0]]

theorem recvRounds_fair_udp :
    let calls := recvRounds perfUdpRecv (fun _ => 0) 3 [threeUdpSocks, threeUdpSocks] 0
    packetsOf calls 1 = 2 ∧ packetsOf calls 0 ≤ packetsOf calls 2 + 1 := by
  refine ⟨by decide +kernel, ?_⟩
  exact recvRounds_fair perfUdpRecv (fun _ => 0) (by decide) [threeUdpSocks, threeUdpSocks] 0
    (by decide) (by decide) (by decide +kernel)

theorem length_recvd_of_run {b b' : Batch σ} {calls : List RecvCall}
    (hrun : Run (Batch.Asks recv clock nsocks) b calls b') :
    b'.recvd.length = b.recvd.length + calls.countP RecvCall.gave := by
  induction hrun with
  | nil b => rfl
  | cons hasks _ ih =>
      rw [ih, hasks.recvd, List.length_append, RecvCall.length_received, List.countP_cons]
      omega

/-- A short batch has asked every socket in vain. -/
theorem exists_dry_of_short (recv : Nat → σ → Except Errno Bytes × σ) (clock : σ → Nat)
    (hn : nsocks ≤ maxSockets) (socks : σ) (lastSocket : Nat)
    (hshort : (recvBatch recv clock nsocks socks lastSocket).recvd.length < recvBatchSize)
    {sock : Nat} (hsock : sock < nsocks) :
    ∃ call ∈ (recvBatch recv clock nsocks socks lastSocket).calls,
      call.sock = sock ∧ call.gave = false := by
  obtain ⟨-, -, hempty⟩ := recvBatch_spec recv clock hn socks lastSocket
  have hdry := Turn.asked_in_vain (recvBatch_turns recv clock hn socks lastSocket)
    ((Batch.mem_order _).mpr hsock) (by rw [hempty hshort]; exact List.not_mem_nil)
  obtain ⟨call, hcall, hturn⟩ := List.mem_map.mp hdry
  exact ⟨call, hcall, (Prod.mk.inj hturn).1, (Prod.mk.inj hturn).2⟩

/-- **A batch takes what there is.** It has at most 16 packets, one for each call that gave
one; a socket that had nothing is not asked again; and a batch of fewer than 16 packets has
asked every socket until it had nothing. -/
theorem recvBatch_exhausts (recv : Nat → σ → Except Errno Bytes × σ) (clock : σ → Nat)
    (hn : nsocks ≤ maxSockets) (socks : σ) (lastSocket : Nat) :
    let b := recvBatch recv clock nsocks socks lastSocket
    b.recvd.length = b.calls.countP RecvCall.gave ∧ b.recvd.length ≤ recvBatchSize ∧
      (b.calls.Pairwise fun call later => call.gave = false → later.sock ≠ call.sock) ∧
      (b.recvd.length < recvBatchSize →
        ∀ sock < nsocks, ∃ call ∈ b.calls, call.sock = sock ∧ call.gave = false) := by
  intro b
  obtain ⟨hrun, hle, -⟩ := recvBatch_spec recv clock hn socks lastSocket
  have hturns := recvBatch_turns recv clock hn socks lastSocket
  refine ⟨?_, hle, ?_, ?_⟩
  · simpa [Batch.start] using length_recvd_of_run hrun
  · exact List.pairwise_map.mp (Turn.not_again hturns (Batch.nodup_order _))
  · exact fun hshort sock hsock => exists_dry_of_short recv clock hn socks lastSocket hshort hsock

theorem recvBatch_exhausts_udp :
    let b := recvBatch perfUdpRecv (fun _ => 0) 3 [[[0, 1, 128, 0]], [], [[0, 3]]] 2
    b.recvd.length = 2 ∧ ∀ sock < 3, ∃ call ∈ b.calls, call.sock = sock ∧ call.gave = false := by
  have hlength : (recvBatch perfUdpRecv (fun _ => 0) 3
      [[[0, 1, 128, 0]], [], [[0, 3]]] 2).recvd.length = 2 := by decide +kernel
  refine ⟨hlength, ?_⟩
  exact (recvBatch_exhausts perfUdpRecv (fun _ => 0) (by decide) _ 2).2.2.2
    (by rw [hlength]; decide)

/-! ### After a batch -/

/-- The `errno` of a call that failed. -/
def RecvCall.errno (call : RecvCall) : Option Errno :=
  match call.ret with
  | .error errno => some errno
  | .ok _ => none

/-- The last error of the calls. -/
def lastErrno (calls : List RecvCall) : Option Errno := (calls.filterMap RecvCall.errno).getLast?

theorem lastErrno_concat (calls : List RecvCall) (call : RecvCall) :
    lastErrno (calls ++ [call]) = call.errno.or (lastErrno calls) := by
  rw [lastErrno, List.filterMap_append, List.filterMap_cons]
  cases call.errno with
  | none => simp [lastErrno]
  | some errno => simp

/-- `saved_errno` is the last error, or `EAGAIN` if there was none and some call gave
nothing. -/
theorem savedErrno_of_run {b b' : Batch σ} {calls : List RecvCall}
    (hrun : Run (Batch.Asks recv clock nsocks) b calls b')
    (h : b.savedErrno = (lastErrno b.calls).or
      (if b.calls.all RecvCall.gave then none else some .eagain)) :
    b'.savedErrno = (lastErrno b'.calls).or
      (if b'.calls.all RecvCall.gave then none else some .eagain) := by
  refine hrun.invariant (I := fun b => b.savedErrno = (lastErrno b.calls).or
    (if b.calls.all RecvCall.gave then none else some .eagain)) ?_ h
  intro b call b' h hasks
  rw [hasks.savedErrno, hasks.calls, h, lastErrno_concat, List.all_append]
  obtain ⟨sock, ret⟩ := call
  match ret with
  | .error errno => rfl
  | .ok [] =>
      simp only [RecvCall.saved, RecvCall.errno, RecvCall.gave, Option.none_or, List.all_cons,
        Bool.false_and, Bool.and_false, Bool.false_eq_true, if_false]
      cases lastErrno b.calls with
      | none => split_ifs <;> rfl
      | some errno => rfl
  | .ok (byte :: bytes) =>
      simp only [RecvCall.saved, RecvCall.errno, RecvCall.gave, Option.none_or, List.all_cons,
        List.all_nil, Bool.and_true]

/-- What an `errno` makes `do_recv` do. -/
def AfterBatch.ofErrno (errno : Errno) : AfterBatch :=
  if errno = eintr then .again else if errno = .eagain then .wait else .fatal

/-- **What a short batch leads to** is decided by the last error alone. The errors before it
are forgotten, and closed connections count as "try again" only where no call failed. -/
theorem recvBatch_after (recv : Nat → σ → Except Errno Bytes × σ) (clock : σ → Nat)
    (hpos : 0 < nsocks) (hn : nsocks ≤ maxSockets) (socks : σ) (lastSocket : Nat) :
    let b := recvBatch recv clock nsocks socks lastSocket
    b.after = if b.recvd.length < recvBatchSize then
        (lastErrno b.calls).elim .wait AfterBatch.ofErrno
      else .again := by
  intro b
  rw [Batch.after]
  by_cases hshort : b.recvd.length < recvBatchSize
  · obtain ⟨hrun, -⟩ := recvBatch_spec recv clock hn socks lastSocket
    obtain ⟨call, hcall, -, hdry⟩ :=
      exists_dry_of_short recv clock hn socks lastSocket hshort hpos
    have hall : b.calls.all RecvCall.gave = false :=
      List.all_eq_false.mpr ⟨call, hcall, by rw [hdry]; exact Bool.false_ne_true⟩
    have hsaved : b.savedErrno = (lastErrno b.calls).or (some .eagain) := by
      rw [savedErrno_of_run hrun rfl, hall]
      rfl
    rw [if_pos hshort, if_pos hshort, hsaved]
    cases lastErrno b.calls with
    | none => rfl
    | some errno => simp only [Option.some_or, Option.some.injEq, Option.elim, AfterBatch.ofErrno]
  · rw [if_neg hshort, if_neg hshort]

/-- The second of three sockets is refused; the third has nothing, and the refusal is
forgotten. -/
theorem recvBatch_after_refused :
    (recvBatch (fun sock (_ : Unit) =>
      (if sock = 1 then .error .econnrefused else .error .eagain, ())) (fun _ => 0) 3 () 0).after
      = .wait := by
  rw [recvBatch_after _ _ (by decide) (by decide) () 0]
  decide +kernel

/-! ### Batches in the model of a thread -/

/-- The receiver of `c` is filling the batch `b`. -/
def filling (clock : σ → Nat) (c : Pair) (b : Batch σ) : Pair :=
  { c with receiver := .recv b.recvd, clock := clock b.socks }

/-- A call is a step of the clock and, if it gave a packet, one of the receiver. -/
theorem run_of_asks {cfg : Config} {c : Pair} {b b' : Batch σ} {call : RecvCall}
    (hclock : ∀ sock socks, clock socks ≤ clock (recv sock socks).2)
    (hmax : ∀ socks, clock socks < uint64Max) (hasks : Batch.Asks recv clock nsocks b call b')
    (hroom : b'.recvd.length ≤ recvBatchSize) :
    ∃ steps, Run (StepOf (Pair.next cfg)) (filling clock c b) steps (filling clock c b') := by
  have hle : clock b.socks ≤ clock b'.socks := by
    have := hclock call.sock b.socks
    rwa [hasks.socks] at this
  have htick : StepOf (Pair.next cfg) (filling clock c b) (.tick (clock b'.socks))
      { filling clock c b with clock := clock b'.socks } :=
    if_pos ⟨hle, hmax _⟩
  have hrecvd := hasks.recvd
  rw [RecvCall.received] at hrecvd
  split at hrecvd
  · rename_i byte bytes _
    have hlen : b.recvd.length < recvBatchSize := by
      rw [hrecvd, List.length_append, List.length_singleton] at hroom
      exact hroom
    have hpacket : StepOf (Pair.next cfg) { filling clock c b with clock := clock b'.socks }
        (.receiver (.packet call.sock (byte :: bytes))) (filling clock c b') := by
      simp only [StepOf, Pair.next, Pair.nextReceiver, filling, Pair.recvAt]
      rw [if_pos ⟨hlen, List.cons_ne_nil _ _⟩, hrecvd]
    exact ⟨_, Run.cons htick (Run.cons hpacket (Run.nil _))⟩
  · rw [List.append_nil] at hrecvd
    have hsame : { filling clock c b with clock := clock b'.socks } = filling clock c b' := by
      rw [filling, filling, hrecvd]
    rw [hsame] at htick
    exact ⟨_, Run.cons htick (Run.nil _)⟩

theorem run_of_calls {cfg : Config} {c : Pair} {b b' : Batch σ} {calls : List RecvCall}
    (hclock : ∀ sock socks, clock socks ≤ clock (recv sock socks).2)
    (hmax : ∀ socks, clock socks < uint64Max)
    (hrun : Run (Batch.Asks recv clock nsocks) b calls b')
    (hroom : b'.recvd.length ≤ recvBatchSize) :
    ∃ steps, Run (StepOf (Pair.next cfg)) (filling clock c b) steps (filling clock c b') := by
  induction hrun with
  | nil b => exact ⟨[], Run.nil _⟩
  | cons hasks hrest ih =>
      have hlater := length_recvd_of_run hrest
      obtain ⟨steps, hsteps⟩ := run_of_asks hclock hmax hasks (by omega)
      obtain ⟨rest, hrest⟩ := ih hroom
      exact ⟨steps ++ rest, hsteps.append hrest⟩

/-- **The two loops are steps of the thread's receiver**: from where `do_recv` starts a batch,
the steps `packet` of `Thread.Model` lead to the batch that the code fills. -/
theorem recvBatch_refines {cfg : Config} {c : Pair} {socks : σ} (hn : nsocks ≤ maxSockets)
    (hclock : ∀ sock socks, clock socks ≤ clock (recv sock socks).2)
    (hmax : ∀ socks, clock socks < uint64Max) (hat : c.receiver = .recv [])
    (hle : c.clock ≤ clock socks) (lastSocket : Nat) :
    let b := recvBatch recv clock nsocks socks lastSocket
    ∃ steps, Run (StepOf (Pair.next cfg)) c steps
      { c with receiver := .lock b.recvd, clock := clock b.socks } := by
  intro b
  obtain ⟨hrun, hroom, -⟩ := recvBatch_spec recv clock hn socks lastSocket
  have hstart : StepOf (Pair.next cfg) c (.tick (clock socks))
      (filling clock c (Batch.start socks lastSocket)) := by
    have hc : filling clock c (Batch.start socks lastSocket) = { c with clock := clock socks } := by
      rw [filling, Batch.start, ← hat]
    rw [hc]
    exact if_pos ⟨hle, hmax _⟩
  have hend : StepOf (Pair.next cfg) (filling clock c b) (.receiver .batch)
      { c with receiver := .lock b.recvd, clock := clock b.socks } := rfl
  obtain ⟨steps, hsteps⟩ := run_of_calls hclock hmax hrun hroom
  exact ⟨_, Run.cons hstart (hsteps.append (Run.cons hend (Run.nil _)))⟩

theorem recvBatch_refines_udp :
    let c := { Pair.start 1000 with receiver := .recv [] }
    let b := recvBatch perfUdpRecv (fun _ => 2000) 3 threeUdpSocks 0
    b.recvd.length = 16 ∧ ∃ steps, Run (StepOf (Pair.next ⟨5, 9, 1, 0, 3⟩)) c steps
      { c with receiver := .lock b.recvd, clock := 2000 } :=
  ⟨by decide +kernel, recvBatch_refines (by decide) (fun _ _ => Nat.le_refl _)
    (fun _ => by decide) rfl (by decide) 0⟩

end Batches

end Dnsperf.Thread
