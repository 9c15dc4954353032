import Dnsperf.Lib.Framing
import Dnsperf.Lib.Run

/-!
# Dnsperf.Net.Stream

The receive buffer of the stream transports. `perf__tcp_recv` and `perf__dot_recv`
differ in how they read, and end with the same code: take the frame at the front of
`recvbuf`, move the rest down, and note in `have_more` whether another whole frame
is there. `RecvBuf` is that buffer and `RecvBuf.next` that code.

`Session` is a connection with its history, and `Session.Exact` what the history has
to say about the buffer. `RecvBuf.Calls` lists what a receive call may do to the
buffer; every such call keeps `Exact` (`exact_of_calls`), so each transport only has
to show that its calls are of that form.
-/

namespace Dnsperf.Net

open Dnsperf.Lib

/-- The values of `errno` the transports look at. -/
inductive Errno
  | eagain
  | ebadf
  | econnrefused
  | econnreset
  | einprogress
  | enotconn
  | epipe
  | other (code : Nat)
  deriving Repr, DecidableEq

/-- The 16-bit length a buffer starts with. -/
def dnslen (buf : Bytes) : Nat := ofBe16 (buf.getD 0 0) (buf.getD 1 0)

/-- `TCP_RECV_BUF_SIZE`. -/
def tcpRecvBufSize : Nat := 65535 + 2

/-- The receive buffer of a stream socket. -/
structure RecvBuf where
  /-- `recvbuf[0 .. at)`. -/
  recvbuf : Bytes
  haveMore : Bool
  at_le : recvbuf.length ≤ tcpRecvBufSize
  deriving DecidableEq

/-- What a receive call returns. -/
inductive RecvRet
  /-- `0`: the peer closed the connection. -/
  | closed
  /-- `-1` with `errno`. -/
  | error (errno : Errno)
  /-- `dnslen`, with the bytes stored into the caller's buffer. -/
  | packet (dnslen : Nat) (buf : Bytes)
  deriving Repr, DecidableEq

namespace RecvBuf

/-- The buffer of a new connection. -/
def empty : RecvBuf := ⟨[], false, Nat.zero_le _⟩

/-- The length passed to `recv` or `SSL_read`. -/
def space (r : RecvBuf) : Nat := tcpRecvBufSize - r.recvbuf.length

/-- `at += n`, for bytes read into the space left. -/
def add (r : RecvBuf) (bytes : Bytes) : RecvBuf :=
  { r with
    recvbuf := r.recvbuf ++ bytes.take r.space
    at_le := by
      have := r.at_le
      simp only [space, List.length_append, List.length_take]
      omega }

/-- The end of a receive call with a buffer of `len` bytes: the frame at the front,
or `EAGAIN` if it is not complete. -/
def next (r : RecvBuf) (len : Nat) : RecvRet × RecvBuf :=
  let n := dnslen r.recvbuf
  if r.recvbuf.length < n + 2 then (.error .eagain, r)
  else
    let rest := r.recvbuf.drop (2 + n)
    (.packet n ((r.recvbuf.drop 2).take (min len n)),
      { recvbuf := rest
        haveMore := 2 < rest.length && dnslen rest + 2 ≤ rest.length
        at_le := le_trans (by simp [rest]) r.at_le })

/-- A receive call from the moment it has read `bytes`. -/
def read (r : RecvBuf) (bytes : Bytes) (len : Nat) : RecvRet × RecvBuf :=
  let r := r.add bytes
  if r.recvbuf.length < 3 then (.error .eagain, r) else r.next len

/-- What a receive call may do to the buffer: take the next frame without reading;
read some bytes into the space there is, and go on from there; or neither. -/
inductive Calls (r : RecvBuf) (len : Nat) : RecvRet → Bytes → RecvBuf → Prop
  | more {ret : RecvRet} {r' : RecvBuf} :
      r.haveMore = true → r.next len = (ret, r') → Calls r len ret [] r'
  | read {bytes : Bytes} {ret : RecvRet} {r' : RecvBuf} :
      r.haveMore = false → bytes ≠ [] → bytes.length ≤ r.space → r.read bytes len = (ret, r') →
      Calls r len ret bytes r'
  | idle {ret : RecvRet} : r.haveMore = false → (∀ n b, ret ≠ .packet n b) → Calls r len ret [] r

/-! ### The buffer and its frames -/

variable {r : RecvBuf}

/-- The test the code makes is that there is a complete frame. -/
theorem length_lt_dnslen_iff {buf : Bytes} (h : 2 ≤ buf.length) :
    buf.length < dnslen buf + 2 ↔ nextFrame? buf = none := by
  match buf, h with
  | hi :: lo :: rest, _ =>
      simp only [dnslen, List.getD_cons_zero, List.getD_cons_succ, List.length_cons, nextFrame?]
      split
      · simp only [reduceCtorEq, iff_false]
        omega
      · simp only [iff_true]
        omega

theorem next_of_some (len : Nat) {p rest : Bytes} (h : nextFrame? r.recvbuf = some (p, rest)) :
    ∃ r', r.next len = (.packet p.length (p.take len), r') ∧ r'.recvbuf = rest ∧
      r'.haveMore = (2 < rest.length && dnslen rest + 2 ≤ rest.length) := by
  obtain ⟨hbuf, hp⟩ := nextFrame?_eq_some.mp h
  have hn : dnslen r.recvbuf = p.length := by
    simp only [maxPayload] at hp
    rw [hbuf]
    simp only [dnslen, frame, be16, List.cons_append, List.getD_cons_zero, List.getD_cons_succ,
      ofBe16_ofNat]
    omega
  have hlen : ¬ r.recvbuf.length < p.length + 2 := by
    rw [hbuf, List.length_append, frame_length]
    omega
  have hpayload : (r.recvbuf.drop 2).take (min len p.length) = p.take len := by
    rw [hbuf]
    show ((p ++ rest).take (min len p.length)) = p.take len
    rw [List.take_append_of_le_length (Nat.min_le_right _ _)]
    by_cases hle : len ≤ p.length
    · rw [Nat.min_eq_left hle]
    · rw [Nat.min_eq_right (by omega), List.take_length, List.take_of_length_le (by omega)]
  have hdrop : r.recvbuf.drop (2 + p.length) = rest := by
    rw [hbuf, show 2 + p.length = (frame p).length by rw [frame_length]; omega, List.drop_left]
  refine ⟨(r.next len).2, ?_, ?_, ?_⟩
  · simp only [next, hn, if_neg hlen, hpayload]
  · simp only [next, hn, if_neg hlen, hdrop]
  · simp only [next, hn, if_neg hlen, hdrop]

theorem next_of_none (len : Nat) (h2 : 2 ≤ r.recvbuf.length) (h : nextFrame? r.recvbuf = none) :
    r.next len = (.error .eagain, r) := by
  simp only [next, if_pos ((length_lt_dnslen_iff h2).mpr h)]

theorem add_recvbuf {bytes : Bytes} (h : bytes.length ≤ r.space) :
    (r.add bytes).recvbuf = r.recvbuf ++ bytes := by
  simp only [add, List.take_of_length_le h]

theorem length_next_le (len : Nat) : (r.next len).2.recvbuf.length ≤ r.recvbuf.length := by
  unfold next
  dsimp only
  split_ifs
  · exact Nat.le_refl _
  · rw [List.length_drop]
    exact Nat.sub_le _ _

theorem Calls.length_le {len : Nat} {ret : RecvRet} {bytes : Bytes} {r' : RecvBuf}
    (h : r.Calls len ret bytes r') : r'.recvbuf.length ≤ r.recvbuf.length + bytes.length := by
  cases h with
  | more hmore hnext =>
      have hle := length_next_le (r := r) len
      rwa [hnext] at hle
  | read hmore hne hspace hread =>
      have hadd : (r.add bytes).recvbuf.length = r.recvbuf.length + bytes.length := by
        rw [add_recvbuf hspace, List.length_append]
      have hle := length_next_le (r := r.add bytes) len
      rw [RecvBuf.read] at hread
      split_ifs at hread with hshort
      · rw [← (Prod.mk.inj hread).2, hadd]
      · rw [hread, hadd] at hle
        exact hle
  | idle hmore hret => exact Nat.le_add_right _ _

end RecvBuf

/-! ### A connection and its history -/

/-- A packet a receive call returned: the length of the caller's buffer, the value
returned and the bytes stored. -/
structure Packet where
  len : Nat
  dnslen : Nat
  buf : Bytes
  deriving DecidableEq

/-- The packet is the payload `p`, cut to the caller's buffer. -/
def Packet.Holds (k : Packet) (p : Bytes) : Prop := k.dnslen = p.length ∧ k.buf = p.take k.len

/-- The packet of a receive call, if it returned one. -/
def RecvRet.packets (len : Nat) : RecvRet → List Packet
  | .packet dnslen buf => [⟨len, dnslen, buf⟩]
  | _ => []

/-- A connection with what was read from it and returned so far, and the last call:
the bytes it read and what it returned. -/
structure Session (Sock : Type) where
  sock : Sock
  received : Bytes
  packets : List Packet
  last : Option (Bytes × RecvRet)

namespace Session

variable {Sock : Type} (recv : Sock → RecvBuf)

/-- A connection before its first receive call. -/
def start (sock : Sock) : Session Sock := ⟨sock, [], [], none⟩

/-- The session after a call that read `read` and returned `ret`. -/
def after (c : Session Sock) (read : Bytes) (len : Nat) (ret : RecvRet) (sock : Sock) :
    Session Sock :=
  ⟨sock, c.received ++ read, c.packets ++ ret.packets len, some (read, ret)⟩

@[simp] theorem after_sock (c : Session Sock) (read : Bytes) (len : Nat) (ret : RecvRet)
    (sock : Sock) : (c.after read len ret sock).sock = sock := rfl

@[simp] theorem after_received (c : Session Sock) (read : Bytes) (len : Nat) (ret : RecvRet)
    (sock : Sock) : (c.after read len ret sock).received = c.received ++ read := rfl

@[simp] theorem after_packets (c : Session Sock) (read : Bytes) (len : Nat) (ret : RecvRet)
    (sock : Sock) : (c.after read len ret sock).packets = c.packets ++ ret.packets len := rfl

@[simp] theorem after_last (c : Session Sock) (read : Bytes) (len : Nat) (ret : RecvRet)
    (sock : Sock) : (c.after read len ret sock).last = some (read, ret) := rfl

/-- The last call returned a frame. -/
def LastPacket (c : Session Sock) : Prop :=
  ∃ read dnslen buf, c.last = some (read, .packet dnslen buf)

/-- **Exact deframing**: the bytes received are the frames returned, in order and
each once, and then the buffer; and the flag and the room left are what the reader
relies on. -/
structure Exact (c : Session Sock) : Prop where
  bytes : ∃ ps, c.received = frames ps ++ (recv c.sock).recvbuf ∧
    (∀ p ∈ ps, p.length ≤ maxPayload) ∧ List.Forall₂ Packet.Holds c.packets ps
  haveMore : (recv c.sock).haveMore = true ↔
    nextFrame? (recv c.sock).recvbuf ≠ none ∧ 3 ≤ (recv c.sock).recvbuf.length ∧ c.LastPacket
  eagain : ∀ read, c.last = some (read, .error .eagain) → read ≠ [] →
    ∀ p r, nextFrame? (recv c.sock).recvbuf = some (p, r) → p = []
  room : (recv c.sock).haveMore = false → (recv c.sock).recvbuf.length < tcpRecvBufSize

variable {recv} {c c' : Session Sock} {len : Nat}

theorem exact_start {sock : Sock} (h : recv sock = RecvBuf.empty) : Exact recv (start sock) where
  bytes := ⟨[], by simp [start, h, RecvBuf.empty], by simp, List.Forall₂.nil⟩
  haveMore := by simp [start, h, RecvBuf.empty, LastPacket]
  eagain := by simp [start]
  room := by simp [start, h, RecvBuf.empty, tcpRecvBufSize]

/-- A call that returns the frame at the front and leaves the rest. -/
theorem exact_packet {r' : RecvBuf} {read p rest : Bytes} {ps : List Bytes} {sock : Sock}
    (hbytes : c.received ++ read = frames ps ++ (frame p ++ rest))
    (hps : ∀ q ∈ ps, q.length ≤ maxPayload) (hp : p.length ≤ maxPayload)
    (hpackets : List.Forall₂ Packet.Holds c.packets ps) (hr : r'.recvbuf = rest)
    (hmore : r'.haveMore = (2 < rest.length && dnslen rest + 2 ≤ rest.length))
    (hsock : recv sock = r') :
    Exact recv (c.after read len (.packet p.length (p.take len)) sock) where
  bytes := by
    refine ⟨ps ++ [p], ?_, ?_, ?_⟩
    · rw [after_received, after_sock, hbytes, frames_concat, hsock, hr, List.append_assoc]
    · intro q hq
      rcases List.mem_append.mp hq with hq | hq
      · exact hps q hq
      · rw [List.mem_singleton.mp hq]
        exact hp
    · exact List.rel_append hpackets (List.Forall₂.cons ⟨rfl, rfl⟩ List.Forall₂.nil)
  haveMore := by
    rw [after_sock, hsock, hr, hmore, Bool.and_eq_true, decide_eq_true_eq, decide_eq_true_eq]
    constructor
    · rintro ⟨h2, hle⟩
      refine ⟨fun hnone => ?_, h2, read, _, _, rfl⟩
      have := (RecvBuf.length_lt_dnslen_iff (by omega)).mpr hnone
      omega
    · rintro ⟨hsome, h3, -⟩
      refine ⟨h3, Nat.not_lt.mp fun hlt => hsome ?_⟩
      exact (RecvBuf.length_lt_dnslen_iff (by omega)).mp hlt
  eagain := by simp
  room := by
    rw [after_sock, hsock, hr, hmore]
    have hlt : dnslen rest < 65536 := ofBe16_lt _ _
    rw [Bool.and_eq_false_iff, decide_eq_false_iff_not, decide_eq_false_iff_not]
    simp only [tcpRecvBufSize]
    omega

theorem exact_no_packet {r' : RecvBuf} {read : Bytes} {ret : RecvRet} {sock : Sock}
    (hexact : Exact recv c) (hret : ∀ n b, ret ≠ .packet n b) (hmore : r'.haveMore = false)
    (hr : r'.recvbuf = (recv c.sock).recvbuf ++ read) (hroom : r'.recvbuf.length < tcpRecvBufSize)
    (hnone : read ≠ [] → ∀ p rest, nextFrame? r'.recvbuf = some (p, rest) → p = [])
    (hsock : recv sock = r') : Exact recv (c.after read len ret sock) where
  bytes := by
    obtain ⟨ps, hbytes, hps, hpackets⟩ := hexact.bytes
    have hnil : ret.packets len = [] := by
      cases ret with
      | packet n b => exact absurd rfl (hret n b)
      | closed => rfl
      | error e => rfl
    refine ⟨ps, ?_, hps, by rw [after_packets, hnil, List.append_nil]; exact hpackets⟩
    rw [after_received, after_sock, hsock, hr, hbytes, List.append_assoc]
  haveMore := by
    rw [after_sock, hsock, hmore]
    refine ⟨fun h => absurd h (by decide), ?_⟩
    rintro ⟨-, -, read', n, b, hlast⟩
    rw [after_last] at hlast
    exact absurd (Prod.mk.inj (Option.some.inj hlast)).2 (hret n b)
  eagain := by
    intro read' hlast hne p rest hnext
    obtain ⟨rfl, -⟩ := Prod.mk.inj (Option.some.inj hlast)
    rw [after_sock, hsock] at hnext
    exact hnone hne p rest hnext
  room := by
    rw [after_sock, hsock]
    exact fun _ => hroom

/-- **Every receive call keeps deframing exact.** -/
theorem exact_of_calls {ret : RecvRet} {read : Bytes} {sock : Sock} (hexact : Exact recv c)
    (hcall : (recv c.sock).Calls len ret read (recv sock)) :
    Exact recv (c.after read len ret sock) := by
  obtain ⟨ps, hbytes, hps, hpackets⟩ := hexact.bytes
  generalize hr' : recv sock = r' at hcall
  cases hcall with
  | more hmore hnext =>
      -- `have_more` promised a complete frame
      obtain ⟨hsome, -, -⟩ := hexact.haveMore.mp hmore
      obtain ⟨⟨p, rest⟩, hframe⟩ := Option.ne_none_iff_exists'.mp hsome
      obtain ⟨r', hnext', hr, hmore'⟩ := RecvBuf.next_of_some len hframe
      obtain ⟨rfl, rfl⟩ := Prod.mk.inj (hnext'.symm.trans hnext)
      obtain ⟨hbuf, hp⟩ := nextFrame?_eq_some.mp hframe
      exact exact_packet (by rw [List.append_nil, hbytes, hbuf]) hps hp hpackets hr hmore' hr'
  | read hmore hne hlen hread =>
      have hadd := RecvBuf.add_recvbuf hlen
      have hmore₁ : ((recv c.sock).add read).haveMore = false := hmore
      unfold RecvBuf.read at hread
      simp only at hread
      split at hread
      · -- too short to look at
        rename_i hshort
        obtain ⟨rfl, rfl⟩ := Prod.mk.inj hread
        refine exact_no_packet hexact (by simp) hmore₁ hadd (by simp only [tcpRecvBufSize]; omega)
          ?_ hr'
        intro _ p rest hframe
        obtain ⟨hbuf, -⟩ := nextFrame?_eq_some.mp hframe
        rw [hbuf, List.length_append, frame_length] at hshort
        exact List.length_eq_zero_iff.mp (by omega)
      · rename_i hlong
        cases hframe : nextFrame? ((recv c.sock).add read).recvbuf with
        | none =>
            rw [RecvBuf.next_of_none len (by omega) hframe] at hread
            obtain ⟨rfl, rfl⟩ := Prod.mk.inj hread
            refine exact_no_packet hexact (by simp) hmore₁ hadd
              (length_lt_of_nextFrame?_eq_none hframe) ?_ hr'
            intro _ p rest hsome
            rw [hframe] at hsome
            exact absurd hsome (by simp)
        | some pr =>
            obtain ⟨p, rest⟩ := pr
            obtain ⟨r', hnext', hr, hmore'⟩ := RecvBuf.next_of_some len hframe
            obtain ⟨rfl, rfl⟩ := Prod.mk.inj (hnext'.symm.trans hread)
            obtain ⟨hbuf, hp⟩ := nextFrame?_eq_some.mp hframe
            refine exact_packet ?_ hps hp hpackets hr hmore' hr'
            rw [hbytes, List.append_assoc, ← hadd, hbuf]
  | idle hmore hret =>
      exact exact_no_packet hexact hret hmore (by simp) (hexact.room hmore) (by simp) hr'

end Session

end Dnsperf.Net
