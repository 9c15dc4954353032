import Dnsperf.Dns.Edns
import Dnsperf.Net.DohClose

/-!
# Dnsperf.Net.DohPost

**The bodies of POST requests.** A socket has one buffer for the body of a request,
`http2.payload`, and every request of the session has it as its data source:
`_payload_read_cb` returns the next bytes of the buffer whatever stream it is called for. A
query sent while the body of the one before is still being read would be mixed up with it.

`DohPost` is the session together with the buffer and with what has been read for each
request. The reads are nghttp2's: which stream, when, and how many bytes at most. What keeps
the bodies apart are the flags of the socket: `is_post_sending` until the buffer has been read,
`is_sending` as long as that one is set, and a `perf__doh_sockready` that does not return 1 until
both are clear.
-/

namespace Dnsperf.Net

open Dnsperf.Lib Dnsperf.Dns

/-! ### The data source -/

/-- `http2_data_provider_t`: `bufp[0 .. len)`, which is still to be read, in a buffer of
`buf_len` bytes. -/
structure Http2DataProvider where
  rest : Bytes
  bufLen : Nat
  rest_le : rest.length ≤ bufLen

namespace Http2DataProvider

/-- The buffer of a new socket. -/
def empty : Http2DataProvider := ⟨[], maxEdnsPacket, Nat.zero_le _⟩

/-- The buffer as `_submit_dns_query_post` fills it: made larger if need be, and the
message copied to its start. -/
def fill (p : Http2DataProvider) (buf : Bytes) : Http2DataProvider where
  rest := buf
  bufLen := if p.bufLen < buf.length then (buf.length / maxEdnsPacket + 1) * maxEdnsPacket
    else p.bufLen
  rest_le := by
    split_ifs with h
    · have hpos : 0 < maxEdnsPacket := by decide
      exact (Nat.lt_mul_of_div_lt (Nat.lt_succ_self _) hpos).le
    · exact not_lt.mp h

/-- `_payload_read_cb`: the bytes returned, what is left, and whether
`NGHTTP2_DATA_FLAG_EOF` is set. -/
def payloadReadCb (p : Http2DataProvider) (length : Nat) : Bytes × Http2DataProvider × Bool :=
  let payloadSize := if length < p.rest.length then length else p.rest.length
  (p.rest.take payloadSize,
    ⟨p.rest.drop payloadSize, p.bufLen, by
      rw [List.length_drop]
      exact (Nat.sub_le _ _).trans p.rest_le⟩,
    decide (p.rest.length - payloadSize = 0))

/-- The bytes returned are those that are no longer left. -/
theorem payloadReadCb_append (p : Http2DataProvider) (length : Nat) :
    (p.payloadReadCb length).1 ++ (p.payloadReadCb length).2.1.rest = p.rest :=
  List.take_append_drop ..

theorem payloadReadCb_eof {p : Http2DataProvider} {length : Nat}
    (h : (p.payloadReadCb length).2.2 = true) : (p.payloadReadCb length).2.1.rest = [] := by
  have hlen := of_decide_eq_true h
  refine List.eq_nil_of_length_eq_zero ?_
  exact List.length_drop.trans hlen

end Http2DataProvider

/-- A POST request of the present session: the message, what has been read for it, and
whether it has been told that this is all. -/
structure PostStream where
  message : Bytes
  body : Bytes
  eof : Bool
  deriving DecidableEq

/-- The buffer, and the requests of the session in the order in which they were submitted. -/
structure PostBodies where
  payload : Http2DataProvider
  streams : List PostStream

/-- A call of the read callback: the number of the stream, and `length`. -/
structure PayloadRead where
  stream : Nat
  length : Nat

namespace PostBodies

variable (b : PostBodies)

/-- `_submit_dns_query_post`. -/
def submitDnsQueryPost (buf : Bytes) : PostBodies :=
  ⟨b.payload.fill buf, b.streams ++ [⟨buf, [], false⟩]⟩

/-- `nghttp2_session_del`. -/
def sessionDel : PostBodies := { b with streams := [] }

/-- A read for a stream, and whether it was the last one. -/
def read (r : PayloadRead) : PostBodies × Bool :=
  let (bytes, payload, eof) := b.payload.payloadReadCb r.length
  (⟨payload, b.streams.modify r.stream fun st => ⟨st.message, st.body ++ bytes, eof⟩⟩, eof)

/-- The reads that one `nghttp2_session_send` makes, and whether the end was among them, so
that `is_post_sending` is cleared. -/
def reads : PostBodies → List PayloadRead → PostBodies × Bool
  | b, [] => (b, false)
  | b, r :: rs => ((reads (b.read r).1 rs).1, (b.read r).2 || (reads (b.read r).1 rs).2)

/-- A stream whose body has not been read to its end. -/
def IsOpen (i : Nat) : Prop := (b.streams[i]?).any (fun st => !st.eof) = true

/-- What nghttp2 promises: a body is read until `EOF`, and no longer. -/
def Readable : PostBodies → List PayloadRead → Prop
  | _, [] => True
  | b, r :: rs => b.IsOpen r.stream ∧ Readable (b.read r).1 rs

instance (i : Nat) : Decidable (b.IsOpen i) := inferInstanceAs (Decidable (_ = true))

instance decidableReadable : ∀ (b : PostBodies) (rs : List PayloadRead), Decidable (b.Readable rs)
  | _, [] => inferInstanceAs (Decidable True)
  | b, r :: rs => @instDecidableAnd _ _ _ (decidableReadable (b.read r).1 rs)

/-- What has been read for a request is the start of its own message, and all of it at
`EOF`. -/
def Intact : Prop :=
  ∀ st ∈ b.streams, st.body <+: st.message ∧ (st.eof = true → st.body = st.message)

/-- The only body that may still be read is that of the last request, and the buffer has
what is missing; `post` is `is_post_sending`. -/
def Pending (post : Bool) : Prop :=
  ∀ i st, b.streams[i]? = some st → st.eof = false →
    post = true ∧ i + 1 = b.streams.length ∧ st.body ++ b.payload.rest = st.message

variable {b}

theorem isOpen_iff {i : Nat} : b.IsOpen i ↔ ∃ st, b.streams[i]? = some st ∧ st.eof = false := by
  unfold IsOpen
  cases b.streams[i]? <;> simp

theorem read_getElem? {r : PayloadRead} {i : Nat} {st : PostStream}
    (h : (b.read r).1.streams[i]? = some st) :
    ∃ st₀, b.streams[i]? = some st₀ ∧ st = if r.stream = i then
      ⟨st₀.message, st₀.body ++ (b.payload.payloadReadCb r.length).1,
        (b.payload.payloadReadCb r.length).2.2⟩ else st₀ := by
  change (b.streams.modify r.stream _)[i]? = some st at h
  rw [List.getElem?_modify] at h
  obtain ⟨st₀, hst₀, hst⟩ := Option.map_eq_some_iff.mp h
  exact ⟨st₀, hst₀, hst.symm⟩

theorem Intact.read {r : PayloadRead} {post : Bool} (h : b.Intact) (hpending : b.Pending post)
    (hopen : b.IsOpen r.stream) : (b.read r).1.Intact := by
  intro st hst
  obtain ⟨i, hi⟩ := List.mem_iff_getElem?.mp hst
  obtain ⟨st₀, hst₀, rfl⟩ := read_getElem? hi
  split_ifs with hr
  · subst hr
    obtain ⟨st₁, hst₁, heof⟩ := isOpen_iff.mp hopen
    obtain rfl := Option.some.inj (hst₀.symm.trans hst₁)
    obtain ⟨-, -, hmessage⟩ := hpending _ _ hst₀ heof
    have happend := b.payload.payloadReadCb_append r.length
    refine ⟨⟨(b.payload.payloadReadCb r.length).2.1.rest, ?_⟩, fun hend => ?_⟩
    · rw [List.append_assoc, happend, hmessage]
    · rw [Http2DataProvider.payloadReadCb_eof hend, List.append_nil] at happend
      exact (congrArg _ happend).trans hmessage
  · exact h st₀ (List.mem_of_getElem? hst₀)

theorem Pending.read {r : PayloadRead} {post : Bool} (h : b.Pending post)
    (hopen : b.IsOpen r.stream) : (b.read r).1.Pending (post && !(b.read r).2) := by
  intro i st hi heof
  obtain ⟨st₀, hst₀, rfl⟩ := read_getElem? hi
  obtain ⟨st₁, hst₁, heof₁⟩ := isOpen_iff.mp hopen
  obtain ⟨hpost, hlast, hmessage⟩ := h _ _ hst₁ heof₁
  have hlen : (b.read r).1.streams.length = b.streams.length := List.length_modify ..
  by_cases hr : r.stream = i
  · subst hr
    obtain rfl := Option.some.inj (hst₀.symm.trans hst₁)
    rw [if_pos rfl] at heof ⊢
    refine ⟨?_, hlast.trans hlen.symm, ?_⟩
    · rw [hpost, Bool.true_and]
      exact congrArg (!·) heof
    · exact (List.append_assoc ..).trans
        ((congrArg _ (b.payload.payloadReadCb_append _)).trans hmessage)
  · -- only one of them may be open
    rw [if_neg hr] at heof
    obtain ⟨-, hlast', -⟩ := h _ _ hst₀ heof
    omega

/-- **The reads of one `nghttp2_session_send`.** -/
theorem reads_spec {rs : List PayloadRead} {post : Bool} (hintact : b.Intact)
    (hpending : b.Pending post) (hrs : b.Readable rs) :
    (b.reads rs).1.Intact ∧ (b.reads rs).1.Pending (post && !(b.reads rs).2) := by
  induction rs generalizing b post with
  | nil => exact ⟨hintact, by simpa [reads] using hpending⟩
  | cons r rs ih =>
      obtain ⟨hopen, hrs⟩ := hrs
      have hread := ih (hintact.read hpending hopen) (hpending.read hopen) hrs
      simp only [reads, Bool.not_or, ← Bool.and_assoc]
      exact hread

/-- A new request, once the bodies of the others have been read. -/
theorem submitDnsQueryPost_spec (hintact : b.Intact) (hpending : b.Pending false) (buf : Bytes) :
    (b.submitDnsQueryPost buf).Intact ∧ (b.submitDnsQueryPost buf).Pending true := by
  constructor
  · intro st hst
    rcases List.mem_append.mp hst with hst | hst
    · exact hintact st hst
    · obtain rfl := List.mem_singleton.mp hst
      exact ⟨List.nil_prefix, fun h => by cases h⟩
  · intro i st hi heof
    have hlen : (b.submitDnsQueryPost buf).streams.length = b.streams.length + 1 :=
      List.length_append
    rcases lt_or_ge i b.streams.length with hlt | hge
    · have hi' : b.streams[i]? = some st := (List.getElem?_append_left hlt).symm.trans hi
      exact absurd (hpending i st hi' heof).1 (by decide)
    · have hi' : [(⟨buf, [], false⟩ : PostStream)][i - b.streams.length]? = some st :=
        (List.getElem?_append_right hge).symm.trans hi
      rw [List.getElem?_singleton] at hi'
      split_ifs at hi' with hzero
      obtain rfl := Option.some.inj hi'
      exact ⟨rfl, by omega, rfl⟩

theorem intact_of_nil (h : b.streams = []) : b.Intact := by
  intro st hst
  simp [h] at hst

theorem pending_of_nil (h : b.streams = []) {post : Bool} : b.Pending post := by
  intro i st hst
  simp [h] at hst

end PostBodies

/-! ### The flags -/

namespace PerfDohSocket

/-- What the flags say about each other. After a `perf__doh_sockready` that returned 1
(`granted`), a socket that is ready has nothing left to send. -/
structure Ordered (s : PerfDohSocket) (granted : Prop) : Prop where
  waits : s.Waits
  post : s.isPostSending = true → s.isSending = true ∨ s.doReconnect = true
  sending : s.isSending = true → s.isReady = true ∨ s.doReconnect = true
  granted : granted → s.isReady = true → s.isSending = false ∧ s.isPostSending = false

variable {s : PerfDohSocket}

/-- The connection is closed, or it is the same one and `is_post_sending` is `post`. -/
def Keeps (s s' : PerfDohSocket) (post : Bool) : Prop :=
  s'.doConnect = true ∨ s'.doConnect = s.doConnect ∧ s'.isPostSending = post

theorem Keeps.of_connected {s' : PerfDohSocket} {post : Bool} (h : s.Keeps s' post)
    (hconnect : s'.doConnect = false) : s.doConnect = false ∧ s'.isPostSending = post := by
  rcases h with hclosed | ⟨hsame, hpost⟩
  · exact absurd (hclosed.symm.trans hconnect) (by decide)
  · exact ⟨hsame.symm.trans hconnect, hpost⟩

/-- After `perf__doh_reconnect` no flag is set that says that something is being sent. -/
theorem Ordered.of_closed {granted : Prop} (hready : s.isReady = false)
    (hsending : s.isSending = false) (hpost : s.isPostSending = false) : s.Ordered granted where
  waits _ := hready
  post h := absurd (hpost.symm.trans h) (by decide)
  sending h := absurd (hsending.symm.trans h) (by decide)
  granted _ h := absurd (hready.symm.trans h) (by decide)

theorem Ordered.of_idle {granted : Prop} (hconnect : s.doConnect = false)
    (hsending : s.isSending = false) (hpost : s.isPostSending = false) : s.Ordered granted where
  waits h := absurd (hconnect.symm.trans h) (by decide)
  post h := absurd (hpost.symm.trans h) (by decide)
  sending h := absurd (hsending.symm.trans h) (by decide)
  granted _ _ := ⟨hsending, hpost⟩

/-- A socket that has nothing to send, whatever the check of `num_queries_per_conn` says. -/
theorem checkQueries_flags {granted : Prop} (sent : Bool) (os : OsSockready)
    (hconnect : s.doConnect = false) (hsending : s.isSending = false)
    (hpost : s.isPostSending = false) :
    (s.checkQueries sent os).2.1.Ordered granted ∧ Keeps s (s.checkQueries sent os).2.1 false := by
  have hflags : (s.checkQueries sent os).2.1.isSending = s.isSending ∧
      (s.checkQueries sent os).2.1.isPostSending = s.isPostSending ∧
      (s.checkQueries sent os).2.1.doConnect = s.doConnect := by
    unfold checkQueries
    dsimp only
    split_ifs <;> exact ⟨rfl, rfl, rfl⟩
  obtain ⟨hsending', hpost', hconnect'⟩ := hflags
  rw [hsending] at hsending'
  rw [hpost] at hpost'
  exact ⟨.of_idle (hconnect'.trans hconnect) hsending' hpost', Or.inr ⟨hconnect', hpost'⟩⟩

theorem Waits.of_ready (h : s.Waits) (hready : s.isReady = true) : s.doConnect = false := by
  by_contra hne
  exact absurd (hready.symm.trans (h (by simpa using hne))) (by decide)

theorem readyBody_flags {os : OsSockready} {granted : Prop} (hs : s.Ordered granted)
    (hready : s.isReady = true) (hdo : s.doReconnect = false)
    (hsend : os.send.reconnected = true → os.send.ok = false) :
    (s.readyBody os).2.1.Ordered ((s.readyBody os).1 = 1) ∧
      Keeps s (s.readyBody os).2.1 (s.isPostSending && !os.send.payloadSent) := by
  have hconnect := hs.waits.of_ready hready
  have hpost := hs.post
  have hleft : (if os.send.payloadSent then false else s.isPostSending) =
      (s.isPostSending && !os.send.payloadSent) := by
    cases os.send.payloadSent <;> simp
  unfold readyBody sessionSend
  rw [hleft]
  cases hrec : os.send.reconnected with
  | true =>
      -- `_http2_send_cb` fails then, so this is given up
      simp only [hsend hrec, if_true, Bool.not_false]
      exact ⟨Ordered.of_closed rfl rfl rfl, Or.inl rfl⟩
  | false =>
      simp only [Bool.false_eq_true, if_false]
      split_ifs with hok hsending hwant
      · exact ⟨{
          waits := fun h => absurd (hconnect.symm.trans h) (by decide)
          post := fun _ => Or.inr rfl
          sending := fun _ => Or.inr rfl
          granted := fun h => absurd h (by simp [giveUp]) }, Or.inr ⟨rfl, rfl⟩⟩
      · exact ⟨{
          waits := hs.waits
          post := fun _ => Or.inl hsending
          sending := fun _ => Or.inl hready
          granted := fun h => absurd h (by simp) }, Or.inr ⟨rfl, rfl⟩⟩
      · have hdone : (s.isPostSending && !os.send.payloadSent) = false := by
          by_contra hne
          exact hwant (by simp [Bool.eq_true_of_not_eq_false hne])
        rw [hdone]
        exact checkQueries_flags true os hconnect rfl rfl
      · have hdone : s.isPostSending = false := by
          by_contra hne
          rcases hpost (by simpa using hne) with h | h
          · exact hsending h
          · exact absurd (hdo.symm.trans h) (by decide)
        rw [hdone]
        exact checkQueries_flags false os hconnect (by simpa using hsending) rfl

theorem settingsBody_sending (s : PerfDohSocket) (os : OsSockready) :
    (s.settingsBody os).2.1.isSending = s.isSending ∧
      (s.settingsBody os).2.1.isPostSending = s.isPostSending := by
  unfold settingsBody
  split_ifs <;> exact ⟨rfl, rfl⟩

theorem handshakeBody_sending (s : PerfDohSocket) (os : OsSockready) :
    (s.handshakeBody os).2.1.isSending = s.isSending ∧
      (s.handshakeBody os).2.1.isPostSending = s.isPostSending := by
  unfold handshakeBody
  by_cases hssl : (!s.isSslReady) = true
  · rw [if_pos hssl]
    split
    · exact ⟨rfl, rfl⟩
    · exact ⟨rfl, rfl⟩
    · exact ⟨rfl, rfl⟩
    · exact ⟨rfl, rfl⟩
    · split_ifs
      · exact ⟨rfl, rfl⟩
      · exact settingsBody_sending _ os
  · rw [if_neg hssl]
    exact settingsBody_sending s os

theorem connectBody_sending (s : PerfDohSocket) (os : OsSockready) :
    (s.connectBody os).2.1.isSending = s.isSending ∧
      (s.connectBody os).2.1.isPostSending = s.isPostSending := by
  unfold connectBody
  by_cases hconn : (!s.isConnReady) = true
  · rw [if_pos hconn]
    split
    · split_ifs <;> exact ⟨rfl, rfl⟩
    · exact handshakeBody_sending _ os
    · exact ⟨rfl, rfl⟩
  · rw [if_neg hconn]
    exact handshakeBody_sending s os

theorem connectBody_flags (granted : Prop) (os : OsSockready) (hconnect : s.doConnect = false)
    (hsending : s.isSending = false) (hpost : s.isPostSending = false) :
    (s.connectBody os).2.1.Ordered granted ∧ Keeps s (s.connectBody os).2.1 false := by
  obtain ⟨hsending', hpost'⟩ := connectBody_sending s os
  have hconnect' := (connectBody_conns s os).2
  rw [hsending] at hsending'
  rw [hpost] at hpost'
  exact ⟨.of_idle (hconnect'.trans hconnect) hsending' hpost', Or.inr ⟨hconnect', hpost'⟩⟩

/-- A socket that is not ready has nothing to send. -/
theorem Ordered.idle {granted : Prop} (hs : s.Ordered granted) (hready : s.isReady = false)
    (hdo : s.doReconnect = false) : s.isSending = false ∧ s.isPostSending = false := by
  have hsending : s.isSending = false := by
    by_contra hne
    rcases hs.sending (by simpa using hne) with h | h
    · exact absurd (hready.symm.trans h) (by decide)
    · exact absurd (hdo.symm.trans h) (by decide)
  refine ⟨hsending, ?_⟩
  by_contra hne
  rcases hs.post (by simpa using hne) with h | h
  · exact absurd (hsending.symm.trans h) (by decide)
  · exact absurd (hdo.symm.trans h) (by decide)

theorem readyHead_flags {granted : Prop} (os : OsSockready) (hs : s.Ordered granted)
    (hnew : (s.doReconnect || s.doConnect) = true) :
    (s.readyHead os).1.isReady = false ∧ (s.readyHead os).1.doConnect = false ∧
      (s.readyHead os).1.isSending = false ∧ (s.readyHead os).1.isPostSending = false := by
  unfold readyHead
  cases hrec : s.doReconnect with
  | true =>
      rw [if_pos rfl]
      exact ⟨rfl, rfl, rfl, rfl⟩
  | false =>
      have hdo : s.doConnect = true := by simpa [hrec] using hnew
      have hready := hs.waits hdo
      rw [if_neg (by decide)]
      dsimp only
      rw [if_pos hdo]
      exact ⟨hready, rfl, hs.idle hready hrec⟩

/-- **`perf__doh_sockready`**: the flags stay in order, and unless it makes another connection
`is_post_sending` is cleared only with the end of the payload. -/
theorem perfDohSockready_flags (os : OsSockready) {granted : Prop} (hs : s.Ordered granted)
    (hsend : os.send.reconnected = true → os.send.ok = false) :
    (s.perfDohSockready os).2.1.Ordered ((s.perfDohSockready os).1 = 1) ∧
      ((s.doReconnect || s.doConnect) = false →
        Keeps s (s.perfDohSockready os).2.1
          (s.isPostSending && !(s.isReady && os.send.payloadSent))) := by
  have hlock : s.lock.Ordered granted := ⟨hs.waits, hs.post, hs.sending, hs.granted⟩
  unfold perfDohSockready
  cases hnew : s.doReconnect || s.doConnect with
  | true =>
      obtain ⟨hready, hconnect, hsending, hpost⟩ := readyHead_flags os hlock hnew
      dsimp only
      rw [if_neg (by rw [hready]; decide)]
      exact ⟨(connectBody_flags _ os hconnect hsending hpost).1, fun h => absurd h (by decide)⟩
  | false =>
      obtain ⟨hdo, hconnect⟩ := Bool.or_eq_false_iff.mp hnew
      have hhead : s.lock.readyHead os = (s.lock, []) := by
        simp [readyHead, lock, hdo, hconnect]
      rw [hhead]
      dsimp only
      cases hready : s.isReady with
      | true =>
          rw [if_pos (show s.lock.isReady = true from hready), Bool.true_and]
          have hbody := readyBody_flags hlock hready hdo hsend
          exact ⟨hbody.1, fun _ => hbody.2⟩
      | false =>
          rw [if_neg (show ¬s.lock.isReady = true from by simp [lock, hready]), Bool.false_and]
          obtain ⟨hsending, hpost⟩ := hlock.idle hready hdo
          rw [show s.isPostSending = false from hpost]
          obtain ⟨hordered, hkeeps⟩ := connectBody_flags ((s.lock.connectBody os).1 = 1) os hconnect
            hsending hpost
          exact ⟨hordered, fun _ => hkeeps⟩

/-- **`perf__doh_sendto`**, when it is called for a socket that has nothing to send. -/
theorem perfDohSendto_flags {method : DohMethod} {qid : UInt16} {len : Nat} {os : OsSendto}
    {r : Except Errno Nat × PerfDohSocket × List NetEffect} (hs : s.Ordered True)
    (hsend : os.send.reconnected = true → os.send.ok = false)
    (h : s.perfDohSendto method qid len os = some r) :
    r.2.1.Ordered False ∧ Keeps s r.2.1
      (if s.isReady then decide (method = .post) && !os.send.payloadSent else s.isPostSending) := by
  unfold perfDohSendto at h
  dsimp only at h
  cases hready : s.isReady with
  | false =>
      rw [if_pos (show (!s.lock.isReady) = true by simp [lock, hready])] at h
      obtain rfl := Option.some.inj h
      exact ⟨⟨hs.waits, hs.post, hs.sending, False.elim⟩, Or.inr ⟨rfl, rfl⟩⟩
  | true =>
      obtain ⟨hsending, hpost⟩ := hs.granted trivial hready
      have hconnect := hs.waits.of_ready hready
      have hleft : (if os.send.payloadSent then false
          else if method = DohMethod.post then true else s.lock.isPostSending) =
            (decide (method = .post) && !os.send.payloadSent) := by
        cases os.send.payloadSent <;> cases method <;> simp [lock, hpost]
      rw [if_neg (show ¬(!s.lock.isReady) = true by simp [lock, hready]),
        if_neg (show ¬s.lock.isSending = true by simp [lock, hsending])] at h
      unfold sessionSend at h
      rw [hleft] at h
      rw [if_pos rfl]
      generalize (decide (method = .post) && !os.send.payloadSent) = left at h ⊢
      cases hrec : os.send.reconnected with
      -- the connection was closed in the call: nothing of the query is left
      | true =>
          simp only [hrec, hsend hrec, if_true, Bool.not_false] at h
          split_ifs at h
          obtain rfl := Option.some.inj h
          exact ⟨.of_closed rfl rfl rfl, Or.inl rfl⟩
      | false =>
          simp only [hrec, Bool.false_eq_true, if_false] at h
          split_ifs at h with hsubmit hok hmore
          · obtain rfl := Option.some.inj h
            exact ⟨{
              waits := fun h => absurd (hconnect.symm.trans h) (by decide)
              post := fun _ => Or.inr rfl
              sending := fun _ => Or.inr rfl
              granted := False.elim }, Or.inr ⟨rfl, rfl⟩⟩
          · obtain rfl := Option.some.inj h
            exact ⟨{
              waits := fun h => absurd (hconnect.symm.trans h) (by decide)
              post := fun _ => Or.inl rfl
              sending := fun _ => Or.inl hready
              granted := False.elim }, Or.inr ⟨rfl, rfl⟩⟩
          · obtain rfl := Option.some.inj h
            -- neither frames nor a body are left
            have hdone : left = false := by
              by_contra hne
              exact hmore (by simp [Bool.eq_true_of_not_eq_false hne])
            exact ⟨.of_idle hconnect hsending hdone, Or.inr ⟨rfl, rfl⟩⟩

end PerfDohSocket

/-- The flags stay as they are, or the connection is closed. -/
inductive Receives (s s' : PerfDohSocket) : Prop
  | same (ready : s'.isReady = s.isReady) (sending : s'.isSending = s.isSending)
      (post : s'.isPostSending = s.isPostSending) (reconnect : s'.doReconnect = s.doReconnect)
      (connect : s'.doConnect = s.doConnect)
  | closed (ready : s'.isReady = false) (sending : s'.isSending = false)
      (post : s'.isPostSending = false) (connect : s'.doConnect = true)

namespace Receives

variable {s s' s'' : PerfDohSocket}

theorem trans (h : Receives s s') (h' : Receives s' s'') : Receives s s'' := by
  cases h' with
  | closed ready sending post connect => exact .closed ready sending post connect
  | same ready' sending' post' reconnect' connect' =>
      cases h with
      | same ready sending post reconnect connect =>
          exact .same (ready'.trans ready) (sending'.trans sending) (post'.trans post)
            (reconnect'.trans reconnect) (connect'.trans connect)
      | closed ready sending post connect =>
          exact .closed (ready'.trans ready) (sending'.trans sending) (post'.trans post)
            (connect'.trans connect)

theorem flags {granted : Prop} (h : Receives s s') (hs : s.Ordered granted) :
    s'.Ordered granted ∧ s.Keeps s' s.isPostSending := by
  cases h with
  | same ready sending post reconnect connect =>
      refine ⟨⟨?_, ?_, ?_, ?_⟩, Or.inr ⟨connect, post⟩⟩
      · rw [PerfDohSocket.Waits, connect, ready]
        exact hs.waits
      · rw [post, sending, reconnect]
        exact hs.post
      · rw [ready, sending, reconnect]
        exact hs.sending
      · rw [ready, sending, post]
        exact hs.granted
  | closed ready sending post connect => exact ⟨.of_closed ready sending post, Or.inl connect⟩

end Receives

namespace DohSocket

variable {s : DohSocket}

theorem memRecv_receives (s : DohSocket) (es : List Http2Event) :
    Receives s.base (s.memRecv es).sock.base := by
  induction es generalizing s with
  | nil => exact .same rfl rfl rfl rfl rfl
  | cons e es ih =>
      have hfirst : Receives s.base (s.callback e).2.1.base := by
        cases he : e.resets with
        | true =>
            rw [s.callback_of_resets he]
            exact .closed rfl rfl rfl rfl
        | false =>
            rw [(s.callback_of_not_resets he).2]
            exact .same rfl rfl rfl rfl rfl
      rw [memRecv_cons]
      split_ifs
      · exact hfirst.trans (ih _)
      · exact hfirst

theorem deliver_receives (s : DohSocket) (len : Nat) : Receives s.base (s.deliver len).2.base := by
  unfold deliver
  dsimp only
  split_ifs <;> exact .same rfl rfl rfl rfl rfl

/-- **`perf__doh_recv`.** -/
theorem perfDohRecv_receives {read : SslRead} {mem : OsMemRecv} {len : Nat} {call : DohRecvCall}
    (h : s.perfDohRecv read mem len = some call) : Receives s.base call.sock.base := by
  rcases perfDohRecv_cases h with
    ⟨errno, rfl⟩ | ⟨-, rfl⟩ | ⟨-, s₁, bytes, hbase, -, -, -, -, hbody⟩
  · exact .same rfl rfl rfl rfl rfl
  · exact .closed rfl rfl rfl rfl
  · have hmem := s₁.memRecv_receives mem.events
    rw [hbase] at hmem
    have hlock : Receives s.base s.base.lock := .same rfl rfl rfl rfl rfl
    replace hmem := hlock.trans hmem
    unfold recvBody at hbody
    dsimp only at hbody
    split at hbody
    · cases hbody
    · obtain rfl := Option.some.inj hbody
      exact hmem.trans (.same rfl rfl rfl rfl rfl)
    all_goals
      split_ifs at hbody
      · obtain rfl := Option.some.inj hbody
        exact hmem.trans (.same rfl rfl rfl rfl rfl)
      · obtain rfl := Option.some.inj hbody
        exact hmem.trans (deliver_receives ((s₁.memRecv mem.events).sock.consume mem.consumed) len)

end DohSocket

/-! ### Whole runs -/

/-- Whether the payload has been read to its end depends on the reads. -/
def Http2Send.withEof (send : Http2Send) (eof : Bool) : Http2Send :=
  { send with payloadSent := eof }

/-- A session with the bodies of its requests. `granted`: the last call of the sending thread
was a `perf__doh_sockready` that returned 1. -/
structure DohPost where
  session : DohSession
  bodies : PostBodies
  granted : Bool

namespace DohPost

/-- A call, with the outcomes of what it calls and the reads made by
`nghttp2_session_send`. -/
inductive Call
  | recv (read : SslRead) (mem : OsMemRecv) (len : Nat)
  | sendto (method : DohMethod) (qid : UInt16) (buf : Bytes) (os : OsSendto)
      (reads : List PayloadRead)
  | sockready (os : PerfDohSocket.OsSockready) (reads : List PayloadRead)

variable (c : DohPost)

/-- The socket. -/
def base : PerfDohSocket := c.session.sock.base

/-- `perf_net_doh_opensocket`. -/
def start (os : OsConnect) (hasSent hasEvent : Bool) (numQueriesPerConn nqpcTimeout : Nat) :
    DohPost :=
  ⟨.start os hasSent hasEvent numQueriesPerConn nqpcTimeout, ⟨.empty, []⟩, false⟩

/-- The bodies when `perf__doh_sendto` calls `nghttp2_session_send`. -/
def submitted (method : DohMethod) (buf : Bytes) : PostBodies :=
  if c.base.isReady = true ∧ method = .post then c.bodies.submitDnsQueryPost buf else c.bodies

/-- The bodies when `perf__doh_sockready` calls it: `perf__doh_connect` has deleted the
session of the connection before. -/
def connected : PostBodies :=
  if (c.base.doReconnect || c.base.doConnect) = true then c.bodies.sessionDel else c.bodies

/-- One call. -/
def next : DohPost → Call → Option DohPost
  | c, .recv read mem len =>
      (c.session.next (.recv read mem len)).map fun session => { c with session := session }
  | c, .sendto method qid buf os reads =>
      let (bodies, eof) := (c.submitted method buf).reads reads
      let os := { os with send := os.send.withEof eof }
      (c.session.next (.sendto method qid buf.length os)).map fun session =>
      ⟨session, bodies, false⟩
  | c, .sockready os reads =>
      let (bodies, eof) := c.connected.reads reads
      let os := { os with send := os.send.withEof eof }
      (c.session.next (.sockready os)).map fun session =>
        ⟨session, bodies, decide ((c.base.perfDohSockready os).1 = 1)⟩

/-- What nghttp2 promises, of a call of `nghttp2_session_send` if there is one. -/
def Promised (called : Bool) (bodies : PostBodies) (send : Http2Send) (reads : List PayloadRead) :
    Prop :=
  (send.reconnected = true → send.ok = false) ∧ if called then bodies.Readable reads else reads = []

instance (called : Bool) (bodies : PostBodies) (send : Http2Send) (reads : List PayloadRead) :
    Decidable (Promised called bodies send reads) := by
  unfold Promised
  infer_instance

/-- The calls that are made: nghttp2 keeps its promises, and a query is sent only after
`perf__doh_sockready` has returned 1. -/
def Made (c : DohPost) : Call → Prop
  | .recv .. => True
  | .sendto method _ buf os reads =>
      c.granted = true ∧ Promised c.base.isReady (c.submitted method buf) os.send reads
  | .sockready os reads =>
      Promised (c.base.isReady && !(c.base.doReconnect || c.base.doConnect)) c.connected
        os.send reads

instance : DecidablePred c.Made
  | .recv .. => inferInstanceAs (Decidable True)
  | .sendto .. => inferInstanceAs (Decidable (_ ∧ _))
  | .sockready .. => inferInstanceAs (Decidable (Promised ..))

/-- The flags are in order, and so are the bodies, on a connection that has not been
closed. -/
structure Invariant (c : DohPost) : Prop where
  ordered : c.base.Ordered (c.granted = true)
  intact : c.bodies.Intact
  pending : c.base.doConnect = false → c.bodies.Pending c.base.isPostSending

variable {c}

theorem Promised.reads_spec {called post : Bool} {bodies : PostBodies} {send : Http2Send}
    {reads : List PayloadRead} (h : Promised called bodies send reads) (hintact : bodies.Intact)
    (hpending : bodies.Pending post) :
    (bodies.reads reads).1.Intact ∧
      (bodies.reads reads).1.Pending (post && !(called && (bodies.reads reads).2)) := by
  obtain ⟨-, hreads⟩ := h
  cases called with
  | true => exact PostBodies.reads_spec hintact hpending hreads
  | false =>
      obtain rfl : reads = [] := hreads
      exact ⟨hintact, by simpa [PostBodies.reads] using hpending⟩

theorem Invariant.submitted (hc : c.Invariant) (hgranted : c.granted = true)
    (hready : c.base.isReady = true) (method : DohMethod) (buf : Bytes) :
    (c.submitted method buf).Intact ∧
      (c.submitted method buf).Pending (decide (method = .post)) := by
  have hpending := hc.pending (hc.ordered.waits.of_ready hready)
  rw [(hc.ordered.granted hgranted hready).2] at hpending
  unfold DohPost.submitted
  cases method with
  | get =>
      rw [if_neg (by simp)]
      exact ⟨hc.intact, hpending⟩
  | post =>
      rw [if_pos ⟨hready, rfl⟩]
      exact PostBodies.submitDnsQueryPost_spec hc.intact hpending buf

theorem invariant_recv {c' : DohPost} {read : SslRead} {mem : OsMemRecv} {len : Nat}
    (hc : c.Invariant) (hnext : c.next (.recv read mem len) = some c') : c'.Invariant := by
  obtain ⟨session, hrecv, rfl⟩ := Option.map_eq_some_iff.mp hnext
  obtain ⟨r, hr, rfl⟩ := Option.map_eq_some_iff.mp hrecv
  obtain ⟨hordered, hkeeps⟩ := (DohSocket.perfDohRecv_receives hr).flags hc.ordered
  refine ⟨hordered, hc.intact, fun hconnect => ?_⟩
  obtain ⟨hconnect', hpost⟩ := hkeeps.of_connected hconnect
  exact hpost ▸ hc.pending hconnect'

theorem invariant_sendto {c' : DohPost} {method : DohMethod} {qid : UInt16} {buf : Bytes}
    {os : OsSendto} {reads : List PayloadRead} (hc : c.Invariant)
    (hmade : c.Made (.sendto method qid buf os reads))
    (hnext : c.next (.sendto method qid buf os reads) = some c') : c'.Invariant := by
  obtain ⟨session, hsend, rfl⟩ := Option.map_eq_some_iff.mp hnext
  obtain ⟨r, hr, rfl⟩ := Option.map_eq_some_iff.mp hsend
  obtain ⟨hgranted, hpromised⟩ := hmade
  have hgrant : c.base.Ordered True :=
    { hc.ordered with granted := fun _ => hc.ordered.granted hgranted }
  have hflags := fun hsend => PerfDohSocket.perfDohSendto_flags hgrant hsend hr
  obtain ⟨hordered, hkeeps⟩ := hflags hpromised.1
  have hfalse : r.2.1.Ordered (false = true) := { hordered with granted := fun h => by cases h }
  change c.base.Keeps r.2.1 (if c.base.isReady then
    decide (method = .post) && !((c.submitted method buf).reads reads).2 else c.base.isPostSending)
    at hkeeps
  cases hready : c.base.isReady with
  | true =>
      rw [hready] at hpromised hkeeps
      obtain ⟨hintact, hpending⟩ := hc.submitted hgranted hready method buf
      obtain ⟨hintact', hpending'⟩ := hpromised.reads_spec hintact hpending
      refine ⟨hfalse, hintact', fun hconnect => ?_⟩
      obtain ⟨-, hpost⟩ := hkeeps.of_connected hconnect
      exact hpost ▸ hpending'
  | false =>
      rw [hready] at hpromised hkeeps
      obtain rfl : reads = [] := hpromised.2
      have hsame : c.submitted method buf = c.bodies := if_neg (by simp [hready])
      refine ⟨hfalse, ?_, fun hconnect => ?_⟩
      · exact hsame ▸ hc.intact
      · obtain ⟨hconnect', hpost⟩ := hkeeps.of_connected hconnect
        exact hpost ▸ hsame ▸ hc.pending hconnect'

theorem invariant_sockready {c' : DohPost} {os : PerfDohSocket.OsSockready}
    {reads : List PayloadRead} (hc : c.Invariant) (hmade : c.Made (.sockready os reads))
    (hnext : c.next (.sockready os reads) = some c') : c'.Invariant := by
  obtain rfl := Option.some.inj hnext
  obtain ⟨hordered, hkeeps⟩ := PerfDohSocket.perfDohSockready_flags
    { os with send := os.send.withEof (c.connected.reads reads).2 } hc.ordered hmade.1
  have hgranted := hordered.granted
  replace hordered := { hordered with granted := fun h => hgranted (of_decide_eq_true h) }
  cases hnew : c.base.doReconnect || c.base.doConnect with
  | true =>
      -- no stream of another session is left
      have hreads := hmade.2
      rw [hnew, Bool.not_true, Bool.and_false] at hreads
      obtain rfl : reads = [] := hreads
      have hnone : c.connected.streams = [] := by simp [connected, hnew, PostBodies.sessionDel]
      exact ⟨hordered, PostBodies.intact_of_nil hnone, fun _ => PostBodies.pending_of_nil hnone⟩
  | false =>
      have hsame : c.connected = c.bodies := by simp [connected, hnew]
      have hconnect := (Bool.or_eq_false_iff.mp hnew).2
      unfold Made at hmade
      rw [hnew, Bool.not_false, Bool.and_true, hsame] at hmade
      obtain ⟨hintact, hpending⟩ := hmade.reads_spec hc.intact (hc.pending hconnect)
      refine ⟨hordered, hsame ▸ hintact, fun hconnect' => ?_⟩
      obtain ⟨-, hpost⟩ := (hkeeps hnew).of_connected hconnect'
      refine hpost ▸ ?_
      rw [hsame]
      exact hpending

theorem invariant_next (c : DohPost) (call : Call) (c' : DohPost) (hc : c.Invariant)
    (hstep : Guarded Made (StepOf next) c call c') : c'.Invariant := by
  obtain ⟨hmade, hnext⟩ := hstep
  cases call with
  | recv read mem len => exact invariant_recv hc hnext
  | sendto method qid buf os reads => exact invariant_sendto hc hmade hnext
  | sockready os reads => exact invariant_sockready hc hmade hnext

theorem invariant_start (os : OsConnect) (hasSent hasEvent : Bool) (num timeout : Nat) :
    (start os hasSent hasEvent num timeout).Invariant where
  ordered := .of_idle rfl rfl rfl
  intact := PostBodies.intact_of_nil rfl
  pending _ := PostBodies.pending_of_nil rfl

/-- **The bodies of POST requests are not mixed up**: whatever nghttp2 reads and when, and
whenever the connection is lost, what it gets for a request is the start of that request's
message, and at `EOF` all of it. When the next query may be sent, all bodies have been read
to their end. -/
theorem post_bodies_intact (os : OsConnect) (hasSent hasEvent : Bool) (num timeout : Nat)
    (calls : List Call) (c : DohPost)
    (hrun : Run (Guarded Made (StepOf next)) (start os hasSent hasEvent num timeout) calls c) :
    (∀ st ∈ c.bodies.streams, st.body <+: st.message ∧ (st.eof = true → st.body = st.message)) ∧
      (c.granted = true → c.base.isReady = true → ∀ st ∈ c.bodies.streams, st.eof = true) := by
  have hc := hrun.invariant invariant_next (invariant_start os hasSent hasEvent num timeout)
  refine ⟨hc.intact, fun hgranted hready st hst => ?_⟩
  by_contra hopen
  obtain ⟨i, hi⟩ := List.mem_iff_getElem?.mp hst
  have hpending := hc.pending (hc.ordered.waits.of_ready hready)
  have hpost := (hpending i st hi (by simpa using hopen)).1
  rw [(hc.ordered.granted hgranted hready).2] at hpost
  exact absurd hpost (by decide)

/-- A send that goes through, and one that leaves frames. -/
def sends (wantWrite : Bool) : Http2Send := ⟨true, false, false, wantWrite⟩

/-- Two queries, the first read in two parts. -/
def twoQueries : List Call :=
  [.sockready (DohSession.smoothly 4) [],
    .sendto .post 7 [1, 2, 3] ⟨true, sends true⟩ [⟨0, 2⟩],
    .sockready { DohSession.smoothly 4 with send := sends false } [⟨0, 2⟩],
    .sendto .post 8 [4, 5] ⟨true, sends true⟩ []]

theorem post_bodies_intact_two :
    ∃ c, Run (Guarded Made (StepOf next)) (start ⟨3, true, 0⟩ true false 0 0) twoQueries c ∧
      c.bodies.streams = [⟨[1, 2, 3], [1, 2, 3], true⟩, ⟨[4, 5], [], false⟩] ∧
      ∀ st ∈ c.bodies.streams, st.body <+: st.message ∧ (st.eof = true → st.body = st.message) := by
  obtain ⟨c, hrun, hend⟩ := Run.exists_of_follow Made next (start ⟨3, true, 0⟩ true false 0 0)
    twoQueries (fun c => decide (c.bodies.streams =
      [⟨[1, 2, 3], [1, 2, 3], true⟩, ⟨[4, 5], [], false⟩])) (by decide)
  exact ⟨c, hrun, of_decide_eq_true hend, (post_bodies_intact _ _ _ _ _ _ c hrun).1⟩

/-- **A query is not sent while another one is being sent**: after a
`perf__doh_sockready` that returned 1, and whatever the receiving thread has done since,
`perf__doh_sendto` does not end the process, if the request can be submitted. -/
theorem doh_sendto_not_busy (os : OsConnect) (hasSent hasEvent : Bool) (num timeout : Nat)
    (calls : List Call) (c : DohPost)
    (hrun : Run (Guarded Made (StepOf next)) (start os hasSent hasEvent num timeout) calls c)
    (hgranted : c.granted = true) (method : DohMethod) (qid : UInt16) (len : Nat)
    (send : Http2Send) :
    (c.base.perfDohSendto method qid len ⟨true, send⟩).isSome = true := by
  have hc := hrun.invariant invariant_next (invariant_start os hasSent hasEvent num timeout)
  unfold PerfDohSocket.perfDohSendto
  cases hready : c.base.isReady with
  | false => simp [PerfDohSocket.lock, hready]
  | true =>
      have hsending := (hc.ordered.granted hgranted hready).1
      simp only [PerfDohSocket.lock, hready, hsending]
      simp only [Bool.not_true, Bool.false_eq_true, if_false]
      split_ifs <;> rfl

theorem doh_sendto_not_busy_second :
    ∃ c, Run (Guarded Made (StepOf next)) (start ⟨3, true, 0⟩ true false 0 0)
      (twoQueries.take 3) c ∧
      c.granted = true ∧ (c.base.perfDohSendto .post 8 2 ⟨true, sends true⟩).isSome = true := by
  obtain ⟨c, hrun, hend⟩ := Run.exists_of_follow Made next (start ⟨3, true, 0⟩ true false 0 0)
    (twoQueries.take 3) (fun c => c.granted) (by decide)
  exact ⟨c, hrun, hend, doh_sendto_not_busy _ _ _ _ _ _ c hrun hend _ _ _ _⟩

end DohPost

end Dnsperf.Net
