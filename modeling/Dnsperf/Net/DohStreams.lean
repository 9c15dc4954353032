import Dnsperf.Net.DohClose
import Dnsperf.Net.DohReader

/-!
# Dnsperf.Net.DohStreams

**DoH responses and their streams.** All streams of a connection share one message buffer. As
long as the server answers one stream after the other, and nothing of the next response comes
in the call that completes one, the socket holds what the reader holds and returns each
response once. Interleaved streams end up in one message.
-/

namespace Dnsperf.Net

open Dnsperf.Lib

/-! ### The socket and the reader -/

/-- The socket holds the response. -/
structure Http2.Shows (h : Http2) (a : Answer) : Prop where
  dnsmsg : h.dnsmsg = a.payload
  code : h.http2Code = a.code
  dns : a.dns = true → h.http2IsDns = true

/-- The socket holds what the reader does. -/
def Http2.Tracks (h : Http2) (r : Reader) : Prop :=
  h.dnsmsgCompleted = false ∧
    match r.cur with
    | none => h.dnsmsg = []
    | some a => h.Shows a

theorem Http2.tracks_empty : Http2.empty.Tracks .start := ⟨rfl, rfl⟩

theorem eq_of_tolower_eq_colon {c : UInt8} (h : tolower c = 58) : c = 58 := by
  unfold tolower at h
  split_ifs at h with hupper
  · rw [Bool.and_eq_true, decide_eq_true_eq, decide_eq_true_eq, UInt8.le_iff_toNat_le,
      UInt8.le_iff_toNat_le] at hupper
    have hnat := congrArg UInt8.toNat h
    rw [UInt8.toNat_add] at hnat
    simp only [UInt8.reduceToNat] at hnat hupper
    omega
  · exact h

/-- The name of a field is not taken for `:status`. -/
theorem not_status_of_field {name : Bytes} (hne : name ≠ []) (hhead : name.head? ≠ some 58) :
    strncasecmpEq name.length (ascii ":status:") name = false := by
  match name, hne with
  | c :: name, _ =>
      have hc : tolower 58 ≠ tolower c := fun heq =>
        hhead (by rw [eq_of_tolower_eq_colon heq.symm]; rfl)
      exact if_neg hc

theorem Http2.Shows.field {h : Http2} {a : Answer} (hshows : h.Shows a) (name value : Bytes)
    (hne : name ≠ []) (hhead : name.head? ≠ some 58) :
    (h.onHeaderCallback .headers name (some value)).Shows { a with dns := a.dns ||
      (name = ascii "content-type" && value = ascii "application/dns-message") } ∧
    (h.onHeaderCallback .headers name (some value)).dnsmsgCompleted = h.dnsmsgCompleted := by
  unfold onHeaderCallback
  dsimp only
  rw [if_neg (by rw [not_status_of_field hne hhead]; decide)]
  split_ifs with hname hvalue
  · exact ⟨⟨hshows.dnsmsg, hshows.code, fun _ => rfl⟩, rfl⟩
  · refine ⟨⟨hshows.dnsmsg, hshows.code, fun hdns => ?_⟩, rfl⟩
    rcases (Bool.or_eq_true _ _).mp hdns with hdns | hdns
    · exact hshows.dns hdns
    · obtain ⟨-, heq⟩ := (Bool.and_eq_true _ _).mp hdns
      rw [of_decide_eq_true heq] at hvalue
      exact absurd (by decide) hvalue
  · refine ⟨⟨hshows.dnsmsg, hshows.code, fun hdns => ?_⟩, rfl⟩
    rcases (Bool.or_eq_true _ _).mp hdns with hdns | hdns
    · exact hshows.dns hdns
    · obtain ⟨heq, -⟩ := (Bool.and_eq_true _ _).mp hdns
      rw [of_decide_eq_true heq] at hname
      exact absurd (by decide) hname

namespace DohSocket

variable {s : DohSocket} {r r' : Reader}

theorem callback_idle {e : Http2Event} (he : e.idle = true) : s.callback e = (.ok, s, []) := by
  cases e with
  | header stream type name value =>
      cases type with
      | headers =>
          cases value with
          | none => rfl
          | some value => exact nomatch he
      | _ => rfl
  | chunk stream data => exact nomatch he
  | frame stream type endStream =>
      cases type with
      | data =>
          cases endStream with
          | false => rfl
          | true => exact nomatch he
      | rstStream => exact nomatch he
      | goaway => exact nomatch he
      | _ => rfl

/-- **One callback within a response.** -/
theorem callback_tracks {e : Http2Event} (htracks : s.http2.Tracks r) (hstep : r.Steps e r')
    (hdone : r'.done = r.done) :
    ∃ h, s.callback e = (.ok, { s with http2 := h }, []) ∧ h.Tracks r' := by
  obtain ⟨hopen, hcur⟩ := htracks
  cases hstep with
  | idle hidle => exact ⟨s.http2, callback_idle hidle, hopen, hcur⟩
  | status stream value hnone hnew =>
      rw [hnone] at hcur
      refine ⟨{ s.http2 with http2Code := atoi value }, ?_, hopen, ⟨hcur, rfl, nofun⟩⟩
      have hname : strncasecmpEq (ascii ":status").length (ascii ":status:") (ascii ":status") =
          true := by
        decide
      unfold callback Http2.onHeaderCallback
      dsimp only
      rw [if_pos hname]
  | field a name value ha hne hhead =>
      rw [ha] at hcur
      obtain ⟨hshows, hcompleted⟩ := hcur.field name value hne hhead
      exact ⟨_, rfl, hcompleted.trans hopen, hshows⟩
  | chunk a data ha hle =>
      rw [ha] at hcur
      have hle' : s.http2.dnsmsg.length + data.length ≤ dnsMsgMaxSize := by
        rw [hcur.dnsmsg]
        exact hle
      refine ⟨{ s.http2 with dnsmsg := s.http2.dnsmsg ++ data,
                             at_le := by rwa [List.length_append] }, ?_, hopen, ?_⟩
      · unfold callback Http2.dataChunkRecvCb
        dsimp only
        rw [if_neg (by rw [hopen]; decide), dif_pos hle']
      · exact ⟨congrArg (· ++ data) hcur.dnsmsg, hcur.code, hcur.dns⟩
  | ended a ha => exact absurd hdone (by simp)

theorem memRecv_idle {es : List Http2Event} (hes : es.all Http2Event.idle = true) :
    s.memRecv es = ⟨.ok, es, s, []⟩ := by
  induction es with
  | nil => rfl
  | cons e es ih =>
      rw [List.all_cons, Bool.and_eq_true] at hes
      rw [memRecv_cons, callback_idle hes.1, if_pos rfl, ih hes.2]
      rfl

end DohSocket

theorem Reader.run_idle {r r' : Reader} {es : List Http2Event}
    (hes : es.all Http2Event.idle = true) (hrun : r.run es = some r') : r' = r := by
  induction es generalizing r with
  | nil => exact (Option.some.inj hrun).symm
  | cons e es ih =>
      obtain ⟨r₁, hstep, hrest⟩ := Option.bind_eq_some_iff.mp hrun
      rw [List.all_cons, Bool.and_eq_true] at hes
      have heq := ih hes.2 hrest
      cases steps_of_step hstep with
      | idle => exact heq
      | status => exact nomatch hes.1
      | field => exact nomatch hes.1
      | chunk => exact nomatch hes.1
      | ended => exact nomatch hes.1

theorem isolated_cons {e : Http2Event} (he : ∀ stream, e ≠ .frame stream .data true)
    (es : List Http2Event) : isolated (e :: es) = isolated es := by
  cases e with
  | header stream type name value => rfl
  | chunk stream data => rfl
  | frame stream type endStream =>
      cases type with
      | data =>
          cases endStream with
          | false => rfl
          | true => exact absurd rfl (he stream)
      | _ => rfl

/-- **The callbacks of one call**: none of them stops nghttp2, and at the end the socket holds
the response that is coming, or one that is complete now. -/
theorem DohSocket.memRecv_tracks {s : DohSocket} {r r' : Reader} {es : List Http2Event}
    (htracks : s.http2.Tracks r) (hrun : r.run es = some r') (hes : isolated es = true) :
    ∃ h, s.memRecv es = ⟨.ok, es, { s with http2 := h }, []⟩ ∧
      ((r'.done = r.done ∧ h.Tracks r') ∨
        (h.dnsmsgCompleted = true ∧ ∃ a, r' = ⟨r.done ++ [a], none⟩ ∧ h.Shows a)) := by
  induction es generalizing s r with
  | nil =>
      obtain rfl := Option.some.inj hrun
      exact ⟨s.http2, rfl, Or.inl ⟨rfl, htracks⟩⟩
  | cons e es ih =>
      obtain ⟨r₁, hstep, hrest⟩ := Option.bind_eq_some_iff.mp hrun
      have hsteps := Reader.steps_of_step hstep
      by_cases hended : ∃ stream, e = .frame stream .data true
      · -- the rest is passed over, by the socket and by the reader
        obtain ⟨stream, rfl⟩ := hended
        cases hsteps with
        | idle hidle => exact nomatch hidle
        | ended a ha =>
            obtain ⟨hopen, hcur⟩ := htracks
            rw [ha] at hcur
            refine ⟨{ s.http2 with dnsmsgCompleted := true }, ?_, Or.inr ⟨rfl, a, ?_, ?_⟩⟩
            · have hcallback : s.callback (.frame a.stream .data true) =
                  (.ok, { s with http2 := { s.http2 with dnsmsgCompleted := true } }, []) := by
                unfold callback frameRecvCb
                dsimp only
                rw [if_pos rfl, if_neg (by rw [hopen]; decide)]
              rw [memRecv_cons, hcallback, if_pos rfl, memRecv_idle hes]
              rfl
            · exact Reader.run_idle hes hrest
            · exact ⟨hcur.dnsmsg, hcur.code, hcur.dns⟩
      · have hne : ∀ stream, e ≠ .frame stream .data true := fun stream heq => hended ⟨stream, heq⟩
        have hdone : r₁.done = r.done := by
          cases hsteps with
          | ended a ha => exact absurd rfl (hne _)
          | _ => rfl
        rw [isolated_cons hne] at hes
        obtain ⟨h₁, hcallback, htracks₁⟩ := callback_tracks htracks hsteps hdone
        obtain ⟨h, hmem, hend⟩ := ih (s := { s with http2 := h₁ }) htracks₁ hrest hes
        refine ⟨h, ?_, by rwa [hdone] at hend⟩
        rw [memRecv_cons, hcallback, if_pos rfl, hmem]
        rfl

/-! ### The session -/

namespace DohSession

/-- The callbacks on this connection have been those of one response after the other, and
nothing of the next response comes in the call that completes one. -/
def OneAtATime (c : DohSession) : DohCall → Prop
  | .recv _ mem _ => (Reader.start.run (c.events ++ mem.events)).isSome = true ∧
      isolated mem.events = true ∧ mem.error = false
  | _ => True

/-- The packet is the payload, cut to the caller's buffer. -/
def Copies (k : Packet) (payload : Bytes) : Prop :=
  k.buf = payload.take k.len ∧ k.dnslen = k.buf.length

/-- The responses `as` have been returned. -/
structure Returned (packets : List Packet) (r : Reader) (as : List Answer) : Prop where
  sublist : as.Sublist r.done
  copies : List.Forall₂ (fun k a => Copies k a.payload) packets as
  good : ∀ a ∈ r.done, a.Good → a ∈ as

/-- The socket keeps up with the reader. -/
structure KeptApart (c : DohSession) (r : Reader) (as : List Answer) : Prop where
  run : Reader.start.run c.events = some r
  tracks : c.sock.base.doConnect = false → c.sock.http2.Tracks r
  empty : c.sock.base.doConnect = true → c.sock.http2 = .empty
  waits : c.sock.base.Waits
  returned : Returned c.packets r as

namespace Returned

variable {packets : List Packet} {r : Reader} {as : List Answer}

theorem skip (h : Returned packets r as) {a : Answer} (hgood : ¬a.Good) :
    Returned packets ⟨r.done ++ [a], none⟩ as where
  sublist := h.sublist.trans (List.sublist_append_left _ _)
  copies := h.copies
  good := by
    intro b hb hgood'
    rcases List.mem_append.mp hb with hb | hb
    · exact h.good b hb hgood'
    · rw [List.mem_singleton.mp hb] at hgood'
      exact absurd hgood' hgood

theorem snoc (h : Returned packets r as) {a : Answer} {k : Packet} (hk : Copies k a.payload) :
    Returned (packets ++ [k]) ⟨r.done ++ [a], none⟩ (as ++ [a]) where
  sublist := List.Sublist.append h.sublist (List.Sublist.refl [a])
  copies := List.rel_append h.copies (.cons hk .nil)
  good := by
    intro b hb hgood
    rcases List.mem_append.mp hb with hb | hb
    · exact List.mem_append_left _ (h.good b hb hgood)
    · exact List.mem_append_right _ hb

end Returned

/-- What `perf__doh_recv` stores is the message, cut to the caller's buffer. -/
theorem copies_cut (msg : Bytes) (len : Nat) :
    Copies ⟨len, if msg.length < len then msg.length else len,
      msg.take (if msg.length < len then msg.length else len)⟩ msg := by
  constructor
  · dsimp only
    split_ifs with hlt
    · rw [List.take_length, List.take_of_length_le (Nat.le_of_lt hlt)]
    · rfl
  · dsimp only
    rw [List.length_take]
    split_ifs <;> omega

/-- **The end of `perf__doh_recv`**: a good response is returned. -/
theorem deliver_tracks {s : DohSocket} {r r' : Reader} (len : Nat) {packets : List Packet}
    {as : List Answer} (hreturned : Returned packets r as)
    (hend : (r'.done = r.done ∧ s.http2.Tracks r') ∨
      (s.http2.dnsmsgCompleted = true ∧ ∃ a, r' = ⟨r.done ++ [a], none⟩ ∧ s.http2.Shows a)) :
    (s.deliver len).2.http2.Tracks r' ∧
      ∃ as', Returned (packets ++ (s.deliver len).1.packets len) r' as' := by
  unfold DohSocket.deliver
  have hnil (r' : Reader) (as' : List Answer) (h : Returned packets r' as') :
      Returned (packets ++ []) r' as' := by rwa [List.append_nil]
  rcases hend with ⟨hdone, htracks⟩ | ⟨hcompleted, a, rfl, hshows⟩
  · rw [if_neg (by rw [htracks.1]; decide)]
    obtain ⟨hsub, hcopies, hgood⟩ := hreturned
    rw [← hdone] at hsub hgood
    exact ⟨htracks, as, hnil _ _ ⟨hsub, hcopies, hgood⟩⟩
  · rw [if_pos hcompleted]
    dsimp only
    by_cases hdns : (!s.http2.http2IsDns) = true
    · rw [if_pos hdns]
      refine ⟨⟨rfl, rfl⟩, as, hnil _ _ (hreturned.skip fun hgood => ?_)⟩
      rw [hshows.dns hgood.1] at hdns
      exact absurd hdns (by decide)
    rw [if_neg hdns]
    by_cases hcode : s.http2.http2Code < 200 ∨ 299 < s.http2.http2Code
    · rw [if_pos hcode]
      refine ⟨⟨rfl, rfl⟩, as, hnil _ _ (hreturned.skip fun hgood => ?_)⟩
      rw [hshows.code] at hcode
      obtain ⟨-, hle, hge⟩ := hgood
      omega
    · rw [if_neg hcode]
      refine ⟨⟨rfl, rfl⟩, as ++ [a], hreturned.snoc ?_⟩
      rw [← hshows.dnsmsg]
      exact copies_cut s.http2.dnsmsg len

/-- Nothing of the response is lost or added on the way to nghttp2. -/
theorem recvBody_tracks {s : DohSocket} {read : Bytes} {mem : OsMemRecv} {len : Nat}
    {call : DohRecvCall} {r r' : Reader} {packets : List Packet} {as : List Answer}
    (htracks : s.http2.Tracks r)
    (hreturned : Returned packets r as) (hrun : r.run mem.events = some r')
    (hisolated : isolated mem.events = true) (hok : mem.error = false)
    (h : s.recvBody read mem len = some call) :
    call.made = mem.events ∧ call.sock.base.doConnect = s.base.doConnect ∧
      call.sock.base.isReady = s.base.isReady ∧ call.sock.http2.Tracks r' ∧
      ∃ as', Returned (packets ++ call.ret.packets len) r' as' := by
  obtain ⟨http2, hmem, hend⟩ := DohSocket.memRecv_tracks htracks hrun hisolated
  unfold DohSocket.recvBody at h
  rw [hmem] at h
  dsimp only at h
  rw [if_neg (by rw [hok]; decide)] at h
  obtain rfl := Option.some.inj h
  obtain ⟨hdo, hready⟩ :=
    (DohSocket.consume { s with http2 := http2 } mem.consumed).deliver_base len
  exact ⟨rfl, hdo, hready, deliver_tracks len hreturned hend⟩

theorem any_isClosed_conns (effects : List NetEffect) :
    effects.any NetEffect.isClosed = (conns effects).any NetEffect.isClosed := by
  induction effects with
  | nil => rfl
  | cons e effects ih =>
      cases e with
      | closed fd => rfl
      | _ => exact ih

/-- A call that closes the connection at most, and then drops the response. -/
theorem afterBase_of_shuts (c : DohSession) {base : PerfDohSocket} {effects : List NetEffect}
    (hshuts : Shuts c.sock.base base effects) :
    (base.doConnect = c.sock.base.doConnect ∧ c.afterBase base effects =
      ⟨{ c.sock with base := base }, c.effects ++ effects, c.events, c.packets⟩) ∨
    (base.doConnect = true ∧ c.afterBase base effects =
      ⟨{ c.sock with base := base, http2 := .empty }, c.effects ++ effects, c.events,
        c.packets⟩) := by
  have hopened := hshuts.opened
  cases hshuts with
  | same hnil hdo hready =>
      have hclosed : effects.any NetEffect.isClosed = false := by
        rw [any_isClosed_conns, hnil]
        rfl
      exact Or.inl ⟨hdo, by simp [afterBase, DohSocket.withBase, hopened, hclosed]⟩
  | closed fd hconns hready hdo hready' =>
      have hclosed : effects.any NetEffect.isClosed = true := by
        rw [any_isClosed_conns, hconns]
        rfl
      exact Or.inr ⟨hdo, by simp [afterBase, DohSocket.withBase, hopened, hclosed]⟩

theorem KeptApart.of_shuts {c : DohSession} {r : Reader} {as : List Answer} (h : c.KeptApart r as)
    {base : PerfDohSocket} {effects : List NetEffect} (hshuts : Shuts c.sock.base base effects) :
    (c.afterBase base effects).KeptApart r as := by
  have hwaits := hshuts.waits h.waits
  rcases c.afterBase_of_shuts hshuts with ⟨hdo, hafter⟩ | ⟨hdo, hafter⟩
  · rw [hafter]
    exact ⟨h.run, fun hdo' => h.tracks (hdo.symm.trans hdo'),
      fun hdo' => h.empty (hdo.symm.trans hdo'), hwaits, h.returned⟩
  · rw [hafter]
    exact ⟨h.run, fun hdo' => absurd (hdo.symm.trans hdo') (by decide), fun _ => rfl, hwaits,
      h.returned⟩

theorem keptApart_new {c : DohSession} (hevents : c.events = []) (hpackets : c.packets = [])
    (hhttp2 : c.sock.http2 = .empty) (hwaits : c.sock.base.Waits) : c.KeptApart .start [] where
  run := by rw [hevents]; rfl
  tracks := fun _ => by rw [hhttp2]; exact Http2.tracks_empty
  empty := fun _ => hhttp2
  waits := hwaits
  returned := by
    rw [hpackets]
    exact ⟨List.Sublist.refl [], .nil, nofun⟩

theorem KeptApart.http2_of_replaces {c : DohSession} {r : Reader} {as : List Answer}
    (h : c.KeptApart r as) {base : PerfDohSocket} {effects : List NetEffect}
    (hreplaces : Replaces c.sock.base base effects) :
    (c.afterBase base effects).sock.http2 = .empty := by
  obtain ⟨hwhy, ⟨fd, hconns⟩, -⟩ := hreplaces
  by_cases hclosed : effects.any NetEffect.isClosed = true
  · exact if_pos hclosed
  · refine (if_neg hclosed).trans (h.empty (hwhy.resolve_left fun hrec => hclosed ?_))
    rw [any_isClosed_conns, hconns, if_pos hrec]
    rfl

theorem any_isOpened_of_replaces {s s' : PerfDohSocket} {effects : List NetEffect}
    (hreplaces : Replaces s s' effects) : effects.any NetEffect.isOpened = true := by
  obtain ⟨-, ⟨fd, hconns⟩, -⟩ := hreplaces
  rw [any_isOpened_conns, hconns, List.any_append]
  exact Bool.or_true _

theorem KeptApart.of_replaces {c : DohSession} {r : Reader} {as : List Answer}
    (h : c.KeptApart r as) {base : PerfDohSocket} {effects : List NetEffect}
    (hreplaces : Replaces c.sock.base base effects) :
    (c.afterBase base effects).KeptApart .start [] := by
  have hopened := any_isOpened_of_replaces hreplaces
  exact keptApart_new (if_pos hopened) (if_pos hopened) (h.http2_of_replaces hreplaces)
    fun hdo => absurd (hreplaces.done.symm.trans hdo) (by decide)

theorem keptApart_next (c : DohSession) (call : DohCall) (c' : DohSession)
    (hc : ∃ r as, c.KeptApart r as) (hstep : Guarded OneAtATime (StepOf next) c call c') :
    ∃ r as, c'.KeptApart r as := by
  obtain ⟨r, as, hc⟩ := hc
  obtain ⟨hguard, hnext⟩ := hstep
  cases call with
  | recv read mem len =>
      obtain ⟨call, hrecv, rfl⟩ := Option.map_eq_some_iff.mp hnext
      obtain ⟨hsome, hisolated, hok⟩ := hguard
      obtain ⟨r', hrun⟩ := Option.isSome_iff_exists.mp hsome
      rw [Reader.run_append, hc.run, Option.bind_some] at hrun
      have hevents : Reader.start.run (c.events ++ []) = some r := by
        rw [List.append_nil]
        exact hc.run
      have hpackets : Returned (c.packets ++ []) r as := by
        rw [List.append_nil]
        exact hc.returned
      -- nothing read, the connection closed, or callbacks made
      rcases DohSocket.perfDohRecv_cases hrecv with
        ⟨errno, rfl⟩ | ⟨hready, rfl⟩ | ⟨hready, s₁, bytes, hbase, hhttp2, -, -, -, hbody⟩
      · exact ⟨r, as, hevents, hc.tracks, hc.empty, hc.waits, hpackets⟩
      · exact ⟨r, as, hevents, nofun, fun _ => rfl, fun _ => rfl, hpackets⟩
      · have hopen : c.sock.base.doConnect = false := by
          by_contra hne
          have hnot := hc.waits (by simpa using hne)
          exact absurd (hready.symm.trans hnot) (by decide)
        obtain ⟨hmade, hdo, hready', htracks, as', hreturned⟩ := recvBody_tracks
          (by rw [hhttp2]; exact hc.tracks hopen) hc.returned hrun hisolated hok hbody
        rw [hbase] at hdo
        have hopen' : call.sock.base.doConnect = false := hdo.trans hopen
        refine ⟨r', as', ?_, fun _ => htracks, fun hdo' =>
          absurd (hopen'.symm.trans hdo') (by decide),
          fun hdo' => absurd (hopen'.symm.trans hdo') (by decide), hreturned⟩
        dsimp only
        rw [hmade, Reader.run_append, hc.run]
        exact hrun
  | sendto method qid len os =>
      obtain ⟨call, hsend, rfl⟩ := Option.map_eq_some_iff.mp hnext
      exact ⟨r, as, hc.of_shuts (PerfDohSocket.perfDohSendto_conns hsend)⟩
  | sockready os =>
      obtain rfl := Option.some.inj hnext
      -- a new connection starts with no answer; otherwise it is at most shut
      rcases PerfDohSocket.perfDohSockready_conns c.sock.base os hc.waits with hshuts | hreplaces
      · exact ⟨r, as, hc.of_shuts hshuts⟩
      · exact ⟨.start, [], hc.of_replaces hreplaces⟩

theorem copies_of_payload {packets : List Packet} {as : List Answer} {payload : Answer → Bytes}
    (h : List.Forall₂ (fun k a => Copies k a.payload) packets as)
    (hpayload : ∀ a ∈ as, payload a = a.payload) :
    List.Forall₂ (fun k a => Copies k (payload a)) packets as := by
  induction h with
  | nil => exact .nil
  | cons hk _ ih =>
      refine .cons ?_ (ih fun a ha => hpayload a (List.mem_cons_of_mem _ ha))
      rw [hpayload _ List.mem_cons_self]
      exact hk

/-- **Responses are kept apart** while they come one at a time: what `perf__doh_recv` has
returned on this connection is the DATA of streams that are complete, each of them once, and
no stream with a 2xx status and a DNS message is missing. -/
theorem responses_apart (os : OsConnect) (hasSent hasEvent : Bool) (num timeout : Nat)
    (calls : List DohCall) (c : DohSession)
    (hrun : Run (Guarded OneAtATime (StepOf next)) (start os hasSent hasEvent num timeout)
      calls c) :
    ∃ streams : List Nat, streams.Nodup ∧
      List.Forall₂ (fun k stream => Copies k (payloadOf stream c.events)) c.packets streams ∧
      (∀ stream ∈ streams, Completed stream c.events) ∧
      ∀ stream, Completed stream c.events → IsDnsAnswer stream c.events → stream ∈ streams := by
  have hstart : (start os hasSent hasEvent num timeout).KeptApart .start [] :=
    keptApart_new rfl rfl rfl nofun
  obtain ⟨r, as, hc⟩ := hrun.invariant keptApart_next ⟨_, _, hstart⟩
  obtain ⟨hsub, hcopies, hgood⟩ := hc.returned
  have hreads : r.Reads c.events := Reader.reads_start.run hc.run
  have hall : ∀ a ∈ r.done, a ∈ r.all := fun a ha => List.mem_append_left _ ha
  refine ⟨as.map Answer.stream, ?_, ?_, ?_, ?_⟩
  · refine List.Nodup.sublist (hsub.map Answer.stream) ?_
    refine List.Nodup.sublist ?_ hreads.nodup
    exact (List.sublist_append_left r.done r.cur.toList).map Answer.stream
  · have hpayload : ∀ a ∈ as, payloadOf a.stream c.events = a.payload := fun a ha =>
      (hreads.describes a (hall a (hsub.subset ha))).payload
    rw [List.forall₂_map_right_iff]
    exact copies_of_payload hcopies hpayload
  · intro stream hstream
    obtain ⟨a, ha, rfl⟩ := List.mem_map.mp hstream
    exact (hreads.completed a.stream).mpr ⟨a, hsub.subset ha, rfl⟩
  · intro stream hcompleted hanswer
    obtain ⟨a, ha, rfl⟩ := (hreads.completed stream).mp hcompleted
    obtain ⟨⟨value, hstatus, hle, hge⟩, hdns⟩ := hanswer
    have hdescribes := hreads.describes a (hall a ha)
    have hcode := hdescribes.code value hstatus
    refine List.mem_map_of_mem (hgood a ha ⟨hdescribes.dns hdns, ?_, ?_⟩)
    · rw [hcode]
      exact hle
    · rw [hcode]
      exact hge

/-- The header of a DNS answer. -/
def dnsHeader (stream : Nat) : List Http2Event :=
  [.header stream .headers (ascii ":status") (some (ascii "200")),
    .header stream .headers (ascii "content-type") (some (ascii "application/dns-message")),
    .frame stream .headers false]

/-- What nghttp2 makes of what has been read. -/
def found (events : List Http2Event) : OsMemRecv := ⟨events, false, .eagain, 1⟩

instance (c : DohSession) : DecidablePred c.OneAtATime
  | .recv .. => inferInstanceAs (Decidable (_ ∧ _))
  | .sendto .. => inferInstanceAs (Decidable True)
  | .sockready _ => inferInstanceAs (Decidable True)

/-- Two answers, the second in two reads. -/
theorem responses_apart_two :
    ∃ c, Run (Guarded OneAtATime (StepOf next)) (start ⟨3, true, 0⟩ false false 0 0)
        [.sockready (smoothly 4),
          .recv (.data [0]) (found (dnsHeader 1 ++ [.chunk 1 [1], .frame 1 .data true])) 512,
          .recv (.data [0]) (found (dnsHeader 3 ++ [.chunk 3 [2]])) 512,
          .recv (.data [0]) (found [.chunk 3 [3], .frame 3 .data true]) 512] c ∧
      ∃ streams : List Nat, streams.Nodup ∧
        List.Forall₂ (fun k stream => Copies k (payloadOf stream c.events)) c.packets streams := by
  obtain ⟨c, hrun, -⟩ := Run.exists_of_follow OneAtATime next (start ⟨3, true, 0⟩ false false 0 0)
    [.sockready (smoothly 4),
      .recv (.data [0]) (found (dnsHeader 1 ++ [.chunk 1 [1], .frame 1 .data true])) 512,
      .recv (.data [0]) (found (dnsHeader 3 ++ [.chunk 3 [2]])) 512,
      .recv (.data [0]) (found [.chunk 3 [3], .frame 3 .data true]) 512]
    (fun _ => true) (by decide)
  obtain ⟨streams, hnodup, hcopies, -, -⟩ := responses_apart _ _ _ _ _ _ c hrun
  exact ⟨c, hrun, streams, hnodup, hcopies⟩

/-- Two streams whose DATA is interleaved: the first message returned is made of a part of
each. -/
theorem responses_mixed :
    ∃ c, Run (Guarded (fun _ => Sends) (StepOf next)) (start ⟨3, true, 0⟩ false false 0 0)
        [.sockready (smoothly 4),
          .recv (.data [0]) (found (dnsHeader 1 ++ dnsHeader 3 ++
            [.chunk 1 [1], .chunk 3 [2], .frame 3 .data true])) 512,
          .recv (.data [0]) (found [.chunk 1 [3], .frame 1 .data true]) 512] c ∧
      c.packets = [⟨512, 2, [1, 2]⟩, ⟨512, 1, [3]⟩] ∧
      payloadOf 1 c.events = [1, 3] ∧ payloadOf 3 c.events = [2] := by
  obtain ⟨c, hrun, hend⟩ := Run.exists_of_follow (fun _ => Sends) next
    (start ⟨3, true, 0⟩ false false 0 0)
    [.sockready (smoothly 4),
      .recv (.data [0]) (found (dnsHeader 1 ++ dnsHeader 3 ++
        [.chunk 1 [1], .chunk 3 [2], .frame 3 .data true])) 512,
      .recv (.data [0]) (found [.chunk 1 [3], .frame 1 .data true]) 512]
    (fun c => decide (c.packets = [⟨512, 2, [1, 2]⟩, ⟨512, 1, [3]⟩] ∧
      payloadOf 1 c.events = [1, 3] ∧ payloadOf 3 c.events = [2])) (by decide)
  exact ⟨c, hrun, of_decide_eq_true hend⟩

end DohSession

end Dnsperf.Net
