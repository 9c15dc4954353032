import Dnsperf.Net.DohStreams

/-!
# Dnsperf.Net.DohJudge

**By which headers a DoH response is judged.** `Judging` is a session with all responses that
have been complete on its connections, as the reader has them, and with what
`perf__doh_recv` has handed to its caller.

`http2_code` is set by every response. `http2_is_dns` is not set back when a response is
complete that it is set for, so it tells of all responses of the connection (`Dated`). Apart
from that, a header field counts as `content-type` if its name only begins like that, and
likewise its value.
-/

namespace Dnsperf.Net

open Dnsperf.Lib

/-! ### The content type -/

/-- The field that makes a response a DNS message. -/
def dnsField (stream : Nat) : Http2Event :=
  .header stream .headers (ascii "content-type") (some (ascii "application/dns-message"))

/-- The field is only taken for `content-type` or `application/dns-message` if it is that. -/
def Http2Event.Plain : Http2Event → Prop
  | .header _ .headers name (some value) =>
      (strncasecmpEq name.length (ascii "content-type:") name = true →
        name = ascii "content-type") ∧
      (strncasecmpEq value.length (ascii "application/dns-message") value = true →
        name = ascii "content-type" → value = ascii "application/dns-message")
  | _ => True

instance : DecidablePred Http2Event.Plain
  | .header _ .headers _ (some _) => inferInstanceAs (Decidable ((_ → _) ∧ (_ → _ → _)))
  | .header _ .headers _ none | .header _ .data .. | .header _ .rstStream .. => .isTrue trivial
  | .header _ .goaway .. | .header _ (.other _) .. => .isTrue trivial
  | .chunk .. | .frame .. => .isTrue trivial

/-- The response counts as a DNS message because it did before, or because of this field. -/
theorem Http2.onHeaderCallback_isDns {h : Http2} {stream : Nat} {type : FrameType} {name : Bytes}
    {value : Option Bytes} (hplain : (Http2Event.header stream type name value).Plain)
    (hdns : (h.onHeaderCallback type name value).http2IsDns = true) :
    h.http2IsDns = true ∨ Http2Event.header stream type name value = dnsField stream := by
  unfold onHeaderCallback at hdns
  split at hdns
  · split_ifs at hdns with hstatus hname hvalue
    · exact Or.inl hdns
    · obtain ⟨hname', hvalue'⟩ := hplain
      rw [hvalue' hvalue (hname' hname), hname' hname]
      exact Or.inr rfl
    · exact Or.inl hdns
    · exact Or.inl hdns
  · exact Or.inl hdns

theorem Http2.dataChunkRecvCb_isDns (h : Http2) (data : Bytes) :
    (h.dataChunkRecvCb data).2.http2IsDns = h.http2IsDns := by
  unfold dataChunkRecvCb
  split_ifs <;> rfl

namespace DohSocket

variable {s : DohSocket}

theorem frameRecvCb_isDns {type : FrameType} {endStream : Bool}
    (hdns : (s.frameRecvCb type endStream).2.1.http2.http2IsDns = true) :
    s.http2.http2IsDns = true := by
  unfold frameRecvCb at hdns
  cases type with
  | data =>
      dsimp only at hdns
      split_ifs at hdns <;> exact hdns
  | headers => exact hdns
  | rstStream => exact absurd hdns Bool.false_ne_true
  | goaway => exact absurd hdns Bool.false_ne_true
  | other type => exact hdns

theorem callback_isDns {e : Http2Event} (hplain : e.Plain)
    (hdns : (s.callback e).2.1.http2.http2IsDns = true) :
    s.http2.http2IsDns = true ∨ ∃ stream, e = dnsField stream := by
  cases e with
  | header stream type name value =>
      exact (Http2.onHeaderCallback_isDns hplain hdns).imp_right fun heq => ⟨stream, heq⟩
  | chunk stream data => exact Or.inl ((s.http2.dataChunkRecvCb_isDns data).symm.trans hdns)
  | frame stream type endStream => exact Or.inl (frameRecvCb_isDns hdns)

/-- **The callbacks of one call**, whatever they are. -/
theorem memRecv_isDns {es : List Http2Event} (hplain : ∀ e ∈ es, e.Plain)
    (hdns : (s.memRecv es).sock.http2.http2IsDns = true) :
    s.http2.http2IsDns = true ∨ ∃ stream, dnsField stream ∈ es := by
  induction es generalizing s with
  | nil => exact Or.inl hdns
  | cons e es ih =>
      have hhead (h : (s.callback e).2.1.http2.http2IsDns = true) :
          s.http2.http2IsDns = true ∨ ∃ stream, dnsField stream ∈ e :: es := by
        rcases callback_isDns (hplain e List.mem_cons_self) h with hold | ⟨stream, rfl⟩
        · exact Or.inl hold
        · exact Or.inr ⟨stream, List.mem_cons_self⟩
      rw [memRecv_cons] at hdns
      split_ifs at hdns with hok
      · rcases ih (fun e he => hplain e (List.mem_cons_of_mem _ he)) hdns with h | ⟨stream, hmem⟩
        · exact hhead h
        · exact Or.inr ⟨stream, List.mem_cons_of_mem _ hmem⟩
      · exact hhead hdns

end DohSocket

/-! ### One response -/

namespace Answer

instance : DecidablePred Good := fun a =>
  inferInstanceAs (Decidable (a.dns = true ∧ 200 ≤ a.code ∧ a.code ≤ 299))

/-- A response that is to be handed to the caller. -/
def Handed (a : Answer) : Prop := a.Good ∧ a.payload ≠ []

instance : DecidablePred Handed := fun a => inferInstanceAs (Decidable (a.Good ∧ a.payload ≠ []))

end Answer

/-- After a DNS message, a response with a 2xx status and a body is a DNS message, too. -/
def Unmixed (as : List Answer) : Prop :=
  as.Pairwise fun a b =>
    a.dns = true → 200 ≤ b.code → b.code ≤ 299 → b.payload ≠ [] → b.dns = true

/-- What is handed over is what was to be, and is its body. -/
def HandedOver (packets : List Packet) (as : List Answer) : Prop :=
  List.Forall₂ (fun k a => DohSession.Copies k a.payload)
    (packets.filter fun k => k.dnslen ≠ 0) (as.filter fun a => a.Handed)

theorem HandedOver.append {packets packets' : List Packet} {as as' : List Answer}
    (h : HandedOver packets as) (h' : HandedOver packets' as') :
    HandedOver (packets ++ packets') (as ++ as') := by
  unfold HandedOver
  rw [List.filter_append, List.filter_append]
  exact List.rel_append h h'

theorem HandedOver.skip {packets : List Packet} {a : Answer} (h : ¬a.Handed)
    (hzero : ∀ k ∈ packets, k.dnslen = 0) : HandedOver packets [a] := by
  have hnone : packets.filter (fun k => k.dnslen ≠ 0) = [] :=
    List.filter_eq_nil_iff.mpr fun k hk => by simp [hzero k hk]
  have hskip : [a].filter (fun a => a.Handed) = [] :=
    List.filter_eq_nil_iff.mpr fun b hb => by simpa [List.mem_singleton.mp hb] using h
  unfold HandedOver
  rw [hnone, hskip]
  exact .nil

theorem HandedOver.one {k : Packet} {a : Answer} (h : a.Handed) (hk : k.dnslen ≠ 0)
    (hcopies : DohSession.Copies k a.payload) : HandedOver [k] [a] := by
  have hsome : [k].filter (fun k => k.dnslen ≠ 0) = [k] :=
    List.filter_eq_self.mpr fun k' hk' => by simpa [List.mem_singleton.mp hk'] using hk
  have hall : [a].filter (fun a => a.Handed) = [a] :=
    List.filter_eq_self.mpr fun b hb => by simpa [List.mem_singleton.mp hb] using h
  unfold HandedOver
  rw [hsome, hall]
  exact .cons hcopies .nil

theorem DohStats.count_code (stats : DohStats) (code : Int) (i : Fin 500) :
    (stats.count code).code i = stats.code i + if code = 100 + (i : Int) then 1 else 0 := by
  unfold count
  split_ifs with hin hi hi
  · have hindex : (⟨(code - 100).toNat, by omega⟩ : Fin 500) = i := Fin.ext (by simp only; omega)
    simp only [hindex]
    exact Function.update_self ..
  · refine Function.update_of_ne (fun heq => hi ?_) ..
    rw [heq]
    simp only
    omega
  · omega
  · rfl

theorem DohStats.count_unknownCode (stats : DohStats) (code : Int) :
    (stats.count code).unknownCode =
      stats.unknownCode + if code < 100 ∨ 599 < code then 1 else 0 := by
  unfold count
  split_ifs with hin hout hout
  · omega
  · rfl
  · rfl
  · omega

/-- The counters of the responses. -/
structure DohStats.Counts (stats : DohStats) (as : List Answer) : Prop where
  code : ∀ i : Fin 500, stats.code i = as.countP fun a => a.code = 100 + (i : Int)
  unknownCode : stats.unknownCode = as.countP fun a => a.code < 100 ∨ 599 < a.code

theorem DohStats.Counts.snoc {stats : DohStats} {as : List Answer} (h : stats.Counts as)
    (a : Answer) : (stats.count a.code).Counts (as ++ [a]) where
  code := fun i => by simp [DohStats.count_code, h.code, List.countP_append, List.countP_singleton]
  unknownCode := by
    simp [DohStats.count_unknownCode, h.unknownCode, List.countP_append, List.countP_singleton]

namespace DohSocket

variable {s : DohSocket}

theorem deliver_isDns (len : Nat) (hdns : (s.deliver len).2.http2.http2IsDns = true) :
    s.http2.http2IsDns = true := by
  unfold deliver at hdns
  dsimp only at hdns
  split_ifs at hdns <;> first | exact hdns | exact absurd hdns Bool.false_ne_true

/-- **A response that is complete** is counted, and handed over if it is to be. -/
theorem deliver_completed {a : Answer} {len : Nat} (hlen : 0 < len)
    (hcompleted : s.http2.dnsmsgCompleted = true) (hshows : s.http2.Shows a)
    (hown : s.http2.http2IsDns = true → 200 ≤ a.code → a.code ≤ 299 → a.payload ≠ [] →
      a.dns = true) :
    (s.deliver len).2.stats = s.stats.count a.code ∧
      HandedOver ((s.deliver len).1.packets len) [a] := by
  unfold deliver
  rw [if_pos hcompleted, ← hshows.code]
  dsimp only
  by_cases hdns : (!s.http2.http2IsDns) = true
  · rw [if_pos hdns]
    refine ⟨rfl, .skip (fun hhanded => ?_) nofun⟩
    rw [hshows.dns hhanded.1.1] at hdns
    exact absurd hdns (by decide)
  rw [if_neg hdns]
  by_cases hcode : s.http2.http2Code < 200 ∨ 299 < s.http2.http2Code
  · rw [if_pos hcode]
    refine ⟨rfl, .skip (fun hhanded => ?_) nofun⟩
    rw [hshows.code] at hcode
    obtain ⟨⟨-, hle, hge⟩, -⟩ := hhanded
    omega
  rw [if_neg hcode]
  rw [hshows.code] at hcode
  refine ⟨rfl, ?_⟩
  rw [hshows.dnsmsg]
  by_cases hnil : a.payload = []
  · -- for an empty body, 0 is returned
    refine .skip (fun hhanded => hhanded.2 hnil) fun k hk => ?_
    rw [List.mem_singleton.mp hk, hnil]
    exact if_pos hlen
  · have hpos := List.length_pos_of_ne_nil hnil
    have hgood : a.Good :=
      ⟨hown (by simpa using hdns) (by omega) (by omega) hnil, by omega, by omega⟩
    refine .one ⟨hgood, hnil⟩ ?_ (DohSession.copies_cut a.payload len)
    dsimp only
    split_ifs <;> omega

end DohSocket

/-! ### Runs -/

/-- The responses that are complete. -/
def answersOf (events : List Http2Event) : List Answer :=
  match Reader.start.run events with
  | some r => r.done
  | none => []

theorem answersOf_eq {events : List Http2Event} {r : Reader}
    (h : Reader.start.run events = some r) : answersOf events = r.done := by
  rw [answersOf, h]

namespace DohSession

/-- `http2_is_dns` comes from a field of a response on this connection. -/
def Dated (c : DohSession) : Prop :=
  c.sock.http2.http2IsDns = true → ∃ stream, dnsField stream ∈ c.events

/-- The responses come one at a time, their fields are not taken for others, and a response
with a 2xx status and a body is a DNS message if one before it was. The caller has a buffer. -/
def OwnHeaders (c : DohSession) : DohCall → Prop
  | .recv read mem len => c.OneAtATime (.recv read mem len) ∧ (∀ e ∈ mem.events, e.Plain) ∧
      Unmixed (answersOf (c.events ++ mem.events)) ∧ 0 < len
  | _ => True

/-- A response counts as a DNS message because it is one, or because one before it was. -/
theorem dns_of_dated {events : List Http2Event} {r : Reader} {a : Answer}
    (hreads : Reader.Reads events ⟨r.done ++ [a], none⟩) (hunmixed : Unmixed (r.done ++ [a]))
    (hdated : ∃ stream, dnsField stream ∈ events) (hle : 200 ≤ a.code) (hge : a.code ≤ 299)
    (hbody : a.payload ≠ []) : a.dns = true := by
  obtain ⟨stream, hfield⟩ := hdated
  have hall : (⟨r.done ++ [a], none⟩ : Reader).all = r.done ++ [a] := List.append_nil _
  obtain ⟨b, hb, rfl⟩ : ∃ b ∈ r.done ++ [a], b.stream = stream := by
    by_contra hnone
    push Not at hnone
    exact (hreads.unseen stream (by rwa [hall])).2 _ _ hfield
  have hdns := (hreads.describes b (by rwa [hall])).dns hfield
  rcases List.mem_append.mp hb with hb | hb
  · exact (List.pairwise_append.mp hunmixed).2.2 b hb a List.mem_cons_self hdns hle hge hbody
  · rwa [List.mem_singleton.mp hb] at hdns

/-- What a call did to the responses: `as` are complete now, are counted, and have been
handed over if they are to be. -/
structure Judges (c : DohSession) (call : DohRecvCall) (len : Nat) (as : List Answer) : Prop where
  answers : answersOf (c.events ++ call.made) = answersOf c.events ++ as
  dated : call.sock.http2.http2IsDns = true → ∃ stream, dnsField stream ∈ c.events ++ call.made
  handed : HandedOver (call.ret.packets len) as
  counts : ∀ before, c.sock.stats.Counts before → call.sock.stats.Counts (before ++ as)

/-- **A `perf__doh_recv` call that gets to nghttp2.** -/
theorem recvBody_judges {c : DohSession} {s : DohSocket} {read : Bytes} {mem : OsMemRecv}
    {len : Nat} {call : DohRecvCall} {r r' : Reader} (hevents : Reader.start.run c.events = some r)
    (htracks : s.http2.Tracks r) (hdated : c.Dated) (hhttp2 : s.http2 = c.sock.http2)
    (hstats : s.stats = c.sock.stats) (hrun : r.run mem.events = some r')
    (hisolated : isolated mem.events = true) (hok : mem.error = false)
    (hplain : ∀ e ∈ mem.events, e.Plain) (hunmixed : Unmixed r'.done) (hlen : 0 < len)
    (h : s.recvBody read mem len = some call) : ∃ as, c.Judges call len as := by
  have hrun' : Reader.start.run (c.events ++ mem.events) = some r' := by
    rw [Reader.run_append, hevents]
    exact hrun
  have hfield (hdns : (s.memRecv mem.events).sock.http2.http2IsDns = true) :
      ∃ stream, dnsField stream ∈ c.events ++ mem.events := by
    rcases DohSocket.memRecv_isDns hplain hdns with hold | ⟨stream, hmem⟩
    · obtain ⟨stream, hmem⟩ := hdated (hhttp2 ▸ hold)
      exact ⟨stream, List.mem_append_left _ hmem⟩
    · exact ⟨stream, List.mem_append_right _ hmem⟩
  obtain ⟨http2, hmem, hend⟩ := DohSocket.memRecv_tracks htracks hrun hisolated
  rw [hmem] at hfield
  unfold DohSocket.recvBody at h
  rw [hmem] at h
  dsimp only at h hfield
  rw [if_neg (by rw [hok]; decide)] at h
  obtain rfl := Option.some.inj h
  set s' := DohSocket.consume { s with http2 := http2 } mem.consumed with hs'
  have hdated' : (s'.deliver len).2.http2.http2IsDns = true →
      ∃ stream, dnsField stream ∈ c.events ++ mem.events := fun hdns =>
    hfield (DohSocket.deliver_isDns (s := s') len hdns)
  -- either no answer was completed by these callbacks, or exactly one was
  rcases hend with ⟨hdone, htracks'⟩ | ⟨hcompleted, a, rfl, hshows⟩
  · have hdeliver : s'.deliver len = (.error .eagain, s'.unlock) :=
      if_neg (Bool.eq_false_iff.mp htracks'.1)
    refine ⟨[], ?_, hdated', ?_, fun before hcounts => ?_⟩
    · rw [answersOf_eq hrun', answersOf_eq hevents, hdone, List.append_nil]
    · rw [hdeliver]
      exact .nil
    · rw [hdeliver, List.append_nil]
      exact hstats ▸ hcounts
  · have hreads := Reader.reads_start.run hrun'
    obtain ⟨hcount, hhanded⟩ := DohSocket.deliver_completed (s := s') hlen hcompleted hshows
      fun hdns => dns_of_dated hreads hunmixed (hfield hdns)
    refine ⟨[a], ?_, hdated', hhanded, fun before hcounts => ?_⟩
    · rw [answersOf_eq hrun', answersOf_eq hevents]
    · dsimp only
      rw [hcount]
      exact DohStats.Counts.snoc (hstats ▸ hcounts) a

/-- **A `perf__doh_recv` call.** -/
theorem recv_judges {c : DohSession} {read : SslRead} {mem : OsMemRecv} {len : Nat}
    {call : DohRecvCall} {r : Reader} {as : List Answer} (hc : c.KeptApart r as) (hdated : c.Dated)
    (hguard : c.OwnHeaders (.recv read mem len))
    (h : c.sock.perfDohRecv read mem len = some call) : ∃ as, c.Judges call len as := by
  obtain ⟨⟨hsome, hisolated, hok⟩, hplain, hunmixed, hlen⟩ := hguard
  obtain ⟨r', hrun⟩ := Option.isSome_iff_exists.mp hsome
  rw [answersOf_eq hrun] at hunmixed
  rw [Reader.run_append, hc.run, Option.bind_some] at hrun
  rcases DohSocket.perfDohRecv_cases h with
    ⟨errno, rfl⟩ | ⟨hready, rfl⟩ | ⟨hready, s₁, bytes, hbase, hhttp2, hstats, -, -, hbody⟩
  · refine ⟨[], ?_, ?_, .nil, fun before hcounts => ?_⟩
    · rw [List.append_nil, List.append_nil]
    · rw [List.append_nil]
      exact hdated
    · rw [List.append_nil]
      exact hcounts
  · refine ⟨[], ?_, nofun, .nil, fun before hcounts => ?_⟩
    · rw [List.append_nil, List.append_nil]
    · rw [List.append_nil]
      exact hcounts
  · have hopen : c.sock.base.doConnect = false := by
      by_contra hne
      have hnot := hc.waits (by simpa using hne)
      exact absurd (hready.symm.trans hnot) (by decide)
    exact recvBody_judges hc.run (hhttp2 ▸ hc.tracks hopen) hdated hhttp2 hstats hrun hisolated hok
      hplain hunmixed hlen hbody

end DohSession

/-- A session, the responses that have been complete on any of its connections, and what
`perf__doh_recv` has returned. -/
structure Judging where
  session : DohSession
  answers : List Answer
  returned : List Packet

namespace Judging

/-- `perf_net_doh_opensocket`. -/
def start (os : OsConnect) (hasSent hasEvent : Bool) (numQueriesPerConn nqpcTimeout : Nat) :
    Judging :=
  ⟨DohSession.start os hasSent hasEvent numQueriesPerConn nqpcTimeout, [], []⟩

/-- One call. Only `perf__doh_recv` has to do with responses. -/
def next (j : Judging) (call : DohCall) : Option Judging :=
  (j.session.next call).map fun c =>
    match call with
    | .recv .. =>
        ⟨c, j.answers ++ (answersOf c.events).drop (answersOf j.session.events).length,
          j.returned ++ c.packets.drop j.session.packets.length⟩
    | _ => ⟨c, j.answers, j.returned⟩

/-- What every guarded step keeps. -/
structure Inv (j : Judging) : Prop where
  apart : ∃ r as, j.session.KeptApart r as
  dated : j.session.Dated
  counts : j.session.sock.stats.Counts j.answers
  handed : HandedOver j.returned j.answers

theorem inv_start (os : OsConnect) (hasSent hasEvent : Bool) (num timeout : Nat) :
    Inv (start os hasSent hasEvent num timeout) where
  apart := ⟨.start, [], DohSession.keptApart_new rfl rfl rfl nofun⟩
  dated := nofun
  counts := ⟨fun _ => rfl, rfl⟩
  handed := .nil

theorem Inv.afterBase {j : Judging} (h : j.Inv) {base : PerfDohSocket} {effects : List NetEffect}
    (hbase : Shuts j.session.sock.base base effects ∨ Replaces j.session.sock.base base effects)
    (hapart : ∃ r as, (j.session.afterBase base effects).KeptApart r as) :
    Inv ⟨j.session.afterBase base effects, j.answers, j.returned⟩ where
  apart := hapart
  dated := by
    rcases hbase with hshuts | hreplaces
    · rcases j.session.afterBase_of_shuts hshuts with ⟨-, hafter⟩ | ⟨-, hafter⟩
      · rw [hafter]
        exact h.dated
      · rw [hafter]
        exact nofun
    · obtain ⟨r, as, hold⟩ := h.apart
      intro hdns
      rw [hold.http2_of_replaces hreplaces] at hdns
      exact nomatch hdns
  counts := h.counts
  handed := h.handed

theorem inv_next (j : Judging) (call : DohCall) (j' : Judging) (h : j.Inv)
    (hstep : Guarded (fun j => j.session.OwnHeaders) (StepOf next) j call j') : j'.Inv := by
  obtain ⟨hguard, hstep⟩ := hstep
  obtain ⟨c, hnext, rfl⟩ := Option.map_eq_some_iff.mp hstep
  have hone : j.session.OneAtATime call := by
    cases call with
    | recv read mem len => exact hguard.1
    | _ => trivial
  have hapart := DohSession.keptApart_next j.session call c h.apart ⟨hone, hnext⟩
  obtain ⟨r, as, hold⟩ := h.apart
  cases call with
  | recv read mem len =>
      obtain ⟨call, hrecv, rfl⟩ := Option.map_eq_some_iff.mp hnext
      obtain ⟨as', hjudges⟩ := DohSession.recv_judges hold h.dated hguard hrecv
      refine ⟨hapart, hjudges.dated, ?_, ?_⟩
      · dsimp only
        rw [hjudges.answers, List.drop_left]
        exact hjudges.counts _ h.counts
      · dsimp only
        rw [hjudges.answers, List.drop_left, List.drop_left]
        exact h.handed.append hjudges.handed
  | sendto method qid len os =>
      obtain ⟨call, hsend, rfl⟩ := Option.map_eq_some_iff.mp hnext
      exact h.afterBase (Or.inl (PerfDohSocket.perfDohSendto_conns hsend)) hapart
  | sockready os =>
      obtain rfl := Option.some.inj hnext
      exact h.afterBase (PerfDohSocket.perfDohSockready_conns j.session.sock.base os hold.waits)
        hapart

end Judging

instance (c : DohSession) : DecidablePred c.OwnHeaders
  | .recv read mem len => inferInstanceAs (Decidable (c.OneAtATime (.recv read mem len) ∧
      (∀ e ∈ mem.events, e.Plain) ∧ (answersOf (c.events ++ mem.events)).Pairwise _ ∧ 0 < len))
  | .sendto .. => inferInstanceAs (Decidable True)
  | .sockready _ => inferInstanceAs (Decidable True)

/-- **Each response is judged by its own headers**, over every run in which the responses of a
connection come one at a time, their fields are not taken for others, and a response with a
2xx status and a body is a DNS message if one before it on the connection was: the counter of
each status is the number of responses with it, and `perf__doh_recv` has returned the bodies of
just those responses that have a 2xx status, are DNS messages and have a body. -/
theorem responses_judged (os : OsConnect) (hasSent hasEvent : Bool) (num timeout : Nat)
    (calls : List DohCall) (j : Judging)
    (hrun : Run (Guarded (fun j => j.session.OwnHeaders) (StepOf Judging.next))
      (Judging.start os hasSent hasEvent num timeout) calls j) :
    (∀ i : Fin 500, j.session.sock.stats.code i =
        j.answers.countP fun a => a.code = 100 + (i : Int)) ∧
      j.session.sock.stats.unknownCode =
        j.answers.countP (fun a => a.code < 100 ∨ 599 < a.code) ∧
      List.Forall₂ (fun k a => DohSession.Copies k a.payload)
        (j.returned.filter fun k => k.dnslen ≠ 0) (j.answers.filter fun a => a.Handed) := by
  have h := hrun.invariant Judging.inv_next (Judging.inv_start ..)
  exact ⟨h.counts.code, h.counts.unknownCode, h.handed⟩

/-- A response with the given status and content type, and a body of one byte. -/
def response (stream : Nat) (status contentType : String) (body : UInt8) : List Http2Event :=
  [.header stream .headers (ascii ":status") (some (ascii status)),
    .header stream .headers (ascii "content-type") (some (ascii contentType)),
    .frame stream .headers false, .chunk stream [body], .frame stream .data true]

/-- A page, a DNS message, and one that comes with an error. -/
theorem responses_judged_three :
    ∃ j : Judging, (j.returned = [⟨512, 1, [2]⟩] ∧
        j.answers = [⟨1, 200, false, [1]⟩, ⟨3, 200, true, [2]⟩, ⟨5, 404, true, [3]⟩]) ∧
      j.session.sock.stats.unknownCode =
        j.answers.countP (fun a => a.code < 100 ∨ 599 < a.code) := by
  obtain ⟨j, hrun, hend⟩ := Run.exists_of_follow (fun j => j.session.OwnHeaders) Judging.next
    (Judging.start ⟨3, true, 0⟩ false false 0 0)
    [.sockready (DohSession.smoothly 4),
      .recv (.data [0]) (DohSession.found (response 1 "200" "text/html" 1)) 512,
      .recv (.data [0]) (DohSession.found (response 3 "200" "application/dns-message" 2)) 512,
      .recv (.data [0]) (DohSession.found (response 5 "404" "application/dns-message" 3)) 512]
    (fun j => j.returned = [⟨512, 1, [2]⟩] ∧
      j.answers = [⟨1, 200, false, [1]⟩, ⟨3, 200, true, [2]⟩, ⟨5, 404, true, [3]⟩]) (by decide)
  exact ⟨j, of_decide_eq_true hend, (responses_judged _ _ _ _ _ _ j hrun).2.1⟩

/-- **A page that is handed over as a DNS message**, because the response before it was one. -/
theorem page_handed_over :
    ∃ calls j, Run (Guarded (fun j => j.session.OneAtATime) (StepOf Judging.next))
        (Judging.start ⟨3, true, 0⟩ false false 0 0) calls j ∧
      (j.returned = [⟨512, 1, [1]⟩, ⟨512, 1, [2]⟩] ∧
        j.answers = [⟨1, 200, true, [1]⟩, ⟨3, 200, false, [2]⟩]) ∧
      ¬List.Forall₂ (fun k a => DohSession.Copies k a.payload)
        (j.returned.filter fun k => k.dnslen ≠ 0) (j.answers.filter fun a => a.Handed) := by
  obtain ⟨j, hrun, hend⟩ := Run.exists_of_follow (fun j => j.session.OneAtATime) Judging.next
    (Judging.start ⟨3, true, 0⟩ false false 0 0)
    [.sockready (DohSession.smoothly 4),
      .recv (.data [0]) (DohSession.found (response 1 "200" "application/dns-message" 1)) 512,
      .recv (.data [0]) (DohSession.found (response 3 "200" "text/html" 2)) 512]
    (fun j => j.returned = [⟨512, 1, [1]⟩, ⟨512, 1, [2]⟩] ∧
      j.answers = [⟨1, 200, true, [1]⟩, ⟨3, 200, false, [2]⟩]) (by decide)
  obtain ⟨hreturned, hanswers⟩ := of_decide_eq_true hend
  refine ⟨_, j, hrun, ⟨hreturned, hanswers⟩, fun hhanded => ?_⟩
  have hlength := hhanded.length_eq
  rw [hreturned, hanswers] at hlength
  exact absurd hlength (by decide)

end Dnsperf.Net
