import Dnsperf.Net.DohSocket

/-!
# Dnsperf.Net.DohReader

**The streams of a DoH connection**, as the callbacks of nghttp2 tell them. `payloadOf`,
`Completed` and `IsDnsAnswer` are about any sequence of callbacks. `Reader` is what the
callbacks mean as long as the server answers one stream after the other: it refuses anything
else. What it has read is what the streams hold (`Reader.Reads`).
-/

namespace Dnsperf.Net

open Dnsperf.Lib

/-! ### Streams -/

/-- The DATA of a stream. -/
def payloadOf (stream : Nat) (events : List Http2Event) : Bytes :=
  events.flatMap fun
    | .chunk s data => if s = stream then data else []
    | _ => []

/-- The stream has ended with a DATA frame. -/
def Completed (stream : Nat) (events : List Http2Event) : Prop :=
  Http2Event.frame stream .data true ∈ events

/-- The stream has a 2xx status and the content type `application/dns-message`. -/
def IsDnsAnswer (stream : Nat) (events : List Http2Event) : Prop :=
  (∃ value, Http2Event.header stream .headers (ascii ":status") (some value) ∈ events ∧
    200 ≤ atoi value ∧ atoi value ≤ 299) ∧
  Http2Event.header stream .headers (ascii "content-type")
    (some (ascii "application/dns-message")) ∈ events

/-! ### One response at a time -/

/-- A response, as far as it has come. -/
structure Answer where
  stream : Nat
  code : Int
  dns : Bool
  payload : Bytes
  deriving DecidableEq

/-- A response that is to be returned. -/
def Answer.Good (a : Answer) : Prop := a.dns = true ∧ 200 ≤ a.code ∧ a.code ≤ 299

/-- The responses that are complete, and the one that is coming. -/
structure Reader where
  done : List Answer
  cur : Option Answer
  deriving DecidableEq

namespace Reader

def start : Reader := ⟨[], none⟩

/-- All responses. -/
def all (r : Reader) : List Answer := r.done ++ r.cur.toList

/-- One callback, if it is in its place: the status of a new stream, or something of the
response that is coming. -/
def step (r : Reader) : Http2Event → Option Reader
  | .header stream .headers name (some value) =>
      match r.cur with
      | none =>
          if name = ascii ":status" ∧ ∀ a ∈ r.done, a.stream ≠ stream then
            some { r with cur := some ⟨stream, atoi value, false, []⟩ }
          else none
      | some a =>
          if a.stream = stream ∧ name ≠ [] ∧ name.head? ≠ some 58 then
            some { r with cur := some { a with dns := a.dns ||
              (name = ascii "content-type" && value = ascii "application/dns-message") } }
          else none
  | .header .. => some r
  | .chunk stream data =>
      match r.cur with
      | none => none
      | some a =>
          if a.stream = stream ∧ a.payload.length + data.length ≤ dnsMsgMaxSize then
            some { r with cur := some { a with payload := a.payload ++ data } }
          else none
  | .frame stream .data true =>
      match r.cur with
      | none => none
      | some a => if a.stream = stream then some ⟨r.done ++ [a], none⟩ else none
  | .frame _ .rstStream _ | .frame _ .goaway _ => none
  | .frame .. => some r

/-- The callbacks one after another. -/
def run : Reader → List Http2Event → Option Reader
  | r, [] => some r
  | r, e :: es => (r.step e).bind fun r => r.run es

theorem run_append (r : Reader) (es fs : List Http2Event) :
    r.run (es ++ fs) = (r.run es).bind fun r' => r'.run fs := by
  induction es generalizing r with
  | nil => rfl
  | cons e es ih =>
      rw [List.cons_append, run, run, Option.bind_assoc]
      congr 1
      funext r'
      exact ih r'

end Reader

/-- A callback that the reader passes over. -/
def Http2Event.idle : Http2Event → Bool
  | .header _ .headers _ (some _) | .chunk .. => false
  | .frame _ .data true | .frame _ .rstStream _ | .frame _ .goaway _ => false
  | _ => true

/-- What one callback can be. -/
inductive Reader.Steps (r : Reader) : Http2Event → Reader → Prop
  | idle {e : Http2Event} : e.idle = true → Steps r e r
  | status (stream : Nat) (value : Bytes) : r.cur = none → (∀ a ∈ r.done, a.stream ≠ stream) →
      Steps r (.header stream .headers (ascii ":status") (some value))
        { r with cur := some ⟨stream, atoi value, false, []⟩ }
  | field (a : Answer) (name value : Bytes) : r.cur = some a → name ≠ [] → name.head? ≠ some 58 →
      Steps r (.header a.stream .headers name (some value))
        { r with cur := some { a with dns := a.dns ||
          (name = ascii "content-type" && value = ascii "application/dns-message") } }
  | chunk (a : Answer) (data : Bytes) : r.cur = some a →
      a.payload.length + data.length ≤ dnsMsgMaxSize →
      Steps r (.chunk a.stream data) { r with cur := some { a with payload := a.payload ++ data } }
  | ended (a : Answer) : r.cur = some a → Steps r (.frame a.stream .data true) ⟨r.done ++ [a], none⟩

theorem Reader.steps_of_step {r r' : Reader} {e : Http2Event} (h : r.step e = some r') :
    r.Steps e r' := by
  unfold step at h
  split at h
  -- a header with a value starts an answer or adds to the one being read
  · cases hcur : r.cur with
    | none =>
        rw [hcur] at h
        dsimp only at h
        split_ifs at h with hnew
        obtain ⟨rfl, hstream⟩ := hnew
        obtain rfl := Option.some.inj h
        exact .status _ _ hcur hstream
    | some a =>
        rw [hcur] at h
        dsimp only at h
        split_ifs at h with hfield
        obtain ⟨rfl, hne, hhead⟩ := hfield
        obtain rfl := Option.some.inj h
        exact .field a _ _ hcur hne hhead
  · rename_i stream type name value hidle
    obtain rfl := Option.some.inj h
    refine .idle ?_
    cases type with
    | headers =>
        cases value with
        | none => rfl
        | some value => exact (hidle value rfl rfl).elim
    | _ => rfl
  -- a chunk of data
  · cases hcur : r.cur with
    | none =>
        rw [hcur] at h
        exact nomatch h
    | some a =>
        rw [hcur] at h
        dsimp only at h
        split_ifs at h with hchunk
        obtain ⟨rfl, hle⟩ := hchunk
        obtain rfl := Option.some.inj h
        exact .chunk a _ hcur hle
  -- the frame that ends the stream
  · cases hcur : r.cur with
    | none =>
        rw [hcur] at h
        exact nomatch h
    | some a =>
        rw [hcur] at h
        dsimp only at h
        split_ifs at h with hstream
        obtain rfl := Option.some.inj h
        rw [← hstream]
        exact .ended a hcur
  -- no step for a reset stream, nor for `GOAWAY`
  · exact nomatch h
  · exact nomatch h
  · rename_i stream type endStream hdata hrst hgoaway
    obtain rfl := Option.some.inj h
    refine .idle ?_
    cases type with
    | data =>
        cases endStream with
        | false => rfl
        | true => exact (hdata rfl rfl).elim
    | rstStream => exact (hrst rfl).elim
    | goaway => exact (hgoaway rfl).elim
    | _ => rfl

/-- Nothing follows the end of a response. -/
def isolated : List Http2Event → Bool
  | [] => true
  | .frame _ .data true :: es => es.all Http2Event.idle
  | _ :: es => isolated es

/-! ### What the reader has read -/

/-- The callback tells something of the stream. -/
def Http2Event.Tells (stream : Nat) : Http2Event → Prop
  | .header s .headers _ (some _) | .chunk s _ => s = stream
  | _ => False

theorem payloadOf_append (stream : Nat) (es fs : List Http2Event) :
    payloadOf stream (es ++ fs) = payloadOf stream es ++ payloadOf stream fs :=
  List.flatMap_append

theorem Http2Event.not_tells_of_idle {e : Http2Event} (he : e.idle = true) (stream : Nat) :
    ¬e.Tells stream := by
  intro htells
  unfold Tells at htells
  split at htells
  · exact nomatch he
  · exact nomatch he
  · exact htells

theorem payloadOf_snoc {stream : Nat} {e : Http2Event} (he : ¬e.Tells stream)
    (events : List Http2Event) : payloadOf stream (events ++ [e]) = payloadOf stream events := by
  have hnil : payloadOf stream [e] = [] := by
    cases e with
    | chunk s data =>
        have hne : s ≠ stream := he
        simp [payloadOf, hne]
    | _ => rfl
  rw [payloadOf_append, hnil, List.append_nil]

theorem header_mem_snoc {stream : Nat} {e : Http2Event} (he : ¬e.Tells stream)
    {events : List Http2Event} {name value : Bytes}
    (h : Http2Event.header stream .headers name (some value) ∈ events ++ [e]) :
    Http2Event.header stream .headers name (some value) ∈ events := by
  rcases List.mem_append.mp h with h | h
  · exact h
  · rw [← List.mem_singleton.mp h] at he
    exact absurd rfl he

/-- The response is that of its stream. -/
structure Answer.Describes (a : Answer) (events : List Http2Event) : Prop where
  payload : payloadOf a.stream events = a.payload
  code : ∀ value, Http2Event.header a.stream .headers (ascii ":status") (some value) ∈ events →
    a.code = atoi value
  dns : Http2Event.header a.stream .headers (ascii "content-type")
    (some (ascii "application/dns-message")) ∈ events → a.dns = true

theorem Answer.Describes.snoc {a : Answer} {events : List Http2Event} (h : a.Describes events)
    {e : Http2Event} (he : ¬e.Tells a.stream) : a.Describes (events ++ [e]) where
  payload := (payloadOf_snoc he events).trans h.payload
  code := fun value hmem => h.code value (header_mem_snoc he hmem)
  dns := fun hmem => h.dns (header_mem_snoc he hmem)

/-- The responses of the reader are those of the streams. -/
structure Reader.Reads (events : List Http2Event) (r : Reader) : Prop where
  nodup : (r.all.map Answer.stream).Nodup
  describes : ∀ a ∈ r.all, a.Describes events
  completed : ∀ stream, Completed stream events ↔ ∃ a ∈ r.done, a.stream = stream
  unseen : ∀ stream, (∀ a ∈ r.all, a.stream ≠ stream) → payloadOf stream events = [] ∧
    ∀ name value, Http2Event.header stream .headers name (some value) ∉ events

theorem Reader.reads_start : Reader.start.Reads [] where
  nodup := List.nodup_nil
  describes := nofun
  completed := fun _ => ⟨nofun, nofun⟩
  unseen := fun _ _ => ⟨rfl, nofun⟩

namespace Reader.Reads

variable {events : List Http2Event} {r : Reader} {e : Http2Event}

theorem unseen_snoc (h : r.Reads events) {stream : Nat} (hs : ∀ a ∈ r.all, a.stream ≠ stream)
    (he : ¬e.Tells stream) : payloadOf stream (events ++ [e]) = [] ∧
      ∀ name value, Http2Event.header stream .headers name (some value) ∉ events ++ [e] := by
  obtain ⟨hpayload, hheader⟩ := h.unseen stream hs
  exact ⟨(payloadOf_snoc he events).trans hpayload,
    fun name value hmem => hheader name value (header_mem_snoc he hmem)⟩

theorem completed_snoc (h : r.Reads events) (he : ∀ stream, e ≠ .frame stream .data true)
    (stream : Nat) : Completed stream (events ++ [e]) ↔ ∃ a ∈ r.done, a.stream = stream := by
  rw [← h.completed]
  refine ⟨fun hmem => ?_, List.mem_append_left _⟩
  rcases List.mem_append.mp hmem with hmem | hmem
  · exact hmem
  · exact absurd (List.mem_singleton.mp hmem).symm (he stream)

theorem silent (h : r.Reads events) (hsilent : ∀ stream, ¬e.Tells stream)
    (he : ∀ stream, e ≠ .frame stream .data true) : r.Reads (events ++ [e]) where
  nodup := h.nodup
  describes := fun a ha => (h.describes a ha).snoc (hsilent a.stream)
  completed := h.completed_snoc he
  unseen := fun _ hs => h.unseen_snoc hs (hsilent _)

theorem update (h : r.Reads events) {a a' : Answer} (ha : r.cur = some a)
    (hstream : a'.stream = a.stream) (he : ∀ stream, e.Tells stream ↔ stream = a.stream)
    (hne : ∀ stream, e ≠ .frame stream .data true) (hdescribes : a'.Describes (events ++ [e])) :
    Reader.Reads (events ++ [e]) { r with cur := some a' } := by
  have hall : r.all = r.done ++ [a] := by rw [all, ha]; rfl
  have hnodup := h.nodup
  rw [hall, List.map_append] at hnodup
  have hother : ∀ b ∈ r.done, b.stream ≠ a.stream := fun b hb heq =>
    (List.nodup_append'.mp hnodup).2.2 (List.mem_map_of_mem hb)
      (by rw [heq]; exact List.mem_cons_self)
  refine ⟨?_, ?_, h.completed_snoc hne, ?_⟩
  · change ((r.done ++ [a']).map Answer.stream).Nodup
    rw [List.map_append]
    simpa [hstream] using hnodup
  · intro b hb
    rcases List.mem_append.mp (show b ∈ r.done ++ [a'] from hb) with hb | hb
    · have hold := h.describes b (by rw [hall]; exact List.mem_append_left _ hb)
      exact hold.snoc fun htells => hother b hb ((he _).mp htells)
    · rw [List.mem_singleton.mp hb]
      exact hdescribes
  · intro stream hs
    have hne' : stream ≠ a.stream := fun heq =>
      hs a' (List.mem_append_right _ List.mem_cons_self) (hstream.trans heq.symm)
    refine h.unseen_snoc (fun b hb => ?_) fun htells => hne' ((he _).mp htells)
    rw [hall] at hb
    rcases List.mem_append.mp hb with hb | hb
    · exact hs b (List.mem_append_left _ hb)
    · rw [List.mem_singleton.mp hb]
      exact hne'.symm

theorem newStream (h : r.Reads events) (hcur : r.cur = none) {stream : Nat} (value : Bytes)
    (hnew : ∀ a ∈ r.done, a.stream ≠ stream) :
    Reader.Reads (events ++ [.header stream .headers (ascii ":status") (some value)])
      { r with cur := some ⟨stream, atoi value, false, []⟩ } := by
  have hall : r.all = r.done := by rw [all, hcur]; exact List.append_nil _
  have hunseen := h.unseen stream (by rw [hall]; exact hnew)
  have hnodup := h.nodup
  rw [hall] at hnodup
  refine ⟨?_, ?_, h.completed_snoc nofun, ?_⟩
  · change ((r.done ++ [_]).map Answer.stream).Nodup
    rw [List.map_append]
    refine List.Nodup.append hnodup (List.nodup_singleton _) fun stream' hdone hstream => ?_
    obtain ⟨a, ha, rfl⟩ := List.mem_map.mp hdone
    exact hnew a ha (List.mem_singleton.mp hstream)
  · intro a ha
    rcases List.mem_append.mp (show a ∈ r.done ++ [_] from ha) with ha | ha
    · have hold := h.describes a (by rw [hall]; exact ha)
      exact hold.snoc fun htells => hnew a ha (Eq.symm htells)
    · rw [List.mem_singleton.mp ha]
      refine ⟨?_, fun value' hmem => ?_, fun hmem => ?_⟩
      · rw [payloadOf_append, hunseen.1]
        rfl
      · rcases List.mem_append.mp hmem with hmem | hmem
        · exact absurd hmem (hunseen.2 _ _)
        · injection List.mem_singleton.mp hmem with _ _ _ hvalue
          rw [Option.some.inj hvalue]
      · rcases List.mem_append.mp hmem with hmem | hmem
        · exact absurd hmem (hunseen.2 _ _)
        · injection List.mem_singleton.mp hmem with _ _ hname _
          exact absurd hname (by decide)
  · intro stream' hs
    have hne : stream ≠ stream' := hs _ (List.mem_append_right _ List.mem_cons_self)
    refine h.unseen_snoc (fun a ha => ?_) hne
    rw [hall] at ha
    exact hs a (List.mem_append_left _ ha)

theorem ended (h : r.Reads events) {a : Answer} (ha : r.cur = some a) :
    Reader.Reads (events ++ [.frame a.stream .data true]) ⟨r.done ++ [a], none⟩ := by
  have hall : (⟨r.done ++ [a], none⟩ : Reader).all = r.all := by
    rw [all, all, ha]
    exact List.append_nil _
  refine ⟨by rw [hall]; exact h.nodup, ?_, ?_, ?_⟩
  · rw [hall]
    exact fun b hb => (h.describes b hb).snoc id
  · intro stream
    have hold := h.completed stream
    rw [Completed] at hold
    rw [Completed, List.mem_append, hold, List.mem_singleton]
    constructor
    · rintro (⟨b, hb, hstream⟩ | heq)
      · exact ⟨b, List.mem_append_left _ hb, hstream⟩
      · injection heq with hstream
        exact ⟨a, List.mem_append_right _ List.mem_cons_self, hstream.symm⟩
    · rintro ⟨b, hb, rfl⟩
      rcases List.mem_append.mp hb with hb | hb
      · exact Or.inl ⟨b, hb, rfl⟩
      · rw [List.mem_singleton.mp hb]
        exact Or.inr rfl
  · rw [hall]
    exact fun stream hs => h.unseen_snoc hs id

/-- **One callback.** -/
theorem step (h : r.Reads events) {r' : Reader} (hsteps : r.Steps e r') :
    r'.Reads (events ++ [e]) := by
  have hcur {a : Answer} (ha : r.cur = some a) : a ∈ r.all := by
    rw [all, ha]
    exact List.mem_append_right _ List.mem_cons_self
  cases hsteps with
  | idle hidle =>
      refine h.silent (Http2Event.not_tells_of_idle hidle) fun stream heq => ?_
      rw [heq] at hidle
      exact nomatch hidle
  | status stream value hnone hnew => exact h.newStream hnone value hnew
  | field a name value ha hne hhead =>
      -- the field is no status, and tells of the type where it is `content-type`
      have hold := h.describes a (hcur ha)
      refine h.update ha rfl (fun stream => eq_comm) nofun ⟨?_, fun value' hmem => ?_,
        fun hmem => ?_⟩
      · rw [payloadOf_append, hold.payload]
        exact List.append_nil _
      · rcases List.mem_append.mp hmem with hmem | hmem
        · exact hold.code value' hmem
        · injection List.mem_singleton.mp hmem with _ _ hname _
          rw [← hname] at hhead
          exact absurd rfl hhead
      · rcases List.mem_append.mp hmem with hmem | hmem
        · exact (Bool.or_eq_true _ _).mpr (Or.inl (hold.dns hmem))
        · injection List.mem_singleton.mp hmem with _ _ hname hvalue
          rw [← hname, ← Option.some.inj hvalue]
          exact (Bool.or_eq_true _ _).mpr (Or.inr (by decide))
  | chunk a data ha hle =>
      have hold := h.describes a (hcur ha)
      have hheader {name value : Bytes}
          (hmem : Http2Event.header a.stream .headers name (some value) ∈
            events ++ [.chunk a.stream data]) :
          Http2Event.header a.stream .headers name (some value) ∈ events := by
        rcases List.mem_append.mp hmem with hmem | hmem
        · exact hmem
        · exact nomatch List.mem_singleton.mp hmem
      refine h.update ha rfl (fun stream => eq_comm) nofun
        ⟨?_, fun value hmem => hold.code value (hheader hmem), fun hmem => hold.dns (hheader hmem)⟩
      rw [payloadOf_append, hold.payload]
      simp [payloadOf]
  | ended a ha => exact h.ended ha

theorem run (h : r.Reads events) {r' : Reader} {es : List Http2Event} (hrun : r.run es = some r') :
    r'.Reads (events ++ es) := by
  induction es generalizing r events with
  | nil =>
      obtain rfl := Option.some.inj hrun
      rwa [List.append_nil]
  | cons e es ih =>
      obtain ⟨r₁, hstep, hrest⟩ := Option.bind_eq_some_iff.mp hrun
      have hnext := ih (h.step (steps_of_step hstep)) hrest
      rwa [List.append_assoc] at hnext

end Reader.Reads

end Dnsperf.Net
