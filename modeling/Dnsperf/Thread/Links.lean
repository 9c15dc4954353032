import Dnsperf.Lib.Split
import Dnsperf.PerfList
import Dnsperf.Thread.Model

/-!
# Dnsperf.Thread.Links

The two lists of a thread as the program has them: pointers through the query entries,
the ends of `unused_queries` and of `outstanding_queries`, and the list that each entry
says it is on. The regions of `do_send` and `do_recv` that hold the lock, and
`cancel_queries`, read the ends and move entries; what else decides about them comes with
the `Region`.

**Every entry is always on exactly one list**, the one it names, and both lists are well
formed (`Shows`); so no assertion fails, whichever entry the regions move.
-/

namespace Dnsperf.Thread

open Dnsperf.Lib

/-- The query entries of a `threadinfo_t`, as far as the lists go. -/
structure Entries where
  links : Links Nat
  list : Nat → QueryList
  unused : Ends Nat
  outstanding : Ends Nat

/-- How a region fails. -/
inductive Fault
  | assertion (assert : ListAssert)
  /-- A null pointer is followed. -/
  | null
  deriving Repr, DecidableEq

/-- The list that an entry is moved to. -/
def ThreadInfo.QueryMoveOp.target : ThreadInfo.QueryMoveOp → QueryList
  | .prependUnused | .appendUnused => .unused
  | .prependOutstanding => .outstanding

namespace Entries

open ThreadInfo (QueryMoveOp)

variable (e : Entries)

/-- `perf_list_unlink(*q->list, q)`. -/
def unlink (q : Nat) : Except Fault Entries :=
  match e.list q with
  | .unused =>
      match perfListUnlink e.links e.unused q with
      | .ok (links, unused) => .ok { e with links := links, unused := unused }
      | .error assert => .error (.assertion assert)
  | .outstanding =>
      match perfListUnlink e.links e.outstanding q with
      | .ok (links, outstanding) => .ok { e with links := links, outstanding := outstanding }
      | .error assert => .error (.assertion assert)

/-- The entry is put on a list. -/
def insert (q : Nat) (op : QueryMoveOp) : Entries :=
  let e := { e with list := Function.update e.list q op.target }
  match op with
  | .prependUnused =>
      let (links, unused) := perfListPrepend e.links e.unused q
      { e with links := links, unused := unused }
  | .appendUnused =>
      let (links, unused) := perfListAppend e.links e.unused q
      { e with links := links, unused := unused }
  | .prependOutstanding =>
      let (links, outstanding) := perfListPrepend e.links e.outstanding q
      { e with links := links, outstanding := outstanding }

/-- `query_move`. -/
def queryMove (q : Nat) (op : QueryMoveOp) : Except Fault Entries :=
  (e.unlink q).map fun e => e.insert q op

/-- A round of the loop of `threadinfo_init`. -/
def initEntry (i : Nat) : Entries :=
  let links := perfLinkInit e.links i
  let (links, unused) := perfListAppend links e.unused i
  { e with links := links, unused := unused, list := Function.update e.list i .unused }

/-- What `memset` and `perf_list_init` leave. -/
def zero : Entries where
  links := ⟨fun _ => none, fun _ => none⟩
  list := fun _ => .unused
  unused := perfListInit
  outstanding := perfListInit

/-- `threadinfo_init`. -/
def init : Entries := (List.range nqids).foldl initEntry zero

/-- Rounds that move the last outstanding query, as long as there is one. -/
def moveTails : Nat → Entries → Except Fault Entries
  | 0, e => .ok e
  | n + 1, e =>
      match e.outstanding.tail with
      | none => .ok e
      | some q => (e.queryMove q .appendUnused).bind fun e => moveTails n e

/-- The responses looked up by `do_recv`, with whether the timestamp and the socket of
the query are right. -/
def matchAll : List (UInt16 × Bool) → Entries → Except Fault Entries
  | [], e => .ok e
  | (qid, fits) :: rest, e =>
      if e.list qid.toNat = .outstanding ∧ fits = true then
        (e.queryMove qid.toNat .appendUnused).bind fun e => matchAll rest e
      else matchAll rest e

/-- The regions that move entries. -/
inductive Region
  /-- `do_send` takes the first unused query. It goes back if no socket is ready. -/
  | take (ready : Bool)
  /-- `do_send` puts a query back that could not be built or sent. -/
  | back (q : UInt16)
  /-- `process_timeouts`: a query chosen before the lock was taken, and more from the
  tail. -/
  | timeouts (q : UInt16) (rounds : Nat)
  /-- The locked loop of `do_recv`. -/
  | responses (recvd : List (UInt16 × Bool))
  /-- `cancel_queries`. -/
  | cancel

def takeQuery (ready : Bool) : Except Fault Entries :=
  match e.unused.head with
  | none => .error .null
  | some q =>
      (e.queryMove q .prependOutstanding).bind fun e =>
        if ready then .ok e else e.queryMove q .prependUnused

def expire (q : UInt16) (rounds : Nat) : Except Fault Entries :=
  (e.queryMove q.toNat .appendUnused).bind fun e => moveTails rounds e

def region : Region → Except Fault Entries
  | .take ready => e.takeQuery ready
  | .back q => e.queryMove q.toNat .prependUnused
  | .timeouts q rounds => e.expire q rounds
  | .responses recvd => matchAll recvd e
  | .cancel => moveTails nqids e

/-! ### The lists that the pointers represent -/

/-- The pointers represent `out` and `un`, which the entries are split between as they
say. -/
structure Shows (out un : List Nat) : Prop where
  outstanding : Rep e.links e.outstanding out
  unused : Rep e.links e.unused un
  split : Split (· < nqids) (fun q => e.list q = .outstanding) out un

end Entries

namespace ThreadInfo.QueryMoveOp

/-- The outstanding queries after a move. -/
def out (op : QueryMoveOp) (q : Nat) (out : List Nat) : List Nat :=
  match op with
  | .prependOutstanding => q :: out.erase q
  | _ => out.erase q

/-- The unused queries after a move. -/
def un (op : QueryMoveOp) (q : Nat) (un : List Nat) : List Nat :=
  match op with
  | .prependUnused => q :: un.erase q
  | .appendUnused => un.erase q ++ [q]
  | .prependOutstanding => un.erase q

end ThreadInfo.QueryMoveOp

namespace Entries

open ThreadInfo (QueryMoveOp)

variable {e : Entries} {out un : List Nat} {q : Nat}

namespace Shows

theorem lt_outstanding (h : e.Shows out un) (hq : q ∈ out) : q < nqids :=
  ((h.split.mem_left q).mp hq).1

theorem lt_unused (h : e.Shows out un) (hq : q ∈ un) : q < nqids :=
  ((h.split.mem_right q).mp hq).1

theorem not_both (h : e.Shows out un) (hout : q ∈ out) : q ∉ un := fun hun =>
  ((h.split.mem_right q).mp hun).2 ((h.split.mem_left q).mp hout).2

theorem unlink (h : e.Shows out un) (hq : q < nqids) :
    ∃ e', e.unlink q = .ok e' ∧ e'.list = e.list ∧
      Rep e'.links e'.outstanding (out.erase q) ∧ Rep e'.links e'.unused (un.erase q) := by
  unfold Entries.unlink
  cases hlist : e.list q with
  | unused =>
      have hun : q ∈ un := (h.split.mem_right q).mpr ⟨hq, by rw [hlist]; nofun⟩
      have hout : q ∉ out := fun hout => h.not_both hout hun
      obtain ⟨links, unused, hunlink, hrep, hsame⟩ := perfListUnlink_rep h.unused hun
      rw [hunlink, List.erase_of_not_mem hout]
      exact ⟨_, rfl, rfl, h.outstanding.frame fun b hb => hsame b (h.not_both hb), hrep⟩
  | outstanding =>
      have hout : q ∈ out := (h.split.mem_left q).mpr ⟨hq, hlist⟩
      have hun : q ∉ un := h.not_both hout
      obtain ⟨links, outstanding, hunlink, hrep, hsame⟩ := perfListUnlink_rep h.outstanding hout
      rw [hunlink, List.erase_of_not_mem hun]
      refine ⟨_, rfl, rfl, hrep, h.unused.frame fun b hb => hsame b fun hb' => ?_⟩
      exact h.not_both hb' hb

end Shows

theorem insert_rep (hout : Rep e.links e.outstanding (out.erase q))
    (hun : Rep e.links e.unused (un.erase q)) (hqout : q ∉ out.erase q) (hqun : q ∉ un.erase q)
    (hdisj : ∀ b ∈ out.erase q, b ∉ un.erase q) (op : QueryMoveOp) :
    Rep (e.insert q op).links (e.insert q op).outstanding (op.out q out) ∧
      Rep (e.insert q op).links (e.insert q op).unused (op.un q un) := by
  have hne : ∀ xs : List Nat, q ∉ xs → ∀ b ∈ xs, b ≠ q := fun xs hq b hb heq => hq (heq ▸ hb)
  cases op with
  | prependUnused =>
      obtain ⟨hrep, hsame⟩ := perfListPrepend_rep hun hqun
      exact ⟨hout.frame fun b hb => hsame b (hdisj b hb) (hne _ hqout b hb), hrep⟩
  | appendUnused =>
      obtain ⟨hrep, hsame⟩ := perfListAppend_rep hun hqun
      exact ⟨hout.frame fun b hb => hsame b (hdisj b hb) (hne _ hqout b hb), hrep⟩
  | prependOutstanding =>
      obtain ⟨hrep, hsame⟩ := perfListPrepend_rep hout hqout
      refine ⟨hrep, hun.frame fun b hb => hsame b (fun hb' => ?_) (hne _ hqun b hb)⟩
      exact hdisj b hb' hb

theorem insert_list (e : Entries) (q : Nat) (op : QueryMoveOp) :
    (e.insert q op).list = Function.update e.list q op.target := by
  cases op <;> rfl

namespace Shows

/-- **A move keeps the lists well formed**, whichever list the entry was on. -/
theorem queryMove (h : e.Shows out un) (hq : q < nqids) (op : QueryMoveOp) :
    ∃ e', e.queryMove q op = .ok e' ∧ e'.list = Function.update e.list q op.target ∧
      e'.Shows (op.out q out) (op.un q un) := by
  obtain ⟨e₁, hunlink, hlist, hout, hun⟩ := h.unlink hq
  have hlist' := (e₁.insert_list q op).trans (by rw [hlist])
  obtain ⟨hout', hun'⟩ := insert_rep hout hun h.split.nodup_left.not_mem_erase
    h.split.nodup_right.not_mem_erase
    (fun b hb hb' => h.not_both (List.mem_of_mem_erase hb) (List.mem_of_mem_erase hb')) op
  refine ⟨e₁.insert q op, by rw [Entries.queryMove, hunlink]; rfl, hlist', hout', hun', ?_⟩
  rw [hlist']
  cases op with
  | prependUnused =>
      refine h.split.putRight hq (List.Perm.refl _) fun b => ?_
      by_cases hb : b = q <;> simp [QueryMoveOp.target, hb]
  | appendUnused =>
      refine h.split.putRight hq List.perm_append_comm fun b => ?_
      by_cases hb : b = q <;> simp [QueryMoveOp.target, hb]
  | prependOutstanding =>
      refine h.split.putLeft hq (List.Perm.refl _) fun b => ?_
      by_cases hb : b = q <;> simp [QueryMoveOp.target, hb]

end Shows

/-! ### `threadinfo_init` -/

theorem initEntry_shows {n : Nat} (hlist : e.list = fun _ => .unused)
    (hun : Rep e.links e.unused (List.range n)) :
    (e.initEntry n).list = (fun _ => .unused) ∧ (e.initEntry n).outstanding = e.outstanding ∧
      Rep (e.initEntry n).links (e.initEntry n).unused (List.range (n + 1)) := by
  have hn : n ∉ List.range n := List.not_mem_range_self
  have hinit : Rep (perfLinkInit e.links n) e.unused (List.range n) := by
    refine hun.frame fun b hb => ?_
    have hne : b ≠ n := fun heq => hn (heq ▸ hb)
    exact ((SameAt.refl _ b).setPrev hne none).setNext hne none
  refine ⟨?_, rfl, ?_⟩
  · show Function.update e.list n .unused = _
    rw [hlist]
    exact Function.update_eq_self n _
  · rw [List.range_succ]
    exact (perfListAppend_rep hinit hn).1

theorem foldl_initEntry {n : Nat} (hinit : (List.range n).foldl initEntry zero = e) :
    e.list = (fun _ => .unused) ∧ e.outstanding = perfListInit ∧
      Rep e.links e.unused (List.range n) := by
  induction n generalizing e with
  | zero =>
      rw [← hinit]
      exact ⟨rfl, rfl, Rep.nil _⟩
  | succ n ih =>
      obtain ⟨hlist, hout, hun⟩ := ih rfl
      rw [List.range_succ, List.foldl_append] at hinit
      obtain ⟨hlist', hout', hun'⟩ := initEntry_shows hlist hun
      rw [← hinit]
      exact ⟨hlist', hout'.trans hout, hun'⟩

/-- **At the start every query is unused.** -/
theorem init_shows : init.Shows [] (List.range nqids) := by
  obtain ⟨hlist, hout, hun⟩ := foldl_initEntry (e := init) rfl
  refine ⟨?_, hun, List.nodup_nil, List.nodup_range, fun q => ?_, fun q => ?_⟩
  · rw [hout]
    exact Rep.nil _
  · simp [hlist]
  · simp [hlist]

/-! ### The regions -/

/-- The pointers represent some split of the entries. -/
def Sound (e : Entries) : Prop := ∃ out un, e.Shows out un

namespace Sound

theorem queryMove (h : e.Sound) (hq : q < nqids) (op : QueryMoveOp) :
    ∃ e', e.queryMove q op = .ok e' ∧ e'.Sound := by
  obtain ⟨out, un, hshows⟩ := h
  obtain ⟨e', hmove, -, hshows'⟩ := hshows.queryMove hq op
  exact ⟨e', hmove, _, _, hshows'⟩

theorem moveTails (h : e.Sound) (n : Nat) : ∃ e', moveTails n e = .ok e' ∧ e'.Sound := by
  induction n generalizing e with
  | zero => exact ⟨e, rfl, h⟩
  | succ n ih =>
      unfold Entries.moveTails
      split
      · exact ⟨e, rfl, h⟩
      · rename_i q htail
        have hq : q < nqids := by
          obtain ⟨out, un, hshows⟩ := h
          exact hshows.lt_outstanding (List.mem_of_mem_getLast? (hshows.outstanding.tail ▸ htail))
        obtain ⟨e₁, hmove, h₁⟩ := h.queryMove hq .appendUnused
        rw [hmove]
        exact ih h₁

theorem matchAll (h : e.Sound) (recvd : List (UInt16 × Bool)) :
    ∃ e', matchAll recvd e = .ok e' ∧ e'.Sound := by
  induction recvd generalizing e with
  | nil => exact ⟨e, rfl, h⟩
  | cons r recvd ih =>
      obtain ⟨qid, fits⟩ := r
      unfold Entries.matchAll
      split_ifs
      · obtain ⟨e₁, hmove, h₁⟩ := h.queryMove qid.toNat_lt .appendUnused
        rw [hmove]
        exact ih h₁
      · exact ih h

theorem takeQuery (h : e.Sound) (ready : Bool) :
    (e.unused.head = none ∧ e.takeQuery ready = .error .null) ∨
      ∃ e', e.takeQuery ready = .ok e' ∧ e'.Sound := by
  unfold Entries.takeQuery
  cases hhead : e.unused.head with
  | none => exact Or.inl ⟨rfl, rfl⟩
  | some q =>
      refine Or.inr ?_
      have hq : q < nqids := by
        obtain ⟨out, un, hshows⟩ := h
        exact hshows.lt_unused (List.mem_of_mem_head? (hshows.unused.head ▸ hhead))
      obtain ⟨e₁, hmove, h₁⟩ := h.queryMove hq .prependOutstanding
      dsimp only
      rw [hmove]
      cases ready with
      | true => exact ⟨e₁, rfl, h₁⟩
      | false => exact h₁.queryMove hq .prependUnused

theorem expire (h : e.Sound) (q : UInt16) (rounds : Nat) :
    ∃ e', e.expire q rounds = .ok e' ∧ e'.Sound := by
  obtain ⟨e₁, hmove, h₁⟩ := h.queryMove q.toNat_lt .appendUnused
  unfold Entries.expire
  rw [hmove]
  exact h₁.moveTails rounds

/-- **A region keeps the lists well formed**, unless there is no unused query to take. -/
theorem region (h : e.Sound) (r : Region) :
    (e.unused.head = none ∧ e.region r = .error .null) ∨
      ∃ e', e.region r = .ok e' ∧ e'.Sound := by
  cases r with
  | take ready => exact h.takeQuery ready
  | back q => exact Or.inr (h.queryMove q.toNat_lt .prependUnused)
  | timeouts q rounds => exact Or.inr (h.expire q rounds)
  | responses recvd => exact Or.inr (h.matchAll recvd)
  | cancel => exact Or.inr (h.moveTails nqids)

end Sound

/-- A region that does not fail. -/
def Step (e : Entries) (r : Region) (e' : Entries) : Prop := e.region r = .ok e'

theorem sound_step (e : Entries) (r : Region) (e' : Entries) (h : e.Sound) (hstep : Step e r e') :
    e'.Sound := by
  rcases h.region r with ⟨-, hnull⟩ | ⟨e₁, hok, h₁⟩
  · exact nomatch hstep.symm.trans hnull
  · rw [Except.ok.inj (hstep.symm.trans hok)]
    exact h₁

/-- Every entry is on exactly one of two well-formed lists, the one it names. -/
def Partitioned (e : Entries) : Prop :=
  ∃ out un, WellFormed e.links e.outstanding out ∧ WellFormed e.links e.unused un ∧
    (∀ q < nqids, (q ∈ out ∧ q ∉ un ∧ e.list q = .outstanding) ∨
      (q ∉ out ∧ q ∈ un ∧ e.list q = .unused)) ∧
    ∀ q, q ∈ out ∨ q ∈ un → q < nqids

theorem Sound.partitioned (h : e.Sound) : e.Partitioned := by
  obtain ⟨out, un, hshows⟩ := h
  refine ⟨out, un, hshows.outstanding.wellFormed, hshows.unused.wellFormed, fun q hq => ?_, ?_⟩
  · cases hlist : e.list q with
    | outstanding =>
        have hout : q ∈ out := (hshows.split.mem_left q).mpr ⟨hq, hlist⟩
        exact Or.inl ⟨hout, hshows.not_both hout, rfl⟩
    | unused =>
        have hun : q ∈ un := (hshows.split.mem_right q).mpr ⟨hq, by rw [hlist]; nofun⟩
        exact Or.inr ⟨fun hout => hshows.not_both hout hun, hun, rfl⟩
  · rintro q (hq | hq)
    · exact hshows.lt_outstanding hq
    · exact hshows.lt_unused hq

/-- **The query ids stay a partition**, in whatever order the regions follow one another,
and no assertion of `perf_list_unlink` fails next. -/
theorem lists_partition (rs : List Region) (e : Entries) (hrun : Run Step init rs e) :
    e.Partitioned ∧ ∀ r assert, e.region r ≠ .error (.assertion assert) := by
  have hsound : e.Sound := hrun.invariant sound_step ⟨_, _, init_shows⟩
  refine ⟨hsound.partitioned, fun r assert herror => ?_⟩
  rcases hsound.region r with ⟨-, hnull⟩ | ⟨e', hok, -⟩
  · exact nomatch herror.symm.trans hnull
  · exact nomatch herror.symm.trans hok

/-- A query times out while it is being sent, and goes back when that fails. -/
theorem lists_partition_moved_twice :
    ∃ e, Run Step init [.take true, .timeouts 0 0, .back 0, .cancel] e ∧ e.Partitioned := by
  have hsound : init.Sound := ⟨_, _, init_shows⟩
  have hhead : init.unused.head ≠ none := by
    rw [init_shows.unused.head, ne_eq, List.head?_eq_none_iff, List.range_eq_nil]
    exact Nat.succ_ne_zero 65535
  obtain ⟨e₁, htake, h₁⟩ := (hsound.region (.take true)).resolve_left fun hnull => hhead hnull.1
  obtain ⟨e₂, hexpire, h₂⟩ := h₁.expire 0 0
  obtain ⟨e₃, hback, h₃⟩ := h₂.queryMove (UInt16.toNat_lt 0) .prependUnused
  obtain ⟨e₄, hcancel, -⟩ := h₃.moveTails nqids
  have hrun : Run Step init [.take true, .timeouts 0 0, .back 0, .cancel] e₄ :=
    .cons htake (.cons hexpire (.cons hback (.cons hcancel (.nil e₄))))
  exact ⟨e₄, hrun, (lists_partition _ e₄ hrun).1⟩

end Entries

end Dnsperf.Thread
