import Dnsperf.Lib.Run
import Dnsperf.Net.Stream

/-!
# Dnsperf.Thread.Model

One thread of `dnsperf`, which is two: `do_send` and `do_recv` share a
`threadinfo_t`. `ThreadInfo` is that record with the operations on it; `Pair` adds
the two parties and the clock, and `Pair.next` lets either take its next step.

**A step is a lock-protected region, or one access outside of the lock** with what
the party does by itself after it. What the network, the input and the sockets do
comes with the step.

Every use of a query id has a number (`serial`), and `ThreadInfo.failed`,
`.timedout` and `.completed` list the uses that ended so. They are not in the program.
-/

namespace Dnsperf.Thread

open Dnsperf.Lib Dnsperf.Net

/-- `NQIDS`. -/
def nqids : Nat := 65536

/-- `UINT64_MAX`, the timestamp of a query not sent yet. -/
def uint64Max : Nat := 2 ^ 64 - 1

/-- `MILLION`. -/
def million : Nat := 1000000

/-- `RECV_BATCH_SIZE`. -/
def recvBatchSize : Nat := 16

/-- What `do_send` and `do_recv` read of `config_t`, `times_t` and the limits of the
thread. -/
structure Config where
  timeout : Nat
  stopTime : Nat
  maxOutstanding : Nat
  maxQps : Nat
  nsocks : Nat

/-- The list a query is on. -/
inductive QueryList
  | unused
  | outstanding
  deriving Repr, DecidableEq

/-- `query_info`. -/
structure QueryInfo where
  timestamp : Nat
  list : QueryList
  sock : Option Nat
  serial : Nat
  deriving DecidableEq

/-- The counters of `stats_t` that the two parties keep. -/
structure Stats where
  numSent : Nat
  numInterrupted : Nat
  numTimedout : Nat
  numCompleted : Nat
  totalRequestSize : Nat
  totalResponseSize : Nat
  rcodecounts : Nat → Nat
  latencySum : Nat
  latencySumSquares : Nat
  latencyMin : Nat
  latencyMax : Nat

/-- `num_outstanding`. -/
def Stats.numOutstanding (s : Stats) : Nat :=
  -- make sure negative values aren't returned
  if s.numSent < s.numCompleted + s.numTimedout then 0
  else s.numSent - s.numCompleted - s.numTimedout

/-- `threadinfo_t`. -/
structure ThreadInfo where
  queries : Nat → QueryInfo
  /-- From head to tail. -/
  outstanding : List Nat
  unused : List Nat
  /-- An `int`, as the unsigned number it is for `%`. -/
  currentSock : UInt32
  doneSending : Bool
  stats : Stats
  lastRecv : Nat
  serials : Nat
  failed : List Nat
  timedout : List Nat
  completed : List Nat

namespace ThreadInfo

variable (t : ThreadInfo)

/-- `threadinfo_init`: every query is unused. -/
def init : ThreadInfo where
  queries := fun _ => ⟨0, .unused, none, 0⟩
  outstanding := []
  unused := List.range' 0 nqids
  currentSock := 0
  doneSending := false
  stats := ⟨0, 0, 0, 0, 0, 0, fun _ => 0, 0, 0, 0, 0⟩
  lastRecv := 0
  serials := 0
  failed := []
  timedout := []
  completed := []

/-- A query entry replaced. -/
def setQuery (q : Nat) (info : QueryInfo) : ThreadInfo :=
  { t with queries := fun q' => if q' = q then info else t.queries q' }

/-- `q->timestamp = timestamp`. -/
def setTimestamp (q timestamp : Nat) : ThreadInfo :=
  t.setQuery q { t.queries q with timestamp := timestamp }

/-! ### The lists -/

/-- `query_move_op`. -/
inductive QueryMoveOp
  | prependUnused
  | appendUnused
  | prependOutstanding
  deriving Repr, DecidableEq

/-- `perf_list_unlink`, from the list the query says it is on. -/
def unlink (q : Nat) : ThreadInfo :=
  match (t.queries q).list with
  | .unused => { t with unused := t.unused.erase q }
  | .outstanding => { t with outstanding := t.outstanding.erase q }

/-- `query_move`. -/
def queryMove (q : Nat) (op : QueryMoveOp) : ThreadInfo :=
  let t := t.unlink q
  match op with
  | .prependUnused =>
      { t.setQuery q { t.queries q with list := .unused } with unused := q :: t.unused }
  | .appendUnused =>
      { t.setQuery q { t.queries q with list := .unused } with unused := t.unused ++ [q] }
  | .prependOutstanding =>
      { t.setQuery q { t.queries q with list := .outstanding } with
        outstanding := q :: t.outstanding }

/-! ### Sending -/

/-- What a call of `perf_net_sockready` returns, and the queries it has finished
writing. -/
structure SockreadyCall where
  ret : Int
  sent : List UInt16

/-- `perf__net_sent`. -/
def perfNetSent (now : Nat) (qid : UInt16) : ThreadInfo :=
  if (t.queries qid.toNat).timestamp ≠ uint64Max then t.setTimestamp qid.toNat now else t

/-- What `perf_net_sockready` does to the queries. -/
def sockready (now : Nat) (call : SockreadyCall) : ThreadInfo :=
  call.sent.foldl (fun t qid => t.perfNetSent now qid) t

/-- The search for a socket: `i` more attempts, with what `perf_net_sockready` returns
at each. The socket found, or `all_fail`. -/
def scan (nsocks now : Nat) : Nat → List SockreadyCall → Bool → ThreadInfo →
    Option ((Option Nat × Bool) × ThreadInfo)
  | 0, _, allFail, t => some ((none, allFail), t)
  | _ + 1, [], _, _ => none
  | i + 1, call :: calls, allFail, t =>
      let sock := t.currentSock.toNat % nsocks
      let t := { t.sockready now call with currentSock := t.currentSock + 1 }
      if call.ret = 0 then scan nsocks now i calls false t
      else if call.ret = -1 then scan nsocks now i calls allFail t
      else some ((some sock, false), t)

/-- A query is taken for use. -/
def take (q : Nat) : ThreadInfo :=
  let t := t.queryMove q .prependOutstanding
  { t.setQuery q { t.queries q with timestamp := uint64Max, serial := t.serials } with
    serials := t.serials + 1 }

/-- `q->sock = tinfo->socks[sock]`. -/
def setSock (q : Nat) (sock : Option Nat) : ThreadInfo :=
  t.setQuery q { t.queries q with sock := sock }

/-- What comes of the locked region of `do_send`. -/
inductive Acquired
  /-- Too many queries are outstanding, or no socket is ready. -/
  | nothing
  | query (q sock : Nat)
  /-- `all sockets reported failure, can not continue`. -/
  | fatal
  deriving Repr, DecidableEq

/-- The locked region of `do_send`. -/
def acquire (cfg : Config) (now : Nat) (calls : List SockreadyCall) :
    Option (Acquired × ThreadInfo) :=
  if cfg.maxOutstanding ≤ t.stats.numOutstanding then some (.nothing, t)
  else
    match t.unused with
    | [] => none
    | q :: _ =>
        match scan cfg.nsocks now (cfg.nsocks * 2) calls true (t.take q) with
        | none => none
        | some ((_, true), t) => some (.fatal, t)
        | some ((none, false), t) => some (.nothing, (t.setSock q none).queryMove q .prependUnused)
        | some ((some sock, false), t) => some (.query q sock, t.setSock q (some sock))

/-- `num_sent++`, with the size of the request. -/
def countSent (length : Nat) : ThreadInfo :=
  { t with stats := { t.stats with
      numSent := t.stats.numSent + 1
      totalRequestSize := t.stats.totalRequestSize + length } }

/-- A query that failed to send goes back. -/
def rollback (q : Nat) : ThreadInfo :=
  { t.queryMove q .prependUnused with failed := (t.queries q).serial :: t.failed }

/-! ### Timeouts -/

/-- One query has timed out. -/
def timeoutQuery (q : Nat) : ThreadInfo :=
  { t.queryMove q .appendUnused with
    stats := { t.stats with numTimedout := t.stats.numTimedout + 1 }
    timedout := (t.queries q).serial :: t.timedout }

/-- The tail check of `process_timeouts`: a query that has timed out. -/
def expiredTail (cfg : Config) (now : Nat) : Option Nat :=
  match t.outstanding.getLast? with
  | none => none
  | some q =>
      if now < (t.queries q).timestamp ∨ now - (t.queries q).timestamp < cfg.timeout then none
      else some q

/-- The loop of `process_timeouts` after its first round. -/
def timeoutTail (cfg : Config) (now : Nat) : Nat → ThreadInfo → ThreadInfo
  | 0, t => t
  | n + 1, t =>
      match t.outstanding.getLast? with
      | none => t
      | some q =>
          if (t.queries q).timestamp < now ∧ cfg.timeout ≤ now - (t.queries q).timestamp then
            timeoutTail cfg now n (t.timeoutQuery q)
          else t

/-- The locked region of `process_timeouts`, for the query found before. A round takes
a query off the list, so there are at most as many as it has. -/
def processTimeouts (cfg : Config) (now q : Nat) : ThreadInfo :=
  timeoutTail cfg now (t.timeoutQuery q).outstanding.length (t.timeoutQuery q)

/-! ### Receiving -/

end ThreadInfo

/-- `received_query_t`. -/
structure ReceivedQuery where
  sock : Nat
  qid : UInt16
  rcode : Nat
  size : Nat
  when : Nat
  sent : Nat
  unexpected : Bool
  shortResponse : Bool
  serial : Nat
  deriving DecidableEq

/-- `recv_one`, for a packet received. -/
def recvOne (sock : Nat) (packet : Bytes) (now : Nat) : ReceivedQuery where
  sock := sock
  qid := (packet.getD 0 0).toUInt16 <<< 8 ||| (packet.getD 1 0).toUInt16
  rcode := (packet.getD 3 0).toNat % 16
  size := packet.length
  when := now
  sent := 0
  unexpected := false
  shortResponse := packet.length < 4
  serial := 0

/-- Whether the response is counted. -/
def ReceivedQuery.matched (r : ReceivedQuery) : Bool := !r.shortResponse && !r.unexpected

/-- The difference of two times, in 64 bits. -/
def ReceivedQuery.latency (r : ReceivedQuery) : Nat := (r.when + 2 ^ 64 - r.sent) % 2 ^ 64

namespace ThreadInfo

variable (t : ThreadInfo)

/-- The locked loop of `do_recv`, for one response. -/
def matchQuery (sockeq : Nat → Nat → Bool) (r : ReceivedQuery) : ReceivedQuery × ThreadInfo :=
  if r.shortResponse then (r, t)
  else
    let q := r.qid.toNat
    if (t.queries q).list ≠ .outstanding ∨ (t.queries q).timestamp = uint64Max ∨
        ¬ ((t.queries q).sock.any fun sock => sockeq sock r.sock) then
      ({ r with unexpected := true }, t)
    else
      ({ r with sent := (t.queries q).timestamp, serial := (t.queries q).serial },
        t.queryMove q .appendUnused)

/-- The locked loop of `do_recv`. -/
def matchQueries (sockeq : Nat → Nat → Bool) :
    List ReceivedQuery → ThreadInfo → List ReceivedQuery × ThreadInfo
  | [], t => ([], t)
  | r :: rs, t =>
      let (r, t) := t.matchQuery sockeq r
      let (rs, t) := matchQueries sockeq rs t
      (r :: rs, t)

/-- The statistics of one response. -/
def complete (r : ReceivedQuery) : ThreadInfo :=
  if r.matched then
    let latency := r.latency
    let s := t.stats
    { t with
      completed := r.serial :: t.completed
      stats := { s with
        numCompleted := s.numCompleted + 1
        totalResponseSize := s.totalResponseSize + r.size
        rcodecounts := fun rcode => if rcode = r.rcode then s.rcodecounts rcode + 1
          else s.rcodecounts rcode
        latencySum := (s.latencySum + latency) % 2 ^ 64
        latencySumSquares := (s.latencySumSquares + latency * latency) % 2 ^ 64
        latencyMin := if latency < s.latencyMin ∨ s.numCompleted + 1 = 1 then latency
          else s.latencyMin
        latencyMax := if s.latencyMax < latency then latency else s.latencyMax } }
  else t

/-- One round of `cancel_queries`: a query that was never sent is not counted. -/
def cancelQuery (q : Nat) : ThreadInfo :=
  let t := t.queryMove q .appendUnused
  if (t.queries q).timestamp = uint64Max then t
  else { t with stats := { t.stats with numInterrupted := t.stats.numInterrupted + 1 } }

/-- `cancel_queries`: at most as many rounds as there are outstanding queries. -/
def cancelQueries : Nat → ThreadInfo → ThreadInfo
  | 0, t => t
  | n + 1, t =>
      match t.outstanding.getLast? with
      | none => t
      | some q => cancelQueries n (t.cancelQuery q)

end ThreadInfo

/-! ### The two parties -/

/-- Where `do_send` is. -/
inductive SenderAt
  /-- The condition of the loop. -/
  | top
  /-- Avoid flooding the network too quickly. -/
  | throttle
  /-- Some sock might still be sending, try flush all of them. -/
  | flush
  /-- Rate limiting. -/
  | limit
  /-- Read the clock and continue. -/
  | again
  | lock
  /-- Read the input and build the request. -/
  | input (q sock : Nat)
  /-- The request could not be built. -/
  | undo (q : Nat)
  /-- Read the clock. -/
  | clock (q sock length : Nat)
  /-- `q->timestamp = now`. -/
  | stamp (q sock length : Nat)
  /-- `perf_net_sendto`. -/
  | send (q sock length : Nat)
  /-- `num_sent++`. -/
  | count (q length : Nat)
  /-- The query could not be sent, or not all of it. -/
  | failed (q : Nat)
  /-- After the loop. -/
  | drain
  | done
  | fatal
  deriving Repr, DecidableEq

/-- The variables of `do_send` that live across rounds of its loop. -/
structure SenderVars where
  now : Nat
  reqTime : Nat
  qSlice : Nat
  qSent : Nat
  anyInprogress : Bool
  socketbits : Nat → Bool

/-- The rate limiter: whether a query may be sent now. -/
def SenderVars.rateLimit (cfg : Config) (v : SenderVars) : Bool × SenderVars :=
  if 0 < cfg.maxQps then
    let v := if v.qSlice ≤ v.now then
        { v with qSlice := v.qSlice + million, qSent := 0, reqTime := v.now }
      else v
    if cfg.maxQps ≤ v.qSent then (false, v)
    else if v.now < v.reqTime then (false, v)
    else (true, { v with reqTime := v.reqTime + million / cfg.maxQps })
  else (true, v)

/-- The flush of the sockets that were still sending. -/
def flushSocks (now : Nat) : List Nat → List ThreadInfo.SockreadyCall → SenderVars → ThreadInfo →
    Option (SenderVars × ThreadInfo)
  | [], _, v, t => some (v, t)
  | i :: is, calls, v, t =>
      if v.socketbits i then
        match calls with
        | [] => none
        | call :: calls =>
            let v := if call.ret = 0 then { v with anyInprogress := true }
              else { v with socketbits := fun j => if j = i then false else v.socketbits j }
            flushSocks now is calls v (t.sockready now call)
      else flushSocks now is calls v t

/-- A round of the loop at the end of `do_send`. -/
def drainSocks (now : Nat) : Nat → List ThreadInfo.SockreadyCall → SenderVars → ThreadInfo →
    Option (SenderVars × ThreadInfo)
  | 0, _, v, t => some (v, t)
  | _ + 1, [], _, _ => none
  | n + 1, call :: calls, v, t =>
      drainSocks now n calls (if call.ret = 0 then { v with anyInprogress := true } else v)
        (t.sockready now call)

/-- Where `do_recv` is. -/
inductive ReceiverAt
  /-- The condition of the loop. -/
  | top
  /-- The check of `process_timeouts`. -/
  | timeouts
  /-- The locked region of `process_timeouts`, for a query found to have timed out. -/
  | expire (q : Nat)
  /-- Whether all is done. -/
  | check
  /-- Receive a few packets. -/
  | recv (recvd : List ReceivedQuery)
  /-- The locked loop over them. -/
  | lock (recvd : List ReceivedQuery)
  /-- The statistics of what is left of them. -/
  | count (recvd rest : List ReceivedQuery)
  | done
  deriving DecidableEq

/-- The two parties of a thread. -/
structure Pair where
  tinfo : ThreadInfo
  sender : SenderAt
  vars : SenderVars
  receiver : ReceiverAt
  receiverNow : Nat
  clock : Nat
  interrupted : Bool

/-- Both threads just started. -/
def Pair.start (now : Nat) : Pair where
  tinfo := ThreadInfo.init
  sender := .top
  vars := ⟨now, now, now + million, 0, false, fun _ => false⟩
  receiver := .top
  receiverNow := now
  clock := now
  interrupted := false

/-- What comes of the input. -/
inductive InputResult
  | eof
  /-- `perf_dns_buildrequest` failed. -/
  | unbuilt
  | built (length : Nat)

/-- The steps of `do_send`. -/
inductive SenderStep
  | loop
  | throttle
  | flush (calls : List ThreadInfo.SockreadyCall)
  | limit
  | again
  | lock (calls : List ThreadInfo.SockreadyCall)
  | input (result : InputResult)
  | undo
  | clock
  | stamp
  /-- `perf_net_sendto` returns a number of bytes, or -1 with `errno`. -/
  | send (result : Except Errno Nat)
  | count
  | rollback
  | drain (calls : List ThreadInfo.SockreadyCall)

/-- The steps of `do_recv`. -/
inductive ReceiverStep
  | loop
  | timeouts
  | expire
  | check
  /-- A packet arrives. -/
  | packet (sock : Nat) (packet : Bytes)
  /-- No more packets are taken. -/
  | batch
  | lock (sockeq : Nat → Nat → Bool)
  | count
  /-- The next round, after `errno` if fewer packets came than there is room for. -/
  | again (eagain : Bool)

namespace Pair

variable (cfg : Config) (c : Pair)

/-- `do_send` goes on at `place`. -/
def sendAt (place : SenderAt) : Pair := { c with sender := place }

/-- `do_recv` goes on at `place`. -/
def recvAt (place : ReceiverAt) : Pair := { c with receiver := place }

def nextSender : SenderStep → Option Pair
  | .loop =>
      if c.sender = .top then
        some (c.sendAt
          (if c.interrupted = false ∧ c.vars.now < cfg.stopTime then .throttle else .drain))
      else none
  | .throttle =>
      if c.sender = .throttle then
        let numSent := c.tinfo.stats.numSent
        some { c with
          sender := .flush
          vars := { c.vars with
            now :=
              if numSent < cfg.maxOutstanding ∧ numSent % 2 = 1 then c.clock else c.vars.now } }
      else none
  | .flush calls =>
      if c.sender = .flush then
        if c.vars.anyInprogress then
          (flushSocks c.clock (List.range cfg.nsocks) calls { c.vars with anyInprogress := false }
            c.tinfo).map fun (vars, tinfo) =>
              { c with sender := .limit, vars := vars, tinfo := tinfo }
        else some (c.sendAt .limit)
      else none
  | .limit =>
      if c.sender = .limit then
        let (go, vars) := c.vars.rateLimit cfg
        some { c with sender := if go then .lock else .again, vars := vars }
      else none
  | .again =>
      if c.sender = .again then
        some { c with sender := .top, vars := { c.vars with now := c.clock } }
      else none
  | .lock calls =>
      if c.sender = .lock then
        (c.tinfo.acquire cfg c.clock calls).map fun (acquired, tinfo) =>
          { c with
            tinfo := tinfo
            sender := match acquired with
              | .nothing => .again
              | .query q sock => .input q sock
              | .fatal => .fatal }
      else none
  | .input result =>
      match c.sender, result with
      | .input _ _, .eof => some (c.sendAt .drain)
      | .input q _, .unbuilt => some (c.sendAt (.undo q))
      | .input q sock, .built length => some (c.sendAt (.clock q sock length))
      | _, _ => none
  | .undo =>
      match c.sender with
      | .undo q => some { c with tinfo := c.tinfo.queryMove q .prependUnused, sender := .again }
      | _ => none
  | .clock =>
      match c.sender with
      | .clock q sock length =>
          some { c with sender := .stamp q sock length, vars := { c.vars with now := c.clock } }
      | _ => none
  | .stamp =>
      match c.sender with
      | .stamp q sock length =>
          some { c with
            tinfo := c.tinfo.setTimestamp q c.vars.now
            sender := .send q sock length }
      | _ => none
  | .send result =>
      match c.sender with
      | .send q sock length =>
          match result with
          | .error .einprogress =>
              some { c with
                sender := .count q length
                vars := { c.vars with
                  anyInprogress := true
                  socketbits := fun j => if j = sock then true else c.vars.socketbits j } }
          | .error _ => some (c.sendAt (.failed q))
          | .ok n => some (c.sendAt (if n ≠ length then .failed q else .count q length))
      | _ => none
  | .count =>
      match c.sender with
      | .count _ length =>
          some { c with
            tinfo := c.tinfo.countSent length
            sender := .top
            vars := { c.vars with qSent := c.vars.qSent + 1 } }
      | _ => none
  | .rollback =>
      match c.sender with
      | .failed q => some { c with tinfo := c.tinfo.rollback q, sender := .top }
      | _ => none
  | .drain calls =>
      if c.sender = .drain then
        if c.vars.anyInprogress then
          (drainSocks c.clock cfg.nsocks calls { c.vars with anyInprogress := false } c.tinfo).map
            fun (vars, tinfo) => { c with vars := vars, tinfo := tinfo }
        else some { c with tinfo := { c.tinfo with doneSending := true }, sender := .done }
      else none

def nextReceiver : ReceiverStep → Option Pair
  | .loop =>
      match c.receiver with
      | .top => some (c.recvAt (if c.interrupted then .done else .timeouts))
      | _ => none
  | .timeouts =>
      match c.receiver with
      | .timeouts =>
          some (c.recvAt (match c.tinfo.expiredTail cfg c.receiverNow with
            | none => .check
            | some q => .expire q))
      | _ => none
  | .expire =>
      match c.receiver with
      | .expire q =>
          some { c with
            tinfo := c.tinfo.processTimeouts cfg c.receiverNow q
            receiver := .check }
      | _ => none
  | .check =>
      match c.receiver with
      | .check =>
          some (c.recvAt
            (if c.tinfo.doneSending ∧ c.tinfo.stats.numOutstanding = 0 then .done else .recv []))
      | _ => none
  | .packet sock packet =>
      match c.receiver with
      | .recv recvd =>
          if recvd.length < recvBatchSize ∧ packet ≠ [] then
            some (c.recvAt (.recv (recvd ++ [recvOne sock packet c.clock])))
          else none
      | _ => none
  | .batch =>
      match c.receiver with
      | .recv recvd => some (c.recvAt (.lock recvd))
      | _ => none
  | .lock sockeq =>
      match c.receiver with
      | .lock recvd =>
          let (recvd, tinfo) := ThreadInfo.matchQueries sockeq recvd c.tinfo
          some { c with tinfo := tinfo, receiver := .count recvd recvd }
      | _ => none
  | .count =>
      match c.receiver with
      | .count recvd (r :: rest) =>
          some { c with tinfo := c.tinfo.complete r, receiver := .count recvd rest }
      | _ => none
  | .again eagain =>
      match c.receiver with
      | .count recvd [] =>
          some { c with
            tinfo := { c.tinfo with
              lastRecv := (recvd.getLast?.map ReceivedQuery.when).getD c.tinfo.lastRecv }
            receiver := .top
            receiverNow := if recvd.length < recvBatchSize ∧ eagain then c.clock
              else c.receiverNow }
      | _ => none

/-- A step of either party, or of what is around them. -/
inductive Step
  | sender (step : SenderStep)
  | receiver (step : ReceiverStep)
  /-- The clock does not go back. -/
  | tick (now : Nat)
  | interrupt

def next : Step → Option Pair
  | .sender step => c.nextSender cfg step
  | .receiver step => c.nextReceiver cfg step
  | .tick now => if c.clock ≤ now ∧ now < uint64Max then some { c with clock := now } else none
  | .interrupt => some { c with interrupted := true }

/-- Both threads have been joined: `threadinfo_cleanup` cancels what is left of an
interrupted run. -/
def cleanup : ThreadInfo :=
  if c.interrupted then ThreadInfo.cancelQueries c.tinfo.outstanding.length c.tinfo else c.tinfo

end Pair

end Dnsperf.Thread
