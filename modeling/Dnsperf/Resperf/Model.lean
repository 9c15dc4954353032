import Dnsperf.Lib.Run
import Dnsperf.Buffer
import Dnsperf.Stats

/-!
# Dnsperf.Resperf.Model

The main loop of `resperf`: one thread that sends the queries that are due, looks for
responses, gives up on old queries and looks at the clock. `next` is one iteration; what the
network, the input and the clock do comes with it.

**The integers are those of the source**: times in 64 bits, the options in 32, and the counters
of a bucket are `int`s. `num_scheduled` and `try_responses` are computed in floating point, and
are parameters here. So are left out the sums of latencies, which are only printed.

Beside the variables of the source the state has **a log** of what becomes of the queries. Nothing
reads it here; what has been transmitted, and which responses were turned away, is read off it
(`Dnsperf.Resperf.Answers`).
-/

namespace Dnsperf.Resperf

open Dnsperf.Lib Dnsperf.Stats

/-! ### Integers -/

/-- Conversion to `uint64_t`. -/
def toUint64 (n : Int) : Nat := (n % 2 ^ 64).toNat

/-- Conversion to `unsigned int`. -/
def toUint32 (n : Int) : Nat := (n % 2 ^ 32).toNat

/-- Conversion to `int`. -/
def toInt (n : Int) : Int := n.bmod (2 ^ 32)

/-- `MILLION`. -/
def million : Nat := 1000000

/-- `wait_time`. -/
def waitTime : Nat := 40 * million

/-! ### `setup` -/

/-- `enum phase`. -/
inductive Phase
  | ramp
  | sustain
  | wait
  deriving Repr, DecidableEq

/-- What the command line gives, and the time at the start of the program. -/
structure Options where
  queryTimeout : Nat
  rampTime : Nat
  sustainTime : Nat
  bucketInterval : Nat
  maxOutstanding : Nat
  nsocks : Nat
  maxFallBehind : Nat
  /-- `num_scheduled`, of the phase and the time since the start. -/
  numScheduled : Phase → Nat → Int
  tryResponses : Nat
  timeOfProgramStart : Nat
  maxOutstanding_pos : 0 < maxOutstanding
  maxOutstanding_lt : maxOutstanding < 2 ^ 32
  nsocks_pos : 0 < nsocks
  nsocks_lt : nsocks < 2 ^ 32

namespace Options

variable (o : Options)

/-- `traffic_time`. -/
def trafficTime : Nat := toUint64 (o.rampTime + o.sustainTime)

/-- `end_time`. -/
def endTime : Nat := toUint64 (o.trafficTime + waitTime)

/-- `n_buckets`. -/
def nBuckets : Int :=
  toInt (toUint64 (o.trafficTime + o.bucketInterval - 1) / o.bucketInterval : Nat)

end Options

/-- Options that `setup` accepts. -/
structure Setup extends Options where
  /-- Not more outstanding than 64K per client. -/
  perClient : maxOutstanding ≤ toUint32 (nsocks * 65536 : Nat)
  /-- The times must not both be 0. -/
  traffic_pos : 0 < toOptions.trafficTime
  /-- Dividing by it does not trap. -/
  interval_pos : 0 < bucketInterval
  /-- `calloc` has so many buckets. -/
  nBuckets_nonneg : 0 ≤ toOptions.nBuckets

/-- `setup`; `none` is a fatal error. -/
def setup (o : Options) : Option Setup :=
  if h : o.maxOutstanding ≤ toUint32 (o.nsocks * 65536 : Nat) ∧ 0 < o.trafficTime ∧
      0 < o.bucketInterval ∧ 0 ≤ o.nBuckets then
    some { o with
      perClient := h.1
      traffic_pos := h.2.1
      interval_pos := h.2.2.1
      nBuckets_nonneg := h.2.2.2 }
  else none

/-! ### The state -/

/-- The list a query is on. -/
inductive QueryList
  | instanding
  | outstanding
  deriving Repr, DecidableEq

/-- `query_info`. -/
structure QueryInfo where
  sentTimestamp : Nat
  isInprogress : Bool
  list : QueryList
  deriving DecidableEq

/-- `ramp_bucket`. -/
@[ext] structure RampBucket where
  queries : Int
  responses : Int
  failures : Int
  connections : Int
  deriving DecidableEq

/-- What becomes of a query. -/
inductive QueryEvent
  /-- `perf_net_sendto` has sent it. -/
  | transmitted (q : Nat)
  /-- `perf_net_sendto` has left it in progress. -/
  | deferred (q : Nat)
  /-- `perf__net_sent` is called for it, with its entry as it is then. -/
  | completed (q : Nat) (info : QueryInfo)
  /-- It is answered or retired. -/
  | settled (q : Nat)
  /-- A response with its id is reported as unexpected, with its entry as it is then. -/
  | rejected (q : Nat) (info : QueryInfo)
  deriving DecidableEq

/-- The static variables that change in the main loop, and the log. The counters of queries,
responses and connections are `uint64_t`s that go up by one at a time, and stand for the numbers
themselves; only `num_queries_outstanding` also goes down, and wraps below 0. -/
structure State where
  queries : Nat → QueryInfo
  /-- From head to tail. -/
  instanding : List Nat
  outstanding : List Nat
  numQueriesSent : Nat
  numQueriesOutstanding : Nat
  numResponsesReceived : Nat
  numQueriesTimedOut : Nat
  rcodecounts : Fin 16 → Nat
  numConnCompleted : Nat
  numConnAttempts : Nat
  timeNow : Nat
  /-- `buckets[i]`. The array has the elements from 0 to `n_buckets - 1`; what is stored elsewhere
  is not in it. -/
  buckets : Int → RampBucket
  phase : Phase
  sustainPhaseBegan : Nat
  waitPhaseBegan : Nat
  currentSock : Nat
  /-- Newest first. -/
  log : List QueryEvent

namespace State

variable (s : State)

/-- An entry of the log. -/
def record (e : QueryEvent) : State := { s with log := e :: s.log }

/-- A query entry replaced. -/
def setQuery (q : Nat) (info : QueryInfo) : State :=
  { s with queries := fun q' => if q' = q then info else s.queries q' }

/-- `q->sent_timestamp = timestamp`. -/
def setSentTimestamp (q timestamp : Nat) : State :=
  s.setQuery q { s.queries q with sentTimestamp := timestamp }

/-- `q->is_inprogress = b`. -/
def setInprogress (q : Nat) (b : Bool) : State :=
  s.setQuery q { s.queries q with isInprogress := b }

/-- A bucket is changed. -/
def atBucket (i : Int) (f : RampBucket → RampBucket) : State :=
  { s with buckets := fun j => if j = i then f (s.buckets j) else s.buckets j }

/-- A query is sent: from the list of available entries to the head of the other one. -/
def moveOutstanding (q : Nat) : State :=
  { s.setQuery q { s.queries q with list := .outstanding } with
    instanding := s.instanding.erase q
    outstanding := q :: s.outstanding
    numQueriesSent := s.numQueriesSent + 1
    numQueriesOutstanding := s.numQueriesOutstanding + 1 }

/-- A query is done with: to the tail of the list of available entries. -/
def moveInstanding (q : Nat) : State :=
  { s.setQuery q { s.queries q with list := .instanding } with
    outstanding := s.outstanding.erase q
    instanding := s.instanding ++ [q]
    numQueriesOutstanding := toUint64 (s.numQueriesOutstanding - 1)
    log := .settled q :: s.log }

/-- A query that got no response in time. -/
def expire (q : Nat) : State :=
  let s := s.moveInstanding q
  { s with numQueriesTimedOut := s.numQueriesTimedOut + 1 }

/-- `enter_sustain_phase`. -/
def enterSustainPhase : State :=
  { s with phase := .sustain, sustainPhaseBegan := s.timeNow }

/-- `enter_wait_phase`. -/
def enterWaitPhase : State :=
  { s with phase := .wait, waitPhaseBegan := s.timeNow }

end State

namespace RampBucket

variable (b : RampBucket)

/-- `b->queries++`. -/
def query : RampBucket := { b with queries := toInt (b.queries + 1) }

/-- `b->connections++`. -/
def connection : RampBucket := { b with connections := toInt (b.connections + 1) }

/-- `b->responses++`, and `b->failures++` unless the rcode is NOERROR or NXDOMAIN. -/
def response (rcode : Fin 16) : RampBucket :=
  { b with
    responses := toInt (b.responses + 1)
    failures := if rcode = 0 ∨ rcode = 3 then b.failures else toInt (b.failures + 1) }

end RampBucket

/-! ### What comes from outside -/

/-- A callback from `perf_net_sockready`. -/
inductive Callback
  | sent (qid : Nat)
  | event (event : SocketEvent)
  deriving DecidableEq

/-- A call of `perf_net_sockready`. -/
structure SockReady where
  callbacks : List Callback
  result : Int
  deriving DecidableEq

/-- How `perf_net_sendto` ends: with a positive count, with `EINPROGRESS`, or with another
error. -/
inductive SendtoResult
  | sent
  | inprogress
  | failed
  deriving DecidableEq

/-- What the calls in `do_one_line` come to. -/
structure SendCall where
  /-- `perf_net_sockready` for the queries in progress; beyond the list it fails. -/
  inprogress : List SockReady
  /-- `perf_net_sockready` for the query to be sent. -/
  ready : SockReady
  /-- `perf_datafile_next`. -/
  next : PerfResult
  /-- `perf_dns_buildrequest`. -/
  build : PerfResult
  /-- The calls of `perf__net_event` from `perf_net_sendto`. -/
  events : List SocketEvent
  sendto : SendtoResult
  deriving DecidableEq

/-- How `perf_net_recv` ends. -/
inductive RecvResult
  | again
  | failed
  | packet (bytes : Bytes)
  deriving DecidableEq

/-- What the calls in `try_process_response` come to. -/
structure RecvCall where
  ready : SockReady
  events : List SocketEvent
  recv : RecvResult
  deriving DecidableEq

/-- Nothing there. -/
def RecvCall.none : RecvCall := ⟨⟨[], 0⟩, [], .again⟩

/-- What comes from outside in one iteration. -/
structure Iteration where
  send : SendCall
  /-- Beyond the list nothing is there. -/
  recvs : List RecvCall
  /-- `perf_get_time`, at the end of the iteration. -/
  now : Nat
  deriving DecidableEq

namespace Setup

variable (c : Setup)

/-! ### Buckets -/

/-- `find_bucket`. -/
def findBucket (when_ : Nat) : Int :=
  let sentAt := toUint64 (when_ - c.timeOfProgramStart)
  let i := toInt (toUint64 (c.nBuckets * sentAt) / c.trafficTime : Nat)
  -- Guard against array bounds violations due to roundoff errors or scheduling jitter
  let i := if i < 0 then 0 else i
  if c.nBuckets - 1 < i then c.nBuckets - 1 else i

/-! ### Callbacks -/

/-- `perf__net_event`. -/
def perfNetEvent (s : State) : SocketEvent → State
  | .reconnected | .connected =>
      { s.atBucket (c.findBucket s.timeNow) RampBucket.connection with
        numConnCompleted := s.numConnCompleted + 1 }
  | .reconnecting | .connecting => { s with numConnAttempts := s.numConnAttempts + 1 }

/-- `perf__net_sent`; `none` is its assertion. -/
def perfNetSent (sock : Nat) (s : State) (qid : Nat) : Option State :=
  let s := s.atBucket (c.findBucket s.timeNow) RampBucket.query
  let idx := qid * c.nsocks + sock
  if idx < c.maxOutstanding then
    some ((s.setSentTimestamp idx s.timeNow).record (.completed idx (s.queries idx)))
  else none

def callback (sock : Nat) (s : State) : Callback → Option State
  | .sent qid => c.perfNetSent sock s qid
  | .event event => some (c.perfNetEvent s event)

/-- `perf_net_sockready`, as far as it calls back. -/
def perfNetSockready (s : State) (sock : Nat) (r : SockReady) : Option State :=
  r.callbacks.foldlM (c.callback sock) s

/-! ### Sending -/

/-- The start of `do_one_line`: the queries whose sending was in progress are now sent. Ends with
the entry for the next query, or with a result to return. -/
def finishInprogress (readies : List SockReady) (s : State) :
    Option (State × Except PerfResult Nat) :=
  match s.instanding.head? with
  | none => some (s, .error .nomore)
  | some q =>
      if (s.queries q).isInprogress then
        match readies with
        | [] => some (s, .error .failure)
        | r :: readies => do
            let s ← c.perfNetSockready s (q % c.nsocks) r
            if r.result = -1 then some (s, .error .failure)
            else finishInprogress readies ((s.setInprogress q false).moveOutstanding q)
      else some (s, .ok q)

/-- `do_one_line`; `none` is the fatal `ran out of query data`, or an assertion. -/
def doOneLine (s : State) (call : SendCall) : Option (PerfResult × State) := do
  match ← c.finishInprogress call.inprogress s with
  | (s, .error result) => some (result, s)
  | (s, .ok q) =>
      let s ← c.perfNetSockready s (q % c.nsocks) call.ready
      if call.ready.result = 0 ∨ call.ready.result = -1 then some (.failure, s)
      else if call.next ≠ .success then none
      else if call.build ≠ .success then some (call.build, s)
      else
        let s := s.setSentTimestamp q s.timeNow
        let s := call.events.foldl c.perfNetEvent s
        match call.sendto with
        | .inprogress => some (.failure, (s.setInprogress q true).record (.deferred q))
        | .failed => some (.failure, s)
        | .sent => some (.success, (s.moveOutstanding q).record (.transmitted q))

/-! ### Responses -/

/-- A response to query `q`. -/
def respond (s : State) (q : Nat) (rcode : Fin 16) : State :=
  let s := s.moveInstanding q
  let s := s.atBucket (c.findBucket (s.queries q).sentTimestamp) (RampBucket.response · rcode)
  { s with
    numResponsesReceived := s.numResponsesReceived + 1
    rcodecounts := Function.update s.rcodecounts rcode (s.rcodecounts rcode + 1) }

/-- `try_process_response`; `none` is a fatal error. -/
def tryProcessResponse (s : State) (sockindex : Nat) (call : RecvCall) : Option State := do
  let s ← c.perfNetSockready s sockindex call.ready
  let s := call.events.foldl c.perfNetEvent s
  match call.recv with
  | .again => some s
  | .failed => none
  | .packet bytes =>
      -- closed, or a short response
      if bytes.length < 4 then some s
      else
        let qid := ofBe16 (bytes.getD 0 0) (bytes.getD 1 0)
        let rcode := Fin.ofNat 16 (ofBe16 (bytes.getD 2 0) (bytes.getD 3 0))
        let idx := toUint32 (qid * c.nsocks + sockindex : Nat)
        -- an unexpected id
        if c.maxOutstanding ≤ idx ∨ (s.queries idx).list ≠ .outstanding then
          let q := qid * c.nsocks + sockindex
          some (s.record (.rejected q (s.queries q)))
        else some (c.respond s idx rcode)

/-- The loop over the sockets. -/
def receive : Nat → List RecvCall → State → Option State
  | 0, _, s => some s
  | i + 1, calls, s => do
      let s ← c.tryProcessResponse { s with currentSock := s.currentSock + 1 } s.currentSock
        (calls.headD .none)
      receive i calls.tail (if c.nsocks ≤ s.currentSock then { s with currentSock := 0 } else s)

/-- The loop of `retire_old_queries`. A round takes a query off the list, so as many rounds as
there are queries on it are enough. -/
def retire : Nat → State → State
  | 0, s => s
  | fuel + 1, s =>
      match s.outstanding.getLast? with
      | none => s
      | some q =>
          if toUint64 (s.timeNow - (s.queries q).sentTimestamp) < c.queryTimeout then s
          else retire fuel (s.expire q)

/-- `retire_old_queries`. -/
def retireOldQueries (s : State) : State := c.retire s.outstanding.length s

/-! ### The main loop -/

/-- `time_since_start`. -/
def timeSinceStart (s : State) : Nat := toUint64 (s.timeNow - c.timeOfProgramStart)

/-- The phase changes at the start of an iteration; `none` is the end of the loop. -/
def switchPhase (s : State) : Option State :=
  match s.phase with
  | .ramp => some (if c.rampTime ≤ c.timeSinceStart s then s.enterSustainPhase else s)
  | .sustain => some (if c.trafficTime ≤ c.timeSinceStart s then s.enterWaitPhase else s)
  | .wait => if c.endTime ≤ c.timeSinceStart s ∨ s.outstanding = [] then none else some s

/-- `should_send`. -/
def shouldSend (s : State) : Int :=
  toInt (c.numScheduled s.phase (c.timeSinceStart s) - s.numQueriesSent)

/-- The sending part of an iteration. -/
def sendDue (s : State) (call : SendCall) : Option State :=
  if s.phase = .wait then some s
  else
    let due := c.shouldSend s
    -- an `int` compared with an `unsigned int`
    let s := if c.maxFallBehind ≠ 0 ∧ c.maxFallBehind ≤ toUint32 due then s.enterWaitPhase else s
    if 0 < due then do
      let (result, s) ← c.doOneLine s call
      some (if result = .success then s.atBucket (c.findBucket s.timeNow) RampBucket.query
        else if result = .nomore then s.enterWaitPhase
        else s)
    else some s

/-- **One iteration of the main loop**; `none` is its end, or the end of the program. -/
def next (s : State) (it : Iteration) : Option State := do
  let s ← c.switchPhase s
  let s ← c.sendDue s it.send
  let s ← c.receive c.tryResponses it.recvs s
  let s := c.retireOldQueries s
  some { s with timeNow := it.now }

/-- The static variables after `setup`, without its calls of `perf_net_opensocket`. -/
def initial : State where
  queries := fun _ => ⟨0, false, .instanding⟩
  instanding := List.range c.maxOutstanding
  outstanding := []
  numQueriesSent := 0
  numQueriesOutstanding := 0
  numResponsesReceived := 0
  numQueriesTimedOut := 0
  rcodecounts := fun _ => 0
  numConnCompleted := 0
  numConnAttempts := 0
  timeNow := c.timeOfProgramStart
  buckets := fun _ => ⟨0, 0, 0, 0⟩
  phase := .ramp
  sustainPhaseBegan := 0
  waitPhaseBegan := 0
  currentSock := 0
  log := []

/-- The state at the start of the main loop, after the calls of `perf__net_event` from
`perf_net_opensocket`. -/
def start (opened : List SocketEvent) : State := opened.foldl c.perfNetEvent c.initial

end Setup

end Dnsperf.Resperf
