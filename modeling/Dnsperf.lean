import Dnsperf.Lib.Framing
import Dnsperf.Lib.Run
import Dnsperf.Lib.Locked
import Dnsperf.Lib.LogLinear
import Dnsperf.Lib.Bucketing
import Dnsperf.Lib.Segments
import Dnsperf.Lib.CString
import Dnsperf.Lib.Base64
import Dnsperf.Lib.Ledger
import Dnsperf.Lib.Split
import Dnsperf.Lib.Dlist
import Dnsperf.Lib.Parse
import Dnsperf.Lib.LockedLog
import Dnsperf.Lib.ByteBits
import Dnsperf.Lib.RoundRobin
import Dnsperf.Buffer
import Dnsperf.PerfList
import Dnsperf.Dns.Dname
import Dnsperf.Dns.DnameText
import Dnsperf.Dns.Wire
import Dnsperf.Dns.DnameSound
import Dnsperf.Dns.DnameSpace
import Dnsperf.Dns.Qtype
import Dnsperf.Dns.QtypeSound
import Dnsperf.Dns.Edns
import Dnsperf.Dns.EdnsOption
import Dnsperf.Dns.Update
import Dnsperf.Dns.UpdateLoop
import Dnsperf.Dns.Request
import Dnsperf.Dns.RequestSound
import Dnsperf.Dns.UpdateSound
import Dnsperf.Dns.UpdateResult
import Dnsperf.Dns.DnameTotal
import Dnsperf.Dns.DnameShape
import Dnsperf.Dns.Tsig
import Dnsperf.Dns.RequestTotal
import Dnsperf.Dns.TsigSound
import Dnsperf.Dns.Signed
import Dnsperf.Dns.TsigKey
import Dnsperf.Dns.TsigAppend
import Dnsperf.Datafile.Model
import Dnsperf.Datafile.Refill
import Dnsperf.Datafile.Blob
import Dnsperf.Datafile.Line
import Dnsperf.Datafile.Pass
import Dnsperf.Datafile.Runs
import Dnsperf.Datafile.Endless
import Dnsperf.Datafile.LongLine
import Dnsperf.Datafile.Updates
import Dnsperf.Net.Stream
import Dnsperf.Net.Tcp
import Dnsperf.Net.Dot
import Dnsperf.Net.DotSync
import Dnsperf.Net.Deframe
import Dnsperf.Net.TcpFraming
import Dnsperf.Net.TcpLimit
import Dnsperf.Net.DotFraming
import Dnsperf.Net.TcpSync
import Dnsperf.Net.TcpSyncSound
import Dnsperf.Net.Doh
import Dnsperf.Net.DohSocket
import Dnsperf.Net.DohFeed
import Dnsperf.Net.DohClose
import Dnsperf.Net.DohReader
import Dnsperf.Net.DohStreams
import Dnsperf.Net.DohJudge
import Dnsperf.Net.DohGet
import Dnsperf.Net.ConnEvents
import Dnsperf.Net.ConnStats
import Dnsperf.Net.Readiness
import Dnsperf.Net.DotLimit
import Dnsperf.Net.Wakeup
import Dnsperf.Net.DohPost
import Dnsperf.Thread.Model
import Dnsperf.Thread.Lists
import Dnsperf.Thread.Flush
import Dnsperf.Thread.Steps
import Dnsperf.Thread.Shares
import Dnsperf.Thread.Books
import Dnsperf.Thread.Accounting
import Dnsperf.Lib.Quota
import Dnsperf.Thread.Pacing
import Dnsperf.Stats
import Dnsperf.Hg64
import Dnsperf.Histogram
import Dnsperf.Report
import Dnsperf.IntervalStats
import Dnsperf.Opt
import Dnsperf.Thread.Sockets
import Dnsperf.Thread.Shutdown
import Dnsperf.Thread.Fine
import Dnsperf.Thread.Latency
import Dnsperf.Thread.Links
import Dnsperf.Thread.Mirror
import Dnsperf.Thread.Limit
import Dnsperf.Lib.Descending
import Dnsperf.Thread.Order
import Dnsperf.Thread.Batch
import Dnsperf.Thread.Stopping
import Dnsperf.Thread.InProgress
import Dnsperf.Lib.IdPool
import Dnsperf.Lib.Dealer
import Dnsperf.Thread.Reuse
import Dnsperf.Thread.Waiting
import Dnsperf.Thread.Input
import Dnsperf.Resperf.Model
import Dnsperf.Resperf.Integers
import Dnsperf.Resperf.Buckets
import Dnsperf.Resperf.Index
import Dnsperf.Resperf.Changes
import Dnsperf.Resperf.Conservation
import Dnsperf.Resperf.Phases
import Dnsperf.Resperf.Ahead
import Dnsperf.Resperf.Behind
import Dnsperf.Resperf.Answers
import Dnsperf.Resperf.Plot
