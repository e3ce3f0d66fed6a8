import ZeroTrust.Lib.Loop
import ZeroTrust.Lib.PaddedLex
import ZeroTrust.Lib.KeyedMerge
import ZeroTrust.Lib.Components
import ZeroTrust.Lib.Effect
import ZeroTrust.Lib.Interleaving
import ZeroTrust.Lib.Runs
import ZeroTrust.Lib.OnesComplement
import ZeroTrust.Lib.ServerSentEvents
import ZeroTrust.Lib.SideBySide
import ZeroTrust.Lib.TracedCache
import ZeroTrust.Core.Survivors
import ZeroTrust.Core.Identity
import ZeroTrust.Ztl.LexerRender
import ZeroTrust.Ztl.RoundTrip
import ZeroTrust.Ztl.Positions
import ZeroTrust.Ztl.TokenPositions
import ZeroTrust.Ztl.ParserProgress
import ZeroTrust.Ztl.Runner
import ZeroTrust.Ztl.Indexing
import ZeroTrust.Ztl.HttpFormat
import ZeroTrust.Ztl.Callbacks
import ZeroTrust.Ztl.Containment
import ZeroTrust.Ztl.Steps
import ZeroTrust.Ztl.Atomicity
import ZeroTrust.Ztl.Reported
import ZeroTrust.Ztl.Schedulers
import ZeroTrust.Ztl.Detection
import ZeroTrust.Ztl.Preload
import ZeroTrust.Ztl.HttpDetection
import ZeroTrust.Ztl.CipherCheck
import ZeroTrust.Ztl.CallCount
import ZeroTrust.Ztl.Scoping
import ZeroTrust.Ztl.Reformat
import ZeroTrust.Ztl.Capabilities
import ZeroTrust.Scan.Cve
import ZeroTrust.Scan.CveReports
import ZeroTrust.Scan.CvePaths
import ZeroTrust.Scan.TerrapinBounds
import ZeroTrust.Scan.TerrapinCuts
import ZeroTrust.Scan.DnsNames
import ZeroTrust.Scan.DnsMessage
import ZeroTrust.Scan.Cidr
import ZeroTrust.Scan.Versions
import ZeroTrust.Scan.DistroTags
import ZeroTrust.Scan.TlsChecks
import ZeroTrust.Scan.Processor
import ZeroTrust.Scan.PortScan
import ZeroTrust.Scan.TcpRange
import ZeroTrust.Scan.AskedPorts
import ZeroTrust.Scan.Reporter
import ZeroTrust.Processor.ThreadPool
import ZeroTrust.Processor.Wakeups
import ZeroTrust.Scan.PooledScan
import ZeroTrust.Scan.FullScan
import ZeroTrust.WebUi.Login
import ZeroTrust.WebUi.Sessions
import ZeroTrust.WebUi.Me
import ZeroTrust.WebUi.Cookies
import ZeroTrust.WebUi.Stream
import ZeroTrust.WebUi.FinalStatus
import ZeroTrust.WebUi.EventText
import ZeroTrust.WebUi.StringObject
import ZeroTrust.WebUi.StartScan
import ZeroTrust.WebUi.QueryText
import ZeroTrust.WebUi.SignIn
import ZeroTrust.WebUi.Dashboard
import ZeroTrust.Db.Findings
import ZeroTrust.WebUi.HistoryRuns
import ZeroTrust.Transport.IcmpChecksum
import ZeroTrust.Tools.FixTable
import ZeroTrust.Tools.Evidence
