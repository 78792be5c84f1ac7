import GtpMeter.AccountingSlots
import GtpMeter.Attribution
import GtpMeter.AvpCodec
import GtpMeter.BusiestFlows
import GtpMeter.CaptureFiles
import GtpMeter.Decapsulation
import GtpMeter.DiameterTransports
import GtpMeter.DrainedUsage
import GtpMeter.FailedLearning
import GtpMeter.FlowLedger
import GtpMeter.GyBlocks
import GtpMeter.GyCrosscheck
import GtpMeter.GyRoundTrip
import GtpMeter.Ipv6Chains
import GtpMeter.LatencyQuantiles
import GtpMeter.NonIpFlows
import GtpMeter.PcapReplay
import GtpMeter.RecordIdentity
import GtpMeter.RuntimeThreads
import GtpMeter.Seqlock
import GtpMeter.SessionFiles
import GtpMeter.SnapshotOrder
import GtpMeter.StatsJson
import GtpMeter.SweepCoverage
import GtpMeter.TopTalkers
import GtpMeter.UsageRecordLines
import GtpMeter.UsedUnits
import GtpMeter.VendorAvps
import GtpMeter.CellHandover
import GtpMeter.SeqlockReleaseAcquire
import GtpMeter.SnapshotReleaseAcquire
import GtpMeter.SpscReleaseAcquire
import GtpMeter.RuntimeBilling
import GtpMeter.EngineReturns
import GtpMeter.RollingDetail
