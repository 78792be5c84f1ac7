import GtpMeter.SpscRing
import Mathlib.Data.Fin.Basic

/-!
# Data of the metering engine

The records of `meter.hpp`, `meter_event.hpp`, `usage_record.hpp` and
`session.hpp` that the engine reads and writes.  Byte, packet and time counters
are 64-bit words and wrap.  An array of three accounting slots is a function on
`Fin 3`; padding is left out.
-/

namespace GtpMeter

/-- Accounting slots per subscriber. -/
abbrev kBucketSlots : Nat := 3

instance : NeZero kBucketSlots :=
  ⟨by decide⟩

/-- The slot that takes every bucket beyond the first two. -/
abbrev kAggregateSlot : Fin kBucketSlots := 2

/-- Marks the id of a bucket that stands for a QFI. -/
def kQfiBucketTag : UInt32 := 0x80000000

/-- The id of a bucket slot that is not in use. -/
def kUnsetBucket : UInt32 := 0xFFFFFFFF

/-- Which way a packet goes. -/
inductive Direction where
  | uplink
  | downlink
  | unknown
deriving DecidableEq, Repr

/-- The underlying byte.  Events and bindings carry the byte, which a parser may
have set to anything. -/
def Direction.code : Direction → UInt8
  | .uplink => 0
  | .downlink => 1
  | .unknown => 2

/-- Why a usage record was cut. -/
inductive RecordReason where
  | interval
  | volume
  | release
  | shutdown
  | gyTrigger
deriving DecidableEq, Repr

/-- The byte of a record. -/
def RecordReason.code : RecordReason → UInt8
  | .interval => 0
  | .volume => 1
  | .release => 2
  | .shutdown => 3
  | .gyTrigger => 4

/-- A packet as the metering thread sees it. -/
structure MeterEvent where
  tsNs : UInt64 := 0
  flowKey : UInt64 := 0
  teid : UInt32 := 0
  bytes : UInt32 := 0
  srcIp : UInt32 := 0
  dstIp : UInt32 := 0
  srcPort : UInt16 := 0
  dstPort : UInt16 := 0
  wireBytes : UInt16 := 0
  proto : UInt8 := 0
  qfi : UInt8 := 0
  dir : UInt8 := Direction.unknown.code
  msgType : UInt8 := 0
  ipVersion : UInt8 := 0
  flags : UInt8 := 0
deriving DecidableEq, Inhabited

namespace MeterEvent

/-- The packet carries a QFI. -/
def kFlagHasQfi : UInt8 := 1

/-- The inner packet is a fragment. -/
def kFlagFragmented : UInt8 := 2

/-- The inner packet was parsed. -/
def kFlagInnerParsed : UInt8 := 4

/-- Echo, Error Indication or End Marker. -/
def kFlagControlPdu : UInt8 := 8

/-- The flag of a QFI is set. -/
def hasQfi (ev : MeterEvent) : Bool :=
  ev.flags &&& kFlagHasQfi != 0

/-- The flag of a parsed inner packet is set. -/
def innerParsed (ev : MeterEvent) : Bool :=
  ev.flags &&& kFlagInnerParsed != 0

/-- Echo, Error Indication or End Marker. -/
def isControl (ev : MeterEvent) : Bool :=
  ev.flags &&& kFlagControlPdu != 0

end MeterEvent

/-- Charging control event lifted from a Gy message, one per MSCC block. -/
structure GyEvent where
  tsNs : UInt64 := 0
  imsi : UInt64 := 0
  usedInputOctets : UInt64 := 0
  usedOutputOctets : UInt64 := 0
  usedTotalOctets : UInt64 := 0
  grantedTotalOctets : UInt64 := 0
  ratingGroup : UInt32 := 0
  ccRequestType : UInt32 := 0
  ccRequestNumber : UInt32 := 0
  resultCode : UInt32 := 0
  isRequest : Bool := false
  hasUsed : Bool := false
  hasGranted : Bool := false
  hasImsi : Bool := false
deriving DecidableEq, Inhabited

/-- What a session is installed with. -/
structure SessionSpec where
  imsi : UInt64 := 0
  ulTeid : UInt32 := 0
  dlTeid : UInt32 := 0
  ratingGroup : UInt32 := 0
deriving DecidableEq

/-- There is an IMSI and at least one TEID. -/
def SessionSpec.valid (spec : SessionSpec) : Bool :=
  spec.imsi != 0 && (spec.ulTeid != 0 || spec.dlTeid != 0)

/-- A usage record, as it is written out. -/
structure UsageRecord where
  recordWallNs : UInt64 := 0
  intervalStartNs : UInt64 := 0
  intervalEndNs : UInt64 := 0
  imsi : UInt64 := 0
  ulBytes : UInt64 := 0
  dlBytes : UInt64 := 0
  ulPackets : UInt64 := 0
  dlPackets : UInt64 := 0
  bucketBytes : Fin kBucketSlots → UInt64 := fun _ => 0
  bucketIds : Fin kBucketSlots → UInt32 := fun _ => kUnsetBucket
  subscriberIndex : UInt32 := 0
  recordSeq : UInt32 := 0
  reason : UInt8 := 0
  bucketAggregated : Bool := false

instance : Inhabited UsageRecord := ⟨{}⟩

/-- Hot counters of a subscriber. -/
structure SubscriberCounters where
  ulBytes : UInt64 := 0
  dlBytes : UInt64 := 0
  ulPackets : UInt64 := 0
  dlPackets : UInt64 := 0
  bucketBytes : Fin kBucketSlots → UInt64 := fun _ => 0
  lastSeenNs : UInt64 := 0

/-- Cold state of a subscriber, under the same index. -/
structure SubscriberInfo where
  imsi : UInt64 := 0
  firstSeenNs : UInt64 := 0
  intervalStartNs : UInt64 := 0
  emittedUlBytes : UInt64 := 0
  emittedDlBytes : UInt64 := 0
  emittedUlPackets : UInt64 := 0
  emittedDlPackets : UInt64 := 0
  emittedBucketBytes : Fin kBucketSlots → UInt64 := fun _ => 0
  gyReportedOctets : UInt64 := 0
  gyLastNs : UInt64 := 0
  gyReports : UInt32 := 0
  bucketIds : Fin kBucketSlots → UInt32 := fun _ => kUnsetBucket
  recordSeq : UInt32 := 0
  defaultRatingGroup : UInt32 := 0
  ulTeid : UInt32 := 0
  dlTeid : UInt32 := 0
  active : Bool := false
  bucketAggregated : Bool := false
  learned : Bool := false

/-- Value of the TEID table. -/
structure TeidBinding where
  subIdx : UInt32 := 0
  dir : UInt8 := Direction.unknown.code
  slot : UInt8 := 0
deriving DecidableEq

instance : Inhabited TeidBinding := ⟨{}⟩

/-- Flow table entry; key 0 marks an empty slot. -/
structure FlowEntry where
  key : UInt64 := 0
  bytes : UInt64 := 0
  packets : UInt64 := 0
  lastSeenNs : UInt64 := 0
  srcIp : UInt32 := 0
  dstIp : UInt32 := 0
  subIdx : UInt32 := 0
  teid : UInt32 := 0
  srcPort : UInt16 := 0
  dstPort : UInt16 := 0
  proto : UInt8 := 0
  ipVersion : UInt8 := 0
  qfi : UInt8 := 0
  dir : UInt8 := 0
deriving DecidableEq

/-- The counters of the engine. -/
structure PipelineStats where
  events : UInt64 := 0
  bytes : UInt64 := 0
  ulBytes : UInt64 := 0
  dlBytes : UInt64 := 0
  ulPackets : UInt64 := 0
  dlPackets : UInt64 := 0
  controlPdus : UInt64 := 0
  unknownTeidEvents : UInt64 := 0
  unknownTeidBytes : UInt64 := 0
  flowsActive : UInt64 := 0
  flowInserts : UInt64 := 0
  flowEvictions : UInt64 := 0
  recordsEmitted : UInt64 := 0
  recordsDropped : UInt64 := 0
  gyEvents : UInt64 := 0
  gyReportedOctets : UInt64 := 0
  subscribersInstalled : UInt64 := 0
  teidBindFailures : UInt64 := 0
  subscribersLearned : UInt64 := 0
  sessionsReleased : UInt64 := 0
  lastEventNs : UInt64 := 0
deriving DecidableEq

/-- Configuration; the sizes are `size_t` values. -/
structure MeterConfig where
  maxSubscribers : UInt64 := 1048576
  teidTableCapacity : UInt64 := 4194304
  flowTableCapacity : UInt64 := 1048576
  flowProbeWindow : UInt64 := 8
  reportIntervalNs : UInt64 := 10000000000
  volumeThresholdBytes : UInt64 := 104857600
  sweepPeriodNs : UInt64 := 100000000
  sweepFraction : UInt64 := 16
  trackFlows : Bool := true
  learnUnknownTeids : Bool := false
deriving DecidableEq

end GtpMeter
