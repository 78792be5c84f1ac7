import GtpMeter.Diameter
import GtpMeter.Gtpu
import GtpMeter.MeterData
import GtpMeter.Net

/-!
# The ingest thread

`pipeline.hpp`: from the bytes of a frame to events on the meter ring and the Gy ring,
with the counters of the thread.  A ring that was not given is `none`.  The threads at
the other ends of the rings pop whenever they like: how often each has popped between
two pushes is part of the state.
-/

namespace GtpMeter

structure IngestStats where
  frames : UInt64 := 0
  framesBytes : UInt64 := 0
  nonIp : UInt64 := 0
  notGtpuPort : UInt64 := 0
  gtpuParseErrors : UInt64 := 0
  gtpuGpdus : UInt64 := 0
  gtpuControl : UInt64 := 0
  innerParseErrors : UInt64 := 0
  diameterMessages : UInt64 := 0
  diameterParseErrors : UInt64 := 0
  gyEvents : UInt64 := 0
  eventsPushed : UInt64 := 0
  eventsDropped : UInt64 := 0
  gyEventsDropped : UInt64 := 0
  truncatedFrames : UInt64 := 0
deriving DecidableEq

inductive FrameOutcome where
  | metered
  | gyControl
  | gtpuControl
  | notOurTraffic
  | parseError
  | dropped
deriving DecidableEq, Repr

structure IngestConfig where
  gtpuPort : UInt16 := kGtpuPort
  diameterPort : UInt16 := kDiameterPort
  parseDiameter : Bool := true
  countWireBytes : Bool := true
  /-- Meter the declared length of the inner packet and not the captured bytes. -/
  meterInnerIpLength : Bool := true
deriving DecidableEq

structure Ingest where
  cfg : IngestConfig := {}
  meterRing : Option (SpscRing MeterEvent) := none
  gyRing : Option (SpscRing GyEvent) := none
  stats : IngestStats := {}
  /-- Pops of the meter ring before each push. -/
  meterPops : Nat → Nat := fun _ => 0
  meterPushes : Nat := 0
  /-- Pops of the Gy ring before each push. -/
  gyPops : Nat → Nat := fun _ => 0
  gyPushes : Nat := 0

namespace Ingest

section Rings

/-- Full means that the metering thread is behind: drop and count. -/
def pushEvent (ing : Ingest) (ev : MeterEvent) : Ingest × Bool :=
  match ing.meterRing with
  | none => ({ ing with stats.eventsPushed := ing.stats.eventsPushed + 1 }, true)
  | some q =>
      let pushed := (q.popTimes (ing.meterPops ing.meterPushes)).tryPush ev
      let ing := { ing with meterRing := some pushed.1, meterPushes := ing.meterPushes + 1 }
      if pushed.2 then
        ({ ing with stats.eventsPushed := ing.stats.eventsPushed + 1 }, true)
      else
        ({ ing with stats.eventsDropped := ing.stats.eventsDropped + 1 }, false)

/-- The event of block `i` of a message. -/
def gyEvent (gy : GyMessage) (tsNs : UInt64) (i : Nat) : Except OutOfBounds GyEvent :=
  let ev : GyEvent := {
    tsNs
    imsi := gy.imsi
    hasImsi := gy.hasImsi
    isRequest := gy.isRequest
    ccRequestType := gy.ccRequestType
    ccRequestNumber := gy.ccRequestNumber
    resultCode := gy.resultCode }
  if gy.msccCount = 0 then .ok ev
  else
    match gy.mscc[i]? with
    | none => .error (.read i 1)
    | some m =>
        .ok { ev with
          ratingGroup := m.ratingGroup
          usedInputOctets := m.usedInputOctets
          usedOutputOctets := m.usedOutputOctets
          usedTotalOctets := m.usedTotalOctets
          grantedTotalOctets := m.grantedTotalOctets
          hasUsed := m.hasUsed
          hasGranted := m.hasGranted }

def pushGy (ing : Ingest) (ev : GyEvent) : Ingest × Bool :=
  let ing := { ing with stats.gyEvents := ing.stats.gyEvents + 1 }
  match ing.gyRing with
  | none => (ing, true)
  | some q =>
      let pushed := (q.popTimes (ing.gyPops ing.gyPushes)).tryPush ev
      let ing := { ing with gyRing := some pushed.1, gyPushes := ing.gyPushes + 1 }
      if pushed.2 then (ing, true)
      else
        ({ ing with stats.gyEventsDropped := ing.stats.gyEventsDropped + 1 }, false)

/-- Whether the meter ring takes the next event. -/
def meterTakes (ing : Ingest) (ev : MeterEvent) : Bool :=
  match ing.meterRing with
  | none => true
  | some q => ((q.popTimes (ing.meterPops ing.meterPushes)).tryPush ev).2

theorem meterTakes_any (ing : Ingest) (ev ev' : MeterEvent) :
    ing.meterTakes ev = ing.meterTakes ev' := by
  unfold meterTakes
  cases ing.meterRing with
  | none => rfl
  | some q => exact SpscRing.tryPush_success _ ev ev'

/-- What a push of a meter event does to the thread, in one piece. -/
theorem pushEvent_eq (ing : Ingest) (ev : MeterEvent) :
    ing.pushEvent ev =
      ({ ing with
          meterRing := ing.meterRing.map (fun q =>
            ((q.popTimes (ing.meterPops ing.meterPushes)).tryPush ev).1)
          meterPushes := ing.meterPushes + if ing.meterRing.isSome then 1 else 0
          stats.eventsPushed :=
            ing.stats.eventsPushed + if ing.meterTakes ev then 1 else 0
          stats.eventsDropped :=
            ing.stats.eventsDropped + if ing.meterTakes ev then 0 else 1 },
        ing.meterTakes ev) := by
  obtain ⟨cfg, meterRing, gyRing, stats, meterPops, meterPushes, gyPops, gyPushes⟩ := ing
  cases meterRing with
  | none => simp [pushEvent, meterTakes]
  | some q =>
      cases htaken : ((q.popTimes (meterPops meterPushes)).tryPush ev).2 with
      | false | true => simp [pushEvent, meterTakes, htaken]

/-- Whether the Gy ring takes the next event. -/
def gyTakes (ing : Ingest) (ev : GyEvent) : Bool :=
  match ing.gyRing with
  | none => true
  | some q => ((q.popTimes (ing.gyPops ing.gyPushes)).tryPush ev).2

/-- What a push of a Gy event does to the thread, in one piece. -/
theorem pushGy_eq (ing : Ingest) (ev : GyEvent) :
    ing.pushGy ev =
      ({ ing with
          gyRing := ing.gyRing.map (fun q =>
            ((q.popTimes (ing.gyPops ing.gyPushes)).tryPush ev).1)
          gyPushes := ing.gyPushes + if ing.gyRing.isSome then 1 else 0
          stats.gyEvents := ing.stats.gyEvents + 1
          stats.gyEventsDropped :=
            ing.stats.gyEventsDropped + if ing.gyTakes ev then 0 else 1 },
        ing.gyTakes ev) := by
  obtain ⟨cfg, meterRing, gyRing, stats, meterPops, meterPushes, gyPops, gyPushes⟩ := ing
  cases gyRing with
  | none => simp [pushGy, gyTakes]
  | some q =>
      cases htaken : ((q.popTimes (gyPops gyPushes)).tryPush ev).2 with
      | false => simp [pushGy, gyTakes, htaken]
      | true => simp [pushGy, gyTakes, htaken]

/-- The loop of `emit_gy_events`: `left` more blocks from `i` on. -/
def emitGyLoop (gy : GyMessage) (tsNs : UInt64) :
    Nat → Nat → Ingest → Bool → Except OutOfBounds (Ingest × Bool)
  | 0, _, ing, any => .ok (ing, any)
  | left + 1, i, ing, any => do
      let ev ← gyEvent gy tsNs i
      let pushed := ing.pushGy ev
      emitGyLoop gy tsNs left (i + 1) pushed.1 (any || pushed.2)

/-- One event per block; one for a message without blocks. -/
def emitGyEvents (ing : Ingest) (gy : GyMessage) (tsNs : UInt64) :
    Except OutOfBounds (Ingest × Bool) :=
  emitGyLoop gy tsNs (if gy.msccCount = 0 then 1 else gy.msccCount) 0 ing false

end Rings

section Gtpu

/-- The event of a PDU before its payload is looked at. -/
def headerEvent (cfg : IngestConfig) (h : GtpuHeader) (tsNs : UInt64) (wireBytes : UInt16) :
    MeterEvent :=
  let ev : MeterEvent := {
    tsNs
    teid := h.teid
    msgType := h.msgType
    wireBytes := if cfg.countWireBytes then wireBytes else 0 }
  if h.hasQfi then
    { ev with
      qfi := h.qfi
      flags := ev.flags ||| MeterEvent.kFlagHasQfi
      dir := (if h.pduType = PduSessionInfoType.uplink.code then Direction.uplink
        else Direction.downlink).code }
  else ev

/-- What the inner packet adds. -/
def innerEvent (cfg : IngestConfig) (ev : MeterEvent) (inner : IpPacket)
    (payloadSize : Nat) : MeterEvent :=
  let flags := ev.flags ||| MeterEvent.kFlagInnerParsed
  { ev with
    bytes := if cfg.meterInnerIpLength then inner.ipTotalLen else UInt32.ofNat payloadSize
    ipVersion := inner.tuple.ipVersion
    proto := inner.tuple.proto
    srcPort := inner.tuple.srcPort
    dstPort := inner.tuple.dstPort
    flowKey := GtpMeter.flowKey inner.tuple
    srcIp := if inner.tuple.ipVersion = 4 then inner.tuple.srcV4 else ev.srcIp
    dstIp := if inner.tuple.ipVersion = 4 then inner.tuple.dstV4 else ev.dstIp
    flags := if inner.tuple.fragmented then flags ||| MeterEvent.kFlagFragmented else flags }

/-- Push, and report `outcome` unless the ring was full. -/
def finish (ing : Ingest) (ev : MeterEvent) (outcome : FrameOutcome) : Ingest × FrameOutcome :=
  let pushed := ing.pushEvent ev
  (pushed.1, if pushed.2 then outcome else .dropped)

/-- A PDU that parsed. -/
def meterGtpu (ing : Ingest) (h : GtpuHeader) (tsNs : UInt64) (wireBytes : UInt16) :
    Except OutOfBounds (Ingest × FrameOutcome) :=
  let ev := headerEvent ing.cfg h tsNs wireBytes
  if !h.isGpdu then
    let ing := { ing with stats.gtpuControl := ing.stats.gtpuControl + 1 }
    .ok (ing.finish
      { ev with flags := ev.flags ||| MeterEvent.kFlagControlPdu, bytes := 0 } .gtpuControl)
  else do
    let ing := { ing with stats.gtpuGpdus := ing.stats.gtpuGpdus + 1 }
    let inner ← parseIp h.payload
    if inner.valid then
      .ok (ing.finish (innerEvent ing.cfg ev inner h.payload.size) .metered)
    else
      -- not IP inside the tunnel, or cut short: the bytes are charged all the same
      let ing := { ing with stats.innerParseErrors := ing.stats.innerParseErrors + 1 }
      .ok (ing.finish { ev with bytes := UInt32.ofNat h.payload.size } .metered)

/-- The UDP payload of a GTP-U packet. -/
def processGtpu (ing : Ingest) (gtpuPdu : Span) (tsNs : UInt64) (wireBytes : UInt16) :
    Except OutOfBounds (Ingest × FrameOutcome) := do
  let (st, h) ← parseGtpu gtpuPdu
  if st ≠ .ok then
    let ing := { ing with stats.gtpuParseErrors := ing.stats.gtpuParseErrors + 1 }
    let ing :=
      if st = .truncated then
        { ing with stats.truncatedFrames := ing.stats.truncatedFrames + 1 }
      else ing
    .ok (ing, .parseError)
  else ing.meterGtpu h tsNs wireBytes

end Gtpu

section Diameter

/-- What a segment has come to: whether it produced an event. -/
def diameterOutcome (produced : Bool) (otherwise : FrameOutcome) : FrameOutcome :=
  if produced then .gyControl else otherwise

/-- A message that parsed. -/
def countDiameter (ing : Ingest) (hdr : DiameterHeader) (gy : GyMessage) (tsNs : UInt64)
    (produced : Bool) : Except OutOfBounds (Ingest × Bool) :=
  let ing := { ing with stats.diameterMessages := ing.stats.diameterMessages + 1 }
  if hdr.isCreditControl then do
    let (ing, any) ← ing.emitGyEvents gy tsNs
    .ok (ing, any || produced)
  else .ok (ing, produced)

/-- The loop over the messages of a segment. -/
def diameterLoop (payload : Span) (tsNs : UInt64) (offset : Nat) (ing : Ingest)
    (produced : Bool) : Except OutOfBounds (Ingest × FrameOutcome) :=
  if offset + kDiameterHeaderLen ≤ payload.size then do
    let rest ← payload.suffix offset
    let (st, hdr, gy) ← parseDiameterGy rest
    if st ≠ .ok then
      .ok ({ ing with stats.diameterParseErrors := ing.stats.diameterParseErrors + 1 },
        diameterOutcome produced .parseError)
    else do
      let (ing, produced) ← ing.countDiameter hdr gy tsNs produced
      if hdr.msgLength = 0 then .ok (ing, diameterOutcome produced .notOurTraffic)
      else diameterLoop payload tsNs (offset + hdr.msgLength.toNat) ing produced
  else .ok (ing, diameterOutcome produced .notOurTraffic)
termination_by payload.size - offset
decreasing_by
  have hpos : hdr.msgLength.toNat ≠ 0 := fun h =>
    absurd (UInt32.toNat_inj.mp h) ‹¬hdr.msgLength = 0›
  have : kDiameterHeaderLen = 20 := rfl
  omega

/-- A buffer that holds Diameter messages. -/
def processDiameter (ing : Ingest) (payload : Span) (tsNs : UInt64) :
    Except OutOfBounds (Ingest × FrameOutcome) :=
  if payload.size = 0 then .ok (ing, .notOurTraffic)
  else diameterLoop payload tsNs 0 ing false

end Diameter

section Frames

/-- A packet without Ethernet header. -/
def processIp (ing : Ingest) (ipPacket : Span) (tsNs : UInt64) (wireBytes : UInt16) :
    Except OutOfBounds (Ingest × FrameOutcome) := do
  let outer ← parseIp ipPacket
  let t := outer.tuple
  if !outer.valid then
    .ok ({ ing with stats.nonIp := ing.stats.nonIp + 1 }, .notOurTraffic)
  else if t.proto = IpProto.udp.code ∧
      (t.dstPort = ing.cfg.gtpuPort ∨ t.srcPort = ing.cfg.gtpuPort) then
    ing.processGtpu outer.l4Payload tsNs wireBytes
  else if ing.cfg.parseDiameter ∧
      (t.proto = IpProto.tcp.code ∨ t.proto = IpProto.sctp.code) ∧
      (t.dstPort = ing.cfg.diameterPort ∨ t.srcPort = ing.cfg.diameterPort) then
    ing.processDiameter outer.l4Payload tsNs
  else .ok ({ ing with stats.notGtpuPort := ing.stats.notGtpuPort + 1 }, .notOurTraffic)

/-- One Ethernet frame captured at `tsNs`. -/
def processFrame (ing : Ingest) (frame : Span) (tsNs : UInt64) :
    Except OutOfBounds (Ingest × FrameOutcome) := do
  let ing := { ing with
    stats.frames := ing.stats.frames + 1
    stats.framesBytes := ing.stats.framesBytes + UInt64.ofNat frame.size }
  let eth ← parseEthernet frame
  if !eth.valid then
    .ok ({ ing with stats.nonIp := ing.stats.nonIp + 1 }, .notOurTraffic)
  else ing.processIp eth.payload tsNs (UInt16.ofNat frame.size)

end Frames
end Ingest
end GtpMeter
