import GtpMeter.MeterData
import GtpMeter.TransitionRuns

/-!
# The metering engine

`MeterEngine` from `meter.hpp`, function by function.

* A call returns in `Except Fault`: it may hang in a deletion from the TEID
  table, index outside a vector, or write through a null pointer.
* `counters_` and `info_` are functions on subscriber indices.  Their size is
  `max_subscribers`, and every access checks it.
* `imsi_index_` is a partial function.
* A `size_t` result of `SIZE_MAX` is `none`.
* Functions that emit usage records also return what they emitted, oldest
  first.  The source leaves no such trace; nothing in the engine reads it.
-/

namespace GtpMeter

/-- Why a call does not return normally. -/
inductive Fault where
  | hang
  | outOfRange
  | nullDeref
deriving DecidableEq, Repr

/-- What became of a record at the sink. -/
inductive SinkOutcome where
  | noSink
  | pushed
  | refused
deriving DecidableEq, Repr

/-- A record that `emit_record` built for subscriber `idx`. -/
structure Emission where
  idx : Nat
  record : UsageRecord
  outcome : SinkOutcome

/-- The record ring and what lies behind it.  The wall clock and the reporter
are outside the engine: `wall n` is the clock when record number `n` is built
and `pops n` is how often the reporter has popped since the record before. -/
structure RecordSink where
  ring : Option (SpscRing UsageRecord)
  wall : Nat → UInt64
  pops : Nat → Nat
  offered : Nat := 0

/-- Offer a record: `try_push` if a ring is attached. -/
def RecordSink.offer (sink : RecordSink) (r : UsageRecord) : RecordSink × SinkOutcome :=
  match sink.ring with
  | none => ({ sink with offered := sink.offered + 1 }, .noSink)
  | some q =>
      let pushed := (q.popTimes (sink.pops sink.offered)).tryPush r
      ({ sink with ring := some pushed.1, offered := sink.offered + 1 },
        if pushed.2 then .pushed else .refused)

structure MeterEngine where
  cfg : MeterConfig
  counters : Nat → SubscriberCounters
  info : Nat → SubscriberInfo
  teidMap : FlatHashU32 TeidBinding
  flows : Nat → FlowEntry
  flowCount : Nat
  flowMask : Nat
  imsiIndex : UInt64 → Option Nat
  sink : RecordSink
  stats : PipelineStats
  nextSub : Nat
  sweepCursor : Nat
  lastSweepNs : UInt64

namespace MeterEngine

def roundPow2 (v : Nat) : Nat :=
  if v < 2 then 2 else roundUpPow2 v

/-- The constructor, with the sink already attached. -/
def init (cfg : MeterConfig) (sink : RecordSink) : MeterEngine :=
  let flowCount := if cfg.trackFlows then roundPow2 cfg.flowTableCapacity.toNat else 0
  { cfg := cfg
    counters := fun _ => {}
    info := fun _ => {}
    teidMap := .init cfg.teidTableCapacity
    flows := fun _ => {}
    flowCount := flowCount
    flowMask := if flowCount = 0 then 0 else flowCount - 1
    imsiIndex := fun _ => none
    sink := sink
    stats := {}
    nextSub := 0
    sweepCursor := 0
    lastSweepNs := 0 }

/-- Size of `counters_` and of `info_`. -/
def tableSize (e : MeterEngine) : Nat :=
  e.cfg.maxSubscribers.toNat

def countersAt (e : MeterEngine) (i : Nat) : Except Fault SubscriberCounters :=
  if i < e.tableSize then .ok (e.counters i) else .error .outOfRange

def infoAt (e : MeterEngine) (i : Nat) : Except Fault SubscriberInfo :=
  if i < e.tableSize then .ok (e.info i) else .error .outOfRange

def setCounters (e : MeterEngine) (i : Nat) (c : SubscriberCounters) : MeterEngine :=
  { e with counters := Function.update e.counters i c }

def setInfo (e : MeterEngine) (i : Nat) (info : SubscriberInfo) : MeterEngine :=
  { e with info := Function.update e.info i info }

/-- The subscriber and direction a TEID is bound to. -/
def bindingOf (e : MeterEngine) (teid : UInt32) : Option TeidBinding :=
  e.teidMap.lookup hashU32 teid

section Records

/-- The record `emit_record` builds from the state of subscriber `idx`. -/
def makeRecord (c : SubscriberCounters) (info : SubscriberInfo) (idx : Nat)
    (reason : RecordReason) (nowNs wallNs : UInt64) : UsageRecord :=
  { recordWallNs := wallNs
    intervalStartNs := info.intervalStartNs
    intervalEndNs := nowNs
    imsi := info.imsi
    ulBytes := c.ulBytes - info.emittedUlBytes
    dlBytes := c.dlBytes - info.emittedDlBytes
    ulPackets := c.ulPackets - info.emittedUlPackets
    dlPackets := c.dlPackets - info.emittedDlPackets
    bucketBytes := fun i => c.bucketBytes i - info.emittedBucketBytes i
    bucketIds := info.bucketIds
    subscriberIndex := UInt32.ofNat idx
    recordSeq := info.recordSeq
    reason := reason.code
    bucketAggregated := info.bucketAggregated }

/-- The bookkeeping of `emit_record`, done before the push. -/
def markEmitted (c : SubscriberCounters) (info : SubscriberInfo) (nowNs : UInt64) :
    SubscriberInfo :=
  { info with
    recordSeq := info.recordSeq + 1
    emittedUlBytes := c.ulBytes
    emittedDlBytes := c.dlBytes
    emittedUlPackets := c.ulPackets
    emittedDlPackets := c.dlPackets
    emittedBucketBytes := c.bucketBytes
    intervalStartNs := nowNs }

/-- `records_emitted` or `records_dropped`. -/
def countRecord (stats : PipelineStats) : SinkOutcome → PipelineStats
  | .noSink => { stats with recordsEmitted := stats.recordsEmitted + 1 }
  | .pushed => { stats with recordsEmitted := stats.recordsEmitted + 1 }
  | .refused => { stats with recordsDropped := stats.recordsDropped + 1 }

def emitRecord (e : MeterEngine) (idx : Nat) (reason : RecordReason) (nowNs : UInt64) :
    Except Fault (MeterEngine × Emission) := do
  let c ← e.countersAt idx
  let info ← e.infoAt idx
  let r := makeRecord c info idx reason nowNs (e.sink.wall e.sink.offered)
  let e := e.setInfo idx (markEmitted c info nowNs)
  let offered := e.sink.offer r
  .ok ({ e with sink := offered.1, stats := countRecord e.stats offered.2 },
    ⟨idx, r, offered.2⟩)

end Records

section ControlPlane

/-- `assign_slot`, its two loops over the slots unrolled. -/
def assignSlot (info : SubscriberInfo) (bucketId : UInt32) : SubscriberInfo × UInt8 :=
  if info.bucketIds 0 = bucketId then (info, 0)
  else if info.bucketIds 1 = bucketId then (info, 1)
  else if info.bucketIds 2 = bucketId then (info, 2)
  else if info.bucketIds 0 = kUnsetBucket then
    ({ info with bucketIds := Function.update info.bucketIds 0 bucketId }, 0)
  else if info.bucketIds 1 = kUnsetBucket then
    ({ info with bucketIds := Function.update info.bucketIds 1 bucketId }, 1)
  else if info.bucketIds kAggregateSlot = kUnsetBucket then
    ({ info with bucketIds := Function.update info.bucketIds kAggregateSlot bucketId }, 2)
  else if info.bucketIds kAggregateSlot ≠ bucketId then
    ({ info with bucketAggregated := true }, 2)
  else (info, 2)

def bindTeid (e : MeterEngine) (teid : UInt32) (subIdx : Nat) (dir slot : UInt8) :
    MeterEngine × Bool :=
  let ins := e.teidMap.insert hashU32 teid { subIdx := UInt32.ofNat subIdx, dir, slot }
  if ins.2 then ({ e with teidMap := ins.1 }, true)
  else
    ({ e with
        teidMap := ins.1
        stats := { e.stats with teidBindFailures := e.stats.teidBindFailures + 1 } }, false)

/-- `(void)teid_map_.erase(teid)`. -/
def eraseTeid (e : MeterEngine) (teid : UInt32) : Except Fault MeterEngine :=
  match e.teidMap.erase hashU32 teid with
  | none => .error .hang
  | some r => .ok { e with teidMap := r.1 }

/-- A stored tunnel is erased when it is set and not the one now asked for. -/
def eraseMoved (e : MeterEngine) (old new : UInt32) : Except Fault MeterEngine :=
  if old ≠ 0 ∧ old ≠ new then e.eraseTeid old else .ok e

/-- The tunnels of a modified session that moved are unbound. -/
def unbindMoved (e : MeterEngine) (info : SubscriberInfo) (spec : SessionSpec) :
    Except Fault MeterEngine := do
  let e ← e.eraseMoved info.ulTeid spec.ulTeid
  e.eraseMoved info.dlTeid spec.dlTeid

/-- A tunnel of the spec is bound when it is set. -/
def bindNamed (e : MeterEngine) (teid : UInt32) (idx : Nat) (dir slot : UInt8) :
    MeterEngine × Bool :=
  if teid ≠ 0 then e.bindTeid teid idx dir slot else (e, true)

/-- What `install_session` writes to the subscriber before it touches tunnels:
a subscriber that is not active starts from scratch. -/
def openInfo (info : SubscriberInfo) (spec : SessionSpec) (nowNs : UInt64) : SubscriberInfo :=
  if info.active then
    { info with imsi := spec.imsi, active := true, defaultRatingGroup := spec.ratingGroup }
  else
    { imsi := spec.imsi
      active := true
      firstSeenNs := nowNs
      intervalStartNs := nowNs
      defaultRatingGroup := spec.ratingGroup }

/-- Cold state after the tunnels and the accounting slot are entered, and the
slot. -/
def installInfo (info : SubscriberInfo) (spec : SessionSpec) (nowNs : UInt64) :
    SubscriberInfo × UInt8 :=
  assignSlot { openInfo info spec nowNs with ulTeid := spec.ulTeid, dlTeid := spec.dlTeid }
    spec.ratingGroup

/-- A subscriber that is not active starts with counters at zero. -/
def openCounters (e : MeterEngine) (idx : Nat) (reinstall : Bool) : MeterEngine :=
  { e with
    counters := if reinstall then e.counters else Function.update e.counters idx {} }

/-- The two binds.  The second is tried even if the first fails. -/
def bindTunnels (e : MeterEngine) (idx : Nat) (spec : SessionSpec) (slot : UInt8) :
    MeterEngine × Bool :=
  let ul := e.bindNamed spec.ulTeid idx Direction.uplink.code slot
  let dl := ul.1.bindNamed spec.dlTeid idx Direction.downlink.code slot
  (dl.1, ul.2 && dl.2)

/-- `install_session` from the point where the index is known. -/
def installAt (e : MeterEngine) (idx : Nat) (spec : SessionSpec) (nowNs : UInt64) :
    Except Fault (MeterEngine × Option Nat) := do
  let old ← e.infoAt idx
  let e := e.openCounters idx old.active
  let e ← e.unbindMoved (openInfo old spec nowNs) spec
  let assigned := installInfo old spec nowNs
  let bound := (e.setInfo idx assigned.1).bindTunnels idx spec assigned.2
  .ok (bound.1, if bound.2 then some idx else none)

/-- A new subscriber index for an IMSI seen for the first time. -/
def allocate (e : MeterEngine) (imsi : UInt64) : MeterEngine :=
  { e with
    nextSub := e.nextSub + 1
    imsiIndex := Function.update e.imsiIndex imsi (some e.nextSub)
    stats := { e.stats with subscribersInstalled := e.stats.subscribersInstalled + 1 } }

def installSession (e : MeterEngine) (spec : SessionSpec) (nowNs : UInt64) :
    Except Fault (MeterEngine × Option Nat) :=
  if !spec.valid then .ok (e, none)
  else
    match e.imsiIndex spec.imsi with
    | some idx => e.installAt idx spec nowNs
    | none =>
        if e.nextSub ≥ e.tableSize then .ok (e, none)
        else (e.allocate spec.imsi).installAt e.nextSub spec nowNs

/-- A stored tunnel is erased when it is set. -/
def eraseNamed (e : MeterEngine) (teid : UInt32) : Except Fault MeterEngine :=
  if teid ≠ 0 then e.eraseTeid teid else .ok e

/-- Both tunnels of a released session are unbound. -/
def unbindAll (e : MeterEngine) (info : SubscriberInfo) : Except Fault MeterEngine := do
  let e ← e.eraseNamed info.ulTeid
  e.eraseNamed info.dlTeid

def releaseSession (e : MeterEngine) (imsi nowNs : UInt64) :
    Except Fault (MeterEngine × Bool × List Emission) :=
  match e.imsiIndex imsi with
  | none => .ok (e, false, [])
  | some idx => do
      let info ← e.infoAt idx
      if !info.active then .ok (e, false, [])
      else do
        let (e, em) ← e.emitRecord idx .release nowNs
        let e ← e.unbindAll info
        let e := e.setInfo idx { e.info idx with active := false }
        .ok ({ e with
            stats := { e.stats with sessionsReleased := e.stats.sessionsReleased + 1 } },
          true, [em])

end ControlPlane

section DataPlane

/-- `init_flow` overwrites the whole entry. -/
def initFlow (ev : MeterEvent) (sub : UInt32) (dir : UInt8) (key : UInt64) : FlowEntry :=
  { key := key
    bytes := ev.bytes.toUInt64
    packets := 1
    lastSeenNs := ev.tsNs
    srcIp := ev.srcIp
    dstIp := ev.dstIp
    subIdx := sub
    teid := ev.teid
    srcPort := ev.srcPort
    dstPort := ev.dstPort
    proto := ev.proto
    ipVersion := ev.ipVersion
    qfi := ev.qfi
    dir := dir }

def setFlow (e : MeterEngine) (i : Nat) (f : FlowEntry) : MeterEngine :=
  { e with flows := Function.update e.flows i f }

/-- Probe loop of `update_flow`: slots left to probe, slot, best victim so far
and its age. -/
def updateFlowLoop (e : MeterEngine) (ev : MeterEvent) (sub : UInt32) (dir : UInt8)
    (key : UInt64) : Nat → Nat → Option Nat → UInt64 → Except Fault MeterEngine
  | 0, _, none, _ => .error .nullDeref
  | 0, _, some victim, _ =>
      .ok { e.setFlow victim (initFlow ev sub dir key) with
        stats := { e.stats with flowEvictions := e.stats.flowEvictions + 1 } }
  | r + 1, idx, victim, oldest =>
      let f := e.flows idx
      if f.key = key then
        .ok (e.setFlow idx { f with
          bytes := f.bytes + ev.bytes.toUInt64
          packets := f.packets + 1
          lastSeenNs := ev.tsNs })
      else if f.key = 0 then
        .ok { e.setFlow idx (initFlow ev sub dir key) with
          stats := { e.stats with
            flowInserts := e.stats.flowInserts + 1
            flowsActive := e.stats.flowsActive + 1 } }
      else if f.lastSeenNs < oldest then
        updateFlowLoop e ev sub dir key r ((idx + 1) &&& e.flowMask) (some idx) f.lastSeenNs
      else
        updateFlowLoop e ev sub dir key r ((idx + 1) &&& e.flowMask) victim oldest

def updateFlow (e : MeterEngine) (ev : MeterEvent) (sub : UInt32) (dir : UInt8) :
    Except Fault MeterEngine :=
  let key := if ev.flowKey ≠ 0 then ev.flowKey else 1
  e.updateFlowLoop ev sub dir key e.cfg.flowProbeWindow.toNat
    ((key ^^^ (key >>> 32)).toNat &&& e.flowMask) none 0xFFFFFFFFFFFFFFFF

/-- `c.bucket_bytes[slot] += bytes`. -/
def addBucket (c : SubscriberCounters) (slot : UInt8) (bytes : UInt64) :
    Except Fault SubscriberCounters :=
  if hs : slot.toNat < kBucketSlots then
    .ok { c with
      bucketBytes :=
        Function.update c.bucketBytes ⟨slot.toNat, hs⟩ (c.bucketBytes ⟨slot.toNat, hs⟩ + bytes) }
  else .error .outOfRange

/-- Byte and packet counters of a packet in direction `dir`. -/
def addDirection (c : SubscriberCounters) (dir : UInt8) (bytes : UInt64) : SubscriberCounters :=
  if dir = Direction.downlink.code then
    { c with dlBytes := c.dlBytes + bytes, dlPackets := c.dlPackets + 1 }
  else
    { c with ulBytes := c.ulBytes + bytes, ulPackets := c.ulPackets + 1 }

/-- The same in the totals. -/
def addTotals (stats : PipelineStats) (dir : UInt8) (bytes : UInt64) : PipelineStats :=
  if dir = Direction.downlink.code then
    { stats with dlBytes := stats.dlBytes + bytes, dlPackets := stats.dlPackets + 1 }
  else
    { stats with ulBytes := stats.ulBytes + bytes, ulPackets := stats.ulPackets + 1 }

/-- Direction of a packet: the side that allocated the TEID, and only if that is
not known what the parser guessed. -/
def packetDir (ev : MeterEvent) (b : TeidBinding) : UInt8 :=
  if b.dir = Direction.unknown.code then ev.dir else b.dir

/-- `resolve_slot` for a packet with a QFI, else the slot of the tunnel; with the
cold state of the subscriber afterwards. -/
def packetSlot (e : MeterEngine) (ev : MeterEvent) (b : TeidBinding) :
    Except Fault (SubscriberInfo × UInt8) :=
  if ev.hasQfi then do
    let info ← e.infoAt b.subIdx.toNat
    .ok (assignSlot info (kQfiBucketTag ||| ev.qfi.toUInt32))
  else .ok (e.info b.subIdx.toNat, b.slot)

/-- `if (!flows_.empty()) update_flow(ev, sub, dir)`. -/
def trackFlow (e : MeterEngine) (ev : MeterEvent) (sub : UInt32) (dir : UInt8) :
    Except Fault MeterEngine :=
  if e.flowCount = 0 then .ok e else e.updateFlow ev sub dir

/-- The part of `apply` after the binding is found. -/
def meterPacket (e : MeterEngine) (ev : MeterEvent) (b : TeidBinding) :
    Except Fault MeterEngine := do
  let sub := b.subIdx.toNat
  let c ← e.countersAt sub
  let dir := packetDir ev b
  let c := { addDirection c dir ev.bytes.toUInt64 with lastSeenNs := ev.tsNs }
  let resolved ← e.packetSlot ev b
  let c ← addBucket c resolved.2 ev.bytes.toUInt64
  let e := { e with
    counters := Function.update e.counters sub c
    info := Function.update e.info sub resolved.1
    stats := addTotals e.stats dir ev.bytes.toUInt64 }
  e.trackFlow ev b.subIdx dir

/-- Cold state and accounting slot that `learn_teid` gives a new subscriber. -/
def learnInfo (ev : MeterEvent) : SubscriberInfo × UInt8 :=
  let assigned := assignSlot
    { active := true, learned := true, imsi := 0, firstSeenNs := ev.tsNs,
      intervalStartNs := ev.tsNs } 0
  (if ev.dir = Direction.downlink.code then { assigned.1 with dlTeid := ev.teid }
    else { assigned.1 with ulTeid := ev.teid },
    assigned.2)

/-- `learn_teid`: a subscriber for a TEID seen in traffic only. -/
def learnTeid (e : MeterEngine) (ev : MeterEvent) : MeterEngine × Option TeidBinding :=
  if e.nextSub ≥ e.tableSize then (e, none)
  else
    let idx := e.nextSub
    let learned := learnInfo ev
    let e := { (e.setCounters idx {}).setInfo idx learned.1 with
      nextSub := e.nextSub + 1
      stats := { e.stats with subscribersLearned := e.stats.subscribersLearned + 1 } }
    let bound := e.bindTeid ev.teid idx ev.dir learned.2
    if !bound.2 then (bound.1, none)
    else
      let found := bound.1.teidMap.find hashU32 ev.teid
      ({ bound.1 with teidMap := found.2 }, found.1)

def countUnknown (e : MeterEngine) (ev : MeterEvent) : MeterEngine :=
  { e with
    stats := { e.stats with
      unknownTeidEvents := e.stats.unknownTeidEvents + 1
      unknownTeidBytes := e.stats.unknownTeidBytes + ev.bytes.toUInt64 } }

/-- The counters every event moves. -/
def countEvent (e : MeterEngine) (ev : MeterEvent) : MeterEngine :=
  { e with
    stats := { e.stats with
      events := e.stats.events + 1
      bytes := e.stats.bytes + ev.bytes.toUInt64
      lastEventNs := ev.tsNs } }

/-- The part of `apply` for a TEID that the table does not hold. -/
def applyUnbound (e : MeterEngine) (ev : MeterEvent) : Except Fault MeterEngine :=
  if !e.cfg.learnUnknownTeids then .ok (e.countUnknown ev)
  else
    let learned := e.learnTeid ev
    match learned.2 with
    | none => .ok (learned.1.countUnknown ev)
    | some b => learned.1.meterPacket ev b

def apply (e : MeterEngine) (ev : MeterEvent) : Except Fault MeterEngine :=
  let e := e.countEvent ev
  if ev.isControl then
    .ok { e with stats := { e.stats with controlPdus := e.stats.controlPdus + 1 } }
  else
    let found := e.teidMap.find hashU32 ev.teid
    let e := { e with teidMap := found.2 }
    match found.1 with
    | some b => e.meterPacket ev b
    | none => e.applyUnbound ev

def applyGy (e : MeterEngine) (ev : GyEvent) : Except Fault MeterEngine :=
  let e := { e with stats := { e.stats with gyEvents := e.stats.gyEvents + 1 } }
  if !ev.hasImsi || !ev.hasUsed then .ok e
  else
    match e.imsiIndex ev.imsi with
    | none => .ok e
    | some idx => do
        let info ← e.infoAt idx
        let e := e.setInfo idx { info with
          gyReportedOctets := info.gyReportedOctets + ev.usedTotalOctets
          gyLastNs := ev.tsNs
          gyReports := info.gyReports + 1 }
        .ok { e with
          stats := { e.stats with
            gyReportedOctets := e.stats.gyReportedOctets + ev.usedTotalOctets } }

end DataPlane

section Reporting

/-- One turn of the loop in `poll`: the subscriber under the cursor. -/
def pollSlot (e : MeterEngine) (live : Nat) (nowNs : UInt64) :
    Except Fault (MeterEngine × List Emission) := do
  let idx := if e.sweepCursor ≥ live then 0 else e.sweepCursor
  let e := { e with sweepCursor := idx + 1 }
  let info ← e.infoAt idx
  if !info.active then .ok (e, [])
  else do
    let c ← e.countersAt idx
    let pending := (c.ulBytes - info.emittedUlBytes) + (c.dlBytes - info.emittedDlBytes)
    if pending = 0 then .ok (e, [])
    else if e.cfg.volumeThresholdBytes ≠ 0 ∧ pending ≥ e.cfg.volumeThresholdBytes then do
      let (e, em) ← e.emitRecord idx .volume nowNs
      .ok (e, [em])
    else if e.cfg.reportIntervalNs ≠ 0 ∧
        nowNs - info.intervalStartNs ≥ e.cfg.reportIntervalNs then do
      let (e, em) ← e.emitRecord idx .interval nowNs
      .ok (e, [em])
    else .ok (e, [])

def pollLoop (live : Nat) (nowNs : UInt64) :
    Nat → MeterEngine → Except Fault (MeterEngine × List Emission)
  | 0, e => .ok (e, [])
  | n + 1, e => do
      let (e, ems) ← e.pollSlot live nowNs
      let (e, rest) ← pollLoop live nowNs n e
      .ok (e, ems ++ rest)

def poll (e : MeterEngine) (nowNs : UInt64) : Except Fault (MeterEngine × List Emission) :=
  if nowNs - e.lastSweepNs < e.cfg.sweepPeriodNs then .ok (e, [])
  else
    let e := { e with lastSweepNs := nowNs }
    let live := e.nextSub
    if live = 0 then .ok (e, [])
    else
      let chunk := max 1 (live / max 1 e.cfg.sweepFraction.toNat)
      pollLoop live nowNs chunk e

/-- One turn of the loop in `drain`. -/
def drainSlot (e : MeterEngine) (idx : Nat) (nowNs : UInt64) :
    Except Fault (MeterEngine × List Emission) := do
  let info ← e.infoAt idx
  if !info.active then .ok (e, [])
  else do
    let c ← e.countersAt idx
    if c.ulBytes = info.emittedUlBytes ∧ c.dlBytes = info.emittedDlBytes then .ok (e, [])
    else do
      let (e, em) ← e.emitRecord idx .shutdown nowNs
      .ok (e, [em])

def drainLoop (nowNs : UInt64) :
    Nat → Nat → MeterEngine → Except Fault (MeterEngine × List Emission)
  | 0, _, e => .ok (e, [])
  | n + 1, idx, e => do
      let (e, ems) ← e.drainSlot idx nowNs
      let (e, rest) ← drainLoop nowNs n (idx + 1) e
      .ok (e, ems ++ rest)

/-- `drain`; the count it returns is the length of the list. -/
def drain (e : MeterEngine) (nowNs : UInt64) : Except Fault (MeterEngine × List Emission) :=
  drainLoop nowNs e.nextSub 0 e

end Reporting

section ReadSide

/-- Probe loop of `find_flow`: slots left to probe and slot. -/
def findFlowLoop (e : MeterEngine) (k : UInt64) : Nat → Nat → Option Nat
  | 0, _ => none
  | r + 1, idx =>
      if (e.flows idx).key = k then some idx
      else if (e.flows idx).key = 0 then none
      else findFlowLoop e k r ((idx + 1) &&& e.flowMask)

/-- `find_flow`, with the slot for the pointer to it. -/
def findFlow (e : MeterEngine) (key : UInt64) : Option Nat :=
  if e.flowCount = 0 then none
  else
    let k := if key ≠ 0 then key else 1
    e.findFlowLoop k e.cfg.flowProbeWindow.toNat ((k ^^^ (k >>> 32)).toNat &&& e.flowMask)

end ReadSide

section Machine

/-- A call on the engine. -/
inductive MeterOp where
  | install (spec : SessionSpec) (nowNs : UInt64)
  | release (imsi nowNs : UInt64)
  | apply (ev : MeterEvent)
  | applyGy (ev : GyEvent)
  | poll (nowNs : UInt64)
  | drain (nowNs : UInt64)

/-- The session that a call installs. -/
def MeterOp.installs : MeterOp → Option SessionSpec
  | .install spec _ => some spec
  | _ => none

/-- The packet that a call brings. -/
def MeterOp.packet : MeterOp → Option MeterEvent
  | .apply ev => some ev
  | _ => none

/-- What a call answers: the index of an installed session, and the records
emitted. -/
structure Answer where
  index : Option Nat := none
  emissions : List Emission := []

/-- One call. -/
def step (e : MeterEngine) : MeterOp → Except Fault (MeterEngine × Answer)
  | .install spec nowNs => do
      let (e, idx) ← e.installSession spec nowNs
      .ok (e, { index := idx })
  | .release imsi nowNs => do
      let (e, _, ems) ← e.releaseSession imsi nowNs
      .ok (e, { emissions := ems })
  | .apply ev => do
      let e ← e.apply ev
      .ok (e, {})
  | .applyGy ev => do
      let e ← e.applyGy ev
      .ok (e, {})
  | .poll nowNs => do
      let (e, ems) ← e.poll nowNs
      .ok (e, { emissions := ems })
  | .drain nowNs => do
      let (e, ems) ← e.drain nowNs
      .ok (e, { emissions := ems })

/-- The history of an engine: its calls with the states around them. -/
abbrev History := List (Runs.Transition MeterEngine MeterOp Answer)

/-- An engine in state `e` after the calls in `h`. -/
def Reaches (cfg : MeterConfig) (sink : RecordSink) (h : History) (e : MeterEngine) : Prop :=
  Runs.Run step (init cfg sink) h e

/-- A small engine, to run histories on. -/
def smallConfig : MeterConfig :=
  { maxSubscribers := 8, teidTableCapacity := 8, trackFlows := false }

/-- Four sessions that fill the table of `smallConfig`. -/
def fourSessions : List MeterOp :=
  (List.range 4).map (fun i => .install
    { imsi := UInt64.ofNat (i + 1), ulTeid := UInt32.ofNat (2 * i + 1),
      dlTeid := UInt32.ofNat (2 * i + 2) } 0)

/-- No record ring attached. -/
def noSink : RecordSink :=
  { ring := none, wall := fun _ => 0, pops := fun _ => 0 }

end Machine

end MeterEngine

end GtpMeter
