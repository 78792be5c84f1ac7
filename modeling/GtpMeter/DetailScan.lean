import GtpMeter.MeterEngine
import GtpMeter.TopSelection

/-!
# The scan behind the per-subscriber and per-flow tables

`advance_detail_scan` from `meter_thread.cpp`: on each publish tick it looks at a bounded
number of table entries of the engine and goes on where the last tick stopped.  The pass
ends with a snapshot that is committed.

* The heap and sorting algorithms of the standard library are a parameter, of which only
  their contracts are known.
* `begin_write` and `commit` of the publisher are outside: a tick is given the buffer that
  `begin_write` would return, with its old contents, or none if all are pinned, and it
  returns the snapshot that it commits, if any.
* An access outside a vector is a fault, and so is `front()` of an empty one.
-/

namespace GtpMeter

/-- A row of the subscriber table. -/
structure SubscriberSnapshot where
  imsi : UInt64 := 0
  ulBytes : UInt64 := 0
  dlBytes : UInt64 := 0
  ulPackets : UInt64 := 0
  dlPackets : UInt64 := 0
  lastSeenNs : UInt64 := 0
  bucketBytes : Fin kBucketSlots → UInt64 := fun _ => 0
  bucketIds : Fin kBucketSlots → UInt32 := fun _ => kUnsetBucket
  gyReportedOctets : UInt64 := 0
  subIdx : UInt32 := 0
  ulTeid : UInt32 := 0
  dlTeid : UInt32 := 0
  gyReports : UInt32 := 0
  bucketAggregated : Bool := false

/-- What rows are ordered by. -/
def SubscriberSnapshot.totalBytes (row : SubscriberSnapshot) : UInt64 :=
  row.ulBytes + row.dlBytes

def SubscriberCounters.totalPackets (c : SubscriberCounters) : UInt64 :=
  c.ulPackets + c.dlPackets

/-- The published tables. -/
structure DetailSnapshot where
  subscribers : List SubscriberSnapshot := []
  topFlows : List FlowEntry := []
  publishWallNs : UInt64 := 0
  totalSubscribers : UInt64 := 0

/-- The part of the runtime configuration that the scan reads. -/
structure DetailConfig where
  snapshotSubscriberLimit : UInt64 := 4096
  snapshotFlowLimit : UInt64 := 64
  snapshotScanBudget : UInt64 := 4096

def flowBytes (f : FlowEntry) : Nat :=
  f.bytes.toNat

def rowBytes (row : SubscriberSnapshot) : Nat :=
  row.totalBytes.toNat

/-- The standard library with the two comparisons of the scan. -/
structure StdLib where
  flows : Selection.Algorithms flowBytes
  rows : Selection.Algorithms rowBytes

section TopFlows

/-- The loop of `top_flows` over the entries that are left. -/
def topFlowsLoop (std : StdLib) (n : Nat) : List FlowEntry → List FlowEntry → List FlowEntry
  | out, [] => out
  | out, f :: rest =>
      if f.key = 0 then topFlowsLoop std n out rest
      else if out.length < n then
        let out := out ++ [f]
        topFlowsLoop std n (if out.length = n then std.flows.sort out else out) rest
      else
        match out.getLast? with
        | none => topFlowsLoop std n out rest
        | some back =>
            if back.bytes < f.bytes then
              topFlowsLoop std n
                (Selection.bubbleUp flowBytes (out.dropLast ++ [f]) (out.length - 1)) rest
            else topFlowsLoop std n out rest

/-- The `n` busiest flows by bytes. -/
def MeterEngine.topFlows (e : MeterEngine) (std : StdLib) (n : Nat) : List FlowEntry :=
  if e.flowCount = 0 ∨ n = 0 then []
  else
    let out := topFlowsLoop std n [] ((List.range e.flowCount).map e.flows)
    if out.length < n then std.flows.sort out else out

end TopFlows

/-- State of the scan between two ticks. -/
structure DetailScan where
  building : Option DetailSnapshot := none
  subCursor : Nat := 0
  flowCursor : Nat := 0

/-- What a tick is given: the wall clock, and what `begin_write` would return. -/
structure DetailTick where
  wallNs : UInt64 := 0
  free : Option DetailSnapshot := none

namespace DetailScan

section Scan

def snapshotRow (info : SubscriberInfo) (c : SubscriberCounters) (idx : Nat) :
    SubscriberSnapshot where
  imsi := info.imsi
  ulBytes := c.ulBytes
  dlBytes := c.dlBytes
  ulPackets := c.ulPackets
  dlPackets := c.dlPackets
  lastSeenNs := c.lastSeenNs
  bucketBytes := c.bucketBytes
  bucketIds := info.bucketIds
  gyReportedOctets := info.gyReportedOctets
  gyReports := info.gyReports
  subIdx := UInt32.ofNat idx
  ulTeid := info.ulTeid
  dlTeid := info.dlTeid
  bucketAggregated := info.bucketAggregated

/-- Loop over the subscribers: the budget, the cursor and the rows so far; with the
budget that is left. -/
def scanSubscribers (e : MeterEngine) :
    Nat → Nat → List SubscriberSnapshot → Except Fault (Nat × Nat × List SubscriberSnapshot)
  | 0, cursor, rows => .ok (0, cursor, rows)
  | budget + 1, cursor, rows =>
      if cursor < e.nextSub then do
        let info ← e.infoAt cursor
        if !info.active then scanSubscribers e budget (cursor + 1) rows
        else do
          let c ← e.countersAt cursor
          if c.totalPackets = 0 then scanSubscribers e budget (cursor + 1) rows
          else scanSubscribers e budget (cursor + 1) (rows ++ [snapshotRow info c cursor])
      else .ok (budget + 1, cursor, rows)

/-- A flow in use against the heap of the busiest ones. -/
def offerFlow (std : StdLib) (limit : Nat) (top : List FlowEntry) (f : FlowEntry) :
    Except Fault (List FlowEntry) :=
  if top.length < limit then .ok (std.flows.pushHeap (top ++ [f]))
  else
    match top with
    | [] => .error .outOfRange
    | front :: others =>
        if front.bytes < f.bytes then
          .ok (std.flows.pushHeap ((std.flows.popHeap (front :: others)).dropLast ++ [f]))
        else .ok (front :: others)

/-- Loop over the flow table. -/
def scanFlows (std : StdLib) (e : MeterEngine) (limit : Nat) :
    Nat → Nat → List FlowEntry → Except Fault (Nat × List FlowEntry)
  | 0, cursor, top => .ok (cursor, top)
  | budget + 1, cursor, top =>
      if cursor < e.flowCount then
        if (e.flows cursor).key = 0 then scanFlows std e limit budget (cursor + 1) top
        else do
          let top ← offerFlow std limit top (e.flows cursor)
          scanFlows std e limit budget (cursor + 1) top
      else .ok (cursor, top)

/-- The buffer under construction and the two cursors: those of the pass that is going
on, or a new pass if there is a free buffer. -/
def openPass (s : DetailScan) (tick : DetailTick) : Option (DetailSnapshot × Nat × Nat) :=
  match s.building with
  | some snap => some (snap, s.subCursor, s.flowCursor)
  | none => tick.free.map fun snap =>
      ({ snap with subscribers := [], topFlows := [], publishWallNs := tick.wallNs }, 0, 0)

/-- `partial_sort` and `resize`, if there are more rows than the limit. -/
def limitRows (std : StdLib) (limit : Nat) (rows : List SubscriberSnapshot) :
    List SubscriberSnapshot :=
  if limit < rows.length then (std.rows.partialSort limit rows).take limit else rows

def advanceDetailScan (std : StdLib) (cfg : DetailConfig) (e : MeterEngine) (s : DetailScan)
    (tick : DetailTick) : Except Fault (DetailScan × Option DetailSnapshot) :=
  match s.openPass tick with
  | none => .ok (s, none)
  | some (snap, subCursor, flowCursor) => do
      let (budget, subCursor, rows) ←
        scanSubscribers e cfg.snapshotScanBudget.toNat subCursor snap.subscribers
      let (flowCursor, top) ←
        scanFlows std e cfg.snapshotFlowLimit.toNat budget flowCursor snap.topFlows
      if subCursor < e.nextSub ∨ flowCursor < e.flowCount then
        .ok (⟨some { snap with subscribers := rows, topFlows := top }, subCursor, flowCursor⟩,
          none)
      else
        .ok (⟨none, subCursor, flowCursor⟩,
          some { snap with
            subscribers := limitRows std cfg.snapshotSubscriberLimit.toNat rows
            topFlows := std.flows.sort top
            totalSubscribers := UInt64.ofNat e.nextSub })

end Scan

end DetailScan

end GtpMeter
