import GtpMeter.EngineWork
import GtpMeter.SpscInterleaving

/-!
# The runtime

The three threads of `runtime.hpp` and `meter_thread.cpp` between `start` and the
return of `stop`, and the three rings between them.

* The ingest thread pushes events and then calls `stop`.
* The metering thread runs `meter_loop`.  It alone has the engine, which is any machine
  of `EngineCall`s that may offer records on their way; `meterCalls` is the one of
  `meter.hpp`.
* The reporter thread runs `reporter_loop`.

A step is one load or store of an atomic, one slot copy, one read of the engine, or a
local step.  Memory is sequentially consistent.  A join is a step that can be taken
once the thread has returned.

Left out are the clock (a time is a parameter of the step that reads it), the back-off,
the latency histogram, the file, and `publish_locked`, which reads rings and engine and
changes neither.
-/

namespace GtpMeter

open Runs MeterEngine

/-- A call that the metering thread makes on its engine. -/
inductive EngineCall where
  | apply (ev : MeterEvent)
  | applyGy (ev : GyEvent)
  | poll (nowNs : UInt64)
  | drain (nowNs : UInt64)

/-- How an engine takes its calls. -/
abbrev EngineCalls (E : Type) := E → EngineCall → Work E

/-- The calls of `MeterEngine`. -/
def meterCalls : EngineCalls MeterEngine
  | e, .apply ev => .ofExcept (e.apply ev)
  | e, .applyGy ev => .ofExcept (e.applyGy ev)
  | e, .poll nowNs => e.pollWork nowNs
  | e, .drain nowNs => e.drainWork nowNs

/-- Where `meter_loop` is, outside of its calls.  `n` is what the last bulk pop gave. -/
inductive MeterAt where
  | top
  /-- in `try_pop_bulk` -/
  | popping
  /-- these events of the batch are still to be applied -/
  | applying (n : Nat) (todo : List MeterEvent)
  | gyTop (n : Nat)
  /-- in `try_pop` of the Gy ring -/
  | gyPopping (n : Nat)
  | gyGot (n : Nat) (ev : GyEvent)
  | polling (n : Nat)
  | polled (n : Nat)
  | checkStop
  /-- `meter_ring_.empty_approx()`, before and after it has loaded `head_` -/
  | sizeMeter
  | sizedMeter (head : UInt64)
  /-- the same of the Gy ring -/
  | sizeGy
  | sizedGy (head : UInt64)
  /-- the loop is left, and `drain` is to be called -/
  | leaving
  | exited

/-- Where the metering thread is. -/
inductive MeterPc (E : Type) where
  | place (here : MeterAt)
  /-- in a call, from which it goes on to `next` -/
  | working (work : Work E) (next : MeterAt)
  /-- in `try_push` of the record ring, in a call -/
  | emitting (resume : Bool → Work E) (next : MeterAt)

/-- Where `drain_records` is. -/
inductive DrainPc where
  | begin
  /-- in `try_pop` -/
  | popping
deriving DecidableEq

inductive ReporterPc where
  | top
  | draining (last : Bool) (pc : DrainPc)
  | exited

/-- Where the ingest thread is. -/
inductive IngestPc where
  | running
  /-- in `try_push` of the meter ring, and of the Gy ring -/
  | pushing
  | pushingGy
  /-- in `stop`, with `running_` cleared -/
  | stopping
  | joinMeter
  | signalReporter
  | joinReporter
  | draining (pc : DrainPc)
  | stopped
deriving DecidableEq

structure Runtime (E : Type) where
  meterRing : SharedRing MeterEvent
  gyRing : SharedRing GyEvent
  recordRing : SharedRing UsageRecord
  engine : E
  running : Bool
  meterStop : Bool
  reporterStop : Bool
  /-- a file for the records is open -/
  recordsFile : Bool
  recordsWritten : UInt64
  recordWriteErrors : UInt64
  ingest : IngestPc
  meter : MeterPc E
  reporter : ReporterPc

/-- `ingest`, `meter` and `reporter` are the next step of that thread.  `written` is
whether the record is written, if one is, and `nowNs` the time, if it is read. -/
inductive RuntimeOp where
  | push (ev : MeterEvent)
  | pushGy (ev : GyEvent)
  | stop
  | ingest (written : Bool)
  | meter (nowNs : UInt64)
  | reporter (written : Bool)

inductive RuntimeOut where
  | quiet
  | meterRing (out : RingOut MeterEvent)
  | gyRing (out : RingOut GyEvent)
  | recordRing (out : RingOut UsageRecord)
  | called (c : EngineCall)

namespace Runtime

variable {E : Type}

/-- What `drain_records` counts for a record it has popped. -/
def countWritten (rt : Runtime E) (written : Bool) : Runtime E :=
  if !rt.recordsFile || written then { rt with recordsWritten := rt.recordsWritten + 1 }
  else { rt with recordWriteErrors := rt.recordWriteErrors + 1 }

/-- A step of `drain_records`, in either thread that calls it. -/
def drainStep (rt : Runtime E) (written : Bool) :
    DrainPc → Except Blocked (Runtime E × Option DrainPc × RingOut UsageRecord)
  | .begin => do
      let (r, out) ← rt.recordRing.step .pop
      .ok ({ rt with recordRing := r }, some .popping, out)
  | .popping => do
      let (r, out) ← rt.recordRing.step .consume
      let rt := { rt with recordRing := r }
      match out with
      | .popped [] => .ok (rt, none, out)
      | .popped (_ :: _) => .ok (rt.countWritten written, some .begin, out)
      | _ => .ok (rt, some .popping, out)

/-- The next step of the ingest thread in a call. -/
def ingestStep (rt : Runtime E) (written : Bool) : Except Blocked (Runtime E × RuntimeOut) :=
  match rt.ingest with
  | .pushing => do
      let (r, out) ← rt.meterRing.step .produce
      let next := match out with
        | .pushed _ _ => .running
        | _ => .pushing
      .ok ({ rt with meterRing := r, ingest := next }, .meterRing out)
  | .pushingGy => do
      let (r, out) ← rt.gyRing.step .produce
      let next := match out with
        | .pushed _ _ => .running
        | _ => .pushingGy
      .ok ({ rt with gyRing := r, ingest := next }, .gyRing out)
  | .stopping => .ok ({ rt with meterStop := true, ingest := .joinMeter }, .quiet)
  | .joinMeter =>
      match rt.meter with
      | .place .exited => .ok ({ rt with ingest := .signalReporter }, .quiet)
      | _ => .error .blocked
  | .signalReporter => .ok ({ rt with reporterStop := true, ingest := .joinReporter }, .quiet)
  | .joinReporter =>
      match rt.reporter with
      | .exited => .ok ({ rt with ingest := .draining .begin }, .quiet)
      | _ => .error .blocked
  | .draining pc => do
      let (rt, pc, out) ← rt.drainStep written pc
      let next := match pc with
        | some pc => .draining pc
        | none => .stopped
      .ok ({ rt with ingest := next }, .recordRing out)
  | _ => .error .blocked

/-- The next step of the reporter thread. -/
def reporterStep (rt : Runtime E) (written : Bool) : Except Blocked (Runtime E × RuntimeOut) :=
  match rt.reporter with
  | .top => .ok ({ rt with reporter := .draining rt.reporterStop .begin }, .quiet)
  | .draining last pc => do
      let (rt, pc, out) ← rt.drainStep written pc
      let next := match pc with
        | some pc => .draining last pc
        | none => if last then .exited else .top
      .ok ({ rt with reporter := next }, .recordRing out)
  | .exited => .error .blocked

variable (calls : EngineCalls E) (meterBatch : UInt64)

/-- The metering thread makes a call and goes on to `next` after it. -/
def enter (rt : Runtime E) (c : EngineCall) (next : MeterAt) : Runtime E × RuntimeOut :=
  ({ rt with meter := .working (calls rt.engine c) next }, .called c)

/-- The metering thread goes on. -/
def goto (rt : Runtime E) (next : MeterAt) : Runtime E × RuntimeOut :=
  ({ rt with meter := .place next }, .quiet)

/-- The next step of `meter_loop` outside of its calls. -/
def loopStep (rt : Runtime E) (nowNs : UInt64) :
    MeterAt → Except Blocked (Runtime E × RuntimeOut)
  | .top => do
      let (r, out) ← rt.meterRing.step (.popBulk meterBatch)
      .ok ({ rt with meterRing := r, meter := .place .popping }, .meterRing out)
  | .popping => do
      let (r, out) ← rt.meterRing.step .consume
      let next := match out with
        | .popped batch => .applying batch.length batch
        | _ => .popping
      .ok ({ rt with meterRing := r, meter := .place next }, .meterRing out)
  | .applying n (ev :: todo) => .ok (rt.enter calls (.apply ev) (.applying n todo))
  | .applying n [] => .ok (rt.goto (.gyTop n))
  | .gyTop n => do
      let (r, out) ← rt.gyRing.step .pop
      .ok ({ rt with gyRing := r, meter := .place (.gyPopping n) }, .gyRing out)
  | .gyPopping n => do
      let (r, out) ← rt.gyRing.step .consume
      let next := match out with
        | .popped [] => .polling n
        | .popped (ev :: _) => .gyGot n ev
        | _ => .gyPopping n
      .ok ({ rt with gyRing := r, meter := .place next }, .gyRing out)
  | .gyGot n ev => .ok (rt.enter calls (.applyGy ev) (.gyTop n))
  | .polling n => .ok (rt.enter calls (.poll nowNs) (.polled n))
  | .polled n => .ok (rt.goto (if n = 0 then .checkStop else .top))
  | .checkStop => .ok (rt.goto (if rt.meterStop then .sizeMeter else .top))
  | .sizeMeter => .ok (rt.goto (.sizedMeter rt.meterRing.ring.head))
  | .sizedMeter head =>
      .ok (rt.goto (if head - rt.meterRing.ring.tail = 0 then .sizeGy else .top))
  | .sizeGy => .ok (rt.goto (.sizedGy rt.gyRing.ring.head))
  | .sizedGy head =>
      .ok (rt.goto (if head - rt.gyRing.ring.tail = 0 then .leaving else .top))
  | .leaving => .ok (rt.enter calls (.drain nowNs) .exited)
  | .exited => .error .blocked

/-- The next step of the metering thread. -/
def meterStep (rt : Runtime E) (nowNs : UInt64) : Except Blocked (Runtime E × RuntimeOut) :=
  match rt.meter with
  | .place here => rt.loopStep calls meterBatch nowNs here
  | .working (.done e) next => .ok ({ rt with engine := e, meter := .place next }, .quiet)
  | .working (.ask record resume) next => do
      let (r, out) ← rt.recordRing.step (.push record)
      .ok ({ rt with recordRing := r, meter := .emitting resume next }, .recordRing out)
  -- the call does not return
  | .working (.fail _) _ => .error .blocked
  | .emitting resume next => do
      let (r, out) ← rt.recordRing.step .produce
      let pc := match out with
        | .pushed accepted _ => .working (resume (!accepted.isEmpty)) next
        | _ => .emitting resume next
      .ok ({ rt with recordRing := r, meter := pc }, .recordRing out)

/-- `stop` is called: it does nothing the second time. -/
def stop (rt : Runtime E) : Runtime E × RuntimeOut :=
  if rt.running then ({ rt with running := false, ingest := .stopping }, .quiet)
  else (rt, .quiet)

def step (rt : Runtime E) : RuntimeOp → Except Blocked (Runtime E × RuntimeOut)
  | .push ev =>
      match rt.ingest with
      | .running => do
          let (r, out) ← rt.meterRing.step (.push ev)
          .ok ({ rt with meterRing := r, ingest := .pushing }, .meterRing out)
      | _ => .error .blocked
  | .pushGy ev =>
      match rt.ingest with
      | .running => do
          let (r, out) ← rt.gyRing.step (.push ev)
          .ok ({ rt with gyRing := r, ingest := .pushingGy }, .gyRing out)
      | _ => .error .blocked
  | .stop =>
      match rt.ingest with
      | .running => .ok rt.stop
      | .stopped => .ok rt.stop
      | _ => .error .blocked
  | .ingest written => rt.ingestStep written
  | .meter nowNs => rt.meterStep calls meterBatch nowNs
  | .reporter written => rt.reporterStep written

/-- The threads have just been started, on empty rings of these capacities. -/
def start (engine : E) (recordsFile : Bool) (meterRing : SharedRing MeterEvent)
    (gyRing : SharedRing GyEvent) (recordRing : SharedRing UsageRecord) : Runtime E :=
  { meterRing := meterRing
    gyRing := gyRing
    recordRing := recordRing
    engine := engine
    running := true
    meterStop := false
    reporterStop := false
    recordsFile := recordsFile
    recordsWritten := 0
    recordWriteErrors := 0
    ingest := .running
    meter := .place .top
    reporter := .top }

end Runtime
end GtpMeter
