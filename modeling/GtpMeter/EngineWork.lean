import GtpMeter.MeterEngine
import GtpMeter.Resumptions

/-!
# The engine beside a reporter

In the runtime the record ring is shared with the thread that writes the records, so
the engine has to wait for the ring in the middle of `poll` and of `drain`.  These are
written again here as computations that ask: each record is a question, and the answer
says whether `try_push` took it.

**Results.**
* `offer_outcome`, `SinkAgrees.offer`: what a sink with a ring answers to such a question.
-/

namespace GtpMeter
namespace MeterEngine

open Runs

/-- A call that may offer records on its way. -/
abbrev Work (R : Type) := Resumption UsageRecord Bool Fault R

section Calls

def emitWork (e : MeterEngine) (idx : Nat) (reason : RecordReason) (nowNs : UInt64) :
    Work MeterEngine :=
  (Resumption.ofExcept (e.countersAt idx)).bind fun c =>
  (Resumption.ofExcept (e.infoAt idx)).bind fun info =>
  let r := makeRecord c info idx reason nowNs (e.sink.wall e.sink.offered)
  let e := e.setInfo idx (markEmitted c info nowNs)
  .ask r fun pushed =>
    .done { e with
      sink := { e.sink with offered := e.sink.offered + 1 }
      stats := countRecord e.stats (if pushed then .pushed else .refused) }

/-- One turn of the loop in `poll`. -/
def pollSlotWork (e : MeterEngine) (live : Nat) (nowNs : UInt64) : Work MeterEngine :=
  let idx := if e.sweepCursor ≥ live then 0 else e.sweepCursor
  let e := { e with sweepCursor := idx + 1 }
  (Resumption.ofExcept (e.infoAt idx)).bind fun info =>
  if !info.active then .done e
  else
    (Resumption.ofExcept (e.countersAt idx)).bind fun c =>
    let pending := (c.ulBytes - info.emittedUlBytes) + (c.dlBytes - info.emittedDlBytes)
    if pending = 0 then .done e
    else if e.cfg.volumeThresholdBytes ≠ 0 ∧ pending ≥ e.cfg.volumeThresholdBytes then
      e.emitWork idx .volume nowNs
    else if e.cfg.reportIntervalNs ≠ 0 ∧
        nowNs - info.intervalStartNs ≥ e.cfg.reportIntervalNs then
      e.emitWork idx .interval nowNs
    else .done e

def pollLoopWork (live : Nat) (nowNs : UInt64) : Nat → MeterEngine → Work MeterEngine
  | 0, e => .done e
  | n + 1, e => (e.pollSlotWork live nowNs).bind (pollLoopWork live nowNs n)

def pollWork (e : MeterEngine) (nowNs : UInt64) : Work MeterEngine :=
  if nowNs - e.lastSweepNs < e.cfg.sweepPeriodNs then .done e
  else
    let e := { e with lastSweepNs := nowNs }
    let live := e.nextSub
    if live = 0 then .done e
    else
      let chunk := max 1 (live / max 1 e.cfg.sweepFraction.toNat)
      pollLoopWork live nowNs chunk e

/-- One turn of the loop in `drain`. -/
def drainSlotWork (e : MeterEngine) (idx : Nat) (nowNs : UInt64) : Work MeterEngine :=
  (Resumption.ofExcept (e.infoAt idx)).bind fun info =>
  if !info.active then .done e
  else
    (Resumption.ofExcept (e.countersAt idx)).bind fun c =>
    if c.ulBytes = info.emittedUlBytes ∧ c.dlBytes = info.emittedDlBytes then .done e
    else e.emitWork idx .shutdown nowNs

def drainLoopWork (nowNs : UInt64) : Nat → Nat → MeterEngine → Work MeterEngine
  | 0, _, e => .done e
  | n + 1, idx, e => (e.drainSlotWork idx nowNs).bind (drainLoopWork nowNs n (idx + 1))

def drainWork (e : MeterEngine) (nowNs : UInt64) : Work MeterEngine :=
  drainLoopWork nowNs e.nextSub 0 e

end Calls

section Sink

/-- A sink with a ring answers whether it took the record. -/
def answer (sink : RecordSink) (r : UsageRecord) : RecordSink × Bool :=
  ((sink.offer r).1, decide ((sink.offer r).2 = .pushed))

/-- The sink beside the engine is the one the engine knows, but for the ring. -/
structure SinkAgrees (sink : RecordSink) (e : MeterEngine) : Prop where
  wall : sink.wall = e.sink.wall
  offered : sink.offered = e.sink.offered
  ring : sink.ring.isSome

/-- The engine with the sink attached. -/
def attach (e : MeterEngine) (sink : RecordSink) : MeterEngine :=
  { e with sink := sink }

variable {e : MeterEngine} {sink : RecordSink}

/-- A sink with a ring takes the record or refuses it. -/
theorem offer_outcome (hring : sink.ring.isSome) (r : UsageRecord) :
    (if decide ((sink.offer r).2 = .pushed) then SinkOutcome.pushed else .refused) =
      (sink.offer r).2 := by
  obtain ⟨q, hq⟩ := Option.isSome_iff_exists.mp hring
  simp only [RecordSink.offer, hq]
  split_ifs <;> simp_all

theorem SinkAgrees.offer (ha : SinkAgrees sink e) (r : UsageRecord) :
    (sink.offer r).1.wall = e.sink.wall ∧ (sink.offer r).1.offered = e.sink.offered + 1 ∧
      (sink.offer r).1.ring.isSome := by
  obtain ⟨q, hq⟩ := Option.isSome_iff_exists.mp ha.ring
  simp only [RecordSink.offer, hq]
  exact ⟨ha.wall, by rw [ha.offered], rfl⟩

end Sink

end MeterEngine
end GtpMeter
