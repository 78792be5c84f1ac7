import GtpMeter.RuntimeShutdown

/-!
# One user at a time

Each side of each ring is used by one thread at a time, the consumer side of the record
ring by the reporter and then by `stop`.  So no thread ever finds a ring in the middle
of a call that is not its own, and each can go on unless it waits for another to return,
has returned, or is in a call on the engine that does not return.

**Results.**
* `Users`: who is in a call on which ring.
* `threads_proceed`: after every run, every thread can take its next step.
-/

namespace GtpMeter

open Runs SharedRing

/-- The ring on which a thread is in a call. -/
inductive RingUse where
  | none
  | meter
  | gy
  | record
deriving DecidableEq

def MeterAt.use : MeterAt → RingUse
  | .popping => .meter
  | .gyPopping _ => .gy
  | _ => .none

theorem MeterAt.use_ne_record (here : MeterAt) : here.use ≠ .record := by
  cases here <;> simp [MeterAt.use]

def MeterPc.use {E : Type} : MeterPc E → RingUse
  | .place here => here.use
  | .working _ _ => .none
  | .emitting _ _ => .record

/-- A call on the engine returns to a place outside of the rings. -/
def MeterPc.Returns {E : Type} : MeterPc E → Prop
  | .place _ => True
  | .working _ next => next.use = .none
  | .emitting _ next => next.use = .none

def IngestPc.use : IngestPc → RingUse
  | .pushing => .meter
  | .pushingGy => .gy
  | .draining .popping => .record
  | _ => .none

def ReporterPc.use : ReporterPc → RingUse
  | .draining _ .popping => .record
  | _ => .none

namespace Runtime

variable {E : Type}

structure Users (rt : Runtime E) : Prop where
  meterPush : rt.meterRing.push = .idle ↔ rt.ingest.use ≠ .meter
  gyPush : rt.gyRing.push = .idle ↔ rt.ingest.use ≠ .gy
  meterPop : rt.meterRing.pop = .idle ↔ rt.meter.use ≠ .meter
  gyPop : rt.gyRing.pop = .idle ↔ rt.meter.use ≠ .gy
  recordPush : rt.recordRing.push = .idle ↔ rt.meter.use ≠ .record
  recordPop : rt.recordRing.pop = .idle ↔
    rt.ingest.use ≠ .record ∧ rt.reporter.use ≠ .record
  returns : rt.meter.Returns

variable {k₁ k₂ k₃ : Nat} {rt rt' : Runtime E} {j : Journal} {out : RuntimeOut}
  {calls : EngineCalls E} {meterBatch nowNs : UInt64}

/-- A thread goes on outside of the rings. -/
theorem Users.setMeter (hu : Users rt) {pc : MeterPc E} {engine : E}
    (huse : pc.use = rt.meter.use) (hret : pc.Returns) :
    Users { rt with engine := engine, meter := pc } where
  meterPush := hu.meterPush
  gyPush := hu.gyPush
  meterPop := by rw [huse]; exact hu.meterPop
  gyPop := by rw [huse]; exact hu.gyPop
  recordPush := by rw [huse]; exact hu.recordPush
  recordPop := hu.recordPop
  returns := hret

theorem Users.setIngest (hu : Users rt) {pc : IngestPc} {running meterStop reporterStop : Bool}
    (huse : pc.use = rt.ingest.use) :
    Users { rt with
      running := running
      meterStop := meterStop
      reporterStop := reporterStop
      ingest := pc } where
  meterPush := by rw [huse]; exact hu.meterPush
  gyPush := by rw [huse]; exact hu.gyPush
  meterPop := hu.meterPop
  gyPop := hu.gyPop
  recordPush := hu.recordPush
  recordPop := by rw [huse]; exact hu.recordPop
  returns := hu.returns

/-- A step of a push on the meter ring. -/
theorem Users.push (hu : Users rt) {r : SharedRing MeterEvent} {next : IngestPc}
    (hpop : r.pop = rt.meterRing.pop) (hpush : r.push = .idle ↔ next.use ≠ .meter)
    (hhere : rt.ingest.use ≠ .gy ∧ rt.ingest.use ≠ .record)
    (hnext : next.use ≠ .gy ∧ next.use ≠ .record) :
    Users { rt with meterRing := r, ingest := next } where
  meterPush := hpush
  gyPush := hu.gyPush.trans (by simp [hhere.1, hnext.1])
  meterPop := by rw [hpop]; exact hu.meterPop
  gyPop := hu.gyPop
  recordPush := hu.recordPush
  recordPop := hu.recordPop.trans (by simp [hhere.2, hnext.2])
  returns := hu.returns

/-- A step of a push on the Gy ring. -/
theorem Users.pushGy (hu : Users rt) {r : SharedRing GyEvent} {next : IngestPc}
    (hpop : r.pop = rt.gyRing.pop) (hpush : r.push = .idle ↔ next.use ≠ .gy)
    (hhere : rt.ingest.use ≠ .meter ∧ rt.ingest.use ≠ .record)
    (hnext : next.use ≠ .meter ∧ next.use ≠ .record) :
    Users { rt with gyRing := r, ingest := next } where
  meterPush := hu.meterPush.trans (by simp [hhere.1, hnext.1])
  gyPush := hpush
  meterPop := hu.meterPop
  gyPop := by rw [hpop]; exact hu.gyPop
  recordPush := hu.recordPush
  recordPop := hu.recordPop.trans (by simp [hhere.2, hnext.2])
  returns := hu.returns

/-- `stop` drains only once the reporter has returned. -/
theorem Sound.ingest_use_ne (hs : Sound k₁ k₂ k₃ rt j) (hlive : rt.reporter ≠ .exited) :
    rt.ingest.use ≠ .record := by
  have hphase : ¬5 ≤ rt.ingest.phase := fun h => hlive (hs.reported h)
  intro huse
  cases hi : rt.ingest <;> simp_all [IngestPc.use, IngestPc.phase]

/-- A step of a pop on the meter ring. -/
theorem Users.takes (hu : Users rt) {r : SharedRing MeterEvent} {here next : MeterAt}
    (hm : rt.meter = .place here) (hpush : r.push = rt.meterRing.push)
    (hpop : r.pop = .idle ↔ next.use ≠ .meter) (hhere : here.use ≠ .gy) (hnext : next.use ≠ .gy) :
    Users { rt with meterRing := r, meter := .place next } where
  meterPush := by rw [hpush]; exact hu.meterPush
  gyPush := hu.gyPush
  meterPop := hpop
  gyPop := hu.gyPop.trans (by simp [hm, MeterPc.use, hhere, hnext])
  recordPush := hu.recordPush.trans (by simp [hm, MeterPc.use, MeterAt.use_ne_record])
  recordPop := hu.recordPop
  returns := trivial

/-- A step of a pop on the Gy ring. -/
theorem Users.takesGy (hu : Users rt) {r : SharedRing GyEvent} {here next : MeterAt}
    (hm : rt.meter = .place here) (hpush : r.push = rt.gyRing.push)
    (hpop : r.pop = .idle ↔ next.use ≠ .gy) (hhere : here.use ≠ .meter)
    (hnext : next.use ≠ .meter) : Users { rt with gyRing := r, meter := .place next } where
  meterPush := hu.meterPush
  gyPush := by rw [hpush]; exact hu.gyPush
  meterPop := hu.meterPop.trans (by simp [hm, MeterPc.use, hhere, hnext])
  gyPop := hpop
  recordPush := hu.recordPush.trans (by simp [hm, MeterPc.use, MeterAt.use_ne_record])
  recordPop := hu.recordPop
  returns := trivial

/-- A step of a push on the record ring, in a call. -/
theorem Users.emits (hu : Users rt) {r : SharedRing UsageRecord} {pc : MeterPc E}
    (hpop : r.pop = rt.recordRing.pop) (hpush : r.push = .idle ↔ pc.use ≠ .record)
    (hmeter : pc.use ≠ .meter ↔ rt.meter.use ≠ .meter) (hgy : pc.use ≠ .gy ↔ rt.meter.use ≠ .gy)
    (hret : pc.Returns) : Users { rt with recordRing := r, meter := pc } where
  meterPush := hu.meterPush
  gyPush := hu.gyPush
  meterPop := hu.meterPop.trans hmeter.symm
  gyPop := hu.gyPop.trans hgy.symm
  recordPush := hpush
  recordPop := by rw [hpop]; exact hu.recordPop
  returns := hret

theorem Users.stopCall (hu : Users rt) (huse : rt.ingest.use = .none) : Users rt.stop.1 := by
  unfold Runtime.stop
  split_ifs
  · exact hu.setIngest huse.symm
  · exact hu

theorem Users.moves (hu : Users rt) (hs : Sound k₁ k₂ k₃ rt j) (hmoves : Moves calls rt rt' out) :
    Users rt' := by
  have hret := hu.returns
  cases hmoves with
  | meterPush hpc _ _ hpop hnext =>
      have hhere : rt.ingest.use ≠ .gy ∧ rt.ingest.use ≠ .record := by
        rcases hpc with h | h <;> simp [h, IngestPc.use]
      rcases hnext with ⟨rfl, hbusy⟩ | ⟨rfl, hidle⟩
      · exact hu.push hpop (by simpa [IngestPc.use] using hbusy) hhere (by decide)
      · exact hu.push hpop (by simpa [IngestPc.use] using hidle) hhere (by decide)
  | gyPush hpc _ _ hpop hnext =>
      have hhere : rt.ingest.use ≠ .meter ∧ rt.ingest.use ≠ .record := by
        rcases hpc with h | h <;> simp [h, IngestPc.use]
      rcases hnext with ⟨rfl, hbusy⟩ | ⟨rfl, hidle⟩
      · exact hu.pushGy hpop (by simpa [IngestPc.use] using hbusy) hhere (by decide)
      · exact hu.pushGy hpop (by simpa [IngestPc.use] using hidle) hhere (by decide)
  | stopCall hpc => exact hu.stopCall (by rcases hpc with h | h <;> rw [h] <;> rfl)
  | stopping hpc | joinMeter hpc | signalReporter hpc
  | joinReporter hpc => exact hu.setIngest (by rw [hpc]; rfl)
  | @ingestDrain pc pc' _ _ _ _ hpc hd =>
      have hgone := hs.reported (by simp [hpc, IngestPc.phase])
      have hmeter := hu.meterPush
      have hgy := hu.gyPush
      rw [hpc] at hmeter hgy
      exact { hu with
        meterPush := by
          rcases pc with _ | _ <;> rcases pc' with _ | _ | _ <;>
            simpa [IngestPc.use] using hmeter
        gyPush := by
          rcases pc with _ | _ <;> rcases pc' with _ | _ | _ <;>
            simpa [IngestPc.use] using hgy
        recordPush := by rw [hd.push]; exact hu.recordPush
        recordPop := by
          rw [hd.idle]
          rcases pc' with _ | _ | _ <;> simp [IngestPc.use, ReporterPc.use, hgone] }
  | report hpc =>
      have hrec := hu.recordPop
      rw [hpc] at hrec
      exact { hu with recordPop := by simpa [ReporterPc.use] using hrec }
  | @reporterDrain last _ pc' _ _ _ _ hpc hd =>
      have hnot := hs.ingest_use_ne (by simp [hpc])
      exact { hu with
        recordPush := by rw [hd.push]; exact hu.recordPush
        recordPop := by
          rw [hd.idle]
          rcases pc' with _ | _ | _ <;> cases last <;> simp [ReporterPc.use, hnot] }
  | meterPop hm hhere _ hpush hnext =>
      have hgy : ∀ here : MeterAt, here = .top ∨ here = .popping → here.use ≠ .gy := by
        rintro _ (rfl | rfl) <;> simp [MeterAt.use]
      rcases hnext with ⟨rfl, -, hbusy⟩ | ⟨rfl, hidle⟩
      · exact hu.takes hm hpush (by simpa [MeterAt.use] using hbusy) (hgy _ hhere) (by decide)
      · exact hu.takes hm hpush (by simpa [MeterAt.use] using hidle) (hgy _ hhere)
          (by simp [MeterAt.use])
  | @gyPop _ _ n _ _ hm hhere _ hpush hnext =>
      have hmeter : ∀ here : MeterAt, here = .gyTop n ∨ here = .gyPopping n →
          here.use ≠ .meter := by
        rintro _ (rfl | rfl) <;> simp [MeterAt.use]
      refine hu.takesGy hm hpush ?_ (hmeter _ hhere) ?_
      · rcases hnext with ⟨rfl, -, hbusy⟩ | ⟨⟨rfl, -⟩ | ⟨ev, rest, rfl, -⟩, hidle⟩ <;>
          simpa [MeterAt.use]
      · rcases hnext with ⟨rfl, -⟩ | ⟨⟨rfl, -⟩ | ⟨ev, rest, rfl, -⟩, -⟩ <;> simp [MeterAt.use]
  | goes hm hgoes => cases hgoes <;> exact hu.setMeter (by rw [hm]; rfl) trivial
  | enters hm henters => cases henters <;> exact hu.setMeter (by rw [hm]; rfl) rfl
  | returns hm =>
      rw [hm] at hret
      exact hu.setMeter (by rw [hm]; exact hret) trivial
  | ask hm hring =>
      rw [hm] at hret
      obtain ⟨-, hpop, hbusy⟩ := step_push hring
      exact hu.emits hpop (by simpa [MeterPc.use] using hbusy) (by simp [MeterPc.use, hm])
        (by simp [MeterPc.use, hm]) hret
  | offer hm hring hpc =>
      rw [hm] at hret
      have hpop := (step_produce hring).2
      rcases hpc with ⟨-, rfl, hbusy⟩ | ⟨accepted, count, -, rfl, hidle⟩
      · exact hu.emits hpop (by simpa [MeterPc.use] using hbusy) (by simp [MeterPc.use, hm])
          (by simp [MeterPc.use, hm]) hret
      · exact hu.emits hpop (by simpa [MeterPc.use] using hidle) (by simp [MeterPc.use, hm])
          (by simp [MeterPc.use, hm]) hret

/-- A step of `drain_records` can be taken by the thread whose turn it is. -/
theorem drainStep_enabled (written : Bool) {pc : DrainPc}
    (hpop : rt.recordRing.pop = .idle ↔ pc ≠ .popping) : ∃ x, rt.drainStep written pc = .ok x := by
  cases pc with
  | begin =>
      obtain ⟨⟨r, o⟩, hring⟩ := pop_enabled (hpop.mpr (by simp))
      simp [drainStep, hring, bind, Except.bind]
  | popping =>
      have hbusy : rt.recordRing.pop ≠ .idle := fun h => absurd (hpop.mp h) (by simp)
      obtain ⟨⟨r, o⟩, hring⟩ := consume_enabled hbusy
      simp only [drainStep, hring, bind, Except.bind]
      split <;> exact ⟨_, rfl⟩

theorem Users.loop_enabled (hu : Users rt) {here : MeterAt} (hm : rt.meter = .place here)
    (hlive : here ≠ .exited) : ∃ x, rt.loopStep calls meterBatch nowNs here = .ok x := by
  have hmeter := hu.meterPop
  have hgy := hu.gyPop
  rw [hm] at hmeter hgy
  cases here with
  | top =>
      obtain ⟨⟨r, o⟩, hring⟩ :=
        popBulk_enabled meterBatch (hmeter.mpr (by simp [MeterPc.use, MeterAt.use]))
      simp [Runtime.loopStep, hring, bind, Except.bind]
  | popping =>
      obtain ⟨⟨r, o⟩, hring⟩ := consume_enabled (mt hmeter.mp (by simp [MeterPc.use, MeterAt.use]))
      simp [Runtime.loopStep, hring, bind, Except.bind]
  | gyTop n =>
      obtain ⟨⟨r, o⟩, hring⟩ := pop_enabled (hgy.mpr (by simp [MeterPc.use, MeterAt.use]))
      simp [Runtime.loopStep, hring, bind, Except.bind]
  | gyPopping n =>
      obtain ⟨⟨r, o⟩, hring⟩ := consume_enabled (mt hgy.mp (by simp [MeterPc.use, MeterAt.use]))
      simp [Runtime.loopStep, hring, bind, Except.bind]
  | applying n todo => cases todo <;> exact ⟨_, rfl⟩
  | exited => exact absurd rfl hlive
  | _ => exact ⟨_, rfl⟩

/-- The metering thread goes on until it has returned, unless a call does not return. -/
theorem Users.meter_enabled (hu : Users rt) (hlive : rt.meter ≠ .place .exited)
    (hcall : ∀ f next, rt.meter ≠ .working (.fail f) next) :
    ∃ x, rt.meterStep calls meterBatch nowNs = .ok x := by
  have hrec := hu.recordPush
  unfold Runtime.meterStep
  cases hm : rt.meter with
  | place here => exact hu.loop_enabled hm (fun h => hlive (by rw [hm, h]))
  | working work next =>
      rw [hm] at hrec
      cases work with
      | done e => exact ⟨_, rfl⟩
      | ask record resume =>
          obtain ⟨⟨r, o⟩, hring⟩ := push_enabled record (hrec.mpr (by simp [MeterPc.use]))
          simp [hring, bind, Except.bind]
      | fail f => exact absurd hm (hcall f next)
  | emitting resume next =>
      rw [hm] at hrec
      obtain ⟨⟨r, o⟩, hring⟩ := produce_enabled (mt hrec.mp (by simp [MeterPc.use]))
      simp [hring, bind, Except.bind]

theorem Users.reporter_enabled (hu : Users rt) (hs : Sound k₁ k₂ k₃ rt j) (written : Bool)
    (hlive : rt.reporter ≠ .exited) : ∃ x, rt.reporterStep written = .ok x := by
  have hrec := hu.recordPop
  have hnot := hs.ingest_use_ne hlive
  unfold Runtime.reporterStep
  cases hpc : rt.reporter with
  | top => exact ⟨_, rfl⟩
  | exited => exact absurd hpc hlive
  | draining last pc =>
      rw [hpc] at hrec
      have hturn : rt.recordRing.pop = .idle ↔ pc ≠ .popping :=
        hrec.trans (by cases pc <;> simp [ReporterPc.use, hnot])
      obtain ⟨⟨rt', pc', o⟩, hd⟩ := drainStep_enabled written hturn
      simp [hd, bind, Except.bind]

/-- The ingest thread in a call goes on, unless it waits for a thread to return. -/
theorem Users.ingest_enabled (hu : Users rt) (hs : Sound k₁ k₂ k₃ rt j) (written : Bool)
    (hcall : rt.ingest ≠ .running ∧ rt.ingest ≠ .stopped)
    (hmeter : rt.ingest = .joinMeter → rt.meter = .place .exited)
    (hreporter : rt.ingest = .joinReporter → rt.reporter = .exited) :
    ∃ x, rt.ingestStep written = .ok x := by
  have hpush := hu.meterPush
  have hpushGy := hu.gyPush
  have hrec := hu.recordPop
  unfold Runtime.ingestStep
  cases hpc : rt.ingest with
  | running => exact absurd hpc hcall.1
  | stopped => exact absurd hpc hcall.2
  | pushing =>
      rw [hpc] at hpush
      obtain ⟨⟨r, o⟩, hring⟩ := produce_enabled (mt hpush.mp (by simp [IngestPc.use]))
      simp [hring, bind, Except.bind]
  | pushingGy =>
      rw [hpc] at hpushGy
      obtain ⟨⟨r, o⟩, hring⟩ := produce_enabled (mt hpushGy.mp (by simp [IngestPc.use]))
      simp [hring, bind, Except.bind]
  | stopping => exact ⟨_, rfl⟩
  | joinMeter => simp [hmeter hpc]
  | signalReporter => exact ⟨_, rfl⟩
  | joinReporter => simp [hreporter hpc]
  | draining pc =>
      have hgone := hs.reported (by simp [hpc, IngestPc.phase])
      rw [hpc, hgone] at hrec
      have hturn : rt.recordRing.pop = .idle ↔ pc ≠ .popping :=
        hrec.trans (by cases pc <;> simp [IngestPc.use, ReporterPc.use])
      obtain ⟨⟨rt', pc', o⟩, hd⟩ := drainStep_enabled written hturn
      simp [hd, bind, Except.bind]

theorem Users.start (engine : E) (file : Bool) (s₁ : UInt64 → MeterEvent) (s₂ : UInt64 → GyEvent)
    (s₃ : UInt64 → UsageRecord) :
    Users (start engine file (.start k₁ s₁) (.start k₂ s₂) (.start k₃ s₃)) := by
  constructor <;> simp [Runtime.start, SharedRing.start, IngestPc.use, MeterPc.use, MeterAt.use,
    ReporterPc.use, MeterPc.Returns]

/-- After every run, each thread can take its next step: a ring never makes it wait. -/
theorem threads_proceed (h₁ : k₁ < 64) (h₂ : k₂ < 64) (h₃ : k₃ < 64) {engine : E}
    {file : Bool} {s₁ : UInt64 → MeterEvent} {s₂ : UInt64 → GyEvent}
    {s₃ : UInt64 → UsageRecord} {h : Trace E}
    (hrun : Run (Runtime.step calls meterBatch)
      (Runtime.start engine file (.start k₁ s₁) (.start k₂ s₂) (.start k₃ s₃)) h rt) :
    (∀ nowNs, rt.meter ≠ .place .exited → (∀ f next, rt.meter ≠ .working (.fail f) next) →
        ∃ x, rt.step calls meterBatch (.meter nowNs) = .ok x) ∧
      (∀ written, rt.reporter ≠ .exited →
        ∃ x, rt.step calls meterBatch (.reporter written) = .ok x) ∧
      (∀ written, rt.ingest ≠ .running ∧ rt.ingest ≠ .stopped →
        (rt.ingest = .joinMeter → rt.meter = .place .exited) →
        (rt.ingest = .joinReporter → rt.reporter = .exited) →
        ∃ x, rt.step calls meterBatch (.ingest written) = .ok x) ∧
      (rt.ingest = .running → (∀ ev, ∃ x, rt.step calls meterBatch (.push ev) = .ok x) ∧
        ∀ ev, ∃ x, rt.step calls meterBatch (.pushGy ev) = .ok x) := by
  have hall : Sound k₁ k₂ k₃ rt (journal h) ∧ Users rt := by
    refine hrun.simulate (R := fun rt (j : Journal) => Sound k₁ k₂ k₃ rt j ∧ Users rt)
      (G := fun _ => True) ?_ ?_ (fun _ _ => trivial)
    · exact ⟨Sound.start h₁ h₂ h₃ engine file s₁ s₂ s₃, Users.start engine file s₁ s₂ s₃⟩
    · rintro rt j op rt' out ⟨hs, hu⟩ hstep _
      exact ⟨hs.step hstep, hu.moves hs (step_moves hstep)⟩
  obtain ⟨hs, hu⟩ := hall
  refine ⟨fun _ hlive hcall => hu.meter_enabled hlive hcall,
    fun written hlive => hu.reporter_enabled hs written hlive,
    fun written hcall hm hr => hu.ingest_enabled hs written hcall hm hr, ?_⟩
  intro hrunning
  have hpush := hu.meterPush
  have hpushGy := hu.gyPush
  rw [hrunning] at hpush hpushGy
  refine ⟨fun ev => ?_, fun ev => ?_⟩
  · obtain ⟨⟨r, o⟩, hring⟩ := push_enabled ev (hpush.mpr (by simp [IngestPc.use]))
    simp [Runtime.step, hrunning, hring, bind, Except.bind]
  · obtain ⟨⟨r, o⟩, hring⟩ := push_enabled ev (hpushGy.mpr (by simp [IngestPc.use]))
    simp [Runtime.step, hrunning, hring, bind, Except.bind]

end Runtime
end GtpMeter
