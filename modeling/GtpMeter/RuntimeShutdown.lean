import GtpMeter.RuntimeMoves

/-!
# Shutdown loses nothing

What holds between the three threads, up to the return of `stop`.  The journal of a
run lists what each ring accepted and gave out, and the calls on the engine.

**Results.**
* `Sound`: the invariant.  What the metering thread has popped is what it has applied
  and what it still holds; once it has seen the stop flag no event can come any more,
  so the occupancies it reads are final.
* `Sound.step`: each step of each thread keeps it.
* `shutdown_loses_nothing`: when `stop` has returned, every event was applied, `drain`
  was the last call, and every record was popped.
-/

namespace GtpMeter

open Runs SharedRing

def EngineCall.event : EngineCall → Option MeterEvent
  | .apply ev => some ev
  | _ => none

def EngineCall.gyEvent : EngineCall → Option GyEvent
  | .applyGy ev => some ev
  | _ => none

def EngineCall.isDrain : EngineCall → Bool
  | .drain _ => true
  | _ => false

/-- The events of a batch that are not yet applied. -/
def MeterAt.pending : MeterAt → List MeterEvent
  | .applying _ todo => todo
  | _ => []

/-- The Gy event that is popped and not yet applied. -/
def MeterAt.pendingGy : MeterAt → List GyEvent
  | .gyGot _ ev => [ev]
  | _ => []

/-- Where the thread is, or goes on to after its call. -/
def MeterPc.next {E : Type} : MeterPc E → MeterAt
  | .place here => here
  | .working _ next => next
  | .emitting _ next => next

/-- How far the ingest thread has come. -/
def IngestPc.phase : IngestPc → Nat
  | .running => 0
  | .pushing => 0
  | .pushingGy => 0
  | .stopping => 1
  | .joinMeter => 2
  | .signalReporter => 3
  | .joinReporter => 4
  | .draining _ => 5
  | .stopped => 6

namespace Runtime

variable {E : Type}

/-- What a run did, from its history. -/
structure Journal where
  meterIn : List MeterEvent := []
  meterOut : List MeterEvent := []
  gyIn : List GyEvent := []
  gyOut : List GyEvent := []
  recordIn : List UsageRecord := []
  recordOut : List UsageRecord := []
  calls : List EngineCall := []

/-- The output of a step, entered. -/
def Journal.enter (j : Journal) : RuntimeOut → Journal
  | .quiet => j
  | .meterRing out =>
      { j with meterIn := j.meterIn ++ out.accepted, meterOut := j.meterOut ++ out.taken }
  | .gyRing out => { j with gyIn := j.gyIn ++ out.accepted, gyOut := j.gyOut ++ out.taken }
  | .recordRing out =>
      { j with recordIn := j.recordIn ++ out.accepted, recordOut := j.recordOut ++ out.taken }
  | .called c => { j with calls := j.calls ++ [c] }

abbrev Trace (E : Type) := List (Transition (Runtime E) RuntimeOp RuntimeOut)

def journal (h : Trace E) : Journal :=
  h.foldl (fun j tr => j.enter tr.out) {}

/-- What the metering thread has found out on its way out of the loop. -/
def ExitOk (rt : Runtime E) (j : Journal) : MeterAt → Prop
  | .sizeMeter => rt.meterStop = true
  | .sizedMeter head => rt.meterStop = true ∧ head = rt.meterRing.ring.head
  | .sizeGy => rt.meterStop = true ∧ j.meterIn = j.meterOut
  | .sizedGy head =>
      rt.meterStop = true ∧ j.meterIn = j.meterOut ∧ head = rt.gyRing.ring.head
  | .leaving => rt.meterStop = true ∧ j.meterIn = j.meterOut ∧ j.gyIn = j.gyOut
  | .exited => rt.meterStop = true ∧ j.meterIn = j.meterOut ∧ j.gyIn = j.gyOut
  | _ => True

/-- `drain` is the last call, and is made on the way to the exit only. -/
def Drained (calls : List EngineCall) : MeterAt → Prop
  | .exited => ∃ before nowNs, calls = before ++ [.drain nowNs] ∧
      ∀ c ∈ before, c.isDrain = false
  | _ => ∀ c ∈ calls, c.isDrain = false

structure Sound (k₁ k₂ k₃ : Nat) (rt : Runtime E) (j : Journal) : Prop where
  meterRing : Holds k₁ rt.meterRing j.meterIn j.meterOut
  gyRing : Holds k₂ rt.gyRing j.gyIn j.gyOut
  recordRing : Holds k₃ rt.recordRing j.recordIn j.recordOut
  gySingle : rt.gyRing.pop.single
  recordSingle : rt.recordRing.pop.single
  applied : j.meterOut = j.calls.filterMap EngineCall.event ++ rt.meter.next.pending
  appliedGy : j.gyOut = j.calls.filterMap EngineCall.gyEvent ++ rt.meter.next.pendingGy
  exit : ExitOk rt j rt.meter.next
  drained : Drained j.calls rt.meter.next
  running : rt.running = true → rt.ingest.phase = 0
  stop : rt.meterStop = true → 2 ≤ rt.ingest.phase
  joined : 3 ≤ rt.ingest.phase → rt.meter = .place .exited
  reported : 5 ≤ rt.ingest.phase → rt.reporter = .exited
  records : rt.ingest = .stopped → j.recordIn = j.recordOut

variable {k₁ k₂ k₃ : Nat} {rt rt' : Runtime E} {j : Journal} {out : RuntimeOut}

section Ingest

/-- Before the stop flag is set the metering thread knows nothing that could change. -/
theorem ExitOk.beforeStop {here : MeterAt} (he : ExitOk rt j here) (hopen : rt.meterStop = false)
    (rt' : Runtime E) (j' : Journal) : ExitOk rt' j' here := by
  cases here <;> simp_all [ExitOk]

theorem Sound.beforeStop (hs : Sound k₁ k₂ k₃ rt j) (hphase : rt.ingest.phase = 0) :
    rt.meterStop = false := by
  cases hstop : rt.meterStop with
  | false => rfl
  | true =>
      have hle := hs.stop hstop
      omega

/-- The ingest thread goes on before it calls `stop`. -/
theorem Sound.pushing (hs : Sound k₁ k₂ k₃ rt j) {next : IngestPc}
    (hphase : rt.ingest.phase = 0) (hnext : next.phase = 0) :
    Sound k₁ k₂ k₃ { rt with ingest := next } j := by
  have hopen := hs.beforeStop hphase
  exact { hs with
    running := fun _ => hnext
    stop := fun h => absurd h (by simp [hopen])
    joined := fun h => by
      have : 3 ≤ next.phase := h
      omega
    reported := fun h => by
      have : 5 ≤ next.phase := h
      omega
    records := fun h => by
      have : next = .stopped := h
      simp [this, IngestPc.phase] at hnext }

/-- A step of a push on the meter ring. -/
theorem Sound.push (hs : Sound k₁ k₂ k₃ rt j) {op : RingOp MeterEvent}
    {r : SharedRing MeterEvent} {o : RingOut MeterEvent} {next : IngestPc}
    (hphase : rt.ingest.phase = 0) (hnext : next.phase = 0)
    (hstep : rt.meterRing.step op = .ok (r, o)) (htaken : o.taken = []) :
    Sound k₁ k₂ k₃ { rt with meterRing := r, ingest := next } (j.enter (.meterRing o)) := by
  have hout : j.meterOut ++ o.taken = j.meterOut := by rw [htaken, List.append_nil]
  exact { hs.pushing hphase hnext with
    meterRing := hs.meterRing.step hstep
    applied := hout.trans hs.applied
    exit := hs.exit.beforeStop (hs.beforeStop hphase) _ _ }

/-- A step of a push on the Gy ring. -/
theorem Sound.pushGy (hs : Sound k₁ k₂ k₃ rt j) {op : RingOp GyEvent}
    {r : SharedRing GyEvent} {o : RingOut GyEvent} {next : IngestPc}
    (hphase : rt.ingest.phase = 0) (hnext : next.phase = 0)
    (hstep : rt.gyRing.step op = .ok (r, o)) (htaken : o.taken = [])
    (hpop : r.pop = rt.gyRing.pop) :
    Sound k₁ k₂ k₃ { rt with gyRing := r, ingest := next } (j.enter (.gyRing o)) := by
  have hout : j.gyOut ++ o.taken = j.gyOut := by rw [htaken, List.append_nil]
  exact { hs.pushing hphase hnext with
    gyRing := hs.gyRing.step hstep
    gySingle := hpop ▸ hs.gySingle
    appliedGy := hout.trans hs.appliedGy
    exit := hs.exit.beforeStop (hs.beforeStop hphase) _ _ }

/-- A step of `drain_records`: it returns only when the ring has given out all. -/
theorem Sound.drains (hs : Sound k₁ k₂ k₃ rt j) {r : SharedRing UsageRecord}
    {o : RingOut UsageRecord} {pc : Option DrainPc} (hd : Drains rt.recordRing r o pc) :
    Holds k₃ r (j.recordIn ++ o.accepted) (j.recordOut ++ o.taken) ∧ r.pop.single ∧
      (pc = none → j.recordIn ++ o.accepted = j.recordOut ++ o.taken) := by
  rcases hd.step with hring | hring
  · obtain ⟨rfl, hone, -, -⟩ := step_pop hring
    exact ⟨hs.recordRing.step hring, hone, fun h => by cases hd.last h⟩
  · obtain ⟨hone, hcases⟩ := step_consume hs.recordRing hs.recordSingle hring
    refine ⟨hs.recordRing.step hring, hone, fun h => ?_⟩
    rcases hcases with rfl | ⟨rfl, hall⟩ | ⟨v, rfl⟩
    · cases hd.last h
    · simpa using hall
    · cases hd.last h

/-- The ingest thread goes on in `stop`, with the rings and the metering thread as they
are. -/
theorem Sound.proceed (hs : Sound k₁ k₂ k₃ rt j) {next : IngestPc} {reporterStop : Bool}
    (hphase : 2 ≤ rt.ingest.phase) (hle : rt.ingest.phase ≤ next.phase)
    (hjoined : 3 ≤ next.phase → rt.meter = .place .exited)
    (hreported : 5 ≤ next.phase → rt.reporter = .exited) (hstopped : next ≠ .stopped) :
    Sound k₁ k₂ k₃ { rt with reporterStop := reporterStop, ingest := next } j :=
  { hs with
    running := fun h => by
      have hopen := hs.running h
      omega
    stop := fun _ => Nat.le_trans hphase hle
    joined := hjoined
    reported := hreported
    records := fun h => absurd h hstopped }

/-- The stop flag of the metering thread is set. -/
theorem Sound.stopping (hs : Sound k₁ k₂ k₃ rt j) (hpc : rt.ingest = .stopping) :
    Sound k₁ k₂ k₃ { rt with meterStop := true, ingest := .joinMeter } j := by
  have hopen : rt.meterStop = false := by
    cases hstop : rt.meterStop with
    | false => rfl
    | true =>
        have hle := hs.stop hstop
        simp [hpc, IngestPc.phase] at hle
  exact { hs with
    exit := hs.exit.beforeStop hopen _ _
    running := fun h => by
      have hphase := hs.running h
      simp [hpc, IngestPc.phase] at hphase
    stop := fun _ => Nat.le_refl 2
    joined := fun h => by simp [IngestPc.phase] at h
    reported := fun h => by simp [IngestPc.phase] at h
    records := fun h => by cases h }

/-- `stop` drains the record ring after the reporter has returned. -/
theorem Sound.ingestDrain (hs : Sound k₁ k₂ k₃ rt j) {pc : DrainPc} {pc' : Option DrainPc}
    {r : SharedRing UsageRecord} {o : RingOut UsageRecord} {w x : UInt64}
    (hpc : rt.ingest = .draining pc) (hd : Drains rt.recordRing r o pc') :
    Sound k₁ k₂ k₃ { rt with
      recordRing := r
      recordsWritten := w
      recordWriteErrors := x
      ingest := pc'.elim .stopped .draining } (j.enter (.recordRing o)) := by
  obtain ⟨hring, hone, hlast⟩ := hs.drains hd
  have hexit := hs.joined (by simp [hpc, IngestPc.phase])
  have hgone := hs.reported (by simp [hpc, IngestPc.phase])
  exact { hs with
    recordRing := hring
    recordSingle := hone
    running := fun h => by
      have hphase := hs.running h
      simp [hpc, IngestPc.phase] at hphase
    stop := fun _ => by cases pc' <;> simp [IngestPc.phase]
    joined := fun _ => hexit
    reported := fun _ => hgone
    records := fun h => by
      cases pc' with
      | some pc' => cases h
      | none => exact hlast rfl }

/-- `stop` is called. -/
theorem Sound.stopCall (hs : Sound k₁ k₂ k₃ rt j) :
    Sound k₁ k₂ k₃ rt.stop.1 (j.enter rt.stop.2) := by
  unfold Runtime.stop
  by_cases hrunning : rt.running = true
  · have hopen := hs.beforeStop (hs.running hrunning)
    rw [if_pos hrunning]
    exact { hs with
      running := fun h => by cases h
      stop := fun h => absurd h (by simp [hopen])
      joined := fun h => by simp [IngestPc.phase] at h
      reported := fun h => by simp [IngestPc.phase] at h
      records := fun h => by cases h }
  · rw [if_neg hrunning]
    exact hs

end Ingest

section Meter

variable {calls : EngineCalls E}

/-- While the metering thread runs, `stop` has not joined it. -/
theorem Sound.early (hs : Sound k₁ k₂ k₃ rt j) (hne : rt.meter ≠ .place .exited) :
    ¬3 ≤ rt.ingest.phase :=
  fun h => hne (hs.joined h)

theorem Drained.none {cs : List EngineCall} {here : MeterAt} (hd : Drained cs here)
    (hne : here ≠ .exited) : ∀ c ∈ cs, c.isDrain = false := by
  cases here <;> first | exact hd | exact absurd rfl hne

theorem Drained.of_none {cs : List EngineCall} {here : MeterAt} (hne : here ≠ .exited)
    (hd : ∀ c ∈ cs, c.isDrain = false) : Drained cs here := by
  cases here <;> first | exact hd | exact absurd rfl hne

/-- A call in the loop is not `drain`. -/
theorem Drained.call {cs : List EngineCall} {here next : MeterAt} {c : EngineCall}
    (hd : Drained cs here) (hne : here ≠ .exited) (hnext : next ≠ .exited)
    (hc : c.isDrain = false) : Drained (cs ++ [c]) next := by
  refine .of_none hnext ?_
  intro c' hmem
  rcases List.mem_append.mp hmem with hold | hlast
  · exact hd.none hne c' hold
  · rw [List.mem_singleton.mp hlast]
    exact hc

/-- What is known while the metering thread stands at a place of its loop. -/
theorem Sound.standing (hs : Sound k₁ k₂ k₃ rt j) {here : MeterAt}
    (hm : rt.meter = .place here) (hlive : here ≠ .exited) :
    j.meterOut = j.calls.filterMap EngineCall.event ++ here.pending ∧
      j.gyOut = j.calls.filterMap EngineCall.gyEvent ++ here.pendingGy ∧
      (∀ c ∈ j.calls, c.isDrain = false) ∧ ¬3 ≤ rt.ingest.phase := by
  have happlied := hs.applied
  have happliedGy := hs.appliedGy
  have hdrained := hs.drained
  rw [hm] at happlied happliedGy hdrained
  exact ⟨happlied, happliedGy, hdrained.none hlive, hs.early (by simpa [hm] using hlive)⟩

/-- The metering thread goes on, with the rings as they are. -/
theorem Sound.goto (hs : Sound k₁ k₂ k₃ rt j) {here next : MeterAt}
    (hm : rt.meter = .place here) (hlive : here ≠ .exited) (hnext : next ≠ .exited)
    (hpending : here.pending = next.pending) (hpendingGy : here.pendingGy = next.pendingGy)
    (hexit : ExitOk rt j next) : Sound k₁ k₂ k₃ (rt.goto next).1 (j.enter (rt.goto next).2) := by
  obtain ⟨happlied, happliedGy, hnone, hearly⟩ := hs.standing hm hlive
  exact { hs with
    applied := happlied.trans (congrArg _ hpending)
    appliedGy := happliedGy.trans (congrArg _ hpendingGy)
    exit := hexit
    drained := .of_none hnext hnone
    joined := fun h => absurd h hearly }

/-- The metering thread makes a call. -/
theorem Sound.enter (hs : Sound k₁ k₂ k₃ rt j) {here next : MeterAt} {c : EngineCall}
    (hm : rt.meter = .place here) (hlive : here ≠ .exited)
    (hpending : here.pending = c.event.toList ++ next.pending)
    (hpendingGy : here.pendingGy = c.gyEvent.toList ++ next.pendingGy)
    (hexit : ExitOk rt j next) (hdrained : Drained (j.calls ++ [c]) next) :
    Sound k₁ k₂ k₃ (rt.enter calls c next).1 (j.enter (rt.enter calls c next).2) := by
  obtain ⟨happlied, happliedGy, -, hearly⟩ := hs.standing hm hlive
  refine { hs with
    applied := ?_
    appliedGy := ?_
    exit := hexit
    drained := hdrained
    joined := fun h => absurd h hearly }
  · refine happlied.trans ?_
    cases c <;> simp_all [Runtime.enter, Journal.enter, MeterPc.next, EngineCall.event]
  · refine happliedGy.trans ?_
    cases c <;> simp_all [Runtime.enter, Journal.enter, MeterPc.next, EngineCall.gyEvent]

/-- A step of a pop on the meter ring. -/
theorem Sound.takes (hs : Sound k₁ k₂ k₃ rt j) {here next : MeterAt} {op : RingOp MeterEvent}
    {r : SharedRing MeterEvent} {o : RingOut MeterEvent} (hm : rt.meter = .place here)
    (hlive : here ≠ .exited) (hnext : next ≠ .exited)
    (hring : rt.meterRing.step op = .ok (r, o)) (hpending : here.pending = [])
    (htaken : next.pending = o.taken) (hpendingGy : here.pendingGy = next.pendingGy)
    (hexit : ∀ (rt : Runtime E) j, ExitOk rt j next) :
    Sound k₁ k₂ k₃ { rt with meterRing := r, meter := .place next } (j.enter (.meterRing o)) := by
  obtain ⟨happlied, happliedGy, hnone, hearly⟩ := hs.standing hm hlive
  refine { hs with
    meterRing := hs.meterRing.step hring
    applied := ?_
    appliedGy := happliedGy.trans (congrArg _ hpendingGy)
    exit := hexit _ _
    drained := .of_none hnext hnone
    joined := fun h => absurd h hearly }
  have hout : j.meterOut = j.calls.filterMap EngineCall.event := by
    simpa [hpending] using happlied
  simp [Journal.enter, MeterPc.next, htaken, hout]

/-- A step of a pop on the Gy ring. -/
theorem Sound.takesGy (hs : Sound k₁ k₂ k₃ rt j) {here next : MeterAt} {op : RingOp GyEvent}
    {r : SharedRing GyEvent} {o : RingOut GyEvent} (hm : rt.meter = .place here)
    (hlive : here ≠ .exited) (hnext : next ≠ .exited)
    (hring : rt.gyRing.step op = .ok (r, o)) (hone : r.pop.single)
    (hpending : here.pending = next.pending) (hpendingGy : here.pendingGy = [])
    (htaken : next.pendingGy = o.taken) (hexit : ∀ (rt : Runtime E) j, ExitOk rt j next) :
    Sound k₁ k₂ k₃ { rt with gyRing := r, meter := .place next } (j.enter (.gyRing o)) := by
  obtain ⟨happlied, happliedGy, hnone, hearly⟩ := hs.standing hm hlive
  refine { hs with
    gyRing := hs.gyRing.step hring
    gySingle := hone
    applied := happlied.trans (congrArg _ hpending)
    appliedGy := ?_
    exit := hexit _ _
    drained := .of_none hnext hnone
    joined := fun h => absurd h hearly }
  have hout : j.gyOut = j.calls.filterMap EngineCall.gyEvent := by
    simpa [hpendingGy] using happliedGy
  simp [Journal.enter, MeterPc.next, htaken, hout]

/-- What the metering thread finds out where it goes on by itself. -/
theorem Sound.goes (hs : Sound k₁ k₂ k₃ rt j) {here next : MeterAt} (hm : rt.meter = .place here)
    (hgoes : Goes rt here next) :
    Sound k₁ k₂ k₃ (rt.goto next).1 (j.enter (rt.goto next).2) := by
  have hexit := hs.exit
  rw [hm] at hexit
  cases hgoes with
  | stopped hstop => exact hs.goto hm (by simp) (by simp) rfl rfl hstop
  | sizeMeter => exact hs.goto hm (by simp) (by simp) rfl rfl ⟨hexit, rfl⟩
  | emptyMeter hzero =>
      obtain ⟨hstop, rfl⟩ := hexit
      exact hs.goto hm (by simp) (by simp) rfl rfl ⟨hstop, hs.meterRing.drained hzero⟩
  | sizeGy => exact hs.goto hm (by simp) (by simp) rfl rfl ⟨hexit.1, hexit.2, rfl⟩
  | emptyGy hzero =>
      obtain ⟨hstop, hall, rfl⟩ := hexit
      exact hs.goto hm (by simp) (by simp) rfl rfl ⟨hstop, hall, hs.gyRing.drained hzero⟩
  | _ => exact hs.goto hm (by simp) (by simp) rfl rfl trivial

theorem Sound.enters (hs : Sound k₁ k₂ k₃ rt j) {here next : MeterAt} {c : EngineCall}
    (hm : rt.meter = .place here) (henters : Enters here c next) :
    Sound k₁ k₂ k₃ (rt.enter calls c next).1 (j.enter (rt.enter calls c next).2) := by
  have hexit := hs.exit
  have hdrained := hs.drained
  rw [hm] at hexit hdrained
  cases henters with
  | drain nowNs => exact hs.enter hm (by simp) rfl rfl hexit ⟨j.calls, nowNs, rfl, hdrained⟩
  | _ =>
      exact hs.enter hm (by simp) rfl rfl trivial
        (hdrained.call (by simp [MeterPc.next]) (by simp) rfl)

/-- A step of a pop on the Gy ring.  A pop takes at most one. -/
theorem Sound.gyPop (hs : Sound k₁ k₂ k₃ rt j) {r : SharedRing GyEvent} {o : RingOut GyEvent}
    {n : Nat} {here next : MeterAt} (hm : rt.meter = .place here)
    (hhere : here = .gyTop n ∨ here = .gyPopping n)
    (hring : rt.gyRing.step .pop = .ok (r, o) ∨ rt.gyRing.step .consume = .ok (r, o))
    (hnext : next = .gyPopping n ∧ o = .pending ∨ next = .polling n ∧ o = .popped [] ∨
      ∃ ev rest, next = .gyGot n ev ∧ o = .popped (ev :: rest)) :
    Sound k₁ k₂ k₃ { rt with gyRing := r, meter := .place next } (j.enter (.gyRing o)) := by
  have hplace : here ≠ .exited ∧ here.pending = [] ∧ here.pendingGy = [] := by
    rcases hhere with rfl | rfl <;> simp [MeterAt.pending, MeterAt.pendingGy]
  obtain ⟨hlive, hpending, hpendingGy⟩ := hplace
  have hone : r.pop.single ∧ ∀ ev rest, o = .popped (ev :: rest) → rest = [] := by
    rcases hring with hring | hring
    · obtain ⟨rfl, hone, -, -⟩ := step_pop hring
      exact ⟨hone, by simp⟩
    · obtain ⟨hone, hcases⟩ := step_consume hs.gyRing hs.gySingle hring
      exact ⟨hone, by rcases hcases with rfl | ⟨rfl, -⟩ | ⟨v, rfl⟩ <;> simp⟩
  have hstep : ∃ op, rt.gyRing.step op = .ok (r, o) := hring.elim (⟨_, ·⟩) (⟨_, ·⟩)
  obtain ⟨op, hop⟩ := hstep
  rcases hnext with ⟨rfl, rfl⟩ | ⟨rfl, rfl⟩ | ⟨ev, rest, rfl, rfl⟩
  · exact hs.takesGy hm hlive (by simp) hop hone.1 hpending hpendingGy rfl (fun _ _ => trivial)
  · exact hs.takesGy hm hlive (by simp) hop hone.1 hpending hpendingGy rfl (fun _ _ => trivial)
  · obtain rfl := hone.2 ev rest rfl
    exact hs.takesGy hm hlive (by simp) hop hone.1 hpending hpendingGy rfl (fun _ _ => trivial)

/-- A step of a push on the record ring, in a call. -/
theorem Sound.emits (hs : Sound k₁ k₂ k₃ rt j) {op : RingOp UsageRecord}
    {r : SharedRing UsageRecord} {o : RingOut UsageRecord} {pc : MeterPc E}
    (hne : rt.meter ≠ .place .exited) (hnext : pc.next = rt.meter.next)
    (hring : rt.recordRing.step op = .ok (r, o)) (hpop : r.pop = rt.recordRing.pop) :
    Sound k₁ k₂ k₃ { rt with recordRing := r, meter := pc } (j.enter (.recordRing o)) := by
  have hearly := hs.early hne
  refine { hs with
    recordRing := hs.recordRing.step hring
    recordSingle := hpop ▸ hs.recordSingle
    applied := ?_
    appliedGy := ?_
    exit := ?_
    drained := ?_
    joined := fun h => absurd h hearly
    records := fun h => ?_ }
  · exact hs.applied.trans (by rw [hnext]; rfl)
  · exact hs.appliedGy.trans (by rw [hnext]; rfl)
  · rw [hnext]
    exact hs.exit
  · rw [hnext]
    exact hs.drained
  · have hstopped : rt.ingest = .stopped := h
    simp [hstopped, IngestPc.phase] at hearly

/-- A call on the engine returns. -/
theorem Sound.returns (hs : Sound k₁ k₂ k₃ rt j) {e : E} {next : MeterAt}
    (hm : rt.meter = .working (.done e) next) :
    Sound k₁ k₂ k₃ { rt with engine := e, meter := .place next } j := by
  have hearly := hs.early (by simp [hm])
  have happlied := hs.applied
  have happliedGy := hs.appliedGy
  have hexit := hs.exit
  have hdrained := hs.drained
  rw [hm] at happlied happliedGy hexit hdrained
  exact { hs with
    applied := happlied
    appliedGy := happliedGy
    exit := hexit
    drained := hdrained
    joined := fun h => absurd h hearly }

end Meter

section Runs

variable {calls : EngineCalls E} {meterBatch : UInt64} {op : RuntimeOp}

theorem Sound.moves (hs : Sound k₁ k₂ k₃ rt j) (hmoves : Moves calls rt rt' out) :
    Sound k₁ k₂ k₃ rt' (j.enter out) := by
  have hlate : rt.reporter ≠ .exited → ¬5 ≤ rt.ingest.phase := fun hne h => hne (hs.reported h)
  cases hmoves with
  | meterPush hpc hring htaken _ hnext =>
      exact hs.push (by rcases hpc with h | h <;> rw [h] <;> rfl)
        (by rcases hnext with ⟨rfl, -⟩ | ⟨rfl, -⟩ <;> rfl) hring htaken
  | gyPush hpc hring htaken hpop hnext =>
      exact hs.pushGy (by rcases hpc with h | h <;> rw [h] <;> rfl)
        (by rcases hnext with ⟨rfl, -⟩ | ⟨rfl, -⟩ <;> rfl) hring htaken hpop
  | stopCall => exact hs.stopCall
  | stopping hpc => exact hs.stopping hpc
  | joinMeter hpc hexit =>
      exact hs.proceed (by simp [hpc, IngestPc.phase]) (by simp [hpc, IngestPc.phase])
        (fun _ => hexit) (by simp [IngestPc.phase]) (by simp)
  | signalReporter hpc =>
      exact hs.proceed (by simp [hpc, IngestPc.phase]) (by simp [hpc, IngestPc.phase])
        (fun _ => hs.joined (by simp [hpc, IngestPc.phase])) (by simp [IngestPc.phase]) (by simp)
  | joinReporter hpc hexit =>
      exact hs.proceed (by simp [hpc, IngestPc.phase]) (by simp [hpc, IngestPc.phase])
        (fun _ => hs.joined (by simp [hpc, IngestPc.phase])) (fun _ => hexit) (by simp)
  | ingestDrain hpc hd => exact hs.ingestDrain hpc hd
  | report hpc => exact { hs with reported := fun h => absurd h (hlate (by simp [hpc])) }
  | reporterDrain hpc hd =>
      have hphase := hlate (by simp [hpc])
      obtain ⟨hring, hone, -⟩ := hs.drains hd
      exact { hs with
        recordRing := hring
        recordSingle := hone
        reported := fun h => absurd h hphase
        records := fun h => by
          have hstopped : rt.ingest = .stopped := h
          simp [hstopped, IngestPc.phase] at hphase }
  | meterPop hm hhere hring _ hnext =>
      have hplace : ∀ here : MeterAt, here = .top ∨ here = .popping →
          here ≠ .exited ∧ here.pending = [] ∧ here.pendingGy = [] := by
        rintro _ (rfl | rfl) <;> simp [MeterAt.pending, MeterAt.pendingGy]
      obtain ⟨hlive, hpending, hpendingGy⟩ := hplace _ hhere
      rcases hnext with ⟨rfl, htaken, -⟩ | ⟨rfl, -⟩
      · exact hs.takes hm hlive (by simp) hring hpending htaken.symm hpendingGy (fun _ _ => trivial)
      · exact hs.takes hm hlive (by simp) hring hpending rfl hpendingGy (fun _ _ => trivial)
  | gyPop hm hhere hring _ hnext =>
      refine hs.gyPop hm hhere hring ?_
      rcases hnext with ⟨rfl, rfl, -⟩ | ⟨hdone, -⟩
      · exact .inl ⟨rfl, rfl⟩
      · exact .inr hdone
  | goes hm hgoes => exact hs.goes hm hgoes
  | enters hm henters => exact hs.enters hm henters
  | returns hm => exact hs.returns hm
  | ask hm hring => exact hs.emits (by simp [hm]) (by rw [hm]; rfl) hring (step_push hring).2.1
  | offer hm hring hpc =>
      refine hs.emits (by simp [hm]) ?_ hring (step_produce hring).2
      rw [hm]
      rcases hpc with ⟨-, rfl, -⟩ | ⟨accepted, count, -, rfl, -⟩ <;> rfl

theorem Sound.step (hs : Sound k₁ k₂ k₃ rt j)
    (hstep : rt.step calls meterBatch op = .ok (rt', out)) : Sound k₁ k₂ k₃ rt' (j.enter out) :=
  hs.moves (step_moves hstep)

theorem Sound.start (h₁ : k₁ < 64) (h₂ : k₂ < 64) (h₃ : k₃ < 64) (engine : E) (file : Bool)
    (s₁ : UInt64 → MeterEvent) (s₂ : UInt64 → GyEvent) (s₃ : UInt64 → UsageRecord) :
    Sound k₁ k₂ k₃ (start engine file (.start k₁ s₁) (.start k₂ s₂) (.start k₃ s₃)) {} where
  meterRing := ⟨0, 0, start_ok h₁ s₁⟩
  gyRing := ⟨0, 0, start_ok h₂ s₂⟩
  recordRing := ⟨0, 0, start_ok h₃ s₃⟩
  gySingle := trivial
  recordSingle := trivial
  applied := rfl
  appliedGy := rfl
  exit := trivial
  drained := by simp [Drained, Runtime.start, MeterPc.next]
  running := fun _ => rfl
  stop := fun h => by cases h
  joined := fun h => by simp [Runtime.start, IngestPc.phase] at h
  reported := fun h => by simp [Runtime.start, IngestPc.phase] at h
  records := fun h => by cases h

end Runs

end Runtime
end GtpMeter
