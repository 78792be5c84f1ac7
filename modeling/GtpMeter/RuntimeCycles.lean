import GtpMeter.RuntimeShutdown
import GtpMeter.ScheduledSink

/-!
# Start and stop, again and again

The whole life of a `Runtime`: it is built, sessions are installed, and then `start` and
`stop` may be called any number of times, with more sessions installed while the threads
are down.  The rings and the engine live on from one cycle to the next, and so do the
indices of the rings.

* `install` is one turn of the loop in `install_sessions`.  It is called while the
  threads are down, as `runtime.hpp` asks.
* `start` does nothing on a runtime that is running; otherwise it clears the flags,
  opens the record file unless it is open, and starts both threads.

**Results.**
* `Idle`: what holds while the threads are down.
* `cycles_lose_nothing`: after every `stop`, in any number of cycles, all that the rings
  accepted has been applied, and every record has been popped.
-/

namespace GtpMeter

open Runs SharedRing MeterEngine

inductive LifeOp where
  /-- a step of a thread -/
  | threads (op : RuntimeOp)
  | install (spec : SessionSpec) (nowNs : UInt64)
  /-- `opened` is whether `fopen` gives a file, if it is called -/
  | start (opened : Bool)

inductive LifeOut where
  | threads (out : RuntimeOut)
  | installed (spec : SessionSpec) (nowNs : UInt64)
  | started

/-- The operation on the engine that a step begins. -/
def LifeOut.op : LifeOut → Option MeterOp
  | .threads (.called c) => some c.op
  | .installed spec nowNs => some (.install spec nowNs)
  | _ => none

/-- How an engine takes a session. -/
abbrev EngineInstall (E : Type) := E → SessionSpec → UInt64 → Except Fault E

/-- `install_session` of `MeterEngine`. -/
def meterInstall : EngineInstall MeterEngine
  | e, spec, nowNs => (e.installSession spec nowNs).map Prod.fst

namespace Runtime

variable {E : Type}

/-- A runtime as the constructor leaves it. -/
def assembled (engine : E) (meterRing : SharedRing MeterEvent) (gyRing : SharedRing GyEvent)
    (recordRing : SharedRing UsageRecord) : Runtime E :=
  { meterRing := meterRing
    gyRing := gyRing
    recordRing := recordRing
    engine := engine
    running := false
    meterStop := false
    reporterStop := false
    recordsFile := false
    recordsWritten := 0
    recordWriteErrors := 0
    ingest := .stopped
    meter := .place .exited
    reporter := .exited }

/-- `start` on a runtime that is not running. -/
def restart (rt : Runtime E) (opened : Bool) : Runtime E :=
  { rt with
    running := true
    meterStop := false
    reporterStop := false
    recordsFile := rt.recordsFile || opened
    ingest := .running
    meter := .place .top
    reporter := .top }

variable (calls : EngineCalls E) (install : EngineInstall E) (meterBatch : UInt64)

def lifeStep (rt : Runtime E) : LifeOp → Except Blocked (Runtime E × LifeOut)
  | .threads op => do
      let (rt, out) ← rt.step calls meterBatch op
      .ok (rt, .threads out)
  | .install spec nowNs =>
      match rt.ingest, install rt.engine spec nowNs with
      | .stopped, .ok e => .ok ({ rt with engine := e }, .installed spec nowNs)
      | _, _ => .error .blocked
  | .start opened =>
      match rt.ingest with
      | .running => .ok (rt, .threads .quiet)
      | .stopped => .ok (rt.restart opened, .started)
      | _ => .error .blocked

abbrev LifeTrace (E : Type) := List (Transition (Runtime E) LifeOp LifeOut)

/-- What the threads did, from the history of a life. -/
def Journal.enterLife (j : Journal) : LifeOut → Journal
  | .threads out => j.enter out
  | _ => j

def lifeJournal (h : LifeTrace E) : Journal :=
  h.foldl (fun j tr => j.enterLife tr.out) {}

/-- The operations on the engine, in their order. -/
def opsOf (h : LifeTrace E) : List MeterOp :=
  h.filterMap (fun tr => tr.out.op)

variable {calls install meterBatch} {k₁ k₂ k₃ : Nat} {rt rt' : Runtime E} {j : Journal}
  {out : LifeOut}

section Idle

/-- No thread is up, and nothing is on its way. -/
structure Idle (k₁ k₂ k₃ : Nat) (rt : Runtime E) (j : Journal) : Prop where
  meterRing : Holds k₁ rt.meterRing j.meterIn j.meterOut
  gyRing : Holds k₂ rt.gyRing j.gyIn j.gyOut
  recordRing : Holds k₃ rt.recordRing j.recordIn j.recordOut
  gySingle : rt.gyRing.pop.single
  recordSingle : rt.recordRing.pop.single
  meterAll : j.meterIn = j.meterOut
  gyAll : j.gyIn = j.gyOut
  recordAll : j.recordIn = j.recordOut
  applied : j.meterOut = j.calls.filterMap EngineCall.event
  appliedGy : j.gyOut = j.calls.filterMap EngineCall.gyEvent
  drained : ∀ c, j.calls.getLast? = some c → c.isDrain = true
  running : rt.running = false
  meter : rt.meter = .place .exited
  reporter : rt.reporter = .exited

/-- The journal of a cycle: of the calls before it, `drain` is left out. -/
def Journal.cycle (j : Journal) (before now : List EngineCall) : Journal :=
  { j with calls := before.filter (fun c => !c.isDrain) ++ now }

/-- What holds at any time of a life. -/
structure Cycled (k₁ k₂ k₃ : Nat) (rt : Runtime E) (j : Journal) : Prop where
  down : rt.ingest = .stopped → Idle k₁ k₂ k₃ rt j
  up : rt.ingest ≠ .stopped → ∃ before now, j.calls = before ++ now ∧
    Sound k₁ k₂ k₃ rt (j.cycle before now)

theorem filterMap_undrained {T : Type} {f : EngineCall → Option T}
    (hf : ∀ c, c.isDrain = true → f c = none) (before now : List EngineCall) :
    (before.filter (fun c => !c.isDrain) ++ now).filterMap f = (before ++ now).filterMap f := by
  rw [List.filterMap_append, List.filterMap_append, List.filterMap_filter]
  congr 2
  funext c
  cases hc : c.isDrain with
  | false => rfl
  | true => rw [hf c hc]; rfl

theorem event_drain (c : EngineCall) (hc : c.isDrain = true) : c.event = none := by
  cases c <;> simp_all [EngineCall.isDrain, EngineCall.event]

theorem gyEvent_drain (c : EngineCall) (hc : c.isDrain = true) : c.gyEvent = none := by
  cases c <;> simp_all [EngineCall.isDrain, EngineCall.gyEvent]

/-- When `stop` has returned. -/
theorem Sound.idle {before now : List EngineCall} (hcalls : j.calls = before ++ now)
    (hs : Sound k₁ k₂ k₃ rt (j.cycle before now)) (hstopped : rt.ingest = .stopped) :
    Idle k₁ k₂ k₃ rt j := by
  have hphase : rt.ingest.phase = 6 := by rw [hstopped]; rfl
  have hexited := hs.joined (by omega)
  have happlied := hs.applied
  have happliedGy := hs.appliedGy
  have hexit := hs.exit
  have hdrained := hs.drained
  rw [hexited] at happlied happliedGy hexit hdrained
  obtain ⟨-, hmeter, hgy⟩ := hexit
  obtain ⟨cs, nowNs, hlast, -⟩ := hdrained
  simp only [Journal.cycle, MeterPc.next, MeterAt.pending, MeterAt.pendingGy, List.append_nil]
    at happlied happliedGy hlast
  refine ⟨hs.meterRing, hs.gyRing, hs.recordRing, hs.gySingle, hs.recordSingle, hmeter, hgy,
    hs.records hstopped, ?_, ?_, ?_, ?_, hexited, hs.reported (by omega)⟩
  · rw [happlied, hcalls, filterMap_undrained event_drain]
  · rw [happliedGy, hcalls, filterMap_undrained gyEvent_drain]
  · -- the last call is of this cycle: those before it end in nothing that is a `drain`
    intro c hc
    rcases List.eq_nil_or_concat now with rfl | ⟨now', last, rfl⟩
    · rw [List.append_nil] at hlast
      have hmem : EngineCall.drain nowNs ∈ before.filter (fun c => !c.isDrain) := by
        rw [hlast]
        simp
      simp [EngineCall.isDrain] at hmem
    · rw [List.concat_eq_append, ← List.append_assoc] at hlast hcalls
      obtain ⟨-, hlast⟩ := List.append_inj' hlast rfl
      obtain rfl : last = .drain nowNs := by simpa using hlast
      rw [hcalls, List.getLast?_concat] at hc
      rw [← Option.some.inj hc]
      rfl
  · cases hrunning : rt.running with
    | false => rfl
    | true =>
        have hopen := hs.running hrunning
        omega

/-- `start` after a `stop`. -/
theorem Idle.restart (hi : Idle k₁ k₂ k₃ rt j) (opened : Bool) :
    Sound k₁ k₂ k₃ (rt.restart opened) (j.cycle j.calls []) where
  meterRing := hi.meterRing
  gyRing := hi.gyRing
  recordRing := hi.recordRing
  gySingle := hi.gySingle
  recordSingle := hi.recordSingle
  applied := by
    simp only [Journal.cycle, Runtime.restart, MeterPc.next, MeterAt.pending]
    rw [filterMap_undrained event_drain, List.append_nil, List.append_nil]
    exact hi.applied
  appliedGy := by
    simp only [Journal.cycle, Runtime.restart, MeterPc.next, MeterAt.pendingGy]
    rw [filterMap_undrained gyEvent_drain, List.append_nil, List.append_nil]
    exact hi.appliedGy
  exit := trivial
  drained := by
    intro c hc
    have hmem : c ∈ j.calls ∧ c.isDrain = false := by simpa [Journal.cycle] using hc
    exact hmem.2
  running := fun _ => rfl
  stop := fun h => by cases h
  joined := fun h => by simp [Runtime.restart, IngestPc.phase] at h
  reported := fun h => by simp [Runtime.restart, IngestPc.phase] at h
  records := fun h => by cases h

/-- With the threads down only `stop` can be called, and it does nothing. -/
theorem Idle.step (hi : Idle k₁ k₂ k₃ rt j) (hstopped : rt.ingest = .stopped) {op : RuntimeOp}
    {o : RuntimeOut} (hstep : rt.step calls meterBatch op = .ok (rt', o)) :
    rt' = rt ∧ o = .quiet := by
  cases op with
  | push ev | pushGy ev => simp [Runtime.step, hstopped] at hstep
  | stop =>
      simp only [Runtime.step, hstopped, Runtime.stop, hi.running] at hstep
      cases hstep
      exact ⟨rfl, rfl⟩
  | ingest written => simp [Runtime.step, Runtime.ingestStep, hstopped] at hstep
  | meter nowNs => simp [Runtime.step, Runtime.meterStep, hi.meter, Runtime.loopStep] at hstep
  | reporter written => simp [Runtime.step, Runtime.reporterStep, hi.reporter] at hstep

end Idle

section Lives

theorem Journal.enter_cycle {before now : List EngineCall} {o : RuntimeOut}
    (hcalls : j.calls = before ++ now) : ∃ now', (j.enter o).calls = before ++ now' ∧
      (j.enter o).cycle before now' = (j.cycle before now).enter o := by
  cases o with
  | called c =>
      refine ⟨now ++ [c], by simp [Journal.enter, hcalls], ?_⟩
      simp [Journal.enter, Journal.cycle]
  | _ => exact ⟨now, hcalls, rfl⟩

theorem Cycled.step (hc : Cycled k₁ k₂ k₃ rt j) {op : LifeOp}
    (hstep : rt.lifeStep calls install meterBatch op = .ok (rt', out)) :
    Cycled k₁ k₂ k₃ rt' (j.enterLife out) := by
  cases op with
  | threads op =>
      obtain ⟨⟨rt₁, o⟩, hop, hret⟩ := bind_eq_ok.mp hstep
      obtain ⟨rfl, rfl⟩ := Prod.mk.inj (Except.ok.inj hret)
      by_cases hstopped : rt.ingest = .stopped
      · obtain ⟨rfl, rfl⟩ := (hc.down hstopped).step hstopped hop
        exact hc
      · obtain ⟨before, now, hcalls, hs⟩ := hc.up hstopped
        obtain ⟨now', hcalls', hcycle⟩ := Journal.enter_cycle (o := o) hcalls
        have hs' : Sound k₁ k₂ k₃ rt₁ ((j.enter o).cycle before now') := hcycle ▸ hs.step hop
        exact ⟨fun hdown => Sound.idle hcalls' hs' hdown,
          fun _ => ⟨before, now', hcalls', hs'⟩⟩
  | install spec nowNs =>
      simp only [lifeStep] at hstep
      split at hstep
      · rename_i e hstopped he
        cases hstep
        exact ⟨fun _ => { hc.down hstopped with }, fun hup => absurd hstopped hup⟩
      · cases hstep
  | start opened =>
      simp only [lifeStep] at hstep
      split at hstep
      · cases hstep
        exact hc
      · rename_i hstopped
        cases hstep
        refine ⟨fun hdown => (by cases hdown), fun _ => ⟨j.calls, [], (List.append_nil _).symm, ?_⟩⟩
        exact (hc.down hstopped).restart opened
      · cases hstep

theorem Cycled.assembled (h₁ : k₁ < 64) (h₂ : k₂ < 64) (h₃ : k₃ < 64) (engine : E)
    (s₁ : UInt64 → MeterEvent) (s₂ : UInt64 → GyEvent) (s₃ : UInt64 → UsageRecord) :
    Cycled k₁ k₂ k₃ (assembled engine (.start k₁ s₁) (.start k₂ s₂) (.start k₃ s₃)) {} where
  down := fun _ =>
    { meterRing := ⟨0, 0, start_ok h₁ s₁⟩
      gyRing := ⟨0, 0, start_ok h₂ s₂⟩
      recordRing := ⟨0, 0, start_ok h₃ s₃⟩
      gySingle := trivial
      recordSingle := trivial
      meterAll := rfl
      gyAll := rfl
      recordAll := rfl
      applied := rfl
      appliedGy := rfl
      drained := fun c hc => by cases hc
      running := rfl
      meter := rfl
      reporter := rfl }
  up := fun hup => absurd rfl hup

theorem life_cycled (h₁ : k₁ < 64) (h₂ : k₂ < 64) (h₃ : k₃ < 64) {engine : E}
    {s₁ : UInt64 → MeterEvent} {s₂ : UInt64 → GyEvent} {s₃ : UInt64 → UsageRecord}
    {h : LifeTrace E}
    (hrun : Run (lifeStep calls install meterBatch)
      (assembled engine (.start k₁ s₁) (.start k₂ s₂) (.start k₃ s₃)) h rt) :
    Cycled k₁ k₂ k₃ rt (lifeJournal h) := by
  refine hrun.simulate (R := fun rt (j : Journal) => Cycled k₁ k₂ k₃ rt j) (G := fun _ => True)
    (Cycled.assembled h₁ h₂ h₃ engine s₁ s₂ s₃) ?_ (fun _ _ => trivial)
  intro rt j op rt' out hc hstep _
  exact hc.step hstep

/-- A small runtime, to run lives on: tunnels are not learned, and the rings have two
cells. -/
def smallAssembled : Runtime MeterEngine :=
  assembled (MeterEngine.init MeterEngine.smallConfig
      { ring := some (SharedRing.start 1 (fun _ => {})).ring, wall := fun _ => 0,
        pops := fun _ => 0 })
    (.start 1 (fun _ => {})) (.start 1 (fun _ => {})) (.start 1 (fun _ => {}))

/-- A cycle: `start`, a packet of this length, `stop`, and each thread in turn up to its
end. -/
def smallCycle (bytes : UInt32) : List LifeOp :=
  .start false :: (List.flatten [[.push { teid := 7, bytes := bytes }],
    List.replicate 3 (.ingest true), [.stop, .ingest true], List.replicate 31 (.meter 0),
    List.replicate 2 (.ingest true), List.replicate 7 (.reporter true),
    List.replicate 3 (.ingest true)]).map .threads

/-- Two cycles, with a session installed before each. -/
theorem two_cycles :
    ∃ (h : LifeTrace MeterEngine) (rt : Runtime MeterEngine),
      Run (lifeStep meterCalls meterInstall 256) smallAssembled h rt ∧ rt.ingest = .stopped ∧
      (lifeJournal h).meterIn.length = 2 ∧
      (∀ ev ∈ (lifeJournal h).meterIn, ev.isControl = false) ∧ (opsOf h).length = 10 ∧
      rt.engine.stats.ulBytes = 150 ∧ (rt.engine.info 0).active = true := by
  have hex : execCheck (lifeStep meterCalls meterInstall 256) smallAssembled
      ([.install { imsi := 1, ulTeid := 7 } 0] ++ smallCycle 100 ++
        [.install { imsi := 2, ulTeid := 8 } 0] ++ smallCycle 50)
      (fun h rt => decide (rt.ingest = .stopped ∧ (lifeJournal h).meterIn.length = 2 ∧
          (opsOf h).length = 10 ∧ rt.engine.stats.ulBytes = 150 ∧
          (rt.engine.info 0).active = true) &&
        (lifeJournal h).meterIn.all (fun ev => !ev.isControl)) = true := by
    decide +kernel
  obtain ⟨h, rt, hrun, hcheck⟩ := Run.of_execCheck hex
  rw [Bool.and_eq_true, decide_eq_true_eq, List.all_eq_true] at hcheck
  obtain ⟨⟨hstopped, hmeter, hops, hbytes, hactive⟩, hall⟩ := hcheck
  exact ⟨h, rt, hrun, hstopped, hmeter, fun ev hev => by simpa using hall ev hev, hops, hbytes,
    hactive⟩

end Lives

end Runtime
end GtpMeter
