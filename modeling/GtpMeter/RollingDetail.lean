import GtpMeter.DetailPass
import GtpMeter.FlowTable

/-!
# The detail scan over an engine at work

A pass of the scan takes many ticks, and between two of them the metering thread installs
sessions, applies packets and closes records.  So a snapshot is put together from looks at
the engine at different times.  New subscribers come in at the end of the table and are
found by the same pass.

**Results.**
* `Rolling.engineStep`, `Rolling.tickStep`: the ranges looked at so far stay the front parts
  of the two tables.
* `rolling_detail`: no tick fails, and what each commit shows.
-/

namespace GtpMeter

open Selection Runs
open DetailScan

/-- A call on the engine, or a publish tick. -/
inductive WatchOp where
  | engine (op : MeterEngine.MeterOp)
  | tick (tick : DetailTick)

inductive WatchOut where
  | answered (answer : MeterEngine.Answer)
  | ticked (committed : Option DetailSnapshot)

def WatchOut.snapshot : WatchOut → Option DetailSnapshot
  | .answered _ => none
  | .ticked committed => committed

/-- The engine and the scan, both of the metering thread. -/
structure Watched where
  engine : MeterEngine
  scan : DetailScan

namespace Watched

def step (std : StdLib) (cfg : DetailConfig) (w : Watched) :
    WatchOp → Except Fault (Watched × WatchOut)
  | .engine op => do
      let (e, answer) ← w.engine.step op
      .ok ({ w with engine := e }, .answered answer)
  | .tick tick => do
      let (s, snap) ← advanceDetailScan std cfg w.engine w.scan tick
      .ok ({ w with scan := s }, .ticked snap)

def start (mcfg : MeterConfig) (sink : RecordSink) : Watched :=
  { engine := .init mcfg sink, scan := {} }

abbrev Trace := List (Transition Watched WatchOp WatchOut)

/-- The looks of the pass that is going on, or of the last one, after a step: a tick that
opens a pass begins anew. -/
def noteLook (looks : List Look) (tr : Transition Watched WatchOp WatchOut) : List Look :=
  match tr.op with
  | .engine _ => looks
  | .tick tick =>
      match tr.pre.scan.openPass tick with
      | none => looks
      | some (_, sub, flow) =>
          let look : Look :=
            { engine := tr.pre.engine
              wallNs := tick.wallNs
              subFrom := sub
              subTo := tr.post.scan.subCursor
              flowFrom := flow
              flowTo := tr.post.scan.flowCursor }
          if tr.pre.scan.building.isSome then looks ++ [look] else [look]

def looksOf (h : Trace) : List Look :=
  h.foldl noteLook []

section Invariant

variable {std : StdLib} {cfg : DetailConfig} {mcfg : MeterConfig} {sink : RecordSink}
  {w w' : Watched} {looks : List Look} {tick : DetailTick}

/-- What holds of a pass in progress. -/
structure Underway (cfg : DetailConfig) (w : Watched) (looks : List Look) (snap : DetailSnapshot) :
    Prop where
  seen : Seen cfg looks snap w.scan.subCursor w.scan.flowCursor
  sub_le : w.scan.subCursor ≤ w.engine.nextSub
  flow_le : w.scan.flowCursor ≤ w.engine.flowCount
  spent : looks.length * cfg.snapshotScanBudget.toNat = w.scan.subCursor + w.scan.flowCursor
  opened : looks.head?.map Look.wallNs = some snap.publishWallNs

/-- What a committed snapshot shows: its looks, put together, are the whole tables. -/
structure RollingView (cfg : DetailConfig) (looks : List Look) (e : MeterEngine)
    (snap : DetailSnapshot) : Prop where
  subs_eq : looks.flatMap Look.subs = List.range e.nextSub
  slots_eq : looks.flatMap Look.slots = List.range e.flowCount
  rows_show : ∀ l ∈ looks,
    List.Forall₂ (RowShows l.engine) (l.subs.filter fun i => Talks l.engine i) l.rows
  rows_all : (looks.flatMap Look.rows).length ≤ cfg.snapshotSubscriberLimit.toNat →
    snap.subscribers = looks.flatMap Look.rows
  rows_busiest : cfg.snapshotSubscriberLimit.toNat < (looks.flatMap Look.rows).length →
    Top rowBytes cfg.snapshotSubscriberLimit.toNat (looks.flatMap Look.rows) snap.subscribers ∧
      Descending rowBytes snap.subscribers
  flows_busiest : Top flowBytes cfg.snapshotFlowLimit.toNat (looks.flatMap Look.flows) snap.topFlows
  flows_desc : Descending flowBytes snap.topFlows
  total_eq : snap.totalSubscribers = UInt64.ofNat e.nextSub
  opened : looks.head?.map Look.wallNs = some snap.publishWallNs
  ticks_ge : e.nextSub + e.flowCount ≤ looks.length * cfg.snapshotScanBudget.toNat
  ticks_le : looks.length * cfg.snapshotScanBudget.toNat ≤
    e.nextSub + e.flowCount + cfg.snapshotScanBudget.toNat

/-- The invariant of the engine and the scan, with the looks of the present pass. -/
structure Rolling (mcfg : MeterConfig) (sink : RecordSink) (cfg : DetailConfig) (w : Watched)
    (looks : List Look) : Prop where
  reached : ∃ h, MeterEngine.Reaches mcfg sink h w.engine
  pass : ∀ snap, w.scan.building = some snap → Underway cfg w looks snap

theorem Rolling.next_le (hr : Rolling mcfg sink cfg w looks) :
    w.engine.nextSub ≤ w.engine.tableSize := by
  obtain ⟨h, hrun⟩ := hr.reached
  exact (MeterEngine.reaches_indexed hrun).next_le

/-- The subscriber table only grows. -/
theorem nextSub_le {e e' : MeterEngine} {op : MeterEngine.MeterOp} {out : MeterEngine.Answer}
    (hm : MeterEngine.Moves e op out e') : e.nextSub ≤ e'.nextSub := by
  cases hm with
  | modified _ _ hin =>
      cases hin
      exact Nat.le_refl _
  | allocated _ _ _ hin =>
      cases hin
      exact Nat.le_succ _
  | charged _ ha hc =>
      rw [hc.sameSessions.nextSub_eq]
      cases ha with
      | found => exact Nat.le_refl _
      | learned => exact Nat.le_succ _
  | polled hr | drained hr => exact hr.sameSessions.nextSub_eq.ge
  | _ => exact Nat.le_refl _

/-- A call on the engine leaves the pass where it is. -/
theorem Rolling.engineStep {op : MeterEngine.MeterOp} {e : MeterEngine}
    {answer : MeterEngine.Answer} (hr : Rolling mcfg sink cfg w looks)
    (hs : w.engine.step op = .ok (e, answer)) :
    Rolling mcfg sink cfg { w with engine := e } looks := by
  obtain ⟨h, hrun⟩ := hr.reached
  have hm := MeterEngine.step_moves (MeterEngine.reaches_indexed hrun).wf hs
  refine ⟨⟨_, hrun.snoc hs⟩, ?_⟩
  intro snap hsnap
  have hu := hr.pass snap hsnap
  exact ⟨hu.seen, hu.sub_le.trans (nextSub_le hm), hu.flow_le.trans hm.flowCount_eq.ge, hu.spent,
    hu.opened⟩

/-- The looks before a tick, with the buffer and the cursors it goes on from. -/
theorem Rolling.opened {snap : DetailSnapshot} {sub flow : Nat}
    (hr : Rolling mcfg sink cfg w looks) (hopen : w.scan.openPass tick = some (snap, sub, flow)) :
    ∃ before, (∀ look, before ++ [look] =
        if w.scan.building.isSome then looks ++ [look] else [look]) ∧
      Seen cfg before snap sub flow ∧ sub ≤ w.engine.nextSub ∧ flow ≤ w.engine.flowCount ∧
      before.length * cfg.snapshotScanBudget.toNat = sub + flow ∧
      ∀ look : Look, look.wallNs = tick.wallNs →
        (before ++ [look]).head?.map Look.wallNs = some snap.publishWallNs := by
  unfold openPass at hopen
  cases hb : w.scan.building with
  | some old =>
      rw [hb] at hopen
      obtain ⟨rfl, rfl, rfl⟩ := by simpa using hopen
      have hu := hr.pass old hb
      refine ⟨looks, fun _ => rfl, hu.seen, hu.sub_le, hu.flow_le, hu.spent, ?_⟩
      intro look _
      have hhead := hu.opened
      cases looks with
      | nil => cases hhead
      | cons first rest => exact hhead
  | none =>
      rw [hb] at hopen
      obtain ⟨old, -, hold⟩ := Option.map_eq_some_iff.mp hopen
      obtain ⟨rfl, rfl, rfl⟩ := by simpa using hold
      refine ⟨[], fun _ => rfl, Seen.start old tick.wallNs, Nat.zero_le _, Nat.zero_le _, ?_, ?_⟩
      · simp
      · intro look hwall
        simp [hwall]

/-- A tick returns; it goes on with the pass or commits it. -/
theorem Rolling.tickStep (std : StdLib) (hr : Rolling mcfg sink cfg w looks)
    (hlimit : 0 < cfg.snapshotFlowLimit.toNat) (tick : DetailTick) :
    ∃ s out, advanceDetailScan std cfg w.engine w.scan tick = .ok (s, out) ∧
      Rolling mcfg sink cfg { w with scan := s }
        (noteLook looks ⟨w, .tick tick, .ticked out, { w with scan := s }⟩) ∧
      ∀ snap, out = some snap →
        RollingView cfg (noteLook looks ⟨w, .tick tick, .ticked out, { w with scan := s }⟩)
          w.engine snap := by
  cases hopen : w.scan.openPass tick with
  | none =>
      refine ⟨w.scan, none, ?_, ?_, fun _ h => by cases h⟩
      · unfold advanceDetailScan
        rw [hopen]
      · simp only [noteLook, hopen]
        exact hr
  | some start =>
      obtain ⟨snap, sub, flow⟩ := start
      obtain ⟨before, hlooks, hseen, hsub, hflow, hspent, hwall⟩ := hr.opened hopen
      obtain ⟨sub', flow', snap', hsame, hseen', hsub', hflow', hle, hcases⟩ :=
        tick_spec std hr.next_le hlimit hopen hseen hsub hflow
      have hhead := hwall ⟨w.engine, tick.wallNs, sub, sub', flow, flow'⟩ rfl
      rw [← hsame] at hhead
      have hlength : (before ++ [(⟨w.engine, tick.wallNs, sub, sub', flow, flow'⟩ : Look)]).length *
          cfg.snapshotScanBudget.toNat = sub + flow + cfg.snapshotScanBudget.toNat := by
        rw [List.length_append, List.length_singleton, Nat.add_mul, Nat.one_mul, hspent]
      rcases hcases with ⟨hfull, hadv⟩ | ⟨rfl, rfl, hadv⟩
      · refine ⟨_, _, hadv, ?_, fun _ h => by cases h⟩
        simp only [noteLook, hopen]
        rw [← hlooks]
        refine ⟨hr.reached, ?_⟩
        intro snap₁ hsnap
        obtain rfl := Option.some.inj hsnap
        exact ⟨hseen', hsub', hflow', hlength.trans hfull.symm, hhead⟩
      · refine ⟨_, _, hadv, ⟨hr.reached, fun _ h => by cases h⟩, ?_⟩
        intro snap₁ hsnap
        obtain rfl := Option.some.inj hsnap
        simp only [noteLook, hopen]
        rw [← hlooks]
        refine ⟨hseen'.subs_eq, hseen'.slots_eq, fun l _ => rows_show l.subs, ?_, ?_, ?_,
          std.flows.sort_desc _, rfl, hhead, ?_, ?_⟩
        · intro hfew
          rw [← hseen'.rows_eq] at hfew ⊢
          exact if_neg (Nat.not_lt.mpr hfew)
        · intro hmany
          rw [← hseen'.rows_eq] at hmany ⊢
          exact limited_rows std w.engine hmany
        · exact hseen'.flows.busiest.perm (std.flows.sort_perm _)
        · rw [hlength]
          exact hle
        · rw [hlength]
          omega

end Invariant

section Runs

variable {std : StdLib} {cfg : DetailConfig} {mcfg : MeterConfig} {sink : RecordSink}
  {w w' : Watched} {h : Trace}

theorem reaches_rolling (hlimit : 0 < cfg.snapshotFlowLimit.toNat)
    (hrun : Run (step std cfg) (start mcfg sink) h w) :
    Rolling mcfg sink cfg w (looksOf h) := by
  have hinit : Rolling mcfg sink cfg (start mcfg sink) [] :=
    ⟨⟨[], .nil⟩, fun _ h => by cases h⟩
  refine hrun.simulate (R := fun w looks => Rolling mcfg sink cfg w looks) (G := fun _ => True)
    hinit ?_ (fun _ _ => trivial)
  intro w looks op w' out hr hs _
  cases op with
  | engine op =>
      obtain ⟨⟨e, answer⟩, hop, hret⟩ := bind_eq_ok.mp hs
      cases hret
      exact hr.engineStep hop
  | tick tick =>
      obtain ⟨s, snap, hadv, hr', -⟩ := hr.tickStep std hlimit tick
      simp only [step, hadv, bind, Except.bind] at hs
      cases hs
      exact hr'

/-- Whatever happens to the engine between two ticks, every tick returns, and a snapshot
that is committed has looked once at every subscriber and once at every flow slot of the
engine at that time: its rows and flows are those found then, or the busiest of them; its
clock is that of the first look; and it took no more ticks than the budget makes
necessary. -/
theorem rolling_detail (hlimit : 1 ≤ cfg.snapshotFlowLimit)
    (hrun : Run (step std cfg) (start mcfg sink) h w) (tick : DetailTick) :
    ∃ w' out, w.step std cfg (.tick tick) = .ok (w', .ticked out) ∧
      ∀ snap, out = some snap → RollingView cfg
        (looksOf (h ++ [⟨w, .tick tick, .ticked out, w'⟩])) w.engine snap := by
  have hlimit' : 0 < cfg.snapshotFlowLimit.toNat := UInt64.le_iff_toNat_le.mp hlimit
  obtain ⟨s, out, hadv, -, hview⟩ := (reaches_rolling hlimit' hrun).tickStep std hlimit' tick
  refine ⟨{ w with scan := s }, out, ?_, ?_⟩
  · simp only [step, hadv, bind, Except.bind]
  · intro snap hsnap
    simp only [looksOf, List.foldl_append, List.foldl_cons, List.foldl_nil]
    exact hview snap hsnap

/-- One entry a tick, and room for all rows. -/
def oneEntry : DetailConfig :=
  { snapshotScanBudget := 1 }

/-- The row of the first subscriber is from the first tick; the second subscriber came later
and is in the same snapshot. -/
theorem rolling_detail_meanwhile :
    ∃ (h : Trace) (w w' : Watched) (snap : DetailSnapshot),
      Run (step sortingStd oneEntry) (start smallTables MeterEngine.noSink) h w ∧
      w.step sortingStd oneEntry (.tick {}) = .ok (w', .ticked (some snap)) ∧
      snap.subscribers.map (fun row => row.ulBytes) = [10, 20] ∧
      (w.engine.counters 0).ulBytes = 40 ∧
      RollingView oneEntry (looksOf (h ++ [⟨w, .tick {}, .ticked (some snap), w'⟩])) w.engine
        snap := by
  have hex : execCheck (step sortingStd oneEntry) (start smallTables MeterEngine.noSink)
      [.engine (.install { imsi := 1, ulTeid := 100 } 0),
        .engine (.apply { teid := 100, bytes := 10, flowKey := 2 }),
        .tick { wallNs := 5, free := some {} },
        .engine (.apply { teid := 100, bytes := 30, flowKey := 2 }),
        .engine (.install { imsi := 2, ulTeid := 200 } 0),
        .engine (.apply { teid := 200, bytes := 20, flowKey := 2 }), .tick {}, .tick {}]
      (fun _ w => returnsWith (w.step sortingStd oneEntry (.tick {})) (fun r => decide
        ((r.2.snapshot.map fun snap => snap.subscribers.map fun row => row.ulBytes) =
            some [10, 20] ∧ (w.engine.counters 0).ulBytes = 40))) = true := by
    decide +kernel
  obtain ⟨h, w, hrun, hcheck⟩ := Run.of_execCheck hex
  obtain ⟨⟨w', out⟩, hstep, hout⟩ := returnsWith_iff.mp hcheck
  obtain ⟨hrows, hnow⟩ := of_decide_eq_true hout
  obtain ⟨w₁, committed, hstep₁, hview⟩ := rolling_detail (by decide) hrun {}
  obtain ⟨rfl, rfl⟩ := Prod.mk.inj (Except.ok.inj (hstep.symm.trans hstep₁))
  obtain ⟨snap, rfl, hsnap⟩ := Option.map_eq_some_iff.mp hrows
  exact ⟨h, w, w', snap, hrun, hstep, hsnap, hnow, hview snap rfl⟩

end Runs

end Watched
end GtpMeter
