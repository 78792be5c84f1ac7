import GtpMeter.Runtime

/-!
# The steps of the runtime

What a step of each of the three threads can do, said once.  Every invariant of the
runtime is shown by a case for each of these ways.

**Results.**
* `drainStep_drains`: a step of `drain_records`.
* `step_moves`: the ways a step of the runtime can go.
-/

namespace GtpMeter

open Runs SharedRing

namespace Runtime

variable {E : Type} {rt rt' : Runtime E} {out : RuntimeOut} {calls : EngineCalls E}
  {meterBatch nowNs : UInt64} {written : Bool}

/-- What a step of `drain_records` does to the record ring; it goes on at `pc`. -/
structure Drains (ring r : SharedRing UsageRecord) (o : RingOut UsageRecord)
    (pc : Option DrainPc) : Prop where
  step : ring.step .pop = .ok (r, o) ∨ ring.step .consume = .ok (r, o)
  push : r.push = ring.push
  accepted : o.accepted = []
  last : pc = none → o = .popped []
  idle : r.pop = .idle ↔ pc ≠ some .popping

theorem drainStep_drains {pc : DrainPc} {pc' : Option DrainPc} {o : RingOut UsageRecord}
    (hd : rt.drainStep written pc = .ok (rt', pc', o)) :
    ∃ r w x, rt' = { rt with recordRing := r, recordsWritten := w, recordWriteErrors := x } ∧
      Drains rt.recordRing r o pc' := by
  cases pc with
  | begin =>
      obtain ⟨⟨r, o'⟩, hstep, hret⟩ := bind_eq_ok.mp hd
      obtain ⟨rfl, rfl, rfl⟩ : _ = rt' ∧ _ = pc' ∧ _ = o := by simpa using hret
      obtain ⟨rfl, -, hpush, hbusy⟩ := step_pop hstep
      exact ⟨r, _, _, rfl, .inl hstep, hpush, rfl, by simp, by simpa using hbusy⟩
  | popping =>
      obtain ⟨⟨r, o'⟩, hstep, hret⟩ := bind_eq_ok.mp hd
      have hpush := step_consume_push hstep
      rcases step_consume_ends hstep with ⟨rfl, hbusy⟩ | ⟨values, rfl, hidle⟩
      · obtain ⟨rfl, rfl, rfl⟩ : _ = rt' ∧ _ = pc' ∧ _ = o := by simpa using hret
        exact ⟨r, _, _, rfl, .inr hstep, hpush, rfl, by simp, by simpa using hbusy⟩
      · cases values with
        | nil =>
            obtain ⟨rfl, rfl, rfl⟩ : _ = rt' ∧ _ = pc' ∧ _ = o := by simpa using hret
            exact ⟨r, _, _, rfl, .inr hstep, hpush, rfl, by simp, by simpa using hidle⟩
        | cons v vs =>
            obtain ⟨rfl, rfl, rfl⟩ : _ = rt' ∧ _ = pc' ∧ _ = o := by simpa using hret
            unfold countWritten
            split_ifs <;>
              exact ⟨r, _, _, rfl, .inr hstep, hpush, rfl, by simp, by simpa using hidle⟩

/-- Where the metering thread goes on by itself in its loop. -/
inductive Goes (rt : Runtime E) : MeterAt → MeterAt → Prop
  | applied (n : Nat) : Goes rt (.applying n []) (.gyTop n)
  | busy (n : Nat) : Goes rt (.polled n) .top
  | idle (n : Nat) : Goes rt (.polled n) .checkStop
  | running : Goes rt .checkStop .top
  | stopped : rt.meterStop = true → Goes rt .checkStop .sizeMeter
  | sizeMeter : Goes rt .sizeMeter (.sizedMeter rt.meterRing.ring.head)
  | moreMeter (head : UInt64) : Goes rt (.sizedMeter head) .top
  | emptyMeter {head : UInt64} : head - rt.meterRing.ring.tail = 0 →
      Goes rt (.sizedMeter head) .sizeGy
  | sizeGy : Goes rt .sizeGy (.sizedGy rt.gyRing.ring.head)
  | moreGy (head : UInt64) : Goes rt (.sizedGy head) .top
  | emptyGy {head : UInt64} : head - rt.gyRing.ring.tail = 0 → Goes rt (.sizedGy head) .leaving

/-- The calls of the loop, and where it goes on after them. -/
inductive Enters : MeterAt → EngineCall → MeterAt → Prop
  | apply (n : Nat) (ev : MeterEvent) (todo : List MeterEvent) :
      Enters (.applying n (ev :: todo)) (.apply ev) (.applying n todo)
  | applyGy (n : Nat) (ev : GyEvent) : Enters (.gyGot n ev) (.applyGy ev) (.gyTop n)
  | poll (n : Nat) (nowNs : UInt64) : Enters (.polling n) (.poll nowNs) (.polled n)
  | drain (nowNs : UInt64) : Enters .leaving (.drain nowNs) .exited

/-- What a step did.  One constructor for each way a step can go. -/
inductive Moves (calls : EngineCalls E) (rt : Runtime E) : Runtime E → RuntimeOut → Prop
  | meterPush {op : RingOp MeterEvent} {r : SharedRing MeterEvent} {o : RingOut MeterEvent}
      {next : IngestPc} (hpc : rt.ingest = .running ∨ rt.ingest = .pushing)
      (hring : rt.meterRing.step op = .ok (r, o)) (htaken : o.taken = [])
      (hpop : r.pop = rt.meterRing.pop)
      (hnext : next = .pushing ∧ r.push ≠ .idle ∨ next = .running ∧ r.push = .idle) :
      Moves calls rt { rt with meterRing := r, ingest := next } (.meterRing o)
  | gyPush {op : RingOp GyEvent} {r : SharedRing GyEvent} {o : RingOut GyEvent}
      {next : IngestPc} (hpc : rt.ingest = .running ∨ rt.ingest = .pushingGy)
      (hring : rt.gyRing.step op = .ok (r, o)) (htaken : o.taken = [])
      (hpop : r.pop = rt.gyRing.pop)
      (hnext : next = .pushingGy ∧ r.push ≠ .idle ∨ next = .running ∧ r.push = .idle) :
      Moves calls rt { rt with gyRing := r, ingest := next } (.gyRing o)
  | stopCall (hpc : rt.ingest = .running ∨ rt.ingest = .stopped) :
      Moves calls rt rt.stop.1 rt.stop.2
  | stopping (hpc : rt.ingest = .stopping) :
      Moves calls rt { rt with meterStop := true, ingest := .joinMeter } .quiet
  | joinMeter (hpc : rt.ingest = .joinMeter) (hexit : rt.meter = .place .exited) :
      Moves calls rt { rt with ingest := .signalReporter } .quiet
  | signalReporter (hpc : rt.ingest = .signalReporter) :
      Moves calls rt { rt with reporterStop := true, ingest := .joinReporter } .quiet
  | joinReporter (hpc : rt.ingest = .joinReporter) (hexit : rt.reporter = .exited) :
      Moves calls rt { rt with ingest := .draining .begin } .quiet
  | ingestDrain {pc : DrainPc} {pc' : Option DrainPc} {r : SharedRing UsageRecord}
      {o : RingOut UsageRecord} {w x : UInt64} (hpc : rt.ingest = .draining pc)
      (hd : Drains rt.recordRing r o pc') :
      Moves calls rt { rt with
        recordRing := r
        recordsWritten := w
        recordWriteErrors := x
        ingest := pc'.elim .stopped .draining } (.recordRing o)
  | report (hpc : rt.reporter = .top) :
      Moves calls rt { rt with reporter := .draining rt.reporterStop .begin } .quiet
  | reporterDrain {last : Bool} {pc : DrainPc} {pc' : Option DrainPc}
      {r : SharedRing UsageRecord} {o : RingOut UsageRecord} {w x : UInt64}
      (hpc : rt.reporter = .draining last pc) (hd : Drains rt.recordRing r o pc') :
      Moves calls rt { rt with
        recordRing := r
        recordsWritten := w
        recordWriteErrors := x
        reporter := pc'.elim (if last then .exited else .top) (.draining last) } (.recordRing o)
  | meterPop {op : RingOp MeterEvent} {r : SharedRing MeterEvent} {o : RingOut MeterEvent}
      {here next : MeterAt} (hm : rt.meter = .place here) (hhere : here = .top ∨ here = .popping)
      (hring : rt.meterRing.step op = .ok (r, o)) (hpush : r.push = rt.meterRing.push)
      (hnext : next = .popping ∧ o.taken = [] ∧ r.pop ≠ .idle ∨
        next = .applying o.taken.length o.taken ∧ r.pop = .idle) :
      Moves calls rt { rt with meterRing := r, meter := .place next } (.meterRing o)
  | gyPop {r : SharedRing GyEvent} {o : RingOut GyEvent} {n : Nat} {here next : MeterAt}
      (hm : rt.meter = .place here) (hhere : here = .gyTop n ∨ here = .gyPopping n)
      (hring : rt.gyRing.step .pop = .ok (r, o) ∨ rt.gyRing.step .consume = .ok (r, o))
      (hpush : r.push = rt.gyRing.push)
      (hnext : next = .gyPopping n ∧ o = .pending ∧ r.pop ≠ .idle ∨
        (next = .polling n ∧ o = .popped [] ∨
          ∃ ev rest, next = .gyGot n ev ∧ o = .popped (ev :: rest)) ∧ r.pop = .idle) :
      Moves calls rt { rt with gyRing := r, meter := .place next } (.gyRing o)
  | goes {here next : MeterAt} (hm : rt.meter = .place here) (hgoes : Goes rt here next) :
      Moves calls rt (rt.goto next).1 (rt.goto next).2
  | enters {here next : MeterAt} {c : EngineCall} (hm : rt.meter = .place here)
      (henters : Enters here c next) :
      Moves calls rt (rt.enter calls c next).1 (rt.enter calls c next).2
  | returns {e : E} {next : MeterAt} (hm : rt.meter = .working (.done e) next) :
      Moves calls rt { rt with engine := e, meter := .place next } .quiet
  | ask {record : UsageRecord} {resume : Bool → MeterEngine.Work E} {next : MeterAt}
      {r : SharedRing UsageRecord} {o : RingOut UsageRecord}
      (hm : rt.meter = .working (.ask record resume) next)
      (hring : rt.recordRing.step (.push record) = .ok (r, o)) :
      Moves calls rt { rt with recordRing := r, meter := .emitting resume next } (.recordRing o)
  | offer {resume : Bool → MeterEngine.Work E} {next : MeterAt} {r : SharedRing UsageRecord}
      {o : RingOut UsageRecord} {pc : MeterPc E} (hm : rt.meter = .emitting resume next)
      (hring : rt.recordRing.step .produce = .ok (r, o))
      (hpc : o = .pending ∧ pc = .emitting resume next ∧ r.push ≠ .idle ∨
        ∃ accepted count, o = .pushed accepted count ∧
          pc = .working (resume (!accepted.isEmpty)) next ∧ r.push = .idle) :
      Moves calls rt { rt with recordRing := r, meter := pc } (.recordRing o)

theorem ingestStep_moves (hstep : rt.ingestStep written = .ok (rt', out)) :
    Moves calls rt rt' out := by
  unfold Runtime.ingestStep at hstep
  split at hstep
  · rename_i hpc
    obtain ⟨⟨r, o⟩, hring, hret⟩ := bind_eq_ok.mp hstep
    cases hret
    obtain ⟨htaken, hpop⟩ := step_produce hring
    refine .meterPush (.inr hpc) hring htaken hpop ?_
    rcases step_produce_ends hring with ⟨rfl, hbusy⟩ | ⟨vs, n, rfl, hidle⟩
    · exact .inl ⟨rfl, hbusy⟩
    · exact .inr ⟨rfl, hidle⟩
  · rename_i hpc
    obtain ⟨⟨r, o⟩, hring, hret⟩ := bind_eq_ok.mp hstep
    cases hret
    obtain ⟨htaken, hpop⟩ := step_produce hring
    refine .gyPush (.inr hpc) hring htaken hpop ?_
    rcases step_produce_ends hring with ⟨rfl, hbusy⟩ | ⟨vs, n, rfl, hidle⟩
    · exact .inl ⟨rfl, hbusy⟩
    · exact .inr ⟨rfl, hidle⟩
  · cases hstep
    exact .stopping ‹_›
  · split at hstep
    · cases hstep
      exact .joinMeter ‹_› ‹_›
    · cases hstep
  · cases hstep
    exact .signalReporter ‹_›
  · split at hstep
    · cases hstep
      exact .joinReporter ‹_› ‹_›
    · cases hstep
  · obtain ⟨⟨rt₁, pc', o⟩, hdrain, hret⟩ := bind_eq_ok.mp hstep
    cases hret
    obtain ⟨r, w, x, rfl, hd⟩ := drainStep_drains hdrain
    cases pc' <;> exact .ingestDrain ‹_› hd
  · cases hstep

theorem reporterStep_moves (hstep : rt.reporterStep written = .ok (rt', out)) :
    Moves calls rt rt' out := by
  unfold Runtime.reporterStep at hstep
  split at hstep
  · cases hstep
    exact .report ‹_›
  · obtain ⟨⟨rt₁, pc', o⟩, hdrain, hret⟩ := bind_eq_ok.mp hstep
    cases hret
    obtain ⟨r, w, x, rfl, hd⟩ := drainStep_drains hdrain
    cases pc' <;> exact .reporterDrain ‹_› hd
  · cases hstep

theorem loopStep_moves {here : MeterAt} (hm : rt.meter = .place here)
    (hstep : rt.loopStep calls meterBatch nowNs here = .ok (rt', out)) :
    Moves calls rt rt' out := by
  cases here with
  | top =>
      obtain ⟨⟨r, o⟩, hring, hret⟩ := bind_eq_ok.mp hstep
      cases hret
      obtain ⟨rfl, hpush, hbusy⟩ := step_popBulk hring
      exact .meterPop hm (.inl rfl) hring hpush (.inl ⟨rfl, rfl, hbusy⟩)
  | popping =>
      obtain ⟨⟨r, o⟩, hring, hret⟩ := bind_eq_ok.mp hstep
      cases hret
      refine .meterPop hm (.inr rfl) hring (step_consume_push hring) ?_
      rcases step_consume_ends hring with ⟨rfl, hbusy⟩ | ⟨batch, rfl, hidle⟩
      · exact .inl ⟨rfl, rfl, hbusy⟩
      · exact .inr ⟨rfl, hidle⟩
  | gyTop n =>
      obtain ⟨⟨r, o⟩, hring, hret⟩ := bind_eq_ok.mp hstep
      cases hret
      obtain ⟨rfl, -, hpush, hbusy⟩ := step_pop hring
      exact .gyPop hm (.inl rfl) (.inl hring) hpush (.inl ⟨rfl, rfl, hbusy⟩)
  | gyPopping n =>
      obtain ⟨⟨r, o⟩, hring, hret⟩ := bind_eq_ok.mp hstep
      cases hret
      refine .gyPop hm (.inr rfl) (.inr hring) (step_consume_push hring) ?_
      rcases step_consume_ends hring with ⟨rfl, hbusy⟩ | ⟨values, rfl, hidle⟩
      · exact .inl ⟨rfl, rfl, hbusy⟩
      · cases values with
        | nil => exact .inr ⟨.inl ⟨rfl, rfl⟩, hidle⟩
        | cons ev rest => exact .inr ⟨.inr ⟨ev, rest, rfl, rfl⟩, hidle⟩
  | applying n todo =>
      cases todo with
      | nil =>
          cases hstep
          exact .goes hm (.applied n)
      | cons ev todo =>
          cases hstep
          exact .enters hm (.apply n ev todo)
  | gyGot n ev =>
      cases hstep
      exact .enters hm (.applyGy n ev)
  | polling n =>
      cases hstep
      exact .enters hm (.poll n nowNs)
  | leaving =>
      cases hstep
      exact .enters hm (.drain nowNs)
  | exited => cases hstep
  | polled n =>
      cases hstep
      refine .goes hm ?_
      split_ifs
      · exact .idle n
      · exact .busy n
  | checkStop =>
      cases hstep
      refine .goes hm ?_
      split_ifs with hstop
      · exact .stopped hstop
      · exact .running
  | sizeMeter =>
      cases hstep
      exact .goes hm .sizeMeter
  | sizedMeter head =>
      cases hstep
      refine .goes hm ?_
      split_ifs with hzero
      · exact .emptyMeter hzero
      · exact .moreMeter head
  | sizeGy =>
      cases hstep
      exact .goes hm .sizeGy
  | sizedGy head =>
      cases hstep
      refine .goes hm ?_
      split_ifs with hzero
      · exact .emptyGy hzero
      · exact .moreGy head

theorem meterStep_moves (hstep : rt.meterStep calls meterBatch nowNs = .ok (rt', out)) :
    Moves calls rt rt' out := by
  unfold Runtime.meterStep at hstep
  split at hstep
  · exact loopStep_moves ‹_› hstep
  · cases hstep
    exact .returns ‹_›
  · obtain ⟨⟨r, o⟩, hring, hret⟩ := bind_eq_ok.mp hstep
    cases hret
    exact .ask ‹_› hring
  · cases hstep
  · obtain ⟨⟨r, o⟩, hring, hret⟩ := bind_eq_ok.mp hstep
    cases hret
    refine .offer ‹_› hring ?_
    rcases step_produce_ends hring with ⟨rfl, hbusy⟩ | ⟨values, count, rfl, hidle⟩
    · exact .inl ⟨rfl, rfl, hbusy⟩
    · exact .inr ⟨values, count, rfl, rfl, hidle⟩

/-- The ways a step can go. -/
theorem step_moves {op : RuntimeOp} (hstep : rt.step calls meterBatch op = .ok (rt', out)) :
    Moves calls rt rt' out := by
  cases op with
  | push ev =>
      cases hpc : rt.ingest <;> simp only [Runtime.step, hpc, reduceCtorEq] at hstep
      obtain ⟨⟨r, o⟩, hring, hret⟩ := bind_eq_ok.mp hstep
      cases hret
      obtain ⟨htaken, hpop, hbusy⟩ := step_push hring
      exact .meterPush (.inl hpc) hring htaken hpop (.inl ⟨rfl, hbusy⟩)
  | pushGy ev =>
      cases hpc : rt.ingest <;> simp only [Runtime.step, hpc, reduceCtorEq] at hstep
      obtain ⟨⟨r, o⟩, hring, hret⟩ := bind_eq_ok.mp hstep
      cases hret
      obtain ⟨htaken, hpop, hbusy⟩ := step_push hring
      exact .gyPush (.inl hpc) hring htaken hpop (.inl ⟨rfl, hbusy⟩)
  | stop =>
      cases hpc : rt.ingest <;> simp only [Runtime.step, hpc, reduceCtorEq] at hstep
      · obtain ⟨rfl, rfl⟩ := Prod.mk.inj (Except.ok.inj hstep)
        exact .stopCall (.inl hpc)
      · obtain ⟨rfl, rfl⟩ := Prod.mk.inj (Except.ok.inj hstep)
        exact .stopCall (.inr hpc)
  | ingest written => exact ingestStep_moves hstep
  | meter nowNs => exact meterStep_moves hstep
  | reporter written => exact reporterStep_moves hstep

end Runtime
end GtpMeter
