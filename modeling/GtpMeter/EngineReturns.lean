import GtpMeter.FlowTable
import GtpMeter.RuntimeBilling

/-!
# The metering thread never faults

A call on the engine may index outside a vector, write through a null pointer or hang.
The calls of the metering thread (`apply`, `apply_gy`, `poll` and `drain`) do none of
this.  Their indices come from the TEID table, from the IMSI index and from the sweep, and
all of these stay below `next_sub_`; and an entry of the flow table can always be
overwritten, as long as the probe window is not empty and no packet has carried the
largest timestamp.

**Results.**
* `apply_returns`, `applyGy_returns`, `pollWork_ends`, `drainWork_ends`: each call returns,
  however its offers of records are answered.
* `life_never_faults`: the metering thread is never in a call that has failed.
-/

namespace GtpMeter

open Runs

/-- `update_flow` has a slot for every packet. -/
def FlowTable.Serving (t : FlowTable) : Prop :=
  t.count = 0 ∨ t.Ok ∧ t.Dated ∧ 0 < t.window

namespace MeterEngine

variable {e e' : MeterEngine} {ev : MeterEvent} {idx : Nat} {nowNs : UInt64}
  {cfg : MeterConfig} {sink s : RecordSink} {h : History}

section Packets

theorem trackFlow_returns (hserve : e.flowTable.Serving) (sub : UInt32) (dir : UInt8) :
    ∃ e', e.trackFlow ev sub dir = .ok e' := by
  unfold trackFlow
  split_ifs with hnone
  · exact ⟨e, rfl⟩
  · rcases hserve with hzero | ⟨hok, hdated, hwindow⟩
    · exact absurd hzero hnone
    · exact updateFlow_returns hok hdated hwindow ⟨ev, sub, dir⟩

theorem meterPacket_returns {b : TeidBinding} (hserve : e.flowTable.Serving)
    (hlt : b.subIdx.toNat < e.tableSize) (hslot : b.slot.toNat < kBucketSlots) :
    ∃ e', e.meterPacket ev b = .ok e' := by
  have hresolve : ∃ resolved, e.packetSlot ev b = .ok resolved ∧
      resolved.2.toNat < kBucketSlots := by
    unfold packetSlot infoAt
    rw [if_pos hlt]
    split_ifs
    · exact ⟨_, rfl, (assignSlot_spec _ _).1⟩
    · exact ⟨_, rfl, hslot⟩
  obtain ⟨resolved, hres, hs⟩ := hresolve
  have hsame : ∀ (counters : Nat → SubscriberCounters) (info : Nat → SubscriberInfo),
      ({ e with
        counters := counters
        info := info
        stats := addTotals e.stats (packetDir ev b) ev.bytes.toUInt64 } : MeterEngine).flowTable =
      e.flowTable := by
    intro counters info
    unfold addTotals
    split_ifs
    · rfl
    · rfl
  simp only [meterPacket, countersAt, if_pos hlt, hres, addBucket, dif_pos hs, bind, Except.bind]
  refine trackFlow_returns ?_ _ _
  rw [hsame]
  exact hserve

/-- `apply` returns. -/
theorem apply_returns (hmax : e.tableSize ≤ 2 ^ 32) (hS : Sound e) (hserve : e.flowTable.Serving)
    (ev : MeterEvent) : ∃ e', e.apply ev = .ok e' := by
  rcases apply_meters hmax hS ev with
    hok | ⟨e₁, b, heq, hlt, hslot, hcfg, hflows, hmask, hcount, hactive, hins, hev⟩
  · exact hok
  · have htable : e₁.flowTable = e.flowTable := by
      simp only [flowTable, hcfg, hflows, hmask, hcount, hactive, hins, hev]
    rw [heq]
    exact meterPacket_returns (htable ▸ hserve) hlt hslot

/-- `apply_gy` returns. -/
theorem applyGy_returns (hi : Indexed e) (ev : GyEvent) : ∃ e', e.applyGy ev = .ok e' := by
  unfold applyGy
  dsimp only
  split_ifs
  · exact ⟨_, rfl⟩
  · cases hidx : e.imsiIndex ev.imsi with
    | none => exact ⟨_, rfl⟩
    | some idx =>
        have hlt : idx < e.tableSize := Nat.lt_of_lt_of_le (hi.imsi_eq _ _ hidx).1 hi.next_le
        have hinfo : infoAt { e with stats := { e.stats with gyEvents := e.stats.gyEvents + 1 } }
            idx = .ok (e.info idx) := if_pos hlt
        simp only [hinfo, bind, Except.bind]
        exact ⟨_, rfl⟩

end Packets

section Reports

theorem emitWork_ends (hlt : idx < e.tableSize) (reason : RecordReason) :
    (e.emitWork idx reason nowNs).Ends (fun e' => e'.tableSize = e.tableSize) := by
  simp only [emitWork, countersAt, infoAt, if_pos hlt, Resumption.ofExcept, Resumption.bind]
  exact fun _ => rfl

theorem drainSlotWork_ends (hlt : idx < e.tableSize) :
    (e.drainSlotWork idx nowNs).Ends (fun e' => e'.tableSize = e.tableSize) := by
  simp only [drainSlotWork, countersAt, infoAt, if_pos hlt, Resumption.ofExcept, Resumption.bind]
  split_ifs
  · exact rfl
  · exact rfl
  · exact emitWork_ends hlt .shutdown

theorem drainLoopWork_ends {n size : Nat} (hsize : e.tableSize = size) (hn : idx + n ≤ size) :
    (drainLoopWork nowNs n idx e).Ends (fun e' => e'.tableSize = size) := by
  induction n generalizing idx e with
  | zero => exact hsize
  | succ n ih =>
      refine (drainSlotWork_ends (by omega)).bind (fun e₁ hsame => ?_)
      exact ih (hsame.trans hsize) (by omega)

theorem drainWork_ends (hle : e.nextSub ≤ e.tableSize) :
    (e.drainWork nowNs).Ends (fun e' => e'.tableSize = e.tableSize) :=
  drainLoopWork_ends rfl (by omega)

theorem pollSlotWork_ends {live : Nat} (hpos : 0 < live) (hle : live ≤ e.tableSize) :
    (e.pollSlotWork live nowNs).Ends (fun e' => e'.tableSize = e.tableSize) := by
  have hlt : (if e.sweepCursor ≥ live then 0 else e.sweepCursor) < e.tableSize := by
    split_ifs
    · omega
    · omega
  unfold pollSlotWork
  generalize (if e.sweepCursor ≥ live then 0 else e.sweepCursor) = idx at hlt
  have hswept : idx < ({ e with sweepCursor := idx + 1 } : MeterEngine).tableSize := hlt
  simp only [countersAt, infoAt, if_pos hswept, Resumption.ofExcept, Resumption.bind]
  split_ifs
  · exact rfl
  · exact rfl
  · exact emitWork_ends hswept .volume
  · exact emitWork_ends hswept .interval
  · exact rfl

theorem pollLoopWork_ends {live n size : Nat} (hpos : 0 < live) (hsize : e.tableSize = size)
    (hle : live ≤ size) :
    (pollLoopWork live nowNs n e).Ends (fun e' => e'.tableSize = size) := by
  induction n generalizing e with
  | zero => exact hsize
  | succ n ih =>
      refine (pollSlotWork_ends hpos (by omega)).bind (fun e₁ hsame => ?_)
      exact ih (hsame.trans hsize)

theorem pollWork_ends (hle : e.nextSub ≤ e.tableSize) :
    (e.pollWork nowNs).Ends (fun e' => e'.tableSize = e.tableSize) := by
  unfold pollWork
  split_ifs with hearly
  · exact rfl
  · dsimp only
    split_ifs with hnone
    · exact rfl
    · exact pollLoopWork_ends (Nat.pos_of_ne_zero hnone) rfl hle

end Reports

section Calls

/-- The flow table of a reachable engine serves every packet. -/
theorem reaches_serving (hwindow : cfg.trackFlows = true → 0 < cfg.flowProbeWindow.toNat)
    (hrun : Reaches cfg sink h e) (hts : TimestampsFit h) : e.flowTable.Serving := by
  cases htrack : cfg.trackFlows with
  | false =>
      refine .inl ((reaches_flowCount hrun).trans ?_)
      simp [init, htrack]
  | true =>
      refine .inr ⟨reaches_flowTable htrack hrun, reaches_dated htrack hrun hts, ?_⟩
      rw [reaches_window hrun]
      exact hwindow htrack

/-- A call of the metering thread on a reachable engine returns, however its offers are
answered. -/
theorem meterCalls_ends (hmax : cfg.maxSubscribers.toNat ≤ 2 ^ 32)
    (hwindow : cfg.trackFlows = true → 0 < cfg.flowProbeWindow.toNat)
    (hrun : Reaches cfg sink h (e.attach s)) (hts : TimestampsFit h) (c : EngineCall) :
    (meterCalls e c).Ends (fun _ => True) := by
  have hi := reaches_indexed hrun
  have hsize : (e.attach s).tableSize ≤ 2 ^ 32 := reaches_tableSize hrun ▸ hmax
  cases c with
  | apply ev =>
      obtain ⟨e', he⟩ := apply_returns hsize (reaches_sound hmax hrun)
        (reaches_serving hwindow hrun hts) ev
      rw [apply_attach] at he
      cases happ : e.apply ev with
      | error f => simp [happ, Except.map] at he
      | ok e₁ => simp [meterCalls, happ, Resumption.ofExcept, Resumption.Ends]
  | applyGy ev =>
      obtain ⟨e', he⟩ := applyGy_returns hi ev
      rw [applyGy_attach] at he
      cases happ : e.applyGy ev with
      | error f => simp [happ, Except.map] at he
      | ok e₁ => simp [meterCalls, happ, Resumption.ofExcept, Resumption.Ends]
  | poll nowNs =>
      have hle : e.nextSub ≤ e.tableSize := hi.next_le
      exact (pollWork_ends hle).mono (fun _ _ => trivial)
  | drain nowNs =>
      have hle : e.nextSub ≤ e.tableSize := hi.next_le
      exact (drainWork_ends hle).mono (fun _ _ => trivial)

end Calls

end MeterEngine

open MeterEngine SharedRing

/-- The present call returns, however its offers are answered. -/
def MeterPc.Healthy {E : Type} : MeterPc E → Prop
  | .place _ => True
  | .working work _ => work.Ends (fun _ => True)
  | .emitting resume _ => ∀ pushed, (resume pushed).Ends (fun _ => True)

namespace Runtime

section Steps

variable {E : Type} {calls : EngineCalls E} {install : EngineInstall E} {meterBatch : UInt64}
  {rt rt' : Runtime E} {out : RuntimeOut}

/-- The calls that are begun return, so the thread stays in calls that do. -/
theorem EngineStep.healthy (hstep : EngineStep calls rt rt' out) (hh : rt.meter.Healthy)
    (hcalls : ∀ c, (calls rt.engine c).Ends (fun _ => True)) : rt'.meter.Healthy := by
  cases hstep with
  | aside hengine hmeter hpush hin hcall =>
      rcases hmeter with hsame | ⟨here, next, -, hplace⟩
      · rw [hsame]
        exact hh
      · rw [hplace]
        trivial
  | call hm => exact hcalls _
  | returns hm => trivial
  | ask hm hring =>
      rw [hm] at hh
      exact hh
  | @offer resume next r o pc hm hring hpending hpushed =>
      rw [hm] at hh
      rcases step_produce_ends hring with ⟨rfl, -⟩ | ⟨accepted, count, rfl, -⟩
      · rw [hpending rfl]
        exact hh
      · rw [hpushed _ _ rfl]
        exact hh _

theorem Cycled.applied_mem {k₁ k₂ k₃ : Nat} {j : Journal} (hc : Cycled k₁ k₂ k₃ rt j) :
    ∀ ev ∈ j.calls.filterMap EngineCall.event, ev ∈ j.meterIn := by
  intro ev hev
  by_cases hstopped : rt.ingest = .stopped
  · have hi := hc.down hstopped
    rw [hi.meterAll, hi.applied]
    exact hev
  · obtain ⟨before, now, hcalls, hs⟩ := hc.up hstopped
    have hout : ev ∈ j.meterOut := by
      have happlied : j.meterOut = j.calls.filterMap EngineCall.event ++ rt.meter.next.pending := by
        rw [hcalls, ← filterMap_undrained event_drain]
        exact hs.applied
      rw [happlied]
      exact List.mem_append_left _ hev
    exact hs.meterRing.fifo.subset hout

end Steps

section Lives

variable {cfg : MeterConfig} {k₁ k₂ k₃ : Nat} {rt : Runtime MeterEngine} {meterBatch : UInt64}
  {wall : Nat → UInt64} {s₁ : UInt64 → MeterEvent} {s₂ : UInt64 → GyEvent}
  {s₃ : UInt64 → UsageRecord} {h : LifeTrace MeterEngine}

/-- The operations that have returned are among the first. -/
theorem Follows.done_isPrefix {sink₀ s₀ s : RecordSink} {k : Nat} {j : Journal}
    {ops : List MeterOp} {taken log : List UsageRecord} {hist : History}
    (hf : Follows cfg sink₀ k rt j ops taken hist s₀ s log) :
    hist.map (fun tr => tr.op) <+: ops := by
  have hcurrent := hf.current
  cases hm : rt.meter with
  | place here =>
      rw [hm] at hcurrent
      obtain ⟨-, -, rfl⟩ := hcurrent
      exact List.prefix_rfl
  | working work next =>
      rw [hm] at hcurrent
      obtain ⟨c, rfl, -⟩ := hcurrent
      exact List.prefix_append _ _
  | emitting resume next =>
      rw [hm] at hcurrent
      obtain ⟨c, record, rfl, -⟩ := hcurrent
      exact List.prefix_append _ _

/-- Every event that the meter ring accepted came before the largest timestamp. -/
def ClockFits (h : LifeTrace MeterEngine) : Prop :=
  ∀ ev ∈ (lifeJournal h).meterIn, ev.tsNs.toNat < 2 ^ 64 - 1

theorem ClockFits.of_snoc {tr : Transition (Runtime MeterEngine) LifeOp LifeOut}
    (hc : ClockFits (h ++ [tr])) : ClockFits h := by
  intro ev hev
  refine hc ev ?_
  have hsnoc : lifeJournal (h ++ [tr]) = (lifeJournal h).enterLife tr.out := by
    simp [lifeJournal]
  rw [hsnoc]
  cases hout : tr.out with
  | threads out => cases out <;> simp [Journal.enterLife, Journal.enter, hev]
  | _ => exact hev

/-- A call that is begun at any time of a life returns. -/
theorem life_calls_end (hmax : cfg.maxSubscribers.toNat ≤ 2 ^ 32)
    (hwindow : cfg.trackFlows = true → 0 < cfg.flowProbeWindow.toNat)
    (h₁ : k₁ < 64) (h₂ : k₂ < 64) (h₃ : k₃ < 64)
    (hrun : Run (Runtime.lifeStep meterCalls meterInstall meterBatch)
      (assembledMeter cfg wall k₁ k₂ k₃ s₁ s₂ s₃) h rt)
    (hclock : ClockFits h) (c : EngineCall) : (meterCalls rt.engine c).Ends (fun _ => True) := by
  obtain ⟨pops, taken, hist, s₀, s, log, hf⟩ := (life_linear h₁ h₂ h₃ hrun).follows
  refine meterCalls_ends hmax hwindow hf.reaches ?_ c
  intro tr htr ev hev
  refine hclock ev ((life_cycled h₁ h₂ h₃ hrun).applied_mem ev ?_)
  rw [← opsOf_packets]
  have hmem : tr.op ∈ opsOf h := hf.done_isPrefix.subset (List.mem_map_of_mem htr)
  exact List.mem_filterMap.mpr ⟨tr.op, hmem, hev⟩

theorem life_healthy (hmax : cfg.maxSubscribers.toNat ≤ 2 ^ 32)
    (hwindow : cfg.trackFlows = true → 0 < cfg.flowProbeWindow.toNat)
    (h₁ : k₁ < 64) (h₂ : k₂ < 64) (h₃ : k₃ < 64)
    (hrun : Run (Runtime.lifeStep meterCalls meterInstall meterBatch)
      (assembledMeter cfg wall k₁ k₂ k₃ s₁ s₂ s₃) h rt)
    (hclock : ClockFits h) : rt.meter.Healthy := by
  induction hrun with
  | nil => trivial
  | @snoc h rt rt' op out hprev hstep ih =>
      have hh := ih hclock.of_snoc
      cases op with
      | threads op =>
          obtain ⟨⟨rt₁, o⟩, hop, hret⟩ := bind_eq_ok.mp hstep
          cases hret
          exact (step_engine hop).healthy hh
            (life_calls_end hmax hwindow h₁ h₂ h₃ hprev hclock.of_snoc)
      | install spec nowNs =>
          simp only [Runtime.lifeStep] at hstep
          split at hstep
          · cases hstep
            exact hh
          · cases hstep
      | start opened =>
          simp only [Runtime.lifeStep] at hstep
          split at hstep
          · cases hstep
            exact hh
          · cases hstep
            trivial
          · cases hstep

/-- At any time of any life, the call that the metering thread is in returns, and so does
any call that it could make: no `apply`, `apply_gy`, `poll` or `drain` fails, whatever the
other threads do in between and however its records are received. -/
theorem life_never_faults (hmax : cfg.maxSubscribers.toNat ≤ 2 ^ 32)
    (hwindow : cfg.trackFlows = true → 0 < cfg.flowProbeWindow.toNat)
    (h₁ : k₁ < 64) (h₂ : k₂ < 64) (h₃ : k₃ < 64)
    (hrun : Run (Runtime.lifeStep meterCalls meterInstall meterBatch)
      (assembledMeter cfg wall k₁ k₂ k₃ s₁ s₂ s₃) h rt)
    (hclock : ClockFits h) :
    rt.meter.Healthy ∧ ∀ c, (meterCalls rt.engine c).Ends (fun _ => True) :=
  ⟨life_healthy hmax hwindow h₁ h₂ h₃ hrun hclock,
    life_calls_end hmax hwindow h₁ h₂ h₃ hrun hclock⟩

/-- In the middle of the call for a packet. -/
theorem life_never_faults_midway :
    ∃ (h : LifeTrace MeterEngine) (rt : Runtime MeterEngine),
      Run (Runtime.lifeStep meterCalls meterInstall 256) smallAssembled h rt ∧
      (lifeJournal h).calls.length = 1 ∧ rt.engine.stats.events = 0 ∧ rt.meter.Healthy := by
  have hex : execCheck (Runtime.lifeStep meterCalls meterInstall 256) smallAssembled
      ((smallCycle 100).take 5 ++ List.replicate 5 (.threads (.meter 0)))
      (fun h rt => decide ((lifeJournal h).calls.length = 1 ∧ rt.engine.stats.events = 0) &&
        (lifeJournal h).meterIn.all (fun ev => ev.tsNs.toNat < 2 ^ 64 - 1)) = true := by
    decide +kernel
  obtain ⟨h, rt, hrun, hcheck⟩ := Run.of_execCheck hex
  rw [Bool.and_eq_true, decide_eq_true_eq, List.all_eq_true] at hcheck
  obtain ⟨⟨hcalls, hevents⟩, hall⟩ := hcheck
  have hclock : ClockFits h := fun ev hev => of_decide_eq_true (hall ev hev)
  exact ⟨h, rt, hrun, hcalls, hevents,
    (life_never_faults (by decide) (by decide) (by decide) (by decide) (by decide) hrun hclock).1⟩

end Lives

end Runtime
end GtpMeter
