import GtpMeter.Runtime
import GtpMeter.UsageRecords

/-!
# Calls of the engine beside a sink that follows a schedule

The engine of `MeterEngine` has its record ring for itself, and a schedule says how
often the reporter has popped before each record.  In the runtime the engine only asks,
and the ring that answers is shared.  Here the calls that ask are answered by a ring
with a schedule, and what it takes is written down.

**Results.**
* `Core.tryPush`, `Core.popTimes`: calls of the ring by itself, as pushes to and pops
  from a queue of `2 ^ k` elements.
* `Serves.answer`: what a sink with a schedule answers.
* `pollWork_interp`, `drainWork_interp`: `poll` and `drain` that ask are those of the engine
  with the sink attached, and end alike.
* `meterCalls_tally`: a call that asks is the call of the engine with the sink attached,
  and the records that were taken are the ones that the call emitted and the sink took.
-/

namespace GtpMeter

open Runs

namespace SharedRing

section Alone

open FreeRunning

variable {T : Type} {k ct ch : Nat} {q : SpscRing T} {accepted taken : List T}

/-- `try_push` by itself succeeds exactly if there is room. -/
theorem Core.tryPush (hc : Core k q accepted taken ct ch) (value : T) :
    (q.tryPush value).2 = decide (accepted.length < taken.length + 2 ^ k) ∧
      ∃ ct', Core k (q.tryPush value).1
        (accepted ++ if (q.tryPush value).2 then [value] else []) taken ct' ch := by
  -- the branch with room, whichever copy of `tail_` shows it
  have hroom : ∀ {q : SpscRing T} {ct : Nat}, Core k q accepted taken ct ch →
      accepted.length < ct + 2 ^ k →
      Core k { q with
        slots := Function.update q.slots (q.head &&& q.mask) value
        head := q.head + 1 } (accepted ++ [value]) taken ct ch := by
    intro q ct hc hlt
    rw [hc.head_index]
    refine (hc.write le_rfl hlt value).publish [value] hlt ?_
    intro j v hv
    cases j with
    | zero => simp [← Option.some.inj hv]
    | succ j => simp at hv
  have hct := hc.ct_le
  by_cases hstale : q.head - q.cachedTail ≥ q.capacity
  · have hc' := hc.reloadTail
    by_cases hfull : q.head - q.tail ≥ q.capacity
    · have heq : accepted.length = taken.length + 2 ^ k := hc'.full_iff.mp hfull
      have hpush : q.tryPush value = ({ q with cachedTail := q.tail }, false) := by
        simp [SpscRing.tryPush, hstale, hfull]
      rw [hpush]
      exact ⟨by simp [heq], taken.length, by simpa using hc'⟩
    · have hlt : accepted.length < taken.length + 2 ^ k :=
        lt_of_le_of_ne hc'.room (fun heq => hfull (hc'.full_iff.mpr heq))
      have hpush := hroom hc' hlt
      simp only [SpscRing.tryPush, hstale, hfull, if_true, if_false]
      exact ⟨by simp [hlt], taken.length, hpush⟩
  · have hlt : accepted.length < ct + 2 ^ k :=
      lt_of_le_of_ne hc.room (fun heq => hstale (hc.full_iff.mpr heq))
    have hpush := hroom hc hlt
    simp only [SpscRing.tryPush, hstale, if_false, if_true]
    exact ⟨(decide_eq_true (by omega)).symm, ct, hpush⟩

/-- `try_pop` by itself takes the next element, if there is one. -/
theorem Core.tryPop (hc : Core k q accepted taken ct ch) {value : T}
    (hnext : taken ++ [value] <+: accepted) :
    ∃ ch', Core k q.tryPop.1 accepted (taken ++ [value]) ct ch' := by
  have hlen := hnext.length_le
  rw [List.length_append, List.length_singleton] at hlen
  have hrelease : ∀ {q : SpscRing T} {ch : Nat}, Core k q accepted taken ct ch →
      taken.length < ch →
      Core k { q with tail := q.tail + 1 } accepted (taken ++ [value]) ct ch :=
    fun hc hlt => hc.release [value] hnext hlt
  by_cases hstale : q.tail = q.cachedHead
  · have hc' := hc.reloadHead
    have hmore : ¬q.tail = q.head := fun heq =>
      absurd (hc'.empty_iff.mp heq) (by omega)
    simp only [SpscRing.tryPop, if_pos hstale, if_neg hmore]
    exact ⟨_, hrelease hc' (by omega)⟩
  · have hlt : taken.length < ch :=
      lt_of_le_of_ne hc.le_ch (fun heq => hstale (hc.empty_iff.mpr heq.symm))
    simp only [SpscRing.tryPop, if_neg hstale]
    exact ⟨_, hrelease hc hlt⟩

theorem Core.popTimes (hc : Core k q accepted taken ct ch) {more : List T}
    (hnext : taken ++ more <+: accepted) :
    ∃ ch', Core k (q.popTimes more.length) accepted (taken ++ more) ct ch' := by
  induction more generalizing q taken ch with
  | nil => exact ⟨ch, by simpa [SpscRing.popTimes] using hc⟩
  | cons value more ih =>
      have hsplit : taken ++ value :: more = (taken ++ [value]) ++ more := by simp
      rw [hsplit] at hnext ⊢
      obtain ⟨ch', hc'⟩ := hc.tryPop ((List.prefix_append _ _).trans hnext)
      exact ih hc' hnext

end Alone

end SharedRing

open SharedRing

/-- The call as an operation of the engine. -/
def EngineCall.op : EngineCall → MeterEngine.MeterOp
  | .apply ev => .apply ev
  | .applyGy ev => .applyGy ev
  | .poll nowNs => .poll nowNs
  | .drain nowNs => .drain nowNs

section Schedules

variable {k : Nat} {sink : RecordSink} {accepted taken more : List UsageRecord}

/-- The ring of the sink took `accepted` in its time, and gave out `taken`. -/
def RecordSink.Serves (k : Nat) (sink : RecordSink) (accepted taken : List UsageRecord) : Prop :=
  ∃ q ct ch, sink.ring = some q ∧ Core k q accepted taken ct ch

/-- A record is offered after the reporter has popped `more`. -/
theorem RecordSink.Serves.answer (hs : sink.Serves k accepted taken)
    (hmore : taken ++ more <+: accepted) (hpops : sink.pops sink.offered = more.length)
    (r : UsageRecord) :
    (MeterEngine.answer sink r).2 =
        decide (accepted.length < (taken ++ more).length + 2 ^ k) ∧
      (MeterEngine.answer sink r).1.Serves k
        (accepted ++ if (MeterEngine.answer sink r).2 then [r] else []) (taken ++ more) ∧
      (MeterEngine.answer sink r).1.pops = sink.pops ∧
      (MeterEngine.answer sink r).1.offered = sink.offered + 1 := by
  obtain ⟨q, ct, ch, hring, hc⟩ := hs
  obtain ⟨ch', hpopped⟩ := hc.popTimes hmore
  obtain ⟨hok, ct', hpushed⟩ := hpopped.tryPush r
  have hans : (MeterEngine.answer sink r).2 = ((q.popTimes more.length).tryPush r).2 := by
    simp only [MeterEngine.answer, RecordSink.offer, hring, hpops]
    cases ((q.popTimes more.length).tryPush r).2 <;> rfl
  have hsink : (MeterEngine.answer sink r).1 =
      { sink with
        ring := some ((q.popTimes more.length).tryPush r).1, offered := sink.offered + 1 } := by
    simp only [MeterEngine.answer, RecordSink.offer, hring, hpops]
  rw [hans, hsink]
  exact ⟨hok, ⟨_, ct', ch', rfl, hpushed⟩, rfl, rfl⟩

end Schedules

namespace MeterEngine

section Attach

variable {e : MeterEngine} {sink : RecordSink} {ev : MeterEvent}

/-- The calls on the packet path do not look at the sink. -/
theorem updateFlowLoop_attach (sub : UInt32) (dir : UInt8) (key : UInt64) (n : Nat) :
    ∀ idx victim oldest,
      (e.attach sink).updateFlowLoop ev sub dir key n idx victim oldest =
        (e.updateFlowLoop ev sub dir key n idx victim oldest).map (attach · sink) := by
  induction n with
  | zero =>
      intro idx victim oldest
      cases victim <;> rfl
  | succ n ih =>
      intro idx victim oldest
      have hflows : (e.attach sink).flows = e.flows := rfl
      have hmask : (e.attach sink).flowMask = e.flowMask := rfl
      simp only [updateFlowLoop, hflows, hmask, ih]
      split_ifs <;> rfl

theorem trackFlow_attach (sub : UInt32) (dir : UInt8) :
    (e.attach sink).trackFlow ev sub dir = (e.trackFlow ev sub dir).map (attach · sink) := by
  have hcount : (e.attach sink).flowCount = e.flowCount := rfl
  unfold trackFlow
  rw [hcount]
  split_ifs
  · rfl
  · exact updateFlowLoop_attach sub dir _ _ _ _ _

theorem meterPacket_attach (b : TeidBinding) :
    (e.attach sink).meterPacket ev b = (e.meterPacket ev b).map (attach · sink) := by
  have hc : (e.attach sink).countersAt b.subIdx.toNat = e.countersAt b.subIdx.toNat := rfl
  have hslot : (e.attach sink).packetSlot ev b = e.packetSlot ev b := rfl
  simp only [meterPacket, hc, hslot]
  cases e.countersAt b.subIdx.toNat with
  | error f => rfl
  | ok c =>
      cases e.packetSlot ev b with
      | error f => rfl
      | ok resolved =>
          simp only [Bind.bind, Except.bind]
          split
          · rfl
          · rw [← trackFlow_attach]
            rfl

theorem learnTeid_attach :
    (e.attach sink).learnTeid ev = ((e.learnTeid ev).1.attach sink, (e.learnTeid ev).2) := by
  by_cases hfull : e.cfg.maxSubscribers.toNat ≤ e.nextSub
  · simp [learnTeid, attach, tableSize, hfull]
  · by_cases hins : (e.teidMap.insert hashU32 ev.teid
        { subIdx := UInt32.ofNat e.nextSub, dir := ev.dir, slot := (learnInfo ev).2 }).2 = true
    · simp [learnTeid, bindTeid, attach, setCounters, setInfo, tableSize, hfull, hins]
    · simp [learnTeid, bindTeid, attach, setCounters, setInfo, tableSize, hfull, hins]

theorem applyUnbound_attach :
    (e.attach sink).applyUnbound ev = (e.applyUnbound ev).map (attach · sink) := by
  have hcfg : (e.attach sink).cfg = e.cfg := rfl
  simp only [applyUnbound, hcfg, learnTeid_attach]
  split_ifs
  · rfl
  · cases (e.learnTeid ev).2 with
    | none => rfl
    | some b => exact meterPacket_attach b

theorem apply_attach : (e.attach sink).apply ev = (e.apply ev).map (attach · sink) := by
  have hmap : ((e.attach sink).countEvent ev).teidMap = (e.countEvent ev).teidMap := rfl
  simp only [apply, hmap]
  split_ifs
  · rfl
  · cases ((e.countEvent ev).teidMap.find hashU32 ev.teid).1 with
    | some b =>
        dsimp only
        rw [← meterPacket_attach]
        rfl
    | none =>
        dsimp only
        rw [← applyUnbound_attach]
        rfl

theorem applyGy_attach (ev : GyEvent) :
    (e.attach sink).applyGy ev = (e.applyGy ev).map (attach · sink) := by
  by_cases hskip : (!ev.hasImsi || !ev.hasUsed) = true
  · simp only [applyGy, hskip, if_true]
    rfl
  · cases hi : e.imsiIndex ev.imsi with
    | none => simp [applyGy, attach, hskip, hi, Except.map]
    | some idx =>
        by_cases hidx : idx < e.cfg.maxSubscribers.toNat
        · simp [applyGy, attach, hskip, hi, infoAt, tableSize, hidx, setInfo, Except.map,
            Bind.bind, Except.bind]
        · simp [applyGy, attach, hskip, hi, infoAt, tableSize, hidx, Except.map, Bind.bind,
            Except.bind]

theorem eraseMoved_attach (old new : UInt32) :
    (e.attach sink).eraseMoved old new = (e.eraseMoved old new).map (attach · sink) := by
  have hmap : (e.attach sink).teidMap = e.teidMap := rfl
  unfold eraseMoved eraseTeid
  rw [hmap]
  split_ifs
  · cases e.teidMap.erase hashU32 old <;> rfl
  · rfl

theorem unbindMoved_attach (info : SubscriberInfo) (spec : SessionSpec) :
    (e.attach sink).unbindMoved info spec = (e.unbindMoved info spec).map (attach · sink) := by
  unfold unbindMoved
  rw [eraseMoved_attach]
  cases e.eraseMoved info.ulTeid spec.ulTeid with
  | error f => rfl
  | ok e₁ => exact eraseMoved_attach _ _

theorem bindNamed_attach (teid : UInt32) (idx : Nat) (dir slot : UInt8) :
    (e.attach sink).bindNamed teid idx dir slot =
      ((e.bindNamed teid idx dir slot).1.attach sink, (e.bindNamed teid idx dir slot).2) := by
  have hmap : (e.attach sink).teidMap = e.teidMap := rfl
  unfold bindNamed bindTeid
  rw [hmap]
  dsimp only
  split_ifs <;> rfl

theorem bindTunnels_attach (idx : Nat) (spec : SessionSpec) (slot : UInt8) :
    (e.attach sink).bindTunnels idx spec slot =
      ((e.bindTunnels idx spec slot).1.attach sink, (e.bindTunnels idx spec slot).2) := by
  simp only [bindTunnels, bindNamed_attach]

theorem installAt_attach (idx : Nat) (spec : SessionSpec) (nowNs : UInt64) :
    (e.attach sink).installAt idx spec nowNs =
      (e.installAt idx spec nowNs).map (fun r => (r.1.attach sink, r.2)) := by
  have hinfo : (e.attach sink).infoAt idx = e.infoAt idx := rfl
  unfold installAt
  rw [hinfo]
  cases e.infoAt idx with
  | error f => rfl
  | ok old =>
      simp only [Bind.bind, Except.bind]
      rw [show (e.attach sink).openCounters idx old.active =
        (e.openCounters idx old.active).attach sink from rfl, unbindMoved_attach]
      cases (e.openCounters idx old.active).unbindMoved (openInfo old spec nowNs) spec with
      | error f => rfl
      | ok e₁ =>
          simp only [Except.map]
          rw [show (e₁.attach sink).setInfo idx (installInfo old spec nowNs).1 =
            (e₁.setInfo idx (installInfo old spec nowNs).1).attach sink from rfl,
            bindTunnels_attach]

/-- Nor does the installation of a session. -/
theorem installSession_attach (spec : SessionSpec) (nowNs : UInt64) :
    (e.attach sink).installSession spec nowNs =
      (e.installSession spec nowNs).map (fun r => (r.1.attach sink, r.2)) := by
  have hindex : (e.attach sink).imsiIndex = e.imsiIndex := rfl
  have hnext : (e.attach sink).nextSub = e.nextSub := rfl
  have hsize : (e.attach sink).tableSize = e.tableSize := rfl
  unfold installSession
  rw [hindex, hnext, hsize]
  by_cases hvalid : (!spec.valid) = true
  · rw [if_pos hvalid, if_pos hvalid]
    rfl
  · rw [if_neg hvalid, if_neg hvalid]
    cases e.imsiIndex spec.imsi with
    | some idx => exact installAt_attach idx spec nowNs
    | none =>
        dsimp only
        split_ifs
        · rfl
        · exact installAt_attach (e := e.allocate spec.imsi) e.nextSub spec nowNs

end Attach

section Tallies

/-- The sink answers, and the records that it takes are written down. -/
def tally (s : RecordSink × List UsageRecord) (r : UsageRecord) :
    (RecordSink × List UsageRecord) × Bool :=
  (((answer s.1 r).1, s.2 ++ if (answer s.1 r).2 then [r] else []), (answer s.1 r).2)

/-- The records of the emissions that the sink took. -/
def acceptedRecords (ems : List Emission) : List UsageRecord :=
  (accepted ems).map Emission.record

theorem acceptedRecords_append (ems ems' : List Emission) :
    acceptedRecords (ems ++ ems') = acceptedRecords ems ++ acceptedRecords ems' := by
  simp [acceptedRecords, accepted]

theorem acceptedRecords_singleton (idx : Nat) (r : UsageRecord) (outcome : SinkOutcome) :
    acceptedRecords [⟨idx, r, outcome⟩] = if decide (outcome = .pushed) then [r] else [] := by
  cases outcome <;> rfl

/-- A call beside a sink and the same call with the sink attached end alike, and what was
written down is what the sink took from it. -/
def Tallied (log : List UsageRecord)
    (x : Except Fault (MeterEngine × RecordSink × List UsageRecord))
    (y : Except Fault (MeterEngine × List Emission)) : Prop :=
  match x with
  | .ok (e, sink, log') => SinkAgrees sink e ∧
      ∃ ems, y = .ok (e.attach sink, ems) ∧ log' = log ++ acceptedRecords ems
  | .error f => y = .error f

variable {e : MeterEngine} {sink : RecordSink} {log : List UsageRecord}

theorem Tallied.done (ha : SinkAgrees sink e) :
    Tallied log (Resumption.interp tally (.done e) (sink, log)) (.ok (e.attach sink, [])) :=
  ⟨ha, [], rfl, by simp [acceptedRecords, accepted]⟩

/-- One call after another. -/
theorem Tallied.seq {x : Work MeterEngine} {y : Except Fault (MeterEngine × List Emission)}
    {f : MeterEngine → Work MeterEngine}
    {g : MeterEngine → Except Fault (MeterEngine × List Emission)}
    (hx : Tallied log (Resumption.interp tally x (sink, log)) y)
    (hf : ∀ e sink log, SinkAgrees sink e →
      Tallied log (Resumption.interp tally (f e) (sink, log)) (g (e.attach sink))) :
    Tallied log (Resumption.interp tally (x.bind f) (sink, log))
      (y >>= fun r => g r.1 >>= fun r' => .ok (r'.1, r.2 ++ r'.2)) := by
  rw [Resumption.interp_bind]
  cases hr : Resumption.interp tally x (sink, log) with
  | error f =>
      rw [hr] at hx
      obtain rfl : y = .error f := hx
      rfl
  | ok r =>
      obtain ⟨e₁, sink₁, log₁⟩ := r
      rw [hr] at hx
      obtain ⟨ha, ems, rfl, rfl⟩ := hx
      have hnext := hf e₁ sink₁ (log ++ acceptedRecords ems) ha
      dsimp only
      cases hr' : Resumption.interp tally (f e₁) (sink₁, log ++ acceptedRecords ems) with
      | error f =>
          rw [hr'] at hnext
          have hg : g (e₁.attach sink₁) = .error f := hnext
          simp [Tallied, Bind.bind, Except.bind, hg]
      | ok r' =>
          rw [hr'] at hnext
          obtain ⟨ha', ems', hg, hlog⟩ := hnext
          refine ⟨ha', ems ++ ems', by simp [Bind.bind, Except.bind, hg], ?_⟩
          rw [hlog, acceptedRecords_append, List.append_assoc]

/-- A read of the tables before a call. -/
theorem Tallied.read {A : Type} {a : Except Fault A} {f : A → Work MeterEngine}
    {g : A → Except Fault (MeterEngine × List Emission)}
    (hf : ∀ v, Tallied log (Resumption.interp tally (f v) (sink, log)) (g v)) :
    Tallied log (Resumption.interp tally ((Resumption.ofExcept a).bind f) (sink, log))
      (a >>= g) := by
  cases a with
  | error f => rfl
  | ok v => exact hf v

theorem Tallied.emit (ha : SinkAgrees sink e) (idx : Nat) (reason : RecordReason)
    (nowNs : UInt64) :
    Tallied log (Resumption.interp tally (e.emitWork idx reason nowNs) (sink, log))
      ((e.attach sink).emitRecord idx reason nowNs >>= fun r => .ok (r.1, [r.2])) := by
  unfold emitWork emitRecord
  rw [bind_assoc]
  refine Tallied.read fun c => ?_
  rw [bind_assoc]
  refine Tallied.read fun info => ?_
  have hr : makeRecord c info idx reason nowNs (sink.wall sink.offered) =
      makeRecord c info idx reason nowNs (e.sink.wall e.sink.offered) := by
    rw [ha.wall, ha.offered]
  obtain ⟨hwall, hoffered, hring⟩ :=
    ha.offer (makeRecord c info idx reason nowNs (sink.wall sink.offered))
  simp only [Resumption.interp, tally, answer, ← hr, offer_outcome ha.ring]
  exact ⟨⟨hwall, hoffered, hring⟩, [_], rfl,
    congrArg (log ++ ·) (acceptedRecords_singleton idx _ _).symm⟩

theorem Tallied.pollSlot (ha : SinkAgrees sink e) (live : Nat) (nowNs : UInt64) :
    Tallied log (Resumption.interp tally (e.pollSlotWork live nowNs) (sink, log))
      ((e.attach sink).pollSlot live nowNs) := by
  have ha' : SinkAgrees sink
      { e with sweepCursor := (if e.sweepCursor ≥ live then 0 else e.sweepCursor) + 1 } :=
    ⟨ha.wall, ha.offered, ha.ring⟩
  have hcursor : (e.attach sink).sweepCursor = e.sweepCursor := rfl
  have hcfg : (e.attach sink).cfg = e.cfg := rfl
  unfold pollSlotWork MeterEngine.pollSlot
  simp only [hcursor, hcfg]
  generalize (if e.sweepCursor ≥ live then 0 else e.sweepCursor) = idx at ha' ⊢
  refine Tallied.read fun info => ?_
  by_cases hactive : (!info.active) = true
  · rw [if_pos hactive, if_pos hactive]
    exact Tallied.done ha'
  · rw [if_neg hactive, if_neg hactive]
    refine Tallied.read fun c => ?_
    split_ifs
    · exact Tallied.done ha'
    · exact Tallied.emit ha' _ _ _
    · exact Tallied.emit ha' _ _ _
    · exact Tallied.done ha'

theorem Tallied.pollLoop (live : Nat) (nowNs : UInt64) (n : Nat) (ha : SinkAgrees sink e) :
    Tallied log (Resumption.interp tally (pollLoopWork live nowNs n e) (sink, log))
      (MeterEngine.pollLoop live nowNs n (e.attach sink)) := by
  induction n generalizing e sink log with
  | zero => exact Tallied.done ha
  | succ n ih => exact Tallied.seq (Tallied.pollSlot ha live nowNs) (fun _ _ _ ha' => ih ha')

/-- With a sink to answer it, `poll` is that of the engine with this sink attached. -/
theorem pollWork_interp (ha : SinkAgrees sink e) (nowNs : UInt64) :
    Tallied log (Resumption.interp tally (e.pollWork nowNs) (sink, log))
      ((e.attach sink).poll nowNs) := by
  have ha' : SinkAgrees sink { e with lastSweepNs := nowNs } := ⟨ha.wall, ha.offered, ha.ring⟩
  have hsweep : (e.attach sink).lastSweepNs = e.lastSweepNs := rfl
  have hcfg : (e.attach sink).cfg = e.cfg := rfl
  have hnext : (e.attach sink).nextSub = e.nextSub := rfl
  unfold pollWork MeterEngine.poll
  simp only [hsweep, hcfg, hnext]
  split_ifs
  · exact Tallied.done ha
  · exact Tallied.done ha'
  · exact Tallied.pollLoop _ _ _ ha'

theorem Tallied.drainSlot (ha : SinkAgrees sink e) (idx : Nat) (nowNs : UInt64) :
    Tallied log (Resumption.interp tally (e.drainSlotWork idx nowNs) (sink, log))
      ((e.attach sink).drainSlot idx nowNs) := by
  unfold drainSlotWork MeterEngine.drainSlot
  refine Tallied.read fun info => ?_
  split_ifs
  · exact Tallied.done ha
  · refine Tallied.read fun c => ?_
    split_ifs
    · exact Tallied.done ha
    · exact Tallied.emit ha _ _ _

theorem Tallied.drainLoop (nowNs : UInt64) (n idx : Nat) (ha : SinkAgrees sink e) :
    Tallied log (Resumption.interp tally (drainLoopWork nowNs n idx e) (sink, log))
      (MeterEngine.drainLoop nowNs n idx (e.attach sink)) := by
  induction n generalizing e sink log idx with
  | zero => exact Tallied.done ha
  | succ n ih =>
      exact Tallied.seq (Tallied.drainSlot ha idx nowNs) (fun _ _ _ ha' => ih _ ha')

/-- With a sink to answer it, `drain` is that of the engine with this sink attached. -/
theorem drainWork_interp (ha : SinkAgrees sink e) (nowNs : UInt64) :
    Tallied log (Resumption.interp tally (e.drainWork nowNs) (sink, log))
      ((e.attach sink).drain nowNs) :=
  Tallied.drainLoop nowNs _ 0 ha

/-- A call that does not look at the sink. -/
theorem Tallied.ofExcept {f : MeterEngine → Except Fault MeterEngine} (ha : SinkAgrees sink e)
    (hf : ∀ s, f (e.attach s) = (f e).map (attach · s)) :
    Tallied log (Resumption.interp tally (.ofExcept (f e)) (sink, log))
      (f (e.attach sink) >>= fun e => .ok (e, [])) := by
  have hself := hf e.sink
  rw [hf]
  cases hfe : f e with
  | error fault => rfl
  | ok e₁ =>
      -- attaching the engine's own sink changes nothing
      have hsink : e₁ = e₁.attach e.sink := by
        rw [show e.attach e.sink = e from rfl, hfe] at hself
        exact Except.ok.inj hself
      rw [hsink]
      exact Tallied.done ⟨ha.wall, ha.offered, ha.ring⟩

theorem Tallied.of_ok {e' : MeterEngine} {sink' : RecordSink} {log' : List UsageRecord}
    {x : Except Fault (MeterEngine × RecordSink × List UsageRecord)}
    {y : Except Fault (MeterEngine × List Emission)} (h : Tallied log x y)
    (hx : x = .ok (e', sink', log')) : SinkAgrees sink' e' ∧
      ∃ ems, y = .ok (e'.attach sink', ems) ∧ log' = log ++ acceptedRecords ems := by
  rw [hx] at h
  exact h

/-- With a sink to answer it, a call of the runtime is the call of the engine with this
sink attached; and the log has what the sink took. -/
theorem meterCalls_tally (ha : SinkAgrees sink e) (c : EngineCall) {e' : MeterEngine}
    {sink' : RecordSink} {log' : List UsageRecord}
    (hx : Resumption.interp tally (meterCalls e c) (sink, log) = .ok (e', sink', log')) :
    SinkAgrees sink' e' ∧ ∃ out, (e.attach sink).step c.op = .ok (e'.attach sink', out) ∧
      log' = log ++ acceptedRecords out.emissions := by
  cases c with
  | apply ev =>
      obtain ⟨ha', ems, hy, hlog⟩ :=
        Tallied.ofExcept (f := (apply · ev)) ha (fun _ => apply_attach) |>.of_ok hx
      obtain ⟨e₁, happly, hok⟩ := bind_eq_ok.mp hy
      cases hok
      exact ⟨ha', {}, by simp [step, EngineCall.op, happly, Bind.bind, Except.bind], hlog⟩
  | applyGy ev =>
      obtain ⟨ha', ems, hy, hlog⟩ :=
        Tallied.ofExcept (f := (applyGy · ev)) ha (fun _ => applyGy_attach ev) |>.of_ok hx
      obtain ⟨e₁, happly, hok⟩ := bind_eq_ok.mp hy
      cases hok
      exact ⟨ha', {}, by simp [step, EngineCall.op, happly, Bind.bind, Except.bind], hlog⟩
  | poll nowNs =>
      obtain ⟨ha', ems, hy, hlog⟩ := (pollWork_interp ha nowNs).of_ok hx
      exact ⟨ha', { emissions := ems },
        by simp [step, EngineCall.op, hy, Bind.bind, Except.bind], hlog⟩
  | drain nowNs =>
      obtain ⟨ha', ems, hy, hlog⟩ := (drainWork_interp ha nowNs).of_ok hx
      exact ⟨ha', { emissions := ems },
        by simp [step, EngineCall.op, hy, Bind.bind, Except.bind], hlog⟩

end Tallies

end MeterEngine
end GtpMeter
