import GtpMeter.DrainedUsage
import GtpMeter.RuntimeRefinement

/-!
# The books after a shutdown

A packet that the meter ring has accepted is counted by the engine, reported in a usage
record, and the record is popped by the reporter or by `stop`.  Along this way bytes can
go missing at one place only: the record ring may be full, and then `emit_record` counts
the record as dropped.  `drain` looks at bytes, so it is bytes that are balanced here;
see `DrainedUsage` for packets without payload.

**Results.**
* `BytesSettled`: no subscriber has unreported bytes.  So it is after a `drain`, and
  an installation keeps it.
* `shutdown_books_balance`: the bytes of the accepted events, of the records popped and of
  the records dropped, for all subscribers together and for each active one.
-/

namespace GtpMeter

open Runs SharedRing

namespace MeterEngine

open Billing

section Settled

variable {cfg : MeterConfig} {sink : RecordSink} {h : History} {e e' : MeterEngine} {idx : Nat}
  {op : MeterOp} {out : Answer} {nowNs : UInt64}

/-- No subscriber has bytes that are not reported. -/
def BytesSettled (e : MeterEngine) : Prop :=
  ∀ idx, (e.account idx).pending .ulBytes = 0 ∧ (e.account idx).pending .dlBytes = 0

/-- An operation of the control plane between two cycles. -/
def MeterOp.isInstall : MeterOp → Bool
  | .install _ _ => true
  | _ => false

theorem BytesSettled.reopen (hb : BytesSettled e) {opened : Option UInt64}
    (hacc : e'.account idx = (e.account idx).reopen 0 opened) :
    (e'.account idx).pending .ulBytes = 0 ∧ (e'.account idx).pending .dlBytes = 0 := by
  rw [hacc]
  cases opened with
  | none => exact hb idx
  | some t => exact ⟨sub_self _, sub_self _⟩

theorem BytesSettled.install (hb : BytesSettled e) (hm : Moves e op out e')
    (hinstall : op.isInstall = true) : BytesSettled e' := by
  cases hm with
  | refused _ => exact hb
  | modified _ _ hin | allocated _ _ _ hin => exact fun idx => hb.reopen (hin.account_eq idx)
  | _ => cases hinstall

theorem bytesSettled_drain (hmax : cfg.maxSubscribers.toNat ≤ 2 ^ 32)
    (hrun : Reaches cfg sink h e) (hstep : e.step (.drain nowNs) = .ok (e', out)) :
    BytesSettled e' := by
  have hafter : Reaches cfg sink (h ++ [⟨e, .drain nowNs, out, e'⟩]) e' := hrun.snoc hstep
  obtain ⟨e₁, ems, hdrain, hcnt, hinfo⟩ := drain_spec (reaches_indexed hrun) nowNs
  obtain ⟨r, hok, hret⟩ := bind_eq_ok.mp hstep
  rw [hdrain] at hok
  obtain rfl := Except.ok.inj hok
  obtain ⟨rfl, -⟩ := Prod.mk.inj (Except.ok.inj hret)
  intro idx
  cases hact : (e₁.info idx).active with
  | false =>
      rw [reaches_settled hmax hafter idx hact]
      exact ⟨rfl, rfl⟩
  | true =>
      have hnone := drainedInfo_noFinal (e.counters idx) (e.info idx) nowNs
      rw [← hinfo idx, ← hcnt] at hnone
      have hbytes : BytesReported (e₁.counters idx) (e₁.info idx) := by
        by_contra hno
        exact hnone ⟨hact, hno⟩
      exact ⟨sub_eq_zero.mpr hbytes.1, sub_eq_zero.mpr hbytes.2⟩

/-- After a history whose last call, installations apart, was `drain`. -/
theorem reaches_bytesSettled (hmax : cfg.maxSubscribers.toNat ≤ 2 ^ 32)
    (hrun : Reaches cfg sink h e)
    (hlast : ∀ op, ((h.map (fun tr => tr.op)).filter (fun op => !op.isInstall)).getLast? = some op →
      ∃ nowNs, op = .drain nowNs) : BytesSettled e := by
  induction hrun with
  | nil =>
      intro idx
      rw [init_account]
      exact ⟨sub_self _, sub_self _⟩
  | @snoc h e e' op out hprev hs ih =>
      rw [List.map_append, List.filter_append] at hlast
      cases hinstall : op.isInstall with
      | true =>
          refine (ih ?_).install (step_moves (reaches_indexed hprev).wf hs) hinstall
          simpa [hinstall] using hlast
      | false =>
          obtain ⟨nowNs, rfl⟩ := hlast op (by simp [hinstall])
          exact bytesSettled_drain hmax hprev hs

end Settled

section Sums

variable {cfg : MeterConfig} {sink : RecordSink} {h : History} {e e' : MeterEngine} {idx : Nat}
  {op : MeterOp} {out : Answer} {nowNs : UInt64}

/-- The bytes of a list of records in one direction. -/
def bytesIn (ch : Channel) (rs : List UsageRecord) : UInt64 :=
  (rs.map (fun r => r.usage ch)).sum

theorem usageOf_bytesIn (ems : List Emission) (ch : Channel) :
    usageOf ems ch = bytesIn ch (ems.map Emission.record) := by
  induction ems with
  | nil => rfl
  | cons em ems ih =>
      rw [usageOf_cons, Pi.add_apply, ih]
      simp [bytesIn]

theorem emitted_bytes (e : MeterEngine) (idx : Nat) (reason : RecordReason) (nowNs : UInt64) :
    (e.emitted idx reason nowNs).1.stats.bytes = e.stats.bytes := by
  rw [emitted_stats]
  cases (e.emitted idx reason nowNs).2.outcome <;> rfl

theorem EmitRun.bytes_eq {ems : List Emission} (hr : EmitRun nowNs e ems e') :
    e'.stats.bytes = e.stats.bytes := by
  induction hr with
  | nil => rfl
  | sweep cursor last _ ih => exact ih
  | emit reason _ _ _ _ ih => exact ih.trans (emitted_bytes _ _ reason nowNs)

/-- Every event that arrives is counted with its bytes. -/
theorem Moves.bytes_eq (hm : Moves e op out e') :
    e'.stats.bytes = e.stats.bytes + op.packet.elim 0 (fun ev => ev.bytes.toUInt64) := by
  cases hm with
  | modified _ _ hin | allocated _ _ _ hin =>
      cases hin
      exact (add_zero _).symm
  | @released imsi nowNs idx m hidx hlt hact hu =>
      exact (emitted_bytes e idx .release nowNs).trans (add_zero _).symm
  | control _ => rfl
  | @charged ev e₁ _ _ ha hc =>
      have harrived : e₁.stats.bytes = e.stats.bytes + ev.bytes.toUInt64 := by cases ha <;> rfl
      rcases hc with ⟨-, rfl⟩ | ⟨b, -, hm⟩
      · exact harrived
      · cases hm with
        | mk info slot hs fl fa fi fe hlt hslot =>
            refine Eq.trans ?_ harrived
            dsimp only [addTotals]
            split_ifs <;> rfl
  | polled hr | drained hr => exact hr.bytes_eq.trans (add_zero _).symm
  | _ => exact (add_zero _).symm

/-- The packets of a list of operations. -/
def packetBytes (evs : List MeterEvent) : UInt64 :=
  (evs.map (fun ev => ev.bytes.toUInt64)).sum

theorem reaches_bytes (hrun : Reaches cfg sink h e) :
    e.stats.bytes = packetBytes ((h.map (fun tr => tr.op)).filterMap MeterOp.packet) := by
  induction hrun with
  | nil => rfl
  | @snoc h e e' op out hprev hs ih =>
      rw [(step_moves (reaches_indexed hprev).wf hs).bytes_eq, ih]
      cases hp : op.packet <;> simp [packetBytes, hp]

/-- The records that the ring did not take. -/
def refusedRecords (ems : List Emission) : List UsageRecord :=
  (refused ems).map Emission.record

/-- What is billed, when nothing is pending. -/
theorem BytesSettled.traffic_eq (hb : BytesSettled e)
    (hmax : cfg.maxSubscribers.toNat ≤ 2 ^ 32) (hring : sink.ring.isSome)
    (hrun : Reaches cfg sink h e) {ch : Channel} (hch : ch = .ulBytes ∨ ch = .dlBytes) :
    e.stats.traffic ch = bytesIn ch (acceptedRecords (emissionsOf h)) +
      bytesIn ch (refusedRecords (emissionsOf h)) := by
  have hnone : e.pendingTotal ch = 0 := by
    unfold pendingTotal
    rw [Finset.sum_apply]
    refine Finset.sum_eq_zero (fun idx _ => ?_)
    rcases hch with rfl | rfl
    · exact (hb idx).1
    · exact (hb idx).2
  have hsplit := congrFun (usageOf_split ((reaches_sink hrun).1 hring).2) ch
  rw [Pi.add_apply, usageOf_bytesIn, usageOf_bytesIn] at hsplit
  rw [reaches_traffic hmax hrun (by rcases hch with rfl | rfl <;> simp), hnone, add_zero, ← hsplit]
  rfl

/-- The same for one subscriber in its present life. -/
theorem BytesSettled.life_eq (hb : BytesSettled e) (hring : sink.ring.isSome)
    (hrun : Reaches cfg sink h e) {l : Life} (hl : lifeOf idx h = some l) {ch : Channel}
    (hch : ch = .ulBytes ∨ ch = .dlBytes) :
    (e.counters idx).usage ch = bytesIn ch (acceptedRecords l.emissions) +
      bytesIn ch (refusedRecords l.emissions) := by
  have hsplit := congrFun (usageOf_split
    (fun em hem => ((reaches_sink hrun).1 hring).2 em (mem_emissionsOf hl hem))) ch
  rw [Pi.add_apply, usageOf_bytesIn, usageOf_bytesIn, usageOf_life hrun hl] at hsplit
  have hpending : (e.counters idx).usage ch - (e.info idx).emitted ch = 0 := by
    rcases hch with rfl | rfl
    · exact (hb idx).1
    · exact (hb idx).2
  rw [sub_eq_zero.mp hpending, ← hsplit]
  rfl

end Sums

end MeterEngine

open MeterEngine

namespace Runtime

variable {cfg : MeterConfig} {k₁ k₂ k₃ : Nat} {rt : Runtime MeterEngine} {meterBatch : UInt64}
  {wall : Nat → UInt64} {s₁ : UInt64 → MeterEvent} {s₂ : UInt64 → GyEvent}
  {s₃ : UInt64 → UsageRecord} {h : LifeTrace MeterEngine}

/-- Installations apart, the operations are the calls of the metering thread. -/
theorem opsOf_calls {E : Type} (h : LifeTrace E) :
    (opsOf h).filter (fun op => !op.isInstall) = (lifeJournal h).calls.map EngineCall.op := by
  induction h using List.reverseRecOn with
  | nil => rfl
  | append_singleton h tr ih =>
      obtain ⟨pre, op, out, post⟩ := tr
      unfold opsOf lifeJournal at ih ⊢
      rw [List.filterMap_append, List.filter_append, ih, List.foldl_append]
      cases out with
      | installed spec nowNs => simp [LifeOut.op, MeterOp.isInstall, Journal.enterLife]
      | started => simp [LifeOut.op, Journal.enterLife]
      | threads o =>
          cases o with
          | called c => cases c <;> simp [LifeOut.op, EngineCall.op, MeterOp.isInstall,
              Journal.enterLife, Journal.enter]
          | _ => simp [LifeOut.op, Journal.enterLife, Journal.enter]

/-- The packets among them are the events of the meter ring. -/
theorem opsOf_packets {E : Type} (h : LifeTrace E) :
    (opsOf h).filterMap MeterOp.packet = (lifeJournal h).calls.filterMap EngineCall.event := by
  have hcalls := congrArg (List.filterMap MeterOp.packet) (opsOf_calls h)
  rw [List.filterMap_filter, List.filterMap_map] at hcalls
  refine Eq.trans ?_ (hcalls.trans ?_)
  · congr 1
    funext op
    cases op <;> rfl
  · congr 1
    funext c
    cases c <;> rfl

/-- Whenever the threads are down, an engine by itself has come to the same state by the
same operations, and the records it has handed over are those popped.  Every byte that the
meter ring has accepted is in one of them, or in a record that the ring refused and that is
counted as dropped, or was counted for an unknown TEID.  The same holds of each direction,
and of each active subscriber with the records of its present life. -/
theorem shutdown_books_balance (hmax : cfg.maxSubscribers.toNat ≤ 2 ^ 32) (h₁ : k₁ < 64)
    (h₂ : k₂ < 64) (h₃ : k₃ < 64)
    (hrun : Run (Runtime.lifeStep meterCalls meterInstall meterBatch)
      (assembledMeter cfg wall k₁ k₂ k₃ s₁ s₂ s₃) h rt)
    (hstopped : rt.ingest = .stopped)
    (hctl : ∀ ev ∈ (lifeJournal h).meterIn, ev.isControl = true → ev.bytes = 0) :
    ∃ (pops : Nat → Nat) (hist : History) (e : MeterEngine),
      Reaches cfg (ringSink k₃ s₃ wall pops) hist e ∧ rt.engine.attach e.sink = e ∧
      opsOf h = hist.map (fun tr => tr.op) ∧
      (lifeJournal h).recordOut = acceptedRecords (emissionsOf hist) ∧
      rt.engine.stats.recordsDropped =
        UInt64.ofNat (refusedRecords (emissionsOf hist)).length ∧
      rt.engine.stats.ulBytes = bytesIn .ulBytes (lifeJournal h).recordOut +
        bytesIn .ulBytes (refusedRecords (emissionsOf hist)) ∧
      rt.engine.stats.dlBytes = bytesIn .dlBytes (lifeJournal h).recordOut +
        bytesIn .dlBytes (refusedRecords (emissionsOf hist)) ∧
      packetBytes (lifeJournal h).meterIn = rt.engine.stats.unknownTeidBytes +
        rt.engine.stats.ulBytes + rt.engine.stats.dlBytes ∧
      ∀ idx, (rt.engine.info idx).active = true → ∃ l, lifeOf idx hist = some l ∧
        (rt.engine.counters idx).ulBytes = bytesIn .ulBytes (acceptedRecords l.emissions) +
          bytesIn .ulBytes (refusedRecords l.emissions) ∧
        (rt.engine.counters idx).dlBytes = bytesIn .dlBytes (acceptedRecords l.emissions) +
          bytesIn .dlBytes (refusedRecords l.emissions) := by
  have hidle := (life_cycled h₁ h₂ h₃ hrun).down hstopped
  obtain ⟨pops, taken, hist, t₀, t, log, hf⟩ := (life_linear h₁ h₂ h₃ hrun).follows
  have hcurrent := hf.current
  rw [hidle.meter] at hcurrent
  obtain ⟨-, rfl, hops⟩ := hcurrent
  have hrecords : (lifeJournal h).recordOut = acceptedRecords (emissionsOf hist) := by
    rw [← hidle.recordAll, hf.records, List.append_nil]
  have hring : (ringSink k₃ s₃ wall pops).ring.isSome := rfl
  have hreach : Reaches cfg (ringSink k₃ s₃ wall pops) hist (rt.engine.attach t₀) := hf.reaches
  have hpackets : (hist.map (fun tr => tr.op)).filterMap MeterOp.packet =
      (lifeJournal h).meterIn := by
    rw [← hops, opsOf_packets, ← hidle.applied, hidle.meterAll]
  have hsettled : BytesSettled (rt.engine.attach t₀) := by
    refine reaches_bytesSettled hmax hreach ?_
    intro op hlast
    rw [← hops, opsOf_calls, List.getLast?_map] at hlast
    obtain ⟨c, hc, rfl⟩ := Option.map_eq_some_iff.mp hlast
    cases c with
    | drain nowNs => exact ⟨nowNs, rfl⟩
    | _ => simpa [EngineCall.isDrain] using hidle.drained _ hc
  have hexcess : byteExcess rt.engine.stats = 0 := by
    refine (reaches_excess hreach ?_).2
    intro tr htr ev hop
    refine hctl ev ?_
    rw [← hpackets]
    exact List.mem_filterMap.mpr ⟨tr.op, List.mem_map_of_mem htr, by rw [hop]; rfl⟩
  refine ⟨pops, hist, _, hreach, rfl, hops, hrecords, ?_, ?_, ?_, ?_, ?_⟩
  · rw [refusedRecords, List.length_map]
    exact (reaches_sink hreach).2
  · rw [hrecords]
    exact hsettled.traffic_eq hmax hring hreach (.inl rfl)
  · rw [hrecords]
    exact hsettled.traffic_eq hmax hring hreach (.inr rfl)
  · rw [← hpackets, ← reaches_bytes hreach]
    exact sub_eq_zero.mp hexcess
  · intro idx hact
    have hactive : ((rt.engine.attach t₀).info idx).active = true := hact
    obtain ⟨l, hl⟩ := life_of_active hreach hactive
    exact ⟨l, hl, hsettled.life_eq hring hreach hl (.inl rfl),
      hsettled.life_eq hring hreach hl (.inr rfl)⟩

/-- Two packets of 150 bytes in two cycles, for one subscriber. -/
theorem shutdown_books_balance_twice :
    ∃ (h : LifeTrace MeterEngine) (rt : Runtime MeterEngine) (hist : History) (l : Life),
      Run (Runtime.lifeStep meterCalls meterInstall 256) smallAssembled h rt ∧
      opsOf h = hist.map (fun tr => tr.op) ∧ hist.length = 10 ∧
      bytesIn .ulBytes (lifeJournal h).recordOut +
        bytesIn .ulBytes (refusedRecords (emissionsOf hist)) = 150 ∧
      lifeOf 0 hist = some l ∧
      (rt.engine.counters 0).ulBytes = bytesIn .ulBytes (acceptedRecords l.emissions) +
        bytesIn .ulBytes (refusedRecords l.emissions) := by
  obtain ⟨h, rt, hrun, hstopped, -, hplain, hlen, hbytes, hactive⟩ := two_cycles
  obtain ⟨pops, hist, e, -, -, hops, -, -, hul, -, -, hmine⟩ :=
    shutdown_books_balance (by decide) (by decide) (by decide) (by decide) hrun hstopped
      (fun ev hev hctl => by simp [hplain ev hev] at hctl)
  obtain ⟨l, hl, hlife, -⟩ := hmine 0 hactive
  rw [hops, List.length_map] at hlen
  exact ⟨h, rt, hist, l, hrun, hops, hlen, hul.symm.trans hbytes, hl, hlife⟩

end Runtime
end GtpMeter
