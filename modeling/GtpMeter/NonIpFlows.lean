import GtpMeter.FailedLearning
import GtpMeter.FlowTable
import GtpMeter.IngestCharging

/-!
# Packets that are not IP and the flow table

For a G-PDU whose payload is not IP, `process_gtpu` leaves the flow key at zero so that
no flow is made up for it.  The flow table stores flows under keys other than zero, and
`update_flow` replaces a zero key by one, so that all these packets together make up the
flow with key one.

**Result.**
* `nonIp_packet_flowless_iff`: when such a packet leaves the flow table alone.
-/

namespace GtpMeter

open FlatHashU32 (Wf)

section Events

variable {cfg : IngestConfig} {h : GtpuHeader} {inner : IpPacket} {tsNs : UInt64}
  {wireBytes : UInt16} {v : FrameVerdict} {ev : MeterEvent} {ing : Ingest} {pdu : Span}

/-- The event of a verdict is what `process_gtpu` pushes. -/
theorem processGtpu_pushes (hverdict : gtpuVerdict pdu = .ok v)
    (hev : v.event ing.cfg tsNs wireBytes = some ev) :
    ∃ stats outcome, ing.processGtpu pdu tsNs wireBytes =
      .ok (({ ing with stats } : Ingest).finish ev outcome) := by
  rw [Ingest.processGtpu_eq, hverdict]
  obtain ⟨h, rfl, rfl⟩ | ⟨h, inner, rfl, rfl⟩ := FrameVerdict.event_cases hev
  · exact ⟨_, _, rfl⟩
  · exact ⟨_, _, rfl⟩

/-- A flag that was set is set. -/
theorem or_and_flag (flags flag : UInt8) : (flags ||| flag) &&& flag = flag := by
  apply UInt8.toBitVec_inj.mp
  ext i hi
  simp +contextual

theorem innerEvent_innerParsed (cfg : IngestConfig) (ev : MeterEvent) (inner : IpPacket)
    (n : Nat) : (Ingest.innerEvent cfg ev inner n).innerParsed = true := by
  unfold MeterEvent.innerParsed Ingest.innerEvent
  dsimp only
  split_ifs
  · rw [UInt8.or_assoc, UInt8.or_comm MeterEvent.kFlagInnerParsed, ← UInt8.or_assoc, or_and_flag]
    decide
  · rw [or_and_flag]
    decide

theorem headerEvent_flowKey : (Ingest.headerEvent cfg h tsNs wireBytes).flowKey = 0 := by
  unfold Ingest.headerEvent
  split_ifs <;> rfl

/-- An event without a parsed packet has no flow key. -/
theorem flowKey_of_unparsed (hev : v.event cfg tsNs wireBytes = some ev)
    (hclear : ev.innerParsed = false) : ev.flowKey = 0 := by
  obtain ⟨h, rfl, rfl⟩ | ⟨h, inner, rfl, rfl⟩ := FrameVerdict.event_cases hev
  · exact headerEvent_flowKey
  · unfold gpduEvent at hclear ⊢
    dsimp only at hclear ⊢
    split_ifs at hclear ⊢
    · rw [innerEvent_innerParsed] at hclear
      cases hclear
    · exact headerEvent_flowKey

end Events

namespace MeterEngine

variable {cfg : MeterConfig} {sink : RecordSink} {h : History} {e e' : MeterEngine}
  {tsNs : UInt64} {wireBytes : UInt16} {v : FrameVerdict} {ev : MeterEvent} {pdu : Span}

section Flowless

theorem flowPacket_none_iff {out : Answer} :
    flowPacket ⟨e, .apply ev, out, e'⟩ = none ↔
      ev.isControl = true ∨ e'.bindingOf ev.teid = none := by
  unfold flowPacket MeterOp.packet
  dsimp only
  split_ifs with hctl
  · simp [hctl]
  · simp [hctl]

/-- Without flow tracking no packet reaches the table. -/
theorem apply_flowTable_of_untracked (hw : Wf hashU32 e.teidMap) (hcount : e.flowCount = 0)
    (h : e.apply ev = .ok e') : e'.flowTable = e.flowTable := by
  rcases apply_treated hw h with ⟨_, rfl⟩ | ⟨_, e₁, harr, ⟨_, rfl⟩ | ⟨b, _, hmeter⟩⟩
  · rfl
  · exact harr.flowTable_eq
  · obtain ⟨e₂, heq, htrack⟩ := meterPacket_trackFlow hmeter
    have htable : e₂.flowTable = e.flowTable := heq.trans harr.flowTable_eq
    have hzero : e₂.flowCount = 0 := (congrArg FlowTable.count htable).trans hcount
    rw [trackFlow, if_pos hzero] at htrack
    obtain rfl := Except.ok.inj htrack
    exact htable

/-- Whether there is a packet for the flow table, from the state before the call. -/
theorem flowPacket_apply_none_iff (hrun : Reaches cfg sink h e) (hap : e.apply ev = .ok e')
    (out : Answer) : flowPacket ⟨e, .apply ev, out, e'⟩ = none ↔
      ev.isControl = true ∨ e.StaysUnbound ev := by
  have hi := reaches_indexed hrun
  rw [flowPacket_none_iff]
  cases hctl : ev.isControl with
  | true => simp
  | false => rw [apply_unbound_iff hi.wf hi.next_le hctl hap]

/-- A call that brings a packet changes the table if there is one. -/
theorem apply_flowTable_eq_iff (hrun : Reaches cfg sink h e) (hap : e.apply ev = .ok e') :
    e'.flowTable = e.flowTable ↔
      ev.isControl = true ∨ e.StaysUnbound ev ∨ cfg.trackFlows = false := by
  have hw := (reaches_indexed hrun).wf
  have hs : e.step (.apply ev) = .ok (e', {}) := Runs.bind_eq_ok.mpr ⟨e', hap, rfl⟩
  cases htrack : cfg.trackFlows with
  | false =>
      have hcount : e.flowCount = 0 := by
        rw [reaches_flowCount hrun]
        simp [init, htrack]
      simp [apply_flowTable_of_untracked hw hcount hap]
  | true =>
      have hadv := step_advances hw (reaches_flowTable htrack hrun) hs
      rw [← or_assoc, ← flowPacket_apply_none_iff hrun hap {}]
      cases hp : flowPacket ⟨e, .apply ev, {}, e'⟩ with
      | none =>
          rw [hp] at hadv
          simp [hadv.eq_of_none]
      | some p =>
          rw [hp] at hadv
          simp [hadv.updated.ne]

/-- **Packets that are not IP.**  An event that `process_gtpu` pushes without a parsed
packet has flow key zero and is charged like any other.  It leaves the flow table alone
exactly if it is a control message, if its TEID is unknown and cannot be learned, or if no
flows are tracked. -/
theorem nonIp_packet_flowless_iff (ing : Ingest) (hverdict : gtpuVerdict pdu = .ok v)
    (hev : v.event ing.cfg tsNs wireBytes = some ev) (hclear : ev.innerParsed = false)
    (hrun : Reaches cfg sink h e) (hap : e.apply ev = .ok e') :
    (∃ stats outcome, ing.processGtpu pdu tsNs wireBytes =
      .ok (({ ing with stats } : Ingest).finish ev outcome)) ∧
    ev.flowKey = 0 ∧
    (ev.isControl = false → ¬e.StaysUnbound ev →
      ∃ e₁ b, Arrived e ev e₁ ∧ e₁.bindingOf ev.teid = some b ∧ Metered e₁ ev b e') ∧
    (e'.flowTable = e.flowTable ↔
      ev.isControl = true ∨ e.StaysUnbound ev ∨ cfg.trackFlows = false) := by
  refine ⟨processGtpu_pushes hverdict hev, flowKey_of_unparsed hev hclear, ?_,
    apply_flowTable_eq_iff hrun hap⟩
  intro hctl hbinds
  have hi := reaches_indexed hrun
  rcases apply_cases hi.wf hap with ⟨hcontrol, _⟩ | ⟨_, e₁, harr, hc⟩
  · rw [hctl] at hcontrol
    cases hcontrol
  · rw [← apply_unbound_iff hi.wf hi.next_le hctl hap, hc.sameSessions.bindingOf_eq] at hbinds
    rcases hc with ⟨hnone, _⟩ | ⟨b, hb, hmetered⟩
    · exact absurd hnone hbinds
    · exact ⟨e₁, b, harr, hb, hmetered⟩

/-- A G-PDU for TEID 100 whose payload is four zero bytes. -/
def nonIpPdu : List UInt8 :=
  [0x30, 0xFF, 0, 4, 0, 0, 0, 100, 0, 0, 0, 0]

/-- The event of that PDU. -/
def nonIpEvent : MeterEvent :=
  { tsNs := 7, teid := 100, bytes := 4, msgType := 0xFF, wireBytes := 50 }

/-- A packet that is not IP sets up a flow with key one. -/
theorem nonIp_packet_inserts_flow :
    Runs.returnsWith (({ meterRing := some (.init 2) } : Ingest).processGtpu
        (.whole nonIpPdu) 7 50)
        (fun r => decide (r.2 = .metered ∧ firstCharge r = some nonIpEvent)) = true ∧
      nonIpEvent.innerParsed = false ∧
      ∃ h e e', Reaches twoFlows noSink h e ∧ e.apply nonIpEvent = .ok e' ∧
        (e'.counters 0).ulBytes = 4 ∧ e.stats.flowInserts = 0 ∧ e'.stats.flowInserts = 1 ∧
        (e'.flows 1).key = 1 ∧ (e'.flows 1).bytes = 4 := by
  refine ⟨by decide +kernel, by decide, ?_⟩
  have hex : Runs.execCheck step (init twoFlows noSink) [.install { imsi := 1, ulTeid := 100 } 0]
      (fun _ e => decide (e.stats.flowInserts = 0) &&
        Runs.returnsWith (e.apply nonIpEvent) (fun e' => decide ((e'.counters 0).ulBytes = 4 ∧
          e'.stats.flowInserts = 1 ∧ (e'.flows 1).key = 1 ∧ (e'.flows 1).bytes = 4))) = true := by
    decide +kernel
  obtain ⟨h, e, hrun, hcheck⟩ := Runs.Run.of_execCheck hex
  rw [Bool.and_eq_true, decide_eq_true_eq] at hcheck
  obtain ⟨hnone, hafter⟩ := hcheck
  obtain ⟨e', hap, hflows⟩ := Runs.returnsWith_iff.mp hafter
  obtain ⟨hbytes, hinsert, hkey, hflow⟩ := of_decide_eq_true hflows
  exact ⟨h, e, e', hrun, hap, hbytes, hnone, hinsert, hkey, hflow⟩

/-- The same packet in an engine without flow tracking. -/
theorem nonIp_packet_flowless_iff_untracked :
    ∃ v h e e', gtpuVerdict (.whole nonIpPdu) = .ok v ∧
      v.event {} 7 50 = some nonIpEvent ∧ Reaches smallConfig noSink h e ∧
      e.apply nonIpEvent = .ok e' ∧ (e'.counters 0).ulBytes = 4 ∧ e'.flowTable = e.flowTable := by
  have hpdu : Runs.returnsWith (gtpuVerdict (.whole nonIpPdu))
      (fun v => decide (v.event {} 7 50 = some nonIpEvent)) = true := by
    decide +kernel
  obtain ⟨v, hverdict, hev⟩ := Runs.returnsWith_iff.mp hpdu
  have hevent : v.event {} 7 50 = some nonIpEvent := of_decide_eq_true hev
  have hex : Runs.execCheck step (init smallConfig noSink)
      [.install { imsi := 1, ulTeid := 100 } 0]
      (fun _ e => Runs.returnsWith (e.apply nonIpEvent)
        (fun e' => decide ((e'.counters 0).ulBytes = 4))) = true := by
    decide +kernel
  obtain ⟨h, e, hrun, hcheck⟩ := Runs.Run.of_execCheck hex
  obtain ⟨e', hap, hbytes⟩ := Runs.returnsWith_iff.mp hcheck
  have hflows := nonIp_packet_flowless_iff {} hverdict hevent (by decide) hrun hap
  exact ⟨v, h, e, e', hverdict, hevent, hrun, hap, of_decide_eq_true hbytes,
    hflows.2.2.2.mpr (.inr (.inr rfl))⟩

end Flowless

end MeterEngine

end GtpMeter
