import GtpMeter.BindingSoundness

/-!
# Packets whose TEID cannot be learned

With learning on, `apply` hands a packet on an unbound TEID to `learn_teid`.  If the
subscriber table is full, `learn_teid` does nothing.  If only the TEID table is full, it
has already taken a subscriber index, opened the subscriber and counted it when the bind
fails, and it takes nothing back.  The packet counts as unknown in both cases.

**Results.**
* `apply_unlearned`: what one such packet leaves behind.
* `apply_unbound_iff`: whether a packet leaves its TEID unbound.
* `exec_unlearned`: the same as `apply_unlearned` for any number of packets; the indices
  they take add up until the subscriber table is full.
* `failed_learning_free_iff`: when they consume nothing.
-/

namespace GtpMeter
namespace MeterEngine

open FlatHashU32 Runs

variable {cfg : MeterConfig} {sink : RecordSink} {h : History} {e e₁ e' : MeterEngine}
  {ev : MeterEvent}

section OnePacket

/-- One of the tables has no room for the TEID of an event.  The marker key of the TEID
table has a place of its own there. -/
def Unlearnable (e : MeterEngine) (ev : MeterEvent) : Prop :=
  e.tableSize ≤ e.nextSub ∨ (ev.teid ≠ kEmptyKey ∧ e.teidMap.size = e.teidMap.capacity)

instance (e : MeterEngine) (ev : MeterEvent) : Decidable (Unlearnable e ev) :=
  inferInstanceAs (Decidable (_ ∨ _))

/-- The state apart from the counters that an event may move without being charged and
the hash probe statistics. -/
def withoutEventCounts (e : MeterEngine) : MeterEngine :=
  { e with
    teidMap := e.teidMap.quiet
    stats := { e.stats with
      events := 0
      bytes := 0
      lastEventNs := 0
      controlPdus := 0
      unknownTeidEvents := 0
      unknownTeidBytes := 0
      teidBindFailures := 0 } }

/-- `learn_teid` when the bind fails: the new subscriber stays. -/
theorem learnTeid_refused (hw : Wf hashU32 e.teidMap) (hroom : e.nextSub < e.tableSize)
    (hk : ev.teid ≠ kEmptyKey) (hfull : e.teidMap.size = e.teidMap.capacity) :
    ∃ f, e.learnTeid ev = (e.learnedState ev e.teidMap f, none) := by
  obtain ⟨m, f, ok, hb, hlearn⟩ := learnTeid_binds ev hw hroom
  obtain rfl : ok = false := hb.refused_iff.mpr ⟨trivial, hk, hfull⟩
  obtain rfl : m = e.teidMap := hb.refused rfl
  exact ⟨f, hlearn⟩

theorem apply_control (hctl : ev.isControl = true) :
    e.apply ev = .ok { e.countEvent ev with
      stats := { (e.countEvent ev).stats with controlPdus := e.stats.controlPdus + 1 } } := by
  unfold apply
  dsimp only
  rw [if_pos hctl]
  rfl

/-- A packet on an unbound TEID after its lookup. -/
theorem apply_unbound (hdata : ev.isControl = false) (hunbound : e.bindingOf ev.teid = none) :
    ∃ e₀ : MeterEngine, e₀.cfg = e.cfg ∧ e₀.nextSub = e.nextSub ∧
      e₀.teidMap.quiet = e.teidMap.quiet ∧
      e₀.withoutEventCounts = e.withoutEventCounts ∧ e.apply ev = e₀.applyUnbound ev := by
  have hfound : (find hashU32 (e.countEvent ev).teidMap ev.teid).1 = none := hunbound
  have hq : (find hashU32 (e.countEvent ev).teidMap ev.teid).2.quiet = e.teidMap.quiet :=
    find_table
  refine ⟨{ e.countEvent ev with
    teidMap := (find hashU32 (e.countEvent ev).teidMap ev.teid).2 }, rfl, rfl, hq, ?_, ?_⟩
  · simp only [withoutEventCounts, countEvent] at hq ⊢
    rw [hq]
  · unfold apply
    dsimp only
    rw [if_neg (by simp [hdata]), hfound]

/-- If nothing comes of `learn_teid`, the packet counts as unknown. -/
theorem applyUnbound_refused (hlearn : e.cfg.learnUnknownTeids = true)
    (hrefused : e.learnTeid ev = (e₁, none)) :
    e.applyUnbound ev = .ok (e₁.countUnknown ev) := by
  unfold applyUnbound
  rw [if_neg (by simp [hlearn]), hrefused]

/-- What `n` events that could not be learned, control messages not counted, leave of the
engine. -/
structure Unlearned (e : MeterEngine) (n : Nat) (e' : MeterEngine) : Prop where
  cfg_eq : e'.cfg = e.cfg
  quiet_eq : e'.teidMap.quiet = e.teidMap.quiet
  next_eq : e'.nextSub = min e.tableSize (e.nextSub + n)
  same : n = 0 ∨ e.tableSize ≤ e.nextSub → e'.withoutEventCounts = e.withoutEventCounts

theorem Unlearned.refl (hle : e.nextSub ≤ e.tableSize) : Unlearned e 0 e where
  cfg_eq := rfl
  quiet_eq := rfl
  next_eq := (Nat.min_eq_right hle).symm
  same := fun _ => rfl

theorem Unlearned.tableSize_eq {n : Nat} (hu : Unlearned e n e') : e'.tableSize = e.tableSize :=
  congrArg (fun c : MeterConfig => c.maxSubscribers.toNat) hu.cfg_eq

theorem Unlearned.bindingOf_eq {n : Nat} (hu : Unlearned e n e') (t : UInt32) :
    e'.bindingOf t = e.bindingOf t :=
  lookup_congr hu.quiet_eq

theorem Unlearned.trans {n k : Nat} (hu : Unlearned e n e₁) (hu' : Unlearned e₁ k e') :
    Unlearned e (n + k) e' where
  cfg_eq := hu'.cfg_eq.trans hu.cfg_eq
  quiet_eq := hu'.quiet_eq.trans hu.quiet_eq
  next_eq := by
    rw [hu'.next_eq, hu.next_eq, hu.tableSize_eq]
    omega
  same := by
    intro hfree
    have hnext := hu.next_eq
    have hsize := hu.tableSize_eq
    refine (hu'.same ?_).trans (hu.same ?_)
    · rcases hfree with hzero | hfull
      · exact .inl (by omega)
      · exact .inr (by omega)
    · exact hfree.imp_left (fun hzero => by omega)

/-- What stays unlearnable once it is. -/
theorem Unlearned.unlearnable {n : Nat} (hu : Unlearned e n e') (hun : Unlearnable e ev) :
    Unlearnable e' ev := by
  have hnext := hu.next_eq
  have hsize := hu.tableSize_eq
  rcases hun with hfull | ⟨hk, hfull⟩
  · exact .inl (by omega)
  · have hcount : e'.teidMap.quiet.size = e.teidMap.quiet.size :=
      congrArg FlatHashU32.size hu.quiet_eq
    have hcap : e'.teidMap.quiet.capacity = e.teidMap.quiet.capacity :=
      congrArg FlatHashU32.capacity hu.quiet_eq
    exact .inr ⟨hk, hcount.trans (hfull.trans hcap.symm)⟩

/-- The number of events that are no control messages. -/
def dataPackets (evs : List MeterEvent) : Nat :=
  evs.countP (fun ev => !ev.isControl)

theorem dataPackets_eq_zero_iff {evs : List MeterEvent} :
    dataPackets evs = 0 ↔ ∀ ev ∈ evs, ev.isControl = true := by
  simp [dataPackets, List.countP_eq_zero]

theorem dataPackets_cons (ev : MeterEvent) (evs : List MeterEvent) :
    dataPackets (ev :: evs) = dataPackets [ev] + dataPackets evs := by
  simp [dataPackets, List.countP_cons, Nat.add_comm]

theorem apply_unlearned (hw : Wf hashU32 e.teidMap) (hle : e.nextSub ≤ e.tableSize)
    (hlearn : e.cfg.learnUnknownTeids = true) (hunbound : e.bindingOf ev.teid = none)
    (hun : Unlearnable e ev) :
    ∃ e', e.apply ev = .ok e' ∧ Unlearned e (dataPackets [ev]) e' := by
  cases hctl : ev.isControl with
  | true =>
      have hzero : dataPackets [ev] = 0 := by simp [dataPackets, hctl]
      rw [hzero]
      exact ⟨_, apply_control hctl, rfl, rfl, (Nat.min_eq_right hle).symm, fun _ => rfl⟩
  | false =>
      have hone : dataPackets [ev] = 1 := by simp [dataPackets, hctl]
      rw [hone]
      obtain ⟨e₀, hcfg, hnext, hq, hsame, happly⟩ := apply_unbound hctl hunbound
      have hsize : e₀.tableSize = e.tableSize := by rw [tableSize, tableSize, hcfg]
      rw [happly]
      by_cases hfull : e.tableSize ≤ e.nextSub
      · have hrefused : e₀.learnTeid ev = (e₀, none) :=
          if_pos (show e₀.nextSub ≥ e₀.tableSize by rw [hnext, hsize]; exact hfull)
        refine ⟨_, applyUnbound_refused (hcfg ▸ hlearn) hrefused, hcfg, hq, ?_, fun _ => hsame⟩
        show e₀.nextSub = _
        omega
      · obtain ⟨hk, hteids⟩ := hun.resolve_left hfull
        have hteids₀ : e₀.teidMap.size = e₀.teidMap.capacity := by
          have hcount : e₀.teidMap.quiet.size = e.teidMap.quiet.size := by rw [hq]
          have hcap : e₀.teidMap.quiet.capacity = e.teidMap.quiet.capacity := by rw [hq]
          exact hcount.trans (hteids.trans hcap.symm)
        obtain ⟨f, hrefused⟩ := learnTeid_refused (hw.congr hq)
          (show e₀.nextSub < e₀.tableSize by rw [hnext, hsize]; exact Nat.not_le.mp hfull)
          hk hteids₀
        refine ⟨_, applyUnbound_refused (hcfg ▸ hlearn) hrefused, hcfg, hq, ?_, ?_⟩
        · show e₀.nextSub + 1 = _
          omega
        · rintro (hno | hno)
          · cases hno
          · exact absurd hno hfull

/-- The TEID has no binding before a packet on it, and the packet does not bring one. -/
def StaysUnbound (e : MeterEngine) (ev : MeterEvent) : Prop :=
  e.bindingOf ev.teid = none ∧ (e.cfg.learnUnknownTeids = false ∨ Unlearnable e ev)

theorem Arrived.bindingOf_eq (ha : Arrived e ev e₁) (hlearns : ¬Learns e ev) (t : UInt32) :
    e₁.bindingOf t = e.bindingOf t := by
  cases ha with
  | found m hq => exact lookup_congr hq
  | learned m f ok hnone hlearn hroom => exact absurd ⟨hnone, hlearn, hroom⟩ hlearns

/-- A packet whose TEID can be learned leaves it bound. -/
theorem apply_learned (hw : Wf hashU32 e.teidMap) (hdata : ev.isControl = false)
    (hlearns : Learns e ev) (hun : ¬Unlearnable e ev) (hap : e.apply ev = .ok e') :
    e'.bindingOf ev.teid ≠ none := by
  obtain ⟨hunbound, hlearn, hroom⟩ := hlearns
  obtain ⟨e₀, hcfg, hnext, hq, -, happly⟩ := apply_unbound hdata hunbound
  have hcount : e₀.teidMap.quiet.size = e.teidMap.quiet.size := by rw [hq]
  have hcap : e₀.teidMap.quiet.capacity = e.teidMap.quiet.capacity := by rw [hq]
  obtain ⟨m, f, ok, hb, hlearned⟩ := learnTeid_binds ev (hw.congr hq)
    (show e₀.nextSub < e₀.tableSize by rw [hnext, tableSize, hcfg]; exact hroom)
  obtain rfl : ok = true := by
    by_contra hrefused
    obtain ⟨-, hk, hfull⟩ := hb.refused_iff.mp (Bool.eq_false_iff.mpr hrefused)
    exact hun (.inr ⟨hk, hcount.symm.trans (hfull.trans hcap)⟩)
  have hbound := (hb.lookup_eq ev.teid).1 ⟨trivial, rfl, rfl⟩
  rw [happly, applyUnbound, if_neg (by simp [hcfg, hlearn]), hlearned, if_pos rfl, hbound] at hap
  have hbinding : (e₀.learnedState ev (find hashU32 m ev.teid).2 f).bindingOf ev.teid = some _ :=
    (lookup_congr find_table).trans hbound
  have hcharged : Charged _ ev e' := .inr ⟨_, hbinding, meterPacket_ok hap⟩
  rw [hcharged.sameSessions.bindingOf_eq, hbinding]
  exact Option.some_ne_none _

/-- What the engine holds before a packet decides whether its TEID is bound after it. -/
theorem apply_unbound_iff (hw : Wf hashU32 e.teidMap) (hle : e.nextSub ≤ e.tableSize)
    (hdata : ev.isControl = false) (hap : e.apply ev = .ok e') :
    e'.bindingOf ev.teid = none ↔ e.StaysUnbound ev := by
  by_cases hlearns : Learns e ev
  · have hstays : e.StaysUnbound ev ↔ Unlearnable e ev := by
      simp [StaysUnbound, hlearns.1, hlearns.2.1]
    rw [hstays]
    by_cases hun : Unlearnable e ev
    · obtain ⟨e₁, hap₁, hu⟩ := apply_unlearned hw hle hlearns.2.1 hlearns.1 hun
      obtain rfl := Except.ok.inj (hap.symm.trans hap₁)
      exact iff_of_true ((hu.bindingOf_eq _).trans hlearns.1) hun
    · exact iff_of_false (apply_learned hw hdata hlearns hun hap) hun
  · rcases apply_cases hw hap with ⟨hctl, -⟩ | ⟨-, e₁, harr, hc⟩
    · simp [hdata] at hctl
    · rw [hc.sameSessions.bindingOf_eq, harr.bindingOf_eq hlearns]
      refine ⟨fun hnone => ⟨hnone, ?_⟩, fun h => h.1⟩
      cases hlearn : e.cfg.learnUnknownTeids with
      | false => exact .inl rfl
      | true => exact .inr (.inl (Nat.not_lt.mp fun hroom => hlearns ⟨hnone, hlearn, hroom⟩))

end OnePacket

section AnyNumber

theorem Unlearned.next_le {n : Nat} (hu : Unlearned e n e') : e'.nextSub ≤ e'.tableSize := by
  rw [hu.next_eq, hu.tableSize_eq]
  exact Nat.min_le_left _ _

/-- Each packet takes what is left of the subscriber table by one. -/
theorem exec_unlearned (hw : Wf hashU32 e.teidMap) (hle : e.nextSub ≤ e.tableSize)
    (hlearn : e.cfg.learnUnknownTeids = true) {evs : List MeterEvent}
    (hevs : ∀ ev ∈ evs, e.bindingOf ev.teid = none ∧ Unlearnable e ev) :
    ∃ h' e', exec step e (evs.map .apply) = .ok (h', e') ∧ Unlearned e (dataPackets evs) e' := by
  induction evs generalizing e with
  | nil => exact ⟨[], e, rfl, .refl hle⟩
  | cons ev evs ih =>
      obtain ⟨hunbound, hun⟩ := hevs ev List.mem_cons_self
      obtain ⟨e₁, happly, hu⟩ := apply_unlearned hw hle hlearn hunbound hun
      have hrest : ∀ ev ∈ evs, e₁.bindingOf ev.teid = none ∧ Unlearnable e₁ ev := by
        intro ev' hev'
        obtain ⟨hunbound', hun'⟩ := hevs ev' (List.mem_cons_of_mem _ hev')
        exact ⟨(hu.bindingOf_eq _).trans hunbound', hu.unlearnable hun'⟩
      obtain ⟨h', e', hexec, hu'⟩ :=
        ih (hw.congr hu.quiet_eq) hu.next_le (hu.cfg_eq ▸ hlearn) hrest
      have hstep : e.step (.apply ev) = .ok (e₁, {}) := by
        rw [step, happly]
        rfl
      refine ⟨⟨e, .apply ev, {}, e₁⟩ :: h', e', ?_, ?_⟩
      · rw [List.map_cons, exec, hstep]
        dsimp only
        rw [hexec]
      · rw [dataPackets_cons]
        exact hu.trans hu'

/-- **A TEID that cannot be learned.**  Any number of packets whose TEIDs cannot be learned
leave the bindings as they were, and each takes a subscriber index as long as there is one.
So they consume nothing exactly if the subscriber table is full already (or if they are all
control messages, which are not looked up). -/
theorem failed_learning_free_iff (hrun : Reaches cfg sink h e)
    (hlearn : e.cfg.learnUnknownTeids = true) (evs : List MeterEvent)
    (hevs : ∀ ev ∈ evs, e.bindingOf ev.teid = none ∧ Unlearnable e ev) :
    ∃ h' e', exec step e (evs.map .apply) = .ok (h', e') ∧
      (∀ t, e'.bindingOf t = e.bindingOf t) ∧
      e'.nextSub = min e.tableSize (e.nextSub + dataPackets evs) ∧
      (e'.withoutEventCounts = e.withoutEventCounts ↔
        (∀ ev ∈ evs, ev.isControl = true) ∨ e.tableSize ≤ e.nextSub) := by
  have hi := reaches_indexed hrun
  obtain ⟨h', e', hexec, hu⟩ := exec_unlearned hi.wf hi.next_le hlearn hevs
  refine ⟨h', e', hexec, hu.bindingOf_eq, hu.next_eq, ?_⟩
  rw [← dataPackets_eq_zero_iff]
  constructor
  · intro hsame
    have hnext : e'.withoutEventCounts.nextSub = e.withoutEventCounts.nextSub := by rw [hsame]
    replace hnext : e'.nextSub = e.nextSub := hnext
    have hmin := hu.next_eq
    omega
  · exact hu.same

/-- An engine that learns, with room for one subscriber. -/
def oneSubscriber : MeterConfig :=
  { smallConfig with maxSubscribers := 1, learnUnknownTeids := true }

/-- Two packets on unknown TEIDs while the subscriber table is full. -/
theorem failed_learning_free_iff_full :
    ∃ h e h' e', Reaches oneSubscriber noSink h e ∧
      exec step e ([{ teid := 7, bytes := 10 }, { teid := 8, bytes := 20 }].map .apply) =
        .ok (h', e') ∧
      e'.nextSub = 1 ∧ e'.withoutEventCounts = e.withoutEventCounts := by
  have hex : execCheck step (init oneSubscriber noSink)
      [.install { imsi := 1, ulTeid := 100 } 0]
      (fun _ e => decide (e.cfg.learnUnknownTeids = true ∧ e.nextSub = 1 ∧ e.tableSize = 1 ∧
        e.bindingOf 7 = none ∧ e.bindingOf 8 = none)) = true := by
    decide +kernel
  obtain ⟨h, e, hrun, hcheck⟩ := Run.of_execCheck hex
  obtain ⟨hlearn, hnext, hsize, hseven, height⟩ := of_decide_eq_true hcheck
  have hfull : e.tableSize ≤ e.nextSub := by rw [hnext, hsize]
  obtain ⟨h', e', hexec, -, hnext', hsame⟩ :=
    failed_learning_free_iff hrun hlearn [{ teid := 7, bytes := 10 }, { teid := 8, bytes := 20 }]
      (by
        intro ev hev
        rcases List.mem_cons.mp hev with rfl | hev
        · exact ⟨hseven, .inl hfull⟩
        · obtain rfl := List.mem_singleton.mp hev
          exact ⟨height, .inl hfull⟩)
  refine ⟨h, e, h', e', hrun, hexec, ?_, hsame.mpr (.inr hfull)⟩
  rw [hnext', hsize, hnext]
  decide

/-- Four packets on unknown TEIDs that the full TEID table cannot take use up the four
free places of the subscriber table.  The session that would have had a place and a binding
before is refused after them. -/
theorem unlearnable_packets_fill_table :
    ∃ h e h' e', Reaches { smallConfig with learnUnknownTeids := true } noSink h e ∧
      e.teidMap.size = e.teidMap.capacity ∧ e.nextSub = 4 ∧
      exec step e ((List.range 4).map (fun i => .apply { teid := UInt32.ofNat (100 + i) })) =
        .ok (h', e') ∧
      e'.nextSub = 8 ∧ e'.stats.subscribersLearned = 4 ∧
      e'.withoutEventCounts ≠ e.withoutEventCounts ∧
      (∃ e₁, e.installSession { imsi := 9, ulTeid := 0xFFFFFFFF } 0 = .ok (e₁, some 4)) ∧
      e'.installSession { imsi := 9, ulTeid := 0xFFFFFFFF } 0 = .ok (e', none) := by
  have hex : execCheck step (init { smallConfig with learnUnknownTeids := true } noSink)
      fourSessions
      (fun _ e => decide (e.teidMap.size = e.teidMap.capacity ∧ e.nextSub = 4) &&
        returnsWith (e.installSession { imsi := 9, ulTeid := 0xFFFFFFFF } 0)
          (fun r => decide (r.2 = some 4)) &&
        execCheck step e
          ((List.range 4).map (fun i => .apply { teid := UInt32.ofNat (100 + i) }))
          (fun _ e' => decide (e'.nextSub = 8 ∧ e'.stats.subscribersLearned = 4 ∧
            e'.imsiIndex 9 = none ∧ e'.tableSize = 8))) = true := by
    decide +kernel
  obtain ⟨h, e, hrun, hcheck⟩ := Run.of_execCheck hex
  rw [Bool.and_eq_true, Bool.and_eq_true, decide_eq_true_eq] at hcheck
  obtain ⟨⟨⟨hfull, hnext⟩, hinstall⟩, hpackets⟩ := hcheck
  obtain ⟨⟨e₁, r⟩, hop, hr⟩ := returnsWith_iff.mp hinstall
  obtain ⟨⟨h', e'⟩, hexec, hafter⟩ := returnsWith_iff.mp hpackets
  obtain ⟨hnext', hlearned, hnew, hsize⟩ :
      e'.nextSub = 8 ∧ e'.stats.subscribersLearned = 4 ∧ e'.imsiIndex 9 = none ∧
        e'.tableSize = 8 := of_decide_eq_true hafter
  obtain rfl : r = some 4 := of_decide_eq_true hr
  refine ⟨h, e, h', e', hrun, hfull, hnext, hexec, hnext', hlearned, ?_, ⟨e₁, hop⟩, ?_⟩
  · intro hsame
    have hsub : e'.withoutEventCounts.nextSub = e.withoutEventCounts.nextSub := by rw [hsame]
    replace hsub : e'.nextSub = e.nextSub := hsub
    omega
  · have hvalid : ({ imsi := 9, ulTeid := 0xFFFFFFFF } : SessionSpec).valid = true := by decide
    rw [installSession, if_neg (by simp [hvalid]), hnew]
    exact if_pos (by rw [hnext', hsize])

end AnyNumber

end MeterEngine
end GtpMeter
