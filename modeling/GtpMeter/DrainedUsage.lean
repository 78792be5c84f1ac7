import GtpMeter.Reconciliation

/-!
# What `drain` leaves unreported

`drain` emits a final record for every active subscriber with unreported usage.  It takes
the byte counters for the usage: a subscriber whose bytes are all reported gets no record,
although records also report packets and slots.  A G-PDU without payload counts a packet
and no bytes, so after it the two questions have different answers.

**Results.**
* `drain_spec`: what `drain` does to each subscriber.
* `life_of_active`: an active subscriber has a life, whose records are counted here.
* `drain_reports_all_iff`: when nothing is left.
-/

namespace GtpMeter
namespace MeterEngine

open FlatHashU32 Runs Billing

variable {cfg : MeterConfig} {sink : RecordSink} {h : History} {e e' : MeterEngine} {idx : Nat}
  {nowNs : UInt64} {op : MeterOp} {out : Answer}

section Draining

/-- No bytes are unreported, which is all that `drain` looks at. -/
def BytesReported (c : SubscriberCounters) (info : SubscriberInfo) : Prop :=
  c.ulBytes = info.emittedUlBytes ∧ c.dlBytes = info.emittedDlBytes

instance (c : SubscriberCounters) (info : SubscriberInfo) : Decidable (BytesReported c info) :=
  inferInstanceAs (Decidable (_ ∧ _))

/-- `drain` has a record for such a subscriber. -/
def HasFinal (c : SubscriberCounters) (info : SubscriberInfo) : Prop :=
  info.active = true ∧ ¬BytesReported c info

instance (c : SubscriberCounters) (info : SubscriberInfo) : Decidable (HasFinal c info) :=
  inferInstanceAs (Decidable (_ ∧ _))

/-- Cold state of a subscriber after a drain. -/
def drainedInfo (c : SubscriberCounters) (info : SubscriberInfo) (nowNs : UInt64) :
    SubscriberInfo :=
  if HasFinal c info then markEmitted c info nowNs else info

theorem drainSlot_skip (hlt : idx < e.tableSize) (hno : ¬HasFinal (e.counters idx) (e.info idx)) :
    e.drainSlot idx nowNs = .ok (e, []) := by
  unfold drainSlot
  rw [infoAt_ok.mpr ⟨hlt, rfl⟩]
  simp only [bind, Except.bind]
  cases hact : (e.info idx).active with
  | false => rfl
  | true =>
      have hbytes : BytesReported (e.counters idx) (e.info idx) := by
        by_contra hpending
        exact hno ⟨hact, hpending⟩
      rw [countersAt_ok.mpr ⟨hlt, rfl⟩]
      exact if_pos hbytes

theorem drainSlot_final (hlt : idx < e.tableSize) (hyes : HasFinal (e.counters idx) (e.info idx)) :
    e.drainSlot idx nowNs =
      .ok ((e.emitted idx .shutdown nowNs).1, [(e.emitted idx .shutdown nowNs).2]) := by
  unfold drainSlot
  rw [infoAt_ok.mpr ⟨hlt, rfl⟩, countersAt_ok.mpr ⟨hlt, rfl⟩]
  simp only [bind, Except.bind, hyes.1, Bool.not_true, Bool.false_eq_true, if_false]
  rw [emitRecord_eq, if_pos hlt]
  exact if_neg hyes.2

/-- One turn of the loop touches one subscriber. -/
theorem drainSlot_spec (nowNs : UInt64) (hlt : idx < e.tableSize) :
    ∃ e₁ ems, e.drainSlot idx nowNs = .ok (e₁, ems) ∧ e₁.tableSize = e.tableSize ∧
      e₁.counters = e.counters ∧
      e₁.info =
        Function.update e.info idx (drainedInfo (e.counters idx) (e.info idx) nowNs) := by
  unfold drainedInfo
  by_cases hfinal : HasFinal (e.counters idx) (e.info idx)
  · rw [if_pos hfinal]
    exact ⟨_, _, drainSlot_final hlt hfinal, rfl, rfl, rfl⟩
  · rw [if_neg hfinal, Function.update_eq_self]
    exact ⟨e, [], drainSlot_skip hlt hfinal, rfl, rfl, rfl⟩

theorem drainLoop_spec (nowNs : UInt64) (n : Nat) :
    ∀ (idx : Nat) (e : MeterEngine), idx + n ≤ e.tableSize →
    ∃ e' ems, drainLoop nowNs n idx e = .ok (e', ems) ∧ e'.counters = e.counters ∧
      ∀ i, e'.info i =
        if idx ≤ i ∧ i < idx + n then drainedInfo (e.counters i) (e.info i) nowNs
        else e.info i := by
  induction n with
  | zero =>
      intro idx e _
      refine ⟨e, [], rfl, rfl, ?_⟩
      intro i
      rw [if_neg (by omega)]
  | succ n ih =>
      intro idx e hle
      obtain ⟨e₁, ems₁, hslot, hsize, hcnt₁, hinfo₁⟩ :=
        drainSlot_spec nowNs (show idx < e.tableSize by omega)
      obtain ⟨e', ems, hloop, hcnt, hinfo⟩ := ih (idx + 1) e₁ (by omega)
      refine ⟨e', ems₁ ++ ems, ?_, hcnt.trans hcnt₁, ?_⟩
      · rw [drainLoop, hslot]
        simp only [bind, Except.bind, hloop]
      · intro i
        rw [hinfo i, hcnt₁, hinfo₁]
        by_cases hi : i = idx
        · subst hi
          rw [if_neg (by omega), if_pos (by omega), Function.update_self]
        · rw [Function.update_of_ne hi]
          by_cases hin : idx ≤ i ∧ i < idx + (n + 1)
          · rw [if_pos hin, if_pos (by omega)]
          · rw [if_neg hin, if_neg (by omega)]

/-- `drain` returns, and gives every active subscriber with unreported bytes its record. -/
theorem drain_spec (hi : Indexed e) (nowNs : UInt64) :
    ∃ e' ems, e.drain nowNs = .ok (e', ems) ∧ e'.counters = e.counters ∧
      ∀ i, e'.info i = drainedInfo (e.counters i) (e.info i) nowNs := by
  obtain ⟨e', ems, hloop, hcnt, hinfo⟩ :=
    drainLoop_spec nowNs e.nextSub 0 e (by simpa using hi.next_le)
  refine ⟨e', ems, hloop, hcnt, ?_⟩
  intro i
  rw [hinfo i]
  by_cases hlt : i < e.nextSub
  · rw [if_pos (by omega)]
  · have hfresh : (e.info i).active = false := hi.fresh i (Nat.le_of_not_lt hlt)
    rw [if_neg (by omega), drainedInfo, if_neg]
    exact fun hh => absurd hh.1 (by simp [hfresh])

/-- A drain that finds no unreported bytes does nothing. -/
theorem drainLoop_skip (n : Nat) : ∀ idx, idx + n ≤ e.tableSize →
    (∀ i, ¬HasFinal (e.counters i) (e.info i)) → drainLoop nowNs n idx e = .ok (e, []) := by
  induction n with
  | zero => exact fun _ _ _ => rfl
  | succ n ih =>
      intro idx hle hno
      rw [drainLoop, drainSlot_skip (by omega) (hno idx)]
      simp only [bind, Except.bind, ih (idx + 1) (by omega) hno]
      rfl

end Draining

section Lives

/-- Who is active after a call was active before it, or the call opened the account. -/
theorem Moves.active_before (hm : Moves e op out e') (hopen : e.opening op idx = none)
    (hact : (e'.info idx).active = true) : (e.info idx).active = true := by
  cases hm with
  | @modified spec nowNs i r _ hv hidx hin =>
      by_contra hno
      by_cases hi : idx = i
      · simp [opening, hidx, hv, hi ▸ hno, hi] at hopen
      · rw [(hin.arrays_eq idx).2, if_neg hi] at hact
        exact hno hact
  | @allocated spec nowNs r _ hv hidx hroom hin =>
      by_contra hno
      by_cases hi : idx = e.nextSub
      · simp [opening, hidx, hv, hroom, hi] at hopen
      · rw [(hin.arrays_eq idx).2, if_neg hi] at hact
        exact hno hact
  | @released imsi nowNs i m hidx hlt hacti hu =>
      by_cases hi : idx = i
      · exact hi ▸ hacti
      · simpa [hi] using hact
  | @charged ev e₁ _ hdata ha hc =>
      rw [hc.sameSessions.active_eq] at hact
      cases ha with
      | found m _ _ => exact hact
      | learned m f ok hnone hlearn hroom _ _ =>
          have hi : idx ≠ e.nextSub := by
            rintro rfl
            simp [opening, hdata, Learns, hnone, hlearn, hroom] at hopen
          simpa [hi] using hact
  | @gyReported ev i _ _ =>
      by_cases hi : idx = i
      · subst hi
        simpa using hact
      · simpa [hi] using hact
  | polled hr | drained hr => exact (hr.sameSessions.active_eq idx) ▸ hact
  | _ => exact hact

theorem life_of_active (hrun : Reaches cfg sink h e) (hact : (e.info idx).active = true) :
    ∃ l, lifeOf idx h = some l := by
  induction hrun with
  | nil => simp [init] at hact
  | @snoc h e e' op out hprev hs ih =>
      unfold lifeOf at ih ⊢
      rw [List.foldl_append]
      cases hopen : e.opening op idx with
      | some t =>
          simp only [List.foldl_cons, List.foldl_nil, lifeStep, hopen, Option.elim_some]
          exact ⟨_, rfl⟩
      | none =>
          have hm := step_moves (reaches_indexed hprev).wf hs
          obtain ⟨l, hl⟩ := ih (hm.active_before hopen hact)
          simp only [List.foldl_cons, List.foldl_nil, lifeStep, hopen, Option.elim_none, hl]
          exact ⟨_, rfl⟩

end Lives

section Remainder

/-- The records that no sink refused. -/
def delivered (ems : List Emission) : List Emission :=
  ems.filter (fun em => em.outcome ≠ .refused)

/-- All that is counted for subscriber `idx` is reported: it is marked as emitted, and the
records of its life carry it. -/
structure FullyReported (h : History) (e : MeterEngine) (idx : Nat) : Prop where
  emitted_eq : (e.info idx).emitted = (e.counters idx).usage
  records_eq : ∃ l, lifeOf idx h = some l ∧
    usageOf (delivered l.emissions) = (e.counters idx).usage

theorem markEmitted_emitted (c : SubscriberCounters) (info : SubscriberInfo) (nowNs : UInt64) :
    (markEmitted c info nowNs).emitted = c.usage := by
  funext ch
  cases ch <;> rfl

theorem drainedInfo_active (c : SubscriberCounters) (info : SubscriberInfo) (nowNs : UInt64) :
    (drainedInfo c info nowNs).active = info.active := by
  unfold drainedInfo
  split_ifs <;> rfl

/-- After a drain no bytes are unreported. -/
theorem drainedInfo_noFinal (c : SubscriberCounters) (info : SubscriberInfo) (nowNs : UInt64) :
    ¬HasFinal c (drainedInfo c info nowNs) := by
  unfold drainedInfo
  split_ifs with hfinal
  · exact fun hagain => hagain.2 ⟨rfl, rfl⟩
  · exact hfinal

/-- If nothing was refused, the records of a life are those that were delivered. -/
theorem delivered_life {l : Life} (hl : lifeOf idx h = some l)
    (hroom : refused (emissionsOf h) = []) : delivered l.emissions = l.emissions := by
  refine List.filter_eq_self.mpr ?_
  intro em hem
  have hmem := mem_emissionsOf hl hem
  rw [decide_eq_true_eq]
  intro hout
  have hin : em ∈ refused (emissionsOf h) := List.mem_filter.mpr ⟨hmem, decide_eq_true hout⟩
  rw [hroom] at hin
  exact absurd hin List.not_mem_nil

/-- What is marked as emitted is what the records say. -/
theorem fullyReported_iff (hrun : Reaches cfg sink h e) (hact : (e.info idx).active = true)
    (hroom : refused (emissionsOf h) = []) :
    FullyReported h e idx ↔ (e.info idx).emitted = (e.counters idx).usage := by
  constructor
  · exact fun hall => hall.emitted_eq
  · intro heq
    obtain ⟨l, hl⟩ := life_of_active hrun hact
    refine ⟨heq, l, hl, ?_⟩
    rw [delivered_life hl hroom, usageOf_life hrun hl, heq]

/-- **Drain.**  It returns, and the next one finds nothing to do.  Every active subscriber
is fully reported after it exactly if none of them had packets or slots to report without
having bytes to report. -/
theorem drain_reports_all_iff (hrun : Reaches cfg sink h e) (nowNs : UInt64) :
    ∃ e' ems, e.drain nowNs = .ok (e', ems) ∧ (∀ later, e'.drain later = .ok (e', [])) ∧
      (refused (emissionsOf h ++ ems) = [] →
        ((∀ idx, (e'.info idx).active = true →
            FullyReported (h ++ [⟨e, .drain nowNs, { emissions := ems }, e'⟩]) e' idx) ↔
          ∀ idx, (e.info idx).active = true → BytesReported (e.counters idx) (e.info idx) →
            (e.info idx).emitted = (e.counters idx).usage)) := by
  obtain ⟨e', ems, hdrain, hcnt, hinfo⟩ := drain_spec (reaches_indexed hrun) nowNs
  have hstep : e.step (.drain nowNs) = .ok (e', { emissions := ems }) := by
    rw [step, hdrain]
    rfl
  have hrun' : Reaches cfg sink (h ++ [⟨e, .drain nowNs, { emissions := ems }, e'⟩]) e' :=
    .snoc hrun hstep
  refine ⟨e', ems, hdrain, ?_, ?_⟩
  · intro later
    refine drainLoop_skip _ 0 (by simpa using (reaches_indexed hrun').next_le) ?_
    intro i
    rw [hinfo i, hcnt]
    exact drainedInfo_noFinal _ _ _
  · intro hroom
    rw [← emissionsOf_snoc h ⟨e, .drain nowNs, { emissions := ems }, e'⟩] at hroom
    constructor
    · intro hall idx hact hbytes
      have hact' : (e'.info idx).active = true := by rw [hinfo, drainedInfo_active, hact]
      have heq := (hall idx hact').emitted_eq
      have hno : ¬HasFinal (e.counters idx) (e.info idx) := fun hfinal => hfinal.2 hbytes
      rw [hinfo, hcnt, drainedInfo, if_neg hno] at heq
      exact heq
    · intro hcond idx hact'
      refine (fullyReported_iff hrun' hact' hroom).mpr ?_
      have hact : (e.info idx).active = true := by
        rw [hinfo, drainedInfo_active] at hact'
        exact hact'
      rw [hinfo, hcnt, drainedInfo]
      split_ifs with hfinal
      · exact markEmitted_emitted _ _ _
      · refine hcond idx hact ?_
        by_contra hpending
        exact hfinal ⟨hact, hpending⟩

/-- A packet with payload, and the sink that takes its record. -/
theorem drain_reports_all_iff_payload :
    ∃ h e e' ems, Reaches smallConfig stalledSink h e ∧ e.drain 5 = .ok (e', ems) ∧
      ems.length = 1 ∧ e'.drain 5 = .ok (e', []) ∧ (e'.info 0).active = true ∧
      FullyReported (h ++ [⟨e, .drain 5, { emissions := ems }, e'⟩]) e' 0 := by
  have hex : execCheck step (init smallConfig stalledSink)
      [.install { imsi := 1, ulTeid := 100 } 0, .apply { teid := 100, bytes := 7 }]
      (fun h e => decide (e.nextSub = 1 ∧ (e.info 0).active = true ∧
          ¬BytesReported (e.counters 0) (e.info 0)) &&
        returnsWith (e.drain 5) (fun r => decide (r.2.length = 1 ∧
          (refused (emissionsOf h ++ r.2)).length = 0))) = true := by
    decide +kernel
  obtain ⟨h, e, hrun, hcheck⟩ := Run.of_execCheck hex
  rw [Bool.and_eq_true, decide_eq_true_eq] at hcheck
  obtain ⟨⟨hnext, hact, hpending⟩, hret⟩ := hcheck
  obtain ⟨r, hop, hr⟩ := returnsWith_iff.mp hret
  obtain ⟨e', ems, hdrain, hagain, hall⟩ := drain_reports_all_iff hrun 5
  obtain rfl : r = (e', ems) := Except.ok.inj (hop.symm.trans hdrain)
  obtain ⟨hlen, hroom⟩ : ems.length = 1 ∧ (refused (emissionsOf h ++ ems)).length = 0 :=
    of_decide_eq_true hr
  have hact' : (e'.info 0).active = true := by
    have hsame := (drain_emitRun hdrain).sameSessions.active_eq 0
    exact hsame.trans hact
  refine ⟨h, e, e', ems, hrun, hdrain, hlen, hagain 5, hact', ?_⟩
  refine (hall (List.eq_nil_of_length_eq_zero hroom)).mpr ?_ 0 hact'
  intro idx hactive hbytes
  cases idx with
  | zero => exact absurd hbytes hpending
  | succ i =>
      have hfresh := (reaches_indexed hrun).fresh (i + 1) (by omega)
      rw [hfresh] at hactive
      cases hactive

/-- A G-PDU without payload is counted, and `drain` has no record for it. -/
theorem empty_packet_never_reported :
    ∃ h e, Reaches smallConfig noSink h e ∧ (e.info 0).active = true ∧
      e.drain 5 = .ok (e, []) ∧ (e.counters 0).ulPackets = 1 ∧
      (e.info 0).emittedUlPackets = 0 := by
  have hex : execCheck step (init smallConfig noSink)
      [.install { imsi := 1, ulTeid := 100 } 0, .apply { teid := 100, bytes := 0 }]
      (fun _ e => decide (e.nextSub = 1 ∧ e.tableSize = 8 ∧ (e.info 0).active = true ∧
        BytesReported (e.counters 0) (e.info 0) ∧ (e.counters 0).ulPackets = 1 ∧
        (e.info 0).emittedUlPackets = 0)) = true := by
    decide +kernel
  obtain ⟨h, e, hrun, hcheck⟩ := Run.of_execCheck hex
  obtain ⟨hnext, hsize, hact, hbytes, hcount, hmark⟩ := of_decide_eq_true hcheck
  refine ⟨h, e, hrun, hact, ?_, hcount, hmark⟩
  rw [drain, hnext, drainLoop,
    drainSlot_skip (by omega) (fun hfinal : HasFinal _ _ => hfinal.2 hbytes)]
  rfl

end Remainder

end MeterEngine
end GtpMeter
