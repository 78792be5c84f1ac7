import GtpMeter.SessionControl

/-!
# Installations that fail

`install_session` writes the subscriber before it tries the two binds, and does
not undo anything when a bind fails.  An installation that fails for want of room
in the TEID table is therefore not atomic, unless it asks an active session for
exactly what it already is.

**Results.**
* `Installed.refused_iff`: when the binds fail, from the state before.
* `failed_install_atomic_iff`: when a failed installation leaves no trace.
-/

namespace GtpMeter
namespace MeterEngine

open FlatHashU32 Runs

variable {cfg : MeterConfig} {sink : RecordSink} {h : History} {e e' : MeterEngine}
  {idx : Nat} {spec : SessionSpec} {r : Option Nat} {nowNs : UInt64}

section Refusal

/-- A TEID that takes a slot of the table. -/
def Ordinary (t : UInt32) : Prop :=
  t ≠ 0 ∧ t ≠ kEmptyKey

/-- The table has no room for the tunnels of the spec. -/
def Short (e : MeterEngine) (spec : SessionSpec) : Prop :=
  (e.teidMap.size = e.teidMap.capacity ∧ (Ordinary spec.ulTeid ∨ Ordinary spec.dlTeid)) ∨
    (e.teidMap.size + 1 = e.teidMap.capacity ∧ Ordinary spec.ulTeid ∧ Ordinary spec.dlTeid ∧
      e.bindingOf spec.ulTeid = none)

/-- Unbinding the moved tunnels of the subscriber gives a slot back. -/
def Frees (e : MeterEngine) (info : SubscriberInfo) (spec : SessionSpec) : Prop :=
  info.active = true ∧ ∃ t, Moved info spec t ∧ t ≠ kEmptyKey ∧ e.bindingOf t ≠ none

theorem frees_iff_openInfo {info : SubscriberInfo} (nowNs : UInt64) :
    Frees e info spec ↔ ∃ t, Moved (openInfo info spec nowNs) spec t ∧ t ≠ kEmptyKey ∧
      e.bindingOf t ≠ none := by
  simp only [Frees, moved_openInfo]
  constructor
  · rintro ⟨hact, t, hmoved, hrest⟩
    exact ⟨t, ⟨hact, hmoved⟩, hrest⟩
  · rintro ⟨t, ⟨hact, hmoved⟩, hrest⟩
    exact ⟨hact, t, hmoved, hrest⟩

/-- When one of two binds in a row fails. -/
theorem Bound.either_refused_iff {m₁ m₂ m₃ : FlatHashU32 TeidBinding} {ul dl : UInt32}
    {b₁ b₂ : TeidBinding} {ulOk dlOk : Bool} (hb₁ : Bound m₁ m₂ (ul ≠ 0) ul b₁ ulOk)
    (hb₂ : Bound m₂ m₃ (dl ≠ 0) dl b₂ dlOk) :
    (ulOk && dlOk) = false ↔
      (m₁.size = m₁.capacity ∧ (Ordinary ul ∨ Ordinary dl)) ∨
        (m₁.size + 1 = m₁.capacity ∧ Ordinary ul ∧ Ordinary dl ∧
          lookup hashU32 m₁ ul = none) := by
  have hcap := hb₁.capacity_eq
  rw [Bool.and_eq_false_iff, hb₁.refused_iff, hb₂.refused_iff]
  unfold Ordinary
  by_cases hnew : ul ≠ 0 ∧ ul ≠ kEmptyKey ∧ lookup hashU32 m₁ ul = none
  · obtain ⟨h0, hk, hnone⟩ := hnew
    by_cases hfull : m₁.size = m₁.capacity
    · exact iff_of_true (.inl ⟨h0, hk, hfull⟩) (.inl ⟨hfull, .inl ⟨h0, hk⟩⟩)
    · -- the uplink tunnel takes a slot, which may be the last one
      have hsize := hb₁.size_eq h0 hk (hb₁.ok_of_room (fun _ => hfull)) hnone
      constructor
      · rintro (⟨-, -, hm⟩ | ⟨h0', hk', hm⟩)
        · exact absurd hm hfull
        · exact .inr ⟨by omega, ⟨h0, hk⟩, ⟨h0', hk'⟩, hnone⟩
      · rintro (⟨hm, -⟩ | ⟨hm, -, hd, -⟩)
        · exact absurd hm hfull
        · exact .inr ⟨hd.1, hd.2, by omega⟩
  · have hsize := hb₁.size_same hnew
    constructor
    · rintro (⟨h0, hk, hm⟩ | ⟨h0, hk, hm⟩)
      · exact .inl ⟨hm, .inl ⟨h0, hk⟩⟩
      · exact .inl ⟨by omega, .inr ⟨h0, hk⟩⟩
    · rintro (⟨hm, hu | hd⟩ | ⟨-, hu, -, hn⟩)
      · exact .inl ⟨hu.1, hu.2, hm⟩
      · exact .inr ⟨hd.1, hd.2, by omega⟩
      · exact absurd ⟨hu.1, hu.2, hn⟩ hnew

/-- Whether the binds of an installation at `idx` fail. -/
theorem Installed.refused_iff (hin : Installed e idx spec nowNs e' r) :
    r = none ↔ Short e spec ∧ ¬Frees e (e.info idx) spec := by
  rw [frees_iff_openInfo nowNs]
  cases hin with
  | mk m₁ m₂ m₃ f ulOk dlOk hlt hu hb₁ hb₂ =>
      have hcap := hu.capacity_eq
      have hres : (if (ulOk && dlOk) = true then some idx else none) = none ↔
          (ulOk && dlOk) = false := by
        cases ulOk && dlOk <;> simp
      rw [hres, hb₁.either_refused_iff hb₂]
      by_cases hhit : ∃ t, Moved (openInfo (e.info idx) spec nowNs) spec t ∧ t ≠ kEmptyKey ∧
          e.bindingOf t ≠ none
      · -- a slot came back, so both binds find room
        obtain ⟨hless, hfree⟩ := hu.size_lt hhit
        refine iff_of_false ?_ (fun hh => hh.2 hhit)
        rintro (⟨hfull, -⟩ | ⟨hlast, -⟩)
        · omega
        · omega
      · have hmiss : ∀ t, Moved (openInfo (e.info idx) spec nowNs) spec t → t ≠ kEmptyKey →
            e.bindingOf t = none := by
          intro t ht hk
          by_contra hb
          exact hhit ⟨t, ht, hk, hb⟩
        have hkept : Ordinary spec.ulTeid →
            lookup hashU32 m₁ spec.ulTeid = e.bindingOf spec.ulTeid := by
          intro hord
          by_cases hgone : Moved (openInfo (e.info idx) spec nowNs) spec spec.ulTeid
          · rw [hu.lookup_gone _ hgone, hmiss _ hgone hord.2]
          · exact hu.lookup_kept _ hgone
        have hnone : (Ordinary spec.ulTeid ∧ Ordinary spec.dlTeid ∧
              lookup hashU32 m₁ spec.ulTeid = none) ↔
            Ordinary spec.ulTeid ∧ Ordinary spec.dlTeid ∧ e.bindingOf spec.ulTeid = none :=
          and_congr_right (fun hord => by rw [hkept hord])
        simp only [hhit, not_false_eq_true, and_true]
        rw [hnone, hu.size_eq hmiss, hcap]
        rfl

/-- Without a slot given back nothing is deleted from a full table, so the call
returns. -/
theorem installAt_refused (nowNs : UInt64) (hw : Wf hashU32 e.teidMap)
    (hlt : idx < e.tableSize) (hshort : Short e spec)
    (hfrees : ¬Frees e (e.info idx) spec) :
    ∃ e', e.installAt idx spec nowNs = .ok (e', none) := by
  cases hop : e.installAt idx spec nowNs with
  | error f =>
      obtain ⟨-, hact, -, hstuck⟩ := (installAt_error hw hlt).mp hop
      exact absurd ⟨hact, hstuck⟩ hfrees
  | ok res =>
      obtain ⟨e', r⟩ := res
      obtain rfl : r = none := (installAt_ok hw hop).refused_iff.mpr ⟨hshort, hfrees⟩
      exact ⟨e', rfl⟩

end Refusal

section Traces

/-- The state apart from `teid_bind_failures` and the hash probe statistics. -/
def withoutFailures (e : MeterEngine) : MeterEngine :=
  { e with
    teidMap := e.teidMap.quiet
    stats := { e.stats with teidBindFailures := 0 } }

@[simp] theorem withoutFailures_info (e : MeterEngine) : e.withoutFailures.info = e.info :=
  rfl

@[simp] theorem withoutFailures_nextSub (e : MeterEngine) :
    e.withoutFailures.nextSub = e.nextSub :=
  rfl

/-- The spec asks an active session for what it already is, while the table is
full: tunnels, rating group and slot are those stored, and a tunnel in the side
slot is already bound so. -/
structure Repeats (e : MeterEngine) (idx : Nat) (spec : SessionSpec) : Prop where
  active : (e.info idx).active = true
  full : e.teidMap.size = e.teidMap.capacity
  ul_eq : (e.info idx).ulTeid = spec.ulTeid
  dl_eq : (e.info idx).dlTeid = spec.dlTeid
  group_eq : (e.info idx).defaultRatingGroup = spec.ratingGroup
  slot_eq : (assignSlot (e.info idx) spec.ratingGroup).1 = e.info idx
  ul_side : spec.ulTeid = kEmptyKey → e.bindingOf kEmptyKey =
    some ⟨UInt32.ofNat idx, Direction.uplink.code,
      (assignSlot (e.info idx) spec.ratingGroup).2⟩
  dl_side : spec.dlTeid = kEmptyKey → e.bindingOf kEmptyKey =
    some ⟨UInt32.ofNat idx, Direction.downlink.code,
      (assignSlot (e.info idx) spec.ratingGroup).2⟩

/-- Installing what an active session already is assigns the slot it has. -/
theorem installInfo_of_same (nowNs : UInt64) (hact : (e.info idx).active = true)
    (himsi : (e.info idx).imsi = spec.imsi) (hul : (e.info idx).ulTeid = spec.ulTeid)
    (hdl : (e.info idx).dlTeid = spec.dlTeid)
    (hgroup : (e.info idx).defaultRatingGroup = spec.ratingGroup) :
    installInfo (e.info idx) spec nowNs = assignSlot (e.info idx) spec.ratingGroup := by
  unfold installInfo openInfo
  rw [if_pos hact, ← himsi, ← hul, ← hdl, ← hgroup, ← hact]

theorem installInfo_group (info : SubscriberInfo) (spec : SessionSpec) (nowNs : UInt64) :
    (installInfo info spec nowNs).1.defaultRatingGroup = spec.ratingGroup := by
  obtain ⟨-, ids, agg, heq⟩ := installInfo_spec info spec nowNs
  rw [heq]
  unfold openInfo
  split_ifs <;> rfl

theorem not_moved_of_same {info : SubscriberInfo} (hul : info.ulTeid = spec.ulTeid)
    (hdl : info.dlTeid = spec.dlTeid) (t : UInt32) : ¬Moved info spec t := by
  rintro (⟨-, hne, -⟩ | ⟨-, hne, -⟩)
  · exact hne hul
  · exact hne hdl

/-- A repeated installation that fails leaves no trace. -/
theorem Repeats.no_trace (hrep : Repeats e idx spec)
    (himsi : (e.info idx).imsi = spec.imsi) (hin : Installed e idx spec nowNs e' r) :
    e'.withoutFailures = e.withoutFailures := by
  have hinfo := installInfo_of_same nowNs hrep.active himsi hrep.ul_eq hrep.dl_eq
    hrep.group_eq
  cases hin with
  | mk m₁ m₂ m₃ f ulOk dlOk hlt hu hb₁ hb₂ =>
      rw [hinfo] at hb₁ hb₂
      obtain rfl : m₁ = e.teidMap := hu.unchanged (fun t ht =>
        absurd (moved_openInfo.mp ht).2 (not_moved_of_same hrep.ul_eq hrep.dl_eq t))
      -- each bind is absent, refused, or writes what is there
      have hm₂ : m₂ = e.teidMap := by
        by_cases h0 : spec.ulTeid ≠ 0
        · by_cases hk : spec.ulTeid = kEmptyKey
          · exact hb₁.rebound hk (hk ▸ hrep.ul_side hk)
          · exact hb₁.refused (hb₁.refused_iff.mpr ⟨h0, hk, hrep.full⟩)
        · exact hb₁.unnamed h0
      subst hm₂
      have hm₃ : m₃ = e.teidMap := by
        by_cases h0 : spec.dlTeid ≠ 0
        · by_cases hk : spec.dlTeid = kEmptyKey
          · exact hb₂.rebound hk (hk ▸ hrep.dl_side hk)
          · exact hb₂.refused (hb₂.refused_iff.mpr ⟨h0, hk, hrep.full⟩)
        · exact hb₂.unnamed h0
      subst hm₃
      simp [withoutFailures, hinfo, hrep.slot_eq, hrep.active]

/-- An installation that fails without a trace was a repetition. -/
theorem Repeats.of_no_trace (himsi : (e.info idx).imsi = spec.imsi) (hshort : Short e spec)
    (hin : Installed e idx spec nowNs e' r) (hsame : e'.withoutFailures = e.withoutFailures) :
    Repeats e idx spec := by
  have hinfo : e'.withoutFailures.info = e.withoutFailures.info := by rw [hsame]
  have hquiet : e'.withoutFailures.teidMap = e.withoutFailures.teidMap := by rw [hsame]
  have hlk : ∀ t, e'.bindingOf t = e.bindingOf t := fun t => lookup_congr hquiet
  obtain ⟨-, hul, hdl, hact, -⟩ := installInfo_session (e.info idx) spec nowNs
  have hgroup := installInfo_group (e.info idx) spec nowNs
  cases hin with
  | mk m₁ m₂ m₃ f ulOk dlOk hlt hu hb₁ hb₂ =>
      have hself : (installInfo (e.info idx) spec nowNs).1 = e.info idx := by
        rw [withoutFailures_info, withoutFailures_info] at hinfo
        simpa using congrFun hinfo idx
      rw [hself] at hul hdl hact hgroup
      have hassign := installInfo_of_same nowNs hact himsi hul hdl hgroup
      rw [hassign] at hb₁ hb₂ hself
      replace hlk : ∀ t, lookup hashU32 m₃ t = e.bindingOf t := hlk
      refine ⟨hact, ?_, hul, hdl, hgroup, hself, ?_, ?_⟩
      · rcases hshort with ⟨hfull, -⟩ | ⟨hlast, hulord, -, hnone⟩
        · exact hfull
        · -- one free slot: the uplink tunnel would have taken it
          exfalso
          have hsize := hu.size_le
          have hcap := hu.capacity_eq
          have hok := hb₁.ok_of_room (fun _ => by omega)
          have hnew := (hb₁.lookup_eq spec.ulTeid).1 ⟨hulord.1, hok, rfl⟩
          rw [← hlk] at hnone
          by_cases hdl : spec.dlTeid ≠ 0 ∧ dlOk = true ∧ spec.ulTeid = spec.dlTeid
          · rw [(hb₂.lookup_eq _).1 hdl] at hnone
            simp at hnone
          · rw [(hb₂.lookup_eq _).2 hdl, hnew] at hnone
            simp at hnone
      · intro hk
        have hdlk : spec.dlTeid ≠ kEmptyKey := by
          rcases hshort with ⟨-, hord | hord⟩ | ⟨-, hord, -⟩
          · exact absurd hk hord.2
          · exact hord.2
          · exact absurd hk hord.2
        have hok := hb₁.ok_of_room (absurd hk)
        rw [← hlk, (hb₂.lookup_eq _).2 (fun hh => hdlk hh.2.2.symm)]
        exact (hb₁.lookup_eq _).1 ⟨by rw [hk]; decide, hok, hk.symm⟩
      · intro hk
        have hok := hb₂.ok_of_room (absurd hk)
        rw [← hlk]
        exact (hb₂.lookup_eq _).1 ⟨by rw [hk]; decide, hok, hk.symm⟩

/-- **When failed installations are atomic.**  In every reachable state, an
installation that returns no index leaves the state as it was, apart from
`teid_bind_failures` and probe statistics, exactly if it is not one that gets past
the subscriber table and then finds the TEID table short of room, or if it is and
repeats what an active session already is. -/
theorem failed_install_atomic_iff (hrun : Reaches cfg sink h e) (spec : SessionSpec)
    (nowNs : UInt64) :
    (∀ e', e.installSession spec nowNs = .ok (e', none) →
      e'.withoutFailures = e.withoutFailures) ↔
    (spec.valid = true → Short e spec →
      (∀ idx, e.imsiIndex spec.imsi = some idx →
        Frees e (e.info idx) spec ∨ Repeats e idx spec) ∧
      (e.imsiIndex spec.imsi = none → e.tableSize ≤ e.nextSub)) := by
  have hi := reaches_indexed hrun
  constructor
  · intro hatomic hv hshort
    constructor
    · intro idx hidx
      have hlt := Nat.lt_of_lt_of_le (hi.imsi_eq _ _ hidx).1 hi.next_le
      by_contra hno
      obtain ⟨hfrees, hrep⟩ := not_or.mp hno
      obtain ⟨e', hop⟩ := installAt_refused nowNs hi.wf hlt hshort hfrees
      have hsame := hatomic e' (by simpa [installSession, hv, hidx] using hop)
      exact hrep (.of_no_trace (hi.imsi_eq _ _ hidx).2 hshort (installAt_ok hi.wf hop) hsame)
    · intro hnone
      by_contra hroom
      have hfresh : ¬Frees (e.allocate spec.imsi) (e.info e.nextSub) spec := fun hf => by
        simpa [hi.fresh _ le_rfl] using hf.1
      obtain ⟨e', hop⟩ := installAt_refused (e := e.allocate spec.imsi) nowNs hi.wf
        (Nat.lt_of_not_le hroom) hshort hfresh
      have hsame := hatomic e' (by simpa [installSession, hv, hnone, hroom] using hop)
      have hnext : e'.withoutFailures.nextSub = e.withoutFailures.nextSub := by rw [hsame]
      obtain ⟨-, hnext', -⟩ := (installAt_ok (e := e.allocate spec.imsi) hi.wf hop).frame
      rw [withoutFailures_nextSub, withoutFailures_nextSub, hnext'] at hnext
      exact absurd hnext (Nat.succ_ne_self _)
  · intro hcond e' hop
    rcases installSession_cases hi.wf hop with ⟨rfl, -⟩ | ⟨hv, idx, hidx, hin⟩ |
      ⟨hv, hidx, hroom, hin⟩
    · rfl
    · obtain ⟨hshort, hfrees⟩ := hin.refused_iff.mp rfl
      have hrep := ((hcond hv hshort).1 idx hidx).resolve_left hfrees
      exact hrep.no_trace (hi.imsi_eq _ _ hidx).2 hin
    · have hshort : Short e spec := (hin.refused_iff.mp rfl).1
      exact absurd ((hcond hv hshort).2 hidx) (Nat.not_le.mpr hroom)

/-- On a full table, installing an active session once more fails and leaves no
trace. -/
theorem failed_install_atomic_repeat :
    ∃ h e, Reaches smallConfig noSink h e ∧
      (∃ e', e.installSession { imsi := 1, ulTeid := 1, dlTeid := 2 } 5 = .ok (e', none)) ∧
      ∀ e', e.installSession { imsi := 1, ulTeid := 1, dlTeid := 2 } 5 = .ok (e', none) →
        e'.withoutFailures = e.withoutFailures := by
  have hex : execCheck step (init smallConfig noSink) fourSessions
      (fun _ e => decide (e.imsiIndex 1 = some 0 ∧ (e.info 0).active = true ∧
          e.teidMap.size = e.teidMap.capacity ∧ (e.info 0).ulTeid = 1 ∧
          (e.info 0).dlTeid = 2 ∧ (e.info 0).defaultRatingGroup = 0 ∧
          (e.info 0).bucketIds 0 = 0) &&
        returnsWith (e.installSession { imsi := 1, ulTeid := 1, dlTeid := 2 } 5)
          (fun r => r.2.isNone)) = true := by
    decide +kernel
  obtain ⟨h, e, hrun, hcheck⟩ := Run.of_execCheck hex
  rw [Bool.and_eq_true, decide_eq_true_eq] at hcheck
  obtain ⟨⟨hidx, hact, hfull, hul, hdl, hgroup, hslot⟩, hret⟩ := hcheck
  obtain ⟨⟨e', r⟩, hop, hnone⟩ := returnsWith_iff.mp hret
  obtain rfl : r = none := Option.isNone_iff_eq_none.mp hnone
  refine ⟨h, e, hrun, ⟨e', hop⟩, (failed_install_atomic_iff hrun _ 5).mpr ?_⟩
  intro _ _
  refine ⟨?_, fun hno => by simp [hidx] at hno⟩
  intro idx hi
  obtain rfl : 0 = idx := Option.some.inj (hidx.symm.trans hi)
  exact .inr ⟨hact, hfull, hul, hdl, hgroup, by simp [assignSlot, hslot],
    fun hk => absurd hk (by decide), fun hk => absurd hk (by decide)⟩

/-- On a full table, installing a new session fails and still takes an index, an
entry of the IMSI index and a count. -/
theorem failed_install_leaves_trace :
    ∃ h e e', Reaches smallConfig noSink h e ∧
      e.installSession { imsi := 9, ulTeid := 9 } 0 = .ok (e', none) ∧
      e.imsiIndex 9 = none ∧ e'.imsiIndex 9 = some e.nextSub ∧
      e'.nextSub = e.nextSub + 1 ∧ (e'.info e.nextSub).active = true ∧
      e'.stats.subscribersInstalled = e.stats.subscribersInstalled + 1 ∧
      e'.withoutFailures ≠ e.withoutFailures := by
  have hex : execCheck step (init smallConfig noSink) fourSessions
      (fun _ e => returnsWith (e.installSession { imsi := 9, ulTeid := 9 } 0)
          (fun r => r.2.isNone && decide (e.imsiIndex 9 = none ∧
            r.1.imsiIndex 9 = some e.nextSub ∧ r.1.nextSub = e.nextSub + 1 ∧
            (r.1.info e.nextSub).active = true ∧
            r.1.stats.subscribersInstalled = e.stats.subscribersInstalled + 1))) = true := by
    decide +kernel
  obtain ⟨h, e, hrun, hcheck⟩ := Run.of_execCheck hex
  obtain ⟨⟨e', r⟩, hop, hres⟩ := returnsWith_iff.mp hcheck
  rw [Bool.and_eq_true, decide_eq_true_eq] at hres
  obtain ⟨hnone, hnew, hidx, hnext, hact, hcount⟩ := hres
  obtain rfl : r = none := Option.isNone_iff_eq_none.mp hnone
  refine ⟨h, e, e', hrun, hop, hnew, hidx, hnext, hact, hcount, ?_⟩
  intro hsame
  have heq : e'.withoutFailures.nextSub = e.withoutFailures.nextSub := by rw [hsame]
  rw [withoutFailures_nextSub, withoutFailures_nextSub] at heq
  exact absurd (heq.symm.trans hnext) (Nat.succ_ne_self _).symm

end Traces

end MeterEngine
end GtpMeter
