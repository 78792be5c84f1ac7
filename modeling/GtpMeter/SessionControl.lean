import GtpMeter.FlatHashRefinement
import GtpMeter.BindingSoundness

/-!
# Releasing and modifying sessions

A subscriber remembers its tunnels by value, and releasing or modifying it
erases them from the shared TEID table.  Two things can go wrong there.  The
deletion does not return on a full table.  And it takes the entry of another
subscriber that was given the TEID in the meantime.

**Results.**
* `deletion_returns_iff`: when deletions return, and with them releases and
  modifications.
* `sessions_isolated_iff`: when a call for one session leaves the tunnels of all
  others alone.
-/

namespace GtpMeter
namespace MeterEngine

open FlatHashU32 Runs

variable {cfg : MeterConfig} {sink : RecordSink} {h : History} {e e' : MeterEngine}
  {idx : Nat} {spec : SessionSpec} {imsi nowNs : UInt64}

section Returning

/-- The table is full and one of the tunnels that are to go is stored in it. -/
def Stuck (e : MeterEngine) (info : SubscriberInfo) (spec : SessionSpec) : Prop :=
  e.teidMap.size = e.teidMap.capacity ∧
    ∃ t, Moved info spec t ∧ t ≠ kEmptyKey ∧ e.bindingOf t ≠ none

/-- An installation inside the table can only fail by not returning. -/
theorem installAt_error {f : Fault} (hw : Wf hashU32 e.teidMap) (hlt : idx < e.tableSize) :
    e.installAt idx spec nowNs = .error f ↔
      f = .hang ∧ (e.info idx).active = true ∧ Stuck e (e.info idx) spec := by
  have hmoved : e.installAt idx spec nowNs = .error f ↔
      (e.openCounters idx (e.info idx).active).unbindMoved
        (openInfo (e.info idx) spec nowNs) spec = .error f := by
    constructor
    · intro herr
      rcases bind_eq_error.mp herr with herr | ⟨info, hinfo, herr⟩
      · simp [infoAt, hlt] at herr
      · obtain ⟨-, rfl⟩ := infoAt_ok.mp hinfo
        rcases bind_eq_error.mp herr with herr | ⟨e₁, -, herr⟩
        · exact herr
        · simp at herr
    · intro herr
      exact bind_eq_error.mpr (.inr ⟨e.info idx, infoAt_ok.mpr ⟨hlt, rfl⟩,
        bind_eq_error.mpr (.inl herr)⟩)
  rw [hmoved, unbindMoved_error (by exact hw)]
  simp only [moved_openInfo]
  constructor
  · rintro ⟨rfl, hfull, t, ⟨hact, ht⟩, hrest⟩
    exact ⟨rfl, hact, hfull, t, ht, hrest⟩
  · rintro ⟨rfl, hact, hfull, t, ht, hrest⟩
    exact ⟨rfl, hfull, t, ⟨hact, ht⟩, hrest⟩

theorem installSession_hang (hi : Indexed e) :
    e.installSession spec nowNs = .error .hang ↔
      spec.valid = true ∧ ∃ idx, e.imsiIndex spec.imsi = some idx ∧
        (e.info idx).active = true ∧ Stuck e (e.info idx) spec := by
  unfold installSession
  cases hvalid : spec.valid with
  | false => simp
  | true =>
      simp only [Bool.not_true, Bool.false_eq_true, if_false, true_and]
      cases hidx : e.imsiIndex spec.imsi with
      | some idx =>
          have hlt := Nat.lt_of_lt_of_le (hi.imsi_eq _ _ hidx).1 hi.next_le
          simpa using installAt_error (f := .hang) hi.wf hlt
      | none =>
          dsimp only
          split_ifs with hfull
          · simp
          · -- a new subscriber has no tunnels yet
            have hnew : (e.info e.nextSub).active = false := hi.fresh _ le_rfl
            have hroom : e.nextSub < (e.allocate spec.imsi).tableSize := Nat.lt_of_not_le hfull
            rw [installAt_error (by exact hi.wf) hroom]
            simp [allocate, hnew]

theorem releaseSession_hang (hi : Indexed e) :
    e.releaseSession imsi nowNs = .error .hang ↔
      ∃ idx, e.imsiIndex imsi = some idx ∧ (e.info idx).active = true ∧
        Stuck e (e.info idx) {} := by
  unfold releaseSession
  cases hidx : e.imsiIndex imsi with
  | none => simp
  | some idx =>
      have hlt := Nat.lt_of_lt_of_le (hi.imsi_eq _ _ hidx).1 hi.next_le
      have hinfo : e.infoAt idx = .ok (e.info idx) := infoAt_ok.mpr ⟨hlt, rfl⟩
      have hemit : ∀ reason, e.emitRecord idx reason nowNs = .ok (e.emitted idx reason nowNs) :=
        fun reason => emitRecord_ok.mpr ⟨hlt, rfl⟩
      simp only [Option.some.injEq, exists_eq_left', hinfo, hemit]
      cases hact : (e.info idx).active with
      | false => simp [bind, Except.bind, hact]
      | true =>
          have hstuck : (e.emitted idx .release nowNs).1.unbindAll (e.info idx) = .error .hang ↔
              Stuck e (e.info idx) {} := by
            rw [unbindAll_eq, unbindMoved_error (by exact hi.wf)]
            simp only [true_and]
            rfl
          rw [← hstuck]
          simp only [bind, Except.bind, hact, Bool.not_true, Bool.false_eq_true, if_false,
            true_and]
          cases (e.emitted idx .release nowNs).1.unbindAll (e.info idx) with
          | error f => simp
          | ok e₁ => simp

/-- **When deletions return.**  A deletion from a reachable table ends, after some
number of turns of its shift loop, exactly if the key is the side-slot key, or a
slot is free, or the key is not stored.  So a release, or an installation for a
known IMSI, hangs exactly if the table is full and holds a tunnel that is to go. -/
theorem deletion_returns_iff {V : Type} [Inhabited V] {hash : UInt32 → UInt32}
    {capacity : UInt64} {ht : List (Transition (FlatHashU32 V) (TableOp V) Bool)}
    {t : FlatHashU32 V} (htable : Run (tableStep hash) (FlatHashU32.init capacity) ht t)
    (hrun : Reaches cfg sink h e) :
    (∀ k, (∃ fuel r, eraseFuel hash fuel t k = some r) ↔
      k = kEmptyKey ∨ t.size < t.capacity ∨ lookup hash t k = none) ∧
    (∀ k, erase hash t k = none ↔ ∀ fuel, eraseFuel hash fuel t k = none) ∧
    (∀ imsi nowNs, e.releaseSession imsi nowNs ≠ .error .hang ↔
      ∀ idx, e.imsiIndex imsi = some idx → (e.info idx).active = true →
        ¬Stuck e (e.info idx) {}) ∧
    (∀ spec nowNs, e.installSession spec nowNs ≠ .error .hang ↔
      (spec.valid = true → ∀ idx, e.imsiIndex spec.imsi = some idx →
        (e.info idx).active = true → ¬Stuck e (e.info idx) spec)) := by
  have hi := reaches_indexed hrun
  refine ⟨erase_returns_iff htable, fun k => erase_none_iff_forall (run_represents htable).wf,
    ?_, ?_⟩
  · intro imsi nowNs
    rw [Ne, releaseSession_hang hi]
    push Not
    rfl
  · intro spec nowNs
    rw [Ne, installSession_hang hi]
    push Not
    rfl

/-- Deletions from a table with one free slot. -/
theorem deletion_returns_seven :
    (∃ ht t, Run (tableStep hashU32) (FlatHashU32.init 8 : FlatHashU32 Nat) ht t ∧
      t.size = 7 ∧ ∃ fuel r, eraseFuel hashU32 fuel t 1 = some r) ∧
    (∃ h e, Reaches smallConfig noSink h e ∧
      e.releaseSession 1 0 ≠ .error .hang) := by
  have htable : execCheck (tableStep hashU32) (FlatHashU32.init 8 : FlatHashU32 Nat)
      ((List.range 7).map (fun i => .insert (UInt32.ofNat (i + 1)) i))
      (fun _ t => decide (t.size = 7 ∧ t.capacity = 8)) = true := by decide +kernel
  have hengine : execCheck step (init smallConfig noSink)
      [.install { imsi := 1, ulTeid := 100, dlTeid := 200 } 0]
      (fun _ e => decide (e.imsiIndex 1 = some 0 ∧ e.teidMap.size ≠ e.teidMap.capacity)) =
      true := by decide +kernel
  obtain ⟨ht, t, hrunt, hcheckt⟩ := Run.of_execCheck htable
  obtain ⟨h, e, hrun, hcheck⟩ := Run.of_execCheck hengine
  obtain ⟨hsize, hcap⟩ := of_decide_eq_true hcheckt
  obtain ⟨hidx, hfree⟩ := of_decide_eq_true hcheck
  have hret := deletion_returns_iff hrunt hrun
  refine ⟨⟨ht, t, hrunt, hsize, (hret.1 1).mpr (.inr (.inl (by omega)))⟩, h, e, hrun, ?_⟩
  exact (hret.2.2.1 1 0).mpr (fun idx _ _ hstuck => hfree hstuck.1)

/-- A deletion from a full table never ends, and a release with it. -/
theorem deletion_hangs_when_full :
    (∃ ht t, Run (tableStep hashU32) (FlatHashU32.init 8 : FlatHashU32 Nat) ht t ∧
      t.size = t.capacity ∧ ∀ fuel, eraseFuel hashU32 fuel t 1 = none) ∧
    (∃ h e, Reaches smallConfig noSink h e ∧ e.releaseSession 1 0 = .error .hang) := by
  have htable : execCheck (tableStep hashU32) (FlatHashU32.init 8 : FlatHashU32 Nat)
      ((List.range 8).map (fun i => .insert (UInt32.ofNat (i + 1)) i))
      (fun _ t => decide (t.size = t.capacity) && (erase hashU32 t 1).isNone) = true := by
    decide +kernel
  have hengine : execCheck step (init smallConfig noSink) fourSessions
      (fun _ e => failsWith (e.releaseSession 1 0) .hang) = true := by
    decide +kernel
  obtain ⟨ht, t, hrunt, hcheckt⟩ := Run.of_execCheck htable
  obtain ⟨h, e, hrun, hcheck⟩ := Run.of_execCheck hengine
  rw [Bool.and_eq_true, decide_eq_true_eq, Option.isNone_iff_eq_none] at hcheckt
  refine ⟨⟨ht, t, hrunt, hcheckt.1, ?_⟩, h, e, hrun, failsWith_iff.mp hcheck⟩
  exact (erase_none_iff_forall (run_represents hrunt).wf).mp hcheckt.2

end Returning

section Isolation

/-- A TEID that the spec asks for. -/
def Named (spec : SessionSpec) (t : UInt32) : Prop :=
  t ≠ 0 ∧ (t = spec.ulTeid ∨ t = spec.dlTeid)

/-- The index that a call for `imsi` works on. -/
def target (e : MeterEngine) (imsi : UInt64) : Nat :=
  (e.imsiIndex imsi).getD e.nextSub

/-- The entries of all other active subscribers are as before, except that a TEID
named by the spec may have moved to the session of the call. -/
def Undisturbed (e : MeterEngine) (imsi : UInt64) (spec : SessionSpec) (e' : MeterEngine) :
    Prop :=
  ∀ t b, e.bindingOf t = some b → (e.info b.subIdx.toNat).active = true →
    b.subIdx.toNat ≠ e.target imsi →
    e'.bindingOf t = some b ∨
      (Named spec t ∧ ∃ b', e'.bindingOf t = some b' ∧
        b'.subIdx = UInt32.ofNat (e.target imsi))

/-- No tunnel that the session of `imsi` gives up, and that the spec does not name,
is by now the tunnel of another active subscriber. -/
def KeepsToItsOwn (e : MeterEngine) (imsi : UInt64) (spec : SessionSpec) : Prop :=
  ∀ idx, e.imsiIndex imsi = some idx → (e.info idx).active = true →
    ∀ t, Moved (e.info idx) spec t → ¬Named spec t →
      ∀ b, e.bindingOf t = some b → (e.info b.subIdx.toNat).active = true →
        b.subIdx.toNat = idx

/-- A moved tunnel that is named again finds room: its old entry is gone. -/
theorem Installed.named_bound {r : Option Nat} (hin : Installed e idx spec nowNs e' r)
    {t : UInt32} (hnamed : Named spec t)
    (hmoved : Moved (openInfo (e.info idx) spec nowNs) spec t)
    (hbound : e.bindingOf t ≠ none) :
    ∃ b, e'.bindingOf t = some b ∧ b.subIdx = UInt32.ofNat idx := by
  cases hin with
  | mk m₁ m₂ m₃ f ulOk dlOk hlt hu hb₁ hb₂ =>
      have hroom : t ≠ kEmptyKey → m₁.size + 1 < m₁.capacity := by
        intro hk
        obtain ⟨hlt₁, hfree⟩ := hu.size_lt ⟨t, hmoved, hk, hbound⟩
        have := hu.capacity_eq
        omega
      have hul : spec.ulTeid = t → ulOk = true := by
        rintro rfl
        exact hb₁.ok_of_room (fun hk => by have := hroom hk; omega)
      have hdl : spec.dlTeid = t → dlOk = true := by
        rintro rfl
        have hcap := hb₁.capacity_eq
        have hgrow := hb₁.size_le_succ
        exact hb₂.ok_of_room (fun hk => by have := hroom hk; omega)
      show ∃ b, lookup hashU32 m₃ t = some b ∧ _
      by_cases htd : t = spec.dlTeid
      · exact ⟨_, (hb₂.lookup_eq t).1 ⟨htd ▸ hnamed.1, hdl htd.symm, htd⟩, rfl⟩
      · have htu : t = spec.ulTeid := hnamed.2.resolve_right htd
        refine ⟨_, ((hb₂.lookup_eq t).2 (fun hh => htd hh.2.2)).trans
          ((hb₁.lookup_eq t).1 ⟨htu ▸ hnamed.1, hul htu.symm, htu⟩), rfl⟩

theorem named_empty {t : UInt32} : ¬Named {} t := by
  rintro ⟨h0, rfl | rfl⟩ <;> exact h0 rfl

/-- The entries of the others after an installation at `idx`. -/
theorem Installed.undisturbed_iff {r : Option Nat} (hin : Installed e idx spec nowNs e' r) :
    (∀ t b, e.bindingOf t = some b → (e.info b.subIdx.toNat).active = true →
      b.subIdx.toNat ≠ idx →
      e'.bindingOf t = some b ∨
        (Named spec t ∧ ∃ b', e'.bindingOf t = some b' ∧ b'.subIdx = UInt32.ofNat idx)) ↔
    ((e.info idx).active = true → ∀ t, Moved (e.info idx) spec t → ¬Named spec t →
      ∀ b, e.bindingOf t = some b → (e.info b.subIdx.toNat).active = true →
        b.subIdx.toNat = idx) := by
  obtain ⟨ulOk, dlOk, -, hlk⟩ := hin.bindingOf_eq
  constructor
  · intro hund hact t hmoved hnot b hb hactb
    by_contra hne
    have hgone : e'.bindingOf t = none := by
      rw [hlk, if_neg, if_neg, if_pos (moved_openInfo.mpr ⟨hact, hmoved⟩)]
      · rintro ⟨h0, -, rfl⟩
        exact hnot ⟨h0, .inl rfl⟩
      · rintro ⟨h0, -, rfl⟩
        exact hnot ⟨h0, .inr rfl⟩
    rcases hund t b hb hactb hne with hsame | ⟨hnamed, -⟩
    · rw [hgone] at hsame
      simp at hsame
    · exact hnot hnamed
  · intro hown t b hb hactb hne
    by_cases hmoved : Moved (openInfo (e.info idx) spec nowNs) spec t
    · by_cases hnamed : Named spec t
      · obtain ⟨b', hb', hidx⟩ := hin.named_bound hnamed hmoved (by simp [hb])
        exact .inr ⟨hnamed, b', hb', hidx⟩
      · obtain ⟨hact, hmoved⟩ := moved_openInfo.mp hmoved
        exact absurd (hown hact t hmoved hnamed b hb hactb) hne
    · rw [hlk]
      split_ifs with hdl hul
      · exact .inr ⟨⟨hdl.2.2 ▸ hdl.1, .inr hdl.2.2⟩, _, rfl, rfl⟩
      · exact .inr ⟨⟨hul.2.2 ▸ hul.1, .inl hul.2.2⟩, _, rfl, rfl⟩
      · exact .inl hb

/-- The entries of the others after a release. -/
theorem Unbound.undisturbed_iff {m : FlatHashU32 TeidBinding}
    (hidx : e.imsiIndex imsi = some idx) (hact : (e.info idx).active = true)
    (hmap : e'.teidMap = m) (hu : Unbound e.teidMap m (Moved (e.info idx) {})) :
    Undisturbed e imsi {} e' ↔ KeepsToItsOwn e imsi {} := by
  have htarget : e.target imsi = idx := by simp [target, hidx]
  have hlk : ∀ t, e'.bindingOf t = lookup hashU32 m t := fun t => by simp [bindingOf, hmap]
  constructor
  · intro hund i hi hacti t hmoved _ b hb hactb
    obtain rfl : idx = i := Option.some.inj (hidx.symm.trans hi)
    by_contra hne
    rcases hund t b hb hactb (by rwa [htarget]) with hsame | ⟨hnamed, -⟩
    · rw [hlk, hu.lookup_gone t hmoved] at hsame
      simp at hsame
    · exact named_empty hnamed
  · intro hown t b hb hactb hne
    rw [htarget] at hne
    left
    have hkept : ¬Moved (e.info idx) {} t := fun hmoved =>
      hne (hown idx hidx hact t hmoved named_empty b hb hactb)
    rw [hlk, hu.lookup_kept t hkept]
    exact hb

/-- **When sessions do not interfere.**  In every reachable state, an installation
or release that returns leaves the tunnels of all other active subscribers alone
exactly if none of the tunnels it unbinds has meanwhile gone to one of them. -/
theorem sessions_isolated_iff (hrun : Reaches cfg sink h e) :
    (∀ spec nowNs e' r, e.installSession spec nowNs = .ok (e', r) →
      (Undisturbed e spec.imsi spec e' ↔
        (spec.valid = true → KeepsToItsOwn e spec.imsi spec))) ∧
    (∀ imsi nowNs e' released ems, e.releaseSession imsi nowNs = .ok (e', released, ems) →
      (Undisturbed e imsi {} e' ↔ KeepsToItsOwn e imsi {})) := by
  have hi := reaches_indexed hrun
  have hself : ∀ imsi spec, Undisturbed e imsi spec e := fun _ _ _ _ hb _ _ => .inl hb
  constructor
  · intro spec nowNs e' r hop
    rcases installSession_cases hi.wf hop with ⟨rfl, -, hno⟩ | ⟨hv, idx, hidx, hin⟩ |
      ⟨hv, hidx, hroom, hin⟩
    · refine iff_of_true (hself _ _) ?_
      intro hv i hidx
      rcases hno with hinv | ⟨hnone, -⟩
      · rw [hv] at hinv
        simp at hinv
      · rw [hnone] at hidx
        simp at hidx
    · have htarget : e.target spec.imsi = idx := by simp [target, hidx]
      unfold Undisturbed
      rw [htarget, hin.undisturbed_iff]
      constructor
      · intro hown _ i hii hact
        obtain rfl : idx = i := Option.some.inj (hidx.symm.trans hii)
        exact hown hact
      · intro hown hact
        exact hown hv idx hidx hact
    · have htarget : e.target spec.imsi = e.nextSub := by simp [target, hidx]
      refine iff_of_true ?_ ?_
      · unfold Undisturbed
        rw [htarget]
        refine hin.undisturbed_iff.mpr ?_
        intro hact
        rw [show (e.allocate spec.imsi).info = e.info from rfl, hi.fresh _ le_rfl] at hact
        simp at hact
      · intro _ i hii
        rw [hidx] at hii
        simp at hii
  · intro imsi nowNs e' released ems hop
    rcases releaseSession_cases hi.wf hop with ⟨rfl, -, -, hno⟩ |
      ⟨idx, m, hidx, -, hact, hu, -, -, rfl⟩
    · refine iff_of_true (hself _ _) ?_
      intro i hii hact
      rw [hno i hii] at hact
      simp at hact
    · exact hu.undisturbed_iff hidx hact rfl

/-- Two sessions with tunnels of their own: releasing one leaves the other. -/
theorem sessions_isolated_apart :
    ∃ h e e' ems, Reaches smallConfig noSink h e ∧
      e.bindingOf 200 = some ⟨1, Direction.uplink.code, 0⟩ ∧
      e.releaseSession 1 0 = .ok (e', true, ems) ∧ Undisturbed e 1 {} e' := by
  have hex : execCheck step (init smallConfig noSink)
      [.install { imsi := 1, ulTeid := 100 } 0, .install { imsi := 2, ulTeid := 200 } 0]
      (fun _ e => decide (e.imsiIndex 1 = some 0 ∧ (e.info 0).ulTeid = 100 ∧
          (e.info 0).dlTeid = 0 ∧ e.bindingOf 100 = some ⟨0, Direction.uplink.code, 0⟩ ∧
          e.bindingOf 200 = some ⟨1, Direction.uplink.code, 0⟩) &&
        returnsWith (e.releaseSession 1 0) (fun r => r.2.1)) = true := by decide +kernel
  obtain ⟨h, e, hrun, hcheck⟩ := Run.of_execCheck hex
  rw [Bool.and_eq_true, decide_eq_true_eq] at hcheck
  obtain ⟨⟨hidx, hul, hdl, hb₁, hb₂⟩, hret⟩ := hcheck
  obtain ⟨⟨e', released, ems⟩, hrel, hreleased⟩ := returnsWith_iff.mp hret
  obtain rfl : released = true := hreleased
  refine ⟨h, e, e', ems, hrun, hb₂, hrel, ?_⟩
  refine ((sessions_isolated_iff hrun).2 1 0 e' true ems hrel).mpr ?_
  intro idx hi _ t hmoved _ b hb _
  obtain rfl : 0 = idx := Option.some.inj (hidx.symm.trans hi)
  rcases hmoved with ⟨-, -, rfl⟩ | ⟨h0, -⟩
  · rw [hul, hb₁] at hb
    obtain rfl := Option.some.inj hb
    rfl
  · exact absurd hdl h0

/-- A TEID that went from one session to another is lost when the first one is
released. -/
theorem release_unbinds_other :
    ∃ h e e' ems, Reaches smallConfig noSink h e ∧
      e.bindingOf 100 = some ⟨1, Direction.uplink.code, 0⟩ ∧ (e.info 1).active = true ∧
      e.releaseSession 1 0 = .ok (e', true, ems) ∧ e'.bindingOf 100 = none ∧
      ¬Undisturbed e 1 {} e' := by
  have hex : execCheck step (init smallConfig noSink)
      [.install { imsi := 1, ulTeid := 100 } 0, .install { imsi := 2, ulTeid := 100 } 0]
      (fun _ e => decide (e.imsiIndex 1 = some 0 ∧ (e.info 1).active = true ∧
          e.bindingOf 100 = some ⟨1, Direction.uplink.code, 0⟩) &&
        returnsWith (e.releaseSession 1 0)
          (fun r => r.2.1 && decide (r.1.bindingOf 100 = none))) = true := by decide +kernel
  obtain ⟨h, e, hrun, hcheck⟩ := Run.of_execCheck hex
  rw [Bool.and_eq_true, decide_eq_true_eq] at hcheck
  obtain ⟨⟨hidx, hact, hb⟩, hret⟩ := hcheck
  obtain ⟨⟨e', released, ems⟩, hrel, hres⟩ := returnsWith_iff.mp hret
  rw [Bool.and_eq_true, decide_eq_true_eq] at hres
  obtain ⟨rfl, hgone⟩ : released = true ∧ e'.bindingOf 100 = none := hres
  refine ⟨h, e, e', ems, hrun, hb, hact, hrel, hgone, ?_⟩
  intro hund
  rcases hund 100 _ hb hact (by simp [target, hidx]) with hsame | ⟨hnamed, -⟩
  · rw [hgone] at hsame
    simp at hsame
  · exact named_empty hnamed

end Isolation

end MeterEngine
end GtpMeter
