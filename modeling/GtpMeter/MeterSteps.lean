import GtpMeter.FlatHashCorrectness
import GtpMeter.MeterEngine

/-!
# What each call does to the engine

One inversion lemma per function of the engine.  Each says, for a call that
returns, what the state after it is as a record built from the state before it.
Later modules use these lemmas and do not look into the functions again.

**Results.**
* `emitRecord_eq`: `emit_record` in closed form.
* `installSession_cases`, `releaseSession_cases`, `apply_cases`, `applyGy_moves`.
* `poll_emitRun`, `drain_emitRun`: a timer sweep and a drain are sequences of
  emissions for active subscribers.
* `step_moves`: all ways in which a call can return, in one relation.
-/

namespace GtpMeter
namespace MeterEngine

open FlatHashU32 Runs

variable {e e' : MeterEngine} {idx : Nat} {nowNs : UInt64}

section Accessors

theorem countersAt_ok {c : SubscriberCounters} :
    e.countersAt idx = .ok c ↔ idx < e.tableSize ∧ e.counters idx = c := by
  unfold countersAt
  split_ifs with h <;> simp [h]

theorem infoAt_ok {info : SubscriberInfo} :
    e.infoAt idx = .ok info ↔ idx < e.tableSize ∧ e.info idx = info := by
  unfold infoAt
  split_ifs with h <;> simp [h]

end Accessors

section Records

/-- `emit_record` for an index inside the table. -/
def emitted (e : MeterEngine) (idx : Nat) (reason : RecordReason) (nowNs : UInt64) :
    MeterEngine × Emission :=
  let r := makeRecord (e.counters idx) (e.info idx) idx reason nowNs
    (e.sink.wall e.sink.offered)
  let offered := e.sink.offer r
  ({ e with
      info := Function.update e.info idx (markEmitted (e.counters idx) (e.info idx) nowNs)
      sink := offered.1
      stats := countRecord e.stats offered.2 },
    ⟨idx, r, offered.2⟩)

theorem emitted_stats (reason : RecordReason) :
    (e.emitted idx reason nowNs).1.stats =
      countRecord e.stats (e.emitted idx reason nowNs).2.outcome :=
  rfl

theorem emitRecord_eq (reason : RecordReason) :
    e.emitRecord idx reason nowNs =
      if idx < e.tableSize then .ok (e.emitted idx reason nowNs) else .error .outOfRange := by
  unfold emitRecord countersAt infoAt
  split_ifs with h <;> rfl

theorem emitRecord_ok {reason : RecordReason} {r : MeterEngine × Emission} :
    e.emitRecord idx reason nowNs = .ok r ↔
      idx < e.tableSize ∧ e.emitted idx reason nowNs = r := by
  rw [emitRecord_eq]
  split_ifs with h <;> simp [h]

/-- A sequence of emissions, each for an active subscriber, between which only
the sweep bookkeeping moves. -/
inductive EmitRun (nowNs : UInt64) : MeterEngine → List Emission → MeterEngine → Prop
  | nil (e : MeterEngine) : EmitRun nowNs e [] e
  | sweep {e e' : MeterEngine} {ems : List Emission} (cursor : Nat) (last : UInt64) :
      EmitRun nowNs { e with sweepCursor := cursor, lastSweepNs := last } ems e' →
      EmitRun nowNs e ems e'
  | emit {e e' : MeterEngine} {ems : List Emission} {idx : Nat} (reason : RecordReason) :
      idx < e.tableSize → idx < e.nextSub → (e.info idx).active = true →
      EmitRun nowNs (e.emitted idx reason nowNs).1 ems e' →
      EmitRun nowNs e ((e.emitted idx reason nowNs).2 :: ems) e'

theorem EmitRun.append {e₁ e₂ : MeterEngine} {ems ems' : List Emission}
    (h : EmitRun nowNs e ems e₁) (h' : EmitRun nowNs e₁ ems' e₂) :
    EmitRun nowNs e (ems ++ ems') e₂ := by
  induction h with
  | nil => exact h'
  | sweep cursor last _ ih => exact .sweep cursor last (ih h')
  | emit reason hlt hnext hact _ ih => exact .emit reason hlt hnext hact (ih h')

theorem EmitRun.nextSub_eq {ems : List Emission} (h : EmitRun nowNs e ems e') :
    e'.nextSub = e.nextSub := by
  induction h with
  | nil => rfl
  | sweep cursor last _ ih => exact ih
  | emit reason _ _ _ _ ih => exact ih

/-- A turn of a loop that emits nothing. -/
theorem emitRun_of_skip {ems : List Emission}
    (h : (.ok (e, []) : Except Fault (MeterEngine × List Emission)) = .ok (e', ems)) :
    EmitRun nowNs e ems e' := by
  obtain ⟨rfl, rfl⟩ : e = e' ∧ [] = ems := by simpa using h
  exact .nil e

/-- A turn that emits one record, for an active subscriber. -/
theorem emitRun_of_emitRecord {reason : RecordReason} {ems : List Emission}
    (hnext : idx < e.nextSub) (hact : (e.info idx).active = true)
    (h : (do
      let (e, em) ← e.emitRecord idx reason nowNs
      .ok (e, [em])) = .ok (e', ems)) : EmitRun nowNs e ems e' := by
  obtain ⟨⟨e₁, em⟩, hem, h⟩ := bind_eq_ok.mp h
  obtain ⟨rfl, rfl⟩ : e₁ = e' ∧ [em] = ems := by simpa using h
  obtain ⟨hlt, hem⟩ := emitRecord_ok.mp hem
  have hrun := EmitRun.emit reason hlt hnext hact (.nil (e.emitted idx reason nowNs).1)
  rwa [hem] at hrun

theorem drainSlot_emitRun {ems : List Emission} (hnext : idx < e.nextSub)
    (h : e.drainSlot idx nowNs = .ok (e', ems)) : EmitRun nowNs e ems e' := by
  obtain ⟨info, hinfo, h⟩ := bind_eq_ok.mp h
  obtain ⟨_, rfl⟩ := infoAt_ok.mp hinfo
  cases hact : (e.info idx).active with
  | false => exact emitRun_of_skip (by simpa [hact] using h)
  | true =>
      simp only [hact, Bool.not_true, Bool.false_eq_true, if_false] at h
      obtain ⟨c, _, h⟩ := bind_eq_ok.mp h
      split_ifs at h
      · exact emitRun_of_skip h
      · exact emitRun_of_emitRecord hnext hact h

theorem drainLoop_emitRun {n : Nat} {ems : List Emission} (hn : idx + n ≤ e.nextSub)
    (h : drainLoop nowNs n idx e = .ok (e', ems)) : EmitRun nowNs e ems e' := by
  induction n generalizing idx e ems with
  | zero =>
      obtain ⟨rfl, rfl⟩ : e = e' ∧ [] = ems := by simpa [drainLoop] using h
      exact .nil e
  | succ n ih =>
      obtain ⟨⟨e₁, ems₁⟩, hslot, h⟩ := bind_eq_ok.mp h
      obtain ⟨⟨e₂, ems₂⟩, hloop, h⟩ := bind_eq_ok.mp h
      obtain ⟨rfl, rfl⟩ : e₂ = e' ∧ ems₁ ++ ems₂ = ems := by simpa using h
      have hrun := drainSlot_emitRun (by omega) hslot
      have hnext := hrun.nextSub_eq
      exact hrun.append (ih (by omega) hloop)

theorem drain_emitRun {ems : List Emission} (h : e.drain nowNs = .ok (e', ems)) :
    EmitRun nowNs e ems e' :=
  drainLoop_emitRun (by omega) h

theorem pollSlot_emitRun {live : Nat} {ems : List Emission} (hlive : live = e.nextSub)
    (hpos : 0 < live) (h : e.pollSlot live nowNs = .ok (e', ems)) : EmitRun nowNs e ems e' := by
  unfold pollSlot at h
  generalize hidx : (if e.sweepCursor ≥ live then 0 else e.sweepCursor) = i at h
  have hi : i < e.nextSub := by
    rw [← hidx]
    split_ifs <;> omega
  refine .sweep (i + 1) e.lastSweepNs ?_
  obtain ⟨info, hinfo, h⟩ := bind_eq_ok.mp h
  obtain ⟨_, rfl⟩ := infoAt_ok.mp hinfo
  cases hact : (e.info i).active with
  | false => exact emitRun_of_skip (by simpa [hact] using h)
  | true =>
      simp only [hact, Bool.not_true, Bool.false_eq_true, if_false] at h
      obtain ⟨c, _, h⟩ := bind_eq_ok.mp h
      split_ifs at h
      · exact emitRun_of_skip h
      · exact emitRun_of_emitRecord hi hact h
      · exact emitRun_of_emitRecord hi hact h
      · exact emitRun_of_skip h

theorem pollLoop_emitRun {live n : Nat} {ems : List Emission} (hlive : live = e.nextSub)
    (hpos : 0 < live) (h : pollLoop live nowNs n e = .ok (e', ems)) :
    EmitRun nowNs e ems e' := by
  induction n generalizing e ems with
  | zero =>
      obtain ⟨rfl, rfl⟩ : e = e' ∧ [] = ems := by simpa [pollLoop] using h
      exact .nil e
  | succ n ih =>
      obtain ⟨⟨e₁, ems₁⟩, hslot, h⟩ := bind_eq_ok.mp h
      obtain ⟨⟨e₂, ems₂⟩, hloop, h⟩ := bind_eq_ok.mp h
      obtain ⟨rfl, rfl⟩ : e₂ = e' ∧ ems₁ ++ ems₂ = ems := by simpa using h
      have hrun := pollSlot_emitRun hlive hpos hslot
      have hnext := hrun.nextSub_eq
      exact hrun.append (ih (by omega) hloop)

theorem poll_emitRun {ems : List Emission} (h : e.poll nowNs = .ok (e', ems)) :
    EmitRun nowNs e ems e' := by
  unfold poll at h
  dsimp only at h
  split_ifs at h with hearly hlive
  · exact emitRun_of_skip h
  · exact .sweep e.sweepCursor nowNs (emitRun_of_skip h)
  · exact .sweep e.sweepCursor nowNs (pollLoop_emitRun rfl (Nat.pos_of_ne_zero hlive) h)

end Records

section Tunnels

variable {m m₁ m₂ : FlatHashU32 TeidBinding} {teid old new : UInt32}

/-- `m'` is `m` without the entries of the TEIDs in `gone`, by deletions that
returned. -/
structure Unbound (m m' : FlatHashU32 TeidBinding) (gone : UInt32 → Prop) : Prop where
  wf : Wf hashU32 m'
  capacity_eq : m'.capacity = m.capacity
  lookup_gone : ∀ t, gone t → lookup hashU32 m' t = none
  lookup_kept : ∀ t, ¬gone t → lookup hashU32 m' t = lookup hashU32 m t
  size_le : m'.size ≤ m.size
  size_eq : (∀ t, gone t → t ≠ kEmptyKey → lookup hashU32 m t = none) → m'.size = m.size
  size_lt : (∃ t, gone t ∧ t ≠ kEmptyKey ∧ lookup hashU32 m t ≠ none) →
    m'.size < m.size ∧ m.size < m.capacity
  unchanged : (∀ t, gone t → lookup hashU32 m t = none) → m' = m

theorem Unbound.refl (hw : Wf hashU32 m) {gone : UInt32 → Prop} (hno : ∀ t, ¬gone t) :
    Unbound m m gone where
  wf := hw
  capacity_eq := rfl
  lookup_gone := fun t ht => absurd ht (hno t)
  lookup_kept := fun _ _ => rfl
  size_le := le_rfl
  size_eq := fun _ => rfl
  size_lt := fun ⟨t, ht, _⟩ => absurd ht (hno t)
  unchanged := fun _ => rfl

/-- Deletions compose. -/
theorem Unbound.trans {gone₁ gone₂ : UInt32 → Prop} (h₁ : Unbound m m₁ gone₁)
    (h₂ : Unbound m₁ m₂ gone₂) : Unbound m m₂ (fun t => gone₁ t ∨ gone₂ t) := by
  have hsub : ∀ t, lookup hashU32 m t = none → lookup hashU32 m₁ t = none := by
    intro t ht
    by_cases hg : gone₁ t
    · exact h₁.lookup_gone t hg
    · rw [h₁.lookup_kept t hg, ht]
  refine ⟨h₂.wf, h₂.capacity_eq.trans h₁.capacity_eq, ?_, ?_, h₂.size_le.trans h₁.size_le,
    ?_, ?_, ?_⟩
  · intro t ht
    by_cases hg : gone₂ t
    · exact h₂.lookup_gone t hg
    · rw [h₂.lookup_kept t hg]
      exact h₁.lookup_gone t (ht.resolve_right hg)
  · intro t ht
    obtain ⟨hg₁, hg₂⟩ := not_or.mp ht
    rw [h₂.lookup_kept t hg₂, h₁.lookup_kept t hg₁]
  · intro hmiss
    rw [h₂.size_eq (fun t ht hk => hsub t (hmiss t (.inr ht) hk)),
      h₁.size_eq (fun t ht hk => hmiss t (.inl ht) hk)]
  · rintro ⟨t, ht, hk, hbound⟩
    have hle := h₂.size_le
    by_cases hhit : ∃ t, gone₁ t ∧ t ≠ kEmptyKey ∧ lookup hashU32 m t ≠ none
    · obtain ⟨hlt, hfree⟩ := h₁.size_lt hhit
      omega
    · -- the first deletions missed, so the entry was still there for the second
      have hmiss : ∀ t, gone₁ t → t ≠ kEmptyKey → lookup hashU32 m t = none := by
        intro t' ht' hk'
        by_contra hb
        exact hhit ⟨t', ht', hk', hb⟩
      have hg₁ : ¬gone₁ t := fun hg => hbound (hmiss t hg hk)
      have hlt := h₂.size_lt ⟨t, ht.resolve_left hg₁, hk, by rwa [h₁.lookup_kept t hg₁]⟩
      have hsame := h₁.size_eq hmiss
      have hcap := h₁.capacity_eq
      omega
  · intro hmiss
    rw [h₂.unchanged (fun t ht => hsub t (hmiss t (.inr ht))),
      h₁.unchanged (fun t ht => hmiss t (.inl ht))]

/-- A deletion that returned took one entry. -/
theorem Unbound.of_erased {had : Bool} (he : erase hashU32 m teid = some (m₁, had))
    (hw : Wf hashU32 m) : Unbound m m₁ (· = teid) := by
  have h := erase_spec hw he
  have hsize := h.size_eq
  refine ⟨h.wf, h.capacity_eq, ?_, ?_, by omega, ?_, ?_, ?_⟩
  · rintro t rfl
    rw [h.lookup_eq, if_pos rfl]
  · intro t ht
    rw [h.lookup_eq, if_neg ht]
  · intro hmiss
    by_cases hk : teid = kEmptyKey
    · simpa [hk] using hsize
    · have hno : had = false := by simp [h.had_eq, hmiss teid rfl hk]
      simpa [hno] using hsize
  · rintro ⟨t, rfl, hk, hbound⟩
    have hyes : had = true := by
      rw [h.had_eq]
      exact Option.isSome_iff_ne_none.mpr hbound
    rw [if_pos ⟨hk, hyes⟩] at hsize
    have hle := hw.size_le
    have hfree : m.size ≠ m.capacity := by
      intro hfull
      have hnone := (erase_none_iff hw).mpr ⟨hk, hfull, hbound⟩
      rw [hnone] at he
      simp at he
    omega
  · intro hmiss
    exact h.absent (by simp [h.had_eq, hmiss teid rfl])

theorem eraseTeid_ok (hw : Wf hashU32 e.teidMap) (h : e.eraseTeid teid = .ok e') :
    ∃ m, e' = { e with teidMap := m } ∧ Unbound e.teidMap m (· = teid) := by
  unfold eraseTeid at h
  cases he : erase hashU32 e.teidMap teid with
  | none => simp [he] at h
  | some r =>
      obtain ⟨m, had⟩ := r
      rw [he] at h
      exact ⟨m, (Except.ok.inj h).symm, .of_erased he hw⟩

theorem eraseMoved_ok (hw : Wf hashU32 e.teidMap) (h : e.eraseMoved old new = .ok e') :
    ∃ m, e' = { e with teidMap := m } ∧
      Unbound e.teidMap m (fun t => old ≠ 0 ∧ old ≠ new ∧ t = old) := by
  unfold eraseMoved at h
  split_ifs at h with hmoved
  · obtain ⟨m, rfl, hm⟩ := eraseTeid_ok hw h
    refine ⟨m, rfl, ?_⟩
    convert hm using 2
    simp [hmoved.1, hmoved.2]
  · obtain rfl := Except.ok.inj h
    exact ⟨e.teidMap, rfl, .refl hw (fun t ht => hmoved ⟨ht.1, ht.2.1⟩)⟩

theorem eraseNamed_eq : e.eraseNamed teid = e.eraseMoved teid 0 := by
  simp [eraseNamed, eraseMoved]

/-- A deletion faults only by not returning, and when it does. -/
theorem eraseMoved_error (hw : Wf hashU32 e.teidMap) {f : Fault} :
    e.eraseMoved old new = .error f ↔
      f = .hang ∧ old ≠ 0 ∧ old ≠ new ∧ old ≠ kEmptyKey ∧
        e.teidMap.size = e.teidMap.capacity ∧ e.bindingOf old ≠ none := by
  unfold eraseMoved eraseTeid bindingOf
  split_ifs with hmoved
  · cases he : erase hashU32 e.teidMap old with
    | none =>
        have hstuck := (erase_none_iff hw).mp he
        simp [hmoved, hstuck, eq_comm]
    | some r =>
        simp only [reduceCtorEq, false_iff]
        intro hstuck
        rw [(erase_none_iff hw).mpr hstuck.2.2.2] at he
        simp at he
  · simp only [false_iff]
    exact fun hh => hmoved ⟨hh.2.1, hh.2.2.1⟩

/-- The stored tunnels that installing `spec` unbinds. -/
def Moved (info : SubscriberInfo) (spec : SessionSpec) (t : UInt32) : Prop :=
  (info.ulTeid ≠ 0 ∧ info.ulTeid ≠ spec.ulTeid ∧ t = info.ulTeid) ∨
    (info.dlTeid ≠ 0 ∧ info.dlTeid ≠ spec.dlTeid ∧ t = info.dlTeid)

instance (info : SubscriberInfo) (spec : SessionSpec) (t : UInt32) :
    Decidable (Moved info spec t) :=
  inferInstanceAs (Decidable (_ ∨ _))

/-- A subscriber that is not active has no tunnels to move. -/
theorem moved_openInfo {info : SubscriberInfo} {spec : SessionSpec} {t : UInt32} :
    Moved (openInfo info spec nowNs) spec t ↔ info.active = true ∧ Moved info spec t := by
  unfold openInfo
  split_ifs with hact
  · simp [hact, Moved]
  · simp [hact, Moved]

theorem unbindMoved_ok {info : SubscriberInfo} {spec : SessionSpec}
    (hw : Wf hashU32 e.teidMap) (h : e.unbindMoved info spec = .ok e') :
    ∃ m, e' = { e with teidMap := m } ∧ Unbound e.teidMap m (Moved info spec) := by
  obtain ⟨e₁, h₁, h⟩ := bind_eq_ok.mp h
  obtain ⟨m₁, rfl, hu₁⟩ := eraseMoved_ok hw h₁
  obtain ⟨m₂, rfl, hu₂⟩ := eraseMoved_ok hu₁.wf h
  exact ⟨m₂, rfl, hu₁.trans hu₂⟩

/-- Unbinding does not return exactly if the table is full and holds one of the
tunnels in an ordinary slot. -/
theorem unbindMoved_error {info : SubscriberInfo} {spec : SessionSpec}
    (hw : Wf hashU32 e.teidMap) {f : Fault} :
    e.unbindMoved info spec = .error f ↔
      f = .hang ∧ e.teidMap.size = e.teidMap.capacity ∧
        ∃ t, Moved info spec t ∧ t ≠ kEmptyKey ∧ e.bindingOf t ≠ none := by
  unfold unbindMoved
  rw [bind_eq_error, eraseMoved_error hw]
  constructor
  · rintro (⟨rfl, h0, hne, hk, hfull, hb⟩ | ⟨e₁, h₁, h₂⟩)
    · exact ⟨rfl, hfull, info.ulTeid, .inl ⟨h0, hne, rfl⟩, hk, hb⟩
    · obtain ⟨m, rfl, hu⟩ := eraseMoved_ok hw h₁
      obtain ⟨rfl, h0, hne, hk, hfull, hb⟩ := (eraseMoved_error hu.wf).mp h₂
      have hle := hw.size_le
      have hmono := hu.size_le
      have hcap := hu.capacity_eq
      replace hfull : m.size = m.capacity := hfull
      refine ⟨rfl, by omega, info.dlTeid, .inr ⟨h0, hne, rfl⟩, hk, ?_⟩
      intro hnone
      apply hb
      by_cases hgone : info.ulTeid ≠ 0 ∧ info.ulTeid ≠ spec.ulTeid ∧ info.dlTeid = info.ulTeid
      · exact hu.lookup_gone _ hgone
      · exact (hu.lookup_kept _ hgone).trans hnone
  · rintro ⟨rfl, hfull, t, ht, hk, hb⟩
    cases h₁ : e.eraseMoved info.ulTeid spec.ulTeid with
    | error f => exact .inl ((eraseMoved_error hw).mp (h₁.trans
        (congrArg _ ((eraseMoved_error hw).mp h₁).1)))
    | ok e₁ =>
        -- the first deletion returned on a full table, so it missed
        obtain ⟨m, rfl, hu⟩ := eraseMoved_ok hw h₁
        have hmiss : ∀ t, info.ulTeid ≠ 0 ∧ info.ulTeid ≠ spec.ulTeid ∧ t = info.ulTeid →
            t ≠ kEmptyKey → e.bindingOf t = none := by
          intro t ht hk
          by_contra hbt
          have hlt := (hu.size_lt ⟨t, ht, hk, hbt⟩).2
          omega
        rcases ht with ht | ht
        · exact absurd (hmiss t ht hk) hb
        · refine .inr ⟨_, rfl, (eraseMoved_error hu.wf).mpr ?_⟩
          have hsize := hu.size_eq hmiss
          have hcap := hu.capacity_eq
          obtain ⟨h0, hne, rfl⟩ := ht
          refine ⟨rfl, h0, hne, hk, hsize.trans (hfull.trans hcap.symm), ?_⟩
          intro hnone
          apply hb
          rw [← hnone]
          exact (hu.lookup_kept _ (fun hg => hb (hmiss _ hg hk))).symm

theorem unbindAll_eq (info : SubscriberInfo) : e.unbindAll info = e.unbindMoved info {} := by
  simp [unbindAll, unbindMoved, eraseNamed_eq]

/-- `m'` is `m` after an attempt to enter `b` under `teid`, if the TEID is
`named`; `ok` says whether the table had room. -/
structure Bound (m m' : FlatHashU32 TeidBinding) (named : Prop) (teid : UInt32)
    (b : TeidBinding) (ok : Bool) : Prop where
  wf : Wf hashU32 m'
  capacity_eq : m'.capacity = m.capacity
  lookup_eq : ∀ t, (named ∧ ok = true ∧ t = teid → lookup hashU32 m' t = some b) ∧
    (¬(named ∧ ok = true ∧ t = teid) → lookup hashU32 m' t = lookup hashU32 m t)
  refused_iff : ok = false ↔ named ∧ teid ≠ kEmptyKey ∧ m.size = m.capacity
  refused : ok = false → m' = m
  size_le : m.size ≤ m'.size
  size_eq : named → teid ≠ kEmptyKey → ok = true → lookup hashU32 m teid = none →
    m'.size = m.size + 1
  size_same : ¬(named ∧ teid ≠ kEmptyKey ∧ lookup hashU32 m teid = none) → m'.size = m.size
  unnamed : ¬named → m' = m
  rebound : teid = kEmptyKey → lookup hashU32 m teid = some b → m' = m

theorem Bound.size_le_succ {m' : FlatHashU32 TeidBinding} {named : Prop} {b : TeidBinding}
    {ok : Bool} (hb : Bound m m' named teid b ok) : m'.size ≤ m.size + 1 := by
  by_cases hnew : named ∧ teid ≠ kEmptyKey ∧ lookup hashU32 m teid = none
  · cases ok with
    | false => rw [hb.refused rfl]; omega
    | true => exact Nat.le_of_eq (hb.size_eq hnew.1 hnew.2.1 rfl hnew.2.2)
  · rw [hb.size_same hnew]
    omega

theorem Bound.ok_of_room {m' : FlatHashU32 TeidBinding} {named : Prop} {b : TeidBinding}
    {ok : Bool} (hb : Bound m m' named teid b ok)
    (hroom : teid ≠ kEmptyKey → m.size ≠ m.capacity) : ok = true := by
  cases ok with
  | true => rfl
  | false =>
      obtain ⟨-, hk, hfull⟩ := hb.refused_iff.mp rfl
      exact absurd hfull (hroom hk)

theorem Bound.of_insert (hw : Wf hashU32 m) (teid : UInt32) (b : TeidBinding) :
    Bound m (insert hashU32 m teid b).1 True teid b (insert hashU32 m teid b).2 := by
  have hfalse : (insert hashU32 m teid b).2 = false ↔ teid ≠ kEmptyKey ∧ m.size = m.capacity :=
    insert_eq_false_iff hw
  have hsize : (insert hashU32 m teid b).1.size =
      if teid ≠ kEmptyKey ∧ m.size < m.capacity ∧ lookup hashU32 m teid = none then m.size + 1
      else m.size := insert_size hw
  have hle := hw.size_le
  refine ⟨hw.insert, insert_capacity hw, ?_, by simpa using hfalse, ?_, ?_, ?_, ?_,
    fun hno => absurd trivial hno, ?_⟩
  · intro t
    cases hok : (insert hashU32 m teid b).2 with
    | false => simp [insert_of_false hw hok]
    | true =>
        rw [lookup_insert hw hok]
        by_cases ht : t = teid <;> simp [ht]
  · intro hno
    rw [insert_of_false hw hno]
  · rw [hsize]
    split_ifs <;> omega
  · intro _ hk hok hnone
    have hroom : m.size < m.capacity := by
      have : ¬(teid ≠ kEmptyKey ∧ m.size = m.capacity) := by
        rw [← hfalse, hok]
        decide
      rcases Nat.lt_or_ge m.size m.capacity with hlt | hge
      · exact hlt
      · exact absurd ⟨hk, Nat.le_antisymm hle hge⟩ this
    rw [hsize, if_pos ⟨hk, hroom, hnone⟩]
  · intro hno
    rw [hsize, if_neg]
    exact fun hh => hno ⟨trivial, hh.1, hh.2.2⟩
  · rintro rfl hsame
    rw [lookup_kEmptyKey] at hsame
    split_ifs at hsame with hused
    obtain rfl := Option.some.inj hsame
    unfold FlatHashU32.insert
    rw [if_pos rfl, ← hused]

end Tunnels

section ControlPlane

/-- The byte that names slot `s`. -/
def slotByte (s : Fin kBucketSlots) : UInt8 :=
  UInt8.ofNat s.val

theorem slotByte_toNat : ∀ s : Fin kBucketSlots, (slotByte s).toNat = s.val := by
  decide

theorem forall_slots {P : Fin kBucketSlots → Prop} (h0 : P 0) (h1 : P 1) (h2 : P 2) :
    ∀ s, P s
  | 0 => h0
  | 1 => h1
  | 2 => h2

/-- The ways through `assign_slot`: the bucket has a slot, or takes an unset one, or
goes to the aggregate. -/
theorem assignSlot_cases (info : SubscriberInfo) (id : UInt32) :
    (∃ s, info.bucketIds s = id ∧ assignSlot info id = (info, slotByte s)) ∨
    (∃ s, (∀ i, info.bucketIds i ≠ id) ∧ info.bucketIds s = kUnsetBucket ∧
      assignSlot info id =
        ({ info with bucketIds := Function.update info.bucketIds s id }, slotByte s)) ∨
    ((∀ i, info.bucketIds i ≠ id) ∧ (∀ i, info.bucketIds i ≠ kUnsetBucket) ∧
      assignSlot info id = ({ info with bucketAggregated := true }, slotByte 2)) := by
  generalize hr : assignSlot info id = r
  unfold assignSlot at hr
  split_ifs at hr with h0 h1 h2 u0 u1 u2 <;> subst hr
  · exact .inl ⟨0, h0, rfl⟩
  · exact .inl ⟨1, h1, rfl⟩
  · exact .inl ⟨2, h2, rfl⟩
  · exact .inr (.inl ⟨0, forall_slots h0 h1 h2, u0, rfl⟩)
  · exact .inr (.inl ⟨1, forall_slots h0 h1 h2, u1, rfl⟩)
  · exact .inr (.inl ⟨2, forall_slots h0 h1 h2, u2, rfl⟩)
  · exact .inr (.inr ⟨forall_slots h0 h1 h2, forall_slots u0 u1 u2, rfl⟩)

/-- `assign_slot` returns a slot of the array and touches only the slots. -/
theorem assignSlot_spec (info : SubscriberInfo) (id : UInt32) :
    (assignSlot info id).2.toNat < kBucketSlots ∧
      ∃ ids agg,
        (assignSlot info id).1 = { info with bucketIds := ids, bucketAggregated := agg } := by
  rcases assignSlot_cases info id with ⟨s, -, heq⟩ | ⟨s, -, -, heq⟩ | ⟨-, -, heq⟩
  · rw [heq, slotByte_toNat]
    exact ⟨s.isLt, _, _, rfl⟩
  · rw [heq, slotByte_toNat]
    exact ⟨s.isLt, _, _, rfl⟩
  · rw [heq, slotByte_toNat]
    exact ⟨by decide, _, _, rfl⟩

/-- An installation sets what `openInfo` sets, the two TEIDs and the slots. -/
theorem installInfo_spec (info : SubscriberInfo) (spec : SessionSpec) (nowNs : UInt64) :
    (installInfo info spec nowNs).2.toNat < kBucketSlots ∧
      ∃ ids agg,
        (installInfo info spec nowNs).1 =
          { openInfo info spec nowNs with
            ulTeid := spec.ulTeid
            dlTeid := spec.dlTeid
            bucketIds := ids
            bucketAggregated := agg } :=
  assignSlot_spec _ _

/-- `bind_teid` enters the binding or counts a failure. -/
theorem bindTeid_spec (hw : Wf hashU32 e.teidMap) (teid : UInt32) (idx : Nat)
    (dir slot : UInt8) :
    ∃ m f ok,
      e.bindTeid teid idx dir slot =
        ({ e with teidMap := m, stats := { e.stats with teidBindFailures := f } }, ok) ∧
      Bound e.teidMap m True teid ⟨UInt32.ofNat idx, dir, slot⟩ ok := by
  have hb := Bound.of_insert hw teid ⟨UInt32.ofNat idx, dir, slot⟩
  unfold bindTeid
  dsimp only
  split_ifs with hok
  · exact ⟨_, e.stats.teidBindFailures, true, rfl, hok ▸ hb⟩
  · rw [Bool.not_eq_true] at hok
    exact ⟨_, e.stats.teidBindFailures + 1, false, rfl, hok ▸ hb⟩

theorem bindNamed_spec (hw : Wf hashU32 e.teidMap) (teid : UInt32) (idx : Nat)
    (dir slot : UInt8) :
    ∃ m f ok,
      e.bindNamed teid idx dir slot =
        ({ e with teidMap := m, stats := { e.stats with teidBindFailures := f } }, ok) ∧
      Bound e.teidMap m (teid ≠ 0) teid ⟨UInt32.ofNat idx, dir, slot⟩ ok := by
  unfold bindNamed
  split_ifs with hne
  · obtain ⟨m, f, ok, heq, hb⟩ := bindTeid_spec hw teid idx dir slot
    refine ⟨m, f, ok, heq, ?_⟩
    have hnamed : (teid ≠ 0) = True := by simp [hne]
    rwa [hnamed]
  · refine ⟨e.teidMap, e.stats.teidBindFailures, true, rfl, hw, rfl, ?_, ?_, ?_, le_rfl, ?_,
      fun _ => rfl, fun _ => rfl, fun _ _ => rfl⟩
    · simp [hne]
    · simp [hne]
    · simp
    · exact fun hn => absurd hn hne

/-- An installation at `idx` that returned `r`: the tunnels that moved are
unbound, then the named ones are bound where there is room. -/
inductive Installed (e : MeterEngine) (idx : Nat) (spec : SessionSpec) (nowNs : UInt64) :
    MeterEngine → Option Nat → Prop
  | mk (m₁ m₂ m₃ : FlatHashU32 TeidBinding) (f : UInt64) (ulOk dlOk : Bool) :
      idx < e.tableSize →
      Unbound e.teidMap m₁ (Moved (openInfo (e.info idx) spec nowNs) spec) →
      Bound m₁ m₂ (spec.ulTeid ≠ 0) spec.ulTeid
        ⟨UInt32.ofNat idx, Direction.uplink.code, (installInfo (e.info idx) spec nowNs).2⟩ ulOk →
      Bound m₂ m₃ (spec.dlTeid ≠ 0) spec.dlTeid
        ⟨UInt32.ofNat idx, Direction.downlink.code, (installInfo (e.info idx) spec nowNs).2⟩
        dlOk →
      Installed e idx spec nowNs
        { e with
          counters :=
            if (e.info idx).active then e.counters else Function.update e.counters idx {}
          info := Function.update e.info idx (installInfo (e.info idx) spec nowNs).1
          teidMap := m₃
          stats := { e.stats with teidBindFailures := f } }
        (if ulOk && dlOk then some idx else none)

theorem bindTunnels_spec (hw : Wf hashU32 e.teidMap) (idx : Nat) (spec : SessionSpec)
    (slot : UInt8) :
    ∃ m₁ m₂ f ulOk dlOk,
      e.bindTunnels idx spec slot =
        ({ e with teidMap := m₂, stats := { e.stats with teidBindFailures := f } },
          ulOk && dlOk) ∧
      Bound e.teidMap m₁ (spec.ulTeid ≠ 0) spec.ulTeid
        ⟨UInt32.ofNat idx, Direction.uplink.code, slot⟩ ulOk ∧
      Bound m₁ m₂ (spec.dlTeid ≠ 0) spec.dlTeid
        ⟨UInt32.ofNat idx, Direction.downlink.code, slot⟩ dlOk := by
  obtain ⟨m₁, f₁, ulOk, hul, hb₁⟩ :=
    bindNamed_spec hw spec.ulTeid idx Direction.uplink.code slot
  have hw₁ := hb₁.wf
  unfold bindTunnels
  rw [hul]
  obtain ⟨m₂, f₂, dlOk, hdl, hb₂⟩ :=
    bindNamed_spec (e := { e with teidMap := m₁, stats := { e.stats with teidBindFailures := f₁ } })
      hw₁ spec.dlTeid idx Direction.downlink.code slot
  refine ⟨m₁, m₂, f₂, ulOk, dlOk, ?_, hb₁, hb₂⟩
  dsimp only
  rw [hdl]

theorem installAt_ok {spec : SessionSpec} {r : Option Nat} (hw : Wf hashU32 e.teidMap)
    (h : e.installAt idx spec nowNs = .ok (e', r)) : Installed e idx spec nowNs e' r := by
  obtain ⟨info, hinfo, h⟩ := bind_eq_ok.mp h
  obtain ⟨hlt, rfl⟩ := infoAt_ok.mp hinfo
  obtain ⟨e₁, h₁, h⟩ := bind_eq_ok.mp h
  obtain ⟨m₁, rfl, hu⟩ := unbindMoved_ok (e := e.openCounters idx (e.info idx).active) hw h₁
  obtain ⟨m₂, m₃, f, ulOk, dlOk, hbind, hb₁, hb₂⟩ :=
    bindTunnels_spec
      (e := ({ e.openCounters idx (e.info idx).active with teidMap := m₁ } : MeterEngine).setInfo
        idx (installInfo (e.info idx) spec nowNs).1)
      hu.wf idx spec (installInfo (e.info idx) spec nowNs).2
  dsimp only at h
  rw [hbind, Except.ok.injEq, Prod.mk.injEq] at h
  obtain ⟨rfl, rfl⟩ := h
  exact .mk m₁ m₂ m₃ f ulOk dlOk hlt hu hb₁ hb₂

/-- The table after an installation: the named tunnels that found room, and of the
others those that did not move. -/
theorem Installed.bindingOf_eq {spec : SessionSpec} {r : Option Nat}
    (hin : Installed e idx spec nowNs e' r) :
    ∃ ulOk dlOk, r = (if ulOk && dlOk then some idx else none) ∧
      ∀ t, e'.bindingOf t =
        if spec.dlTeid ≠ 0 ∧ dlOk = true ∧ t = spec.dlTeid then
          some ⟨UInt32.ofNat idx, Direction.downlink.code,
            (installInfo (e.info idx) spec nowNs).2⟩
        else if spec.ulTeid ≠ 0 ∧ ulOk = true ∧ t = spec.ulTeid then
          some ⟨UInt32.ofNat idx, Direction.uplink.code,
            (installInfo (e.info idx) spec nowNs).2⟩
        else if Moved (openInfo (e.info idx) spec nowNs) spec t then none
        else e.bindingOf t := by
  cases hin with
  | mk m₁ m₂ m₃ f ulOk dlOk hlt hu hb₁ hb₂ =>
      refine ⟨ulOk, dlOk, rfl, ?_⟩
      intro t
      show lookup hashU32 m₃ t = _
      split_ifs with hdl hul hgone
      · exact (hb₂.lookup_eq t).1 hdl
      · rw [(hb₂.lookup_eq t).2 hdl]
        exact (hb₁.lookup_eq t).1 hul
      · rw [(hb₂.lookup_eq t).2 hdl, (hb₁.lookup_eq t).2 hul]
        exact hu.lookup_gone t hgone
      · rw [(hb₂.lookup_eq t).2 hdl, (hb₁.lookup_eq t).2 hul]
        exact hu.lookup_kept t hgone

/-- The ways through `install_session`. -/
theorem installSession_cases {spec : SessionSpec} {r : Option Nat}
    (hw : Wf hashU32 e.teidMap) (h : e.installSession spec nowNs = .ok (e', r)) :
    (e' = e ∧ r = none ∧
      (spec.valid = false ∨ e.imsiIndex spec.imsi = none ∧ e.tableSize ≤ e.nextSub)) ∨
    (spec.valid = true ∧ ∃ idx, e.imsiIndex spec.imsi = some idx ∧
      Installed e idx spec nowNs e' r) ∨
    (spec.valid = true ∧ e.imsiIndex spec.imsi = none ∧ e.nextSub < e.tableSize ∧
      Installed (e.allocate spec.imsi) e.nextSub spec nowNs e' r) := by
  unfold installSession at h
  cases hvalid : spec.valid with
  | false =>
      obtain ⟨rfl, rfl⟩ : e = e' ∧ none = r := by simpa [hvalid] using h
      exact .inl ⟨rfl, rfl, .inl rfl⟩
  | true =>
      simp only [hvalid, Bool.not_true, Bool.false_eq_true, if_false] at h
      cases hidx : e.imsiIndex spec.imsi with
      | some idx =>
          rw [hidx] at h
          exact .inr (.inl ⟨rfl, idx, rfl, installAt_ok hw h⟩)
      | none =>
          rw [hidx] at h
          dsimp only at h
          split_ifs at h with hfull
          · obtain ⟨rfl, rfl⟩ : e = e' ∧ none = r := by simpa using h
            exact .inl ⟨rfl, rfl, .inr ⟨rfl, hfull⟩⟩
          · exact .inr (.inr ⟨rfl, rfl, Nat.lt_of_not_le hfull,
              installAt_ok (e := e.allocate spec.imsi) hw h⟩)

/-- The engine with the session of `idx` released. -/
def releasedState (e : MeterEngine) (idx : Nat) (nowNs : UInt64)
    (m : FlatHashU32 TeidBinding) : MeterEngine :=
  { (e.emitted idx .release nowNs).1 with
    info := Function.update e.info idx
      { markEmitted (e.counters idx) (e.info idx) nowNs with active := false }
    teidMap := m
    stats := { (e.emitted idx .release nowNs).1.stats with
      sessionsReleased := e.stats.sessionsReleased + 1 } }

@[simp] theorem releasedState_info (m : FlatHashU32 TeidBinding) :
    (e.releasedState idx nowNs m).info = Function.update e.info idx
      { markEmitted (e.counters idx) (e.info idx) nowNs with active := false } :=
  rfl

@[simp] theorem releasedState_counters (m : FlatHashU32 TeidBinding) :
    (e.releasedState idx nowNs m).counters = e.counters :=
  rfl

/-- The ways through `release_session`. -/
theorem releaseSession_cases {imsi : UInt64} {released : Bool} {ems : List Emission}
    (hw : Wf hashU32 e.teidMap)
    (h : e.releaseSession imsi nowNs = .ok (e', released, ems)) :
    (e' = e ∧ released = false ∧ ems = [] ∧
      ∀ idx, e.imsiIndex imsi = some idx → (e.info idx).active = false) ∨
    (∃ idx m, e.imsiIndex imsi = some idx ∧ idx < e.tableSize ∧
      (e.info idx).active = true ∧
      Unbound e.teidMap m (Moved (e.info idx) {}) ∧
      released = true ∧ ems = [(e.emitted idx .release nowNs).2] ∧
      e' = e.releasedState idx nowNs m) := by
  unfold releaseSession at h
  cases hidx : e.imsiIndex imsi with
  | none =>
      obtain ⟨rfl, rfl, rfl⟩ : e = e' ∧ false = released ∧ [] = ems := by simpa [hidx] using h
      exact .inl ⟨rfl, rfl, rfl, by simp⟩
  | some idx =>
      rw [hidx] at h
      obtain ⟨info, hinfo, h⟩ := bind_eq_ok.mp h
      obtain ⟨hlt, rfl⟩ := infoAt_ok.mp hinfo
      cases hact : (e.info idx).active with
      | false =>
          obtain ⟨rfl, rfl, rfl⟩ : e = e' ∧ false = released ∧ [] = ems := by
            simpa [hact] using h
          exact .inl ⟨rfl, rfl, rfl, by simp [hact]⟩
      | true =>
          simp only [hact, Bool.not_true, Bool.false_eq_true, if_false] at h
          obtain ⟨⟨e₁, em⟩, hem, h⟩ := bind_eq_ok.mp h
          obtain ⟨_, hem⟩ := emitRecord_ok.mp hem
          obtain ⟨rfl, rfl⟩ := Prod.mk.inj hem
          obtain ⟨e₂, h₁, h⟩ := bind_eq_ok.mp h
          rw [unbindAll_eq] at h₁
          obtain ⟨m, rfl, hu⟩ := unbindMoved_ok (e := (e.emitted idx .release nowNs).1) hw h₁
          simp only [Except.ok.injEq, Prod.mk.injEq] at h
          obtain ⟨rfl, rfl, rfl⟩ := h
          refine .inr ⟨idx, m, rfl, hlt, hact, hu, rfl, rfl, ?_⟩
          simp only [setInfo, releasedState, emitted, Function.update_self, Function.update_idem]
          cases (e.sink.offer _).2 <;> rfl

end ControlPlane

section DataPlane

variable {ev : MeterEvent} {b : TeidBinding}

/-- The flow table takes no part in metering. -/
theorem updateFlowLoop_ok {sub : UInt32} {dir : UInt8} {key : UInt64} {n i : Nat}
    {victim : Option Nat} {oldest : UInt64}
    (h : e.updateFlowLoop ev sub dir key n i victim oldest = .ok e') :
    ∃ fl fa fi fe, e' = { e with
      flows := fl
      stats := { e.stats with flowsActive := fa, flowInserts := fi, flowEvictions := fe } } := by
  induction n generalizing i victim oldest with
  | zero =>
      cases victim with
      | none => simp [updateFlowLoop] at h
      | some v => exact ⟨_, _, _, _, (Except.ok.inj h).symm⟩
  | succ n ih =>
      unfold updateFlowLoop at h
      dsimp only at h
      split_ifs at h
      · exact ⟨_, _, _, _, (Except.ok.inj h).symm⟩
      · exact ⟨_, _, _, _, (Except.ok.inj h).symm⟩
      · exact ih h
      · exact ih h

theorem addBucket_ok {c c' : SubscriberCounters} {slot : UInt8} {bytes : UInt64} :
    addBucket c slot bytes = .ok c' ↔ ∃ hs : slot.toNat < kBucketSlots,
      c' = { c with
        bucketBytes := Function.update c.bucketBytes ⟨slot.toNat, hs⟩
          (c.bucketBytes ⟨slot.toNat, hs⟩ + bytes) } := by
  unfold addBucket
  split_ifs with hs
  · simp only [Except.ok.injEq]
    exact ⟨fun h => ⟨hs, h.symm⟩, fun ⟨_, h⟩ => h.symm⟩
  · simp [hs]

theorem trackFlow_ok {sub : UInt32} {dir : UInt8} (h : e.trackFlow ev sub dir = .ok e') :
    ∃ fl fa fi fe, e' = { e with
      flows := fl
      stats := { e.stats with flowsActive := fa, flowInserts := fi, flowEvictions := fe } } := by
  unfold trackFlow at h
  split_ifs at h
  · exact ⟨_, _, _, _, (Except.ok.inj h).symm⟩
  · exact updateFlowLoop_ok h

/-- Resolving the slot of a packet touches only the slots of the subscriber. -/
theorem packetSlot_ok {resolved : SubscriberInfo × UInt8}
    (h : e.packetSlot ev b = .ok resolved) :
    ∃ ids agg, resolved.1 =
      { e.info b.subIdx.toNat with bucketIds := ids, bucketAggregated := agg } := by
  unfold packetSlot at h
  split_ifs at h
  · obtain ⟨info, hinfo, h⟩ := bind_eq_ok.mp h
    obtain ⟨_, rfl⟩ := infoAt_ok.mp hinfo
    obtain rfl := Except.ok.inj h
    exact (assignSlot_spec _ _).2
  · obtain rfl := Except.ok.inj h
    exact ⟨_, _, rfl⟩

/-- The counters of a subscriber after a packet. -/
def addPacket (c : SubscriberCounters) (ev : MeterEvent) (dir : UInt8)
    (slot : Fin kBucketSlots) : SubscriberCounters :=
  let c := { addDirection c dir ev.bytes.toUInt64 with lastSeenNs := ev.tsNs }
  { c with
    bucketBytes := Function.update c.bucketBytes slot (c.bucketBytes slot + ev.bytes.toUInt64) }

/-- A packet metered to the subscriber of `b`. -/
inductive Metered (e : MeterEngine) (ev : MeterEvent) (b : TeidBinding) : MeterEngine → Prop
  | mk (info : SubscriberInfo) (slot : UInt8) (hs : slot.toNat < kBucketSlots)
      (fl : Nat → FlowEntry) (fa fi fe : UInt64) :
      b.subIdx.toNat < e.tableSize →
      e.packetSlot ev b = .ok (info, slot) →
      Metered e ev b
        { e with
          counters := Function.update e.counters b.subIdx.toNat
            (addPacket (e.counters b.subIdx.toNat) ev (packetDir ev b) ⟨slot.toNat, hs⟩)
          info := Function.update e.info b.subIdx.toNat info
          flows := fl
          stats := { addTotals e.stats (packetDir ev b) ev.bytes.toUInt64 with
            flowsActive := fa, flowInserts := fi, flowEvictions := fe } }

theorem meterPacket_ok (h : e.meterPacket ev b = .ok e') : Metered e ev b e' := by
  obtain ⟨c, hc, h⟩ := bind_eq_ok.mp h
  obtain ⟨hlt, rfl⟩ := countersAt_ok.mp hc
  obtain ⟨⟨info, slot⟩, hslot, h⟩ := bind_eq_ok.mp h
  obtain ⟨c', hc', h⟩ := bind_eq_ok.mp h
  obtain ⟨hs, rfl⟩ := addBucket_ok.mp hc'
  obtain ⟨fl, fa, fi, fe, rfl⟩ := trackFlow_ok h
  exact .mk info slot hs fl fa fi fe hlt hslot

/-- The engine with a subscriber learned from an event. -/
def learnedState (e : MeterEngine) (ev : MeterEvent) (m : FlatHashU32 TeidBinding)
    (f : UInt64) : MeterEngine :=
  { e with
    counters := Function.update e.counters e.nextSub {}
    info := Function.update e.info e.nextSub (learnInfo ev).1
    teidMap := m
    nextSub := e.nextSub + 1
    stats := { e.stats with
      subscribersLearned := e.stats.subscribersLearned + 1
      teidBindFailures := f } }

@[simp] theorem learnedState_info (m : FlatHashU32 TeidBinding) (f : UInt64) :
    (e.learnedState ev m f).info = Function.update e.info e.nextSub (learnInfo ev).1 :=
  rfl

@[simp] theorem learnedState_counters (m : FlatHashU32 TeidBinding) (f : UInt64) :
    (e.learnedState ev m f).counters = Function.update e.counters e.nextSub {} :=
  rfl

@[simp] theorem countEvent_info : (e.countEvent ev).info = e.info :=
  rfl

@[simp] theorem countEvent_counters : (e.countEvent ev).counters = e.counters :=
  rfl

@[simp] theorem countEvent_nextSub : (e.countEvent ev).nextSub = e.nextSub :=
  rfl

/-- The TEID of an event is unknown and will be learned. -/
def Learns (e : MeterEngine) (ev : MeterEvent) : Prop :=
  e.bindingOf ev.teid = none ∧ e.cfg.learnUnknownTeids = true ∧ e.nextSub < e.tableSize

instance (e : MeterEngine) (ev : MeterEvent) : Decidable (Learns e ev) :=
  inferInstanceAs (Decidable (_ ∧ _))

/-- The engine when an event that is no control message is looked up: as it was,
or with a subscriber learned for the TEID. -/
inductive Arrived (e : MeterEngine) (ev : MeterEvent) : MeterEngine → Prop
  | found (m : FlatHashU32 TeidBinding) :
      m.quiet = e.teidMap.quiet → ¬Learns e ev →
      Arrived e ev { e.countEvent ev with teidMap := m }
  | learned (m : FlatHashU32 TeidBinding) (f : UInt64) (ok : Bool) :
      e.bindingOf ev.teid = none → e.cfg.learnUnknownTeids = true → e.nextSub < e.tableSize →
      Wf hashU32 m →
      (∀ t, lookup hashU32 m t =
        if t = ev.teid ∧ ok = true then
          some ⟨UInt32.ofNat e.nextSub, ev.dir, (learnInfo ev).2⟩
        else lookup hashU32 e.teidMap t) →
      Arrived e ev ((e.countEvent ev).learnedState ev m f)

/-- `learn_teid` with room for a subscriber: it is entered, and then its tunnel is bound. -/
theorem learnTeid_binds (ev : MeterEvent) (hw : Wf hashU32 e.teidMap)
    (hroom : e.nextSub < e.tableSize) :
    ∃ m f ok,
      Bound e.teidMap m True ev.teid ⟨UInt32.ofNat e.nextSub, ev.dir, (learnInfo ev).2⟩ ok ∧
      e.learnTeid ev =
        if ok then (e.learnedState ev (find hashU32 m ev.teid).2 f, lookup hashU32 m ev.teid)
        else (e.learnedState ev m f, none) := by
  unfold learnTeid
  rw [if_neg (Nat.not_le.mpr hroom)]
  obtain ⟨m, f, ok, hbind, hb⟩ :=
    bindTeid_spec
      (e := { (e.setCounters e.nextSub {}).setInfo e.nextSub (learnInfo ev).1 with
        nextSub := e.nextSub + 1
        stats := { e.stats with subscribersLearned := e.stats.subscribersLearned + 1 } })
      hw ev.teid e.nextSub ev.dir (learnInfo ev).2
  dsimp only
  rw [hbind]
  cases ok with
  | false => exact ⟨m, f, false, hb, rfl⟩
  | true => exact ⟨m, f, true, hb, rfl⟩

/-- `learn_teid`: nothing, or a new subscriber that is bound if there is room. -/
theorem learnTeid_cases (ev : MeterEvent) (hw : Wf hashU32 e.teidMap) :
    (e.tableSize ≤ e.nextSub ∧ e.learnTeid ev = (e, none)) ∨
    (e.nextSub < e.tableSize ∧ ∃ m f ok, Wf hashU32 m ∧
      (∀ t, lookup hashU32 m t =
        if t = ev.teid ∧ ok = true then
          some ⟨UInt32.ofNat e.nextSub, ev.dir, (learnInfo ev).2⟩
        else lookup hashU32 e.teidMap t) ∧
      e.learnTeid ev =
        (e.learnedState ev m f, if ok then lookup hashU32 m ev.teid else none)) := by
  by_cases hfull : e.tableSize ≤ e.nextSub
  · exact .inl ⟨hfull, if_pos hfull⟩
  · refine .inr ⟨Nat.lt_of_not_le hfull, ?_⟩
    obtain ⟨m, f, ok, hb, hlearn⟩ := learnTeid_binds ev hw (Nat.lt_of_not_le hfull)
    have hlk : ∀ t, lookup hashU32 m t =
        if t = ev.teid ∧ ok = true then
          some ⟨UInt32.ofNat e.nextSub, ev.dir, (learnInfo ev).2⟩
        else lookup hashU32 e.teidMap t := by
      intro t
      split_ifs with ht
      · exact (hb.lookup_eq t).1 ⟨trivial, ht.2, ht.1⟩
      · exact (hb.lookup_eq t).2 (fun hh => ht ⟨hh.2.2, hh.2.1⟩)
    cases ok with
    | false => exact ⟨m, f, false, hb.wf, hlk, hlearn⟩
    | true =>
        refine ⟨(find hashU32 m ev.teid).2, f, true, hb.wf.congr find_table, ?_, ?_⟩
        · intro t
          rw [lookup_congr find_table]
          exact hlk t
        · rw [lookup_congr find_table]
          exact hlearn

/-- An event that is counted as unknown or metered. -/
def Charged (e : MeterEngine) (ev : MeterEvent) (e' : MeterEngine) : Prop :=
  (e.bindingOf ev.teid = none ∧ e' = e.countUnknown ev) ∨
    ∃ b, e.bindingOf ev.teid = some b ∧ Metered e ev b e'

/-- The same, with the computation that meters the event. -/
def Treated (e : MeterEngine) (ev : MeterEvent) (e' : MeterEngine) : Prop :=
  (e.bindingOf ev.teid = none ∧ e' = e.countUnknown ev) ∨
    ∃ b, e.bindingOf ev.teid = some b ∧ e.meterPacket ev b = .ok e'

theorem Treated.charged (ht : Treated e ev e') : Charged e ev e' := by
  rcases ht with hunknown | ⟨b, hb, hmeter⟩
  · exact .inl hunknown
  · exact .inr ⟨b, hb, meterPacket_ok hmeter⟩

/-- An event for a TEID that the table does not hold. -/
theorem applyUnbound_treated {m : FlatHashU32 TeidBinding} (hw : Wf hashU32 e.teidMap)
    (hq : m.quiet = e.teidMap.quiet) (hnone : e.bindingOf ev.teid = none)
    (h : ({ e.countEvent ev with teidMap := m } : MeterEngine).applyUnbound ev = .ok e') :
    ∃ e₁, Arrived e ev e₁ ∧ Treated e₁ ev e' := by
  have hlk : ∀ t, lookup hashU32 m t = lookup hashU32 e.teidMap t := fun t => lookup_congr hq
  have hunknown : ({ e.countEvent ev with teidMap := m } : MeterEngine).bindingOf ev.teid = none :=
    (hlk _).trans hnone
  unfold applyUnbound at h
  cases hlearn : e.cfg.learnUnknownTeids with
  | false =>
      rw [if_pos (by simp [countEvent, hlearn])] at h
      refine ⟨_, .found m hq ?_, .inl ⟨hunknown, (Except.ok.inj h).symm⟩⟩
      simp [Learns, hlearn]
  | true =>
      rw [if_neg (by simp [countEvent, hlearn])] at h
      rcases learnTeid_cases (e := { e.countEvent ev with teidMap := m }) ev (hw.congr hq) with
        ⟨hfull, heq⟩ | ⟨hroom, m', f, ok, hw', hlk', heq⟩
      · rw [heq] at h
        refine ⟨_, .found m hq ?_, .inl ⟨hunknown, (Except.ok.inj h).symm⟩⟩
        exact fun hl => absurd hl.2.2 (Nat.not_lt.mpr hfull)
      · rw [heq] at h
        have harr := Arrived.learned m' f ok hnone hlearn hroom hw'
          (fun t => (hlk' t).trans (by rw [hlk t]; rfl))
        refine ⟨_, harr, ?_⟩
        cases ok with
        | false =>
            have hmiss := hlk' ev.teid
            simp only [Bool.false_eq_true, and_false, if_false] at hmiss
            exact .inl ⟨hmiss.trans hunknown, (Except.ok.inj h).symm⟩
        | true =>
            have hhit := hlk' ev.teid
            simp only [and_self, if_true] at hhit
            dsimp only at h
            rw [if_pos rfl, hhit] at h
            exact .inr ⟨_, hhit, h⟩

/-- The ways through `apply`. -/
theorem apply_treated (hw : Wf hashU32 e.teidMap) (h : e.apply ev = .ok e') :
    (ev.isControl = true ∧ e' = { e.countEvent ev with
      stats := { (e.countEvent ev).stats with controlPdus := e.stats.controlPdus + 1 } }) ∨
    (ev.isControl = false ∧ ∃ e₁, Arrived e ev e₁ ∧ Treated e₁ ev e') := by
  unfold apply at h
  dsimp only at h
  cases hctl : ev.isControl with
  | true =>
      rw [if_pos hctl] at h
      exact .inl ⟨rfl, (Except.ok.inj h).symm⟩
  | false =>
      rw [if_neg (by simp [hctl])] at h
      refine .inr ⟨rfl, ?_⟩
      have hq : (find hashU32 (e.countEvent ev).teidMap ev.teid).2.quiet = e.teidMap.quiet :=
        find_table
      have hfound : e.bindingOf ev.teid = (find hashU32 (e.countEvent ev).teidMap ev.teid).1 :=
        rfl
      cases hb : (find hashU32 (e.countEvent ev).teidMap ev.teid).1 with
      | some b =>
          rw [hb] at h
          refine ⟨_, .found _ hq ?_, .inr ⟨b, ?_, h⟩⟩
          · simp [Learns, hfound.trans hb]
          · exact (lookup_congr hq).trans (hfound.trans hb)
      | none =>
          rw [hb] at h
          exact applyUnbound_treated hw hq (hfound.trans hb) h

theorem apply_cases (hw : Wf hashU32 e.teidMap) (h : e.apply ev = .ok e') :
    (ev.isControl = true ∧ e' = { e.countEvent ev with
      stats := { (e.countEvent ev).stats with controlPdus := e.stats.controlPdus + 1 } }) ∨
    (ev.isControl = false ∧ ∃ e₁, Arrived e ev e₁ ∧ Charged e₁ ev e') := by
  rcases apply_treated hw h with hcontrol | ⟨hctl, e₁, harr, ht⟩
  · exact .inl hcontrol
  · exact .inr ⟨hctl, e₁, harr, ht.charged⟩

end DataPlane

section Moves

/-- What a call did.  One constructor for each way a call can return. -/
inductive Moves (e : MeterEngine) : MeterOp → Answer → MeterEngine → Prop
  | refused {spec : SessionSpec} {nowNs : UInt64} :
      (spec.valid = false ∨ e.imsiIndex spec.imsi = none ∧ e.tableSize ≤ e.nextSub) →
      Moves e (.install spec nowNs) {} e
  | modified {spec : SessionSpec} {nowNs : UInt64} {idx : Nat} {r : Option Nat}
      {e' : MeterEngine} :
      spec.valid = true → e.imsiIndex spec.imsi = some idx →
      Installed e idx spec nowNs e' r →
      Moves e (.install spec nowNs) { index := r } e'
  | allocated {spec : SessionSpec} {nowNs : UInt64} {r : Option Nat} {e' : MeterEngine} :
      spec.valid = true → e.imsiIndex spec.imsi = none → e.nextSub < e.tableSize →
      Installed (e.allocate spec.imsi) e.nextSub spec nowNs e' r →
      Moves e (.install spec nowNs) { index := r } e'
  | unknownRelease {imsi nowNs : UInt64} :
      (∀ idx, e.imsiIndex imsi = some idx → (e.info idx).active = false) →
      Moves e (.release imsi nowNs) {} e
  | released {imsi nowNs : UInt64} {idx : Nat} {m : FlatHashU32 TeidBinding} :
      e.imsiIndex imsi = some idx → idx < e.tableSize → (e.info idx).active = true →
      Unbound e.teidMap m (Moved (e.info idx) {}) →
      Moves e (.release imsi nowNs) { emissions := [(e.emitted idx .release nowNs).2] }
        (e.releasedState idx nowNs m)
  | control {ev : MeterEvent} :
      ev.isControl = true →
      Moves e (.apply ev) {}
        { e.countEvent ev with
          stats := { (e.countEvent ev).stats with controlPdus := e.stats.controlPdus + 1 } }
  | charged {ev : MeterEvent} {e₁ e' : MeterEngine} :
      ev.isControl = false → Arrived e ev e₁ → Charged e₁ ev e' →
      Moves e (.apply ev) {} e'
  | gyIgnored {ev : GyEvent} :
      Moves e (.applyGy ev) {}
        { e with stats := { e.stats with gyEvents := e.stats.gyEvents + 1 } }
  | gyReported {ev : GyEvent} {idx : Nat} :
      e.imsiIndex ev.imsi = some idx → idx < e.tableSize →
      Moves e (.applyGy ev) {}
        { e with
          info := Function.update e.info idx { e.info idx with
            gyReportedOctets := (e.info idx).gyReportedOctets + ev.usedTotalOctets
            gyLastNs := ev.tsNs
            gyReports := (e.info idx).gyReports + 1 }
          stats := { e.stats with
            gyEvents := e.stats.gyEvents + 1
            gyReportedOctets := e.stats.gyReportedOctets + ev.usedTotalOctets } }
  | polled {nowNs : UInt64} {ems : List Emission} {e' : MeterEngine} :
      EmitRun nowNs e ems e' → Moves e (.poll nowNs) { emissions := ems } e'
  | drained {nowNs : UInt64} {ems : List Emission} {e' : MeterEngine} :
      EmitRun nowNs e ems e' → Moves e (.drain nowNs) { emissions := ems } e'

/-- The ways through `apply_gy`. -/
theorem applyGy_moves {ev : GyEvent} (h : e.applyGy ev = .ok e') : Moves e (.applyGy ev) {} e' := by
  unfold applyGy at h
  dsimp only at h
  split_ifs at h
  · cases h
    exact .gyIgnored
  · cases hidx : e.imsiIndex ev.imsi with
    | none =>
        rw [hidx] at h
        cases h
        exact .gyIgnored
    | some idx =>
        rw [hidx] at h
        obtain ⟨info, hinfo, h⟩ := bind_eq_ok.mp h
        obtain ⟨hlt, rfl⟩ := infoAt_ok.mp hinfo
        cases h
        exact .gyReported hidx hlt

/-- Every call that returns is one of the moves. -/
theorem step_moves {op : MeterOp} {out : Answer} (hw : Wf hashU32 e.teidMap)
    (h : e.step op = .ok (e', out)) : Moves e op out e' := by
  cases op with
  | install spec nowNs =>
      obtain ⟨⟨e₁, r⟩, hop, h⟩ := bind_eq_ok.mp h
      cases h
      rcases installSession_cases hw hop with ⟨rfl, rfl, hno⟩ | ⟨hv, idx, hidx, hi⟩ |
        ⟨hv, hidx, hroom, hi⟩
      · exact .refused hno
      · exact .modified hv hidx hi
      · exact .allocated hv hidx hroom hi
  | release imsi nowNs =>
      obtain ⟨⟨e₁, released, ems⟩, hop, h⟩ := bind_eq_ok.mp h
      cases h
      rcases releaseSession_cases hw hop with ⟨rfl, _, rfl, hno⟩ |
        ⟨idx, m, hidx, hlt, hact, hu, _, rfl, rfl⟩
      · exact .unknownRelease hno
      · exact .released hidx hlt hact hu
  | apply ev =>
      obtain ⟨e₁, hop, h⟩ := bind_eq_ok.mp h
      cases h
      rcases apply_cases hw hop with ⟨hctl, rfl⟩ | ⟨hctl, e₂, harr, hch⟩
      · exact .control hctl
      · exact .charged hctl harr hch
  | applyGy ev =>
      obtain ⟨e₁, hop, h⟩ := bind_eq_ok.mp h
      cases h
      exact applyGy_moves hop
  | poll nowNs =>
      obtain ⟨⟨e₁, ems⟩, hop, h⟩ := bind_eq_ok.mp h
      cases h
      exact .polled (poll_emitRun hop)
  | drain nowNs =>
      obtain ⟨⟨e₁, ems⟩, hop, h⟩ := bind_eq_ok.mp h
      cases h
      exact .drained (drain_emitRun hop)

end Moves

end MeterEngine
end GtpMeter
