import GtpMeter.BindingSoundness
import Mathlib.Data.UInt
import Mathlib.Tactic.Abel

/-!
# The gauge of active sessions

The reporter exports `subscribers_installed + subscribers_learned -
sessions_released` as the number of active sessions.  A session that is installed
again after its release becomes active without being counted, and from then on the
gauge is too small.

**Results.**
* `Moves.drift_same`, `Moves.drift_succ`: each call keeps the distance between gauge
  and truth, except that re-activating a session adds one to it.
* `gauge_exact_iff`: the gauge is exact throughout a run exactly if no call of the
  run re-activates a session.
-/

namespace GtpMeter
namespace MeterEngine

open FlatHashU32 Runs

variable {cfg : MeterConfig} {sink : RecordSink} {h : History} {e e' e₁ : MeterEngine}
  {idx : Nat} {spec : SessionSpec} {r : Option Nat} {nowNs : UInt64}

/-- `gtpm_subscribers_active` as the reporter computes it. -/
def subscribersActive (e : MeterEngine) : UInt64 :=
  e.stats.subscribersInstalled + e.stats.subscribersLearned - e.stats.sessionsReleased

/-- The indices whose subscriber is active. -/
def activeIndices (e : MeterEngine) : Finset Nat :=
  (Finset.range e.tableSize).filter (fun i => (e.info i).active = true)

/-- The call installs a session for an IMSI whose subscriber is known but not
active. -/
def Reactivates (e : MeterEngine) : MeterOp → Prop
  | .install spec _ => spec.valid = true ∧
      ∃ idx, e.imsiIndex spec.imsi = some idx ∧ (e.info idx).active = false
  | _ => False

/-- The gauge shows the number of active subscribers. -/
def GaugeExact (e : MeterEngine) : Prop :=
  e.subscribersActive.toNat = e.activeIndices.card

instance (e : MeterEngine) : Decidable (GaugeExact e) :=
  inferInstanceAs (Decidable (_ = _))

section Counting

theorem mem_activeIndices {i : Nat} :
    i ∈ e.activeIndices ↔ i < e.tableSize ∧ (e.info i).active = true := by
  simp [activeIndices]

theorem activeIndices_card_le : e.activeIndices.card ≤ e.tableSize := by
  have := Finset.card_filter_le (Finset.range e.tableSize)
    (fun i => (e.info i).active = true)
  rwa [Finset.card_range] at this

theorem activeIndices_congr (hcfg : e'.cfg = e.cfg)
    (hact : ∀ i, (e'.info i).active = (e.info i).active) :
    e'.activeIndices = e.activeIndices := by
  simp [activeIndices, tableSize, hcfg, hact]

/-- Activating one more subscriber. -/
theorem card_activate (hcfg : e'.cfg = e.cfg) (hlt : idx < e.tableSize)
    (hold : (e.info idx).active = false)
    (hact : ∀ i, (e'.info i).active = if i = idx then true else (e.info i).active) :
    e'.activeIndices.card = e.activeIndices.card + 1 := by
  have hset : e'.activeIndices = insert idx e.activeIndices := by
    ext i
    rw [mem_activeIndices, Finset.mem_insert, mem_activeIndices, hact]
    have hsize : e'.tableSize = e.tableSize := by simp [tableSize, hcfg]
    rw [hsize]
    by_cases hi : i = idx <;> simp [hi, hlt]
  rw [hset, Finset.card_insert_of_notMem]
  simp [mem_activeIndices, hold]

/-- Deactivating one. -/
theorem card_deactivate (hcfg : e'.cfg = e.cfg) (hlt : idx < e.tableSize)
    (hold : (e.info idx).active = true)
    (hact : ∀ i, (e'.info i).active = if i = idx then false else (e.info i).active) :
    e'.activeIndices.card + 1 = e.activeIndices.card := by
  have hset : e'.activeIndices = e.activeIndices.erase idx := by
    ext i
    rw [mem_activeIndices, Finset.mem_erase, mem_activeIndices, hact]
    have hsize : e'.tableSize = e.tableSize := by simp [tableSize, hcfg]
    rw [hsize]
    by_cases hi : i = idx <;> simp [hi]
  rw [hset]
  exact Finset.card_erase_add_one (mem_activeIndices.mpr ⟨hlt, hold⟩)

/-- How far the gauge is below the number of active subscribers, mod 2^64. -/
def drift (e : MeterEngine) : UInt64 :=
  UInt64.ofNat e.activeIndices.card - e.subscribersActive

/-- The gauge is exact when its distance from the truth is zero: there are fewer
than 2^64 subscribers. -/
theorem gaugeExact_iff : GaugeExact e ↔ e.drift = 0 := by
  have hlt : e.activeIndices.card < 2 ^ 64 :=
    Nat.lt_of_le_of_lt activeIndices_card_le e.cfg.maxSubscribers.toNat_lt
  have hval : (UInt64.ofNat e.activeIndices.card).toNat = e.activeIndices.card :=
    UInt64.toNat_ofNat_of_lt' hlt
  unfold GaugeExact drift
  rw [sub_eq_zero, ← UInt64.toNat_inj, hval]
  exact eq_comm

end Counting

section Steps

theorem ofNat_succ (n : Nat) : UInt64.ofNat (n + 1) = UInt64.ofNat n + 1 :=
  UInt64.ofNat_add n 1

/-- Calls that touch neither the sessions nor the three counts. -/
theorem drift_of_same (hs : SameSessions e e')
    (hg : e'.subscribersActive = e.subscribersActive) : e'.drift = e.drift := by
  have hact : ∀ i, (e'.info i).active = (e.info i).active := by
    intro i
    exact congrArg Session.active (hs.session_eq i)
  unfold drift
  rw [activeIndices_congr hs.cfg_eq hact, hg]

theorem EmitRun.subscribersActive_eq {ems : List Emission} (hr : EmitRun nowNs e ems e') :
    e'.subscribersActive = e.subscribersActive := by
  induction hr with
  | nil => rfl
  | sweep cursor last _ ih => exact ih
  | @emit e e' ems idx reason _ _ _ _ ih =>
      rw [ih]
      unfold subscribersActive
      rw [emitted_stats]
      cases (e.emitted idx reason nowNs).2.outcome <;> rfl

theorem Charged.subscribersActive_eq {ev : MeterEvent} (hc : Charged e ev e') :
    e'.subscribersActive = e.subscribersActive := by
  rcases hc with ⟨-, rfl⟩ | ⟨b, -, hm⟩
  · rfl
  · cases hm with
    | mk info slot hs fl fa fi fe hlt hslot =>
        unfold subscribersActive addTotals
        dsimp only
        split_ifs <;> rfl

/-- An installation at a subscriber that is not active. -/
theorem Installed.drift_eq (hin : Installed e idx spec nowNs e' r)
    (hinact : (e.info idx).active = false) : e'.drift = e.drift + 1 := by
  obtain ⟨hlt, -, -, hcfg⟩ := hin.frame
  have hact : ∀ i, (e'.info i).active = if i = idx then true else (e.info i).active := by
    intro i
    have := congrArg Session.active (hin.session_eq i)
    by_cases hi : i = idx <;> simpa [session, hi] using this
  have hg : e'.subscribersActive = e.subscribersActive := by
    cases hin
    rfl
  unfold drift
  rw [card_activate hcfg hlt hinact hact, hg, ofNat_succ]
  abel

/-- An installation at an active subscriber. -/
theorem Installed.drift_same (hin : Installed e idx spec nowNs e' r)
    (hactive : (e.info idx).active = true) : e'.drift = e.drift := by
  obtain ⟨hlt, -, -, hcfg⟩ := hin.frame
  have hact : ∀ i, (e'.info i).active = (e.info i).active := by
    intro i
    have := congrArg Session.active (hin.session_eq i)
    by_cases hi : i = idx
    · simpa [session, hi, hactive] using this
    · simpa [session, hi] using this
  have hg : e'.subscribersActive = e.subscribersActive := by
    cases hin
    rfl
  unfold drift
  rw [activeIndices_congr hcfg hact, hg]

theorem allocate_drift (imsi : UInt64) : (e.allocate imsi).drift + 1 = e.drift := by
  show UInt64.ofNat e.activeIndices.card -
    (e.stats.subscribersInstalled + 1 + e.stats.subscribersLearned - e.stats.sessionsReleased)
      + 1 = e.drift
  unfold drift subscribersActive
  abel

theorem Arrived.drift_eq {ev : MeterEvent} (ha : Arrived e ev e') (hi : Indexed e) :
    e'.drift = e.drift := by
  cases ha with
  | found m hq _ => exact drift_of_same ⟨rfl, rfl, rfl, fun _ => rfl, hq⟩ rfl
  | learned m f ok _ _ hroom _ _ =>
      have hact : ∀ i, (((e.countEvent ev).learnedState ev m f).info i).active =
          if i = e.nextSub then true else (e.info i).active := by
        intro i
        by_cases hne : i = e.nextSub
        · simp [learnedState, countEvent, hne, (learnInfo_session ev).1]
        · simp [learnedState, countEvent, hne]
      have hcard : ((e.countEvent ev).learnedState ev m f).activeIndices.card =
          e.activeIndices.card + 1 := card_activate rfl hroom (hi.fresh _ le_rfl) hact
      unfold drift
      rw [hcard, ofNat_succ]
      show UInt64.ofNat e.activeIndices.card + 1 -
        (e.stats.subscribersInstalled + (e.stats.subscribersLearned + 1) -
          e.stats.sessionsReleased) = _
      unfold subscribersActive
      abel

/-- One call moves the gauge with the truth, unless it re-activates a session. -/
theorem Moves.drift_same {op : MeterOp} {out : Answer} (hm : Moves e op out e')
    (hi : Indexed e) (hno : ¬Reactivates e op) : e'.drift = e.drift := by
  cases hm with
  | refused _ => rfl
  | modified hv hidx hin =>
      refine hin.drift_same ?_
      by_contra hinact
      exact hno ⟨hv, _, hidx, by simpa using hinact⟩
  | allocated _ _ hroom hin =>
      rw [hin.drift_eq (hi.fresh _ le_rfl)]
      exact allocate_drift _
  | unknownRelease _ => rfl
  | @released imsi nowNs idx m hidx hlt hact hu =>
      have hflags : ∀ i, ((e.releasedState idx nowNs m).info i).active =
          if i = idx then false else (e.info i).active := by
        intro i
        by_cases hne : i = idx <;> simp [hne]
      have hcard : (e.releasedState idx nowNs m).activeIndices.card + 1 =
          e.activeIndices.card := card_deactivate rfl hlt hact hflags
      have hstats : (e.releasedState idx nowNs m).subscribersActive =
          e.subscribersActive - 1 := by
        unfold releasedState emitted subscribersActive
        dsimp only
        cases (e.sink.offer _).2 <;> dsimp only [countRecord] <;> abel
      unfold drift
      rw [← hcard, ofNat_succ, hstats]
      abel
  | control _ => exact drift_of_same ⟨rfl, rfl, rfl, fun _ => rfl, rfl⟩ rfl
  | charged _ ha hc =>
      rw [drift_of_same hc.sameSessions hc.subscribersActive_eq]
      exact ha.drift_eq hi
  | gyIgnored => exact drift_of_same ⟨rfl, rfl, rfl, fun _ => rfl, rfl⟩ rfl
  | gyReported _ _ =>
      exact drift_of_same ⟨rfl, rfl, rfl, fun _ => session_update rfl rfl, rfl⟩ rfl
  | polled hr | drained hr => exact drift_of_same hr.sameSessions hr.subscribersActive_eq

theorem Moves.drift_succ {op : MeterOp} {out : Answer} (hm : Moves e op out e')
    (hyes : Reactivates e op) : e'.drift = e.drift + 1 := by
  cases hm with
  | refused hno =>
      obtain ⟨hv, idx, hidx, -⟩ := hyes
      rcases hno with hinv | ⟨hnone, -⟩
      · simp [hv] at hinv
      · simp [hnone] at hidx
  | @modified spec nowNs idx r e' hv hidx hin =>
      obtain ⟨-, i, hi, hinact⟩ := hyes
      obtain rfl : idx = i := Option.some.inj (hidx.symm.trans hi)
      exact hin.drift_eq hinact
  | allocated _ hnone _ _ =>
      obtain ⟨-, i, hi, -⟩ := hyes
      simp [hnone] at hi
  | _ => exact hyes.elim

end Steps

section Runs

/-- Without re-activation the gauge stays exact. -/
theorem drift_zero_of_run (hrun : Reaches cfg sink h e)
    (hno : ∀ tr ∈ h, ¬Reactivates tr.pre tr.op) :
    e.drift = 0 ∧ ∀ tr ∈ h, tr.pre.drift = 0 ∧ tr.post.drift = 0 := by
  induction hrun with
  | nil =>
      refine ⟨?_, by simp⟩
      simp [drift, activeIndices, subscribersActive, init]
  | @snoc h e e' op out hprev hs ih =>
      obtain ⟨hzero, hrest⟩ := ih (fun tr htr => hno tr (List.mem_append_left _ htr))
      have hi := reaches_indexed hprev
      have hlast : ¬Reactivates e op := hno ⟨e, op, out, e'⟩ (by simp)
      have hpost : e'.drift = 0 := by
        rw [(step_moves hi.wf hs).drift_same hi hlast, hzero]
      refine ⟨hpost, ?_⟩
      intro tr htr
      rcases List.mem_append.mp htr with hold | hnew
      · exact hrest tr hold
      · obtain rfl := List.mem_singleton.mp hnew
        exact ⟨hzero, hpost⟩

/-- **When the gauge of active sessions is exact.**  The exported value equals the
number of active subscribers in every state of a run exactly if no call of the run
installs a session for a known IMSI that is not active. -/
theorem gauge_exact_iff (hrun : Reaches cfg sink h e) :
    (GaugeExact e ∧ ∀ tr ∈ h, GaugeExact tr.pre ∧ GaugeExact tr.post) ↔
      ∀ tr ∈ h, ¬Reactivates tr.pre tr.op := by
  simp only [gaugeExact_iff]
  constructor
  · rintro ⟨-, hexact⟩ tr htr hyes
    obtain ⟨⟨h', hpre⟩, hs⟩ := Run.mem hrun htr
    have hm := step_moves (reaches_indexed hpre).wf hs
    obtain ⟨hzero, hzero'⟩ := hexact tr htr
    have hsucc := hm.drift_succ hyes
    rw [hzero, hzero'] at hsucc
    exact absurd hsucc (by decide)
  · exact drift_zero_of_run hrun

/-- A run with a learned subscriber, a release and a modification. -/
theorem gauge_exact_released :
    ∃ h e, Reaches { smallConfig with learnUnknownTeids := true } noSink h e ∧
      h.length = 4 ∧ GaugeExact e ∧ e.subscribersActive = 1 := by
  have hex : execCheck step (init { smallConfig with learnUnknownTeids := true } noSink)
      [.install { imsi := 1, ulTeid := 100 } 0, .apply { teid := 300 },
        .install { imsi := 1, ulTeid := 200 } 0, .release 1 0]
      (fun h e => decide (h.length = 4 ∧ e.subscribersActive = 1) &&
        h.all (fun tr => tr.op.installs.all (fun spec =>
          (tr.pre.imsiIndex spec.imsi).all (fun idx => (tr.pre.info idx).active)))) =
      true := by
    decide +kernel
  obtain ⟨h, e, hrun, hcheck⟩ := Run.of_execCheck hex
  rw [Bool.and_eq_true, decide_eq_true_eq, List.all_eq_true] at hcheck
  obtain ⟨⟨hlen, hval⟩, hall⟩ := hcheck
  refine ⟨h, e, hrun, hlen, ((gauge_exact_iff hrun).mpr ?_).1, hval⟩
  intro tr htr hyes
  have hok := hall tr htr
  cases hop : tr.op with
  | install spec nowNs =>
      rw [hop] at hyes hok
      obtain ⟨-, idx, hidx, hinact⟩ := hyes
      simp [MeterOp.installs, hidx, hinact] at hok
  | _ =>
      rw [hop] at hyes
      exact hyes

/-- A session that comes back after its release is not counted, and a second
release takes the gauge below zero. -/
theorem gauge_not_exact :
    (∃ h e, Reaches smallConfig noSink h e ∧ e.subscribersActive = 0 ∧
      e.activeIndices.card = 1 ∧ ¬GaugeExact e) ∧
    (∃ h e, Reaches smallConfig noSink h e ∧ e.subscribersActive = 0xFFFFFFFFFFFFFFFF ∧
      e.activeIndices.card = 0 ∧ ¬GaugeExact e) := by
  have hone : execCheck step (init smallConfig noSink)
      [.install { imsi := 1, ulTeid := 100 } 0, .release 1 0,
        .install { imsi := 1, ulTeid := 100 } 0]
      (fun _ e => decide (e.subscribersActive = 0 ∧ e.activeIndices.card = 1 ∧
        ¬GaugeExact e)) = true := by
    decide +kernel
  have htwo : execCheck step (init smallConfig noSink)
      [.install { imsi := 1, ulTeid := 100 } 0, .release 1 0,
        .install { imsi := 1, ulTeid := 100 } 0, .release 1 0]
      (fun _ e => decide (e.subscribersActive = 0xFFFFFFFFFFFFFFFF ∧
        e.activeIndices.card = 0 ∧ ¬GaugeExact e)) = true := by
    decide +kernel
  obtain ⟨h₁, e₁, hrun₁, hcheck₁⟩ := Run.of_execCheck hone
  obtain ⟨h₂, e₂, hrun₂, hcheck₂⟩ := Run.of_execCheck htwo
  exact ⟨⟨h₁, e₁, hrun₁, of_decide_eq_true hcheck₁⟩,
    ⟨h₂, e₂, hrun₂, of_decide_eq_true hcheck₂⟩⟩

end Runs

end MeterEngine
end GtpMeter
