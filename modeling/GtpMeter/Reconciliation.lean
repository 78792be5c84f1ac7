import GtpMeter.UsageRecords
import Mathlib.Algebra.BigOperators.Pi

/-!
# Reconciling the totals

The totals of the pipeline, the subscribers' counters and the records built so far
account for the same events.  Counters are wiped when a session comes back after a
release.  Nothing is lost by that, because a release bills everything and nothing is
charged to a subscriber that is not active.

**Results.**
* `reaches_settled`: a subscriber that is not active owes nothing.
* `reaches_traffic`: a total is what was billed and what is pending.
* `global_reconciliation`: all identities between the totals.
-/

namespace GtpMeter
namespace MeterEngine

open FlatHashU32 Runs Billing

variable {cfg : MeterConfig} {sink : RecordSink} {h : History} {e e' : MeterEngine} {idx : Nat}
  {nowNs : UInt64} {op : MeterOp} {out : Answer} {ev : MeterEvent}

section Settled

/-- A subscriber that is not active owes nothing. -/
def Settled (e : MeterEngine) : Prop :=
  ∀ idx, (e.info idx).active = false → (e.account idx).pending = 0

theorem Settled.congr (hset : Settled e) (hacc : ∀ i, e'.account i = e.account i)
    (hact : ∀ i, (e'.info i).active = (e.info i).active) : Settled e' := by
  intro i hinact
  rw [hacc]
  exact hset i (hact i ▸ hinact)

theorem SameSessions.active_eq (hs : SameSessions e e') (i : Nat) :
    (e'.info i).active = (e.info i).active :=
  congrArg Session.active (hs.session_eq i)

/-- After a record nothing is pending. -/
theorem emitted_pending (reason : RecordReason) :
    ((e.emitted idx reason nowNs).1.account idx).pending = 0 := by
  rw [emitted_account_self]
  exact sub_self _

theorem emitted_settled (hset : Settled e) (reason : RecordReason) :
    Settled (e.emitted idx reason nowNs).1 := by
  intro i hinact
  by_cases hi : i = idx
  · rw [hi]
    exact emitted_pending reason
  · rw [emitted_account_other hi]
    rw [(emitted_sameSessions idx reason).active_eq i] at hinact
    exact hset i hinact

theorem EmitRun.settled {ems : List Emission} (hr : EmitRun nowNs e ems e')
    (hset : Settled e) : Settled e' := by
  induction hr with
  | nil => exact hset
  | sweep cursor last _ ih => exact ih hset
  | emit reason _ _ _ _ ih => exact ih (emitted_settled hset reason)

theorem Installed.settled {spec : SessionSpec} {r : Option Nat}
    (hin : Installed e idx spec nowNs e' r) (hset : Settled e) : Settled e' := by
  intro i hinact
  have hses := congrArg Session.active (hin.session_eq i)
  have hi : i ≠ idx := by
    rintro rfl
    rw [if_pos rfl] at hses
    exact absurd (hses.symm.trans hinact) (by simp)
  rw [if_neg hi] at hses
  rw [hin.account_eq, if_neg (fun hh => hi hh.1)]
  exact hset i (hses.symm.trans hinact)

theorem Arrived.settled (ha : Arrived e ev e') (hset : Settled e) : Settled e' := by
  cases ha with
  | found m hq _ => exact hset
  | learned m f ok hnone hlearn hroom hw hlk =>
      intro i hinact
      have hi : i ≠ e.nextSub := by
        rintro rfl
        simp [(learnInfo_session ev).1] at hinact
      rw [account_congr (e := e) (by simp [hi]) (by simp [hi])]
      exact hset i (by simpa [hi] using hinact)

/-- A packet reaches active subscribers only. -/
theorem Charged.settled (hc : Charged e ev e') (hS : Sound e) (hset : Settled e) :
    Settled e' := by
  rcases hc with ⟨-, rfl⟩ | ⟨b, hb, hm⟩
  · exact hset
  · intro i hinact
    rw [hm.sameSessions.active_eq] at hinact
    have hi : i ≠ b.subIdx.toNat := by
      rintro rfl
      exact absurd ((hS.owns _ _ hb).active.symm.trans hinact) (by simp)
    obtain ⟨hcnt, hinfo⟩ := hm.counters_eq hi
    rw [account_congr hcnt hinfo]
    exact hset i hinact

theorem Moves.settled (hm : Moves e op out e') (hmax : e.tableSize ≤ 2 ^ 32) (hS : Sound e)
    (hset : Settled e) : Settled e' := by
  cases hm with
  | modified _ _ hin | allocated _ _ _ hin => exact hin.settled hset
  | @released imsi nowNs idx m hidx hlt hact hu =>
      intro i hinact
      rw [releasedState_account]
      by_cases hi : i = idx
      · rw [hi]
        exact emitted_pending .release
      · rw [emitted_account_other hi]
        exact hset i (by simpa [hi] using hinact)
  | charged _ ha hc => exact hc.settled (ha.sound hmax hS) (ha.settled hset)
  | @gyReported ev idx _ _ =>
      refine hset.congr (fun _ => account_update rfl rfl ⟨rfl, rfl, rfl⟩) (fun i => ?_)
      by_cases hi : i = idx
      · subst hi
        simp
      · simp [hi]
  | polled hr | drained hr => exact hr.settled hset
  | _ => exact hset

theorem init_account (i : Nat) : (init cfg sink).account i = .fresh 0 0 := by
  refine account_fresh rfl ?_ rfl rfl
  funext ch
  cases ch <;> rfl

/-- Subscribers that are not active owe nothing in any reachable state. -/
theorem reaches_settled (hmax : cfg.maxSubscribers.toNat ≤ 2 ^ 32)
    (hrun : Reaches cfg sink h e) : Settled e := by
  refine reaches_invariant ?_ ?_ hrun
  · intro i _
    rw [init_account]
    exact sub_self _
  · intro h e op out e' hprev hset hm
    exact hm.settled (reaches_tableSize hprev ▸ hmax) (reaches_sound hmax hprev) hset

/-- Accounts are opened for subscribers that are not active. -/
theorem opening_inactive (hi : Indexed e) {t : UInt64} (hopen : e.opening op idx = some t) :
    (e.info idx).active = false := by
  cases op with
  | install spec nowNs =>
      simp only [opening] at hopen
      cases hidx : e.imsiIndex spec.imsi with
      | some i =>
          rw [hidx] at hopen
          dsimp only at hopen
          split_ifs at hopen with hnew
          rw [hnew.2.1]
          exact hnew.2.2
      | none =>
          rw [hidx] at hopen
          dsimp only at hopen
          split_ifs at hopen with hnew
          exact hi.fresh idx (Nat.le_of_eq hnew.2.1.symm)
  | apply ev =>
      simp only [opening] at hopen
      split_ifs at hopen with hnew
      exact hi.fresh idx (Nat.le_of_eq hnew.2.1.symm)
  | _ => simp [opening] at hopen

/-- So opening an account drops nothing. -/
theorem Settled.reopen_pending (hset : Settled e) (hi : Indexed e) (op : MeterOp) (idx : Nat) :
    ((e.account idx).reopen 0 (e.opening op idx)).pending = (e.account idx).pending := by
  cases hopen : e.opening op idx with
  | none => rfl
  | some t =>
      rw [hset idx (opening_inactive hi hopen)]
      exact sub_self _

end Settled

section Totals

/-- What is pending over all subscribers. -/
def pendingTotal (e : MeterEngine) : Usage :=
  ∑ i ∈ Finset.range e.tableSize, (e.account i).pending

theorem EmitRun.idx_lt {ems : List Emission} (hr : EmitRun nowNs e ems e') :
    ∀ em ∈ ems, em.idx < e.tableSize := by
  induction hr with
  | nil => simp
  | sweep cursor last _ ih => exact ih
  | emit reason hlt _ _ _ ih =>
      intro em hem
      rcases List.mem_cons.mp hem with rfl | hem
      · exact hlt
      · exact ih em hem

/-- The books of one account over a call. -/
theorem Posts.account_balance {charged : Option (Nat × Usage)} (hp : Posts e op out charged e')
    (hi : Indexed e) (hset : Settled e) (idx : Nat) :
    usageOf (emissionsFor idx out.emissions) + (e'.account idx).pending =
      (e.account idx).pending + (chargesTo idx charged).sum := by
  obtain ⟨ps, hf, hb, hc⟩ := hp.follows idx
  have hbal := hf.pending_eq
  rw [hb, hc, hset.reopen_pending hi, List.map_map] at hbal
  exact hbal

theorem sum_chargesTo {charged : Option (Nat × Usage)} {n : Nat}
    (hlt : ∀ i g, charged = some (i, g) → i < n) :
    ∑ i ∈ Finset.range n, (chargesTo i charged).sum = charged.elim 0 (fun c => c.2) := by
  cases charged with
  | none => simp [chargesTo]
  | some c =>
      have hone : ∀ i, (chargesTo i (some c)).sum = if c.1 = i then c.2 else 0 := by
        intro i
        by_cases hi : c.1 = i <;> simp [chargesTo, hi]
      simp only [hone, Finset.sum_ite_eq, Finset.mem_range, if_pos (hlt c.1 c.2 rfl)]
      rfl

/-- The books of all accounts over a call. -/
theorem Posts.balance {charged : Option (Nat × Usage)} (hp : Posts e op out charged e')
    (hi : Indexed e) (hset : Settled e) (hems : ∀ em ∈ out.emissions, em.idx < e.tableSize)
    (hcfg : e'.cfg = e.cfg) :
    usageOf out.emissions + e'.pendingTotal =
      e.pendingTotal + charged.elim 0 (fun c => c.2) := by
  have hsize : e'.tableSize = e.tableSize := by simp [tableSize, hcfg]
  have hrecords : ∑ i ∈ Finset.range e.tableSize, usageOf (emissionsFor i out.emissions) =
      usageOf out.emissions :=
    sum_by_key _ Emission.idx (fun em => em.record.usage)
      (fun em hem => Finset.mem_range.mpr (hems em hem))
  unfold pendingTotal
  rw [hsize, ← hrecords, ← sum_chargesTo (fun i g hc => (hp.charged_ok i g hc).1),
    ← Finset.sum_add_distrib, ← Finset.sum_add_distrib]
  exact Finset.sum_congr rfl (fun i _ => hp.account_balance hi hset i)

theorem usageOf_append (ems ems' : List Emission) :
    usageOf (ems ++ ems') = usageOf ems + usageOf ems' := by
  simp [usageOf]

/-- A total of the pipeline is what was billed so far and what is pending. -/
theorem reaches_traffic (hmax : cfg.maxSubscribers.toNat ≤ 2 ^ 32)
    (hrun : Reaches cfg sink h e) {ch : Channel} (hch : ∀ i, ch ≠ .bucket i) :
    e.stats.traffic ch = usageOf (emissionsOf h) ch + e.pendingTotal ch := by
  induction hrun with
  | nil =>
      have hnone : (init cfg sink).pendingTotal = 0 := by
        refine Finset.sum_eq_zero (fun i _ => ?_)
        rw [init_account]
        exact sub_self _
      rw [hnone]
      cases ch <;> rfl
  | @snoc h e e' op out hprev hs ih =>
      have hi := reaches_indexed hprev
      have hm := step_moves hi.wf hs
      obtain ⟨charged, hp⟩ := hm.ledger hi
      obtain ⟨nowNs, e₁, hr, -⟩ := hm.reports hi
      have hbal := congrFun
        (hp.balance hi (reaches_settled hmax hprev) hr.idx_lt hm.cfg_eq) ch
      have hcharge : charged.elim 0 (fun c => c.2 ch) = charged.elim (0 : Usage) (·.2) ch := by
        cases charged <;> rfl
      rw [Pi.add_apply, Pi.add_apply] at hbal
      rw [hp.traffic_eq ch hch, ih, emissionsOf_snoc, usageOf_append, Pi.add_apply, hcharge,
        add_assoc, ← hbal]
      abel

/-- The slots of every subscriber add up to its bytes. -/
theorem reaches_slots (hrun : Reaches cfg sink h e) (idx : Nat) :
    slotExcess (e.account idx).total = 0 ∧ slotExcess (e.account idx).billed = 0 := by
  induction hrun with
  | nil =>
      rw [init_account]
      exact ⟨map_zero _, map_zero _⟩
  | @snoc h e e' op out hprev hs ih =>
      have hi := reaches_indexed hprev
      obtain ⟨charged, hp⟩ := (step_moves hi.wf hs).ledger hi
      obtain ⟨ps, hf, -, hc⟩ := hp.follows idx
      have hstart : slotExcess ((e.account idx).reopen 0 (e.opening op idx)).total = 0 ∧
          slotExcess ((e.account idx).reopen 0 (e.opening op idx)).billed = 0 := by
        cases e.opening op idx with
        | none => exact ih
        | some t => exact ⟨map_zero _, map_zero _⟩
      have hvanish := hf.vanish (f := slotExcess) (hc ▸ hp.balanced idx) hstart.1 hstart.2
      exact ⟨hvanish.1, hvanish.2.1⟩

end Totals

section Events

/-- Events less what they are classified as. -/
def eventExcess (s : PipelineStats) : UInt64 :=
  s.events - (s.controlPdus + s.unknownTeidEvents + s.ulPackets + s.dlPackets)

/-- Bytes less what they are classified as. -/
def byteExcess (s : PipelineStats) : UInt64 :=
  s.bytes - (s.unknownTeidBytes + s.ulBytes + s.dlBytes)

theorem emitted_excess (e : MeterEngine) (idx : Nat) (reason : RecordReason) (nowNs : UInt64) :
    eventExcess (e.emitted idx reason nowNs).1.stats = eventExcess e.stats ∧
      byteExcess (e.emitted idx reason nowNs).1.stats = byteExcess e.stats := by
  rw [emitted_stats]
  cases (e.emitted idx reason nowNs).2.outcome <;> exact ⟨rfl, rfl⟩

theorem EmitRun.excess_eq {ems : List Emission} (hr : EmitRun nowNs e ems e') :
    eventExcess e'.stats = eventExcess e.stats ∧ byteExcess e'.stats = byteExcess e.stats := by
  induction hr with
  | nil => exact ⟨rfl, rfl⟩
  | sweep cursor last _ ih => exact ih
  | emit reason _ _ _ _ ih =>
      rw [ih.1, ih.2]
      exact emitted_excess _ _ reason nowNs

theorem addTotals_excess (s : PipelineStats) (dir : UInt8) (bytes : UInt64) :
    eventExcess (addTotals s dir bytes) = eventExcess s - 1 ∧
      byteExcess (addTotals s dir bytes) = byteExcess s - bytes := by
  unfold addTotals eventExcess byteExcess
  split_ifs <;> dsimp only <;> constructor <;> abel

/-- An event is counted when it arrives and classified when it is charged. -/
theorem Arrived.excess_eq (ha : Arrived e ev e') :
    eventExcess e'.stats = eventExcess e.stats + 1 ∧
      byteExcess e'.stats = byteExcess e.stats + ev.bytes.toUInt64 := by
  have hcount : eventExcess (e.countEvent ev).stats = eventExcess e.stats + 1 ∧
      byteExcess (e.countEvent ev).stats = byteExcess e.stats + ev.bytes.toUInt64 := by
    unfold countEvent eventExcess byteExcess
    constructor <;> dsimp only <;> abel
  cases ha <;> exact hcount

theorem Charged.excess_eq (hc : Charged e ev e') :
    eventExcess e'.stats = eventExcess e.stats - 1 ∧
      byteExcess e'.stats = byteExcess e.stats - ev.bytes.toUInt64 := by
  rcases hc with ⟨-, rfl⟩ | ⟨b, -, hm⟩
  · unfold countUnknown eventExcess byteExcess
    constructor <;> dsimp only <;> abel
  · cases hm with
    | mk info slot hs fl fa fi fe hlt hslot => exact addTotals_excess _ _ _

/-- Every call classifies the events it counts, and their bytes if control messages
carry none. -/
theorem Moves.excess_eq (hm : Moves e op out e') :
    eventExcess e'.stats = eventExcess e.stats ∧
      ((∀ ev, op = .apply ev → ev.isControl = true → ev.bytes = 0) →
        byteExcess e'.stats = byteExcess e.stats) := by
  cases hm with
  | modified _ _ hin | allocated _ _ _ hin =>
      cases hin
      exact ⟨rfl, fun _ => rfl⟩
  | @released imsi nowNs idx m hidx hlt hact hu =>
      have hsame := emitted_excess e idx .release nowNs
      exact ⟨hsame.1, fun _ => hsame.2⟩
  | @control ev hctl =>
      unfold countEvent eventExcess byteExcess
      refine ⟨by dsimp only; abel, fun hzero => ?_⟩
      simp [hzero ev rfl hctl]
  | charged _ ha hc =>
      rw [hc.excess_eq.1, hc.excess_eq.2, ha.excess_eq.1, ha.excess_eq.2]
      exact ⟨add_sub_cancel_right _ _, fun _ => add_sub_cancel_right _ _⟩
  | polled hr | drained hr => exact ⟨hr.excess_eq.1, fun _ => hr.excess_eq.2⟩
  | _ => exact ⟨rfl, fun _ => rfl⟩

theorem reaches_excess (hrun : Reaches cfg sink h e)
    (hctl : ∀ tr ∈ h, ∀ ev, tr.op = .apply ev → ev.isControl = true → ev.bytes = 0) :
    eventExcess e.stats = 0 ∧ byteExcess e.stats = 0 := by
  induction hrun with
  | nil => exact ⟨sub_self _, sub_self _⟩
  | @snoc h e e' op out hprev hs ih =>
      obtain ⟨hev, hby⟩ := ih (fun tr htr => hctl tr (List.mem_append_left _ htr))
      have hm := (step_moves (reaches_indexed hprev).wf hs).excess_eq
      exact ⟨hm.1.trans hev, (hm.2 (hctl ⟨e, op, out, e'⟩ (by simp))).trans hby⟩

/-- **Global reconciliation.**  Every event is a control message, unknown or a packet
in one direction, and so are its bytes; the slots of every subscriber add up to its
bytes; and each total is the sum over all records built so far and over what all
subscribers have pending. -/
theorem global_reconciliation (hmax : cfg.maxSubscribers.toNat ≤ 2 ^ 32)
    (hrun : Reaches cfg sink h e)
    (hctl : ∀ tr ∈ h, ∀ ev, tr.op = .apply ev → ev.isControl = true → ev.bytes = 0) :
    e.stats.events = e.stats.controlPdus + e.stats.unknownTeidEvents + e.stats.ulPackets +
      e.stats.dlPackets ∧
    e.stats.bytes = e.stats.unknownTeidBytes + e.stats.ulBytes + e.stats.dlBytes ∧
    (∀ idx, (e.counters idx).bucketBytes 0 + (e.counters idx).bucketBytes 1 +
      (e.counters idx).bucketBytes 2 = (e.counters idx).ulBytes + (e.counters idx).dlBytes) ∧
    (∀ ch, (∀ i, ch ≠ .bucket i) → e.stats.traffic ch = usageOf (emissionsOf h) ch +
      ∑ idx ∈ Finset.range cfg.maxSubscribers.toNat,
        ((e.counters idx).usage ch - (e.info idx).emitted ch)) := by
  obtain ⟨hev, hby⟩ := reaches_excess hrun hctl
  refine ⟨sub_eq_zero.mp hev, sub_eq_zero.mp hby, ?_, ?_⟩
  · intro idx
    have hslots := slotExcess_eq_zero.mp (reaches_slots hrun idx).1
    exact hslots
  · intro ch hch
    rw [reaches_traffic hmax hrun hch]
    unfold pendingTotal
    rw [reaches_tableSize hrun, Finset.sum_apply]
    rfl

/-- A run with a release, a session that comes back, a control message and a packet
for an unknown TEID. -/
theorem global_reconciliation_again :
    ∃ h e, Reaches smallConfig noSink h e ∧ e.stats.events = 5 ∧
      (emissionsOf h).length = 1 ∧ e.stats.ulBytes = 12 ∧
      e.stats.bytes = e.stats.unknownTeidBytes + e.stats.ulBytes + e.stats.dlBytes ∧
      e.stats.ulBytes = usageOf (emissionsOf h) .ulBytes +
        ∑ idx ∈ Finset.range smallConfig.maxSubscribers.toNat,
          ((e.counters idx).ulBytes - (e.info idx).emittedUlBytes) := by
  have hex : execCheck step (init smallConfig noSink)
      [.install { imsi := 1, ulTeid := 100, dlTeid := 101 } 0,
        .apply { teid := 100, bytes := 7 }, .apply { teid := 101, bytes := 9 },
        .apply { teid := 100, flags := 8 }, .release 1 3, .apply { teid := 100, bytes := 1 },
        .install { imsi := 1, ulTeid := 100 } 5, .apply { teid := 100, bytes := 5 }]
      (fun h e => decide (e.stats.events = 5 ∧ (emissionsOf h).length = 1 ∧
          e.stats.ulBytes = 12) &&
        h.all (fun tr => tr.op.packet.all
          (fun ev => !ev.isControl || decide (ev.bytes = 0)))) = true := by
    decide +kernel
  obtain ⟨h, e, hrun, hcheck⟩ := Run.of_execCheck hex
  rw [Bool.and_eq_true, decide_eq_true_eq, List.all_eq_true] at hcheck
  obtain ⟨⟨hevents, hlen, hul⟩, hall⟩ := hcheck
  have hctl : ∀ tr ∈ h, ∀ ev, tr.op = .apply ev → ev.isControl = true → ev.bytes = 0 := by
    intro tr htr ev hop hctl
    have hok := hall tr htr
    simpa [hop, hctl, MeterOp.packet] using hok
  obtain ⟨-, hbytes, -, htraffic⟩ := global_reconciliation (by decide) hrun hctl
  exact ⟨h, e, hrun, hevents, hlen, hul, hbytes, htraffic .ulBytes (by simp)⟩

end Events

end MeterEngine
end GtpMeter
