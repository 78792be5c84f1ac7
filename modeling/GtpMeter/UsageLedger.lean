import GtpMeter.BillingLedger
import GtpMeter.BindingSoundness
import Mathlib.Algebra.Group.Pi.Basic
import Mathlib.Data.UInt

/-!
# Subscribers as billed accounts

A subscriber index is an account in the sense of `BillingLedger`.  Its amounts are
usages: one 64-bit word for each direction and slot.  A packet is a charge, a
usage record is a bill, and a fresh installation or a learned TEID opens the
account anew.

**Results.**
* `packetUsage_balanced`: the slots of a packet add up to its bytes.
* `Moves.ledger`: every call posts to the accounts, and how.
-/

namespace GtpMeter

/-- What a usage is measured in. -/
inductive Channel where
  | ulBytes
  | dlBytes
  | ulPackets
  | dlPackets
  | bucket (i : Fin kBucketSlots)
deriving DecidableEq

/-- An amount of usage; it wraps in every channel. -/
abbrev Usage := Channel → UInt64

def SubscriberCounters.usage (c : SubscriberCounters) : Usage
  | .ulBytes => c.ulBytes
  | .dlBytes => c.dlBytes
  | .ulPackets => c.ulPackets
  | .dlPackets => c.dlPackets
  | .bucket i => c.bucketBytes i

/-- The `emitted_*` fields. -/
def SubscriberInfo.emitted (info : SubscriberInfo) : Usage
  | .ulBytes => info.emittedUlBytes
  | .dlBytes => info.emittedDlBytes
  | .ulPackets => info.emittedUlPackets
  | .dlPackets => info.emittedDlPackets
  | .bucket i => info.emittedBucketBytes i

def UsageRecord.usage (r : UsageRecord) : Usage
  | .ulBytes => r.ulBytes
  | .dlBytes => r.dlBytes
  | .ulPackets => r.ulPackets
  | .dlPackets => r.dlPackets
  | .bucket i => r.bucketBytes i

/-- The totals over all subscribers; slots have none. -/
def PipelineStats.traffic (s : PipelineStats) : Usage
  | .ulBytes => s.ulBytes
  | .dlBytes => s.dlBytes
  | .ulPackets => s.ulPackets
  | .dlPackets => s.dlPackets
  | .bucket _ => 0

def UsageRecord.bill (r : UsageRecord) : Billing.Bill Usage UInt32 UInt64 :=
  ⟨r.usage, r.recordSeq, r.intervalStartNs, r.intervalEndNs⟩

/-- Bytes in the slots less bytes in the two directions. -/
def slotExcess : Usage →+ UInt64 where
  toFun u := u (.bucket 0) + u (.bucket 1) + u (.bucket 2) - (u .ulBytes + u .dlBytes)
  map_zero' := by simp
  map_add' u v := by
    simp only [Pi.add_apply]
    abel

theorem slotExcess_eq_zero {u : Usage} :
    slotExcess u = 0 ↔
      u (.bucket 0) + u (.bucket 1) + u (.bucket 2) = u .ulBytes + u .dlBytes :=
  sub_eq_zero

namespace MeterEngine

open FlatHashU32 Runs Billing

variable {e e' : MeterEngine} {idx : Nat} {nowNs : UInt64}

/-- Subscriber `idx` as an account. -/
def account (e : MeterEngine) (idx : Nat) : Account Usage UInt32 UInt64 :=
  ⟨(e.counters idx).usage, (e.info idx).emitted, (e.info idx).recordSeq,
    (e.info idx).intervalStartNs⟩

section Bills

/-- A usage record is the bill over what is pending. -/
theorem makeRecord_bill (reason : RecordReason) (wallNs : UInt64) :
    (makeRecord (e.counters idx) (e.info idx) idx reason nowNs wallNs).bill =
      (e.account idx).makeBill nowNs := by
  unfold UsageRecord.bill Account.makeBill
  congr 1
  funext ch
  cases ch <;> rfl

theorem emitted_account_self (reason : RecordReason) :
    (e.emitted idx reason nowNs).1.account idx =
      { e.account idx with
        billed := (e.account idx).total, seq := (e.account idx).seq + 1, since := nowNs } := by
  unfold account emitted
  simp only [Function.update_self, Account.mk.injEq]
  refine ⟨trivial, ?_, rfl, rfl⟩
  funext ch
  cases ch <;> rfl

theorem account_congr {i : Nat} (hc : e'.counters i = e.counters i)
    (hi : e'.info i = e.info i) : e'.account i = e.account i := by
  unfold account
  rw [hc, hi]

theorem emitted_account_other {i : Nat} (hi : i ≠ idx) (reason : RecordReason) :
    (e.emitted idx reason nowNs).1.account i = e.account i :=
  account_congr rfl (by simp [emitted, hi])

/-- Rewriting one subscriber without touching its bookkeeping changes no account. -/
theorem account_update {info : SubscriberInfo} {i : Nat} (hc : e'.counters = e.counters)
    (hinfo : e'.info = Function.update e.info idx info)
    (hled : info.emitted = (e.info idx).emitted ∧ info.recordSeq = (e.info idx).recordSeq ∧
      info.intervalStartNs = (e.info idx).intervalStartNs) : e'.account i = e.account i := by
  obtain ⟨hem, hseq, hstart⟩ := hled
  unfold account
  rw [hc, hinfo]
  by_cases hi : i = idx
  · subst hi
    simp [hem, hseq, hstart]
  · simp [hi]

theorem releasedState_account (m : FlatHashU32 TeidBinding) (i : Nat) :
    (e.releasedState idx nowNs m).account i = (e.emitted idx .release nowNs).1.account i := by
  by_cases hi : i = idx
  · subst hi
    rw [emitted_account_self]
    unfold account
    simp only [releasedState_info, releasedState_counters, Function.update_self]
    rfl
  · rw [emitted_account_other hi]
    exact account_congr rfl (by simp [hi])

/-- The emissions for one index. -/
def emissionsFor (idx : Nat) (ems : List Emission) : List Emission :=
  ems.filter (fun em => em.idx = idx)

theorem EmitRun.follows {ems : List Emission} (hr : EmitRun nowNs e ems e') (idx : Nat) :
    ∃ ps, Follows (· + 1) (e.account idx) ps (e'.account idx) ∧
      bills ps = (emissionsFor idx ems).map (fun em => em.record.bill) ∧ charges ps = [] := by
  induction hr with
  | nil e => exact ⟨[], .nil _, rfl, rfl⟩
  | sweep cursor last _ ih => exact ih
  | @emit e e' ems i reason hlt hnext hact _ ih =>
      obtain ⟨ps, hf, hb, hc⟩ := ih
      by_cases hi : i = idx
      · subst hi
        rw [emitted_account_self] at hf
        refine ⟨_, .bill nowNs hf, ?_, hc⟩
        have hsame : emissionsFor i ((e.emitted i reason nowNs).2 :: ems) =
            (e.emitted i reason nowNs).2 :: emissionsFor i ems := by
          simp [emissionsFor, emitted]
        rw [hsame, List.map_cons, ← hb]
        show _ = (makeRecord _ _ _ _ _ _).bill :: _
        rw [makeRecord_bill]
        rfl
      · rw [emitted_account_other (Ne.symm hi)] at hf
        refine ⟨ps, hf, ?_, hc⟩
        have hskip : emissionsFor idx ((e.emitted i reason nowNs).2 :: ems) =
            emissionsFor idx ems := by
          simp [emissionsFor, emitted, hi]
        rw [hskip, hb]

theorem EmitRun.traffic_eq {ems : List Emission} (hr : EmitRun nowNs e ems e') :
    e'.stats.traffic = e.stats.traffic := by
  induction hr with
  | nil => rfl
  | sweep cursor last _ ih => exact ih
  | @emit e e' ems idx reason _ _ _ _ ih =>
      rw [ih, emitted_stats]
      cases (e.emitted idx reason nowNs).2.outcome <;> rfl

end Bills

section Charges

/-- The usage of one packet. -/
def packetUsage (dir : UInt8) (slot : Fin kBucketSlots) (bytes : UInt64) : Usage
  | .ulBytes => if dir = Direction.downlink.code then 0 else bytes
  | .dlBytes => if dir = Direction.downlink.code then bytes else 0
  | .ulPackets => if dir = Direction.downlink.code then 0 else 1
  | .dlPackets => if dir = Direction.downlink.code then 1 else 0
  | .bucket i => if i = slot then bytes else 0

theorem packetUsage_balanced (dir : UInt8) (slot : Fin kBucketSlots) (bytes : UInt64) :
    slotExcess (packetUsage dir slot bytes) = 0 := by
  rw [slotExcess_eq_zero]
  have hdir : packetUsage dir slot bytes .ulBytes + packetUsage dir slot bytes .dlBytes =
      bytes := by
    simp only [packetUsage]
    split_ifs <;> simp
  rw [hdir]
  match slot with
  | 0 => simp [packetUsage]
  | 1 => simp [packetUsage]
  | 2 => simp [packetUsage]

theorem addPacket_usage (c : SubscriberCounters) (ev : MeterEvent) (dir : UInt8)
    (slot : Fin kBucketSlots) :
    (addPacket c ev dir slot).usage = c.usage + packetUsage dir slot ev.bytes.toUInt64 := by
  funext ch
  unfold addPacket addDirection
  by_cases hd : dir = Direction.downlink.code
  · cases ch with
    | bucket i =>
        by_cases hi : i = slot <;> simp [SubscriberCounters.usage, packetUsage, hd, hi]
    | _ => simp [SubscriberCounters.usage, packetUsage, hd]
  · cases ch with
    | bucket i =>
        by_cases hi : i = slot <;> simp [SubscriberCounters.usage, packetUsage, hd, hi]
    | _ => simp [SubscriberCounters.usage, packetUsage, hd]

/-- The totals move with the packet. -/
theorem addTotals_traffic (s : PipelineStats) (dir : UInt8) (slot : Fin kBucketSlots)
    (bytes : UInt64) {ch : Channel} (hch : ∀ i, ch ≠ .bucket i) :
    (addTotals s dir bytes).traffic ch = s.traffic ch + packetUsage dir slot bytes ch := by
  unfold addTotals
  by_cases hd : dir = Direction.downlink.code
  · cases ch with
    | bucket i => exact absurd rfl (hch i)
    | _ => simp [PipelineStats.traffic, packetUsage, hd]
  · cases ch with
    | bucket i => exact absurd rfl (hch i)
    | _ => simp [PipelineStats.traffic, packetUsage, hd]

end Charges

section Openings

variable {spec : SessionSpec} {r : Option Nat} {ev : MeterEvent}

/-- The time from which a call opens the account of `idx`, if it does: a session
is installed for a subscriber that is not active, or a TEID is learned. -/
def opening (e : MeterEngine) (op : MeterOp) (idx : Nat) : Option UInt64 :=
  match op with
  | .install spec nowNs =>
      match e.imsiIndex spec.imsi with
      | some i =>
          if spec.valid ∧ idx = i ∧ (e.info i).active = false then some nowNs else none
      | none =>
          if spec.valid ∧ idx = e.nextSub ∧ e.nextSub < e.tableSize then some nowNs else none
  | .apply ev =>
      if ev.isControl = false ∧ idx = e.nextSub ∧ Learns e ev then some ev.tsNs else none
  | _ => none

/-- An opened account is at zero. -/
theorem account_fresh (hc : e'.counters idx = {}) (hem : (e'.info idx).emitted = 0)
    (hseq : (e'.info idx).recordSeq = 0) (hstart : (e'.info idx).intervalStartNs = nowNs) :
    e'.account idx = .fresh 0 nowNs := by
  unfold account Account.fresh
  rw [hc, hem, hseq, hstart]
  congr 1
  funext ch
  cases ch <;> rfl

/-- What an installation keeps of the bookkeeping of an active subscriber, and
where it starts otherwise. -/
theorem installInfo_ledger (info : SubscriberInfo) (spec : SessionSpec) (nowNs : UInt64) :
    ((installInfo info spec nowNs).1.emitted = if info.active then info.emitted else 0) ∧
    ((installInfo info spec nowNs).1.recordSeq = if info.active then info.recordSeq else 0) ∧
    ((installInfo info spec nowNs).1.intervalStartNs =
      if info.active then info.intervalStartNs else nowNs) := by
  obtain ⟨-, ids, agg, heq⟩ := installInfo_spec info spec nowNs
  rw [heq]
  refine ⟨?_, ?_, ?_⟩ <;> unfold openInfo <;> split_ifs
  · rfl
  · funext ch
    cases ch <;> rfl
  all_goals rfl

theorem learnInfo_ledger (ev : MeterEvent) :
    (learnInfo ev).1.emitted = 0 ∧ (learnInfo ev).1.recordSeq = 0 ∧
      (learnInfo ev).1.intervalStartNs = ev.tsNs := by
  refine ⟨?_, ?_, ?_⟩ <;> unfold learnInfo <;> split_ifs
  · funext ch
    cases ch <;> rfl
  · funext ch
    cases ch <;> rfl
  all_goals rfl

/-- The two arrays after an installation. -/
theorem Installed.arrays_eq (hin : Installed e idx spec nowNs e' r) (i : Nat) :
    (e'.counters i = if i = idx ∧ (e.info idx).active = false then {} else e.counters i) ∧
      (e'.info i =
        if i = idx then (installInfo (e.info idx) spec nowNs).1 else e.info i) := by
  cases hin with
  | mk m₁ m₂ m₃ f ulOk dlOk hlt hu hb₁ hb₂ =>
      refine ⟨?_, Function.update_apply _ _ _ _⟩
      cases hact : (e.info idx).active with
      | true => simp
      | false => simp [Function.update_apply]

theorem Installed.account_eq (hin : Installed e idx spec nowNs e' r) (i : Nat) :
    e'.account i =
      (e.account i).reopen 0
        (if i = idx ∧ (e.info idx).active = false then some nowNs else none) := by
  obtain ⟨hem, hseq, hstart⟩ := installInfo_ledger (e.info idx) spec nowNs
  obtain ⟨hc, hinfo⟩ := hin.arrays_eq i
  by_cases hi : i = idx
  · subst hi
    rw [if_pos rfl] at hinfo
    cases hact : (e.info i).active with
    | true =>
        simp only [hact, if_true] at hem hseq hstart
        simp [account, Account.reopen, hinfo, hc, hact, hem, hseq, hstart]
    | false =>
        simp only [hact, Bool.false_eq_true, if_false] at hem hseq hstart
        rw [if_pos ⟨rfl, rfl⟩]
        rw [if_pos ⟨rfl, hact⟩] at hc
        exact account_fresh hc (hinfo ▸ hem) (hinfo ▸ hseq) (hinfo ▸ hstart)
  · rw [if_neg (fun hh => hi hh.1)] at hc ⊢
    rw [if_neg hi] at hinfo
    exact account_congr hc hinfo

theorem Arrived.account_eq (ha : Arrived e ev e') (i : Nat) :
    e'.account i =
      (e.account i).reopen 0 (if i = e.nextSub ∧ Learns e ev then some ev.tsNs else none) := by
  cases ha with
  | found m hq hno =>
      rw [if_neg (fun hh => hno hh.2)]
      rfl
  | learned m f ok hnone hlearn hroom hw hlk =>
      obtain ⟨hem, hseq, hstart⟩ := learnInfo_ledger ev
      by_cases hi : i = e.nextSub
      · subst hi
        rw [if_pos ⟨rfl, hnone, hlearn, hroom⟩]
        refine account_fresh ?_ ?_ ?_ ?_
        · simp
        · simpa using hem
        · simpa using hseq
        · simpa using hstart
      · rw [if_neg (fun hh => hi hh.1)]
        exact account_congr (by simp [hi]) (by simp [hi])

end Openings

section Postings

variable {e₁ : MeterEngine} {op : MeterOp} {ev : MeterEvent} {b : TeidBinding}

/-- The charges of `idx` when `charged` says who is charged what. -/
def chargesTo (idx : Nat) : Option (Nat × Usage) → List Usage
  | none => []
  | some (i, g) => if i = idx then [g] else []

/-- What a call posts to the accounts.  It may open accounts, it bills what it
emits, and it charges at most one subscriber. -/
structure Posts (e : MeterEngine) (op : MeterOp) (out : Answer)
    (charged : Option (Nat × Usage)) (e' : MeterEngine) : Prop where
  follows : ∀ idx, ∃ ps,
    Follows (· + 1) ((e.account idx).reopen 0 (e.opening op idx)) ps (e'.account idx) ∧
      bills ps = (emissionsFor idx out.emissions).map (fun em => em.record.bill) ∧
      charges ps = chargesTo idx charged
  charged_ok : ∀ i g, charged = some (i, g) → i < e.tableSize ∧ slotExcess g = 0
  traffic_eq : ∀ ch, (∀ i, ch ≠ .bucket i) →
    e'.stats.traffic ch = e.stats.traffic ch + charged.elim 0 (fun c => c.2 ch)

theorem Posts.balanced {out : Answer} {charged : Option (Nat × Usage)}
    (hp : Posts e op out charged e') (idx : Nat) :
    ∀ g ∈ chargesTo idx charged, slotExcess g = 0 := by
  intro g hg
  cases charged with
  | none => simp [chargesTo] at hg
  | some c =>
      simp only [chargesTo] at hg
      split_ifs at hg
      · rw [List.mem_singleton.mp hg]
        exact (hp.charged_ok c.1 c.2 rfl).2
      · simp at hg

/-- A call that opens accounts at most. -/
theorem Posts.of_opening {r : Option Nat}
    (hacc : ∀ idx, e'.account idx = (e.account idx).reopen 0 (e.opening op idx))
    (htr : e'.stats.traffic = e.stats.traffic) : Posts e op { index := r } none e' := by
  refine ⟨?_, by simp, fun ch _ => by simp [htr]⟩
  intro idx
  rw [hacc]
  exact ⟨[], .nil _, rfl, rfl⟩

/-- A call that reports. -/
theorem Posts.of_emitRun {ems : List Emission} (hop : ∀ idx, e.opening op idx = none)
    (hr : EmitRun nowNs e ems e₁) (hacc : ∀ idx, e'.account idx = e₁.account idx)
    (htr : e'.stats.traffic = e₁.stats.traffic) :
    Posts e op { emissions := ems } none e' := by
  refine ⟨?_, by simp, fun ch _ => by simp [htr, hr.traffic_eq]⟩
  intro idx
  rw [hop, hacc]
  exact hr.follows idx

/-- A metered packet is a charge to one account. -/
theorem Metered.account_eq (hm : Metered e ev b e') :
    b.subIdx.toNat < e.tableSize ∧ ∃ slot : Fin kBucketSlots,
      (∀ i, e'.account i =
        if i = b.subIdx.toNat then
          { e.account i with
            total := (e.account i).total + packetUsage (packetDir ev b) slot ev.bytes.toUInt64 }
        else e.account i) ∧
      ∀ ch, (∀ i, ch ≠ .bucket i) → e'.stats.traffic ch =
        e.stats.traffic ch + packetUsage (packetDir ev b) slot ev.bytes.toUInt64 ch := by
  cases hm with
  | mk info slot hs fl fa fi fe hlt hslot =>
      obtain ⟨ids, agg, rfl⟩ := packetSlot_ok hslot
      refine ⟨hlt, ⟨slot.toNat, hs⟩, ?_, ?_⟩
      · intro i
        split_ifs with hi
        · subst hi
          unfold account
          rw [← addPacket_usage]
          simp only [Function.update_self]
          rfl
        · exact account_congr (by simp [hi]) (by simp [hi])
      · intro ch hch
        rw [← addTotals_traffic _ _ _ _ hch]
        cases ch <;> rfl

/-- A packet that is metered once the accounts of the call have been opened. -/
theorem Metered.posts (hm : Metered e₁ ev b e')
    (hopen : ∀ idx, e₁.account idx = (e.account idx).reopen 0 (e.opening op idx))
    (htr : e₁.stats.traffic = e.stats.traffic) (hsize : e₁.tableSize = e.tableSize) :
    ∃ charged, Posts e op {} charged e' := by
  obtain ⟨hlt, slot, hacc, htraffic⟩ := hm.account_eq
  refine ⟨some (b.subIdx.toNat, packetUsage (packetDir ev b) slot ev.bytes.toUInt64), ?_, ?_, ?_⟩
  · intro idx
    rw [hacc, ← hopen]
    by_cases hb : idx = b.subIdx.toNat
    · rw [if_pos hb]
      exact ⟨_, .charge _ (.nil _), rfl, by simp [charges, chargesTo, hb]⟩
    · rw [if_neg hb]
      exact ⟨[], .nil _, rfl, by simp [charges, chargesTo, Ne.symm hb]⟩
  · intro i g hcg
    obtain ⟨rfl, rfl⟩ := Prod.mk.inj (Option.some.inj hcg)
    exact ⟨hsize ▸ hlt, packetUsage_balanced _ _ _⟩
  · intro ch hch
    rw [htraffic ch hch, htr]
    rfl

/-- What a call posts. -/
theorem Moves.ledger {out : Answer} (hm : Moves e op out e') (hi : Indexed e) :
    ∃ charged, Posts e op out charged e' := by
  cases hm with
  | @refused spec nowNs hno =>
      refine ⟨none, .of_opening (fun idx => ?_) rfl⟩
      rcases hno with hinv | ⟨hnone, hfull⟩
      · cases hidx : e.imsiIndex spec.imsi <;> simp [opening, hidx, hinv, Account.reopen]
      · simp [opening, hnone, Nat.not_lt.mpr hfull, Account.reopen]
  | modified hv hidx hin =>
      refine ⟨none, .of_opening (fun idx => ?_) ?_⟩
      · rw [hin.account_eq]
        simp [opening, hidx, hv]
      · cases hin
        rfl
  | @allocated spec nowNs r e' hv hnone hroom hin =>
      refine ⟨none, .of_opening (fun idx => ?_) ?_⟩
      · rw [hin.account_eq]
        have hinact : ((e.allocate spec.imsi).info e.nextSub).active = false :=
          hi.fresh _ le_rfl
        rw [hinact]
        simp only [opening, hnone, hv, hroom, true_and, and_true]
        rfl
      · cases hin
        rfl
  | unknownRelease _ => exact ⟨none, .of_opening (fun _ => rfl) rfl⟩
  | @released imsi nowNs idx m hidx hlt hact hu =>
      have hr := EmitRun.emit .release hlt (hi.imsi_eq _ _ hidx).1 hact
        (.nil (e.emitted idx .release nowNs).1)
      exact ⟨none, .of_emitRun (fun _ => rfl) hr (releasedState_account m) rfl⟩
  | control hctl =>
      refine ⟨none, .of_opening (fun _ => ?_) rfl⟩
      simp only [opening, hctl, Bool.true_eq_false, false_and, if_false]
      rfl
  | @charged ev e₁ e' hctl ha hc =>
      have hopen : ∀ idx, e₁.account idx =
          (e.account idx).reopen 0 (e.opening (.apply ev) idx) := by
        intro idx
        rw [ha.account_eq]
        simp only [opening, hctl, true_and]
      have htr : e₁.stats.traffic = e.stats.traffic := by cases ha <;> rfl
      have hsize : e₁.tableSize = e.tableSize := by cases ha <;> rfl
      rcases hc with ⟨-, rfl⟩ | ⟨b, -, hm⟩
      · exact ⟨none, .of_opening hopen htr⟩
      · exact hm.posts hopen htr hsize
  | gyIgnored => exact ⟨none, .of_opening (fun _ => rfl) rfl⟩
  | gyReported _ _ =>
      exact ⟨none, .of_opening (fun _ => account_update rfl rfl ⟨rfl, rfl, rfl⟩) rfl⟩
  | polled hr | drained hr => exact ⟨none, .of_emitRun (fun _ => rfl) hr (fun _ => rfl) rfl⟩

end Postings

end MeterEngine
end GtpMeter
