import GtpMeter.BindingSoundness
import GtpMeter.WindowProbing

/-!
# The flow table of the engine

`update_flow` and `find_flow` probe a table of a power of two slots for at most
`flow_probe_window` steps.  The table is taken out of the engine as a state of its
own, and what a packet can do to it is said once:

* its entry is there and is added to;
* the first free slot of its window takes a new entry;
* the window is full, and the entry seen longest ago in it is overwritten.

Every call on the engine leaves the table alone or brings it one packet, so what
these three cases preserve holds in every reachable state.
-/

namespace GtpMeter

open Probing
open FlatHashU32 (Wf)

/-- What `update_flow` reads and writes. -/
structure FlowTable where
  flows : Nat → FlowEntry
  count : Nat
  mask : Nat
  window : Nat
  active : UInt64
  inserts : UInt64
  evictions : UInt64

/-- The key that a flow is stored under: zero marks an empty slot. -/
def storedKey (key : UInt64) : UInt64 :=
  if key ≠ 0 then key else 1

theorem storedKey_ne_zero (key : UInt64) : storedKey key ≠ 0 := by
  unfold storedKey
  split_ifs with h
  · exact h
  · decide

theorem storedKey_of_ne_zero {key : UInt64} (h : key ≠ 0) : storedKey key = key :=
  if_pos h

/-- A packet as `update_flow` gets it. -/
structure FlowPacket where
  ev : MeterEvent
  sub : UInt32
  dir : UInt8

namespace FlowPacket

def key (p : FlowPacket) : UInt64 :=
  storedKey p.ev.flowKey

/-- The entry that the packet starts. -/
def entry (p : FlowPacket) : FlowEntry :=
  MeterEngine.initFlow p.ev p.sub p.dir p.key

/-- The packet added to an entry. -/
def addTo (p : FlowPacket) (f : FlowEntry) : FlowEntry :=
  { f with
    bytes := f.bytes + p.ev.bytes.toUInt64
    packets := f.packets + 1
    lastSeenNs := p.ev.tsNs }

@[simp] theorem entry_key (p : FlowPacket) : p.entry.key = p.key :=
  rfl

@[simp] theorem addTo_key (p : FlowPacket) (f : FlowEntry) : (p.addTo f).key = f.key :=
  rfl

theorem key_ne_zero (p : FlowPacket) : p.key ≠ 0 :=
  storedKey_ne_zero _

end FlowPacket

namespace FlowTable

variable {t t' : FlowTable} {p : FlowPacket}

section Slots

def keys (t : FlowTable) (i : Nat) : UInt64 :=
  (t.flows i).key

def age (t : FlowTable) (i : Nat) : Nat :=
  (t.flows i).lastSeenNs.toNat

/-- The slot where the probe for `key` starts. -/
def home (mask : Nat) (key : UInt64) : Nat :=
  (key ^^^ (key >>> 32)).toNat &&& mask

/-- The slot that the probe for `key` reaches after `d` steps. -/
def slot (t : FlowTable) (key : UInt64) (d : Nat) : Nat :=
  walk t.count (home t.mask key) d

/-- The slots in use. -/
def live (t : FlowTable) : Finset Nat :=
  occupied t.count 0 t.keys

def put (t : FlowTable) (i : Nat) (f : FlowEntry) : FlowTable :=
  { t with flows := Function.update t.flows i f }

theorem keys_put (i : Nat) (f : FlowEntry) :
    (t.put i f).keys = Function.update t.keys i f.key := by
  funext j
  by_cases h : j = i
  · subst h
    simp [keys, put]
  · simp [keys, put, h]

theorem update_keys_self {i : Nat} {k : UInt64} (h : t.keys i = k) :
    Function.update t.keys i k = t.keys := by
  rw [← h, Function.update_eq_self]

/-- Number of slots and mask as the constructor sets them. -/
structure Shape (t : FlowTable) : Prop where
  pow : ∃ m, t.count = 2 ^ m
  mask_eq : t.mask = t.count - 1

theorem Shape.masked (h : Shape t) : Masked t.count t.mask :=
  ⟨h.pow, h.mask_eq⟩

theorem Shape.home_lt (h : Shape t) (k : UInt64) : home t.mask k < t.count :=
  h.masked.and_lt _

theorem Shape.slot_lt (h : Shape t) (k : UInt64) (d : Nat) : t.slot k d < t.count :=
  walk_lt (h.home_lt k)

end Slots

section Updates

/-- What a packet can do to the table. -/
inductive Updated (t : FlowTable) (p : FlowPacket) : FlowTable → Prop
  | hit {j : Nat} :
      j < t.count → t.keys j = p.key →
      Updated t p (t.put j (p.addTo (t.flows j)))
  | insert {d : Nat} :
      (∀ i, i < t.count → t.keys i ≠ p.key) →
      d < t.window → t.keys (t.slot p.key d) = 0 →
      (∀ d', d' < d → t.keys (t.slot p.key d') ≠ 0) →
      Updated t p { t.put (t.slot p.key d) p.entry with
        inserts := t.inserts + 1
        active := t.active + 1 }
  | evict {d : Nat} :
      (∀ i, i < t.count → t.keys i ≠ p.key) →
      d < t.window → (∀ d', d' < t.window → t.keys (t.slot p.key d') ≠ 0) →
      (∀ d', d' < t.window → t.age (t.slot p.key d) ≤ t.age (t.slot p.key d')) →
      Updated t p { t.put (t.slot p.key d) p.entry with evictions := t.evictions + 1 }

/-- The invariant of the table. -/
structure Ok (t : FlowTable) : Prop extends Shape t where
  windowed : Windowed t.count t.window (home t.mask) 0 t.keys
  active_eq : t.active = UInt64.ofNat t.live.card
  inserts_eq : t.inserts = t.active

/-- A packet keeps the invariant. -/
theorem Updated.ok (h : Updated t p t') (hok : Ok t) : Ok t' := by
  have hkey := p.key_ne_zero
  cases h with
  | @hit j hj hhit =>
      have hsame : (t.put j (p.addTo (t.flows j))).keys = t.keys :=
        (keys_put _ _).trans (update_keys_self rfl)
      refine ⟨⟨hok.pow, hok.mask_eq⟩, ?_, ?_, hok.inserts_eq⟩
      · rw [hsame]
        exact hok.windowed
      · rw [live, hsame]
        exact hok.active_eq
  | @insert d habsent hd hempty hbefore =>
      have hcard : (occupied t.count 0 (Function.update t.keys (t.slot p.key d) p.key)).card =
          t.live.card + 1 :=
        occupied_update_vacant (hok.slot_lt _ _) hempty hkey
      refine ⟨⟨hok.pow, hok.mask_eq⟩, ?_, ?_, ?_⟩
      · show Windowed _ _ _ _ (t.put _ p.entry).keys
        rw [keys_put]
        exact hok.windowed.write hkey habsent hd hbefore
      · show t.active + 1 = UInt64.ofNat (occupied t.count 0 (t.put _ p.entry).keys).card
        rw [keys_put, FlowPacket.entry_key, hcard, hok.active_eq, UInt64.ofNat_add]
        rfl
      · exact congrArg (· + 1) hok.inserts_eq
  | @evict d habsent hd hfull _ =>
      refine ⟨⟨hok.pow, hok.mask_eq⟩, ?_, ?_, hok.inserts_eq⟩
      · show Windowed _ _ _ _ (t.put _ p.entry).keys
        rw [keys_put]
        exact hok.windowed.write hkey habsent hd fun d' hd' => hfull d' (by omega)
      · show t.active = UInt64.ofNat (occupied t.count 0 (t.put _ p.entry).keys).card
        rw [keys_put, FlowPacket.entry_key, occupied_update_occupied (hfull d hd) hkey]
        exact hok.active_eq

/-- A packet never leaves the table as it was. -/
theorem Updated.ne (h : Updated t p t') : t' ≠ t := by
  have hsucc : ∀ x : UInt64, x + 1 ≠ x := by
    intro x hx
    simp at hx
  intro heq
  cases h with
  | @hit j _ _ =>
      have hpackets := congrArg (fun u => (u.flows j).packets) heq
      simp only [put, Function.update_self] at hpackets
      exact hsucc _ hpackets
  | insert _ _ _ _ => exact hsucc _ (congrArg FlowTable.inserts heq)
  | evict _ _ _ _ => exact hsucc _ (congrArg FlowTable.evictions heq)

/-- Every entry was last seen before the largest timestamp. -/
def Dated (t : FlowTable) : Prop :=
  ∀ i, i < t.count → t.keys i ≠ 0 → t.age i < 2 ^ 64 - 1

theorem dated_put (hd : Dated t) {i : Nat} {f : FlowEntry} (hf : f.lastSeenNs.toNat < 2 ^ 64 - 1) :
    Dated (t.put i f) := by
  intro j hj hne
  by_cases h : j = i
  · subst h
    simpa [age, put] using hf
  · have hold := hd j hj (by simpa [keys, put, h] using hne)
    simpa [age, put, h] using hold

theorem Updated.dated (h : Updated t p t') (hd : Dated t) (hts : p.ev.tsNs.toNat < 2 ^ 64 - 1) :
    Dated t' := by
  cases h with
  | hit _ _ | insert _ _ _ _ | evict _ _ _ _ => exact dated_put hd hts

/-- What a call does to the table. -/
inductive Advances (t : FlowTable) : Option FlowPacket → FlowTable → Prop
  | idle : Advances t none t
  | packet {p : FlowPacket} {t' : FlowTable} : t.Updated p t' → Advances t (some p) t'

theorem Advances.eq_of_none (h : Advances t none t') : t' = t := by
  cases h
  rfl

theorem Advances.updated (h : Advances t (some p) t') : Updated t p t' := by
  cases h with
  | packet hu => exact hu

theorem Advances.ok {o : Option FlowPacket} (h : Advances t o t') (hok : Ok t) : Ok t' := by
  cases h with
  | idle => exact hok
  | packet hu => exact hu.ok hok

theorem Advances.dated {o : Option FlowPacket} (h : Advances t o t') (hd : Dated t)
    (hts : ∀ p, o = some p → p.ev.tsNs.toNat < 2 ^ 64 - 1) : Dated t' := by
  cases h with
  | idle => exact hd
  | packet hu => exact hu.dated hd (hts _ rfl)

end Updates

end FlowTable

namespace MeterEngine

variable {e e' : MeterEngine} {ev : MeterEvent} {sub : UInt32} {dir : UInt8}

section Connection

/-- The flow table of the engine. -/
def flowTable (e : MeterEngine) : FlowTable where
  flows := e.flows
  count := e.flowCount
  mask := e.flowMask
  window := e.cfg.flowProbeWindow.toNat
  active := e.stats.flowsActive
  inserts := e.stats.flowInserts
  evictions := e.stats.flowEvictions

/-- What `update_flow` does when its probe stopped at a slot, or else left one to be
overwritten. -/
def settleFlow (e : MeterEngine) (p : FlowPacket) :
    Option Nat → Option Nat → Except Fault MeterEngine
  | some j, _ =>
      if (e.flows j).key = p.key then .ok (e.setFlow j (p.addTo (e.flows j)))
      else .ok { e.setFlow j p.entry with
        stats := { e.stats with
          flowInserts := e.stats.flowInserts + 1
          flowsActive := e.stats.flowsActive + 1 } }
  | none, some v =>
      .ok { e.setFlow v p.entry with
        stats := { e.stats with flowEvictions := e.stats.flowEvictions + 1 } }
  | none, none => .error .nullDeref

/-- The probe loop looks for the key and for the oldest entry at the same time. -/
theorem updateFlowLoop_eq (hs : e.flowTable.Shape) (p : FlowPacket) {r i : Nat}
    {best : Option Nat} {oldest : UInt64} :
    e.updateFlowLoop p.ev p.sub p.dir p.key r i best oldest =
      e.settleFlow p (scan e.flowCount 0 e.flowTable.keys p.key r i)
        (victim e.flowCount e.flowTable.age r i best oldest.toNat) := by
  induction r generalizing i best oldest with
  | zero => cases best <;> rfl
  | succ r ih =>
      have hnext : (i + 1) &&& e.flowMask = next e.flowCount i := hs.masked.next_eq i
      unfold updateFlowLoop scan victim
      dsimp only
      by_cases hhit : (e.flows i).key = p.key
      · have hstop : e.flowTable.keys i = p.key ∨ e.flowTable.keys i = 0 := .inl hhit
        rw [if_pos hhit, if_pos hstop, settleFlow, if_pos hhit]
        rfl
      · by_cases hempty : (e.flows i).key = 0
        · have hstop : e.flowTable.keys i = p.key ∨ e.flowTable.keys i = 0 := .inr hempty
          rw [if_neg hhit, if_pos hempty, if_pos hstop, settleFlow, if_neg hhit]
          rfl
        · have hgo : ¬(e.flowTable.keys i = p.key ∨ e.flowTable.keys i = 0) :=
            not_or.mpr ⟨hhit, hempty⟩
          rw [if_neg hhit, if_neg hempty, if_neg hgo, hnext, ih, ih]
          by_cases hold : (e.flows i).lastSeenNs < oldest
          · have hage : e.flowTable.age i < oldest.toNat := UInt64.lt_iff_toNat_lt.mp hold
            rw [if_pos hold, if_pos hage]
            rfl
          · have hage : ¬e.flowTable.age i < oldest.toNat :=
              fun h => hold (UInt64.lt_iff_toNat_lt.mpr h)
            rw [if_neg hold, if_neg hage]

theorem updateFlow_eq (hs : e.flowTable.Shape) (p : FlowPacket) :
    e.updateFlow p.ev p.sub p.dir =
      e.settleFlow p
        (scan e.flowCount 0 e.flowTable.keys p.key e.flowTable.window
          (FlowTable.home e.flowMask p.key))
        (victim e.flowCount e.flowTable.age e.flowTable.window
          (FlowTable.home e.flowMask p.key) none (2 ^ 64 - 1)) :=
  updateFlowLoop_eq hs p

/-- What `update_flow` does to the table. -/
theorem updateFlow_updated (hok : e.flowTable.Ok) {p : FlowPacket}
    (h : e.updateFlow p.ev p.sub p.dir = .ok e') : e.flowTable.Updated p e'.flowTable := by
  have hkey := p.key_ne_zero
  have hhome := hok.home_lt p.key
  rw [updateFlow_eq hok.toShape] at h
  cases hscan : scan e.flowCount 0 e.flowTable.keys p.key e.flowTable.window
      (FlowTable.home e.flowMask p.key) with
  | some j =>
      rw [hscan, settleFlow] at h
      obtain ⟨d, hd, hj, hstop, hbefore⟩ := scan_some hhome hscan
      by_cases hhit : (e.flows j).key = p.key
      · rw [if_pos hhit] at h
        obtain rfl := Except.ok.inj h
        exact .hit (hj ▸ walk_lt hhome) hhit
      · rw [if_neg hhit] at h
        obtain rfl := Except.ok.inj h
        have hempty : e.flowTable.keys j = 0 := hstop.resolve_left hhit
        have habsent := hok.windowed.absent_of_scan hhome hkey (by
          intro i hi
          obtain rfl := Option.some.inj (hscan.symm.trans hi)
          exact hempty)
        subst hj
        exact .insert habsent hd hempty fun d' hd' => (hbefore d' hd').2
  | none =>
      have habsent := hok.windowed.absent_of_scan hhome hkey (by
        intro i hi
        cases hscan.symm.trans hi)
      rw [hscan] at h
      cases hv : victim e.flowCount e.flowTable.age e.flowTable.window
          (FlowTable.home e.flowMask p.key) none (2 ^ 64 - 1) with
      | none => rw [hv] at h; cases h
      | some v =>
          rw [hv] at h
          obtain rfl := Except.ok.inj h
          obtain hbest | ⟨d, hd, rfl⟩ := victim_some hhome hv
          · cases hbest
          · have hall : ∀ j, e.flowTable.age j ≤ 2 ^ 64 - 1 := by
              intro j
              have := (e.flows j).lastSeenNs.toNat_lt
              exact Nat.le_sub_one_of_lt this
            have hleast := (victim_least hhome (by simp) (fun _ => hall) hv).2
            exact .evict habsent hd (fun d' hd' => (scan_none hhome hscan d' hd').2) hleast

/-- A window of at least one slot always has an entry to overwrite. -/
theorem updateFlow_returns (hok : e.flowTable.Ok) (hdated : e.flowTable.Dated)
    (hwindow : 0 < e.flowTable.window) (p : FlowPacket) :
    ∃ e', e.updateFlow p.ev p.sub p.dir = .ok e' := by
  have hhome := hok.home_lt p.key
  rw [updateFlow_eq hok.toShape]
  cases hscan : scan e.flowCount 0 e.flowTable.keys p.key e.flowTable.window
      (FlowTable.home e.flowMask p.key) with
  | some j =>
      rw [settleFlow]
      split_ifs
      · exact ⟨_, rfl⟩
      · exact ⟨_, rfl⟩
  | none =>
      have hfirst := (scan_none hhome hscan 0 hwindow).2
      rw [walk_zero hhome] at hfirst
      have hage := hdated _ hhome hfirst
      have hsome : ∃ v, victim e.flowCount e.flowTable.age e.flowTable.window
          (FlowTable.home e.flowMask p.key) none (2 ^ 64 - 1) = some v :=
        exists_victim hwindow hage
      obtain ⟨v, hv⟩ := hsome
      rw [hv]
      exact ⟨_, rfl⟩

theorem findFlowLoop_eq (hs : e.flowTable.Shape) {k : UInt64} {r i : Nat} :
    e.findFlowLoop k r i =
      (scan e.flowCount 0 e.flowTable.keys k r i).filter (fun j => (e.flows j).key = k) := by
  induction r generalizing i with
  | zero => rfl
  | succ r ih =>
      have hnext : (i + 1) &&& e.flowMask = next e.flowCount i := hs.masked.next_eq i
      unfold findFlowLoop scan
      by_cases hhit : (e.flows i).key = k
      · have hstop : e.flowTable.keys i = k ∨ e.flowTable.keys i = 0 := .inl hhit
        rw [if_pos hhit, if_pos hstop]
        simp [Option.filter, hhit]
      · by_cases hempty : (e.flows i).key = 0
        · have hstop : e.flowTable.keys i = k ∨ e.flowTable.keys i = 0 := .inr hempty
          rw [if_neg hhit, if_pos hempty, if_pos hstop]
          simp [Option.filter, hhit]
        · have hgo : ¬(e.flowTable.keys i = k ∨ e.flowTable.keys i = 0) :=
            not_or.mpr ⟨hhit, hempty⟩
          rw [if_neg hhit, if_neg hempty, if_neg hgo, hnext, ih]

/-- `find_flow` finds exactly the entries of the table. -/
theorem findFlow_iff (hok : e.flowTable.Ok) {key : UInt64} {j : Nat} :
    e.findFlow key = some j ↔ j < e.flowCount ∧ (e.flows j).key = storedKey key := by
  have hpos : e.flowCount ≠ 0 := Nat.ne_of_gt hok.masked.pos
  have hhome := hok.home_lt (storedKey key)
  have hfind : e.findFlow key =
      (scan e.flowCount 0 e.flowTable.keys (storedKey key) e.flowTable.window
        (FlowTable.home e.flowMask (storedKey key))).filter
          (fun j => (e.flows j).key = storedKey key) := by
    unfold findFlow
    rw [if_neg hpos]
    exact findFlowLoop_eq hok.toShape
  rw [hfind, Option.filter_eq_some_iff]
  constructor
  · rintro ⟨hscan, hkey⟩
    obtain ⟨d, _, rfl, _⟩ := scan_some hhome hscan
    exact ⟨walk_lt hhome, by simpa using hkey⟩
  · rintro ⟨hj, hkey⟩
    have hscan := hok.windowed.scan_of_stored hhome (storedKey_ne_zero key) hj hkey
    exact ⟨hscan, by simpa using hkey⟩

end Connection

section Steps

variable {nowNs : UInt64} {op : MeterOp} {out : Answer}

theorem emitted_flowTable (idx : Nat) (reason : RecordReason) :
    (e.emitted idx reason nowNs).1.flowTable = e.flowTable := by
  unfold flowTable
  rw [emitted_stats]
  cases (e.emitted idx reason nowNs).2.outcome <;> rfl

theorem EmitRun.flowTable_eq {ems : List Emission} (hr : EmitRun nowNs e ems e') :
    e'.flowTable = e.flowTable := by
  induction hr with
  | nil => rfl
  | sweep _ _ _ ih => exact ih
  | emit reason _ _ _ _ ih => exact ih.trans (emitted_flowTable _ reason)

theorem Arrived.flowTable_eq (ha : Arrived e ev e') : e'.flowTable = e.flowTable := by
  cases ha <;> rfl

theorem Installed.flowTable_eq {idx : Nat} {spec : SessionSpec} {r : Option Nat}
    (hin : Installed e idx spec nowNs e' r) : e'.flowTable = e.flowTable := by
  cases hin
  rfl

/-- Only packets reach the flow table. -/
theorem Moves.flowTable_eq (hm : Moves e op out e') (hop : op.packet = none) :
    e'.flowTable = e.flowTable := by
  cases hm with
  | refused _ => rfl
  | modified _ _ hin | allocated _ _ _ hin => exact hin.flowTable_eq
  | unknownRelease _ => rfl
  | @released _ _ idx _ _ _ _ _ => exact emitted_flowTable (e := e) idx .release
  | control _ | charged _ _ _ => cases hop
  | gyIgnored => rfl
  | gyReported _ _ => rfl
  | polled hr | drained hr => exact hr.flowTable_eq

/-- No call resizes the flow table. -/
theorem Moves.flowCount_eq (hm : Moves e op out e') : e'.flowCount = e.flowCount := by
  cases hop : op.packet with
  | none => exact congrArg FlowTable.count (hm.flowTable_eq hop)
  | some ev =>
      cases hm with
      | control _ => rfl
      | charged _ ha hc =>
          have harrived := congrArg FlowTable.count ha.flowTable_eq
          rcases hc with ⟨_, rfl⟩ | ⟨b, _, hmetered⟩
          · exact harrived
          · cases hmetered
            exact harrived
      | _ => cases hop

/-- The packet that a call has brought to the flow table: a data packet whose TEID is
bound when the call returns. -/
def flowPacket (tr : Runs.Transition MeterEngine MeterOp Answer) : Option FlowPacket :=
  match tr.op.packet with
  | none => none
  | some ev =>
      if ev.isControl then none
      else (tr.post.bindingOf ev.teid).map fun b => ⟨ev, b.subIdx, packetDir ev b⟩

/-- `meter_packet` ends with the update of the flow table. -/
theorem meterPacket_trackFlow {b : TeidBinding} (h : e.meterPacket ev b = .ok e') :
    ∃ e₁ : MeterEngine, e₁.flowTable = e.flowTable ∧
      e₁.trackFlow ev b.subIdx (packetDir ev b) = .ok e' := by
  obtain ⟨c, hc, h⟩ := Runs.bind_eq_ok.mp h
  obtain ⟨resolved, _, h⟩ := Runs.bind_eq_ok.mp h
  obtain ⟨c', _, h⟩ := Runs.bind_eq_ok.mp h
  refine ⟨_, ?_, h⟩
  unfold flowTable addTotals
  split_ifs <;> rfl

theorem flowPacket_of_bound {b : TeidBinding} (hctl : ev.isControl = false)
    (hb : e'.bindingOf ev.teid = some b) :
    flowPacket ⟨e, .apply ev, out, e'⟩ = some ⟨ev, b.subIdx, packetDir ev b⟩ := by
  simp [flowPacket, MeterOp.packet, hctl, hb]

theorem flowPacket_of_unbound (hb : e'.bindingOf ev.teid = none) :
    flowPacket ⟨e, .apply ev, out, e'⟩ = none := by
  simp [flowPacket, MeterOp.packet, hb]

/-- Every call leaves the flow table alone or brings it one packet. -/
theorem step_advances (hw : Wf hashU32 e.teidMap) (hok : e.flowTable.Ok)
    (h : e.step op = .ok (e', out)) :
    e.flowTable.Advances (flowPacket ⟨e, op, out, e'⟩) e'.flowTable := by
  cases hop : op.packet with
  | none =>
      have hidle : flowPacket ⟨e, op, out, e'⟩ = none := by simp [flowPacket, hop]
      rw [hidle, (step_moves hw h).flowTable_eq hop]
      exact .idle
  | some ev =>
      obtain rfl : op = .apply ev := by
        cases op <;> simp [MeterOp.packet] at hop
        rw [hop]
      obtain ⟨e₁, hap, h⟩ := Runs.bind_eq_ok.mp h
      obtain ⟨rfl, rfl⟩ := Prod.mk.inj (Except.ok.inj h)
      rcases apply_treated hw hap with ⟨hctl, rfl⟩ | ⟨hctl, e₂, harr, hunknown | ⟨b, hb, hmeter⟩⟩
      · have hidle : ∀ tr : Runs.Transition MeterEngine MeterOp Answer,
            tr.op = .apply ev → flowPacket tr = none := by
          intro tr htr
          simp [flowPacket, htr, MeterOp.packet, hctl]
        rw [hidle _ rfl]
        exact .idle
      · obtain ⟨hnone, rfl⟩ := hunknown
        have hidle : flowPacket ⟨e, .apply ev, {}, e₂.countUnknown ev⟩ = none :=
          flowPacket_of_unbound hnone
        have hsame : (e₂.countUnknown ev).flowTable = e.flowTable := harr.flowTable_eq
        rw [hidle, hsame]
        exact .idle
      · have hbound : e₁.bindingOf ev.teid = some b :=
          ((meterPacket_ok hmeter).sameSessions.bindingOf_eq _).trans hb
        rw [flowPacket_of_bound hctl hbound]
        obtain ⟨e₃, heq, htrack⟩ := meterPacket_trackFlow hmeter
        have htable : e₃.flowTable = e.flowTable := heq.trans harr.flowTable_eq
        have hcount : e₃.flowCount ≠ 0 := by
          have hpos := hok.masked.pos
          rw [← htable] at hpos
          exact Nat.ne_of_gt hpos
        rw [trackFlow, if_neg hcount] at htrack
        rw [← htable] at hok ⊢
        exact .packet (updateFlow_updated (p := ⟨ev, b.subIdx, packetDir ev b⟩) hok htrack)

theorem packet_of_flowPacket {tr : Runs.Transition MeterEngine MeterOp Answer} {p : FlowPacket}
    (hp : flowPacket tr = some p) : tr.op.packet = some p.ev := by
  unfold flowPacket at hp
  cases hop : tr.op.packet with
  | none => simp [hop] at hp
  | some ev =>
      simp only [hop] at hp
      split_ifs at hp
      obtain ⟨b, _, rfl⟩ := Option.map_eq_some_iff.mp hp
      rfl

end Steps

section Reachable

variable {cfg : MeterConfig} {sink : RecordSink} {h : History}

/-- A table of the constructor: a power of two empty slots. -/
theorem init_flowTable_ok (htrack : cfg.trackFlows = true) : (init cfg sink).flowTable.Ok := by
  have hcount : (init cfg sink).flowTable.count = roundPow2 cfg.flowTableCapacity.toNat := by
    simp [flowTable, init, htrack]
  have hpow : ∃ m, (init cfg sink).flowTable.count = 2 ^ m := by
    rw [hcount]
    unfold roundPow2
    split_ifs
    · exact ⟨1, rfl⟩
    · have hcap : cfg.flowTableCapacity.toNat ≤ 2 ^ 64 := cfg.flowTableCapacity.toNat_lt.le
      obtain ⟨m, _, hm⟩ := roundUpPow2_pow hcap
      exact ⟨m, hm⟩
  have hmask : (init cfg sink).flowTable.mask = (init cfg sink).flowTable.count - 1 := by
    have hpos : (init cfg sink).flowTable.count ≠ 0 := by
      obtain ⟨m, hm⟩ := hpow
      rw [hm]
      exact (Nat.two_pow_pos m).ne'
    exact if_neg hpos
  refine ⟨⟨hpow, hmask⟩, Windowed.empty fun _ _ => rfl, ?_, rfl⟩
  have hempty : (init cfg sink).flowTable.live = ∅ := by
    ext i
    simp [FlowTable.live, mem_occupied, FlowTable.keys, flowTable, init]
  rw [hempty]
  rfl

/-- The flow table of a reachable engine. -/
theorem reaches_flowTable (htrack : cfg.trackFlows = true) (hrun : Reaches cfg sink h e) :
    e.flowTable.Ok := by
  induction hrun with
  | nil => exact init_flowTable_ok htrack
  | snoc hprev hs ih => exact (step_advances (reaches_indexed hprev).wf ih hs).ok ih

theorem reaches_flowCount (hrun : Reaches cfg sink h e) :
    e.flowCount = (init cfg sink).flowCount := by
  induction hrun with
  | nil => rfl
  | snoc hprev hs ih => exact (step_moves (reaches_indexed hprev).wf hs).flowCount_eq.trans ih

theorem reaches_window (hrun : Reaches cfg sink h e) :
    e.flowTable.window = cfg.flowProbeWindow.toNat := by
  rw [← reaches_cfg hrun]
  rfl

/-- All packets came before the largest timestamp. -/
def TimestampsFit (h : History) : Prop :=
  ∀ tr ∈ h, ∀ ev, tr.op.packet = some ev → ev.tsNs.toNat < 2 ^ 64 - 1

theorem reaches_dated (htrack : cfg.trackFlows = true) (hrun : Reaches cfg sink h e)
    (hts : TimestampsFit h) : e.flowTable.Dated := by
  induction hrun with
  | nil => exact fun i _ hne => absurd rfl hne
  | snoc hprev hs ih =>
      have hadv := step_advances (reaches_indexed hprev).wf (reaches_flowTable htrack hprev) hs
      refine hadv.dated (ih fun tr htr => hts tr (List.mem_append_left _ htr)) ?_
      intro p hp
      exact hts _ (List.mem_append_right _ (List.mem_singleton.mpr rfl)) p.ev
        (packet_of_flowPacket hp)

/-- What a reader of the flow table can rely on. -/
structure FlowsRepresented (e : MeterEngine) : Prop where
  size : ∃ m, e.flowCount = 2 ^ m
  distinct : ∀ i j, i < e.flowCount → j < e.flowCount → (e.flows i).key ≠ 0 →
    (e.flows i).key = (e.flows j).key → i = j
  active_eq : e.stats.flowsActive = UInt64.ofNat e.flowTable.live.card
  inserts_eq : e.stats.flowInserts = UInt64.ofNat e.flowTable.live.card
  counts : e.flowCount < 2 ^ 64 →
    e.stats.flowsActive.toNat = e.flowTable.live.card ∧
      e.stats.flowInserts.toNat = e.flowTable.live.card
  placed : ∀ j, j < e.flowCount → (e.flows j).key ≠ 0 →
    ∃ d, d < e.cfg.flowProbeWindow.toNat ∧ e.flowTable.slot (e.flows j).key d = j ∧
      ∀ d', d' < d → (e.flows (e.flowTable.slot (e.flows j).key d')).key ≠ 0
  found : ∀ k, k ≠ 0 →
    ∀ j, e.findFlow k = some j ↔ j < e.flowCount ∧ (e.flows j).key = k
  found_zero : e.findFlow 0 = e.findFlow 1

theorem flowsRepresented (hok : e.flowTable.Ok) : FlowsRepresented e where
  size := hok.pow
  distinct i j hi hj hne heq := hok.windowed.unique i j hi hj heq hne
  active_eq := hok.active_eq
  inserts_eq := hok.inserts_eq.trans hok.active_eq
  counts hcount := by
    have hle : e.flowTable.live.card ≤ e.flowCount := occupied_card_le
    have hactive : e.stats.flowsActive = UInt64.ofNat e.flowTable.live.card := hok.active_eq
    have hinserts : e.stats.flowInserts = e.stats.flowsActive := hok.inserts_eq
    have hexact : e.stats.flowsActive.toNat = e.flowTable.live.card := by
      rw [hactive]
      exact UInt64.toNat_ofNat_of_lt' (hle.trans_lt hcount)
    exact ⟨hexact, by rw [hinserts, hexact]⟩
  placed := hok.windowed.within
  found k hk j := by
    rw [findFlow_iff hok, storedKey_of_ne_zero hk]
  found_zero := rfl

/-- Nothing but the flow table and its three counters differs. -/
def OnlyFlows (e e' : MeterEngine) : Prop :=
  ∃ fl fa fi fe, e' = { e with
    flows := fl
    stats := { e.stats with flowsActive := fa, flowInserts := fi, flowEvictions := fe } }

/-- The flow table of a reachable engine holds each flow once, where `find_flow` looks
for it, and an update always returns and touches nothing else. -/
theorem flow_table_representation (htrack : cfg.trackFlows = true)
    (hwindow : 1 ≤ cfg.flowProbeWindow) (hrun : Reaches cfg sink h e) (hts : TimestampsFit h) :
    FlowsRepresented e ∧
      ∀ p : FlowPacket, ∃ e', e.updateFlow p.ev p.sub p.dir = .ok e' ∧
        e.flowTable.Updated p e'.flowTable ∧ OnlyFlows e e' := by
  have hok := reaches_flowTable htrack hrun
  refine ⟨flowsRepresented hok, fun p => ?_⟩
  have hpos : 0 < e.flowTable.window := by
    rw [reaches_window hrun]
    exact UInt64.le_iff_toNat_le.mp hwindow
  obtain ⟨e', hupdate⟩ := updateFlow_returns hok (reaches_dated htrack hrun hts) hpos p
  exact ⟨e', hupdate, updateFlow_updated hok hupdate, updateFlowLoop_ok hupdate⟩

/-- A flow table of two slots. -/
def twoFlows : MeterConfig :=
  { maxSubscribers := 8, teidTableCapacity := 8, flowTableCapacity := 2, flowProbeWindow := 2 }

/-- Three flows of one tunnel. -/
def threeFlows : List MeterOp :=
  [.install { imsi := 1, ulTeid := 100 } 0,
    .apply { teid := 100, bytes := 10, tsNs := 5, flowKey := 2 },
    .apply { teid := 100, bytes := 20, tsNs := 6, flowKey := 4 },
    .apply { teid := 100, bytes := 30, tsNs := 7, flowKey := 9 }]

/-- The third of three flows takes the place of the first. -/
theorem flow_table_representation_full :
    ∃ h e, Reaches twoFlows noSink h e ∧ TimestampsFit h ∧ FlowsRepresented e ∧
      e.stats.flowEvictions = 1 ∧ e.findFlow 2 = none ∧ e.findFlow 9 = some 0 ∧
      ∃ e', e.updateFlow { flowKey := 9, bytes := 1 } 0 0 = .ok e' ∧ OnlyFlows e e' := by
  have hex : Runs.execCheck step (init twoFlows noSink) threeFlows
      (fun h e => decide (e.stats.flowEvictions = 1 ∧ e.findFlow 2 = none ∧
          e.findFlow 9 = some 0) &&
        h.all (fun tr => tr.op.packet.all fun ev => decide (ev.tsNs.toNat < 2 ^ 64 - 1))) =
      true := by
    decide +kernel
  obtain ⟨h, e, hrun, hcheck⟩ := Runs.Run.of_execCheck hex
  rw [Bool.and_eq_true, decide_eq_true_eq, List.all_eq_true] at hcheck
  obtain ⟨⟨hevict, hgone, hnew⟩, hall⟩ := hcheck
  have hts : TimestampsFit h := by
    intro tr htr ev hev
    have hfit := hall tr htr
    rw [hev, Option.all_some, decide_eq_true_eq] at hfit
    exact hfit
  obtain ⟨hrep, hnext⟩ := flow_table_representation rfl (by decide) hrun hts
  obtain ⟨e', hupdate, -, honly⟩ := hnext ⟨{ flowKey := 9, bytes := 1 }, 0, 0⟩
  exact ⟨h, e, hrun, hts, hrep, hevict, hgone, hnew, e', hupdate, honly⟩

end Reachable

end MeterEngine

end GtpMeter
