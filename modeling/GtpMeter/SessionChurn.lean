import GtpMeter.ActiveGauge
import GtpMeter.InstallAtomicity

/-!
# Sessions that come, go and come again

An IMSI keeps its subscriber index for ever: releasing a session does not give the
index back.  And `insert` refuses every ordinary key on a full table, also one that
is stored.  So a table with few active sessions can refuse a new IMSI, and a
session can be refused what it has just been given.

**Results.**
* `churn_install_iff`: with two free slots in the TEID table, when an installation
  succeeds.
* `reinstall_idempotent_iff`: when repeating an installation changes nothing.
-/

namespace GtpMeter
namespace MeterEngine

open FlatHashU32 Runs

variable {cfg : MeterConfig} {sink : RecordSink} {h : History} {e e' : MeterEngine}
  {idx : Nat} {spec : SessionSpec} {nowNs : UInt64}

section Churn

theorem not_short_of_free (hfree : e.teidMap.size + 2 ≤ e.teidMap.capacity) :
    ¬Short e spec := by
  rintro (⟨hfull, -⟩ | ⟨hlast, -⟩)
  · omega
  · omega

theorem Installed.result {r : Option Nat} (hin : Installed e idx spec nowNs e' r) :
    r = none ∨ r = some idx := by
  cases hin with
  | mk m₁ m₂ m₃ f ulOk dlOk hlt hu hb₁ hb₂ => cases ulOk && dlOk <;> simp

/-- With two free slots, an installation inside the table succeeds. -/
theorem installAt_of_free (spec : SessionSpec) (nowNs : UInt64) (hw : Wf hashU32 e.teidMap)
    (hlt : idx < e.tableSize) (hfree : e.teidMap.size + 2 ≤ e.teidMap.capacity) :
    ∃ e', e.installAt idx spec nowNs = .ok (e', some idx) := by
  cases hop : e.installAt idx spec nowNs with
  | error f =>
      obtain ⟨-, -, hfull, -⟩ := (installAt_error hw hlt).mp hop
      omega
  | ok res =>
      obtain ⟨e', r⟩ := res
      have hin := installAt_ok hw hop
      have hr : r ≠ none := fun hnone => not_short_of_free hfree (hin.refused_iff.mp hnone).1
      obtain rfl := hin.result.resolve_left hr
      exact ⟨e', rfl⟩

/-- **When churn exhausts the subscriber table.**  In every reachable state with two
free slots in the TEID table, a valid session is installed exactly if its IMSI has an
index already or an index is left that was never given out.  How many sessions are
active plays no part. -/
theorem churn_install_iff (hrun : Reaches cfg sink h e)
    (hfree : e.teidMap.size + 2 ≤ e.teidMap.capacity) (hv : spec.valid = true)
    (nowNs : UInt64) :
    (∃ e' idx, e.installSession spec nowNs = .ok (e', some idx)) ↔
      e.imsiIndex spec.imsi ≠ none ∨ e.nextSub < cfg.maxSubscribers.toNat := by
  have hi := reaches_indexed hrun
  rw [← reaches_tableSize hrun]
  unfold installSession
  simp only [hv, Bool.not_true, Bool.false_eq_true, if_false]
  cases hidx : e.imsiIndex spec.imsi with
  | some idx =>
      have hlt := Nat.lt_of_lt_of_le (hi.imsi_eq _ _ hidx).1 hi.next_le
      obtain ⟨e', hop⟩ := installAt_of_free spec nowNs hi.wf hlt hfree
      exact iff_of_true ⟨e', idx, hop⟩ (.inl (by simp))
  | none =>
      dsimp only
      split_ifs with hfull
      · simpa using hfull
      · obtain ⟨e', hop⟩ := installAt_of_free (e := e.allocate spec.imsi) spec nowNs hi.wf
          (Nat.lt_of_not_le hfull) hfree
        exact iff_of_true ⟨e', e.nextSub, hop⟩ (.inr (Nat.lt_of_not_le hfull))

/-- A session has come and gone.  Its IMSI can be installed again, and another one as
long as an index is left. -/
theorem churn_install_again :
    ∃ h e, Reaches { smallConfig with maxSubscribers := 2 } noSink h e ∧ h.length = 2 ∧
      e.activeIndices.card = 0 ∧ e.nextSub = 1 ∧
      (∃ e' idx, e.installSession { imsi := 1, ulTeid := 200 } 0 = .ok (e', some idx)) ∧
      ∃ e' idx, e.installSession { imsi := 2, ulTeid := 100 } 0 = .ok (e', some idx) := by
  have hex : execCheck step (init { smallConfig with maxSubscribers := 2 } noSink)
      [.install { imsi := 1, ulTeid := 100 } 0, .release 1 0]
      (fun h e => decide (h.length = 2 ∧ e.activeIndices.card = 0 ∧ e.nextSub = 1 ∧
        e.imsiIndex 1 ≠ none ∧ e.teidMap.size + 2 ≤ e.teidMap.capacity)) = true := by
    decide +kernel
  obtain ⟨h, e, hrun, hcheck⟩ := Run.of_execCheck hex
  obtain ⟨hlen, hactive, hnext, hknown, hfree⟩ := of_decide_eq_true hcheck
  refine ⟨h, e, hrun, hlen, hactive, hnext, ?_, ?_⟩
  · exact (churn_install_iff hrun hfree rfl 0).mpr (.inl hknown)
  · exact (churn_install_iff hrun hfree rfl 0).mpr (.inr (by rw [hnext]; decide))

/-- The only session was released, the TEID table is empty, and a session for another
IMSI is refused. -/
theorem churn_exhausts_table :
    ∃ h e, Reaches { smallConfig with maxSubscribers := 1 } noSink h e ∧
      e.cfg.learnUnknownTeids = false ∧
      e.activeIndices.card < e.cfg.maxSubscribers.toNat ∧
      e.teidMap.size + 2 ≤ e.teidMap.capacity ∧
      ({ imsi := 2, ulTeid := 100 } : SessionSpec).valid = true ∧
      ∃ e', e.installSession { imsi := 2, ulTeid := 100 } 0 = .ok (e', none) := by
  have hex : execCheck step (init { smallConfig with maxSubscribers := 1 } noSink)
      [.install { imsi := 1, ulTeid := 100 } 0, .release 1 0]
      (fun _ e => decide (e.cfg.learnUnknownTeids = false ∧
          e.activeIndices.card < e.cfg.maxSubscribers.toNat ∧
          e.teidMap.size + 2 ≤ e.teidMap.capacity) &&
        returnsWith (e.installSession { imsi := 2, ulTeid := 100 } 0) (fun r => r.2.isNone)) =
      true := by
    decide +kernel
  obtain ⟨h, e, hrun, hcheck⟩ := Run.of_execCheck hex
  rw [Bool.and_eq_true, decide_eq_true_eq] at hcheck
  obtain ⟨⟨hlearn, hact, hfree⟩, hret⟩ := hcheck
  obtain ⟨⟨e', r⟩, hop, hnone⟩ := returnsWith_iff.mp hret
  obtain rfl : r = none := by simpa using hnone
  exact ⟨h, e, hrun, hlearn, hact, hfree, rfl, e', hop⟩

end Churn

section Repeating

/-- The state apart from the hash probe statistics. -/
def withoutProbes (e : MeterEngine) : MeterEngine :=
  { e with teidMap := e.teidMap.quiet }

/-- A bucket that has its slot is given it again. -/
theorem assignSlot_idem (info : SubscriberInfo) (id : UInt32) :
    assignSlot (assignSlot info id).1 id = assignSlot info id := by
  rcases assignSlot_cases info id with ⟨s, -, heq⟩ | ⟨s, hno, -, heq⟩ | ⟨hno, hset, heq⟩
  · simp [heq]
  · rw [heq]
    -- the only slot with the bucket is the one it has just taken
    have honly : ∀ i, Function.update info.bucketIds s id i = id → i = s := by
      intro i hi
      by_contra hne
      rw [Function.update_of_ne hne] at hi
      exact hno i hi
    rcases assignSlot_cases { info with bucketIds := Function.update info.bucketIds s id } id with
      ⟨i, hi, heq'⟩ | ⟨i, hno', -⟩ | ⟨hno', -⟩
    · rw [heq', honly i hi]
    · exact absurd (Function.update_self s id info.bucketIds) (hno' s)
    · exact absurd (Function.update_self s id info.bucketIds) (hno' s)
  · rw [heq]
    rcases assignSlot_cases { info with bucketAggregated := true } id with
      ⟨i, hi, -⟩ | ⟨i, -, hi, -⟩ | ⟨-, -, heq'⟩
    · exact absurd hi (hno i)
    · exact absurd hi (hset i)
    · rw [heq']

/-- The subscriber is what the spec asks for, and its tunnels are bound so. -/
structure Fulfils (e : MeterEngine) (idx : Nat) (spec : SessionSpec) (slot : UInt8) :
    Prop where
  lt : idx < e.tableSize
  active : (e.info idx).active = true
  imsi_eq : (e.info idx).imsi = spec.imsi
  ul_eq : (e.info idx).ulTeid = spec.ulTeid
  dl_eq : (e.info idx).dlTeid = spec.dlTeid
  group_eq : (e.info idx).defaultRatingGroup = spec.ratingGroup
  slot_eq : assignSlot (e.info idx) spec.ratingGroup = (e.info idx, slot)
  dl_bound : spec.dlTeid ≠ 0 →
    e.bindingOf spec.dlTeid = some ⟨UInt32.ofNat idx, Direction.downlink.code, slot⟩
  ul_bound : spec.ulTeid ≠ 0 → spec.ulTeid ≠ spec.dlTeid →
    e.bindingOf spec.ulTeid = some ⟨UInt32.ofNat idx, Direction.uplink.code, slot⟩

theorem Installed.info_self {r : Option Nat} (hin : Installed e idx spec nowNs e' r) :
    e'.info idx = (installInfo (e.info idx) spec nowNs).1 ∧ idx < e'.tableSize := by
  cases hin with
  | mk m₁ m₂ m₃ f ulOk dlOk hlt hu hb₁ hb₂ => exact ⟨Function.update_self _ _ _, hlt⟩

theorem Installed.fulfils (hin : Installed e idx spec nowNs e' (some idx)) :
    ∃ slot, Fulfils e' idx spec slot := by
  obtain ⟨ulOk, dlOk, hr, hbind⟩ := hin.bindingOf_eq
  obtain ⟨hulOk, hdlOk⟩ : ulOk = true ∧ dlOk = true := by
    rw [← Bool.and_eq_true]
    by_contra hno
    rw [if_neg hno] at hr
    exact absurd hr (by simp)
  obtain ⟨himsi, hul, hdl, hact, -⟩ := installInfo_session (e.info idx) spec nowNs
  have hgroup := installInfo_group (e.info idx) spec nowNs
  have hslot : assignSlot (installInfo (e.info idx) spec nowNs).1 spec.ratingGroup =
      installInfo (e.info idx) spec nowNs := assignSlot_idem _ _
  have hinfo := hin.info_self
  rw [← hinfo.1] at himsi hul hdl hact hgroup hslot
  refine ⟨(installInfo (e.info idx) spec nowNs).2, hinfo.2, hact, himsi, hul, hdl, hgroup, ?_,
    ?_, ?_⟩
  · rw [hslot, hinfo.1]
  · intro h0
    rw [hbind, if_pos ⟨h0, hdlOk, rfl⟩]
  · intro h0 hne
    rw [hbind, if_neg (fun hh => hne hh.2.2), if_pos ⟨h0, hulOk, rfl⟩]

theorem Ready.fulfils {i : Nat} (hr : Ready e i spec)
    (hin : Installed e i spec nowNs e' (some idx)) :
    e'.imsiIndex spec.imsi = some idx ∧ Wf hashU32 e'.teidMap ∧
      ∃ slot, Fulfils e' idx spec slot := by
  obtain rfl : idx = i := Option.some.inj (hin.result.resolve_left (by simp))
  obtain ⟨-, -, himsi, -⟩ := hin.frame
  exact ⟨himsi ▸ hr.index_eq, (hr.indexed hin).wf, hin.fulfils⟩

theorem Fulfils.ul_ne_none {slot : UInt8} (hf : Fulfils e idx spec slot)
    (h0 : spec.ulTeid ≠ 0) : e.bindingOf spec.ulTeid ≠ none := by
  by_cases hne : spec.ulTeid = spec.dlTeid
  · rw [hne, hf.dl_bound (hne ▸ h0)]
    simp
  · rw [hf.ul_bound h0 hne]
    simp

/-- The table after a bind of `teid`, if it is set. -/
def rebound (m : FlatHashU32 TeidBinding) (teid : UInt32) (b : TeidBinding) :
    FlatHashU32 TeidBinding :=
  if teid = 0 then m else (insert hashU32 m teid b).1

theorem bindNamed_of_room (e : MeterEngine) (teid : UInt32) (idx : Nat) (dir slot : UInt8)
    (hw : Wf hashU32 e.teidMap)
    (hroom : Ordinary teid → e.teidMap.size ≠ e.teidMap.capacity) :
    e.bindNamed teid idx dir slot =
      ({ e with teidMap := rebound e.teidMap teid ⟨UInt32.ofNat idx, dir, slot⟩ }, true) := by
  unfold bindNamed rebound
  by_cases h0 : teid = 0
  · rw [if_neg (by simp [h0]), if_pos h0]
  · have hok : (insert hashU32 e.teidMap teid ⟨UInt32.ofNat idx, dir, slot⟩).2 = true := by
      rw [← Bool.not_eq_false, insert_eq_false_iff hw]
      exact fun hh => hroom ⟨h0, hh.1⟩ hh.2
    unfold bindTeid
    simp [h0, hok]

section Rebound

variable {m : FlatHashU32 TeidBinding} {teid : UInt32} {b b' : TeidBinding}

theorem rebound_shape (hw : Wf hashU32 m) (hst : teid ≠ 0 → lookup hashU32 m teid ≠ none) :
    Wf hashU32 (rebound m teid b) ∧ (rebound m teid b).size = m.size ∧
      (rebound m teid b).capacity = m.capacity := by
  unfold rebound
  split_ifs with h0
  · exact ⟨hw, rfl, rfl⟩
  · refine ⟨hw.insert, ?_, insert_capacity hw⟩
    rw [insert_size hw, if_neg (fun hh => hst h0 hh.2.2)]

theorem rebound_same (hw : Wf hashU32 m) (hst : teid ≠ 0 → lookup hashU32 m teid = some b)
    (hroom : Ordinary teid → m.size ≠ m.capacity) : (rebound m teid b).quiet = m.quiet := by
  unfold rebound
  split_ifs with h0
  · rfl
  · exact insert_stored hw (hst h0) (fun hk => hroom ⟨h0, hk⟩)

theorem rebound_twice (hw : Wf hashU32 m) (hst : teid ≠ 0 → lookup hashU32 m teid = some b)
    (hroom : Ordinary teid → m.size ≠ m.capacity) :
    (rebound (rebound m teid b') teid b).quiet = m.quiet := by
  unfold rebound
  split_ifs with h0
  · rfl
  · exact insert_insert hw (hst h0) (fun hk => hroom ⟨h0, hk⟩)

end Rebound

/-- Binding once more what is bound, in a table with room, leaves it as it is. -/
theorem Fulfils.bindTunnels {slot : UInt8} (hf : Fulfils e idx spec slot)
    (hw : Wf hashU32 e.teidMap)
    (hroom : Ordinary spec.ulTeid ∨ Ordinary spec.dlTeid →
      e.teidMap.size ≠ e.teidMap.capacity) :
    ∃ m, e.bindTunnels idx spec slot = ({ e with teidMap := m }, true) ∧
      m.quiet = e.teidMap.quiet := by
  have hroomUl : Ordinary spec.ulTeid → e.teidMap.size ≠ e.teidMap.capacity :=
    fun ho => hroom (.inl ho)
  have hroomDl : Ordinary spec.dlTeid → e.teidMap.size ≠ e.teidMap.capacity :=
    fun ho => hroom (.inr ho)
  have hul := bindNamed_of_room e spec.ulTeid idx Direction.uplink.code slot hw hroomUl
  obtain ⟨m₁, hm₁⟩ : ∃ m₁, m₁ = rebound e.teidMap spec.ulTeid
    ⟨UInt32.ofNat idx, Direction.uplink.code, slot⟩ := ⟨_, rfl⟩
  obtain ⟨hw₁, hsize, hcap⟩ : Wf hashU32 m₁ ∧ m₁.size = e.teidMap.size ∧
      m₁.capacity = e.teidMap.capacity := hm₁ ▸ rebound_shape hw hf.ul_ne_none
  have hroom₁ : Ordinary spec.dlTeid → m₁.size ≠ m₁.capacity := by
    rw [hsize, hcap]
    exact hroomDl
  have hdl := bindNamed_of_room { e with teidMap := m₁ } spec.dlTeid idx
    Direction.downlink.code slot hw₁ hroom₁
  refine ⟨rebound m₁ spec.dlTeid ⟨UInt32.ofNat idx, Direction.downlink.code, slot⟩, ?_, ?_⟩
  · unfold MeterEngine.bindTunnels
    rw [hul, ← hm₁]
    dsimp only
    rw [hdl]
    rfl
  · by_cases hsame : spec.ulTeid = spec.dlTeid
    · rw [hm₁, hsame]
      exact rebound_twice hw hf.dl_bound hroomDl
    · have hq : m₁.quiet = e.teidMap.quiet :=
        hm₁ ▸ rebound_same hw (fun h0 => hf.ul_bound h0 hsame) hroomUl
      have hst : spec.dlTeid ≠ 0 → lookup hashU32 m₁ spec.dlTeid =
          some ⟨UInt32.ofNat idx, Direction.downlink.code, slot⟩ := by
        intro h0
        rw [lookup_congr hq]
        exact hf.dl_bound h0
      rw [rebound_same hw₁ hst hroom₁, hq]

/-- Installing once more what is installed: the outcome depends on the room only. -/
theorem Fulfils.installAt {slot : UInt8} (hf : Fulfils e idx spec slot)
    (hw : Wf hashU32 e.teidMap) (nowNs : UInt64) :
    (∃ e', e.installAt idx spec nowNs = .ok (e', some idx) ∧
      e'.withoutProbes = e.withoutProbes) ↔
    (Ordinary spec.ulTeid ∨ Ordinary spec.dlTeid → e.teidMap.size ≠ e.teidMap.capacity) := by
  constructor
  · rintro ⟨e', hop, -⟩ hord hfull
    have hin := installAt_ok hw hop
    have hfrees : ¬Frees e (e.info idx) spec := by
      rintro ⟨-, t, hmoved, -⟩
      exact not_moved_of_same hf.ul_eq hf.dl_eq t hmoved
    exact absurd (hin.refused_iff.mpr ⟨.inl ⟨hfull, hord⟩, hfrees⟩) (by simp)
  · intro hroom
    have hinfo := installInfo_of_same nowNs hf.active hf.imsi_eq hf.ul_eq hf.dl_eq hf.group_eq
    rw [hf.slot_eq] at hinfo
    obtain ⟨m, hbind, hq⟩ := hf.bindTunnels hw hroom
    have hopen : e.openCounters idx true = e := rfl
    have hset : e.setInfo idx (e.info idx) = e := by
      unfold setInfo
      rw [Function.update_eq_self]
    have hmoved : e.unbindMoved (openInfo (e.info idx) spec nowNs) spec = .ok e := by
      have hul : (openInfo (e.info idx) spec nowNs).ulTeid = spec.ulTeid := by
        simp [openInfo, hf.active, hf.ul_eq]
      have hdl : (openInfo (e.info idx) spec nowNs).dlTeid = spec.dlTeid := by
        simp [openInfo, hf.active, hf.dl_eq]
      simp [unbindMoved, eraseMoved, hul, hdl, bind, Except.bind]
    refine ⟨{ e with teidMap := m }, ?_, ?_⟩
    · unfold MeterEngine.installAt
      simp only [infoAt, hf.lt, if_true, hf.active, hopen, bind, Except.bind]
      rw [hmoved]
      simp only [hinfo, hset, hbind, if_true]
    · simp [withoutProbes, hq]

/-- **When repeating an installation changes nothing.**  A session that has just been
installed is installed once more, under the same index and with no effect but on the
probe statistics, exactly if the TEID table is not full or the session has no tunnel
in it. -/
theorem reinstall_idempotent_iff (hrun : Reaches cfg sink h e) {t : UInt64}
    (hop : e.installSession spec t = .ok (e', some idx)) (t' : UInt64) :
    (∃ e'', e'.installSession spec t' = .ok (e'', some idx) ∧
      e''.withoutProbes = e'.withoutProbes) ↔
    (e'.teidMap.size ≠ e'.teidMap.capacity ∨
      ¬Ordinary spec.ulTeid ∧ ¬Ordinary spec.dlTeid) := by
  have hi := reaches_indexed hrun
  have hafter : spec.valid = true ∧ e'.imsiIndex spec.imsi = some idx ∧
      Wf hashU32 e'.teidMap ∧ ∃ slot, Fulfils e' idx spec slot := by
    rcases installSession_cases hi.wf hop with ⟨-, hnone, -⟩ | ⟨hv, i, hidx, hin⟩ |
      ⟨hv, hidx, hroom, hin⟩
    · simp at hnone
    · exact ⟨hv, (hi.ready_known hidx).fulfils hin⟩
    · exact ⟨hv, (hi.ready_new spec hroom).fulfils hin⟩
  obtain ⟨hv, hidx, hw, slot, hf⟩ := hafter
  have hcall : e'.installSession spec t' = e'.installAt idx spec t' := by
    simp [installSession, hv, hidx]
  rw [hcall, hf.installAt hw t']
  tauto

/-- A session installed twice with one slot to spare. -/
theorem reinstall_idempotent_spare :
    ∃ h e e' idx, Reaches smallConfig noSink h e ∧
      e.installSession { imsi := 9, ulTeid := 9 } 0 = .ok (e', some idx) ∧
      e'.teidMap.size + 1 = e'.teidMap.capacity ∧
      ∃ e'', e'.installSession { imsi := 9, ulTeid := 9 } 5 = .ok (e'', some idx) ∧
        e''.withoutProbes = e'.withoutProbes := by
  have hex : execCheck step (init smallConfig noSink) (fourSessions.take 3)
      (fun _ e => returnsWith (e.installSession { imsi := 9, ulTeid := 9 } 0)
        (fun r => decide (r.2 = some 3 ∧ r.1.teidMap.size + 1 = r.1.teidMap.capacity))) =
      true := by
    decide +kernel
  obtain ⟨h, e, hrun, hcheck⟩ := Run.of_execCheck hex
  obtain ⟨⟨e', r⟩, hop, hok⟩ := returnsWith_iff.mp hcheck
  obtain ⟨rfl, hsize⟩ : r = some 3 ∧ e'.teidMap.size + 1 = e'.teidMap.capacity := by
    simpa using hok
  exact ⟨h, e, e', 3, hrun, hop, hsize,
    (reinstall_idempotent_iff hrun hop 5).mpr (.inl (by omega))⟩

/-- The session that took the last two slots is refused when it is installed once
more. -/
theorem reinstall_refused_when_full :
    ∃ h e e' idx, Reaches smallConfig noSink h e ∧
      e.installSession { imsi := 4, ulTeid := 7, dlTeid := 8 } 0 = .ok (e', some idx) ∧
      ∃ e'', e'.installSession { imsi := 4, ulTeid := 7, dlTeid := 8 } 5 = .ok (e'', none) ∧
        e''.stats.teidBindFailures = e'.stats.teidBindFailures + 2 := by
  have hex : execCheck step (init smallConfig noSink) (fourSessions.take 3)
      (fun _ e => returnsWith (e.installSession { imsi := 4, ulTeid := 7, dlTeid := 8 } 0)
        (fun r => r.2 == some 3 &&
          returnsWith (r.1.installSession { imsi := 4, ulTeid := 7, dlTeid := 8 } 5)
            (fun r' => decide (r'.2 = none ∧
              r'.1.stats.teidBindFailures = r.1.stats.teidBindFailures + 2)))) = true := by
    decide +kernel
  obtain ⟨h, e, hrun, hcheck⟩ := Run.of_execCheck hex
  obtain ⟨⟨e', r⟩, hop, hok⟩ := returnsWith_iff.mp hcheck
  rw [Bool.and_eq_true, beq_iff_eq] at hok
  obtain ⟨hr, hagain⟩ := hok
  obtain rfl : r = some 3 := hr
  obtain ⟨⟨e'', r''⟩, hop', hfail⟩ := returnsWith_iff.mp hagain
  obtain ⟨rfl, hcount⟩ : r'' = none ∧
      e''.stats.teidBindFailures = e'.stats.teidBindFailures + 2 := by
    simpa using hfail
  exact ⟨h, e, e', 3, hrun, hop, e'', hop', hcount⟩

end Repeating

end MeterEngine
end GtpMeter
