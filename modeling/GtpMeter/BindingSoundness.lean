import GtpMeter.MeterSteps

/-!
# Soundness of the TEID table

The TEID table, the two subscriber arrays and the IMSI index fit together in
every reachable state: an entry leads to an active subscriber that stores the
TEID for the direction of the entry.

What these facts depend on is the session part of the state.  Packets, Gy
events and reports leave it alone (`SameSessions`), so only installing,
releasing and learning need an argument.

**Results.**
* `reaches_indexed`: the IMSI index is sound, for any table size.
* `reaches_sound`: so is the TEID table, up to 2^32 subscribers.
* `binding_soundness`: what follows for `apply`.
-/

namespace GtpMeter
namespace MeterEngine

open FlatHashU32 Runs

variable {cfg : MeterConfig} {sink : RecordSink} {h : History} {e e' e₁ : MeterEngine}
  {nowNs : UInt64}

section Frame

/-- Who a subscriber is and which tunnels it has. -/
structure Session where
  imsi : UInt64
  ulTeid : UInt32
  dlTeid : UInt32
  active : Bool
deriving DecidableEq

def session (e : MeterEngine) (idx : Nat) : Session :=
  ⟨(e.info idx).imsi, (e.info idx).ulTeid, (e.info idx).dlTeid, (e.info idx).active⟩

/-- The session part of two states is the same. -/
structure SameSessions (e e' : MeterEngine) : Prop where
  cfg_eq : e'.cfg = e.cfg
  nextSub_eq : e'.nextSub = e.nextSub
  imsiIndex_eq : e'.imsiIndex = e.imsiIndex
  session_eq : ∀ idx, e'.session idx = e.session idx
  quiet_eq : e'.teidMap.quiet = e.teidMap.quiet

theorem SameSessions.refl (e : MeterEngine) : SameSessions e e :=
  ⟨rfl, rfl, rfl, fun _ => rfl, rfl⟩

theorem SameSessions.trans (h₁ : SameSessions e e₁) (h₂ : SameSessions e₁ e') :
    SameSessions e e' :=
  ⟨h₂.cfg_eq.trans h₁.cfg_eq, h₂.nextSub_eq.trans h₁.nextSub_eq,
    h₂.imsiIndex_eq.trans h₁.imsiIndex_eq,
    fun idx => (h₂.session_eq idx).trans (h₁.session_eq idx), h₂.quiet_eq.trans h₁.quiet_eq⟩

theorem SameSessions.bindingOf_eq (hs : SameSessions e e') (t : UInt32) :
    e'.bindingOf t = e.bindingOf t :=
  lookup_congr hs.quiet_eq

theorem SameSessions.tableSize_eq (hs : SameSessions e e') : e'.tableSize = e.tableSize := by
  unfold tableSize
  rw [hs.cfg_eq]

/-- Rewriting one subscriber without touching its session changes no session. -/
theorem session_update {idx : Nat} {info : SubscriberInfo} {i : Nat}
    (hinfo : e'.info = Function.update e.info idx info)
    (hses : Session.mk info.imsi info.ulTeid info.dlTeid info.active = e.session idx) :
    e'.session i = e.session i := by
  unfold session at hses ⊢
  rw [hinfo]
  by_cases hi : i = idx
  · subst hi
    simpa using hses
  · simp [hi]

theorem emitted_sameSessions (idx : Nat) (reason : RecordReason) :
    SameSessions e (e.emitted idx reason nowNs).1 :=
  ⟨rfl, rfl, rfl, fun _ => session_update rfl rfl, rfl⟩

theorem EmitRun.sameSessions {ems : List Emission} (hr : EmitRun nowNs e ems e') :
    SameSessions e e' := by
  induction hr with
  | nil e => exact .refl e
  | sweep cursor last _ ih =>
      exact ⟨ih.cfg_eq, ih.nextSub_eq, ih.imsiIndex_eq, ih.session_eq, ih.quiet_eq⟩
  | emit reason _ _ _ _ ih => exact (emitted_sameSessions _ reason).trans ih

theorem Metered.sameSessions {ev : MeterEvent} {b : TeidBinding} (hm : Metered e ev b e') :
    SameSessions e e' := by
  cases hm with
  | mk info slot hs fl fa fi fe hlt hslot =>
      obtain ⟨ids, agg, rfl⟩ := packetSlot_ok hslot
      exact ⟨rfl, rfl, rfl, fun _ => session_update rfl rfl, rfl⟩

theorem Charged.sameSessions {ev : MeterEvent} (hc : Charged e ev e') : SameSessions e e' := by
  rcases hc with ⟨_, rfl⟩ | ⟨b, _, hm⟩
  · exact ⟨rfl, rfl, rfl, fun _ => rfl, rfl⟩
  · exact hm.sameSessions

end Frame

section Index

/-- The part of soundness that needs no bound on the table. -/
structure Indexed (e : MeterEngine) : Prop where
  wf : Wf hashU32 e.teidMap
  next_le : e.nextSub ≤ e.tableSize
  fresh : ∀ idx, e.nextSub ≤ idx → (e.info idx).active = false
  imsi_eq : ∀ imsi idx, e.imsiIndex imsi = some idx →
    idx < e.nextSub ∧ (e.info idx).imsi = imsi

theorem Indexed.congr (hi : Indexed e) (hs : SameSessions e e') : Indexed e' := by
  have hses : ∀ idx, (e'.info idx).active = (e.info idx).active ∧
      (e'.info idx).imsi = (e.info idx).imsi := by
    intro idx
    have := hs.session_eq idx
    simp only [session, Session.mk.injEq] at this
    exact ⟨this.2.2.2, this.1⟩
  refine ⟨hi.wf.congr hs.quiet_eq, ?_, ?_, ?_⟩
  · rw [hs.nextSub_eq, hs.tableSize_eq]
    exact hi.next_le
  · intro idx hidx
    rw [(hses idx).1]
    exact hi.fresh idx (hs.nextSub_eq ▸ hidx)
  · intro imsi idx hidx
    rw [hs.imsiIndex_eq] at hidx
    rw [hs.nextSub_eq, (hses idx).2]
    exact hi.imsi_eq imsi idx hidx

theorem init_indexed (cfg : MeterConfig) (sink : RecordSink) : Indexed (init cfg sink) :=
  ⟨init_wf _, Nat.zero_le _, fun _ _ => rfl, fun _ _ hidx => by simp [init] at hidx⟩

/-- The fields of the new subscriber state that name the session. -/
theorem installInfo_session (info : SubscriberInfo) (spec : SessionSpec) (nowNs : UInt64) :
    (installInfo info spec nowNs).1.imsi = spec.imsi ∧
    (installInfo info spec nowNs).1.ulTeid = spec.ulTeid ∧
    (installInfo info spec nowNs).1.dlTeid = spec.dlTeid ∧
    (installInfo info spec nowNs).1.active = true ∧
    (installInfo info spec nowNs).2.toNat < kBucketSlots := by
  obtain ⟨hlt, ids, agg, heq⟩ := installInfo_spec info spec nowNs
  rw [heq]
  refine ⟨?_, rfl, rfl, ?_, hlt⟩ <;> unfold openInfo <;> split_ifs <;> rfl

theorem learnInfo_session (ev : MeterEvent) :
    (learnInfo ev).1.active = true ∧ (learnInfo ev).2.toNat < kBucketSlots ∧
      ev.teid = if ev.dir = Direction.downlink.code then (learnInfo ev).1.dlTeid
        else (learnInfo ev).1.ulTeid := by
  have hslot : (learnInfo ev).2.toNat < kBucketSlots := (assignSlot_spec _ _).1
  refine ⟨?_, hslot, ?_⟩ <;> unfold learnInfo <;> split_ifs <;> rfl

/-- A state in which `idx` has just been looked up or allocated for `spec`. -/
structure Ready (e : MeterEngine) (idx : Nat) (spec : SessionSpec) : Prop where
  wf : Wf hashU32 e.teidMap
  next_le : e.nextSub ≤ e.tableSize
  fresh : ∀ i, e.nextSub ≤ i → (e.info i).active = false
  lt : idx < e.nextSub
  index_eq : e.imsiIndex spec.imsi = some idx
  imsi_eq : ∀ imsi i, e.imsiIndex imsi = some i →
    i < e.nextSub ∧ (if i = idx then spec.imsi else (e.info i).imsi) = imsi

theorem Indexed.ready_known (hi : Indexed e) {idx : Nat} {spec : SessionSpec}
    (hidx : e.imsiIndex spec.imsi = some idx) : Ready e idx spec := by
  obtain ⟨hlt, himsi⟩ := hi.imsi_eq _ _ hidx
  refine ⟨hi.wf, hi.next_le, hi.fresh, hlt, hidx, ?_⟩
  intro imsi i hii
  obtain ⟨hlti, himsii⟩ := hi.imsi_eq _ _ hii
  refine ⟨hlti, ?_⟩
  split_ifs with heq
  · rw [← himsi, ← himsii, heq]
  · exact himsii

theorem Indexed.ready_new (hi : Indexed e) (spec : SessionSpec)
    (hroom : e.nextSub < e.tableSize) :
    Ready (e.allocate spec.imsi) e.nextSub spec := by
  refine ⟨hi.wf, hroom, ?_, Nat.lt_succ_self _, by simp [allocate], ?_⟩
  · intro i hle
    exact hi.fresh i (Nat.le_of_succ_le hle)
  · intro imsi i hii
    by_cases heq : imsi = spec.imsi
    · subst heq
      obtain rfl : e.nextSub = i := by simpa [allocate] using hii
      exact ⟨Nat.lt_succ_self _, by simp⟩
    · obtain ⟨hlt, himsi⟩ := hi.imsi_eq imsi i (by simpa [allocate, heq] using hii)
      refine ⟨Nat.lt_succ_of_lt hlt, ?_⟩
      rw [if_neg (Nat.ne_of_lt hlt)]
      exact himsi

variable {idx : Nat} {spec : SessionSpec} {r : Option Nat}

theorem Ready.indexed (hr : Ready e idx spec) (hin : Installed e idx spec nowNs e' r) :
    Indexed e' := by
  obtain ⟨himsi, -⟩ := installInfo_session (e.info idx) spec nowNs
  cases hin with
  | mk m₁ m₂ m₃ f ulOk dlOk hlt hu hb₁ hb₂ =>
      refine ⟨hb₂.wf, hr.next_le, ?_, ?_⟩
      · intro i hle
        have hne : i ≠ idx := by
          rintro rfl
          exact absurd hr.lt (Nat.not_lt.mpr hle)
        simpa [hne] using hr.fresh i hle
      · intro imsi i hii
        obtain ⟨hlti, heq⟩ := hr.imsi_eq imsi i hii
        refine ⟨hlti, ?_⟩
        by_cases hne : i = idx
        · subst hne
          simpa [himsi] using heq
        · simpa [hne] using heq

theorem Arrived.indexed {ev : MeterEvent} (ha : Arrived e ev e') (hi : Indexed e) :
    Indexed e' := by
  cases ha with
  | found m hq _ => exact hi.congr ⟨rfl, rfl, rfl, fun _ => rfl, hq⟩
  | learned m f ok hnone hlearn hroom hw hlk =>
      refine ⟨hw, hroom, ?_, ?_⟩
      · intro i hle
        have hlt : e.nextSub < i := hle
        simpa [Nat.ne_of_gt hlt] using hi.fresh i (Nat.le_of_lt hlt)
      · intro imsi i hii
        obtain ⟨hlt, himsi⟩ := hi.imsi_eq imsi i hii
        exact ⟨Nat.lt_succ_of_lt hlt, by simpa [Nat.ne_of_lt hlt] using himsi⟩

theorem Moves.indexed {op : MeterOp} {out : Answer} (hm : Moves e op out e')
    (hi : Indexed e) : Indexed e' := by
  cases hm with
  | refused _ => exact hi
  | modified _ hidx hin => exact (hi.ready_known hidx).indexed hin
  | allocated _ _ hroom hin => exact (hi.ready_new _ hroom).indexed hin
  | unknownRelease _ => exact hi
  | @released imsi nowNs idx m hidx hlt hact hu =>
      refine ⟨hu.wf, hi.next_le, ?_, ?_⟩
      · intro i hle
        by_cases hne : i = idx
        · simp [hne]
        · simpa [hne] using hi.fresh i hle
      · intro imsi' i hii
        obtain ⟨hlti, himsi⟩ := hi.imsi_eq imsi' i hii
        refine ⟨hlti, ?_⟩
        by_cases hne : i = idx
        · subst hne
          simpa [markEmitted] using himsi
        · simpa [hne] using himsi
  | control _ => exact hi.congr ⟨rfl, rfl, rfl, fun _ => rfl, rfl⟩
  | charged _ ha hc => exact (ha.indexed hi).congr hc.sameSessions
  | gyIgnored => exact hi.congr ⟨rfl, rfl, rfl, fun _ => rfl, rfl⟩
  | gyReported _ _ => exact hi.congr ⟨rfl, rfl, rfl, fun _ => session_update rfl rfl, rfl⟩
  | polled hr | drained hr => exact hi.congr hr.sameSessions

theorem Moves.cfg_eq {op : MeterOp} {out : Answer} (hm : Moves e op out e') :
    e'.cfg = e.cfg := by
  cases hm with
  | modified _ _ hin | allocated _ _ _ hin => cases hin; rfl
  | charged _ ha hc =>
      rw [hc.sameSessions.cfg_eq]
      cases ha <;> rfl
  | polled hr | drained hr => exact hr.sameSessions.cfg_eq
  | _ => rfl

/-- The IMSI index is sound in every reachable state. -/
theorem reaches_indexed (hrun : Reaches cfg sink h e) : Indexed e :=
  Run.invariant (init_indexed cfg sink)
    (fun _ _ _ _ hi hs => (step_moves hi.wf hs).indexed hi) hrun

theorem reaches_cfg (hrun : Reaches cfg sink h e) : e.cfg = cfg := by
  induction hrun with
  | nil => rfl
  | snoc hprev hs ih => exact (step_moves (reaches_indexed hprev).wf hs).cfg_eq.trans ih

theorem reaches_tableSize (hrun : Reaches cfg sink h e) :
    e.tableSize = cfg.maxSubscribers.toNat := by
  unfold tableSize
  rw [reaches_cfg hrun]

/-- What holds of a new engine and survives every move from a reachable state holds
of every reachable state. -/
theorem reaches_invariant {I : MeterEngine → Prop} (hinit : I (init cfg sink))
    (hstep : ∀ h e op out e', Reaches cfg sink h e → I e → Moves e op out e' → I e')
    (hrun : Reaches cfg sink h e) : I e := by
  induction hrun with
  | nil => exact hinit
  | snoc hprev hs ih =>
      exact hstep _ _ _ _ _ hprev ih (step_moves (reaches_indexed hprev).wf hs)

end Index

section Entries

variable {idx : Nat} {spec : SessionSpec} {r : Option Nat}

/-- What an entry of the TEID table promises. -/
structure Owns (e : MeterEngine) (t : UInt32) (b : TeidBinding) : Prop where
  lt : b.subIdx.toNat < e.nextSub
  active : (e.info b.subIdx.toNat).active = true
  teid_eq : t = if b.dir = Direction.downlink.code then (e.info b.subIdx.toNat).dlTeid
    else (e.info b.subIdx.toNat).ulTeid
  slot_lt : b.slot.toNat < kBucketSlots

/-- The TEID table is sound.  TEID 0 can be learned but not installed, so its
entry never leads to a subscriber with an IMSI. -/
structure Sound (e : MeterEngine) : Prop extends Indexed e where
  owns : ∀ t b, e.bindingOf t = some b → Owns e t b
  zero : ∀ b imsi, e.bindingOf 0 = some b → e.imsiIndex imsi ≠ some b.subIdx.toNat

theorem Owns.congr {t : UInt32} {b : TeidBinding} (ho : Owns e t b)
    (hnext : e.nextSub ≤ e'.nextSub)
    (hses : e'.session b.subIdx.toNat = e.session b.subIdx.toNat) : Owns e' t b := by
  simp only [session, Session.mk.injEq] at hses
  obtain ⟨-, hul, hdl, hact⟩ := hses
  exact ⟨Nat.lt_of_lt_of_le ho.lt hnext, by rw [hact, ho.active],
    by rw [hul, hdl]; exact ho.teid_eq, ho.slot_lt⟩

theorem Sound.congr (hS : Sound e) (hs : SameSessions e e') : Sound e' := by
  refine ⟨hS.toIndexed.congr hs, ?_, ?_⟩
  · intro t b hb
    rw [hs.bindingOf_eq] at hb
    exact (hS.owns t b hb).congr (Nat.le_of_eq hs.nextSub_eq.symm) (hs.session_eq _)
  · intro b imsi hb
    rw [hs.bindingOf_eq] at hb
    rw [hs.imsiIndex_eq]
    exact hS.zero b imsi hb

theorem init_sound (cfg : MeterConfig) (sink : RecordSink) : Sound (init cfg sink) := by
  have hnone : ∀ t, (init cfg sink).bindingOf t = none := fun t => lookup_init _ t
  refine ⟨init_indexed cfg sink, ?_, ?_⟩
  · intro t b hb
    simp [hnone] at hb
  · intro b imsi hb
    simp [hnone] at hb

/-- Where an entry found after an installation comes from. -/
theorem Installed.binding_cases (hin : Installed e idx spec nowNs e' r) {t : UInt32}
    {b : TeidBinding} (hb : e'.bindingOf t = some b) :
    (t ≠ 0 ∧ t = spec.dlTeid ∧ b = ⟨UInt32.ofNat idx, Direction.downlink.code,
      (installInfo (e.info idx) spec nowNs).2⟩) ∨
    (t ≠ 0 ∧ t = spec.ulTeid ∧ b = ⟨UInt32.ofNat idx, Direction.uplink.code,
      (installInfo (e.info idx) spec nowNs).2⟩) ∨
    (¬Moved (openInfo (e.info idx) spec nowNs) spec t ∧ e.bindingOf t = some b) := by
  obtain ⟨ulOk, dlOk, -, hlk⟩ := hin.bindingOf_eq
  rw [hlk] at hb
  split_ifs at hb with hdl hul hgone
  · exact .inl ⟨hdl.2.2 ▸ hdl.1, hdl.2.2, (Option.some.inj hb).symm⟩
  · exact .inr (.inl ⟨hul.2.2 ▸ hul.1, hul.2.2, (Option.some.inj hb).symm⟩)
  · exact .inr (.inr ⟨hgone, hb⟩)

theorem Installed.session_eq (hin : Installed e idx spec nowNs e' r) (i : Nat) :
    e'.session i = if i = idx then ⟨spec.imsi, spec.ulTeid, spec.dlTeid, true⟩
      else e.session i := by
  obtain ⟨himsi, hul, hdl, hact, -⟩ := installInfo_session (e.info idx) spec nowNs
  cases hin with
  | mk m₁ m₂ m₃ f ulOk dlOk hlt hu hb₁ hb₂ =>
      unfold session
      by_cases hi : i = idx
      · rw [if_pos hi, hi]
        simp [himsi, hul, hdl, hact]
      · rw [if_neg hi]
        simp [hi]

theorem Installed.frame (hin : Installed e idx spec nowNs e' r) :
    idx < e.tableSize ∧ e'.nextSub = e.nextSub ∧ e'.imsiIndex = e.imsiIndex ∧
      e'.cfg = e.cfg := by
  cases hin with
  | mk m₁ m₂ m₃ f ulOk dlOk hlt hu hb₁ hb₂ => exact ⟨hlt, rfl, rfl, rfl⟩

theorem toNat_ofNat_of_le (hmax : e.tableSize ≤ 2 ^ 32) (hlt : idx < e.tableSize) :
    (UInt32.ofNat idx).toNat = idx :=
  UInt32.toNat_ofNat_of_lt' (Nat.lt_of_lt_of_le hlt hmax)

theorem uplink_ne_downlink : ¬Direction.uplink.code = Direction.downlink.code := by
  decide

/-- An entry of the subscriber itself that survives the unbinding of its moved
tunnels is for a tunnel that stays. -/
theorem Owns.stays {t : UInt32} {b : TeidBinding} (ho : Owns e t b)
    (hidx : b.subIdx.toNat = idx) (ht : t ≠ 0)
    (hkept : ¬Moved (openInfo (e.info idx) spec nowNs) spec t) :
    t = if b.dir = Direction.downlink.code then spec.dlTeid else spec.ulTeid := by
  subst hidx
  rw [moved_openInfo] at hkept
  obtain ⟨hul, hdl⟩ := not_or.mp (fun hmoved => hkept ⟨ho.active, hmoved⟩)
  have hteid := ho.teid_eq
  split_ifs at hteid ⊢ with hdir
  · by_contra hne
    exact hdl ⟨hteid ▸ ht, fun heq => hne (hteid.trans heq), hteid⟩
  · by_contra hne
    exact hul ⟨hteid ▸ ht, fun heq => hne (hteid.trans heq), hteid⟩

theorem Ready.sound (hr : Ready e idx spec) (hmax : e.tableSize ≤ 2 ^ 32)
    (howns : ∀ t b, e.bindingOf t = some b → Owns e t b)
    (hzero : ∀ b imsi, e.bindingOf 0 = some b → e.imsiIndex imsi ≠ some b.subIdx.toNat)
    (hin : Installed e idx spec nowNs e' r) : Sound e' := by
  obtain ⟨hlt, hnext, hindex, -⟩ := hin.frame
  obtain ⟨-, -, -, -, hslot⟩ := installInfo_session (e.info idx) spec nowNs
  have hself := toNat_ofNat_of_le hmax hlt
  have hses := hin.session_eq idx
  rw [if_pos rfl] at hses
  simp only [session, Session.mk.injEq] at hses
  obtain ⟨-, hul, hdl, hact⟩ := hses
  refine ⟨hr.indexed hin, ?_, ?_⟩
  · intro t b hb
    rcases hin.binding_cases hb with ⟨_, ht, rfl⟩ | ⟨_, ht, rfl⟩ | ⟨hkept, hold⟩
    · exact ⟨by rw [hself, hnext]; exact hr.lt, by rw [hself]; exact hact,
        by rw [hself, if_pos rfl, ht]; exact hdl.symm, hslot⟩
    · exact ⟨by rw [hself, hnext]; exact hr.lt, by rw [hself]; exact hact,
        by rw [hself, if_neg uplink_ne_downlink, ht]; exact hul.symm, hslot⟩
    · have ho := howns t b hold
      by_cases hidx : b.subIdx.toNat = idx
      · have ht : t ≠ 0 := by
          rintro rfl
          exact hzero b spec.imsi hold (by rw [hidx]; exact hr.index_eq)
        have hteid := ho.stays hidx ht hkept
        exact ⟨by rw [hnext]; exact ho.lt, by rw [hidx]; exact hact,
          by rw [hidx, hul, hdl]; exact hteid, ho.slot_lt⟩
      · refine ho.congr (Nat.le_of_eq hnext.symm) ?_
        rw [hin.session_eq, if_neg hidx]
  · intro b imsi hb
    rcases hin.binding_cases hb with ⟨h0, -⟩ | ⟨h0, -⟩ | ⟨-, hold⟩
    · exact absurd rfl h0
    · exact absurd rfl h0
    · rw [hindex]
      exact hzero b imsi hold

theorem Arrived.sound {ev : MeterEvent} (ha : Arrived e ev e') (hmax : e.tableSize ≤ 2 ^ 32)
    (hS : Sound e) : Sound e' := by
  have hi := ha.indexed hS.toIndexed
  cases ha with
  | found m hq _ => exact hS.congr ⟨rfl, rfl, rfl, fun _ => rfl, hq⟩
  | learned m f ok hnone hlearn hroom hw hlk =>
      obtain ⟨hact, hslot, hteid⟩ := learnInfo_session ev
      have hself := toNat_ofNat_of_le hmax hroom
      refine ⟨hi, ?_, ?_⟩
      · intro t b hb
        replace hb : lookup hashU32 m t = some b := hb
        rw [hlk] at hb
        split_ifs at hb with ht
        · obtain rfl := Option.some.inj hb
          refine ⟨?_, ?_, ?_, hslot⟩
          · rw [hself]
            exact Nat.lt_succ_self _
          · rw [hself]
            simpa using hact
          · rw [hself, ht.1]
            simpa using hteid
        · have ho := hS.owns t b hb
          refine ho.congr (Nat.le_succ _) ?_
          simp [session, Nat.ne_of_lt ho.lt]
      · intro b imsi hb
        replace hb : lookup hashU32 m 0 = some b := hb
        rw [hlk] at hb
        split_ifs at hb with ht
        · -- a learned subscriber has no IMSI
          obtain rfl := Option.some.inj hb
          rw [hself]
          intro himsi
          exact absurd (hS.imsi_eq _ _ himsi).1 (Nat.lt_irrefl _)
        · exact hS.zero b imsi hb

/-- A new index leaves the entries as they are. -/
theorem Sound.allocate_owns (hS : Sound e) (imsi : UInt64) :
    ∀ t b, (e.allocate imsi).bindingOf t = some b → Owns (e.allocate imsi) t b :=
  fun t b hb => (hS.owns t b hb).congr (Nat.le_succ _) rfl

theorem Sound.allocate_zero (hS : Sound e) (imsi : UInt64) :
    ∀ b imsi', (e.allocate imsi).bindingOf 0 = some b →
      (e.allocate imsi).imsiIndex imsi' ≠ some b.subIdx.toNat := by
  intro b imsi' hb
  by_cases heq : imsi' = imsi
  · have hlt := (hS.owns 0 b hb).lt
    simp only [allocate, heq, Function.update_self, ne_eq, Option.some.injEq]
    exact Nat.ne_of_gt hlt
  · simpa [allocate, heq] using hS.zero b imsi' hb

/-- Releasing a subscriber removes every entry that leads to it. -/
theorem Moves.sound {op : MeterOp} {out : Answer} (hm : Moves e op out e')
    (hmax : e.tableSize ≤ 2 ^ 32) (hS : Sound e) : Sound e' := by
  have hi := hm.indexed hS.toIndexed
  cases hm with
  | refused _ => exact hS
  | modified _ hidx hin =>
      exact (hS.ready_known hidx).sound hmax hS.owns hS.zero hin
  | allocated _ _ hroom hin =>
      exact (hS.ready_new _ hroom).sound hmax (hS.allocate_owns _) (hS.allocate_zero _) hin
  | unknownRelease _ => exact hS
  | @released imsi nowNs idx m hidx hlt hact hu =>
      have hkeep : ∀ t b, lookup hashU32 m t = some b →
          ¬Moved (e.info idx) {} t ∧ e.bindingOf t = some b := by
        intro t b hb
        by_cases hgone : Moved (e.info idx) {} t
        · rw [hu.lookup_gone t hgone] at hb
          simp at hb
        · rw [hu.lookup_kept t hgone] at hb
          exact ⟨hgone, hb⟩
      refine ⟨hi, ?_, fun b imsi' hb => hS.zero b imsi' (hkeep 0 b hb).2⟩
      intro t b hb
      obtain ⟨hkept, hold⟩ := hkeep t b hb
      have ho := hS.owns t b hold
      have hne : b.subIdx.toNat ≠ idx := by
        intro heq
        have ht : t ≠ 0 := by
          rintro rfl
          exact hS.zero b imsi hold (by rw [heq]; exact hidx)
        obtain ⟨hul, hdl⟩ := not_or.mp hkept
        have hteid := ho.teid_eq
        rw [heq] at hteid
        split_ifs at hteid
        · exact hdl ⟨hteid ▸ ht, hteid ▸ ht, hteid⟩
        · exact hul ⟨hteid ▸ ht, hteid ▸ ht, hteid⟩
      refine ho.congr le_rfl ?_
      simp [session, hne]
  | control _ => exact hS.congr ⟨rfl, rfl, rfl, fun _ => rfl, rfl⟩
  | charged _ ha hc => exact (ha.sound hmax hS).congr hc.sameSessions
  | gyIgnored => exact hS.congr ⟨rfl, rfl, rfl, fun _ => rfl, rfl⟩
  | gyReported _ _ => exact hS.congr ⟨rfl, rfl, rfl, fun _ => session_update rfl rfl, rfl⟩
  | polled hr | drained hr => exact hS.congr hr.sameSessions

/-- The TEID table is sound in every reachable state. -/
theorem reaches_sound (hmax : cfg.maxSubscribers.toNat ≤ 2 ^ 32)
    (hrun : Reaches cfg sink h e) : Sound e := by
  refine reaches_invariant (init_sound cfg sink) ?_ hrun
  intro h e op out e' hprev hS hm
  exact hm.sound (reaches_tableSize hprev ▸ hmax) hS

end Entries

section Apply

variable {ev : MeterEvent} {b : TeidBinding}

theorem updateFlowLoop_ne_outOfRange {sub : UInt32} {dir : UInt8} {key : UInt64} (n i : Nat)
    (victim : Option Nat) (oldest : UInt64) :
    e.updateFlowLoop ev sub dir key n i victim oldest ≠ .error .outOfRange := by
  induction n generalizing i victim oldest with
  | zero => cases victim <;> simp [updateFlowLoop]
  | succ n ih =>
      unfold updateFlowLoop
      dsimp only
      split_ifs
      · simp
      · simp
      · exact ih _ _ _
      · exact ih _ _ _

theorem trackFlow_ne_outOfRange {sub : UInt32} {dir : UInt8} :
    e.trackFlow ev sub dir ≠ .error .outOfRange := by
  unfold trackFlow
  split_ifs
  · simp
  · exact updateFlowLoop_ne_outOfRange _ _ _ _

/-- Metering through a sound entry stays inside the arrays. -/
theorem meterPacket_ne_outOfRange (hlt : b.subIdx.toNat < e.tableSize)
    (hslot : b.slot.toNat < kBucketSlots) : e.meterPacket ev b ≠ .error .outOfRange := by
  have hresolve : ∃ resolved, e.packetSlot ev b = .ok resolved ∧
      resolved.2.toNat < kBucketSlots := by
    unfold packetSlot infoAt
    rw [if_pos hlt]
    split_ifs
    · exact ⟨_, rfl, (assignSlot_spec _ _).1⟩
    · exact ⟨_, rfl, hslot⟩
  obtain ⟨resolved, hres, hs⟩ := hresolve
  intro h
  rcases bind_eq_error.mp h with h | ⟨c, _, h⟩
  · simp [countersAt, hlt] at h
  · rw [hres] at h
    rcases bind_eq_error.mp h with h | ⟨resolved', heq, h⟩
    · simp at h
    · obtain rfl := Except.ok.inj heq
      rcases bind_eq_error.mp h with h | ⟨c', _, h⟩
      · simp [addBucket, hs] at h
      · exact trackFlow_ne_outOfRange h

/-- `apply` returns at once or meters the packet, with a binding that is inside the
tables. -/
theorem apply_meters (hmax : e.tableSize ≤ 2 ^ 32) (hS : Sound e) (ev : MeterEvent) :
    (∃ e', e.apply ev = .ok e') ∨
      ∃ (e₁ : MeterEngine) (b : TeidBinding), e.apply ev = e₁.meterPacket ev b ∧
        b.subIdx.toNat < e₁.tableSize ∧
        b.slot.toNat < kBucketSlots ∧ e₁.cfg = e.cfg ∧ e₁.flows = e.flows ∧
        e₁.flowMask = e.flowMask ∧ e₁.flowCount = e.flowCount ∧
        e₁.stats.flowsActive = e.stats.flowsActive ∧ e₁.stats.flowInserts = e.stats.flowInserts ∧
        e₁.stats.flowEvictions = e.stats.flowEvictions := by
  unfold apply
  dsimp only
  have hq : (find hashU32 (e.countEvent ev).teidMap ev.teid).2.quiet = e.teidMap.quiet :=
    find_table
  split_ifs
  · exact .inl ⟨_, rfl⟩
  cases hb : (find hashU32 (e.countEvent ev).teidMap ev.teid).1 with
  | some b =>
      have ho := hS.owns ev.teid b hb
      exact .inr ⟨_, b, rfl, Nat.lt_of_lt_of_le ho.lt hS.next_le, ho.slot_lt, rfl, rfl, rfl, rfl,
        rfl, rfl, rfl⟩
  | none =>
      generalize (find hashU32 (e.countEvent ev).teidMap ev.teid).2 = m at hq
      dsimp only
      unfold applyUnbound
      split_ifs
      · exact .inl ⟨_, rfl⟩
      rcases learnTeid_cases (e := { e.countEvent ev with teidMap := m }) ev
        (hS.wf.congr hq) with ⟨_, heq⟩ | ⟨hroom, m', f, ok, _, hlk, heq⟩
      · rw [heq]
        exact .inl ⟨_, rfl⟩
      · rw [heq]
        cases ok with
        | false => exact .inl ⟨_, rfl⟩
        | true =>
            dsimp only
            rw [if_pos rfl, hlk, if_pos ⟨rfl, rfl⟩]
            refine .inr ⟨_, _, rfl, ?_, (learnInfo_session ev).2.1, rfl, rfl, rfl, rfl, rfl, rfl,
              rfl⟩
            have hself : (UInt32.ofNat e.nextSub).toNat = e.nextSub := toNat_ofNat_of_le hmax hroom
            show (UInt32.ofNat e.nextSub).toNat < e.tableSize
            rw [hself]
            exact hroom

theorem apply_ne_outOfRange (hmax : e.tableSize ≤ 2 ^ 32) (hS : Sound e) (ev : MeterEvent) :
    e.apply ev ≠ .error .outOfRange := by
  rcases apply_meters hmax hS ev with ⟨e', hok⟩ | ⟨e₁, b, heq, hlt, hslot, -⟩
  · simp [hok]
  · rw [heq]
    exact meterPacket_ne_outOfRange hlt hslot

/-- A packet moves the counters of one active subscriber at most. -/
theorem Metered.counters_eq (hm : Metered e ev b e') {idx : Nat} (hne : idx ≠ b.subIdx.toNat) :
    e'.counters idx = e.counters idx ∧ e'.info idx = e.info idx := by
  cases hm with
  | mk info slot hs fl fa fi fe hlt hslot => simp [hne]

theorem apply_inactive (hmax : e.tableSize ≤ 2 ^ 32) (hS : Sound e)
    (happ : e.apply ev = .ok e') {idx : Nat} (hlt : idx < e.nextSub)
    (hinact : (e.info idx).active = false) :
    e'.counters idx = e.counters idx ∧ e'.info idx = e.info idx := by
  rcases apply_cases hS.wf happ with ⟨_, rfl⟩ | ⟨_, e₁, ha, hc⟩
  · exact ⟨rfl, rfl⟩
  · have hsame : e₁.counters idx = e.counters idx ∧ e₁.info idx = e.info idx := by
      cases ha with
      | found m hq _ => exact ⟨rfl, rfl⟩
      | learned m f ok _ _ _ _ _ => simp [Nat.ne_of_lt hlt]
    have hS₁ := ha.sound hmax hS
    rcases hc with ⟨_, rfl⟩ | ⟨b, hb, hm⟩
    · exact hsame
    · have hne : idx ≠ b.subIdx.toNat := by
        rintro rfl
        have hact := (hS₁.owns _ _ hb).active
        rw [hsame.2, hinact] at hact
        simp at hact
      obtain ⟨hcnt, hinfo⟩ := hm.counters_eq hne
      exact ⟨hcnt.trans hsame.1, hinfo.trans hsame.2⟩

/-- **Binding soundness.**  In every reachable state each entry of the TEID table
leads to an active subscriber that stores the TEID for that direction, and the
IMSI index is injective and agrees with the subscribers.  So `apply` stays inside
the arrays, and a packet never reaches a released subscriber. -/
theorem binding_soundness (hmax : cfg.maxSubscribers.toNat ≤ 2 ^ 32)
    (hrun : Reaches cfg sink h e) :
    (∀ t b, (t, b) ∈ e.teidMap.forEach →
      b.subIdx.toNat < e.nextSub ∧
      (e.info b.subIdx.toNat).active = true ∧
      t = (if b.dir = Direction.downlink.code then (e.info b.subIdx.toNat).dlTeid
        else (e.info b.subIdx.toNat).ulTeid) ∧
      b.slot.toNat < 3) ∧
    e.nextSub ≤ cfg.maxSubscribers.toNat ∧
    (∀ imsi imsi' idx, e.imsiIndex imsi = some idx → e.imsiIndex imsi' = some idx →
      imsi = imsi') ∧
    (∀ imsi idx, e.imsiIndex imsi = some idx → (e.info idx).imsi = imsi) ∧
    (∀ ev, e.apply ev ≠ .error .outOfRange) ∧
    (∀ ev e', e.apply ev = .ok e' → ∀ idx, idx < e.nextSub → (e.info idx).active = false →
      e'.counters idx = e.counters idx ∧ e'.info idx = e.info idx) := by
  have hS := reaches_sound hmax hrun
  have hsize := reaches_tableSize hrun
  have hmax' : e.tableSize ≤ 2 ^ 32 := hsize ▸ hmax
  refine ⟨?_, hsize ▸ hS.next_le, ?_, fun imsi idx hidx => (hS.imsi_eq imsi idx hidx).2,
    apply_ne_outOfRange hmax' hS, ?_⟩
  · intro t b hmem
    have ho := hS.owns t b ((mem_forEach hS.wf t b).mp hmem)
    exact ⟨ho.lt, ho.active, ho.teid_eq, ho.slot_lt⟩
  · intro imsi imsi' idx himsi himsi'
    rw [← (hS.imsi_eq imsi idx himsi).2, (hS.imsi_eq imsi' idx himsi').2]
  · intro ev e' happ idx hlt hinact
    exact apply_inactive hmax' hS happ hlt hinact

/-- A session that comes back with another tunnel, after a modification that swapped
its tunnels. -/
theorem binding_soundness_swapped :
    ∃ h e, Reaches smallConfig noSink h e ∧
      (200, ⟨0, Direction.uplink.code, 0⟩) ∈ e.teidMap.forEach ∧
      (e.info 0).active = true ∧ (200 : UInt32) = (e.info 0).ulTeid ∧
      ∀ ev, e.apply ev ≠ .error .outOfRange := by
  have hex : execCheck step (init smallConfig noSink)
      [.install { imsi := 1, ulTeid := 100, dlTeid := 101 } 0,
        .install { imsi := 1, ulTeid := 101, dlTeid := 100 } 0, .release 1 0,
        .install { imsi := 1, ulTeid := 200 } 0]
      (fun _ e => decide ((200, ⟨0, Direction.uplink.code, 0⟩) ∈ e.teidMap.forEach)) =
      true := by
    decide +kernel
  obtain ⟨h, e, hrun, hcheck⟩ := Run.of_execCheck hex
  have hmem := of_decide_eq_true hcheck
  obtain ⟨hentries, -, -, -, hrange, -⟩ := binding_soundness (by decide) hrun
  obtain ⟨-, hact, hteid, -⟩ := hentries _ _ hmem
  exact ⟨h, e, hrun, hmem, hact, hteid, hrange⟩

end Apply

end MeterEngine
end GtpMeter
