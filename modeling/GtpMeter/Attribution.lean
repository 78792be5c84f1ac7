import GtpMeter.TunnelMeter
import GtpMeter.UsageLedger
import Mathlib.Algebra.Group.Prod

/-!
# Attribution of traffic

While learning is off and the sessions keep their tunnels apart, the engine is a
meter in the sense of `TunnelMeter`: a map from TEIDs to IMSIs and directions, with
one sum per IMSI and direction.

**Results.**
* `reaches_provisioned`: without learning, every subscriber has its IMSI and every
  entry its direction.
* `Moves.refines`: each call is a step of the meter.
* `byte_exact_attribution`: the counters of an active subscriber in terms of the
  events that were applied.
-/

namespace GtpMeter

/-- Direction of a binding that was installed. -/
def TeidBinding.direction (b : TeidBinding) : Direction :=
  if b.dir = Direction.downlink.code then .downlink else .uplink

/-- Bytes and packets by direction. -/
def SubscriberCounters.volume (c : SubscriberCounters) : Direction → UInt64 × UInt64
  | .uplink => (c.ulBytes, c.ulPackets)
  | .downlink => (c.dlBytes, c.dlPackets)
  | .unknown => 0

namespace MeterEngine

open FlatHashU32 Runs Tunnels

variable {cfg : MeterConfig} {sink : RecordSink} {h : History} {e e' e₁ : MeterEngine}
  {idx : Nat} {spec : SessionSpec} {r : Option Nat} {nowNs : UInt64} {op : MeterOp}
  {out : Answer} {ev : MeterEvent}

section Provisioned

/-- What holds of the engine while it does not learn. -/
structure Provisioned (e : MeterEngine) : Prop extends Sound e where
  named : ∀ idx, idx < e.nextSub → e.imsiIndex (e.info idx).imsi = some idx
  directed : ∀ t b, e.bindingOf t = some b →
    b.dir = Direction.uplink.code ∨ b.dir = Direction.downlink.code

theorem Provisioned.congr (hP : Provisioned e) (hs : SameSessions e e') : Provisioned e' := by
  refine ⟨hP.toSound.congr hs, ?_, ?_⟩
  · intro idx hlt
    have himsi : (e'.info idx).imsi = (e.info idx).imsi :=
      congrArg Session.imsi (hs.session_eq idx)
    rw [hs.imsiIndex_eq, himsi]
    exact hP.named idx (hs.nextSub_eq ▸ hlt)
  · intro t b hb
    rw [hs.bindingOf_eq] at hb
    exact hP.directed t b hb

theorem Installed.directed (hin : Installed e idx spec nowNs e' r)
    (hdir : ∀ t b, e.bindingOf t = some b →
      b.dir = Direction.uplink.code ∨ b.dir = Direction.downlink.code) :
    ∀ t b, e'.bindingOf t = some b →
      b.dir = Direction.uplink.code ∨ b.dir = Direction.downlink.code := by
  intro t b hb
  rcases hin.binding_cases hb with ⟨-, -, rfl⟩ | ⟨-, -, rfl⟩ | ⟨-, hold⟩
  · exact .inr rfl
  · exact .inl rfl
  · exact hdir t b hold

theorem Installed.named (hin : Installed e idx spec nowNs e' r)
    (hindex : e.imsiIndex spec.imsi = some idx)
    (hnamed : ∀ i, i < e.nextSub → i ≠ idx → e.imsiIndex (e.info i).imsi = some i) :
    ∀ i, i < e'.nextSub → e'.imsiIndex (e'.info i).imsi = some i := by
  intro i hlt
  obtain ⟨-, hnext, hidx, -⟩ := hin.frame
  have hses := congrArg Session.imsi (hin.session_eq i)
  rw [hnext] at hlt
  rw [hidx]
  by_cases hi : i = idx
  · rw [if_pos hi] at hses
    rw [show (e'.info i).imsi = spec.imsi from hses, hindex, hi]
  · rw [if_neg hi] at hses
    rw [show (e'.info i).imsi = (e.info i).imsi from hses]
    exact hnamed i hlt hi

theorem Arrived.sameSessions (ha : Arrived e ev e') (hlearn : e.cfg.learnUnknownTeids = false) :
    SameSessions e e' := by
  cases ha with
  | found m hq _ => exact ⟨rfl, rfl, rfl, fun _ => rfl, hq⟩
  | learned m f ok _ hyes _ _ _ => simp [hlearn] at hyes

theorem Moves.provisioned (hm : Moves e op out e') (hmax : e.tableSize ≤ 2 ^ 32)
    (hlearn : e.cfg.learnUnknownTeids = false) (hP : Provisioned e) : Provisioned e' := by
  have hS := hm.sound hmax hP.toSound
  cases hm with
  | refused _ => exact hP
  | modified _ hidx hin =>
      exact ⟨hS, hin.named hidx (fun i hlt _ => hP.named i hlt), hin.directed hP.directed⟩
  | @allocated spec nowNs r e' _ hnone hroom hin =>
      refine ⟨hS, hin.named (by simp [allocate]) ?_, hin.directed hP.directed⟩
      intro i hlt hi
      have hold := hP.named i (Nat.lt_of_le_of_ne (Nat.le_of_lt_succ hlt) hi)
      have hne : (e.info i).imsi ≠ spec.imsi := by
        intro heq
        rw [heq, hnone] at hold
        simp at hold
      simpa [allocate, hne] using hold
  | unknownRelease _ => exact hP
  | @released imsi nowNs idx m hidx hlt hact hu =>
      refine ⟨hS, ?_, ?_⟩
      · intro i hi
        have himsi : ((e.releasedState idx nowNs m).info i).imsi = (e.info i).imsi := by
          by_cases hne : i = idx
          · simp [hne, markEmitted]
          · simp [hne]
        rw [himsi]
        exact hP.named i hi
      · intro t b hb
        by_cases hgone : Moved (e.info idx) {} t
        · have hnone : (e.releasedState idx nowNs m).bindingOf t = none :=
            hu.lookup_gone t hgone
          simp [hnone] at hb
        · exact hP.directed t b ((hu.lookup_kept t hgone).symm.trans hb)
  | control _ => exact hP.congr ⟨rfl, rfl, rfl, fun _ => rfl, rfl⟩
  | charged _ ha hc => exact (hP.congr (ha.sameSessions hlearn)).congr hc.sameSessions
  | gyIgnored => exact hP.congr ⟨rfl, rfl, rfl, fun _ => rfl, rfl⟩
  | gyReported _ _ => exact hP.congr ⟨rfl, rfl, rfl, fun _ => session_update rfl rfl, rfl⟩
  | polled hr | drained hr => exact hP.congr hr.sameSessions

theorem init_provisioned (cfg : MeterConfig) (sink : RecordSink) :
    Provisioned (init cfg sink) := by
  refine ⟨init_sound cfg sink, fun _ hlt => absurd hlt (Nat.not_lt_zero _), ?_⟩
  intro t b hb
  have hnone : (init cfg sink).bindingOf t = none := lookup_init _ t
  simp [hnone] at hb

/-- Without learning every reachable state is provisioned. -/
theorem reaches_provisioned (hmax : cfg.maxSubscribers.toNat ≤ 2 ^ 32)
    (hlearn : cfg.learnUnknownTeids = false) (hrun : Reaches cfg sink h e) :
    Provisioned e := by
  refine reaches_invariant (init_provisioned cfg sink) ?_ hrun
  intro h e op out e' hprev hP hm
  exact hm.provisioned (reaches_tableSize hprev ▸ hmax) (by rw [reaches_cfg hprev, hlearn]) hP

/-- The subscriber that an entry leads to is the one its IMSI leads to. -/
theorem Provisioned.index_eq (hP : Provisioned e) {t : UInt32} {b : TeidBinding}
    (hb : e.bindingOf t = some b) :
    e.imsiIndex (e.info b.subIdx.toNat).imsi = some b.subIdx.toNat :=
  hP.named _ (hP.owns t b hb).lt

theorem Provisioned.ne_zero (hP : Provisioned e) {t : UInt32} {b : TeidBinding}
    (hb : e.bindingOf t = some b) : t ≠ 0 := by
  rintro rfl
  exact hP.zero b _ hb (hP.index_eq hb)

end Provisioned

section Abstraction

/-- The tunnels of a session, each in its direction.  TEID 0 stands for none. -/
def claimOf (spec : SessionSpec) (t : UInt32) : Option Direction :=
  if t = 0 then none
  else if t = spec.dlTeid then some .downlink
  else if t = spec.ulTeid then some .uplink
  else none

/-- Bytes and number of an event. -/
def weightOf (ev : MeterEvent) : UInt64 × UInt64 :=
  (ev.bytes.toUInt64, 1)

/-- A map from TEIDs to IMSIs and directions, and sums. -/
abbrev TeidMeter := Meter UInt64 UInt32 Direction (UInt64 × UInt64)

/-- A call, as the meter sees it. -/
def meterOp : MeterOp → Op UInt64 SessionSpec MeterEvent
  | .install spec _ => .attach spec.imsi spec
  | .release imsi _ => .detach imsi
  | .apply ev => if ev.isControl then .idle else .use ev
  | _ => .idle

theorem meterOp_control (hctl : ev.isControl = true) : meterOp (.apply ev) = .idle := by
  simp [meterOp, hctl]

theorem meterOp_packet (hctl : ev.isControl = false) : meterOp (.apply ev) = .use ev := by
  simp [meterOp, hctl]

def meterStep (m : TeidMeter) (op : MeterOp) : TeidMeter :=
  m.step claimOf MeterEvent.teid weightOf (meterOp op)

/-- The owner of an entry. -/
def ownerOf (e : MeterEngine) (b : TeidBinding) : UInt64 × Direction :=
  ((e.info b.subIdx.toNat).imsi, b.direction)

/-- The index of an IMSI whose subscriber is active. -/
def activeIndex (e : MeterEngine) (imsi : UInt64) : Option Nat :=
  (e.imsiIndex imsi).filter (fun i => (e.info i).active)

/-- The engine holds the state of the meter. -/
structure Refines (e : MeterEngine) (m : TeidMeter) : Prop where
  owner_eq : ∀ t, m.owner t = (e.bindingOf t).map e.ownerOf
  sums_eq : ∀ imsi, m.sums imsi = (e.activeIndex imsi).map (fun i => (e.counters i).volume)
  stray_eq : m.stray = (e.stats.unknownTeidBytes, e.stats.unknownTeidEvents)

/-- The TEIDs that subscriber `i` names. -/
def tunnelsOf (e : MeterEngine) (i : Nat) : List UInt32 :=
  [(e.info i).ulTeid, (e.info i).dlTeid].filter (fun t => t ≠ 0)

/-- Subscribers `i` and `j` name a common TEID. -/
def Share (e : MeterEngine) (i j : Nat) : Prop :=
  ∃ t ∈ e.tunnelsOf i, t ∈ e.tunnelsOf j

instance (e : MeterEngine) (i j : Nat) : Decidable (Share e i j) :=
  inferInstanceAs (Decidable (∃ t ∈ e.tunnelsOf i, t ∈ e.tunnelsOf j))

/-- No two active sessions name the same TEID. -/
def Apart (e : MeterEngine) : Prop :=
  ∀ i < e.tableSize, ∀ j < e.tableSize,
    (e.info i).active = true → (e.info j).active = true → Share e i j → i = j

instance (e : MeterEngine) : Decidable (Apart e) :=
  inferInstanceAs (Decidable (∀ i < e.tableSize, ∀ j < e.tableSize,
    (e.info i).active = true → (e.info j).active = true → Share e i j → i = j))

theorem mem_tunnelsOf {i : Nat} {t : UInt32} :
    t ∈ e.tunnelsOf i ↔ t ≠ 0 ∧ (t = (e.info i).ulTeid ∨ t = (e.info i).dlTeid) := by
  simp [tunnelsOf, and_comm]

theorem tunnelsOf_congr {i : Nat} (hses : e'.session i = e.session i) :
    e'.tunnelsOf i = e.tunnelsOf i := by
  simp only [session, Session.mk.injEq] at hses
  simp [tunnelsOf, hses.2.1, hses.2.2.1]

theorem claimOf_eq_some {t : UInt32} {d : Direction} (hd : claimOf spec t = some d) :
    t ≠ 0 ∧ (t = spec.ulTeid ∨ t = spec.dlTeid) := by
  unfold claimOf at hd
  split_ifs at hd with h0 hdl hul
  · exact ⟨h0, .inr hdl⟩
  · exact ⟨h0, .inl hul⟩

theorem claimOf_eq_none {t : UInt32} (hd : claimOf spec t = none) (h0 : t ≠ 0) :
    t ≠ spec.ulTeid ∧ t ≠ spec.dlTeid := by
  unfold claimOf at hd
  rw [if_neg h0] at hd
  split_ifs at hd with hdl hul
  exact ⟨hul, hdl⟩

/-- An entry is for a tunnel of its subscriber. -/
theorem Owns.mem_tunnelsOf {t : UInt32} {b : TeidBinding} (ho : Owns e t b) (h0 : t ≠ 0) :
    t ∈ e.tunnelsOf b.subIdx.toNat := by
  rw [MeterEngine.mem_tunnelsOf]
  refine ⟨h0, ?_⟩
  have hteid := ho.teid_eq
  split_ifs at hteid
  · exact .inr hteid
  · exact .inl hteid

theorem SameSessions.ownerOf_eq (hs : SameSessions e e') : e'.ownerOf = e.ownerOf := by
  funext b
  have himsi : (e'.info b.subIdx.toNat).imsi = (e.info b.subIdx.toNat).imsi :=
    congrArg Session.imsi (hs.session_eq _)
  simp [ownerOf, himsi]

theorem SameSessions.activeIndex_eq (hs : SameSessions e e') : e'.activeIndex = e.activeIndex := by
  funext imsi
  have hact : ∀ i, (e'.info i).active = (e.info i).active :=
    fun i => congrArg Session.active (hs.session_eq i)
  simp [activeIndex, hs.imsiIndex_eq, hact]

/-- Calls that touch neither sessions nor counters. -/
theorem Refines.congr {m : TeidMeter} (hR : Refines e m) (hs : SameSessions e e')
    (hc : e'.counters = e.counters)
    (hst : (e'.stats.unknownTeidBytes, e'.stats.unknownTeidEvents) =
      (e.stats.unknownTeidBytes, e.stats.unknownTeidEvents)) : Refines e' m := by
  refine ⟨?_, ?_, ?_⟩
  · intro t
    rw [hs.bindingOf_eq, hs.ownerOf_eq]
    exact hR.owner_eq t
  · intro imsi
    rw [hs.activeIndex_eq, hc]
    exact hR.sums_eq imsi
  · rw [hst]
    exact hR.stray_eq

end Abstraction

section Installing

variable {m : TeidMeter}

/-- A subscriber whose session is about to be installed. -/
structure Target (e : MeterEngine) (idx : Nat) (spec : SessionSpec) : Prop
    extends Ready e idx spec where
  owns : ∀ t b, e.bindingOf t = some b → Owns e t b
  zero : ∀ b imsi, e.bindingOf 0 = some b → e.imsiIndex imsi ≠ some b.subIdx.toNat
  imsi_iff : ∀ t b, e.bindingOf t = some b →
    ((e.info b.subIdx.toNat).imsi = spec.imsi ↔ b.subIdx.toNat = idx)

theorem Provisioned.target_known (hP : Provisioned e)
    (hidx : e.imsiIndex spec.imsi = some idx) : Target e idx spec := by
  refine ⟨hP.ready_known hidx, hP.owns, hP.zero, ?_⟩
  intro t b hb
  constructor
  · intro himsi
    have hsub := hP.index_eq hb
    rw [himsi, hidx] at hsub
    exact (Option.some.inj hsub).symm
  · rintro rfl
    exact (hP.imsi_eq _ _ hidx).2

theorem Provisioned.target_new (hP : Provisioned e) (hnone : e.imsiIndex spec.imsi = none)
    (hroom : e.nextSub < e.tableSize) : Target (e.allocate spec.imsi) e.nextSub spec := by
  refine ⟨hP.ready_new spec hroom, hP.allocate_owns _, hP.allocate_zero _, ?_⟩
  intro t b hb
  constructor
  · intro himsi
    have hsub := hP.index_eq hb
    rw [show (e.info b.subIdx.toNat).imsi = spec.imsi from himsi, hnone] at hsub
    simp at hsub
  · intro hsub
    exact absurd (hP.owns t b hb).lt (Nat.not_lt.mpr (Nat.le_of_eq hsub.symm))

/-- A tunnel that moves away from a subscriber leads to no one else. -/
theorem Apart.moved_owner (hapart : Apart e) (hle : e.nextSub ≤ e.tableSize)
    (hlt : idx < e.nextSub) (hact : (e.info idx).active = true) {t : UInt32}
    (hmoved : Moved (e.info idx) spec t) {b : TeidBinding} (ho : Owns e t b) :
    b.subIdx.toNat = idx := by
  have hmine : t ∈ e.tunnelsOf idx := by
    rw [mem_tunnelsOf]
    rcases hmoved with ⟨h0, -, rfl⟩ | ⟨h0, -, rfl⟩
    · exact ⟨h0, .inl rfl⟩
    · exact ⟨h0, .inr rfl⟩
  exact hapart _ (Nat.lt_of_lt_of_le ho.lt hle) _ (Nat.lt_of_lt_of_le hlt hle) ho.active hact
    ⟨t, ho.mem_tunnelsOf (mem_tunnelsOf.mp hmine).1, hmine⟩

theorem Installed.ownerOf_eq (hin : Installed e idx spec nowNs e' r) (b : TeidBinding) :
    e'.ownerOf b =
      if b.subIdx.toNat = idx then (spec.imsi, b.direction) else e.ownerOf b := by
  have hses := congrArg Session.imsi (hin.session_eq b.subIdx.toNat)
  unfold ownerOf
  split_ifs with hb
  · rw [if_pos hb] at hses
    rw [show (e'.info b.subIdx.toNat).imsi = spec.imsi from hses]
  · rw [if_neg hb] at hses
    rw [show (e'.info b.subIdx.toNat).imsi = (e.info b.subIdx.toNat).imsi from hses]

/-- The table after an installation that succeeded: what the session claims is
bound to it. -/
theorem Installed.claimed (hin : Installed e idx spec nowNs e' r) (hok : r ≠ none) (t : UInt32) :
    (∀ d, claimOf spec t = some d → ∃ b, e'.bindingOf t = some b ∧
      b.subIdx = UInt32.ofNat idx ∧ b.direction = d) ∧
    (claimOf spec t = none → e'.bindingOf t =
      if Moved (openInfo (e.info idx) spec nowNs) spec t then none else e.bindingOf t) := by
  obtain ⟨ulOk, dlOk, hr, hlk⟩ := hin.bindingOf_eq
  obtain ⟨rfl, rfl⟩ : ulOk = true ∧ dlOk = true := by
    rw [hr] at hok
    simpa using hok
  rw [hlk]
  unfold claimOf
  by_cases h0 : t = 0
  · subst h0
    have hno : ∀ x : UInt32, ¬(x ≠ 0 ∧ true = true ∧ 0 = x) := fun x hh => hh.1 hh.2.2.symm
    rw [if_pos rfl, if_neg (hno _), if_neg (hno _)]
    exact ⟨by simp, fun _ => rfl⟩
  · rw [if_neg h0]
    by_cases hdl : t = spec.dlTeid
    · rw [if_pos hdl, if_pos ⟨hdl ▸ h0, rfl, hdl⟩]
      refine ⟨?_, by simp⟩
      rintro d hd
      obtain rfl := Option.some.inj hd
      exact ⟨_, rfl, rfl, if_pos rfl⟩
    · have hndl : ¬(spec.dlTeid ≠ 0 ∧ true = true ∧ t = spec.dlTeid) := fun hh => hdl hh.2.2
      rw [if_neg hdl, if_neg hndl]
      by_cases hul : t = spec.ulTeid
      · rw [if_pos hul, if_pos ⟨hul ▸ h0, rfl, hul⟩]
        refine ⟨?_, by simp⟩
        rintro d hd
        obtain rfl := Option.some.inj hd
        exact ⟨_, rfl, rfl, if_neg uplink_ne_downlink⟩
      · have hnul : ¬(spec.ulTeid ≠ 0 ∧ true = true ∧ t = spec.ulTeid) := fun hh => hul hh.2.2
        rw [if_neg hul, if_neg hnul]
        exact ⟨by simp, fun _ => rfl⟩

/-- The owners of all TEIDs after an installation that succeeded. -/
theorem Installed.owner_eq (hin : Installed e idx spec nowNs e' r) (hok : r ≠ none)
    (hT : Target e idx spec) (hmax : e.tableSize ≤ 2 ^ 32) (hapart : Apart e)
    (hown : ∀ t, m.owner t = (e.bindingOf t).map e.ownerOf) (t : UInt32) :
    (meterStep m (.install spec nowNs)).owner t = (e'.bindingOf t).map e'.ownerOf := by
  obtain ⟨hyes, hno⟩ := hin.claimed hok t
  have hself := toNat_ofNat_of_le hmax hin.frame.1
  show ((claimOf spec t).map (fun d => (spec.imsi, d))).or (m.without spec.imsi t) = _
  cases hc : claimOf spec t with
  | some d =>
      obtain ⟨b, hb, hsub, hdir⟩ := hyes d hc
      have howner := hin.ownerOf_eq b
      rw [hsub, if_pos hself, hdir] at howner
      rw [hb]
      exact congrArg some howner.symm
  | none =>
      rw [hno hc]
      show m.without spec.imsi t = _
      rw [Meter.without, hown]
      cases hb : e.bindingOf t with
      | none => split_ifs <;> rfl
      | some b =>
          have himsi := hT.imsi_iff t b hb
          split_ifs with hgone
          · -- moved away, so it was an entry of this session
            rw [moved_openInfo] at hgone
            have hsub := hapart.moved_owner hT.next_le hT.lt hgone.1 hgone.2 (hT.owns t b hb)
            simp [ownerOf, himsi.mpr hsub]
          · -- kept, so it is the entry of another session
            have hsub : b.subIdx.toNat ≠ idx := by
              intro heq
              have h0 : t ≠ 0 := by
                rintro rfl
                exact hT.zero b spec.imsi hb (by rw [heq]; exact hT.index_eq)
              have hstay := (hT.owns t b hb).stays heq h0 hgone
              obtain ⟨hnul, hndl⟩ := claimOf_eq_none hc h0
              split_ifs at hstay
              · exact hndl hstay
              · exact hnul hstay
            rw [Option.map_some, Option.map_some, hin.ownerOf_eq, if_neg hsub]
            simp [ownerOf, mt himsi.mp hsub]

theorem Installed.activeIndex_eq (hin : Installed e idx spec nowNs e' r)
    (hr : Ready e idx spec) (imsi : UInt64) :
    e'.activeIndex imsi = if imsi = spec.imsi then some idx else e.activeIndex imsi := by
  obtain ⟨-, -, hindex, -⟩ := hin.frame
  have hact := fun i => congrArg Session.active (hin.session_eq i)
  unfold activeIndex
  rw [hindex]
  split_ifs with himsi
  · have hidx := hact idx
    rw [if_pos rfl] at hidx
    rw [himsi, hr.index_eq]
    simp [show (e'.info idx).active = true from hidx]
  · cases hi : e.imsiIndex imsi with
    | none => rfl
    | some i =>
        have hne : i ≠ idx := by
          rintro rfl
          have := (hr.imsi_eq imsi i hi).2
          rw [if_pos rfl] at this
          exact himsi this.symm
        have hsame := hact i
        rw [if_neg hne] at hsame
        simp [Option.filter, show (e'.info i).active = (e.info i).active from hsame]

/-- The sums of all IMSIs after an installation. -/
theorem Installed.sums_eq (hin : Installed e idx spec nowNs e' r) (hr : Ready e idx spec)
    (hsums : ∀ imsi, m.sums imsi =
      (e.activeIndex imsi).map (fun i => (e.counters i).volume)) (imsi : UInt64) :
    (meterStep m (.install spec nowNs)).sums imsi =
      (e'.activeIndex imsi).map (fun i => (e'.counters i).volume) := by
  show Function.update m.sums spec.imsi (some ((m.sums spec.imsi).getD 0)) imsi = _
  rw [hin.activeIndex_eq hr]
  have hcnt := fun i => (hin.arrays_eq i).1
  by_cases himsi : imsi = spec.imsi
  · subst himsi
    rw [if_pos rfl, Function.update_self, hsums, Option.map_some, hcnt]
    cases hact : (e.info idx).active with
    | true => simp [activeIndex, hr.index_eq, Option.filter, hact]
    | false =>
        simp only [activeIndex, hr.index_eq, Option.filter_some, hact, Bool.false_eq_true,
          if_false, Option.map_none, Option.getD_none, and_self, if_true]
        congr 1
        funext d
        cases d <;> rfl
  · rw [if_neg himsi, Function.update_of_ne himsi, hsums]
    cases hi : e.activeIndex imsi with
    | none => rfl
    | some i =>
        have hne : i ≠ idx := by
          rintro rfl
          have hidx := (Option.filter_eq_some_iff.mp hi).1
          have := (hr.imsi_eq imsi i hidx).2
          rw [if_pos rfl] at this
          exact himsi this.symm
        rw [Option.map_some, Option.map_some, hcnt, if_neg (fun hh => hne hh.1)]

theorem Installed.refines (hin : Installed e idx spec nowNs e' r) (hok : r ≠ none)
    (hT : Target e idx spec) (hmax : e.tableSize ≤ 2 ^ 32) (hapart : Apart e)
    (hR : Refines e m) : Refines e' (meterStep m (.install spec nowNs)) := by
  refine ⟨hin.owner_eq hok hT hmax hapart hR.owner_eq, hin.sums_eq hT.toReady hR.sums_eq, ?_⟩
  have hstray : m.stray = (e'.stats.unknownTeidBytes, e'.stats.unknownTeidEvents) := by
    cases hin
    exact hR.stray_eq
  exact hstray

/-- A new index holds nothing yet. -/
theorem Refines.allocate (hR : Refines e m) (hi : Indexed e)
    (hnone : e.imsiIndex spec.imsi = none) : Refines (e.allocate spec.imsi) m := by
  refine ⟨hR.owner_eq, ?_, hR.stray_eq⟩
  intro imsi
  rw [hR.sums_eq]
  by_cases himsi : imsi = spec.imsi
  · subst himsi
    have hinact : ((e.allocate spec.imsi).info e.nextSub).active = false := hi.fresh _ le_rfl
    have hnew : (e.allocate spec.imsi).imsiIndex spec.imsi = some e.nextSub := by
      simp [MeterEngine.allocate]
    simp [activeIndex, hnone, hnew, hinact]
  · have hsame : (e.allocate spec.imsi).imsiIndex imsi = e.imsiIndex imsi := by
      simp [MeterEngine.allocate, himsi]
    unfold activeIndex
    rw [hsame]
    rfl

/-- An installation that keeps the sessions apart claims no tunnel of another one. -/
theorem Installed.exclusive (hin : Installed e idx spec nowNs e' r) (hT : Target e idx spec)
    (hapart : Apart e') (hown : ∀ t, m.owner t = (e.bindingOf t).map e.ownerOf) :
    Exclusive claimOf m (meterOp (.install spec nowNs)) := by
  intro t d o hd ho
  rw [hown] at ho
  obtain ⟨b, hb, rfl⟩ := Option.map_eq_some_iff.mp ho
  refine (hT.imsi_iff t b hb).mpr ?_
  obtain ⟨hlt, -, -, hcfg⟩ := hin.frame
  have hsize : e'.tableSize = e.tableSize := by simp [tableSize, hcfg]
  obtain ⟨h0, hmine⟩ := claimOf_eq_some hd
  have howns := hT.owns t b hb
  by_contra hne
  -- both sessions are active afterwards and name the TEID
  have hother := hin.session_eq b.subIdx.toNat
  rw [if_neg hne] at hother
  have hself := hin.session_eq idx
  rw [if_pos rfl] at hself
  simp only [session, Session.mk.injEq] at hself
  refine hne (hapart _ ?_ _ ?_ ?_ hself.2.2.2
    ⟨t, by rw [tunnelsOf_congr hother]; exact howns.mem_tunnelsOf h0, ?_⟩)
  · rw [hsize]
    exact Nat.lt_of_lt_of_le howns.lt hT.next_le
  · rw [hsize]
    exact hlt
  · exact (congrArg Session.active hother).trans howns.active
  · rw [mem_tunnelsOf, hself.2.1, hself.2.2.1]
    exact ⟨h0, hmine⟩

end Installing

section Calls

variable {m : TeidMeter}

theorem releasedState_ownerOf (table : FlatHashU32 TeidBinding) :
    (e.releasedState idx nowNs table).ownerOf = e.ownerOf := by
  funext b
  unfold ownerOf
  by_cases hb : b.subIdx.toNat = idx
  · simp [hb, markEmitted]
  · simp [hb]

/-- Only the IMSI that is released has no active index any more. -/
theorem Provisioned.released_activeIndex (hP : Provisioned e) {imsi : UInt64}
    (hidx : e.imsiIndex imsi = some idx) (table : FlatHashU32 TeidBinding) (imsi' : UInt64) :
    (e.releasedState idx nowNs table).activeIndex imsi' =
      if imsi' = imsi then none else e.activeIndex imsi' := by
  unfold activeIndex
  rw [show (e.releasedState idx nowNs table).imsiIndex imsi' = e.imsiIndex imsi' from rfl]
  split_ifs with himsi
  · rw [himsi, hidx]
    simp
  · cases hi : e.imsiIndex imsi' with
    | none => rfl
    | some i =>
        have hne : i ≠ idx := by
          rintro rfl
          exact himsi ((hP.imsi_eq _ _ hi).2.symm.trans (hP.imsi_eq _ _ hidx).2)
        simp [Option.filter, hne]

/-- A release takes down every tunnel that is bound to the subscriber. -/
theorem Provisioned.moved_of_bound (hP : Provisioned e) {t : UInt32} {b : TeidBinding}
    (hb : e.bindingOf t = some b) : Moved (e.info b.subIdx.toNat) {} t := by
  obtain ⟨h0, hteid⟩ := mem_tunnelsOf.mp ((hP.owns t b hb).mem_tunnelsOf (hP.ne_zero hb))
  rcases hteid with hteid | hteid
  · exact .inl ⟨hteid ▸ h0, hteid ▸ h0, hteid⟩
  · exact .inr ⟨hteid ▸ h0, hteid ▸ h0, hteid⟩

/-- A release detaches the IMSI. -/
theorem Refines.released (hR : Refines e m) (hP : Provisioned e) (hapart : Apart e)
    {imsi : UInt64} {table : FlatHashU32 TeidBinding} (hidx : e.imsiIndex imsi = some idx)
    (hact : (e.info idx).active = true) (hu : Unbound e.teidMap table (Moved (e.info idx) {})) :
    Refines (e.releasedState idx nowNs table) (meterStep m (.release imsi nowNs)) := by
  refine ⟨?_, ?_, ?_⟩
  · intro t
    show m.without imsi t = _
    rw [Meter.without, hR.owner_eq, releasedState_ownerOf]
    show _ = (lookup hashU32 table t).map e.ownerOf
    by_cases hgone : Moved (e.info idx) {} t
    · rw [hu.lookup_gone t hgone]
      cases hb : e.bindingOf t with
      | none => rfl
      | some b =>
          have hsub := hapart.moved_owner hP.next_le (hP.imsi_eq _ _ hidx).1 hact hgone
            (hP.owns t b hb)
          simp [ownerOf, hsub, (hP.imsi_eq _ _ hidx).2]
    · rw [hu.lookup_kept t hgone]
      show _ = (e.bindingOf t).map e.ownerOf
      cases hb : e.bindingOf t with
      | none => rfl
      | some b =>
          have himsi : (e.info b.subIdx.toNat).imsi ≠ imsi := by
            intro heq
            have hsub := hP.index_eq hb
            rw [heq, hidx] at hsub
            obtain rfl := Option.some.inj hsub
            exact hgone (hP.moved_of_bound hb)
          simp [ownerOf, himsi]
  · intro imsi'
    show Function.update m.sums imsi none imsi' = _
    rw [hP.released_activeIndex hidx]
    by_cases himsi : imsi' = imsi
    · rw [himsi, Function.update_self, if_pos rfl]
      rfl
    · rw [Function.update_of_ne himsi, hR.sums_eq, if_neg himsi]
      rfl
  · show m.stray = _
    rw [hR.stray_eq]
    show _ = ((e.emitted idx .release nowNs).1.stats.unknownTeidBytes,
      (e.emitted idx .release nowNs).1.stats.unknownTeidEvents)
    rw [emitted_stats]
    cases (e.emitted idx .release nowNs).2.outcome <;> rfl

/-- Releasing an IMSI that is not active changes nothing in the meter either. -/
theorem Refines.unknownRelease (hR : Refines e m) (hP : Provisioned e) {imsi : UInt64}
    (hno : ∀ idx, e.imsiIndex imsi = some idx → (e.info idx).active = false) :
    Refines e (meterStep m (.release imsi nowNs)) := by
  refine ⟨?_, ?_, hR.stray_eq⟩
  · intro t
    show m.without imsi t = _
    rw [Meter.without, hR.owner_eq]
    cases hb : e.bindingOf t with
    | none => rfl
    | some b =>
        have himsi : (e.info b.subIdx.toNat).imsi ≠ imsi := by
          intro heq
          have hinact := hno _ (heq ▸ hP.index_eq hb)
          rw [(hP.owns t b hb).active] at hinact
          simp at hinact
        simp [ownerOf, himsi]
  · intro imsi'
    show Function.update m.sums imsi none imsi' = _
    by_cases himsi : imsi' = imsi
    · subst himsi
      rw [Function.update_self]
      cases hi : e.imsiIndex imsi' with
      | none => simp [activeIndex, hi]
      | some i => simp [activeIndex, hi, Option.filter, hno i hi]
    · rw [Function.update_of_ne himsi]
      exact hR.sums_eq imsi'

/-- The direction of a packet is that of its tunnel. -/
theorem addPacket_volume (c : SubscriberCounters) (slot : Fin kBucketSlots) {b : TeidBinding}
    (hdir : b.dir = Direction.uplink.code ∨ b.dir = Direction.downlink.code) :
    (addPacket c ev (packetDir ev b) slot).volume =
      c.volume + Pi.single b.direction (weightOf ev) := by
  have hup : Direction.uplink.code ≠ Direction.unknown.code := by decide
  have hdown : Direction.downlink.code ≠ Direction.unknown.code := by decide
  funext d
  rcases hdir with hdir | hdir
  · cases d <;>
      simp [addPacket, addDirection, packetDir, hdir, hup, uplink_ne_downlink,
        TeidBinding.direction, SubscriberCounters.volume, weightOf]
  · cases d <;>
      simp [addPacket, addDirection, packetDir, hdir, hdown, TeidBinding.direction,
        SubscriberCounters.volume, weightOf]

/-- An event is credited to the owner of its TEID, or counted as unknown. -/
theorem Charged.refines (hc : Charged e ev e') (hP : Provisioned e) (hR : Refines e m)
    (hctl : ev.isControl = false) : Refines e' (meterStep m (.apply ev)) := by
  unfold meterStep
  rw [meterOp_packet hctl]
  rcases hc with ⟨hnone, rfl⟩ | ⟨b, hb, hm⟩
  · have hfree : m.owner ev.teid = none := by rw [hR.owner_eq, hnone]; rfl
    simp only [Meter.step, hfree]
    exact ⟨hR.owner_eq, hR.sums_eq, by rw [hR.stray_eq]; rfl⟩
  · have hown : m.owner ev.teid = some ((e.info b.subIdx.toNat).imsi, b.direction) := by
      rw [hR.owner_eq, hb]
      rfl
    have hs := hm.sameSessions
    have hidx := hP.index_eq hb
    have hact := (hP.owns _ _ hb).active
    simp only [Meter.step, hown]
    refine ⟨?_, ?_, ?_⟩
    · intro t
      rw [hs.bindingOf_eq, hs.ownerOf_eq]
      exact hR.owner_eq t
    · intro imsi
      rw [hs.activeIndex_eq]
      dsimp only
      by_cases himsi : imsi = (e.info b.subIdx.toNat).imsi
      · subst himsi
        rw [Function.update_self, hR.sums_eq]
        have hi : e.activeIndex (e.info b.subIdx.toNat).imsi = some b.subIdx.toNat := by
          simp [activeIndex, hidx, Option.filter, hact]
        rw [hi]
        cases hm with
        | mk info slot hslot fl fa fi fe _ _ =>
            simp [addPacket_volume _ _ (hP.directed _ _ hb)]
      · rw [Function.update_of_ne himsi, hR.sums_eq]
        cases hi : e.activeIndex imsi with
        | none => rfl
        | some i =>
            have hne : i ≠ b.subIdx.toNat := by
              rintro rfl
              exact himsi (hP.imsi_eq _ _ (Option.filter_eq_some_iff.mp hi).1).2.symm
            rw [Option.map_some, Option.map_some, (hm.counters_eq hne).1]
    · show m.stray = _
      rw [hR.stray_eq]
      cases hm with
      | mk info slot hslot fl fa fi fe _ _ =>
          unfold addTotals
          dsimp only
          split_ifs <;> rfl

theorem EmitRun.refines {ems : List Emission} (hr : EmitRun nowNs e ems e') (hR : Refines e m) :
    Refines e' m := by
  induction hr with
  | nil => exact hR
  | sweep cursor last _ ih => exact ih ⟨hR.owner_eq, hR.sums_eq, hR.stray_eq⟩
  | @emit e e' ems idx reason _ _ _ _ ih =>
      refine ih (hR.congr (emitted_sameSessions idx reason) rfl ?_)
      rw [emitted_stats]
      cases (e.emitted idx reason nowNs).2.outcome <;> rfl

/-- Every call is a step of the meter. -/
theorem Moves.refines (hm : Moves e op out e') (hmax : e.tableSize ≤ 2 ^ 32)
    (hlearn : e.cfg.learnUnknownTeids = false) (hP : Provisioned e) (hapart : Apart e)
    (hok : ∀ spec nowNs, op = .install spec nowNs → out.index ≠ none) (hR : Refines e m) :
    Refines e' (meterStep m op) := by
  cases hm with
  | refused _ => exact absurd rfl (hok _ _ rfl)
  | modified _ hidx hin =>
      exact hin.refines (hok _ _ rfl) (hP.target_known hidx) hmax hapart hR
  | allocated _ hnone hroom hin =>
      exact hin.refines (hok _ _ rfl) (hP.target_new hnone hroom) hmax hapart
        (hR.allocate hP.toIndexed hnone)
  | unknownRelease hno => exact hR.unknownRelease hP hno
  | released hidx _ hact hu => exact hR.released hP hapart hidx hact hu
  | control hctl =>
      unfold meterStep
      rw [meterOp_control hctl]
      exact ⟨hR.owner_eq, hR.sums_eq, hR.stray_eq⟩
  | charged hctl ha hc =>
      have hs := ha.sameSessions hlearn
      refine hc.refines (hP.congr hs) (hR.congr hs ?_ ?_) hctl
      · cases ha with
        | found => rfl
        | learned m f ok _ hyes _ _ _ => simp [hlearn] at hyes
      · cases ha <;> rfl
  | gyIgnored => exact ⟨hR.owner_eq, hR.sums_eq, hR.stray_eq⟩
  | gyReported _ _ =>
      exact hR.congr ⟨rfl, rfl, rfl, fun _ => session_update rfl rfl, rfl⟩ rfl rfl
  | polled hr | drained hr => exact hr.refines hR

theorem Moves.exclusive (hm : Moves e op out e') (hP : Provisioned e) (hapart : Apart e')
    (hok : ∀ spec nowNs, op = .install spec nowNs → out.index ≠ none) (hR : Refines e m) :
    Exclusive claimOf m (meterOp op) := by
  cases hm with
  | refused _ => exact absurd rfl (hok _ _ rfl)
  | modified _ hidx hin => exact hin.exclusive (hP.target_known hidx) hapart hR.owner_eq
  | allocated _ hnone hroom hin =>
      exact hin.exclusive (hP.target_new hnone hroom) hapart hR.owner_eq
  | control hctl =>
      rw [meterOp_control hctl]
      trivial
  | charged hctl _ _ =>
      rw [meterOp_packet hctl]
      trivial
  | _ => trivial

end Calls

section Runs

/-- The meter after the calls of a history. -/
def meterOf (h : History) : TeidMeter :=
  h.foldl (fun m tr => meterStep m tr.op) Meter.empty

/-- All events since the last fresh installation of `imsi`, each with the session
spec in force when it was applied; `none` while the IMSI has no session. -/
def sinceOf (imsi : UInt64) (h : History) : Option (Tally SessionSpec MeterEvent) :=
  h.foldl (fun τ tr => tallyStep imsi τ (meterOp tr.op)) none

/-- The call succeeds if it installs, for two different tunnels, and no two active
sessions name the same TEID before and after it. -/
structure Regular (tr : Transition MeterEngine MeterOp Answer) : Prop where
  pre_apart : Apart tr.pre
  post_apart : Apart tr.post
  installs : ∀ spec nowNs, tr.op = .install spec nowNs →
    tr.out.index ≠ none ∧ spec.ulTeid ≠ spec.dlTeid

/-- The engine simulates the meter along every regular run. -/
theorem reaches_refines (hmax : cfg.maxSubscribers.toNat ≤ 2 ^ 32)
    (hlearn : cfg.learnUnknownTeids = false) (hrun : Reaches cfg sink h e)
    (hreg : ∀ tr ∈ h, Regular tr) :
    Refines e (meterOf h) ∧
      Agrees claimOf MeterEvent.teid weightOf (meterOf h) (fun imsi => sinceOf imsi h) := by
  induction hrun with
  | nil =>
      refine ⟨⟨?_, fun _ => rfl, rfl⟩, .empty⟩
      intro t
      have hnone : (init cfg sink).bindingOf t = none := lookup_init _ t
      rw [hnone]
      rfl
  | @snoc h e e' op out hprev hs ih =>
      obtain ⟨hR, hag⟩ := ih (fun tr htr => hreg tr (List.mem_append_left _ htr))
      have hlast : Regular ⟨e, op, out, e'⟩ := hreg _ (by simp)
      have hP := reaches_provisioned hmax hlearn hprev
      have hsize : e.tableSize ≤ 2 ^ 32 := reaches_tableSize hprev ▸ hmax
      have hm := step_moves hP.wf hs
      have hok : ∀ spec nowNs, op = .install spec nowNs → out.index ≠ none :=
        fun spec nowNs hop => (hlast.installs spec nowNs hop).1
      have hmeter : meterOf (h ++ [⟨e, op, out, e'⟩]) = meterStep (meterOf h) op := by
        simp [meterOf]
      have hsince : (fun imsi => sinceOf imsi (h ++ [⟨e, op, out, e'⟩])) =
          fun imsi => tallyStep imsi (sinceOf imsi h) (meterOp op) := by
        funext imsi
        simp [sinceOf]
      rw [hmeter, hsince]
      exact ⟨hm.refines hsize (by rw [reaches_cfg hprev, hlearn]) hP hlast.pre_apart hok hR,
        hag.step (hm.exclusive hP hlast.post_apart hok hR)⟩

/-- The specs in a tally are specs that were installed. -/
theorem sinceOf_all {P : SessionSpec → Prop} {imsi : UInt64}
    (hspecs : ∀ tr ∈ h, ∀ spec nowNs, tr.op = .install spec nowNs → P spec)
    {τ : Tally SessionSpec MeterEvent} (hτ : sinceOf imsi h = some τ) : τ.All P := by
  induction h using List.reverseRecOn generalizing τ with
  | nil => simp [sinceOf] at hτ
  | append_singleton h tr ih =>
      replace hτ : tallyStep imsi (sinceOf imsi h) (meterOp tr.op) = some τ := by
        simpa [sinceOf] using hτ
      refine tallyStep_all ?_ (fun _ hold =>
        ih (fun tr htr => hspecs tr (List.mem_append_left _ htr)) hold) hτ
      intro k s hop
      cases htr : tr.op with
      | install spec nowNs =>
          rw [htr] at hop
          obtain ⟨-, rfl⟩ := Op.attach.inj hop
          exact hspecs tr (by simp) spec nowNs htr
      | apply ev =>
          rw [htr] at hop
          cases hctl : ev.isControl with
          | true => simp [meterOp_control hctl] at hop
          | false => simp [meterOp_packet hctl] at hop
      | _ =>
          rw [htr] at hop
          simp [meterOp] at hop

/-- The event came on the uplink tunnel of the session in force. -/
def onUplink (x : SessionSpec × MeterEvent) : Bool :=
  x.2.teid ≠ 0 ∧ x.2.teid = x.1.ulTeid

/-- The event came on the downlink tunnel of the session in force. -/
def onDownlink (x : SessionSpec × MeterEvent) : Bool :=
  x.2.teid ≠ 0 ∧ x.2.teid = x.1.dlTeid

theorem claimOf_uplink {x : SessionSpec × MeterEvent} (hne : x.1.ulTeid ≠ x.1.dlTeid) :
    decide (claimOf x.1 x.2.teid = some .uplink) = onUplink x := by
  unfold claimOf onUplink
  by_cases h0 : x.2.teid = 0
  · simp [h0]
  · by_cases hul : x.2.teid = x.1.ulTeid
    · simp [hul, hul ▸ h0, hne]
    · by_cases hdl : x.2.teid = x.1.dlTeid
      · simp [hdl, Ne.symm hne]
      · simp [hul, hdl]

theorem claimOf_downlink (x : SessionSpec × MeterEvent) :
    decide (claimOf x.1 x.2.teid = some .downlink) = onDownlink x := by
  unfold claimOf onDownlink
  by_cases h0 : x.2.teid = 0
  · simp [h0]
  · by_cases hdl : x.2.teid = x.1.dlTeid
    · simp [hdl, hdl ▸ h0]
    · by_cases hul : x.2.teid = x.1.ulTeid <;> simp [h0, hul, hdl]

theorem sum_weightOf (xs : List (SessionSpec × MeterEvent)) :
    (xs.map (fun x => weightOf x.2)).sum =
      ((xs.map (fun x => x.2.bytes.toUInt64)).sum, UInt64.ofNat xs.length) := by
  induction xs with
  | nil => rfl
  | cons x xs ih =>
      rw [List.map_cons, List.sum_cons, ih, List.map_cons, List.sum_cons, List.length_cons,
        Nat.add_comm xs.length 1, UInt64.ofNat_add]
      rfl

/-- An event whose TEID no active session names is counted as unknown, and that is
all it does; `table` differs from the TEID table in its probe statistics only. -/
theorem apply_stray (hP : Provisioned e) (hlearn : e.cfg.learnUnknownTeids = false)
    (hctl : ev.isControl = false)
    (hno : ∀ i < e.tableSize, (e.info i).active = true → ev.teid ∉ e.tunnelsOf i) :
    ∃ table, table.quiet = e.teidMap.quiet ∧
      e.apply ev = .ok { (e.countEvent ev).countUnknown ev with teidMap := table } := by
  have hfree : e.bindingOf ev.teid = none := by
    by_contra hne
    obtain ⟨b, hb⟩ := Option.ne_none_iff_exists'.mp hne
    have ho := hP.owns _ _ hb
    exact hno _ (Nat.lt_of_lt_of_le ho.lt hP.next_le) ho.active
      (ho.mem_tunnelsOf (hP.ne_zero hb))
  refine ⟨(find hashU32 e.teidMap ev.teid).2, find_table, ?_⟩
  have hmiss : (find hashU32 (e.countEvent ev).teidMap ev.teid).1 = none := hfree
  unfold apply
  dsimp only
  rw [if_neg (by simp [hctl]), hmiss]
  dsimp only
  unfold applyUnbound
  rw [if_pos (by simp [countEvent, hlearn])]
  rfl

/-- **Byte-exact attribution.**  In a run without learning, in which installations
succeed, no session uses one TEID for both directions and no two active sessions name
the same TEID:

* the engine holds the state of a meter that knows nothing but owners and sums;
* the counters of an active subscriber are the bytes and the number of the events
  since its last fresh installation that came on the tunnel its session had at that
  moment, whatever direction the event itself carries;
* every other event that is no control message is counted as unknown and changes no
  subscriber. -/
theorem byte_exact_attribution (hmax : cfg.maxSubscribers.toNat ≤ 2 ^ 32)
    (hlearn : cfg.learnUnknownTeids = false) (hrun : Reaches cfg sink h e)
    (hreg : ∀ tr ∈ h, Regular tr) :
    Refines e (meterOf h) ∧
    (∀ idx, (e.info idx).active = true → ∃ τ, sinceOf (e.info idx).imsi h = some τ ∧
      (e.counters idx).ulBytes =
        ((τ.seen.filter onUplink).map (fun x => x.2.bytes.toUInt64)).sum ∧
      (e.counters idx).ulPackets = UInt64.ofNat (τ.seen.filter onUplink).length ∧
      (e.counters idx).dlBytes =
        ((τ.seen.filter onDownlink).map (fun x => x.2.bytes.toUInt64)).sum ∧
      (e.counters idx).dlPackets = UInt64.ofNat (τ.seen.filter onDownlink).length) ∧
    (∀ ev, ev.isControl = false →
      (∀ i < e.tableSize, (e.info i).active = true → ev.teid ∉ e.tunnelsOf i) →
      ∃ table, table.quiet = e.teidMap.quiet ∧
        e.apply ev = .ok { (e.countEvent ev).countUnknown ev with teidMap := table }) := by
  obtain ⟨hR, hag⟩ := reaches_refines hmax hlearn hrun hreg
  have hP := reaches_provisioned hmax hlearn hrun
  have hcfg := reaches_cfg hrun
  refine ⟨hR, ?_, fun ev hctl hno => apply_stray hP (by rw [hcfg, hlearn]) hctl hno⟩
  intro idx hact
  have hlt : idx < e.nextSub := by
    by_contra hge
    rw [hP.fresh idx (Nat.le_of_not_lt hge)] at hact
    simp at hact
  have hsums := hR.sums_eq (e.info idx).imsi
  rw [hag.sums_eq] at hsums
  have hi : e.activeIndex (e.info idx).imsi = some idx := by
    simp [activeIndex, hP.named idx hlt, Option.filter, hact]
  rw [hi, Option.map_some] at hsums
  obtain ⟨τ, hτ, hvol⟩ := Option.map_eq_some_iff.mp hsums
  have hspecs : τ.All (fun spec => spec.ulTeid ≠ spec.dlTeid) :=
    sinceOf_all (fun tr htr spec nowNs hop => ((hreg tr htr).installs spec nowNs hop).2) hτ
  have hup : τ.seen.filter (fun x => claimOf x.1 x.2.teid = some .uplink) =
      τ.seen.filter onUplink :=
    List.filter_congr (fun x hx => claimOf_uplink (hspecs.2 x hx))
  have hdown : τ.seen.filter (fun x => claimOf x.1 x.2.teid = some .downlink) =
      τ.seen.filter onDownlink :=
    List.filter_congr (fun x _ => claimOf_downlink x)
  have hul := congrFun hvol .uplink
  have hdl := congrFun hvol .downlink
  unfold Tally.sums at hul hdl
  rw [hup, sum_weightOf] at hul
  rw [hdown, sum_weightOf] at hdl
  exact ⟨τ, hτ, (congrArg Prod.fst hul).symm, (congrArg Prod.snd hul).symm,
    (congrArg Prod.fst hdl).symm, (congrArg Prod.snd hdl).symm⟩

/-- A session whose uplink tunnel moves, beside a second session: of the three events
for the first one's old and new tunnel, two are its own. -/
theorem byte_exact_attribution_moved :
    ∃ h e, Reaches smallConfig noSink h e ∧ Refines e (meterOf h) ∧
      e.stats.unknownTeidBytes = 7 ∧ ∃ τ, sinceOf 1 h = some τ ∧
        (e.counters 0).ulBytes = 15 ∧
        (e.counters 0).ulBytes =
          ((τ.seen.filter onUplink).map (fun x => x.2.bytes.toUInt64)).sum := by
  have hex : execCheck step (init smallConfig noSink)
      [.install { imsi := 1, ulTeid := 100, dlTeid := 101 } 0,
        .install { imsi := 2, ulTeid := 200, dlTeid := 201 } 0,
        .apply { teid := 100, bytes := 10, dir := 1 }, .apply { teid := 200, bytes := 3 },
        .install { imsi := 1, ulTeid := 300, dlTeid := 101 } 0,
        .apply { teid := 300, bytes := 5 }, .apply { teid := 100, bytes := 7 }, .release 2 1]
      (fun h e => decide ((e.info 0).active = true ∧ (e.info 0).imsi = 1 ∧
          e.stats.unknownTeidBytes = 7 ∧ (e.counters 0).ulBytes = 15) &&
        h.all (fun tr => decide (Apart tr.pre) && decide (Apart tr.post) &&
          tr.op.installs.all (fun spec =>
            tr.out.index.isSome && decide (spec.ulTeid ≠ spec.dlTeid)))) = true := by
    decide +kernel
  obtain ⟨h, e, hrun, hcheck⟩ := Run.of_execCheck hex
  rw [Bool.and_eq_true, decide_eq_true_eq, List.all_eq_true] at hcheck
  obtain ⟨⟨hact, himsi, hstray, hul⟩, hall⟩ := hcheck
  have hreg : ∀ tr ∈ h, Regular tr := by
    intro tr htr
    have hok := hall tr htr
    rw [Bool.and_eq_true, Bool.and_eq_true, decide_eq_true_eq, decide_eq_true_eq] at hok
    refine ⟨hok.1.1, hok.1.2, ?_⟩
    intro spec nowNs hop
    have hins := hok.2
    rw [hop, MeterOp.installs, Option.all_some, Bool.and_eq_true, decide_eq_true_eq] at hins
    exact ⟨Option.isSome_iff_ne_none.mp hins.1, hins.2⟩
  obtain ⟨hR, hcount, -⟩ := byte_exact_attribution (by decide) rfl hrun hreg
  obtain ⟨τ, hτ, hbytes, -⟩ := hcount 0 hact
  rw [himsi] at hτ
  exact ⟨h, e, hrun, hR, hstray, τ, hτ, hul, hbytes⟩

end Runs

end MeterEngine
end GtpMeter
