import GtpMeter.BindingSoundness
import GtpMeter.LinearProbing

/-!
# What a sweep of `poll` covers

`poll` looks at a slice of the subscriber table, at the subscribers from the cursor on, and
the cursor wraps at the number of subscribers.  A slice is the number of subscribers divided
by `sweep_fraction`, rounded down.  So `sweep_fraction` slices are a walk around a ring that
may end before it has come around.

**Results.**
* `pollSlot_turned`: what one turn of the loop does to the subscriber under the cursor.
* `pollLoop_swept`, `polls_swept`: the subscribers that a call and a sequence of calls look
  at, and that these are below the volume threshold afterwards.
* `full_sweep_iff`: when `sweep_fraction` calls look at everyone.
-/

namespace GtpMeter
namespace MeterEngine

open FlatHashU32 Runs Probing

variable {cfg : MeterConfig} {sink : RecordSink} {h : History} {e e₁ e' : MeterEngine}
  {idx : Nat} {nowNs : UInt64}

section Turns

/-- `pending` in `poll`. -/
def pendingBytes (c : SubscriberCounters) (info : SubscriberInfo) : UInt64 :=
  (c.ulBytes - info.emittedUlBytes) + (c.dlBytes - info.emittedDlBytes)

/-- A subscriber has not reached the volume threshold, if there is one. -/
def UnderThreshold (cfg : MeterConfig) (c : SubscriberCounters) (info : SubscriberInfo) : Prop :=
  info.active = true → cfg.volumeThresholdBytes ≠ 0 →
    pendingBytes c info < cfg.volumeThresholdBytes

instance (cfg : MeterConfig) (c : SubscriberCounters) (info : SubscriberInfo) :
    Decidable (UnderThreshold cfg c info) :=
  inferInstanceAs (Decidable (_ → _ → _))

/-- The subscriber that the next turn of the loop in `poll` looks at. -/
def sweepSlot (e : MeterEngine) (live : Nat) : Nat :=
  if e.sweepCursor ≥ live then 0 else e.sweepCursor

theorem sweepSlot_lt {live : Nat} (hpos : 0 < live) : e.sweepSlot live < live := by
  unfold sweepSlot
  split_ifs with hwrap
  · exact hpos
  · exact Nat.not_le.mp hwrap

theorem markEmitted_pendingBytes (c : SubscriberCounters) (info : SubscriberInfo)
    (nowNs : UInt64) : pendingBytes c (markEmitted c info nowNs) = 0 := by
  simp [pendingBytes, markEmitted]

theorem markEmitted_underThreshold (cfg : MeterConfig) (c : SubscriberCounters)
    (info : SubscriberInfo) (nowNs : UInt64) :
    UnderThreshold cfg c (markEmitted c info nowNs) := by
  intro _ hset
  rw [markEmitted_pendingBytes]
  exact UInt64.pos_iff_ne_zero.mpr hset

/-- After one turn the cursor has moved on, and the subscriber that was under it is below
the threshold, if only because a record has been emitted for it. -/
structure Turned (e : MeterEngine) (i : Nat) (e₁ : MeterEngine) : Prop where
  cfg_eq : e₁.cfg = e.cfg
  counters_eq : e₁.counters = e.counters
  next_eq : e₁.nextSub = e.nextSub
  cursor_eq : e₁.sweepCursor = i + 1
  last_eq : e₁.lastSweepNs = e.lastSweepNs
  info_eq : ∀ j, j ≠ i → e₁.info j = e.info j
  under : UnderThreshold e.cfg (e.counters i) (e₁.info i)

theorem turned_of_skip {i : Nat} (hunder : UnderThreshold e.cfg (e.counters i) (e.info i)) :
    Turned e i { e with sweepCursor := i + 1 } :=
  ⟨rfl, rfl, rfl, rfl, rfl, fun _ _ => rfl, hunder⟩

theorem turned_of_emit {i : Nat} (reason : RecordReason) :
    Turned e i (({ e with sweepCursor := i + 1 } : MeterEngine).emitted i reason nowNs).1 := by
  refine ⟨rfl, rfl, rfl, rfl, rfl, fun j hj => Function.update_of_ne hj _ _, ?_⟩
  have hinfo : (({ e with sweepCursor := i + 1 } : MeterEngine).emitted i reason nowNs).1.info i =
      markEmitted (e.counters i) (e.info i) nowNs := Function.update_self _ _ _
  rw [hinfo]
  exact markEmitted_underThreshold _ _ _ _

theorem pollSlot_turned (nowNs : UInt64) {live : Nat} (hlt : e.sweepSlot live < e.tableSize) :
    ∃ e₁ ems, e.pollSlot live nowNs = .ok (e₁, ems) ∧ Turned e (e.sweepSlot live) e₁ := by
  obtain ⟨i, hi⟩ : ∃ i, e.sweepSlot live = i := ⟨_, rfl⟩
  have hslot : (if e.sweepCursor ≥ live then 0 else e.sweepCursor) = i := hi
  rw [hi] at hlt ⊢
  unfold pollSlot
  rw [hslot]
  have hemit : ∀ reason, ({ e with sweepCursor := i + 1 } : MeterEngine).emitRecord i reason nowNs =
      .ok (({ e with sweepCursor := i + 1 } : MeterEngine).emitted i reason nowNs) := by
    intro reason
    rw [emitRecord_eq]
    exact if_pos hlt
  have hinfo : ({ e with sweepCursor := i + 1 } : MeterEngine).infoAt i = .ok (e.info i) :=
    infoAt_ok.mpr ⟨hlt, rfl⟩
  have hcnt : ({ e with sweepCursor := i + 1 } : MeterEngine).countersAt i =
      .ok (e.counters i) := countersAt_ok.mpr ⟨hlt, rfl⟩
  dsimp only at hinfo hcnt hemit ⊢
  rw [hinfo, hcnt]
  simp only [bind, Except.bind, hemit]
  cases hact : (e.info i).active with
  | false =>
      refine ⟨_, _, rfl, turned_of_skip ?_⟩
      intro hactive
      rw [hact] at hactive
      cases hactive
  | true =>
      simp only [Bool.not_true, Bool.false_eq_true, if_false]
      split_ifs with hzero hvolume hinterval
      · refine ⟨_, _, rfl, turned_of_skip ?_⟩
        intro _ hset
        rw [pendingBytes, hzero]
        exact UInt64.pos_iff_ne_zero.mpr hset
      · exact ⟨_, _, rfl, turned_of_emit _⟩
      · exact ⟨_, _, rfl, turned_of_emit _⟩
      · refine ⟨_, _, rfl, turned_of_skip ?_⟩
        intro _ hset
        exact UInt64.not_le.mp (fun hge => hvolume ⟨hset, hge⟩)

end Turns

section Sweeps

/-- The subscribers that `n` turns of the loop in `poll` look at. -/
def sweptLoop (live : Nat) (nowNs : UInt64) : Nat → MeterEngine → List Nat
  | 0, _ => []
  | n + 1, e =>
      e.sweepSlot live ::
        match e.pollSlot live nowNs with
        | .ok (e, _) => sweptLoop live nowNs n e
        | .error _ => []

/-- The size of a slice. -/
def chunk (e : MeterEngine) : Nat :=
  max 1 (e.nextSub / max 1 e.cfg.sweepFraction.toNat)

/-- The subscribers that a call of `poll` looks at. -/
def swept (e : MeterEngine) (nowNs : UInt64) : List Nat :=
  if nowNs - e.lastSweepNs < e.cfg.sweepPeriodNs ∨ e.nextSub = 0 then []
  else sweptLoop e.nextSub nowNs e.chunk { e with lastSweepNs := nowNs }

/-- The subscribers that the polls of a history have looked at. -/
def examinedIn (h : History) : List Nat :=
  h.flatMap fun tr =>
    match tr.op with
    | .poll nowNs => tr.pre.swept nowNs
    | _ => []

/-- A number of turns: they looked at consecutive subscribers, around the table, and these
are below the threshold. -/
structure Sweep (e : MeterEngine) (slots : List Nat) (e' : MeterEngine) : Prop where
  cfg_eq : e'.cfg = e.cfg
  counters_eq : e'.counters = e.counters
  next_eq : e'.nextSub = e.nextSub
  slots_eq : slots = walks e.nextSub (e.sweepSlot e.nextSub) slots.length
  cursor_eq : e'.sweepSlot e.nextSub = walk e.nextSub (e.sweepSlot e.nextSub) slots.length
  under : ∀ i ∈ slots, UnderThreshold e.cfg (e.counters i) (e'.info i)
  kept : ∀ i, UnderThreshold e.cfg (e.counters i) (e.info i) →
    UnderThreshold e.cfg (e.counters i) (e'.info i)

theorem Sweep.refl (hpos : 0 < e.nextSub) : Sweep e [] e where
  cfg_eq := rfl
  counters_eq := rfl
  next_eq := rfl
  slots_eq := rfl
  cursor_eq := (walk_zero (sweepSlot_lt hpos)).symm
  under := fun _ hi => absurd hi List.not_mem_nil
  kept := fun _ hunder => hunder

theorem Sweep.trans {slots slots' : List Nat} (hpos : 0 < e.nextSub) (hs : Sweep e slots e₁)
    (hs' : Sweep e₁ slots' e') : Sweep e (slots ++ slots') e' where
  cfg_eq := hs'.cfg_eq.trans hs.cfg_eq
  counters_eq := hs'.counters_eq.trans hs.counters_eq
  next_eq := hs'.next_eq.trans hs.next_eq
  slots_eq := by
    have hrest := hs'.slots_eq
    rw [hs.next_eq, hs.cursor_eq] at hrest
    rw [List.length_append, walks_append (sweepSlot_lt hpos), ← hs.slots_eq, ← hrest]
  cursor_eq := by
    have hrest := hs'.cursor_eq
    rw [hs.next_eq, hs.cursor_eq] at hrest
    rw [hrest, List.length_append, walk_walk]
  under := by
    intro i hi
    have hkept := hs'.kept i
    have hunder := hs'.under i
    rw [hs.cfg_eq, hs.counters_eq] at hkept hunder
    rcases List.mem_append.mp hi with hi | hi
    · exact hkept (hs.under i hi)
    · exact hunder hi
  kept := by
    intro i hunder
    have hkept := hs'.kept i
    rw [hs.cfg_eq, hs.counters_eq] at hkept
    exact hkept (hs.kept i hunder)

theorem Turned.sweep (hpos : 0 < e.nextSub) (ht : Turned e (e.sweepSlot e.nextSub) e₁) :
    Sweep e [e.sweepSlot e.nextSub] e₁ where
  cfg_eq := ht.cfg_eq
  counters_eq := ht.counters_eq
  next_eq := ht.next_eq
  slots_eq := rfl
  cursor_eq := by
    have hlt := sweepSlot_lt (e := e) hpos
    have hnext : e₁.sweepSlot e.nextSub = next e.nextSub (e.sweepSlot e.nextSub) := by
      rw [Probing.next_eq hlt, sweepSlot, ht.cursor_eq]
      split_ifs <;> omega
    rw [hnext]
    rfl
  under := by
    intro i hi
    obtain rfl := List.mem_singleton.mp hi
    exact ht.under
  kept := by
    intro i hunder
    by_cases hi : i = e.sweepSlot e.nextSub
    · rw [hi]
      exact ht.under
    · rw [ht.info_eq i hi]
      exact hunder

/-- The loop of `poll` goes around the table. -/
theorem pollLoop_swept (nowNs : UInt64) {live : Nat} (n : Nat) : ∀ e : MeterEngine, live = e.nextSub →
    0 < e.nextSub → e.nextSub ≤ e.tableSize →
    ∃ e' ems, pollLoop live nowNs n e = .ok (e', ems) ∧
      Sweep e (sweptLoop live nowNs n e) e' ∧ (sweptLoop live nowNs n e).length = n ∧
      e'.lastSweepNs = e.lastSweepNs := by
  induction n with
  | zero =>
      intro e _ hpos _
      exact ⟨e, [], rfl, .refl hpos, rfl, rfl⟩
  | succ n ih =>
      intro e hlive hpos hle
      subst hlive
      have hlt := Nat.lt_of_lt_of_le (sweepSlot_lt (e := e) hpos) hle
      obtain ⟨e₁, ems₁, hslot, ht⟩ := pollSlot_turned nowNs hlt
      have hsize : e₁.tableSize = e.tableSize := by rw [tableSize, tableSize, ht.cfg_eq]
      obtain ⟨e', ems, hloop, hs, hlen, hlast⟩ := ih e₁ ht.next_eq.symm
        (by rw [ht.next_eq]; exact hpos) (by rw [ht.next_eq, hsize]; exact hle)
      have hswept : sweptLoop e.nextSub nowNs (n + 1) e =
          [e.sweepSlot e.nextSub] ++ sweptLoop e.nextSub nowNs n e₁ := by
        rw [sweptLoop, hslot]
        rfl
      refine ⟨e', ems₁ ++ ems, ?_, ?_, ?_, hlast.trans ht.last_eq⟩
      · rw [pollLoop, hslot]
        simp only [bind, Except.bind, hloop]
      · rw [hswept]
        exact (ht.sweep hpos).trans hpos hs
      · rw [hswept, List.length_append, hlen, List.length_singleton, Nat.add_comm]

/-- A call that passes the gate. -/
theorem poll_swept (hpos : 0 < e.nextSub) (hle : e.nextSub ≤ e.tableSize)
    (hgate : ¬nowNs - e.lastSweepNs < e.cfg.sweepPeriodNs) :
    ∃ e' ems, e.poll nowNs = .ok (e', ems) ∧ Sweep e (e.swept nowNs) e' ∧
      (e.swept nowNs).length = e.chunk ∧ e'.lastSweepNs = nowNs := by
  obtain ⟨e', ems, hloop, hs, hlen, hlast⟩ :=
    pollLoop_swept nowNs e.chunk { e with lastSweepNs := nowNs } rfl hpos hle
  have hswept : e.swept nowNs =
      sweptLoop e.nextSub nowNs e.chunk { e with lastSweepNs := nowNs } :=
    if_neg (fun hno => hno.elim hgate (Nat.ne_of_gt hpos))
  rw [hswept]
  refine ⟨e', ems, ?_, ?_, hlen, hlast⟩
  · unfold poll
    rw [if_neg hgate]
    exact (if_neg (Nat.ne_of_gt hpos)).trans hloop
  · exact ⟨hs.cfg_eq, hs.counters_eq, hs.next_eq, hs.slots_eq, hs.cursor_eq, hs.under, hs.kept⟩

/-- Each of the calls comes late enough after the one before. -/
def GatesPass (period : UInt64) : UInt64 → List UInt64 → Prop
  | _, [] => True
  | last, nowNs :: rest => ¬nowNs - last < period ∧ GatesPass period nowNs rest

instance decidableGatesPass (period : UInt64) :
    (last : UInt64) → (nows : List UInt64) → Decidable (GatesPass period last nows)
  | _, [] => inferInstanceAs (Decidable True)
  | _, nowNs :: rest =>
      have := decidableGatesPass period nowNs rest
      inferInstanceAs (Decidable (_ ∧ _))

theorem polls_swept (nows : List UInt64) : ∀ e : MeterEngine, 0 < e.nextSub →
    e.nextSub ≤ e.tableSize → GatesPass e.cfg.sweepPeriodNs e.lastSweepNs nows →
    ∃ h' e', exec step e (nows.map .poll) = .ok (h', e') ∧ Sweep e (examinedIn h') e' ∧
      (examinedIn h').length = nows.length * e.chunk := by
  induction nows with
  | nil =>
      intro e hpos _ _
      exact ⟨[], e, rfl, .refl hpos, (Nat.zero_mul _).symm⟩
  | cons nowNs rest ih =>
      intro e hpos hle hgates
      obtain ⟨e₁, ems, hpoll, hs, hlen, hlast⟩ := poll_swept hpos hle hgates.1
      have hsize : e₁.tableSize = e.tableSize := by rw [tableSize, tableSize, hs.cfg_eq]
      have hchunk : e₁.chunk = e.chunk := by rw [chunk, chunk, hs.cfg_eq, hs.next_eq]
      obtain ⟨h', e', hexec, hs', hlen'⟩ := ih e₁ (by rw [hs.next_eq]; exact hpos)
        (by rw [hs.next_eq, hsize]; exact hle) (by rw [hs.cfg_eq, hlast]; exact hgates.2)
      have hstep : e.step (.poll nowNs) = .ok (e₁, { emissions := ems }) := by
        rw [step, hpoll]
        rfl
      refine ⟨⟨e, .poll nowNs, { emissions := ems }, e₁⟩ :: h', e', ?_, ?_, ?_⟩
      · rw [List.map_cons, exec, hstep]
        dsimp only
        rw [hexec]
      · exact hs.trans hpos hs'
      · have hsplit : (examinedIn (⟨e, .poll nowNs, { emissions := ems }, e₁⟩ :: h')).length =
            (e.swept nowNs).length + (examinedIn h').length := List.length_append
        rw [hsplit, hlen, hlen', hchunk, List.length_cons, Nat.succ_mul, Nat.add_comm]

end Sweeps

section Coverage

/-- Slices that are rounded down cover the whole exactly if nothing is lost by rounding. -/
theorem slices_cover_iff {live slices : Nat} (hpos : 0 < slices) :
    live ≤ slices * max 1 (live / max 1 slices) ↔ live < slices ∨ slices ∣ live := by
  rw [Nat.max_eq_right hpos]
  rcases Nat.lt_or_ge live slices with hlt | hge
  · rw [Nat.div_eq_of_lt hlt, Nat.max_eq_left (Nat.zero_le 1), Nat.mul_one]
    exact ⟨fun _ => .inl hlt, fun _ => hlt.le⟩
  · have hone : 1 ≤ live / slices := Nat.div_pos hge hpos
    have hdiv := Nat.div_add_mod live slices
    rw [Nat.max_eq_right hone, Nat.dvd_iff_mod_eq_zero]
    omega

/-- **A full sweep.**  `sweep_fraction` calls of `poll` that pass the gate look at every
subscriber exactly if there are fewer subscribers than slices or the slices divide them
evenly.  Then no active subscriber is left at or above the volume threshold. -/
theorem full_sweep_iff (hrun : Reaches cfg sink h e) (hsome : 0 < e.nextSub)
    (hslices : 1 ≤ e.cfg.sweepFraction.toNat) (nows : List UInt64)
    (hlen : nows.length = e.cfg.sweepFraction.toNat)
    (hgates : GatesPass e.cfg.sweepPeriodNs e.lastSweepNs nows) :
    ∃ h' e', exec step e (nows.map .poll) = .ok (h', e') ∧
      ((∀ idx, idx < e.nextSub → idx ∈ examinedIn h') ↔
        e.nextSub < e.cfg.sweepFraction.toNat ∨ e.cfg.sweepFraction.toNat ∣ e.nextSub) ∧
      ((∀ idx, idx < e.nextSub → idx ∈ examinedIn h') → ∀ idx,
        (e'.info idx).active = true → e.cfg.volumeThresholdBytes ≠ 0 →
          pendingBytes (e'.counters idx) (e'.info idx) < e.cfg.volumeThresholdBytes) := by
  have hi := reaches_indexed hrun
  obtain ⟨h', e', hexec, hs, hcount⟩ := polls_swept nows e hsome hi.next_le hgates
  refine ⟨h', e', hexec, ?_, ?_⟩
  · rw [hs.slots_eq, walks_cover_iff (sweepSlot_lt hsome), hcount, hlen]
    exact slices_cover_iff hslices
  · intro hall idx
    rw [hs.counters_eq]
    by_cases hidx : idx < e.nextSub
    · exact hs.under idx (hall idx hidx)
    · refine hs.kept idx ?_
      intro hactive
      rw [hi.fresh idx (Nat.le_of_not_lt hidx)] at hactive
      cases hactive

/-- Two slices, and a threshold of five bytes. -/
def twoSlices : MeterConfig :=
  { smallConfig with sweepFraction := 2, volumeThresholdBytes := 5 }

/-- `n` subscribers with ten bytes each. -/
def tenBytesEach (n : Nat) : List MeterOp :=
  (List.range n).flatMap fun i =>
    [.install { imsi := UInt64.ofNat (i + 1), ulTeid := UInt32.ofNat (i + 1) } 0,
      .apply { teid := UInt32.ofNat (i + 1), bytes := 10 }]

/-- Two subscribers in two slices. -/
theorem full_sweep_iff_even :
    ∃ h e h' e', Reaches twoSlices noSink h e ∧
      exec step e ([100000000, 200000000].map .poll) = .ok (h', e') ∧
      pendingBytes (e.counters 1) (e.info 1) = 10 ∧ (e'.info 1).active = true ∧
      pendingBytes (e'.counters 1) (e'.info 1) < 5 := by
  have hex : execCheck step (init twoSlices noSink) (tenBytesEach 2)
      (fun _ e => decide (e.nextSub = 2 ∧ e.cfg.sweepFraction = 2 ∧
          e.cfg.volumeThresholdBytes = 5 ∧
          pendingBytes (e.counters 1) (e.info 1) = 10 ∧
          GatesPass e.cfg.sweepPeriodNs e.lastSweepNs [100000000, 200000000]) &&
        execCheck step e ([100000000, 200000000].map .poll)
          (fun _ e' => (e'.info 1).active)) = true := by
    decide +kernel
  obtain ⟨h, e, hrun, hcheck⟩ := Run.of_execCheck hex
  rw [Bool.and_eq_true, decide_eq_true_eq] at hcheck
  obtain ⟨⟨hnext, hfraction, hthreshold, hbytes, hgates⟩, hpolls⟩ := hcheck
  have hslices : e.cfg.sweepFraction.toNat = 2 := by rw [hfraction]; rfl
  obtain ⟨h', e', hexec, hcover, hunder⟩ :=
    full_sweep_iff hrun (by omega) (by omega) [100000000, 200000000] hslices.symm hgates
  obtain ⟨r, hr, hactive⟩ := returnsWith_iff.mp hpolls
  obtain rfl : r = (h', e') := Except.ok.inj (hr.symm.trans hexec)
  refine ⟨h, e, h', e', hrun, hexec, hbytes, hactive, ?_⟩
  have hbelow := hunder (hcover.mpr (.inr (by rw [hslices, hnext]))) 1 hactive
    (by rw [hthreshold]; decide)
  rwa [hthreshold] at hbelow

/-- Three subscribers in two slices: a slice is one subscriber, and the third is not looked
at although it has reached the threshold. -/
theorem third_subscriber_not_swept :
    ∃ h e h' e', Reaches twoSlices noSink h e ∧ e.cfg.sweepFraction = 2 ∧ e.nextSub = 3 ∧
      GatesPass e.cfg.sweepPeriodNs e.lastSweepNs [100000000, 200000000] ∧
      exec step e ([100000000, 200000000].map .poll) = .ok (h', e') ∧
      examinedIn h' = [0, 1] ∧ (e'.info 2).active = true ∧
      e.cfg.volumeThresholdBytes = 5 ∧ pendingBytes (e'.counters 2) (e'.info 2) = 10 := by
  have hex : execCheck step (init twoSlices noSink) (tenBytesEach 3)
      (fun _ e => decide (e.cfg.sweepFraction = 2 ∧ e.nextSub = 3 ∧
          GatesPass e.cfg.sweepPeriodNs e.lastSweepNs [100000000, 200000000] ∧
          e.cfg.volumeThresholdBytes = 5) &&
        execCheck step e ([100000000, 200000000].map .poll)
          (fun h' e' => decide (examinedIn h' = [0, 1] ∧ (e'.info 2).active = true ∧
            pendingBytes (e'.counters 2) (e'.info 2) = 10))) = true := by
    decide +kernel
  obtain ⟨h, e, hrun, hcheck⟩ := Run.of_execCheck hex
  rw [Bool.and_eq_true, decide_eq_true_eq] at hcheck
  obtain ⟨⟨hfraction, hnext, hgates, hthreshold⟩, hpolls⟩ := hcheck
  obtain ⟨⟨h', e'⟩, hexec, hafter⟩ := returnsWith_iff.mp hpolls
  obtain ⟨hexamined, hactive, hbytes⟩ := of_decide_eq_true hafter
  exact ⟨h, e, h', e', hrun, hfraction, hnext, hgates, hexec, hexamined, hactive, hthreshold,
    hbytes⟩

end Coverage

end MeterEngine
end GtpMeter
