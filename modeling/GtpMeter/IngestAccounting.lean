import GtpMeter.DiameterSegments
import GtpMeter.FrameVerdict
import GtpMeter.SpscFifo

/-!
# Every frame is accounted for

The counters of the ingest thread over any sequence of frames.  They are 64-bit words,
so that each identity is one of 64-bit words.  What the rings have accepted is known from
their own history, in which the consumers pop as often as they like between two pushes.

**Results.**
* `processDiameter_preserves`: an invariant rule for the Diameter path.
* `balanced_carryOut`: the counters after one frame.
* `meterServed_carryOut`, `gyServed_carryOut`: the rings after one frame.
* `every_frame_accounted`: the same after any sequence of frames.
-/

namespace GtpMeter
namespace Ingest

open Runs SharedRing

section DiameterPath

variable {ing ing' : Ingest} {tsNs : UInt64} {payload : Span} {outcome : FrameOutcome}

/-- One more buffer that was not understood. -/
def countDiameterError (ing : Ingest) : Ingest :=
  { ing with stats.diameterParseErrors := ing.stats.diameterParseErrors + 1 }

/-- What the Diameter path is made of keeps `I`. -/
structure DiameterKeeps (I : Ingest → Prop) : Prop where
  push : ∀ ing ev, I ing → I (ing.pushGy ev).1
  message : ∀ ing, I ing → I (ing.countMessages 1)
  error : ∀ ing, I ing → I ing.countDiameterError

variable {I : Ingest → Prop}

theorem emitGyLoop_preserves (hI : DiameterKeeps I) {gy : GyMessage} {left i : Nat}
    {any any' : Bool} (h : I ing) (hrun : emitGyLoop gy tsNs left i ing any = .ok (ing', any')) :
    I ing' := by
  induction left generalizing i ing any with
  | zero =>
      cases hrun
      exact h
  | succ left ih =>
      rw [emitGyLoop] at hrun
      obtain ⟨ev, -, hrest⟩ := bind_eq_ok.mp hrun
      exact ih (hI.push _ _ h) hrest

theorem countDiameter_preserves (hI : DiameterKeeps I) {hdr : DiameterHeader} {gy : GyMessage}
    {produced produced' : Bool} (h : I ing)
    (hrun : ing.countDiameter hdr gy tsNs produced = .ok (ing', produced')) : I ing' := by
  have hcount : I { ing with stats.diameterMessages := ing.stats.diameterMessages + 1 } :=
    hI.message _ h
  rw [countDiameter] at hrun
  by_cases hcc : hdr.isCreditControl
  · rw [if_pos hcc] at hrun
    obtain ⟨⟨ing₁, any⟩, hemit, hrest⟩ := bind_eq_ok.mp hrun
    cases hrest
    exact emitGyLoop_preserves hI hcount hemit
  · rw [if_neg hcc] at hrun
    cases hrun
    exact hcount

/-- The outcomes of the Diameter path. -/
def OfDiameter (outcome : FrameOutcome) : Prop :=
  outcome = .gyControl ∨ outcome = .notOurTraffic ∨ outcome = .parseError

theorem ofDiameter_outcome {produced : Bool} {otherwise : FrameOutcome}
    (h : otherwise = .notOurTraffic ∨ otherwise = .parseError) :
    OfDiameter (diameterOutcome produced otherwise) := by
  cases produced with
  | false => exact .inr h
  | true => exact .inl rfl

/-- By the recursion of the loop over messages. -/
theorem diameterLoop_preserves (hI : DiameterKeeps I) {offset : Nat} {produced : Bool}
    (h : I ing) (hrun : diameterLoop payload tsNs offset ing produced = .ok (ing', outcome)) :
    I ing' ∧ OfDiameter outcome := by
  induction offset, ing, produced using diameterLoop.induct payload with
  | case1 offset ing produced hmore ih =>
      rw [diameterLoop, if_pos hmore] at hrun
      obtain ⟨rest, -, hrun⟩ := bind_eq_ok.mp hrun
      obtain ⟨⟨st, hdr, gy⟩, -, hrun⟩ := bind_eq_ok.mp hrun
      dsimp only at hrun
      by_cases hst : st ≠ .ok
      · rw [if_pos hst] at hrun
        cases hrun
        exact ⟨hI.error _ h, ofDiameter_outcome (.inr rfl)⟩
      rw [if_neg hst] at hrun
      obtain ⟨⟨ing₁, produced₁⟩, hcount, hrun⟩ := bind_eq_ok.mp hrun
      have h₁ := countDiameter_preserves hI h hcount
      dsimp only at hrun
      by_cases hzero : hdr.msgLength = 0
      · rw [if_pos hzero] at hrun
        cases hrun
        exact ⟨h₁, ofDiameter_outcome (.inl rfl)⟩
      · rw [if_neg hzero] at hrun
        exact ih hdr ing₁ produced₁ hzero h₁ hrun
  | case2 offset ing produced hend =>
      rw [diameterLoop, if_neg hend] at hrun
      cases hrun
      exact ⟨h, ofDiameter_outcome (.inl rfl)⟩

/-- What pushes and counts of the Diameter path keep, the path keeps. -/
theorem processDiameter_preserves (hI : DiameterKeeps I) (h : I ing)
    (hrun : ing.processDiameter payload tsNs = .ok (ing', outcome)) :
    I ing' ∧ OfDiameter outcome := by
  rw [processDiameter] at hrun
  by_cases hempty : payload.size = 0
  · rw [if_pos hempty] at hrun
    cases hrun
    exact ⟨h, .inr (.inl rfl)⟩
  · rw [if_neg hempty] at hrun
    exact diameterLoop_preserves hI h hrun

/-- The part of the thread that the Diameter path does not touch. -/
def meterSide (ing : Ingest) : Ingest :=
  { ing with
    gyRing := none
    gyPushes := 0
    stats.diameterMessages := 0
    stats.diameterParseErrors := 0
    stats.gyEvents := 0
    stats.gyEventsDropped := 0 }

theorem processDiameter_meterSide (hrun : ing.processDiameter payload tsNs = .ok (ing', outcome)) :
    ing'.meterSide = ing.meterSide ∧ OfDiameter outcome := by
  have hkeeps : DiameterKeeps (fun x => x.meterSide = ing.meterSide) := by
    refine ⟨?_, ?_, ?_⟩
    · intro x ev hx
      rw [← hx, pushGy_eq]
      rfl
    · intro x hx
      exact hx
    · intro x hx
      exact hx
  exact processDiameter_preserves (I := fun x => x.meterSide = ing.meterSide) hkeeps rfl hrun

end DiameterPath

section Counters

/-- The identities of the counters, after `calls` calls of the Diameter path and `drops`
drops. -/
structure Balanced (s : IngestStats) (calls drops : Nat) : Prop where
  frames : s.frames = s.nonIp + s.notGtpuPort + s.gtpuParseErrors + s.gtpuGpdus +
    s.gtpuControl + UInt64.ofNat calls
  events : s.eventsPushed + s.eventsDropped = s.gtpuGpdus + s.gtpuControl
  dropped : s.eventsDropped = UInt64.ofNat drops

variable {ing ing' : Ingest} {tsNs : UInt64} {wireBytes : UInt16} {outcome : FrameOutcome}
  {calls drops : Nat}

/-- The push that ends a frame is counted one way or the other. -/
theorem balanced_finish {ev : MeterEvent} {o : FrameOutcome}
    (hrun : ing.finish ev o = (ing', outcome)) (ho : o ≠ .dropped)
    (hframes : ing.stats.frames = ing.stats.nonIp + ing.stats.notGtpuPort +
      ing.stats.gtpuParseErrors + ing.stats.gtpuGpdus + ing.stats.gtpuControl +
      UInt64.ofNat calls)
    (hevents : ing.stats.eventsPushed + ing.stats.eventsDropped + 1 =
      ing.stats.gtpuGpdus + ing.stats.gtpuControl)
    (hdropped : ing.stats.eventsDropped = UInt64.ofNat drops) :
    Balanced ing'.stats calls (drops + if outcome = .dropped then 1 else 0) := by
  rw [finish, pushEvent_eq] at hrun
  obtain ⟨rfl, rfl⟩ := Prod.mk.inj hrun
  cases ing.meterTakes ev with
  | false =>
      refine ⟨hframes, ?_, ?_⟩
      · simp only [Bool.false_eq_true, if_false]
        grind
      · simp only [Bool.false_eq_true, if_false, if_true, UInt64.ofNat_add, hdropped]
        rfl
  | true =>
      refine ⟨hframes, ?_, ?_⟩
      · simp only [if_true]
        grind
      · simp only [if_true, ho, if_false, Nat.add_zero, hdropped, UInt64.add_zero]

/-- The counters after one frame. -/
theorem balanced_carryOut {v : FrameVerdict} {size : Nat} (h : Balanced ing.stats calls drops)
    (hrun : (ing.countFrame size).carryOut tsNs wireBytes v = .ok (ing', outcome)) :
    Balanced ing'.stats (calls + if v.isDiameter then 1 else 0)
      (drops + if outcome = .dropped then 1 else 0) := by
  obtain ⟨hframes, hevents, hdropped⟩ := h
  cases v with
  | nonIp =>
      cases hrun
      refine ⟨?_, hevents, hdropped⟩
      simp only [countNonIp, countFrame, FrameVerdict.isDiameter]
      grind
  | otherPort =>
      cases hrun
      refine ⟨?_, hevents, hdropped⟩
      simp only [countOtherPort, countFrame, FrameVerdict.isDiameter]
      grind
  | rejected st =>
      cases hrun
      refine ⟨?_, hevents, hdropped⟩
      simp only [countRejected, countFrame, FrameVerdict.isDiameter]
      grind
  | control h =>
      refine balanced_finish (carryOut_control hrun) (by decide) ?_ ?_ hdropped
      · simp only [countControl, countFrame, FrameVerdict.isDiameter]
        grind
      · simp only [countControl, countFrame]
        grind
  | gpdu h inner =>
      refine balanced_finish (carryOut_gpdu hrun) (by decide) ?_ ?_ hdropped
      · simp only [countGpdu, countFrame, FrameVerdict.isDiameter]
        grind
      · simp only [countGpdu, countFrame]
        grind
  | diameter payload =>
      obtain ⟨hside, houtcome⟩ := processDiameter_meterSide hrun
      have hnot : outcome ≠ .dropped := by
        rcases houtcome with rfl | rfl | rfl <;> decide
      -- every field in the identities is a field of the side that is not touched
      have hstats := congrArg Ingest.stats hside
      simp only [meterSide, countFrame, IngestStats.mk.injEq] at hstats
      refine ⟨?_, ?_, ?_⟩
      · simp only [FrameVerdict.isDiameter, if_true, UInt64.ofNat_add]
        grind
      · grind
      · simp only [hnot, if_false, Nat.add_zero]
        grind

end Counters

section Rings

variable {ing ing' : Ingest} {tsNs : UInt64} {wireBytes : UInt16} {outcome : FrameOutcome}

/-- The meter ring has come from `q₀` and accepted these events. -/
def MeterServed (q₀ : SpscRing MeterEvent) (evs : List MeterEvent) (ing : Ingest) : Prop :=
  ∃ q, ing.meterRing = some q ∧ Served q₀ q evs

/-- The Gy ring has come from `q₀`, and every Gy event was accepted there or dropped. -/
def GyServed (q₀ : SpscRing GyEvent) (ing : Ingest) : Prop :=
  ∃ q evs, ing.gyRing = some q ∧ Served q₀ q evs ∧
    ing.stats.gyEvents = UInt64.ofNat evs.length + ing.stats.gyEventsDropped

theorem meterServed_pushEvent {q₀ : SpscRing MeterEvent} {evs : List MeterEvent}
    (h : MeterServed q₀ evs ing) (ev : MeterEvent) :
    MeterServed q₀ (evs ++ if ing.meterTakes ev then [ev] else []) (ing.pushEvent ev).1 := by
  obtain ⟨q, hring, hq⟩ := h
  have hpush := (hq.popTimes (ing.meterPops ing.meterPushes)).push ev
  rw [pushEvent_eq, meterTakes, hring]
  exact ⟨_, rfl, hpush⟩

theorem gyServed_pushGy {q₀ : SpscRing GyEvent} (h : GyServed q₀ ing) (ev : GyEvent) :
    GyServed q₀ (ing.pushGy ev).1 := by
  obtain ⟨q, evs, hring, hq, hcount⟩ := h
  have hpush := (hq.popTimes (ing.gyPops ing.gyPushes)).push ev
  rw [pushGy_eq, gyTakes, hring]
  refine ⟨_, _, rfl, hpush, ?_⟩
  cases htaken : ((q.popTimes (ing.gyPops ing.gyPushes)).tryPush ev).2 with
  | false =>
      simp only [htaken, Bool.false_eq_true, if_false, List.append_nil]
      grind
  | true =>
      simp only [htaken, if_true, List.length_append, List.length_singleton, UInt64.ofNat_add]
      grind

theorem gyServed_keeps (q₀ : SpscRing GyEvent) : DiameterKeeps (GyServed q₀) where
  push := fun _ ev h => gyServed_pushGy h ev
  message := fun _ h => h
  error := fun _ h => h

/-- The events of a frame that the meter ring accepted. -/
def acceptedEvent (outcome : FrameOutcome) (ev : Option MeterEvent) : List MeterEvent :=
  if outcome = .metered ∨ outcome = .gtpuControl then ev.toList else []

theorem acceptedEvent_none (ev : Option MeterEvent) (ho : outcome ≠ .metered)
    (ho' : outcome ≠ .gtpuControl) : acceptedEvent outcome ev = [] := by
  simp [acceptedEvent, ho, ho']

theorem meterServed_finish {q₀ : SpscRing MeterEvent} {evs : List MeterEvent} {ev : MeterEvent}
    {o : FrameOutcome} (hrun : ing.finish ev o = (ing', outcome)) (h : MeterServed q₀ evs ing)
    (ho : o = .metered ∨ o = .gtpuControl) :
    MeterServed q₀ (evs ++ acceptedEvent outcome (some ev)) ing' := by
  have hpush := meterServed_pushEvent h ev
  rw [finish, show (ing.pushEvent ev).2 = ing.meterTakes ev by rw [pushEvent_eq]] at hrun
  obtain ⟨rfl, rfl⟩ := Prod.mk.inj hrun
  cases htakes : ing.meterTakes ev with
  | false => simpa [acceptedEvent, htakes] using hpush
  | true => simpa [acceptedEvent, htakes, ho] using hpush

theorem gyServed_finish {q₀ : SpscRing GyEvent} {ev : MeterEvent} {o : FrameOutcome}
    (hrun : ing.finish ev o = (ing', outcome)) (h : GyServed q₀ ing) : GyServed q₀ ing' := by
  rw [finish, pushEvent_eq] at hrun
  obtain ⟨rfl, -⟩ := Prod.mk.inj hrun
  exact h

/-- The meter ring after one frame. -/
theorem meterServed_carryOut {v : FrameVerdict} {size : Nat} {q₀ : SpscRing MeterEvent}
    {evs : List MeterEvent} (h : MeterServed q₀ evs ing)
    (hrun : (ing.countFrame size).carryOut tsNs wireBytes v = .ok (ing', outcome)) :
    MeterServed q₀ (evs ++ acceptedEvent outcome (v.event ing.cfg tsNs wireBytes)) ing' := by
  cases v with
  | nonIp | otherPort | rejected st =>
      cases hrun
      rw [acceptedEvent_none _ (by decide) (by decide), List.append_nil]
      exact h
  | control hdr =>
      have hfinish := carryOut_control hrun
      exact meterServed_finish hfinish h (.inr rfl)
  | gpdu hdr inner =>
      have hfinish := carryOut_gpdu hrun
      exact meterServed_finish hfinish h (.inl rfl)
  | diameter payload =>
      obtain ⟨hside, houtcome⟩ := processDiameter_meterSide hrun
      have hring := congrArg Ingest.meterRing hside
      obtain ⟨q, hq, hserved⟩ := h
      have hnone : acceptedEvent outcome
          ((FrameVerdict.diameter payload).event ing.cfg tsNs wireBytes) = [] := by
        rcases houtcome with rfl | rfl | rfl <;> exact acceptedEvent_none _ (by decide) (by decide)
      rw [hnone, List.append_nil]
      exact ⟨q, Eq.trans hring hq, hserved⟩

/-- The Gy ring after one frame. -/
theorem gyServed_carryOut {v : FrameVerdict} {size : Nat} {q₀ : SpscRing GyEvent}
    (h : GyServed q₀ ing)
    (hrun : (ing.countFrame size).carryOut tsNs wireBytes v = .ok (ing', outcome)) :
    GyServed q₀ ing' := by
  cases v with
  | nonIp | otherPort | rejected st =>
      cases hrun
      exact h
  | control hdr => exact gyServed_finish (carryOut_control hrun) h
  | gpdu hdr inner => exact gyServed_finish (carryOut_gpdu hrun) h
  | diameter payload =>
      have hpath : (ing.countFrame size).processDiameter payload tsNs = .ok (ing', outcome) := hrun
      have hframe : GyServed q₀ (ing.countFrame size) := h
      exact (processDiameter_preserves (gyServed_keeps q₀) hframe hpath).1

end Rings

section Sequences

/-- A call of `process_frame`: the bytes and the time. -/
abbrev FrameOp := List UInt8 × UInt64

def frameStep (ing : Ingest) (op : FrameOp) : Except OutOfBounds (Ingest × FrameOutcome) :=
  ing.processFrame (.whole op.1) op.2

abbrev FrameTrace := List (Transition Ingest FrameOp FrameOutcome)

/-- The call went on to `process_diameter`. -/
def routedToDiameter (tr : Transition Ingest FrameOp FrameOutcome) : Bool :=
  returnsWith (frameVerdict tr.pre.cfg (.whole tr.op.1)) FrameVerdict.isDiameter

/-- The event that was built for the frame. -/
def builtEvent (tr : Transition Ingest FrameOp FrameOutcome) : Option MeterEvent :=
  match frameVerdict tr.pre.cfg (.whole tr.op.1) with
  | .ok v => v.event tr.pre.cfg tr.op.2 (UInt16.ofNat tr.op.1.length)
  | .error _ => none

/-- The events of the frames that were metered or counted as control, in order. -/
def chargedEvents (h : FrameTrace) : List MeterEvent :=
  h.flatMap (fun tr => acceptedEvent tr.out (builtEvent tr))

def droppedFrames (h : FrameTrace) : Nat :=
  h.countP (fun tr => tr.out = .dropped)

variable {ing₀ ing ing' : Ingest} {op : FrameOp} {outcome : FrameOutcome} {h : FrameTrace}

/-- A call is its verdict, carried out. -/
theorem frameStep_verdict (hs : ing.frameStep op = .ok (ing', outcome)) :
    ∃ v, frameVerdict ing.cfg (.whole op.1) = .ok v ∧
      (ing.countFrame op.1.length).carryOut op.2 (UInt16.ofNat op.1.length) v =
        .ok (ing', outcome) := by
  rw [frameStep, processFrame_eq] at hs
  exact bind_eq_ok.mp hs

/-- A frame that was metered or counted as control has an event. -/
theorem carryOut_event {v : FrameVerdict} {tsNs : UInt64} {wireBytes : UInt16}
    (hrun : ing.carryOut tsNs wireBytes v = .ok (ing', outcome))
    (ho : outcome = .metered ∨ outcome = .gtpuControl) :
    (v.event ing.cfg tsNs wireBytes).isSome = true := by
  cases v with
  | control hdr => rfl
  | gpdu hdr inner => rfl
  | nonIp | otherPort | rejected st =>
      cases hrun
      simp at ho
  | diameter payload =>
      obtain ⟨-, houtcome⟩ := processDiameter_meterSide hrun
      rcases houtcome with rfl | rfl | rfl <;> simp at ho

/-- **Every ingested frame is accounted for.**  After any sequence of frames, from fresh
counters, with any rings and any pattern of pops:
* the counters add up, and the drops are the frames that came back as dropped;
* the meter ring has accepted, in order, the events of the frames that came back as
  metered or control, each of which has one;
* every Gy event was accepted by the Gy ring or counted as dropped. -/
theorem every_frame_accounted (hfresh : ing₀.stats = {}) (hrun : Run frameStep ing₀ h ing) :
    Balanced ing.stats (h.countP routedToDiameter) (droppedFrames h) ∧
    (∀ tr ∈ h, tr.out = .metered ∨ tr.out = .gtpuControl → (builtEvent tr).isSome = true) ∧
    (∀ q₀, ing₀.meterRing = some q₀ → MeterServed q₀ (chargedEvents h) ing) ∧
    (∀ q₀, ing₀.gyRing = some q₀ → GyServed q₀ ing) := by
  induction hrun with
  | nil =>
      refine ⟨?_, by simp, ?_, ?_⟩
      · rw [hfresh]
        exact ⟨rfl, rfl, rfl⟩
      · intro q₀ hq
        exact ⟨q₀, hq, Served.refl q₀⟩
      · intro q₀ hq
        refine ⟨q₀, [], hq, Served.refl q₀, ?_⟩
        rw [hfresh]
        rfl
  | @snoc h ing ing' op outcome _ hs ih =>
      obtain ⟨hbalanced, hevents, hmeter, hgy⟩ := ih
      obtain ⟨v, hv, hcarry⟩ := frameStep_verdict hs
      have hrouted : routedToDiameter ⟨ing, op, outcome, ing'⟩ = v.isDiameter := by
        rw [routedToDiameter, hv]
        rfl
      have hbuilt : builtEvent ⟨ing, op, outcome, ing'⟩ =
          v.event ing.cfg op.2 (UInt16.ofNat op.1.length) := by
        rw [builtEvent, hv]
      refine ⟨?_, ?_, ?_, ?_⟩
      · have hstep := balanced_carryOut hbalanced hcarry
        rw [droppedFrames, List.countP_append, List.countP_append, List.countP_singleton,
          List.countP_singleton, hrouted]
        simpa [droppedFrames] using hstep
      · intro tr htr ho
        rcases List.mem_append.mp htr with hold | hnew
        · exact hevents tr hold ho
        · obtain rfl := List.mem_singleton.mp hnew
          have hsome := carryOut_event hcarry ho
          rw [hbuilt]
          exact hsome
      · intro q₀ hq
        have hstep := meterServed_carryOut (hmeter q₀ hq) hcarry
        rw [chargedEvents, List.flatMap_append, List.flatMap_singleton, hbuilt]
        exact hstep
      · intro q₀ hq
        exact gyServed_carryOut (hgy q₀ hq) hcarry

/-- Three G-PDUs onto a ring of two, and a frame that is too short. -/
theorem every_frame_accounted_full_ring :
    ∃ (h : FrameTrace) (ing : Ingest),
      Run frameStep { meterRing := some (.init 2), gyRing := some (.init 2) } h ing ∧
      h.map Transition.out = [.metered, .metered, .dropped, .notOurTraffic] ∧
      Balanced ing.stats (h.countP routedToDiameter) (droppedFrames h) ∧
      MeterServed (.init 2) (chargedEvents h) ing ∧ GyServed (.init 2) ing := by
  have hex : execCheck frameStep { meterRing := some (.init 2), gyRing := some (.init 2) }
      [(uplinkFrame, 1), (uplinkFrame, 2), (uplinkFrame, 3), ([0], 4)]
      (fun h _ => decide
        (h.map Transition.out = [.metered, .metered, .dropped, .notOurTraffic])) = true := by
    decide +kernel
  obtain ⟨h, ing, hrun, hcheck⟩ := Run.of_execCheck hex
  obtain ⟨hbalanced, -, hmeter, hgy⟩ := every_frame_accounted rfl hrun
  exact ⟨h, ing, hrun, of_decide_eq_true hcheck, hbalanced, hmeter _ rfl, hgy _ rfl⟩

end Sequences
end Ingest
end GtpMeter
