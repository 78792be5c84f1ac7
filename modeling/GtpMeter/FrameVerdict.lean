import GtpMeter.IngestBounds

/-!
# What a frame comes to

`process_frame` decides what a frame is and at the same time counts and pushes.  The
decision depends on the configuration and the bytes alone: it is a `FrameVerdict`.
`carryOut` is what the thread then does to its counters and rings.

**Results.**
* `processGtpu_eq`, `processIp_eq`, `processFrame_eq`: the entry points are the verdict,
  carried out.
* `frameVerdict_returns`: there is a verdict on all bytes.
-/

namespace GtpMeter

/-- What a frame turns out to be. -/
inductive FrameVerdict where
  | nonIp
  | otherPort
  /-- On the GTP-U port, but no PDU. -/
  | rejected (st : GtpuStatus)
  /-- A PDU that is not a G-PDU. -/
  | control (h : GtpuHeader)
  /-- A G-PDU and the packet inside it, which need not be valid. -/
  | gpdu (h : GtpuHeader) (inner : IpPacket)
  /-- On the Diameter port, with this payload. -/
  | diameter (payload : Span)

/-- The frame goes to `process_diameter`. -/
def FrameVerdict.isDiameter : FrameVerdict → Bool
  | .diameter _ => true
  | _ => false

section Events

variable (cfg : IngestConfig) (h : GtpuHeader) (inner : IpPacket) (tsNs : UInt64)
  (wireBytes : UInt16)

/-- The event of a PDU that is not a G-PDU. -/
def controlEvent : MeterEvent :=
  let ev := Ingest.headerEvent cfg h tsNs wireBytes
  { ev with flags := ev.flags ||| MeterEvent.kFlagControlPdu, bytes := 0 }

/-- The event of a G-PDU. -/
def gpduEvent : MeterEvent :=
  let ev := Ingest.headerEvent cfg h tsNs wireBytes
  if inner.valid then Ingest.innerEvent cfg ev inner h.payload.size
  else { ev with bytes := UInt32.ofNat h.payload.size }

/-- The meter event that a frame is charged with, if any. -/
def FrameVerdict.event : FrameVerdict → Option MeterEvent
  | .control h => some (controlEvent cfg h tsNs wireBytes)
  | .gpdu h inner => some (gpduEvent cfg h inner tsNs wireBytes)
  | _ => none

/-- The two verdicts that have an event. -/
theorem FrameVerdict.event_cases {cfg : IngestConfig} {tsNs : UInt64} {wireBytes : UInt16}
    {v : FrameVerdict} {ev : MeterEvent} (hev : v.event cfg tsNs wireBytes = some ev) :
    (∃ h, v = .control h ∧ ev = controlEvent cfg h tsNs wireBytes) ∨
      ∃ h inner, v = .gpdu h inner ∧ ev = gpduEvent cfg h inner tsNs wireBytes := by
  cases v with
  | control h => exact .inl ⟨h, rfl, (Option.some.inj hev).symm⟩
  | gpdu h inner => exact .inr ⟨h, inner, rfl, (Option.some.inj hev).symm⟩
  | nonIp | otherPort | rejected st | diameter payload => cases hev

end Events

section Decision

/-- The verdict on the UDP payload of a GTP-U packet. -/
def gtpuVerdict (pdu : Span) : Except OutOfBounds FrameVerdict := do
  let (st, h) ← parseGtpu pdu
  if st ≠ .ok then .ok (.rejected st)
  else if !h.isGpdu then .ok (.control h)
  else do
    let inner ← parseIp h.payload
    .ok (.gpdu h inner)

/-- The verdict on a packet. -/
def ipVerdict (cfg : IngestConfig) (pkt : Span) : Except OutOfBounds FrameVerdict := do
  let outer ← parseIp pkt
  let t := outer.tuple
  if !outer.valid then .ok .nonIp
  else if t.proto = IpProto.udp.code ∧
      (t.dstPort = cfg.gtpuPort ∨ t.srcPort = cfg.gtpuPort) then
    gtpuVerdict outer.l4Payload
  else if cfg.parseDiameter ∧
      (t.proto = IpProto.tcp.code ∨ t.proto = IpProto.sctp.code) ∧
      (t.dstPort = cfg.diameterPort ∨ t.srcPort = cfg.diameterPort) then
    .ok (.diameter outer.l4Payload)
  else .ok .otherPort

/-- The verdict on a frame. -/
def frameVerdict (cfg : IngestConfig) (frame : Span) : Except OutOfBounds FrameVerdict := do
  let eth ← parseEthernet frame
  if !eth.valid then .ok .nonIp else ipVerdict cfg eth.payload

end Decision

namespace Ingest

section Effect

variable (ing : Ingest)

/-- The counts of a frame that arrives. -/
def countFrame (size : Nat) : Ingest :=
  { ing with
    stats.frames := ing.stats.frames + 1
    stats.framesBytes := ing.stats.framesBytes + UInt64.ofNat size }

def countNonIp : Ingest :=
  { ing with stats.nonIp := ing.stats.nonIp + 1 }

def countOtherPort : Ingest :=
  { ing with stats.notGtpuPort := ing.stats.notGtpuPort + 1 }

def countRejected (st : GtpuStatus) : Ingest :=
  { ing with
    stats.gtpuParseErrors := ing.stats.gtpuParseErrors + 1
    stats.truncatedFrames := ing.stats.truncatedFrames + if st = .truncated then 1 else 0 }

def countControl : Ingest :=
  { ing with stats.gtpuControl := ing.stats.gtpuControl + 1 }

def countGpdu (inner : IpPacket) : Ingest :=
  { ing with
    stats.gtpuGpdus := ing.stats.gtpuGpdus + 1
    stats.innerParseErrors := ing.stats.innerParseErrors + if inner.valid then 0 else 1 }

/-- What the thread does about a verdict. -/
def carryOut (tsNs : UInt64) (wireBytes : UInt16) :
    FrameVerdict → Except OutOfBounds (Ingest × FrameOutcome)
  | .nonIp => .ok (ing.countNonIp, .notOurTraffic)
  | .otherPort => .ok (ing.countOtherPort, .notOurTraffic)
  | .rejected st => .ok (ing.countRejected st, .parseError)
  | .control h =>
      .ok (ing.countControl.finish (controlEvent ing.cfg h tsNs wireBytes) .gtpuControl)
  | .gpdu h inner =>
      .ok ((ing.countGpdu inner).finish (gpduEvent ing.cfg h inner tsNs wireBytes) .metered)
  | .diameter payload => ing.processDiameter payload tsNs

end Effect

section Equations

variable {ing ing' : Ingest} {tsNs : UInt64} {wireBytes : UInt16} {outcome : FrameOutcome}

theorem carryOut_control {h : GtpuHeader}
    (hrun : ing.carryOut tsNs wireBytes (.control h) = .ok (ing', outcome)) :
    ing.countControl.finish (controlEvent ing.cfg h tsNs wireBytes) .gtpuControl =
      (ing', outcome) :=
  Except.ok.inj hrun

theorem carryOut_gpdu {h : GtpuHeader} {inner : IpPacket}
    (hrun : ing.carryOut tsNs wireBytes (.gpdu h inner) = .ok (ing', outcome)) :
    (ing.countGpdu inner).finish (gpduEvent ing.cfg h inner tsNs wireBytes) .metered =
      (ing', outcome) :=
  Except.ok.inj hrun

theorem meterGtpu_control {h : GtpuHeader} (hpdu : h.isGpdu = false) :
    ing.meterGtpu h tsNs wireBytes = ing.carryOut tsNs wireBytes (.control h) := by
  simp only [meterGtpu, hpdu, Bool.not_false, if_true]
  rfl

theorem meterGtpu_gpdu {h : GtpuHeader} (hpdu : h.isGpdu = true) :
    ing.meterGtpu h tsNs wireBytes =
      (parseIp h.payload >>= fun inner => ing.carryOut tsNs wireBytes (.gpdu h inner)) := by
  simp only [meterGtpu, hpdu, Bool.not_true, Bool.false_eq_true, if_false]
  congr 1
  funext inner
  cases hvalid : inner.valid with
  | true | false => simp [carryOut, countGpdu, gpduEvent, hvalid]

theorem processGtpu_eq (pdu : Span) :
    ing.processGtpu pdu tsNs wireBytes =
      (gtpuVerdict pdu >>= ing.carryOut tsNs wireBytes) := by
  rw [processGtpu, gtpuVerdict, bind_assoc]
  congr 1
  funext ⟨st, h⟩
  by_cases hst : st = .ok
  · cases hpdu : h.isGpdu with
    | false => simp [hst, hpdu, meterGtpu_control hpdu, bind, Except.bind]
    | true =>
        simp only [hst, hpdu, ne_eq, not_true_eq_false, if_false, Bool.not_true,
          Bool.false_eq_true, bind_assoc]
        exact meterGtpu_gpdu hpdu
  · by_cases htrunc : st = .truncated
    · simp [htrunc, carryOut, countRejected, bind, Except.bind]
    · simp [hst, htrunc, carryOut, countRejected, bind, Except.bind]

theorem processIp_eq (pkt : Span) :
    ing.processIp pkt tsNs wireBytes =
      (ipVerdict ing.cfg pkt >>= ing.carryOut tsNs wireBytes) := by
  rw [processIp, ipVerdict, bind_assoc]
  congr 1
  funext outer
  dsimp only
  split
  · rfl
  split
  · exact processGtpu_eq _
  split
  · rfl
  · rfl

theorem processFrame_eq (frame : Span) :
    ing.processFrame frame tsNs =
      (frameVerdict ing.cfg frame >>=
        (ing.countFrame frame.size).carryOut tsNs (UInt16.ofNat frame.size)) := by
  rw [processFrame, frameVerdict, bind_assoc]
  congr 1
  funext eth
  split
  · rfl
  · exact processIp_eq _

end Equations
end Ingest

section Totality

/-- The verdict on a GTP-U payload is one about a PDU. -/
theorem gtpuVerdict_returns (pdu : Span) :
    Returns (fun v => v ≠ .nonIp) (gtpuVerdict pdu) := by
  refine Returns.bind (parseGtpu_views (ViewOf.somewhere pdu)) (fun r hr => ?_)
  refine Returns.ite (fun _ => Returns.ok nofun) (fun _ => ?_)
  refine Returns.ite (fun _ => Returns.ok nofun) (fun _ => ?_)
  exact Returns.bind (parseIp_views hr) (fun _ _ => Returns.ok nofun)

theorem ipVerdict_returns (cfg : IngestConfig) (pkt : Span) :
    Returns (fun _ => True) (ipVerdict cfg pkt) := by
  refine Returns.bind (parseIp_views (ViewOf.somewhere pkt)) (fun outer _ => ?_)
  refine Returns.ite (fun _ => Returns.ok trivial) (fun _ => ?_)
  refine Returns.ite (fun _ => (gtpuVerdict_returns _).mono (fun _ _ => trivial)) (fun _ => ?_)
  exact Returns.ite (fun _ => Returns.ok trivial) (fun _ => Returns.ok trivial)

/-- There is a verdict on all bytes. -/
theorem frameVerdict_returns (cfg : IngestConfig) (frame : Span) :
    Returns (fun _ => True) (frameVerdict cfg frame) := by
  refine Returns.bind (parseEthernet_views (ViewOf.somewhere frame)) (fun eth _ => ?_)
  exact Returns.ite (fun _ => Returns.ok trivial) (fun _ => ipVerdict_returns cfg _)

end Totality
end GtpMeter
