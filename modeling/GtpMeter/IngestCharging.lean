import GtpMeter.IngestAccounting

/-!
# What a frame is charged, and what keeps a frame from being charged

Two checks that the ingest path leaves out.  The bytes of a G-PDU are charged by the
length that the inner packet declares, which is not compared with the bytes that are
there.  And a frame is taken for IP by the first nibble of what follows its Ethernet
header, whatever its EtherType.

**Results.**
* `charged_bytes_le_payload_iff`: when a charge stays within the payload.
* `frame_ignored_iff`: when a frame is counted as not IP.
-/

namespace GtpMeter

open Runs

section Charge

variable {pdu : Span} {tsNs : UInt64} {wireBytes : UInt16} {st : GtpuStatus} {h : GtpuHeader}

/-- The packet inside a G-PDU declares no more than the payload holds. -/
def DeclaresWithin (h : GtpuHeader) : Prop :=
  h.isGpdu = true → ∀ inner, parseIp h.payload = .ok inner → inner.valid = true →
    inner.ipTotalLen.toNat ≤ h.payload.size

theorem gpduEvent_bytes_le_iff {inner : IpPacket} {cfg : IngestConfig}
    (hcfg : cfg.meterInnerIpLength = true) :
    (gpduEvent cfg h inner tsNs wireBytes).bytes.toNat ≤ h.payload.size ↔
      (inner.valid = true → inner.ipTotalLen.toNat ≤ h.payload.size) := by
  rw [gpduEvent]
  cases hvalid : inner.valid with
  | false =>
      have hbytes : (UInt32.ofNat h.payload.size).toNat ≤ h.payload.size := Nat.mod_le _ _
      simpa using hbytes
  | true => simp [Ingest.innerEvent, hcfg]

/-- **What a PDU is charged.**  Under the default configuration a rejected PDU pushes
nothing, and the event of a PDU that parsed stays within the validated payload exactly
when the packet inside, if it is one, declares no more than that. -/
theorem charged_bytes_le_payload_iff (ing : Ingest) (tsNs : UInt64) (wireBytes : UInt16)
    (hcfg : ing.cfg = {}) (hparse : parseGtpu pdu = .ok (st, h)) :
    (st ≠ .ok → ∃ ing', ing.processGtpu pdu tsNs wireBytes = .ok (ing', .parseError) ∧
      ing'.meterRing = ing.meterRing ∧ ing'.meterPushes = ing.meterPushes) ∧
    (st = .ok → ∃ stats ev outcome,
      ing.processGtpu pdu tsNs wireBytes =
        .ok (({ ing with stats } : Ingest).finish ev outcome) ∧
      (ev.bytes.toNat ≤ h.payload.size ↔ DeclaresWithin h)) := by
  rw [Ingest.processGtpu_eq, gtpuVerdict, hparse]
  constructor
  · intro hst
    simp only [bind, Except.bind, ne_eq, hst, not_false_eq_true, if_true]
    exact ⟨_, rfl, rfl, rfl⟩
  · rintro rfl
    simp only [bind, Except.bind, ne_eq, not_true_eq_false, if_false]
    cases hpdu : h.isGpdu with
    | false =>
        simp only [Bool.not_false, if_true]
        refine ⟨_, _, _, rfl, iff_of_true (Nat.zero_le _) ?_⟩
        intro htrue
        rw [hpdu] at htrue
        cases htrue
    | true =>
        obtain ⟨inner, hinner, -⟩ := parseIp_views (ViewOf.somewhere h.payload)
        rw [hinner]
        simp only [Bool.not_true, Bool.false_eq_true, if_false]
        have hlength : ing.cfg.meterInnerIpLength = true := by rw [hcfg]
        refine ⟨_, _, _, rfl, (gpduEvent_bytes_le_iff hlength).trans ?_⟩
        constructor
        · intro hle _ inner' hinner' hvalid
          rw [hinner] at hinner'
          obtain rfl := Except.ok.inj hinner'
          exact hle hvalid
        · intro hwithin hvalid
          exact hwithin hpdu inner hinner hvalid

/-- A G-PDU whose inner packet is a bare header of 20 bytes that declares 65535. -/
def overdeclaredPdu : List UInt8 :=
  [0x30, 0xFF, 0, 20, 0, 0, 0x10, 1,
    0x45, 0, 0xFF, 0xFF, 0, 1, 0, 0, 0x40, 0x11, 0, 0, 10, 0, 0, 1, 8, 8, 8, 8]

/-- The event that a run has left on the meter ring. -/
def firstCharge (r : Ingest × FrameOutcome) : Option MeterEvent :=
  r.1.meterRing.bind (fun q => q.tryPop.2)

/-- 20 bytes were validated, and 65535 are charged. -/
theorem overdeclared_pdu_overcharged :
    returnsWith (parseGtpu (.whole overdeclaredPdu))
        (fun r => decide (r.1 = .ok ∧ r.2.payload.size = 20)) = true ∧
    returnsWith (({ meterRing := some (.init 2) } : Ingest).processGtpu
        (.whole overdeclaredPdu) 7 70)
        (fun r => decide (r.2 = .metered ∧ (firstCharge r).map MeterEvent.bytes = some 65535)) =
      true := by
  decide +kernel

/-- The same PDU with the length that is there. -/
def declaredPdu : List UInt8 :=
  (overdeclaredPdu.set 10 0).set 11 20

theorem charged_bytes_le_payload_iff_declared :
    ∃ h stats ev outcome, parseGtpu (.whole declaredPdu) = .ok (.ok, h) ∧
      ({ meterRing := some (.init 2) } : Ingest).processGtpu (.whole declaredPdu) 7 70 =
        .ok (({ meterRing := some (.init 2), stats } : Ingest).finish ev outcome) ∧
      ev.bytes.toNat ≤ h.payload.size := by
  have hcheck : returnsWith (parseGtpu (.whole declaredPdu)) (fun r => decide (r.1 = .ok) &&
      returnsWith (parseIp r.2.payload)
        (fun inner => decide (inner.ipTotalLen.toNat ≤ r.2.payload.size))) = true := by
    decide +kernel
  obtain ⟨⟨st, h⟩, hparse, hpdu⟩ := returnsWith_iff.mp hcheck
  obtain ⟨hst, hinner⟩ := Bool.and_eq_true_iff.mp hpdu
  obtain rfl : st = .ok := of_decide_eq_true hst
  obtain ⟨inner, hip, hle⟩ := returnsWith_iff.mp hinner
  have hwithin : DeclaresWithin h := by
    intro _ inner' hinner' _
    rw [hip] at hinner'
    obtain rfl := Except.ok.inj hinner'
    exact of_decide_eq_true hle
  obtain ⟨stats, ev, outcome, hrun, hiff⟩ :=
    (charged_bytes_le_payload_iff { meterRing := some (.init 2) } 7 70 rfl hparse).2 rfl
  exact ⟨h, stats, ev, outcome, hparse, hrun, hiff.mpr hwithin⟩

end Charge

section EtherType

variable {ing ing' : Ingest} {frame : Span} {eth : EthFrame} {outer : IpPacket}

/-- Only what is not IP is counted as not IP. -/
theorem carryOut_nonIp {v : FrameVerdict} {tsNs : UInt64} {wireBytes : UInt16}
    {outcome : FrameOutcome} (hv : v ≠ .nonIp)
    (hrun : ing.carryOut tsNs wireBytes v = .ok (ing', outcome)) :
    ing'.stats.nonIp = ing.stats.nonIp := by
  cases v with
  | nonIp => exact absurd rfl hv
  | otherPort | rejected st =>
      cases hrun
      rfl
  | control h | gpdu h inner =>
      cases hrun
      rw [Ingest.pushEvent_eq]
      rfl
  | diameter payload =>
      have hside := (Ingest.processDiameter_meterSide hrun).1
      exact congrArg (fun x => x.stats.nonIp) hside

/-- The verdict on a frame is that it is not IP exactly when no packet is found in it. -/
theorem frameVerdict_nonIp_iff (cfg : IngestConfig) (heth : parseEthernet frame = .ok eth)
    (hvalid : eth.valid = true) (hip : parseIp eth.payload = .ok outer) :
    frameVerdict cfg frame = .ok .nonIp ↔ outer.valid = false := by
  have hverdict : frameVerdict cfg frame = ipVerdict cfg eth.payload := by
    simp [frameVerdict, heth, hvalid, bind, Except.bind]
  rw [hverdict, ipVerdict, hip]
  cases houter : outer.valid with
  | false => simp [houter, bind, Except.bind]
  | true =>
      refine iff_of_false (fun h => ?_) (by decide)
      simp only [bind, Except.bind, houter, Bool.not_true, Bool.false_eq_true, if_false] at h
      split at h
      · obtain ⟨v, hv, hne⟩ := gtpuVerdict_returns outer.l4Payload
        exact hne (Except.ok.inj (hv.symm.trans h))
      split at h
      · cases h
      · cases h

/-- **What is taken for IP.**  The EtherType is not looked at.  A frame is ignored as
not IP, with nothing pushed to either ring, exactly when what follows its Ethernet
header and tags does not parse as a packet. -/
theorem frame_ignored_iff (ing : Ingest) (tsNs : UInt64) (heth : parseEthernet frame = .ok eth)
    (hvalid : eth.valid = true) (hip : parseIp eth.payload = .ok outer) :
    (∃ ing', ing.processFrame frame tsNs = .ok (ing', .notOurTraffic) ∧
      ing'.stats.nonIp = ing.stats.nonIp + 1 ∧
      ing'.meterRing = ing.meterRing ∧ ing'.meterPushes = ing.meterPushes ∧
      ing'.gyRing = ing.gyRing ∧ ing'.gyPushes = ing.gyPushes) ↔
    outer.valid = false := by
  rw [Ingest.processFrame_eq, ← frameVerdict_nonIp_iff ing.cfg heth hvalid hip]
  obtain ⟨v, hv, -⟩ := frameVerdict_returns ing.cfg frame
  rw [hv]
  constructor
  · rintro ⟨ing', hrun, hcount, -⟩
    by_contra hne
    have hcarry : (ing.countFrame frame.size).carryOut tsNs (UInt16.ofNat frame.size) v =
        .ok (ing', .notOurTraffic) := hrun
    have hsame := carryOut_nonIp (fun h => hne (congrArg Except.ok h)) hcarry
    have hstep : ing.stats.nonIp + 1 = ing.stats.nonIp := hcount.symm.trans hsame
    simp at hstep
  · intro h
    obtain rfl := Except.ok.inj h
    exact ⟨_, rfl, rfl, rfl, rfl, rfl, rfl⟩

/-- A GTP-U frame whose EtherType says ARP. -/
def arpTypedFrame : List UInt8 :=
  (uplinkFrame.set 12 0x08).set 13 0x06

/-- It is metered like the frame it was made from. -/
theorem arp_typed_frame_metered :
    returnsWith (parseEthernet (.whole arpTypedFrame))
        (fun eth => decide (eth.valid = true ∧ eth.ethertype ≠ kEtherTypeIpv4 ∧
          eth.ethertype ≠ kEtherTypeIpv6)) = true ∧
    returnsWith (({ meterRing := some (.init 2) } : Ingest).processFrame
        (.whole arpTypedFrame) 7)
        (fun r => decide (r.2 = .metered ∧ r.1.stats.nonIp = 0) && (firstCharge r).isSome) =
      true := by
  decide +kernel

/-- An ARP request. -/
def arpFrame : List UInt8 :=
  List.replicate 12 0xFF ++ [0x08, 0x06, 0, 1, 0x08, 0, 6, 4, 0, 1] ++ List.replicate 20 0

theorem frame_ignored_iff_arp :
    ∃ ing' : Ingest, ({ meterRing := some (.init 2) } : Ingest).processFrame (.whole arpFrame) 7 =
        .ok (ing', .notOurTraffic) ∧
      ing'.stats.nonIp = 1 ∧ ing'.meterRing = some (.init 2) := by
  have hcheck : returnsWith (parseEthernet (.whole arpFrame)) (fun eth => eth.valid &&
      returnsWith (parseIp eth.payload) (fun outer => !outer.valid)) = true := by
    decide +kernel
  obtain ⟨eth, heth, hrest⟩ := returnsWith_iff.mp hcheck
  obtain ⟨hvalid, hinner⟩ := Bool.and_eq_true_iff.mp hrest
  obtain ⟨outer, hip, houter⟩ := returnsWith_iff.mp hinner
  obtain ⟨ing', hrun, hcount, hring, -⟩ :=
    (frame_ignored_iff { meterRing := some (.init 2) } 7 heth hvalid hip).2
      ((Bool.not_eq_true' _).mp houter)
  exact ⟨ing', hrun, hcount, hring⟩

end EtherType
end GtpMeter
