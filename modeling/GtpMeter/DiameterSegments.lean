import GtpMeter.IngestBounds
import GtpMeter.TwinRuns
import Mathlib.Data.List.Induction

/-!
# Diameter messages in one segment

`process_diameter` walks over a buffer of Diameter messages: each message is parsed
against all that is left of the buffer, and its length says where the next one begins.
A message that is complete is read as if it were alone, whatever follows it and wherever
in the buffer it stands.

**Results.**
* `forEachAvp_twin`: a walk depends on the bytes of its area only.
* `parseDiameterGy_twin`: so does the reading of a message, up to where its strings are.
* `parseDiameterGy_append`: a complete message is read the same whatever follows it.
* `emitGyEvents_eq`: the events of a message, pushed in order.
* `diameter_segments_independent`: a segment is its messages, one by one.
-/

namespace GtpMeter

section Walks

/-- Equal but for where their values are. -/
structure SameAvp (a b : Avp) : Prop where
  bytes : a.data.bytes = b.data.bytes
  code : a.code = b.code
  vendorId : a.vendorId = b.vendorId
  length : a.length = b.length
  flags : a.flags = b.flags

namespace SameAvp

variable {a b : Avp}

theorem asU32 (h : SameAvp a b) : a.asU32 = b.asU32 := by
  have hsize : a.data.size = b.data.size := congrArg List.length h.bytes
  rw [Avp.asU32, Avp.asU32, hsize, Span.loadBe32_congr h.bytes]

theorem asU64 (h : SameAvp a b) : a.asU64 = b.asU64 := by
  have hsize : a.data.size = b.data.size := congrArg List.length h.bytes
  rw [Avp.asU64, Avp.asU64, hsize, Span.loadBe64_congr h.bytes, Span.loadBe32_congr h.bytes]

theorem advance (h : SameAvp a b) : a.advance = b.advance := by
  rw [Avp.advance, Avp.advance, h.length]

end SameAvp

variable {area area' : Span} {off depth : Nat}

theorem takeAvpData_twin (h : area.bytes = area'.bytes) (avp : Avp) :
    Twin (Option.Rel SameAvp) (takeAvpData area off avp) (takeAvpData area' off avp) := by
  have hsize : area.size = area'.size := congrArg List.length h
  have hvendor : readVendorId area off avp = readVendorId area' off avp := by
    rw [readVendorId, readVendorId, Span.loadBe32_congr h]
  rw [takeAvpData, takeAvpData, hsize, hvendor]
  refine Twin.ite (fun _ => .ok .none) (fun _ => ?_)
  refine Twin.ite (fun _ => .ok .none) (fun _ => ?_)
  refine Twin.bind_same (fun vendorId => ?_)
  exact Twin.bind (Span.subspan_twin h) (fun data data' hdata =>
    .ok (.some ⟨hdata, rfl, rfl, rfl, rfl⟩))

theorem readAvp_twin (h : area.bytes = area'.bytes) :
    Twin (Option.Rel SameAvp) (readAvp area off) (readAvp area' off) := by
  have hsize : area.size = area'.size := congrArg List.length h
  rw [readAvp, readAvp, hsize, Span.loadBe32_congr h, Span.read_congr h, Span.loadBe24_congr h]
  refine Twin.ite (fun _ => .ok .none) (fun _ => ?_)
  refine Twin.bind_same (fun code => ?_)
  refine Twin.bind_same (fun flags => ?_)
  refine Twin.bind_same (fun length => ?_)
  exact takeAvpData_twin h _

variable {S S' : Type} {I : S → S' → Prop}

/-- Callbacks that keep `I` on AVPs with the same contents. -/
def TwinFn (I : S → S' → Prop) (f : S → Avp → Nat → Except OutOfBounds S)
    (f' : S' → Avp → Nat → Except OutOfBounds S') : Prop :=
  ∀ s s' a a' depth, I s s' → SameAvp a a' → Twin I (f s a depth) (f' s' a' depth)

variable {f : S → Avp → Nat → Except OutOfBounds S} {f' : S' → Avp → Nat → Except OutOfBounds S'}
  {s : S} {s' : S'}

theorem avpLoop_twin (hf : TwinFn I f f') (h : area.bytes = area'.bytes) (hs : I s s') :
    Twin (fun r r' => r.1 = r'.1 ∧ I r.2 r'.2) (avpLoop (visitAll f) depth area off s)
      (avpLoop (visitAll f') depth area' off s') := by
  have hsize : area.size = area'.size := congrArg List.length h
  induction off, s using avpLoop.induct area generalizing s' with
  | case1 off s hlt ih =>
      rw [avpLoop, avpLoop, if_pos hlt, if_pos (hsize ▸ hlt)]
      refine Twin.bind (readAvp_twin h) (fun found found' hfound => ?_)
      cases hfound with
      | none => exact .ok ⟨rfl, hs⟩
      | @some a a' ha =>
          simp only [visitAll, bind_assoc]
          refine Twin.bind (hf _ _ _ _ depth hs ha) (fun s₁ s₁' hs₁ => ?_)
          simp only [bind, Except.bind, Bool.not_true, Bool.false_eq_true, if_false]
          rw [← ha.advance, ← hsize]
          exact Twin.ite (fun _ => .ok ⟨rfl, hs₁⟩) (fun hadv => ih a s₁ hadv hs₁)
  | case2 off s hend =>
      rw [avpLoop, avpLoop, if_neg hend, if_neg (hsize ▸ hend)]
      exact .ok ⟨rfl, hs⟩

/-- A walk depends on the bytes of its area only. -/
theorem forEachAvp_twin (hf : TwinFn I f f') (h : area.bytes = area'.bytes) (hs : I s s') :
    Twin (fun r r' => r.1 = r'.1 ∧ I r.2 r'.2) (forEachAvp (visitAll f) depth area s)
      (forEachAvp (visitAll f') depth area' s') :=
  Twin.ite (fun _ => .ok ⟨rfl, hs⟩) (fun _ => avpLoop_twin hf h hs)

/-- A walk that keeps nothing of the places is the same walk. -/
theorem forEachSubAvp_congr {a b : Avp} {f : S → Avp → Nat → Except OutOfBounds S}
    (hf : TwinFn Eq f f) (h : SameAvp a b) :
    forEachSubAvp (visitAll f) depth a s = forEachSubAvp (visitAll f) depth b s := by
  apply Twin.eq
  refine (forEachAvp_twin hf h.bytes rfl).mono (fun r r' hr => ?_)
  exact Prod.ext hr.1 hr.2

end Walks

section Fields

variable {a b : Avp} {info : MsccInfo} {depth : Nat}

theorem usedUnitField_twin : TwinFn Eq usedUnitField usedUnitField := by
  rintro info _ a b depth rfl h
  rw [usedUnitField, usedUnitField, h.code, h.asU64]
  exact Twin.refl _

theorem parseUsedServiceUnit_congr (h : SameAvp a b) :
    parseUsedServiceUnit a info depth = parseUsedServiceUnit b info depth := by
  rw [parseUsedServiceUnit, parseUsedServiceUnit, forEachSubAvp_congr usedUnitField_twin h]

theorem grantedUnitField_twin : TwinFn Eq grantedUnitField grantedUnitField := by
  rintro info _ a b depth rfl h
  rw [grantedUnitField, grantedUnitField, h.code, h.asU64]
  exact Twin.refl _

theorem msccField_twin (d : Nat) : TwinFn Eq (msccField d) (msccField d) := by
  rintro info _ a b depth rfl h
  rw [msccField, msccField, h.code, h.asU32, parseUsedServiceUnit_congr h,
    forEachSubAvp_congr grantedUnitField_twin h]
  exact Twin.refl _

theorem parseMscc_congr (h : SameAvp a b) : parseMscc a info depth = parseMscc b info depth := by
  rw [parseMscc, parseMscc, forEachSubAvp_congr (msccField_twin depth) h]

theorem subscriptionField_twin :
    TwinFn (fun r r' => r.1 = r'.1 ∧ r.2.bytes = r'.2.bytes) subscriptionField
      subscriptionField := by
  rintro ⟨type, data⟩ ⟨_, data'⟩ a b depth ⟨rfl, hdata⟩ h
  rw [subscriptionField, subscriptionField, h.code, h.asU32]
  cases AvpCode.ofCode b.code with
  | none => exact .ok ⟨rfl, hdata⟩
  | some c =>
      cases c
      case subscriptionIdType => exact Twin.bind_same (fun v => .ok ⟨rfl, hdata⟩)
      case subscriptionIdData => exact .ok ⟨rfl, h.bytes⟩
      all_goals exact .ok ⟨rfl, hdata⟩

/-- The message with its strings elsewhere. -/
def GyMessage.withSpans (gy : GyMessage) (sessionId originHost originRealm msisdn : Span) :
    GyMessage :=
  { gy with sessionId, originHost, originRealm, msisdn }

/-- Equal but for the strings. -/
def SameGy (gy gy' : GyMessage) : Prop :=
  ∃ s h r m, gy' = gy.withSpans s h r m

/-- Equal but for where the strings are. -/
def SameText (gy gy' : GyMessage) : Prop :=
  ∃ s h r m, gy' = gy.withSpans s h r m ∧ s.bytes = gy.sessionId.bytes ∧
    h.bytes = gy.originHost.bytes ∧ r.bytes = gy.originRealm.bytes ∧ m.bytes = gy.msisdn.bytes

theorem SameText.refl (gy : GyMessage) : SameText gy gy :=
  ⟨gy.sessionId, gy.originHost, gy.originRealm, gy.msisdn, rfl, rfl, rfl, rfl, rfl⟩

theorem SameText.same {gy gy' : GyMessage} (h : SameText gy gy') : SameGy gy gy' := by
  obtain ⟨s, host, realm, m, heq, -⟩ := h
  exact ⟨s, host, realm, m, heq⟩

theorem packImsi_congr {data data' : Span} (h : data.bytes = data'.bytes) :
    packImsi data = packImsi data' := by
  have hsize : data.size = data'.size := congrArg List.length h
  rw [packImsi, packImsi, hsize, h]

/-- Subscription-Ids with contents that are walked alike. -/
theorem parseSubscriptionId_of_walk {gy gy' : GyMessage} {d : Nat} (hgy : SameText gy gy')
    (h : Twin (fun r r' => r.1 = r'.1 ∧ r.2.1 = r'.2.1 ∧ r.2.2.bytes = r'.2.2.bytes)
      (forEachSubAvp (visitAll subscriptionField) d a (0xFFFFFFFF, {}))
      (forEachSubAvp (visitAll subscriptionField) d b (0xFFFFFFFF, {}))) :
    Twin SameText (parseSubscriptionId a gy d) (parseSubscriptionId b gy' d) := by
  obtain ⟨s, host, realm, m, rfl, hs, hhost, hrealm, hm⟩ := hgy
  refine Twin.bind h ?_
  rintro ⟨st, type, data⟩ ⟨st', type', data'⟩ ⟨-, htype, hdata⟩
  dsimp only at htype hdata ⊢
  rw [← htype, ← packImsi_congr hdata]
  refine Twin.ite (fun _ => .ok ⟨s, host, realm, m, rfl, hs, hhost, hrealm, hm⟩) (fun _ => ?_)
  refine Twin.ite (fun _ => .ok ⟨s, host, realm, data', rfl, hs, hhost, hrealm, hdata.symm⟩)
    (fun _ => ?_)
  exact .ok ⟨s, host, realm, m, rfl, hs, hhost, hrealm, hm⟩

theorem gyField_subscriptionId {avp : Avp} {gy : GyMessage}
    (hcode : AvpCode.ofCode avp.code = some .subscriptionId) :
    gyField gy avp depth = parseSubscriptionId avp gy depth := by
  rw [gyField, hcode]

theorem gyField_block {avp : Avp} {gy : GyMessage}
    (hcode : AvpCode.ofCode avp.code = some .multipleServicesCreditControl) :
    gyField gy avp depth =
      if h : gy.msccCount < kMaxMsccPerMessage then do
        let info ← parseMscc avp (gy.mscc[gy.msccCount]) depth
        .ok { gy with
          mscc := gy.mscc.set gy.msccCount info
          msccCount := gy.msccCount + 1 }
      else .ok { gy with msccOverflow := true } := by
  rw [gyField, hcode]

/-- Blocks that are read alike. -/
theorem gyField_of_blocks {gy gy' : GyMessage} (hgy : SameText gy gy')
    (ha : AvpCode.ofCode a.code = some .multipleServicesCreditControl)
    (hb : AvpCode.ofCode b.code = some .multipleServicesCreditControl)
    (h : ∀ info, parseMscc a info depth = parseMscc b info depth) :
    Twin SameText (gyField gy a depth) (gyField gy' b depth) := by
  obtain ⟨s, host, realm, m, rfl, hs, hhost, hrealm, hm⟩ := hgy
  have hsame : (gy.withSpans s host realm m).msccCount = gy.msccCount := rfl
  rw [gyField_block ha, gyField_block hb]
  by_cases hcount : gy.msccCount < kMaxMsccPerMessage
  · rw [dif_pos hcount, dif_pos (hsame ▸ hcount), h]
    exact Twin.bind_same (fun info => .ok ⟨s, host, realm, m, rfl, hs, hhost, hrealm, hm⟩)
  · rw [dif_neg hcount, dif_neg (hsame ▸ hcount)]
    exact .ok ⟨s, host, realm, m, rfl, hs, hhost, hrealm, hm⟩

theorem gyField_twin : TwinFn SameText gyField gyField := by
  rintro gy gy' a b depth hgy h
  have hsub : Twin SameText (parseSubscriptionId a gy depth) (parseSubscriptionId b gy' depth) :=
    parseSubscriptionId_of_walk hgy (forEachAvp_twin subscriptionField_twin h.bytes ⟨rfl, rfl⟩)
  have hblock : AvpCode.ofCode b.code = some .multipleServicesCreditControl →
      Twin SameText (gyField gy a depth) (gyField gy' b depth) :=
    fun hcode => gyField_of_blocks hgy (h.code ▸ hcode) hcode (fun _ => parseMscc_congr h)
  obtain ⟨s, host, realm, m, rfl, hs, hhost, hrealm, hm⟩ := hgy
  have hdata := h.bytes.symm
  cases hcode : AvpCode.ofCode b.code with
  | none =>
      rw [gyField, gyField, h.code, hcode]
      exact .ok ⟨s, host, realm, m, rfl, hs, hhost, hrealm, hm⟩
  | some c =>
      by_cases hc : c = .multipleServicesCreditControl
      · exact hblock (hc ▸ hcode)
      rw [gyField, gyField, h.code, h.asU32, hcode]
      cases c
      case sessionId => exact .ok ⟨b.asString, host, realm, m, rfl, hdata, hhost, hrealm, hm⟩
      case originHost => exact .ok ⟨s, b.asString, realm, m, rfl, hs, hdata, hrealm, hm⟩
      case originRealm => exact .ok ⟨s, host, b.asString, m, rfl, hs, hhost, hdata, hm⟩
      case ccRequestType =>
          exact Twin.bind_same (fun v => .ok ⟨s, host, realm, m, rfl, hs, hhost, hrealm, hm⟩)
      case ccRequestNumber =>
          exact Twin.bind_same (fun v => .ok ⟨s, host, realm, m, rfl, hs, hhost, hrealm, hm⟩)
      case resultCode =>
          exact Twin.bind_same (fun v => .ok ⟨s, host, realm, m, rfl, hs, hhost, hrealm, hm⟩)
      case subscriptionId => exact hsub
      case multipleServicesCreditControl => exact absurd rfl hc
      all_goals exact .ok ⟨s, host, realm, m, rfl, hs, hhost, hrealm, hm⟩

end Fields

section Messages

/-- Equal but for where the AVPs are. -/
structure SameHeader (hdr hdr' : DiameterHeader) : Prop where
  bytes : hdr.avps.bytes = hdr'.avps.bytes
  rest : hdr' = { hdr with avps := hdr'.avps }

namespace SameHeader

variable {hdr hdr' : DiameterHeader}

theorem msgLength (h : SameHeader hdr hdr') : hdr'.msgLength = hdr.msgLength := by
  rw [h.rest]

theorem request (h : SameHeader hdr hdr') : hdr'.request = hdr.request := by
  rw [h.rest]
  rfl

theorem isCreditControl (h : SameHeader hdr hdr') :
    hdr'.isCreditControl = hdr.isCreditControl := by
  rw [h.rest]
  rfl

end SameHeader

variable {buf buf' : Span}

theorem parseDiameterHeader_twin (h : buf.bytes = buf'.bytes) :
    Twin (fun r r' => r.1 = r'.1 ∧ SameHeader r.2 r'.2) (parseDiameterHeader buf)
      (parseDiameterHeader buf') := by
  have hsize : buf.size = buf'.size := congrArg List.length h
  have hdefault : SameHeader {} {} := ⟨rfl, rfl⟩
  unfold parseDiameterHeader
  simp only [hsize, Span.read_congr h, Span.loadBe24_congr h, Span.loadBe32_congr h]
  refine Twin.ite (fun _ => .ok ⟨rfl, hdefault⟩) (fun _ => ?_)
  refine Twin.bind_same (fun version => ?_)
  refine Twin.ite (fun _ => .ok ⟨rfl, hdefault⟩) (fun _ => ?_)
  refine Twin.bind_same (fun len => ?_)
  refine Twin.ite (fun _ => .ok ⟨rfl, hdefault⟩) (fun _ => ?_)
  refine Twin.ite (fun _ => .ok ⟨rfl, hdefault⟩) (fun _ => ?_)
  refine Twin.ite (fun _ => .ok ⟨rfl, hdefault⟩) (fun _ => ?_)
  refine Twin.bind_same (fun flags => ?_)
  refine Twin.bind_same (fun commandCode => ?_)
  refine Twin.bind_same (fun applicationId => ?_)
  refine Twin.bind_same (fun hopByHop => ?_)
  refine Twin.bind_same (fun endToEnd => ?_)
  exact Twin.bind (Span.subspan_twin h) (fun avps avps' havps => .ok ⟨rfl, havps, rfl⟩)

/-- Results of reading a message in two places. -/
def SameMessage (r r' : DiameterStatus × DiameterHeader × GyMessage) : Prop :=
  r.1 = r'.1 ∧ SameHeader r.2.1 r'.2.1 ∧ SameGy r.2.2 r'.2.2

theorem parseGy_twin {hdr hdr' : DiameterHeader} (h : SameHeader hdr hdr') :
    Twin (fun r r' => r.1 = r'.1 ∧ SameText r.2 r'.2) (parseGy hdr) (parseGy hdr') := by
  unfold parseGy
  rw [h.request]
  exact forEachAvp_twin gyField_twin h.bytes (SameText.refl _)

/-- The part of `parse_diameter_gy` after the header. -/
theorem afterHeader_twin (st : DiameterStatus) {hdr hdr' : DiameterHeader}
    (h : SameHeader hdr hdr') :
    Twin SameMessage
      (if st ≠ .ok then .ok (st, hdr, {})
        else if !hdr.isCreditControl then .ok (.ok, hdr, {})
        else parseGy hdr >>= fun r => .ok (r.1, hdr, r.2))
      (if st ≠ .ok then .ok (st, hdr', {})
        else if !hdr'.isCreditControl then .ok (.ok, hdr', {})
        else parseGy hdr' >>= fun r => .ok (r.1, hdr', r.2)) := by
  rw [h.isCreditControl]
  refine Twin.ite (fun _ => .ok ⟨rfl, h, (SameText.refl _).same⟩) (fun _ => ?_)
  refine Twin.ite (fun _ => .ok ⟨rfl, h, (SameText.refl _).same⟩) (fun _ => ?_)
  exact Twin.bind (parseGy_twin h) (fun r r' hr => .ok ⟨hr.1, h, hr.2.same⟩)

/-- A message is read from its bytes alone, up to where its strings are. -/
theorem parseDiameterGy_twin (h : buf.bytes = buf'.bytes) :
    Twin SameMessage (parseDiameterGy buf) (parseDiameterGy buf') := by
  refine Twin.bind (parseDiameterHeader_twin h) ?_
  rintro ⟨st, hdr⟩ ⟨_, hdr'⟩ ⟨rfl, hhdr⟩
  exact afterHeader_twin st hhdr

/-- The length that a message declares. -/
def declaredLength (buf : Span) : UInt32 :=
  be24 (buf.byte 1) (buf.byte (1 + 1)) (buf.byte (1 + 2))

/-- What the base header has to pass. -/
structure HeaderFits (buf : Span) : Prop where
  size_ge : kDiameterHeaderLen ≤ buf.size
  version : buf.byte 0 = 1
  length_ge : kDiameterHeaderLen ≤ (declaredLength buf).toNat
  length_le : (declaredLength buf).toNat ≤ kDiameterMaxMsgLen
  aligned : declaredLength buf &&& 3 = 0
  complete : (declaredLength buf).toNat ≤ buf.size

/-- The header that the bytes spell. -/
def headerOf (buf : Span) : DiameterHeader where
  avps := ⟨buf.off + kDiameterHeaderLen, (buf.bytes.drop kDiameterHeaderLen).take
    ((declaredLength buf).toNat - kDiameterHeaderLen)⟩
  msgLength := declaredLength buf
  commandCode := be24 (buf.byte 5) (buf.byte (5 + 1)) (buf.byte (5 + 2))
  applicationId := be32 (buf.byte 8) (buf.byte (8 + 1)) (buf.byte (8 + 2)) (buf.byte (8 + 3))
  hopByHop := be32 (buf.byte 12) (buf.byte (12 + 1)) (buf.byte (12 + 2)) (buf.byte (12 + 3))
  endToEnd := be32 (buf.byte 16) (buf.byte (16 + 1)) (buf.byte (16 + 2)) (buf.byte (16 + 3))
  flags := buf.byte 4

theorem parseDiameterHeader_of_fits (h : HeaderFits buf) :
    parseDiameterHeader buf = .ok (.ok, headerOf buf) := by
  obtain ⟨hsize, hversion, hge, hle, haligned, hcomplete⟩ := h
  have hlen : kDiameterHeaderLen = 20 := rfl
  have hload : buf.loadBe24 1 = .ok (declaredLength buf) := Span.loadBe24_eq (by omega)
  unfold parseDiameterHeader
  rw [if_neg (by omega), Span.read_eq (by omega), hversion, hload]
  simp only [bind, Except.bind, ne_eq, not_true_eq_false, if_false]
  rw [if_neg (by omega), if_neg (by simp [haligned]), if_neg (by omega), Span.read_eq (by omega),
    Span.loadBe24_eq (by omega), Span.loadBe32_eq (by omega), Span.loadBe32_eq (by omega),
    Span.loadBe32_eq (by omega), Span.subspan_eq (by omega)]
  rfl

theorem fits_of_parseDiameterHeader {hdr : DiameterHeader}
    (h : parseDiameterHeader buf = .ok (.ok, hdr)) : HeaderFits buf ∧ hdr = headerOf buf := by
  have hlen : kDiameterHeaderLen = 20 := rfl
  have hfits : HeaderFits buf := by
    unfold parseDiameterHeader at h
    by_cases hsize : buf.size < kDiameterHeaderLen
    · rw [if_pos hsize] at h
      cases h
    have hload : buf.loadBe24 1 = .ok (declaredLength buf) := Span.loadBe24_eq (by omega)
    rw [if_neg hsize, Span.read_eq (by omega), hload] at h
    simp only [bind, Except.bind] at h
    by_cases hversion : buf.byte 0 = 1
    swap
    · rw [if_pos hversion] at h
      cases h
    rw [if_neg (by simp [hversion])] at h
    by_cases hrange : (declaredLength buf).toNat < kDiameterHeaderLen ∨
        (declaredLength buf).toNat > kDiameterMaxMsgLen
    · rw [if_pos hrange] at h
      cases h
    rw [if_neg hrange] at h
    by_cases haligned : declaredLength buf &&& 3 = 0
    swap
    · rw [if_pos haligned] at h
      cases h
    rw [if_neg (by simp [haligned])] at h
    by_cases hcomplete : buf.size < (declaredLength buf).toNat
    · rw [if_pos hcomplete] at h
      cases h
    exact ⟨by omega, hversion, by omega, by omega, haligned, by omega⟩
  rw [parseDiameterHeader_of_fits hfits] at h
  exact ⟨hfits, (Prod.mk.inj (Except.ok.inj h)).2.symm⟩

section Append

variable {m rest : List UInt8} {j k : Nat}

theorem byte_append {i : Nat} (hi : i < m.length) :
    (⟨k, m ++ rest⟩ : Span).byte i = (⟨j, m⟩ : Span).byte i := by
  simp only [Span.byte]
  rw [List.getD_append _ _ _ _ hi]

/-- The header of a span with the same first bytes, and room for the message. -/
theorem HeaderFits.congr {s t : Span} (h : HeaderFits s)
    (hb : ∀ i, i < kDiameterHeaderLen → t.byte i = s.byte i)
    (hroom : (declaredLength s).toNat ≤ t.size) :
    HeaderFits t ∧ declaredLength t = declaredLength s := by
  have hdeclared : declaredLength t = declaredLength s := by
    simp only [declaredLength]
    rw [hb _ (by decide), hb _ (by decide), hb _ (by decide)]
  refine ⟨⟨Nat.le_trans h.length_ge hroom, ?_, ?_, ?_, ?_, ?_⟩, hdeclared⟩
  · rw [hb _ (by decide), h.version]
  · rw [hdeclared]
    exact h.length_ge
  · rw [hdeclared]
    exact h.length_le
  · rw [hdeclared]
    exact h.aligned
  · rw [hdeclared]
    exact hroom

/-- The header of a complete message, whatever follows. -/
theorem headerFits_append (h : HeaderFits ⟨j, m⟩)
    (hlen : (declaredLength ⟨j, m⟩).toNat = m.length) :
    HeaderFits ⟨k, m ++ rest⟩ ∧ SameHeader (headerOf ⟨j, m⟩) (headerOf ⟨k, m ++ rest⟩) := by
  have hge : kDiameterHeaderLen ≤ m.length := h.size_ge
  have hb : ∀ i, i < kDiameterHeaderLen →
      (⟨k, m ++ rest⟩ : Span).byte i = (⟨j, m⟩ : Span).byte i :=
    fun i hi => byte_append (Nat.lt_of_lt_of_le hi hge)
  have hroom : (declaredLength ⟨j, m⟩).toNat ≤ (⟨k, m ++ rest⟩ : Span).size := by
    rw [hlen, Span.size, List.length_append]
    exact Nat.le_add_right _ _
  obtain ⟨hfits, hdeclared⟩ := h.congr hb hroom
  refine ⟨hfits, ?_, ?_⟩
  · simp only [headerOf]
    rw [hdeclared, hlen, List.drop_append_of_le_length hge, List.take_append_of_le_length]
    rw [List.length_drop]
  · simp only [headerOf]
    rw [hdeclared, hb 4 (by decide), hb 5 (by decide), hb (5 + 1) (by decide),
      hb (5 + 2) (by decide), hb 8 (by decide), hb (8 + 1) (by decide), hb (8 + 2) (by decide),
      hb (8 + 3) (by decide), hb 12 (by decide), hb (12 + 1) (by decide), hb (12 + 2) (by decide),
      hb (12 + 3) (by decide), hb 16 (by decide), hb (16 + 1) (by decide), hb (16 + 2) (by decide),
      hb (16 + 3) (by decide)]

/-- What has been read from a message that is accepted. -/
theorem header_of_parseDiameterGy {hdr : DiameterHeader} {gy : GyMessage}
    (h : parseDiameterGy buf = .ok (.ok, hdr, gy)) :
    parseDiameterHeader buf = .ok (.ok, hdr) := by
  unfold parseDiameterGy at h
  cases hread : parseDiameterHeader buf with
  | error e =>
      rw [hread] at h
      cases h
  | ok r =>
      obtain ⟨st, hdr₀⟩ := r
      rw [hread] at h
      simp only [bind, Except.bind] at h
      by_cases hst : st = .ok
      swap
      · rw [if_pos hst] at h
        exact absurd (Prod.mk.inj (Except.ok.inj h)).1 hst
      rw [if_neg (by simp [hst])] at h
      obtain rfl : hdr₀ = hdr := by
        by_cases hcc : !hdr₀.isCreditControl
        · rw [if_pos hcc] at h
          exact (Prod.mk.inj (Prod.mk.inj (Except.ok.inj h)).2).1
        · rw [if_neg hcc] at h
          cases hgy : parseGy hdr₀ with
          | error e =>
              rw [hgy] at h
              cases h
          | ok r =>
              rw [hgy] at h
              exact (Prod.mk.inj (Prod.mk.inj (Except.ok.inj h)).2).1
      rw [hst]

/-- A complete message that is accepted on its own is read the same whatever follows. -/
theorem parseDiameterGy_append {hdr : DiameterHeader} {gy : GyMessage}
    (h : parseDiameterGy ⟨j, m⟩ = .ok (.ok, hdr, gy)) (hlen : hdr.msgLength.toNat = m.length) :
    ∃ hdr' gy', parseDiameterGy ⟨k, m ++ rest⟩ = .ok (.ok, hdr', gy') ∧
      SameHeader hdr hdr' ∧ SameGy gy gy' := by
  have hhead := header_of_parseDiameterGy h
  obtain ⟨hfits, rfl⟩ := fits_of_parseDiameterHeader hhead
  obtain ⟨hfits', hsame⟩ : HeaderFits ⟨k, m ++ rest⟩ ∧
      SameHeader (headerOf ⟨j, m⟩) (headerOf ⟨k, m ++ rest⟩) := headerFits_append hfits hlen
  have htwin : Twin SameMessage (parseDiameterGy ⟨j, m⟩) (parseDiameterGy ⟨k, m ++ rest⟩) := by
    unfold parseDiameterGy
    rw [hhead, parseDiameterHeader_of_fits hfits']
    exact afterHeader_twin .ok hsame
  obtain ⟨⟨st', hdr', gy'⟩, hread, rfl, hhdr, hgy⟩ := htwin.of_ok h
  exact ⟨hdr', gy', hread, hhdr, hgy⟩

end Append

end Messages

section Events

variable {gy gy' : GyMessage} {tsNs : UInt64}

/-- The event of a message, without a block. -/
def messageEvent (gy : GyMessage) (tsNs : UInt64) : GyEvent where
  tsNs := tsNs
  imsi := gy.imsi
  hasImsi := gy.hasImsi
  isRequest := gy.isRequest
  ccRequestType := gy.ccRequestType
  ccRequestNumber := gy.ccRequestNumber
  resultCode := gy.resultCode

/-- What a block adds. -/
def blockEvent (ev : GyEvent) (m : MsccInfo) : GyEvent :=
  { ev with
    ratingGroup := m.ratingGroup
    usedInputOctets := m.usedInputOctets
    usedOutputOctets := m.usedOutputOctets
    usedTotalOctets := m.usedTotalOctets
    grantedTotalOctets := m.grantedTotalOctets
    hasUsed := m.hasUsed
    hasGranted := m.hasGranted }

/-- The events of a message: one for each block, or one. -/
def gyEventsOf (gy : GyMessage) (tsNs : UInt64) : List GyEvent :=
  if gy.msccCount = 0 then [messageEvent gy tsNs]
  else (gy.mscc.toList.take gy.msccCount).map (blockEvent (messageEvent gy tsNs))

theorem gyEventsOf_same (h : SameGy gy gy') : gyEventsOf gy' tsNs = gyEventsOf gy tsNs := by
  obtain ⟨s, host, realm, m, rfl⟩ := h
  rfl

namespace Ingest

variable {ing : Ingest}

/-- Events pushed one after the other, and whether the ring took one of them. -/
def pushGyAll (ing : Ingest) (evs : List GyEvent) (any : Bool) : Ingest × Bool :=
  evs.foldl (fun r ev => ((r.1.pushGy ev).1, r.2 || (r.1.pushGy ev).2)) (ing, any)

theorem emitGyLoop_eq (hcount : gy.msccCount ≠ 0) {left i : Nat} {any : Bool}
    (hle : i + left ≤ kMaxMsccPerMessage) :
    emitGyLoop gy tsNs left i ing any =
      .ok (ing.pushGyAll
        (((gy.mscc.toList.drop i).take left).map (blockEvent (messageEvent gy tsNs))) any) := by
  induction left generalizing i ing any with
  | zero => simp [emitGyLoop, pushGyAll]
  | succ left ih =>
      have hlt : i < gy.mscc.toList.length := by
        rw [Vector.length_toList]
        omega
      have hev : gyEvent gy tsNs i =
          .ok (blockEvent (messageEvent gy tsNs) (gy.mscc.toList.get ⟨i, hlt⟩)) := by
        rw [gyEvent, if_neg hcount, Vector.getElem?_eq_getElem (by omega)]
        rfl
      rw [emitGyLoop, hev]
      simp only [bind, Except.bind]
      rw [ih (by omega), List.drop_eq_getElem_cons hlt, List.take_succ_cons, List.map_cons]
      rfl

/-- The events of a message, pushed in order. -/
theorem emitGyEvents_eq (hcount : gy.msccCount ≤ kMaxMsccPerMessage) :
    ing.emitGyEvents gy tsNs = .ok (ing.pushGyAll (gyEventsOf gy tsNs) false) := by
  by_cases hzero : gy.msccCount = 0
  · rw [emitGyEvents, gyEventsOf, if_pos hzero, if_pos hzero, emitGyLoop]
    rw [show gyEvent gy tsNs 0 = .ok (messageEvent gy tsNs) from if_pos hzero]
    rfl
  · rw [emitGyEvents, gyEventsOf, if_neg hzero, if_neg hzero,
      emitGyLoop_eq hzero (by omega)]
    rfl

theorem pushGyAll_append {es es' : List GyEvent} {any : Bool} :
    ing.pushGyAll (es ++ es') any =
      (ing.pushGyAll es any).1.pushGyAll es' (ing.pushGyAll es any).2 :=
  List.foldl_append

theorem pushGyAll_any (es : List GyEvent) (any : Bool) :
    ing.pushGyAll es any = ((ing.pushGyAll es false).1, any || (ing.pushGyAll es false).2) := by
  induction es using List.reverseRecOn with
  | nil => simp [pushGyAll]
  | append_singleton es ev ih =>
      rw [pushGyAll_append, pushGyAll_append, ih]
      simp only [pushGyAll, List.foldl_cons, List.foldl_nil, Bool.or_assoc]

/-- `n` more messages. -/
def countMessages (ing : Ingest) (n : Nat) : Ingest :=
  { ing with stats.diameterMessages := ing.stats.diameterMessages + UInt64.ofNat n }

theorem countMessages_zero : ing.countMessages 0 = ing := by
  simp [countMessages]

theorem countMessages_add (a b : Nat) :
    (ing.countMessages a).countMessages b = ing.countMessages (a + b) := by
  simp only [countMessages, UInt64.ofNat_add, UInt64.add_assoc]

/-- A push does not look at the count of messages. -/
theorem pushGy_countMessages (n : Nat) (ev : GyEvent) :
    (ing.countMessages n).pushGy ev = ((ing.pushGy ev).1.countMessages n, (ing.pushGy ev).2) := by
  rw [pushGy_eq, pushGy_eq]
  rfl

theorem pushGyAll_countMessages (n : Nat) (es : List GyEvent) (any : Bool) :
    (ing.countMessages n).pushGyAll es any =
      ((ing.pushGyAll es any).1.countMessages n, (ing.pushGyAll es any).2) := by
  induction es generalizing ing any with
  | nil => rfl
  | cons ev es ih =>
      simp only [pushGyAll, List.foldl_cons, pushGy_countMessages] at ih ⊢
      exact ih _

theorem pushGyAll_messages {es es' : List GyEvent} {any : Bool} (n : Nat) :
    (ing.countMessages (n + 1)).pushGyAll (es ++ es') any =
      (((ing.countMessages 1).pushGyAll es any).1.countMessages n).pushGyAll es'
        ((ing.countMessages 1).pushGyAll es any).2 := by
  rw [Nat.add_comm n 1, ← countMessages_add, pushGyAll_append, pushGyAll_countMessages n es]

/-- A push leaves the other counters of the Diameter path alone. -/
theorem pushGy_counters (ing : Ingest) (ev : GyEvent) :
    (ing.pushGy ev).1.stats.diameterMessages = ing.stats.diameterMessages ∧
      (ing.pushGy ev).1.stats.diameterParseErrors = ing.stats.diameterParseErrors := by
  rw [pushGy_eq]
  exact ⟨rfl, rfl⟩

theorem pushGyAll_counters (ing : Ingest) (es : List GyEvent) (any : Bool) :
    (ing.pushGyAll es any).1.stats.diameterMessages = ing.stats.diameterMessages ∧
      (ing.pushGyAll es any).1.stats.diameterParseErrors = ing.stats.diameterParseErrors := by
  induction es generalizing ing any with
  | nil => exact ⟨rfl, rfl⟩
  | cons ev es ih =>
      have hev := pushGy_counters ing ev
      have hes := ih (ing.pushGy ev).1 (any || (ing.pushGy ev).2)
      exact ⟨hes.1.trans hev.1, hes.2.trans hev.2⟩

end Ingest
end Events

section Segments

variable {m rest tail : List UInt8} {tsNs : UInt64} {ing : Ingest} {payload : Span}
  {offset : Nat} {produced : Bool}

/-- One complete message, accepted on its own. -/
def IsMessage (m : List UInt8) : Prop :=
  ∃ hdr gy, parseDiameterGy (.whole m) = .ok (.ok, hdr, gy) ∧ hdr.msgLength.toNat = m.length

/-- The events of a message that is alone in its buffer. -/
def messageEvents (tsNs : UInt64) (m : List UInt8) : List GyEvent :=
  match parseDiameterGy (.whole m) with
  | .ok (_, hdr, gy) => if hdr.isCreditControl then gyEventsOf gy tsNs else []
  | .error _ => []

/-- The message at the front of some bytes, as the loop reads it. -/
theorem IsMessage.read (h : IsMessage m) (k : Nat) (rest : List UInt8) (tsNs : UInt64) :
    ∃ hdr gy, parseDiameterGy ⟨k, m ++ rest⟩ = .ok (.ok, hdr, gy) ∧
      hdr.msgLength.toNat = m.length ∧ kDiameterHeaderLen ≤ m.length ∧
      gy.msccCount ≤ kMaxMsccPerMessage ∧
      messageEvents tsNs m = if hdr.isCreditControl then gyEventsOf gy tsNs else [] := by
  obtain ⟨hdr, gy, hread, hlen⟩ := h
  obtain ⟨hdr', gy', hread', hhdr, hgy⟩ : ∃ hdr' gy', parseDiameterGy ⟨k, m ++ rest⟩ =
      .ok (.ok, hdr', gy') ∧ SameHeader hdr hdr' ∧ SameGy gy gy' :=
    parseDiameterGy_append hread hlen
  obtain ⟨hfits, -⟩ := fits_of_parseDiameterHeader (header_of_parseDiameterGy hread)
  have hcount : gy'.msccCount ≤ kMaxMsccPerMessage := by
    obtain ⟨r, hr, -, hviews⟩ := parseDiameterGy_views (ViewOf.whole m)
    rw [hread] at hr
    obtain rfl := Except.ok.inj hr
    obtain ⟨s, host, realm, msisdn, rfl⟩ := hgy
    exact hviews.count_le
  refine ⟨hdr', gy', hread', by rw [hhdr.msgLength, hlen], hfits.size_ge, hcount, ?_⟩
  simp only [messageEvents, hread]
  rw [hhdr.isCreditControl, gyEventsOf_same hgy]

namespace Ingest

theorem countDiameter_eq {hdr : DiameterHeader} {gy : GyMessage}
    (hcount : gy.msccCount ≤ kMaxMsccPerMessage) :
    ing.countDiameter hdr gy tsNs produced =
      .ok ((ing.countMessages 1).pushGyAll
        (if hdr.isCreditControl then gyEventsOf gy tsNs else []) produced) := by
  have hone : ({ ing with stats.diameterMessages := ing.stats.diameterMessages + 1 } : Ingest) =
      ing.countMessages 1 := rfl
  rw [countDiameter, hone]
  by_cases hcc : hdr.isCreditControl
  · rw [if_pos hcc, if_pos hcc, emitGyEvents_eq hcount, pushGyAll_any _ produced]
    simp only [bind, Except.bind, Bool.or_comm]
  · rw [if_neg hcc, if_neg hcc]
    rfl

/-- One message of a segment. -/
theorem diameterLoop_message (h : IsMessage m) (hoff : offset ≤ payload.size)
    (hdrop : payload.bytes.drop offset = m ++ rest) :
    diameterLoop payload tsNs offset ing produced =
      diameterLoop payload tsNs (offset + m.length)
        ((ing.countMessages 1).pushGyAll (messageEvents tsNs m) produced).1
        ((ing.countMessages 1).pushGyAll (messageEvents tsNs m) produced).2 := by
  obtain ⟨hdr, gy, hread, hlen, hge, hcount, hevents⟩ := h.read (payload.off + offset) rest tsNs
  have hsize : payload.size - offset = m.length + rest.length := by
    rw [← List.length_append, ← hdrop, List.length_drop]
    rfl
  have hpos : hdr.msgLength ≠ 0 := by
    intro hzero
    rw [hzero] at hlen
    have : kDiameterHeaderLen = 20 := rfl
    simp only [UInt32.reduceToNat] at hlen
    omega
  rw [diameterLoop, if_pos (by omega), Span.suffix_eq hoff, hdrop]
  simp only [bind, Except.bind]
  rw [hread]
  simp only [ne_eq, not_true_eq_false, if_false]
  rw [countDiameter_eq hcount, ← hevents]
  simp only
  rw [if_neg hpos, hlen]

/-- The messages at the front of what is left of a segment. -/
theorem diameterLoop_messages {ms : List (List UInt8)} (h : ∀ m ∈ ms, IsMessage m)
    (hoff : offset ≤ payload.size) (hdrop : payload.bytes.drop offset = ms.flatten ++ tail) :
    diameterLoop payload tsNs offset ing produced =
      diameterLoop payload tsNs (offset + ms.flatten.length)
        ((ing.countMessages ms.length).pushGyAll (ms.flatMap (messageEvents tsNs)) produced).1
        ((ing.countMessages ms.length).pushGyAll (ms.flatMap (messageEvents tsNs)) produced).2 := by
  induction ms generalizing offset ing produced with
  | nil =>
      simp only [List.flatten_nil, List.length_nil, Nat.add_zero, List.flatMap_nil,
        countMessages_zero]
      rfl
  | cons m ms ih =>
      have hm := h m (by simp)
      have hms : ∀ m ∈ ms, IsMessage m := fun m hmem => h m (by simp [hmem])
      rw [List.flatten_cons, List.append_assoc] at hdrop
      have hsize : payload.size - offset = m.length + (ms.flatten ++ tail).length := by
        rw [← List.length_append, ← hdrop, List.length_drop]
        rfl
      have hnext : payload.bytes.drop (offset + m.length) = ms.flatten ++ tail := by
        rw [← List.drop_drop, hdrop, List.drop_left]
      rw [diameterLoop_message hm hoff hdrop, ih hms (by omega) hnext, List.flatten_cons,
        List.length_append, List.length_cons, List.flatMap_cons, pushGyAll_messages, Nat.add_assoc]

/-- The messages one by one, each alone in its buffer. -/
def oneByOne (ing : Ingest) (ms : List (List UInt8)) (tsNs : UInt64) :
    Except OutOfBounds Ingest :=
  ms.foldlM (fun ing m => do
    let r ← ing.processDiameter (.whole m) tsNs
    .ok r.1) ing

/-- What messages leave behind: their count, and their events pushed in order. -/
def afterMessages (ing : Ingest) (ms : List (List UInt8)) (tsNs : UInt64) : Ingest :=
  ((ing.countMessages ms.length).pushGyAll (ms.flatMap (messageEvents tsNs)) false).1

theorem afterMessages_nil : ing.afterMessages [] tsNs = ing := by
  rw [afterMessages, List.length_nil, countMessages_zero]
  rfl

/-- Whether one of the events of messages was taken. -/
def anyTaken (ing : Ingest) (ms : List (List UInt8)) (tsNs : UInt64) : Bool :=
  ((ing.countMessages ms.length).pushGyAll (ms.flatMap (messageEvents tsNs)) false).2

/-- Messages, and then fewer bytes than a header has. -/
theorem processDiameter_short {ms : List (List UInt8)} (h : ∀ m ∈ ms, IsMessage m)
    (hbytes : payload.bytes = ms.flatten ++ tail) (htail : tail.length < kDiameterHeaderLen) :
    ing.processDiameter payload tsNs =
      .ok (ing.afterMessages ms tsNs,
        diameterOutcome (ing.anyTaken ms tsNs) .notOurTraffic) := by
  have hsize : payload.size = ms.flatten.length + tail.length := by
    rw [← List.length_append, ← hbytes]
    rfl
  rw [processDiameter]
  by_cases hempty : payload.size = 0
  · have hnil : ms = [] := by
      cases ms with
      | nil => rfl
      | cons m ms =>
          obtain ⟨hdr, gy, -, -, hge, -⟩ := (h m (by simp)).read 0 [] tsNs
          have : kDiameterHeaderLen = 20 := rfl
          rw [List.flatten_cons, List.length_append] at hsize
          omega
    subst hnil
    rw [if_pos hempty, afterMessages_nil]
    rfl
  · have hend : ¬0 + ms.flatten.length + kDiameterHeaderLen ≤ payload.size := by omega
    rw [if_neg hempty, diameterLoop_messages h (Nat.zero_le _) hbytes, diameterLoop, if_neg hend]
    rfl

/-- A segment of nothing but messages. -/
theorem processDiameter_messages {ms : List (List UInt8)} (h : ∀ m ∈ ms, IsMessage m) :
    ing.processDiameter (.whole ms.flatten) tsNs =
      .ok (ing.afterMessages ms tsNs,
        diameterOutcome (ing.anyTaken ms tsNs) .notOurTraffic) :=
  processDiameter_short h (List.append_nil _).symm (by decide)

/-- A message that is all of the payload. -/
theorem processDiameter_whole (hbytes : payload.bytes = m) (h : IsMessage m) :
    ing.processDiameter payload tsNs =
      .ok (ing.afterMessages [m] tsNs,
        diameterOutcome (ing.anyTaken [m] tsNs) .notOurTraffic) := by
  have hms : ∀ m' ∈ [m], IsMessage m' := fun m' hmem => List.mem_singleton.mp hmem ▸ h
  have hall : payload.bytes = [m].flatten ++ [] := by
    rw [hbytes, List.flatten_singleton, List.append_nil]
  exact processDiameter_short hms hall (by decide)

theorem afterMessages_cons (m : List UInt8) (ms : List (List UInt8)) :
    ing.afterMessages (m :: ms) tsNs = (ing.afterMessages [m] tsNs).afterMessages ms tsNs := by
  simp only [afterMessages, List.flatMap_cons, List.flatMap_nil, List.append_nil, List.length_cons,
    List.length_nil, Nat.zero_add]
  rw [pushGyAll_messages, pushGyAll_any]

theorem oneByOne_eq {ms : List (List UInt8)} (h : ∀ m ∈ ms, IsMessage m) :
    ing.oneByOne ms tsNs = .ok (ing.afterMessages ms tsNs) := by
  induction ms generalizing ing with
  | nil =>
      rw [afterMessages_nil]
      rfl
  | cons m ms ih =>
      rw [oneByOne, List.foldlM_cons, processDiameter_whole rfl (h m (by simp)),
        afterMessages_cons m ms]
      exact ih (fun m hmem => h m (by simp [hmem]))

/-- Messages, and then bytes that are no message. -/
theorem processDiameter_rejected {ms : List (List UInt8)} (h : ∀ m ∈ ms, IsMessage m)
    {st : DiameterStatus} {hdr : DiameterHeader} {gy : GyMessage}
    (hbytes : payload.bytes = ms.flatten ++ tail) (hge : kDiameterHeaderLen ≤ tail.length)
    (htail : parseDiameterGy (.whole tail) = .ok (st, hdr, gy)) (hst : st ≠ .ok) :
    ing.processDiameter payload tsNs =
      .ok ({ ing.afterMessages ms tsNs with
          stats.diameterParseErrors := ing.stats.diameterParseErrors + 1 },
        diameterOutcome (ing.anyTaken ms tsNs) .parseError) := by
  have hhead : kDiameterHeaderLen = 20 := rfl
  have hsize : payload.size = ms.flatten.length + tail.length := by
    rw [← List.length_append, ← hbytes]
    rfl
  have herrors : (ing.afterMessages ms tsNs).stats.diameterParseErrors =
      ing.stats.diameterParseErrors := (pushGyAll_counters _ _ _).2
  have hrest : payload.bytes.drop (0 + ms.flatten.length) = tail := by simp [hbytes]
  have htwin : ∀ k, Twin SameMessage (parseDiameterGy (.whole tail)) (parseDiameterGy ⟨k, tail⟩) :=
    fun k => parseDiameterGy_twin rfl
  obtain ⟨⟨st', hdr', gy'⟩, hread, hsame⟩ :=
    (htwin (payload.off + (0 + ms.flatten.length))).of_ok htail
  obtain rfl : st = st' := hsame.1
  rw [processDiameter, if_neg (by omega), diameterLoop_messages h (Nat.zero_le _) hbytes,
    diameterLoop, if_pos (by omega), Span.suffix_eq (by omega), hrest]
  simp only [bind, Except.bind]
  rw [hread]
  simp only [ne_eq, hst, not_false_eq_true, if_true]
  rw [← herrors]
  rfl

end Ingest

/-- **Segmented charging messages are independent.**  Complete messages that are each
accepted alone leave, in one segment, exactly what they leave one by one: their count and
their events, pushed in order.  If bytes follow that are no message, one parse error is
counted and nothing else comes of them. -/
theorem diameter_segments_independent (ing : Ingest) (tsNs : UInt64) (ms : List (List UInt8))
    (h : ∀ m ∈ ms, IsMessage m) :
    (∃ outcome, ing.processDiameter (.whole ms.flatten) tsNs =
      .ok (ing.afterMessages ms tsNs, outcome)) ∧
    ing.oneByOne ms tsNs = .ok (ing.afterMessages ms tsNs) ∧
    (ing.afterMessages ms tsNs).stats.diameterMessages =
      ing.stats.diameterMessages + UInt64.ofNat ms.length ∧
    (ing.afterMessages ms tsNs).stats.diameterParseErrors = ing.stats.diameterParseErrors ∧
    ∀ tail st hdr gy, kDiameterHeaderLen ≤ tail.length →
      parseDiameterGy (.whole tail) = .ok (st, hdr, gy) → st ≠ .ok →
      ∃ outcome, ing.processDiameter (.whole (ms.flatten ++ tail)) tsNs =
        .ok ({ ing.afterMessages ms tsNs with
          stats.diameterParseErrors := ing.stats.diameterParseErrors + 1 }, outcome) := by
  refine ⟨?_, ?_, ?_, ?_, ?_⟩
  · exact ⟨_, Ingest.processDiameter_messages h⟩
  · exact Ingest.oneByOne_eq h
  · exact (Ingest.pushGyAll_counters _ _ _).1
  · exact (Ingest.pushGyAll_counters _ _ _).2
  · intro tail st hdr gy hge htail hst
    exact ⟨_, Ingest.processDiameter_rejected h rfl hge htail hst⟩

/-- A watchdog request, which has no AVPs here. -/
def watchdogMessage : List UInt8 :=
  [1, 0, 0, 20, 0x80, 0, 1, 0x18, 0, 0, 0, 0, 0, 0, 0, 1, 0, 0, 0, 2]

/-- A Credit-Control-Request with its request type alone. -/
def updateMessage : List UInt8 :=
  [1, 0, 0, 32, 0x80, 0, 1, 0x10, 0, 0, 0, 4, 0, 0, 0, 1, 0, 0, 0, 2,
    0, 0, 1, 0xA0, 0x40, 0, 0, 12, 0, 0, 0, 2]

/-- A header of another version. -/
def foreignHeader : List UInt8 :=
  2 :: List.replicate 19 0

theorem isMessage_of_check {m : List UInt8}
    (h : Runs.returnsWith (parseDiameterGy (.whole m))
      (fun r => decide (r.1 = .ok ∧ r.2.1.msgLength.toNat = m.length)) = true) : IsMessage m := by
  obtain ⟨⟨st, hdr, gy⟩, hread, hcheck⟩ := Runs.returnsWith_iff.mp h
  obtain ⟨rfl, hlen⟩ := of_decide_eq_true hcheck
  exact ⟨hdr, gy, hread, hlen⟩

theorem diameter_segments_independent_two :
    messageEvents 7 updateMessage = [{ tsNs := 7, isRequest := true, ccRequestType := 2 }] ∧
    ∃ outcome, ({} : Ingest).processDiameter
        (.whole ([updateMessage, watchdogMessage].flatten ++ foreignHeader)) 7 =
      .ok ({ ({} : Ingest).afterMessages [updateMessage, watchdogMessage] 7 with
        stats.diameterParseErrors := 1 }, outcome) := by
  have hms : ∀ m ∈ [updateMessage, watchdogMessage], IsMessage m := by
    simp only [List.forall_mem_cons]
    exact ⟨isMessage_of_check (by decide +kernel), isMessage_of_check (by decide +kernel),
      fun _ h => absurd h List.not_mem_nil⟩
  have htail : parseDiameterGy (.whole foreignHeader) = .ok (.badVersion, {}, {}) := by
    decide +kernel
  obtain ⟨-, -, -, -, hrejected⟩ :=
    diameter_segments_independent {} 7 [updateMessage, watchdogMessage] hms
  exact ⟨by decide +kernel, hrejected foreignHeader .badVersion {} {} (by decide) htail (by decide)⟩

end Segments
end GtpMeter
