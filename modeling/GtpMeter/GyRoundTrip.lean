import GtpMeter.AvpAreas
import GtpMeter.DiameterSegments
import Mathlib.Data.List.Induction

/-!
# Gy messages survive the wire

`build_ccr` and `build_cca` write Credit-Control messages, `process_diameter` reads them
into Gy events.  A built message is a list of AVPs whose groups are lists of AVPs again;
the fields are lifted out by folds over these lists, one lemma for each field.

**Results.**
* `packDigits_eq`: the packed number of a string of digits.
* `parseMscc_request`, `parseMscc_answer`: the blocks of the two messages.
* `parseDiameterGy_ccr`, `parseDiameterGy_cca`: the fields of the two messages.
* `gy_messages_survive`: the events of the two messages.
-/

namespace GtpMeter

open Synth

section Values

variable {avp : Avp}

theorem asU32_be32 {v : UInt32} (h : avp.data.bytes = be32Bytes v) : avp.asU32 = .ok (some v) := by
  have hhas : avp.data.Has 0 (be32Bytes v) := Span.Has.zero_iff.mpr (h ▸ List.prefix_rfl)
  have hload : avp.data.loadBe32 0 = .ok v := hhas.load32 (j := 0) rfl
  have hsize : avp.data.size = 4 := congrArg List.length h
  rw [Avp.asU32, if_neg (by rw [hsize]; exact fun hne => hne rfl), hload]
  rfl

theorem asU64_be64 {v : UInt64} (h : avp.data.bytes = be64Bytes v) : avp.asU64 = .ok (some v) := by
  have hhas : avp.data.Has 0 (be64Bytes v) := Span.Has.zero_iff.mpr (h ▸ List.prefix_rfl)
  have hsize : avp.data.size = 8 := congrArg List.length h
  rw [Avp.asU64, if_pos hsize, hhas.load64]
  rfl

/-- The number that a string of decimal digits spells. -/
def imsiValue (digits : List UInt8) : Nat :=
  digits.foldl (fun n c => n * 10 + (c.toNat - 48)) 0

def IsDigit (c : UInt8) : Prop :=
  48 ≤ c.toNat ∧ c.toNat ≤ 57

instance isDigitDecidable (c : UInt8) : Decidable (IsDigit c) :=
  inferInstanceAs (Decidable (_ ∧ _))

theorem packDigits_eq {digits : List UInt8} (h : ∀ c ∈ digits, IsDigit c) (n : Nat) :
    packDigits digits (UInt64.ofNat n) =
      some (UInt64.ofNat (digits.foldl (fun n c => n * 10 + (c.toNat - 48)) n)) := by
  induction digits generalizing n with
  | nil => rfl
  | cons c digits ih =>
      obtain ⟨hlo, hhi⟩ := h c (by simp)
      have hrange : ¬(c < 48 ∨ c > 57) := by
        rw [not_or]
        refine ⟨fun hlt => ?_, fun hgt => ?_⟩
        · have : c.toNat < 48 := hlt
          omega
        · have : 57 < c.toNat := hgt
          omega
      have hdigit : (c - 48).toUInt64 = UInt64.ofNat (c.toNat - 48) := by
        apply UInt64.toNat_inj.mp
        rw [UInt8.toNat_toUInt64, UInt8.toNat_sub_of_le _ _ hlo, UInt64.toNat_ofNat']
        simp only [UInt8.reduceToNat, Nat.reducePow]
        omega
      have hstep : UInt64.ofNat n * 10 + (c - 48).toUInt64 =
          UInt64.ofNat (n * 10 + (c.toNat - 48)) := by
        rw [hdigit, UInt64.ofNat_add, UInt64.ofNat_mul]
        rfl
      rw [packDigits, if_neg hrange, hstep, ih (fun c hc => h c (by simp [hc])), List.foldl_cons]

/-- Nineteen digits fit 64 bits. -/
theorem imsiValue_lt {digits : List UInt8} (h : ∀ c ∈ digits, IsDigit c) :
    imsiValue digits < 10 ^ digits.length := by
  induction digits using List.reverseRecOn with
  | nil => decide
  | append_singleton digits c ih =>
      have hlt := ih (fun c hc => h c (by simp [hc]))
      obtain ⟨hlo, hhi⟩ := h c (by simp)
      rw [imsiValue, List.foldl_append, List.length_append, List.length_singleton, Nat.pow_succ]
      simp only [List.foldl_cons, List.foldl_nil]
      change imsiValue digits * 10 + (c.toNat - 48) < 10 ^ digits.length * 10
      omega

theorem packImsi_digits {data : Span} (hpos : data.bytes ≠ []) (hmax : data.bytes.length ≤ 19)
    (h : ∀ c ∈ data.bytes, IsDigit c) :
    packImsi data = some (UInt64.ofNat (imsiValue data.bytes)) := by
  have hsize : ¬(data.size = 0 ∨ data.size > 19) := by
    have := List.length_pos_iff.mpr hpos
    simp only [Span.size]
    omega
  rw [packImsi, if_neg hsize]
  exact packDigits_eq h 0

end Values

section Lists

@[simp] theorem placed_ofCode (c : AvpCode) (data : List UInt8) (pos : Nat) :
    AvpCode.ofCode ((mandatory c data).placed pos).code = some c :=
  ofCode_placed rfl pos

@[simp] theorem placed_u32 (c : AvpCode) (v : UInt32) (pos : Nat) :
    ((mandatory c (be32Bytes v)).placed pos).asU32 = .ok (some v) :=
  asU32_be32 rfl

@[simp] theorem placed_u64 (c : AvpCode) (v : UInt64) (pos : Nat) :
    ((mandatory c (be64Bytes v)).placed pos).asU64 = .ok (some v) :=
  asU64_be64 rfl

/-- The AVPs of a list of codes and values. -/
def mandatories (fields : List (AvpCode × List UInt8)) : List AvpItem :=
  fields.map (fun p => mandatory p.1 p.2)

def putFields (fields : List (AvpCode × List UInt8)) : List UInt8 :=
  putAvps (mandatories fields)

variable {fields : List (AvpCode × List UInt8)} {c : AvpCode} {data : List UInt8}

theorem putFields_cons :
    putFields ((c, data) :: fields) = zeroPadded (mandatory c data) ++ putFields fields := by
  simp only [putFields, mandatories, putAvps_eq, List.map_cons, List.flatMap_cons]

theorem putFields_aligned (fields : List (AvpCode × List UInt8)) :
    (putFields fields).length % 4 = 0 := by
  induction fields with
  | nil => rfl
  | cons p fields ih =>
      have := zeroPadded_aligned (mandatory p.1 p.2)
      rw [putFields_cons, List.length_append]
      omega

/-- What is written into a buffer is not longer than the buffer. -/
theorem putFields_length (h : (c, data) ∈ fields) :
    8 + data.length ≤ (putFields fields).length := by
  induction fields with
  | nil => cases h
  | cons p fields ih =>
      obtain ⟨c', data'⟩ := p
      rw [putFields_cons, List.length_append]
      rcases List.mem_cons.mp h with heq | hrest
      · obtain ⟨rfl, rfl⟩ := Prod.mk.inj heq
        rw [zeroPadded, List.length_append, AvpItem.image_length, mandatory_length]
        omega
      · have := ih hrest
        omega

/-- A group inside a buffer that is not too long. -/
theorem putFields_lt (hlt : (putFields fields).length < 16777216) (h : (c, data) ∈ fields) :
    data.length < 16777216 := by
  have := putFields_length h
  omega

theorem mandatories_wf (h : (putFields fields).length < 16777216) :
    ∀ a ∈ mandatories fields, a.Wf := by
  intro a ha
  obtain ⟨p, hmem, rfl⟩ := List.mem_map.mp ha
  have : 8 + p.2.length ≤ (putFields fields).length := putFields_length hmem
  exact mandatory_wf (by omega)

variable {S : Type} {f : S → Avp → Nat → Except OutOfBounds S} {depth pos : Nat} {s s' : S}

/-- The fold of a walk over these AVPs, the area being at `pos`. -/
def foldFields (f : S → Avp → Nat → Except OutOfBounds S) (depth pos : Nat)
    (fields : List (AvpCode × List UInt8)) (s : S) : Except OutOfBounds S :=
  (placedItems pos (mandatories fields)).foldlM (fun s avp => f s avp depth) s

theorem foldFields_cons (h : f s ((mandatory c data).placed pos) depth = .ok s') :
    foldFields f depth pos ((c, data) :: fields) s =
      foldFields f depth (pos + (mandatory c data).size) fields s' := by
  simp only [foldFields, mandatories, List.map_cons, placedItems, List.foldlM_cons, h, bind,
    Except.bind]

/-- The walk over a group. -/
theorem forEachSubAvp_fields {grouped : Avp} (hdepth : depth + 1 < kAvpMaxDepth)
    (hlt : (putFields fields).length < 16777216) (h : grouped.data.bytes = putFields fields) :
    forEachSubAvp (visitAll f) depth grouped s =
      (foldFields f (depth + 1) grouped.data.off fields s >>= fun s => .ok (.ok, s)) :=
  forEachAvp_putAvps hdepth (mandatories_wf hlt) h

end Lists

section Blocks

variable {s : GySpec} {info : MsccInfo} {depth : Nat}

/-- The AVPs of `GySpec.usedUnits`. -/
def usedFields (s : GySpec) : List (AvpCode × List UInt8) :=
  [(.ccInputOctets, be64Bytes s.usedInput), (.ccOutputOctets, be64Bytes s.usedOutput),
    (.ccTotalOctets, be64Bytes (s.usedInput + s.usedOutput))]

/-- The AVPs of `GySpec.requestBlock`. -/
def requestFields (s : GySpec) : List (AvpCode × List UInt8) :=
  [(.ratingGroup, be32Bytes s.ratingGroup), (.usedServiceUnit, putFields (usedFields s))]

/-- The AVPs of the granted units of `GySpec.answerBlock`. -/
def grantedFields (s : GySpec) : List (AvpCode × List UInt8) :=
  [(.ccTotalOctets, be64Bytes s.grantedTotal)]

/-- The AVPs of `GySpec.answerBlock`. -/
def answerFields (s : GySpec) : List (AvpCode × List UInt8) :=
  [(.ratingGroup, be32Bytes s.ratingGroup), (.grantedServiceUnit, putFields (grantedFields s)),
    (.resultCode, be32Bytes s.resultCode)]

/-- The AVPs of `GySpec.subscription`. -/
def subscriptionFields (s : GySpec) : List (AvpCode × List UInt8) :=
  [(.subscriptionIdType, be32Bytes SubscriptionIdType.imsi.code), (.subscriptionIdData, s.imsi)]

/-- Octets that a Used-Service-Unit reports. -/
def withUsed (s : GySpec) (info : MsccInfo) : MsccInfo :=
  { info with
    usedInputOctets := s.usedInput
    usedOutputOctets := s.usedOutput
    usedTotalOctets := s.usedInput + s.usedOutput
    hasUsed := true }

theorem parseUsedServiceUnit_fields {usu : Avp} (hdepth : depth + 1 < kAvpMaxDepth)
    (hlt : (putFields (usedFields s)).length < 16777216)
    (h : usu.data.bytes = putFields (usedFields s)) :
    parseUsedServiceUnit usu info depth = .ok (withUsed s info) := by
  rw [parseUsedServiceUnit, forEachSubAvp_fields hdepth hlt h]
  simp only [usedFields, foldFields, mandatories, List.map_cons, List.map_nil, placedItems,
    List.foldlM_cons, List.foldlM_nil, usedUnitField, placed_ofCode, placed_u64, bind, Except.bind,
    pure, Except.pure, Option.getD_some]
  -- where the total is 0 it is replaced by the sum, which it is
  split
  · rfl
  · rfl

def withRatingGroup (s : GySpec) (info : MsccInfo) : MsccInfo :=
  { info with hasRatingGroup := true, ratingGroup := s.ratingGroup }

theorem msccField_ratingGroup {pos d : Nat} :
    msccField depth info ((mandatory .ratingGroup (be32Bytes s.ratingGroup)).placed pos) d =
      .ok (withRatingGroup s info) := by
  simp only [msccField, placed_ofCode, placed_u32, bind, Except.bind]
  rfl

theorem msccField_used {pos d : Nat} (hdepth : depth + 2 < kAvpMaxDepth)
    (hlt : (putFields (usedFields s)).length < 16777216) :
    msccField depth info
        ((mandatory .usedServiceUnit (putFields (usedFields s))).placed pos) d =
      .ok (withUsed s info) := by
  simp only [msccField, placed_ofCode]
  exact parseUsedServiceUnit_fields hdepth hlt rfl

/-- The block of a request. -/
theorem parseMscc_request {mscc : Avp} (hdepth : depth + 2 < kAvpMaxDepth)
    (hlt : (putFields (requestFields s)).length < 16777216)
    (h : mscc.data.bytes = putFields (requestFields s)) :
    parseMscc mscc info depth = .ok (withUsed s (withRatingGroup s info)) := by
  have hused : (putFields (usedFields s)).length < 16777216 :=
    putFields_lt hlt (c := .usedServiceUnit) (by simp [requestFields])
  rw [parseMscc, forEachSubAvp_fields (by omega) hlt h, requestFields,
    foldFields_cons msccField_ratingGroup, foldFields_cons (msccField_used hdepth hused)]
  rfl

def withGranted (s : GySpec) (info : MsccInfo) : MsccInfo :=
  { info with grantedTotalOctets := s.grantedTotal, hasGranted := true }

theorem grantedUnitField_total {pos d : Nat} :
    grantedUnitField info ((mandatory .ccTotalOctets (be64Bytes s.grantedTotal)).placed pos) d =
      .ok { info with grantedTotalOctets := s.grantedTotal } := by
  have hcode : ((mandatory .ccTotalOctets (be64Bytes s.grantedTotal)).placed pos).code =
      AvpCode.ccTotalOctets.code := rfl
  rw [grantedUnitField, if_pos hcode, placed_u64]
  rfl

theorem msccField_granted {pos d : Nat} (hdepth : depth + 3 < kAvpMaxDepth)
    (hlt : (putFields (grantedFields s)).length < 16777216) :
    msccField depth info
        ((mandatory .grantedServiceUnit (putFields (grantedFields s))).placed pos) d =
      .ok (withGranted s info) := by
  simp only [msccField, placed_ofCode]
  rw [forEachSubAvp_fields hdepth hlt rfl, grantedFields, foldFields_cons grantedUnitField_total]
  rfl

/-- A block keeps no result code. -/
theorem msccField_resultCode {pos d : Nat} {data : List UInt8} :
    msccField depth info ((mandatory .resultCode data).placed pos) d = .ok info := by
  simp only [msccField, placed_ofCode]

/-- The block of an answer. -/
theorem parseMscc_answer {mscc : Avp} (hdepth : depth + 3 < kAvpMaxDepth)
    (hlt : (putFields (answerFields s)).length < 16777216)
    (h : mscc.data.bytes = putFields (answerFields s)) :
    parseMscc mscc info depth = .ok (withGranted s (withRatingGroup s info)) := by
  have hgranted : (putFields (grantedFields s)).length < 16777216 :=
    putFields_lt hlt (c := .grantedServiceUnit) (by simp [answerFields])
  rw [parseMscc, forEachSubAvp_fields (by omega) hlt h, answerFields,
    foldFields_cons msccField_ratingGroup, foldFields_cons (msccField_granted hdepth hgranted),
    foldFields_cons msccField_resultCode]
  rfl

/-- The subscription of a request. -/
theorem parseSubscriptionId_fields {sub : Avp} {out : GyMessage}
    (hdepth : depth + 1 < kAvpMaxDepth) (hpos : s.imsi ≠ []) (hmax : s.imsi.length ≤ 19)
    (hdigits : ∀ c ∈ s.imsi, IsDigit c)
    (hlt : (putFields (subscriptionFields s)).length < 16777216)
    (h : sub.data.bytes = putFields (subscriptionFields s)) :
    parseSubscriptionId sub out depth =
      .ok { out with hasImsi := true, imsi := UInt64.ofNat (imsiValue s.imsi) } := by
  have hpack : ∀ pos, packImsi ((mandatory .subscriptionIdData s.imsi).placed pos).data =
      some (UInt64.ofNat (imsiValue s.imsi)) :=
    fun pos => packImsi_digits hpos hmax hdigits
  rw [parseSubscriptionId, forEachSubAvp_fields hdepth hlt h]
  simp only [subscriptionFields, foldFields, mandatories, List.map_cons, List.map_nil,
    placedItems, List.foldlM_cons, List.foldlM_nil, subscriptionField, placed_ofCode, placed_u32,
    Avp.asString, bind, Except.bind, pure, Except.pure, Option.getD_some, if_true, hpack,
    Option.isSome_some]

end Blocks

section Updates

-- one update for each field, so that a message that is being read stays a small term
namespace GyMessage

variable (out : GyMessage)

def setSessionId (v : Span) : GyMessage :=
  { out with sessionId := v }

def setOriginHost (v : Span) : GyMessage :=
  { out with originHost := v }

def setOriginRealm (v : Span) : GyMessage :=
  { out with originRealm := v }

def setRequestType (v : UInt32) : GyMessage :=
  { out with ccRequestType := v }

def setRequestNumber (v : UInt32) : GyMessage :=
  { out with ccRequestNumber := v }

def setResultCode (v : UInt32) : GyMessage :=
  { out with hasResultCode := true, resultCode := v }

def setImsi (v : UInt64) : GyMessage :=
  { out with hasImsi := true, imsi := v }

/-- The first block, if there is to be one. -/
def setBlock (present : Bool) (f : MsccInfo → MsccInfo) : GyMessage :=
  { out with
    mscc := if present then out.mscc.set 0 (f out.mscc[0]) else out.mscc
    msccCount := if present then 1 else 0 }

end GyMessage
end Updates

section Fields

variable {s : GySpec} {out : GyMessage} {depth pos : Nat} {data : List UInt8} {v : UInt32}

theorem gyField_sessionId :
    gyField out ((mandatory .sessionId data).placed pos) depth =
      .ok (out.setSessionId ((mandatory .sessionId data).placed pos).data) := by
  simp only [gyField, placed_ofCode]
  rfl

theorem gyField_originHost :
    gyField out ((mandatory .originHost data).placed pos) depth =
      .ok (out.setOriginHost ((mandatory .originHost data).placed pos).data) := by
  simp only [gyField, placed_ofCode]
  rfl

theorem gyField_originRealm :
    gyField out ((mandatory .originRealm data).placed pos) depth =
      .ok (out.setOriginRealm ((mandatory .originRealm data).placed pos).data) := by
  simp only [gyField, placed_ofCode]
  rfl

theorem gyField_ccRequestType :
    gyField out ((mandatory .ccRequestType (be32Bytes v)).placed pos) depth =
      .ok (out.setRequestType v) := by
  simp only [gyField, placed_ofCode, placed_u32]
  rfl

theorem gyField_ccRequestNumber :
    gyField out ((mandatory .ccRequestNumber (be32Bytes v)).placed pos) depth =
      .ok (out.setRequestNumber v) := by
  simp only [gyField, placed_ofCode, placed_u32]
  rfl

theorem gyField_resultCode :
    gyField out ((mandatory .resultCode (be32Bytes v)).placed pos) depth =
      .ok (out.setResultCode v) := by
  simp only [gyField, placed_ofCode, placed_u32]
  rfl

/-- The first block of a message. -/
theorem gyField_mscc {f : MsccInfo → MsccInfo} (hcount : out.msccCount = 0)
    (hparse : ∀ old, parseMscc ((mandatory .multipleServicesCreditControl data).placed pos) old
      depth = .ok (f old)) :
    gyField out ((mandatory .multipleServicesCreditControl data).placed pos) depth =
      .ok (out.setBlock true f) := by
  obtain ⟨_, _, _, _, mscc, _, _, _, _, count, _, _, _, _⟩ := out
  obtain rfl : count = 0 := hcount
  simp only [gyField, placed_ofCode, hparse]
  rfl

end Fields

section Messages

variable {s : GySpec} {pos : Nat}

/-- The AVPs of `buildCcr`. -/
def ccrFields (s : GySpec) : List (AvpCode × List UInt8) :=
  [(.sessionId, s.sessionId), (.originHost, s.originHost), (.originRealm, s.originRealm),
    (.ccRequestType, be32Bytes s.requestType), (.ccRequestNumber, be32Bytes s.requestNumber),
    (.subscriptionId, putFields (subscriptionFields s))] ++
    (if s.includeMscc then [(.multipleServicesCreditControl, putFields (requestFields s))] else [])

/-- The AVPs of `buildCca`. -/
def ccaFields (s : GySpec) : List (AvpCode × List UInt8) :=
  [(.sessionId, s.sessionId), (.resultCode, be32Bytes s.resultCode),
    (.originHost, ascii "ocs.example.com"), (.originRealm, s.originRealm),
    (.ccRequestType, be32Bytes s.requestType), (.ccRequestNumber, be32Bytes s.requestNumber)] ++
    (if s.includeMscc then [(.multipleServicesCreditControl, putFields (answerFields s))] else [])

theorem buildCcr_eq (s : GySpec) :
    buildCcr s = buildDiameter kCreditControl kGyApplication true (putFields (ccrFields s))
      kHopByHop kEndToEnd := by
  unfold buildCcr ccrFields
  cases s.includeMscc with
  | false => rfl
  | true => rfl

theorem buildCca_eq (s : GySpec) :
    buildCca s = buildDiameter kCreditControl kGyApplication false (putFields (ccaFields s))
      kHopByHop kEndToEnd := by
  unfold buildCca ccaFields
  cases s.includeMscc with
  | false => rfl
  | true => rfl

/-- The blocks of a message: one if there is to be one. -/
def blocksOf (s : GySpec) (info : MsccInfo) : Vector MsccInfo kMaxMsccPerMessage :=
  if s.includeMscc then (Vector.replicate _ {}).set 0 info else Vector.replicate _ {}

def blockCount (s : GySpec) : Nat :=
  if s.includeMscc then 1 else 0

/-- What is lifted out of a request, whose strings are where they are. -/
def requestMessage (s : GySpec) (sessionId originHost originRealm : Span) : GyMessage where
  sessionId := sessionId
  originHost := originHost
  originRealm := originRealm
  mscc := blocksOf s (withUsed s (withRatingGroup s {}))
  imsi := UInt64.ofNat (imsiValue s.imsi)
  ccRequestType := s.requestType
  ccRequestNumber := s.requestNumber
  msccCount := blockCount s
  isRequest := true
  hasImsi := true

/-- What is lifted out of an answer. -/
def answerMessage (s : GySpec) (sessionId originHost originRealm : Span) : GyMessage where
  sessionId := sessionId
  originHost := originHost
  originRealm := originRealm
  mscc := blocksOf s (withGranted s (withRatingGroup s {}))
  ccRequestType := s.requestType
  ccRequestNumber := s.requestNumber
  resultCode := s.resultCode
  msccCount := blockCount s
  hasResultCode := true

/-- An IMSI of 1 to 19 decimal digits. -/
structure ImsiWf (imsi : List UInt8) : Prop where
  nonempty : imsi ≠ []
  length_le : imsi.length ≤ 19
  digits : ∀ c ∈ imsi, IsDigit c

theorem gyField_subscription {out : GyMessage} {depth : Nat} (hdepth : depth + 1 < kAvpMaxDepth)
    (himsi : ImsiWf s.imsi) (hlt : (putFields (subscriptionFields s)).length < 16777216) :
    gyField out ((mandatory .subscriptionId (putFields (subscriptionFields s))).placed pos)
        depth =
      .ok (out.setImsi (UInt64.ofNat (imsiValue s.imsi))) := by
  simp only [gyField, placed_ofCode]
  exact parseSubscriptionId_fields hdepth himsi.nonempty himsi.length_le himsi.digits hlt rfl

/-- The end of a message: its block, if there is to be one. -/
theorem foldFields_block {out : GyMessage} {depth : Nat} {data : List UInt8}
    {f : MsccInfo → MsccInfo} (hcount : out.msccCount = 0)
    (hparse : s.includeMscc = true → ∀ old, parseMscc
      ((mandatory .multipleServicesCreditControl data).placed pos) old depth = .ok (f old)) :
    foldFields gyField depth pos
        (if s.includeMscc then [(.multipleServicesCreditControl, data)] else []) out =
      .ok (out.setBlock s.includeMscc f) := by
  cases hm : s.includeMscc with
  | false =>
      have hout : out.setBlock false f = out := by
        simp only [GyMessage.setBlock, Bool.false_eq_true, if_false, ← hcount]
      rw [hout]
      rfl
  | true =>
      rw [if_pos rfl]
      rw [foldFields_cons (gyField_mscc hcount (hparse hm))]
      rfl

theorem foldFields_ccr (himsi : ImsiWf s.imsi)
    (hlt : (putFields (ccrFields s)).length < 16777216) :
    ∃ session host realm, foldFields gyField 0 pos (ccrFields s) { isRequest := true } =
      .ok (requestMessage s session host realm) := by
  have hsub : (putFields (subscriptionFields s)).length < 16777216 :=
    putFields_lt hlt (c := .subscriptionId) (by simp [ccrFields])
  have hblock : s.includeMscc = true → ∀ pos old, parseMscc
      ((mandatory .multipleServicesCreditControl (putFields (requestFields s))).placed pos) old 0 =
        .ok (withUsed s (withRatingGroup s old)) := by
    intro hm pos old
    have hlt' : (putFields (requestFields s)).length < 16777216 :=
      putFields_lt hlt (c := .multipleServicesCreditControl) (by simp [ccrFields, hm])
    exact parseMscc_request (by decide) hlt' rfl
  simp only [ccrFields, List.cons_append, List.nil_append]
  rw [foldFields_cons gyField_sessionId, foldFields_cons gyField_originHost,
    foldFields_cons gyField_originRealm, foldFields_cons gyField_ccRequestType,
    foldFields_cons gyField_ccRequestNumber,
    foldFields_cons (gyField_subscription (by decide) himsi hsub),
    foldFields_block rfl (fun hm => hblock hm _)]
  exact ⟨_, _, _, rfl⟩

theorem foldFields_cca (hlt : (putFields (ccaFields s)).length < 16777216) :
    ∃ session host realm, foldFields gyField 0 pos (ccaFields s) {} =
      .ok (answerMessage s session host realm) := by
  have hblock : s.includeMscc = true → ∀ pos old, parseMscc
      ((mandatory .multipleServicesCreditControl (putFields (answerFields s))).placed pos) old 0 =
        .ok (withGranted s (withRatingGroup s old)) := by
    intro hm pos old
    have hlt' : (putFields (answerFields s)).length < 16777216 :=
      putFields_lt hlt (c := .multipleServicesCreditControl) (by simp [ccaFields, hm])
    exact parseMscc_answer (by decide) hlt' rfl
  simp only [ccaFields, List.cons_append, List.nil_append]
  rw [foldFields_cons gyField_sessionId, foldFields_cons gyField_resultCode,
    foldFields_cons gyField_originHost, foldFields_cons gyField_originRealm,
    foldFields_cons gyField_ccRequestType, foldFields_cons gyField_ccRequestNumber,
    foldFields_block rfl (fun hm => hblock hm _)]
  exact ⟨_, _, _, rfl⟩

end Messages

section Wire

variable {commandCode appId hopByHop endToEnd : UInt32} {request : Bool} {avps : List UInt8}

/-- The length field of a built message. -/
def builtLength (avps : List UInt8) : UInt32 :=
  UInt32.ofNat (kDiameterHeaderLen + avps.length)

theorem builtLength_toNat (hmax : kDiameterHeaderLen + avps.length ≤ kDiameterMaxMsgLen) :
    (builtLength avps).toNat = kDiameterHeaderLen + avps.length := by
  have : kDiameterMaxMsgLen = 1048576 := rfl
  rw [builtLength, UInt32.toNat_ofNat']
  omega

theorem declaredLength_built (hmax : kDiameterHeaderLen + avps.length ≤ kDiameterMaxMsgLen) :
    declaredLength (.whole (buildDiameter commandCode appId request avps hopByHop endToEnd)) =
      builtLength avps := by
  have hlt : (builtLength avps).toNat < 16777216 := by
    have : kDiameterMaxMsgLen = 1048576 := rfl
    rw [builtLength_toNat hmax]
    omega
  exact be24_be24Bytes hlt

theorem headerFits_built (haligned : avps.length % 4 = 0)
    (hmax : kDiameterHeaderLen + avps.length ≤ kDiameterMaxMsgLen) :
    HeaderFits (.whole (buildDiameter commandCode appId request avps hopByHop endToEnd)) := by
  have hhead : kDiameterHeaderLen = 20 := rfl
  have hdeclared : declaredLength
      (.whole (buildDiameter commandCode appId request avps hopByHop endToEnd)) =
        builtLength avps := declaredLength_built hmax
  have hlen := builtLength_toNat hmax
  have hsize : (Span.whole (buildDiameter commandCode appId request avps hopByHop endToEnd)).size =
      kDiameterHeaderLen + avps.length := by
    simp [Span.whole, Span.size, buildDiameter, be24Bytes, be32Bytes, hhead]
    omega
  refine ⟨by omega, rfl, ?_, ?_, ?_, ?_⟩
  · rw [hdeclared, hlen]
    exact Nat.le_add_right _ _
  · rw [hdeclared, hlen]
    exact hmax
  · apply UInt32.toNat_inj.mp
    rw [hdeclared, UInt32.toNat_and, hlen]
    change (kDiameterHeaderLen + avps.length) &&& (2 ^ 2 - 1) = 0
    rw [Nat.and_two_pow_sub_one_eq_mod]
    omega
  · rw [hdeclared, hlen, hsize]

theorem headerOf_built_avps (hmax : kDiameterHeaderLen + avps.length ≤ kDiameterMaxMsgLen) :
    (headerOf (.whole (buildDiameter commandCode appId request avps hopByHop endToEnd))).avps =
      ⟨kDiameterHeaderLen, avps⟩ := by
  have hdrop : (buildDiameter commandCode appId request avps hopByHop endToEnd).drop
      kDiameterHeaderLen = avps := by
    simp [buildDiameter, be24Bytes, be32Bytes, kDiameterHeaderLen]
  simp only [headerOf]
  rw [declaredLength_built hmax, builtLength_toNat hmax, Nat.add_sub_cancel_left]
  simp only [Span.whole, hdrop, List.take_length, Nat.zero_add]

theorem headerOf_built_creditControl :
    (headerOf (.whole
      (buildDiameter kCreditControl appId request avps hopByHop endToEnd))).isCreditControl =
        true := by
  have hcode : (headerOf (.whole
      (buildDiameter kCreditControl appId request avps hopByHop endToEnd))).commandCode =
        kCreditControl := be24_be24Bytes (by decide)
  rw [DiameterHeader.isCreditControl, hcode]
  rfl

theorem headerOf_built_request :
    (headerOf (.whole
      (buildDiameter commandCode appId request avps hopByHop endToEnd))).request = request := by
  change ((if request then 0x80 else 0x00 : UInt8) &&& 0x80 != 0) = request
  cases request with
  | false => rfl
  | true => rfl

/-- A built Credit-Control message is read into what the fold over its AVPs gives. -/
theorem parseDiameterGy_built {fields : List (AvpCode × List UInt8)} {gy : GyMessage}
    (hmax : kDiameterHeaderLen + (putFields fields).length ≤ kDiameterMaxMsgLen)
    (hfold : foldFields gyField 0 kDiameterHeaderLen fields { isRequest := request } = .ok gy) :
    parseDiameterGy (.whole
        (buildDiameter kCreditControl appId request (putFields fields) hopByHop endToEnd)) =
      .ok (.ok, headerOf (.whole
        (buildDiameter kCreditControl appId request (putFields fields) hopByHop endToEnd)), gy) := by
  have hlt : (putFields fields).length < 16777216 := by
    have : kDiameterMaxMsgLen = 1048576 := rfl
    omega
  have hgy : parseGy (headerOf (.whole
      (buildDiameter kCreditControl appId request (putFields fields) hopByHop endToEnd))) =
        .ok (.ok, gy) := by
    rw [parseGy, headerOf_built_request, headerOf_built_avps hmax,
      forEachAvp_putAvps (by decide) (mandatories_wf hlt) rfl]
    rw [foldFields] at hfold
    rw [hfold]
    rfl
  rw [parseDiameterGy, parseDiameterHeader_of_fits (headerFits_built (putFields_aligned _) hmax)]
  simp only [bind, Except.bind, ne_eq, not_true_eq_false, if_false, headerOf_built_creditControl,
    Bool.not_true, Bool.false_eq_true]
  rw [hgy]

theorem buildDiameter_length {commandCode appId hopByHop endToEnd : UInt32} {request : Bool}
    (avps : List UInt8) :
    (buildDiameter commandCode appId request avps hopByHop endToEnd).length =
      kDiameterHeaderLen + avps.length := by
  simp [buildDiameter, be24Bytes, be32Bytes, kDiameterHeaderLen]
  omega

theorem isMessage_built {fields : List (AvpCode × List UInt8)} {gy : GyMessage}
    (hmax : kDiameterHeaderLen + (putFields fields).length ≤ kDiameterMaxMsgLen)
    (hfold : foldFields gyField 0 kDiameterHeaderLen fields { isRequest := request } = .ok gy) :
    IsMessage
      (buildDiameter kCreditControl appId request (putFields fields) hopByHop endToEnd) := by
  refine ⟨_, _, parseDiameterGy_built hmax hfold, ?_⟩
  rw [buildDiameter_length, ← builtLength_toNat hmax, ← declaredLength_built hmax]
  rfl

theorem messageEvents_built {fields : List (AvpCode × List UInt8)} {gy : GyMessage}
    {tsNs : UInt64} (hmax : kDiameterHeaderLen + (putFields fields).length ≤ kDiameterMaxMsgLen)
    (hfold : foldFields gyField 0 kDiameterHeaderLen fields { isRequest := request } = .ok gy) :
    messageEvents tsNs
        (buildDiameter kCreditControl appId request (putFields fields) hopByHop endToEnd) =
      gyEventsOf gy tsNs := by
  rw [messageEvents, parseDiameterGy_built hmax hfold]
  simp only [headerOf_built_creditControl, if_true]

end Wire

section Survival

variable {s : GySpec} {tsNs : UInt64} {ing : Ingest}

/-- The one event of a message that is built from `s`. -/
theorem gyEventsOf_blocks {gy : GyMessage} {info : MsccInfo}
    (hmscc : gy.mscc = blocksOf s info) (hcount : gy.msccCount = blockCount s) :
    gyEventsOf gy tsNs =
      [if s.includeMscc then blockEvent (messageEvent gy tsNs) info else messageEvent gy tsNs] := by
  rw [gyEventsOf, hmscc, hcount, blocksOf, blockCount]
  cases s.includeMscc with
  | false => rfl
  | true => rfl

/-- One message counted and one event pushed, and nothing else. -/
def Ingest.withGyEvent (ing : Ingest) (q : SpscRing GyEvent) (ev : GyEvent) : Ingest :=
  { ing with
    gyRing := some ((q.popTimes (ing.gyPops ing.gyPushes)).tryPush ev).1
    gyPushes := ing.gyPushes + 1
    stats.diameterMessages := ing.stats.diameterMessages + 1
    stats.gyEvents := ing.stats.gyEvents + 1 }

theorem processDiameter_one {m : List UInt8} {ev : GyEvent} {q : SpscRing GyEvent}
    (h : IsMessage m) (hevents : messageEvents tsNs m = [ev]) (hring : ing.gyRing = some q)
    (htaken : ((q.popTimes (ing.gyPops ing.gyPushes)).tryPush ev).2 = true) :
    ing.processDiameter (.whole m) tsNs = .ok (ing.withGyEvent q ev, .gyControl) := by
  have htakes : ing.gyTakes ev = true := by
    rw [Ingest.gyTakes, hring]
    exact htaken
  have hpush : (ing.countMessages 1).pushGyAll [ev] false = (ing.withGyEvent q ev, true) := by
    rw [Ingest.pushGyAll_countMessages]
    simp only [Ingest.pushGyAll, List.foldl_cons, List.foldl_nil, Ingest.pushGy_eq, htakes, hring,
      Option.map_some, Option.isSome_some, if_true, UInt64.add_zero, Bool.false_or]
    rfl
  have hbytes : (Span.whole m).bytes = m := rfl
  rw [Ingest.processDiameter_whole hbytes h, Ingest.afterMessages, Ingest.anyTaken]
  simp only [List.flatMap_cons, List.flatMap_nil, List.append_nil, List.length_cons,
    List.length_nil, Nat.zero_add, hevents, hpush]
  rfl

/-- What the event of a request says. -/
structure RequestEvent (s : GySpec) (ev : GyEvent) : Prop where
  isRequest : ev.isRequest = true
  hasImsi : ev.hasImsi = true
  imsi : ev.imsi.toNat = imsiValue s.imsi
  requestType : ev.ccRequestType = s.requestType
  requestNumber : ev.ccRequestNumber = s.requestNumber
  block : s.includeMscc = true →
    ev.ratingGroup = s.ratingGroup ∧ ev.usedInputOctets = s.usedInput ∧
      ev.usedOutputOctets = s.usedOutput ∧
      ev.usedTotalOctets.toNat = (s.usedInput.toNat + s.usedOutput.toNat) % 18446744073709551616 ∧
      ev.hasUsed = true

/-- What the event of an answer says. -/
structure AnswerEvent (s : GySpec) (ev : GyEvent) : Prop where
  isRequest : ev.isRequest = false
  resultCode : ev.resultCode = s.resultCode
  block : s.includeMscc = true →
    ev.ratingGroup = s.ratingGroup ∧ ev.grantedTotalOctets = s.grantedTotal ∧
      ev.hasGranted = true ∧ ev.hasUsed = false

/-- The packed number is the number, which fits 64 bits. -/
theorem ImsiWf.toNat_ofNat {imsi : List UInt8} (h : ImsiWf imsi) :
    (UInt64.ofNat (imsiValue imsi)).toNat = imsiValue imsi := by
  have hlt := imsiValue_lt h.digits
  have hpow : 10 ^ imsi.length ≤ 10 ^ 19 := Nat.pow_le_pow_right (by decide) h.length_le
  rw [UInt64.toNat_ofNat']
  omega

theorem ccr_message (himsi : ImsiWf s.imsi) (hmax : (buildCcr s).length ≤ kDiameterMaxMsgLen) :
    IsMessage (buildCcr s) ∧ ∃ ev, messageEvents tsNs (buildCcr s) = [ev] ∧ RequestEvent s ev := by
  rw [buildCcr_eq, buildDiameter_length] at hmax
  have hlt : (putFields (ccrFields s)).length < 16777216 := by
    have : kDiameterMaxMsgLen = 1048576 := rfl
    omega
  obtain ⟨session, host, realm, hfold⟩ : ∃ session host realm, foldFields gyField 0
      kDiameterHeaderLen (ccrFields s) { isRequest := true } =
        .ok (requestMessage s session host realm) := foldFields_ccr himsi hlt
  rw [buildCcr_eq]
  refine ⟨isMessage_built hmax hfold, _,
    (messageEvents_built hmax hfold).trans (gyEventsOf_blocks rfl rfl), ?_⟩
  cases hm : s.includeMscc with
  | false =>
      refine ⟨rfl, rfl, himsi.toNat_ofNat, rfl, rfl, ?_⟩
      intro h
      rw [hm] at h
      cases h
  | true =>
      have htotal : (s.usedInput + s.usedOutput).toNat =
          (s.usedInput.toNat + s.usedOutput.toNat) % 18446744073709551616 := UInt64.toNat_add _ _
      exact ⟨rfl, rfl, himsi.toNat_ofNat, rfl, rfl, fun _ => ⟨rfl, rfl, rfl, htotal, rfl⟩⟩

theorem cca_message (hmax : (buildCca s).length ≤ kDiameterMaxMsgLen) :
    IsMessage (buildCca s) ∧ ∃ ev, messageEvents tsNs (buildCca s) = [ev] ∧ AnswerEvent s ev := by
  rw [buildCca_eq, buildDiameter_length] at hmax
  have hlt : (putFields (ccaFields s)).length < 16777216 := by
    have : kDiameterMaxMsgLen = 1048576 := rfl
    omega
  obtain ⟨session, host, realm, hfold⟩ : ∃ session host realm, foldFields gyField 0
      kDiameterHeaderLen (ccaFields s) { isRequest := false } =
        .ok (answerMessage s session host realm) := foldFields_cca hlt
  rw [buildCca_eq]
  refine ⟨isMessage_built hmax hfold, _,
    (messageEvents_built hmax hfold).trans (gyEventsOf_blocks rfl rfl), ?_⟩
  cases hm : s.includeMscc with
  | false =>
      refine ⟨rfl, rfl, ?_⟩
      intro h
      rw [hm] at h
      cases h
  | true => exact ⟨rfl, rfl, fun _ => ⟨rfl, rfl, rfl, rfl⟩⟩

/-- **Gy messages survive the wire.**  With room on the Gy ring, a built request or answer
is counted as one message and pushes exactly one event, with what it was built from. -/
theorem gy_messages_survive (ing : Ingest) (tsNs : UInt64) (s : GySpec) (q : SpscRing GyEvent)
    (hring : ing.gyRing = some q)
    (hroom : (q.popTimes (ing.gyPops ing.gyPushes)).head -
        (q.popTimes (ing.gyPops ing.gyPushes)).tail <
      (q.popTimes (ing.gyPops ing.gyPushes)).capacity)
    (himsi : ImsiWf s.imsi) :
    ((buildCcr s).length ≤ kDiameterMaxMsgLen →
      ∃ ev, ing.processDiameter (.whole (buildCcr s)) tsNs =
          .ok (ing.withGyEvent q ev, .gyControl) ∧
        ((q.popTimes (ing.gyPops ing.gyPushes)).tryPush ev).2 = true ∧ RequestEvent s ev) ∧
    ((buildCca s).length ≤ kDiameterMaxMsgLen →
      ∃ ev, ing.processDiameter (.whole (buildCca s)) tsNs =
          .ok (ing.withGyEvent q ev, .gyControl) ∧
        ((q.popTimes (ing.gyPops ing.gyPushes)).tryPush ev).2 = true ∧ AnswerEvent s ev) := by
  have htaken := SpscRing.tryPush_of_room hroom
  constructor
  · intro hmax
    obtain ⟨hmessage, ev, hevents, hev⟩ := ccr_message himsi hmax
    exact ⟨ev, processDiameter_one hmessage hevents hring (htaken ev), htaken ev, hev⟩
  · intro hmax
    obtain ⟨hmessage, ev, hevents, hev⟩ := cca_message hmax
    exact ⟨ev, processDiameter_one hmessage hevents hring (htaken ev), htaken ev, hev⟩

/-- The defaults of the source, with octets used and granted. -/
def countedSpec : GySpec :=
  { usedInput := 300, usedOutput := 200, grantedTotal := 1000 }

/-- Both messages, onto an empty ring. -/
theorem gy_messages_survive_counted :
    ∃ ev ev', ({ gyRing := some (.init 8) } : Ingest).processDiameter
          (.whole (buildCcr countedSpec)) 7 =
        .ok (({ gyRing := some (.init 8) } : Ingest).withGyEvent (.init 8) ev, .gyControl) ∧
      ({ gyRing := some (.init 8) } : Ingest).processDiameter (.whole (buildCca countedSpec)) 7 =
        .ok (({ gyRing := some (.init 8) } : Ingest).withGyEvent (.init 8) ev', .gyControl) ∧
      ev.imsi.toNat = 310150123456789 ∧ ev.usedInputOctets = 300 ∧ ev.usedOutputOctets = 200 ∧
      ev.usedTotalOctets.toNat = 500 ∧ ev'.grantedTotalOctets = 1000 ∧ ev'.resultCode = 2001 := by
  have himsi : ImsiWf countedSpec.imsi :=
    ⟨by decide +kernel, by decide +kernel, by decide +kernel⟩
  obtain ⟨hccr, hcca⟩ := gy_messages_survive { gyRing := some (.init 8) } 7 countedSpec (.init 8)
    rfl (by decide) himsi
  obtain ⟨ev, hrun, -, hev⟩ := hccr (by decide +kernel)
  obtain ⟨ev', hrun', -, hev'⟩ := hcca (by decide +kernel)
  obtain ⟨-, hin, hout, htotal, -⟩ := hev.block rfl
  have hnumber : imsiValue countedSpec.imsi = 310150123456789 := by decide +kernel
  exact ⟨ev, ev', hrun, hrun', hev.imsi.trans hnumber, hin, hout, htotal, (hev'.block rfl).2.1,
    hev'.resultCode⟩

end Survival
end GtpMeter
