import GtpMeter.ByteSpan

/-!
# Diameter messages and Gy credit control

`diameter.hpp`: the base header, the walk over an AVP area and the fields that the
pipeline lifts out of a Credit-Control message.  An AVP value is a span of the caller's
buffer.  A callback of the walk is a function on the state that the source's lambda
captures by reference; with the new state it says whether the walk goes on.
-/

namespace GtpMeter

def kDiameterPort : UInt16 := 3868

def kDiameterHeaderLen : Nat := 20

def kDiameterMaxMsgLen : Nat := 1 <<< 20

def kAvpMaxDepth : Nat := 8

/-- The command of CCR and CCA. -/
def kCreditControl : UInt32 := 272

abbrev kMaxMsccPerMessage : Nat := 8

/-- The AVPs that the Gy extraction reads. -/
inductive AvpCode where
  | sessionId
  | originHost
  | originRealm
  | resultCode
  | ccRequestType
  | ccRequestNumber
  | subscriptionId
  | subscriptionIdType
  | subscriptionIdData
  | multipleServicesCreditControl
  | ratingGroup
  | serviceIdentifier
  | grantedServiceUnit
  | usedServiceUnit
  | ccInputOctets
  | ccOutputOctets
  | ccTotalOctets
deriving DecidableEq, Repr

namespace AvpCode

def code : AvpCode → UInt32
  | sessionId => 263
  | originHost => 264
  | originRealm => 296
  | resultCode => 268
  | ccRequestType => 416
  | ccRequestNumber => 415
  | subscriptionId => 443
  | subscriptionIdType => 450
  | subscriptionIdData => 444
  | multipleServicesCreditControl => 456
  | ratingGroup => 432
  | serviceIdentifier => 439
  | grantedServiceUnit => 431
  | usedServiceUnit => 446
  | ccInputOctets => 412
  | ccOutputOctets => 414
  | ccTotalOctets => 421

def all : List AvpCode :=
  [sessionId, originHost, originRealm, resultCode, ccRequestType, ccRequestNumber,
    subscriptionId, subscriptionIdType, subscriptionIdData, multipleServicesCreditControl,
    ratingGroup, serviceIdentifier, grantedServiceUnit, usedServiceUnit, ccInputOctets,
    ccOutputOctets, ccTotalOctets]

/-- The case of a `switch` over AVP codes; `none` is its `default`. -/
def ofCode (c : UInt32) : Option AvpCode :=
  all.find? (fun k => k.code == c)

theorem ofCode_code (k : AvpCode) : ofCode k.code = some k := by
  cases k <;> decide

theorem ofCode_eq_some_iff {c : UInt32} {k : AvpCode} : ofCode c = some k ↔ c = k.code := by
  constructor
  · intro h
    have hfound : (k.code == c) = true := List.find?_some (p := fun k : AvpCode => k.code == c) h
    exact (beq_iff_eq.mp hfound).symm
  · rintro rfl
    exact ofCode_code k

end AvpCode

inductive SubscriptionIdType where
  | e164
  | imsi
deriving DecidableEq, Repr

def SubscriptionIdType.code : SubscriptionIdType → UInt32
  | .e164 => 0
  | .imsi => 1

inductive DiameterStatus where
  | ok
  | truncated
  | badVersion
  | badLength
  | badAvp
  | avpTooDeep
deriving DecidableEq, Repr

section Header

structure DiameterHeader where
  /-- The message without its 20-byte header. -/
  avps : Span := {}
  msgLength : UInt32 := 0
  commandCode : UInt32 := 0
  applicationId : UInt32 := 0
  hopByHop : UInt32 := 0
  endToEnd : UInt32 := 0
  flags : UInt8 := 0
deriving DecidableEq

namespace DiameterHeader

def request (hdr : DiameterHeader) : Bool :=
  hdr.flags &&& 0x80 != 0

def isCreditControl (hdr : DiameterHeader) : Bool :=
  hdr.commandCode == kCreditControl

end DiameterHeader

def parseDiameterHeader (buf : Span) : Except OutOfBounds (DiameterStatus × DiameterHeader) :=
  if buf.size < kDiameterHeaderLen then .ok (.truncated, {}) else do
  let version ← buf.read 0
  if version ≠ 1 then .ok (.badVersion, {}) else do
  let len ← buf.loadBe24 1
  if len.toNat < kDiameterHeaderLen ∨ len.toNat > kDiameterMaxMsgLen then
    .ok (.badLength, {})
  -- RFC 6733: always aligned to 4 bytes
  else if len &&& 3 ≠ 0 then .ok (.badLength, {})
  else if buf.size < len.toNat then .ok (.truncated, {})
  else do
    let flags ← buf.read 4
    let commandCode ← buf.loadBe24 5
    let applicationId ← buf.loadBe32 8
    let hopByHop ← buf.loadBe32 12
    let endToEnd ← buf.loadBe32 16
    let avps ← buf.subspan kDiameterHeaderLen (len.toNat - kDiameterHeaderLen)
    .ok (.ok,
      { avps, msgLength := len, commandCode, applicationId, hopByHop, endToEnd, flags })

end Header

section Avps

structure Avp where
  /-- The value, without padding. -/
  data : Span := {}
  code : UInt32 := 0
  vendorId : UInt32 := 0
  /-- Declared length, header included and padding not. -/
  length : UInt32 := 0
  flags : UInt8 := 0
deriving DecidableEq

namespace Avp

def vendorSpecific (avp : Avp) : Bool :=
  avp.flags &&& 0x80 != 0

def headerLen (avp : Avp) : Nat :=
  if avp.vendorSpecific then 12 else 8

def asU32 (avp : Avp) : Except OutOfBounds (Option UInt32) :=
  if avp.data.size ≠ 4 then .ok none
  else do
    let v ← avp.data.loadBe32 0
    .ok (some v)

def asI32 (avp : Avp) : Except OutOfBounds (Option Int32) := do
  let v ← avp.asU32
  .ok (v.map UInt32.toInt32)

/-- Also accepts four bytes, as some peers encode octet counters. -/
def asU64 (avp : Avp) : Except OutOfBounds (Option UInt64) :=
  if avp.data.size = 8 then do
    let v ← avp.data.loadBe64 0
    .ok (some v)
  else if avp.data.size = 4 then do
    let v ← avp.data.loadBe32 0
    .ok (some v.toUInt64)
  else .ok none

def asString (avp : Avp) : Span :=
  avp.data

/-- Values are padded to a multiple of 4 bytes. -/
def advance (avp : Avp) : Nat :=
  (avp.length + 3).toNat / 4 * 4

end Avp

/-- The vendor id, which only a vendor-specific AVP has. -/
def readVendorId (area : Span) (off : Nat) (avp : Avp) : Except OutOfBounds UInt32 :=
  if avp.vendorSpecific then do
    let vendorId ← area.loadBe32 (off + 8)
    .ok vendorId
  else .ok avp.vendorId

/-- The value of an AVP whose header is read; `none` when its length does not fit. -/
def takeAvpData (area : Span) (off : Nat) (avp : Avp) : Except OutOfBounds (Option Avp) :=
  if avp.length.toNat < avp.headerLen then .ok none
  else if avp.length.toNat > area.size - off then .ok none
  else do
    let vendorId ← readVendorId area off avp
    let data ← area.subspan (off + avp.headerLen) (avp.length.toNat - avp.headerLen)
    .ok (some { avp with vendorId, data })

/-- The AVP at `off`. -/
def readAvp (area : Span) (off : Nat) : Except OutOfBounds (Option Avp) :=
  if area.size - off < 8 then .ok none
  else do
    let code ← area.loadBe32 off
    let flags ← area.read (off + 4)
    let length ← area.loadBe24 (off + 5)
    takeAvpData area off { code, flags, length }

variable {S : Type}

/-- The callback of a walk: the captured state, the AVP and its depth. -/
abbrev AvpFn (S : Type) := S → Avp → Nat → Except OutOfBounds (S × Bool)

/-- The loop of `for_each_avp`. -/
def avpLoop (fn : AvpFn S) (depth : Nat) (area : Span) (off : Nat) (s : S) :
    Except OutOfBounds (DiameterStatus × S) :=
  if off < area.size then do
    let found ← readAvp area off
    match found with
    | none => .ok (.badAvp, s)
    | some avp => do
        let (s, more) ← fn s avp depth
        if !more then .ok (.ok, s)
        else if avp.advance = 0 ∨ avp.advance > area.size - off then .ok (.badAvp, s)
        else avpLoop fn depth area (off + avp.advance) s
  else .ok (.ok, s)
termination_by area.size - off

def forEachAvp (fn : AvpFn S) (depth : Nat) (area : Span) (s : S) :
    Except OutOfBounds (DiameterStatus × S) :=
  if depth ≥ kAvpMaxDepth then .ok (.avpTooDeep, s)
  else avpLoop fn depth area 0 s

/-- The walk over the contents of a grouped AVP. -/
def forEachSubAvp (fn : AvpFn S) (depth : Nat) (grouped : Avp) (s : S) :
    Except OutOfBounds (DiameterStatus × S) :=
  forEachAvp fn (depth + 1) grouped.data s

/-- A callback that never stops the walk. -/
def visitAll (f : S → Avp → Nat → Except OutOfBounds S) : AvpFn S :=
  fun s avp depth => do
    let s ← f s avp depth
    .ok (s, true)

/-- The callback that only records what it is called with, in order. -/
def collectAvps : AvpFn (List Avp) :=
  visitAll (fun seen avp _ => .ok (seen ++ [avp]))

end Avps

section Gy

/-- One Multiple-Services-Credit-Control block. -/
structure MsccInfo where
  usedInputOctets : UInt64 := 0
  usedOutputOctets : UInt64 := 0
  usedTotalOctets : UInt64 := 0
  grantedTotalOctets : UInt64 := 0
  ratingGroup : UInt32 := 0
  serviceIdentifier : UInt32 := 0
  hasRatingGroup : Bool := false
  hasServiceIdentifier : Bool := false
  hasUsed : Bool := false
  hasGranted : Bool := false
deriving DecidableEq

structure GyMessage where
  sessionId : Span := {}
  originHost : Span := {}
  originRealm : Span := {}
  msisdn : Span := {}
  mscc : Vector MsccInfo kMaxMsccPerMessage := Vector.replicate _ {}
  /-- Packed decimal, 0 when absent. -/
  imsi : UInt64 := 0
  ccRequestType : UInt32 := 0
  ccRequestNumber : UInt32 := 0
  resultCode : UInt32 := 0
  msccCount : Nat := 0
  isRequest : Bool := false
  hasImsi : Bool := false
  hasResultCode : Bool := false
  /-- There were more blocks than were kept. -/
  msccOverflow : Bool := false
deriving DecidableEq

/-- The loop of `pack_imsi`. -/
def packDigits : List UInt8 → UInt64 → Option UInt64
  | [], v => some v
  | c :: cs, v =>
      if c < 48 ∨ c > 57 then none else packDigits cs (v * 10 + (c - 48).toUInt64)

def packImsi (s : Span) : Option UInt64 :=
  if s.size = 0 ∨ s.size > 19 then none else packDigits s.bytes 0

def usedUnitField (info : MsccInfo) (a : Avp) (_ : Nat) : Except OutOfBounds MsccInfo :=
  match AvpCode.ofCode a.code with
  | some .ccInputOctets => do
      let v ← a.asU64
      .ok { info with usedInputOctets := v.getD info.usedInputOctets }
  | some .ccOutputOctets => do
      let v ← a.asU64
      .ok { info with usedOutputOctets := v.getD info.usedOutputOctets }
  | some .ccTotalOctets => do
      let v ← a.asU64
      .ok { info with usedTotalOctets := v.getD info.usedTotalOctets }
  | _ => .ok info

def parseUsedServiceUnit (usu : Avp) (info : MsccInfo) (depth : Nat) :
    Except OutOfBounds MsccInfo := do
  -- the status of the inner walk is not looked at
  let (_, info) ← forEachSubAvp (visitAll usedUnitField) depth usu
    { info with hasUsed := true }
  if info.usedTotalOctets = 0 then
    .ok { info with usedTotalOctets := info.usedInputOctets + info.usedOutputOctets }
  else .ok info

def grantedUnitField (info : MsccInfo) (g : Avp) (_ : Nat) : Except OutOfBounds MsccInfo :=
  if g.code = AvpCode.ccTotalOctets.code then do
    let v ← g.asU64
    .ok { info with grantedTotalOctets := v.getD info.grantedTotalOctets }
  else .ok info

/-- `depth` is that of the MSCC itself. -/
def msccField (depth : Nat) (info : MsccInfo) (a : Avp) (_ : Nat) :
    Except OutOfBounds MsccInfo :=
  match AvpCode.ofCode a.code with
  | some .ratingGroup => do
      let v ← a.asU32
      .ok { info with
        hasRatingGroup := v.isSome
        ratingGroup := v.getD info.ratingGroup }
  | some .serviceIdentifier => do
      let v ← a.asU32
      .ok { info with
        hasServiceIdentifier := v.isSome
        serviceIdentifier := v.getD info.serviceIdentifier }
  | some .usedServiceUnit => parseUsedServiceUnit a info (depth + 1)
  | some .grantedServiceUnit => do
      let (_, info) ← forEachSubAvp (visitAll grantedUnitField) (depth + 2) a
        { info with hasGranted := true }
      .ok info
  | _ => .ok info

def parseMscc (msccAvp : Avp) (info : MsccInfo) (depth : Nat) :
    Except OutOfBounds MsccInfo := do
  let (_, info) ← forEachSubAvp (visitAll (msccField depth)) depth msccAvp info
  .ok info

/-- Type and data of a Subscription-Id. -/
def subscriptionField (sub : UInt32 × Span) (a : Avp) (_ : Nat) :
    Except OutOfBounds (UInt32 × Span) :=
  match AvpCode.ofCode a.code with
  | some .subscriptionIdType => do
      let v ← a.asU32
      .ok (v.getD sub.1, sub.2)
  | some .subscriptionIdData => .ok (sub.1, a.asString)
  | _ => .ok sub

def parseSubscriptionId (sub : Avp) (out : GyMessage) (depth : Nat) :
    Except OutOfBounds GyMessage := do
  let (_, type, data) ← forEachSubAvp (visitAll subscriptionField) depth sub (0xFFFFFFFF, {})
  if type = SubscriptionIdType.imsi.code then
    let packed := packImsi data
    .ok { out with hasImsi := packed.isSome, imsi := packed.getD out.imsi }
  else if type = SubscriptionIdType.e164.code then .ok { out with msisdn := data }
  else .ok out

def gyField (out : GyMessage) (a : Avp) (depth : Nat) : Except OutOfBounds GyMessage :=
  match AvpCode.ofCode a.code with
  | some .sessionId => .ok { out with sessionId := a.asString }
  | some .originHost => .ok { out with originHost := a.asString }
  | some .originRealm => .ok { out with originRealm := a.asString }
  | some .ccRequestType => do
      let v ← a.asU32
      .ok { out with ccRequestType := v.getD out.ccRequestType }
  | some .ccRequestNumber => do
      let v ← a.asU32
      .ok { out with ccRequestNumber := v.getD out.ccRequestNumber }
  | some .resultCode => do
      let v ← a.asU32
      .ok { out with hasResultCode := v.isSome, resultCode := v.getD out.resultCode }
  | some .subscriptionId => parseSubscriptionId a out depth
  | some .multipleServicesCreditControl =>
      if h : out.msccCount < kMaxMsccPerMessage then do
        let info ← parseMscc a (out.mscc[out.msccCount]) depth
        .ok { out with
          mscc := out.mscc.set out.msccCount info
          msccCount := out.msccCount + 1 }
      else .ok { out with msccOverflow := true }
  | _ => .ok out

def parseGy (hdr : DiameterHeader) : Except OutOfBounds (DiameterStatus × GyMessage) :=
  forEachAvp (visitAll gyField) 0 hdr.avps { isRequest := hdr.request }

/-- Header and Gy fields; a message of another command leaves the fields unset. -/
def parseDiameterGy (buf : Span) :
    Except OutOfBounds (DiameterStatus × DiameterHeader × GyMessage) := do
  let (st, hdr) ← parseDiameterHeader buf
  if st ≠ .ok then .ok (st, hdr, {})
  else if !hdr.isCreditControl then .ok (.ok, hdr, {})
  else do
    let (st, gy) ← parseGy hdr
    .ok (st, hdr, gy)

end Gy
end GtpMeter
