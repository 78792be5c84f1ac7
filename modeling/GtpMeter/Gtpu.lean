import GtpMeter.ByteSpan

/-!
# The GTP-U header

`gtpu.hpp`: `parse_gtpu` and the walk over the extension-header chain with the PDU
Session Container that carries the QFI.  The header is filled as the parse goes on, so
a rejected PDU leaves the fields read so far.
-/

namespace GtpMeter

def kGtpuPort : UInt16 := 2152

/-- The mandatory header. -/
def kGtpuFixedHeaderLen : Nat := 8

/-- Sequence number, N-PDU number and type of the first extension header. -/
def kGtpuOptionalFieldsLen : Nat := 4

def kGtpuMaxExtHeaders : Nat := 16

inductive GtpuMsgType where
  | echoRequest
  | echoResponse
  | errorIndication
  | supportedExtHeadersNotify
  | endMarker
  | gpdu
deriving DecidableEq, Repr

def GtpuMsgType.code : GtpuMsgType → UInt8
  | .echoRequest => 1
  | .echoResponse => 2
  | .errorIndication => 26
  | .supportedExtHeadersNotify => 31
  | .endMarker => 254
  | .gpdu => 255

/-- The types of extension header that the parser tells apart. -/
inductive GtpuExtType where
  | none
  | pduSessionContainer
deriving DecidableEq, Repr

def GtpuExtType.code : GtpuExtType → UInt8
  | .none => 0x00
  | .pduSessionContainer => 0x85

/-- TS 38.415. -/
inductive PduSessionInfoType where
  | downlink
  | uplink
deriving DecidableEq, Repr

def PduSessionInfoType.code : PduSessionInfoType → UInt8
  | .downlink => 0
  | .uplink => 1

inductive GtpuStatus where
  | ok
  | truncated
  | badVersion
  | notGtpU
  | badLength
  | badExtHeader
  | extChainTooLong
deriving DecidableEq, Repr

structure GtpuHeader where
  /-- The encapsulated packet. -/
  payload : Span := {}
  teid : UInt32 := 0
  seq : UInt16 := 0
  /-- GTP-U bytes consumed, optional fields and extension headers included. -/
  headerLen : UInt16 := 0
  declaredLen : UInt16 := 0
  msgType : UInt8 := 0
  npdu : UInt8 := 0
  qfi : UInt8 := 0
  pduType : UInt8 := 0
  extCount : UInt8 := 0
  hasSeq : Bool := false
  hasNpdu : Bool := false
  hasExt : Bool := false
  hasQfi : Bool := false
  rqi : Bool := false
deriving DecidableEq

namespace GtpuHeader

def isGpdu (h : GtpuHeader) : Bool :=
  h.msgType == GtpuMsgType.gpdu.code

/-- A PDU Session Container with content bytes `c0`, `c1`. -/
def setPduSession (h : GtpuHeader) (c0 c1 : UInt8) : GtpuHeader :=
  { h with
    pduType := c0 >>> 4
    qfi := c1 &&& 0x3F
    rqi := c0 >>> 4 == PduSessionInfoType.downlink.code && c1 &&& 0x40 != 0
    hasQfi := true }

end GtpuHeader

section ExtensionChain

/-- A link of the chain, `extLen` bytes at `consumed`: the length, `extLen - 2` bytes of
content, the next type. -/
def readExtContent (buf : Span) (next : UInt8) (consumed extLen : Nat) (out : GtpuHeader) :
    Except OutOfBounds GtpuHeader :=
  if next = GtpuExtType.pduSessionContainer.code ∧ extLen - 2 ≥ 2 then do
    let c0 ← buf.read (consumed + 1)
    let c1 ← buf.read (consumed + 2)
    .ok (out.setPduSession c0 c1)
  else .ok out

/-- The loop over the chain, with `left` links still allowed. -/
def extChainLoop (buf : Span) :
    Nat → UInt8 → Nat → GtpuHeader → Except OutOfBounds (GtpuStatus × GtpuHeader × Nat)
  | left, next, consumed, out =>
      if next = GtpuExtType.none.code then
        .ok (.ok, { out with extCount := UInt8.ofNat (kGtpuMaxExtHeaders - left) }, consumed)
      else
        match left with
        | 0 => .ok (.extChainTooLong, out, consumed)
        | left + 1 =>
            if consumed ≥ buf.size then .ok (.truncated, out, consumed) else do
            let units ← buf.read consumed
            -- a length of zero would loop for ever
            if units = 0 then .ok (.badExtHeader, out, consumed) else do
            let extLen := units.toNat * 4
            if consumed + extLen > buf.size then .ok (.truncated, out, consumed) else do
            let out ← readExtContent buf next consumed extLen out
            let next ← buf.read (consumed + extLen - 1)
            extChainLoop buf left next (consumed + extLen) out

/-- `buf` begins at the first extension header.  Returns the status, the header and the
bytes consumed. -/
def parseExtChain (buf : Span) (firstType : UInt8) (out : GtpuHeader) :
    Except OutOfBounds (GtpuStatus × GtpuHeader × Nat) :=
  extChainLoop buf kGtpuMaxExtHeaders firstType 0 out

end ExtensionChain

section Header

/-- The end of `parse_gtpu`: what lies between `offset` and the declared end is the
payload. -/
def takeGtpuPayload (frame : Span) (offset optionalAndExt : Nat) (out : GtpuHeader) :
    Except OutOfBounds (GtpuStatus × GtpuHeader) :=
  let declared := out.declaredLen.toNat
  if declared < optionalAndExt then .ok (.badLength, out)
  else do
    let out := { out with headerLen := UInt16.ofNat offset }
    let payload ← frame.subspan offset (declared - optionalAndExt)
    .ok (.ok, { out with payload })

/-- The optional fields and the extension headers. -/
def parseOptional (frame : Span) (eBit sBit pnBit : Bool) (out : GtpuHeader) :
    Except OutOfBounds (GtpuStatus × GtpuHeader) :=
  let declared := out.declaredLen.toNat
  if declared < kGtpuOptionalFieldsLen then .ok (.badLength, out) else do
  let seq ← frame.loadBe16 8
  let npdu ← frame.read 10
  let firstExt ← frame.read 11
  let out := { out with seq, npdu, hasSeq := sBit, hasNpdu := pnBit }
  if eBit && firstExt != GtpuExtType.none.code then do
    let out := { out with hasExt := true }
    -- bytes beyond the declared length, such as Ethernet padding, are not the chain's
    let extArea ← frame.subspan 12 (declared - kGtpuOptionalFieldsLen)
    let (st, out, extBytes) ← parseExtChain extArea firstExt out
    if st ≠ .ok then .ok (st, out)
    else takeGtpuPayload frame (12 + extBytes) (kGtpuOptionalFieldsLen + extBytes) out
  else takeGtpuPayload frame 12 kGtpuOptionalFieldsLen out

/-- `frame` begins at the GTP-U header. -/
def parseGtpu (frame : Span) : Except OutOfBounds (GtpuStatus × GtpuHeader) :=
  if frame.size < kGtpuFixedHeaderLen then .ok (.truncated, {}) else do
  let flags ← frame.read 0
  if flags >>> 5 ≠ 1 then .ok (.badVersion, {}) else do
  if flags &&& 0x10 = 0 then .ok (.notGtpU, {}) else do
  let eBit := flags &&& 0x04 != 0
  let sBit := flags &&& 0x02 != 0
  let pnBit := flags &&& 0x01 != 0
  let msgType ← frame.read 1
  let declaredLen ← frame.loadBe16 2
  let teid ← frame.loadBe32 4
  let out : GtpuHeader := { msgType, declaredLen, teid }
  if frame.size - kGtpuFixedHeaderLen < declaredLen.toNat then .ok (.truncated, out) else do
  if eBit || sBit || pnBit then parseOptional frame eBit sBit pnBit out
  else takeGtpuPayload frame kGtpuFixedHeaderLen 0 out

end Header
end GtpMeter
