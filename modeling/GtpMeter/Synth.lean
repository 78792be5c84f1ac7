import GtpMeter.Diameter
import GtpMeter.Gtpu
import GtpMeter.Net
import GtpMeter.WireBytes

/-!
# The packet builders

`synth.hpp`: the encoders that the tests, the benchmarks and the traffic generator make
their packets with.  A buffer is the list of its bytes; `put_be16` and the like append
the bytes of the word.  Lengths are cut to 16 or 32 bits where the source casts.
`ipv6_from` and `filler`, which make up addresses and payloads, are left out.
-/

namespace GtpMeter
namespace Synth

section Internet

/-- The loop over the words of `checksum16`; an odd last byte is the high half. -/
def sumWords : List UInt8 → UInt32 → UInt32
  | b0 :: b1 :: rest, sum => sumWords rest (sum + (be16 b0 b1).toUInt32)
  | [b0], sum => sum + (b0.toUInt32 <<< 8)
  | [], sum => sum

/-- The loop that folds the carries back in. -/
def foldCarries (sum : UInt32) : UInt32 :=
  if sum >>> 16 = 0 then sum else foldCarries ((sum &&& (0xFFFF : UInt32)) + (sum >>> 16))
termination_by sum.toNat
decreasing_by
  have hlt := sum.toNat_lt
  have hhigh : sum.toNat / 65536 ≠ 0 := by
    intro h
    refine absurd (UInt32.toNat_inj.mp ?_) ‹¬sum >>> 16 = 0›
    simpa [Nat.shiftRight_eq_div_pow] using h
  have hlow : sum.toNat &&& 65535 = sum.toNat % 65536 := Nat.and_two_pow_sub_one_eq_mod _ 16
  simp only [UInt32.toNat_add, UInt32.toNat_and, UInt32.toNat_shiftRight, UInt32.reduceToNat,
    Nat.reduceMod, Nat.shiftRight_eq_div_pow, Nat.reducePow, hlow]
  clear hlow
  have hsum : sum.toNat % 65536 + sum.toNat / 65536 < 4294967296 := by omega
  rw [Nat.mod_eq_of_lt hsum]
  omega

/-- RFC 1071. -/
def checksum16 (data : List UInt8) (seed : UInt32) : UInt16 :=
  (~~~(foldCarries (sumWords data seed)) &&& 0xFFFF).toUInt16

structure UdpSpec where
  srcIp : UInt32 := be32 10 0 0 1
  dstIp : UInt32 := be32 10 0 0 2
  srcPort : UInt16 := 1000
  dstPort : UInt16 := 2000
  ttl : UInt8 := 64

/-- Header of 20 bytes; the checksum is over the header with zero in its place. -/
def ipv4Header (src dst : UInt32) (proto : UInt8) (totalLen : UInt16) (ttl : UInt8)
    (fragFlags : UInt16) : List UInt8 :=
  let before := [0x45, 0x00] ++ be16Bytes totalLen ++ be16Bytes 0 ++ be16Bytes fragFlags ++
    [ttl, proto]
  let after := be32Bytes src ++ be32Bytes dst
  before ++ be16Bytes (checksum16 (before ++ be16Bytes 0 ++ after) 0) ++ after

/-- The default of `frag_flags`: do not fragment. -/
def kDontFragment : UInt16 := 0x4000

def buildIpv4Udp (s : UdpSpec) (payload : List UInt8) : List UInt8 :=
  let udpLen := UInt16.ofNat (8 + payload.length)
  let totalLen := 20 + udpLen
  ipv4Header s.srcIp s.dstIp IpProto.udp.code totalLen s.ttl kDontFragment ++
    be16Bytes s.srcPort ++ be16Bytes s.dstPort ++ be16Bytes udpLen ++ be16Bytes 0 ++ payload

def buildIpv4Tcp (s : UdpSpec) (payload : List UInt8) (seq : UInt32) (tcpFlags : UInt8) :
    List UInt8 :=
  let tcpLen := UInt16.ofNat (20 + payload.length)
  let totalLen := 20 + tcpLen
  ipv4Header s.srcIp s.dstIp IpProto.tcp.code totalLen s.ttl kDontFragment ++
    be16Bytes s.srcPort ++ be16Bytes s.dstPort ++ be32Bytes seq ++ be32Bytes 0 ++
    [0x50, tcpFlags] ++ be16Bytes 0xFFFF ++ be16Bytes 0 ++ be16Bytes 0 ++ payload

structure Udp6Spec where
  src : IpAddr := IpAddr.ofBytes []
  dst : IpAddr := IpAddr.ofBytes []
  srcPort : UInt16 := 1000
  dstPort : UInt16 := 2000
  hopLimit : UInt8 := 64

def buildIpv6Udp (s : Udp6Spec) (payload : List UInt8) : List UInt8 :=
  let udpLen := UInt16.ofNat (8 + payload.length)
  be32Bytes 0x60000000 ++ be16Bytes udpLen ++ [IpProto.udp.code, s.hopLimit] ++
    s.src.toList ++ s.dst.toList ++
    be16Bytes s.srcPort ++ be16Bytes s.dstPort ++ be16Bytes udpLen ++ be16Bytes 0 ++ payload

end Internet

section Ethernet

end Ethernet

/-- The zeros pushed until a size of `n` is a multiple of 4. -/
def padZeros (n : Nat) : List UInt8 :=
  List.replicate ((4 - n % 4) % 4) 0

theorem padZeros_aligned (n : Nat) : (n + (padZeros n).length) % 4 = 0 := by
  simp only [padZeros, List.length_replicate]
  omega

section Gtpu

structure GtpuSpec where
  teid : UInt32 := 0x1000
  msgType : UInt8 := GtpuMsgType.gpdu.code
  withSeq : Bool := false
  seq : UInt16 := 0
  withNpdu : Bool := false
  npdu : UInt8 := 0
  withQfi : Bool := false
  qfi : UInt8 := 0
  /-- 0 is downlink PDU Session Information, 1 uplink. -/
  pduType : UInt8 := 0
  rqi : Bool := false
  /-- Type and content of the headers before the PDU Session Container. -/
  extraExt : List (UInt8 × List UInt8) := []

/-- All extension headers, the PDU Session Container last. -/
def GtpuSpec.chain (s : GtpuSpec) : List (UInt8 × List UInt8) :=
  if s.withQfi then
    s.extraExt ++ [(GtpuExtType.pduSessionContainer.code,
      [s.pduType <<< 4, (if s.rqi then 0x40 else 0x00) ||| (s.qfi &&& 0x3F)])]
  else s.extraExt

/-- The type of the next header, or none after the last. -/
def nextExtType : List (UInt8 × List UInt8) → UInt8
  | [] => GtpuExtType.none.code
  | (type, _) :: _ => type

/-- The loop over the headers: length, content padded to whole units, next type. -/
def extBytes : List (UInt8 × List UInt8) → List UInt8
  | [] => []
  | (_, content) :: rest =>
      let content := content ++ padZeros (content.length + 2)
      [UInt8.ofNat ((content.length + 2) / 4)] ++ content ++ [nextExtType rest] ++ extBytes rest

/-- Version 1, PT, and a flag for each part that is there. -/
def gtpuFlags (withExt withSeq withNpdu : Bool) : UInt8 :=
  0x30 ||| (if withExt then 0x04 else 0) ||| (if withSeq then 0x02 else 0) |||
    (if withNpdu then 0x01 else 0)

/-- Any of the parts brings the optional block. -/
def GtpuSpec.hasOptional (s : GtpuSpec) : Bool :=
  s.withSeq || s.withNpdu || !(extBytes s.chain).isEmpty

/-- The length field before it is cut to 16 bits. -/
def GtpuSpec.bodyLen (s : GtpuSpec) (payload : List UInt8) : Nat :=
  (if s.hasOptional then kGtpuOptionalFieldsLen else 0) + (extBytes s.chain).length +
    payload.length

def buildGtpu (s : GtpuSpec) (payload : List UInt8) : List UInt8 :=
  let ext := extBytes s.chain
  [gtpuFlags (!ext.isEmpty) s.withSeq s.withNpdu, s.msgType] ++
    be16Bytes (UInt16.ofNat (s.bodyLen payload)) ++ be32Bytes s.teid ++
    (if s.hasOptional then be16Bytes s.seq ++ [s.npdu, nextExtType s.chain] ++ ext else []) ++
    payload

end Gtpu

section Diameter

def kAvpFlagVendor : UInt8 := 0x80

def kAvpFlagMandatory : UInt8 := 0x40

/-- Appends one AVP, with the buffer padded to a multiple of 4. -/
def putAvp (out : List UInt8) (code : UInt32) (data : List UInt8) (flags : UInt8)
    (vendorId : UInt32) : List UInt8 :=
  let vendor := flags &&& kAvpFlagVendor != 0
  let hdr : UInt32 := if vendor then 12 else 8
  let len := hdr + UInt32.ofNat data.length
  let out := out ++ be32Bytes code ++ [flags] ++ be24Bytes len ++
    (if vendor then be32Bytes vendorId else []) ++ data
  out ++ padZeros out.length

def putAvpU32 (out : List UInt8) (code value : UInt32) (flags : UInt8) : List UInt8 :=
  putAvp out code (be32Bytes value) flags 0

def putAvpU64 (out : List UInt8) (code : UInt32) (value : UInt64) (flags : UInt8) : List UInt8 :=
  putAvp out code (be64Bytes value) flags 0

def putAvpStr (out : List UInt8) (code : UInt32) (s : List UInt8) (flags : UInt8) : List UInt8 :=
  putAvp out code s flags 0

/-- Wraps sub-AVPs that are already encoded. -/
def putAvpGrouped (out : List UInt8) (code : UInt32) (contents : List UInt8) (flags : UInt8) :
    List UInt8 :=
  putAvp out code contents flags 0

/-- The defaults of `hop_by_hop` and `end_to_end`. -/
def kHopByHop : UInt32 := 0x11111111

def kEndToEnd : UInt32 := 0x22222222

/-- Frames an AVP area as a message. -/
def buildDiameter (commandCode appId : UInt32) (request : Bool) (avps : List UInt8)
    (hopByHop endToEnd : UInt32) : List UInt8 :=
  let len := UInt32.ofNat (kDiameterHeaderLen + avps.length)
  [1] ++ be24Bytes len ++ [if request then 0x80 else 0x00] ++ be24Bytes commandCode ++
    be32Bytes appId ++ be32Bytes hopByHop ++ be32Bytes endToEnd ++ avps

/-- The bytes of a string literal. -/
def ascii (s : String) : List UInt8 :=
  s.toList.map (fun c => c.val.toUInt8)

/-- `DiameterApp::kCreditControl`, which is Gy. -/
def kGyApplication : UInt32 := 4

structure GySpec where
  sessionId : List UInt8 := ascii "ocs.example.com;1;1;0"
  originHost : List UInt8 := ascii "pgw.example.com"
  originRealm : List UInt8 := ascii "example.com"
  imsi : List UInt8 := ascii "310150123456789"
  requestType : UInt32 := 2
  requestNumber : UInt32 := 1
  ratingGroup : UInt32 := 10
  usedInput : UInt64 := 0
  usedOutput : UInt64 := 0
  grantedTotal : UInt64 := 0
  includeMscc : Bool := true
  /-- Answers only. -/
  resultCode : UInt32 := 2001

/-- The AVPs of a Subscription-Id. -/
def GySpec.subscription (s : GySpec) : List UInt8 :=
  let sub := putAvpU32 [] AvpCode.subscriptionIdType.code SubscriptionIdType.imsi.code
    kAvpFlagMandatory
  putAvpStr sub AvpCode.subscriptionIdData.code s.imsi kAvpFlagMandatory

/-- The AVPs of a Used-Service-Unit. -/
def GySpec.usedUnits (s : GySpec) : List UInt8 :=
  let usu := putAvpU64 [] AvpCode.ccInputOctets.code s.usedInput kAvpFlagMandatory
  let usu := putAvpU64 usu AvpCode.ccOutputOctets.code s.usedOutput kAvpFlagMandatory
  putAvpU64 usu AvpCode.ccTotalOctets.code (s.usedInput + s.usedOutput) kAvpFlagMandatory

/-- The AVPs of the block of a request. -/
def GySpec.requestBlock (s : GySpec) : List UInt8 :=
  let mscc := putAvpU32 [] AvpCode.ratingGroup.code s.ratingGroup kAvpFlagMandatory
  putAvpGrouped mscc AvpCode.usedServiceUnit.code s.usedUnits kAvpFlagMandatory

/-- The AVPs of the block of an answer. -/
def GySpec.answerBlock (s : GySpec) : List UInt8 :=
  let gsu := putAvpU64 [] AvpCode.ccTotalOctets.code s.grantedTotal kAvpFlagMandatory
  let mscc := putAvpU32 [] AvpCode.ratingGroup.code s.ratingGroup kAvpFlagMandatory
  let mscc := putAvpGrouped mscc AvpCode.grantedServiceUnit.code gsu kAvpFlagMandatory
  putAvpU32 mscc AvpCode.resultCode.code s.resultCode kAvpFlagMandatory

/-- Credit-Control-Request. -/
def buildCcr (s : GySpec) : List UInt8 :=
  let avps := putAvpStr [] AvpCode.sessionId.code s.sessionId kAvpFlagMandatory
  let avps := putAvpStr avps AvpCode.originHost.code s.originHost kAvpFlagMandatory
  let avps := putAvpStr avps AvpCode.originRealm.code s.originRealm kAvpFlagMandatory
  let avps := putAvpU32 avps AvpCode.ccRequestType.code s.requestType kAvpFlagMandatory
  let avps := putAvpU32 avps AvpCode.ccRequestNumber.code s.requestNumber kAvpFlagMandatory
  let avps := putAvpGrouped avps AvpCode.subscriptionId.code s.subscription kAvpFlagMandatory
  let avps :=
    if s.includeMscc then
      putAvpGrouped avps AvpCode.multipleServicesCreditControl.code s.requestBlock
        kAvpFlagMandatory
    else avps
  buildDiameter kCreditControl kGyApplication true avps kHopByHop kEndToEnd

/-- Credit-Control-Answer. -/
def buildCca (s : GySpec) : List UInt8 :=
  let avps := putAvpStr [] AvpCode.sessionId.code s.sessionId kAvpFlagMandatory
  let avps := putAvpU32 avps AvpCode.resultCode.code s.resultCode kAvpFlagMandatory
  let avps := putAvpStr avps AvpCode.originHost.code (ascii "ocs.example.com") kAvpFlagMandatory
  let avps := putAvpStr avps AvpCode.originRealm.code s.originRealm kAvpFlagMandatory
  let avps := putAvpU32 avps AvpCode.ccRequestType.code s.requestType kAvpFlagMandatory
  let avps := putAvpU32 avps AvpCode.ccRequestNumber.code s.requestNumber kAvpFlagMandatory
  let avps :=
    if s.includeMscc then
      putAvpGrouped avps AvpCode.multipleServicesCreditControl.code s.answerBlock
        kAvpFlagMandatory
    else avps
  buildDiameter kCreditControl kGyApplication false avps kHopByHop kEndToEnd

end Diameter
end Synth
end GtpMeter
