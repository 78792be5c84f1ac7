import GtpMeter.ByteSpan

/-!
# Ethernet, IP and transport headers

`net.hpp`: `parse_ethernet`, `parse_ipv4`, `parse_ipv6`, `parse_ip`, `parse_l4` and
`flow_key`.  The same code strips the outer headers of a frame and decodes the packet
inside the tunnel.  Sizes and offsets are natural numbers; the fields that the source
keeps in 16 or 32 bits are cut to that width where it casts.  `operator==` of the
5-tuple and `format_ip` are not used by the pipeline and left out.
-/

namespace GtpMeter

def kEthHeaderLen : Nat := 14

def kVlanTagLen : Nat := 4

def kEtherTypeIpv4 : UInt16 := 0x0800

def kEtherTypeIpv6 : UInt16 := 0x86DD

def kEtherTypeVlan : UInt16 := 0x8100

def kEtherTypeQinQ : UInt16 := 0x88A8

def kMaxVlanTags : Nat := 2

def kMaxIpv6ExtHeaders : Nat := 8

inductive IpProto where
  | hopByHop
  | tcp
  | udp
  | ipv6Route
  | ipv6Frag
  | ah
  | ipv6Dest
  | sctp
deriving DecidableEq, Repr

def IpProto.code : IpProto → UInt8
  | .hopByHop => 0
  | .tcp => 6
  | .udp => 17
  | .ipv6Route => 43
  | .ipv6Frag => 44
  | .ah => 51
  | .ipv6Dest => 60
  | .sctp => 132

/-- Sixteen bytes; an IPv4 address is left-aligned. -/
abbrev IpAddr := Vector UInt8 16

/-- `memcpy` into a zeroed address. -/
def IpAddr.ofBytes (bytes : List UInt8) : IpAddr :=
  Vector.ofFn (fun i => bytes.getD i.val 0)

structure FiveTuple where
  src : IpAddr := IpAddr.ofBytes []
  dst : IpAddr := IpAddr.ofBytes []
  srcPort : UInt16 := 0
  dstPort : UInt16 := 0
  proto : UInt8 := 0
  /-- 4, 6, or 0 when the payload was not IP. -/
  ipVersion : UInt8 := 0
  fragmented : Bool := false
  portsValid : Bool := false
deriving DecidableEq

namespace FiveTuple

def srcV4 (t : FiveTuple) : UInt32 :=
  be32 t.src[0] t.src[1] t.src[2] t.src[3]

def dstV4 (t : FiveTuple) : UInt32 :=
  be32 t.dst[0] t.dst[1] t.dst[2] t.dst[3]

end FiveTuple

structure IpPacket where
  tuple : FiveTuple := {}
  /-- The bytes after the transport header. -/
  l4Payload : Span := {}
  /-- Total length as declared on the wire. -/
  ipTotalLen : UInt32 := 0
  l3HeaderLen : UInt16 := 0
  l4HeaderLen : UInt16 := 0
  valid : Bool := false
deriving DecidableEq

structure EthFrame where
  payload : Span := {}
  ethertype : UInt16 := 0
  vlanTags : UInt8 := 0
  valid : Bool := false
deriving DecidableEq

section Ethernet

/-- What `parse_ethernet` does when no further tag follows. -/
def takePayload (frame : Span) (ethertype : UInt16) (off : Nat) (out : EthFrame) :
    Except OutOfBounds EthFrame := do
  let payload ← frame.suffix off
  .ok { out with ethertype, payload, valid := true }

/-- The loop over VLAN tags, of which at most `n` are still stripped. -/
def stripVlanTags (frame : Span) :
    Nat → UInt16 → Nat → EthFrame → Except OutOfBounds EthFrame
  | 0, ethertype, off, out => takePayload frame ethertype off out
  | n + 1, ethertype, off, out =>
      if ethertype ≠ kEtherTypeVlan ∧ ethertype ≠ kEtherTypeQinQ then
        takePayload frame ethertype off out
      -- a frame cut inside a tag stays invalid, with the tags counted so far
      else if off + kVlanTagLen > frame.size then .ok out
      else do
        let ethertype ← frame.loadBe16 (off + 2)
        stripVlanTags frame n ethertype (off + kVlanTagLen)
          { out with vlanTags := out.vlanTags + 1 }

def parseEthernet (frame : Span) : Except OutOfBounds EthFrame :=
  if frame.size < kEthHeaderLen then .ok {}
  else do
    let ethertype ← frame.loadBe16 12
    stripVlanTags frame kMaxVlanTags ethertype 14 {}

end Ethernet

section Transport

/-- The ports, which UDP, TCP and SCTP all begin with. -/
def parsePorts (l4 : Span) (t : FiveTuple) : Except OutOfBounds FiveTuple := do
  let srcPort ← l4.loadBe16 0
  let dstPort ← l4.loadBe16 2
  .ok { t with srcPort, dstPort, portsValid := true }

/-- A transport header of fixed length. -/
def parseFixedL4 (len : Nat) (l4 : Span) (out : IpPacket) : Except OutOfBounds IpPacket :=
  if l4.size < len then .ok out
  else do
    let tuple ← parsePorts l4 out.tuple
    let l4Payload ← l4.suffix len
    .ok { out with tuple, l4HeaderLen := UInt16.ofNat len, l4Payload }

/-- TCP: the ports stand even when the data offset is not usable. -/
def parseTcp (l4 : Span) (out : IpPacket) : Except OutOfBounds IpPacket :=
  if l4.size < 20 then .ok out
  else do
    let tuple ← parsePorts l4 out.tuple
    let out := { out with tuple }
    let b ← l4.read 12
    let doff := (b >>> 4).toNat * 4
    if doff < 20 ∨ doff > l4.size then .ok out
    else do
      let l4Payload ← l4.suffix doff
      .ok { out with l4HeaderLen := UInt16.ofNat doff, l4Payload }

def parseL4 (l4 : Span) (out : IpPacket) : Except OutOfBounds IpPacket :=
  if out.tuple.proto = IpProto.udp.code then parseFixedL4 8 l4 out
  else if out.tuple.proto = IpProto.tcp.code then parseTcp l4 out
  else if out.tuple.proto = IpProto.sctp.code then parseFixedL4 12 l4 out
  else .ok out

end Transport

section Internet

def parseIpv4 (pkt : Span) : Except OutOfBounds IpPacket :=
  if pkt.size < 20 then .ok {} else do
  let b0 ← pkt.read 0
  if b0 >>> 4 ≠ 4 then .ok {} else do
  let ihl := (b0 &&& 0x0F).toNat * 4
  if ihl < 20 ∨ ihl > pkt.size then .ok {} else do
  let totalLen ← pkt.loadBe16 2
  if totalLen.toNat < ihl then .ok {} else do
  let frag ← pkt.loadBe16 6
  let moreFrags := frag &&& 0x2000 != 0
  let fragOff := frag &&& 0x1FFF
  let proto ← pkt.read 9
  let src ← pkt.copy 12 4
  let dst ← pkt.copy 16 4
  let out : IpPacket := {
    tuple := {
      ipVersion := 4
      proto
      fragmented := moreFrags || fragOff != 0
      src := IpAddr.ofBytes src
      dst := IpAddr.ofBytes dst }
    l3HeaderLen := UInt16.ofNat ihl
    ipTotalLen := totalLen.toUInt32
    valid := true }
  -- captures are often cut short: clamp to what is there
  let declaredPayload := totalLen.toNat - ihl
  let avail := pkt.size - ihl
  let l4 ← pkt.subspan ihl (if declaredPayload < avail then declaredPayload else avail)
  -- only the first fragment carries the transport header
  if fragOff = 0 then parseL4 l4 out else .ok out

/-- The extension headers that `parse_ipv6` walks over. -/
def isIpv6Ext (next : UInt8) : Bool :=
  next == IpProto.hopByHop.code || next == IpProto.ipv6Route.code ||
    next == IpProto.ipv6Dest.code || next == IpProto.ah.code ||
    next == IpProto.ipv6Frag.code

/-- Where the walk over the extension headers ends: the packet is as far decoded as it
will be, or `off` is where header `next` begins. -/
inductive Ipv6Walk where
  | done (out : IpPacket)
  | upper (next : UInt8) (off : Nat) (out : IpPacket)
deriving DecidableEq

/-- The loop over extension headers, of which at most `n` are still walked over. -/
def walkIpv6Ext (pkt : Span) (endOff : Nat) :
    Nat → UInt8 → Nat → IpPacket → Except OutOfBounds Ipv6Walk
  | 0, next, off, out => .ok (.upper next off out)
  | n + 1, next, off, out =>
      if !isIpv6Ext next then .ok (.upper next off out)
      else if off + 8 > endOff then .ok (.done { out with tuple.proto := next })
      else if next = IpProto.ipv6Frag.code then do
        let frag ← pkt.loadBe16 (off + 2)
        let out := { out with tuple.fragmented := frag &&& 0xFFF9 != 0 }
        let next ← pkt.read off
        if frag &&& 0xFFF8 = 0 then walkIpv6Ext pkt endOff n next (off + 8) out
        -- not the first fragment: there is no transport header here
        else .ok (.done { out with
          tuple.proto := next
          l3HeaderLen := UInt16.ofNat (off + 8) })
      else do
        let len ← pkt.read (off + 1)
        -- the length of AH is in units of 4 bytes minus 2, the others' in 8 bytes
        let extLen :=
          if next = IpProto.ah.code then (len.toNat + 2) * 4 else (len.toNat + 1) * 8
        if off + extLen > endOff then .ok (.done { out with tuple.proto := next })
        else do
          let next ← pkt.read off
          walkIpv6Ext pkt endOff n next (off + extLen) out

/-- The end of `parse_ipv6`, after the walk. -/
def finishIpv6 (pkt : Span) (endOff : Nat) : Ipv6Walk → Except OutOfBounds IpPacket
  | .done out => .ok out
  | .upper next off out =>
      let out := { out with tuple.proto := next, l3HeaderLen := UInt16.ofNat off }
      if off ≤ endOff then do
        let l4 ← pkt.subspan off (endOff - off)
        parseL4 l4 out
      else .ok out

def parseIpv6 (pkt : Span) : Except OutOfBounds IpPacket :=
  if pkt.size < 40 then .ok {} else do
  let b0 ← pkt.read 0
  if b0 >>> 4 ≠ 6 then .ok {} else do
  let payloadLen ← pkt.loadBe16 4
  let src ← pkt.copy 8 16
  let dst ← pkt.copy 24 16
  let out : IpPacket := {
    tuple := { ipVersion := 6, src := IpAddr.ofBytes src, dst := IpAddr.ofBytes dst }
    l3HeaderLen := 40
    ipTotalLen := 40 + payloadLen.toUInt32
    valid := true }
  let declared := 40 + payloadLen.toNat
  let endOff := if declared < pkt.size then declared else pkt.size
  let next ← pkt.read 6
  let walk ← walkIpv6Ext pkt endOff kMaxIpv6ExtHeaders next 40 out
  finishIpv6 pkt endOff walk

/-- Dispatches on the version nibble. -/
def parseIp (pkt : Span) : Except OutOfBounds IpPacket :=
  if pkt.size = 0 then .ok {}
  else do
    let b0 ← pkt.read 0
    if b0 >>> 4 = 4 then parseIpv4 pkt
    else if b0 >>> 4 = 6 then parseIpv6 pkt
    else .ok {}

end Internet

section FlowKey

/-- One step of FNV-1a. -/
def mixByte (h : UInt64) (b : UInt8) : UInt64 :=
  (h ^^^ b.toUInt64) * 1099511628211

/-- 64-bit key over the 5-tuple, which depends on the direction. -/
def flowKey (t : FiveTuple) : UInt64 :=
  let addrLen := if t.ipVersion = 6 then 16 else 4
  let bytes := t.src.toList.take addrLen ++ t.dst.toList.take addrLen ++
    [(t.srcPort >>> 8).toUInt8, t.srcPort.toUInt8, (t.dstPort >>> 8).toUInt8,
      t.dstPort.toUInt8, t.proto, t.ipVersion]
  bytes.foldl mixByte 1469598103934665603

end FlowKey
end GtpMeter
