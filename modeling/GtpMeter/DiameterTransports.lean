import GtpMeter.DiameterFragments
import GtpMeter.PacketFields

/-!
# Diameter over TCP and SCTP

`process_ip` takes Diameter from both transports.  The user data of a TCP segment begins
behind the TCP header; that of an SCTP packet is wrapped in DATA chunks, with a header of
16 bytes behind the common header of 12.  `parse_l4` takes all that follows the common
header for the payload, so the chunk header is read as if it were a Diameter header, and
its first byte, the chunk type 0, is not a Diameter version.

**Results.**
* `processIp_routed`: a packet on the Diameter port goes to `process_diameter`.
* `processIp_tcp`: over TCP, a message is processed.
* `processIp_sctp`: over SCTP, one parse error is counted.
* `transports_agree_iff`: the two agree on the messages that are rejected.
-/

namespace GtpMeter

section Packets

variable {pkt l4 : Span} {proto : UInt8} {m : List UInt8} {src dst : UInt16}

/-- A packet whose IP header is accepted, that is no fragment, and that carries `l4` for
protocol `proto` behind its options or extension headers. -/
inductive Carries (pkt : Span) (proto : UInt8) (l4 : Span) : Prop
  | ipv4 (header : Ipv4Header pkt) (whole : ipv4Frag pkt &&& 0x3FFF = 0)
      (proto_eq : pkt.byte 9 = proto) (body : l4 = ipv4Body pkt)
  | ipv6 (header : Ipv6Header pkt) (off : Nat) (out : IpPacket)
      (walk : walkIpv6Ext pkt (min (ipv6Declared pkt) pkt.size) kMaxIpv6ExtHeaders (pkt.byte 6) 40
        (ipv6Packet pkt) = .ok (.upper proto off out))
      (whole : out.tuple.fragmented = false) (fits : off ≤ ipv6Declared pkt)
      (inside : off ≤ pkt.size) (body : l4 = (pkt.upTo (ipv6Declared pkt)).after off)

/-- Such a packet is handed to the transport parser. -/
theorem Carries.parse (h : Carries pkt proto l4) :
    ∃ out, parseIp pkt = parseL4 l4 out ∧ out.tuple.proto = proto ∧ out.valid = true := by
  cases h with
  | ipv4 header whole hproto hbody =>
      have hsize := header.size_ge
      have hfirst : ipv4Frag pkt &&& 0x1FFF = 0 := by
        have hcut : ipv4Frag pkt &&& 0x1FFF = (ipv4Frag pkt &&& 0x3FFF) &&& 0x1FFF := by
          rw [UInt16.and_assoc]
          rfl
        rw [hcut, whole, UInt16.zero_and]
      refine ⟨ipv4Packet pkt, ?_, hproto, rfl⟩
      rw [parseIp_of_version4 (by omega) header.version, parseIpv4_of_header header,
        if_pos hfirst, hbody]
  | ipv6 header off out walk whole fits inside hbody =>
      have hsize := header.size_ge
      have hvalid : out.valid = true := by
        have hrest : out = withWalk (ipv6Packet pkt) out := walkIpv6Ext_rest walk
        rw [hrest]
        rfl
      refine ⟨{ out with tuple.proto := proto, l3HeaderLen := UInt16.ofNat off }, ?_, rfl, hvalid⟩
      rw [parseIp_of_version6 (by omega) header.version, parseIpv6_of_header header, walk]
      simp only [bind, Except.bind]
      rw [finishIpv6_upper fits inside, hbody]

/-- A TCP segment with user data `m`. -/
structure TcpSegment (l4 : Span) (src dst : UInt16) (m : List UInt8) : Prop where
  src_eq : be16 (l4.byte 0) (l4.byte 1) = src
  dst_eq : be16 (l4.byte 2) (l4.byte 3) = dst
  header_ge : 20 ≤ (l4.byte 12 >>> 4).toNat * 4
  data : ∃ header : List UInt8, header.length = (l4.byte 12 >>> 4).toNat * 4 ∧
    l4.bytes = header ++ m

/-- An SCTP packet with user data `m` in one DATA chunk: the common header, the header of
the chunk, which begins with its type 0 and flags that say that it is whole, the user
data, and padding. -/
structure SctpPacket (l4 : Span) (src dst : UInt16) (m : List UInt8) : Prop where
  src_eq : be16 (l4.byte 0) (l4.byte 1) = src
  dst_eq : be16 (l4.byte 2) (l4.byte 3) = dst
  chunk : ∃ (common : List UInt8) (flags : UInt8) (tsn stream ppid pad : List UInt8),
    common.length = 12 ∧ flags &&& 3 = 3 ∧ tsn.length = 4 ∧ stream.length = 4 ∧
      ppid.length = 4 ∧ pad.length = (4 - m.length % 4) % 4 ∧
      l4.bytes = common ++ ([0, flags] ++ be16Bytes (UInt16.ofNat (16 + m.length)) ++ tsn ++
        stream ++ ppid ++ m ++ pad)

theorem TcpSegment.parse {out : IpPacket} (h : TcpSegment l4 src dst m)
    (hproto : out.tuple.proto = IpProto.tcp.code) (hvalid : out.valid = true) :
    ∃ p, parseL4 l4 out = .ok p ∧ p.valid = true ∧ p.tuple.proto = IpProto.tcp.code ∧
      p.tuple.srcPort = src ∧ p.tuple.dstPort = dst ∧ p.l4Payload.bytes = m := by
  obtain ⟨header, hlen, hbytes⟩ := h.data
  have hsize : (l4.byte 12 >>> 4).toNat * 4 ≤ l4.size := by
    rw [Span.size, hbytes, List.length_append, hlen]
    exact Nat.le_add_right _ _
  refine ⟨_, parseL4_tcp hproto rfl h.header_ge hsize, hvalid, hproto, h.src_eq, h.dst_eq, ?_⟩
  simp only [withL4, Span.after]
  rw [hbytes, ← hlen, List.drop_left]

theorem SctpPacket.parse {out : IpPacket} (h : SctpPacket l4 src dst m)
    (hproto : out.tuple.proto = IpProto.sctp.code) (hvalid : out.valid = true) :
    ∃ p, parseL4 l4 out = .ok p ∧ p.valid = true ∧ p.tuple.proto = IpProto.sctp.code ∧
      p.tuple.srcPort = src ∧ p.tuple.dstPort = dst ∧
      16 + m.length ≤ p.l4Payload.size ∧ p.l4Payload.byte 0 = 0 := by
  obtain ⟨common, flags, tsn, stream, ppid, pad, hcommon, -, htsn, hstream, hppid, -, hbytes⟩ :=
    h.chunk
  have hsize : 12 ≤ l4.size := by
    rw [Span.size, hbytes, List.length_append, hcommon]
    exact Nat.le_add_right _ _
  refine ⟨_, parseL4_sctp hproto hsize, hvalid, hproto, h.src_eq, h.dst_eq, ?_⟩
  have hpayload : (l4.after 12).bytes = [0, flags] ++ be16Bytes (UInt16.ofNat (16 + m.length)) ++
      tsn ++ stream ++ ppid ++ m ++ pad := by
    rw [Span.after, hbytes, ← hcommon, List.drop_left]
  refine ⟨?_, ?_⟩
  · have hlen := congrArg List.length hpayload
    simp only [List.length_append, List.length_cons, List.length_nil, be16Bytes, htsn, hstream,
      hppid] at hlen
    have hafter : (l4.after 12).size = (l4.after 12).bytes.length := rfl
    simp only [withL4]
    omega
  · simp only [withL4, Span.byte, hpayload]
    rfl

end Packets

section Routing

variable {ing : Ingest} {tsNs : UInt64} {wireBytes : UInt16} {pkt l4 : Span} {p : IpPacket}
  {src dst : UInt16} {m : List UInt8}

/-- A packet of one of the two transports on the Diameter port. -/
theorem processIp_routed (hparse : parseIp pkt = .ok p) (hvalid : p.valid = true)
    (hproto : p.tuple.proto = IpProto.tcp.code ∨ p.tuple.proto = IpProto.sctp.code)
    (hcfg : ing.cfg.parseDiameter = true)
    (hport : p.tuple.dstPort = ing.cfg.diameterPort ∨ p.tuple.srcPort = ing.cfg.diameterPort) :
    ing.processIp pkt tsNs wireBytes = ing.processDiameter p.l4Payload tsNs := by
  have hudp : p.tuple.proto ≠ IpProto.udp.code := by
    rcases hproto with h | h
    · rw [h]
      decide
    · rw [h]
      decide
  rw [Ingest.processIp, hparse]
  simp only [bind, Except.bind, hvalid, Bool.not_true, Bool.false_eq_true, if_false]
  rw [if_neg (fun h => hudp h.1), if_pos ⟨hcfg, hproto, hport⟩]

/-- Bytes that do not begin with the version of Diameter. -/
theorem parseDiameterGy_badVersion {buf : Span} (hsize : kDiameterHeaderLen ≤ buf.size)
    (hversion : buf.byte 0 ≠ 1) : parseDiameterGy buf = .ok (.badVersion, {}, {}) := by
  have hhead : kDiameterHeaderLen = 20 := rfl
  have hread : parseDiameterHeader buf = .ok (.badVersion, {}) := by
    rw [parseDiameterHeader, if_neg (by omega), Span.read_eq (by omega)]
    dsimp only [bind, Except.bind]
    rw [if_pos hversion]
  rw [parseDiameterGy, hread]
  rfl

/-- A payload in which no message begins. -/
theorem processDiameter_noMessage {payload : Span} (h : NoMessage payload.bytes) :
    ing.processDiameter payload tsNs =
      .ok ({ ing with stats.diameterParseErrors := ing.stats.diameterParseErrors + 1 },
        .parseError) := by
  obtain ⟨hge, st, hdr, gy, hread, hst⟩ := h
  have hnone : ∀ m ∈ ([] : List (List UInt8)), IsMessage m :=
    fun _ hm => absurd hm List.not_mem_nil
  have hrun : ing.processDiameter payload tsNs = .ok (_, _) :=
    Ingest.processDiameter_rejected hnone rfl hge hread hst
  rw [hrun, Ingest.afterMessages_nil]
  rfl

/-- Over SCTP a message is a parse error. -/
theorem processIp_sctp (hpkt : Carries pkt IpProto.sctp.code l4) (hl4 : SctpPacket l4 src dst m)
    (hm : kDiameterHeaderLen ≤ m.length) (hcfg : ing.cfg.parseDiameter = true)
    (hport : dst = ing.cfg.diameterPort ∨ src = ing.cfg.diameterPort) :
    ing.processIp pkt tsNs wireBytes =
      .ok ({ ing with stats.diameterParseErrors := ing.stats.diameterParseErrors + 1 },
        .parseError) := by
  obtain ⟨out, hparse, hproto, hvalid⟩ := hpkt.parse
  obtain ⟨p, hp, hvalid', hproto', rfl, rfl, hsize, hbyte⟩ := hl4.parse hproto hvalid
  rw [hp] at hparse
  rw [processIp_routed hparse hvalid' (.inr hproto') hcfg hport]
  have hge : kDiameterHeaderLen ≤ p.l4Payload.bytes.length :=
    hm.trans ((Nat.le_add_left _ _).trans hsize)
  refine processDiameter_noMessage ⟨hge, .badVersion, {}, {}, ?_, by decide⟩
  refine parseDiameterGy_badVersion hge ?_
  rw [show (Span.whole p.l4Payload.bytes).byte 0 = p.l4Payload.byte 0 from rfl, hbyte]
  decide

/-- Over TCP it is processed. -/
theorem processIp_tcp (hpkt : Carries pkt IpProto.tcp.code l4) (hl4 : TcpSegment l4 src dst m)
    (hcfg : ing.cfg.parseDiameter = true)
    (hport : dst = ing.cfg.diameterPort ∨ src = ing.cfg.diameterPort) :
    ∃ payload : Span, payload.bytes = m ∧
      ing.processIp pkt tsNs wireBytes = ing.processDiameter payload tsNs := by
  obtain ⟨out, hparse, hproto, hvalid⟩ := hpkt.parse
  obtain ⟨p, hp, hvalid', hproto', rfl, rfl, hbytes⟩ := hl4.parse hproto hvalid
  rw [hp] at hparse
  exact ⟨p.l4Payload, hbytes, processIp_routed hparse hvalid' (.inl hproto') hcfg hport⟩

end Routing

section Transports

/-- A complete credit-control message, of which the AVPs are not looked at. -/
structure CreditControlMessage (m : List UInt8) : Prop where
  header : HeaderFits (.whole m)
  complete : (declaredLength (.whole m)).toNat = m.length
  creditControl : (headerOf (.whole m)).isCreditControl = true

/-- The ingest thread has pushed the same Gy events and counted the same. -/
structure SameDiameter (ing ing' : Ingest) : Prop where
  gyRing : ing.gyRing = ing'.gyRing
  gyPushes : ing.gyPushes = ing'.gyPushes
  gyEvents : ing.stats.gyEvents = ing'.stats.gyEvents
  gyEventsDropped : ing.stats.gyEventsDropped = ing'.stats.gyEventsDropped
  messages : ing.stats.diameterMessages = ing'.stats.diameterMessages
  errors : ing.stats.diameterParseErrors = ing'.stats.diameterParseErrors

/-- A complete message that is not well-formed is rejected. -/
theorem CreditControlMessage.noMessage {m : List UInt8} (h : CreditControlMessage m)
    (hbad : ¬WellFormedMessage m) : NoMessage m := by
  obtain ⟨⟨st, hdr, gy⟩, hread, -⟩ := parseDiameterGy_views (ViewOf.whole m)
  refine ⟨h.header.size_ge, st, hdr, gy, hread, ?_⟩
  rintro rfl
  obtain ⟨-, rfl⟩ := fits_of_parseDiameterHeader (header_of_parseDiameterGy hread)
  exact hbad (isMessage_iff.mp ⟨_, gy, hread, h.complete⟩)

/-- **Diameter over SCTP is not Diameter over TCP.**  Take a complete credit-control
message in a TCP segment, and the same in one DATA chunk of an SCTP packet, between the
same ports.  The packet always counts one parse error and pushes nothing; so the two agree
exactly on the messages that are rejected over TCP as well. -/
theorem transports_agree_iff (ing : Ingest) (tsNs : UInt64) (wireBytes wireBytes' : UInt16)
    (m : List UInt8) (segment packet l4 l4' : Span) (src dst : UInt16)
    (hm : CreditControlMessage m)
    (hsegment : Carries segment IpProto.tcp.code l4) (htcp : TcpSegment l4 src dst m)
    (hpacket : Carries packet IpProto.sctp.code l4') (hsctp : SctpPacket l4' src dst m)
    (hcfg : ing.cfg.parseDiameter = true)
    (hport : dst = ing.cfg.diameterPort ∨ src = ing.cfg.diameterPort) :
    ∃ ing₁ ing₂ outcome₁ outcome₂,
      ing.processIp segment tsNs wireBytes = .ok (ing₁, outcome₁) ∧
      ing.processIp packet tsNs wireBytes' = .ok (ing₂, outcome₂) ∧
      (SameDiameter ing₁ ing₂ ↔ ¬WellFormedMessage m) := by
  have hrun₂ : ing.processIp packet tsNs wireBytes' = .ok (_, _) :=
    processIp_sctp hpacket hsctp hm.header.size_ge hcfg hport
  have htcp_run : ∃ payload : Span, payload.bytes = m ∧
      ing.processIp segment tsNs wireBytes = ing.processDiameter payload tsNs :=
    processIp_tcp hsegment htcp hcfg hport
  obtain ⟨payload, hbytes, hrun⟩ := htcp_run
  by_cases hwf : WellFormedMessage m
  · have hrun₁ : ing.processDiameter payload tsNs = .ok (_, _) :=
      Ingest.processDiameter_whole hbytes (isMessage_iff.mpr hwf)
    refine ⟨_, _, _, _, hrun.trans hrun₁, hrun₂, fun hsame => ?_, fun hnot => absurd hwf hnot⟩
    -- over TCP a message has been counted, and no error
    have herrors := hsame.errors
    rw [(afterMessages_counters ing [m] tsNs).2] at herrors
    simp at herrors
  · have hno : NoMessage payload.bytes := hbytes ▸ hm.noMessage hwf
    have hrun₁ : ing.processDiameter payload tsNs = .ok (_, _) := processDiameter_noMessage hno
    exact ⟨_, _, _, _, hrun.trans hrun₁, hrun₂, fun _ => hwf, fun _ => ⟨rfl, rfl, rfl, rfl, rfl, rfl⟩⟩

/-- A TCP header from port 3868 to port 50000. -/
def tcpHeader : List UInt8 :=
  [0x0F, 0x1C, 0xC3, 0x50, 0, 0, 0, 0, 0, 0, 0, 0, 0x50, 0x18, 0xFF, 0xFF, 0, 0, 0, 0]

/-- A Credit-Control-Request in a TCP segment. -/
def updateSegment : List UInt8 :=
  [0x45, 0, 0, 72, 0, 0, 0, 0, 64, 6, 0, 0, 10, 0, 0, 1, 10, 0, 0, 2] ++ tcpHeader ++ updateMessage

/-- The common header of an SCTP packet between the same ports. -/
def sctpHeader : List UInt8 :=
  [0x0F, 0x1C, 0xC3, 0x50, 0, 0, 0, 0, 0, 0, 0, 0]

/-- The same request in a DATA chunk of such a packet. -/
def updatePacket : List UInt8 :=
  [0x45, 0, 0, 80, 0, 0, 0, 0, 64, 132, 0, 0, 10, 0, 0, 1, 10, 0, 0, 2] ++ sctpHeader ++
    ([0, 3, 0, 48, 0, 0, 0, 1, 0, 0, 0, 0, 0, 0, 0, 46] ++ updateMessage)

/-- The request is an event over TCP and a parse error over SCTP. -/
theorem request_over_sctp_rejected :
    (∃ ing' outcome, ({} : Ingest).processIp (.whole updateSegment) 7 86 = .ok (ing', outcome) ∧
      ing'.stats = { diameterMessages := 1, gyEvents := 1 }) ∧
    ∃ ing' outcome, ({} : Ingest).processIp (.whole updatePacket) 7 94 = .ok (ing', outcome) ∧
      ing'.stats = { diameterParseErrors := 1 } := by
  obtain ⟨⟨ing₁, outcome₁⟩, hrun₁, hcheck₁⟩ := Runs.returnsWith_iff.mp
    (show Runs.returnsWith (({} : Ingest).processIp (.whole updateSegment) 7 86) (fun r =>
      decide (r.1.stats = { diameterMessages := 1, gyEvents := 1 })) = true by decide +kernel)
  obtain ⟨⟨ing₂, outcome₂⟩, hrun₂, hcheck₂⟩ := Runs.returnsWith_iff.mp
    (show Runs.returnsWith (({} : Ingest).processIp (.whole updatePacket) 7 94) (fun r =>
      decide (r.1.stats = { diameterParseErrors := 1 })) = true by decide +kernel)
  exact ⟨⟨ing₁, outcome₁, hrun₁, of_decide_eq_true hcheck₁⟩,
    ing₂, outcome₂, hrun₂, of_decide_eq_true hcheck₂⟩

theorem transports_agree_iff_update :
    CreditControlMessage updateMessage ∧
    ∃ ing₁ ing₂ outcome₁ outcome₂,
      ({} : Ingest).processIp (.whole updateSegment) 7 86 = .ok (ing₁, outcome₁) ∧
      ({} : Ingest).processIp (.whole updatePacket) 7 94 = .ok (ing₂, outcome₂) ∧
      (SameDiameter ing₁ ing₂ ↔ ¬WellFormedMessage updateMessage) := by
  have hm : CreditControlMessage updateMessage :=
    ⟨⟨by decide, by decide, by decide, by decide, by decide, by decide⟩, by decide, by decide⟩
  have hsegment : Carries (.whole updateSegment) IpProto.tcp.code
      (ipv4Body (.whole updateSegment)) :=
    .ipv4 ⟨by decide, by decide, by decide, by decide, by decide⟩ (by decide) (by decide) rfl
  have htcp : TcpSegment (ipv4Body (.whole updateSegment)) 3868 50000 updateMessage :=
    ⟨by decide, by decide, by decide, tcpHeader, by decide, by decide⟩
  have hpacket : Carries (.whole updatePacket) IpProto.sctp.code
      (ipv4Body (.whole updatePacket)) :=
    .ipv4 ⟨by decide, by decide, by decide, by decide, by decide⟩ (by decide) (by decide) rfl
  have hsctp : SctpPacket (ipv4Body (.whole updatePacket)) 3868 50000 updateMessage :=
    ⟨by decide, by decide, sctpHeader, 3, [0, 0, 0, 1], [0, 0, 0, 0], [0, 0, 0, 46], [],
      by decide, by decide, by decide, by decide, by decide, by decide, by decide⟩
  exact ⟨hm, transports_agree_iff {} 7 86 94 updateMessage (.whole updateSegment)
    (.whole updatePacket) _ _ 3868 50000 hm hsegment htcp hpacket hsctp rfl (.inr rfl)⟩

end Transports
end GtpMeter
