import GtpMeter.Net
import GtpMeter.SpanAgreement
import GtpMeter.TransitionRuns

/-!
# What the packet parsers read

`parse_ipv4`, `parse_ipv6` and `parse_l4` as equations between the bytes of a header and
the packet that is returned, once the checks on the header hold.  A packet that parsed
as valid has passed them.

**Results.**
* `parseL4_udp`, `parseL4_tcp`: the transport header.
* `parseIpv4_of_header`, `ipv4Header_of_valid`: an IPv4 header is what is accepted, and
  the rest of the packet goes to the transport parser.
* `parseIpv6_of_header`, `ipv6Header_of_valid`: the same for the fixed IPv6 header, the
  rest going to the walk over extension headers.
* `parseIp_of_version4`, `parseIp_of_version6`, `version_of_valid`: which of the two it is.
-/

namespace GtpMeter

section Transport

variable {l4 : Span} {out : IpPacket}

/-- The tuple with the ports of a transport header. -/
def withPorts (l4 : Span) (t : FiveTuple) : FiveTuple :=
  { t with
    srcPort := be16 (l4.byte 0) (l4.byte 1)
    dstPort := be16 (l4.byte 2) (l4.byte 3)
    portsValid := true }

/-- The packet with a transport header of `len` bytes. -/
def withL4 (l4 : Span) (len : Nat) (out : IpPacket) : IpPacket :=
  { out with
    tuple := withPorts l4 out.tuple
    l4HeaderLen := UInt16.ofNat len
    l4Payload := l4.after len }

theorem parsePorts_eq (hsize : 4 ≤ l4.size) (t : FiveTuple) :
    parsePorts l4 t = .ok (withPorts l4 t) := by
  rw [parsePorts, Span.loadBe16_eq (by omega), Span.loadBe16_eq (by omega)]
  rfl

theorem parseL4_udp (hproto : out.tuple.proto = IpProto.udp.code) (hsize : 8 ≤ l4.size) :
    parseL4 l4 out = .ok (withL4 l4 8 out) := by
  rw [parseL4, if_pos hproto, parseFixedL4, if_neg (by omega), parsePorts_eq (by omega),
    Span.suffix_after hsize]
  rfl

/-- A UDP header that is not there leaves the packet as it was. -/
theorem parseL4_udp_short (hproto : out.tuple.proto = IpProto.udp.code) (hsize : l4.size < 8) :
    parseL4 l4 out = .ok out := by
  rw [parseL4, if_pos hproto, parseFixedL4, if_pos hsize]

theorem parseL4_sctp (hproto : out.tuple.proto = IpProto.sctp.code) (hsize : 12 ≤ l4.size) :
    parseL4 l4 out = .ok (withL4 l4 12 out) := by
  have hudp : out.tuple.proto ≠ IpProto.udp.code := by
    rw [hproto]
    decide
  have htcp : out.tuple.proto ≠ IpProto.tcp.code := by
    rw [hproto]
    decide
  rw [parseL4, if_neg hudp, if_neg htcp, if_pos hproto, parseFixedL4, if_neg (by omega),
    parsePorts_eq (by omega), Span.suffix_after hsize]
  rfl

theorem parseL4_tcp {doff : Nat} (hproto : out.tuple.proto = IpProto.tcp.code)
    (hdoff : (l4.byte 12 >>> 4).toNat * 4 = doff) (hge : 20 ≤ doff) (hsize : doff ≤ l4.size) :
    parseL4 l4 out = .ok (withL4 l4 doff out) := by
  have hnot : out.tuple.proto ≠ IpProto.udp.code := by
    rw [hproto]
    decide
  rw [parseL4, if_neg hnot, if_pos hproto, parseTcp, if_neg (by omega),
    parsePorts_eq (by omega), Span.read_eq (by omega)]
  simp only [bind, Except.bind, hdoff]
  rw [if_neg (by omega), Span.suffix_after hsize]
  rfl

/-- The transport parser leaves the protocol alone. -/
theorem parseL4_proto (l4 : Span) (out : IpPacket) :
    Returns (fun r => r.tuple.proto = out.tuple.proto) (parseL4 l4 out) := by
  have hfixed : ∀ len, 4 ≤ len →
      Returns (fun r => r.tuple.proto = out.tuple.proto) (parseFixedL4 len l4 out) := by
    intro len hlen
    refine Returns.ite (fun _ => Returns.ok rfl) (fun hsize => ?_)
    rw [parsePorts_eq (by omega)]
    exact Returns.suffix (by omega) (Returns.ok rfl)
  have htcp : Returns (fun r => r.tuple.proto = out.tuple.proto) (parseTcp l4 out) := by
    refine Returns.ite (fun _ => Returns.ok rfl) (fun hsize => ?_)
    rw [parsePorts_eq (by omega)]
    refine Returns.read (by omega) ?_
    refine Returns.ite (fun _ => Returns.ok rfl) (fun hdoff => ?_)
    exact Returns.suffix (by omega) (Returns.ok rfl)
  refine Returns.ite (fun _ => hfixed 8 (by omega)) (fun _ => ?_)
  refine Returns.ite (fun _ => htcp) (fun _ => ?_)
  exact Returns.ite (fun _ => hfixed 12 (by omega)) (fun _ => Returns.ok rfl)

end Transport

/-- A check that fails returns the packet that was never set, which is not valid. -/
theorem default_ne_valid {out : IpPacket} (hvalid : out.valid = true) :
    (.ok {} : Except OutOfBounds IpPacket) ≠ .ok out := by
  intro h
  obtain rfl := Except.ok.inj h
  cases hvalid

section Ipv4

variable (s : Span)

def ipv4HeaderLen : Nat :=
  (s.byte 0 &&& 0x0F).toNat * 4

def ipv4TotalLen : UInt16 :=
  be16 (s.byte 2) (s.byte 3)

def ipv4Frag : UInt16 :=
  be16 (s.byte 6) (s.byte 7)

/-- The checks on an IPv4 header. -/
structure Ipv4Header : Prop where
  size_ge : 20 ≤ s.size
  version : s.byte 0 >>> 4 = 4
  len_ge : 20 ≤ ipv4HeaderLen s
  len_le : ipv4HeaderLen s ≤ s.size
  total_ge : ipv4HeaderLen s ≤ (ipv4TotalLen s).toNat

/-- What the header says of the packet. -/
def ipv4Packet : IpPacket where
  tuple := {
    ipVersion := 4
    proto := s.byte 9
    fragmented := (ipv4Frag s &&& 0x2000 != 0) || (ipv4Frag s &&& 0x1FFF != 0)
    src := IpAddr.ofBytes ((s.bytes.drop 12).take 4)
    dst := IpAddr.ofBytes ((s.bytes.drop 16).take 4) }
  l3HeaderLen := UInt16.ofNat (ipv4HeaderLen s)
  ipTotalLen := (ipv4TotalLen s).toUInt32
  valid := true

/-- What follows the header, up to the declared length. -/
def ipv4Body : Span :=
  (s.upTo (ipv4TotalLen s).toNat).after (ipv4HeaderLen s)

variable {s} {out : IpPacket}

theorem parseIpv4_of_header (h : Ipv4Header s) :
    parseIpv4 s =
      if ipv4Frag s &&& 0x1FFF = 0 then parseL4 (ipv4Body s) (ipv4Packet s)
      else .ok (ipv4Packet s) := by
  obtain ⟨hsize, hversion, hge, hle, htotal⟩ := h
  have hlen : ∀ d, (if d - ipv4HeaderLen s < s.size - ipv4HeaderLen s then
      d - ipv4HeaderLen s else s.size - ipv4HeaderLen s) = min d s.size - ipv4HeaderLen s := by
    intro d
    split <;> omega
  have hlen_def : (s.byte 0 &&& 0x0F).toNat * 4 = ipv4HeaderLen s := rfl
  have htotal_def : be16 (s.byte 2) (s.byte (2 + 1)) = ipv4TotalLen s := rfl
  rw [parseIpv4, if_neg (by omega), Span.read_eq (by omega), Span.loadBe16_eq (by omega),
    Span.loadBe16_eq (by omega), Span.read_eq (by omega), Span.copy_eq (by omega),
    Span.copy_eq (by omega)]
  simp only [bind, Except.bind, hversion, ne_eq, not_true_eq_false, if_false, hlen_def,
    htotal_def, hlen]
  rw [if_neg (by omega), if_neg (by omega), Span.subspan_clamped htotal hle]
  rfl

theorem ipv4Header_of_valid (hparse : parseIpv4 s = .ok out) (hvalid : out.valid = true) :
    Ipv4Header s := by
  have hdefault := default_ne_valid hvalid
  have hsize : 20 ≤ s.size := by
    by_contra hlt
    rw [parseIpv4, if_pos (by omega)] at hparse
    exact hdefault hparse
  rw [parseIpv4, if_neg (by omega), Span.read_eq (by omega), Span.loadBe16_eq (by omega)] at hparse
  simp only [bind, Except.bind] at hparse
  split at hparse
  · exact absurd hparse hdefault
  rename_i hversion
  split at hparse
  · exact absurd hparse hdefault
  rename_i hlen
  split at hparse
  · exact absurd hparse hdefault
  rename_i htotal
  obtain ⟨hge, hle⟩ := not_or.mp hlen
  exact ⟨hsize, not_not.mp hversion, Nat.not_lt.mp hge, Nat.not_lt.mp hle, Nat.not_lt.mp htotal⟩

end Ipv4

section Ipv6

variable (s : Span)

def ipv6PayloadLen : UInt16 :=
  be16 (s.byte 4) (s.byte 5)

/-- Where the packet ends by its header. -/
def ipv6Declared : Nat :=
  40 + (ipv6PayloadLen s).toNat

/-- The checks on the fixed IPv6 header. -/
structure Ipv6Header : Prop where
  size_ge : 40 ≤ s.size
  version : s.byte 0 >>> 4 = 6

/-- What the header says of the packet. -/
def ipv6Packet : IpPacket where
  tuple := {
    ipVersion := 6
    src := IpAddr.ofBytes ((s.bytes.drop 8).take 16)
    dst := IpAddr.ofBytes ((s.bytes.drop 24).take 16) }
  l3HeaderLen := 40
  ipTotalLen := 40 + (ipv6PayloadLen s).toUInt32
  valid := true

variable {s} {out : IpPacket}

theorem parseIpv6_of_header (h : Ipv6Header s) :
    parseIpv6 s =
      (walkIpv6Ext s (min (ipv6Declared s) s.size) kMaxIpv6ExtHeaders (s.byte 6) 40
        (ipv6Packet s) >>= finishIpv6 s (min (ipv6Declared s) s.size)) := by
  obtain ⟨hsize, hversion⟩ := h
  have hend : (if ipv6Declared s < s.size then ipv6Declared s else s.size) =
      min (ipv6Declared s) s.size := by
    split <;> omega
  rw [parseIpv6, if_neg (by omega), Span.read_eq (by omega), Span.loadBe16_eq (by omega),
    Span.copy_eq (by omega), Span.copy_eq (by omega), Span.read_eq (by omega), ← hend]
  simp only [bind, Except.bind, hversion, ne_eq, not_true_eq_false, if_false]
  rfl

theorem ipv6Header_of_valid (hparse : parseIpv6 s = .ok out) (hvalid : out.valid = true) :
    Ipv6Header s := by
  have hdefault := default_ne_valid hvalid
  have hsize : 40 ≤ s.size := by
    by_contra hlt
    rw [parseIpv6, if_pos (by omega)] at hparse
    exact hdefault hparse
  rw [parseIpv6, if_neg (by omega), Span.read_eq (by omega)] at hparse
  simp only [bind, Except.bind] at hparse
  split at hparse
  · exact absurd hparse hdefault
  rename_i hversion
  exact ⟨hsize, not_not.mp hversion⟩

/-- The packet that a walk hands on. -/
def Ipv6Walk.packet : Ipv6Walk → IpPacket
  | .done out => out
  | .upper _ _ out => out

/-- The packet with what a walk may change of it. -/
def withWalk (out walked : IpPacket) : IpPacket :=
  { out with
    tuple.fragmented := walked.tuple.fragmented
    tuple.proto := walked.tuple.proto
    l3HeaderLen := walked.l3HeaderLen }

/-- A walk leaves the rest of the packet alone. -/
theorem walkIpv6Ext_rest {n off endOff : Nat} {next : UInt8} {walk : Ipv6Walk}
    (hwalk : walkIpv6Ext s endOff n next off out = .ok walk) :
    walk.packet = withWalk out walk.packet := by
  induction n generalizing next off out with
  | zero =>
      obtain rfl := Except.ok.inj hwalk
      rfl
  | succ n ih =>
      rw [walkIpv6Ext] at hwalk
      split at hwalk
      · obtain rfl := Except.ok.inj hwalk
        rfl
      split at hwalk
      · obtain rfl := Except.ok.inj hwalk
        rfl
      split at hwalk
      · obtain ⟨frag, -, hwalk⟩ := Runs.bind_eq_ok.mp hwalk
        obtain ⟨next', -, hwalk⟩ := Runs.bind_eq_ok.mp hwalk
        split at hwalk
        · have hrest := ih hwalk
          exact hrest
        · obtain rfl := Except.ok.inj hwalk
          rfl
      · obtain ⟨len, -, hwalk⟩ := Runs.bind_eq_ok.mp hwalk
        dsimp only at hwalk
        generalize hext : (if next = IpProto.ah.code then _ else _ : Nat) = extLen at hwalk
        split at hwalk
        · obtain rfl := Except.ok.inj hwalk
          rfl
        · obtain ⟨next', -, hwalk⟩ := Runs.bind_eq_ok.mp hwalk
          exact ih hwalk

/-- What is left after the extension headers goes to the transport parser. -/
theorem finishIpv6_upper {d off : Nat} {next : UInt8} (hd : off ≤ d) (hoff : off ≤ s.size) :
    finishIpv6 s (min d s.size) (.upper next off out) =
      parseL4 ((s.upTo d).after off)
        { out with tuple.proto := next, l3HeaderLen := UInt16.ofNat off } := by
  rw [finishIpv6, if_pos (by omega), Span.subspan_clamped hd hoff]
  rfl

end Ipv6

section Dispatch

variable {s : Span} {out : IpPacket}

theorem parseIp_of_version4 (hsize : 0 < s.size) (hversion : s.byte 0 >>> 4 = 4) :
    parseIp s = parseIpv4 s := by
  rw [parseIp, if_neg (by omega), Span.read_eq hsize]
  dsimp only [bind, Except.bind]
  rw [if_pos hversion]

theorem parseIp_of_version6 (hsize : 0 < s.size) (hversion : s.byte 0 >>> 4 = 6) :
    parseIp s = parseIpv6 s := by
  rw [parseIp, if_neg (by omega), Span.read_eq hsize]
  dsimp only [bind, Except.bind]
  rw [hversion, if_neg (by decide), if_pos rfl]

/-- A valid packet is of one of the two versions. -/
theorem version_of_valid (hparse : parseIp s = .ok out) (hvalid : out.valid = true) :
    0 < s.size ∧ (s.byte 0 >>> 4 = 4 ∨ s.byte 0 >>> 4 = 6) := by
  have hdefault := default_ne_valid hvalid
  have hsize : 0 < s.size := by
    by_contra hzero
    rw [parseIp, if_pos (by omega)] at hparse
    exact hdefault hparse
  refine ⟨hsize, ?_⟩
  by_contra hneither
  obtain ⟨hnot4, hnot6⟩ := not_or.mp hneither
  rw [parseIp, if_neg (by omega), Span.read_eq hsize] at hparse
  dsimp only [bind, Except.bind] at hparse
  rw [if_neg hnot4, if_neg hnot6] at hparse
  exact hdefault hparse

end Dispatch
end GtpMeter
