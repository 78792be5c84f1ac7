import GtpMeter.GtpuGrammar
import GtpMeter.IngestAccounting
import GtpMeter.PacketFields

/-!
# A metered frame is decided by its own bytes

Each layer of a frame ends by its own rule: Ethernet where the capture ends, IP at its
total length or where the capture ends, GTP-U at its declared length.  For a frame that is
metered these rules agree: what is read ends with the PDU.

Every parser is shown to read the first bytes of its span only, up to the end of the
header that it strips.  Stacked, they read the frame up to the end of the PDU.

**Results.**
* `parseEthernet_local`, `parseIp_local`, `parseGtpu_local`: one layer.
* `PduIn.agree`: a frame that agrees up to the end of the PDU carries the same PDU.
* `metered_frame_decided`: what follows the PDU does not matter, and no byte of it can be
  missing.
-/

namespace GtpMeter

open GtpMeter.Span

section Ethernet

variable {s : Span} {eth : EthFrame}

theorem takePayload_eq {off : Nat} (hoff : off ≤ s.size) (ethertype : UInt16) (out : EthFrame) :
    takePayload s ethertype off out =
      .ok { out with ethertype, payload := s.after off, valid := true } := by
  rw [takePayload, suffix_after hoff]
  rfl

/-- Where the payload is all that follows, only what precedes it has been read. -/
theorem takePayload_local {off : Nat} {ethertype : UInt16} {out : EthFrame} (hoff : off ≤ s.size)
    (hparse : takePayload s ethertype off out = .ok eth) :
    ReadsTo off (fun t => takePayload t ethertype off out) s
      (fun t => { eth with payload := t.after off }) := by
  intro t ht
  rw [takePayload_eq hoff] at hparse
  obtain rfl := Except.ok.inj hparse
  exact takePayload_eq ht.right ethertype out

theorem stripVlanTags_local {n off : Nat} {ethertype : UInt16} {out : EthFrame}
    (hparse : stripVlanTags s n ethertype off out = .ok eth) (hoff : off ≤ s.size)
    (hout : out.valid = false) (hvalid : eth.valid = true) :
    ∃ p, off ≤ p ∧ p ≤ s.size ∧
      ReadsTo p (fun t => stripVlanTags t n ethertype off out) s
        (fun t => { eth with payload := t.after p }) := by
  induction n generalizing ethertype off out with
  | zero => exact ⟨off, Nat.le_refl _, hoff, takePayload_local hoff hparse⟩
  | succ n ih =>
      rw [stripVlanTags] at hparse
      split at hparse
      · rename_i hplain
        refine ⟨off, Nat.le_refl _, hoff, ?_⟩
        intro t ht
        dsimp only
        rw [stripVlanTags, if_pos hplain]
        exact takePayload_local hoff hparse t ht
      · rename_i htagged
        split at hparse
        · -- cut inside a tag: invalid
          obtain rfl := Except.ok.inj hparse
          rw [hout] at hvalid
          cases hvalid
        · rename_i hroom
          have htag : kVlanTagLen = 4 := rfl
          rw [loadBe16_eq (by omega)] at hparse
          have hrest : stripVlanTags s n (be16 (s.byte (off + 2)) (s.byte (off + 2 + 1)))
              (off + kVlanTagLen) { out with vlanTags := out.vlanTags + 1 } = .ok eth := hparse
          obtain ⟨p, hp, hle, hreads⟩ := ih hrest (by omega) hout
          refine ⟨p, by omega, hle, ?_⟩
          intro t ht
          have hright := ht.right
          dsimp only
          rw [stripVlanTags, if_neg htagged, if_neg (by omega), ht.load16 (by omega),
            loadBe16_eq (by omega)]
          exact hreads t ht

/-- The Ethernet header and the tags. -/
theorem parseEthernet_local (hvalid : eth.valid = true) (hparse : parseEthernet s = .ok eth) :
    ∃ p, p ≤ s.size ∧ ReadsTo p parseEthernet s (fun t => { eth with payload := t.after p }) := by
  have hlen : kEthHeaderLen = 14 := rfl
  rw [parseEthernet] at hparse
  split at hparse
  · obtain rfl := Except.ok.inj hparse
    cases hvalid
  · rename_i hsize
    rw [loadBe16_eq (by omega)] at hparse
    have hrest : stripVlanTags s kMaxVlanTags (be16 (s.byte 12) (s.byte (12 + 1))) 14 {} =
        .ok eth := hparse
    obtain ⟨p, hp, hle, hreads⟩ := stripVlanTags_local hrest (by omega) rfl hvalid
    refine ⟨p, hle, ?_⟩
    intro t ht
    have hright := ht.right
    rw [parseEthernet, if_neg (by omega), ht.load16 (by omega), loadBe16_eq (by omega)]
    exact hreads t ht

end Ethernet

section Transport

variable {l4 l4' : Span} {out r : IpPacket}

/-- No port was found. -/
def NoPorts (out : IpPacket) : Prop :=
  out.tuple.srcPort = 0 ∧ out.tuple.dstPort = 0

/-- Ports come from a UDP header that is there. -/
theorem udp_present (hparse : parseL4 l4 out = .ok r)
    (hproto : r.tuple.proto = IpProto.udp.code) (hnone : NoPorts out) (hsome : ¬NoPorts r) :
    8 ≤ l4.size ∧ out.tuple.proto = IpProto.udp.code ∧ r = withL4 l4 8 out := by
  obtain ⟨r', hr', hkept⟩ := parseL4_proto l4 out
  obtain rfl := Except.ok.inj (hparse.symm.trans hr')
  have hudp : out.tuple.proto = IpProto.udp.code := hkept.symm.trans hproto
  by_cases hsize : l4.size < 8
  · rw [parseL4_udp_short hudp hsize] at hparse
    obtain rfl := Except.ok.inj hparse
    exact absurd hnone hsome
  · rw [parseL4_udp hudp (by omega)] at hparse
    exact ⟨by omega, hudp, (Except.ok.inj hparse).symm⟩

theorem withL4_agree (h : AgreeTo 8 l4 l4') :
    withL4 l4' 8 out = { withL4 l4 8 out with l4Payload := l4'.after 8 } := by
  simp [withL4, withPorts, h.byte]

end Transport

section Ipv4

variable {s t : Span} {outer : IpPacket}

theorem ipv4_agree (h : AgreeTo 20 s t) :
    ipv4HeaderLen t = ipv4HeaderLen s ∧ ipv4TotalLen t = ipv4TotalLen s ∧
      ipv4Frag t = ipv4Frag s ∧ ipv4Packet t = ipv4Packet s := by
  simp [ipv4HeaderLen, ipv4TotalLen, ipv4Frag, ipv4Packet, h.byte, h.block]

/-- The IPv4 header and the UDP header. -/
theorem parseIpv4_local (hvalid : outer.valid = true)
    (hproto : outer.tuple.proto = IpProto.udp.code) (hports : ¬NoPorts outer)
    (hparse : parseIpv4 s = .ok outer) :
    ∃ q d, 20 ≤ q ∧ q ≤ s.size ∧ q ≤ d ∧
      ReadsTo q parseIpv4 s (fun t => { outer with l4Payload := (t.upTo d).after q }) := by
  have hheader := ipv4Header_of_valid hparse hvalid
  rw [parseIpv4_of_header hheader] at hparse
  split at hparse
  · rename_i hfirst
    have hnone : NoPorts (ipv4Packet s) := ⟨rfl, rfl⟩
    obtain ⟨hbody, hudp, rfl⟩ := udp_present hparse hproto hnone hports
    obtain ⟨hsize, hversion, hge, hle, htotal⟩ := hheader
    rw [ipv4Body, size_after, size_upTo] at hbody
    refine ⟨ipv4HeaderLen s + 8, (ipv4TotalLen s).toNat, by omega, by omega, by omega, ?_⟩
    intro t ht
    have hright := ht.right
    obtain ⟨hlen', htotal', hfrag', hpacket'⟩ := ipv4_agree (ht.mono (by omega))
    have hheader' : Ipv4Header t := by
      refine ⟨by omega, ?_, by omega, by omega, ?_⟩
      · rw [ht.byte (by omega), hversion]
      · rw [hlen', htotal']
        exact htotal
    have hbody' : AgreeTo 8 (ipv4Body s) (ipv4Body t) := by
      have hcut := (ht.upTo (show _ ≤ (ipv4TotalLen s).toNat by omega)).after
        (Nat.le_add_right (ipv4HeaderLen s) 8)
      rw [Nat.add_sub_cancel_left] at hcut
      rw [ipv4Body, ipv4Body, hlen', htotal']
      exact hcut
    have hpayload : (ipv4Body t).after 8 =
        (t.upTo (ipv4TotalLen s).toNat).after (ipv4HeaderLen s + 8) := by
      rw [ipv4Body, hlen', htotal', after_after]
    rw [parseIpv4_of_header hheader', hfrag', if_pos hfirst, hpacket',
      parseL4_udp hudp hbody'.right, withL4_agree hbody', hpayload]
  · obtain rfl := Except.ok.inj hparse
    exact absurd ⟨rfl, rfl⟩ hports

end Ipv4

section Ipv6

variable {s t : Span} {outer out : IpPacket}

theorem walkIpv6Ext_noPorts {n off endOff : Nat} {next : UInt8} {walk : Ipv6Walk}
    (hwalk : walkIpv6Ext s endOff n next off out = .ok walk) (hout : NoPorts out) :
    NoPorts walk.packet := by
  rw [walkIpv6Ext_rest hwalk]
  exact hout

/-- A walk that reaches an upper header has read what precedes it, wherever the packet
ends after that. -/
theorem walkIpv6Ext_local {n off off' endOff : Nat} {next next' : UInt8} {out' : IpPacket}
    (hwalk : walkIpv6Ext s endOff n next off out = .ok (.upper next' off' out')) :
    off ≤ off' ∧ ∀ t endOff', AgreeTo off' s t → off' ≤ endOff' →
      walkIpv6Ext t endOff' n next off out = .ok (.upper next' off' out') := by
  induction n generalizing next off out with
  | zero =>
      obtain ⟨rfl, rfl, rfl⟩ := Ipv6Walk.upper.inj (Except.ok.inj hwalk)
      exact ⟨Nat.le_refl _, fun _ _ _ _ => rfl⟩
  | succ n ih =>
      rw [walkIpv6Ext] at hwalk
      split at hwalk
      · rename_i hupper
        obtain ⟨rfl, rfl, rfl⟩ := Ipv6Walk.upper.inj (Except.ok.inj hwalk)
        refine ⟨Nat.le_refl _, ?_⟩
        intro t endOff' _ _
        rw [walkIpv6Ext, if_pos hupper]
      rename_i hext
      split at hwalk
      · cases hwalk
      split at hwalk
      · rename_i hfrag
        obtain ⟨frag, hload, hwalk⟩ := Runs.bind_eq_ok.mp hwalk
        obtain ⟨type, hread, hwalk⟩ := Runs.bind_eq_ok.mp hwalk
        split at hwalk
        · rename_i hfirst
          obtain ⟨hle, hlocal⟩ := ih hwalk
          refine ⟨by omega, ?_⟩
          intro t endOff' ht hend
          rw [walkIpv6Ext, if_neg hext, if_neg (by omega), if_pos hfrag, ht.load16 (by omega),
            hload, ht.read (by omega), hread]
          dsimp only [bind, Except.bind]
          rw [if_pos hfirst]
          exact hlocal t endOff' ht hend
        · cases hwalk
      · rename_i hfrag
        obtain ⟨len, hlen, hwalk⟩ := Runs.bind_eq_ok.mp hwalk
        dsimp only at hwalk
        -- every extension header takes 8 bytes at least
        have hge : 8 ≤ (if next = IpProto.ah.code then (len.toNat + 2) * 4
            else (len.toNat + 1) * 8) := by
          split <;> omega
        generalize hextLen : (if next = IpProto.ah.code then (len.toNat + 2) * 4
            else (len.toNat + 1) * 8) = extLen at hwalk hge
        split at hwalk
        · cases hwalk
        · obtain ⟨type, hread, hwalk⟩ := Runs.bind_eq_ok.mp hwalk
          obtain ⟨hle, hlocal⟩ := ih hwalk
          refine ⟨by omega, ?_⟩
          intro t endOff' ht hend
          rw [walkIpv6Ext, if_neg hext, if_neg (by omega), if_neg hfrag, ht.read (by omega), hlen]
          dsimp only [bind, Except.bind]
          rw [hextLen, if_neg (by omega), ht.read (by omega), hread]
          exact hlocal t endOff' ht hend

theorem ipv6_agree (h : AgreeTo 40 s t) :
    ipv6Declared t = ipv6Declared s ∧ ipv6Packet t = ipv6Packet s := by
  simp [ipv6Declared, ipv6PayloadLen, ipv6Packet, h.byte, h.block]

/-- The IPv6 header, its extension headers and the UDP header. -/
theorem parseIpv6_local (hvalid : outer.valid = true)
    (hproto : outer.tuple.proto = IpProto.udp.code) (hports : ¬NoPorts outer)
    (hparse : parseIpv6 s = .ok outer) :
    ∃ q d, 20 ≤ q ∧ q ≤ s.size ∧ q ≤ d ∧
      ReadsTo q parseIpv6 s (fun t => { outer with l4Payload := (t.upTo d).after q }) := by
  have hheader := ipv6Header_of_valid hparse hvalid
  rw [parseIpv6_of_header hheader] at hparse
  obtain ⟨walk, hwalk, hfinish⟩ := Runs.bind_eq_ok.mp hparse
  have hnone : NoPorts walk.packet := walkIpv6Ext_noPorts hwalk ⟨rfl, rfl⟩
  cases walk with
  | done out =>
      obtain rfl := Except.ok.inj hfinish
      exact absurd hnone hports
  | upper next off out =>
      obtain ⟨hoff, hlocal⟩ := walkIpv6Ext_local hwalk
      by_cases hend : off ≤ min (ipv6Declared s) s.size
      · rw [finishIpv6_upper (by omega) (by omega)] at hfinish
        obtain ⟨hbody, hudp, rfl⟩ := udp_present hfinish hproto hnone hports
        obtain ⟨hsize, hversion⟩ := hheader
        rw [size_after, size_upTo] at hbody
        refine ⟨off + 8, ipv6Declared s, by omega, by omega, by omega, ?_⟩
        intro t ht
        have hright := ht.right
        obtain ⟨hdeclared, hpacket⟩ := ipv6_agree (ht.mono (by omega))
        have hheader' : Ipv6Header t := by
          refine ⟨by omega, ?_⟩
          rw [ht.byte (by omega), hversion]
        have hbody' : AgreeTo 8 ((s.upTo (ipv6Declared s)).after off)
            ((t.upTo (ipv6Declared s)).after off) := by
          have hcut := (ht.upTo (show _ ≤ ipv6Declared s by omega)).after (Nat.le_add_right off 8)
          rw [Nat.add_sub_cancel_left] at hcut
          exact hcut
        have hwalk' := hlocal t (min (ipv6Declared s) t.size) (ht.mono (by omega)) (by omega)
        rw [parseIpv6_of_header hheader', hdeclared, hpacket, ht.byte (by omega), hwalk']
        dsimp only [bind, Except.bind]
        rw [finishIpv6_upper (by omega) (by omega), parseL4_udp hudp hbody'.right,
          withL4_agree hbody', after_after]
      · -- an extension header that runs past the end: there is no transport header
        rw [finishIpv6, if_neg hend] at hfinish
        obtain rfl := Except.ok.inj hfinish
        exact absurd hnone hports

/-- The headers of a UDP packet. -/
theorem parseIp_local (hvalid : outer.valid = true)
    (hproto : outer.tuple.proto = IpProto.udp.code) (hports : ¬NoPorts outer)
    (hparse : parseIp s = .ok outer) :
    ∃ q d, q ≤ s.size ∧ q ≤ d ∧
      ReadsTo q parseIp s (fun t => { outer with l4Payload := (t.upTo d).after q }) := by
  obtain ⟨hsize, hversion | hversion⟩ := version_of_valid hparse hvalid
  · rw [parseIp_of_version4 hsize hversion] at hparse
    obtain ⟨q, d, hge, hq, hd, hreads⟩ := parseIpv4_local hvalid hproto hports hparse
    refine ⟨q, d, hq, hd, ?_⟩
    intro t ht
    have hright := ht.right
    have hsame : t.byte 0 = s.byte 0 := ht.byte (by omega)
    rw [parseIp_of_version4 (by omega) (by rw [hsame, hversion])]
    exact hreads t ht
  · rw [parseIp_of_version6 hsize hversion] at hparse
    obtain ⟨q, d, hge, hq, hd, hreads⟩ := parseIpv6_local hvalid hproto hports hparse
    refine ⟨q, d, hq, hd, ?_⟩
    intro t ht
    have hright := ht.right
    have hsame : t.byte 0 = s.byte 0 := ht.byte (by omega)
    rw [parseIp_of_version6 (by omega) (by rw [hsame, hversion])]
    exact hreads t ht

end Ipv6

section Gtpu

variable {s t : Span} {links : List ExtLink} {h : GtpuHeader}

/-- The fields that say how long a PDU is and what it has. -/
theorem gtpu_agree (ht : AgreeTo 8 s t) :
    gtpuLength t = gtpuLength s ∧ gtpuOptional t = gtpuOptional s ∧ gtpuFixed t = gtpuFixed s ∧
      ∀ mask, gtpuFlag t mask = gtpuFlag s mask := by
  simp [gtpuLength, gtpuOptional, gtpuFixed, gtpuFlag, ht.byte]

/-- Whether a chain follows is told by the optional block, which is inside the PDU. -/
theorem gtpuExtended_agree (hp : GtpuPdu s links) (ht : AgreeTo (8 + gtpuLength s) s t) :
    gtpuExtended t = gtpuExtended s := by
  obtain ⟨-, hoptional, -, hflag⟩ := gtpu_agree (ht.mono (Nat.le_add_right _ _))
  cases hopt : gtpuOptional s with
  | false =>
      rw [not_extended_of_not_optional hopt, not_extended_of_not_optional (hoptional.trans hopt)]
  | true =>
      have hfour := hp.optional hopt
      rw [gtpuExtended, gtpuExtended, hflag, ht.byte (by omega)]

theorem gtpuWithOptional_agree (ht : AgreeTo 12 s t) :
    gtpuWithOptional t = gtpuWithOptional s := by
  obtain ⟨-, -, hfixed, hflag⟩ := gtpu_agree (ht.mono (by omega))
  rw [gtpuWithOptional, gtpuWithOptional, hfixed, hflag, hflag, ht.byte (by omega),
    ht.byte (by omega), ht.byte (by omega)]

theorem gtpuFields_agree (hp : GtpuPdu s links) (ht : AgreeTo (8 + gtpuLength s) s t) :
    gtpuFields t links = gtpuFields s links := by
  obtain ⟨-, hoptional, hfixed, -⟩ := gtpu_agree (ht.mono (Nat.le_add_right _ _))
  rw [gtpuFields, gtpuFields, gtpuExtended_agree hp ht, hoptional, hfixed]
  cases hopt : gtpuOptional s with
  | false => simp only [not_extended_of_not_optional hopt, Bool.false_eq_true, if_false]
  | true =>
      have hfour := hp.optional hopt
      have hblock := gtpuWithOptional_agree (ht.mono (show 12 ≤ _ by omega))
      have hext : gtpuWithExt t = gtpuWithExt s := by rw [gtpuWithExt, gtpuWithExt, hblock]
      rw [hext, hblock]

/-- The PDU ends where its length says: what follows does not belong to it. -/
theorem pdu_agree (hp : GtpuPdu s links) (ht : AgreeTo (8 + gtpuLength s) s t) :
    GtpuPdu t links ∧ pduHeader t links = pduHeader s links := by
  have hright := ht.right
  obtain ⟨hlength, hoptional, hfixed, hflag⟩ := gtpu_agree (ht.mono (Nat.le_add_right _ _))
  have hextended := gtpuExtended_agree hp ht
  constructor
  · refine ⟨by omega, ?_, ?_, by omega, ?_, ?_, ?_⟩
    · rw [ht.byte (by omega)]
      exact hp.version
    · rw [ht.byte (by omega)]
      exact hp.protocol
    · rw [hoptional, hlength]
      exact hp.optional
    · intro hext
      rw [hextended] at hext
      obtain ⟨hone, hmax, htype, hchain⟩ := hp.chain hext
      have hfour : 4 ≤ gtpuLength s := by
        refine hp.optional ?_
        by_contra hopt
        rw [not_extended_of_not_optional (Bool.eq_false_iff.mpr hopt)] at hext
        cases hext
      refine ⟨hone, hmax, ?_, ?_⟩
      · rw [htype, ht.byte (by omega)]
      · rw [hlength, ht.block (by omega)]
        exact hchain
    · rw [hextended]
      exact hp.no_chain
  · have hheader : gtpuHeaderLen t links = gtpuHeaderLen s links := by
      rw [gtpuHeaderLen, gtpuHeaderLen, hoptional]
    have hsize := pduHeader_size hp
    rw [pduHeader, pduHeader, hheader, hlength, gtpuFields_agree hp ht, cutPayload, cutPayload,
      ht.off_eq, ht.block (by omega)]

theorem parseGtpu_local (hparse : parseGtpu s = .ok (.ok, h)) :
    8 + h.declaredLen.toNat ≤ s.size ∧
      ReadsTo (8 + h.declaredLen.toNat) parseGtpu s (fun _ => (.ok, h)) := by
  obtain ⟨links, hp⟩ := pdu_of_parseGtpu hparse
  obtain rfl : pduHeader s links = h :=
    congrArg Prod.snd (Except.ok.inj ((parseGtpu_of_pdu hp).symm.trans hparse))
  have hsize := hp.size_ge
  have hlength := hp.length_le
  rw [(pduHeader_fixed s links).2.2]
  refine ⟨by omega, ?_⟩
  intro t ht
  obtain ⟨hpdu, hheader⟩ := pdu_agree hp ht
  rw [parseGtpu_of_pdu hpdu, hheader]

end Gtpu

section Frame

variable {cfg : IngestConfig} {s t : Span} {eth : EthFrame} {outer : IpPacket} {h : GtpuHeader}

/-- The frame carries a PDU on the GTP-U port; its layers, one by one. -/
structure PduIn (cfg : IngestConfig) (s : Span) (eth : EthFrame) (outer : IpPacket)
    (h : GtpuHeader) : Prop where
  ethernet : parseEthernet s = .ok eth
  eth_valid : eth.valid = true
  ip : parseIp eth.payload = .ok outer
  ip_valid : outer.valid = true
  udp : outer.tuple.proto = IpProto.udp.code
  port : outer.tuple.dstPort = cfg.gtpuPort ∨ outer.tuple.srcPort = cfg.gtpuPort
  gtpu : parseGtpu outer.l4Payload = .ok (.ok, h)

/-- Where the PDU ends: it begins with the UDP payload. -/
def pduEnd (outer : IpPacket) (h : GtpuHeader) : Nat :=
  outer.l4Payload.off + 8 + h.declaredLen.toNat

/-- The verdict on a PDU. -/
def pduVerdict (h : GtpuHeader) : Except OutOfBounds FrameVerdict :=
  if !h.isGpdu then .ok (.control h)
  else do
    let inner ← parseIp h.payload
    .ok (.gpdu h inner)

/-- The PDU that a frame turned out to carry. -/
def FrameVerdict.header : FrameVerdict → Option GtpuHeader
  | .control h => some h
  | .gpdu h _ => some h
  | _ => none

/-- A PDU is judged by its header, and not by the frame around it. -/
theorem PduIn.verdict (hp : PduIn cfg s eth outer h) : frameVerdict cfg s = pduVerdict h := by
  obtain ⟨heth, hvalid, hip, hipValid, hudp, hport, hgtpu⟩ := hp
  simp only [frameVerdict, heth, hvalid, ipVerdict, hip, hipValid, hudp, hport, gtpuVerdict, hgtpu,
    pduVerdict, bind, Except.bind, Bool.not_true, Bool.false_eq_true, if_false, and_self, if_true,
    ne_eq, not_true_eq_false]

theorem pduIn_of_verdict {v : FrameVerdict} (hv : frameVerdict cfg s = .ok v)
    (hheader : v.header = some h) : ∃ eth outer, PduIn cfg s eth outer h := by
  obtain ⟨eth, heth, hv⟩ := Runs.bind_eq_ok.mp hv
  split at hv
  · obtain rfl := Except.ok.inj hv
    cases hheader
  rename_i hvalid
  obtain ⟨outer, hip, hv⟩ := Runs.bind_eq_ok.mp hv
  dsimp only at hv
  split at hv
  · obtain rfl := Except.ok.inj hv
    cases hheader
  rename_i hipValid
  split at hv
  · rename_i hport
    obtain ⟨⟨st, h'⟩, hgtpu, hv⟩ := Runs.bind_eq_ok.mp hv
    dsimp only at hv
    split at hv
    · obtain rfl := Except.ok.inj hv
      cases hheader
    rename_i hst
    obtain rfl : st = .ok := not_not.mp hst
    -- control PDU or G-PDU, the header is the one that was parsed
    have hsame : h' = h := by
      split at hv
      · obtain rfl := Except.ok.inj hv
        exact Option.some.inj hheader
      · obtain ⟨inner, -, hv⟩ := Runs.bind_eq_ok.mp hv
        obtain rfl := Except.ok.inj hv
        exact Option.some.inj hheader
    rw [hsame] at hgtpu
    exact ⟨eth, outer, heth, by simpa using hvalid, hip, by simpa using hipValid, hport.1, hport.2,
      hgtpu⟩
  split at hv
  · obtain rfl := Except.ok.inj hv
    cases hheader
  · obtain rfl := Except.ok.inj hv
    cases hheader

theorem PduIn.hasPorts (hp : PduIn cfg s eth outer h) (hport : cfg.gtpuPort ≠ 0) :
    ¬NoPorts outer := by
  rintro ⟨hsrc, hdst⟩
  rcases hp.port with heq | heq
  · exact hport (heq.symm.trans hdst)
  · exact hport (heq.symm.trans hsrc)

/-- **Up to the end of the PDU.**  The PDU lies inside the frame, and every frame with the
same bytes up to its end carries it at the same place. -/
theorem PduIn.agree (hp : PduIn cfg s eth outer h) (hport : cfg.gtpuPort ≠ 0) :
    s.off ≤ pduEnd outer h ∧ pduEnd outer h ≤ s.off + s.size ∧
      ∀ t, AgreeTo (pduEnd outer h - s.off) s t →
        ∃ eth' outer', PduIn cfg t eth' outer' h ∧ pduEnd outer' h = pduEnd outer h := by
  obtain ⟨p, hp_le, hreads⟩ := parseEthernet_local hp.eth_valid hp.ethernet
  obtain ⟨q, d, hq_le, hqd, hreads'⟩ :=
    parseIp_local hp.ip_valid hp.udp (hp.hasPorts hport) hp.ip
  obtain ⟨hfits, hreads''⟩ := parseGtpu_local hp.gtpu
  -- where the layers of `s` begin
  have hpayload : eth.payload = s.after p :=
    congrArg EthFrame.payload (hreads.self hp_le hp.ethernet)
  have hl4 : outer.l4Payload = (eth.payload.upTo d).after q :=
    congrArg IpPacket.l4Payload (hreads'.self hq_le hp.ip)
  have hbegin : outer.l4Payload.off = s.off + p + q := by
    rw [hl4, hpayload]
    rfl
  rw [hpayload, size_after] at hq_le
  rw [hl4, hpayload, size_after, size_upTo, size_after] at hfits
  rw [pduEnd, hbegin]
  refine ⟨by omega, by omega, ?_⟩
  intro t ht
  have hinner : AgreeTo (q + (8 + h.declaredLen.toNat)) eth.payload (t.after p) := by
    rw [hpayload]
    exact (ht.after (by omega)).mono (by omega)
  have hpdu : AgreeTo (8 + h.declaredLen.toNat) outer.l4Payload
      (((t.after p).upTo d).after q) := by
    rw [hl4]
    exact ((hinner.upTo (by omega)).after (by omega)).mono (by omega)
  refine ⟨_, _, ⟨hreads t (ht.mono (by omega)), hp.eth_valid,
    hreads' _ (hinner.mono (by omega)), hp.ip_valid, hp.udp, hp.port, hreads'' _ hpdu⟩, ?_⟩
  rw [← hbegin]
  exact congrArg (fun x => x + 8 + h.declaredLen.toNat) hpdu.off_eq

/-- A frame carries one PDU at most. -/
theorem PduIn.unique {eth' : EthFrame} {outer' : IpPacket} {h' : GtpuHeader}
    (hp : PduIn cfg s eth outer h) (hp' : PduIn cfg s eth' outer' h') :
    outer' = outer ∧ h' = h := by
  obtain rfl := Except.ok.inj (hp.ethernet.symm.trans hp'.ethernet)
  obtain rfl := Except.ok.inj (hp.ip.symm.trans hp'.ip)
  exact ⟨rfl, (congrArg Prod.snd (Except.ok.inj (hp.gtpu.symm.trans hp'.gtpu))).symm⟩

end Frame

section Events

variable {ing ing' : Ingest} {v : FrameVerdict} {tsNs : UInt64} {w : UInt16} {ev : MeterEvent}
  {outcome : FrameOutcome} {h : GtpuHeader}

/-- What is reported of a PDU whose event was taken. -/
def FrameVerdict.reported : FrameVerdict → FrameOutcome
  | .control _ => .gtpuControl
  | _ => .metered

theorem FrameVerdict.header_of_event {cfg : IngestConfig} (hev : v.event cfg tsNs w = some ev) :
    ∃ h, v.header = some h := by
  obtain ⟨h, rfl, -⟩ | ⟨h, inner, rfl, -⟩ := event_cases hev
  · exact ⟨h, rfl⟩
  · exact ⟨h, rfl⟩

theorem headerEvent_wireBytes (cfg : IngestConfig) (w' : UInt16) :
    Ingest.headerEvent cfg h tsNs w' =
      { Ingest.headerEvent cfg h tsNs w with
        wireBytes := if cfg.countWireBytes then w' else 0 } := by
  unfold Ingest.headerEvent
  cases h.hasQfi with
  | false => rfl
  | true => rfl

/-- The size of the frame enters an event as `wireBytes` only. -/
theorem FrameVerdict.event_wireBytes {cfg : IngestConfig} (hev : v.event cfg tsNs w = some ev)
    (w' : UInt16) :
    v.event cfg tsNs w' =
      some { ev with wireBytes := if cfg.countWireBytes then w' else 0 } := by
  obtain ⟨h, rfl, rfl⟩ | ⟨h, inner, rfl, rfl⟩ := event_cases hev
  · rw [FrameVerdict.event, controlEvent, headerEvent_wireBytes (w := w)]
    rfl
  · rw [FrameVerdict.event, gpduEvent, gpduEvent, headerEvent_wireBytes (w := w)]
    cases inner.valid with
    | false => rfl
    | true => rfl

namespace Ingest

/-- The frame yields the event: after counting, the event is pushed and taken. -/
def Yields (ing : Ingest) (frame : List UInt8) (tsNs : UInt64) (ev : MeterEvent)
    (outcome : FrameOutcome) : Prop :=
  ∃ stats, ing.processFrame (.whole frame) tsNs =
      .ok ((({ ing with stats } : Ingest).pushEvent ev).1, outcome) ∧
    (({ ing with stats } : Ingest).pushEvent ev).2 = true

/-- The frame yields no event: nothing is pushed, and none was dropped. -/
def YieldsNothing (ing : Ingest) (frame : List UInt8) (tsNs : UInt64) : Prop :=
  ∃ ing' outcome, ing.processFrame (.whole frame) tsNs = .ok (ing', outcome) ∧
    ing'.meterRing = ing.meterRing ∧ ing'.meterPushes = ing.meterPushes ∧
    outcome ≠ .metered ∧ outcome ≠ .gtpuControl ∧ outcome ≠ .dropped

theorem finish_taken (ing : Ingest) (o : FrameOutcome) (htakes : ing.meterTakes ev = true) :
    ing.finish ev o = ((ing.pushEvent ev).1, o) ∧ (ing.pushEvent ev).2 = true := by
  have hpushed : (ing.pushEvent ev).2 = true := by rw [pushEvent_eq, htakes]
  rw [finish, hpushed]
  exact ⟨rfl, rfl⟩

theorem yields_of_verdict {frame : List UInt8} (hv : frameVerdict ing.cfg (.whole frame) = .ok v)
    (hev : v.event ing.cfg tsNs (UInt16.ofNat frame.length) = some ev)
    (htakes : ing.meterTakes ev = true) : ing.Yields frame tsNs ev v.reported := by
  rw [Yields, processFrame_eq, hv]
  obtain ⟨h, rfl, rfl⟩ | ⟨h, inner, rfl, rfl⟩ := FrameVerdict.event_cases hev
  · have htaken := finish_taken (ing.countFrame frame.length).countControl .gtpuControl htakes
    exact ⟨_, congrArg Except.ok htaken.1, htaken.2⟩
  · have htaken := finish_taken ((ing.countFrame frame.length).countGpdu inner) .metered htakes
    exact ⟨_, congrArg Except.ok htaken.1, htaken.2⟩

/-- An event is reported as metered or control when the ring took it. -/
theorem taken_of_finish {o : FrameOutcome} (hrun : ing.finish ev o = (ing', outcome))
    (ho : outcome = .metered ∨ outcome = .gtpuControl) :
    ing.meterTakes ev = true ∧ outcome = o := by
  rw [finish, pushEvent_eq] at hrun
  obtain ⟨-, rfl⟩ := Prod.mk.inj hrun
  cases htakes : ing.meterTakes ev with
  | false => simp [htakes] at ho
  | true => exact ⟨rfl, rfl⟩

theorem taken_of_carryOut {size : Nat}
    (hrun : (ing.countFrame size).carryOut tsNs w v = .ok (ing', outcome))
    (ho : outcome = .metered ∨ outcome = .gtpuControl) :
    ∃ ev, v.event ing.cfg tsNs w = some ev ∧ ing.meterTakes ev = true ∧ outcome = v.reported := by
  obtain ⟨ev, hev⟩ := Option.isSome_iff_exists.mp (carryOut_event hrun ho)
  refine ⟨ev, hev, ?_⟩
  obtain ⟨h, rfl, rfl⟩ | ⟨h, inner, rfl, rfl⟩ := FrameVerdict.event_cases hev
  · have htaken := taken_of_finish (carryOut_control hrun) ho
    exact htaken
  · have htaken := taken_of_finish (carryOut_gpdu hrun) ho
    exact htaken

theorem nothing_of_verdict {frame : List UInt8} (hv : frameVerdict ing.cfg (.whole frame) = .ok v)
    (hheader : v.header = none) : ing.YieldsNothing frame tsNs := by
  rw [YieldsNothing, processFrame_eq, hv]
  cases v with
  | control h | gpdu h inner => cases hheader
  | nonIp | otherPort | rejected st => exact ⟨_, _, rfl, rfl, rfl, by decide, by decide, by decide⟩
  | diameter payload =>
      have hreturns : Returns (fun _ => True)
          ((ing.countFrame frame.length).processDiameter payload tsNs) :=
        processDiameter_returns (ViewOf.somewhere payload)
      obtain ⟨⟨ing', outcome⟩, hrun, -⟩ := hreturns
      obtain ⟨hside, houtcome⟩ := processDiameter_meterSide hrun
      have hring := congrArg Ingest.meterRing hside
      have hpushes := congrArg Ingest.meterPushes hside
      refine ⟨ing', outcome, hrun, hring, hpushes, ?_⟩
      rcases houtcome with rfl | rfl | rfl <;> decide

/-- The span of a byte string that begins like another. -/
theorem agreeTo_whole {f g : List UInt8} {n : Nat} (hf : n ≤ f.length) (hg : n ≤ g.length)
    (hsame : g.take n = f.take n) : AgreeTo n (.whole f) (.whole g) where
  off_eq := rfl
  left := hf
  right := hg
  take_eq := hsame

/-- **A metered frame is decided by exactly its own bytes.**  Let a frame yield an event,
on any GTP-U port that is not 0.  Then it carries a PDU, and with `e` where the PDU ends:
* every frame with the same first `e` bytes yields the same event but for the size of the
  frame, with the same outcome;
* the first `n` bytes yield nothing, for every `n < e`. -/
theorem metered_frame_decided {f : List UInt8} (hport : ing.cfg.gtpuPort ≠ 0)
    (hrun : ing.processFrame (.whole f) tsNs = .ok (ing', outcome))
    (ho : outcome = .metered ∨ outcome = .gtpuControl) :
    ∃ eth outer h ev, PduIn ing.cfg (.whole f) eth outer h ∧ pduEnd outer h ≤ f.length ∧
      ing.Yields f tsNs ev outcome ∧
      (∀ g, pduEnd outer h ≤ g.length → g.take (pduEnd outer h) = f.take (pduEnd outer h) →
        ing.Yields g tsNs
          { ev with
            wireBytes := if ing.cfg.countWireBytes then UInt16.ofNat g.length else 0 } outcome) ∧
      (∀ n, n < pduEnd outer h → ing.YieldsNothing (f.take n) tsNs) := by
  rw [processFrame_eq] at hrun
  obtain ⟨v, hv, hcarry⟩ := Runs.bind_eq_ok.mp hrun
  obtain ⟨ev, hev, htakes, rfl⟩ := taken_of_carryOut hcarry ho
  obtain ⟨h, hheader⟩ := FrameVerdict.header_of_event hev
  obtain ⟨eth, outer, hp⟩ := pduIn_of_verdict hv hheader
  obtain ⟨-, hend, hagree⟩ := hp.agree hport
  have hend' : pduEnd outer h ≤ f.length := by
    rw [← Nat.zero_add f.length]
    exact hend
  refine ⟨eth, outer, h, ev, hp, hend', yields_of_verdict hv hev htakes, ?_, ?_⟩
  · intro g hg hsame
    obtain ⟨eth', outer', hp', -⟩ := hagree (.whole g) (agreeTo_whole hend' hg hsame)
    have hv' : frameVerdict ing.cfg (.whole g) = .ok v := by
      rw [hp'.verdict, ← hp.verdict, hv]
    have hev' := FrameVerdict.event_wireBytes hev (UInt16.ofNat g.length)
    refine yields_of_verdict hv' hev' ?_
    rw [meterTakes_any ing _ ev, htakes]
  · intro n hn
    obtain ⟨v', hv', -⟩ := frameVerdict_returns ing.cfg (.whole (f.take n))
    refine nothing_of_verdict hv' ?_
    -- a PDU in the first `n` bytes would be the PDU of `f`, which ends after them
    by_contra hsome
    obtain ⟨h', hheader'⟩ := Option.ne_none_iff_exists'.mp hsome
    obtain ⟨eth', outer', hp'⟩ := pduIn_of_verdict hv' hheader'
    obtain ⟨-, hshort, hagree'⟩ := hp'.agree hport
    have hlen : pduEnd outer' h' ≤ n := by
      have hsize : (Span.whole (f.take n)).size ≤ n := by
        simp [Span.whole, Span.size]
      have hoff : (Span.whole (f.take n)).off = 0 := rfl
      omega
    have hback : AgreeTo (pduEnd outer' h') (.whole (f.take n)) (.whole f) := by
      refine agreeTo_whole ?_ (by omega) ?_
      · rw [List.length_take]
        omega
      · rw [List.take_take, Nat.min_eq_left hlen]
    obtain ⟨eth'', outer'', hp'', hsameEnd⟩ := hagree' _ hback
    obtain ⟨rfl, rfl⟩ := hp.unique hp''
    omega

/-- The PDU of the frame ends with its last byte: padding changes nothing, and the frame
without that byte yields nothing. -/
theorem metered_frame_decided_uplink :
    ∃ ev, ({ meterRing := some (.init 2) } : Ingest).Yields uplinkFrame 7 ev .metered ∧
      ({ meterRing := some (.init 2) } : Ingest).Yields (uplinkFrame ++ [0, 0, 0]) 7
        { ev with wireBytes := 89 } .metered ∧
      ({ meterRing := some (.init 2) } : Ingest).YieldsNothing (uplinkFrame.take 85) 7 := by
  have hmetered : Runs.returnsWith (({ meterRing := some (.init 2) } : Ingest).processFrame
      (.whole uplinkFrame) 7) (fun r => decide (r.2 = .metered)) = true := by
    decide +kernel
  have hends : Runs.returnsWith (parseEthernet (.whole uplinkFrame)) (fun eth =>
      Runs.returnsWith (parseIp eth.payload) (fun outer =>
        Runs.returnsWith (parseGtpu outer.l4Payload)
          (fun r => decide (pduEnd outer r.2 = 86)))) = true := by
    decide +kernel
  obtain ⟨⟨ing', outcome⟩, hrun, houtcome⟩ := Runs.returnsWith_iff.mp hmetered
  obtain rfl : outcome = .metered := of_decide_eq_true houtcome
  obtain ⟨eth, outer, h, ev, hp, -, hyields, hpadded, hcut⟩ :=
    metered_frame_decided (by decide) hrun (.inl rfl)
  have hend : pduEnd outer h = 86 := by
    simpa [hp.ethernet, hp.ip, hp.gtpu, Runs.returnsWith] using hends
  rw [hend] at hpadded hcut
  exact ⟨ev, hyields, hpadded (uplinkFrame ++ [0, 0, 0]) (by decide) (by decide),
    hcut 85 (by decide)⟩

end Ingest
end Events
end GtpMeter
