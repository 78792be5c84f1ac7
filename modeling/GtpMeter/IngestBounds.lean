import GtpMeter.Ingest
import GtpMeter.TransitionRuns

/-!
# The ingest path stays inside its buffers

Every access of the parsers is a checked one, so a parser that returns has read and cut
only inside the span it was given.  For each parser there is one lemma: given a view of
the input it returns, and what it returns views the input too.

**Results.**
* `avpLoop_keeps`: the walk over an AVP area hands only views to its callback, at any
  depth and for any callback.
* `ingest_stays_in_bounds`: the entry points of the pipeline never leave their buffers.
-/

namespace GtpMeter

variable {input : List UInt8}

section Ethernet

variable {frame : Span} {ethertype : UInt16} {off : Nat} {out : EthFrame}

theorem takePayload_views (hframe : ViewOf input frame) (hoff : off ≤ frame.size) :
    Returns (fun eth => ViewOf input eth.payload) (takePayload frame ethertype off out) :=
  Returns.suffix hoff (Returns.ok (hframe.suffix hoff))

theorem stripVlanTags_views (n : Nat) (hframe : ViewOf input frame)
    (hoff : off ≤ frame.size) (hout : ViewOf input out.payload) :
    Returns (fun eth => ViewOf input eth.payload)
      (stripVlanTags frame n ethertype off out) := by
  induction n generalizing ethertype off out with
  | zero => exact takePayload_views hframe hoff
  | succ n ih =>
      refine Returns.ite (fun _ => takePayload_views hframe hoff) (fun _ => ?_)
      refine Returns.ite (fun _ => Returns.ok hout) (fun hcut => ?_)
      have : kVlanTagLen = 4 := rfl
      exact Returns.load16 (by omega) (ih (by omega) hout)

theorem parseEthernet_views (hframe : ViewOf input frame) :
    Returns (fun eth => ViewOf input eth.payload) (parseEthernet frame) := by
  refine Returns.ite (fun _ => Returns.ok (ViewOf.empty input)) (fun hshort => ?_)
  have : kEthHeaderLen = 14 := rfl
  exact Returns.load16 (by omega)
    (stripVlanTags_views _ hframe (by omega) (ViewOf.empty input))

end Ethernet

section Transport

variable {l4 : Span} {out : IpPacket}

theorem parsePorts_returns {t : FiveTuple} (hsize : 4 ≤ l4.size) :
    Returns (fun _ => True) (parsePorts l4 t) :=
  Returns.load16 (by omega) (Returns.load16 (by omega) (Returns.ok trivial))

theorem parseFixedL4_views {len : Nat} (hlen : 4 ≤ len) (hl4 : ViewOf input l4)
    (hout : ViewOf input out.l4Payload) :
    Returns (fun ip => ViewOf input ip.l4Payload) (parseFixedL4 len l4 out) := by
  refine Returns.ite (fun _ => Returns.ok hout) (fun hshort => ?_)
  refine Returns.bind (parsePorts_returns (by omega)) (fun tuple _ => ?_)
  exact Returns.suffix (by omega) (Returns.ok (hl4.suffix (by omega)))

theorem parseTcp_views (hl4 : ViewOf input l4) (hout : ViewOf input out.l4Payload) :
    Returns (fun ip => ViewOf input ip.l4Payload) (parseTcp l4 out) := by
  refine Returns.ite (fun _ => Returns.ok hout) (fun hshort => ?_)
  refine Returns.bind (parsePorts_returns (by omega)) (fun tuple _ => ?_)
  refine Returns.read (by omega) (Returns.ite (fun _ => Returns.ok hout) (fun hdoff => ?_))
  exact Returns.suffix (by omega) (Returns.ok (hl4.suffix (by omega)))

theorem parseL4_views (hl4 : ViewOf input l4) (hout : ViewOf input out.l4Payload) :
    Returns (fun ip => ViewOf input ip.l4Payload) (parseL4 l4 out) := by
  refine Returns.ite (fun _ => parseFixedL4_views (by omega) hl4 hout) (fun _ => ?_)
  refine Returns.ite (fun _ => parseTcp_views hl4 hout) (fun _ => ?_)
  exact Returns.ite (fun _ => parseFixedL4_views (by omega) hl4 hout)
    (fun _ => Returns.ok hout)

end Transport

section Internet

variable {pkt : Span}

/-- An IP packet that was not decoded. -/
theorem invalid_views :
    Returns (fun ip : IpPacket => ViewOf input ip.l4Payload)
      (.ok {} : Except OutOfBounds IpPacket) :=
  Returns.ok (ViewOf.empty input)

theorem parseIpv4_views (hpkt : ViewOf input pkt) :
    Returns (fun ip => ViewOf input ip.l4Payload) (parseIpv4 pkt) := by
  refine Returns.ite (fun _ => invalid_views) (fun hshort => ?_)
  refine Returns.read (by omega) (Returns.ite (fun _ => invalid_views) (fun _ => ?_))
  refine Returns.ite (fun _ => invalid_views) (fun hihl => ?_)
  refine Returns.load16 (by omega) (Returns.ite (fun _ => invalid_views) (fun _ => ?_))
  refine Returns.load16 (by omega) (Returns.read (by omega)
    (Returns.copy (by omega) (Returns.copy (by omega) ?_)))
  -- the clamp of the source: never more than is there
  have hclamp : ∀ n m : Nat, (if n < m then n else m) ≤ m := by
    intro n m
    split <;> omega
  have hfits : ∀ n, (pkt.byte 0 &&& 0x0F).toNat * 4 +
      (if n < pkt.size - (pkt.byte 0 &&& 0x0F).toNat * 4 then n
        else pkt.size - (pkt.byte 0 &&& 0x0F).toNat * 4) ≤ pkt.size := by
    intro n
    have := hclamp n (pkt.size - (pkt.byte 0 &&& 0x0F).toNat * 4)
    omega
  refine Returns.subspan (hfits _) ?_
  exact Returns.ite
    (fun _ => parseL4_views (hpkt.subspan (hfits _)) (ViewOf.empty input))
    (fun _ => Returns.ok (ViewOf.empty input))

/-- What the walk over the extension headers hands on. -/
def Ipv6Walk.Views (input : List UInt8) (endOff : Nat) : Ipv6Walk → Prop
  | .done out => ViewOf input out.l4Payload
  | .upper _ off out => off ≤ endOff ∧ ViewOf input out.l4Payload

theorem walkIpv6Ext_views {endOff off : Nat} {next : UInt8} {out : IpPacket} (n : Nat)
    (hend : endOff ≤ pkt.size) (hoff : off ≤ endOff) (hout : ViewOf input out.l4Payload) :
    Returns (Ipv6Walk.Views input endOff) (walkIpv6Ext pkt endOff n next off out) := by
  induction n generalizing next off out with
  | zero => exact Returns.ok ⟨hoff, hout⟩
  | succ n ih =>
      refine Returns.ite (fun _ => Returns.ok ⟨hoff, hout⟩) (fun _ => ?_)
      refine Returns.ite (fun _ => Returns.ok hout) (fun hroom => ?_)
      refine Returns.ite (fun _ => ?_) (fun _ => ?_)
      -- a Fragment header is always 8 bytes
      · refine Returns.load16 (by omega) (Returns.read (by omega) ?_)
        exact Returns.ite (fun _ => ih (by omega) hout) (fun _ => Returns.ok hout)
      · refine Returns.read (by omega) ?_
        refine Returns.ite (fun _ => Returns.ok hout) (fun hlen => ?_)
        exact Returns.read (by omega) (ih (by omega) hout)

theorem finishIpv6_views {endOff : Nat} {walk : Ipv6Walk} (hpkt : ViewOf input pkt)
    (hend : endOff ≤ pkt.size) (hwalk : walk.Views input endOff) :
    Returns (fun ip => ViewOf input ip.l4Payload) (finishIpv6 pkt endOff walk) := by
  cases walk with
  | done out => exact Returns.ok hwalk
  | upper next off out =>
      obtain ⟨hoff, hout⟩ := hwalk
      refine Returns.ite (fun _ => ?_) (fun _ => Returns.ok hout)
      exact Returns.subspan (by omega) (parseL4_views (hpkt.subspan (by omega)) hout)

theorem parseIpv6_views (hpkt : ViewOf input pkt) :
    Returns (fun ip => ViewOf input ip.l4Payload) (parseIpv6 pkt) := by
  refine Returns.ite (fun _ => invalid_views) (fun hshort => ?_)
  refine Returns.read (by omega) (Returns.ite (fun _ => invalid_views) (fun _ => ?_))
  refine Returns.load16 (by omega)
    (Returns.copy (by omega) (Returns.copy (by omega) (Returns.read (by omega) ?_)))
  have hend : ∀ n, (if 40 + n < pkt.size then 40 + n else pkt.size) ≤ pkt.size ∧
      40 ≤ (if 40 + n < pkt.size then 40 + n else pkt.size) := by
    intro n
    split <;> omega
  exact Returns.bind
    (walkIpv6Ext_views _ (hend _).1 (hend _).2 (ViewOf.empty input))
    (fun _ hwalk => finishIpv6_views hpkt (hend _).1 hwalk)

theorem parseIp_views (hpkt : ViewOf input pkt) :
    Returns (fun ip => ViewOf input ip.l4Payload) (parseIp pkt) := by
  refine Returns.ite (fun _ => invalid_views) (fun hne => ?_)
  refine Returns.read (by omega) ?_
  refine Returns.ite (fun _ => parseIpv4_views hpkt) (fun _ => ?_)
  exact Returns.ite (fun _ => parseIpv6_views hpkt) (fun _ => invalid_views)

end Internet

section Gtpu

variable {buf frame : Span} {out : GtpuHeader}

/-- A link of the chain sets only the fields of the PDU Session Container. -/
theorem readExtContent_returns {next : UInt8} {consumed extLen : Nat}
    (hfits : consumed + extLen ≤ buf.size) :
    Returns (fun h => h.payload = out.payload ∧ h.declaredLen = out.declaredLen)
      (readExtContent buf next consumed extLen out) := by
  refine Returns.ite (fun hcontent => ?_) (fun _ => Returns.ok ⟨rfl, rfl⟩)
  exact Returns.read (by omega) (Returns.read (by omega) (Returns.ok ⟨rfl, rfl⟩))

/-- What the chain walk returns: it has consumed no more than there is. -/
def ChainOk (buf : Span) (out : GtpuHeader) (r : GtpuStatus × GtpuHeader × Nat) : Prop :=
  r.2.2 ≤ buf.size ∧ r.2.1.payload = out.payload ∧ r.2.1.declaredLen = out.declaredLen

theorem extChainLoop_returns {next : UInt8} {consumed : Nat} (left : Nat)
    (hconsumed : consumed ≤ buf.size) :
    Returns (ChainOk buf out) (extChainLoop buf left next consumed out) := by
  induction left generalizing next consumed out with
  | zero =>
      unfold extChainLoop
      exact Returns.ite (fun _ => Returns.ok ⟨hconsumed, rfl, rfl⟩)
        (fun _ => Returns.ok ⟨hconsumed, rfl, rfl⟩)
  | succ left ih =>
      unfold extChainLoop
      have hstop : ∀ st, Returns (ChainOk buf out)
          (.ok (st, out, consumed) : Except OutOfBounds (GtpuStatus × GtpuHeader × Nat)) :=
        fun st => Returns.ok ⟨hconsumed, rfl, rfl⟩
      refine Returns.ite (fun _ => Returns.ok ⟨hconsumed, rfl, rfl⟩) (fun _ => ?_)
      refine Returns.ite (fun _ => hstop _) (fun hmore => ?_)
      refine Returns.read (by omega) (Returns.ite (fun _ => hstop _) (fun hunits => ?_))
      refine Returns.ite (fun _ => hstop _) (fun hfits => ?_)
      have hpos : (buf.byte consumed).toNat ≠ 0 := fun h => hunits (UInt8.toNat_inj.mp h)
      refine Returns.bind (readExtContent_returns (by omega)) (fun h hh => ?_)
      refine Returns.read (by omega) ((ih (by omega)).mono (fun r hr => ?_))
      exact ⟨hr.1, hr.2.1.trans hh.1, hr.2.2.trans hh.2⟩

theorem parseExtChain_returns (first : UInt8) :
    Returns (ChainOk buf out) (parseExtChain buf first out) :=
  extChainLoop_returns _ (Nat.zero_le _)

theorem takeGtpuPayload_views {offset optionalAndExt : Nat} (hframe : ViewOf input frame)
    (hout : ViewOf input out.payload)
    (hfits : offset + (out.declaredLen.toNat - optionalAndExt) ≤ frame.size) :
    Returns (fun r => ViewOf input r.2.payload)
      (takeGtpuPayload frame offset optionalAndExt out) :=
  Returns.ite (fun _ => Returns.ok hout)
    (fun _ => Returns.subspan hfits (Returns.ok (hframe.subspan hfits)))

theorem parseOptional_views {eBit sBit pnBit : Bool} (hframe : ViewOf input frame)
    (hout : ViewOf input out.payload) (hsize : 8 + out.declaredLen.toNat ≤ frame.size) :
    Returns (fun r => ViewOf input r.2.payload)
      (parseOptional frame eBit sBit pnBit out) := by
  have hfields : kGtpuOptionalFieldsLen = 4 := rfl
  refine Returns.ite (fun _ => Returns.ok hout) (fun hlen => ?_)
  refine Returns.load16 (by omega) (Returns.read (by omega) (Returns.read (by omega) ?_))
  refine Returns.ite (fun _ => ?_) (fun _ => ?_)
  · refine Returns.subspan (by omega) ?_
    refine Returns.bind (parseExtChain_returns _) (fun r hr => ?_)
    obtain ⟨st, h, extBytes⟩ := r
    obtain ⟨hext, hpayload, hdeclared⟩ := hr
    simp only [Span.size, List.length_take, List.length_drop] at hext hpayload hdeclared
    have hview : ViewOf input h.payload := hpayload ▸ hout
    refine Returns.ite (fun _ => Returns.ok hview) (fun _ => ?_)
    refine takeGtpuPayload_views hframe hview ?_
    rw [hdeclared]
    omega
  · exact takeGtpuPayload_views hframe hout (by dsimp only; omega)

theorem parseGtpu_views (hframe : ViewOf input frame) :
    Returns (fun r => ViewOf input r.2.payload) (parseGtpu frame) := by
  have hrejected : ∀ st, Returns (fun r : GtpuStatus × GtpuHeader => ViewOf input r.2.payload)
      (.ok (st, {}) : Except OutOfBounds (GtpuStatus × GtpuHeader)) :=
    fun st => Returns.ok (ViewOf.empty input)
  have hfixed : kGtpuFixedHeaderLen = 8 := rfl
  refine Returns.ite (fun _ => hrejected _) (fun hshort => ?_)
  refine Returns.read (by omega) (Returns.ite (fun _ => hrejected _) (fun _ => ?_))
  refine Returns.ite (fun _ => hrejected _) (fun _ => ?_)
  refine Returns.read (by omega) (Returns.load16 (by omega) (Returns.load32 (by omega) ?_))
  refine Returns.ite (fun _ => Returns.ok (ViewOf.empty input)) (fun hlen => ?_)
  refine Returns.ite (fun _ => ?_) (fun _ => ?_)
  · exact parseOptional_views hframe (ViewOf.empty input) (by dsimp only; omega)
  · exact takeGtpuPayload_views hframe (ViewOf.empty input) (by dsimp only; omega)

end Gtpu

section Diameter

variable {buf area : Span} {avp : Avp}

theorem parseDiameterHeader_views (hbuf : ViewOf input buf) :
    Returns (fun r => ViewOf input r.2.avps) (parseDiameterHeader buf) := by
  have hrejected : ∀ st,
      Returns (fun r : DiameterStatus × DiameterHeader => ViewOf input r.2.avps)
        (.ok (st, {}) : Except OutOfBounds (DiameterStatus × DiameterHeader)) :=
    fun st => Returns.ok (ViewOf.empty input)
  have hheader : kDiameterHeaderLen = 20 := rfl
  refine Returns.ite (fun _ => hrejected _) (fun hshort => ?_)
  refine Returns.read (by omega) (Returns.ite (fun _ => hrejected _) (fun _ => ?_))
  refine Returns.load24 (by omega) (Returns.ite (fun _ => hrejected _) (fun hlen => ?_))
  refine Returns.ite (fun _ => hrejected _) (fun _ => ?_)
  refine Returns.ite (fun _ => hrejected _) (fun hwhole => ?_)
  refine Returns.read (by omega) (Returns.load24 (by omega) (Returns.load32 (by omega)
    (Returns.load32 (by omega) (Returns.load32 (by omega) ?_))))
  exact Returns.subspan (by omega) (Returns.ok (hbuf.subspan (by omega)))

section Accessors

theorem asU32_returns : Returns (fun _ => True) avp.asU32 :=
  Returns.ite (fun _ => Returns.ok trivial)
    (fun hsize => Returns.load32 (by omega) (Returns.ok trivial))

theorem asI32_returns : Returns (fun _ => True) avp.asI32 :=
  Returns.bind asU32_returns (fun _ _ => Returns.ok trivial)

theorem asU64_returns : Returns (fun _ => True) avp.asU64 := by
  refine Returns.ite (fun _ => Returns.load64 (by omega) (Returns.ok trivial)) (fun _ => ?_)
  exact Returns.ite (fun _ => Returns.load32 (by omega) (Returns.ok trivial))
    (fun _ => Returns.ok trivial)

end Accessors

section Walk

theorem readVendorId_returns {off : Nat} (hfits : off + avp.headerLen ≤ area.size) :
    Returns (fun _ => True) (readVendorId area off avp) := by
  refine Returns.ite (fun hvendor => ?_) (fun _ => Returns.ok trivial)
  have : avp.headerLen = 12 := if_pos hvendor
  exact Returns.load32 (by omega) (Returns.ok trivial)

/-- What is read at an offset of the area: nothing, or an AVP whose value is a view. -/
def FoundView (input : List UInt8) (found : Option Avp) : Prop :=
  ∀ avp, found = some avp → ViewOf input avp.data

theorem malformed_view :
    Returns (FoundView input) (.ok none : Except OutOfBounds (Option Avp)) :=
  Returns.ok (fun avp h => by cases h)

theorem takeAvpData_views {off : Nat} (harea : ViewOf input area) :
    Returns (FoundView input) (takeAvpData area off avp) := by
  refine Returns.ite (fun _ => malformed_view) (fun hhdr => ?_)
  refine Returns.ite (fun _ => malformed_view) (fun hlen => ?_)
  have hpos : 8 ≤ avp.headerLen := by
    unfold Avp.headerLen
    split <;> omega
  refine Returns.bind (readVendorId_returns (by omega)) (fun vendorId _ => ?_)
  refine Returns.subspan (by omega) (Returns.ok (fun found h => ?_))
  obtain rfl := Option.some.inj h
  exact harea.subspan (by omega)

theorem readAvp_views {off : Nat} (harea : ViewOf input area) :
    Returns (FoundView input) (readAvp area off) := by
  refine Returns.ite (fun _ => malformed_view) (fun hshort => ?_)
  exact Returns.load32 (by omega) (Returns.read (by omega)
    (Returns.load24 (by omega) (takeAvpData_views harea)))

variable {S : Type} {I : S → Prop}

/-- The callback keeps `I`, and makes no access out of bounds, on every AVP whose value
is a view of the input. -/
def KeepsOn (input : List UInt8) (I : S → Prop) (fn : AvpFn S) : Prop :=
  ∀ s avp depth, I s → ViewOf input avp.data → Returns (fun r => I r.1) (fn s avp depth)

/-- The loop by its own recursion: every turn hands a view to the callback. -/
theorem avpLoop_keeps {fn : AvpFn S} {depth off : Nat} {s : S} (hfn : KeepsOn input I fn)
    (harea : ViewOf input area) (hs : I s) :
    Returns (fun r => I r.2) (avpLoop fn depth area off s) := by
  induction off, s using avpLoop.induct area with
  | case1 off s hlt ih =>
      rw [avpLoop, if_pos hlt]
      refine Returns.bind (readAvp_views harea) (fun found hfound => ?_)
      cases found with
      | none => exact Returns.ok hs
      | some avp =>
          refine Returns.bind (hfn s avp depth hs (hfound avp rfl)) (fun r hr => ?_)
          refine Returns.ite (fun _ => Returns.ok hr) (fun _ => ?_)
          exact Returns.ite (fun _ => Returns.ok hr) (fun hadv => ih avp r.1 hadv hr)
  | case2 off s hend =>
      rw [avpLoop, if_neg hend]
      exact Returns.ok hs

theorem forEachAvp_keeps {fn : AvpFn S} {depth : Nat} {s : S} (hfn : KeepsOn input I fn)
    (harea : ViewOf input area) (hs : I s) :
    Returns (fun r => I r.2) (forEachAvp fn depth area s) :=
  Returns.ite (fun _ => Returns.ok hs) (fun _ => avpLoop_keeps hfn harea hs)

theorem forEachSubAvp_keeps {fn : AvpFn S} {depth : Nat} {s : S} (hfn : KeepsOn input I fn)
    (hdata : ViewOf input avp.data) (hs : I s) :
    Returns (fun r => I r.2) (forEachSubAvp fn depth avp s) :=
  forEachAvp_keeps hfn hdata hs

theorem visitAll_keeps {f : S → Avp → Nat → Except OutOfBounds S}
    (hf : ∀ s avp depth, I s → ViewOf input avp.data → Returns I (f s avp depth)) :
    KeepsOn input I (visitAll f) :=
  fun s avp depth hs hdata =>
    Returns.bind (hf s avp depth hs hdata) (fun _ hr => Returns.ok hr)

theorem collectAvps_keeps :
    KeepsOn input (fun seen => ∀ avp ∈ seen, ViewOf input avp.data) collectAvps := by
  refine visitAll_keeps (fun seen avp _ hseen hdata => Returns.ok (fun a ha => ?_))
  rcases List.mem_append.mp ha with hold | hnew
  · exact hseen a hold
  · obtain rfl := List.mem_singleton.mp hnew
    exact hdata

end Walk

section Gy

theorem usedUnitField_returns {info : MsccInfo} {depth : Nat} :
    Returns (fun _ => True) (usedUnitField info avp depth) := by
  unfold usedUnitField
  split
  · exact Returns.bind asU64_returns (fun _ _ => Returns.ok trivial)
  · exact Returns.bind asU64_returns (fun _ _ => Returns.ok trivial)
  · exact Returns.bind asU64_returns (fun _ _ => Returns.ok trivial)
  · exact Returns.ok trivial

theorem parseUsedServiceUnit_returns {info : MsccInfo} {depth : Nat}
    (hdata : ViewOf input avp.data) :
    Returns (fun _ => True) (parseUsedServiceUnit avp info depth) := by
  refine Returns.bind (forEachSubAvp_keeps
    (visitAll_keeps (fun _ _ _ _ _ => usedUnitField_returns)) hdata trivial) (fun r _ => ?_)
  exact Returns.ite (fun _ => Returns.ok trivial) (fun _ => Returns.ok trivial)

theorem grantedUnitField_returns {info : MsccInfo} {depth : Nat} :
    Returns (fun _ => True) (grantedUnitField info avp depth) :=
  Returns.ite (fun _ => Returns.bind asU64_returns (fun _ _ => Returns.ok trivial))
    (fun _ => Returns.ok trivial)

theorem msccField_returns {info : MsccInfo} {outer depth : Nat}
    (hdata : ViewOf input avp.data) :
    Returns (fun _ => True) (msccField outer info avp depth) := by
  unfold msccField
  split
  · exact Returns.bind asU32_returns (fun _ _ => Returns.ok trivial)
  · exact Returns.bind asU32_returns (fun _ _ => Returns.ok trivial)
  · exact parseUsedServiceUnit_returns hdata
  · exact Returns.bind (forEachSubAvp_keeps
      (visitAll_keeps (fun _ _ _ _ _ => grantedUnitField_returns)) hdata trivial)
      (fun _ _ => Returns.ok trivial)
  · exact Returns.ok trivial

theorem parseMscc_returns {info : MsccInfo} {depth : Nat} (hdata : ViewOf input avp.data) :
    Returns (fun _ => True) (parseMscc avp info depth) :=
  Returns.bind (forEachSubAvp_keeps
    (visitAll_keeps (fun _ _ _ _ h => msccField_returns h)) hdata trivial)
    (fun _ _ => Returns.ok trivial)

/-- The strings of a message are views, and its blocks are counted inside the array. -/
structure GyMessage.Views (input : List UInt8) (gy : GyMessage) : Prop where
  sessionId : ViewOf input gy.sessionId
  originHost : ViewOf input gy.originHost
  originRealm : ViewOf input gy.originRealm
  msisdn : ViewOf input gy.msisdn
  count_le : gy.msccCount ≤ kMaxMsccPerMessage

theorem unset_views {isRequest : Bool} : GyMessage.Views input { isRequest } where
  sessionId := ViewOf.empty input
  originHost := ViewOf.empty input
  originRealm := ViewOf.empty input
  msisdn := ViewOf.empty input
  count_le := Nat.zero_le _

variable {out : GyMessage} {depth : Nat}

theorem subscriptionField_views {sub : UInt32 × Span} (hsub : ViewOf input sub.2)
    (hdata : ViewOf input avp.data) :
    Returns (fun r => ViewOf input r.2) (subscriptionField sub avp depth) := by
  unfold subscriptionField
  split
  · exact Returns.bind asU32_returns (fun _ _ => Returns.ok hsub)
  · exact Returns.ok hdata
  · exact Returns.ok hsub

theorem parseSubscriptionId_views (hout : out.Views input) (hdata : ViewOf input avp.data) :
    Returns (GyMessage.Views input) (parseSubscriptionId avp out depth) := by
  refine Returns.bind (forEachSubAvp_keeps
    (visitAll_keeps (fun _ _ _ hs h => subscriptionField_views hs h)) hdata
    (ViewOf.empty input)) (fun r hr => ?_)
  refine Returns.ite (fun _ => Returns.ok { hout with }) (fun _ => ?_)
  exact Returns.ite (fun _ => Returns.ok { hout with msisdn := hr }) (fun _ => Returns.ok hout)

theorem gyField_views (hout : out.Views input) (hdata : ViewOf input avp.data) :
    Returns (GyMessage.Views input) (gyField out avp depth) := by
  unfold gyField
  split
  · exact Returns.ok { hout with sessionId := hdata }
  · exact Returns.ok { hout with originHost := hdata }
  · exact Returns.ok { hout with originRealm := hdata }
  · exact Returns.bind asU32_returns (fun _ _ => Returns.ok { hout with })
  · exact Returns.bind asU32_returns (fun _ _ => Returns.ok { hout with })
  · exact Returns.bind asU32_returns (fun _ _ => Returns.ok { hout with })
  · exact parseSubscriptionId_views hout hdata
  · split
    · exact Returns.bind (parseMscc_returns hdata)
        (fun _ _ => Returns.ok { hout with count_le := by dsimp only; omega })
    · exact Returns.ok { hout with }
  · exact Returns.ok hout

theorem parseGy_views {hdr : DiameterHeader} (havps : ViewOf input hdr.avps) :
    Returns (fun r => r.2.Views input) (parseGy hdr) :=
  forEachAvp_keeps (visitAll_keeps (fun _ _ _ hs h => gyField_views hs h)) havps unset_views

theorem parseDiameterGy_views (hbuf : ViewOf input buf) :
    Returns (fun r => ViewOf input r.2.1.avps ∧ r.2.2.Views input) (parseDiameterGy buf) := by
  refine Returns.bind (parseDiameterHeader_views hbuf) (fun r hr => ?_)
  refine Returns.ite (fun _ => Returns.ok ⟨hr, unset_views⟩) (fun _ => ?_)
  refine Returns.ite (fun _ => Returns.ok ⟨hr, unset_views⟩) (fun _ => ?_)
  exact Returns.bind (parseGy_views hr) (fun _ hgy => Returns.ok ⟨hr, hgy⟩)

end Gy
end Diameter

namespace Ingest

variable {ing : Ingest} {tsNs : UInt64} {wireBytes : UInt16}

section Events

theorem gyEvent_returns {gy : GyMessage} {i : Nat}
    (hi : gy.msccCount ≠ 0 → i < kMaxMsccPerMessage) :
    Returns (fun _ => True) (gyEvent gy tsNs i) := by
  refine Returns.ite (fun _ => Returns.ok trivial) (fun hblocks => ?_)
  rw [Vector.getElem?_eq_getElem (hi hblocks)]
  exact Returns.ok trivial

theorem emitGyLoop_returns {gy : GyMessage} {i : Nat} {any : Bool} (left : Nat)
    (hleft : gy.msccCount ≠ 0 → i + left ≤ kMaxMsccPerMessage) :
    Returns (fun _ => True) (emitGyLoop gy tsNs left i ing any) := by
  induction left generalizing i ing any with
  | zero => exact Returns.ok trivial
  | succ left ih =>
      refine Returns.bind (gyEvent_returns (fun hblocks => ?_)) (fun ev _ => ih ?_)
      · have := hleft hblocks
        omega
      · intro hblocks
        have := hleft hblocks
        omega

theorem emitGyEvents_returns {gy : GyMessage} (hgy : gy.msccCount ≤ kMaxMsccPerMessage) :
    Returns (fun _ => True) (ing.emitGyEvents gy tsNs) := by
  refine emitGyLoop_returns _ (fun hblocks => ?_)
  rw [if_neg hblocks]
  omega

end Events

theorem processGtpu_returns {pdu : Span} (hpdu : ViewOf input pdu) :
    Returns (fun _ => True) (ing.processGtpu pdu tsNs wireBytes) := by
  refine Returns.bind (parseGtpu_views hpdu) (fun r hpayload => ?_)
  refine Returns.ite (fun _ => Returns.ok trivial) (fun _ => ?_)
  refine Returns.ite (fun _ => Returns.ok trivial) (fun _ => ?_)
  refine Returns.bind (parseIp_views hpayload) (fun inner _ => ?_)
  exact Returns.ite (fun _ => Returns.ok trivial) (fun _ => Returns.ok trivial)

theorem countDiameter_returns {hdr : DiameterHeader} {gy : GyMessage} {produced : Bool}
    (hgy : gy.msccCount ≤ kMaxMsccPerMessage) :
    Returns (fun _ => True) (ing.countDiameter hdr gy tsNs produced) :=
  Returns.ite
    (fun _ => Returns.bind (emitGyEvents_returns hgy) (fun _ _ => Returns.ok trivial))
    (fun _ => Returns.ok trivial)

theorem diameterLoop_returns {payload : Span} {offset : Nat} {produced : Bool}
    (hpayload : ViewOf input payload) :
    Returns (fun _ => True) (diameterLoop payload tsNs offset ing produced) := by
  induction offset, ing, produced using diameterLoop.induct payload with
  | case1 offset ing produced hmore ih =>
      rw [diameterLoop, if_pos hmore]
      have hoff : offset ≤ payload.size := by omega
      refine Returns.suffix hoff ?_
      refine Returns.bind (parseDiameterGy_views (hpayload.suffix hoff)) (fun r hr => ?_)
      refine Returns.ite (fun _ => Returns.ok trivial) (fun _ => ?_)
      refine Returns.bind (countDiameter_returns hr.2.count_le) (fun counted _ => ?_)
      exact Returns.ite (fun _ => Returns.ok trivial)
        (fun hlen => ih r.2.1 counted.1 counted.2 hlen)
  | case2 offset ing produced hend =>
      rw [diameterLoop, if_neg hend]
      exact Returns.ok trivial

theorem processDiameter_returns {payload : Span} (hpayload : ViewOf input payload) :
    Returns (fun _ => True) (ing.processDiameter payload tsNs) :=
  Returns.ite (fun _ => Returns.ok trivial) (fun _ => diameterLoop_returns hpayload)

theorem processIp_returns {pkt : Span} (hpkt : ViewOf input pkt) :
    Returns (fun _ => True) (ing.processIp pkt tsNs wireBytes) := by
  refine Returns.bind (parseIp_views hpkt) (fun outer houter => ?_)
  refine Returns.ite (fun _ => Returns.ok trivial) (fun _ => ?_)
  refine Returns.ite (fun _ => processGtpu_returns houter) (fun _ => ?_)
  exact Returns.ite (fun _ => processDiameter_returns houter) (fun _ => Returns.ok trivial)

theorem processFrame_returns {frame : Span} (hframe : ViewOf input frame) :
    Returns (fun _ => True) (ing.processFrame frame tsNs) := by
  refine Returns.bind (parseEthernet_views hframe) (fun eth heth => ?_)
  exact Returns.ite (fun _ => Returns.ok trivial) (fun _ => processIp_returns heth)

end Ingest

/-- Each parser, given `s`, returns, and what it returns views only `input`. -/
structure ParsersInside (input : List UInt8) (s : Span) : Prop where
  ethernet : Returns (fun eth => ViewOf input eth.payload) (parseEthernet s)
  ip : Returns (fun ip => ViewOf input ip.l4Payload) (parseIp s)
  ipv4 : Returns (fun ip => ViewOf input ip.l4Payload) (parseIpv4 s)
  ipv6 : Returns (fun ip => ViewOf input ip.l4Payload) (parseIpv6 s)
  l4 : ∀ out, ViewOf input out.l4Payload →
    Returns (fun ip => ViewOf input ip.l4Payload) (parseL4 s out)
  gtpu : Returns (fun r => ViewOf input r.2.payload) (parseGtpu s)
  extChain : ∀ first out, ViewOf input out.payload →
    Returns (fun r => ViewOf input r.2.1.payload ∧ r.2.2 ≤ s.size)
      (parseExtChain s first out)
  diameterHeader : Returns (fun r => ViewOf input r.2.avps) (parseDiameterHeader s)
  /-- The AVPs that a walk visits, at any depth. -/
  visited : ∀ depth, Returns (fun r => ∀ avp ∈ r.2, ViewOf input avp.data)
    (forEachAvp collectAvps depth s [])
  /-- A walk at any depth and with any callback that stays in bounds on such AVPs,
  walks over their contents included. -/
  avps : ∀ {S : Type} (I : S → Prop) (fn : AvpFn S) (depth : Nat) (st : S),
    KeepsOn input I fn → I st → Returns (fun r => I r.2) (forEachAvp fn depth s st)
  accessors : ∀ avp : Avp, avp.data = s →
    Returns (fun _ => True) avp.asU32 ∧ Returns (fun _ => True) avp.asI32 ∧
      Returns (fun _ => True) avp.asU64 ∧ ViewOf input avp.asString
  gy : ∀ hdr : DiameterHeader, hdr.avps = s →
    Returns (fun r => r.2.Views input) (parseGy hdr)
  diameterGy : Returns (fun r => ViewOf input r.2.1.avps ∧ r.2.2.Views input)
    (parseDiameterGy s)

theorem parsersInside {s : Span} (hs : ViewOf input s) : ParsersInside input s where
  ethernet := parseEthernet_views hs
  ip := parseIp_views hs
  ipv4 := parseIpv4_views hs
  ipv6 := parseIpv6_views hs
  l4 _ hout := parseL4_views hs hout
  gtpu := parseGtpu_views hs
  extChain first out hout :=
    (parseExtChain_returns first).mono (fun _ hr => ⟨hr.2.1 ▸ hout, hr.1⟩)
  diameterHeader := parseDiameterHeader_views hs
  visited _ := forEachAvp_keeps collectAvps_keeps hs (fun _ h => absurd h List.not_mem_nil)
  avps I fn depth st hfn hst := forEachAvp_keeps hfn hs hst
  accessors avp hdata :=
    ⟨asU32_returns, asI32_returns, asU64_returns, by rw [Avp.asString, hdata]; exact hs⟩
  gy hdr havps := parseGy_views (havps ▸ hs)
  diameterGy := parseDiameterGy_views hs

/-- **The ingest path is bounds-safe on arbitrary bytes.**  Whatever the bytes, the rings
and the counters, each entry point returns: no access on the way left the span it was made
on.  And every parser, run on any sub-range of the input, returns nothing but sub-ranges
of the input; so whatever the entry points hand from one parser to the next is one. -/
theorem ingest_stays_in_bounds (input : List UInt8) (ing : Ingest) (tsNs : UInt64)
    (wireBytes : UInt16) :
    Returns (fun _ => True) (ing.processFrame (Span.whole input) tsNs) ∧
    Returns (fun _ => True) (ing.processIp (Span.whole input) tsNs wireBytes) ∧
    Returns (fun _ => True) (ing.processGtpu (Span.whole input) tsNs wireBytes) ∧
    Returns (fun _ => True) (ing.processDiameter (Span.whole input) tsNs) ∧
    ∀ s, ViewOf input s → ParsersInside input s := by
  have hinput := ViewOf.whole input
  refine ⟨?_, ?_, ?_, ?_, ?_⟩
  · exact Ingest.processFrame_returns hinput
  · exact Ingest.processIp_returns hinput
  · exact Ingest.processGtpu_returns hinput
  · exact Ingest.processDiameter_returns hinput
  · intro s hs
    exact parsersInside hs

/-- A G-PDU with a PDU Session Container, around an IPv4 packet without payload. -/
def uplinkFrame : List UInt8 :=
  [0, 0, 0, 0, 0, 0, 0, 0, 0, 0, 0, 0, 0x08, 0x00,
    0x45, 0, 0, 0x48, 0, 0, 0, 0, 0x40, 0x11, 0, 0, 0xC0, 0xA8, 0, 1, 0xC0, 0xA8, 0, 2,
    0x08, 0x68, 0x08, 0x68, 0, 0x34, 0, 0,
    0x34, 0xFF, 0, 0x24, 0, 0, 0x10, 1, 0, 0, 0, 0x85, 1, 0x10, 9, 0,
    0x45, 0, 0, 0x1C, 0, 1, 0, 0, 0x40, 0x11, 0, 0, 10, 0, 0, 1, 8, 8, 8, 8,
    0x0F, 0xA0, 0, 0x35, 0, 8, 0, 0]

/-- The frame is metered, and its UDP payload is a sub-range that every parser handles. -/
theorem ingest_stays_in_bounds_uplink :
    Runs.returnsWith (({} : Ingest).processFrame (Span.whole uplinkFrame) 7)
        (fun r => r.2 == .metered) = true ∧
      ParsersInside uplinkFrame ⟨42, uplinkFrame.drop 42⟩ := by
  have hview : ViewOf uplinkFrame ⟨42, uplinkFrame.drop 42⟩ := ⟨by decide, by decide⟩
  have hsafe := ingest_stays_in_bounds uplinkFrame {} 7 0
  exact ⟨by decide +kernel, hsafe.2.2.2.2 _ hview⟩

end GtpMeter
