import GtpMeter.AvpAreas
import GtpMeter.DiameterSegments

/-!
# What is accepted as a charging message

`parse_diameter_gy` looks at the base header and, if the command is Credit-Control, at
the AVPs of the message.  The groups among them are walked by callbacks that drop the
verdict of the inner walk, so whether a message is accepted depends on its outermost
AVPs only.

**Results.**
* `wellFormedArea_iff`: a walk succeeds on lists of padded AVPs and on nothing else.
* `parseGy_ok_iff`: neither does the extraction.
* `isMessage_iff`: the messages that are accepted, without the parser.
* `groupsWellFormed_iff`: groups that can be walked, as bytes.
* `malformed_groups_pass`: the verdict does not depend on what the groups hold.
-/

namespace GtpMeter

section Areas

variable {area : Span} {avps : List Avp}

/-- `for_each_avp` over the area returns `kOk`, having visited these AVPs. -/
def Visits (area : Span) (avps : List Avp) : Prop :=
  forEachAvp collectAvps 0 area [] = .ok (.ok, avps)

/-- `for_each_avp` over the area returns `kOk`. -/
def WellFormedArea (area : Span) : Prop :=
  ∃ avps, Visits area avps

theorem visits_area {ps : List PaddedAvp} (h : area.bytes = areaBytes ps) :
    Visits area (placedItems area.off (ps.map PaddedAvp.item)) := by
  rw [Visits, collectAvps, forEachAvp_area (by decide) h, foldlM_collect]
  rfl

theorem area_of_visits (h : Visits area avps) :
    ∃ ps : List PaddedAvp, area.bytes = areaBytes ps ∧
      avps = placedItems area.off (ps.map PaddedAvp.item) := by
  obtain ⟨-, ps, hbytes, hfold⟩ := area_of_forEachAvp h
  rw [foldlM_collect] at hfold
  exact ⟨ps, hbytes, (Except.ok.inj hfold).symm⟩

/-- A walk visits the AVPs of its area and no others. -/
theorem visits_unique {avps' : List Avp} (h : Visits area avps) (h' : Visits area avps') :
    avps = avps' :=
  (Prod.mk.inj (Except.ok.inj (h.symm.trans h'))).2

/-- The bytes of an area say which AVPs it holds. -/
theorem items_of_areaBytes {ps qs : List PaddedAvp} (h : areaBytes ps = areaBytes qs) :
    ps.map PaddedAvp.item = qs.map PaddedAvp.item := by
  have hps : Visits (.whole (areaBytes ps)) _ := visits_area rfl
  have hqs : Visits (.whole (areaBytes ps)) _ := visits_area h
  have hitems := congrArg (List.map Avp.item) (visits_unique hps hqs)
  rwa [placedItems_item, placedItems_item] at hitems

/-- What holds of the AVPs that a walk is given, wherever they lie. -/
theorem forall_placedItems {P : AvpItem → Prop} (pos : Nat) {items : List AvpItem} :
    (∀ b ∈ placedItems pos items, P b.item) ↔ ∀ a ∈ items, P a := by
  have hmap := List.forall_mem_map (f := Avp.item) (l := placedItems pos items) (P := P)
  rw [placedItems_item] at hmap
  exact hmap.symm

/-- An area is walked to its end when it is a list of padded AVPs. -/
theorem wellFormedArea_iff : WellFormedArea area ↔ ∃ ps, area.bytes = areaBytes ps := by
  constructor
  · rintro ⟨avps, h⟩
    obtain ⟨ps, hbytes, -⟩ := area_of_visits h
    exact ⟨ps, hbytes⟩
  · rintro ⟨ps, hbytes⟩
    exact ⟨_, visits_area hbytes⟩

/-- A walk whose callback never stops is the fold over the AVPs it visits. -/
theorem forEachAvp_visits {S : Type} {f : S → Avp → Nat → Except OutOfBounds S} {depth : Nat}
    {s : S} (hdepth : depth < kAvpMaxDepth) (h : Visits area avps) :
    forEachAvp (visitAll f) depth area s =
      (avps.foldlM (fun s avp => f s avp depth) s >>= fun s => .ok (.ok, s)) := by
  obtain ⟨ps, hbytes, rfl⟩ := area_of_visits h
  exact forEachAvp_area hdepth hbytes

/-- A walk whose callback never stops has the verdict of the area. -/
theorem forEachAvp_ok_iff {S : Type} {f : S → Avp → Nat → Except OutOfBounds S} {depth : Nat}
    {s s' : S} {st : DiameterStatus} (hdepth : depth < kAvpMaxDepth)
    (h : forEachAvp (visitAll f) depth area s = .ok (st, s')) :
    st = .ok ↔ WellFormedArea area := by
  rw [wellFormedArea_iff]
  constructor
  · rintro rfl
    obtain ⟨-, ps, hbytes, -⟩ := area_of_forEachAvp h
    exact ⟨ps, hbytes⟩
  · rintro ⟨ps, hbytes⟩
    rw [forEachAvp_area hdepth hbytes] at h
    obtain ⟨s₁, -, hend⟩ := Runs.bind_eq_ok.mp h
    exact (Prod.mk.inj (Except.ok.inj hend)).1.symm

end Areas

section Messages

variable {hdr : DiameterHeader} {m : List UInt8}

theorem parseGy_returns (hdr : DiameterHeader) : ∃ st gy, parseGy hdr = .ok (st, gy) := by
  obtain ⟨⟨st, gy⟩, hread, -⟩ := parseGy_views (ViewOf.somewhere hdr.avps)
  exact ⟨st, gy, hread⟩

/-- The extraction succeeds when the outermost AVPs are a well-formed sequence. -/
theorem parseGy_ok_iff {st : DiameterStatus} {gy : GyMessage} (h : parseGy hdr = .ok (st, gy)) :
    st = .ok ↔ WellFormedArea hdr.avps :=
  forEachAvp_ok_iff (by decide) h

/-- `parse_diameter_gy` on a buffer with an accepted base header. -/
theorem parseDiameterGy_eq {buf : Span} (h : parseDiameterHeader buf = .ok (.ok, hdr)) :
    parseDiameterGy buf =
      if hdr.isCreditControl then parseGy hdr >>= fun r => .ok (r.1, hdr, r.2)
      else .ok (.ok, hdr, {}) := by
  rw [parseDiameterGy, h]
  simp only [bind, Except.bind, ne_eq, not_true_eq_false, if_false]
  cases hdr.isCreditControl with
  | false => rfl
  | true => rfl

/-- A complete message: an accepted base header, all of the declared length, and behind
it, in a credit-control message, nothing but AVPs with their padding. -/
structure WellFormedMessage (m : List UInt8) : Prop where
  header : HeaderFits (.whole m)
  complete : (declaredLength (.whole m)).toNat = m.length
  avps : (headerOf (.whole m)).isCreditControl →
    ∃ ps, m.drop kDiameterHeaderLen = areaBytes ps

/-- The AVPs of a complete message are all that follows its header. -/
theorem headerOf_avps (h : (declaredLength (.whole m)).toNat = m.length) :
    (headerOf (.whole m)).avps.bytes = m.drop kDiameterHeaderLen := by
  simp only [headerOf, h]
  exact List.take_of_length_le (by rw [List.length_drop]; exact Nat.le_refl _)

/-- The messages that are accepted on their own. -/
theorem isMessage_iff : IsMessage m ↔ WellFormedMessage m := by
  constructor
  · rintro ⟨hdr, gy, hread, hlen⟩
    have hhead := header_of_parseDiameterGy hread
    obtain ⟨hfits, rfl⟩ := fits_of_parseDiameterHeader hhead
    refine ⟨hfits, hlen, fun hcc => ?_⟩
    rw [parseDiameterGy_eq hhead, if_pos hcc] at hread
    obtain ⟨⟨st, gy'⟩, hgy, hend⟩ := Runs.bind_eq_ok.mp hread
    obtain rfl : st = .ok := (Prod.mk.inj (Except.ok.inj hend)).1
    rw [← headerOf_avps hlen]
    exact wellFormedArea_iff.mp ((parseGy_ok_iff hgy).mp rfl)
  · rintro ⟨hfits, hlen, havps⟩
    have hhead := parseDiameterHeader_of_fits hfits
    cases hcc : (headerOf (.whole m)).isCreditControl with
    | false =>
        refine ⟨headerOf (.whole m), {}, ?_, hlen⟩
        rw [parseDiameterGy_eq hhead, hcc]
        rfl
    | true =>
        obtain ⟨st, gy, hgy⟩ := parseGy_returns (headerOf (.whole m))
        have harea : WellFormedArea (headerOf (.whole m)).avps := by
          rw [wellFormedArea_iff, headerOf_avps hlen]
          exact havps hcc
        obtain rfl : st = .ok := (parseGy_ok_iff hgy).mpr harea
        refine ⟨headerOf (.whole m), gy, ?_, hlen⟩
        rw [parseDiameterGy_eq hhead, hcc, if_pos rfl, hgy]
        rfl

end Messages

section Groups

/-- A Multiple-Services-Credit-Control AVP is well-formed, and so are the units in it. -/
def MsccWellFormed (a : Avp) : Prop :=
  ∃ inner, Visits a.data inner ∧ ∀ b ∈ inner,
    b.code = AvpCode.usedServiceUnit.code ∨ b.code = AvpCode.grantedServiceUnit.code →
      WellFormedArea b.data

/-- The groups that values are read from are well-formed: each Subscription-Id, and the
blocks of which the message keeps the values. -/
def GroupsWellFormed (avps : List Avp) : Prop :=
  (∀ a ∈ avps, a.code = AvpCode.subscriptionId.code → WellFormedArea a.data) ∧
  ∀ a ∈ (avps.filter (fun a => a.code == AvpCode.multipleServicesCreditControl.code)).take
      kMaxMsccPerMessage, MsccWellFormed a

/-- The bytes are AVPs with their padding, one after the other: the length of each is at
least that of its header and lies, padded, inside what is left. -/
def Spelled (bytes : List UInt8) : Prop :=
  ∃ ps, bytes = areaBytes ps

/-- The bytes of a Multiple-Services-Credit-Control AVP are spelled, and so are those of
the units in it. -/
def MsccSpelled (a : AvpItem) : Prop :=
  ∃ ps, a.data = areaBytes ps ∧ ∀ b ∈ ps.map PaddedAvp.item,
    b.code = AvpCode.usedServiceUnit.code ∨ b.code = AvpCode.grantedServiceUnit.code →
      Spelled b.data

/-- The bytes of the groups that values are read from are spelled. -/
def GroupsSpelled (items : List AvpItem) : Prop :=
  (∀ a ∈ items, a.code = AvpCode.subscriptionId.code → Spelled a.data) ∧
  ∀ a ∈ (items.filter (fun a => a.code == AvpCode.multipleServicesCreditControl.code)).take
      kMaxMsccPerMessage, MsccSpelled a

theorem msccWellFormed_iff (a : Avp) : MsccWellFormed a ↔ MsccSpelled a.item := by
  constructor
  · rintro ⟨inner, hinner, hunits⟩
    obtain ⟨ps, hbytes, rfl⟩ := area_of_visits hinner
    refine ⟨ps, hbytes, (forall_placedItems a.data.off).mp (fun b hb hcode => ?_)⟩
    exact wellFormedArea_iff.mp (hunits b hb hcode)
  · rintro ⟨ps, hbytes, hunits⟩
    refine ⟨_, visits_area hbytes, fun b hb hcode => wellFormedArea_iff.mpr ?_⟩
    exact (forall_placedItems _).mpr hunits b hb hcode

/-- Groups that can be walked are those whose bytes are spelled. -/
theorem groupsWellFormed_iff (avps : List Avp) :
    GroupsWellFormed avps ↔ GroupsSpelled (avps.map Avp.item) := by
  rw [GroupsSpelled, List.forall_mem_map, List.filter_map, ← List.map_take, List.forall_mem_map]
  exact and_congr (forall₂_congr fun _ _ => imp_congr Iff.rfl wellFormedArea_iff)
    (forall₂_congr fun a _ => msccWellFormed_iff a)

/-- **Malformed groups pass.**  A credit-control message is accepted when its outermost
AVPs are spelled, whatever its groups hold.  So a message that is accepted is well-formed
at every level exactly if the bytes of its groups are spelled as well. -/
theorem malformed_groups_pass (buf : Span) (hdr : DiameterHeader)
    (hhead : parseDiameterHeader buf = .ok (.ok, hdr)) (hcc : hdr.isCreditControl = true) :
    ∃ st gy, parseDiameterGy buf = .ok (st, hdr, gy) ∧
      (st = .ok ↔ Spelled hdr.avps.bytes) ∧
      ((st = .ok → ∃ avps, Visits hdr.avps avps ∧ GroupsWellFormed avps) ↔
        ∀ ps, hdr.avps.bytes = areaBytes ps → GroupsSpelled (ps.map PaddedAvp.item)) := by
  obtain ⟨st, gy, hgy⟩ := parseGy_returns hdr
  have hread : parseDiameterGy buf = .ok (st, hdr, gy) := by
    rw [parseDiameterGy_eq hhead, if_pos hcc, hgy]
    rfl
  have hok : st = .ok ↔ Spelled hdr.avps.bytes := (parseGy_ok_iff hgy).trans wellFormedArea_iff
  refine ⟨st, gy, hread, hok, ?_, ?_⟩
  · intro hwell ps hbytes
    obtain ⟨avps, hvisits, hgroups⟩ := hwell (hok.mpr ⟨ps, hbytes⟩)
    rw [visits_unique hvisits (visits_area hbytes), groupsWellFormed_iff,
      placedItems_item] at hgroups
    exact hgroups
  · intro hspelled hst
    obtain ⟨ps, hbytes⟩ := hok.mp hst
    refine ⟨_, visits_area hbytes, ?_⟩
    rw [groupsWellFormed_iff, placedItems_item]
    exact hspelled ps hbytes

/-- A Credit-Control-Request with one block: a Used-Service-Unit of 1000 octets, behind
which an AVP declares 200 bytes where there are 8. -/
def cutUnitMessage : List UInt8 :=
  [1, 0, 0, 60, 0x80, 0, 1, 0x10, 0, 0, 0, 4, 0, 0, 0, 1, 0, 0, 0, 2,
    0, 0, 1, 0xC8, 0x40, 0, 0, 40,
    0, 0, 1, 0xBE, 0x40, 0, 0, 32,
    0, 0, 1, 0xA5, 0x40, 0, 0, 16, 0, 0, 0, 0, 0, 0, 0x03, 0xE8,
    0, 0, 1, 0x9C, 0x40, 0, 0, 200]

/-- A group that is cut short is charged for: the message is accepted, and its event
carries what was read before the AVP that does not fit. -/
theorem cut_unit_is_charged :
    (∃ hdr gy, parseDiameterGy (.whole cutUnitMessage) = .ok (.ok, hdr, gy) ∧
      hdr.isCreditControl = true ∧
      ¬∃ avps, Visits hdr.avps avps ∧ GroupsWellFormed avps) ∧
    messageEvents 7 cutUnitMessage =
      [{ tsNs := 7, isRequest := true, usedTotalOctets := 1000, hasUsed := true }] := by
  obtain ⟨⟨st, hdr, gy⟩, hread, hcheck⟩ := Runs.returnsWith_iff.mp
    (show Runs.returnsWith (parseDiameterGy (.whole cutUnitMessage)) (fun r =>
      decide (r.1 = .ok ∧ r.2.1.isCreditControl = true ∧
        r.2.1.avps = ⟨20, cutUnitMessage.drop 20⟩)) = true by decide +kernel)
  obtain ⟨rfl, hcc, havps⟩ := of_decide_eq_true hcheck
  refine ⟨⟨hdr, gy, hread, hcc, ?_⟩, by decide +kernel⟩
  rintro ⟨avps, hvisits, -, hblocks⟩
  rw [havps] at hvisits
  have hblock : Visits ⟨20, cutUnitMessage.drop 20⟩
      [{ data := ⟨28, cutUnitMessage.drop 28⟩, code := 456, length := 40, flags := 0x40 }] := by
    unfold Visits
    decide +kernel
  obtain rfl := visits_unique hvisits hblock
  obtain ⟨inner, hinner, hunits⟩ := hblocks _ (List.mem_singleton.mpr rfl)
  have hunit : Visits ⟨28, cutUnitMessage.drop 28⟩
      [{ data := ⟨36, cutUnitMessage.drop 36⟩, code := 446, length := 32, flags := 0x40 }] := by
    unfold Visits
    decide +kernel
  obtain rfl := visits_unique hinner hunit
  obtain ⟨seen, hseen⟩ := hunits _ (List.mem_singleton.mpr rfl) (.inl rfl)
  have hbad : Runs.returnsWith (forEachAvp collectAvps 0 ⟨36, cutUnitMessage.drop 36⟩ [])
      (fun r => decide (r.1 = .badAvp)) = true := by decide +kernel
  obtain ⟨r, hr, hst⟩ := Runs.returnsWith_iff.mp hbad
  rw [Visits, hr] at hseen
  rw [Except.ok.inj hseen] at hst
  cases (of_decide_eq_true hst : DiameterStatus.ok = .badAvp)

/-- An AVP whose size is a multiple of 4. -/
def unpadded (c : AvpCode) (data : List UInt8) (hlen : data.length < 16777208)
    (haligned : (mandatory c data).padLen = 0) : PaddedAvp :=
  ⟨mandatory c data, [], mandatory_wf hlen, haligned.symm⟩

/-- The unit of the message with an empty AVP behind its total. -/
def wholeUnit : PaddedAvp :=
  unpadded .usedServiceUnit ((mandatory .ccTotalOctets [0, 0, 0, 0, 0, 0, 0x03, 0xE8]).image ++
    (mandatory .ccInputOctets []).image) (by decide) (by decide)

def wholeBlock : PaddedAvp :=
  unpadded .multipleServicesCreditControl wholeUnit.bytes (by decide) (by decide)

/-- The message that holds this block. -/
def wholeUnitMessage : List UInt8 :=
  cutUnitMessage.take 20 ++ wholeBlock.bytes

theorem wholeBlock_spelled : GroupsSpelled [wholeBlock.item] := by
  refine ⟨?_, ?_⟩
  · intro a ha
    obtain rfl := List.mem_singleton.mp ha
    exact fun hcode => absurd hcode (by decide)
  · intro a ha
    obtain rfl := List.mem_singleton.mp ha
    refine ⟨[wholeUnit], by decide, ?_⟩
    intro b hb _
    obtain rfl := List.mem_singleton.mp hb
    exact ⟨[unpadded .ccTotalOctets [0, 0, 0, 0, 0, 0, 0x03, 0xE8] (by decide) (by decide),
      unpadded .ccInputOctets [] (by decide) (by decide)], by decide⟩

theorem malformed_groups_pass_whole :
    ∃ gy avps, parseDiameterGy (.whole wholeUnitMessage) =
        .ok (.ok, headerOf (.whole wholeUnitMessage), gy) ∧
      Visits (headerOf (.whole wholeUnitMessage)).avps avps ∧ GroupsWellFormed avps := by
  have hhead : parseDiameterHeader (.whole wholeUnitMessage) =
      .ok (.ok, headerOf (.whole wholeUnitMessage)) := by decide +kernel
  have harea : (headerOf (.whole wholeUnitMessage)).avps.bytes = areaBytes [wholeBlock] := by
    decide +kernel
  obtain ⟨st, gy, hread, hok, hgroups⟩ := malformed_groups_pass (.whole wholeUnitMessage)
    (headerOf (.whole wholeUnitMessage)) hhead (by decide +kernel)
  obtain rfl := hok.mpr ⟨_, harea⟩
  obtain ⟨avps, hvisits, hwell⟩ := hgroups.mpr (fun ps hps => by
    rw [items_of_areaBytes (hps.symm.trans harea)]
    exact wholeBlock_spelled) rfl
  exact ⟨gy, avps, hread, hvisits, hwell⟩

end Groups
end GtpMeter
