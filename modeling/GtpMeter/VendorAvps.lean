import GtpMeter.GyBlocks
import GtpMeter.SpanAgreement

/-!
# AVPs of other vendors

AVP codes are unique per vendor only, and what `parse_gy` looks for has no vendor.  The
extraction walks over the AVPs of a message and of its groups with a `switch` on the
code at each level; the vendor is not looked at.  So a vendor-specific AVP that is put
into a message makes no difference exactly if the level it is put into does not read its
code.  A block behind the eighth is never opened, and there any code is safe.

**Results.**
* `avpLoop_after`: a walk from some place on is a walk over what is left.
* `forEachAvp_insertedHere`: an AVP that the callback skips makes no difference.
* `forEachAvp_insideGroup`: neither does a change that the callback of a group does not see.
* `parseGy_insertedLate`: nor what is put into a block behind the eighth.
* `vendor_avps_ignored_iff`: the codes that are safe at each level.
-/

namespace GtpMeter

section Shifting

variable {area : Span} {off i : Nat}

theorem takeAvpData_after (avp : Avp) :
    takeAvpData area (off + i) avp = takeAvpData (area.after off) i avp := by
  have hleft : (area.after off).size - i = area.size - (off + i) := by
    rw [Span.size_after]
    omega
  rw [takeAvpData, takeAvpData, hleft]
  by_cases hmin : avp.length.toNat < avp.headerLen
  · rw [if_pos hmin, if_pos hmin]
  by_cases hmax : avp.length.toNat > area.size - (off + i)
  · rw [if_neg hmin, if_neg hmin, if_pos hmax, if_pos hmax]
  have hhead : 8 ≤ avp.headerLen := by
    unfold Avp.headerLen
    split <;> omega
  have hsize : (area.after off).size = area.size - off := Span.size_after
  have hvendor : readVendorId area (off + i) avp = readVendorId (area.after off) i avp := by
    rw [readVendorId, readVendorId]
    by_cases hv : avp.vendorSpecific = true
    · have hlong : avp.headerLen = 12 := if_pos hv
      rw [if_pos hv, if_pos hv, Span.loadBe32_eq (by omega), Span.loadBe32_eq (by omega)]
      simp only [Span.byte_after, Nat.add_assoc]
    · rw [if_neg hv, if_neg hv]
  rw [if_neg hmin, if_neg hmin, if_neg hmax, if_neg hmax, hvendor, Span.subspan_eq (by omega),
    Span.subspan_eq (by omega)]
  simp only [Span.after, List.drop_drop, Nat.add_assoc]

theorem readAvp_after : readAvp area (off + i) = readAvp (area.after off) i := by
  have hleft : (area.after off).size - i = area.size - (off + i) := by
    rw [Span.size_after]
    omega
  rw [readAvp, readAvp, hleft]
  by_cases hshort : area.size - (off + i) < 8
  · rw [if_pos hshort, if_pos hshort]
  have hsize : (area.after off).size = area.size - off := Span.size_after
  rw [if_neg hshort, if_neg hshort, Span.loadBe32_eq (by omega), Span.loadBe32_eq (by omega),
    Span.read_eq (by omega), Span.read_eq (by omega), Span.loadBe24_eq (by omega),
    Span.loadBe24_eq (by omega)]
  simp only [Span.byte_after, Nat.add_assoc, bind, Except.bind]
  exact takeAvpData_after _

/-- A walk from `off` on is a walk over what is left. -/
theorem avpLoop_after {S : Type} {fn : AvpFn S} {depth : Nat} {s : S} :
    avpLoop fn depth area (off + i) s = avpLoop fn depth (area.after off) i s := by
  induction i, s using avpLoop.induct (area.after off) with
  | case1 i s hlt ih =>
      rw [Span.size_after] at hlt
      rw [avpLoop, avpLoop, if_pos (by omega), if_pos (by rw [Span.size_after]; exact hlt),
        readAvp_after]
      congr 1
      funext found
      cases found with
      | none => rfl
      | some avp =>
          have hleft : (area.after off).size - i = area.size - (off + i) := by
            rw [Span.size_after]
            omega
          simp only [hleft] at ih ⊢
          congr 1
          funext r
          by_cases hmore : (!r.2) = true
          · rw [if_pos hmore, if_pos hmore]
          rw [if_neg hmore, if_neg hmore]
          by_cases hadv : avp.advance = 0 ∨ avp.advance > area.size - (off + i)
          · rw [if_pos hadv, if_pos hadv]
          · rw [if_neg hadv, if_neg hadv, ← ih avp r.1 hadv, Nat.add_assoc]
  | case2 i s hend =>
      have hsize : (area.after off).size = area.size - off := Span.size_after
      rw [avpLoop, avpLoop, if_neg (by omega), if_neg hend]

end Shifting

section Inserting

variable {p : PaddedAvp} {bytes bytes' : List UInt8} {code : AvpCode}
  {R : List UInt8 → List UInt8 → Prop}

/-- The AVP is put between two AVPs of an area, or before or behind all of them. -/
def InsertedHere (p : PaddedAvp) (bytes bytes' : List UInt8) : Prop :=
  ∃ pre post, bytes = areaBytes pre ++ post ∧ bytes' = areaBytes pre ++ (p.bytes ++ post)

/-- The contents of the group behind some AVPs are changed, and its length with them. -/
def InsideGroupBehind (pre : List PaddedAvp) (code : AvpCode) (R : List UInt8 → List UInt8 → Prop)
    (bytes bytes' : List UInt8) : Prop :=
  ∃ (g g' : AvpItem) (post : List UInt8),
    g.Wf ∧ g'.Wf ∧ g.code = code.code ∧ g' = { g with data := g'.data } ∧ R g.data g'.data ∧
      bytes = areaBytes pre ++ (g.image ++ post) ∧ bytes' = areaBytes pre ++ (g'.image ++ post)

/-- The contents of one group of an area are changed. -/
def InsideGroup (code : AvpCode) (R : List UInt8 → List UInt8 → Prop)
    (bytes bytes' : List UInt8) : Prop :=
  ∃ pre, InsideGroupBehind pre code R bytes bytes'

/-- The contents of a block behind the eighth are changed. -/
def InsideLateBlock (R : List UInt8 → List UInt8 → Prop) (bytes bytes' : List UInt8) : Prop :=
  ∃ pre : List PaddedAvp, kMaxMsccPerMessage ≤ (blocksAmong (pre.map PaddedAvp.item)).length ∧
    InsideGroupBehind pre .multipleServicesCreditControl R bytes bytes'

/-- A change that keeps all that follows aligned. -/
def GrowsAligned (R : List UInt8 → List UInt8 → Prop) : Prop :=
  ∀ bytes bytes', R bytes bytes' → ∃ k, bytes'.length = bytes.length + 4 * k

theorem insertedHere_grows (p : PaddedAvp) : GrowsAligned (InsertedHere p) := by
  rintro _ _ ⟨pre, post, rfl, rfl⟩
  have haligned : p.item.size = 4 * (p.item.size / 4) := by
    simp only [AvpItem.size, AvpItem.padLen]
    omega
  refine ⟨p.item.size / 4, ?_⟩
  simp only [List.length_append, p.bytes_length]
  omega

variable {g g' : AvpItem}

/-- The sizes of a group before and after such a change. -/
theorem group_sizes (hR : GrowsAligned R) (hsame : g' = { g with data := g'.data })
    (h : R g.data g'.data) :
    g'.padLen = g.padLen ∧ ∃ k, g'.image.length = g.image.length + 4 * k := by
  obtain ⟨k, hk⟩ := hR _ _ h
  have hhead : g'.headerLen = g.headerLen := by
    rw [hsame]
    rfl
  have hlen : g'.length = g.length + 4 * k := by
    rw [AvpItem.length, AvpItem.length, hhead, hk, Nat.add_assoc]
  refine ⟨?_, k, ?_⟩
  · rw [AvpItem.padLen, AvpItem.padLen, hlen]
    omega
  · rw [g'.image_length, g.image_length, hlen]

theorem insideGroup_grows (hR : GrowsAligned R) : GrowsAligned (InsideGroup code R) := by
  rintro _ _ ⟨pre, g, g', post, -, -, -, hsame, h, rfl, rfl⟩
  obtain ⟨-, k, hk⟩ := group_sizes hR hsame h
  refine ⟨k, ?_⟩
  simp only [List.length_append, hk]
  omega

end Inserting

section Walks

variable {S : Type} {I : S → S → Prop} {Q : DiameterStatus × S → DiameterStatus × S → Prop}
  {f : S → Avp → Nat → Except OutOfBounds S} {area area' : Span} {depth off off' : Nat} {s s' : S}
  {p : PaddedAvp} {code : AvpCode} {R : List UInt8 → List UInt8 → Prop}
  {J : List PaddedAvp → S → S → Prop} {pre : List PaddedAvp}

/-- What the callback keeps, in terms of the AVPs it has seen. -/
def Follows (J : List PaddedAvp → S → S → Prop) (f : S → Avp → Nat → Except OutOfBounds S)
    (depth : Nat) : Prop :=
  ∀ seen (p : PaddedAvp) s s' pos pos', J seen s s' →
    Twin (J (seen ++ [p])) (f s (p.item.placed pos) depth) (f s' (p.item.placed pos') depth)

theorem TwinFn.follows (hf : TwinFn I f f) : Follows (fun _ => I) f depth :=
  fun _ _ _ _ _ _ hs => hf _ _ _ _ depth hs ⟨rfl, rfl, rfl, rfl, rfl⟩

/-- The AVPs that the areas begin with. -/
theorem avpLoop_common (hJ : Follows J f depth) (seen pre : List PaddedAvp)
    (h : area.Has off (areaBytes pre)) (h' : area'.Has off (areaBytes pre)) (hs : J seen s s')
    (hrest : ∀ t t', J (seen ++ pre) t t' →
      Twin Q (avpLoop (visitAll f) depth area (off + (areaBytes pre).length) t)
        (avpLoop (visitAll f) depth area' (off + (areaBytes pre).length) t')) :
    Twin Q (avpLoop (visitAll f) depth area off s) (avpLoop (visitAll f) depth area' off s') := by
  induction pre generalizing off s s' seen with
  | nil => exact hrest s s' (by rwa [List.append_nil])
  | cons p pre ih =>
      obtain ⟨hp, hpre⟩ := has_areaBytes_cons.mp h
      obtain ⟨hp', hpre'⟩ := has_areaBytes_cons.mp h'
      rw [avpLoop_cons hp, avpLoop_cons hp']
      refine Twin.bind (hJ seen p _ _ _ _ hs) (fun t t' ht => ih (seen ++ [p]) hpre hpre' ht ?_)
      intro t t' ht
      have hnext := hrest t t' (by rwa [List.append_assoc] at ht)
      rwa [areaBytes_cons_length, ← Nat.add_assoc] at hnext

/-- What is left of the areas is the same. -/
theorem avpLoop_left (hf : TwinFn I f f) (h : area.bytes.drop off = area'.bytes.drop off')
    (hs : I s s') :
    Twin (fun r r' => r.1 = r'.1 ∧ I r.2 r'.2) (avpLoop (visitAll f) depth area off s)
      (avpLoop (visitAll f) depth area' off' s') := by
  rw [← Nat.add_zero off, ← Nat.add_zero off', avpLoop_after, avpLoop_after]
  exact avpLoop_twin hf h hs

/-- An AVP that the callback skips makes no difference. -/
theorem forEachAvp_insertedHere (hf : TwinFn I f f)
    (hskip : ∀ s pos, f s (p.item.placed pos) depth = .ok s)
    (h : InsertedHere p area.bytes area'.bytes) (hs : I s s') :
    Twin (fun r r' => r.1 = r'.1 ∧ I r.2 r'.2) (forEachAvp (visitAll f) depth area s)
      (forEachAvp (visitAll f) depth area' s') := by
  obtain ⟨pre, post, hbytes, hbytes'⟩ := h
  have hpre : area.Has 0 (areaBytes pre) := Span.Has.zero_iff.mpr (hbytes ▸ List.prefix_append _ _)
  have hpre' : area'.Has 0 (areaBytes pre) :=
    Span.Has.zero_iff.mpr (hbytes' ▸ List.prefix_append _ _)
  refine Twin.ite (fun _ => .ok ⟨rfl, hs⟩) (fun _ => ?_)
  refine avpLoop_common hf.follows [] pre hpre hpre' hs (fun t t' ht => ?_)
  have hp : area'.Has (0 + (areaBytes pre).length) p.bytes := by
    rw [Nat.zero_add]
    exact Span.Has.of_append (areaBytes pre) post (by rw [hbytes', List.append_assoc])
  rw [avpLoop_cons hp, hskip]
  refine avpLoop_left hf ?_ ht
  rw [hbytes, hbytes', Nat.zero_add, List.drop_left, ← p.bytes_length, ← List.drop_drop,
    List.drop_left, List.drop_left]

/-- The padding of an AVP is cut exactly if too few bytes are behind it. -/
theorem padding_missing_iff {pre post : List UInt8} {a : AvpItem}
    (h : area.bytes = pre ++ (a.image ++ post)) :
    a.size > area.size - pre.length ↔ a.padLen > post.length := by
  have hsize : area.size = pre.length + (a.length + post.length) := by
    rw [Span.size, h, List.length_append, List.length_append, a.image_length]
  rw [AvpItem.size]
  omega

theorem drop_behind_padding {pre post : List UInt8} {a : AvpItem}
    (h : area.bytes = pre ++ (a.image ++ post)) :
    area.bytes.drop (pre.length + a.size) = post.drop a.padLen := by
  rw [h, ← List.drop_drop, List.drop_left, AvpItem.size, ← a.image_length, ← List.drop_drop,
    List.drop_left]

/-- A change inside a group that the callback does not see, after the AVPs before it,
makes no difference. -/
theorem forEachAvp_insideGroupBehind (hf : TwinFn I f f) (hJ : Follows J f depth)
    (hR : GrowsAligned R)
    (hgroup : ∀ (g g' : AvpItem) (s s' : S) (pos pos' : Nat), g.code = code.code →
      g'.code = code.code → R g.data g'.data → J pre s s' →
      Twin I (f s (g.placed pos) depth) (f s' (g'.placed pos') depth))
    (h : InsideGroupBehind pre code R area.bytes area'.bytes) (hs : J [] s s') (hs₀ : I s s') :
    Twin (fun r r' => r.1 = r'.1 ∧ I r.2 r'.2) (forEachAvp (visitAll f) depth area s)
      (forEachAvp (visitAll f) depth area' s') := by
  obtain ⟨g, g', post, hw, hw', hcode, hsame, hchange, hbytes, hbytes'⟩ := h
  have hpre : area.Has 0 (areaBytes pre) := Span.Has.zero_iff.mpr (hbytes ▸ List.prefix_append _ _)
  have hpre' : area'.Has 0 (areaBytes pre) :=
    Span.Has.zero_iff.mpr (hbytes' ▸ List.prefix_append _ _)
  have hcode' : g'.code = code.code := by
    rw [hsame]
    exact hcode
  obtain ⟨hpad, -⟩ := group_sizes hR hsame hchange
  refine Twin.ite (fun _ => .ok ⟨rfl, hs₀⟩) (fun _ => ?_)
  refine avpLoop_common hJ [] pre hpre hpre' hs (fun t t' ht => ?_)
  rw [Nat.zero_add]
  have hg : area.Has (areaBytes pre).length g.image :=
    Span.Has.of_append (areaBytes pre) post (by rw [hbytes, List.append_assoc])
  have hg' : area'.Has (areaBytes pre).length g'.image :=
    Span.Has.of_append (areaBytes pre) post (by rw [hbytes', List.append_assoc])
  rw [avpLoop_image hw hg, avpLoop_image hw' hg']
  refine Twin.bind (hgroup g g' t t' _ _ hcode hcode' hchange ht) (fun u u' hu => ?_)
  -- the padding of the group is there in both areas or in neither
  simp only [padding_missing_iff hbytes, padding_missing_iff hbytes', hpad]
  refine Twin.ite (fun _ => .ok ⟨rfl, hu⟩) (fun _ => avpLoop_left hf ?_ hu)
  rw [drop_behind_padding hbytes, drop_behind_padding hbytes', hpad]

theorem forEachAvp_insideGroup (hf : TwinFn I f f) (hR : GrowsAligned R)
    (hgroup : ∀ (g g' : AvpItem) (s s' : S) (pos pos' : Nat), g.code = code.code →
      g'.code = code.code → R g.data g'.data → I s s' →
      Twin I (f s (g.placed pos) depth) (f s' (g'.placed pos') depth))
    (h : InsideGroup code R area.bytes area'.bytes) (hs : I s s') :
    Twin (fun r r' => r.1 = r'.1 ∧ I r.2 r'.2) (forEachAvp (visitAll f) depth area s)
      (forEachAvp (visitAll f) depth area' s') := by
  obtain ⟨pre, hbehind⟩ := h
  exact forEachAvp_insideGroupBehind hf hf.follows hR hgroup hbehind hs hs

end Walks

section Levels

/-- Where the extraction looks for AVPs. -/
inductive GyLevel where
  | message
  | subscriptionId
  | mscc
  | usedServiceUnit
  | grantedServiceUnit
deriving DecidableEq, Repr

/-- The cases of the `switch` at this level. -/
def GyLevel.reads : GyLevel → List AvpCode
  | message => [.sessionId, .originHost, .originRealm, .ccRequestType, .ccRequestNumber,
      .resultCode, .subscriptionId, .multipleServicesCreditControl]
  | subscriptionId => [.subscriptionIdType, .subscriptionIdData]
  | mscc => [.ratingGroup, .serviceIdentifier, .usedServiceUnit, .grantedServiceUnit]
  | usedServiceUnit => [.ccInputOctets, .ccOutputOctets, .ccTotalOctets]
  | grantedServiceUnit => [.ccTotalOctets]

/-- The AVP is put into the AVPs of a message at this level. -/
def Inserted (p : PaddedAvp) : GyLevel → List UInt8 → List UInt8 → Prop
  | .message => InsertedHere p
  | .subscriptionId => InsideGroup .subscriptionId (InsertedHere p)
  | .mscc => InsideGroup .multipleServicesCreditControl (InsertedHere p)
  | .usedServiceUnit =>
      InsideGroup .multipleServicesCreditControl (InsideGroup .usedServiceUnit (InsertedHere p))
  | .grantedServiceUnit =>
      InsideGroup .multipleServicesCreditControl (InsideGroup .grantedServiceUnit (InsertedHere p))

/-- The AVP is put at this level into a block behind the eighth. -/
def InsertedLate (p : PaddedAvp) : GyLevel → List UInt8 → List UInt8 → Prop
  | .mscc => InsideLateBlock (InsertedHere p)
  | .usedServiceUnit => InsideLateBlock (InsideGroup .usedServiceUnit (InsertedHere p))
  | .grantedServiceUnit => InsideLateBlock (InsideGroup .grantedServiceUnit (InsertedHere p))
  | _ => fun _ _ => False

/-- The code is not one that the level reads. -/
def Unread (level : GyLevel) (code : UInt32) : Prop :=
  ∀ c ∈ level.reads, code ≠ c.code

variable {avp : Avp} {depth : Nat} {p : PaddedAvp}

theorem Unread.ofCode {level : GyLevel} {code : UInt32} {c : AvpCode} (h : Unread level code)
    (hc : c ∈ level.reads) : AvpCode.ofCode code ≠ some c :=
  fun hsome => h c hc (AvpCode.ofCode_eq_some_iff.mp hsome)

theorem usedUnitField_skip {info : MsccInfo} (h : Unread .usedServiceUnit avp.code) :
    usedUnitField info avp depth = .ok info := by
  unfold usedUnitField
  split <;> first | exact absurd ‹_› (h.ofCode (by decide)) | rfl

theorem grantedUnitField_skip {info : MsccInfo} (h : Unread .grantedServiceUnit avp.code) :
    grantedUnitField info avp depth = .ok info :=
  if_neg (h _ (by decide))

theorem msccField_skip {info : MsccInfo} {outer : Nat} (h : Unread .mscc avp.code) :
    msccField outer info avp depth = .ok info := by
  unfold msccField
  split <;> first | exact absurd ‹_› (h.ofCode (by decide)) | rfl

theorem subscriptionField_skip {sub : UInt32 × Span} (h : Unread .subscriptionId avp.code) :
    subscriptionField sub avp depth = .ok sub := by
  unfold subscriptionField
  split <;> first | exact absurd ‹_› (h.ofCode (by decide)) | rfl

theorem gyField_skip {gy : GyMessage} (h : Unread .message avp.code) :
    gyField gy avp depth = .ok gy := by
  unfold gyField
  split <;> first | exact absurd ‹_› (h.ofCode (by decide)) | rfl

end Levels

section Extraction

variable {p : PaddedAvp} {a b : Avp} {info : MsccInfo} {depth : Nat}

/-- Walks that end alike in the same state are the same. -/
theorem walk_eq {x y : Except OutOfBounds (DiameterStatus × MsccInfo)}
    (h : Twin (fun r r' => r.1 = r'.1 ∧ r.2 = r'.2) x y) : x = y :=
  (h.mono (fun _ _ hr => Prod.ext hr.1 hr.2)).eq

theorem parseUsedServiceUnit_inserted (hp : Unread .usedServiceUnit p.item.code)
    (h : InsertedHere p a.data.bytes b.data.bytes) :
    parseUsedServiceUnit a info depth = parseUsedServiceUnit b info depth := by
  have hwalk : ∀ info, forEachSubAvp (visitAll usedUnitField) depth a info =
      forEachSubAvp (visitAll usedUnitField) depth b info := fun info =>
    walk_eq (forEachAvp_insertedHere usedUnitField_twin (fun _ _ => usedUnitField_skip hp) h rfl)
  rw [parseUsedServiceUnit, parseUsedServiceUnit, hwalk]

theorem grantedUnit_inserted (hp : Unread .grantedServiceUnit p.item.code)
    (h : InsertedHere p a.data.bytes b.data.bytes) :
    forEachSubAvp (visitAll grantedUnitField) depth a info =
      forEachSubAvp (visitAll grantedUnitField) depth b info :=
  walk_eq (forEachAvp_insertedHere grantedUnitField_twin (fun _ _ => grantedUnitField_skip hp) h
    rfl)

theorem msccField_usedUnit {outer : Nat} (hcode : AvpCode.ofCode a.code = some .usedServiceUnit) :
    msccField outer info a depth = parseUsedServiceUnit a info (outer + 1) := by
  rw [msccField, hcode]

theorem msccField_grantedUnit {outer : Nat}
    (hcode : AvpCode.ofCode a.code = some .grantedServiceUnit) :
    msccField outer info a depth =
      (forEachSubAvp (visitAll grantedUnitField) (outer + 2) a { info with hasGranted := true } >>=
        fun r => .ok r.2) := by
  rw [msccField, hcode]

theorem parseMscc_inserted (hp : Unread .mscc p.item.code)
    (h : InsertedHere p a.data.bytes b.data.bytes) :
    parseMscc a info depth = parseMscc b info depth := by
  have hwalk : ∀ info, forEachSubAvp (visitAll (msccField depth)) depth a info =
      forEachSubAvp (visitAll (msccField depth)) depth b info := fun info =>
    walk_eq (forEachAvp_insertedHere (msccField_twin depth) (fun _ _ => msccField_skip hp) h rfl)
  rw [parseMscc, parseMscc, hwalk]

/-- A change inside a group of the block that does not show at the group. -/
theorem parseMscc_insideGroup {code : AvpCode}
    (hgroup : ∀ (g g' : Avp) (info : MsccInfo), AvpCode.ofCode g.code = some code →
      AvpCode.ofCode g'.code = some code → InsertedHere p g.data.bytes g'.data.bytes →
      msccField depth info g (depth + 1) = msccField depth info g' (depth + 1))
    (h : InsideGroup code (InsertedHere p) a.data.bytes b.data.bytes) :
    parseMscc a info depth = parseMscc b info depth := by
  have hwalk : ∀ info, forEachSubAvp (visitAll (msccField depth)) depth a info =
      forEachSubAvp (visitAll (msccField depth)) depth b info := by
    intro info
    refine walk_eq (forEachAvp_insideGroup (msccField_twin depth) (insertedHere_grows p) ?_ h rfl)
    rintro g g' info _ pos pos' hcode hcode' hinner rfl
    rw [hgroup (g.placed pos) (g'.placed pos') info (ofCode_placed hcode _)
      (ofCode_placed hcode' _) hinner]
    exact Twin.refl _
  rw [parseMscc, parseMscc, hwalk]

/-- A change inside a block that `parse_mscc` does not see. -/
theorem gyField_insideBlock {R : List UInt8 → List UInt8 → Prop} {area area' : Span}
    {gy gy' : GyMessage} (hR : GrowsAligned R)
    (hblock : ∀ (a b : Avp) (info : MsccInfo), R a.data.bytes b.data.bytes →
      parseMscc a info depth = parseMscc b info depth)
    (h : InsideGroup .multipleServicesCreditControl R area.bytes area'.bytes)
    (hgy : SameText gy gy') :
    Twin (fun r r' => r.1 = r'.1 ∧ SameText r.2 r'.2) (forEachAvp (visitAll gyField) depth area gy)
      (forEachAvp (visitAll gyField) depth area' gy') := by
  refine forEachAvp_insideGroup gyField_twin hR ?_ h hgy
  intro g g' gy gy' pos pos' hcode hcode' hinner hgy
  exact gyField_of_blocks hgy (ofCode_placed hcode _) (ofCode_placed hcode' _)
    (fun info => hblock _ _ info hinner)

/-- An AVP whose code is not read where it is put makes no difference. -/
theorem parseGy_inserted {hdr : DiameterHeader} {avps' : Span} {msgLength' : UInt32}
    {level : GyLevel} (hp : Unread level p.item.code)
    (h : Inserted p level hdr.avps.bytes avps'.bytes) :
    Twin (fun r r' => r.1 = r'.1 ∧ SameText r.2 r'.2) (parseGy hdr)
      (parseGy { hdr with avps := avps', msgLength := msgLength' }) := by
  have hsame := SameText.refl { isRequest := hdr.request }
  cases level with
  | message =>
      exact forEachAvp_insertedHere gyField_twin (fun _ _ => gyField_skip hp) h hsame
  | subscriptionId =>
      refine forEachAvp_insideGroup gyField_twin (insertedHere_grows p) ?_ h hsame
      intro g g' gy gy' pos pos' hcode hcode' hinner hgy
      rw [gyField_subscriptionId (ofCode_placed hcode _),
        gyField_subscriptionId (ofCode_placed hcode' _)]
      exact parseSubscriptionId_of_walk hgy (forEachAvp_insertedHere subscriptionField_twin
        (fun _ _ => subscriptionField_skip hp) hinner ⟨rfl, rfl⟩)
  | mscc =>
      exact gyField_insideBlock (insertedHere_grows p) (fun _ _ _ => parseMscc_inserted hp) h hsame
  | usedServiceUnit =>
      exact gyField_insideBlock (insideGroup_grows (insertedHere_grows p))
        (fun _ _ _ => parseMscc_insideGroup (fun g g' info hcode hcode' hinner => by
          rw [msccField_usedUnit hcode, msccField_usedUnit hcode',
            parseUsedServiceUnit_inserted hp hinner])) h hsame
  | grantedServiceUnit =>
      exact gyField_insideBlock (insideGroup_grows (insertedHere_grows p))
        (fun _ _ _ => parseMscc_insideGroup (fun g g' info hcode hcode' hinner => by
          rw [msccField_grantedUnit hcode, msccField_grantedUnit hcode',
            grantedUnit_inserted hp hinner])) h hsame

/-- The texts and the blocks of a message, as its AVPs are read. -/
theorem gyField_follows :
    Follows (fun seen gy gy' =>
      SameText gy gy' ∧ HoldsBlocks gy (keptBlocks (seen.map PaddedAvp.item))) gyField 0 := by
  rintro seen p gy gy' pos pos' ⟨hgy, hblocks⟩
  have htwin := gyField_twin gy gy' (p.item.placed pos) (p.item.placed pos') 0 hgy
    ⟨rfl, rfl, rfl, rfl, rfl⟩
  have hstep : Returns (fun r => HoldsBlocks r (keptBlocks (seen.map PaddedAvp.item ++ [p.item])))
      (gyField gy (p.item.placed pos) 0) := hblocks.step
  obtain ⟨r, hr, hnext⟩ := hstep
  obtain ⟨r', hr', hsame⟩ := htwin.of_ok hr
  rw [hr, hr']
  refine .ok ⟨hsame, ?_⟩
  rwa [List.map_append]

/-- A block that finds the array full is not opened. -/
theorem gyField_full {gy gy' : GyMessage} (hgy : SameText gy gy')
    (ha : AvpCode.ofCode a.code = some .multipleServicesCreditControl)
    (hb : AvpCode.ofCode b.code = some .multipleServicesCreditControl)
    (hfull : ¬gy.msccCount < kMaxMsccPerMessage) :
    Twin SameText (gyField gy a depth) (gyField gy' b depth) := by
  obtain ⟨s, host, realm, m, rfl, htext⟩ := hgy
  rw [gyField_block ha, gyField_block hb, dif_neg hfull]
  rw [dif_neg (show ¬(gy.withSpans s host realm m).msccCount < _ from hfull)]
  exact .ok ⟨s, host, realm, m, rfl, htext⟩

/-- What is put into a block behind the eighth makes no difference. -/
theorem parseGy_insertedLate {hdr : DiameterHeader} {avps' : Span} {msgLength' : UInt32}
    {level : GyLevel} (h : InsertedLate p level hdr.avps.bytes avps'.bytes) :
    Twin (fun r r' => r.1 = r'.1 ∧ SameText r.2 r'.2) (parseGy hdr)
      (parseGy { hdr with avps := avps', msgLength := msgLength' }) := by
  have hsame := SameText.refl { isRequest := hdr.request }
  have hlate : ∀ {R : List UInt8 → List UInt8 → Prop}, GrowsAligned R →
      InsideLateBlock R hdr.avps.bytes avps'.bytes →
      Twin (fun r r' => r.1 = r'.1 ∧ SameText r.2 r'.2) (parseGy hdr)
        (parseGy { hdr with avps := avps', msgLength := msgLength' }) := by
    rintro R hR ⟨pre, hmany, hbehind⟩
    refine forEachAvp_insideGroupBehind gyField_twin gyField_follows hR ?_ hbehind
      ⟨hsame, HoldsBlocks.empty _⟩ hsame
    rintro g g' gy gy' pos pos' hcode hcode' - ⟨hgy, hblocks⟩
    have hcount := hblocks.count
    rw [keptBlocks_length] at hcount
    exact gyField_full hgy (ofCode_placed hcode _) (ofCode_placed hcode' _) (by omega)
  cases level with
  | message => exact h.elim
  | subscriptionId => exact h.elim
  | mscc => exact hlate (insertedHere_grows p) h
  | usedServiceUnit | grantedServiceUnit => exact hlate (insideGroup_grows (insertedHere_grows p)) h

end Extraction

section Samples

/-- An AVP of another vendor. -/
structure VendorAvp extends PaddedAvp where
  vendor : item.vendorSpecific = true
  vendor_ne : item.vendorId ≠ 0

/-- What a message says, without where its strings are. -/
def GyMessage.text (gy : GyMessage) : GyMessage × List (List UInt8) :=
  (gy.withSpans {} {} {} {},
    [gy.sessionId.bytes, gy.originHost.bytes, gy.originRealm.bytes, gy.msisdn.bytes])

theorem SameText.text_eq {gy gy' : GyMessage} (h : SameText gy gy') : gy.text = gy'.text := by
  obtain ⟨s, host, realm, m, rfl, hs, hhost, hrealm, hm⟩ := h
  simp only [GyMessage.text, GyMessage.withSpans, hs, hhost, hrealm, hm]

/-- A value that shows when it is taken. -/
def sampleData : AvpCode → List UInt8
  | .sessionId | .originHost | .originRealm | .subscriptionIdData => [49]
  | .subscriptionIdType => [0, 0, 0, 1]
  | .subscriptionId =>
      (mandatory .subscriptionIdType [0, 0, 0, 1]).image ++
        (mandatory .subscriptionIdData [49]).image
  | .multipleServicesCreditControl | .usedServiceUnit | .grantedServiceUnit => []
  | _ => [0, 0, 0, 9]

/-- The value in an AVP of vendor 10415. -/
def sampleVendor (c : AvpCode) : VendorAvp where
  item := { code := c.code, flags := 0xC0, vendorId := 10415, data := sampleData c }
  pad := List.replicate
    ({ code := c.code, flags := 0xC0, vendorId := 10415, data := sampleData c } : AvpItem).padLen 0
  wf := ⟨fun h => absurd h (by cases c <;> decide), by cases c <;> decide⟩
  pad_length := List.length_replicate
  vendor := by cases c <;> decide
  vendor_ne := by cases c <;> decide

/-- What the sample is put before: the other half of a Subscription-Id. -/
def sampleRest : GyLevel → AvpCode → List UInt8
  | .subscriptionId, .subscriptionIdType => (mandatory .subscriptionIdData [49]).image
  | .subscriptionId, _ => (mandatory .subscriptionIdType [0, 0, 0, 1]).image
  | _, _ => []

/-- The AVPs of a message that holds these bytes at this level. -/
def sampleArea : GyLevel → List UInt8 → List UInt8
  | .message, inner => inner
  | .subscriptionId, inner => (mandatory .subscriptionId inner).image
  | .mscc, inner => (mandatory .multipleServicesCreditControl inner).image
  | .usedServiceUnit, inner =>
      (mandatory .multipleServicesCreditControl (mandatory .usedServiceUnit inner).image).image
  | .grantedServiceUnit, inner =>
      (mandatory .multipleServicesCreditControl (mandatory .grantedServiceUnit inner).image).image

theorem insideGroup_mandatory {c : AvpCode} {R : List UInt8 → List UInt8 → Prop}
    {inner inner' : List UInt8} (hlen : inner.length < 16777208) (hlen' : inner'.length < 16777208)
    (h : R inner inner') :
    InsideGroup c R (mandatory c inner).image (mandatory c inner').image :=
  ⟨[], mandatory c inner, mandatory c inner', [], mandatory_wf hlen, mandatory_wf hlen', rfl, rfl,
    h, (List.append_nil _).symm, (List.append_nil _).symm⟩

theorem inserted_sample (level : GyLevel) {p : PaddedAvp} {rest : List UInt8}
    (hlen : (p.bytes ++ rest).length < 512) :
    Inserted p level (sampleArea level rest) (sampleArea level (p.bytes ++ rest)) := by
  have hhere : InsertedHere p rest (p.bytes ++ rest) := ⟨[], rest, rfl, rfl⟩
  have himage : ∀ (c : AvpCode) (data : List UInt8),
      (mandatory c data).image.length = 8 + data.length := fun c data =>
    (mandatory c data).image_length.trans (mandatory_length c data)
  have hshort : rest.length < 512 := by
    rw [List.length_append] at hlen
    omega
  cases level with
  | message => exact hhere
  | subscriptionId | mscc => exact insideGroup_mandatory (by omega) (by omega) hhere
  | usedServiceUnit | grantedServiceUnit =>
      refine insideGroup_mandatory ?_ ?_ (insideGroup_mandatory (by omega) (by omega) hhere)
      · rw [himage]
        omega
      · rw [himage]
        omega

/-- What is extracted from some AVPs. -/
def extracted (avps : List UInt8) : Option (GyMessage × List (List UInt8)) :=
  match parseGy { avps := .whole avps } with
  | .ok (_, gy) => some gy.text
  | .error _ => none

/-- The sample for a code that the level reads is taken. -/
theorem sample_taken (level : GyLevel) (c : AvpCode) (hc : c ∈ level.reads) :
    extracted (sampleArea level (sampleRest level c)) ≠
      extracted (sampleArea level ((sampleVendor c).bytes ++ sampleRest level c)) := by
  revert c
  cases level <;> decide +kernel

theorem sample_length (level : GyLevel) (c : AvpCode) :
    ((sampleVendor c).bytes ++ sampleRest level c).length < 512 := by
  cases level <;> cases c <;> decide

/-- What is extracted is the same with other AVPs. -/
def SameExtraction (hdr : DiameterHeader) (avps' : Span) (msgLength' : UInt32) : Prop :=
  ∃ st gy gy', parseGy hdr = .ok (st, gy) ∧
    parseGy { hdr with avps := avps', msgLength := msgLength' } = .ok (st, gy') ∧ SameText gy gy'

theorem sameExtraction_of_twin {hdr : DiameterHeader} {avps' : Span} {msgLength' : UInt32}
    (h : Twin (fun r r' => r.1 = r'.1 ∧ SameText r.2 r'.2) (parseGy hdr)
      (parseGy { hdr with avps := avps', msgLength := msgLength' })) :
    SameExtraction hdr avps' msgLength' := by
  obtain ⟨⟨st, gy⟩, hread, -⟩ := parseGy_views (ViewOf.somewhere hdr.avps)
  obtain ⟨⟨st', gy'⟩, hread', rfl, hsame⟩ := h.of_ok hread
  exact ⟨_, gy, gy', hread, hread', hsame⟩

/-- What is extracted stays the same when any vendor-specific AVP with this code is put
into any message at this level. -/
def Ignored (level : GyLevel) (code : UInt32) : Prop :=
  ∀ (hdr : DiameterHeader) (v : VendorAvp) (avps' : Span) (msgLength' : UInt32),
    v.item.code = code → Inserted v.toPaddedAvp level hdr.avps.bytes avps'.bytes →
    SameExtraction hdr avps' msgLength'

/-- **Vendor-specific AVPs are ignored where their code is not read.**  At each level of a
message, the codes of vendor-specific AVPs that make no difference to what is extracted
are those that the `switch` of the level has no case for.  One AVP of another vendor makes
no difference if its code is such, or if it is put into a block behind the eighth. -/
theorem vendor_avps_ignored_iff (level : GyLevel) :
    (∀ code, Ignored level code ↔ Unread level code) ∧
    ∀ (hdr : DiameterHeader) (v : VendorAvp) (avps' : Span) (msgLength' : UInt32),
      Inserted v.toPaddedAvp level hdr.avps.bytes avps'.bytes ∧ Unread level v.item.code ∨
        InsertedLate v.toPaddedAvp level hdr.avps.bytes avps'.bytes →
      SameExtraction hdr avps' msgLength' := by
  refine ⟨fun code => ⟨?_, ?_⟩, ?_⟩
  · rintro hignored c hc rfl
    have hins := inserted_sample level (sample_length level c)
    obtain ⟨st, gy, gy', hread, hread', hsame⟩ := hignored
      { avps := .whole (sampleArea level (sampleRest level c)) } (sampleVendor c)
      (.whole (sampleArea level ((sampleVendor c).bytes ++ sampleRest level c))) 0 rfl hins
    apply sample_taken level c hc
    rw [extracted, extracted, hread, hread']
    exact congrArg some hsame.text_eq
  · intro hunread hdr v avps' msgLength' hcode hins
    exact sameExtraction_of_twin (parseGy_inserted (hcode ▸ hunread) hins)
  · rintro hdr v avps' msgLength' (⟨hins, hunread⟩ | hlate)
    · exact sameExtraction_of_twin (parseGy_inserted hunread hins)
    · exact sameExtraction_of_twin (parseGy_insertedLate hlate)

/-- The AVPs of a message with one block, for rating group 7. -/
def ratedBlock : List UInt8 :=
  (mandatory .multipleServicesCreditControl (mandatory .ratingGroup [0, 0, 0, 7]).image).image

/-- The same with an AVP of vendor 10415 in the block that has the code 432 of
Rating-Group, and the value 9. -/
def vendorRatedBlock : List UInt8 :=
  (mandatory .multipleServicesCreditControl ((mandatory .ratingGroup [0, 0, 0, 7]).image ++
    (sampleVendor .ratingGroup).bytes)).image

/-- The rating group of the first block. -/
def firstRatingGroup (avps : List UInt8) : Option UInt32 :=
  match parseGy { avps := .whole avps } with
  | .ok (_, gy) => gy.mscc.toList.head?.map MsccInfo.ratingGroup
  | .error _ => none

/-- The usage of rating group 7 is charged to the number that another vendor's AVP holds. -/
theorem vendor_rating_group_taken :
    Inserted (sampleVendor .ratingGroup).toPaddedAvp .mscc ratedBlock vendorRatedBlock ∧
    firstRatingGroup ratedBlock = some 7 ∧ firstRatingGroup vendorRatedBlock = some 9 := by
  have hhere : InsertedHere (sampleVendor .ratingGroup).toPaddedAvp
      (mandatory .ratingGroup [0, 0, 0, 7]).image
      ((mandatory .ratingGroup [0, 0, 0, 7]).image ++ (sampleVendor .ratingGroup).bytes) :=
    ⟨[⟨mandatory .ratingGroup [0, 0, 0, 7], [], mandatory_wf (by decide), by decide⟩], [],
      by decide, by decide⟩
  exact ⟨insideGroup_mandatory (by decide) (by decide) hhere, by decide +kernel, by decide +kernel⟩

end Samples
end GtpMeter
