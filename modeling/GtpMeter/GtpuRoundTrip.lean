import GtpMeter.GtpuGrammar
import GtpMeter.Synth
import Mathlib.Data.List.Forall2

/-!
# GTP-U decode inverts encode

What `build_gtpu` writes is a PDU of the grammar, so the parser accepts it; its header
then says what the spec says.

**Results.**
* `encodes_bytes`: the bytes of the builder's loop are those of a chain of links.
* `built_pdu`: a built PDU is a PDU of the grammar.
* `parseGtpu_buildGtpu`: the round trip.
-/

namespace GtpMeter

open Synth

section Links

/-- The header that the builder makes of a type and a content. -/
def paddedContent (content : List UInt8) : List UInt8 :=
  content ++ padZeros (content.length + 2)

/-- The link that an extension header of a spec becomes. -/
structure Encodes (e : UInt8 × List UInt8) (l : ExtLink) : Prop where
  type_eq : l.type = e.1
  content_eq : l.content = paddedContent e.2

theorem encodes_exists {e : UInt8 × List UInt8} (hne : e.1 ≠ GtpuExtType.none.code)
    (hle : (paddedContent e.2).length + 2 ≤ 1020) : ∃ l, Encodes e l := by
  have hmod : ((paddedContent e.2).length + 2) % 4 = 0 := by
    have := padZeros_aligned (e.2.length + 2)
    rw [paddedContent, List.length_append]
    omega
  have hunits : (UInt8.ofNat (((paddedContent e.2).length + 2) / 4)).toNat =
      ((paddedContent e.2).length + 2) / 4 := by
    rw [UInt8.toNat_ofNat']
    omega
  refine ⟨⟨e.1, UInt8.ofNat (((paddedContent e.2).length + 2) / 4), paddedContent e.2, hne, ?_,
    ?_⟩, rfl, rfl⟩
  · intro hzero
    rw [hzero] at hunits
    have : (0 : UInt8).toNat = 0 := rfl
    omega
  · rw [hunits]
    omega

theorem encodes_all {chain : List (UInt8 × List UInt8)}
    (hne : ∀ e ∈ chain, e.1 ≠ GtpuExtType.none.code)
    (hle : ∀ e ∈ chain, (paddedContent e.2).length + 2 ≤ 1020) :
    ∃ links, List.Forall₂ Encodes chain links := by
  induction chain with
  | nil => exact ⟨[], .nil⟩
  | cons e chain ih =>
      obtain ⟨l, hl⟩ := encodes_exists (hne e (by simp)) (hle e (by simp))
      obtain ⟨links, hlinks⟩ := ih (fun e' he => hne e' (by simp [he]))
        (fun e' he => hle e' (by simp [he]))
      exact ⟨l :: links, .cons hl hlinks⟩

theorem encodes_type {chain : List (UInt8 × List UInt8)} {links : List ExtLink}
    (h : List.Forall₂ Encodes chain links) : chainType links = nextExtType chain := by
  cases h with
  | nil => rfl
  | cons hl _ => exact hl.type_eq

/-- The bytes of the builder's loop are the bytes of the chain. -/
theorem encodes_bytes {chain : List (UInt8 × List UInt8)} {links : List ExtLink}
    (h : List.Forall₂ Encodes chain links) : extBytes chain = chainBytes links := by
  induction h with
  | nil => rfl
  | @cons e l chain links hl hrest ih =>
      have hunits : UInt8.ofNat (((paddedContent e.2).length + 2) / 4) = l.units := by
        rw [← hl.content_eq, l.length_eq, Nat.mul_div_cancel _ (by decide), UInt8.ofNat_toNat]
      rw [extBytes, chainBytes, ih, ← encodes_type hrest, hl.content_eq, ← hunits]
      simp [paddedContent]

/-- Headers of other types hold no container. -/
theorem encodes_no_container {chain : List (UInt8 × List UInt8)} {links : List ExtLink}
    (h : List.Forall₂ Encodes chain links)
    (hne : ∀ e ∈ chain, e.1 ≠ GtpuExtType.pduSessionContainer.code) :
    links.filter ExtLink.isContainer = [] := by
  induction h with
  | nil => rfl
  | @cons e l chain links hl _ ih =>
      have hl' : l.isContainer = false := by
        simpa [ExtLink.isContainer, hl.type_eq] using hne e (by simp)
      rw [List.filter_cons_of_neg (by simp [hl'])]
      exact ih (fun e' he => hne e' (by simp [he]))

theorem encodes_snoc {chain : List (UInt8 × List UInt8)} {e : UInt8 × List UInt8}
    {links : List ExtLink} (h : List.Forall₂ Encodes (chain ++ [e]) links) :
    ∃ links₁ l, links = links₁ ++ [l] ∧ List.Forall₂ Encodes chain links₁ ∧ Encodes e l := by
  induction chain generalizing links with
  | nil =>
      obtain ⟨l, hl, rfl⟩ : ∃ l, Encodes e l ∧ links = [l] := by
        cases h with
        | cons hl hnil =>
            cases hnil
            exact ⟨_, hl, rfl⟩
      exact ⟨[], l, rfl, .nil, hl⟩
  | cons e' chain ih =>
      cases h with
      | cons hl' hrest =>
          obtain ⟨links₁, l, rfl, hinit, hl⟩ := ih hrest
          exact ⟨_ :: links₁, l, rfl, .cons hl' hinit, hl⟩

end Links

section Spec

variable {spec : GtpuSpec} {payload : List UInt8} {links : List ExtLink} {s : Span}

/-- The content of the PDU Session Container of a spec. -/
def containerHead (spec : GtpuSpec) : UInt8 × UInt8 :=
  (spec.pduType <<< 4, (if spec.rqi then 0x40 else 0x00) ||| (spec.qfi &&& 0x3F))

theorem lastContainer_spec (h : List.Forall₂ Encodes spec.chain links)
    (hne : ∀ e ∈ spec.extraExt, e.1 ≠ GtpuExtType.pduSessionContainer.code) :
    (lastContainer links).map ExtLink.head =
      if spec.withQfi then some (containerHead spec) else none := by
  unfold GtpuSpec.chain at h
  cases hqfi : spec.withQfi with
  | false =>
      rw [hqfi, if_neg Bool.false_ne_true] at h
      simp [lastContainer, encodes_no_container h hne]
  | true =>
      rw [hqfi, if_pos rfl] at h
      obtain ⟨links₁, l, rfl, hinit, hl⟩ := encodes_snoc h
      have hl' : l.isContainer = true := by simp [ExtLink.isContainer, hl.type_eq]
      have hhead : l.head = containerHead spec := by
        rw [ExtLink.head, hl.content_eq]
        rfl
      simp [lastContainer, encodes_no_container hinit hne, hl', hhead]

theorem gtpuFlags_bits (e q p : Bool) :
    gtpuFlags e q p >>> 5 = 1 ∧ gtpuFlags e q p &&& 0x10 ≠ 0 ∧
      (gtpuFlags e q p &&& 0x04 != 0) = e ∧ (gtpuFlags e q p &&& 0x02 != 0) = q ∧
      (gtpuFlags e q p &&& 0x01 != 0) = p := by
  revert e q p
  decide

theorem extBytes_isEmpty (chain : List (UInt8 × List UInt8)) :
    (extBytes chain).isEmpty = chain.isEmpty := by
  cases chain with
  | nil => rfl
  | cons e chain => rfl

/-- The mandatory header of a built PDU. -/
theorem built_fixed (hs : s.bytes = buildGtpu spec payload) :
    s.Has 0
      ([gtpuFlags (!(extBytes spec.chain).isEmpty) spec.withSeq spec.withNpdu, spec.msgType] ++
        be16Bytes (UInt16.ofNat (spec.bodyLen payload)) ++ be32Bytes spec.teid) := by
  rw [Span.Has.zero_iff, hs, buildGtpu, List.append_assoc]
  exact List.prefix_append _ _

/-- The optional block and the chain of a built PDU. -/
theorem built_optional (hs : s.bytes = buildGtpu spec payload) (hopt : spec.hasOptional = true) :
    s.Has 8
      (be16Bytes spec.seq ++ [spec.npdu, nextExtType spec.chain] ++ extBytes spec.chain) := by
  refine Span.Has.of_append
    ([gtpuFlags (!(extBytes spec.chain).isEmpty) spec.withSeq spec.withNpdu, spec.msgType] ++
      be16Bytes (UInt16.ofNat (spec.bodyLen payload)) ++ be32Bytes spec.teid) payload ?_
  rw [hs, buildGtpu, if_pos hopt]

theorem built_flag (hs : s.bytes = buildGtpu spec payload) :
    gtpuFlag s 0x04 = !(extBytes spec.chain).isEmpty ∧ gtpuFlag s 0x02 = spec.withSeq ∧
      gtpuFlag s 0x01 = spec.withNpdu := by
  have hbyte := (built_fixed hs).byte_eq (j := 0) rfl
  rw [Nat.zero_add] at hbyte
  simp only [gtpuFlag, hbyte]
  exact (gtpuFlags_bits _ _ _).2.2

theorem built_hasOptional (hs : s.bytes = buildGtpu spec payload) :
    gtpuOptional s = spec.hasOptional := by
  obtain ⟨hext, hseq, hnpdu⟩ := built_flag hs
  rw [gtpuOptional, hext, hseq, hnpdu, GtpuSpec.hasOptional, Bool.or_assoc, Bool.or_comm]

theorem built_extended (hs : s.bytes = buildGtpu spec payload)
    (hne : ∀ e ∈ spec.chain, e.1 ≠ GtpuExtType.none.code) :
    gtpuExtended s = !spec.chain.isEmpty := by
  obtain ⟨hflag, -⟩ := built_flag hs
  rw [gtpuExtended, hflag, extBytes_isEmpty]
  cases hchain : spec.chain with
  | nil => rfl
  | cons e chain =>
      have hopt : spec.hasOptional = true := by
        simp [GtpuSpec.hasOptional, extBytes_isEmpty, hchain]
      have hbyte : s.byte 11 = nextExtType spec.chain :=
        (built_optional hs hopt).byte_eq (j := 3) rfl
      have htype : nextExtType spec.chain ≠ GtpuExtType.none.code := by
        rw [hchain]
        exact hne e (by simp [hchain])
      simp [hbyte, htype]

theorem built_length (hs : s.bytes = buildGtpu spec payload)
    (hlen : spec.bodyLen payload ≤ 65535) : gtpuLength s = spec.bodyLen payload := by
  have h2 := (built_fixed hs).byte_eq (j := 2) rfl
  have h3 := (built_fixed hs).byte_eq (j := 3) rfl
  rw [Nat.zero_add] at h2 h3
  rw [gtpuLength, h2, h3, be16_be16Bytes, UInt16.toNat_ofNat']
  omega

/-- What comes before the payload of a built PDU. -/
def builtHeader (spec : GtpuSpec) (payload : List UInt8) : List UInt8 :=
  [gtpuFlags (!(extBytes spec.chain).isEmpty) spec.withSeq spec.withNpdu, spec.msgType] ++
    be16Bytes (UInt16.ofNat (spec.bodyLen payload)) ++ be32Bytes spec.teid ++
    (if spec.hasOptional then
      be16Bytes spec.seq ++ [spec.npdu, nextExtType spec.chain] ++ extBytes spec.chain
    else [])

theorem builtHeader_length (spec : GtpuSpec) (payload : List UInt8) :
    (builtHeader spec payload).length =
      8 + (if spec.hasOptional then 4 else 0) + (extBytes spec.chain).length := by
  unfold builtHeader
  cases hopt : spec.hasOptional with
  | false =>
      have hext : extBytes spec.chain = [] := by
        simp only [GtpuSpec.hasOptional, Bool.or_eq_false_iff, Bool.not_eq_false',
          List.isEmpty_iff] at hopt
        exact hopt.2
      rw [hext]
      rfl
  | true =>
      simp only [if_true, List.length_append, be16Bytes, be32Bytes, List.length_cons,
        List.length_nil]
      omega

theorem built_size (hs : s.bytes = buildGtpu spec payload) :
    s.size = 8 + spec.bodyLen payload := by
  have hsplit : buildGtpu spec payload = builtHeader spec payload ++ payload := rfl
  have hopt : kGtpuOptionalFieldsLen = 4 := rfl
  rw [Span.size, hs, hsplit, List.length_append, builtHeader_length, GtpuSpec.bodyLen,
    hopt]
  omega

/-- What the builder makes is a PDU of the grammar. -/
theorem built_pdu (hs : s.bytes = buildGtpu spec payload) (h : List.Forall₂ Encodes spec.chain links)
    (hne : ∀ e ∈ spec.chain, e.1 ≠ GtpuExtType.none.code) (hmax : spec.chain.length ≤ 16)
    (hlen : spec.bodyLen payload ≤ 65535) : GtpuPdu s links := by
  have hfixed := built_fixed hs
  have hbyte := hfixed.byte_eq (j := 0) rfl
  rw [Nat.zero_add] at hbyte
  have hsize := built_size hs
  have hlength := built_length hs hlen
  have hbits := gtpuFlags_bits (!(extBytes spec.chain).isEmpty) spec.withSeq spec.withNpdu
  refine ⟨by omega, by rw [hbyte]; exact hbits.1, by rw [hbyte]; exact hbits.2.1, by omega, ?_,
    ?_, ?_⟩
  · intro hopt
    rw [built_hasOptional hs] at hopt
    have hfour : kGtpuOptionalFieldsLen = 4 := rfl
    rw [hlength, GtpuSpec.bodyLen, if_pos hopt]
    omega
  · intro hext
    rw [built_extended hs hne] at hext
    have hchain : spec.chain ≠ [] := by simpa using hext
    have hopt : spec.hasOptional = true := by
      simp [GtpuSpec.hasOptional, extBytes_isEmpty, hchain]
    have hcount := h.length_eq
    refine ⟨?_, ?_, ?_, ?_⟩
    · rw [← hcount]
      exact List.length_pos_iff.mpr hchain
    · rw [← hcount]
      exact hmax
    · rw [encodes_type h]
      exact ((built_optional hs hopt).byte_eq (j := 3) rfl).symm
    · have hat := (Span.Has.append_iff.mp (built_optional hs hopt)).2.bytes_eq
      have hroom : (extBytes spec.chain).length ≤ spec.bodyLen payload - 4 := by
        have hfour : kGtpuOptionalFieldsLen = 4 := rfl
        rw [GtpuSpec.bodyLen, if_pos hopt]
        omega
      rw [hlength, ← encodes_bytes h, List.prefix_iff_eq_take, List.take_take,
        Nat.min_eq_left hroom]
      exact hat.symm
  · intro hext
    rw [built_extended hs hne] at hext
    have hchain : spec.chain = [] := by simpa using hext
    rw [hchain] at h
    cases h
    rfl

/-- Container fields survive the packing into nibbles and bits. -/
theorem containerHead_fields (hqfi : spec.qfi.toNat < 64) (hpdu : spec.pduType.toNat < 16) :
    (containerHead spec).2 &&& 0x3F = spec.qfi ∧ (containerHead spec).1 >>> 4 = spec.pduType ∧
      ((containerHead spec).2 &&& 0x40 != 0) = spec.rqi := by
  have hbits : ∀ (q : Fin 64) (r : Bool),
      ((if r then 0x40 else 0x00) ||| (UInt8.ofNat q.val &&& 0x3F)) &&& 0x3F =
        UInt8.ofNat q.val ∧
      (((if r then 0x40 else 0x00) ||| (UInt8.ofNat q.val &&& 0x3F)) &&& 0x40 != 0) = r := by
    decide +kernel
  have hnibble : ∀ n : Fin 16, (UInt8.ofNat n.val <<< 4) >>> 4 = UInt8.ofNat n.val := by
    decide +kernel
  have hq := hbits ⟨spec.qfi.toNat, hqfi⟩ spec.rqi
  have hp := hnibble ⟨spec.pduType.toNat, hpdu⟩
  simp only [UInt8.ofNat_toNat] at hq hp
  exact ⟨hq.1, hp, hq.2⟩

/-- What a decoded header has from the spec it was built from. -/
structure DecodesTo (spec : GtpuSpec) (payload : List UInt8) (h : GtpuHeader) : Prop where
  teid_eq : h.teid = spec.teid
  msgType_eq : h.msgType = spec.msgType
  hasSeq_eq : h.hasSeq = spec.withSeq
  seq_eq : spec.withSeq = true → h.seq = spec.seq
  hasNpdu_eq : h.hasNpdu = spec.withNpdu
  npdu_eq : spec.withNpdu = true → h.npdu = spec.npdu
  hasQfi_eq : h.hasQfi = spec.withQfi
  qfi_eq : spec.withQfi = true → h.qfi = spec.qfi
  pduType_eq : spec.withQfi = true → h.pduType = spec.pduType
  rqi_eq : h.rqi = (spec.withQfi && spec.rqi && spec.pduType == 0)
  extCount_eq : h.extCount.toNat = spec.chain.length
  payload_eq : h.payload.bytes = payload

theorem built_payload (hs : s.bytes = buildGtpu spec payload)
    (h : List.Forall₂ Encodes spec.chain links) (hlen : spec.bodyLen payload ≤ 65535) :
    (pduHeader s links).payload.bytes = payload := by
  have hsplit : s.bytes = builtHeader spec payload ++ payload := hs
  have hhead : gtpuHeaderLen s links = (builtHeader spec payload).length := by
    rw [builtHeader_length, gtpuHeaderLen, built_hasOptional hs, ← chainBytes_length,
      encodes_bytes h]
  have hcount : 8 + gtpuLength s - gtpuHeaderLen s links = payload.length := by
    have hfour : kGtpuOptionalFieldsLen = 4 := rfl
    rw [built_length hs hlen, hhead, builtHeader_length, GtpuSpec.bodyLen, hfour]
    omega
  simp only [pduHeader, cutPayload]
  rw [hcount, hhead, hsplit, List.drop_left, List.take_length]

theorem built_container (h : List.Forall₂ Encodes spec.chain links) (hp : GtpuPdu s links)
    (hne : ∀ e ∈ spec.extraExt, e.1 ≠ GtpuExtType.pduSessionContainer.code) :
    (pduHeader s links).hasQfi = spec.withQfi ∧
      (spec.withQfi = true →
        (pduHeader s links).qfi = (containerHead spec).2 &&& 0x3F ∧
        (pduHeader s links).pduType = (containerHead spec).1 >>> 4 ∧
        (pduHeader s links).rqi = ((containerHead spec).1 >>> 4 == 0 &&
          (containerHead spec).2 &&& 0x40 != 0)) ∧
      (spec.withQfi = false → (pduHeader s links).rqi = false) := by
  obtain ⟨hhas, hsome, hnone⟩ := pduHeader_container hp
  have hlast := lastContainer_spec h hne
  refine ⟨?_, ?_, ?_⟩
  · rw [hhas, ← Option.isSome_map, hlast]
    cases spec.withQfi with
    | false => rfl
    | true => rfl
  · intro hqfi
    rw [hqfi, if_pos rfl] at hlast
    obtain ⟨l, hl, hhead⟩ := Option.map_eq_some_iff.mp hlast
    rw [← hhead]
    exact hsome l hl
  · intro hqfi
    rw [hqfi, if_neg Bool.false_ne_true] at hlast
    exact (hnone (Option.map_eq_none_iff.mp hlast)).2.2

theorem built_decodes (hs : s.bytes = buildGtpu spec payload)
    (h : List.Forall₂ Encodes spec.chain links) (hp : GtpuPdu s links)
    (hqfi : spec.qfi.toNat < 64) (hpdu : spec.pduType.toNat < 16)
    (hne : ∀ e ∈ spec.extraExt, e.1 ≠ GtpuExtType.pduSessionContainer.code)
    (hlen : spec.bodyLen payload ≤ 65535) : DecodesTo spec payload (pduHeader s links) := by
  have hbyte : ∀ (j : Nat) (b : UInt8), _ → s.byte (0 + j) = b :=
    fun j b hj => (built_fixed hs).byte_eq (j := j) hj
  simp only [Nat.zero_add] at hbyte
  obtain ⟨hteid, htype, -⟩ := pduHeader_fixed s links
  obtain ⟨hseq, hnpdu, hoptional⟩ := pduHeader_optional s links
  obtain ⟨-, hflag2, hflag1⟩ := built_flag hs
  obtain ⟨hhas, hcontainer, hbare⟩ := built_container h hp hne
  obtain ⟨hbits, hnibble, hrqi⟩ := containerHead_fields hqfi hpdu
  have hblock : spec.hasOptional = true →
      (pduHeader s links).seq = spec.seq ∧ (pduHeader s links).npdu = spec.npdu := by
    intro hopt
    have hat := built_optional hs hopt
    obtain ⟨hs', hn'⟩ := hoptional (by rw [built_hasOptional hs]; exact hopt)
    rw [hs', hn', ← be16_be16Bytes spec.seq]
    exact ⟨congrArg₂ be16 (hat.byte_eq (j := 0) rfl) (hat.byte_eq (j := 1) rfl),
      hat.byte_eq (j := 2) rfl⟩
  exact {
    teid_eq := by
      rw [hteid, hbyte 4 _ rfl, hbyte 5 _ rfl, hbyte 6 _ rfl, hbyte 7 _ rfl, be32_be32Bytes]
    msgType_eq := by rw [htype, hbyte 1 _ rfl]
    hasSeq_eq := hseq.trans hflag2
    seq_eq := fun hw => (hblock (by simp [GtpuSpec.hasOptional, hw])).1
    hasNpdu_eq := hnpdu.trans hflag1
    npdu_eq := fun hw => (hblock (by simp [GtpuSpec.hasOptional, hw])).2
    hasQfi_eq := hhas
    qfi_eq := fun hw => (hcontainer hw).1.trans hbits
    pduType_eq := fun hw => (hcontainer hw).2.1.trans hnibble
    rqi_eq := by
      cases hw : spec.withQfi with
      | false => exact hbare hw
      | true => rw [(hcontainer hw).2.2, hnibble, hrqi, Bool.true_and, Bool.and_comm]
    extCount_eq := (pduHeader_extCount hp).trans h.length_eq.symm
    payload_eq := built_payload hs h hlen }

/-- What the round trip asks of a spec. -/
structure Encodable (spec : GtpuSpec) : Prop where
  qfi_lt : spec.qfi.toNat < 64
  pduType_lt : spec.pduType.toNat < 16
  type_ne : ∀ e ∈ spec.extraExt, e.1 ≠ GtpuExtType.none.code
  type_ne_container : ∀ e ∈ spec.extraExt, e.1 ≠ GtpuExtType.pduSessionContainer.code
  units_le : ∀ e ∈ spec.extraExt, (paddedContent e.2).length + 2 ≤ 1020
  count_le : spec.chain.length ≤ 16

/-- The conditions hold of the whole chain, the PDU Session Container included. -/
theorem Encodable.chain (he : Encodable spec) :
    ∀ e ∈ spec.chain, e.1 ≠ GtpuExtType.none.code ∧ (paddedContent e.2).length + 2 ≤ 1020 := by
  intro e hmem
  unfold GtpuSpec.chain at hmem
  cases hqfi : spec.withQfi with
  | false =>
      rw [hqfi, if_neg Bool.false_ne_true] at hmem
      exact ⟨he.type_ne e hmem, he.units_le e hmem⟩
  | true =>
      rw [hqfi, if_pos rfl] at hmem
      rcases List.mem_append.mp hmem with hmem | hmem
      · exact ⟨he.type_ne e hmem, he.units_le e hmem⟩
      · obtain rfl := List.mem_singleton.mp hmem
        exact ⟨by simp [GtpuExtType.code], by simp [paddedContent, padZeros]⟩

theorem built_accepted (hs : s.bytes = buildGtpu spec payload) (he : Encodable spec)
    (hlen : spec.bodyLen payload ≤ 65535) :
    ∃ h, parseGtpu s = .ok (.ok, h) ∧ DecodesTo spec payload h := by
  have hchain := he.chain
  obtain ⟨links, hlinks⟩ := encodes_all (fun e hmem => (hchain e hmem).1)
    (fun e hmem => (hchain e hmem).2)
  have hp : GtpuPdu s links :=
    built_pdu hs hlinks (fun e hmem => (hchain e hmem).1) he.count_le hlen
  exact ⟨_, parseGtpu_of_pdu hp,
    built_decodes hs hlinks hp he.qfi_lt he.pduType_lt he.type_ne_container hlen⟩

/-- **GTP-U decode inverts encode.** -/
theorem parseGtpu_buildGtpu (spec : GtpuSpec) (payload : List UInt8) (he : Encodable spec)
    (hlen : spec.bodyLen payload ≤ 65535) :
    ∃ h, parseGtpu (.whole (buildGtpu spec payload)) = .ok (.ok, h) ∧
      DecodesTo spec payload h :=
  built_accepted rfl he hlen

/-- A sequence number, a header whose content is padded, and a PDU Session Container. -/
def sampleSpec : GtpuSpec where
  teid := 0xA1B2C3D4
  withSeq := true
  seq := 0x1234
  withQfi := true
  qfi := 9
  pduType := 1
  extraExt := [(0xC0, [1, 2, 3])]

theorem sampleSpec_encodable : Encodable sampleSpec where
  qfi_lt := by decide
  pduType_lt := by decide
  type_ne := by decide
  type_ne_container := by decide
  units_le := by decide
  count_le := by decide

theorem parseGtpu_buildGtpu_sample :
    ∃ h, parseGtpu (.whole (buildGtpu sampleSpec [0x45, 0x00, 0x7F])) = .ok (.ok, h) ∧
      h.teid = 0xA1B2C3D4 ∧ h.seq = 0x1234 ∧ h.qfi = 9 ∧ h.extCount.toNat = 2 ∧
      h.payload.bytes = [0x45, 0x00, 0x7F] := by
  obtain ⟨h, hparse, hdec⟩ :=
    parseGtpu_buildGtpu sampleSpec [0x45, 0x00, 0x7F] sampleSpec_encodable (by decide)
  exact ⟨h, hparse, hdec.teid_eq, hdec.seq_eq rfl, hdec.qfi_eq rfl, hdec.extCount_eq,
    hdec.payload_eq⟩

end Spec
end GtpMeter
