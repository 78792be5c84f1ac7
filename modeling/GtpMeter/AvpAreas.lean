import GtpMeter.Synth

/-!
# Areas of AVPs

`put_avp` writes an AVP, `for_each_avp` walks over an area of them.  An area on which
the walk succeeds is a list of AVPs, each followed by its padding; the walk is then the
fold of its callback over that list.

**Results.**
* `readAvp_image`, `image_of_readAvp`: reading one AVP.
* `forEachAvp_area`: the walk over an area is the fold over its AVPs.
* `area_of_forEachAvp`: where a walk succeeds there is such a list.
* `forEachAvp_putAvps`: the walk over what `put_avp` has written.
-/

namespace GtpMeter

open Synth

section Items

/-- What an AVP says. -/
structure AvpItem where
  code : UInt32
  flags : UInt8
  vendorId : UInt32
  data : List UInt8
deriving DecidableEq

namespace AvpItem

variable (a : AvpItem)

def vendorSpecific : Bool :=
  a.flags &&& kAvpFlagVendor != 0

def headerLen : Nat :=
  if a.vendorSpecific then 12 else 8

/-- Without padding. -/
def length : Nat :=
  a.headerLen + a.data.length

def padLen : Nat :=
  (4 - a.length % 4) % 4

/-- With padding. -/
def size : Nat :=
  a.length + a.padLen

/-- Only a vendor-specific AVP has a vendor id, and the length fits its field. -/
structure Wf : Prop where
  vendor_zero : a.vendorSpecific = false → a.vendorId = 0
  length_lt : a.length < 16777216

/-- The bytes of the AVP without padding. -/
def image : List UInt8 :=
  be32Bytes a.code ++ [a.flags] ++ be24Bytes (UInt32.ofNat a.length) ++
    (if a.vendorSpecific then be32Bytes a.vendorId else []) ++ a.data

theorem image_length : a.image.length = a.length := by
  unfold image length headerLen
  cases a.vendorSpecific with
  | false =>
      simp only [List.length_append, be32Bytes, be24Bytes, List.length_cons, List.length_nil,
        Bool.false_eq_true, if_false]
  | true =>
      simp only [List.length_append, be32Bytes, be24Bytes, List.length_cons, List.length_nil,
        if_true]

theorem headerLen_ge : 8 ≤ a.headerLen := by
  unfold headerLen
  split <;> omega

theorem size_ge : 8 ≤ a.size := by
  have := a.headerLen_ge
  simp only [size, length]
  omega

/-- The AVP as the walk sees it, at place `pos` of the buffer. -/
def placed (pos : Nat) : Avp where
  data := ⟨pos + a.headerLen, a.data⟩
  code := a.code
  vendorId := a.vendorId
  length := UInt32.ofNat a.length
  flags := a.flags

end AvpItem

/-- What an AVP of a walk says. -/
def Avp.item (avp : Avp) : AvpItem where
  code := avp.code
  flags := avp.flags
  vendorId := avp.vendorId
  data := avp.data.bytes

@[simp] theorem AvpItem.placed_item (a : AvpItem) (pos : Nat) : (a.placed pos).item = a :=
  rfl

theorem ofCode_placed {a : AvpItem} {c : AvpCode} (h : a.code = c.code) (pos : Nat) :
    AvpCode.ofCode (a.placed pos).code = some c :=
  AvpCode.ofCode_eq_some_iff.mpr h

variable {a : AvpItem} {area : Span} {off : Nat}

theorem placed_length (h : a.Wf) (pos : Nat) : (a.placed pos).length.toNat = a.length := by
  have hlt := h.length_lt
  simp only [AvpItem.placed, UInt32.toNat_ofNat']
  omega

theorem placed_advance (h : a.Wf) (pos : Nat) :
    (a.placed pos).advance = a.size := by
  have hlt := h.length_lt
  have hlen := placed_length h pos
  rw [Avp.advance, UInt32.toNat_add, hlen, AvpItem.size, AvpItem.padLen]
  simp only [UInt32.reduceToNat, Nat.reducePow]
  omega

section Put

/-- `put_avp` on a buffer whose size is a multiple of 4. -/
theorem putAvp_eq {out : List UInt8} (hout : out.length % 4 = 0) :
    putAvp out a.code a.data a.flags a.vendorId =
      out ++ (a.image ++ List.replicate a.padLen 0) := by
  have hlen : (if a.vendorSpecific then 12 else 8 : UInt32) + UInt32.ofNat a.data.length =
      UInt32.ofNat a.length := by
    unfold AvpItem.length AvpItem.headerLen
    cases a.vendorSpecific with
    | false => exact (UInt32.ofNat_add 8 _).symm
    | true => exact (UInt32.ofNat_add 12 _).symm
  have himage : out ++ be32Bytes a.code ++ [a.flags] ++ be24Bytes (UInt32.ofNat a.length) ++
      (if a.vendorSpecific then be32Bytes a.vendorId else []) ++ a.data = out ++ a.image := by
    simp [AvpItem.image]
  have hpad : padZeros (out ++ a.image).length = List.replicate a.padLen 0 := by
    rw [padZeros, List.length_append, a.image_length, AvpItem.padLen]
    congr 2
    omega
  unfold putAvp
  dsimp only
  rw [show (a.flags &&& kAvpFlagVendor != 0) = a.vendorSpecific from rfl, hlen, himage, hpad,
    List.append_assoc]

end Put

section Read

/-- The header of an AVP that is read, before its value is cut out. -/
def AvpItem.header (a : AvpItem) : Avp where
  code := a.code
  flags := a.flags
  length := UInt32.ofNat a.length

theorem header_headerLen (a : AvpItem) : a.header.headerLen = a.headerLen :=
  rfl

theorem header_length (h : a.Wf) : a.header.length.toNat = a.length :=
  placed_length h 0

/-- The value of an AVP that lies in the area. -/
theorem takeAvpData_image (hw : a.Wf) (h : area.Has off a.image) :
    takeAvpData area off a.header = .ok (some (a.placed (area.off + off))) := by
  have hfits := h.fits
  rw [a.image_length] at hfits
  have hlen := header_length hw
  have hle : a.headerLen ≤ a.length := Nat.le_add_right _ _
  have hvendor : readVendorId area off a.header = .ok a.vendorId := by
    have hspec : a.header.vendorSpecific = a.vendorSpecific := rfl
    rw [readVendorId, hspec]
    cases hv : a.vendorSpecific with
    | false =>
        rw [if_neg Bool.false_ne_true, hw.vendor_zero hv]
        rfl
    | true =>
        rw [AvpItem.image, hv, if_pos rfl] at h
        have hload : area.loadBe32 (off + 8) = .ok a.vendorId := h.load32 rfl
        rw [if_pos rfl, hload]
        rfl
  have hdata : area.subspan (off + a.headerLen) (a.length - a.headerLen) =
      .ok ⟨area.off + (off + a.headerLen), a.data⟩ := by
    have hcount : a.length - a.headerLen = a.data.length := Nat.add_sub_cancel_left _ _
    rw [hcount]
    refine h.subspan (by rw [a.image_length]; exact Nat.le_refl _) ?_
    unfold AvpItem.image AvpItem.headerLen
    cases a.vendorSpecific with
    | false => simp [be32Bytes, be24Bytes]
    | true => simp [be32Bytes, be24Bytes]
  rw [takeAvpData, header_headerLen, hlen, if_neg (by omega), if_neg (by omega), hvendor, hdata,
    ← Nat.add_assoc]
  rfl

theorem readAvp_image (hw : a.Wf) (h : area.Has off a.image) :
    readAvp area off = .ok (some (a.placed (area.off + off))) := by
  have hfits := h.fits
  have hhead := a.headerLen_ge
  rw [a.image_length, AvpItem.length] at hfits
  have hlt : (UInt32.ofNat a.length).toNat < 16777216 := by
    have := hw.length_lt
    rwa [show (UInt32.ofNat a.length).toNat = a.length from placed_length hw 0]
  have hcode : area.loadBe32 off = .ok a.code := h.load32 (j := 0) rfl
  have hflags : area.read (off + 4) = .ok a.flags := h.read rfl
  have hlength : area.loadBe24 (off + 5) = .ok (UInt32.ofNat a.length) := h.load24 hlt rfl
  rw [readAvp, if_neg (by omega), hcode, hflags, hlength]
  exact takeAvpData_image hw h

/-- The length field at `off`. -/
def avpLengthAt (area : Span) (off : Nat) : UInt32 :=
  be24 (area.byte (off + 5)) (area.byte (off + 5 + 1)) (area.byte (off + 5 + 2))

/-- The AVP that the bytes at `off` spell, if its length fits. -/
def itemAt (area : Span) (off : Nat) : AvpItem :=
  let vendor := area.byte (off + 4) &&& kAvpFlagVendor != 0
  let headerLen := if vendor then 12 else 8
  { code := be32 (area.byte off) (area.byte (off + 1)) (area.byte (off + 2)) (area.byte (off + 3))
    flags := area.byte (off + 4)
    vendorId :=
      if vendor then
        be32 (area.byte (off + 8)) (area.byte (off + 8 + 1)) (area.byte (off + 8 + 2))
          (area.byte (off + 8 + 3))
      else 0
    data := (area.bytes.drop (off + headerLen)).take
      ((avpLengthAt area off).toNat - headerLen) }

theorem itemAt_length (hmin : (itemAt area off).headerLen ≤ (avpLengthAt area off).toNat)
    (hmax : (avpLengthAt area off).toNat ≤ area.size - off) :
    (itemAt area off).length = (avpLengthAt area off).toNat := by
  have hdata : (itemAt area off).data = (area.bytes.drop (off + (itemAt area off).headerLen)).take
      ((avpLengthAt area off).toNat - (itemAt area off).headerLen) := rfl
  have hbytes : area.bytes.length = area.size := rfl
  rw [AvpItem.length, hdata, List.length_take, List.length_drop]
  omega

theorem itemAt_image (hsize : off + 8 ≤ area.size)
    (hmin : (itemAt area off).headerLen ≤ (avpLengthAt area off).toNat)
    (hmax : (avpLengthAt area off).toNat ≤ area.size - off) :
    (itemAt area off).Wf ∧ area.Has off (itemAt area off).image := by
  have hlen := itemAt_length hmin hmax
  have hlt : (avpLengthAt area off).toNat < 16777216 := by
    have h0 := (area.byte (off + 5)).toNat_lt
    have h1 := (area.byte (off + 5 + 1)).toNat_lt
    have h2 := (area.byte (off + 5 + 2)).toNat_lt
    rw [avpLengthAt, be24_toNat]
    omega
  have hhead : area.Has off (be32Bytes (itemAt area off).code ++ [(itemAt area off).flags] ++
      be24Bytes (avpLengthAt area off)) := by
    refine Span.Has.append_iff.mpr ⟨Span.Has.append_iff.mpr ⟨?_, ?_⟩, ?_⟩
    · exact Span.Has.word32 (by omega)
    · exact Span.Has.byte (i := off + 4) (by omega)
    · exact Span.Has.word24 (i := off + 5) (by omega)
  have hroom : off + (itemAt area off).headerLen +
      ((avpLengthAt area off).toNat - (itemAt area off).headerLen) ≤ area.size := by omega
  have hdata : area.Has (off + (itemAt area off).headerLen) (itemAt area off).data :=
    Span.Has.self hroom
  refine ⟨⟨?_, by rwa [hlen]⟩, ?_⟩
  · intro hv
    exact if_neg (by rw [show (area.byte (off + 4) &&& kAvpFlagVendor != 0) = false from hv]; simp)
  · rw [AvpItem.image, hlen, UInt32.ofNat_toNat]
    cases hv : (itemAt area off).vendorSpecific with
    | false =>
        rw [AvpItem.headerLen, hv] at hdata
        rw [if_neg Bool.false_ne_true, List.append_nil]
        exact Span.Has.append_iff.mpr ⟨hhead, hdata⟩
    | true =>
        have hvendor : (itemAt area off).vendorId =
            be32 (area.byte (off + 8)) (area.byte (off + 8 + 1)) (area.byte (off + 8 + 2))
              (area.byte (off + 8 + 3)) := if_pos hv
        rw [AvpItem.headerLen, hv, if_pos rfl] at hdata hmin
        rw [if_pos rfl, hvendor]
        refine Span.Has.append_iff.mpr ⟨Span.Has.append_iff.mpr ⟨hhead, ?_⟩, hdata⟩
        exact Span.Has.word32 (i := off + 8) (by omega)

/-- Where an AVP is read there is its image. -/
theorem image_of_readAvp {avp : Avp} (hoff : off ≤ area.size)
    (h : readAvp area off = .ok (some avp)) :
    ∃ a : AvpItem, a.Wf ∧ area.Has off a.image ∧ avp = a.placed (area.off + off) := by
  have hstep := h
  rw [readAvp] at hstep
  by_cases hshort : area.size - off < 8
  · rw [if_pos hshort] at hstep
    cases hstep
  rw [if_neg hshort, Span.loadBe32_eq (by omega), Span.read_eq (by omega),
    Span.loadBe24_eq (by omega)] at hstep
  simp only [bind, Except.bind, takeAvpData] at hstep
  by_cases hmin : (avpLengthAt area off).toNat < (itemAt area off).headerLen
  · rw [if_pos (by exact hmin)] at hstep
    cases hstep
  rw [if_neg (by exact hmin)] at hstep
  by_cases hmax : (avpLengthAt area off).toNat > area.size - off
  · rw [if_pos (by exact hmax)] at hstep
    cases hstep
  obtain ⟨hw, himage⟩ := itemAt_image (by omega) (Nat.le_of_not_lt hmin) (Nat.le_of_not_lt hmax)
  rw [readAvp_image hw himage] at h
  exact ⟨_, hw, himage, (Option.some.inj (Except.ok.inj h)).symm⟩

end Read

section Mandatory

/-- A mandatory AVP, as the Gy builders write them all. -/
def mandatory (c : AvpCode) (data : List UInt8) : AvpItem where
  code := c.code
  flags := kAvpFlagMandatory
  vendorId := 0
  data := data

theorem mandatory_headerLen (c : AvpCode) (data : List UInt8) : (mandatory c data).headerLen = 8 := by
  change (if kAvpFlagMandatory &&& kAvpFlagVendor != 0 then 12 else 8) = 8
  decide

theorem mandatory_length (c : AvpCode) (data : List UInt8) :
    (mandatory c data).length = 8 + data.length := by
  rw [AvpItem.length, mandatory_headerLen]
  rfl

theorem mandatory_wf {c : AvpCode} {data : List UInt8} (h : data.length < 16777208) :
    (mandatory c data).Wf where
  vendor_zero := fun _ => rfl
  length_lt := by
    rw [mandatory_length]
    omega

end Mandatory
end Items

section Areas

/-- An AVP in an area, with the bytes that pad it. -/
structure PaddedAvp where
  item : AvpItem
  pad : List UInt8
  wf : item.Wf
  pad_length : pad.length = item.padLen

namespace PaddedAvp

def bytes (p : PaddedAvp) : List UInt8 :=
  p.item.image ++ p.pad

theorem bytes_length (p : PaddedAvp) : p.bytes.length = p.item.size := by
  rw [bytes, List.length_append, p.item.image_length, p.pad_length]
  rfl

end PaddedAvp

/-- The area that holds these AVPs and nothing else. -/
def areaBytes (ps : List PaddedAvp) : List UInt8 :=
  ps.flatMap PaddedAvp.bytes

/-- What a walk over these AVPs is given, the area being at `pos`. -/
def placedItems : Nat → List AvpItem → List Avp
  | _, [] => []
  | pos, a :: items => a.placed pos :: placedItems (pos + a.size) items

theorem placedItems_item (pos : Nat) (items : List AvpItem) :
    (placedItems pos items).map Avp.item = items := by
  induction items generalizing pos with
  | nil => rfl
  | cons a items ih => simp [placedItems, ih]

variable {S : Type} {f : S → Avp → Nat → Except OutOfBounds S} {area : Span} {depth off : Nat}
  {s s' : S}

theorem has_areaBytes_cons {p : PaddedAvp} {ps : List PaddedAvp} :
    area.Has off (areaBytes (p :: ps)) ↔
      area.Has off p.bytes ∧ area.Has (off + p.item.size) (areaBytes ps) := by
  rw [areaBytes, List.flatMap_cons, Span.Has.append_iff, p.bytes_length]
  rfl

theorem areaBytes_cons_length (p : PaddedAvp) (ps : List PaddedAvp) :
    (areaBytes (p :: ps)).length = p.item.size + (areaBytes ps).length := by
  rw [areaBytes, List.flatMap_cons, List.length_append, p.bytes_length]
  rfl

/-- An AVP with room behind it, and the padding found there. -/
theorem exists_padded {a : AvpItem} (hw : a.Wf) (h : area.Has off a.image)
    (hroom : off + a.size ≤ area.size) :
    ∃ p : PaddedAvp, p.item = a ∧ area.Has off p.bytes := by
  have hsize : a.size = a.length + a.padLen := rfl
  have hpad : area.Has (off + a.length) ((area.bytes.drop (off + a.length)).take a.padLen) :=
    Span.Has.self (by omega)
  have hlen : ((area.bytes.drop (off + a.length)).take a.padLen).length = a.padLen := by
    have hbytes : area.bytes.length = area.size := rfl
    rw [List.length_take, List.length_drop]
    omega
  refine ⟨⟨a, _, hw, hlen⟩, rfl, Span.Has.append_iff.mpr ⟨h, ?_⟩⟩
  rw [a.image_length]
  exact hpad

/-- One round of the walk, at an AVP that may lack some of its padding. -/
theorem avpLoop_image {a : AvpItem} (hw : a.Wf) (h : area.Has off a.image) :
    avpLoop (visitAll f) depth area off s =
      (f s (a.placed (area.off + off)) depth >>= fun s =>
        if a.size > area.size - off then .ok (.badAvp, s)
        else avpLoop (visitAll f) depth area (off + a.size) s) := by
  have hfits := h.fits
  have hlen : 8 ≤ a.length := Nat.le_add_right_of_le a.headerLen_ge
  have hpos := a.size_ge
  have hadvance := placed_advance hw (area.off + off)
  rw [a.image_length] at hfits
  rw [avpLoop, if_pos (by omega), readAvp_image hw h]
  simp only [bind, Except.bind, visitAll]
  cases f s (a.placed (area.off + off)) depth with
  | error e => rfl
  | ok s =>
      simp only [Bool.not_true, Bool.false_eq_true, if_false, hadvance]
      by_cases hroom : a.size > area.size - off
      · rw [if_pos (.inr hroom), if_pos hroom]
      · rw [if_neg (by omega), if_neg hroom]

/-- One round of the walk. -/
theorem avpLoop_cons {p : PaddedAvp} (h : area.Has off p.bytes) :
    avpLoop (visitAll f) depth area off s =
      (f s (p.item.placed (area.off + off)) depth >>= fun s =>
        avpLoop (visitAll f) depth area (off + p.item.size) s) := by
  have hfits := h.fits
  rw [p.bytes_length] at hfits
  rw [avpLoop_image p.wf (Span.Has.append_iff.mp h).1]
  congr 1
  funext s
  rw [if_neg (by omega)]

/-- The walk over an area is the fold over its AVPs. -/
theorem avpLoop_area (ps : List PaddedAvp) (h : area.Has off (areaBytes ps))
    (hend : off + (areaBytes ps).length = area.size) :
    avpLoop (visitAll f) depth area off s =
      ((placedItems (area.off + off) (ps.map PaddedAvp.item)).foldlM
        (fun s avp => f s avp depth) s >>= fun s =>
        .ok (.ok, s)) := by
  induction ps generalizing off s with
  | nil =>
      rw [avpLoop, if_neg (by simp [areaBytes] at hend; omega)]
      rfl
  | cons p ps ih =>
      obtain ⟨hp, hrest⟩ := has_areaBytes_cons.mp h
      rw [areaBytes_cons_length] at hend
      rw [avpLoop_cons hp, List.map_cons, placedItems, List.foldlM_cons, bind_assoc]
      congr 1
      funext s
      rw [ih hrest (by omega), Nat.add_assoc]

/-- Where the walk succeeds the area is a list of AVPs. -/
theorem area_of_avpLoop (hoff : off ≤ area.size)
    (h : avpLoop (visitAll f) depth area off s = .ok (.ok, s')) :
    ∃ ps, area.Has off (areaBytes ps) ∧ off + (areaBytes ps).length = area.size := by
  induction off, s using avpLoop.induct area with
  | case1 off s hlt ih =>
      rw [avpLoop, if_pos hlt] at h
      cases hread : readAvp area off with
      | error e =>
          rw [hread] at h
          cases h
      | ok found =>
          rw [hread] at h
          simp only [bind, Except.bind, visitAll] at h
          cases found with
          | none => cases h
          | some avp =>
              dsimp only at h
              cases hf : f s avp depth with
              | error e =>
                  rw [hf] at h
                  cases h
              | ok s₁ =>
                  rw [hf] at h
                  simp only [Bool.not_true, Bool.false_eq_true, if_false] at h
                  by_cases hadv : avp.advance = 0 ∨ avp.advance > area.size - off
                  · rw [if_pos hadv] at h
                    cases h
                  rw [if_neg hadv] at h
                  obtain ⟨a, hw, himage, rfl⟩ := image_of_readAvp (by omega) hread
                  have hadvance := placed_advance hw (area.off + off)
                  obtain ⟨p, rfl, hp⟩ := exists_padded hw himage (by omega)
                  obtain ⟨ps, hps, hend⟩ := ih (p.item.placed (area.off + off)) s₁ hadv
                    (by omega) h
                  rw [hadvance] at hps hend
                  refine ⟨p :: ps, has_areaBytes_cons.mpr ⟨hp, hps⟩, ?_⟩
                  rw [areaBytes_cons_length, ← hend, ← Nat.add_assoc]
  | case2 off s hend =>
      obtain rfl : off = area.size := by omega
      exact ⟨[], Span.Has.nil (Nat.le_refl _), rfl⟩

end Areas

section Flat

/-- The AVPs appended one after the other to an empty buffer. -/
def putAvps (items : List AvpItem) : List UInt8 :=
  items.foldl (fun out a => putAvp out a.code a.data a.flags a.vendorId) []

/-- An AVP with the zeros that pad it. -/
def zeroPadded (a : AvpItem) : List UInt8 :=
  a.image ++ List.replicate a.padLen 0

theorem zeroPadded_aligned (a : AvpItem) : (zeroPadded a).length % 4 = 0 := by
  rw [zeroPadded, List.length_append, a.image_length, List.length_replicate, AvpItem.padLen]
  omega

theorem foldl_putAvp (items : List AvpItem) {out : List UInt8} (hout : out.length % 4 = 0) :
    items.foldl (fun out a => putAvp out a.code a.data a.flags a.vendorId) out =
      out ++ items.flatMap zeroPadded := by
  induction items generalizing out with
  | nil => simp
  | cons a items ih =>
      have haligned : (out ++ zeroPadded a).length % 4 = 0 := by
        have := zeroPadded_aligned a
        rw [List.length_append]
        omega
      rw [List.foldl_cons, putAvp_eq hout]
      rw [show a.image ++ List.replicate a.padLen 0 = zeroPadded a from rfl, ih haligned]
      simp

theorem putAvps_eq (items : List AvpItem) : putAvps items = items.flatMap zeroPadded :=
  foldl_putAvp items rfl

/-- The buffer that `put_avp` makes is an area. -/
theorem putAvps_area {items : List AvpItem} (hw : ∀ a ∈ items, a.Wf) :
    ∃ ps, ps.map PaddedAvp.item = items ∧ putAvps items = areaBytes ps := by
  rw [putAvps_eq]
  induction items with
  | nil => exact ⟨[], rfl, rfl⟩
  | cons a items ih =>
      obtain ⟨ps, hitems, hbytes⟩ := ih (fun b hb => hw b (by simp [hb]))
      refine ⟨⟨a, List.replicate a.padLen 0, hw a (by simp), by simp⟩ :: ps, by simp [hitems], ?_⟩
      rw [List.flatMap_cons, hbytes]
      rfl

section Walks

variable {S : Type} {f : S → Avp → Nat → Except OutOfBounds S} {area : Span} {depth : Nat}
  {s s' : S}

theorem forEachAvp_area {ps : List PaddedAvp} (hdepth : depth < kAvpMaxDepth)
    (h : area.bytes = areaBytes ps) :
    forEachAvp (visitAll f) depth area s =
      ((placedItems area.off (ps.map PaddedAvp.item)).foldlM (fun s avp => f s avp depth) s >>=
        fun s => .ok (.ok, s)) := by
  have hhas : area.Has 0 (areaBytes ps) := Span.Has.zero_iff.mpr (h ▸ List.prefix_rfl)
  rw [forEachAvp, if_neg (Nat.not_le.mpr hdepth), avpLoop_area ps hhas (by rw [← h]; simp [Span.size])]
  rfl

/-- The walk over AVPs that `put_avp` has written. -/
theorem forEachAvp_putAvps {items : List AvpItem} (hdepth : depth < kAvpMaxDepth)
    (hw : ∀ a ∈ items, a.Wf) (h : area.bytes = putAvps items) :
    forEachAvp (visitAll f) depth area s =
      ((placedItems area.off items).foldlM (fun s avp => f s avp depth) s >>= fun s =>
        .ok (.ok, s)) := by
  obtain ⟨ps, rfl, hps⟩ := putAvps_area hw
  exact forEachAvp_area hdepth (h.trans hps)

theorem area_of_forEachAvp (h : forEachAvp (visitAll f) depth area s = .ok (.ok, s')) :
    depth < kAvpMaxDepth ∧ ∃ ps, area.bytes = areaBytes ps ∧
      (placedItems area.off (ps.map PaddedAvp.item)).foldlM (fun s avp => f s avp depth) s =
        .ok s' := by
  have hdepth : depth < kAvpMaxDepth := by
    by_contra hdeep
    rw [forEachAvp, if_pos (Nat.le_of_not_lt hdeep)] at h
    cases h
  have hloop := h
  rw [forEachAvp, if_neg (Nat.not_le.mpr hdepth)] at hloop
  obtain ⟨ps, hhas, hend⟩ := area_of_avpLoop (Nat.zero_le _) hloop
  have hbytes : area.bytes = areaBytes ps := by
    rw [← hhas.bytes_eq, List.drop_zero, List.take_of_length_le]
    simp only [Span.size] at hend
    omega
  rw [forEachAvp_area hdepth hbytes] at h
  refine ⟨hdepth, ps, hbytes, ?_⟩
  cases hfold : (placedItems area.off (ps.map PaddedAvp.item)).foldlM
      (fun s avp => f s avp depth) s with
  | error e =>
      rw [hfold] at h
      cases h
  | ok s₁ =>
      rw [hfold] at h
      exact congrArg Except.ok (Prod.mk.inj (Except.ok.inj h)).2

end Walks

/-- The recording callback records the list it is given. -/
theorem foldlM_collect (avps seen : List Avp) :
    avps.foldlM (fun seen avp => (.ok (seen ++ [avp]) : Except OutOfBounds (List Avp))) seen =
      .ok (seen ++ avps) := by
  induction avps generalizing seen with
  | nil => rw [List.append_nil]; rfl
  | cons avp avps ih =>
      rw [List.foldlM_cons]
      simp only [bind, Except.bind]
      rw [ih, List.append_assoc]
      rfl

end Flat

end GtpMeter
