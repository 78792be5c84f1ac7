import GtpMeter.AvpAreas

/-!
# The AVP codec

Encoding AVPs with `put_avp` and walking over them with `for_each_avp` are inverse, up
to the bytes of the padding, which the walk does not look at.  The value of a grouped
AVP is an area of its own; a forest is a list of AVPs with the groups opened.

**Results.**
* `sameOutside_area`: an area and its AVPs encoded again.
* `foldlM_walkInto`, `sameOutside_of_walk`: the same over all levels of a forest.
* `avp_walk_inverts_put`: encoding and walking are inverse.
-/

namespace GtpMeter

open Synth

section Masks

/-- The padding bytes of encoded AVPs. -/
def padMask (items : List AvpItem) : List Bool :=
  items.flatMap (fun a => List.replicate a.length false ++ List.replicate a.padLen true)

/-- An area and its AVPs encoded again differ at most in the padding. -/
theorem sameOutside_area (ps : List PaddedAvp) :
    SameOutside (padMask (ps.map PaddedAvp.item)) (putAvps (ps.map PaddedAvp.item))
      (areaBytes ps) := by
  rw [putAvps_eq]
  induction ps with
  | nil => exact SameOutside.refl (n := 0) rfl
  | cons p ps ih =>
      refine SameOutside.append (SameOutside.append ?_ ?_) ih
      · exact SameOutside.refl p.item.image_length
      · exact SameOutside.masked (by simp) p.pad_length

end Masks

section Nested

/-- AVPs of which some are groups of AVPs. -/
inductive AvpForest where
  | nil
  | leaf (a : AvpItem) (rest : AvpForest)
  | group (code : UInt32) (flags : UInt8) (vendorId : UInt32) (contents rest : AvpForest)

namespace AvpForest

/-- The AVPs of the outermost level; the value of a group is its contents encoded. -/
def items : AvpForest → List AvpItem
  | nil => []
  | leaf a rest => a :: rest.items
  | group code flags vendorId contents rest =>
      ⟨code, flags, vendorId, putAvps contents.items⟩ :: rest.items

def encode (f : AvpForest) : List UInt8 :=
  putAvps f.items

/-- Every AVP of every level is well formed. -/
def Wf : AvpForest → Prop
  | nil => True
  | leaf a rest => a.Wf ∧ rest.Wf
  | group code flags vendorId contents rest =>
      AvpItem.Wf ⟨code, flags, vendorId, contents.encode⟩ ∧ contents.Wf ∧ rest.Wf

/-- The groups are the AVPs of the grouped codes. -/
def Shaped (grouped : UInt32 → Bool) : AvpForest → Prop
  | nil => True
  | leaf a rest => grouped a.code = false ∧ rest.Shaped grouped
  | group code _ _ contents rest =>
      grouped code = true ∧ contents.Shaped grouped ∧ rest.Shaped grouped

/-- How many walks are open at most at one time. -/
def levels : AvpForest → Nat
  | nil => 1
  | leaf _ rest => rest.levels
  | group _ _ _ contents rest => max (contents.levels + 1) rest.levels

theorem levels_pos (f : AvpForest) : 0 < f.levels := by
  induction f with
  | nil => exact Nat.one_pos
  | leaf a rest ih => exact ih
  | group code flags vendorId contents rest _ ih => exact Nat.lt_of_lt_of_le ih (Nat.le_max_right _ _)

def append : AvpForest → AvpForest → AvpForest
  | nil, g => g
  | leaf a rest, g => leaf a (rest.append g)
  | group code flags vendorId contents rest, g =>
      group code flags vendorId contents (rest.append g)

theorem append_nil (f : AvpForest) : f.append nil = f := by
  induction f with
  | nil => rfl
  | leaf a rest ih => rw [append, ih]
  | group code flags vendorId contents rest _ ih => rw [append, ih]

theorem append_assoc (f g k : AvpForest) : (f.append g).append k = f.append (g.append k) := by
  induction f with
  | nil => rfl
  | leaf a rest ih => rw [append, append, append, ih]
  | group code flags vendorId contents rest _ ih => rw [append, append, append, ih]

/-- The padding bytes of all levels. -/
def padMask : AvpForest → List Bool
  | nil => []
  | leaf a rest =>
      List.replicate a.length false ++ List.replicate a.padLen true ++ rest.padMask
  | group code flags vendorId contents rest =>
      let a : AvpItem := ⟨code, flags, vendorId, contents.encode⟩
      List.replicate a.headerLen false ++ contents.padMask ++ List.replicate a.padLen true ++
        rest.padMask

end AvpForest

/-- The callback that walks into the AVPs of grouped codes, with `n` levels below it.
It records the AVPs and whether every inner walk has succeeded. -/
def walkInto (grouped : UInt32 → Bool) :
    Nat → Bool × AvpForest → Avp → Nat → Except OutOfBounds (Bool × AvpForest)
  | 0, s, _, _ => .ok s
  | n + 1, s, avp, depth =>
      if grouped avp.code then do
        let (st, inner) ← forEachSubAvp (visitAll (walkInto grouped n)) depth avp (true, .nil)
        .ok (s.1 && st == .ok && inner.1,
          s.2.append (.group avp.code avp.flags avp.vendorId inner.2 .nil))
      else .ok (s.1, s.2.append (.leaf avp.item .nil))

/-- The walk over all levels of an area. -/
def nestedWalk (grouped : UInt32 → Bool) (depth : Nat) (area : Span) :
    Except OutOfBounds (DiameterStatus × Bool × AvpForest) :=
  forEachAvp (visitAll (walkInto grouped (kAvpMaxDepth - depth))) depth area (true, .nil)

variable {grouped : UInt32 → Bool} {depth : Nat}

theorem AvpForest.items_wf {f : AvpForest} (hw : f.Wf) : ∀ a ∈ f.items, a.Wf := by
  induction f with
  | nil => exact fun a ha => by cases ha
  | leaf b rest ih =>
      intro a ha
      rcases List.mem_cons.mp ha with rfl | ha
      · exact hw.1
      · exact ih hw.2 a ha
  | group code flags vendorId contents rest _ ih =>
      intro a ha
      rcases List.mem_cons.mp ha with rfl | ha
      · exact hw.1
      · exact ih hw.2.2 a ha

/-- The walk over the levels records the forest. -/
theorem foldlM_walkInto {f : AvpForest} (hshape : f.Shaped grouped) (hw : f.Wf)
    (hlevels : depth + f.levels ≤ kAvpMaxDepth) (pos : Nat) (seen : AvpForest) :
    (placedItems pos f.items).foldlM
        (fun s avp => walkInto grouped (kAvpMaxDepth - depth) s avp depth) (true, seen) =
      .ok (true, seen.append f) := by
  induction f generalizing depth pos seen with
  | nil =>
      rw [AvpForest.append_nil]
      rfl
  | leaf a rest ih =>
      have hlt : depth + rest.levels ≤ kAvpMaxDepth := hlevels
      have hpos := rest.levels_pos
      have hstep : walkInto grouped (kAvpMaxDepth - depth) (true, seen) (a.placed pos) depth =
          .ok (true, seen.append (.leaf a .nil)) := by
        rw [show kAvpMaxDepth - depth = kAvpMaxDepth - (depth + 1) + 1 by omega, walkInto,
          if_neg (by simp [AvpItem.placed, hshape.1]), AvpItem.placed_item]
      rw [AvpForest.items, placedItems, List.foldlM_cons, hstep]
      simp only [bind, Except.bind]
      rw [ih hshape.2 hw.2 hlt, AvpForest.append_assoc]
      rfl
  | group code flags vendorId contents rest ihc ih =>
      obtain ⟨hlc, hlr⟩ : depth + 1 + contents.levels ≤ kAvpMaxDepth ∧
          depth + rest.levels ≤ kAvpMaxDepth := by
        simp only [AvpForest.levels] at hlevels
        omega
      have hpos := contents.levels_pos
      -- the walk into the group is one level deeper and records its contents
      have hsub : forEachSubAvp (visitAll (walkInto grouped (kAvpMaxDepth - (depth + 1)))) depth
          (AvpItem.placed ⟨code, flags, vendorId, contents.encode⟩ pos) (true, .nil) =
          .ok (.ok, true, contents) := by
        rw [forEachSubAvp, forEachAvp_putAvps (by omega) (AvpForest.items_wf hw.2.1) rfl,
          ihc hshape.2.1 hw.2.1 hlc]
        rfl
      have hstep : walkInto grouped (kAvpMaxDepth - depth) (true, seen)
          (AvpItem.placed ⟨code, flags, vendorId, contents.encode⟩ pos) depth =
          .ok (true, seen.append (.group code flags vendorId contents .nil)) := by
        rw [show kAvpMaxDepth - depth = kAvpMaxDepth - (depth + 1) + 1 by omega, walkInto,
          if_pos (by simp [AvpItem.placed, hshape.1]), hsub]
        rfl
      rw [AvpForest.items, placedItems, List.foldlM_cons]
      rw [show putAvps contents.items = contents.encode from rfl, hstep]
      simp only [bind, Except.bind]
      rw [ih hshape.2.2 hw.2.2 hlr, AvpForest.append_assoc]
      rfl

section Converse

theorem AvpForest.encode_leaf (a : AvpItem) (rest : AvpForest) :
    (AvpForest.leaf a rest).encode = a.image ++ List.replicate a.padLen 0 ++ rest.encode := by
  simp only [encode, items, putAvps_eq, List.flatMap_cons, zeroPadded]

theorem AvpForest.encode_group (code : UInt32) (flags : UInt8) (vendorId : UInt32)
    (contents rest : AvpForest) :
    (AvpForest.group code flags vendorId contents rest).encode =
      AvpItem.image ⟨code, flags, vendorId, contents.encode⟩ ++
        List.replicate (AvpItem.padLen ⟨code, flags, vendorId, contents.encode⟩) 0 ++
        rest.encode := by
  simp only [encode, items, putAvps_eq, List.flatMap_cons, zeroPadded]

/-- A group whose contents are encoded again keeps its header. -/
theorem sameOutside_image {a : AvpItem} {mask : List Bool} {data : List UInt8}
    (h : SameOutside mask data a.data) :
    SameOutside (List.replicate a.headerLen false ++ mask) { a with data }.image a.image ∧
      AvpItem.headerLen { a with data } = a.headerLen ∧
      AvpItem.padLen { a with data } = a.padLen := by
  have hdata : data.length = a.data.length := h.left_length.trans h.right_length.symm
  have hlen : AvpItem.length { a with data } = a.length := by
    rw [AvpItem.length, AvpItem.length, hdata]
    rfl
  refine ⟨?_, rfl, by rw [AvpItem.padLen, hlen]; rfl⟩
  have himage : { a with data }.image =
      be32Bytes a.code ++ [a.flags] ++ be24Bytes (UInt32.ofNat a.length) ++
        (if a.vendorSpecific then be32Bytes a.vendorId else []) ++ data := by
    rw [AvpItem.image, hlen]
    rfl
  rw [himage, AvpItem.image]
  refine SameOutside.append (SameOutside.refl ?_) h
  have hall := a.image_length
  have hsum : a.length = a.headerLen + a.data.length := rfl
  rw [AvpItem.image, List.length_append] at hall
  omega

/-- What a successful walk has recorded of a list of AVPs, when the walks one level
deeper record what they find. -/
theorem sameOutside_of_foldlM {n : Nat}
    (hdeeper : ∀ area contents,
      forEachAvp (visitAll (walkInto grouped n)) (depth + 1) area (true, .nil) =
        .ok (.ok, true, contents) →
      SameOutside contents.padMask contents.encode area.bytes)
    (ps : List PaddedAvp) {pos : Nat} {b : Bool} {seen out : AvpForest}
    (h : (placedItems pos (ps.map PaddedAvp.item)).foldlM
      (fun s avp => walkInto grouped (n + 1) s avp depth) (b, seen) = .ok (true, out)) :
    b = true ∧ ∃ f : AvpForest, out = seen.append f ∧
      SameOutside f.padMask f.encode (areaBytes ps) := by
  induction ps generalizing pos b seen with
  | nil =>
      obtain ⟨rfl, rfl⟩ := Prod.mk.inj (Except.ok.inj h)
      exact ⟨rfl, .nil, seen.append_nil.symm, SameOutside.refl (n := 0) rfl⟩
  | cons p ps ih =>
      rw [List.map_cons, placedItems, List.foldlM_cons, walkInto] at h
      by_cases hg : grouped (p.item.placed pos).code = true
      · rw [if_pos hg] at h
        cases hsub : forEachSubAvp (visitAll (walkInto grouped n)) depth (p.item.placed pos)
            (true, .nil) with
        | error e =>
            rw [hsub] at h
            cases h
        | ok r =>
            obtain ⟨st, fine, contents⟩ := r
            rw [hsub] at h
            obtain ⟨hflag, f, rfl, hsame⟩ := ih h
            simp only [Bool.and_eq_true, beq_iff_eq] at hflag
            obtain ⟨⟨rfl, rfl⟩, rfl⟩ := hflag
            obtain ⟨himage, hhead, hpad⟩ := sameOutside_image (hdeeper _ _ hsub)
            refine ⟨rfl, .group p.item.code p.item.flags p.item.vendorId contents f, ?_, ?_⟩
            · rw [AvpForest.append_assoc]
              rfl
            · rw [AvpForest.encode_group, AvpForest.padMask, hhead, hpad]
              refine SameOutside.append (SameOutside.append himage ?_) hsame
              exact SameOutside.masked (by simp) p.pad_length
      · rw [if_neg hg] at h
        obtain ⟨rfl, f, rfl, hsame⟩ := ih h
        refine ⟨rfl, .leaf p.item f, ?_, ?_⟩
        · rw [AvpForest.append_assoc]
          rfl
        · rw [AvpForest.encode_leaf, AvpForest.padMask]
          refine SameOutside.append (SameOutside.append ?_ ?_) hsame
          · exact SameOutside.refl p.item.image_length
          · exact SameOutside.masked (by simp) p.pad_length

/-- By the levels that are left. -/
theorem sameOutside_of_walk {n : Nat} (hn : depth + n = kAvpMaxDepth) {area : Span}
    {f : AvpForest}
    (h : forEachAvp (visitAll (walkInto grouped n)) depth area (true, .nil) =
      .ok (.ok, true, f)) :
    SameOutside f.padMask f.encode area.bytes := by
  induction n generalizing depth area f with
  | zero =>
      have hlt := (area_of_forEachAvp h).1
      omega
  | succ n ih =>
      obtain ⟨-, ps, hbytes, hfold⟩ := area_of_forEachAvp h
      obtain ⟨-, g, rfl, hsame⟩ := sameOutside_of_foldlM (fun area contents hwalk =>
        ih (by omega) hwalk) ps hfold
      rw [hbytes]
      exact hsame

end Converse
end Nested

section Inverse

/-- **AVP encoding and walking are inverse.**
* A walk over AVPs that `put_avp` has written visits exactly these AVPs.
* The AVPs of a successful walk, encoded again, differ from the area at most in the
  padding.
* The same for groups within groups, as deep as walks may go. -/
theorem avp_walk_inverts_put {depth : Nat} (hdepth : depth < kAvpMaxDepth) :
    (∀ (items : List AvpItem) (area : Span), (∀ a ∈ items, a.Wf) → area.bytes = putAvps items →
      ∃ seen, forEachAvp collectAvps depth area [] = .ok (.ok, seen) ∧
        seen.map Avp.item = items) ∧
    (∀ (area : Span) (seen : List Avp),
      forEachAvp collectAvps depth area [] = .ok (.ok, seen) →
      SameOutside (padMask (seen.map Avp.item)) (putAvps (seen.map Avp.item)) area.bytes) ∧
    (∀ (grouped : UInt32 → Bool) (f : AvpForest) (area : Span), f.Wf → f.Shaped grouped →
      depth + f.levels ≤ kAvpMaxDepth → area.bytes = f.encode →
      nestedWalk grouped depth area = .ok (.ok, true, f)) ∧
    (∀ (grouped : UInt32 → Bool) (area : Span) (f : AvpForest),
      nestedWalk grouped depth area = .ok (.ok, true, f) →
      SameOutside f.padMask f.encode area.bytes) := by
  refine ⟨?_, ?_, ?_, ?_⟩
  · intro items area hw hbytes
    refine ⟨placedItems area.off items, ?_, placedItems_item _ _⟩
    rw [collectAvps, forEachAvp_putAvps hdepth hw hbytes, foldlM_collect]
    rfl
  · intro area seen h
    obtain ⟨-, ps, hbytes, hfold⟩ := area_of_forEachAvp h
    rw [foldlM_collect] at hfold
    obtain rfl : placedItems area.off (ps.map PaddedAvp.item) = seen := Except.ok.inj hfold
    rw [placedItems_item, hbytes]
    exact sameOutside_area ps
  · intro grouped f area hw hshape hlevels hbytes
    rw [nestedWalk, forEachAvp_putAvps hdepth (AvpForest.items_wf hw) hbytes,
      foldlM_walkInto hshape hw hlevels]
    rfl
  · intro grouped area f h
    exact sameOutside_of_walk (by omega) h

/-- A group with a vendor-specific AVP in it, whose value needs padding. -/
def sampleForest : AvpForest :=
  .group 456 0x40 0
    (.leaf ⟨432, 0x40, 0, [0, 0, 0, 10]⟩ (.leaf ⟨21, 0xC0, 10415, [1, 2, 3]⟩ .nil)) .nil

theorem sampleForest_wf : sampleForest.Wf :=
  ⟨⟨by decide, by decide⟩, ⟨⟨by decide, by decide⟩, ⟨by decide, by decide⟩, trivial⟩, trivial⟩

theorem avp_walk_inverts_put_sample :
    (∃ seen, forEachAvp collectAvps 0 (.whole sampleForest.encode) [] = .ok (.ok, seen) ∧
      seen.map Avp.item = sampleForest.items ∧
      SameOutside (padMask (seen.map Avp.item)) (putAvps (seen.map Avp.item))
        sampleForest.encode) ∧
    nestedWalk (· == 456) 0 (.whole sampleForest.encode) = .ok (.ok, true, sampleForest) ∧
    SameOutside sampleForest.padMask sampleForest.encode sampleForest.encode := by
  obtain ⟨hput, hwalk, hnested, hback⟩ := avp_walk_inverts_put (show 0 < kAvpMaxDepth by decide)
  obtain ⟨seen, hseen, hitems⟩ := hput sampleForest.items (.whole sampleForest.encode)
    (AvpForest.items_wf sampleForest_wf) rfl
  have hforest := hnested (· == 456) sampleForest (.whole sampleForest.encode) sampleForest_wf
    ⟨rfl, ⟨rfl, rfl, trivial⟩, trivial⟩ (by decide) rfl
  exact ⟨⟨seen, hseen, hitems, hwalk _ seen hseen⟩, hforest, hback _ _ _ hforest⟩

end Inverse
end GtpMeter
