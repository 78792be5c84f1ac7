import GtpMeter.AcceptedMessages

/-!
# The blocks of a charging message

A charging message reports its usage in Multiple-Services-Credit-Control AVPs, one for
each rating group.  `parse_gy` reads them into an array of eight, in order, and sets a
flag when there are more; `emit_gy_events` makes an event of each block in the array.

**Results.**
* `parseGy_blocks`: the array holds the first eight blocks of a message.
* `messageEvents_blocks`: there is an event for each of these.
* `blocks_become_events_iff`: every block becomes an event exactly if there are eight at
  most.
-/

namespace GtpMeter

section Blocks

variable {a : AvpItem} {gy gy' : GyMessage} {infos : List MsccInfo} {depth pos : Nat}

/-- A Multiple-Services-Credit-Control AVP. -/
def AvpItem.isBlock (a : AvpItem) : Bool :=
  a.code == AvpCode.multipleServicesCreditControl.code

/-- The blocks among some AVPs, in order. -/
def blocksAmong (items : List AvpItem) : List AvpItem :=
  items.filter AvpItem.isBlock

/-- What `parse_mscc` reads from a block. -/
def blockInfo (a : AvpItem) : MsccInfo :=
  match parseMscc (a.placed 0) {} 0 with
  | .ok info => info
  | .error _ => {}

theorem parseMscc_block (a : AvpItem) (pos : Nat) :
    parseMscc (a.placed pos) {} 0 = .ok (blockInfo a) := by
  have hsame : SameAvp (a.placed pos) (a.placed 0) := ⟨rfl, rfl, rfl, rfl, rfl⟩
  have hreturns : Returns (fun _ => True) (parseMscc (a.placed 0) {} 0) :=
    parseMscc_returns (ViewOf.somewhere (a.placed 0).data)
  obtain ⟨info, hread, -⟩ := hreturns
  rw [parseMscc_congr hsame, blockInfo, hread]

/-- What the message keeps of the blocks among some AVPs. -/
def keptBlocks (items : List AvpItem) : List MsccInfo :=
  ((blocksAmong items).map blockInfo).take kMaxMsccPerMessage

theorem keptBlocks_length (items : List AvpItem) :
    (keptBlocks items).length = min kMaxMsccPerMessage (blocksAmong items).length := by
  rw [keptBlocks, List.length_take, List.length_map]

/-- One more AVP. -/
theorem keptBlocks_concat (items : List AvpItem) (a : AvpItem) :
    keptBlocks (items ++ [a]) =
      if a.isBlock then (keptBlocks items ++ [blockInfo a]).take kMaxMsccPerMessage
      else keptBlocks items := by
  cases ha : a.isBlock with
  | false => simp [keptBlocks, blocksAmong, ha]
  | true =>
      simp only [keptBlocks, blocksAmong, List.filter_append, List.filter_cons, ha, if_true,
        List.filter_nil, List.map_append, List.map_cons, List.map_nil, List.take_append,
        List.length_take, List.take_take, Nat.min_self]
      congr 2
      omega

/-- The array of a message begins with these blocks, and they are counted. -/
structure HoldsBlocks (gy : GyMessage) (infos : List MsccInfo) : Prop where
  count : gy.msccCount = infos.length
  count_le : infos.length ≤ kMaxMsccPerMessage
  slots : gy.mscc.toList = infos ++ List.replicate (kMaxMsccPerMessage - infos.length) ({} : MsccInfo)

theorem HoldsBlocks.empty (isRequest : Bool) : HoldsBlocks { isRequest } [] where
  count := rfl
  count_le := Nat.zero_le _
  slots := rfl

theorem gyField_other {avp : Avp}
    (hcode : AvpCode.ofCode avp.code ≠ some .multipleServicesCreditControl) :
    Returns (fun r => r.mscc = gy.mscc ∧ r.msccCount = gy.msccCount) (gyField gy avp depth) := by
  unfold gyField
  split
  · exact Returns.ok ⟨rfl, rfl⟩
  · exact Returns.ok ⟨rfl, rfl⟩
  · exact Returns.ok ⟨rfl, rfl⟩
  · exact Returns.bind asU32_returns (fun _ _ => Returns.ok ⟨rfl, rfl⟩)
  · exact Returns.bind asU32_returns (fun _ _ => Returns.ok ⟨rfl, rfl⟩)
  · exact Returns.bind asU32_returns (fun _ _ => Returns.ok ⟨rfl, rfl⟩)
  · refine Returns.bind (forEachSubAvp_keeps
      (visitAll_keeps (fun _ _ _ hs h => subscriptionField_views hs h))
      (ViewOf.somewhere avp.data) (ViewOf.empty _)) (fun r _ => ?_)
    refine Returns.ite (fun _ => Returns.ok ⟨rfl, rfl⟩) (fun _ => ?_)
    exact Returns.ite (fun _ => Returns.ok ⟨rfl, rfl⟩) (fun _ => Returns.ok ⟨rfl, rfl⟩)
  · exact absurd ‹_› hcode
  · exact Returns.ok ⟨rfl, rfl⟩

/-- The next slot of the array is unused. -/
theorem HoldsBlocks.next (h : HoldsBlocks gy infos) (hlt : gy.msccCount < kMaxMsccPerMessage) :
    gy.mscc[gy.msccCount] = {} := by
  have hslot : gy.mscc.toList[gy.msccCount]? = some {} := by
    rw [h.slots, h.count, List.getElem?_append_right (Nat.le_refl _), Nat.sub_self,
      List.getElem?_replicate_of_lt (by have := h.count; omega)]
  rw [Vector.getElem?_toList, Vector.getElem?_eq_getElem hlt] at hslot
  exact Option.some.inj hslot

/-- A block goes to the next slot, if there is one. -/
theorem HoldsBlocks.push (h : HoldsBlocks gy infos) (ha : a.isBlock = true) :
    Returns (fun r => HoldsBlocks r ((infos ++ [blockInfo a]).take kMaxMsccPerMessage))
      (gyField gy (a.placed pos) 0) := by
  have hcode : AvpCode.ofCode (a.placed pos).code = some .multipleServicesCreditControl :=
    AvpCode.ofCode_eq_some_iff.mpr (beq_iff_eq.mp ha)
  have hcount := h.count
  have hle := h.count_le
  rw [gyField_block hcode]
  by_cases hlt : gy.msccCount < kMaxMsccPerMessage
  · rw [dif_pos hlt, h.next hlt, parseMscc_block]
    refine Returns.ok ?_
    have hfits : (infos ++ [blockInfo a]).length ≤ kMaxMsccPerMessage := by
      rw [List.length_append, List.length_singleton]
      omega
    rw [List.take_of_length_le hfits]
    refine ⟨?_, hfits, ?_⟩
    · rw [List.length_append, List.length_singleton, ← hcount]
    · have hleft : kMaxMsccPerMessage - infos.length =
          (kMaxMsccPerMessage - (infos ++ [blockInfo a]).length) + 1 := by
        rw [List.length_append, List.length_singleton] at hfits ⊢
        omega
      simp only [Vector.toList_set, h.slots, hcount]
      rw [hleft, List.replicate_succ, List.set_append_right _ _ (Nat.le_refl _), Nat.sub_self,
        List.set_cons_zero, List.append_assoc, List.singleton_append]
  · rw [dif_neg hlt]
    refine Returns.ok ?_
    rw [List.take_append_of_le_length (by omega), List.take_of_length_le hle]
    exact { h with }

/-- One AVP of a message. -/
theorem HoldsBlocks.step {done : List AvpItem} (h : HoldsBlocks gy (keptBlocks done)) :
    Returns (fun r => HoldsBlocks r (keptBlocks (done ++ [a]))) (gyField gy (a.placed pos) 0) := by
  rw [keptBlocks_concat]
  cases ha : a.isBlock with
  | true => exact h.push ha
  | false =>
      have hcode : AvpCode.ofCode (a.placed pos).code ≠ some .multipleServicesCreditControl := by
        intro hsome
        have hblock : a.code = AvpCode.multipleServicesCreditControl.code :=
          AvpCode.ofCode_eq_some_iff.mp hsome
        rw [AvpItem.isBlock, hblock] at ha
        simp at ha
      refine (gyField_other hcode).mono (fun r hr => ?_)
      rw [if_neg Bool.false_ne_true]
      exact ⟨hr.2.trans h.count, h.count_le, (congrArg Vector.toList hr.1).trans h.slots⟩

/-- All AVPs of a message. -/
theorem HoldsBlocks.run {done : List AvpItem} (items : List AvpItem)
    (h : HoldsBlocks gy (keptBlocks done)) :
    Returns (fun r => HoldsBlocks r (keptBlocks (done ++ items)))
      ((placedItems pos items).foldlM (fun gy avp => gyField gy avp 0) gy) := by
  induction items generalizing gy done pos with
  | nil =>
      rw [List.append_nil]
      exact Returns.ok h
  | cons a items ih =>
      rw [placedItems, List.foldlM_cons]
      refine Returns.bind (h.step (a := a)) (fun gy₁ h₁ => ?_)
      have hrest : Returns (fun r => HoldsBlocks r (keptBlocks (done ++ [a] ++ items)))
          ((placedItems (pos + a.size) items).foldlM (fun gy avp => gyField gy avp 0) gy₁) := ih h₁
      rwa [List.append_assoc, List.singleton_append] at hrest

end Blocks

section Events

variable {hdr : DiameterHeader} {gy : GyMessage} {tsNs : UInt64} {ps : List PaddedAvp}
  {m : List UInt8} {infos : List MsccInfo}

/-- The extraction keeps the first eight blocks of a message. -/
theorem parseGy_blocks (h : hdr.avps.bytes = areaBytes ps) :
    Returns (fun r => r.1 = .ok ∧ HoldsBlocks r.2 (keptBlocks (ps.map PaddedAvp.item)))
      (parseGy hdr) := by
  rw [parseGy, forEachAvp_area (by decide) h]
  have hstart : HoldsBlocks { isRequest := hdr.request } (keptBlocks []) := .empty _
  exact Returns.bind (hstart.run _) (fun gy hgy => Returns.ok ⟨rfl, hgy⟩)

theorem gyEventsOf_holds (h : HoldsBlocks gy infos) (hne : infos ≠ []) :
    gyEventsOf gy tsNs = infos.map (blockEvent (messageEvent gy tsNs)) := by
  have hcount : gy.msccCount ≠ 0 := by
    rw [h.count]
    exact fun hzero => hne (List.length_eq_zero_iff.mp hzero)
  rw [gyEventsOf, if_neg hcount, h.slots, h.count, List.take_left]

/-- The events of a credit-control message with blocks. -/
theorem messageEvents_blocks (tsNs : UInt64) (hm : WellFormedMessage m)
    (hcc : (headerOf (.whole m)).isCreditControl = true)
    (hps : m.drop kDiameterHeaderLen = areaBytes ps)
    (hne : blocksAmong (ps.map PaddedAvp.item) ≠ []) :
    ∃ gy, parseDiameterGy (.whole m) = .ok (.ok, headerOf (.whole m), gy) ∧
      messageEvents tsNs m =
        (keptBlocks (ps.map PaddedAvp.item)).map (blockEvent (messageEvent gy tsNs)) := by
  have hbytes : (headerOf (.whole m)).avps.bytes = areaBytes ps := by
    rw [headerOf_avps hm.complete, hps]
  obtain ⟨⟨st, gy⟩, hgy, rfl, hholds⟩ := parseGy_blocks hbytes
  have hread : parseDiameterGy (.whole m) = .ok (.ok, headerOf (.whole m), gy) := by
    rw [parseDiameterGy_eq (parseDiameterHeader_of_fits hm.header), if_pos hcc, hgy]
    rfl
  have hkept : keptBlocks (ps.map PaddedAvp.item) ≠ [] := by
    intro hnil
    have hlen := congrArg List.length hnil
    have hpos := List.length_pos_iff.mpr hne
    have hmax : kMaxMsccPerMessage = 8 := rfl
    rw [keptBlocks_length, List.length_nil] at hlen
    omega
  refine ⟨gy, hread, ?_⟩
  simp only [messageEvents, hread, hcc, if_true]
  exact gyEventsOf_holds hholds hkept

theorem Ingest.pushGyAll_gyEvents (ing : Ingest) (es : List GyEvent) (any : Bool) :
    (ing.pushGyAll es any).1.stats.gyEvents = ing.stats.gyEvents + UInt64.ofNat es.length := by
  induction es generalizing ing any with
  | nil => exact (UInt64.add_zero _).symm
  | cons ev es ih =>
      have hes := ih (ing.pushGy ev).1 (any || (ing.pushGy ev).2)
      have hev : (ing.pushGy ev).1.stats.gyEvents = ing.stats.gyEvents + 1 := by rw [pushGy_eq]
      rw [hev] at hes
      rw [List.length_cons, Nat.add_comm, UInt64.ofNat_add, ← UInt64.add_assoc]
      exact hes

theorem areaBytes_length_ge (ps : List PaddedAvp) : 8 * ps.length ≤ (areaBytes ps).length := by
  induction ps with
  | nil => exact Nat.zero_le _
  | cons p ps ih =>
      have hp := p.item.size_ge
      rw [areaBytes_cons_length, List.length_cons]
      omega

/-- The blocks of a message are too few to be counted modulo `2^64`. -/
theorem blocksAmong_length_lt (hm : WellFormedMessage m)
    (hps : m.drop kDiameterHeaderLen = areaBytes ps) :
    (blocksAmong (ps.map PaddedAvp.item)).length < 18446744073709551616 := by
  have hfilter : (blocksAmong (ps.map PaddedAvp.item)).length ≤ ps.length :=
    (List.length_filter_le _ _).trans_eq (List.length_map _)
  have harea := areaBytes_length_ge ps
  have hdrop : (areaBytes ps).length = m.length - kDiameterHeaderLen := by
    rw [← hps, List.length_drop]
  have hlen := hm.header.length_le
  have hmax : kDiameterMaxMsgLen = 1048576 := rfl
  rw [hm.complete] at hlen
  omega

/-- **Every block becomes an event, up to eight.**  A credit-control message with `n`
blocks leaves one event for each of its first eight, in order and with what the block
says, and nothing else is counted: every block has its event, and the counter of events
has gone up by `n`, exactly if `n` is at most eight. -/
theorem blocks_become_events_iff (ing : Ingest) (payload : Span) (tsNs : UInt64)
    (ps : List PaddedAvp) (hm : WellFormedMessage payload.bytes)
    (hcc : (headerOf (.whole payload.bytes)).isCreditControl = true)
    (hps : payload.bytes.drop kDiameterHeaderLen = areaBytes ps)
    (hne : blocksAmong (ps.map PaddedAvp.item) ≠ []) :
    ∃ gy ing' outcome,
      parseDiameterGy (.whole payload.bytes) =
        .ok (.ok, headerOf (.whole payload.bytes), gy) ∧
      ing.processDiameter payload tsNs = .ok (ing', outcome) ∧
      ing' = ((ing.countMessages 1).pushGyAll
        (((blocksAmong (ps.map PaddedAvp.item)).take kMaxMsccPerMessage).map
          (fun b => blockEvent (messageEvent gy tsNs) (blockInfo b))) false).1 ∧
      ing'.stats.gyEvents = ing.stats.gyEvents +
        UInt64.ofNat (min kMaxMsccPerMessage (blocksAmong (ps.map PaddedAvp.item)).length) ∧
      ((ing'.stats.gyEvents = ing.stats.gyEvents +
            UInt64.ofNat (blocksAmong (ps.map PaddedAvp.item)).length ∧
          ing' = ((ing.countMessages 1).pushGyAll
            ((blocksAmong (ps.map PaddedAvp.item)).map
              (fun b => blockEvent (messageEvent gy tsNs) (blockInfo b))) false).1) ↔
        (blocksAmong (ps.map PaddedAvp.item)).length ≤ kMaxMsccPerMessage) := by
  obtain ⟨gy, hread, hevents⟩ := messageEvents_blocks tsNs hm hcc hps hne
  have hlt := blocksAmong_length_lt hm hps
  generalize hblocks : blocksAmong (ps.map PaddedAvp.item) = blocks at hlt hne ⊢
  have hkept : messageEvents tsNs payload.bytes = (blocks.take kMaxMsccPerMessage).map
      (fun b => blockEvent (messageEvent gy tsNs) (blockInfo b)) := by
    rw [hevents, keptBlocks, hblocks, ← List.map_take, List.map_map]
    rfl
  have hrun : ing.processDiameter payload tsNs = .ok (_, _) :=
    Ingest.processDiameter_whole rfl (isMessage_iff.mpr hm)
  have hafter : ing.afterMessages [payload.bytes] tsNs = ((ing.countMessages 1).pushGyAll
      ((blocks.take kMaxMsccPerMessage).map
        (fun b => blockEvent (messageEvent gy tsNs) (blockInfo b))) false).1 := by
    rw [Ingest.afterMessages, List.flatMap_singleton, hkept]
    rfl
  have hcount : (ing.afterMessages [payload.bytes] tsNs).stats.gyEvents =
      ing.stats.gyEvents + UInt64.ofNat (min kMaxMsccPerMessage blocks.length) := by
    rw [hafter, Ingest.pushGyAll_gyEvents, List.length_map, List.length_take]
    rfl
  refine ⟨gy, _, _, hread, hrun, hafter, hcount, ?_⟩
  constructor
  · rintro ⟨hgrown, -⟩
    rw [hcount, UInt64.add_right_inj, ← UInt64.toNat_inj, UInt64.toNat_ofNat',
      UInt64.toNat_ofNat'] at hgrown
    omega
  · intro hle
    rw [hcount, Nat.min_eq_right hle, hafter, List.take_of_length_le hle]
    exact ⟨rfl, rfl⟩

/-- A block that says nothing. -/
def emptyBlock : PaddedAvp where
  item := { code := 456, flags := 0x40, vendorId := 0, data := [] }
  pad := []
  wf := ⟨fun _ => rfl, by decide⟩
  pad_length := by decide

/-- A Credit-Control-Request with nine blocks. -/
def nineBlocksMessage : List UInt8 :=
  [1, 0, 0, 92, 0x80, 0, 1, 0x10, 0, 0, 0, 4, 0, 0, 0, 1, 0, 0, 0, 2] ++
    areaBytes (List.replicate 9 emptyBlock)

theorem nineBlocks_wellFormed : WellFormedMessage nineBlocksMessage :=
  isMessage_iff.mp (isMessage_of_check (by decide +kernel))

/-- Of nine blocks the ninth is lost, and no counter says so. -/
theorem ninth_block_lost :
    WellFormedMessage nineBlocksMessage ∧
    nineBlocksMessage.drop kDiameterHeaderLen = areaBytes (List.replicate 9 emptyBlock) ∧
    (blocksAmong ((List.replicate 9 emptyBlock).map PaddedAvp.item)).length = 9 ∧
    ∃ ing' outcome, ({} : Ingest).processDiameter (.whole nineBlocksMessage) 7 =
        .ok (ing', outcome) ∧
      ing'.stats = { diameterMessages := 1, gyEvents := 8 } := by
  refine ⟨nineBlocks_wellFormed, by decide +kernel, by decide, ?_⟩
  obtain ⟨⟨ing', outcome⟩, hrun, hcheck⟩ := Runs.returnsWith_iff.mp
    (show Runs.returnsWith (({} : Ingest).processDiameter (.whole nineBlocksMessage) 7) (fun r =>
      decide (r.1.stats = { diameterMessages := 1, gyEvents := 8 })) = true by decide +kernel)
  exact ⟨ing', outcome, hrun, of_decide_eq_true hcheck⟩

theorem blocks_become_events_iff_nine :
    (headerOf (.whole nineBlocksMessage)).isCreditControl = true ∧
    ∃ ing' outcome, ({} : Ingest).processDiameter (.whole nineBlocksMessage) 7 =
      .ok (ing', outcome) ∧ ing'.stats.gyEvents = 8 := by
  have hcc : (headerOf (.whole nineBlocksMessage)).isCreditControl = true := by decide +kernel
  obtain ⟨gy, ing', outcome, -, hrun, -, hcount, -⟩ := blocks_become_events_iff {}
    (.whole nineBlocksMessage) 7 (List.replicate 9 emptyBlock) nineBlocks_wellFormed hcc
    (by decide +kernel) (by decide)
  exact ⟨hcc, ing', outcome, hrun, hcount⟩

end Events
end GtpMeter
