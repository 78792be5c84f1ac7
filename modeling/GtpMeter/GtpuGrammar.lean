import GtpMeter.Gtpu
import GtpMeter.WireBytes
import Mathlib.Data.List.Induction

/-!
# The grammar of GTP-U

What `parse_gtpu` accepts, described without running it: the mandatory header, the
optional block, a chain of extension headers and the payload.  The type of a header of
the chain stands one header ahead, so the chain is the list of its links and the bytes
follow from the list.

**Results.**
* `extChainLoop_chain`, `chain_of_extChainLoop`: the walk over the chain returns exactly
  on the chains.
* `parseGtpu_of_pdu`, `pdu_of_parseGtpu`: the parser accepts exactly the PDUs.
* `parseGtpu_accepts_grammar`: what is accepted, and what the header then says.
-/

namespace GtpMeter

section Chain

/-- An extension header, with the type that announced it. -/
structure ExtLink where
  type : UInt8
  /-- Its length in units of 4 bytes. -/
  units : UInt8
  content : List UInt8
  type_ne : type ≠ GtpuExtType.none.code
  units_ne : units ≠ 0
  length_eq : content.length + 2 = units.toNat * 4

/-- The type that announces a chain. -/
def chainType : List ExtLink → UInt8
  | [] => GtpuExtType.none.code
  | l :: _ => l.type

/-- Each header is its length, its content and the type of the next. -/
def chainBytes : List ExtLink → List UInt8
  | [] => []
  | l :: links => l.units :: (l.content ++ chainType links :: chainBytes links)

def chainLen (links : List ExtLink) : Nat :=
  (links.map (fun l => l.units.toNat * 4)).sum

theorem chainBytes_length (links : List ExtLink) : (chainBytes links).length = chainLen links := by
  induction links with
  | nil => rfl
  | cons l links ih =>
      have hlen := l.length_eq
      simp only [chainBytes, chainLen, List.length_cons, List.length_append, List.map_cons,
        List.sum_cons] at ih ⊢
      omega

namespace ExtLink

/-- The first two bytes of the content, which every header has. -/
def head (l : ExtLink) : UInt8 × UInt8 :=
  (l.content.getD 0 0, l.content.getD 1 0)

def isContainer (l : ExtLink) : Bool :=
  l.type == GtpuExtType.pduSessionContainer.code

/-- What a header of the chain leaves in the parsed header. -/
def apply (out : GtpuHeader) (l : ExtLink) : GtpuHeader :=
  if l.isContainer then out.setPduSession l.head.1 l.head.2 else out

theorem content_eq (l : ExtLink) : ∃ rest, l.content = l.head.1 :: l.head.2 :: rest := by
  have hlen := l.length_eq
  have hpos : l.units.toNat ≠ 0 := fun h => l.units_ne (UInt8.toNat_inj.mp h)
  unfold head
  match l.content, hlen with
  | c0 :: c1 :: rest, _ => exact ⟨rest, rfl⟩
  | [_], hlen =>
      simp only [List.length_singleton] at hlen
      omega
  | [], hlen =>
      simp only [List.length_nil] at hlen
      omega

end ExtLink

/-- The last PDU Session Container of a chain. -/
def lastContainer (links : List ExtLink) : Option ExtLink :=
  (links.filter ExtLink.isContainer).getLast?

/-- A later container replaces all that an earlier one has set. -/
theorem foldl_apply (links : List ExtLink) (out : GtpuHeader) :
    links.foldl ExtLink.apply out =
      match lastContainer links with
      | none => out
      | some l => out.setPduSession l.head.1 l.head.2 := by
  induction links using List.reverseRecOn with
  | nil => rfl
  | append_singleton links l ih =>
      rw [List.foldl_append, List.foldl_cons, List.foldl_nil, ih]
      cases hl : l.isContainer with
      | false => simp [ExtLink.apply, lastContainer, hl]
      | true =>
          have hlast : lastContainer (links ++ [l]) = some l := by simp [lastContainer, hl]
          rw [hlast, ExtLink.apply, if_pos hl]
          cases lastContainer links with
          | none => rfl
          | some _ => rfl

/-- What a whole chain leaves in the parsed header. -/
def withChain (links : List ExtLink) (out : GtpuHeader) : GtpuHeader :=
  { links.foldl ExtLink.apply out with extCount := UInt8.ofNat links.length }

/-- Fields that no chain changes. -/
structure ChainKeeps (out out' : GtpuHeader) : Prop where
  teid_eq : out'.teid = out.teid
  msgType_eq : out'.msgType = out.msgType
  declaredLen_eq : out'.declaredLen = out.declaredLen
  seq_eq : out'.seq = out.seq
  npdu_eq : out'.npdu = out.npdu
  hasSeq_eq : out'.hasSeq = out.hasSeq
  hasNpdu_eq : out'.hasNpdu = out.hasNpdu

theorem withChain_keeps (links : List ExtLink) (out : GtpuHeader) :
    ChainKeeps out (withChain links out) := by
  unfold withChain
  rw [foldl_apply]
  cases lastContainer links with
  | none | some l => exact ⟨rfl, rfl, rfl, rfl, rfl, rfl, rfl⟩

section Walk

variable {buf : Span} {left consumed : Nat} {next : UInt8} {out out' : GtpuHeader}

/-- The content of a header that lies in the buffer. -/
theorem readExtContent_link {l : ExtLink} {bs : List UInt8}
    (h : buf.Has consumed (l.units :: (l.content ++ bs))) :
    readExtContent buf l.type consumed (l.units.toNat * 4) out = .ok (l.apply out) := by
  obtain ⟨rest, hcontent⟩ := l.content_eq
  rw [hcontent] at h
  have hc0 : buf.read (consumed + 1) = .ok l.head.1 := h.read rfl
  have hc1 : buf.read (consumed + 2) = .ok l.head.2 := h.read rfl
  have hlen : 2 ≤ l.units.toNat * 4 - 2 := by
    have := congrArg List.length hcontent
    have := l.length_eq
    simp only [List.length_cons] at *
    omega
  by_cases hl : l.type = GtpuExtType.pduSessionContainer.code
  · simp [readExtContent, ExtLink.apply, ExtLink.isContainer, hl, hlen, hc0, hc1, bind,
      Except.bind]
  · simp [readExtContent, ExtLink.apply, ExtLink.isContainer, hl]

/-- One round of the loop over a header that lies in the buffer. -/
theorem extChainLoop_cons {l : ExtLink} {bs : List UInt8}
    (h : buf.Has consumed (l.units :: (l.content ++ next :: bs))) :
    extChainLoop buf (left + 1) l.type consumed out =
      extChainLoop buf left next (consumed + l.units.toNat * 4) (l.apply out) := by
  have hlen := l.length_eq
  have hfits := h.fits
  simp only [List.length_cons, List.length_append] at hfits
  have hunits : buf.read consumed = .ok l.units := h.read (j := 0) rfl
  have hnext : buf.read (consumed + l.units.toNat * 4 - 1) = .ok next := by
    have hpos : consumed + l.units.toNat * 4 - 1 = consumed + (l.content.length + 1) := by omega
    rw [hpos]
    refine h.read ?_
    rw [List.getElem?_cons_succ, List.getElem?_append_right (Nat.le_refl _), Nat.sub_self]
    rfl
  rw [extChainLoop, if_neg l.type_ne]
  simp only [hunits, if_neg l.units_ne, readExtContent_link h, hnext, bind, Except.bind]
  rw [if_neg (by omega), if_neg (by omega)]

theorem has_chainBytes_cons {l : ExtLink} {links : List ExtLink} :
    buf.Has consumed (chainBytes (l :: links)) ↔
      buf.Has consumed (l.units :: (l.content ++ [chainType links])) ∧
        buf.Has (consumed + l.units.toNat * 4) (chainBytes links) := by
  have hsplit : chainBytes (l :: links) =
      (l.units :: (l.content ++ [chainType links])) ++ chainBytes links := by
    simp [chainBytes]
  have hlen : (l.units :: (l.content ++ [chainType links])).length = l.units.toNat * 4 := by
    have := l.length_eq
    simp only [List.length_cons, List.length_append, List.length_nil]
    omega
  rw [hsplit, Span.Has.append_iff, hlen]

/-- The loop returns on a chain that lies in the buffer. -/
theorem extChainLoop_chain (out : GtpuHeader) (links : List ExtLink) (hleft : links.length ≤ left)
    (h : buf.Has consumed (chainBytes links)) :
    extChainLoop buf left (chainType links) consumed out =
      .ok (.ok,
        { links.foldl ExtLink.apply out with
          extCount := UInt8.ofNat (kGtpuMaxExtHeaders - (left - links.length)) },
        consumed + chainLen links) := by
  induction links generalizing left consumed out with
  | nil =>
      cases left with
      | zero => rfl
      | succ left => rfl
  | cons l links ih =>
      obtain ⟨left, rfl⟩ : ∃ m, left = m + 1 := ⟨left - 1, by simp at hleft; omega⟩
      obtain ⟨hlink, hrest⟩ := has_chainBytes_cons.mp h
      simp only [List.length_cons, Nat.add_le_add_iff_right] at hleft
      have hsum : chainLen (l :: links) = l.units.toNat * 4 + chainLen links := by
        simp [chainLen]
      rw [chainType, extChainLoop_cons hlink, ih _ hleft hrest, hsum]
      simp [Nat.add_assoc]

theorem parseExtChain_chain (out : GtpuHeader) (links : List ExtLink)
    (hmax : links.length ≤ kGtpuMaxExtHeaders) (h : buf.Has 0 (chainBytes links)) :
    parseExtChain buf (chainType links) out =
      .ok (.ok, withChain links out, chainLen links) := by
  rw [parseExtChain, extChainLoop_chain out links hmax h, Nat.sub_sub_self hmax, Nat.zero_add]
  rfl

/-- The header that begins at `consumed`, when the checks of the loop pass there. -/
theorem link_at (hnext : next ≠ GtpuExtType.none.code) (hin : consumed < buf.size)
    (hunits : buf.byte consumed ≠ 0)
    (hfits : consumed + (buf.byte consumed).toNat * 4 ≤ buf.size) :
    ∃ (l : ExtLink) (following : UInt8), l.type = next ∧
      l.units = buf.byte consumed ∧
      buf.Has consumed (l.units :: (l.content ++ [following])) := by
  have hpos : (buf.byte consumed).toNat ≠ 0 := fun h => hunits (UInt8.toNat_inj.mp h)
  have hself := Span.Has.self (s := buf) (i := consumed + 1)
    (n := (buf.byte consumed).toNat * 4 - 2) (by omega)
  have hlen := hself.fits
  have hcontent : ((buf.bytes.drop (consumed + 1)).take
      ((buf.byte consumed).toNat * 4 - 2)).length = (buf.byte consumed).toNat * 4 - 2 := by
    have : buf.bytes.length = buf.size := rfl
    simp only [List.length_take, List.length_drop]
    omega
  refine ⟨⟨next, buf.byte consumed, _, hnext, hunits, by rw [hcontent]; omega⟩,
    buf.byte (consumed + 1 + ((buf.byte consumed).toNat * 4 - 2)), rfl, rfl, ?_⟩
  refine Span.Has.cons_iff.mpr ⟨Span.Has.byte hin, Span.Has.append_iff.mpr ⟨hself, ?_⟩⟩
  rw [hcontent]
  exact Span.Has.byte (by omega)

/-- Where the loop returns `ok` there is a chain. -/
theorem chain_of_extChainLoop {n : Nat} (hc : consumed ≤ buf.size)
    (h : extChainLoop buf left next consumed out = .ok (.ok, out', n)) :
    ∃ links, chainType links = next ∧ links.length ≤ left ∧
      buf.Has consumed (chainBytes links) := by
  induction left generalizing next consumed out with
  | zero =>
      rw [extChainLoop] at h
      by_cases hnext : next = GtpuExtType.none.code
      · exact ⟨[], hnext.symm, Nat.le_refl _, Span.Has.nil hc⟩
      · rw [if_neg hnext] at h
        cases h
  | succ left ih =>
      by_cases hnext : next = GtpuExtType.none.code
      · exact ⟨[], hnext.symm, Nat.zero_le _, Span.Has.nil hc⟩
      · have hstep := h
        rw [extChainLoop, if_neg hnext] at hstep
        dsimp only at hstep
        by_cases hin : consumed ≥ buf.size
        · rw [if_pos hin] at hstep
          cases hstep
        have hread := Span.read_eq (Nat.lt_of_not_le hin)
        simp only [if_neg hin, hread, bind, Except.bind] at hstep
        by_cases hunits : buf.byte consumed = 0
        · rw [if_pos hunits] at hstep
          cases hstep
        rw [if_neg hunits] at hstep
        by_cases hfits : consumed + (buf.byte consumed).toNat * 4 > buf.size
        · rw [if_pos hfits] at hstep
          cases hstep
        -- all checks pass, so a header lies here and the loop goes on behind it
        obtain ⟨l, following, rfl, hlu, hlink⟩ :=
          link_at hnext (Nat.lt_of_not_le hin) hunits (Nat.le_of_not_lt hfits)
        rw [extChainLoop_cons hlink] at h
        rw [← hlu] at hfits
        obtain ⟨links, rfl, hle, hrest⟩ := ih (Nat.le_of_not_lt hfits) h
        exact ⟨l :: links, rfl, Nat.succ_le_succ hle, has_chainBytes_cons.mpr ⟨hlink, hrest⟩⟩

end Walk
end Chain

section Pdu

section Fields

variable (s : Span)

/-- The length field. -/
def gtpuLength : Nat :=
  (be16 (s.byte 2) (s.byte 3)).toNat

/-- One of the flags E, S and PN. -/
def gtpuFlag (mask : UInt8) : Bool :=
  s.byte 0 &&& mask != 0

/-- Any of the flags brings all four optional bytes. -/
def gtpuOptional : Bool :=
  gtpuFlag s 0x04 || gtpuFlag s 0x02 || gtpuFlag s 0x01

/-- E is set and the type of the first extension header is not zero. -/
def gtpuExtended : Bool :=
  gtpuFlag s 0x04 && s.byte 11 != GtpuExtType.none.code

/-- The bytes before the payload. -/
def gtpuHeaderLen (links : List ExtLink) : Nat :=
  8 + (if gtpuOptional s then 4 else 0) + chainLen links

end Fields

/-- The span begins with a PDU whose extension headers are `links`. -/
structure GtpuPdu (s : Span) (links : List ExtLink) : Prop where
  size_ge : 8 ≤ s.size
  version : s.byte 0 >>> 5 = 1
  protocol : s.byte 0 &&& 0x10 ≠ 0
  length_le : gtpuLength s ≤ s.size - 8
  optional : gtpuOptional s = true → 4 ≤ gtpuLength s
  chain : gtpuExtended s = true → 1 ≤ links.length ∧ links.length ≤ kGtpuMaxExtHeaders ∧
    chainType links = s.byte 11 ∧
    chainBytes links <+: (s.bytes.drop 12).take (gtpuLength s - 4)
  no_chain : gtpuExtended s = false → links = []

/-- The mandatory header. -/
def gtpuFixed (s : Span) : GtpuHeader where
  msgType := s.byte 1
  declaredLen := be16 (s.byte 2) (s.byte 3)
  teid := be32 (s.byte 4) (s.byte 5) (s.byte 6) (s.byte 7)

/-- The mandatory header and the optional block. -/
def gtpuWithOptional (s : Span) : GtpuHeader :=
  { gtpuFixed s with
    seq := be16 (s.byte 8) (s.byte 9)
    npdu := s.byte 10
    hasSeq := gtpuFlag s 0x02
    hasNpdu := gtpuFlag s 0x01 }

/-- The same, when a chain follows. -/
def gtpuWithExt (s : Span) : GtpuHeader :=
  { gtpuWithOptional s with hasExt := true }

/-- What is known of the header when its payload is cut out. -/
def gtpuFields (s : Span) (links : List ExtLink) : GtpuHeader :=
  if gtpuExtended s then withChain links (gtpuWithExt s)
  else if gtpuOptional s then gtpuWithOptional s
  else gtpuFixed s

/-- The header with its payload, `count` bytes at `offset`. -/
def cutPayload (s : Span) (offset count : Nat) (out : GtpuHeader) : GtpuHeader :=
  { out with
    headerLen := UInt16.ofNat offset
    payload := ⟨s.off + offset, (s.bytes.drop offset).take count⟩ }

/-- The header that a PDU parses to. -/
def pduHeader (s : Span) (links : List ExtLink) : GtpuHeader :=
  cutPayload s (gtpuHeaderLen s links) (8 + gtpuLength s - gtpuHeaderLen s links)
    (gtpuFields s links)

variable {s : Span} {links : List ExtLink} {h out : GtpuHeader}

theorem not_extended_of_not_optional (hopt : gtpuOptional s = false) :
    gtpuExtended s = false := by
  simp only [gtpuOptional, Bool.or_eq_false_iff] at hopt
  simp [gtpuExtended, hopt.1.1]

@[simp] theorem gtpuFixed_declaredLen : (gtpuFixed s).declaredLen.toNat = gtpuLength s :=
  rfl

@[simp] theorem gtpuWithOptional_declaredLen :
    (gtpuWithOptional s).declaredLen.toNat = gtpuLength s :=
  rfl

section Stages

/-- The checks on the mandatory header. -/
theorem parseGtpu_fixed (hsize : 8 ≤ s.size) (hversion : s.byte 0 >>> 5 = 1)
    (hprotocol : s.byte 0 &&& 0x10 ≠ 0) (hlength : gtpuLength s ≤ s.size - 8) :
    parseGtpu s =
      if gtpuOptional s then
        parseOptional s (gtpuFlag s 0x04) (gtpuFlag s 0x02) (gtpuFlag s 0x01) (gtpuFixed s)
      else takeGtpuPayload s 8 0 (gtpuFixed s) := by
  have hfixed : kGtpuFixedHeaderLen = 8 := rfl
  have hlength' : ¬s.size - 8 < (be16 (s.byte 2) (s.byte (2 + 1))).toNat := Nat.not_lt.mpr hlength
  rw [parseGtpu, hfixed, if_neg (by omega), Span.read_eq (by omega), Span.read_eq (by omega),
    Span.loadBe16_eq (by omega), Span.loadBe32_eq (by omega)]
  simp only [bind, Except.bind, hversion, hprotocol, hlength', ne_eq, not_true_eq_false, if_false]
  rfl

/-- The optional block, up to the chain. -/
theorem parseOptional_fields (hsize : 12 ≤ s.size) (hlength : 4 ≤ gtpuLength s) :
    parseOptional s (gtpuFlag s 0x04) (gtpuFlag s 0x02) (gtpuFlag s 0x01) (gtpuFixed s) =
      if gtpuExtended s then do
        let extArea ← s.subspan 12 (gtpuLength s - 4)
        let (st, out, extBytes) ←
          parseExtChain extArea (s.byte 11) (gtpuWithExt s)
        if st ≠ .ok then .ok (st, out) else takeGtpuPayload s (12 + extBytes) (4 + extBytes) out
      else takeGtpuPayload s 12 4 (gtpuWithOptional s) := by
  have hopt : kGtpuOptionalFieldsLen = 4 := rfl
  rw [parseOptional, hopt, gtpuFixed_declaredLen, if_neg (by omega), Span.loadBe16_eq (by omega),
    Span.read_eq (by omega), Span.read_eq (by omega)]
  rfl

/-- The payload is what the declared length leaves. -/
theorem takeGtpuPayload_ok {offset optionalAndExt : Nat}
    (hle : optionalAndExt ≤ out.declaredLen.toNat)
    (hfits : offset + (out.declaredLen.toNat - optionalAndExt) ≤ s.size) :
    takeGtpuPayload s offset optionalAndExt out =
      .ok (.ok, cutPayload s offset (out.declaredLen.toNat - optionalAndExt) out) := by
  rw [takeGtpuPayload, if_neg (Nat.not_lt.mpr hle), Span.subspan_eq hfits]
  rfl

end Stages

theorem withChain_declaredLen (links : List ExtLink) :
    (withChain links (gtpuWithExt s)).declaredLen.toNat = gtpuLength s := by
  rw [(withChain_keeps links (gtpuWithExt s)).declaredLen_eq]
  rfl

theorem chainLen_le (hp : GtpuPdu s links) : chainLen links ≤ gtpuLength s - 4 := by
  cases hext : gtpuExtended s with
  | false =>
      rw [hp.no_chain hext]
      exact Nat.zero_le _
  | true =>
      obtain ⟨-, -, -, hchain⟩ := hp.chain hext
      have hle := hchain.length_le
      rw [chainBytes_length, List.length_take] at hle
      omega

/-- Every PDU of the grammar is accepted, with its header. -/
theorem parseGtpu_of_pdu (hp : GtpuPdu s links) : parseGtpu s = .ok (.ok, pduHeader s links) := by
  have hsize := hp.size_ge
  have hlength := hp.length_le
  have hle := chainLen_le hp
  rw [parseGtpu_fixed hsize hp.version hp.protocol hlength, pduHeader, gtpuFields, gtpuHeaderLen]
  cases hopt : gtpuOptional s with
  | false =>
      have hext := not_extended_of_not_optional hopt
      obtain rfl := hp.no_chain hext
      rw [if_neg Bool.false_ne_true, takeGtpuPayload_ok (Nat.zero_le _) (by simp; omega)]
      simp [chainLen, hext]
  | true =>
      have hfour := hp.optional hopt
      rw [if_pos rfl, if_pos rfl, parseOptional_fields (by omega) hfour]
      cases hext : gtpuExtended s with
      | false =>
          obtain rfl := hp.no_chain hext
          have hcount : 8 + gtpuLength s - (8 + 4 + chainLen []) = gtpuLength s - 4 := by
            simp only [chainLen, List.map_nil, List.sum_nil]
            omega
          rw [if_neg Bool.false_ne_true, hcount, takeGtpuPayload_ok (by simpa using hfour)
            (by simp; omega)]
          rfl
      | true =>
          obtain ⟨-, hmax, htype, hchain⟩ := hp.chain hext
          have hcount : 8 + gtpuLength s - (8 + 4 + chainLen links) =
              gtpuLength s - (4 + chainLen links) := by omega
          have harea : Span.Has ⟨s.off + 12, (s.bytes.drop 12).take (gtpuLength s - 4)⟩ 0
              (chainBytes links) := Span.Has.zero_iff.mpr hchain
          rw [if_pos rfl, Span.subspan_eq (by omega), ← htype]
          simp only [bind, Except.bind, parseExtChain_chain _ links hmax harea]
          rw [if_neg (fun hne => hne rfl), takeGtpuPayload_ok, withChain_declaredLen, hcount]
          · rfl
          · rw [withChain_declaredLen]
            omega
          · rw [withChain_declaredLen]
            omega

/-- The checks on the mandatory header that an accepted PDU has passed. -/
theorem fixed_of_parseGtpu (hparse : parseGtpu s = .ok (.ok, h)) :
    8 ≤ s.size ∧ s.byte 0 >>> 5 = 1 ∧ s.byte 0 &&& 0x10 ≠ 0 ∧ gtpuLength s ≤ s.size - 8 := by
  have hfixed : kGtpuFixedHeaderLen = 8 := rfl
  rw [parseGtpu, hfixed] at hparse
  by_cases hsize : s.size < 8
  · rw [if_pos hsize] at hparse
    cases hparse
  rw [if_neg hsize, Span.read_eq (by omega), Span.read_eq (by omega),
    Span.loadBe16_eq (by omega), Span.loadBe32_eq (by omega)] at hparse
  simp only [bind, Except.bind] at hparse
  by_cases hversion : s.byte 0 >>> 5 ≠ 1
  · rw [if_pos hversion] at hparse
    cases hparse
  rw [if_neg hversion] at hparse
  by_cases hprotocol : s.byte 0 &&& 0x10 = 0
  · rw [if_pos hprotocol] at hparse
    cases hparse
  rw [if_neg hprotocol] at hparse
  by_cases hlength : s.size - 8 < (be16 (s.byte 2) (s.byte (2 + 1))).toNat
  · rw [if_pos hlength] at hparse
    cases hparse
  exact ⟨Nat.le_of_not_lt hsize, not_not.mp hversion, hprotocol, Nat.le_of_not_lt hlength⟩

/-- Whatever is accepted is a PDU of the grammar. -/
theorem pdu_of_parseGtpu (hparse : parseGtpu s = .ok (.ok, h)) : ∃ links, GtpuPdu s links := by
  obtain ⟨hsize, hversion, hprotocol, hlength⟩ := fixed_of_parseGtpu hparse
  rw [parseGtpu_fixed hsize hversion hprotocol hlength] at hparse
  cases hopt : gtpuOptional s with
  | false =>
      have hext := not_extended_of_not_optional hopt
      exact ⟨[], hsize, hversion, hprotocol, hlength, by simp [hopt], by simp [hext],
        fun _ => rfl⟩
  | true =>
      rw [hopt, if_pos rfl] at hparse
      have hfour : 4 ≤ gtpuLength s := by
        by_contra hshort
        have hopt4 : kGtpuOptionalFieldsLen = 4 := rfl
        rw [parseOptional, hopt4, gtpuFixed_declaredLen, if_pos (by omega)] at hparse
        cases hparse
      rw [parseOptional_fields (by omega) hfour] at hparse
      cases hext : gtpuExtended s with
      | false =>
          exact ⟨[], hsize, hversion, hprotocol, hlength, fun _ => hfour, by simp [hext],
            fun _ => rfl⟩
      | true =>
          rw [hext, if_pos rfl, Span.subspan_eq (by omega)] at hparse
          simp only [bind, Except.bind] at hparse
          cases hwalk : parseExtChain
              ⟨s.off + 12, (s.bytes.drop 12).take (gtpuLength s - 4)⟩ (s.byte 11)
              (gtpuWithExt s) with
          | error e =>
              rw [hwalk] at hparse
              cases hparse
          | ok r =>
              obtain ⟨st, out, n⟩ := r
              rw [hwalk] at hparse
              dsimp only at hparse
              by_cases hst : st = .ok
              · subst hst
                obtain ⟨links, htype, hmax, hhas⟩ :=
                  chain_of_extChainLoop (Nat.zero_le _) hwalk
                have hne : links ≠ [] := by
                  rintro rfl
                  simp [gtpuExtended, ← htype, chainType] at hext
                exact ⟨links, hsize, hversion, hprotocol, hlength, fun _ => hfour,
                  fun _ => ⟨List.length_pos_iff.mpr hne, hmax, htype,
                    Span.Has.zero_iff.mp hhas⟩, by simp [hext]⟩
              · rw [if_pos hst] at hparse
                exact absurd (congrArg Prod.fst (Except.ok.inj hparse)) hst

section Fields

/-- The cap on the links bounds the chain, whatever the declared length. -/
theorem chainLen_le_cap (links : List ExtLink) : chainLen links ≤ links.length * 1020 := by
  induction links with
  | nil => exact Nat.le_refl _
  | cons l links ih =>
      have hunits := l.units.toNat_lt
      simp only [chainLen, List.map_cons, List.sum_cons, List.length_cons] at ih ⊢
      omega

theorem links_le (hp : GtpuPdu s links) : links.length ≤ 16 := by
  cases hext : gtpuExtended s with
  | false => simp [hp.no_chain hext]
  | true => exact (hp.chain hext).2.1

theorem pduHeader_headerLen (hp : GtpuPdu s links) :
    (pduHeader s links).headerLen.toNat = gtpuHeaderLen s links := by
  have hcap := chainLen_le_cap links
  have hmax := links_le hp
  have hlt : gtpuHeaderLen s links < 65536 := by
    unfold gtpuHeaderLen
    split <;> omega
  exact Nat.mod_eq_of_lt hlt

theorem pduHeader_extCount (hp : GtpuPdu s links) :
    (pduHeader s links).extCount.toNat = links.length := by
  have hmax := links_le hp
  cases hext : gtpuExtended s with
  | false =>
      have hcount : (pduHeader s links).extCount = 0 := by
        simp only [pduHeader, cutPayload, gtpuFields, hext]
        cases gtpuOptional s with
        | false => rfl
        | true => rfl
      rw [hcount, hp.no_chain hext]
      rfl
  | true =>
      have hcount : (pduHeader s links).extCount = UInt8.ofNat links.length := by
        simp [pduHeader, cutPayload, gtpuFields, hext, withChain]
      rw [hcount, UInt8.toNat_ofNat']
      omega

theorem pduHeader_size (hp : GtpuPdu s links) :
    gtpuHeaderLen s links + (pduHeader s links).payload.size = 8 + gtpuLength s := by
  have hlength := hp.length_le
  have hsize := hp.size_ge
  have hle := chainLen_le hp
  have hhead : gtpuHeaderLen s links ≤ 8 + gtpuLength s := by
    unfold gtpuHeaderLen
    cases hopt : gtpuOptional s with
    | false =>
        have hext := not_extended_of_not_optional hopt
        simp [hp.no_chain hext, chainLen]
    | true =>
        have := hp.optional hopt
        simp only [if_true]
        omega
  have hbytes : s.bytes.length = s.size := rfl
  simp only [pduHeader, cutPayload, Span.size, List.length_take, List.length_drop]
  omega

theorem pduHeader_fixed (s : Span) (links : List ExtLink) :
    (pduHeader s links).teid = be32 (s.byte 4) (s.byte 5) (s.byte 6) (s.byte 7) ∧
      (pduHeader s links).msgType = s.byte 1 ∧
      (pduHeader s links).declaredLen.toNat = gtpuLength s := by
  have hchain := withChain_keeps links (gtpuWithExt s)
  simp only [pduHeader, cutPayload, gtpuFields]
  cases gtpuExtended s with
  | true => exact ⟨hchain.teid_eq, hchain.msgType_eq, by rw [if_pos rfl, hchain.declaredLen_eq]; rfl⟩
  | false =>
      cases gtpuOptional s with
      | true => exact ⟨rfl, rfl, rfl⟩
      | false => exact ⟨rfl, rfl, rfl⟩

theorem pduHeader_optional (s : Span) (links : List ExtLink) :
    (pduHeader s links).hasSeq = gtpuFlag s 0x02 ∧
      (pduHeader s links).hasNpdu = gtpuFlag s 0x01 ∧
      (gtpuOptional s = true → (pduHeader s links).seq = be16 (s.byte 8) (s.byte 9) ∧
        (pduHeader s links).npdu = s.byte 10) := by
  have hchain := withChain_keeps links (gtpuWithExt s)
  simp only [pduHeader, cutPayload, gtpuFields]
  cases gtpuExtended s with
  | true =>
      exact ⟨hchain.hasSeq_eq, hchain.hasNpdu_eq, fun _ => ⟨hchain.seq_eq, hchain.npdu_eq⟩⟩
  | false =>
      cases hopt : gtpuOptional s with
      | true => exact ⟨rfl, rfl, fun _ => ⟨rfl, rfl⟩⟩
      | false =>
          simp only [gtpuOptional, Bool.or_eq_false_iff] at hopt
          exact ⟨hopt.1.2.symm, hopt.2.symm, by simp⟩

/-- The fields of the PDU Session Container come from the last one of the chain. -/
theorem pduHeader_container (hp : GtpuPdu s links) :
    (pduHeader s links).hasQfi = (lastContainer links).isSome ∧
    (∀ l, lastContainer links = some l →
      (pduHeader s links).qfi = l.head.2 &&& 0x3F ∧
      (pduHeader s links).pduType = l.head.1 >>> 4 ∧
      (pduHeader s links).rqi = (l.head.1 >>> 4 == 0 && l.head.2 &&& 0x40 != 0)) ∧
    (lastContainer links = none → (pduHeader s links).qfi = 0 ∧
      (pduHeader s links).pduType = 0 ∧ (pduHeader s links).rqi = false) := by
  cases hext : gtpuExtended s with
  | false =>
      have hfields : gtpuFields s links = gtpuWithOptional s ∨ gtpuFields s links = gtpuFixed s := by
        cases hopt : gtpuOptional s with
        | false => simp [gtpuFields, hext, hopt]
        | true => simp [gtpuFields, hext, hopt]
      rw [hp.no_chain hext] at hfields ⊢
      simp only [pduHeader]
      obtain hf | hf := hfields
      · rw [hf]
        exact ⟨rfl, by simp [lastContainer], fun _ => ⟨rfl, rfl, rfl⟩⟩
      · rw [hf]
        exact ⟨rfl, by simp [lastContainer], fun _ => ⟨rfl, rfl, rfl⟩⟩
  | true =>
      simp only [pduHeader, gtpuFields, hext, if_true, withChain, foldl_apply]
      cases lastContainer links with
      | none => exact ⟨rfl, by simp, fun _ => ⟨rfl, rfl, rfl⟩⟩
      | some l =>
          refine ⟨rfl, ?_, by simp⟩
          rintro _ ⟨⟩
          exact ⟨rfl, rfl, rfl⟩

end Fields

/-- **GTP-U is accepted by its grammar, and every byte of a PDU is accounted for.** -/
theorem parseGtpu_accepts_grammar (s : Span) :
    ((∃ h, parseGtpu s = .ok (.ok, h)) ↔ ∃ links, GtpuPdu s links) ∧
    ∀ h links, parseGtpu s = .ok (.ok, h) → GtpuPdu s links →
      h.extCount.toNat = links.length ∧
      h.headerLen.toNat = 8 + (if gtpuOptional s then 4 else 0) +
        (links.map (fun l => l.units.toNat * 4)).sum ∧
      h.payload.off = s.off + h.headerLen.toNat ∧
      h.payload.bytes =
        (s.bytes.drop h.headerLen.toNat).take (8 + gtpuLength s - h.headerLen.toNat) ∧
      h.headerLen.toNat + h.payload.size = 8 + gtpuLength s ∧
      h.hasQfi = (lastContainer links).isSome ∧
      (∀ l, lastContainer links = some l →
        h.qfi = l.head.2 &&& 0x3F ∧ h.pduType = l.head.1 >>> 4 ∧
        h.rqi = (l.head.1 >>> 4 == 0 && l.head.2 &&& 0x40 != 0)) ∧
      (lastContainer links = none → h.qfi = 0 ∧ h.pduType = 0 ∧ h.rqi = false) := by
  refine ⟨⟨?_, ?_⟩, ?_⟩
  · rintro ⟨h, hparse⟩
    exact pdu_of_parseGtpu hparse
  · rintro ⟨links, hp⟩
    exact ⟨_, parseGtpu_of_pdu hp⟩
  · intro h links hparse hp
    obtain rfl : pduHeader s links = h :=
      congrArg Prod.snd (Except.ok.inj ((parseGtpu_of_pdu hp).symm.trans hparse))
    have hlen := pduHeader_headerLen hp
    refine ⟨pduHeader_extCount hp, hlen, ?_, ?_, ?_, pduHeader_container hp⟩
    · rw [hlen]
      rfl
    · rw [hlen]
      rfl
    · rw [hlen]
      exact pduHeader_size hp

/-- A PDU with one extension header, two bytes of payload and two bytes of padding behind
them. -/
def extendedPdu : Span :=
  .whole [0x34, 255, 0, 10, 0, 0, 0, 7, 0, 0, 0, 0x85, 1, 0x10, 5, 0, 0xAA, 0xBB, 0, 0]

def extendedLinks : List ExtLink :=
  [⟨0x85, 1, [0x10, 5], by decide, by decide, by decide⟩]

theorem extendedPdu_pdu : GtpuPdu extendedPdu extendedLinks where
  size_ge := by decide
  version := by decide
  protocol := by decide
  length_le := by decide
  optional := fun _ => by decide
  chain := fun _ => ⟨by decide, by decide, by decide, by decide⟩
  no_chain := fun h => absurd h (by decide)

theorem parseGtpu_accepts_extended :
    ∃ h, parseGtpu extendedPdu = .ok (.ok, h) ∧ h.extCount.toNat = 1 ∧
      h.headerLen.toNat = 16 ∧ h.headerLen.toNat + h.payload.size = 18 ∧ h.hasQfi = true := by
  obtain ⟨haccepts, hfields⟩ := parseGtpu_accepts_grammar extendedPdu
  obtain ⟨h, hparse⟩ := haccepts.mpr ⟨extendedLinks, extendedPdu_pdu⟩
  obtain ⟨hcount, hlen, -, -, hsize, hqfi, -, -⟩ := hfields h extendedLinks hparse extendedPdu_pdu
  exact ⟨h, hparse, hcount, hlen, hsize, hqfi⟩

end Pdu

end GtpMeter
