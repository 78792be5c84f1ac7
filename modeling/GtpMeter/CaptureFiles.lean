import GtpMeter.CutSequences
import GtpMeter.Pcap
import GtpMeter.WireBytes

/-!
# What capture files hold

A classic pcap file is a header and a sequence of records, with the words of both in one
byte order and the timestamps of the records in one resolution.  Files are written here by
a function of their contents, in any of the four variants, and loaded by `PcapFile::load`.

A file that is cut short ends with part of a record.  The loop over records ends when
there is no room for another record header, and it is only when it has read the header
that it counts a record as malformed.

**Results.**
* `pcapRecords_run`: the loop over whole records.
* `captures_round_trip`: a file is loaded as it was written, in every variant, and
  `PcapWriter` writes one of them.
* `cut_counted_iff`: when a cut is counted.
-/

namespace GtpMeter

/-- Byte order and resolution of a file. -/
structure PcapVariant where
  bigEndian : Bool
  nanos : Bool
deriving DecidableEq

namespace PcapVariant

def u32Bytes (v : PcapVariant) (w : UInt32) : List UInt8 :=
  if v.bigEndian then be32Bytes w else le32Bytes w

def u16Bytes (v : PcapVariant) (w : UInt16) : List UInt8 :=
  if v.bigEndian then be16Bytes w else le16Bytes w

/-- The magic number, which is written in the byte order of the file. -/
def magic (v : PcapVariant) : UInt32 :=
  if v.nanos then kPcapMagicNano else kPcapMagicMicro

variable {v : PcapVariant} {s : Span} {i : Nat}

@[simp] theorem u32Bytes_length (v : PcapVariant) (w : UInt32) : (v.u32Bytes w).length = 4 := by
  rw [u32Bytes]
  split <;> rfl

@[simp] theorem u16Bytes_length (v : PcapVariant) (w : UInt16) : (v.u16Bytes w).length = 2 := by
  rw [u16Bytes]
  split <;> rfl

theorem load_u32 {w : UInt32} (h : s.Has i (v.u32Bytes w)) : pcapU32 v.bigEndian s i = .ok w := by
  rw [u32Bytes] at h
  rw [pcapU32]
  cases hbig : v.bigEndian with
  | true =>
      rw [hbig, if_pos rfl] at h
      exact h.load32 (j := 0) rfl
  | false =>
      rw [hbig, if_neg (by decide)] at h
      rw [if_neg (by decide), Span.loadLe32, show s.read i = _ from h.read (j := 0) rfl,
        h.read (j := 1) rfl, h.read (j := 2) rfl, h.read (j := 3) rfl]
      exact congrArg Except.ok (be32_be32Bytes w)

theorem load_u16 {w : UInt16} (h : s.Has i (v.u16Bytes w)) : pcapU16 v.bigEndian s i = .ok w := by
  rw [u16Bytes] at h
  rw [pcapU16]
  cases hbig : v.bigEndian with
  | true =>
      rw [hbig, if_pos rfl] at h
      exact h.load16 (j := 0) rfl
  | false =>
      rw [hbig, if_neg (by decide)] at h
      rw [if_neg (by decide), Span.loadLe16, show s.read i = _ from h.read (j := 0) rfl,
        h.read (j := 1) rfl]
      exact congrArg Except.ok (be16_be16Bytes w)

/-- The magic number is told from its bytes, whatever their order. -/
theorem load_magic (h : s.Has i (v.u32Bytes v.magic)) :
    ∃ magicLe, s.loadLe32 i = .ok magicLe ∧ pcapMagic magicLe = some (v.bigEndian, v.nanos) := by
  obtain ⟨b0, b1, b2, b3, hbytes, hmagic⟩ : ∃ b0 b1 b2 b3,
      v.u32Bytes v.magic = [b0, b1, b2, b3] ∧
        pcapMagic (le32 b0 b1 b2 b3) = some (v.bigEndian, v.nanos) := by
    obtain ⟨_ | _, _ | _⟩ := v
    all_goals exact ⟨_, _, _, _, rfl, by decide⟩
  rw [hbytes] at h
  refine ⟨le32 b0 b1 b2 b3, ?_, hmagic⟩
  rw [Span.loadLe32, show s.read i = _ from h.read (j := 0) rfl, h.read (j := 1) rfl,
    h.read (j := 2) rfl, h.read (j := 3) rfl]
  rfl

end PcapVariant

section Records

/-- A record, with the words of its header. -/
structure PcapRecord where
  tsSec : UInt32
  tsFrac : UInt32
  origLen : UInt32
  data : List UInt8
  data_lt : data.length < 4294967296

namespace PcapRecord

def header (v : PcapVariant) (r : PcapRecord) : List UInt8 :=
  v.u32Bytes r.tsSec ++ (v.u32Bytes r.tsFrac ++ (v.u32Bytes (UInt32.ofNat r.data.length) ++
    v.u32Bytes r.origLen))

def bytes (v : PcapVariant) (r : PcapRecord) : List UInt8 :=
  r.header v ++ r.data

@[simp] theorem header_length (v : PcapVariant) (r : PcapRecord) :
    (r.header v).length = kPcapRecordHeaderLen := by
  simp [header, kPcapRecordHeaderLen]

@[simp] theorem bytes_length (v : PcapVariant) (r : PcapRecord) :
    (r.bytes v).length = kPcapRecordHeaderLen + r.data.length := by
  rw [bytes, List.length_append, header_length]

theorem inclLen_eq (r : PcapRecord) : (UInt32.ofNat r.data.length).toNat = r.data.length := by
  rw [UInt32.toNat_ofNat']
  exact Nat.mod_eq_of_lt r.data_lt

/-- The packet of a record that stands at `pos`. -/
def packet (nanos : Bool) (pos : Nat) (r : PcapRecord) : PcapPacket where
  data := ⟨pos + kPcapRecordHeaderLen, r.data⟩
  tsNs := pcapTimestamp nanos r.tsSec r.tsFrac
  origLen := r.origLen

end PcapRecord

/-- The packets of records that stand one behind the other from `pos` on. -/
def packetsAt (v : PcapVariant) : Nat → List PcapRecord → List PcapPacket
  | _, [] => []
  | pos, r :: rs => r.packet v.nanos pos :: packetsAt v (pos + (r.bytes v).length) rs

variable {v : PcapVariant} {s : Span} {off malformed : Nat} {packets : List PcapPacket}
  {r : PcapRecord} {rs : List PcapRecord} {tail : List UInt8}

/-- One turn of the loop, where there is a record header. -/
theorem pcapRecords_header (h : s.Has off (r.header v)) :
    pcapRecords v.bigEndian v.nanos s off malformed packets =
      if r.data.length > s.size - (off + kPcapRecordHeaderLen) then .ok (malformed + 1, packets)
      else
        s.subspan (off + kPcapRecordHeaderLen) r.data.length >>= fun data =>
          pcapRecords v.bigEndian v.nanos s (off + kPcapRecordHeaderLen + r.data.length) malformed
            (packets ++ [{ data, tsNs := pcapTimestamp v.nanos r.tsSec r.tsFrac,
                           origLen := r.origLen }]) := by
  have hfits := h.fits
  rw [PcapRecord.header_length] at hfits
  obtain ⟨hsec, h⟩ := Span.Has.append_iff.mp h
  obtain ⟨hfrac, h⟩ := Span.Has.append_iff.mp h
  obtain ⟨hincl, horig⟩ := Span.Has.append_iff.mp h
  simp only [PcapVariant.u32Bytes_length, Nat.add_assoc, Nat.reduceAdd] at hfrac hincl horig
  rw [pcapRecords, if_pos hfits, PcapVariant.load_u32 hsec, PcapVariant.load_u32 hfrac,
    PcapVariant.load_u32 hincl, PcapVariant.load_u32 horig]
  simp only [bind, Except.bind, r.inclLen_eq]

/-- One turn over a whole record. -/
theorem pcapRecords_record (h : s.Has off (r.bytes v)) :
    pcapRecords v.bigEndian v.nanos s off malformed packets =
      pcapRecords v.bigEndian v.nanos s (off + (r.bytes v).length) malformed
        (packets ++ [r.packet v.nanos (s.off + off)]) := by
  have hfits := h.fits
  rw [r.bytes_length] at hfits
  obtain ⟨hheader, hdata⟩ := Span.Has.append_iff.mp h
  rw [r.header_length] at hdata
  have hsub : s.subspan (off + kPcapRecordHeaderLen) r.data.length =
      .ok ⟨s.off + (off + kPcapRecordHeaderLen), r.data⟩ := by
    have hview : s.subspan (off + kPcapRecordHeaderLen + 0) r.data.length =
        .ok ⟨s.off + (off + kPcapRecordHeaderLen + 0), r.data⟩ :=
      hdata.subspan (by omega) (by simp)
    exact hview
  rw [pcapRecords_header hheader, if_neg (by omega), hsub, r.bytes_length]
  simp only [bind, Except.bind, PcapRecord.packet, Nat.add_assoc]

/-- **The loop over whole records.** -/
theorem pcapRecords_run (h : s.Has off (rs.flatMap (PcapRecord.bytes v))) :
    pcapRecords v.bigEndian v.nanos s off malformed packets =
      pcapRecords v.bigEndian v.nanos s (off + (rs.flatMap (PcapRecord.bytes v)).length) malformed
        (packets ++ packetsAt v (s.off + off) rs) := by
  induction rs generalizing off packets with
  | nil => rw [packetsAt, List.append_nil]; rfl
  | cons r rs ih =>
      obtain ⟨hrecord, hrest⟩ := Span.Has.append_iff.mp h
      rw [pcapRecords_record hrecord, ih hrest, packetsAt, List.flatMap_cons, List.length_append,
        List.append_assoc, List.singleton_append]
      simp only [Nat.add_assoc]

/-- There is no room for another record header. -/
theorem pcapRecords_end (h : s.size < off + kPcapRecordHeaderLen) :
    pcapRecords v.bigEndian v.nanos s off malformed packets = .ok (malformed, packets) := by
  rw [pcapRecords, if_neg (Nat.not_le.mpr h)]

/-- At a record that is cut behind its header. -/
theorem pcapRecords_cut (hhas : s.Has off tail) (hend : off + tail.length = s.size)
    (htail : tail <+: r.bytes v) (hlt : tail.length < (r.bytes v).length)
    (hheader : kPcapRecordHeaderLen ≤ tail.length) :
    pcapRecords v.bigEndian v.nanos s off malformed packets = .ok (malformed + 1, packets) := by
  have hprefix : r.header v <+: tail :=
    List.prefix_of_prefix_length_le (List.prefix_append _ _) htail (by rwa [r.header_length])
  obtain ⟨behind, rfl⟩ := hprefix
  rw [r.bytes_length] at hlt
  rw [pcapRecords_header (Span.Has.append_iff.mp hhas).1, if_pos (by omega)]

/-- At what is left of a record that was cut. -/
theorem pcapRecords_tail (hhas : s.Has off tail) (hend : off + tail.length = s.size)
    (htail : tail = [] ∨ ∃ r ∈ rs, tail <+: r.bytes v ∧ tail.length < (r.bytes v).length) :
    pcapRecords v.bigEndian v.nanos s off malformed packets =
      .ok (malformed + (if kPcapRecordHeaderLen ≤ tail.length then 1 else 0), packets) := by
  by_cases hheader : kPcapRecordHeaderLen ≤ tail.length
  · rw [if_pos hheader]
    rcases htail with rfl | ⟨r, -, hprefix, hlt⟩
    · exact absurd hheader (by decide)
    · exact pcapRecords_cut hhas hend hprefix hlt hheader
  · rw [if_neg hheader, pcapRecords_end (by omega), Nat.add_zero]

end Records

section Files

/-- The fields of a file header behind the magic number. -/
structure PcapHeader where
  versionMajor : UInt16 := 2
  versionMinor : UInt16 := 4
  thiszone : UInt32 := 0
  sigfigs : UInt32 := 0
  snaplen : UInt32
  linkType : UInt32

variable {v : PcapVariant} {h : PcapHeader} {path : String} {rs : List PcapRecord}
  {body : List UInt8}

def PcapHeader.bytes (v : PcapVariant) (h : PcapHeader) : List UInt8 :=
  v.u32Bytes v.magic ++ (v.u16Bytes h.versionMajor ++ (v.u16Bytes h.versionMinor ++
    (v.u32Bytes h.thiszone ++ (v.u32Bytes h.sigfigs ++ (v.u32Bytes h.snaplen ++
      v.u32Bytes h.linkType)))))

theorem PcapHeader.bytes_length (v : PcapVariant) (h : PcapHeader) :
    (h.bytes v).length = kPcapFileHeaderLen := by
  simp [PcapHeader.bytes, kPcapFileHeaderLen]

/-- A capture file. -/
def captureBytes (v : PcapVariant) (h : PcapHeader) (rs : List PcapRecord) : List UInt8 :=
  h.bytes v ++ rs.flatMap (PcapRecord.bytes v)

/-- The file that is loaded when the loop over records returns `packets`. -/
def loadedFile (v : PcapVariant) (h : PcapHeader) (bytes : List UInt8)
    (packets : List PcapPacket) : PcapFile where
  bytes := bytes
  packets := packets
  linkType := h.linkType
  snaplen := h.snaplen
  versionMajor := h.versionMajor
  versionMinor := h.versionMinor
  swapped := v.bigEndian
  nanosecond := v.nanos

/-- `load` on a file with such a header. -/
theorem load_header (path : String) (v : PcapVariant) (h : PcapHeader) (body : List UInt8) :
    PcapFile.load path (some (h.bytes v ++ body)) =
      (pcapRecords v.bigEndian v.nanos (.whole (h.bytes v ++ body)) kPcapFileHeaderLen 0 [] >>=
        fun r => .ok ({ malformedRecords := r.1 }, loadedFile v h (h.bytes v ++ body) r.2)) := by
  have hhas : (Span.whole (h.bytes v ++ body)).Has 0 (h.bytes v) :=
    Span.Has.zero_iff.mpr (List.prefix_append _ _)
  obtain ⟨hmagic, hhas⟩ := Span.Has.append_iff.mp hhas
  obtain ⟨hmajor, hhas⟩ := Span.Has.append_iff.mp hhas
  obtain ⟨hminor, hhas⟩ := Span.Has.append_iff.mp hhas
  obtain ⟨-, hhas⟩ := Span.Has.append_iff.mp hhas
  obtain ⟨-, hhas⟩ := Span.Has.append_iff.mp hhas
  obtain ⟨hsnaplen, hlink⟩ := Span.Has.append_iff.mp hhas
  simp only [PcapVariant.u32Bytes_length, PcapVariant.u16Bytes_length, Nat.reduceAdd]
    at hmajor hminor hsnaplen hlink
  obtain ⟨magicLe, hread, hknown⟩ := PcapVariant.load_magic hmagic
  have hlen : ¬(h.bytes v ++ body).length < kPcapFileHeaderLen := by
    rw [List.length_append, h.bytes_length]
    omega
  rw [PcapFile.load, if_neg hlen]
  simp only [bind, Except.bind, hread, hknown, PcapVariant.load_u16 hmajor, PcapVariant.load_u16 hminor,
    PcapVariant.load_u32 hsnaplen, PcapVariant.load_u32 hlink]
  rfl

/-- What follows the header. -/
theorem has_body (v : PcapVariant) (h : PcapHeader) (body : List UInt8) :
    (Span.whole (h.bytes v ++ body)).Has kPcapFileHeaderLen body := by
  rw [← h.bytes_length v]
  exact Span.Has.of_append (h.bytes v) [] (by rw [List.append_nil]; rfl)

theorem size_body (v : PcapVariant) (h : PcapHeader) (body : List UInt8) :
    (Span.whole (h.bytes v ++ body)).size = kPcapFileHeaderLen + body.length := by
  rw [← h.bytes_length v, ← List.length_append]
  rfl

/-- A whole file. -/
theorem load_capture (path : String) (v : PcapVariant) (h : PcapHeader) (rs : List PcapRecord) :
    PcapFile.load path (some (captureBytes v h rs)) =
      .ok ({}, loadedFile v h (captureBytes v h rs) (packetsAt v kPcapFileHeaderLen rs)) := by
  rw [captureBytes, load_header, pcapRecords_run (has_body v h _),
    pcapRecords_end (by rw [size_body]; exact Nat.lt_add_of_pos_right (by decide))]
  simp only [bind, Except.bind, List.nil_append]
  rfl

end Files

section RoundTrip

/-- A packet to be written. -/
structure CapturedPacket where
  data : List UInt8
  tsNs : UInt64
  origLen : UInt32
  data_lt : data.length < 4294967296
  seconds_lt : tsNs.toNat / 1000000000 < 4294967296

namespace CapturedPacket

variable {v : PcapVariant} {p : CapturedPacket}

/-- The record of a packet. -/
def record (v : PcapVariant) (p : CapturedPacket) : PcapRecord where
  tsSec := (p.tsNs / 1000000000).toUInt32
  tsFrac := (if v.nanos then p.tsNs % 1000000000 else p.tsNs % 1000000000 / 1000).toUInt32
  origLen := p.origLen
  data := p.data
  data_lt := p.data_lt

/-- An original length of 0 stands for that of the data. -/
def sized (p : CapturedPacket) : CapturedPacket :=
  { p with origLen := if p.origLen ≠ 0 then p.origLen else UInt32.ofNat p.data.length }

end CapturedPacket

/-- A timestamp in the resolution of the file. -/
def PcapVariant.floor (v : PcapVariant) (tsNs : UInt64) : UInt64 :=
  if v.nanos then tsNs else tsNs / 1000 * 1000

/-- The nanoseconds that one unit of the fraction stands for. -/
def PcapVariant.unit (v : PcapVariant) : Nat :=
  if v.nanos then 1 else 1000

/-- There is room for every second that fits its word. -/
theorem pcapTimestamp_toNat (v : PcapVariant) (tsSec tsFrac : UInt32) :
    (pcapTimestamp v.nanos tsSec tsFrac).toNat =
      tsSec.toNat * 1000000000 + tsFrac.toNat * v.unit := by
  have hsec := tsSec.toNat_lt
  have hfrac := tsFrac.toNat_lt
  have hwide : tsSec.toNat * 1000000000 % 18446744073709551616 = tsSec.toNat * 1000000000 :=
    Nat.mod_eq_of_lt (by omega)
  rw [pcapTimestamp, PcapVariant.unit]
  cases v.nanos with
  | true =>
      simp only [if_true, UInt64.toNat_add, UInt64.toNat_mul, UInt32.toNat_toUInt64,
        UInt64.reduceToNat, Nat.reducePow, hwide, Nat.mul_one]
      exact Nat.mod_eq_of_lt (by omega)
  | false =>
      have hscaled : tsFrac.toNat * 1000 % 18446744073709551616 = tsFrac.toNat * 1000 :=
        Nat.mod_eq_of_lt (by omega)
      simp only [Bool.false_eq_true, if_false, UInt64.toNat_add, UInt64.toNat_mul,
        UInt32.toNat_toUInt64, UInt64.reduceToNat, Nat.reducePow, hwide, hscaled]
      exact Nat.mod_eq_of_lt (by omega)

theorem CapturedPacket.tsSec_toNat (v : PcapVariant) (p : CapturedPacket) :
    (p.record v).tsSec.toNat = p.tsNs.toNat / 1000000000 := by
  rw [CapturedPacket.record, UInt64.toNat_toUInt32, UInt64.toNat_div]
  exact Nat.mod_eq_of_lt p.seconds_lt

theorem CapturedPacket.tsFrac_toNat (v : PcapVariant) (p : CapturedPacket) :
    (p.record v).tsFrac.toNat = p.tsNs.toNat % 1000000000 / v.unit := by
  rw [CapturedPacket.record, PcapVariant.unit]
  cases v.nanos with
  | true =>
      simp only [if_true, UInt64.toNat_toUInt32, UInt64.toNat_mod, UInt64.reduceToNat,
        Nat.reducePow]
      omega
  | false =>
      simp only [Bool.false_eq_true, if_false, UInt64.toNat_toUInt32, UInt64.toNat_mod,
        UInt64.toNat_div, UInt64.reduceToNat, Nat.reducePow]
      omega

/-- Seconds and fraction of a timestamp make it up again. -/
theorem timestamp_record (v : PcapVariant) (p : CapturedPacket) :
    pcapTimestamp v.nanos (p.record v).tsSec (p.record v).tsFrac = v.floor p.tsNs := by
  have hlt := p.tsNs.toNat_lt
  apply UInt64.toNat_inj.mp
  rw [pcapTimestamp_toNat, p.tsSec_toNat, p.tsFrac_toNat, PcapVariant.floor, PcapVariant.unit]
  cases v.nanos with
  | true =>
      simp only [if_true]
      omega
  | false =>
      simp only [Bool.false_eq_true, if_false, UInt64.toNat_mul, UInt64.toNat_div,
        UInt64.reduceToNat, Nat.reducePow]
      omega

/-- Data, timestamp and original length of a packet. -/
def PcapPacket.fields (p : PcapPacket) : List UInt8 × UInt64 × UInt32 :=
  (p.data.bytes, p.tsNs, p.origLen)

theorem packetsAt_fields (v : PcapVariant) (pos : Nat) (rs : List PcapRecord) :
    (packetsAt v pos rs).map PcapPacket.fields =
      rs.map (fun r => (r.data, pcapTimestamp v.nanos r.tsSec r.tsFrac, r.origLen)) := by
  induction rs generalizing pos with
  | nil => rfl
  | cons r rs ih =>
      rw [packetsAt, List.map_cons, List.map_cons, ih]
      rfl

/-- Packets written one after the other. -/
def PcapWriter.writeAll (w : PcapWriter) : List CapturedPacket → Bool × PcapWriter
  | [] => (true, w)
  | p :: ps =>
      let (done, w) := w.write p.tsNs p.data p.origLen
      if done then w.writeAll ps else (false, w)

/-- The variant that `PcapWriter` writes. -/
def writtenVariant : PcapVariant where
  bigEndian := false
  nanos := false

theorem write_eq (written : List UInt8) (p : CapturedPacket) :
    PcapWriter.write { file := some written } p.tsNs p.data p.origLen =
      (true, { file := some (written ++ (p.sized.record writtenVariant).bytes writtenVariant) }) := by
  simp only [PcapWriter.write, PcapRecord.bytes, PcapRecord.header, CapturedPacket.record,
    CapturedPacket.sized, PcapVariant.u32Bytes, writtenVariant, Bool.false_eq_true, if_false,
    List.append_assoc]

theorem writeAll_eq (written : List UInt8) (ps : List CapturedPacket) :
    PcapWriter.writeAll { file := some written } ps =
      (true, { file := some (written ++
        (ps.map (fun p => p.sized.record writtenVariant)).flatMap
          (PcapRecord.bytes writtenVariant)) }) := by
  induction ps generalizing written with
  | nil => simp [PcapWriter.writeAll]
  | cons p ps ih =>
      rw [PcapWriter.writeAll, write_eq]
      simp only [if_true]
      rw [ih, List.map_cons, List.flatMap_cons, List.append_assoc]

/-- **Capture files.**  In every variant a file is loaded as it was written: without an
error, without malformed records, and with the same packets, their timestamps in the
resolution of the file.  `PcapWriter` writes the little-endian variant in microseconds. -/
theorem captures_round_trip (path : String) (h : PcapHeader) (ps : List CapturedPacket) :
    (∀ v : PcapVariant, ∃ r file,
      PcapFile.load path (some (captureBytes v h (ps.map (CapturedPacket.record v)))) =
        .ok (r, file) ∧
      r.ok = true ∧ r.malformedRecords = 0 ∧
      file.packets.map PcapPacket.fields =
        ps.map (fun p => (p.data, v.floor p.tsNs, p.origLen)) ∧
      file.swapped = v.bigEndian ∧ file.nanosecond = v.nanos ∧
      file.snaplen = h.snaplen ∧ file.linkType = h.linkType) ∧
    ∀ (w : PcapWriter) (link : LinkType) (snaplen : UInt32),
      (w.openFile true link snaplen).1 = true ∧
      (w.openFile true link snaplen).2.writeAll ps =
        (true, { file := some (captureBytes writtenVariant { snaplen, linkType := link.code }
          (ps.map (fun p => p.sized.record writtenVariant))) }) := by
  constructor
  · intro v
    refine ⟨_, _, load_capture path v h _, rfl, rfl, ?_, rfl, rfl, rfl, rfl⟩
    have hfields := packetsAt_fields v kPcapFileHeaderLen (ps.map (CapturedPacket.record v))
    refine hfields.trans ?_
    rw [List.map_map]
    refine List.map_congr_left (fun p _ => ?_)
    exact congrArg (fun ts => (p.data, ts, p.origLen)) (timestamp_record v p)
  · intro w link snaplen
    refine ⟨rfl, ?_⟩
    rw [PcapWriter.openFile, if_pos rfl, writeAll_eq, captureBytes]
    simp only [PcapHeader.bytes, PcapVariant.u32Bytes, PcapVariant.u16Bytes, PcapVariant.magic,
      writtenVariant, Bool.false_eq_true, if_false, List.append_assoc]

end RoundTrip

section Cuts

open CutSequence

/-- The records that lie wholly within the first `n` bytes of a file. -/
def wholeRecords (v : PcapVariant) (n : Nat) (rs : List PcapRecord) : List PcapRecord :=
  whole (PcapRecord.bytes v) (n - kPcapFileHeaderLen) rs

/-- How many bytes of the next record these bytes have. -/
def cutInto (v : PcapVariant) (n : Nat) (rs : List PcapRecord) : Nat :=
  rest (PcapRecord.bytes v) (n - kPcapFileHeaderLen) rs

/-- A cut behind the header leaves whole records and part of the next one. -/
theorem take_captureBytes (v : PcapVariant) (h : PcapHeader) (rs : List PcapRecord) {n : Nat}
    (hn : kPcapFileHeaderLen ≤ n) :
    ∃ tail, (captureBytes v h rs).take n =
        h.bytes v ++ ((wholeRecords v n rs).flatMap (PcapRecord.bytes v) ++ tail) ∧
      tail.length = cutInto v n rs ∧
      (tail = [] ∨ ∃ r ∈ rs, tail <+: r.bytes v ∧ tail.length < (r.bytes v).length) := by
  obtain ⟨tail, htake, hlen, htail⟩ :=
    take_flatMap (e := PcapRecord.bytes v) (n - kPcapFileHeaderLen) rs
  refine ⟨tail, ?_, hlen, htail⟩
  rw [captureBytes, List.take_append, h.bytes_length, htake,
    List.take_of_length_le (by rw [h.bytes_length]; exact hn)]
  rfl

/-- `load` on a file that is cut behind its header. -/
theorem load_cut (path : String) (v : PcapVariant) (h : PcapHeader) (rs : List PcapRecord)
    {n : Nat} (hn : kPcapFileHeaderLen ≤ n) :
    PcapFile.load path (some ((captureBytes v h rs).take n)) =
      .ok ({ malformedRecords := if kPcapRecordHeaderLen ≤ cutInto v n rs then 1 else 0 },
        loadedFile v h ((captureBytes v h rs).take n)
          (packetsAt v kPcapFileHeaderLen (wholeRecords v n rs))) := by
  obtain ⟨tail, hcut, hlen, htail⟩ := take_captureBytes v h rs hn
  rw [hcut, load_header, ← hlen]
  obtain ⟨hwhole, hrest⟩ := Span.Has.append_iff.mp
    (has_body v h ((wholeRecords v n rs).flatMap (PcapRecord.bytes v) ++ tail))
  have hend : kPcapFileHeaderLen + ((wholeRecords v n rs).flatMap (PcapRecord.bytes v)).length +
      tail.length = (Span.whole (h.bytes v ++
        ((wholeRecords v n rs).flatMap (PcapRecord.bytes v) ++ tail))).size := by
    rw [size_body, List.length_append, Nat.add_assoc]
  rw [pcapRecords_run hwhole, pcapRecords_tail hrest hend htail, Nat.zero_add]
  rfl

/-- **Cut files.**  `load` accepts a file that is cut anywhere behind its header, and
returns exactly the packets of the records that lie wholly in front of the cut.  It counts
one malformed record if the cut is behind the header of a record, so that a cut between
two records is told from one inside a record exactly if the cut is not inside a record
header. -/
theorem cut_counted_iff (path : String) (v : PcapVariant) (h : PcapHeader)
    (rs : List PcapRecord) (n : Nat) (hn : kPcapFileHeaderLen ≤ n) :
    ∃ r file, PcapFile.load path (some ((captureBytes v h rs).take n)) = .ok (r, file) ∧
      r.ok = true ∧
      file.packets = packetsAt v kPcapFileHeaderLen (wholeRecords v n rs) ∧
      (∀ k ≤ rs.length, k ≤ file.packets.length ↔ (captureBytes v h (rs.take k)).length ≤ n) ∧
      (n ≤ (captureBytes v h rs).length → (cutInto v n rs = 0 ↔
        ∃ k ≤ rs.length, n = (captureBytes v h (rs.take k)).length)) ∧
      (r.malformedRecords = (if cutInto v n rs = 0 then 0 else 1) ↔
        cutInto v n rs = 0 ∨ kPcapRecordHeaderLen ≤ cutInto v n rs) := by
  have hlength : ∀ rs', (captureBytes v h rs').length =
      kPcapFileHeaderLen + (rs'.flatMap (PcapRecord.bytes v)).length := by
    intro rs'
    rw [captureBytes, List.length_append, h.bytes_length]
  refine ⟨_, _, load_cut path v h rs hn, rfl, rfl, ?_, ?_, ?_⟩
  · intro k hk
    have hcount : (packetsAt v kPcapFileHeaderLen (wholeRecords v n rs)).length =
        (wholeRecords v n rs).length := by
      have hfields := congrArg List.length
        (packetsAt_fields v kPcapFileHeaderLen (wholeRecords v n rs))
      rwa [List.length_map, List.length_map] at hfields
    rw [loadedFile, hcount, wholeRecords, le_length_whole_iff hk, hlength]
    omega
  · intro hle
    rw [hlength] at hle
    rw [cutInto, rest_eq_zero_iff (by omega)]
    refine exists_congr (fun k => and_congr_right (fun _ => ?_))
    rw [hlength]
    omega
  · by_cases hheader : kPcapRecordHeaderLen ≤ cutInto v n rs
    · have hinside : cutInto v n rs ≠ 0 := by
        simp only [kPcapRecordHeaderLen] at hheader
        omega
      simp [hheader, hinside]
    · by_cases hzero : cutInto v n rs = 0
      · simp [hzero, kPcapRecordHeaderLen]
      · simp [hheader, hzero]

/-- A little-endian file in microseconds with two packets of four bytes. -/
def twoPackets : List PcapRecord :=
  [⟨1700000000, 500000, 4, [1, 2, 3, 4], by decide⟩, ⟨1700000001, 0, 4, [5, 6, 7, 8], by decide⟩]

/-- The file ends 18 bytes into the second record. -/
theorem cut_counted_iff_data :
    kPcapFileHeaderLen ≤ 62 ∧
    ∃ r file, PcapFile.load "cut.pcap" (some ((captureBytes writtenVariant
        { snaplen := 65535, linkType := 1 } twoPackets).take 62)) = .ok (r, file) ∧
      r.ok = true ∧ file.packets = [⟨⟨40, [1, 2, 3, 4]⟩, 1700000000500000000, 4⟩] ∧
      r.malformedRecords = 1 := by
  obtain ⟨r, file, hload, hok, hpackets, -, -, hcount⟩ := cut_counted_iff "cut.pcap"
    writtenVariant { snaplen := 65535, linkType := 1 } twoPackets 62 (by decide)
  refine ⟨by decide, r, file, hload, hok, hpackets.trans (by decide +kernel), ?_⟩
  exact hcount.mpr (by decide +kernel)

/-- A cut inside a record header costs a packet, and nothing says so. -/
theorem cut_header_not_counted :
    ∃ file, PcapFile.load "cut.pcap" (some ((captureBytes writtenVariant
        { snaplen := 65535, linkType := 1 } twoPackets).take 54)) = .ok ({}, file) ∧
      file.packets = [⟨⟨40, [1, 2, 3, 4]⟩, 1700000000500000000, 4⟩] ∧
      cutInto writtenVariant 54 twoPackets = 10 := by
  have hcut : cutInto writtenVariant 54 twoPackets = 10 := by decide +kernel
  have hload := load_cut "cut.pcap" writtenVariant { snaplen := 65535, linkType := 1 } twoPackets
    (show kPcapFileHeaderLen ≤ 54 by decide)
  rw [hcut, if_neg (by decide)] at hload
  exact ⟨_, hload, by decide +kernel, hcut⟩

end Cuts

end GtpMeter
