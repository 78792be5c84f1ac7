import GtpMeter.ByteSpan

/-!
# Capture files

`PcapFile::load` reads a classic pcap file into memory and indexes its packets;
`PcapWriter` writes one.  The magic number at the front of a file says in which byte
order its words are and whether the second part of a timestamp counts microseconds or
nanoseconds.

What `fopen` and `fread` deliver is an argument of `load`, and what has been written to an
open file is the state of the writer.
-/

namespace GtpMeter

/-- Little-endian file, microseconds. -/
def kPcapMagicMicro : UInt32 := 0xA1B2C3D4

/-- Big-endian file, microseconds. -/
def kPcapMagicMicroSwapped : UInt32 := 0xD4C3B2A1

/-- Little-endian file, nanoseconds. -/
def kPcapMagicNano : UInt32 := 0xA1B23C4D

/-- Big-endian file, nanoseconds. -/
def kPcapMagicNanoSwapped : UInt32 := 0x4D3CB2A1

/-- The bytes before the first record. -/
def kPcapFileHeaderLen : Nat := 24

/-- The bytes before the data of a record. -/
def kPcapRecordHeaderLen : Nat := 16

/-- The link layers that a capture can have. -/
inductive LinkType where
  | ethernet
  | rawIp
  | linuxSll
  | rawIpv4
  | rawIpv6
deriving DecidableEq

/-- The number of a link layer in the file header. -/
def LinkType.code : LinkType → UInt32
  | ethernet => 1
  | rawIp => 101
  | linuxSll => 113
  | rawIpv4 => 228
  | rawIpv6 => 229

section LittleEndian

/-- The 16-bit number of two bytes, lowest first. -/
def le16 (b0 b1 : UInt8) : UInt16 :=
  be16 b1 b0

/-- The 32-bit number of four bytes, lowest first. -/
def le32 (b0 b1 b2 b3 : UInt8) : UInt32 :=
  be32 b3 b2 b1 b0

variable (s : Span) (i : Nat)

/-- Two bytes at `i`, lowest first. -/
def Span.loadLe16 : Except OutOfBounds UInt16 := do
  let b0 ← s.read i
  let b1 ← s.read (i + 1)
  .ok (le16 b0 b1)

/-- Four bytes at `i`, lowest first. -/
def Span.loadLe32 : Except OutOfBounds UInt32 := do
  let b0 ← s.read i
  let b1 ← s.read (i + 1)
  let b2 ← s.read (i + 2)
  let b3 ← s.read (i + 3)
  .ok (le32 b0 b1 b2 b3)

/-- What `store_le16` stores. -/
def le16Bytes (v : UInt16) : List UInt8 :=
  [v.toUInt8, (v >>> 8).toUInt8]

/-- What `store_le32` stores. -/
def le32Bytes (v : UInt32) : List UInt8 :=
  [v.toUInt8, (v >>> 8).toUInt8, (v >>> 16).toUInt8, (v >>> 24).toUInt8]

end LittleEndian

section Load

/-- A record of a loaded capture. -/
structure PcapPacket where
  /-- Captured bytes, a view into the loaded file. -/
  data : Span := {}
  /-- Nanoseconds since the epoch. -/
  tsNs : UInt64 := 0
  /-- Length on the wire. -/
  origLen : UInt32 := 0
deriving DecidableEq

/-- A loaded capture: its bytes, its records and what its header says. -/
structure PcapFile where
  bytes : List UInt8 := []
  packets : List PcapPacket := []
  linkType : UInt32 := LinkType.ethernet.code
  snaplen : UInt32 := 0
  versionMajor : UInt16 := 2
  versionMinor : UInt16 := 4
  swapped : Bool := false
  nanosecond : Bool := false
deriving DecidableEq

/-- What `load` reports. -/
structure PcapResult where
  error : String := ""
  malformedRecords : Nat := 0
deriving DecidableEq

/-- No error text. -/
def PcapResult.ok (r : PcapResult) : Bool :=
  r.error.isEmpty

/-- Byte order and resolution, from the magic number as it is read in little-endian
order. -/
def pcapMagic (magicLe : UInt32) : Option (Bool × Bool) :=
  if magicLe = kPcapMagicMicro then some (false, false)
  else if magicLe = kPcapMagicMicroSwapped then some (true, false)
  else if magicLe = kPcapMagicNano then some (false, true)
  else if magicLe = kPcapMagicNanoSwapped then some (true, true)
  else none

/-- The readers of `load`, which go by the byte order of the file. -/
def pcapU32 (swapped : Bool) (s : Span) (i : Nat) : Except OutOfBounds UInt32 :=
  if swapped then s.loadBe32 i else s.loadLe32 i

/-- Two bytes, in the byte order of the file. -/
def pcapU16 (swapped : Bool) (s : Span) (i : Nat) : Except OutOfBounds UInt16 :=
  if swapped then s.loadBe16 i else s.loadLe16 i

/-- The time of a record, in nanoseconds. -/
def pcapTimestamp (nanos : Bool) (tsSec tsFrac : UInt32) : UInt64 :=
  tsSec.toUInt64 * 1000000000 + (if nanos then tsFrac.toUInt64 else tsFrac.toUInt64 * 1000)

/-- The loop over records, with the count of malformed records and the packets so far. -/
def pcapRecords (swapped nanos : Bool) (s : Span) (off malformed : Nat)
    (packets : List PcapPacket) : Except OutOfBounds (Nat × List PcapPacket) :=
  if off + kPcapRecordHeaderLen ≤ s.size then do
    let tsSec ← pcapU32 swapped s off
    let tsFrac ← pcapU32 swapped s (off + 4)
    let inclLen ← pcapU32 swapped s (off + 8)
    let origLen ← pcapU32 swapped s (off + 12)
    -- the record does not fit: the file was cut while it was written
    if inclLen.toNat > s.size - (off + kPcapRecordHeaderLen) then .ok (malformed + 1, packets)
    else do
      let data ← s.subspan (off + kPcapRecordHeaderLen) inclLen.toNat
      pcapRecords swapped nanos s (off + kPcapRecordHeaderLen + inclLen.toNat) malformed
        (packets ++ [{ data, tsNs := pcapTimestamp nanos tsSec tsFrac, origLen }])
  else .ok (malformed, packets)
termination_by s.size - off
decreasing_by simp only [kPcapRecordHeaderLen] at *; omega

/-- `content` is what the file at `path` holds, if it can be opened. -/
def PcapFile.load (path : String) (content : Option (List UInt8)) :
    Except OutOfBounds (PcapResult × PcapFile) :=
  match content with
  | none => .ok ({ error := "cannot open capture: " ++ path }, {})
  | some bytes =>
      if bytes.length < kPcapFileHeaderLen then
        .ok ({ error := "capture is shorter than a pcap file header: " ++ path }, {})
      else do
        let s := Span.whole bytes
        let magicLe ← s.loadLe32 0
        match pcapMagic magicLe with
        | none =>
            .ok ({ error := "not a pcap file (bad magic); pcapng is not supported: " ++ path },
              { bytes })
        | some (swapped, nanosecond) => do
            let versionMajor ← pcapU16 swapped s 4
            let versionMinor ← pcapU16 swapped s 6
            let snaplen ← pcapU32 swapped s 16
            let linkType ← pcapU32 swapped s 20
            let (malformedRecords, packets) ←
              pcapRecords swapped nanosecond s kPcapFileHeaderLen 0 []
            .ok ({ malformedRecords },
              { bytes, packets, linkType, snaplen, versionMajor, versionMinor, swapped,
                nanosecond })

end Load

/-- The writer; `file` is what an open file holds. -/
structure PcapWriter where
  file : Option (List UInt8) := none
deriving DecidableEq

namespace PcapWriter

/-- `close`: no file is open. -/
def close (_ : PcapWriter) : PcapWriter :=
  { file := none }

/-- `created` tells whether `fopen` succeeds. -/
def openFile (w : PcapWriter) (created : Bool) (link : LinkType := .ethernet)
    (snaplen : UInt32 := 262144) : Bool × PcapWriter :=
  let w := w.close
  if created then
    (true, { file := some (le32Bytes kPcapMagicMicro ++ le16Bytes 2 ++ le16Bytes 4 ++
      le32Bytes 0 ++ le32Bytes 0 ++ le32Bytes snaplen ++ le32Bytes link.code) })
  else (false, w)

/-- `write`: one record, if a file is open. -/
def write (w : PcapWriter) (tsNs : UInt64) (data : List UInt8) (origLen : UInt32 := 0) :
    Bool × PcapWriter :=
  match w.file with
  | none => (false, w)
  | some written =>
      let record := le32Bytes (tsNs / 1000000000).toUInt32 ++
        le32Bytes (tsNs % 1000000000 / 1000).toUInt32 ++
        le32Bytes (UInt32.ofNat data.length) ++
        le32Bytes (if origLen ≠ 0 then origLen else UInt32.ofNat data.length)
      (true, { file := some (written ++ record ++ data) })

end PcapWriter

end GtpMeter
