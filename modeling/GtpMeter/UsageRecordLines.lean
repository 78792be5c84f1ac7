import GtpMeter.Clock
import GtpMeter.MeterData

/-!
# Usage records as lines of text

`to_ndjson` from `usage_record.hpp` writes a record into a buffer of 512 bytes part by part,
first the fields of the record, then each bucket in use, and appends what was written.  It
does not look whether a part has fitted.

**Results.**
* `usage_lines_decodable`: every part fits, and what a line says about a record can be read
  back.
-/

namespace GtpMeter

open FilledText

section Model

/-- `to_string` of a reason. -/
def reasonText (reason : UInt8) : List UInt8 :=
  if reason = RecordReason.interval.code then text "interval"
  else if reason = RecordReason.volume.code then text "volume"
  else if reason = RecordReason.release.code then text "release"
  else if reason = RecordReason.shutdown.code then text "shutdown"
  else if reason = RecordReason.gyTrigger.code then text "gy-trigger"
  else text "unknown"

def kLineBuffer : Nat := 512

def recordFormat : List UInt8 :=
  textParts
    ["\x7b\"ts\":\"%s\",\"imsi\":\"%llu\",\"sub\":%u,\"seq\":%u,\"reason\":\"%s\",",
      "\"ul_bytes\":%llu,\"dl_bytes\":%llu,\"ul_pkts\":%llu,\"dl_pkts\":%llu,",
      "\"interval_ns\":%llu,\"buckets\":["]

def recordArgs (r : UsageRecord) : List Argument :=
  [.str (formatRfc3339 r.recordWallNs), .ulonglong r.imsi, .uint r.subscriberIndex,
    .uint r.recordSeq, .str (reasonText r.reason), .ulonglong r.ulBytes, .ulonglong r.dlBytes,
    .ulonglong r.ulPackets, .ulonglong r.dlPackets,
    .ulonglong (r.intervalEndNs - r.intervalStartNs)]

def bucketFormat : List UInt8 :=
  textParts ["%s\x7b\"kind\":\"%s\",\"id\":%u,\"bytes\":%llu,\"aggregate\":%s\x7d"]

def kindText (id : UInt32) : List UInt8 :=
  if id &&& kQfiBucketTag ≠ 0 then text "qfi" else text "rating-group"

def boolText (b : Bool) : List UInt8 :=
  if b then text "true" else text "false"

def separatorText (first : Bool) : List UInt8 :=
  if first then text "" else text ","

def bucketArgs (r : UsageRecord) (first : Bool) (i : Fin kBucketSlots) : List Argument :=
  [.str (separatorText first), .str (kindText (r.bucketIds i)),
    .uint (r.bucketIds i &&& ~~~kQfiBucketTag), .ulonglong (r.bucketBytes i),
    .str (boolText (i == kAggregateSlot && r.bucketAggregated))]

/-- A slot that is left out of the line. -/
def isOmitted (r : UsageRecord) (i : Fin kBucketSlots) : Bool :=
  r.bucketIds i == kUnsetBucket && r.bucketBytes i == 0

/-- The loop over the slots. -/
def appendBuckets (r : UsageRecord) :
    List (Fin kBucketSlots) → Bool → List UInt8 → Except PrintFault (List UInt8)
  | [], _, out => .ok out
  | i :: slots, first, out =>
      if isOmitted r i then appendBuckets r slots first out
      else do
        let out ← appendBuffer out (snprintf kLineBuffer bucketFormat (bucketArgs r first i))
        appendBuckets r slots false out

def toNdjson (r : UsageRecord) : Except PrintFault (List UInt8) := do
  let out ← appendBuffer [] (snprintf kLineBuffer recordFormat (recordArgs r))
  let out ← appendBuckets r (List.finRange kBucketSlots) true out
  .ok (out ++ text "]\x7d")

end Model

section Values

variable {r r' : UsageRecord} {first : Bool}

/-- The texts of the fields of a record. -/
def recordValues (r : UsageRecord) : List (List UInt8) :=
  [formatRfc3339 r.recordWallNs, decimalText r.imsi.toNat, decimalText r.subscriberIndex.toNat,
    decimalText r.recordSeq.toNat, reasonText r.reason, decimalText r.ulBytes.toNat,
    decimalText r.dlBytes.toNat, decimalText r.ulPackets.toNat, decimalText r.dlPackets.toNat,
    decimalText (r.intervalEndNs - r.intervalStartNs).toNat]

/-- What a line says about a slot. -/
structure BucketEntry where
  id : UInt32
  bytes : UInt64
  aggregate : Bool

def bucketEntry (r : UsageRecord) (i : Fin kBucketSlots) : BucketEntry where
  id := r.bucketIds i
  bytes := r.bucketBytes i
  aggregate := i == kAggregateSlot && r.bucketAggregated

/-- The texts of a bucket. -/
def BucketEntry.values (first : Bool) (b : BucketEntry) : List (List UInt8) :=
  [separatorText first, kindText b.id, decimalText (b.id &&& ~~~kQfiBucketTag).toNat,
    decimalText b.bytes.toNat, boolText b.aggregate]

theorem reasonText_cases (reason : UInt8) :
    reasonText reason ∈ [text "interval", text "volume", text "release", text "shutdown",
      text "gy-trigger", text "unknown"] := by
  unfold reasonText
  split_ifs <;> simp

theorem plain_reasonText (reason : UInt8) :
    Plain (reasonText reason) ∧ (reasonText reason).length ≤ 10 := by
  have hall : ∀ s ∈ [text "interval", text "volume", text "release", text "shutdown",
      text "gy-trigger", text "unknown"], Plain s ∧ s.length ≤ 10 := by
    decide
  exact hall _ (reasonText_cases reason)

theorem reasonText_inj {k k' : RecordReason} (h : reasonText k.code = reasonText k'.code) :
    k = k' := by
  cases k <;> cases k' <;> first | rfl | exact absurd h (by decide)

theorem plain_kindText (id : UInt32) : Plain (kindText id) ∧ (kindText id).length ≤ 12 := by
  unfold kindText
  split_ifs <;> decide

theorem plain_boolText (b : Bool) : Plain (boolText b) ∧ (boolText b).length ≤ 5 := by
  cases b <;> decide

theorem plain_recordValues (r : UsageRecord) : ∀ value ∈ recordValues r, Plain value := by
  simp only [recordValues, List.forall_mem_cons, plain_formatRfc3339, plain_decimalText,
    plain_reasonText, List.not_mem_nil, IsEmpty.forall_iff, implies_true, and_self]

/-- The tag is the highest bit of an id. -/
theorem and_tag_toNat (id : UInt32) :
    (id &&& kQfiBucketTag).toNat = 2 ^ 31 * (id.toNat / 2 ^ 31) := by
  have hlt := id.toNat_lt
  have htag : kQfiBucketTag.toNat = 2 ^ 31 := rfl
  rw [UInt32.toNat_and, htag, Nat.and_two_pow, Nat.testBit_eq_decide_div_mod_eq, Nat.mul_comm]
  rcases (by omega : id.toNat / 2 ^ 31 = 0 ∨ id.toNat / 2 ^ 31 = 1) with h | h <;> rw [h] <;> rfl

theorem and_not_tag_toNat (id : UInt32) :
    (id &&& ~~~kQfiBucketTag).toNat = id.toNat % 2 ^ 31 := by
  have hmask : (~~~kQfiBucketTag).toNat = 2 ^ 31 - 1 := rfl
  rw [UInt32.toNat_and, hmask, Nat.and_two_pow_sub_one_eq_mod]

theorem tagged_iff (id : UInt32) : id &&& kQfiBucketTag ≠ 0 ↔ 2 ^ 31 ≤ id.toNat := by
  have hzero : id &&& kQfiBucketTag = 0 ↔ (id &&& kQfiBucketTag).toNat = 0 :=
    ⟨fun h => by rw [h]; rfl, fun h => UInt32.toNat_inj.mp h⟩
  rw [ne_eq, hzero, and_tag_toNat]
  omega

/-- The kind and the number that are shown make up the id: a rating group and a QFI of the
same number are told apart. -/
theorem bucketId_inj {id id' : UInt32} (hkind : kindText id = kindText id')
    (hlow : (id &&& ~~~kQfiBucketTag).toNat = (id' &&& ~~~kQfiBucketTag).toNat) : id = id' := by
  have hne : text "qfi" ≠ text "rating-group" := by decide
  have htag : 2 ^ 31 ≤ id.toNat ↔ 2 ^ 31 ≤ id'.toNat := by
    rw [← tagged_iff, ← tagged_iff]
    unfold kindText at hkind
    split_ifs at hkind with h h' h'
    · exact iff_of_true h h'
    · exact absurd hkind hne
    · exact absurd hkind.symm hne
    · exact iff_of_false h h'
  have hlt := id.toNat_lt
  have hlt' := id'.toNat_lt
  rw [and_not_tag_toNat, and_not_tag_toNat] at hlow
  exact UInt32.toNat_inj.mp (by omega)

theorem boolText_inj {b b' : Bool} (h : boolText b = boolText b') : b = b' := by
  cases b <;> cases b' <;> first | rfl | exact absurd h (by decide)

/-- A bucket is determined by its texts. -/
theorem BucketEntry.values_inj {b b' : BucketEntry} (h : b.values first = b'.values first) :
    b = b' := by
  simp only [values, List.cons.injEq, true_and, and_true] at h
  obtain ⟨hkind, hlow, hbytes, haggregate⟩ := h
  have hid : b.id = b'.id := bucketId_inj hkind (decimalText_inj hlow)
  have hcount : b.bytes = b'.bytes := UInt64.toNat_inj.mp (decimalText_inj hbytes)
  cases b
  cases b'
  simp only [BucketEntry.mk.injEq]
  exact ⟨hid, hcount, boolText_inj haggregate⟩

end Values

section Parts

variable {r : UsageRecord} {first : Bool}

set_option maxRecDepth 2000 in
/-- The conversions of the first format; behind each of them stands a mark. -/
theorem recordFormat_parts :
    (parseFormat 0 recordFormat).convs =
        [.str, .ulonglong, .uint, .uint, .str, .ulonglong, .ulonglong, .ulonglong, .ulonglong,
          .ulonglong] ∧
      (parseFormat 0 recordFormat).pieces.length = 10 ∧
      (∀ piece ∈ (parseFormat 0 recordFormat).pieces,
        piece.head? ∈ [some 34, some 44, some 123, some 125]) ∧
      (parseFormat 0 recordFormat).front.length +
        ((parseFormat 0 recordFormat).pieces.map List.length).sum = 117 := by
  have hchars : recordFormat = _ := textParts_eq (.cons rfl (.cons rfl (.cons rfl .nil)))
  rw [hchars]
  decide +kernel

def bucketParts : Format where
  convs := [.str, .str, .uint, .ulonglong, .str]
  pieces := [text "\x7b\"kind\":\"", text "\",\"id\":", text ",\"bytes\":",
    text ",\"aggregate\":", text "\x7d"]

theorem bucketFormat_parts : parseFormat 0 bucketFormat = bucketParts := by
  have hchars : bucketFormat = _ := textParts_eq (.cons rfl .nil)
  rw [hchars]
  decide +kernel

/-- The fields of a record as they stand in the line. -/
def recordText (r : UsageRecord) : List UInt8 :=
  (parseFormat 0 recordFormat).front ++
    interleave (recordValues r) (parseFormat 0 recordFormat).pieces

theorem formatted_record (r : UsageRecord) :
    formatted recordFormat (recordArgs r) = some (recordText r) := by
  refine formatted_eq rfl ?_
  rw [recordFormat_parts.1]
  rfl

theorem length_recordText (r : UsageRecord) : (recordText r).length ≤ 291 := by
  obtain ⟨-, hlen, -, hfixed⟩ := recordFormat_parts
  have hreason := (plain_reasonText r.reason).2
  have hsub := length_decimalText_uint32 r.subscriberIndex
  have hseq := length_decimalText_uint32 r.recordSeq
  have himsi := length_decimalText_uint64 r.imsi
  have hul := length_decimalText_uint64 r.ulBytes
  have hdl := length_decimalText_uint64 r.dlBytes
  have hulp := length_decimalText_uint64 r.ulPackets
  have hdlp := length_decimalText_uint64 r.dlPackets
  have hinterval := length_decimalText_uint64 (r.intervalEndNs - r.intervalStartNs)
  rw [recordText, List.length_append, length_interleave (by rw [hlen]; rfl)]
  simp only [recordValues, List.map_cons, List.map_nil, List.sum_cons, List.sum_nil,
    length_formatRfc3339]
  omega

/-- A bucket as it stands in the line. -/
def BucketEntry.line (first : Bool) (b : BucketEntry) : List UInt8 :=
  interleave (b.values first) bucketParts.pieces

theorem formatted_bucket (r : UsageRecord) (first : Bool) (i : Fin kBucketSlots) :
    formatted bucketFormat (bucketArgs r first i) = some ((bucketEntry r i).line first) := by
  rw [formatted_eq bucketFormat_parts rfl]
  rfl

theorem BucketEntry.length_line (first : Bool) (b : BucketEntry) : (b.line first).length ≤ 87 := by
  have hfixed : (bucketParts.pieces.map List.length).sum = 39 := by decide
  have hseparator : (separatorText first).length ≤ 1 := by
    cases first <;> decide
  have hkind := (plain_kindText b.id).2
  have hbool := (plain_boolText b.aggregate).2
  have hid := length_decimalText_uint32 (b.id &&& ~~~kQfiBucketTag)
  have hbytes := length_decimalText_uint64 b.bytes
  have hlen : (b.values first).length = bucketParts.pieces.length := rfl
  rw [line, length_interleave hlen, hfixed]
  simp only [values, List.map_cons, List.map_nil, List.sum_cons, List.sum_nil]
  omega

theorem BucketEntry.stops (first : Bool) (b : BucketEntry) :
    List.Forall₂ Stops (b.values first) bucketParts.pieces := by
  refine .cons ⟨123, by decide, ?_⟩ (stops_of_plain rfl ?_ (by decide))
  · cases first <;> decide
  · simp only [List.forall_mem_cons, plain_kindText, plain_decimalText, plain_boolText,
      List.not_mem_nil, IsEmpty.forall_iff, implies_true, and_self]

theorem stops_recordValues (r : UsageRecord) :
    List.Forall₂ Stops (recordValues r) (parseFormat 0 recordFormat).pieces := by
  obtain ⟨-, hlen, hmarks, -⟩ := recordFormat_parts
  exact stops_of_plain (by rw [hlen]; rfl) (plain_recordValues r) hmarks

end Parts

section Lines

variable {r r' : UsageRecord}

/-- The slots that a line shows. -/
def shownSlots (r : UsageRecord) : List (Fin kBucketSlots) :=
  (List.finRange kBucketSlots).filter fun i => !isOmitted r i

def bucketLines : Bool → List BucketEntry → List UInt8
  | _, [] => []
  | first, b :: bs => b.line first ++ bucketLines false bs

/-- The line of a record if nothing is cut off. -/
def fullLine (r : UsageRecord) : List UInt8 :=
  recordText r ++ bucketLines true ((shownSlots r).map (bucketEntry r)) ++ text "]\x7d"

theorem appendBuckets_eq (r : UsageRecord) (slots : List (Fin kBucketSlots)) :
    ∀ first out, appendBuckets r slots first out =
      .ok (out ++ bucketLines first ((slots.filter fun i => !isOmitted r i).map (bucketEntry r))) := by
  induction slots with
  | nil =>
      intro first out
      rw [List.filter_nil, List.map_nil, bucketLines, List.append_nil, appendBuckets]
  | cons i slots ih =>
      intro first out
      rw [appendBuckets]
      by_cases h : isOmitted r i
      · rw [if_pos h, ih, List.filter_cons_of_neg (by simp [h])]
      · have hfits := (bucketEntry r i).length_line first
        have happend : appendBuffer out
              (snprintf kLineBuffer bucketFormat (bucketArgs r first i)) =
            .ok (out ++ (bucketEntry r i).line first) :=
          appendBuffer_eq (formatted_bucket r first i) (Nat.lt_of_le_of_lt hfits (by decide))
        rw [if_neg h, happend, List.filter_cons_of_pos (by simp [h]), List.map_cons, bucketLines,
          ← List.append_assoc]
        exact ih false _

/-- The line, from what the first call of `snprintf` has appended. -/
theorem toNdjson_of_append {start : List UInt8}
    (h : appendBuffer [] (snprintf kLineBuffer recordFormat (recordArgs r)) = .ok start) :
    toNdjson r =
      .ok (start ++ bucketLines true ((shownSlots r).map (bucketEntry r)) ++ text "]\x7d") := by
  rw [toNdjson, h]
  change (appendBuckets r (List.finRange kBucketSlots) true start >>= fun out =>
    Except.ok (out ++ text "]\x7d")) = _
  rw [appendBuckets_eq]
  rfl

theorem toNdjson_eq (r : UsageRecord) : toNdjson r = .ok (fullLine r) := by
  refine toNdjson_of_append ?_
  rw [appendBuffer_eq (formatted_record r)
    (Nat.lt_of_le_of_lt (length_recordText r) (by decide)), List.nil_append]

/-- A bucket begins with its brace or with a comma, so the bracket behind the last one does
not look like a bucket. -/
theorem BucketEntry.line_ne_bracket {first : Bool} {b : BucketEntry} {rest rest' : List UInt8} :
    b.line first ++ rest ≠ 93 :: rest' := by
  have hhead : ∃ more, b.line first = (if first then 123 else 44) :: more := by
    cases first <;> exact ⟨_, rfl⟩
  obtain ⟨more, hmore⟩ := hhead
  rw [hmore, List.cons_append]
  intro h
  have hfirst := (List.cons.inj h).1
  cases first <;> exact absurd hfirst (by decide)

/-- The buckets of a line can be read back. -/
theorem bucketLines_inj {rest rest' : List UInt8} {bs bs' : List BucketEntry} {first : Bool}
    (h : bucketLines first bs ++ 93 :: rest = bucketLines first bs' ++ 93 :: rest') :
    bs = bs' := by
  induction bs generalizing bs' first with
  | nil =>
      cases bs' with
      | nil => rfl
      | cons b' bs' =>
          rw [bucketLines, bucketLines, List.append_assoc] at h
          exact absurd h.symm BucketEntry.line_ne_bracket
  | cons b bs ih =>
      cases bs' with
      | nil =>
          rw [bucketLines, bucketLines, List.append_assoc] at h
          exact absurd h BucketEntry.line_ne_bracket
      | cons b' bs' =>
          rw [bucketLines, bucketLines, List.append_assoc, List.append_assoc] at h
          obtain ⟨hvalues, hrest⟩ := interleave_inj (b.stops first) (b'.stops first) h
          rw [BucketEntry.values_inj hvalues, ih hrest]

/-- What two records with the same line have in common. -/
structure SameUsage (r r' : UsageRecord) : Prop where
  imsi : r.imsi = r'.imsi
  subscriberIndex : r.subscriberIndex = r'.subscriberIndex
  recordSeq : r.recordSeq = r'.recordSeq
  reason : r.reason = r'.reason
  ulBytes : r.ulBytes = r'.ulBytes
  dlBytes : r.dlBytes = r'.dlBytes
  ulPackets : r.ulPackets = r'.ulPackets
  dlPackets : r.dlPackets = r'.dlPackets
  /-- The interval length, modulo `2 ^ 64`. -/
  interval : r.intervalEndNs - r.intervalStartNs = r'.intervalEndNs - r'.intervalStartNs
  buckets : (shownSlots r).map (fun i => (r.bucketIds i, r.bucketBytes i)) =
    (shownSlots r').map (fun i => (r'.bucketIds i, r'.bucketBytes i))

/-- Records with the same line have the same texts in it. -/
theorem fullLine_inj (h : fullLine r = fullLine r') :
    recordValues r = recordValues r' ∧
      (shownSlots r).map (bucketEntry r) = (shownSlots r').map (bucketEntry r') := by
  have hend : text "]\x7d" = 93 :: [125] := by decide
  rw [fullLine, fullLine, recordText, recordText, hend] at h
  simp only [List.append_assoc] at h
  obtain ⟨hvalues, hrest⟩ :=
    interleave_inj (stops_recordValues r) (stops_recordValues r') (List.append_cancel_left h)
  exact ⟨hvalues, bucketLines_inj hrest⟩

theorem SameUsage.of_fullLine (hr : ∃ k : RecordReason, r.reason = k.code)
    (hr' : ∃ k : RecordReason, r'.reason = k.code) (h : fullLine r = fullLine r') :
    SameUsage r r' := by
  obtain ⟨k, hk⟩ := hr
  obtain ⟨k', hk'⟩ := hr'
  obtain ⟨hvalues, hentries⟩ := fullLine_inj h
  simp only [recordValues, List.cons.injEq, and_true] at hvalues
  obtain ⟨-, himsi, hindex, hseq, hreason, hul, hdl, hulPackets, hdlPackets, hinterval⟩ := hvalues
  rw [hk, hk'] at hreason
  have hbuckets := congrArg (List.map fun b : BucketEntry => (b.id, b.bytes)) hentries
  simp only [List.map_map] at hbuckets
  exact {
    imsi := UInt64.toNat_inj.mp (decimalText_inj himsi)
    subscriberIndex := UInt32.toNat_inj.mp (decimalText_inj hindex)
    recordSeq := UInt32.toNat_inj.mp (decimalText_inj hseq)
    reason := by rw [hk, hk', reasonText_inj hreason]
    ulBytes := UInt64.toNat_inj.mp (decimalText_inj hul)
    dlBytes := UInt64.toNat_inj.mp (decimalText_inj hdl)
    ulPackets := UInt64.toNat_inj.mp (decimalText_inj hulPackets)
    dlPackets := UInt64.toNat_inj.mp (decimalText_inj hdlPackets)
    interval := UInt64.toNat_inj.mp (decimalText_inj hinterval)
    buckets := hbuckets }

/-- A line is complete: both calls of `snprintf` need fewer than 512 bytes with the final
null byte, and all that they make is in the line.  Two records with the same line agree in
what the line is about. -/
theorem usage_lines_decodable (r r' : UsageRecord) (hr : ∃ k : RecordReason, r.reason = k.code)
    (hr' : ∃ k : RecordReason, r'.reason = k.code) :
    (∃ stored n, snprintf kLineBuffer recordFormat (recordArgs r) = some (stored, n) ∧
        n + 1 < kLineBuffer) ∧
      (∀ first i, ∃ stored n,
        snprintf kLineBuffer bucketFormat (bucketArgs r first i) = some (stored, n) ∧
          n + 1 < kLineBuffer) ∧
      toNdjson r = .ok (fullLine r) ∧
      (toNdjson r = toNdjson r' → SameUsage r r') := by
  refine ⟨?_, ?_, toNdjson_eq r, ?_⟩
  · have hlen := length_recordText r
    exact snprintf_fits (formatted_record r) (Nat.lt_of_le_of_lt (Nat.succ_le_succ hlen) (by decide))
  · intro first i
    have hlen := (bucketEntry r i).length_line first
    exact snprintf_fits (formatted_bucket r first i)
      (Nat.lt_of_le_of_lt (Nat.succ_le_succ hlen) (by decide))
  · intro hlines
    rw [toNdjson_eq, toNdjson_eq] at hlines
    exact SameUsage.of_fullLine hr hr' (Except.ok.inj hlines)

/-- A QFI and a rating group of the same number give different lines. -/
theorem usage_lines_decodable_tagged :
    toNdjson { bucketIds := fun _ => 5 } ≠ toNdjson { bucketIds := fun _ => 5 ||| kQfiBucketTag } := by
  intro hlines
  have hsame := (usage_lines_decodable { bucketIds := fun _ => 5 }
    { bucketIds := fun _ => 5 ||| kQfiBucketTag } ⟨.interval, rfl⟩ ⟨.interval, rfl⟩).2.2.2 hlines
  exact absurd hsame.buckets (by decide)

end Lines

end GtpMeter
