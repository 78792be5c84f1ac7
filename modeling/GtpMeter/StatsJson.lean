import GtpMeter.Clock
import GtpMeter.Ingest

/-!
# The statistics of the pipeline as one object

`render_stats_json` from `reporter.cpp` writes a snapshot of all counters by a single call
of `append`, whose buffer has 1024 bytes.  What does not fit the buffer is cut off.

The format has 42 conversions and 631 other characters.  The time of publication has 24
characters, so that 368 are left for the 37 counters and the four doubles.

**Results.**
* `stats_json_complete_iff`: the object is complete, and its braces are balanced, exactly
  if the counters and the doubles have at most 368 characters together.
-/

namespace GtpMeter

open BinaryDouble FilledText

section Model

structure LatencySummary where
  count : UInt64 := 0
  minNs : UInt64 := 0
  p50Ns : UInt64 := 0
  p90Ns : UInt64 := 0
  p99Ns : UInt64 := 0
  p999Ns : UInt64 := 0
  p9999Ns : UInt64 := 0
  maxNs : UInt64 := 0
  meanNs : FiniteDouble := {}

/-- The fields that are shown. -/
structure PipelineSnapshot where
  meter : PipelineStats := {}
  ingest : IngestStats := {}
  latency : LatencySummary := {}
  publishWallNs : UInt64 := 0
  uptimeNs : UInt64 := 0
  meterRingDepth : UInt64 := 0
  meterRingCapacity : UInt64 := 0
  gyRingDepth : UInt64 := 0
  recordRingDepth : UInt64 := 0
  recordsWritten : UInt64 := 0
  teidTableSize : UInt64 := 0
  teidTableCapacity : UInt64 := 0
  teidProbesPerLookup : FiniteDouble := {}
  teidLoadFactor : FiniteDouble := {}

namespace Reporter

def kAppendBuffer : Nat := 1024

/-- `append`: what `vsnprintf` made, or as much of it as the buffer has. -/
def append (out fmt : List UInt8) (args : List Argument) : Except PrintFault (List UInt8) :=
  match snprintf kAppendBuffer fmt args with
  | none => .error .badArgument
  | some (buf, n) =>
      if 0 < n then
        appendBuffer out (some (buf, if n < kAppendBuffer then n else kAppendBuffer - 1))
      else .ok out

def statsFormat : List UInt8 :=
  textParts
    ["\x7b\"uptime_s\":%.3f,\"published_at\":\"%s\",",
      "\"ingest\":\x7b\"frames\":%llu,\"bytes\":%llu,\"gpdus\":%llu,\"control\":%llu,",
      "\"parse_errors\":%llu,\"events_pushed\":%llu,\"events_dropped\":%llu,",
      "\"diameter_messages\":%llu\x7d,",
      "\"meter\":\x7b\"events\":%llu,\"bytes\":%llu,\"ul_bytes\":%llu,\"dl_bytes\":%llu,",
      "\"ul_packets\":%llu,\"dl_packets\":%llu,\"unknown_teid_events\":%llu,",
      "\"unknown_teid_bytes\":%llu,\"teid_bind_failures\":%llu,",
      "\"flows_active\":%llu,\"flow_evictions\":%llu,",
      "\"records_emitted\":%llu,\"records_dropped\":%llu,\"records_written\":%llu,",
      "\"gy_events\":%llu\x7d,",
      "\"rings\":\x7b\"meter_depth\":%llu,\"meter_capacity\":%llu,\"gy_depth\":%llu,",
      "\"record_depth\":%llu\x7d,",
      "\"teid_table\":\x7b\"size\":%llu,\"capacity\":%llu,\"load_factor\":%.4f,",
      "\"probes_per_lookup\":%.4f\x7d,",
      "\"latency_ns\":\x7b\"count\":%llu,\"min\":%llu,\"p50\":%llu,\"p90\":%llu,\"p99\":%llu,",
      "\"p999\":%llu,\"p9999\":%llu,\"max\":%llu,\"mean\":%.1f\x7d\x7d"]

/-- `static_cast<double>(s.uptime_ns) / 1e9`. -/
def uptimeSeconds (s : PipelineSnapshot) : Option FiniteDouble :=
  (ofRatio s.uptimeNs.toNat 1).bind fun uptime => uptime.div ⟨false, 1000000000, 0, by decide,
    by decide, by decide⟩

def statsArgs (s : PipelineSnapshot) : List Argument :=
  [.double (uptimeSeconds s), .str (formatRfc3339 s.publishWallNs),
    .ulonglong s.ingest.frames, .ulonglong s.ingest.framesBytes,
    .ulonglong s.ingest.gtpuGpdus, .ulonglong s.ingest.gtpuControl,
    .ulonglong s.ingest.gtpuParseErrors, .ulonglong s.ingest.eventsPushed,
    .ulonglong s.ingest.eventsDropped, .ulonglong s.ingest.diameterMessages,
    .ulonglong s.meter.events, .ulonglong s.meter.bytes,
    .ulonglong s.meter.ulBytes, .ulonglong s.meter.dlBytes,
    .ulonglong s.meter.ulPackets, .ulonglong s.meter.dlPackets,
    .ulonglong s.meter.unknownTeidEvents, .ulonglong s.meter.unknownTeidBytes,
    .ulonglong s.meter.teidBindFailures, .ulonglong s.meter.flowsActive,
    .ulonglong s.meter.flowEvictions, .ulonglong s.meter.recordsEmitted,
    .ulonglong s.meter.recordsDropped, .ulonglong s.recordsWritten,
    .ulonglong s.meter.gyEvents, .ulonglong s.meterRingDepth,
    .ulonglong s.meterRingCapacity, .ulonglong s.gyRingDepth,
    .ulonglong s.recordRingDepth, .ulonglong s.teidTableSize,
    .ulonglong s.teidTableCapacity, .double (some s.teidLoadFactor),
    .double (some s.teidProbesPerLookup), .ulonglong s.latency.count,
    .ulonglong s.latency.minNs, .ulonglong s.latency.p50Ns,
    .ulonglong s.latency.p90Ns, .ulonglong s.latency.p99Ns,
    .ulonglong s.latency.p999Ns, .ulonglong s.latency.p9999Ns,
    .ulonglong s.latency.maxNs, .double (some s.latency.meanNs)]

def renderStatsJson (s : PipelineSnapshot) : Except PrintFault (List UInt8) :=
  append [] statsFormat (statsArgs s)

end Reporter

end Model

namespace Reporter

section Buffer

variable {out fmt full : List UInt8} {args : List Argument}

/-- At most 1023 bytes are appended. -/
theorem append_eq (hfull : formatted fmt args = some full) :
    append out fmt args = .ok (out ++ full.take (kAppendBuffer - 1)) := by
  have hbuffer : snprintf kAppendBuffer fmt args =
      some (full.take (kAppendBuffer - 1) ++ [0], full.length) := by
    rw [snprintf, hfull, Option.map_some]
  have hcount : (if full.length < kAppendBuffer then full.length else kAppendBuffer - 1) =
      (full.take (kAppendBuffer - 1)).length := by
    rw [List.length_take]
    have hsize : 0 < kAppendBuffer := by decide
    split_ifs <;> omega
  rw [append, hbuffer]
  change (if 0 < full.length then appendBuffer out (some (full.take (kAppendBuffer - 1) ++ [0],
    if full.length < kAppendBuffer then full.length else kAppendBuffer - 1)) else .ok out) = _
  rw [hcount]
  split_ifs with hpos
  · have hle : (full.take (kAppendBuffer - 1)).length ≤
        (full.take (kAppendBuffer - 1) ++ [0]).length := by
      simp
    rw [appendBuffer, if_pos hle, List.take_left]
  · have hnil : full = [] := List.length_eq_zero_iff.mp (Nat.eq_zero_of_not_pos hpos)
    rw [hnil, List.take_nil, List.append_nil]

end Buffer

section Values

/-- The counters in front of the load of the table. -/
def pipelineCounters (s : PipelineSnapshot) : List UInt64 :=
  [s.ingest.frames, s.ingest.framesBytes, s.ingest.gtpuGpdus, s.ingest.gtpuControl,
    s.ingest.gtpuParseErrors, s.ingest.eventsPushed, s.ingest.eventsDropped,
    s.ingest.diameterMessages,
    s.meter.events, s.meter.bytes, s.meter.ulBytes, s.meter.dlBytes, s.meter.ulPackets,
    s.meter.dlPackets, s.meter.unknownTeidEvents, s.meter.unknownTeidBytes,
    s.meter.teidBindFailures, s.meter.flowsActive, s.meter.flowEvictions,
    s.meter.recordsEmitted, s.meter.recordsDropped, s.recordsWritten, s.meter.gyEvents,
    s.meterRingDepth, s.meterRingCapacity, s.gyRingDepth, s.recordRingDepth,
    s.teidTableSize, s.teidTableCapacity]

def latencyCounters (s : PipelineSnapshot) : List UInt64 :=
  [s.latency.count, s.latency.minNs, s.latency.p50Ns, s.latency.p90Ns, s.latency.p99Ns,
    s.latency.p999Ns, s.latency.p9999Ns, s.latency.maxNs]

def counterTexts (counters : List UInt64) : List (List UInt8) :=
  counters.map fun c => decimalText c.toNat

/-- The texts of all fields. -/
def statsValues (s : PipelineSnapshot) : List (List UInt8) :=
  doubleText 3 (uptimeSeconds s) :: formatRfc3339 s.publishWallNs ::
    (counterTexts (pipelineCounters s) ++
      (fixedText 4 s.teidLoadFactor :: fixedText 4 s.teidProbesPerLookup ::
        (counterTexts (latencyCounters s) ++ [fixedText 1 s.latency.meanNs])))

/-- How many characters the counters and the doubles have. -/
def numberWidth (s : PipelineSnapshot) : Nat :=
  ((pipelineCounters s ++ latencyCounters s).map fun c => Nat.log 10 c.toNat + 1).sum +
    ((doubleText 3 (uptimeSeconds s)).length + (fixedText 4 s.teidLoadFactor).length +
      (fixedText 4 s.teidProbesPerLookup).length + (fixedText 1 s.latency.meanNs).length)

theorem plain_counterTexts (counters : List UInt64) :
    ∀ value ∈ counterTexts counters, Plain value := by
  intro value hvalue
  obtain ⟨c, -, rfl⟩ := List.mem_map.mp hvalue
  exact plain_decimalText c.toNat

theorem plain_statsValues (s : PipelineSnapshot) : ∀ value ∈ statsValues s, Plain value := by
  simp only [statsValues, List.forall_mem_cons, List.forall_mem_append]
  exact ⟨plain_doubleText 3 _, plain_formatRfc3339 _, plain_counterTexts _, plain_fixedText 4 _,
    plain_fixedText 4 _, plain_counterTexts _, plain_fixedText 1 _, by simp⟩

theorem sum_counterTexts (counters : List UInt64) :
    ((counterTexts counters).map List.length).sum =
      (counters.map fun c => Nat.log 10 c.toNat + 1).sum := by
  simp only [counterTexts, List.map_map, Function.comp_def, length_decimalText]

theorem sum_statsValues (s : PipelineSnapshot) :
    ((statsValues s).map List.length).sum = 24 + numberWidth s := by
  simp only [statsValues, numberWidth, List.map_cons, List.map_append, List.map_nil,
    List.sum_cons, List.sum_append, List.sum_nil, sum_counterTexts, length_formatRfc3339]
  omega

end Values

section Parts

/-- The format character by character, which is quick to evaluate. -/
def statsChars : { chars // statsFormat = chars } :=
  ⟨_, textParts_eq (.cons rfl (.cons rfl (.cons rfl (.cons rfl (.cons rfl (.cons rfl (.cons rfl
    (.cons rfl (.cons rfl (.cons rfl (.cons rfl (.cons rfl (.cons rfl (.cons rfl (.cons rfl
      (.cons rfl .nil))))))))))))))))⟩

set_option maxRecDepth 10000 in
/-- The conversions of the format; what stands around them is a pair of braces, and has 631
characters. -/
theorem statsFormat_parts :
    (parseFormat 0 statsFormat).convs =
        .fixed 3 :: .str :: (List.replicate 29 .ulonglong ++
          (.fixed 4 :: .fixed 4 :: (List.replicate 8 .ulonglong ++ [.fixed 1]))) ∧
      (parseFormat 0 statsFormat).pieces.length = 42 ∧
      (∀ piece ∈ (parseFormat 0 statsFormat).pieces, piece ≠ []) ∧
      (parseFormat 0 statsFormat).pieces.getLast? = some (text "\x7d\x7d") ∧
      (parseFormat 0 statsFormat).front = text "\x7b\"uptime_s\":" ∧
      depthAfter 123 125 1 ((parseFormat 0 statsFormat).front.tail ++
        (parseFormat 0 statsFormat).pieces.flatten) = some 0 ∧
      (parseFormat 0 statsFormat).front.length +
        ((parseFormat 0 statsFormat).pieces.map List.length).sum = 631 := by
  rw [statsChars.2]
  decide +kernel

/-- The object if nothing is cut off. -/
def fullObject (s : PipelineSnapshot) : List UInt8 :=
  (parseFormat 0 statsFormat).front ++
    interleave (statsValues s) (parseFormat 0 statsFormat).pieces

theorem formatted_stats (s : PipelineSnapshot) :
    formatted statsFormat (statsArgs s) = some (fullObject s) := by
  refine formatted_eq rfl ?_
  rw [statsFormat_parts.1]
  rfl

theorem length_statsValues (s : PipelineSnapshot) :
    (statsValues s).length = (parseFormat 0 statsFormat).pieces.length := by
  rw [statsFormat_parts.2.1]
  rfl

theorem length_fullObject (s : PipelineSnapshot) :
    (fullObject s).length = 655 + numberWidth s := by
  obtain ⟨-, -, -, -, -, -, hfixed⟩ := statsFormat_parts
  rw [fullObject, List.length_append, length_interleave (length_statsValues s), sum_statsValues]
  omega

/-- The braces of the whole object are balanced: no value has any. -/
theorem enclosed_fullObject (s : PipelineSnapshot) : Enclosed 123 125 (fullObject s) := by
  obtain ⟨-, -, hpieces, -, hfront, hdepth, -⟩ := statsFormat_parts
  have hvalues : ∀ value ∈ statsValues s, 123 ∉ value ∧ 125 ∉ value := by
    intro value hvalue
    have hplain := plain_statsValues s value hvalue
    exact ⟨fun hc => (hplain 123 hc).2.2.1 rfl, fun hc => (hplain 125 hc).2.2.2 rfl⟩
  have hopen : (parseFormat 0 statsFormat).front = 123 :: (parseFormat 0 statsFormat).front.tail := by
    rw [hfront]
    decide +kernel
  refine ⟨(parseFormat 0 statsFormat).front.tail ++
    interleave (statsValues s) (parseFormat 0 statsFormat).pieces, ?_, ?_⟩
  · rw [← List.cons_append, ← hopen, fullObject]
  · rw [depthAfter_append] at hdepth ⊢
    rw [← hdepth]
    exact congrArg _ (funext (depthAfter_interleave (length_statsValues s) hvalues hpieces))

theorem suffix_fullObject (s : PipelineSnapshot) : text "\x7d\x7d" <:+ fullObject s := by
  obtain ⟨-, -, -, hlast, -, -, -⟩ := statsFormat_parts
  exact (suffix_interleave (length_statsValues s) _ hlast).trans (List.suffix_append _ _)

end Parts

section Complete

variable {s : PipelineSnapshot} {out : List UInt8}

/-- The object has every field with its full value, its braces are balanced, and it ends with
the last two braces of its format. -/
structure Complete (s : PipelineSnapshot) (out : List UInt8) : Prop where
  whole : formatted statsFormat (statsArgs s) = some out
  balanced : Enclosed 123 125 out
  closed : text "\x7d\x7d" <:+ out

theorem renderStatsJson_eq (s : PipelineSnapshot) :
    renderStatsJson s = .ok ((fullObject s).take 1023) :=
  append_eq (formatted_stats s)

theorem complete_fullObject (s : PipelineSnapshot) : Complete s (fullObject s) where
  whole := formatted_stats s
  balanced := enclosed_fullObject s
  closed := suffix_fullObject s

/-- Balanced braces alone show that nothing is missing. -/
theorem enclosed_take_iff (s : PipelineSnapshot) (k : Nat) :
    Enclosed 123 125 ((fullObject s).take k) ↔ (fullObject s).length ≤ k := by
  constructor
  · intro hbalanced
    by_contra hlong
    have hrest : (fullObject s).drop k ≠ [] := by
      rw [ne_eq, List.drop_eq_nil_iff]
      exact hlong
    have hwhole := enclosed_fullObject s
    rw [← List.take_append_drop k (fullObject s)] at hwhole
    exact hwhole.not_cut hrest hbalanced
  · intro hfits
    rw [List.take_of_length_le hfits]
    exact enclosed_fullObject s

/-- The object is complete exactly if its numbers have at most 368 characters together.
Otherwise its braces are not even balanced. -/
theorem stats_json_complete_iff (s : PipelineSnapshot) :
    ∃ out, renderStatsJson s = .ok out ∧
      (Complete s out ↔ numberWidth s ≤ 368) ∧
      (Enclosed 123 125 out ↔ numberWidth s ≤ 368) := by
  have hlen := length_fullObject s
  have hbalanced : Enclosed 123 125 ((fullObject s).take 1023) ↔ numberWidth s ≤ 368 := by
    rw [enclosed_take_iff, hlen]
    omega
  refine ⟨(fullObject s).take 1023, renderStatsJson_eq s, ⟨?_, ?_⟩, hbalanced⟩
  · intro hcomplete
    exact hbalanced.mp hcomplete.balanced
  · intro hwidth
    have hfits : (fullObject s).length ≤ 1023 := by omega
    rw [List.take_of_length_le hfits]
    exact complete_fullObject s

/-- A snapshot in which each of the 37 counters has ten digits. -/
def tenDigits : PipelineSnapshot :=
  let n : UInt64 := 1000000000
  { meter :=
      { events := n, bytes := n, ulBytes := n, dlBytes := n, ulPackets := n, dlPackets := n,
        unknownTeidEvents := n, unknownTeidBytes := n, flowsActive := n, flowEvictions := n,
        recordsEmitted := n, recordsDropped := n, gyEvents := n, teidBindFailures := n }
    ingest :=
      { frames := n, framesBytes := n, gtpuParseErrors := n, gtpuGpdus := n, gtpuControl := n,
        diameterMessages := n, eventsPushed := n, eventsDropped := n }
    latency :=
      { count := n, minNs := n, p50Ns := n, p90Ns := n, p99Ns := n, p999Ns := n, p9999Ns := n,
        maxNs := n }
    meterRingDepth := n
    meterRingCapacity := n
    gyRingDepth := n
    recordRingDepth := n
    recordsWritten := n
    teidTableSize := n
    teidTableCapacity := n }

/-- Its object ends within the greatest latency, which is shown as 1. -/
theorem ten_digits_cut :
    ∃ out, renderStatsJson tenDigits = .ok out ∧ text "\"max\":1" <:+ out ∧
      ¬Complete tenDigits out ∧ ¬Enclosed 123 125 out := by
  have hwidth : numberWidth tenDigits = 390 := by decide +kernel
  have hcut : ¬Enclosed 123 125 ((fullObject tenDigits).take 1023) := by
    rw [enclosed_take_iff, length_fullObject, hwidth]
    decide
  refine ⟨_, renderStatsJson_eq tenDigits, ?_, fun hcomplete => hcut hcomplete.balanced, hcut⟩
  rw [fullObject, statsChars.2]
  decide +kernel

end Complete

end Reporter

end GtpMeter
