import GtpMeter.AcceptedMessages
import Mathlib.Data.List.DropRight
import Mathlib.Data.List.Infix

/-!
# The units of a block

A block reports its usage in Used-Service-Units.  The protocol allows several of them,
one on each side of a tariff change say, and what was used is their sum.  The parser
reads every unit into the same three fields of the block: a count that a unit carries
replaces the one before it, and after each unit a total of 0 is taken for a total that
was not sent.

**Results.**
* `parseMscc_units`: the fields after a block, as a fold over its units.
* `foldl_read_eq`: the total that they leave, without the fold.
* `used_units_summed_iff`: when the total of the block is the sum of its units.
-/

namespace GtpMeter

/-- The octet counts of one unit, as far as it carries them. -/
structure UnitCounts where
  input : Option UInt64 := none
  output : Option UInt64 := none
  total : Option UInt64 := none
deriving DecidableEq

namespace UnitCounts

/-- What the unit reports: its total, or the sum of the two directions without one. -/
def octets (u : UnitCounts) : Nat :=
  match u.total with
  | some t => t.toNat
  | none => (u.input.getD 0).toNat + (u.output.getD 0).toNat

end UnitCounts

/-- What the units of a block report together. -/
def reportedOctets (units : List UnitCounts) : Nat :=
  (units.map UnitCounts.octets).sum

theorem reportedOctets_append (units units' : List UnitCounts) :
    reportedOctets (units ++ units') = reportedOctets units + reportedOctets units' := by
  rw [reportedOctets, List.map_append, List.sum_append]
  rfl

section Standing

/-- The count that stands after some units: the last one that was sent. -/
def latest (count : UnitCounts → Option UInt64) (units : List UnitCounts) : UInt64 :=
  ((units.filterMap count).getLast?).getD 0

/-- The two directions together, as they stand after some units. -/
def directions (units : List UnitCounts) : UInt64 :=
  latest UnitCounts.input units + latest UnitCounts.output units

/-- The units up to the last one that carries a total. -/
def throughTotal (units : List UnitCounts) : List UnitCounts :=
  units.rdropWhile fun u => u.total.isNone

/-- The units behind the last one that carries a total; all of them, if none does. -/
def afterTotal (units : List UnitCounts) : List UnitCounts :=
  units.rtakeWhile fun u => u.total.isNone

/-- The total that was sent last, 0 if there was none. -/
def lastTotal (units : List UnitCounts) : UInt64 :=
  ((throughTotal units).getLast?.bind UnitCounts.total).getD 0

/-- What the two directions come to when they first come to something, from the last total
on; 0 if they never do. -/
def firstDirections (units : List UnitCounts) : UInt64 :=
  (((afterTotal units).inits.map fun more => directions (throughTotal units ++ more)).find?
    fun v => v ≠ 0).getD 0

/-- The counts of the units are such that the last total, or the first sum of the two
directions behind it, is all they report: next to a total other than 0 the other units
report nothing, and otherwise that sum is the sum of the units. -/
def UnitsAddUp (units : List UnitCounts) : Prop :=
  if lastTotal units ≠ 0 then
    UInt64.ofNat (reportedOctets ((throughTotal units).dropLast ++ afterTotal units)) = 0
  else UInt64.ofNat (reportedOctets units) = firstDirections units

instance decidableUnitsAddUp (units : List UnitCounts) : Decidable (UnitsAddUp units) :=
  inferInstanceAs (Decidable (ite _ _ _))

theorem latest_snoc (count : UnitCounts → Option UInt64) (units : List UnitCounts)
    (u : UnitCounts) : latest count (units ++ [u]) = (count u).getD (latest count units) := by
  unfold latest
  rw [List.filterMap_append]
  cases hu : count u <;> simp [hu]

theorem throughTotal_append (units : List UnitCounts) :
    throughTotal units ++ afterTotal units = units :=
  List.rdropWhile_append_rtakeWhile

theorem afterTotal_none {units : List UnitCounts} : ∀ u ∈ afterTotal units, u.total = none := by
  intro u hu
  have hnone := List.mem_rtakeWhile_imp (p := fun u : UnitCounts => u.total.isNone) hu
  exact Option.isNone_iff_eq_none.mp hnone

/-- No unit carries a total, or there is a last one that does. -/
theorem throughTotal_cases (units : List UnitCounts) :
    throughTotal units = [] ∨
      ∃ before u t, throughTotal units = before ++ [u] ∧ u.total = some t := by
  by_cases hnone : throughTotal units = []
  · exact .inl hnone
  · have hsome := List.rdropWhile_last_not (fun u : UnitCounts => u.total.isNone) units hnone
    obtain ⟨t, ht⟩ := Option.ne_none_iff_exists'.mp (by simpa using hsome)
    exact .inr ⟨_, _, t, (List.dropLast_append_getLast hnone).symm, ht⟩

end Standing

section Counts

/-- The AVPs that a walk over the area visits. -/
def visited (area : Span) : List Avp :=
  match forEachAvp collectAvps 0 area [] with
  | .ok (_, avps) => avps
  | .error _ => []

theorem visited_eq {area : Span} {avps : List Avp} (h : Visits area avps) :
    visited area = avps := by
  rw [visited, h]

/-- The value of an octet counter, of 8 or 4 bytes. -/
def Avp.count (avp : Avp) : Option UInt64 :=
  match avp.asU64 with
  | .ok v => v
  | .error _ => none

theorem Avp.asU64_eq (avp : Avp) : avp.asU64 = .ok avp.count := by
  obtain ⟨v, hv, -⟩ : Returns (fun _ => True) avp.asU64 := asU64_returns
  rw [Avp.count, hv]

/-- The count that these AVPs carry under a code; the last one, should there be more. -/
def countOf (c : AvpCode) (avps : List Avp) : Option UInt64 :=
  ((avps.filter (fun a => a.code == c.code)).filterMap Avp.count).getLast?

def unitCounts (avps : List Avp) : UnitCounts where
  input := countOf .ccInputOctets avps
  output := countOf .ccOutputOctets avps
  total := countOf .ccTotalOctets avps

/-- The units of a block, in order. -/
def usedUnits (mscc : Avp) : List UnitCounts :=
  ((visited mscc.data).filter (fun a => a.code == AvpCode.usedServiceUnit.code)).map
    (fun a => unitCounts (visited a.data))

variable {c : AvpCode} {a : Avp} {avps : List Avp}

@[simp] theorem countOf_singleton :
    countOf c [a] = if a.code = c.code then a.count else none := by
  by_cases hcode : a.code = c.code
  · cases hcount : a.count with
    | none => simp [countOf, hcode, hcount]
    | some v => simp [countOf, hcode, hcount]
  · simp [countOf, hcode]

/-- A count stands until the next one. -/
theorem countOf_cons (a : Avp) (avps : List Avp) (v : UInt64) :
    (countOf c (a :: avps)).getD v = (countOf c avps).getD ((countOf c [a]).getD v) := by
  rw [countOf_singleton, countOf, List.filter_cons, countOf]
  by_cases hcode : a.code = c.code
  · rw [if_pos (beq_iff_eq.mpr hcode), if_pos hcode, List.filterMap_cons]
    cases a.count with
    | none => rfl
    | some w =>
        rw [List.getLast?_cons]
        rfl
  · rw [if_neg (by simpa using hcode), if_neg hcode]
    rfl

end Counts

/-- The fields of a block that its units are read into. -/
structure OctetFields where
  input : UInt64 := 0
  output : UInt64 := 0
  total : UInt64 := 0
deriving DecidableEq

def MsccInfo.octetFields (info : MsccInfo) : OctetFields where
  input := info.usedInputOctets
  output := info.usedOutputOctets
  total := info.usedTotalOctets

namespace OctetFields

/-- A unit is read into the fields that the units before it have filled. -/
def read (f : OctetFields) (u : UnitCounts) : OctetFields where
  input := u.input.getD f.input
  output := u.output.getD f.output
  total :=
    if u.total.getD f.total = 0 then u.input.getD f.input + u.output.getD f.output
    else u.total.getD f.total

variable {f : OctetFields} {u : UnitCounts} {units : List UnitCounts}

theorem read_of_eq_zero (h : u.total.getD f.total = 0) :
    f.read u = ⟨u.input.getD f.input, u.output.getD f.output,
      u.input.getD f.input + u.output.getD f.output⟩ := by
  rw [read, if_pos h]

theorem read_of_ne_zero (h : u.total.getD f.total ≠ 0) :
    f.read u = ⟨u.input.getD f.input, u.output.getD f.output, u.total.getD f.total⟩ := by
  rw [read, if_neg h]

/-- The fields as the counts sent so far would fill them, no total among them. -/
def standing (units : List UnitCounts) : OctetFields where
  input := latest UnitCounts.input units
  output := latest UnitCounts.output units
  total := directions units

/-- A direction is as it was sent last. -/
theorem foldl_read_directions (units : List UnitCounts) :
    (units.foldl read {}).input = latest UnitCounts.input units ∧
      (units.foldl read {}).output = latest UnitCounts.output units := by
  induction units using List.reverseRecOn with
  | nil => exact ⟨rfl, rfl⟩
  | append_singleton units u ih =>
      rw [List.foldl_append, List.foldl_cons, List.foldl_nil, latest_snoc, latest_snoc, ← ih.1,
        ← ih.2]
      exact ⟨rfl, rfl⟩

/-- A total of 0 makes way for the directions. -/
theorem read_zero (hin : f.input = latest UnitCounts.input units)
    (hout : f.output = latest UnitCounts.output units) (hzero : u.total.getD f.total = 0) :
    f.read u = standing (units ++ [u]) := by
  rw [read_of_eq_zero hzero, standing, directions, latest_snoc, latest_snoc, hin, hout]

/-- A total other than 0 stays until the next one is sent. -/
theorem foldl_read_total (hnone : ∀ u ∈ units, u.total = none) (hf : f.total ≠ 0) :
    (units.foldl read f).total = f.total := by
  induction units generalizing f with
  | nil => rfl
  | cons u units ih =>
      have hkeep : u.total.getD f.total = f.total := by rw [hnone u List.mem_cons_self]; rfl
      have hread : (f.read u).total = f.total := by
        rw [read_of_ne_zero (by rwa [hkeep])]
        exact hkeep
      rw [List.foldl_cons, ih (fun v hv => hnone v (List.mem_cons_of_mem u hv)) (by rwa [hread]),
        hread]

/-- Without a total, the directions count when they first come to something. -/
theorem foldl_read_standing (before : List UnitCounts) (hnone : ∀ u ∈ units, u.total = none) :
    (units.foldl read (standing before)).total =
      ((units.inits.map fun more => directions (before ++ more)).find? fun v => v ≠ 0).getD 0 := by
  induction units generalizing before with
  | nil =>
      rw [List.inits, List.map_singleton, List.append_nil, List.foldl_nil]
      by_cases hzero : directions before = 0
      · simp [standing, hzero]
      · simp [standing, hzero]
  | cons u units ih =>
      rw [List.inits_cons, List.map_cons, List.append_nil, List.map_map]
      by_cases hzero : directions before = 0
      · have hread : (standing before).read u = standing (before ++ [u]) :=
          read_zero rfl rfl (by rw [hnone u List.mem_cons_self]; exact hzero)
        rw [List.foldl_cons, hread, ih _ (fun v hv => hnone v (List.mem_cons_of_mem u hv)),
          List.find?_cons_of_neg (by simp [hzero])]
        simp [Function.comp_def]
      · rw [foldl_read_total hnone hzero, List.find?_cons_of_pos (by simpa using hzero)]
        rfl

/-- The total that the units of a block leave. -/
theorem foldl_read_eq (units : List UnitCounts) :
    (units.foldl read {}).total =
      if lastTotal units ≠ 0 then lastTotal units else firstDirections units := by
  have hsplit : units.foldl read {} =
      (afterTotal units).foldl read ((throughTotal units).foldl read {}) := by
    rw [← List.foldl_append, throughTotal_append]
  rw [hsplit]
  rcases throughTotal_cases units with hthrough | ⟨before, u, t, hthrough, ht⟩
  · have hlast : lastTotal units = 0 := by rw [lastTotal, hthrough]; rfl
    rw [if_neg (by simp [hlast]), firstDirections, hthrough]
    exact foldl_read_standing [] afterTotal_none
  · have hlast : lastTotal units = t := by simp [lastTotal, hthrough, ht]
    obtain ⟨hin, hout⟩ := foldl_read_directions before
    rw [hlast, hthrough, List.foldl_append, List.foldl_cons, List.foldl_nil]
    by_cases hzero : t = 0
    · rw [if_neg (by simp [hzero]), read_zero hin hout (by rw [ht]; exact hzero), firstDirections,
        hthrough]
      exact foldl_read_standing _ afterTotal_none
    · have hread : ((before.foldl read {}).read u).total = t := by simp [read, ht, hzero]
      rw [if_pos hzero, foldl_read_total afterTotal_none (by rwa [hread]), hread]

/-- The total is right when the units add up, and not otherwise. -/
theorem foldl_read_iff (units : List UnitCounts) :
    (units.foldl read {}).total = UInt64.ofNat (reportedOctets units) ↔ UnitsAddUp units := by
  rw [foldl_read_eq, UnitsAddUp]
  by_cases hlast : lastTotal units ≠ 0
  · rw [if_pos hlast, if_pos hlast]
    rcases throughTotal_cases units with hthrough | ⟨before, u, t, hthrough, ht⟩
    · exact absurd (by rw [lastTotal, hthrough]; rfl) hlast
    · have htotal : lastTotal units = t := by simp [lastTotal, hthrough, ht]
      have hunit : reportedOctets [u] = t.toNat := by simp [reportedOctets, UnitCounts.octets, ht]
      have hall : reportedOctets units =
          reportedOctets before + t.toNat + reportedOctets (afterTotal units) := by
        rw [← hunit, ← reportedOctets_append, ← hthrough, ← reportedOctets_append,
          throughTotal_append]
      rw [htotal, hthrough, List.dropLast_concat, hall, reportedOctets_append, UInt64.ofNat_add,
        UInt64.ofNat_add, UInt64.ofNat_add, UInt64.ofNat_toNat]
      constructor <;> intro h <;> grind
  · rw [if_neg hlast, if_neg hlast]
    exact eq_comm

end OctetFields

section Parse

open OctetFields

variable {info : MsccInfo} {a : Avp} {avps : List Avp} {depth d : Nat}

/-- What the AVPs of a unit leave of the counts before it. -/
def readCounts (info : MsccInfo) (avps : List Avp) : MsccInfo :=
  { info with
    usedInputOctets := (countOf .ccInputOctets avps).getD info.usedInputOctets
    usedOutputOctets := (countOf .ccOutputOctets avps).getD info.usedOutputOctets
    usedTotalOctets := (countOf .ccTotalOctets avps).getD info.usedTotalOctets }

theorem readCounts_cons (info : MsccInfo) (a : Avp) (avps : List Avp) :
    readCounts info (a :: avps) = readCounts (readCounts info [a]) avps := by
  simp only [readCounts, countOf_cons a avps]

/-- One AVP of a unit. -/
theorem usedUnitField_eq : usedUnitField info a d = .ok (readCounts info [a]) := by
  unfold usedUnitField readCounts
  split
  · rename_i hcode
    simp [AvpCode.ofCode_eq_some_iff.mp hcode, a.asU64_eq, AvpCode.code, bind, Except.bind]
  · rename_i hcode
    simp [AvpCode.ofCode_eq_some_iff.mp hcode, a.asU64_eq, AvpCode.code, bind, Except.bind]
  · rename_i hcode
    simp [AvpCode.ofCode_eq_some_iff.mp hcode, a.asU64_eq, AvpCode.code, bind, Except.bind]
  · rename_i hin hout htotal
    rw [countOf_singleton, countOf_singleton, countOf_singleton,
      if_neg (fun h => hin (AvpCode.ofCode_eq_some_iff.mpr h)),
      if_neg (fun h => hout (AvpCode.ofCode_eq_some_iff.mpr h)),
      if_neg (fun h => htotal (AvpCode.ofCode_eq_some_iff.mpr h))]
    rfl

/-- The AVPs of a unit, in order. -/
theorem foldlM_usedUnitField (avps : List Avp) (info : MsccInfo) :
    avps.foldlM (fun info avp => usedUnitField info avp d) info =
      .ok (readCounts info avps) := by
  induction avps generalizing info with
  | nil => rfl
  | cons a avps ih =>
      rw [List.foldlM_cons, usedUnitField_eq, readCounts_cons info a avps]
      exact ih _

/-- `parse_used_service_unit` on a well-formed unit. -/
theorem parseUsedServiceUnit_unit (hdepth : depth + 1 < kAvpMaxDepth)
    (h : WellFormedArea a.data) :
    Returns (fun r => r.octetFields = info.octetFields.read (unitCounts (visited a.data)))
      (parseUsedServiceUnit a info depth) := by
  obtain ⟨avps, havps⟩ := h
  rw [visited_eq havps, parseUsedServiceUnit, forEachSubAvp, forEachAvp_visits hdepth havps,
    foldlM_usedUnitField]
  refine Returns.ite (fun hzero => Returns.ok ?_) (fun hzero => Returns.ok ?_)
  · exact (read_of_eq_zero (f := info.octetFields) (u := unitCounts avps) hzero).symm
  · exact (read_of_ne_zero (f := info.octetFields) (u := unitCounts avps) hzero).symm

/-- The granted unit has a field of its own. -/
theorem granted_keeps {input : List UInt8} {f : OctetFields} :
    KeepsOn input (fun r : MsccInfo => r.octetFields = f) (visitAll grantedUnitField) :=
  visitAll_keeps (fun _ _ _ hs _ =>
    Returns.ite (fun _ => Returns.bind asU64_returns (fun _ _ => Returns.ok hs))
      (fun _ => Returns.ok hs))

/-- One AVP of a block. -/
theorem msccField_units (hdepth : depth + 2 < kAvpMaxDepth)
    (h : a.code = AvpCode.usedServiceUnit.code → WellFormedArea a.data) :
    Returns (fun r => r.octetFields =
        if a.code == AvpCode.usedServiceUnit.code then
          info.octetFields.read (unitCounts (visited a.data))
        else info.octetFields)
      (msccField depth info a d) := by
  by_cases hunit : a.code = AvpCode.usedServiceUnit.code
  · rw [if_pos (beq_iff_eq.mpr hunit), msccField, AvpCode.ofCode_eq_some_iff.mpr hunit]
    exact parseUsedServiceUnit_unit hdepth (h hunit)
  · rw [if_neg (by simpa using hunit), msccField]
    split
    · exact Returns.bind asU32_returns (fun _ _ => Returns.ok rfl)
    · exact Returns.bind asU32_returns (fun _ _ => Returns.ok rfl)
    · rename_i hcode
      exact absurd (AvpCode.ofCode_eq_some_iff.mp hcode) hunit
    · exact Returns.bind (forEachSubAvp_keeps granted_keeps (ViewOf.somewhere a.data) rfl)
        (fun _ hr => Returns.ok hr)
    · exact Returns.ok rfl

/-- The AVPs of a block, in order. -/
theorem foldlM_msccField (hdepth : depth + 2 < kAvpMaxDepth)
    (h : ∀ a ∈ avps, a.code = AvpCode.usedServiceUnit.code → WellFormedArea a.data) :
    Returns (fun r => r.octetFields =
        ((avps.filter (fun a => a.code == AvpCode.usedServiceUnit.code)).map
          (fun a => unitCounts (visited a.data))).foldl read info.octetFields)
      (avps.foldlM (fun info a => msccField depth info a d) info) := by
  induction avps generalizing info with
  | nil => exact Returns.ok rfl
  | cons a avps ih =>
      rw [List.foldlM_cons, List.filter_cons]
      refine Returns.bind (msccField_units hdepth (h a List.mem_cons_self)) (fun r hr => ?_)
      refine (ih (fun b hb => h b (List.mem_cons_of_mem a hb))).mono (fun r' hr' => ?_)
      rw [hr', hr]
      split
      · rw [List.map_cons, List.foldl_cons]
      · rfl

/-- **The fields of a block.**  `parse_mscc` reads the units of a well-formed block into
the same fields, one after the other. -/
theorem parseMscc_units (hdepth : depth + 2 < kAvpMaxDepth) (h : MsccWellFormed a) :
    Returns (fun r => r.octetFields = (usedUnits a).foldl read {}) (parseMscc a {} depth) := by
  obtain ⟨inner, hinner, hunits⟩ := h
  rw [usedUnits, visited_eq hinner, parseMscc, forEachSubAvp,
    forEachAvp_visits (Nat.lt_of_succ_lt hdepth) hinner, bind_assoc]
  exact Returns.bind (foldlM_msccField hdepth (fun b hb hcode => hunits b hb (.inl hcode)))
    (fun _ hr => Returns.ok hr)

end Parse

section Blocks

/-- **The usage of a block.**  `parse_mscc` returns on every well-formed block, with the
fields that its units leave one after the other.  The total is the sum of the units, modulo
the range of the field, exactly if the units add up. -/
theorem used_units_summed_iff (mscc : Avp) (depth : Nat) (hdepth : depth + 2 < kAvpMaxDepth)
    (hmscc : MsccWellFormed mscc) :
    ∃ info, parseMscc mscc {} depth = .ok info ∧
      info.octetFields = (usedUnits mscc).foldl OctetFields.read {} ∧
      (info.usedTotalOctets = UInt64.ofNat (reportedOctets (usedUnits mscc)) ↔
        UnitsAddUp (usedUnits mscc)) := by
  obtain ⟨info, hread, hfields⟩ := parseMscc_units hdepth hmscc
  refine ⟨info, hread, hfields, ?_⟩
  rw [← OctetFields.foldl_read_iff, ← hfields]
  rfl

instance decidableVisits (area : Span) (avps : List Avp) : Decidable (Visits area avps) :=
  inferInstanceAs (Decidable (_ = _))

theorem msccWellFormed_of_visited {a : Avp} (harea : Visits a.data (visited a.data))
    (hunits : ∀ b ∈ visited a.data,
      b.code = AvpCode.usedServiceUnit.code ∨ b.code = AvpCode.grantedServiceUnit.code →
        Visits b.data (visited b.data)) :
    MsccWellFormed a :=
  ⟨_, harea, fun b hb hcode => ⟨_, hunits b hb hcode⟩⟩

/-- A block with a Used-Service-Unit of 300 octets in and 200 out, and one whose total is
0. -/
def directionsBlock : Avp where
  code := 456
  flags := 0x40
  length := 72
  data := ⟨8, [0, 0, 1, 0xBE, 0x40, 0, 0, 40,
    0, 0, 1, 0x9C, 0x40, 0, 0, 16, 0, 0, 0, 0, 0, 0, 1, 44,
    0, 0, 1, 0x9E, 0x40, 0, 0, 16, 0, 0, 0, 0, 0, 0, 0, 200,
    0, 0, 1, 0xBE, 0x40, 0, 0, 24,
    0, 0, 1, 0xA5, 0x40, 0, 0, 16, 0, 0, 0, 0, 0, 0, 0, 0]⟩

theorem used_units_summed_iff_directions :
    MsccWellFormed directionsBlock ∧
    usedUnits directionsBlock =
      [{ input := some 300, output := some 200 }, { total := some 0 }] ∧
    ∃ info, parseMscc directionsBlock {} 0 = .ok info ∧ info.usedTotalOctets = 500 := by
  have hmscc : MsccWellFormed directionsBlock :=
    msccWellFormed_of_visited (by decide +kernel) (by decide +kernel)
  obtain ⟨info, hread, -, hiff⟩ := used_units_summed_iff directionsBlock 0 (by decide) hmscc
  have hunits : usedUnits directionsBlock =
      [{ input := some 300, output := some 200 }, { total := some 0 }] := by
    decide +kernel
  refine ⟨hmscc, hunits, info, hread, ?_⟩
  rw [hunits] at hiff
  exact hiff.mpr (by decide +kernel)

/-- A block with two Used-Service-Units, of 1000 and of 500 octets. -/
def tariffChangeBlock : Avp where
  code := 456
  flags := 0x40
  length := 56
  data := ⟨8, [0, 0, 1, 0xBE, 0x40, 0, 0, 24,
    0, 0, 1, 0xA5, 0x40, 0, 0, 16, 0, 0, 0, 0, 0, 0, 0x03, 0xE8,
    0, 0, 1, 0xBE, 0x40, 0, 0, 24,
    0, 0, 1, 0xA5, 0x40, 0, 0, 16, 0, 0, 0, 0, 0, 0, 0x01, 0xF4]⟩

/-- Across a tariff change only the last unit is charged for. -/
theorem tariff_change_loses_first_unit :
    MsccWellFormed tariffChangeBlock ∧
    usedUnits tariffChangeBlock = [{ total := some 1000 }, { total := some 500 }] ∧
    reportedOctets (usedUnits tariffChangeBlock) = 1500 ∧
    ∃ info, parseMscc tariffChangeBlock {} 0 = .ok info ∧ info.usedTotalOctets = 500 := by
  have hunits : usedUnits tariffChangeBlock = [{ total := some 1000 }, { total := some 500 }] := by
    decide +kernel
  refine ⟨msccWellFormed_of_visited (by decide +kernel) (by decide +kernel), hunits, ?_, ?_⟩
  · rw [hunits]
    rfl
  · obtain ⟨info, hread, htotal⟩ := Runs.returnsWith_iff.mp
      (show Runs.returnsWith (parseMscc tariffChangeBlock {} 0)
        (fun info => decide (info.usedTotalOctets = 500)) = true by decide +kernel)
    exact ⟨info, hread, of_decide_eq_true htotal⟩

end Blocks

end GtpMeter
