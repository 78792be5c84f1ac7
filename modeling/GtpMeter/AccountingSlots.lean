import GtpMeter.SessionChurn
import GtpMeter.UsageRecords

/-!
# Accounting slots

The bytes of a subscriber are kept in three slots.  An event that carries a QFI is
accounted under that QFI and any other under the rating group of the session; the
first two identities get a slot each and the last slot takes the rest.  Here the
slots are compared with the list of events that were counted in them.

Three things break the separation, and none of them is excluded by the code: a
rating group in the range of the tagged QFIs, the rating group that marks an unset
slot, and a modification that changes the rating group but finds the TEID table too
full to write the new slot into the bindings.

**Results.**
* `Slotted.assign`, `Slotted.count`: what `assign_slot` and an event do to the slots.
* `Moves.separated`: what a call does.
* `buckets_never_mixed`: the slots of every subscriber over a whole run.
-/

namespace GtpMeter
namespace MeterEngine

open FlatHashU32 Runs

section Slots

/-- What bytes are accounted under. -/
inductive Identity where
  | qfi (q : UInt8)
  | group (rg : UInt32)
deriving DecidableEq

/-- The bucket id of an identity. -/
def Identity.code : Identity → UInt32
  | .qfi q => kQfiBucketTag ||| q.toUInt32
  | .group rg => rg

/-- A rating group that is neither the id of a QFI nor the mark of an unset slot. -/
def Separate (rg : UInt32) : Prop :=
  rg ≠ kUnsetBucket ∧ ∀ q : UInt8, q < 64 → rg ≠ kQfiBucketTag ||| q.toUInt32

/-- QFIs have six bits. -/
def Identity.Proper : Identity → Prop
  | .qfi q => q < 64
  | .group rg => Separate rg

theorem tag_toNat (q : UInt8) : (kQfiBucketTag ||| q.toUInt32).toNat = 2 ^ 31 + q.toNat := by
  have hlt : q.toNat < 2 ^ 31 := lt_of_lt_of_le q.toNat_lt (by decide)
  have hor := Nat.two_pow_add_eq_or_of_lt hlt 1
  rw [UInt32.toNat_or, UInt8.toNat_toUInt32]
  simpa [kQfiBucketTag] using hor.symm

/-- Proper identities are told apart by their bucket ids. -/
theorem Identity.code_inj {a b : Identity} (ha : a.Proper) (hb : b.Proper)
    (hab : a.code = b.code) : a = b := by
  cases a with
  | qfi p =>
      cases b with
      | qfi q =>
          have hnat := congrArg UInt32.toNat hab
          simp only [Identity.code, tag_toNat] at hnat
          rw [UInt8.toNat_inj.mp (Nat.add_left_cancel hnat)]
      | group rg => exact absurd hab.symm (hb.2 p ha)
  | group rg =>
      cases b with
      | qfi q => exact absurd hab (ha.2 q hb)
      | group rg' => exact congrArg _ hab

theorem Identity.code_ne_unset {a : Identity} (ha : a.Proper) : a.code ≠ kUnsetBucket := by
  cases a with
  | qfi q =>
      intro hab
      have hnat := congrArg UInt32.toNat hab
      simp only [Identity.code, tag_toNat] at hnat
      have hq := q.toNat_lt
      have hunset : kUnsetBucket.toNat = 2 ^ 32 - 1 := rfl
      omega
  | group rg => exact ha.1

/-- An event that was counted: its identity, its slot and its bytes. -/
structure Entry where
  identity : Identity
  slot : UInt8
  bytes : UInt64
deriving DecidableEq

/-- The bucket id has this slot: as its own, or as one of several in the aggregate. -/
def Holds (info : SubscriberInfo) (id : UInt32) (slot : UInt8) : Prop :=
  (∃ s, slot = slotByte s ∧ info.bucketIds s = id) ∨
    (slot = slotByte kAggregateSlot ∧ info.bucketAggregated = true ∧
      ∀ s, info.bucketIds s ≠ id)

/-- The slots of a subscriber agree with the events that were counted. -/
structure Slotted (info : SubscriberInfo) (L : List Entry) : Prop where
  distinct : ∀ s s', info.bucketIds s ≠ kUnsetBucket → info.bucketIds s = info.bucketIds s' →
    s = s'
  full : info.bucketAggregated = true → ∀ s, info.bucketIds s ≠ kUnsetBucket
  known : ∀ s, info.bucketIds s ≠ kUnsetBucket → ∃ id : Identity, id.Proper ∧
    info.bucketIds s = id.code
  holds : ∀ en ∈ L, en.identity.Proper ∧ Holds info en.identity.code en.slot

variable {info info' : SubscriberInfo} {L : List Entry}

theorem slotted_new (hids : ∀ s, info.bucketIds s = kUnsetBucket)
    (hagg : info.bucketAggregated = false) : Slotted info [] := by
  refine ⟨?_, ?_, ?_, by simp⟩
  · exact fun s _ hset => absurd (hids s) hset
  · exact fun htrue => absurd htrue (by simp [hagg])
  · exact fun s hset => absurd (hids s) hset

/-- Two states of a subscriber with the same slots and the same rating group. -/
structure SameSlots (info info' : SubscriberInfo) : Prop where
  ids_eq : info'.bucketIds = info.bucketIds
  aggregated_eq : info'.bucketAggregated = info.bucketAggregated
  group_eq : info'.defaultRatingGroup = info.defaultRatingGroup

theorem holds_congr {id : UInt32} {slot : UInt8} (hids : info'.bucketIds = info.bucketIds)
    (hagg : info'.bucketAggregated = info.bucketAggregated) :
    Holds info' id slot ↔ Holds info id slot := by
  unfold Holds
  rw [hids, hagg]

theorem Slotted.congr (hS : Slotted info L) (hids : info'.bucketIds = info.bucketIds)
    (hagg : info'.bucketAggregated = info.bucketAggregated) : Slotted info' L := by
  refine ⟨?_, ?_, ?_, ?_⟩
  · rw [hids]
    exact hS.distinct
  · rw [hids, hagg]
    exact hS.full
  · rw [hids]
    exact hS.known
  · intro en hen
    exact ⟨(hS.holds en hen).1, (holds_congr hids hagg).mpr (hS.holds en hen).2⟩

/-- `assign_slot` returns a slot that the bucket has. -/
theorem assignSlot_holds (info : SubscriberInfo) (id : UInt32) :
    Holds (assignSlot info id).1 id (assignSlot info id).2 := by
  rcases assignSlot_cases info id with ⟨s, hs, heq⟩ | ⟨s, -, -, heq⟩ | ⟨hno, -, heq⟩
  · rw [heq]
    exact .inl ⟨s, rfl, hs⟩
  · rw [heq]
    exact .inl ⟨s, rfl, Function.update_self ..⟩
  · rw [heq]
    exact .inr ⟨rfl, rfl, hno⟩

/-- A bucket that has a slot keeps it when another is assigned. -/
theorem Slotted.holds_assign (hS : Slotted info L) {id : UInt32} {slot : UInt8}
    (hid : id ≠ kUnsetBucket) (hh : Holds info id slot) (id' : UInt32) :
    Holds (assignSlot info id').1 id slot := by
  rcases assignSlot_cases info id' with ⟨s, -, heq⟩ | ⟨s, -, hunset, heq⟩ | ⟨-, -, heq⟩
  · rwa [heq]
  · rw [heq]
    rcases hh with ⟨i, hi, hids⟩ | ⟨-, hagg, -⟩
    · have hne : i ≠ s := by
        rintro rfl
        exact hid (hids.symm.trans hunset)
      exact .inl ⟨i, hi, (Function.update_of_ne hne ..).trans hids⟩
    · exact absurd hunset (hS.full hagg s)
  · rw [heq]
    rcases hh with hown | ⟨hslot, -, hno⟩
    · exact .inl hown
    · exact .inr ⟨hslot, rfl, hno⟩

theorem Slotted.assign (hS : Slotted info L) (id : Identity) (hid : id.Proper) :
    Slotted (assignSlot info id.code).1 L := by
  have hholds : ∀ en ∈ L, en.identity.Proper ∧
      Holds (assignSlot info id.code).1 en.identity.code en.slot := by
    intro en hen
    obtain ⟨hp, hh⟩ := hS.holds en hen
    exact ⟨hp, hS.holds_assign (Identity.code_ne_unset hp) hh _⟩
  rcases assignSlot_cases info id.code with ⟨s, -, heq⟩ | ⟨s, hno, hunset, heq⟩ |
    ⟨-, hset, heq⟩
  · rwa [heq]
  · refine ⟨?_, ?_, ?_, hholds⟩
    · intro i j hi hij
      rw [heq] at hi hij
      simp only [Function.update_apply] at hi hij
      split_ifs at hi hij with his hjs hjs
      · rw [his, hjs]
      · exact absurd hij.symm (hno j)
      · exact absurd hij (hno i)
      · exact hS.distinct i j hi hij
    · intro hagg
      rw [heq] at hagg
      exact absurd hunset (hS.full hagg s)
    · intro i hi
      rw [heq] at hi ⊢
      simp only [Function.update_apply] at hi ⊢
      split_ifs at hi ⊢
      · exact ⟨id, hid, rfl⟩
      · exact hS.known i hi
  · refine ⟨?_, ?_, ?_, hholds⟩
    · rw [heq]
      exact hS.distinct
    · rw [heq]
      exact fun _ => hset
    · rw [heq]
      exact hS.known

/-- An event is counted in a slot that its identity has. -/
theorem Slotted.count (hS : Slotted info L) {en : Entry} (hid : en.identity.Proper)
    (hh : Holds info en.identity.code en.slot) : Slotted info (L ++ [en]) := by
  refine ⟨hS.distinct, hS.full, hS.known, ?_⟩
  intro en' hen
  rcases List.mem_append.mp hen with hen | hen
  · exact hS.holds en' hen
  · rw [List.mem_singleton.mp hen]
    exact ⟨hid, hh⟩

theorem slotByte_inj {s s' : Fin kBucketSlots} (heq : slotByte s = slotByte s') : s = s' := by
  have hnat := congrArg UInt8.toNat heq
  rw [slotByte_toNat, slotByte_toNat] at hnat
  exact Fin.ext hnat

/-- A slot other than a mixed aggregate has the identities that are its own. -/
theorem Holds.own {id : UInt32} {s : Fin kBucketSlots} (hh : Holds info id (slotByte s))
    (hs : s = kAggregateSlot → info.bucketAggregated = false) : info.bucketIds s = id := by
  rcases hh with ⟨i, hi, hids⟩ | ⟨hslot, hagg, -⟩
  · rw [slotByte_inj hi]
    exact hids
  · rw [hs (slotByte_inj hslot)] at hagg
    cases hagg

/-- What an unset slot and a slot with one bucket hold. -/
theorem Slotted.slot_cases (hS : Slotted info L) {s : Fin kBucketSlots}
    (hs : s = kAggregateSlot → info.bucketAggregated = false) :
    (info.bucketIds s = kUnsetBucket ∧ ∀ en ∈ L, en.slot ≠ slotByte s) ∨
    ∃ id : Identity, id.Proper ∧ info.bucketIds s = id.code ∧
      ∀ en ∈ L, en.slot = slotByte s ↔ en.identity = id := by
  by_cases hset : info.bucketIds s = kUnsetBucket
  · refine .inl ⟨hset, ?_⟩
    intro en hen hslot
    obtain ⟨hp, hh⟩ := hS.holds en hen
    rw [hslot] at hh
    exact Identity.code_ne_unset hp ((hh.own hs).symm.trans hset)
  · obtain ⟨id, hid, hids⟩ := hS.known s hset
    refine .inr ⟨id, hid, hids, ?_⟩
    intro en hen
    obtain ⟨hp, hh⟩ := hS.holds en hen
    constructor
    · intro hslot
      rw [hslot] at hh
      exact Identity.code_inj hp hid ((hh.own hs).symm.trans hids)
    · rintro rfl
      rcases hh with ⟨i, hi, hids'⟩ | ⟨-, -, hno⟩
      · rw [hi, hS.distinct s i hset (hids.trans hids'.symm)]
      · exact absurd hids (hno s)

/-- Two identities in the aggregate are flagged. -/
theorem Slotted.aggregated (hS : Slotted info L) {en en' : Entry} (hen : en ∈ L) (hen' : en' ∈ L)
    (hslot : en.slot = slotByte kAggregateSlot) (hslot' : en'.slot = slotByte kAggregateSlot)
    (hne : en.identity ≠ en'.identity) : info.bucketAggregated = true := by
  by_contra hagg
  rcases hS.slot_cases (fun _ => Bool.eq_false_iff.mpr hagg) with ⟨-, hno⟩ | ⟨id, -, -, hiff⟩
  · exact hno en hen hslot
  · exact hne (((hiff en hen).mp hslot).trans ((hiff en' hen').mp hslot').symm)

/-- The bytes that were counted in a slot. -/
def bytesAt (L : List Entry) (s : Fin kBucketSlots) : UInt64 :=
  ((L.filter (fun en => en.slot = slotByte s)).map Entry.bytes).sum

/-- The bytes that were counted for an identity. -/
def bytesOf (L : List Entry) (id : Identity) : UInt64 :=
  ((L.filter (fun en => en.identity = id)).map Entry.bytes).sum

theorem bytesAt_snoc (L : List Entry) (en : Entry) (s : Fin kBucketSlots) :
    bytesAt (L ++ [en]) s = bytesAt L s + if en.slot = slotByte s then en.bytes else 0 := by
  unfold bytesAt
  rw [List.filter_append, List.map_append, List.sum_append]
  split_ifs with hs
  · simp [hs]
  · simp [hs]

theorem bytesAt_eq_zero {s : Fin kBucketSlots} (hno : ∀ en ∈ L, en.slot ≠ slotByte s) :
    bytesAt L s = 0 := by
  have hnil : L.filter (fun en => en.slot = slotByte s) = [] :=
    List.filter_eq_nil_iff.mpr (fun en hen hslot => hno en hen (of_decide_eq_true hslot))
  rw [bytesAt, hnil]
  rfl

theorem bytesAt_eq_bytesOf {s : Fin kBucketSlots} {id : Identity}
    (hiff : ∀ en ∈ L, en.slot = slotByte s ↔ en.identity = id) : bytesAt L s = bytesOf L id := by
  unfold bytesAt bytesOf
  congr 2
  exact List.filter_congr (fun en hen => decide_eq_decide.mpr (hiff en hen))

end Slots

section Engine

variable {e e' : MeterEngine} {idx : Nat} {nowNs : UInt64} {L : Nat → List Entry}
  {spec : SessionSpec} {r : Option Nat} {ev : MeterEvent} {b : TeidBinding}

/-- What a packet is accounted under. -/
def eventIdentity (info : SubscriberInfo) (ev : MeterEvent) : Identity :=
  if ev.hasQfi then .qfi ev.qfi else .group info.defaultRatingGroup

/-- The slot a packet is counted in. -/
def eventSlot (info : SubscriberInfo) (ev : MeterEvent) (b : TeidBinding) : UInt8 :=
  if ev.hasQfi then (assignSlot info (kQfiBucketTag ||| ev.qfi.toUInt32)).2 else b.slot

/-- The event that a call counted for `idx`, read off the state after it: `apply`
moves no binding, and a bucket that has just been assigned is found again. -/
def countedEntry (idx : Nat) (op : MeterOp) (e' : MeterEngine) : Option Entry :=
  match op with
  | .apply ev =>
      if ev.isControl then none
      else
        match e'.bindingOf ev.teid with
        | none => none
        | some b =>
            if b.subIdx.toNat = idx then
              some ⟨eventIdentity (e'.info idx) ev, eventSlot (e'.info idx) ev b,
                ev.bytes.toUInt64⟩
            else none
  | _ => none

/-- A call may open the subscriber anew, and may count an event. -/
def entryStep (idx : Nat) (L : List Entry) (tr : Transition MeterEngine MeterOp Answer) :
    List Entry :=
  (if (tr.pre.opening tr.op idx).isSome then [] else L) ++
    (countedEntry idx tr.op tr.post).toList

/-- The events counted for `idx` since it was last opened. -/
def entriesOf (idx : Nat) (h : History) : List Entry :=
  h.foldl (entryStep idx) []

/-- The slots of every subscriber agree with the events, and the bindings lead to
the slot of the session's rating group. -/
structure Separated (L : Nat → List Entry) (e : MeterEngine) : Prop where
  group : ∀ idx, Separate (e.info idx).defaultRatingGroup
  slotted : ∀ idx, Slotted (e.info idx) (L idx)
  bytes : ∀ idx s, (e.counters idx).bucketBytes s = bytesAt (L idx) s
  bound : ∀ t b, e.bindingOf t = some b →
    Holds (e.info b.subIdx.toNat) (e.info b.subIdx.toNat).defaultRatingGroup b.slot

theorem Separated.congr (hS : Separated L e) (hinfo : ∀ i, SameSlots (e.info i) (e'.info i))
    (hbytes : ∀ i, (e'.counters i).bucketBytes = (e.counters i).bucketBytes)
    (hbound : ∀ t b, e'.bindingOf t = some b → e.bindingOf t = some b) : Separated L e' := by
  refine ⟨?_, ?_, ?_, ?_⟩
  · intro i
    rw [(hinfo i).group_eq]
    exact hS.group i
  · intro i
    exact (hS.slotted i).congr (hinfo i).ids_eq (hinfo i).aggregated_eq
  · intro i s
    rw [hbytes]
    exact hS.bytes i s
  · intro t b hb
    have hinfo := hinfo b.subIdx.toNat
    rw [hinfo.group_eq, holds_congr hinfo.ids_eq hinfo.aggregated_eq]
    exact hS.bound t b (hbound t b hb)

/-- After an installation the entries of the subscriber have its new slot, unless a
bind was refused and an old entry is still there. -/
theorem Installed.own_slot (hin : Installed e idx spec nowNs e' r)
    (howns : ∀ t b, e.bindingOf t = some b → Owns e t b)
    (hzero : ∀ b, e.bindingOf 0 = some b → b.subIdx.toNat ≠ idx) {t : UInt32}
    (hb : e'.bindingOf t = some b) (hidx : b.subIdx.toNat = idx) :
    b.slot = (installInfo (e.info idx) spec nowNs).2 ∨
      (r = none ∧ (e.info idx).active = true ∧ e.bindingOf t = some b) := by
  obtain ⟨ulOk, dlOk, hr, hlk⟩ := hin.bindingOf_eq
  rw [hlk] at hb
  split_ifs at hb with hdl hul hgone
  · rw [← Option.some.inj hb]
    exact .inl rfl
  · rw [← Option.some.inj hb]
    exact .inl rfl
  · have ho := howns t b hb
    have ht : t ≠ 0 := by
      rintro rfl
      exact hzero b hb hidx
    have hteid := ho.stays hidx ht hgone
    refine .inr ⟨?_, hidx ▸ ho.active, hb⟩
    split_ifs at hteid
    · have hfail : dlOk = false :=
        Bool.eq_false_iff.mpr (fun hok => hdl ⟨hteid ▸ ht, hok, hteid⟩)
      rw [hr, hfail, Bool.and_false]
      rfl
    · have hfail : ulOk = false :=
        Bool.eq_false_iff.mpr (fun hok => hul ⟨hteid ▸ ht, hok, hteid⟩)
      rw [hr, hfail, Bool.false_and]
      rfl

/-- What the subscriber is before its rating group is given a slot. -/
theorem Slotted.opened {info : SubscriberInfo} {L : List Entry} (hS : Slotted info L)
    (spec : SessionSpec) (nowNs : UInt64) :
    Slotted { openInfo info spec nowNs with ulTeid := spec.ulTeid, dlTeid := spec.dlTeid }
      (if info.active = false then [] else L) := by
  unfold openInfo
  cases hact : info.active with
  | true => exact hS.congr rfl rfl
  | false => exact slotted_new (fun _ => rfl) rfl

theorem Separated.installed (hS : Separated L e) (hmax : e.tableSize ≤ 2 ^ 32)
    (howns : ∀ t b, e.bindingOf t = some b → Owns e t b)
    (hzero : ∀ b, e.bindingOf 0 = some b → b.subIdx.toNat ≠ idx)
    (hgroup : Separate spec.ratingGroup)
    (hroom : (e.info idx).active = true →
      (e.info idx).defaultRatingGroup = spec.ratingGroup ∨ r ≠ none)
    (hin : Installed e idx spec nowNs e' r) :
    Separated (fun i => if i = idx ∧ (e.info idx).active = false then [] else L i) e' := by
  have hself := toNat_ofNat_of_le hmax hin.frame.1
  have hnew := installInfo_group (e.info idx) spec nowNs
  have hopened := (hS.slotted idx).opened spec nowNs
  have hinfo : ∀ i, e'.info i =
      if i = idx then (installInfo (e.info idx) spec nowNs).1 else e.info i :=
    fun i => (hin.arrays_eq i).2
  refine ⟨?_, ?_, ?_, ?_⟩
  · intro i
    rw [hinfo]
    split_ifs
    · rwa [hnew]
    · exact hS.group i
  · intro i
    rw [hinfo]
    by_cases hi : i = idx
    · subst hi
      simp only [if_true, true_and]
      exact hopened.assign (.group spec.ratingGroup) hgroup
    · simpa [hi] using hS.slotted i
  · intro i s
    rw [(hin.arrays_eq i).1]
    split_ifs
    · rfl
    · exact hS.bytes i s
  · intro t b hb
    rw [hinfo]
    by_cases hidx : b.subIdx.toNat = idx
    · rw [if_pos hidx, hnew]
      rcases hin.own_slot howns hzero hb hidx with hslot | ⟨hfail, hact, hold⟩
      · rw [hslot]
        exact assignSlot_holds _ _
      · have hsame : (e.info idx).defaultRatingGroup = spec.ratingGroup :=
          (hroom hact).resolve_right (fun hr => hr hfail)
        have hheld := hS.bound t b hold
        rw [hidx, hsame] at hheld
        refine hopened.holds_assign hgroup.1 ?_ _
        unfold openInfo
        rw [if_pos hact]
        exact hheld
    · rw [if_neg hidx]
      rcases hin.binding_cases hb with ⟨-, -, rfl⟩ | ⟨-, -, rfl⟩ | ⟨-, hold⟩
      · exact absurd hself hidx
      · exact absurd hself hidx
      · exact hS.bound t b hold

theorem separate_zero : Separate 0 := by
  refine ⟨by decide, ?_⟩
  intro q _ hq
  have hnat := congrArg UInt32.toNat hq
  rw [tag_toNat] at hnat
  have hzero : (0 : UInt32).toNat = 0 := rfl
  omega

/-- A learned subscriber has rating group 0 and its slot. -/
theorem learnInfo_slots (ev : MeterEvent) :
    Slotted (learnInfo ev).1 [] ∧ (learnInfo ev).1.defaultRatingGroup = 0 ∧
      Holds (learnInfo ev).1 0 (learnInfo ev).2 := by
  let info : SubscriberInfo :=
    { active := true, learned := true, firstSeenNs := ev.tsNs, intervalStartNs := ev.tsNs }
  have hnew : Slotted info [] := slotted_new (fun _ => rfl) rfl
  have hassign := hnew.assign (.group 0) separate_zero
  have hholds := assignSlot_holds info 0
  unfold learnInfo
  dsimp only
  split_ifs
  · exact ⟨hassign.congr rfl rfl, rfl, (holds_congr rfl rfl).mpr hholds⟩
  · exact ⟨hassign.congr rfl rfl, rfl, (holds_congr rfl rfl).mpr hholds⟩

theorem Separated.arrived (hS : Separated L e) (hmax : e.tableSize ≤ 2 ^ 32)
    (howns : ∀ t b, e.bindingOf t = some b → Owns e t b) (ha : Arrived e ev e') :
    Separated (fun i => if i = e.nextSub ∧ Learns e ev then [] else L i) e' := by
  cases ha with
  | found m hq hno =>
      simp only [hno, and_false, if_false]
      refine hS.congr (fun _ => ⟨rfl, rfl, rfl⟩) (fun _ => rfl) ?_
      intro t b hb
      exact (lookup_congr hq).symm.trans hb
  | learned m f ok hnone hlearn hroom hw hlk =>
      have hl : Learns e ev := ⟨hnone, hlearn, hroom⟩
      have hself := toNat_ofNat_of_le hmax hroom
      obtain ⟨hslots, hgroup, hholds⟩ := learnInfo_slots ev
      refine ⟨?_, ?_, ?_, ?_⟩
      · intro i
        by_cases hi : i = e.nextSub
        · simpa [hi, hgroup] using separate_zero
        · simpa [hi] using hS.group i
      · intro i
        by_cases hi : i = e.nextSub
        · simpa [hi, hl] using hslots
        · simpa [hi] using hS.slotted i
      · intro i s
        by_cases hi : i = e.nextSub
        · simp [hi, hl, bytesAt]
        · simpa [hi] using hS.bytes i s
      · intro t b hb
        replace hb : lookup hashU32 m t = some b := hb
        rw [hlk] at hb
        split_ifs at hb with ht
        · obtain rfl := Option.some.inj hb
          rw [hself]
          simpa [hgroup] using hholds
        · have hlt := (howns t b hb).lt
          simpa [Nat.ne_of_lt hlt] using hS.bound t b hb

/-- The counters of a subscriber after a packet, slot by slot. -/
theorem addPacket_bucket (c : SubscriberCounters) (ev : MeterEvent) (dir : UInt8)
    (slot s : Fin kBucketSlots) :
    (addPacket c ev dir slot).bucketBytes s =
      c.bucketBytes s + if slotByte slot = slotByte s then ev.bytes.toUInt64 else 0 := by
  have hdir : (addDirection c dir ev.bytes.toUInt64).bucketBytes = c.bucketBytes := by
    unfold addDirection
    split_ifs <;> rfl
  by_cases hs : s = slot
  · simp [addPacket, hs, hdir]
  · have hne : slotByte slot ≠ slotByte s := fun heq => hs (slotByte_inj heq).symm
    simp [addPacket, hs, hdir, hne]

theorem slotByte_mk {slot : UInt8} (hs : slot.toNat < kBucketSlots) :
    slotByte ⟨slot.toNat, hs⟩ = slot :=
  UInt8.ofNat_toNat

/-- The subscriber once the slot of a packet is resolved. -/
structure Resolved (old : SubscriberInfo) (ev : MeterEvent) (b : TeidBinding)
    (info : SubscriberInfo) (slot : UInt8) (L : List Entry) : Prop where
  slotted : Slotted info L
  group_eq : info.defaultRatingGroup = old.defaultRatingGroup
  proper : (eventIdentity info ev).Proper
  holds : Holds info (eventIdentity info ev).code slot
  slot_eq : eventSlot info ev b = slot
  keeps : ∀ id slot', id ≠ kUnsetBucket → Holds old id slot' → Holds info id slot'

theorem Separated.resolved (hS : Separated L e) (hq : ev.hasQfi = true → ev.qfi < 64)
    {t : UInt32} (hb : e.bindingOf t = some b) {info : SubscriberInfo} {slot : UInt8}
    (hslot : e.packetSlot ev b = .ok (info, slot)) :
    Resolved (e.info b.subIdx.toNat) ev b info slot (L b.subIdx.toNat) := by
  have hold := hS.slotted b.subIdx.toNat
  unfold packetSlot at hslot
  split_ifs at hslot with hqfi
  · obtain ⟨old, hinfo, hslot⟩ := bind_eq_ok.mp hslot
    obtain ⟨-, rfl⟩ := infoAt_ok.mp hinfo
    have hassign := Except.ok.inj hslot
    obtain rfl : (assignSlot _ _).1 = info := congrArg Prod.fst hassign
    obtain rfl : (assignSlot _ _).2 = slot := congrArg Prod.snd hassign
    have hid : eventIdentity (assignSlot (e.info b.subIdx.toNat)
        (kQfiBucketTag ||| ev.qfi.toUInt32)).1 ev = .qfi ev.qfi := if_pos hqfi
    refine ⟨hold.assign (.qfi ev.qfi) (hq hqfi), ?_, ?_, ?_, ?_, ?_⟩
    · obtain ⟨-, ids, agg, heq⟩ :=
        assignSlot_spec (e.info b.subIdx.toNat) (kQfiBucketTag ||| ev.qfi.toUInt32)
      rw [heq]
    · rw [hid]
      exact hq hqfi
    · rw [hid]
      exact assignSlot_holds _ _
    · rw [eventSlot, if_pos hqfi, assignSlot_idem]
    · intro id slot' hne hh
      exact hold.holds_assign hne hh _
  · cases hslot
    have hid : eventIdentity (e.info b.subIdx.toNat) ev =
        .group (e.info b.subIdx.toNat).defaultRatingGroup := if_neg hqfi
    refine ⟨hold, rfl, ?_, ?_, if_neg hqfi, fun _ _ _ hh => hh⟩
    · rw [hid]
      exact hS.group _
    · rw [hid]
      exact hS.bound t b hb

theorem Separated.metered (hS : Separated L e) (hq : ev.hasQfi = true → ev.qfi < 64)
    (hb : e.bindingOf ev.teid = some b) (hm : Metered e ev b e') :
    Separated (fun i => L i ++ if b.subIdx.toNat = i then
      [⟨eventIdentity (e'.info i) ev, eventSlot (e'.info i) ev b, ev.bytes.toUInt64⟩]
      else []) e' := by
  cases hm with
  | mk info slot hs fl fa fi fe hlt hslot =>
      have hres := hS.resolved hq hb hslot
      refine ⟨?_, ?_, ?_, ?_⟩
      · intro i
        by_cases hi : i = b.subIdx.toNat
        · simpa [hi, hres.group_eq] using hS.group _
        · simpa [hi] using hS.group i
      · intro i
        by_cases hi : i = b.subIdx.toNat
        · subst hi
          simp only [Function.update_self, if_true, hres.slot_eq]
          exact hres.slotted.count hres.proper hres.holds
        · simpa [hi, Ne.symm hi] using hS.slotted i
      · intro i s
        by_cases hi : i = b.subIdx.toNat
        · subst hi
          simp only [Function.update_self, if_true, hres.slot_eq]
          rw [bytesAt_snoc, addPacket_bucket, hS.bytes, slotByte_mk]
        · simpa [hi, Ne.symm hi] using hS.bytes i s
      · intro t' b' hb'
        have hheld := hS.bound t' b' hb'
        by_cases hi : b'.subIdx.toNat = b.subIdx.toNat
        · rw [hi] at hheld
          simp only [hi, Function.update_self, hres.group_eq]
          exact hres.keeps _ _ (hS.group _).1 hheld
        · simpa [hi] using hheld

theorem SameSlots.trans {i₁ i₂ i₃ : SubscriberInfo} (h₁ : SameSlots i₁ i₂)
    (h₂ : SameSlots i₂ i₃) : SameSlots i₁ i₃ :=
  ⟨h₂.ids_eq.trans h₁.ids_eq, h₂.aggregated_eq.trans h₁.aggregated_eq,
    h₂.group_eq.trans h₁.group_eq⟩

theorem sameSlots_update {info : SubscriberInfo} (hsame : SameSlots (e.info idx) info) (i : Nat) :
    SameSlots (e.info i) (Function.update e.info idx info i) := by
  by_cases hi : i = idx
  · subst hi
    rwa [Function.update_self]
  · rw [Function.update_of_ne hi]
    exact ⟨rfl, rfl, rfl⟩

theorem EmitRun.sameSlots {ems : List Emission} (hr : EmitRun nowNs e ems e') :
    (∀ i, SameSlots (e.info i) (e'.info i)) ∧ e'.counters = e.counters ∧
      ∀ em ∈ ems, em.record.bucketAggregated = (e.info em.idx).bucketAggregated := by
  induction hr with
  | nil => exact ⟨fun _ => ⟨rfl, rfl, rfl⟩, rfl, by simp⟩
  | sweep cursor last _ ih => exact ih
  | @emit e e' ems idx reason _ _ _ _ ih =>
      obtain ⟨hinfo, hc, hrec⟩ := ih
      have hfirst : ∀ i, SameSlots (e.info i) ((e.emitted idx reason nowNs).1.info i) :=
        sameSlots_update ⟨rfl, rfl, rfl⟩
      refine ⟨fun i => (hfirst i).trans (hinfo i), hc, ?_⟩
      intro em hem
      rcases List.mem_cons.mp hem with rfl | hem
      · rfl
      · rw [hrec em hem, (hfirst em.idx).aggregated_eq]

theorem Separated.emitted {ems : List Emission} (hS : Separated L e)
    (hr : EmitRun nowNs e ems e') : Separated L e' := by
  obtain ⟨hinfo, hc, -⟩ := hr.sameSlots
  refine hS.congr hinfo (fun i => by rw [hc]) ?_
  intro t b hb
  exact (hr.sameSessions.bindingOf_eq t).symm.trans hb

/-- The condition on a call.  A rating group is separate, and a modification that
changes it finds room for the bindings; a QFI has six bits. -/
def Clean (e : MeterEngine) : MeterOp → Prop
  | .install spec _ => spec.valid = true → Separate spec.ratingGroup ∧
      ∀ idx, e.imsiIndex spec.imsi = some idx → (e.info idx).active = true →
        (e.info idx).defaultRatingGroup = spec.ratingGroup ∨ ¬Short e spec ∨
          Frees e (e.info idx) spec
  | .apply ev => ev.hasQfi = true → ev.qfi < 64
  | _ => True

theorem Separated.of_eq {L' : Nat → List Entry} (hS : Separated L e) (heq : ∀ i, L' i = L i) :
    Separated L' e := by
  rwa [funext heq]

/-- An event that is looked up and counted. -/
theorem Separated.charged {e₁ : MeterEngine} (hS : Separated L e) (hmax : e.tableSize ≤ 2 ^ 32)
    (howns : ∀ t b, e.bindingOf t = some b → Owns e t b) (hctl : ev.isControl = false)
    (hq : ev.hasQfi = true → ev.qfi < 64) (ha : Arrived e ev e₁) (hc : Charged e₁ ev e') :
    Separated (fun i => (if (e.opening (.apply ev) i).isSome then [] else L i) ++
      (countedEntry i (.apply ev) e').toList) e' := by
  have harr := hS.arrived hmax howns ha
  have hopen : ∀ i, (if (e.opening (.apply ev) i).isSome then [] else L i) =
      if i = e.nextSub ∧ Learns e ev then [] else L i := by
    intro i
    by_cases hl : i = e.nextSub ∧ Learns e ev
    · simp [opening, hctl, hl]
    · simp [opening, hctl, hl]
  have hbind := hc.sameSessions.bindingOf_eq ev.teid
  rcases hc with ⟨hnone, rfl⟩ | ⟨b, hb, hm⟩
  · rw [hnone] at hbind
    have hkeep : Separated (fun i => if i = e.nextSub ∧ Learns e ev then [] else L i)
        (e₁.countUnknown ev) :=
      harr.congr (fun _ => ⟨rfl, rfl, rfl⟩) (fun _ => rfl) (fun _ _ hb => hb)
    refine hkeep.of_eq (fun i => ?_)
    rw [hopen]
    simp [countedEntry, hctl, hbind]
  · rw [hb] at hbind
    refine (harr.metered hq hb hm).of_eq (fun i => ?_)
    rw [hopen]
    simp only [countedEntry, hctl, hbind, Bool.false_eq_true, if_false]
    split_ifs <;> simp

/-- The step. -/
theorem Moves.separated {op : MeterOp} {out : Answer} (hm : Moves e op out e') (hS : Sound e)
    (hmax : e.tableSize ≤ 2 ^ 32) (hclean : Clean e op) (hL : Separated L e) :
    Separated (fun i => (if (e.opening op i).isSome then [] else L i) ++
      (countedEntry i op e').toList) e' := by
  cases hm with
  | @refused spec nowNs hno =>
      refine hL.of_eq (fun i => ?_)
      rcases hno with hinv | ⟨hnone, hfull⟩
      · cases hidx : e.imsiIndex spec.imsi <;> simp [opening, hidx, hinv, countedEntry]
      · simp [opening, hnone, Nat.not_lt.mpr hfull, countedEntry]
  | @modified spec nowNs idx r _ hv hidx hin =>
      obtain ⟨hgroup, hroom⟩ := hclean hv
      have hzero : ∀ b, e.bindingOf 0 = some b → b.subIdx.toNat ≠ idx := by
        intro b hb heq
        exact hS.zero b spec.imsi hb (heq ▸ hidx)
      have hbinds : (e.info idx).active = true →
          (e.info idx).defaultRatingGroup = spec.ratingGroup ∨ r ≠ none := by
        intro hact
        refine (hroom idx hidx hact).imp_right ?_
        intro hfree hr
        obtain ⟨hshort, hno⟩ := hin.refused_iff.mp hr
        exact hfree.elim (fun hh => hh hshort) hno
      refine (hL.installed hmax hS.owns hzero hgroup hbinds hin).of_eq (fun i => ?_)
      by_cases hi : i = idx ∧ (e.info idx).active = false
      · simp [opening, hidx, hv, countedEntry, hi]
      · simp [opening, hidx, hv, countedEntry, hi]
  | @allocated spec nowNs r _ hv hidx hroom hin =>
      have hfresh : (e.info e.nextSub).active = false := hS.fresh _ le_rfl
      have hL' : Separated L (e.allocate spec.imsi) :=
        hL.congr (fun _ => ⟨rfl, rfl, rfl⟩) (fun _ => rfl) (fun _ _ hb => hb)
      have hzero : ∀ b, (e.allocate spec.imsi).bindingOf 0 = some b →
          b.subIdx.toNat ≠ e.nextSub := by
        intro b hb
        exact Nat.ne_of_lt (hS.owns 0 b hb).lt
      have hbinds : ((e.allocate spec.imsi).info e.nextSub).active = true →
          ((e.allocate spec.imsi).info e.nextSub).defaultRatingGroup = spec.ratingGroup ∨
            r ≠ none := by
        intro hact
        exact absurd hact (Bool.eq_false_iff.mp hfresh)
      refine (hL'.installed hmax (hS.allocate_owns _) hzero (hclean hv).1 hbinds hin).of_eq
        (fun i => ?_)
      have hfresh' : ((e.allocate spec.imsi).info e.nextSub).active = false := hfresh
      by_cases hi : i = e.nextSub
      · simp [opening, hidx, hv, hroom, countedEntry, hi, hfresh']
      · simp [opening, hidx, countedEntry, hi]
  | unknownRelease _ => exact hL.of_eq (fun i => by simp [opening, countedEntry])
  | @released imsi nowNs idx m hidx hlt hact hu =>
      have hL' : Separated L (e.releasedState idx nowNs m) := by
        refine hL.congr (sameSlots_update ⟨rfl, rfl, rfl⟩) (fun _ => rfl) ?_
        intro t b hb
        by_cases hgone : Moved (e.info idx) {} t
        · exact absurd ((hu.lookup_gone t hgone).symm.trans hb) (by simp)
        · exact (hu.lookup_kept t hgone).symm.trans hb
      exact hL'.of_eq (fun i => by simp [opening, countedEntry])
  | @control ev hctl =>
      have hL' : Separated L { e.countEvent ev with
          stats := { (e.countEvent ev).stats with controlPdus := e.stats.controlPdus + 1 } } :=
        hL.congr (fun _ => ⟨rfl, rfl, rfl⟩) (fun _ => rfl) (fun _ _ hb => hb)
      exact hL'.of_eq (fun i => by simp [opening, countedEntry, hctl])
  | charged hctl ha hc => exact hL.charged hmax hS.owns hctl hclean ha hc
  | gyIgnored =>
      refine Separated.of_eq (hL.congr (fun _ => ⟨rfl, rfl, rfl⟩) (fun _ => rfl)
        (fun _ _ hb => hb)) (fun i => ?_)
      simp [opening, countedEntry]
  | gyReported _ _ =>
      refine Separated.of_eq (hL.congr (sameSlots_update ⟨rfl, rfl, rfl⟩) (fun _ => rfl)
        (fun _ _ hb => hb)) (fun i => ?_)
      simp [opening, countedEntry]
  | polled hr | drained hr => exact (hL.emitted hr).of_eq (fun i => by simp [opening, countedEntry])

end Engine

section Run

variable {cfg : MeterConfig} {sink : RecordSink} {h : History} {e : MeterEngine}

theorem init_separated : Separated (fun _ => []) (init cfg sink) := by
  refine ⟨fun _ => separate_zero, fun _ => slotted_new (fun _ => rfl) rfl, fun _ _ => rfl, ?_⟩
  intro t b hb
  have hnone : (init cfg sink).bindingOf t = none := lookup_init _ t
  rw [hnone] at hb
  cases hb

theorem reaches_separated (hmax : cfg.maxSubscribers.toNat ≤ 2 ^ 32)
    (hrun : Reaches cfg sink h e) (hclean : ∀ tr ∈ h, Clean tr.pre tr.op) :
    Separated (fun idx => entriesOf idx h) e := by
  induction hrun with
  | nil => exact init_separated
  | @snoc h e e' op out hprev hs ih =>
      have hL := ih (fun tr htr => hclean tr (List.mem_append_left _ htr))
      have hS := reaches_sound hmax hprev
      have hop : Clean e op := hclean ⟨e, op, out, e'⟩ (by simp)
      have hmoves := step_moves hS.wf hs
      refine (hmoves.separated hS (reaches_tableSize hprev ▸ hmax) hop hL).of_eq (fun i => ?_)
      simp [entriesOf, entryStep]

/-- **Buckets are never mixed silently.**  In a run of clean calls, slots 0 and 1 of
a subscriber, and slot 2 until it is flagged, are unset and empty, or hold exactly
the bytes of the one identity that their bucket id names.  Once slot 2 holds two
identities every record is flagged. -/
theorem buckets_never_mixed (hmax : cfg.maxSubscribers.toNat ≤ 2 ^ 32)
    (hrun : Reaches cfg sink h e) (hclean : ∀ tr ∈ h, Clean tr.pre tr.op) (idx : Nat) :
    (∀ s : Fin kBucketSlots, (s = kAggregateSlot → (e.info idx).bucketAggregated = false) →
      ((e.info idx).bucketIds s = kUnsetBucket ∧ (e.counters idx).bucketBytes s = 0 ∧
        ∀ en ∈ entriesOf idx h, en.slot ≠ slotByte s) ∨
      ∃ id : Identity, id.Proper ∧ (e.info idx).bucketIds s = id.code ∧
        (∀ en ∈ entriesOf idx h, en.slot = slotByte s ↔ en.identity = id) ∧
        (e.counters idx).bucketBytes s = bytesOf (entriesOf idx h) id) ∧
    (∀ en ∈ entriesOf idx h, ∀ en' ∈ entriesOf idx h,
      en.slot = slotByte kAggregateSlot → en'.slot = slotByte kAggregateSlot →
      en.identity ≠ en'.identity →
      ∀ op out e', e.step op = .ok (e', out) →
        ∀ em ∈ out.emissions, em.idx = idx → em.record.bucketAggregated = true) := by
  have hL := reaches_separated hmax hrun hclean
  refine ⟨?_, ?_⟩
  · intro s hs
    have hbytes := hL.bytes idx s
    rcases (hL.slotted idx).slot_cases hs with ⟨hunset, hno⟩ | ⟨id, hid, hids, hiff⟩
    · exact .inl ⟨hunset, hbytes.trans (bytesAt_eq_zero hno), hno⟩
    · exact .inr ⟨id, hid, hids, hiff, hbytes.trans (bytesAt_eq_bytesOf hiff)⟩
  · intro en hen en' hen' hslot hslot' hne op out e' hs em hem hidx
    have hi := reaches_indexed hrun
    obtain ⟨nowNs, e₁, hr, -⟩ := (step_moves hi.wf hs).reports hi
    obtain ⟨-, -, hrec⟩ := hr.sameSlots
    rw [hrec em hem, hidx]
    exact (hL.slotted idx).aggregated hen hen' hslot hslot' hne

theorem separate_of_lt {rg : UInt32} (hlt : rg < kQfiBucketTag) : Separate rg := by
  have hlt : rg.toNat < 2 ^ 31 := hlt
  refine ⟨?_, ?_⟩
  · rintro rfl
    have hunset : kUnsetBucket.toNat = 2 ^ 32 - 1 := rfl
    omega
  · rintro q - rfl
    rw [tag_toNat] at hlt
    omega

/-- Sessions of new IMSIs with small rating groups, and packets with proper QFIs. -/
theorem clean_of_new {op : MeterOp}
    (hop : (op.installs.all (fun spec => spec.ratingGroup < kQfiBucketTag &&
      (e.imsiIndex spec.imsi).isNone) && op.packet.all (fun ev => ev.qfi < 64)) = true) :
    Clean e op := by
  cases op with
  | install spec nowNs =>
      intro _
      simp only [MeterOp.installs, MeterOp.packet, Option.all_some, Option.all_none, Bool.and_true,
        Bool.and_eq_true, decide_eq_true_eq, Option.isNone_iff_eq_none] at hop
      refine ⟨separate_of_lt hop.1, ?_⟩
      intro idx hidx
      rw [hop.2] at hidx
      cases hidx
  | apply ev =>
      intro _
      simpa [MeterOp.installs, MeterOp.packet] using hop
  | _ => trivial

/-- A rating group and three QFIs: slots 0 and 1 have one identity each, and the
aggregate two. -/
theorem buckets_never_mixed_four :
    ∃ h e, Reaches smallConfig noSink h e ∧ (e.counters 0).bucketBytes 1 = 20 ∧
      (∃ id : Identity, id.Proper ∧ (e.info 0).bucketIds 1 = id.code ∧
        (e.counters 0).bucketBytes 1 = bytesOf (entriesOf 0 h) id) ∧
      (e.info 0).bucketAggregated = true := by
  have hex : execCheck step (init smallConfig noSink)
      [.install { imsi := 1, ulTeid := 100, ratingGroup := 5 } 0,
        .apply { teid := 100, bytes := 7 },
        .apply { teid := 100, bytes := 20, qfi := 5, flags := 1 },
        .apply { teid := 100, bytes := 9, qfi := 6, flags := 1 },
        .apply { teid := 100, bytes := 2, qfi := 7, flags := 1 }]
      (fun h e => decide ((e.counters 0).bucketBytes 1 = 20 ∧
        (e.info 0).bucketIds 1 ≠ kUnsetBucket ∧ (e.info 0).bucketAggregated = true) &&
        h.all (fun tr => tr.op.installs.all (fun spec => spec.ratingGroup < kQfiBucketTag &&
          (tr.pre.imsiIndex spec.imsi).isNone) && tr.op.packet.all (fun ev => ev.qfi < 64))) =
        true := by
    decide +kernel
  obtain ⟨h, e, hrun, hcheck⟩ := Run.of_execCheck hex
  obtain ⟨hstate, hops⟩ := Bool.and_eq_true_iff.mp hcheck
  obtain ⟨hbytes, hset, hagg⟩ := of_decide_eq_true hstate
  have hclean : ∀ tr ∈ h, Clean tr.pre tr.op := by
    intro tr htr
    exact clean_of_new (List.all_eq_true.mp hops tr htr)
  obtain ⟨hslots, -⟩ := buckets_never_mixed (by decide) hrun hclean 0
  rcases hslots 1 (fun hs => absurd hs (by decide)) with ⟨hunset, -⟩ | ⟨id, hid, hids, -, hsum⟩
  · exact absurd hunset hset
  · exact ⟨h, e, hrun, hbytes, ⟨id, hid, hids, hsum⟩, hagg⟩

/-- What a list of calls counts for the first subscriber of a small engine. -/
theorem exec_entries (ops : List MeterOp) {L : List Entry} {n : UInt64}
    (hex : execCheck step (init smallConfig noSink) ops (fun h e => decide (entriesOf 0 h = L ∧
      (e.counters 0).bucketBytes 0 = n ∧ (e.info 0).bucketAggregated = false)) = true) :
    ∃ h e, Reaches smallConfig noSink h e ∧ entriesOf 0 h = L ∧
      (e.counters 0).bucketBytes 0 = n ∧ (e.info 0).bucketAggregated = false := by
  obtain ⟨h, e, hrun, hcheck⟩ := Run.of_execCheck hex
  exact ⟨h, e, hrun, of_decide_eq_true hcheck⟩

/-- Two identities in slot 0 without a flag, in three ways: a rating group with the
id of QFI 5, the rating group that marks an unset slot, and a modification of the
rating group that a full table refuses. -/
theorem buckets_mixed :
    (∃ h e, Reaches smallConfig noSink h e ∧
      entriesOf 0 h = [⟨.group 0x80000005, 0, 7⟩, ⟨.qfi 5, 0, 9⟩] ∧
      (e.counters 0).bucketBytes 0 = 16 ∧ (e.info 0).bucketAggregated = false) ∧
    (∃ h e, Reaches smallConfig noSink h e ∧
      entriesOf 0 h = [⟨.group 0xFFFFFFFF, 0, 7⟩, ⟨.qfi 5, 0, 9⟩] ∧
      (e.counters 0).bucketBytes 0 = 16 ∧ (e.info 0).bucketAggregated = false) ∧
    (∃ h e, Reaches smallConfig noSink h e ∧
      entriesOf 0 h = [⟨.group 0, 0, 7⟩, ⟨.group 6, 0, 9⟩] ∧
      (e.counters 0).bucketBytes 0 = 16 ∧ (e.info 0).bucketAggregated = false) := by
  refine ⟨?_, ?_, ?_⟩
  · refine exec_entries [.install { imsi := 1, ulTeid := 100, ratingGroup := 0x80000005 } 0,
      .apply { teid := 100, bytes := 7 },
      .apply { teid := 100, bytes := 9, qfi := 5, flags := 1 }] ?_
    decide +kernel
  · refine exec_entries [.install { imsi := 1, ulTeid := 100, ratingGroup := 0xFFFFFFFF } 0,
      .apply { teid := 100, bytes := 7 },
      .apply { teid := 100, bytes := 9, qfi := 5, flags := 1 }] ?_
    decide +kernel
  · refine exec_entries (fourSessions ++ [.apply { teid := 1, bytes := 7 },
      .install { imsi := 1, ulTeid := 1, dlTeid := 2, ratingGroup := 6 } 1,
      .apply { teid := 1, bytes := 9 }]) ?_
    decide +kernel

end Run

end MeterEngine
end GtpMeter
