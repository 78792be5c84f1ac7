import GtpMeter.FlowTable
import GtpMeter.Ingest

/-!
# What a flow entry adds up

An entry is set up by one packet, and from then on every packet whose key it holds
is added to it.  The key is a hash of the inner 5-tuple, while the entry records the
subscriber, the tunnel and the 5-tuple of the packet that set it up.

**Results.**
* `reaches_keyTotals`: an entry holds the totals of the packets with its key since it
  was set up.
* `flows_unblended_of_keys`: if keys and recorded identities of the packets agree, these
  are the packets with its identity.
* `same_addresses_blended`: two subscribers with the same private addresses share an
  entry.
-/

namespace GtpMeter

open FlatHashU32 (Wf)

/-- What a flow entry records of the packet that set it up, its key apart. -/
structure FlowIdentity where
  subIdx : UInt32
  teid : UInt32
  srcIp : UInt32
  dstIp : UInt32
  srcPort : UInt16
  dstPort : UInt16
  proto : UInt8
  ipVersion : UInt8
deriving DecidableEq

def FlowEntry.identity (f : FlowEntry) : FlowIdentity :=
  ⟨f.subIdx, f.teid, f.srcIp, f.dstIp, f.srcPort, f.dstPort, f.proto, f.ipVersion⟩

namespace FlowPacket

def identity (p : FlowPacket) : FlowIdentity :=
  ⟨p.sub, p.ev.teid, p.ev.srcIp, p.ev.dstIp, p.ev.srcPort, p.ev.dstPort, p.ev.proto,
    p.ev.ipVersion⟩

/-- The counters of an entry are the byte sum and the number of the packets. -/
def Totals (f : FlowEntry) (ps : List FlowPacket) : Prop :=
  f.bytes = UInt64.ofNat (ps.map fun p => p.ev.bytes.toNat).sum ∧
    f.packets = UInt64.ofNat ps.length

instance instDecidableTotals (f : FlowEntry) (ps : List FlowPacket) : Decidable (Totals f ps) :=
  inferInstanceAs (Decidable (_ ∧ _))

theorem totals_entry (p : FlowPacket) : Totals p.entry [p] := by
  refine ⟨?_, rfl⟩
  have hsum : ([p].map fun q => q.ev.bytes.toNat).sum = p.ev.bytes.toNat := by simp
  rw [hsum]
  apply UInt64.toNat_inj.mp
  have hlt : p.ev.bytes.toNat < 2 ^ 64 := p.ev.bytes.toNat_lt.trans (by decide)
  rw [UInt64.toNat_ofNat_of_lt' hlt]
  exact UInt32.toNat_toUInt64 _

theorem totals_addTo {f : FlowEntry} {ps : List FlowPacket} (h : Totals f ps) (p : FlowPacket) :
    Totals (p.addTo f) (ps ++ [p]) := by
  obtain ⟨hbytes, hpackets⟩ := h
  have hone := (totals_entry p).1
  constructor
  · show f.bytes + p.ev.bytes.toUInt64 = _
    rw [List.map_append, List.sum_append, UInt64.ofNat_add, ← hbytes, ← hone]
    rfl
  · show f.packets + 1 = _
    rw [List.length_append, UInt64.ofNat_add, ← hpackets]
    rfl

end FlowPacket

namespace FlowTable

variable {t t' : FlowTable} {p : FlowPacket}

/-- What a packet does to one slot: it sets it up, is added to it, or leaves it alone
because the key is another one. -/
theorem Updated.at_slot (h : Updated t p t') (hok : Ok t) {i : Nat} (hi : i < t.count) :
    (t'.keys i ≠ t.keys i ∧ t'.flows i = p.entry) ∨
    (t'.keys i = t.keys i ∧ t.keys i = p.key ∧ t'.flows i = p.addTo (t.flows i)) ∨
    (t'.keys i = t.keys i ∧ t.keys i ≠ p.key ∧ t'.flows i = t.flows i) := by
  have hkey := p.key_ne_zero
  cases h with
  | @hit j hj hhit =>
      by_cases hij : i = j
      · subst hij
        exact .inr (.inl ⟨by simp [keys, put], hhit, by simp [put]⟩)
      · have hother : t.keys i ≠ p.key := by
          intro heq
          exact hij (hok.windowed.unique i j hi hj (heq.trans hhit.symm) (heq ▸ hkey))
        exact .inr (.inr ⟨by simp [keys, put, hij], hother, by simp [put, hij]⟩)
  | @insert d habsent _ hempty _ =>
      by_cases hij : i = t.slot p.key d
      · subst hij
        refine .inl ⟨?_, by simp [put]⟩
        rw [hempty]
        simpa [keys, put] using hkey
      · exact .inr (.inr ⟨by simp [keys, put, hij], habsent i hi, by simp [put, hij]⟩)
  | @evict d habsent _ _ _ =>
      by_cases hij : i = t.slot p.key d
      · subst hij
        refine .inl ⟨?_, by simp [put]⟩
        intro heq
        refine habsent _ hi ?_
        rw [← heq]
        simp [keys, put]
      · exact .inr (.inr ⟨by simp [keys, put, hij], habsent i hi, by simp [put, hij]⟩)

end FlowTable

namespace MeterEngine

variable {cfg : MeterConfig} {sink : RecordSink} {h : History} {e : MeterEngine}

section Ledger

/-- The packets that a history brought to the flow table. -/
def packetsOf (h : History) : List FlowPacket :=
  h.filterMap flowPacket

/-- A call set up slot `i`: the key in it is another one. -/
def SetsUp (tr : Runs.Transition MeterEngine MeterOp Answer) (i : Nat) : Prop :=
  (tr.post.flows i).key ≠ (tr.pre.flows i).key

instance instDecidableSetsUp (tr : Runs.Transition MeterEngine MeterOp Answer) (i : Nat) :
    Decidable (SetsUp tr i) :=
  inferInstanceAs (Decidable (_ ≠ _))

/-- The history from the last call on that set up slot `i`. -/
def sinceSetUp (i : Nat) (h : History) : History :=
  h.foldl (fun since tr => if SetsUp tr i then [tr] else since ++ [tr]) []

theorem sinceSetUp_snoc (i : Nat) (tr : Runs.Transition MeterEngine MeterOp Answer) :
    sinceSetUp i (h ++ [tr]) = if SetsUp tr i then [tr] else sinceSetUp i h ++ [tr] := by
  rw [sinceSetUp, List.foldl_append]
  rfl

theorem sinceSetUp_subset (i : Nat) : sinceSetUp i h ⊆ h := by
  induction h using List.reverseRecOn with
  | nil => exact List.Subset.refl []
  | append_singleton h tr ih =>
      rw [sinceSetUp_snoc]
      split_ifs
      · exact List.subset_append_right h [tr]
      · intro x hx
        rcases List.mem_append.mp hx with hold | hnew
        · exact List.mem_append_left _ (ih hold)
        · exact List.mem_append_right _ hnew

theorem mem_packetsOf_of_since {i : Nat} {p : FlowPacket} (hp : p ∈ packetsOf (sinceSetUp i h)) :
    p ∈ packetsOf h := by
  obtain ⟨tr, htr, heq⟩ := List.mem_filterMap.mp hp
  exact List.mem_filterMap.mpr ⟨tr, sinceSetUp_subset i htr, heq⟩

/-- The packets since slot `i` was set up that the check selects. -/
def countedPackets (h : History) (i : Nat) (check : FlowPacket → Bool) : List FlowPacket :=
  (packetsOf (sinceSetUp i h)).filter check

/-- The entry in slot `i` holds the totals of the packets with its key, and one of them
is the packet that set it up. -/
structure KeyTotals (h : History) (f : FlowEntry) (i : Nat) : Prop where
  totals : FlowPacket.Totals f (countedPackets h i fun p => p.key = f.key)
  origin : ∃ p ∈ packetsOf (sinceSetUp i h), p.key = f.key ∧ p.identity = f.identity

theorem countedPackets_snoc {i : Nat} {tr : Runs.Transition MeterEngine MeterOp Answer}
    (hset : ¬SetsUp tr i) (check : FlowPacket → Bool) :
    countedPackets (h ++ [tr]) i check =
      countedPackets h i check ++ (flowPacket tr).toList.filter check := by
  unfold countedPackets packetsOf
  rw [sinceSetUp_snoc, if_neg hset, List.filterMap_append, List.filter_append]
  cases hp : flowPacket tr <;> simp [hp]

theorem origin_snoc {i : Nat} {tr : Runs.Transition MeterEngine MeterOp Answer}
    (hset : ¬SetsUp tr i) {p : FlowPacket} (hp : p ∈ packetsOf (sinceSetUp i h)) :
    p ∈ packetsOf (sinceSetUp i (h ++ [tr])) := by
  rw [sinceSetUp_snoc, if_neg hset, packetsOf, List.filterMap_append]
  exact List.mem_append_left _ hp

/-- A call that leaves the entry alone. -/
theorem KeyTotals.keep {f : FlowEntry} {i : Nat}
    {tr : Runs.Transition MeterEngine MeterOp Answer} (hk : KeyTotals h f i)
    (hset : ¬SetsUp tr i) (hother : ∀ p, flowPacket tr = some p → f.key ≠ p.key) :
    KeyTotals (h ++ [tr]) f i := by
  obtain ⟨p, hp, hsame⟩ := hk.origin
  refine ⟨?_, p, origin_snoc hset hp, hsame⟩
  have hnone : (flowPacket tr).toList.filter (fun p => p.key = f.key) = [] := by
    cases hq : flowPacket tr with
    | none => rfl
    | some q => simp [Ne.symm (hother q hq)]
  rw [countedPackets_snoc hset, hnone, List.append_nil]
  exact hk.totals

/-- A packet that is added to the entry. -/
theorem KeyTotals.add {f : FlowEntry} {i : Nat} {q : FlowPacket}
    {tr : Runs.Transition MeterEngine MeterOp Answer} (hk : KeyTotals h f i)
    (hset : ¬SetsUp tr i) (hq : flowPacket tr = some q) (hkey : f.key = q.key) :
    KeyTotals (h ++ [tr]) (q.addTo f) i := by
  obtain ⟨p, hp, hsame⟩ := hk.origin
  refine ⟨?_, p, origin_snoc hset hp, hsame⟩
  have hone : (flowPacket tr).toList.filter (fun p => p.key = f.key) = [q] := by
    simp [hq, hkey]
  rw [FlowPacket.addTo_key, countedPackets_snoc hset, hone]
  exact FlowPacket.totals_addTo hk.totals q

/-- The packet that sets up the entry. -/
theorem KeyTotals.start {i : Nat} {q : FlowPacket}
    {tr : Runs.Transition MeterEngine MeterOp Answer} (hset : SetsUp tr i)
    (hq : flowPacket tr = some q) : KeyTotals (h ++ [tr]) q.entry i := by
  have hpackets : packetsOf (sinceSetUp i (h ++ [tr])) = [q] := by
    rw [sinceSetUp_snoc, if_pos hset]
    simp [packetsOf, hq]
  refine ⟨?_, q, by rw [hpackets]; exact List.mem_singleton.mpr rfl, rfl, rfl⟩
  have hall : countedPackets (h ++ [tr]) i (fun p => p.key = q.entry.key) = [q] := by
    unfold countedPackets
    rw [hpackets]
    simp
  rw [hall]
  exact FlowPacket.totals_entry q

end Ledger

section Blending

/-- In every reachable state an entry holds the totals of the packets with its key since
it was set up. -/
theorem reaches_keyTotals (htrack : cfg.trackFlows = true) (hrun : Reaches cfg sink h e) :
    ∀ i, i < e.flowCount → (e.flows i).key ≠ 0 → KeyTotals h (e.flows i) i := by
  induction hrun with
  | nil => exact fun i _ hne => absurd rfl hne
  | @snoc h e e' op out hprev hs ih =>
      have hok := reaches_flowTable htrack hprev
      have hadv := step_advances (reaches_indexed hprev).wf hok hs
      intro i hi hne
      rw [(step_moves (reaches_indexed hprev).wf hs).flowCount_eq] at hi
      cases hp : flowPacket ⟨e, op, out, e'⟩ with
      | none =>
          rw [hp] at hadv
          have hflows : e'.flows i = e.flows i := congrArg (·.flows i) hadv.eq_of_none
          rw [hflows] at hne ⊢
          refine (ih i hi hne).keep ?_ ?_
          · exact fun hset => hset (congrArg FlowEntry.key hflows)
          · intro p hsome
            rw [hp] at hsome
            cases hsome
      | some p =>
          rw [hp] at hadv
          rcases hadv.updated.at_slot hok hi with ⟨hset, hnew⟩ | ⟨hsame, hhit, hadd⟩ |
            ⟨hsame, hother, hkeep⟩
          · have hstart : e'.flows i = p.entry := hnew
            rw [hstart]
            exact .start hset hp
          · have hentry : e'.flows i = p.addTo (e.flows i) := hadd
            rw [hentry] at hne ⊢
            exact (ih i hi hne).add (fun hset => hset hsame) hp hhit
          · have hentry : e'.flows i = e.flows i := hkeep
            rw [hentry] at hne ⊢
            refine (ih i hi hne).keep (fun hset => hset hsame) ?_
            intro q hq
            obtain rfl := Option.some.inj (hp.symm.trans hq)
            exact hother

/-- Every entry holds the totals of exactly the packets with its own identity that came
since it was set up. -/
def Unblended (h : History) (e : MeterEngine) : Prop :=
  ∀ i, i < e.flowCount → (e.flows i).key ≠ 0 →
    FlowPacket.Totals (e.flows i) (countedPackets h i fun p => p.identity = (e.flows i).identity)

/-- Packets have the same key exactly if the same identity would be recorded for them. -/
def KeysIdentify (ps : List FlowPacket) : Prop :=
  ∀ p ∈ ps, ∀ q ∈ ps, p.key = q.key ↔ p.identity = q.identity

/-- Entries are not blended as long as the keys tell identities apart. -/
theorem flows_unblended_of_keys (hrun : Reaches cfg sink h e)
    (hkeys : KeysIdentify (packetsOf h)) : Unblended h e := by
  intro i hi hne
  have htrack : cfg.trackFlows = true := by
    by_contra hoff
    rw [reaches_flowCount hrun] at hi
    simp [init, hoff] at hi
  obtain ⟨htotals, p, hp, hkey, hid⟩ := reaches_keyTotals htrack hrun i hi hne
  have hsame : countedPackets h i (fun q => q.key = (e.flows i).key) =
      countedPackets h i fun q => q.identity = (e.flows i).identity := by
    refine List.filter_congr fun q hq => ?_
    have hiff := hkeys q (mem_packetsOf_of_since hq) p (mem_packetsOf_of_since hp)
    rw [hkey, hid] at hiff
    exact decide_eq_decide.mpr hiff
  rw [← hsame]
  exact htotals

/-- A connection between private addresses. -/
def privateTuple : FiveTuple :=
  { src := IpAddr.ofBytes [10, 0, 0, 1]
    dst := IpAddr.ofBytes [10, 0, 0, 2]
    srcPort := 40000
    dstPort := 443
    proto := 6
    ipVersion := 4 }

/-- A packet of that connection in the tunnel `teid`, as `process_gtpu` reports it. -/
def privatePacket (teid : UInt32) (bytes : Nat) (tuple : FiveTuple) : MeterEvent :=
  Ingest.innerEvent {} { teid } { tuple, valid := true, ipTotalLen := UInt32.ofNat bytes } bytes

/-- Two subscribers with the same private addresses. -/
def twoPrivateHosts : List MeterOp :=
  [.install { imsi := 1, ulTeid := 100 } 0, .install { imsi := 2, ulTeid := 200 } 0,
    .apply (privatePacket 100 10 privateTuple), .apply (privatePacket 200 20 privateTuple)]

/-- The packets of two subscribers with the same private addresses end up in one entry,
under the name of the first. -/
theorem same_addresses_blended :
    ∃ h e i, Reaches twoFlows noSink h e ∧ i < e.flowCount ∧
      (e.flows i).subIdx = 0 ∧ (e.flows i).teid = 100 ∧
      (e.flows i).bytes = 30 ∧ (e.flows i).packets = 2 ∧ e.stats.flowEvictions = 0 ∧
      (countedPackets h i fun p => p.identity = (e.flows i).identity).map
        (fun p => p.ev.bytes) = [10] ∧
      ¬Unblended h e := by
  have hex : Runs.execCheck step (init twoFlows noSink) twoPrivateHosts
      (fun h e => decide (1 < e.flowCount ∧
        (e.flows 1).subIdx = 0 ∧ (e.flows 1).teid = 100 ∧
        (e.flows 1).bytes = 30 ∧ (e.flows 1).packets = 2 ∧ e.stats.flowEvictions = 0 ∧
        (countedPackets h 1 fun p => p.identity = (e.flows 1).identity).map
          (fun p => p.ev.bytes) = [10] ∧ (e.flows 1).key ≠ 0 ∧
        ¬FlowPacket.Totals (e.flows 1)
          (countedPackets h 1 fun p => p.identity = (e.flows 1).identity))) = true := by
    decide +kernel
  obtain ⟨h, e, hrun, hcheck⟩ := Runs.Run.of_execCheck hex
  obtain ⟨hi, hsub, hteid, hbytes, hpackets, hevict, hown, hlive, hblend⟩ :=
    of_decide_eq_true hcheck
  exact ⟨h, e, 1, hrun, hi, hsub, hteid, hbytes, hpackets, hevict, hown,
    fun hall => hblend (hall 1 hi hlive)⟩

instance instDecidableKeysIdentify (ps : List FlowPacket) : Decidable (KeysIdentify ps) :=
  inferInstanceAs (Decidable (∀ p ∈ ps, ∀ q ∈ ps, _ ↔ _))

/-- Two packets of one connection and one of another subscriber with another port. -/
def distinctPorts : List MeterOp :=
  [.install { imsi := 1, ulTeid := 100 } 0, .install { imsi := 2, ulTeid := 200 } 0,
    .apply (privatePacket 100 10 privateTuple), .apply (privatePacket 100 5 privateTuple),
    .apply (privatePacket 200 20 { privateTuple with srcPort := 40001 })]

theorem flows_unblended_of_keys_ports :
    ∃ h e, Reaches twoFlows noSink h e ∧ KeysIdentify (packetsOf h) ∧ Unblended h e ∧
      e.stats.flowsActive = 2 := by
  have hex : Runs.execCheck step (init twoFlows noSink) distinctPorts
      (fun h e => decide (KeysIdentify (packetsOf h) ∧ e.stats.flowsActive = 2)) = true := by
    decide +kernel
  obtain ⟨h, e, hrun, hcheck⟩ := Runs.Run.of_execCheck hex
  obtain ⟨hkeys, hactive⟩ := of_decide_eq_true hcheck
  exact ⟨h, e, hrun, hkeys, flows_unblended_of_keys hrun hkeys, hactive⟩

end Blending

end MeterEngine

end GtpMeter
