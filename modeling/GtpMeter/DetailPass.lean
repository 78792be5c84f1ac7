import GtpMeter.BindingSoundness
import GtpMeter.DetailScan
import Mathlib.Data.List.Forall2

/-!
# A pass of the detail scan

The scan is cut at arbitrary places by its budget.  Each tick is a look at a range of the
subscribers and at a range of the flow slots, where the tick before stopped.  What the
looks of a pass have found is exactly what the buffer holds: the rows of the subscribers,
and the busiest of the flows, as a heap.  Each tick moves the cursors by the budget or to
the end, so that a pass over an engine that stays as it is ends with the tables that one
look at the whole engine would give.

**Results.**
* `topFlows_top`: `top_flows` chooses the busiest flows and lists them in order.
* `tick_spec`: what one tick does to a pass in progress.
* `detail_pass_complete`: what a whole pass commits.
-/

namespace GtpMeter

open Selection

variable {std : StdLib} {cfg : DetailConfig} {e : MeterEngine}

section Tables

/-- The subscriber is active and has traffic. -/
def Talks (e : MeterEngine) (idx : Nat) : Prop :=
  (e.info idx).active = true ∧ (e.counters idx).totalPackets ≠ 0

instance decidableTalks (e : MeterEngine) (idx : Nat) : Decidable (Talks e idx) :=
  inferInstanceAs (Decidable (_ ∧ _))

/-- The row of a subscriber, if it is active and has traffic. -/
def rowOf (e : MeterEngine) (idx : Nat) : Option SubscriberSnapshot :=
  if Talks e idx then some (DetailScan.snapshotRow (e.info idx) (e.counters idx) idx) else none

/-- The row shows the subscriber as the engine has it. -/
structure RowShows (e : MeterEngine) (idx : Nat) (row : SubscriberSnapshot) : Prop where
  imsi_eq : row.imsi = (e.info idx).imsi
  ulBytes_eq : row.ulBytes = (e.counters idx).ulBytes
  dlBytes_eq : row.dlBytes = (e.counters idx).dlBytes
  ulPackets_eq : row.ulPackets = (e.counters idx).ulPackets
  dlPackets_eq : row.dlPackets = (e.counters idx).dlPackets
  lastSeenNs_eq : row.lastSeenNs = (e.counters idx).lastSeenNs
  bucketBytes_eq : row.bucketBytes = (e.counters idx).bucketBytes
  bucketIds_eq : row.bucketIds = (e.info idx).bucketIds
  gyReportedOctets_eq : row.gyReportedOctets = (e.info idx).gyReportedOctets
  gyReports_eq : row.gyReports = (e.info idx).gyReports
  subIdx_eq : row.subIdx = UInt32.ofNat idx
  ulTeid_eq : row.ulTeid = (e.info idx).ulTeid
  dlTeid_eq : row.dlTeid = (e.info idx).dlTeid
  bucketAggregated_eq : row.bucketAggregated = (e.info idx).bucketAggregated

/-- The rows of the subscribers below `c`. -/
def rowsBelow (e : MeterEngine) (c : Nat) : List SubscriberSnapshot :=
  (List.range c).filterMap (rowOf e)

/-- The flows in use below slot `c`. -/
def flowsBelow (e : MeterEngine) (c : Nat) : List FlowEntry :=
  ((List.range c).map e.flows).filter fun f => f.key ≠ 0

theorem filterMap_rowOf (idxs : List Nat) :
    idxs.filterMap (rowOf e) = (idxs.filter fun i => Talks e i).map fun i =>
      DetailScan.snapshotRow (e.info i) (e.counters i) i := by
  induction idxs with
  | nil => rfl
  | cons i idxs ih =>
      by_cases htalks : Talks e i
      · simp [rowOf, htalks, ih]
      · simp [rowOf, htalks, ih]

/-- The rows show the subscribers that talk, one each. -/
theorem rows_show (idxs : List Nat) :
    List.Forall₂ (RowShows e) (idxs.filter fun i => Talks e i) (idxs.filterMap (rowOf e)) := by
  rw [filterMap_rowOf, List.forall₂_map_right_iff, List.forall₂_same]
  intro i _
  constructor <;> rfl

/-- Fewer than 2^64 packets, and at least one, are traffic. -/
theorem talks_of_packets {idx : Nat} (hactive : (e.info idx).active = true)
    (hsome : 0 < (e.counters idx).ulPackets.toNat + (e.counters idx).dlPackets.toNat)
    (hfit : (e.counters idx).ulPackets.toNat + (e.counters idx).dlPackets.toNat < 2 ^ 64) :
    Talks e idx := by
  refine ⟨hactive, fun hzero => ?_⟩
  have hsum := congrArg UInt64.toNat hzero
  rw [SubscriberCounters.totalPackets, UInt64.toNat_add, Nat.mod_eq_of_lt hfit] at hsum
  exact hsome.ne' hsum

end Tables

section TopFlows

variable {n : Nat} {xs out : List FlowEntry} {f : FlowEntry}

/-- What the loop of `top_flows` keeps: the busiest flows so far, in order once there are
`n` of them. -/
structure TopOut (n : Nat) (xs out : List FlowEntry) : Prop where
  top : Top flowBytes n xs out
  desc : n ≤ out.length → Descending flowBytes out

theorem TopOut.length_eq_of_full (h : TopOut n xs out) (hfull : ¬out.length < n) :
    out.length = n := by
  have hlen := h.top.length_eq
  omega

theorem TopOut.append (std : StdLib) (h : TopOut n xs out) (hlt : out.length < n) :
    TopOut n (xs ++ [f])
      (if (out ++ [f]).length = n then std.flows.sort (out ++ [f]) else out ++ [f]) := by
  split_ifs with hfull
  · exact ⟨(h.top.add hlt).perm (std.flows.sort_perm _), fun _ => std.flows.sort_desc _⟩
  · refine ⟨h.top.add hlt, fun hge => ?_⟩
    rw [List.length_append, List.length_singleton] at hge hfull
    omega

/-- The last of `n` flows in order is the least busy one. -/
theorem TopOut.back_le (h : TopOut n xs out) {init : List FlowEntry} {back : FlowEntry}
    (hout : out = init ++ [back]) (hfull : n ≤ out.length) :
    ∀ a ∈ init, flowBytes back ≤ flowBytes a := by
  have hdesc := h.desc hfull
  rw [hout] at hdesc
  intro a ha
  exact (List.pairwise_append.mp hdesc).2.2 a ha back (List.mem_singleton.mpr rfl)

theorem TopOut.replaceBack (h : TopOut n xs out) {init : List FlowEntry} {back : FlowEntry}
    (hout : out = init ++ [back]) (hfull : out.length = n) (hlt : back.bytes < f.bytes) :
    TopOut n (xs ++ [f]) (bubbleUp flowBytes (init ++ [f]) init.length) := by
  have hleast := h.back_le hout hfull.ge
  have hdesc : Descending flowBytes (init ++ []) := by
    rw [List.append_nil]
    have hall := h.desc hfull.ge
    rw [hout] at hall
    exact (List.pairwise_append.mp hall).1
  obtain ⟨hsorted, hperm⟩ := bubbleUp_spec init [] f hdesc (by simp)
  have hmoved : Top flowBytes n xs (back :: init) := by
    refine h.top.perm ?_
    rw [hout]
    exact (List.perm_append_singleton back init).symm
  have hlen : (back :: init).length = n := by
    rw [← hfull, hout, List.length_cons, List.length_append, List.length_singleton]
  have hreplaced := hmoved.replace hleast (UInt64.lt_iff_toNat_lt.mp hlt) hlen
  exact ⟨hreplaced.perm hperm, fun _ => hsorted⟩

theorem TopOut.skip (h : TopOut n xs out) {init : List FlowEntry} {back : FlowEntry}
    (hout : out = init ++ [back]) (hfull : out.length = n) (hle : ¬back.bytes < f.bytes) :
    TopOut n (xs ++ [f]) out := by
  have hback : flowBytes f ≤ flowBytes back :=
    Nat.not_lt.mp fun hlt => hle (UInt64.lt_iff_toNat_lt.mpr hlt)
  refine ⟨h.top.skip hfull fun a ha => ?_, h.desc⟩
  rw [hout] at ha
  rcases List.mem_append.mp ha with hinit | hlast
  · exact hback.trans (h.back_le hout hfull.ge a hinit)
  · rw [List.mem_singleton.mp hlast]
    exact hback

theorem topFlowsLoop_spec (hn : 0 < n) (rest : List FlowEntry) :
    ∀ xs out, TopOut n xs out →
      TopOut n (xs ++ rest.filter fun f => f.key ≠ 0) (topFlowsLoop std n out rest) := by
  induction rest with
  | nil =>
      intro xs out h
      simpa [topFlowsLoop] using h
  | cons f rest ih =>
      intro xs out h
      unfold topFlowsLoop
      split_ifs with hfree hroom
      · have hskip : (f :: rest).filter (fun f => f.key ≠ 0) =
            rest.filter fun f => f.key ≠ 0 := by simp [hfree]
        rw [hskip]
        exact ih xs out h
      all_goals
        have hkeep : xs ++ (f :: rest).filter (fun f => f.key ≠ 0) =
            xs ++ [f] ++ rest.filter fun f => f.key ≠ 0 := by simp [hfree]
        rw [hkeep]
      · exact ih _ _ (h.append std hroom)
      · have hfull := h.length_eq_of_full hroom
        obtain ⟨init, back, hout⟩ : ∃ init back, out = init ++ [back] := by
          have hne : out ≠ [] := fun hnil => by simp [hnil] at hfull; omega
          exact ⟨out.dropLast, out.getLast hne, (List.dropLast_append_getLast hne).symm⟩
        have hlast : out.getLast? = some back := by simp [hout]
        have hinit : out.dropLast = init := by simp [hout]
        have hpos : out.length - 1 = init.length := by simp [hout]
        rw [hlast, hinit, hpos]
        dsimp only
        split_ifs with hlt
        · exact ih _ _ (h.replaceBack hout hfull hlt)
        · exact ih _ _ (h.skip hout hfull hlt)

/-- `top_flows` chooses the busiest flows and lists them in order. -/
theorem topFlows_top (hn : 0 < n) :
    Top flowBytes n (flowsBelow e e.flowCount) (e.topFlows std n) ∧
      Descending flowBytes (e.topFlows std n) := by
  unfold MeterEngine.topFlows
  by_cases hempty : e.flowCount = 0
  · rw [if_pos (.inl hempty), hempty]
    exact ⟨Top.nil, List.Pairwise.nil⟩
  · rw [if_neg (by simp [hempty, hn.ne'])]
    have hstart : TopOut n [] [] := ⟨Top.nil, fun _ => List.Pairwise.nil⟩
    have hloop : TopOut n (flowsBelow e e.flowCount)
        (topFlowsLoop std n [] ((List.range e.flowCount).map e.flows)) :=
      topFlowsLoop_spec hn _ [] [] hstart
    dsimp only
    split_ifs with hshort
    · exact ⟨hloop.top.perm (std.flows.sort_perm _), std.flows.sort_desc _⟩
    · exact ⟨hloop.top, hloop.desc (Nat.not_lt.mp hshort)⟩

end TopFlows

namespace DetailScan

section Loops

/-- Where a cursor stops that may look at `budget` more entries. -/
def stopAt (cursor budget count : Nat) : Nat :=
  min (cursor + budget) count

theorem stopAt_zero {cursor count : Nat} (hle : cursor ≤ count) : stopAt cursor 0 count = cursor :=
  Nat.min_eq_left hle

theorem stopAt_end {cursor count : Nat} (hle : cursor ≤ count) (hmore : ¬cursor < count)
    (budget : Nat) : stopAt cursor budget count = cursor := by
  unfold stopAt
  omega

theorem stopAt_succ (cursor budget count : Nat) :
    stopAt cursor (budget + 1) count = stopAt (cursor + 1) budget count := by
  unfold stopAt
  congr 1
  omega

/-- One subscriber goes by. -/
theorem scanSubscribers_succ (hsize : e.nextSub ≤ e.tableSize) {cursor : Nat}
    (hmore : cursor < e.nextSub) (budget : Nat) (rows : List SubscriberSnapshot) :
    scanSubscribers e (budget + 1) cursor rows =
      scanSubscribers e budget (cursor + 1) (rows ++ (rowOf e cursor).toList) := by
  have hlt : cursor < e.tableSize := Nat.lt_of_lt_of_le hmore hsize
  rw [scanSubscribers, if_pos hmore, MeterEngine.infoAt_ok.mpr ⟨hlt, rfl⟩,
    MeterEngine.countersAt_ok.mpr ⟨hlt, rfl⟩]
  simp only [bind, Except.bind]
  by_cases hactive : (e.info cursor).active = true
  · by_cases htraffic : (e.counters cursor).totalPackets = 0
    · simp [rowOf, Talks, hactive, htraffic]
    · simp [rowOf, Talks, hactive, htraffic]
  · simp [rowOf, Talks, hactive]

/-- The rows of the subscribers that a tick passes join those before. -/
theorem scanSubscribers_from (hsize : e.nextSub ≤ e.tableSize) (budget : Nat) :
    ∀ cursor rows, cursor ≤ e.nextSub →
      scanSubscribers e budget cursor rows =
        .ok (budget - (stopAt cursor budget e.nextSub - cursor), stopAt cursor budget e.nextSub,
          rows ++ (List.range' cursor (stopAt cursor budget e.nextSub - cursor)).filterMap
            (rowOf e)) := by
  induction budget with
  | zero =>
      intro cursor rows hle
      rw [stopAt_zero hle, Nat.sub_self]
      simp [scanSubscribers]
  | succ budget ih =>
      intro cursor rows hle
      by_cases hmore : cursor < e.nextSub
      · have hstop : cursor < stopAt (cursor + 1) budget e.nextSub := by
          unfold stopAt
          omega
        have hcount : stopAt (cursor + 1) budget e.nextSub - cursor =
            stopAt (cursor + 1) budget e.nextSub - (cursor + 1) + 1 := by
          omega
        rw [scanSubscribers_succ hsize hmore, ih (cursor + 1) _ hmore, stopAt_succ, hcount,
          List.range'_succ, List.append_assoc, Nat.add_sub_add_right]
        cases hrow : rowOf e cursor <;> simp [hrow]
      · rw [scanSubscribers, if_neg hmore, stopAt_end hle hmore, Nat.sub_self]
        simp

theorem range_append {a b : Nat} (hle : a ≤ b) :
    List.range a ++ List.range' a (b - a) = List.range b := by
  have happend : List.range' 0 a 1 ++ List.range' (0 + 1 * a) (b - a) 1 =
      List.range' 0 (a + (b - a)) 1 := List.range'_append
  rw [Nat.one_mul, Nat.zero_add, Nat.add_sub_cancel' hle] at happend
  rw [List.range_eq_range', List.range_eq_range', happend]

/-- The rows that a pass over an engine that stays as it is has found so far. -/
theorem scanSubscribers_eq (hsize : e.nextSub ≤ e.tableSize) (budget : Nat) :
    ∀ cursor, cursor ≤ e.nextSub →
      scanSubscribers e budget cursor (rowsBelow e cursor) =
        .ok (budget - (stopAt cursor budget e.nextSub - cursor),
          stopAt cursor budget e.nextSub, rowsBelow e (stopAt cursor budget e.nextSub)) := by
  intro cursor hle
  have hstop : cursor ≤ stopAt cursor budget e.nextSub := Nat.le_min.mpr ⟨by omega, hle⟩
  rw [scanSubscribers_from hsize budget cursor _ hle, rowsBelow, ← List.filterMap_append,
    range_append hstop]
  rfl

variable {limit : Nat} {xs top : List FlowEntry}

/-- The heap of the busiest flows so far. -/
structure FlowHeap (limit : Nat) (xs top : List FlowEntry) : Prop where
  busiest : Top flowBytes limit xs top
  heap : MinHeap flowBytes top

theorem FlowHeap.nil : FlowHeap limit [] [] :=
  ⟨Top.nil, minHeap_nil⟩

theorem offerFlow_spec (std : StdLib) (hlimit : 0 < limit) (h : FlowHeap limit xs top)
    (f : FlowEntry) :
    ∃ top', offerFlow std limit top f = .ok top' ∧ FlowHeap limit (xs ++ [f]) top' := by
  have hlen := h.busiest.length_eq
  unfold offerFlow
  by_cases hroom : top.length < limit
  · obtain ⟨htop, hheap⟩ := h.busiest.push std.flows h.heap hroom (x := f)
    exact ⟨_, if_pos hroom, htop, hheap⟩
  · have hfull : top.length = limit := by omega
    rw [if_neg hroom]
    cases top with
    | nil =>
        rw [List.length_nil] at hfull
        omega
    | cons front others =>
        dsimp only
        by_cases hlt : front.bytes < f.bytes
        · obtain ⟨htop, hheap⟩ :=
            h.busiest.popPush std.flows h.heap hfull (UInt64.lt_iff_toNat_lt.mp hlt)
          exact ⟨_, if_pos hlt, htop, hheap⟩
        · have hfront : flowBytes f ≤ flowBytes front :=
            Nat.not_lt.mp fun h => hlt (UInt64.lt_iff_toNat_lt.mpr h)
          refine ⟨_, if_neg hlt, h.busiest.skip hfull ?_, h.heap⟩
          intro a ha
          rcases List.mem_cons.mp ha with rfl | ha
          · exact hfront
          · exact hfront.trans (h.heap.head_le a ha)

/-- The flows that a tick passes are offered to the heap of those before. -/
theorem scanFlows_from (std : StdLib) (hlimit : 0 < limit) (budget : Nat) :
    ∀ cursor top xs, cursor ≤ e.flowCount → FlowHeap limit xs top →
      ∃ top', scanFlows std e limit budget cursor top =
          .ok (stopAt cursor budget e.flowCount, top') ∧
        FlowHeap limit (xs ++ ((List.range' cursor
          (stopAt cursor budget e.flowCount - cursor)).map e.flows).filter fun f => f.key ≠ 0)
          top' := by
  induction budget with
  | zero =>
      intro cursor top xs hle h
      rw [stopAt_zero hle, Nat.sub_self]
      exact ⟨top, rfl, by simpa using h⟩
  | succ budget ih =>
      intro cursor top xs hle h
      unfold scanFlows
      by_cases hmore : cursor < e.flowCount
      · have hstop : cursor < stopAt (cursor + 1) budget e.flowCount := by
          unfold stopAt
          omega
        have hcount : stopAt (cursor + 1) budget e.flowCount - cursor =
            stopAt (cursor + 1) budget e.flowCount - (cursor + 1) + 1 := by
          omega
        rw [if_pos hmore, stopAt_succ, hcount, List.range'_succ, List.map_cons]
        by_cases hfree : (e.flows cursor).key = 0
        · rw [if_pos hfree, List.filter_cons_of_neg (by simp [hfree])]
          exact ih (cursor + 1) top xs hmore h
        · obtain ⟨top₁, hoffer, h₁⟩ := offerFlow_spec std hlimit h (e.flows cursor)
          rw [if_neg hfree, hoffer, List.filter_cons_of_pos (by simp [hfree]),
            ← List.singleton_append, ← List.append_assoc]
          exact ih (cursor + 1) top₁ _ hmore h₁
      · rw [if_neg hmore, stopAt_end hle hmore, Nat.sub_self]
        exact ⟨top, rfl, by simpa using h⟩

end Loops

end DetailScan

/-- What a tick looked at: subscribers and flow slots, each from one number to below
another. -/
structure Look where
  engine : MeterEngine
  wallNs : UInt64
  subFrom : Nat
  subTo : Nat
  flowFrom : Nat
  flowTo : Nat

namespace Look

def subs (l : Look) : List Nat :=
  List.range' l.subFrom (l.subTo - l.subFrom)

def slots (l : Look) : List Nat :=
  List.range' l.flowFrom (l.flowTo - l.flowFrom)

/-- The rows of the subscribers, as they were then. -/
def rows (l : Look) : List SubscriberSnapshot :=
  l.subs.filterMap (rowOf l.engine)

/-- The flows in use, as they were then. -/
def flows (l : Look) : List FlowEntry :=
  (l.slots.map l.engine.flows).filter fun f => f.key ≠ 0

end Look

namespace DetailScan

section Ticks

variable {s : DetailScan} {tick : DetailTick} {snap : DetailSnapshot} {sub flow : Nat}
  {looks : List Look}

/-- The buffer holds what the looks of the pass have found, and the cursors are where the
last one stopped. -/
structure Seen (cfg : DetailConfig) (looks : List Look) (snap : DetailSnapshot) (sub flow : Nat) :
    Prop where
  subs_eq : looks.flatMap Look.subs = List.range sub
  slots_eq : looks.flatMap Look.slots = List.range flow
  rows_eq : snap.subscribers = looks.flatMap Look.rows
  flows : FlowHeap cfg.snapshotFlowLimit.toNat (looks.flatMap Look.flows) snap.topFlows

theorem Seen.start (snap : DetailSnapshot) (wallNs : UInt64) :
    Seen cfg [] { snap with subscribers := [], topFlows := [], publishWallNs := wallNs } 0 0 :=
  ⟨rfl, rfl, rfl, FlowHeap.nil⟩

theorem Seen.snoc {wallNs : UInt64} {sub' flow' : Nat} {top : List FlowEntry}
    (h : Seen cfg looks snap sub flow) (hsub : sub ≤ sub') (hflow : flow ≤ flow')
    (hheap : FlowHeap cfg.snapshotFlowLimit.toNat
      (looks.flatMap Look.flows ++ Look.flows ⟨e, wallNs, sub, sub', flow, flow'⟩) top) :
    Seen cfg (looks ++ [⟨e, wallNs, sub, sub', flow, flow'⟩])
      { snap with
        subscribers := snap.subscribers ++ Look.rows ⟨e, wallNs, sub, sub', flow, flow'⟩
        topFlows := top } sub' flow' := by
  refine ⟨?_, ?_, ?_, ?_⟩
  · rw [List.flatMap_append, List.flatMap_singleton, h.subs_eq]
    exact range_append hsub
  · rw [List.flatMap_append, List.flatMap_singleton, h.slots_eq]
    exact range_append hflow
  · rw [List.flatMap_append, List.flatMap_singleton, ← h.rows_eq]
  · rw [List.flatMap_append, List.flatMap_singleton]
    exact hheap

/-- The tables of a snapshot as they are committed, from the rows and the flows found. -/
def committed (std : StdLib) (cfg : DetailConfig) (e : MeterEngine) (snap : DetailSnapshot) :
    DetailSnapshot :=
  { snap with
    subscribers := limitRows std cfg.snapshotSubscriberLimit.toNat snap.subscribers
    topFlows := std.flows.sort snap.topFlows
    totalSubscribers := UInt64.ofNat e.nextSub }

/-- A tick of a pass goes on from the cursors.  It uses up its budget, or it comes to the
ends of the tables and commits. -/
theorem tick_spec (std : StdLib) (hsize : e.nextSub ≤ e.tableSize)
    (hlimit : 0 < cfg.snapshotFlowLimit.toNat)
    (hopen : s.openPass tick = some (snap, sub, flow)) (h : Seen cfg looks snap sub flow)
    (hsub : sub ≤ e.nextSub) (hflow : flow ≤ e.flowCount) :
    ∃ sub' flow' snap', snap'.publishWallNs = snap.publishWallNs ∧
      Seen cfg (looks ++ [⟨e, tick.wallNs, sub, sub', flow, flow'⟩]) snap' sub' flow' ∧
      sub' ≤ e.nextSub ∧ flow' ≤ e.flowCount ∧
      sub' + flow' ≤ sub + flow + cfg.snapshotScanBudget.toNat ∧
      ((sub' + flow' = sub + flow + cfg.snapshotScanBudget.toNat ∧
          advanceDetailScan std cfg e s tick = .ok (⟨some snap', sub', flow'⟩, none)) ∨
        (sub' = e.nextSub ∧ flow' = e.flowCount ∧
          advanceDetailScan std cfg e s tick =
            .ok (⟨none, sub', flow'⟩, some (committed std cfg e snap')))) := by
  -- where the two cursors come to
  obtain ⟨sub', hsub'⟩ : ∃ c, c = stopAt sub cfg.snapshotScanBudget.toNat e.nextSub := ⟨_, rfl⟩
  obtain ⟨flow', hflow'⟩ : ∃ c,
      c = stopAt flow (cfg.snapshotScanBudget.toNat - (sub' - sub)) e.flowCount := ⟨_, rfl⟩
  have hrows := scanSubscribers_from hsize cfg.snapshotScanBudget.toNat sub snap.subscribers hsub
  obtain ⟨top, hflows, hheap⟩ := scanFlows_from std hlimit
    (cfg.snapshotScanBudget.toNat - (sub' - sub)) flow snap.topFlows _ hflow h.flows
  rw [← hsub'] at hrows
  rw [← hflow'] at hflows hheap
  unfold stopAt at hsub' hflow'
  refine ⟨sub', flow', _, ?_, h.snoc (by omega) (by omega) hheap, by omega, by omega, by omega, ?_⟩
  · rfl
  unfold advanceDetailScan
  rw [hopen]
  dsimp only
  rw [hrows]
  simp only [bind, Except.bind, hflows]
  by_cases hgo : sub' < e.nextSub ∨ flow' < e.flowCount
  · rw [if_pos hgo]
    exact .inl ⟨by omega, rfl⟩
  · rw [if_neg hgo]
    exact .inr ⟨by omega, by omega, rfl⟩

theorem limited_rows (std : StdLib) (e : MeterEngine)
    (hlt : cfg.snapshotSubscriberLimit.toNat < snap.subscribers.length) :
    Top rowBytes cfg.snapshotSubscriberLimit.toNat snap.subscribers
        (committed std cfg e snap).subscribers ∧
      Descending rowBytes (committed std cfg e snap).subscribers := by
  have hrows : (committed std cfg e snap).subscribers = _ := if_pos hlt
  rw [hrows]
  exact ⟨std.rows.partialSort_take hlt.le, std.rows.partialSort_desc _ _ hlt.le⟩

/-- The rows and flows of looks at one and the same engine. -/
theorem Seen.fixed (h : Seen cfg looks snap sub flow) (hfixed : ∀ l ∈ looks, l.engine = e) :
    looks.flatMap Look.rows = rowsBelow e sub ∧ looks.flatMap Look.flows = flowsBelow e flow := by
  rw [rowsBelow, flowsBelow, ← h.subs_eq, ← h.slots_eq, List.filterMap_flatMap, List.map_flatMap,
    List.filter_flatMap]
  constructor
  · refine List.flatMap_congr (fun l hl => ?_)
    rw [Look.rows, hfixed l hl]
  · refine List.flatMap_congr (fun l hl => ?_)
    rw [Look.flows, hfixed l hl]

end Ticks

section Passes

open Runs

variable {s : DetailScan} {snap : DetailSnapshot} {sub flow : Nat} {looks : List Look}

/-- One tick in front of a run of ticks. -/
theorem exec_tick_cons {s₁ s' : DetailScan} {ticks : Nat → DetailTick}
    {out : Option DetailSnapshot} {k : Nat}
    {hist : List (Transition DetailScan DetailTick (Option DetailSnapshot))}
    (hfirst : advanceDetailScan std cfg e s (ticks 0) = .ok (s₁, out))
    (hrest : exec (advanceDetailScan std cfg e) s₁
      ((List.range k).map fun i => ticks (i + 1)) = .ok (hist, s')) :
    exec (advanceDetailScan std cfg e) s ((List.range (k + 1)).map ticks) =
      .ok (⟨s, ticks 0, out, s₁⟩ :: hist, s') := by
  have hlist : (List.range (k + 1)).map ticks =
      ticks 0 :: (List.range k).map fun i => ticks (i + 1) := by
    rw [List.range_succ_eq_map, List.map_cons, List.map_map]
    rfl
  rw [hlist, exec, hfirst]
  dsimp only
  rw [hrest]

/-- The induction is on what the pass has still to look at: each tick but the last takes the
whole budget off it. -/
theorem pass_ends (std : StdLib) (hsize : e.nextSub ≤ e.tableSize)
    (hlimit : 0 < cfg.snapshotFlowLimit.toNat) (hbudget : 0 < cfg.snapshotScanBudget.toNat)
    (ticks : Nat → DetailTick) {s : DetailScan}
    (hopen : s.openPass (ticks 0) = some (snap, sub, flow)) (h : Seen cfg looks snap sub flow)
    (hfixed : ∀ l ∈ looks, l.engine = e) (hsub : sub ≤ e.nextSub) (hflow : flow ≤ e.flowCount) :
    ∃ k hist s' looks' snap',
      exec (advanceDetailScan std cfg e) s ((List.range (k + 1)).map ticks) = .ok (hist, s') ∧
      s'.building = none ∧
      hist.map Transition.out = List.replicate k none ++ [some (committed std cfg e snap')] ∧
      Seen cfg looks' snap' e.nextSub e.flowCount ∧ ∀ l ∈ looks', l.engine = e := by
  induction hleft : e.nextSub - sub + (e.flowCount - flow) using Nat.strong_induction_on
    generalizing ticks s snap sub flow looks with
  | _ left ih =>
      obtain ⟨sub', flow', snap', -, hseen, hsub', hflow', hle, hcases⟩ :=
        tick_spec std hsize hlimit hopen h hsub hflow
      have hfixed' : ∀ l ∈ looks ++ [⟨e, (ticks 0).wallNs, sub, sub', flow, flow'⟩],
          l.engine = e := by
        intro l hl
        rcases List.mem_append.mp hl with hold | hnew
        · exact hfixed l hold
        · rw [List.mem_singleton.mp hnew]
      rcases hcases with ⟨hfull, hgo⟩ | ⟨rfl, rfl, hend⟩
      · have hopen' : (⟨some snap', sub', flow'⟩ : DetailScan).openPass (ticks 1) =
            some (snap', sub', flow') := rfl
        obtain ⟨k, hist, s', looks', snap₁, hexec, hidle, houts, hrest⟩ :=
          ih _ (by omega) (fun i => ticks (i + 1)) hopen' hseen hfixed' hsub' hflow' rfl
        refine ⟨k + 1, _, s', looks', snap₁, exec_tick_cons hgo hexec, hidle, ?_, hrest⟩
        rw [List.map_cons, houts]
        rfl
      · exact ⟨0, _, _, _, snap', exec_tick_cons hend rfl, rfl, rfl, hseen, hfixed'⟩

/-- The subscribers that talk. -/
def talkers (e : MeterEngine) : List Nat :=
  (List.range e.nextSub).filter fun i => Talks e i

/-- The bytes of a subscriber, as rows are ordered by. -/
def subscriberBytes (e : MeterEngine) (idx : Nat) : Nat :=
  ((e.counters idx).ulBytes + (e.counters idx).dlBytes).toNat

/-- What a snapshot shows of the engine. -/
structure CompletePass (std : StdLib) (cfg : DetailConfig) (e : MeterEngine)
    (snap : DetailSnapshot) : Prop where
  talks : ∀ idx, (e.info idx).active = true →
    0 < (e.counters idx).ulPackets.toNat + (e.counters idx).dlPackets.toNat →
    (e.counters idx).ulPackets.toNat + (e.counters idx).dlPackets.toNat < 2 ^ 64 →
    idx ∈ talkers e
  rows_all : (talkers e).length ≤ cfg.snapshotSubscriberLimit.toNat →
    List.Forall₂ (RowShows e) (talkers e) snap.subscribers
  rows_busiest : cfg.snapshotSubscriberLimit.toNat < (talkers e).length →
    ∃ chosen rest, (chosen ++ rest).Perm (talkers e) ∧
      chosen.length = cfg.snapshotSubscriberLimit.toNat ∧
      List.Forall₂ (RowShows e) chosen snap.subscribers ∧
      (∀ i ∈ chosen, ∀ j ∈ rest, subscriberBytes e j ≤ subscriberBytes e i) ∧
      Descending rowBytes snap.subscribers
  flows_desc : Descending flowBytes snap.topFlows
  flows_perm : (snap.topFlows.map flowBytes).Perm
    ((e.topFlows std cfg.snapshotFlowLimit.toNat).map flowBytes)
  total_eq : snap.totalSubscribers = UInt64.ofNat e.nextSub

/-- The choice of the busiest rows is one of the busiest subscribers. -/
theorem chosen_of_top {n : Nat} {rows : List SubscriberSnapshot} (hn : n < (talkers e).length)
    (htop : Top rowBytes n (rowsBelow e e.nextSub) rows) :
    ∃ chosen rest, (chosen ++ rest).Perm (talkers e) ∧ chosen.length = n ∧
      List.Forall₂ (RowShows e) chosen rows ∧
      ∀ i ∈ chosen, ∀ j ∈ rest, subscriberBytes e j ≤ subscriberBytes e i := by
  have hlen := htop.length_eq
  rw [rowsBelow, filterMap_rowOf] at htop hlen
  obtain ⟨chosen, rest, hperm, rfl, hcut⟩ := htop.exists_places
  rw [List.length_map, List.length_map] at hlen
  refine ⟨chosen, rest, hperm, hlen.trans (Nat.min_eq_left hn.le), ?_, hcut⟩
  rw [List.forall₂_map_right_iff, List.forall₂_same]
  intro i _
  constructor <;> rfl

theorem committed_complete (hi : MeterEngine.Indexed e) (hlimit : 0 < cfg.snapshotFlowLimit.toNat)
    (h : Seen cfg looks snap e.nextSub e.flowCount) (hfixed : ∀ l ∈ looks, l.engine = e) :
    CompletePass std cfg e (committed std cfg e snap) := by
  obtain ⟨hrows, hflows⟩ := h.fixed hfixed
  have hsubs : snap.subscribers = rowsBelow e e.nextSub := h.rows_eq.trans hrows
  have hcount : snap.subscribers.length = (talkers e).length := by
    rw [hsubs, rowsBelow, filterMap_rowOf, List.length_map]
    rfl
  have hheap := h.flows
  rw [hflows] at hheap
  refine ⟨?_, ?_, ?_, std.flows.sort_desc _, ?_, rfl⟩
  · intro idx hactive hsome hfit
    refine List.mem_filter.mpr ⟨List.mem_range.mpr ?_, ?_⟩
    · by_contra hge
      rw [hi.fresh idx (Nat.not_lt.mp hge)] at hactive
      cases hactive
    · simpa using talks_of_packets hactive hsome hfit
  · intro hfew
    have hall : (committed std cfg e snap).subscribers = snap.subscribers :=
      if_neg (Nat.not_lt.mpr (hcount ▸ hfew))
    rw [hall, hsubs]
    exact rows_show _
  · intro hmany
    obtain ⟨htop, hdesc⟩ := limited_rows std e (hcount ▸ hmany)
    rw [hsubs] at htop
    obtain ⟨chosen, rest, hperm, hlen, hshow, hcut⟩ := chosen_of_top hmany htop
    exact ⟨chosen, rest, hperm, hlen, hshow, hcut, hdesc⟩
  · exact (hheap.busiest.perm (std.flows.sort_perm _)).keys_perm (topFlows_top hlimit).1

/-- **The scan in pieces shows what a scan in one piece would.**  Whatever the budget, a
pass over an engine that stays as it is ends after finitely many ticks, of which only the
last commits.  The snapshot has a row for every active subscriber with traffic, in the
order of the table, or for the busiest of them if there are more than the limit, with the
fields as the engine has them; and the flows in order, with the bytes that `top_flows`
would show. -/
theorem detail_pass_complete {mcfg : MeterConfig} {sink : RecordSink} {h : MeterEngine.History}
    (std : StdLib) (cfg : DetailConfig) (hrun : MeterEngine.Reaches mcfg sink h e)
    (hbudget : 1 ≤ cfg.snapshotScanBudget) (hlimit : 1 ≤ cfg.snapshotFlowLimit)
    (s : DetailScan) (hidle : s.building = none) (ticks : Nat → DetailTick)
    (hfree : (ticks 0).free ≠ none) :
    ∃ k hist s' snap,
      exec (advanceDetailScan std cfg e) s ((List.range (k + 1)).map ticks) = .ok (hist, s') ∧
      s'.building = none ∧
      hist.map Transition.out = List.replicate k none ++ [some snap] ∧
      CompletePass std cfg e snap := by
  have hi := MeterEngine.reaches_indexed hrun
  have hbudget' : 0 < cfg.snapshotScanBudget.toNat := UInt64.le_iff_toNat_le.mp hbudget
  have hlimit' : 0 < cfg.snapshotFlowLimit.toNat := UInt64.le_iff_toNat_le.mp hlimit
  obtain ⟨old, hold⟩ := Option.ne_none_iff_exists'.mp hfree
  have hopen : s.openPass (ticks 0) = some ({ old with
      subscribers := [], topFlows := [], publishWallNs := (ticks 0).wallNs }, 0, 0) := by
    simp [openPass, hidle, hold]
  obtain ⟨k, hist, s', looks, snap, hexec, hdone, houts, hseen, hfixed⟩ :=
    pass_ends std hi.next_le hlimit' hbudget' ticks hopen (Seen.start old (ticks 0).wallNs)
      (by simp) (Nat.zero_le _) (Nat.zero_le _)
  exact ⟨k, hist, s', _, hexec, hdone, houts, committed_complete hi hlimit' hseen hfixed⟩

/-- A standard library whose heaps are sorted lists. -/
def sortingStd : StdLib :=
  ⟨Algorithms.bySorting flowBytes, Algorithms.bySorting rowBytes⟩

/-- Two subscribers, of which the second is the busier one. -/
def twoTalkers : List MeterEngine.MeterOp :=
  [.install { imsi := 1, ulTeid := 100 } 0, .install { imsi := 2, ulTeid := 200 } 0,
    .apply { teid := 100, bytes := 10, flowKey := 2 },
    .apply { teid := 200, bytes := 20, flowKey := 5 }]

/-- An engine with a flow table of two slots. -/
def smallTables : MeterConfig :=
  { maxSubscribers := 8, flowTableCapacity := 2 }

/-- One entry a tick, and room for one row and one flow. -/
def oneByOne : DetailConfig :=
  { snapshotSubscriberLimit := 1, snapshotFlowLimit := 1, snapshotScanBudget := 1 }

theorem detail_pass_complete_two :
    ∃ h e, MeterEngine.Reaches smallTables MeterEngine.noSink h e ∧ talkers e = [0, 1] ∧
      ∃ k hist s' snap,
        exec (advanceDetailScan sortingStd oneByOne e) {}
            ((List.range (k + 1)).map fun _ => { wallNs := 5, free := some {} }) =
          .ok (hist, s') ∧
        hist.map Transition.out = List.replicate k none ++ [some snap] ∧
        CompletePass sortingStd oneByOne e snap ∧
        snap.subscribers.map (fun row => (row.imsi, row.ulBytes)) = [(2, 20)] := by
  have hex : execCheck MeterEngine.step (MeterEngine.init smallTables MeterEngine.noSink)
      twoTalkers (fun _ e => decide (talkers e = [0, 1] ∧
        subscriberBytes e 0 < subscriberBytes e 1 ∧ (e.info 1).imsi = 2 ∧
        (e.counters 1).ulBytes = 20)) = true := by
    decide +kernel
  obtain ⟨h, e, hrun, hcheck⟩ := Run.of_execCheck hex
  obtain ⟨htalkers, hless, himsi, hbytes⟩ := of_decide_eq_true hcheck
  obtain ⟨k, hist, s', snap, hexec, -, houts, hpass⟩ :=
    detail_pass_complete sortingStd oneByOne hrun (by decide) (by decide) {} rfl
      (fun _ => { wallNs := 5, free := some {} }) (by simp)
  refine ⟨h, e, hrun, htalkers, k, hist, s', snap, hexec, houts, hpass, ?_⟩
  obtain ⟨chosen, rest, hperm, hlen, hshow, hcut, -⟩ :=
    hpass.rows_busiest (by rw [htalkers]; decide)
  obtain ⟨c, rfl⟩ := List.length_eq_one_iff.mp hlen
  rw [htalkers] at hperm
  obtain rfl : c = 1 := by
    have hmem : c ∈ [0, 1] := hperm.mem_iff.mp (by simp)
    have hother : 1 ∈ [c] ++ rest := hperm.mem_iff.mpr (by simp)
    by_contra hne
    obtain rfl : c = 0 := by simpa [hne] using hmem
    exact Nat.not_le.mpr hless (hcut 0 (by simp) 1 (by simpa using hother))
  obtain ⟨row, rows, hrow, hnil, hsubs⟩ := List.forall₂_cons_left_iff.mp hshow
  rw [hsubs, List.forall₂_nil_left_iff.mp hnil]
  simp [hrow.imsi_eq, hrow.ulBytes_eq, himsi, hbytes]

end Passes

end DetailScan

end GtpMeter
