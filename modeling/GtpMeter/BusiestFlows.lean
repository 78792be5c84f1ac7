import GtpMeter.DetailPass

/-!
# The busiest flows

`top_flows(n)` makes room for `n + 1` entries before it looks at the table.  A vector that
cannot have the room throws, `std::length_error` for more entries than it can ever have and
`std::bad_alloc` for want of memory.  Whenever `reserve` returns, the entries returned are
the busiest ones.

**Results.**
* `topFlows_busiest`: what the loop over the table comes to.
* `top_flows_busiest`: what `top_flows` returns.
-/

namespace GtpMeter

open Selection

/-- What `reserve` throws. -/
inductive ReserveError where
  | lengthError
  | badAlloc
deriving DecidableEq

namespace MeterEngine

/-- `top_flows`, with the room it reserves.  `reserve` is that of a vector of flow entries;
which requests it meets depends on the memory there is. -/
def topFlowsReserving (e : MeterEngine) (std : StdLib) (reserve : UInt64 → Except ReserveError Unit)
    (n : UInt64) : Except ReserveError (List FlowEntry) :=
  if e.flowCount = 0 ∨ n = 0 then .ok []
  else do
    reserve (n + 1)
    .ok (e.topFlows std n.toNat)

/-- The slots of the flow table that are in use. -/
def liveSlots (e : MeterEngine) : List Nat :=
  (List.range e.flowCount).filter fun i => (e.flows i).key ≠ 0

/-- `out` lists the busiest `n` entries, busiest first: entries of different slots in use,
none of which has fewer bytes than an entry that is left out. -/
structure BusiestFlows (e : MeterEngine) (n : Nat) (out : List FlowEntry) : Prop where
  length_eq : out.length = min n e.liveSlots.length
  desc : Descending flowBytes out
  from_slots : ∃ slots : List Nat, slots.Nodup ∧ slots ⊆ e.liveSlots ∧
    out = slots.map e.flows ∧
    ∀ j ∈ e.liveSlots, j ∉ slots → ∀ f ∈ out, flowBytes (e.flows j) ≤ flowBytes f

variable {e : MeterEngine} {std : StdLib} {n : Nat} {out : List FlowEntry}

theorem flowsBelow_eq (e : MeterEngine) : flowsBelow e e.flowCount = e.liveSlots.map e.flows := by
  rw [flowsBelow, List.filter_map]
  rfl

/-- A choice of the flows of largest byte count is one of slots. -/
theorem busiestFlows_of_top (htop : Top flowBytes n (flowsBelow e e.flowCount) out)
    (hdesc : Descending flowBytes out) : BusiestFlows e n out := by
  rw [flowsBelow_eq] at htop
  refine ⟨?_, hdesc, ?_⟩
  · rw [htop.length_eq, List.length_map]
  · obtain ⟨chosen, rest, hperm, hout, hcut⟩ := htop.exists_places
    have hnodup : (chosen ++ rest).Nodup :=
      hperm.nodup_iff.mpr (List.nodup_range.filter _)
    refine ⟨chosen, (List.nodup_append.mp hnodup).1, ?_, hout, ?_⟩
    · intro i hi
      exact hperm.mem_iff.mp (List.mem_append_left rest hi)
    · intro j hj hleft f hf
      rw [hout] at hf
      obtain ⟨i, hi, rfl⟩ := List.mem_map.mp hf
      rcases List.mem_append.mp (hperm.mem_iff.mpr hj) with hchosen | hrest
      · exact absurd hchosen hleft
      · exact hcut i hi j hrest

theorem topFlows_busiest (e : MeterEngine) (std : StdLib) (n : Nat) :
    BusiestFlows e n (e.topFlows std n) := by
  rcases Nat.eq_zero_or_pos n with hzero | hpos
  · have hnone : e.topFlows std n = [] := if_pos (.inr hzero)
    rw [hnone, hzero]
    exact busiestFlows_of_top ⟨by simp, _, List.Perm.refl _, by simp⟩ List.Pairwise.nil
  · obtain ⟨htop, hdesc⟩ := topFlows_top hpos
    exact busiestFlows_of_top htop hdesc

/-- **Busiest flows.**  For every table and every `n` for which `reserve` returns,
`top_flows` returns the busiest `n` flows in order. -/
theorem top_flows_busiest (e : MeterEngine) (std : StdLib)
    (reserve : UInt64 → Except ReserveError Unit) (n : UInt64)
    (hreserve : reserve (n + 1) = .ok ()) :
    ∃ out, e.topFlowsReserving std reserve n = .ok out ∧ BusiestFlows e n.toNat out := by
  refine ⟨e.topFlows std n.toNat, ?_, topFlows_busiest e std n.toNat⟩
  unfold topFlowsReserving
  split_ifs with hnothing
  · have hnone : e.topFlows std n.toNat = [] := by
      refine if_pos (hnothing.imp id ?_)
      rintro rfl
      rfl
    rw [hnone]
  · rw [hreserve]
    rfl

open DetailScan (smallTables sortingStd twoTalkers)

/-- A vector that has room for up to eight entries. -/
def roomForEight (request : UInt64) : Except ReserveError Unit :=
  if request ≤ 8 then .ok () else .error .badAlloc

/-- The busier one of two flows. -/
theorem top_flows_busiest_two :
    ∃ h e, Reaches smallTables noSink h e ∧ e.liveSlots.length = 2 ∧
      ∃ out, e.topFlowsReserving sortingStd roomForEight 1 = .ok out ∧
        out.map flowBytes = [20] ∧ BusiestFlows e 1 out := by
  have hex : Runs.execCheck step (init smallTables noSink) twoTalkers
      (fun _ e => decide (e.liveSlots.length = 2 ∧
        (e.topFlows sortingStd 1).map flowBytes = [20])) = true := by
    decide +kernel
  obtain ⟨h, e, hrun, hcheck⟩ := Runs.Run.of_execCheck hex
  obtain ⟨hlive, hbytes⟩ := of_decide_eq_true hcheck
  obtain ⟨out, hout, hbusiest⟩ := top_flows_busiest e sortingStd roomForEight 1 (by decide)
  have hne : ¬(e.flowCount = 0 ∨ (1 : UInt64) = 0) := by
    rintro (hcount | hone)
    · simp [liveSlots, hcount] at hlive
    · cases hone
  rw [topFlowsReserving, if_neg hne] at hout
  obtain rfl := Except.ok.inj hout
  exact ⟨h, e, hrun, hlive, _, by rw [topFlowsReserving, if_neg hne]; rfl, hbytes, hbusiest⟩

end MeterEngine

end GtpMeter
