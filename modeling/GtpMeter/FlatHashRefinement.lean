import GtpMeter.FlatHashCorrectness
import GtpMeter.TransitionRuns

/-!
# The flat table refines a finite map

Histories of a table from its constructor on, and the finite map that the same
updates build.  Only calls that return extend a history.
-/

namespace GtpMeter
namespace FlatHashU32

open Runs

variable {V : Type}

/-- A call on the table. -/
inductive TableOp (V : Type) where
  | find (key : UInt32)
  | insert (key : UInt32) (value : V)
  | erase (key : UInt32)
  | clear

/-- One call with the Boolean it returns; a deletion that never returns is an
error. -/
def tableStep (hash : UInt32 → UInt32) (t : FlatHashU32 V) :
    TableOp V → Except Unit (FlatHashU32 V × Bool)
  | .find key => .ok ((find hash t key).2, (find hash t key).1.isSome)
  | .insert key value => .ok (insert hash t key value)
  | .erase key =>
      match erase hash t key with
      | none => .error ()
      | some r => .ok r
  | .clear => .ok (t.clear, true)

/-- The same update on a finite map.  A refused insertion is no update. -/
def mapStep (M : Finmap (fun _ : UInt32 => V))
    (tr : Transition (FlatHashU32 V) (TableOp V) Bool) : Finmap (fun _ : UInt32 => V) :=
  match tr.op with
  | .find _ => M
  | .insert key value => if tr.out then M.insert key value else M
  | .erase key => M.erase key
  | .clear => ∅

/-- The table is well formed and stands for the map. -/
structure Represents (hash : UInt32 → UInt32) (t : FlatHashU32 V)
    (M : Finmap (fun _ : UInt32 => V)) : Prop where
  wf : Wf hash t
  lookup_eq : ∀ k, lookup hash t k = M.lookup k

variable {hash : UInt32 → UInt32}

theorem represents_step {t t' : FlatHashU32 V} {M : Finmap (fun _ : UInt32 => V)}
    {op : TableOp V} {out : Bool} (hR : Represents hash t M)
    (hs : tableStep hash t op = .ok (t', out)) :
    Represents hash t' (mapStep M ⟨t, op, out, t'⟩) := by
  cases op with
  | find key =>
      simp only [tableStep, Except.ok.injEq, Prod.mk.injEq] at hs
      obtain ⟨rfl, _⟩ := hs
      refine ⟨hR.wf.congr find_table, ?_⟩
      intro k
      rw [lookup_congr find_table]
      exact hR.lookup_eq k
  | insert key value =>
      simp only [tableStep, Except.ok.injEq] at hs
      cases out with
      | false =>
          have hf : (insert hash t key value).2 = false := by rw [hs]
          have he := insert_of_false hR.wf hf
          rw [hs] at he
          obtain ⟨rfl, _⟩ := Prod.mk.inj he
          exact hR
      | true =>
          have ht : (insert hash t key value).2 = true := by rw [hs]
          have hfst : t' = (insert hash t key value).1 := by rw [hs]
          subst hfst
          refine ⟨hR.wf.insert, ?_⟩
          intro k
          rw [lookup_insert hR.wf ht k]
          by_cases hk : k = key
          · subst hk
            simp [mapStep]
          · simp [mapStep, hk, hR.lookup_eq]
  | erase key =>
      unfold tableStep at hs
      cases he : erase hash t key with
      | none => simp [he] at hs
      | some r =>
          simp only [he, Except.ok.injEq] at hs
          subst hs
          have hspec := erase_spec hR.wf he
          refine ⟨hspec.wf, ?_⟩
          intro k
          rw [hspec.lookup_eq k]
          by_cases hk : k = key
          · subst hk
            simp [mapStep]
          · simp [mapStep, hk, hR.lookup_eq]
  | clear =>
      simp only [tableStep, Except.ok.injEq, Prod.mk.injEq] at hs
      obtain ⟨rfl, _⟩ := hs
      exact ⟨hR.wf.clear, fun k => by simp [lookup_clear hR.wf, mapStep]⟩

variable [Inhabited V] {capacity : UInt64} {t : FlatHashU32 V}
  {h : List (Transition (FlatHashU32 V) (TableOp V) Bool)}

/-- After every history the table stands for the map of its updates. -/
theorem run_represents (hrun : Run (tableStep hash) (init capacity) h t) :
    Represents hash t (h.foldl mapStep ∅) := by
  refine Run.simulate (G := fun _ => True) ?_ ?_ hrun (fun _ _ => trivial)
  · exact ⟨init_wf capacity, fun k => by simp [lookup_init]⟩
  · intro s M op s' out hR hs _
    exact represents_step hR hs

omit [Inhabited V] in
theorem Represents.card {M : Finmap (fun _ : UInt32 => V)} (hR : Represents hash t M) :
    t.totalSize = M.keys.card := by
  have hkeys : M.keys = (t.forEach.map Prod.fst).toFinset := by
    ext k
    rw [Finmap.mem_keys, Finmap.mem_iff, List.mem_toFinset, List.mem_map]
    constructor
    · rintro ⟨v, hv⟩
      exact ⟨(k, v), (mem_forEach hR.wf k v).mpr ((hR.lookup_eq k).trans hv), rfl⟩
    · rintro ⟨⟨k', v⟩, hmem, rfl⟩
      exact ⟨v, (hR.lookup_eq k').symm.trans ((mem_forEach hR.wf k' v).mp hmem)⟩
  rw [hkeys, List.toFinset_card_of_nodup (forEach_nodup hR.wf), List.length_map,
    forEach_length hR.wf]

/-- **The table refines a finite map**, for every hash function and capacity and
after every history of calls that returned. -/
theorem flatHash_refines_map (hrun : Run (tableStep hash) (init capacity) h t) :
    (∀ k, (find hash t k).1 = (h.foldl mapStep ∅).lookup k) ∧
    (∀ k v, (insert hash t k v).2 = false ↔ k ≠ kEmptyKey ∧ t.size = t.capacity) ∧
    (∀ k v, (insert hash t k v).2 = false → (insert hash t k v).1 = t) ∧
    (∀ k, (k ≠ kEmptyKey → ∃ z, z < t.capacity ∧ t.keys z = kEmptyKey) →
      ∃ t', erase hash t k = some (t', decide (k ∈ h.foldl mapStep ∅))) ∧
    t.totalSize = (h.foldl mapStep ∅).keys.card ∧
    (∀ i j, i < t.capacity → j < t.capacity → t.keys i = t.keys j → t.keys i ≠ kEmptyKey →
      i = j) ∧
    (t.forEach.map Prod.fst).Nodup ∧
    (∀ k v, (k, v) ∈ t.forEach ↔ (h.foldl mapStep ∅).lookup k = some v) := by
  have hR := run_represents hrun
  refine ⟨hR.lookup_eq, fun k v => insert_eq_false_iff hR.wf, ?_, ?_, hR.card,
    hR.wf.chained.unique, forEach_nodup hR.wf, ?_⟩
  · intro k v hf
    rw [insert_of_false hR.wf hf]
  · intro k hroom
    cases he : erase hash t k with
    | none =>
        obtain ⟨hk, hfull, _⟩ := (erase_none_iff hR.wf).mp he
        have := hR.wf.vacant_iff.mp (hroom hk)
        omega
    | some r =>
        obtain ⟨t', had⟩ := r
        have hspec := erase_spec hR.wf he
        refine ⟨t', ?_⟩
        rw [hspec.had_eq, hR.lookup_eq k]
        congr 2
        rw [Bool.eq_iff_iff, Option.isSome_iff_exists, decide_eq_true_eq, Finmap.mem_iff]
  · intro k v
    rw [mem_forEach hR.wf, hR.lookup_eq]

/-- Three keys in one cluster that wraps past the end of the table; the first is
erased and the others shift back. -/
theorem flatHash_refines_map_wrapped :
    ∃ h t, Run (tableStep (fun _ => 7)) (init 8 : FlatHashU32 Nat) h t ∧
      t.keys 7 = 2 ∧ t.keys 0 = 3 ∧ t.keys 1 = kEmptyKey ∧
      (∀ k, (find (fun _ => 7) t k).1 = (h.foldl mapStep ∅).lookup k) ∧
      t.totalSize = (h.foldl mapStep ∅).keys.card := by
  have hex : execCheck (tableStep (fun _ => 7)) (init 8 : FlatHashU32 Nat)
      [.insert 1 10, .insert 2 20, .insert 3 30, .erase 1]
      (fun _ t => decide (t.keys 7 = 2 ∧ t.keys 0 = 3 ∧ t.keys 1 = kEmptyKey)) = true := by
    decide +kernel
  obtain ⟨h, t, hrun, hcheck⟩ := Run.of_execCheck hex
  obtain ⟨h7, h0, h1⟩ := of_decide_eq_true hcheck
  obtain ⟨hfind, -, -, -, hcard, -⟩ := flatHash_refines_map hrun
  exact ⟨h, t, hrun, h7, h0, h1, hfind, hcard⟩

/-- When a deletion returns, in any reachable table: the shift loop finishes for
some number of turns exactly under this condition. -/
theorem erase_returns_iff (hrun : Run (tableStep hash) (init capacity) h t) (k : UInt32) :
    (∃ fuel r, eraseFuel hash fuel t k = some r) ↔
      k = kEmptyKey ∨ t.size < t.capacity ∨ lookup hash t k = none := by
  have hw := (run_represents hrun).wf
  have hle := hw.size_le
  constructor
  · rintro ⟨fuel, r, hr⟩
    by_contra hno
    push Not at hno
    obtain ⟨hk, hfull, hlk⟩ := hno
    rw [eraseFuel_none hw hk (by omega) hlk fuel] at hr
    simp at hr
  · intro hcond
    cases he : erase hash t k with
    | none =>
        obtain ⟨hk, hfull, hlk⟩ := (erase_none_iff hw).mp he
        rcases hcond with hc | hc | hc
        · exact absurd hc hk
        · omega
        · exact absurd hc hlk
    | some r => exact ⟨t.capacity, r, he⟩

end FlatHashU32
end GtpMeter
