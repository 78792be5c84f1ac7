import Mathlib.Algebra.Ring.Nat
import Mathlib.Data.List.Basic
import Mathlib.Data.List.Count

/-!
# Ranks from tallies

Of a sequence of numbers only a tally is kept: how often each of them occurred.  A scan
adds up the tally until a given rank is reached.

**Results.**
* `tally_concat`: a new number raises one entry.
* `scan_tally`: the scan stops at the number of that rank.
-/

namespace RankScan

section Scan

/-- The first index at which the running total reaches `target` and there is something to
count; with the total and the index so far. -/
def scan (target : Nat) : Nat → Nat → List Nat → Option Nat
  | _, _, [] => none
  | cumulative, i, c :: counts =>
      if cumulative + c ≥ target ∧ c ≠ 0 then some i
      else scan target (cumulative + c) (i + 1) counts

/-- The scan stops where the total passes from below `target`. -/
theorem scan_eq {target : Nat} {counts : List Nat} :
    ∀ {cumulative base i : Nat}, i < counts.length →
      cumulative + (counts.take i).sum < target →
      target ≤ cumulative + (counts.take (i + 1)).sum →
      scan target cumulative base counts = some (base + i) := by
  induction counts with
  | nil =>
      intro cumulative base i hi
      exact absurd hi (Nat.not_lt_zero i)
  | cons c counts ih =>
      intro cumulative base i hi hbelow hreach
      cases i with
      | zero =>
          rw [List.take_zero, List.sum_nil] at hbelow
          rw [List.take_succ_cons, List.take_zero, List.sum_cons, List.sum_nil] at hreach
          rw [scan, if_pos ⟨by omega, by omega⟩]
          rfl
      | succ i =>
          rw [List.take_succ_cons, List.sum_cons, ← Nat.add_assoc] at hbelow hreach
          have hfirst : ¬(cumulative + c ≥ target ∧ c ≠ 0) := by
            intro hstop
            omega
          rw [scan, if_neg hfirst, ih (Nat.lt_of_succ_lt_succ hi) hbelow hreach]
          congr 1
          omega

end Scan

section Tally

/-- How often each number below `n` occurs. -/
def tally (n : Nat) (xs : List Nat) : List Nat :=
  (List.range n).map fun i => xs.count i

variable {n : Nat} {xs : List Nat}

@[simp] theorem length_tally : (tally n xs).length = n := by
  rw [tally, List.length_map, List.length_range]

theorem tally_nil : tally n [] = List.replicate n 0 := by
  rw [List.eq_replicate_iff]
  refine ⟨length_tally, ?_⟩
  intro c hc
  obtain ⟨i, -, rfl⟩ := List.mem_map.mp hc
  exact List.count_nil

theorem tally_concat (x : Nat) :
    (tally n xs).modify x (· + 1) = tally n (xs ++ [x]) := by
  refine List.ext_getElem (by simp) ?_
  intro i hi hi'
  rw [List.getElem_modify]
  simp only [tally, List.getElem_map, List.getElem_range, List.count_append,
    List.count_singleton, beq_iff_eq]
  split_ifs <;> simp

theorem countP_lt_succ (xs : List Nat) (i : Nat) :
    xs.countP (· < i + 1) = xs.countP (· < i) + xs.count i := by
  induction xs with
  | nil => rfl
  | cons x xs ih =>
      rw [List.countP_cons, List.countP_cons, List.count_cons, ih]
      simp only [decide_eq_true_eq, beq_iff_eq]
      split_ifs <;> omega

/-- The entries of the smaller numbers add up. -/
theorem sum_take_tally {i : Nat} (hi : i ≤ n) :
    ((tally n xs).take i).sum = xs.countP (· < i) := by
  induction i with
  | zero => simp
  | succ i ih =>
      have hlt : i < (tally n xs).length := by
        rw [length_tally]
        exact hi
      have hentry : (tally n xs).get ⟨i, hlt⟩ = xs.count i := by
        simp [tally]
      rw [List.take_succ_eq_append_getElem hlt, List.sum_append, ih (Nat.le_of_succ_le hi),
        List.sum_singleton, countP_lt_succ]
      exact congrArg _ hentry

end Tally

section Rank

variable {n r x : Nat} {xs sorted : List Nat}

/-- In ascending order, fewer than `r` numbers are smaller than the one of rank `r`, and at
least `r` are not larger. -/
theorem rank_bounds (hsorted : sorted.Pairwise (· ≤ ·)) (hr : 1 ≤ r)
    (hx : sorted[r - 1]? = some x) :
    sorted.countP (· < x) < r ∧ r ≤ sorted.countP (· < x + 1) := by
  obtain ⟨hlt, hget⟩ := List.getElem?_eq_some_iff.mp hx
  -- cut the list at the rank
  have hcut : sorted = sorted.take (r - 1) ++ x :: sorted.drop r := by
    have hdrop : sorted.drop (r - 1) = x :: sorted.drop r := by
      rw [List.drop_eq_getElem_cons hlt, hget]
      congr 2
      omega
    rw [← hdrop, List.take_append_drop]
  have hlen : (sorted.take (r - 1)).length = r - 1 := by
    rw [List.length_take]
    omega
  rw [hcut] at hsorted ⊢
  generalize sorted.take (r - 1) = pre at hsorted hlen ⊢
  generalize sorted.drop r = post at hsorted ⊢
  obtain ⟨-, hpost, hpre⟩ := List.pairwise_append.mp hsorted
  have hpostge : ∀ y ∈ post, x ≤ y := (List.pairwise_cons.mp hpost).1
  have hprele : ∀ y ∈ pre, y ≤ x := fun y hy => hpre y hy x List.mem_cons_self
  constructor
  · have hnone : post.countP (· < x) = 0 := by
      rw [List.countP_eq_zero]
      intro y hy
      simpa using hpostge y hy
    have hle : pre.countP (· < x) ≤ pre.length := List.countP_le_length
    rw [List.countP_append, List.countP_cons, hnone]
    simp only [Nat.lt_irrefl, decide_false, Bool.false_eq_true, if_false]
    omega
  · have hall : pre.countP (· < x + 1) = pre.length := by
      rw [List.countP_eq_length]
      intro y hy
      simpa using Nat.lt_succ_of_le (hprele y hy)
    rw [List.countP_append, List.countP_cons, hall]
    simp only [Nat.lt_succ_self, decide_true, if_true]
    omega

/-- **Ranks.**  The scan of a tally for a rank stops at the number of that rank. -/
theorem scan_tally (hperm : sorted.Perm xs) (hsorted : sorted.Pairwise (· ≤ ·))
    (hbelow : ∀ y ∈ xs, y < n) (hr : 1 ≤ r) (hx : sorted[r - 1]? = some x) :
    scan r 0 0 (tally n xs) = some x := by
  obtain ⟨hless, hmore⟩ := rank_bounds hsorted hr hx
  have hlt : x < n := hbelow x (hperm.mem_iff.mp (List.mem_of_getElem? hx))
  rw [hperm.countP_eq] at hless hmore
  have hstop : scan r 0 0 (tally n xs) = some (0 + x) := by
    apply scan_eq
    · rwa [length_tally]
    · rwa [sum_take_tally (Nat.le_of_lt hlt), Nat.zero_add]
    · rwa [sum_take_tally hlt, Nat.zero_add]
  rwa [Nat.zero_add] at hstop

end Rank

end RankScan
