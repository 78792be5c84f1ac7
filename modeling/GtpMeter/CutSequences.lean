import Mathlib.Data.List.Basic

/-!
# A sequence that is cut

Items are written one behind the other, each as a block of elements, and what was written
is cut off after some number of elements.  The items whose blocks lie wholly in front of
the cut come first, and behind them there may be part of one more block.

**Results.**
* `le_length_whole_iff`: which items lie in front of the cut.
* `take_flatMap`: what is left of the sequence.
* `rest_eq_zero_iff`: when the cut is between two blocks.
-/

namespace CutSequence

universe u v

variable {A : Type u} {B : Type v} (e : A → List B)

/-- The items whose blocks lie within the first `n` elements. -/
def whole : Nat → List A → List A
  | _, [] => []
  | n, a :: as => if (e a).length ≤ n then a :: whole (n - (e a).length) as else []

/-- How far the cut goes into the block behind these. -/
def rest : Nat → List A → Nat
  | _, [] => 0
  | n, a :: as => if (e a).length ≤ n then rest (n - (e a).length) as else n

variable {e} {n k : Nat} {a : A} {as : List A}

theorem whole_cons_of_le (h : (e a).length ≤ n) :
    whole e n (a :: as) = a :: whole e (n - (e a).length) as := by
  rw [whole, if_pos h]

theorem whole_cons_of_lt (h : n < (e a).length) : whole e n (a :: as) = [] := by
  rw [whole, if_neg (Nat.not_le.mpr h)]

theorem rest_cons_of_le (h : (e a).length ≤ n) :
    rest e n (a :: as) = rest e (n - (e a).length) as := by
  rw [rest, if_pos h]

theorem rest_cons_of_lt (h : n < (e a).length) : rest e n (a :: as) = n := by
  rw [rest, if_neg (Nat.not_le.mpr h)]

/-- An item is among them if its block ends in front of the cut. -/
theorem le_length_whole_iff (hk : k ≤ as.length) :
    k ≤ (whole e n as).length ↔ ((as.take k).flatMap e).length ≤ n := by
  induction as generalizing n k with
  | nil =>
      obtain rfl : k = 0 := Nat.le_zero.mp hk
      simp
  | cons a as ih =>
      cases k with
      | zero => simp
      | succ k =>
          rw [List.take_succ_cons, List.flatMap_cons, List.length_append]
          rcases Nat.lt_or_ge n (e a).length with hlt | hle
          · rw [whole_cons_of_lt hlt, List.length_nil]
            omega
          · rw [whole_cons_of_le hle, List.length_cons, Nat.succ_le_succ_iff,
              ih (Nat.le_of_succ_le_succ hk)]
            omega

/-- **What is left.**  The blocks of these items, and of the next one as much as there is
in front of the cut, which is not all of it. -/
theorem take_flatMap (n : Nat) (as : List A) :
    ∃ tail, (as.flatMap e).take n = (whole e n as).flatMap e ++ tail ∧
      tail.length = rest e n as ∧
      (tail = [] ∨ ∃ a ∈ as, tail <+: e a ∧ tail.length < (e a).length) := by
  induction as generalizing n with
  | nil => exact ⟨[], by simp [whole], rfl, .inl rfl⟩
  | cons a as ih =>
      rw [List.flatMap_cons]
      rcases Nat.lt_or_ge n (e a).length with hlt | hle
      · rw [whole_cons_of_lt hlt, rest_cons_of_lt hlt,
          List.take_append_of_le_length (Nat.le_of_lt hlt)]
        refine ⟨(e a).take n, rfl, List.length_take_of_le (Nat.le_of_lt hlt),
          .inr ⟨a, List.mem_cons_self, List.take_prefix n (e a), ?_⟩⟩
        rwa [List.length_take_of_le (Nat.le_of_lt hlt)]
      · obtain ⟨tail, htake, hlen, htail⟩ := ih (n - (e a).length)
        rw [whole_cons_of_le hle, rest_cons_of_le hle, List.take_append,
          List.take_of_length_le hle, htake, List.flatMap_cons]
        refine ⟨tail, (List.append_assoc _ _ _).symm, hlen, htail.imp_right ?_⟩
        rintro ⟨b, hb, hcut⟩
        exact ⟨b, List.mem_cons_of_mem a hb, hcut⟩

/-- The cut is between two blocks if nothing is left behind the whole ones. -/
theorem rest_eq_zero_iff (hn : n ≤ (as.flatMap e).length) :
    rest e n as = 0 ↔ ∃ k ≤ as.length, n = ((as.take k).flatMap e).length := by
  induction as generalizing n with
  | nil =>
      obtain rfl : n = 0 := Nat.le_zero.mp hn
      exact ⟨fun _ => ⟨0, Nat.le_refl _, rfl⟩, fun _ => rfl⟩
  | cons a as ih =>
      rw [List.flatMap_cons, List.length_append] at hn
      rcases Nat.lt_or_ge n (e a).length with hlt | hle
      · rw [rest_cons_of_lt hlt]
        constructor
        · rintro rfl
          exact ⟨0, Nat.zero_le _, rfl⟩
        · rintro ⟨_ | k, -, hk⟩
          · exact hk
          · rw [List.take_succ_cons, List.flatMap_cons, List.length_append] at hk
            omega
      · rw [rest_cons_of_le hle, ih (by omega)]
        constructor
        · rintro ⟨k, hk, hlen⟩
          refine ⟨k + 1, Nat.succ_le_succ hk, ?_⟩
          rw [List.take_succ_cons, List.flatMap_cons, List.length_append]
          omega
        · rintro ⟨_ | k, hk, hlen⟩
          · -- the block is empty and the cut in front of it
            exact ⟨0, Nat.zero_le _, by rw [hlen]; exact Nat.zero_sub _⟩
          · rw [List.take_succ_cons, List.flatMap_cons, List.length_append] at hlen
            exact ⟨k, Nat.le_of_succ_le_succ hk, by omega⟩

end CutSequence
