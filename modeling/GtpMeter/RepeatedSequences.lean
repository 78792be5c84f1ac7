import Mathlib.Data.List.Basic

/-!
# A sequence repeated without end

`cycled xs n` is what the first `n` places of `xs, xs, xs, …` hold.

**Results.**
* `cycled_succ`: the next place.
* `cycled_mul`: whole repetitions.
* `take_cycled`: fewer places are the front of more.
-/

namespace Repetition

universe u

variable {A : Type u} {xs : List A}

/-- The first `n` elements of `xs` repeated without end. -/
def cycled (xs : List A) (n : Nat) : List A :=
  (List.range n).filterMap fun i => xs[i % xs.length]?

theorem cycled_zero : cycled xs 0 = [] := rfl

theorem cycled_succ {n : Nat} {x : A} (hx : xs[n % xs.length]? = some x) :
    cycled xs (n + 1) = cycled xs n ++ [x] := by
  rw [cycled, List.range_succ, List.filterMap_append]
  simp [cycled, hx]

theorem length_cycled (hne : xs ≠ []) (n : Nat) : (cycled xs n).length = n := by
  induction n with
  | zero => rfl
  | succ n ih =>
      have hpos : 0 < xs.length := List.length_pos_iff.mpr hne
      have hlt : n % xs.length < xs.length := Nat.mod_lt n hpos
      rw [cycled_succ (List.getElem?_eq_getElem hlt), List.length_append, ih]
      rfl

theorem filterMap_getElem?_range (xs : List A) :
    (List.range xs.length).filterMap (fun i => xs[i]?) = xs := by
  induction xs with
  | nil => rfl
  | cons x xs ih =>
      have hfirst : (x :: xs)[0]? = some x := rfl
      rw [List.length_cons, List.range_succ_eq_map, List.filterMap_cons_some hfirst,
        List.filterMap_map]
      exact congrArg (x :: ·) ih

/-- One more repetition behind whole ones. -/
theorem cycled_add_length (k : Nat) :
    cycled xs (k * xs.length + xs.length) = cycled xs (k * xs.length) ++ xs := by
  rw [cycled, List.range_add, List.filterMap_append, List.filterMap_map]
  have hmod : ∀ i ∈ List.range xs.length,
      ((fun i => xs[i % xs.length]?) ∘ fun i => k * xs.length + i) i = xs[i]? := by
    intro i hi
    have hlt : i < xs.length := List.mem_range.mp hi
    rw [Function.comp_apply, Nat.add_comm, Nat.add_mul_mod_self_right, Nat.mod_eq_of_lt hlt]
  rw [List.filterMap_congr hmod, filterMap_getElem?_range]
  rfl

theorem cycled_mul (k : Nat) :
    cycled xs (k * xs.length) = (List.replicate k xs).flatten := by
  induction k with
  | zero =>
      rw [Nat.zero_mul]
      rfl
  | succ k ih =>
      rw [Nat.succ_mul, cycled_add_length, ih, List.replicate_succ', List.flatten_append,
        List.flatten_singleton]

theorem cycled_add (xs : List A) (n m : Nat) : ∃ rest, cycled xs (n + m) = cycled xs n ++ rest := by
  rw [cycled, List.range_add, List.filterMap_append]
  exact ⟨_, rfl⟩

/-- Fewer places are the front of more. -/
theorem take_cycled (hne : xs ≠ []) (n m : Nat) :
    (cycled xs m).take n = cycled xs (min n m) := by
  obtain ⟨d, hd⟩ := Nat.exists_eq_add_of_le (Nat.min_le_right n m)
  obtain ⟨rest, hrest⟩ := cycled_add xs (min n m) d
  rw [List.take_eq_take_min, length_cycled hne]
  nth_rewrite 2 [hd]
  rw [hrest, List.take_left' (length_cycled hne _)]

end Repetition
