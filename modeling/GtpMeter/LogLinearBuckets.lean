import Mathlib.Algebra.Ring.Nat
import Mathlib.Data.Nat.Log

/-!
# Log-linear buckets

Numbers are put into buckets by their leading `k` binary digits and the number of digits
behind these, the shift.  Numbers of at most `k` digits have buckets of their own.  The
buckets are numbered `2 ^ k` for each shift, of which a shift other than 0 uses the upper
half.

**Results.**
* `index_mono`: larger numbers are in later buckets.
* `edge_eq_of_index_eq`, `index_edge`, `le_edge`: the upper edge is the largest number of
  a bucket.
* `precision_iff`: how far a number is from the edge of its bucket.
-/

namespace LogLinear

/-- How many digits are left out. -/
def shift (k v : Nat) : Nat :=
  v.log2 + 1 - k

/-- The number of the bucket of `v`. -/
def index (k v : Nat) : Nat :=
  shift k v * 2 ^ k + v / 2 ^ shift k v

/-- The largest number with the same leading digits. -/
def edge (k v : Nat) : Nat :=
  (v / 2 ^ shift k v + 1) * 2 ^ shift k v - 1

variable {k v w : Nat}

section Digits

theorem log2_mono (h : v ≤ w) : v.log2 ≤ w.log2 := by
  rw [Nat.log2_eq_log_two, Nat.log2_eq_log_two]
  exact Nat.log_mono_right h

theorem shift_mono (h : v ≤ w) : shift k v ≤ shift k w := by
  have hlog := log2_mono h
  unfold shift
  omega

theorem shift_le {n : Nat} (hk : 1 ≤ k) (h : v < 2 ^ (k + n)) : shift k v ≤ n := by
  by_cases hv : v = 0
  · rw [hv, shift, Nat.log2_zero]
    omega
  · have hlog : v.log2 < k + n := (Nat.log2_lt hv).mpr h
    unfold shift
    omega

/-- A shift other than 0 and the leading digits are all digits. -/
theorem pow_split (h : shift k v ≠ 0) : 2 ^ (v.log2 + 1) = 2 ^ k * 2 ^ shift k v := by
  rw [← Nat.pow_add]
  congr 1
  unfold shift at h ⊢
  omega

theorem lt_pow (k v : Nat) : v < 2 ^ k * 2 ^ shift k v := by
  by_cases h : shift k v = 0
  · have hle : v.log2 + 1 ≤ k := by
      unfold shift at h
      omega
    rw [h, Nat.pow_zero, Nat.mul_one]
    exact Nat.lt_of_lt_of_le Nat.lt_log2_self (Nat.pow_le_pow_right (by omega) hle)
  · rw [← pow_split h]
    exact Nat.lt_log2_self

theorem div_lt (k v : Nat) : v / 2 ^ shift k v < 2 ^ k := by
  rw [Nat.div_lt_iff_lt_mul (Nat.two_pow_pos _)]
  exact lt_pow k v

end Digits

section Index

theorem index_div (k v : Nat) : index k v / 2 ^ k = shift k v := by
  rw [index, Nat.mul_comm, Nat.mul_add_div (Nat.two_pow_pos k),
    Nat.div_eq_of_lt (div_lt k v), Nat.add_zero]

theorem index_mod (k v : Nat) : index k v % 2 ^ k = v / 2 ^ shift k v := by
  rw [index, Nat.mul_comm, Nat.mul_add_mod, Nat.mod_eq_of_lt (div_lt k v)]

theorem index_lt_next (k v : Nat) : index k v < (shift k v + 1) * 2 ^ k := by
  rw [Nat.succ_mul]
  exact Nat.add_lt_add_left (div_lt k v) _

theorem index_mono (h : v ≤ w) : index k v ≤ index k w := by
  rcases Nat.eq_or_lt_of_le (shift_mono (k := k) h) with heq | hlt
  · unfold index
    rw [heq]
    exact Nat.add_le_add_left (Nat.div_le_div_right h) _
  · -- the buckets of the smaller shift are all in front
    calc
      index k v ≤ (shift k v + 1) * 2 ^ k := Nat.le_of_lt (index_lt_next k v)
      _ ≤ shift k w * 2 ^ k := Nat.mul_le_mul_right _ hlt
      _ ≤ index k w := Nat.le_add_right _ _

end Index

section Edge

theorem edge_add_one (k v : Nat) : edge k v + 1 = (v / 2 ^ shift k v + 1) * 2 ^ shift k v := by
  have hpos : 0 < (v / 2 ^ shift k v + 1) * 2 ^ shift k v :=
    Nat.mul_pos (Nat.succ_pos _) (Nat.two_pow_pos _)
  unfold edge
  omega

/-- What is missing to the edge. -/
theorem add_eq_edge_add_one (k v : Nat) :
    v + 2 ^ shift k v = edge k v + 1 + v % 2 ^ shift k v := by
  have hdiv := Nat.div_add_mod v (2 ^ shift k v)
  rw [edge_add_one, Nat.succ_mul, Nat.mul_comm]
  omega

theorem le_edge (k v : Nat) : v ≤ edge k v := by
  have hmod : v % 2 ^ shift k v < 2 ^ shift k v := Nat.mod_lt _ (Nat.two_pow_pos _)
  have hadd := add_eq_edge_add_one k v
  omega

/-- Buckets of one number have one edge. -/
theorem edge_eq_of_index_eq (h : index k v = index k w) : edge k v = edge k w := by
  have hshift : shift k v = shift k w := by
    rw [← index_div, h, index_div]
  have hdiv : v / 2 ^ shift k v = w / 2 ^ shift k w := by
    rw [← index_mod, h, index_mod]
  rw [edge, edge, hdiv, hshift]

/-- The numbers up to the edge are in the bucket. -/
theorem index_eq_of_le_edge (h : v ≤ w) (hw : w ≤ edge k v) : index k w = index k v := by
  have hnext : w < (v / 2 ^ shift k v + 1) * 2 ^ shift k v := by
    rw [← edge_add_one]
    exact Nat.lt_succ_of_le hw
  have hshift : shift k w = shift k v := by
    refine Nat.le_antisymm ?_ (shift_mono h)
    by_cases hzero : shift k v = 0
    · rw [hzero, Nat.pow_zero, Nat.div_one, Nat.mul_one] at hnext
      have hvw : w = v := by omega
      rw [hvw]
    · -- all digits of the edge stand at the places of those of v
      have hedge : (v / 2 ^ shift k v + 1) * 2 ^ shift k v ≤ 2 ^ (v.log2 + 1) := by
        rw [pow_split hzero]
        exact Nat.mul_le_mul_right _ (div_lt k v)
      have hlog : w.log2 ≤ v.log2 := by
        by_cases hw0 : w = 0
        · rw [hw0, Nat.log2_zero]
          exact Nat.zero_le _
        · exact Nat.lt_succ_iff.mp ((Nat.log2_lt hw0).mpr (Nat.lt_of_lt_of_le hnext hedge))
      unfold shift
      omega
  have hdiv : w / 2 ^ shift k v = v / 2 ^ shift k v := by
    refine Nat.le_antisymm ?_ (Nat.div_le_div_right h)
    exact Nat.lt_succ_iff.mp ((Nat.div_lt_iff_lt_mul (Nat.two_pow_pos _)).mpr hnext)
  rw [index, index, hshift, hdiv]

theorem index_edge (k v : Nat) : index k (edge k v) = index k v :=
  index_eq_of_le_edge (le_edge k v) (Nat.le_refl _)

theorem edge_lt {n : Nat} (hk : 1 ≤ k) (h : v < 2 ^ (k + n)) : edge k v < 2 ^ (k + n) := by
  calc
    edge k v < (v / 2 ^ shift k v + 1) * 2 ^ shift k v := by
      rw [← edge_add_one]
      exact Nat.lt_succ_self _
    _ ≤ 2 ^ k * 2 ^ shift k v := Nat.mul_le_mul_right _ (div_lt k v)
    _ ≤ 2 ^ k * 2 ^ n :=
      Nat.mul_le_mul_left _ (Nat.pow_le_pow_right (by omega) (shift_le hk h))
    _ = 2 ^ (k + n) := (Nat.pow_add 2 k n).symm

theorem edge_mono (h : v ≤ w) : edge k v ≤ edge k w := by
  by_cases hw : w ≤ edge k v
  · rw [edge_eq_of_index_eq (index_eq_of_le_edge h hw)]
  · exact Nat.le_trans (Nat.le_of_not_le hw) (le_edge k w)

/-- The distance to the edge, the digits left out and 1 make up the bucket's width. -/
theorem edge_sub_add (k v : Nat) :
    edge k v - v + (v % 2 ^ shift k v + 1) = 2 ^ shift k v := by
  have hadd := add_eq_edge_add_one k v
  have hle := le_edge k v
  omega

/-- A number is at most a `2 ^ k`-th of itself below the edge of its bucket exactly if it is
high enough in the bucket. -/
theorem precision_iff (k v : Nat) :
    2 ^ k * (edge k v - v) ≤ v ↔
      2 ^ (v.log2 + 1) ≤ v + 2 ^ k * (v % 2 ^ shift k v + 1) := by
  have hwidth : 2 ^ k * (edge k v - v) + 2 ^ k * (v % 2 ^ shift k v + 1) =
      2 ^ k * 2 ^ shift k v := by
    rw [← Nat.mul_add, edge_sub_add]
  by_cases h : shift k v = 0
  · -- a bucket of one number
    have hpow : 2 ^ (v.log2 + 1) ≤ 2 ^ k := by
      refine Nat.pow_le_pow_right (by omega) ?_
      unfold shift at h
      omega
    rw [h, Nat.pow_zero, Nat.mod_one, Nat.zero_add, Nat.mul_one] at hwidth ⊢
    have hexact : 2 ^ k * (edge k v - v) = 0 := by omega
    constructor
    · intro _
      exact Nat.le_trans hpow (Nat.le_add_left _ _)
    · intro _
      rw [hexact]
      exact Nat.zero_le v
  · rw [pow_split h]
    omega

/-- Only half of the leading digits occur, so the distance can be up to twice as large. -/
theorem edge_sub_le (hk : 1 ≤ k) (v : Nat) : 2 ^ k * (edge k v - v) ≤ 2 * v := by
  have hwidth := edge_sub_add k v
  by_cases h : shift k v = 0
  · rw [h, Nat.pow_zero] at hwidth
    have hexact : edge k v - v = 0 := by omega
    rw [hexact, Nat.mul_zero]
    exact Nat.zero_le _
  · have hv : v ≠ 0 := by
      rintro rfl
      rw [shift, Nat.log2_zero] at h
      omega
    calc
      2 ^ k * (edge k v - v) ≤ 2 ^ k * 2 ^ shift k v := Nat.mul_le_mul_left _ (by omega)
      _ = 2 * 2 ^ v.log2 := by rw [← pow_split h, Nat.pow_succ, Nat.mul_comm]
      _ ≤ 2 * v := Nat.mul_le_mul_left _ (Nat.log2_self_le hv)

end Edge

end LogLinear
