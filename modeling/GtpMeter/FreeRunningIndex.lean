import Mathlib.Algebra.Order.Ring.Nat
import Mathlib.Data.Nat.ModEq

/-!
# Free-running indices

Two counters that only grow are kept in 64-bit words, which may wrap.  As long as
the counters are less than `2 ^ 64` apart, their difference and whether they are
equal can be read off the words.  The low `k` bits of a counter choose a cell of an
array of `2 ^ k` cells, and counters less than `2 ^ k` apart choose different cells.
-/

namespace GtpMeter
namespace FreeRunning

/-- The difference of two counters, from their words. -/
theorem toNat_sub {a b : Nat} (hle : b ≤ a) (hnear : a - b < 2 ^ 64) :
    (UInt64.ofNat a - UInt64.ofNat b).toNat = a - b := by
  rw [← UInt64.ofNat_sub hle]
  exact UInt64.toNat_ofNat_of_lt' hnear

/-- Whether two counters are equal, from their words. -/
theorem ofNat_eq_iff {a b : Nat} (hle : b ≤ a) (hnear : a - b < 2 ^ 64) :
    UInt64.ofNat a = UInt64.ofNat b ↔ a = b := by
  constructor
  · intro heq
    have hsub := toNat_sub hle hnear
    rw [heq, UInt64.sub_self] at hsub
    have hzero : (0 : UInt64).toNat = 0 := rfl
    omega
  · rintro rfl
    rfl

/-- The cell that a counter chooses. -/
def cell (k n : Nat) : UInt64 :=
  UInt64.ofNat n &&& (UInt64.ofNat (2 ^ k) - 1)

theorem toNat_cell {k : Nat} (hk : k < 64) (n : Nat) : (cell k n).toNat = n % 2 ^ k := by
  have hpow : 2 ^ k < 2 ^ 64 := Nat.pow_lt_pow_right (by decide) hk
  have hone : (UInt64.ofNat (2 ^ k) - 1).toNat = 2 ^ k - 1 :=
    toNat_sub (b := 1) Nat.one_le_two_pow (by omega)
  have hdvd : 2 ^ k ∣ 2 ^ 64 := Nat.pow_dvd_pow 2 (Nat.le_of_lt hk)
  unfold cell
  rw [UInt64.toNat_and, hone, Nat.and_two_pow_sub_one_eq_mod, UInt64.toNat_ofNat']
  exact Nat.mod_mod_of_dvd n hdvd

theorem cell_ne {k : Nat} (hk : k < 64) {i j : Nat} (hlt : i < j) (hnear : j < i + 2 ^ k) :
    cell k i ≠ cell k j := by
  intro heq
  have hmod : i % 2 ^ k = j % 2 ^ k := by
    rw [← toNat_cell hk, ← toNat_cell hk, heq]
  have hdvd : 2 ^ k ∣ j - i := (Nat.modEq_iff_dvd' (Nat.le_of_lt hlt)).mp hmod
  have hle := Nat.le_of_dvd (by omega) hdvd
  omega

end FreeRunning
end GtpMeter
