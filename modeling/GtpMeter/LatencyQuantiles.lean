import GtpMeter.Histogram
import GtpMeter.LogLinearBuckets
import GtpMeter.RankScan
import Mathlib.Data.List.Sort

/-!
# What the latency histogram reports

For values below `2 ^ 47` the buckets are those of `LogLinear` with eight leading digits.
The scan of `quantile` therefore finds the bucket of the value of a given rank, and reports
the upper edge of it.

Of the 256 sub-buckets of a magnitude, only the upper 128 can be reached.  The edge of a
bucket can be nearly a 128th above a value, not only a 256th.

**Results.**
* `quantile_not_optimistic`: the value reported for a rank.
* `edge_precision_iff`: when a value is within a 256th of what is reported for it.
-/

namespace GtpMeter
namespace Histogram

open LogLinear

section Buckets

variable {v w : UInt64}

theorem shift_amount {c : Nat} (hc : c < 64) : (UInt64.ofNat c).toNat % 64 = c := by
  rw [UInt64.toNat_ofNat', Nat.mod_eq_of_lt (by omega : c < 2 ^ 64), Nat.mod_eq_of_lt hc]

/-- The digits in front of the last `c`, as many as a sub-bucket has. -/
theorem subBucket_toNat {c : Nat} (hc : c < 64) (v : UInt64) :
    ((v >>> UInt64.ofNat c) &&& UInt64.ofNat (kSubBucketCount - 1)).toNat =
      v.toNat / 2 ^ c % kSubBucketCount := by
  have hmask : (UInt64.ofNat (kSubBucketCount - 1)).toNat = 2 ^ kSubBucketBits - 1 := rfl
  rw [UInt64.toNat_and, UInt64.toNat_shiftRight, shift_amount hc, hmask,
    Nat.and_two_pow_sub_one_eq_mod, Nat.shiftRight_eq_div_pow]
  rfl

theorem msb_eq (hv : v ≠ 0) : 63 - countlZero v = v.toNat.log2 := by
  have hne : v.toNat ≠ 0 := fun hzero => hv (UInt64.toNat_inj.mp hzero)
  have hlt : v.toNat.log2 < 64 := (Nat.log2_lt hne).mpr v.toNat_lt
  rw [countlZero, if_neg hv]
  omega

theorem indexFor_large (hv : ¬v.toNat < kSubBucketCount) :
    indexFor v =
      Nat.min (shift kSubBucketBits v.toNat) (kBucketCount - 1) * kSubBucketCount +
        v.toNat / 2 ^ Nat.min (shift kSubBucketBits v.toNat) (kBucketCount - 1) %
          kSubBucketCount := by
  have hne : v.toNat ≠ 0 := by
    intro hzero
    rw [hzero] at hv
    exact hv (Nat.two_pow_pos _)
  have hlog : kSubBucketBits ≤ v.toNat.log2 :=
    (Nat.le_log2 hne).mpr (Nat.le_of_not_lt hv)
  have hbucket : v.toNat.log2 - kSubBucketBits + 1 = shift kSubBucketBits v.toNat := by
    unfold shift
    omega
  have hv0 : v ≠ 0 := fun hzero => hne (by rw [hzero]; rfl)
  rw [indexFor, if_neg hv]
  dsimp only
  rw [msb_eq hv0, hbucket, subBucket_toNat]
  exact Nat.lt_of_le_of_lt (Nat.min_le_right _ _) (by decide)

theorem indexFor_lt (v : UInt64) : indexFor v < kBucketCount * kSubBucketCount := by
  by_cases hv : v.toNat < kSubBucketCount
  · rw [indexFor, if_pos hv]
    exact Nat.lt_of_lt_of_le hv (by decide)
  · rw [indexFor_large hv]
    have hclamp : Nat.min (shift kSubBucketBits v.toNat) (kBucketCount - 1) + 1 ≤ kBucketCount :=
      Nat.succ_le_succ (Nat.min_le_right _ _)
    have hsub : v.toNat / 2 ^ Nat.min (shift kSubBucketBits v.toNat) (kBucketCount - 1) %
        kSubBucketCount < kSubBucketCount := Nat.mod_lt _ (Nat.two_pow_pos _)
    have hrow := Nat.mul_le_mul_right kSubBucketCount hclamp
    rw [Nat.succ_mul] at hrow
    omega

theorem indexFor_eq (hv : v.toNat < 2 ^ 47) : indexFor v = index kSubBucketBits v.toNat := by
  by_cases hsmall : v.toNat < kSubBucketCount
  · have hshift : shift kSubBucketBits v.toNat = 0 :=
      Nat.le_zero.mp (shift_le (by decide) hsmall)
    rw [indexFor, if_pos hsmall, index, hshift]
    simp
  · have hle : shift kSubBucketBits v.toNat ≤ kBucketCount - 1 := shift_le (by decide) hv
    have hmin : Nat.min (shift kSubBucketBits v.toNat) (kBucketCount - 1) =
      shift kSubBucketBits v.toNat := Nat.min_eq_left hle
    have hsub : v.toNat / 2 ^ shift kSubBucketBits v.toNat < kSubBucketCount := div_lt _ _
    rw [indexFor_large hsmall, hmin, Nat.mod_eq_of_lt hsub]
    rfl

theorem valueAtUpperEdge_toNat {i : Nat} (hi : i < kBucketCount * kSubBucketCount) :
    (valueAtUpperEdge i).toNat =
      (i % kSubBucketCount + 1) * 2 ^ (i / kSubBucketCount) - 1 := by
  have hpos : 0 < kSubBucketCount := Nat.two_pow_pos _
  have hbucket : i / kSubBucketCount < kBucketCount := (Nat.div_lt_iff_lt_mul hpos).mpr hi
  have hsub : i % kSubBucketCount < kSubBucketCount := Nat.mod_lt _ hpos
  unfold valueAtUpperEdge
  generalize i / kSubBucketCount = bucket at hbucket ⊢
  generalize i % kSubBucketCount = sub at hsub ⊢
  have hsub256 : sub < 256 := hsub
  have hbucket40 : bucket < 40 := hbucket
  have hsubNat : (UInt64.ofNat sub).toNat = sub := by
    rw [UInt64.toNat_ofNat', Nat.mod_eq_of_lt (by omega)]
  dsimp only
  split_ifs with hzero
  · rw [hzero, hsubNat, Nat.pow_zero, Nat.mul_one]
    rfl
  · have hone : (UInt64.ofNat sub + 1).toNat = sub + 1 := by
      rw [UInt64.toNat_add, hsubNat, UInt64.toNat_one]
      exact Nat.mod_eq_of_lt (by omega)
    have hfits : (sub + 1) * 2 ^ bucket < 2 ^ 64 := by
      calc
        (sub + 1) * 2 ^ bucket ≤ 256 * 2 ^ 39 :=
          Nat.mul_le_mul hsub256 (Nat.pow_le_pow_right (by omega) (by omega))
        _ < 2 ^ 64 := by decide
    have hshifted : ((UInt64.ofNat sub + 1) <<< UInt64.ofNat bucket).toNat =
        (sub + 1) * 2 ^ bucket := by
      rw [UInt64.toNat_shiftLeft, hone, shift_amount (by omega), Nat.shiftLeft_eq,
        Nat.mod_eq_of_lt hfits]
    have hpos : 1 ≤ (sub + 1) * 2 ^ bucket :=
      Nat.mul_pos (Nat.succ_pos _) (Nat.two_pow_pos _)
    have hle : (1 : UInt64) ≤ (UInt64.ofNat sub + 1) <<< UInt64.ofNat bucket := by
      rw [UInt64.le_iff_toNat_le, hshifted]
      exact hpos
    rw [UInt64.toNat_sub_of_le _ _ hle, hshifted]
    rfl

theorem upper_edge_eq (hv : v.toNat < 2 ^ 47) :
    (valueAtUpperEdge (indexFor v)).toNat = edge kSubBucketBits v.toNat := by
  rw [valueAtUpperEdge_toNat (indexFor_lt v), indexFor_eq hv, kSubBucketCount, index_mod,
    index_div]
  rfl

end Buckets

section Recording

open RankScan

variable {h h' : Histogram} {v : UInt64} {values : List UInt64}

/-- The counts are a tally of the buckets of the recorded values, in 64 bits. -/
structure Tallies (values : List UInt64) (h : Histogram) : Prop where
  counts_eq : h.counts =
    (tally (kBucketCount * kSubBucketCount) (values.map indexFor)).map UInt64.ofNat
  total_eq : h.total = UInt64.ofNat values.length

theorem tallies_init : Tallies [] init where
  counts_eq := by
    rw [List.map_nil, tally_nil, List.map_replicate]
    rfl
  total_eq := rfl

theorem Tallies.length_counts (ht : Tallies values h) :
    h.counts.length = kBucketCount * kSubBucketCount := by
  rw [ht.counts_eq, List.length_map, length_tally]

/-- A counter goes up by one, in 64 bits. -/
theorem modify_ofNat (counts : List Nat) (i : Nat) :
    (counts.map UInt64.ofNat).modify i (· + 1) = (counts.modify i (· + 1)).map UInt64.ofNat := by
  refine List.ext_getElem (by simp) ?_
  intro k hk hk'
  simp only [List.getElem_modify, List.getElem_map]
  split_ifs
  · exact (UInt64.ofNat_add _ _).symm
  · rfl

/-- A value is counted. -/
theorem Tallies.record (ht : Tallies values h) (v : UInt64) :
    ∃ h', h.record v = .ok h' ∧ Tallies (values ++ [v]) h' := by
  have hlt : indexFor v < h.counts.length := by
    rw [ht.length_counts]
    exact indexFor_lt v
  refine ⟨_, by rw [Histogram.record, if_pos hlt], ?_, ?_⟩
  · rw [List.map_append, List.map_singleton, ← tally_concat, ← modify_ofNat, ← ht.counts_eq]
  · rw [List.length_append, UInt64.ofNat_add, ← ht.total_eq]
    rfl

/-- All values are counted. -/
theorem Tallies.recordAll (more : List UInt64) :
    ∀ (values : List UInt64) (h : Histogram), Tallies values h →
      ∃ h', more.foldlM Histogram.record h = .ok h' ∧ Tallies (values ++ more) h' := by
  induction more with
  | nil =>
      intro values h ht
      exact ⟨h, rfl, by rwa [List.append_nil]⟩
  | cons v more ih =>
      intro values h ht
      obtain ⟨h₁, hrecord, ht₁⟩ := ht.record v
      obtain ⟨h', hall, ht'⟩ := ih (values ++ [v]) h₁ ht₁
      refine ⟨h', ?_, ?_⟩
      · rw [List.foldlM_cons, hrecord]
        exact hall
      · rwa [List.append_assoc] at ht'

end Recording

section Quantiles

open RankScan

variable {h : Histogram} {values sorted : List UInt64} {r x y : UInt64}

theorem toNat_ofNat_of_lt {n : Nat} (hn : n < 2 ^ 64) : (UInt64.ofNat n).toNat = n := by
  rw [UInt64.toNat_ofNat', Nat.mod_eq_of_lt hn]

/-- The loop does not overflow if all counts together do not. -/
theorem scan_ofNat {counts : List Nat} :
    ∀ {cumulative i : Nat}, cumulative + counts.sum < 2 ^ 64 →
      scan r (UInt64.ofNat cumulative) i (counts.map UInt64.ofNat) =
        RankScan.scan r.toNat cumulative i counts := by
  induction counts with
  | nil => intros; rfl
  | cons c counts ih =>
      intro cumulative i hfits
      rw [List.sum_cons, ← Nat.add_assoc] at hfits
      have hreach : UInt64.ofNat (cumulative + c) ≥ r ∧ UInt64.ofNat c ≠ 0 ↔
          cumulative + c ≥ r.toNat ∧ c ≠ 0 := by
        rw [ge_iff_le, UInt64.le_iff_toNat_le, toNat_ofNat_of_lt (by omega), Ne,
          ← UInt64.toNat_inj, toNat_ofNat_of_lt (by omega)]
        rfl
      rw [List.map_cons, scan, RankScan.scan, ← UInt64.ofNat_add]
      simp only [hreach, ih hfits]

/-- The scan for a rank returns the upper edge of the bucket of the value of that rank. -/
theorem Tallies.quantileAt_eq (ht : Tallies values h) (hfew : values.length < 2 ^ 64)
    (hbelow : ∀ v ∈ values, v.toNat < 2 ^ 47)
    (hperm : sorted.Perm values) (hsorted : sorted.Pairwise (· ≤ ·)) (hr : 1 ≤ r.toNat)
    (hx : sorted[r.toNat - 1]? = some x) : h.quantileAt r = valueAtUpperEdge (indexFor x) := by
  have hbuckets : (sorted.map indexFor).Pairwise (· ≤ ·) := by
    rw [List.pairwise_map]
    refine hsorted.imp_of_mem ?_
    intro a b ha hb hab
    rw [indexFor_eq (hbelow a (hperm.mem_iff.mp ha)), indexFor_eq (hbelow b (hperm.mem_iff.mp hb))]
    exact index_mono (UInt64.le_iff_toNat_le.mp hab)
  have hrank : (sorted.map indexFor)[r.toNat - 1]? = some (indexFor x) := by
    rw [List.getElem?_map, hx]
    rfl
  have hin : ∀ i ∈ values.map indexFor, i < kBucketCount * kSubBucketCount := by
    intro i hi
    obtain ⟨v, -, rfl⟩ := List.mem_map.mp hi
    exact indexFor_lt v
  have hscan := scan_tally (hperm.map indexFor) hbuckets hin hr hrank
  have htotal : h.total ≠ 0 := by
    intro hzero
    have hmem := hperm.mem_iff.mp (List.mem_of_getElem? hx)
    have hempty := congrArg UInt64.toNat (ht.total_eq.symm.trans hzero)
    rw [toNat_ofNat_of_lt hfew] at hempty
    rw [List.length_eq_zero_iff.mp hempty] at hmem
    cases hmem
  have hsum : (tally (kBucketCount * kSubBucketCount) (values.map indexFor)).sum ≤
      values.length := by
    rw [← List.take_length (l := tally _ _), length_tally, sum_take_tally (Nat.le_refl _)]
    exact List.countP_le_length.trans_eq (List.length_map _)
  have hloop : scan r (UInt64.ofNat 0) 0 h.counts = some (indexFor x) := by
    rw [ht.counts_eq, scan_ofNat (by omega), hscan]
  rw [quantileAt, if_neg htotal, show (0 : UInt64) = UInt64.ofNat 0 from rfl, hloop]

/-- The upper edge of a bucket is its largest value. -/
theorem upper_edge_greatest (hx : x.toNat < 2 ^ 47) :
    indexFor (valueAtUpperEdge (indexFor x)) = indexFor x ∧
      ∀ w : UInt64, w.toNat < 2 ^ 47 → indexFor w = indexFor x →
        w ≤ valueAtUpperEdge (indexFor x) := by
  have hedge := upper_edge_eq hx
  constructor
  · have hlt : (valueAtUpperEdge (indexFor x)).toNat < 2 ^ 47 := by
      rw [hedge]
      exact edge_lt (k := kSubBucketBits) (n := kBucketCount - 1) (by decide) hx
    rw [indexFor_eq hlt, hedge, index_edge, indexFor_eq hx]
  · intro w hw hsame
    rw [indexFor_eq hw, indexFor_eq hx] at hsame
    rw [UInt64.le_iff_toNat_le, hedge, ← edge_eq_of_index_eq hsame]
    exact le_edge _ _

theorem upper_edge_mono (hx : x.toNat < 2 ^ 47) (hy : y.toNat < 2 ^ 47) (hxy : x ≤ y) :
    valueAtUpperEdge (indexFor x) ≤ valueAtUpperEdge (indexFor y) := by
  rw [UInt64.le_iff_toNat_le, upper_edge_eq hx, upper_edge_eq hy]
  exact edge_mono (UInt64.le_iff_toNat_le.mp hxy)

/-- Values in ascending order grow with their rank. -/
theorem rank_mono (hsorted : sorted.Pairwise (· ≤ ·)) {i j : Nat} (hij : i ≤ j)
    (hx : sorted[i]? = some x) (hy : sorted[j]? = some y) : x ≤ y := by
  rcases Nat.eq_or_lt_of_le hij with heq | hlt
  · rw [heq, hy] at hx
    obtain rfl := Option.some.inj hx
    exact UInt64.le_refl y
  · obtain ⟨hi, rfl⟩ := List.getElem?_eq_some_iff.mp hx
    obtain ⟨hj, rfl⟩ := List.getElem?_eq_some_iff.mp hy
    exact List.pairwise_iff_getElem.mp hsorted i j hi hj hlt

/-- **Quantiles are never optimistic.**  After any values below `2 ^ 47` have been recorded,
fewer than `2 ^ 64` of them, the scan for a rank returns the upper edge of the bucket of
the value of that rank, which is the largest value of the bucket, and grows with the
rank. -/
theorem quantile_not_optimistic (values : List UInt64) (hfew : values.length < 2 ^ 64)
    (hbelow : ∀ v ∈ values, v.toNat < 2 ^ 47) :
    ∃ h, values.foldlM Histogram.record init = .ok h ∧ h.count.toNat = values.length ∧
      (∀ v, indexFor v < h.counts.length) ∧
      ∀ r, 1 ≤ r → r ≤ h.count →
        (∃ x, (values.insertionSort (· ≤ ·))[r.toNat - 1]? = some x ∧ x ≤ h.quantileAt r ∧
          h.quantileAt r = valueAtUpperEdge (indexFor x) ∧
          indexFor (h.quantileAt r) = indexFor x ∧
          ∀ w : UInt64, w.toNat < 2 ^ 47 → indexFor w = indexFor x → w ≤ h.quantileAt r) ∧
        ∀ r', r ≤ r' → r' ≤ h.count → h.quantileAt r ≤ h.quantileAt r' := by
  obtain ⟨h, hall, ht⟩ := Tallies.recordAll values [] init tallies_init
  rw [List.nil_append] at ht
  have hcount : h.count.toNat = values.length := by
    rw [Histogram.count, ht.total_eq, toNat_ofNat_of_lt hfew]
  have hperm : (values.insertionSort (· ≤ ·)).Perm values := List.perm_insertionSort _ _
  have hsorted : (values.insertionSort (· ≤ ·)).Pairwise (· ≤ ·) :=
    List.pairwise_insertionSort _ _
  -- the value of a rank, and what the scan returns for it
  have hrank : ∀ r, 1 ≤ r → r ≤ h.count →
      ∃ x, (values.insertionSort (· ≤ ·))[r.toNat - 1]? = some x ∧ x.toNat < 2 ^ 47 ∧
        h.quantileAt r = valueAtUpperEdge (indexFor x) := by
    intro r hr hle
    have hr' : 1 ≤ r.toNat := UInt64.le_iff_toNat_le.mp hr
    have hlt : r.toNat - 1 < (values.insertionSort (· ≤ ·)).length := by
      rw [hperm.length_eq, ← hcount]
      exact Nat.lt_of_lt_of_le (Nat.sub_lt hr' Nat.one_pos) (UInt64.le_iff_toNat_le.mp hle)
    have hx := List.getElem?_eq_getElem hlt
    refine ⟨_, hx, ?_, ht.quantileAt_eq hfew hbelow hperm hsorted hr' hx⟩
    exact hbelow _ (hperm.mem_iff.mp (List.mem_of_getElem? hx))
  refine ⟨h, hall, hcount, ?_, ?_⟩
  · intro v
    rw [ht.length_counts]
    exact indexFor_lt v
  · intro r hr hle
    obtain ⟨x, hx, hlt, hq⟩ := hrank r hr hle
    constructor
    · obtain ⟨hbucket, hgreatest⟩ := upper_edge_greatest hlt
      rw [hq]
      exact ⟨x, hx, hgreatest x hlt rfl, rfl, hbucket, hgreatest⟩
    · intro r' hrr' hle'
      obtain ⟨x', hx', hlt', hq'⟩ := hrank r' (UInt64.le_trans hr hrr') hle'
      rw [hq, hq']
      exact upper_edge_mono hlt hlt'
        (rank_mono hsorted (Nat.sub_le_sub_right (UInt64.le_iff_toNat_le.mp hrr') 1) hx hx')

/-- Of three values the second smallest is 300, and 301 is reported. -/
theorem quantile_not_optimistic_three :
    ∃ h, ([1000, 300, 5] : List UInt64).foldlM Histogram.record init = .ok h ∧
      h.count = 3 ∧ h.quantileAt 2 = 301 := by
  obtain ⟨h, hall, hcount, -, hranks⟩ :=
    quantile_not_optimistic [1000, 300, 5] (by decide) (by simp)
  have hthree : h.count = 3 := UInt64.toNat_inj.mp hcount
  obtain ⟨⟨x, hx, -, hq, -⟩, -⟩ := hranks 2 (by decide) (by rw [hthree]; decide)
  have hsecond : (([1000, 300, 5] : List UInt64).insertionSort (· ≤ ·))[2 - 1]? = some 300 := by
    decide
  obtain rfl : 300 = x := Option.some.inj (hsecond.symm.trans hx)
  refine ⟨h, hall, hthree, ?_⟩
  rw [hq]
  decide

end Quantiles

section Precision

/-- **Precision.**  The reported edge of a value is at most a 256th of the value above it
exactly if the value is high enough in its bucket. -/
theorem edge_precision_iff (v : UInt64) (hv : v.toNat < 2 ^ 47) :
    256 * ((valueAtUpperEdge (indexFor v)).toNat - v.toNat) ≤ v.toNat ↔
      2 ^ (v.toNat.log2 + 1) ≤ v.toNat + 256 * (v.toNat % 2 ^ (v.toNat.log2 - 7) + 1) := by
  rw [upper_edge_eq hv]
  exact precision_iff kSubBucketBits v.toNat

/-- The highest value of a bucket of four numbers. -/
theorem edge_precision_iff_last :
    256 * ((valueAtUpperEdge (indexFor 515)).toNat - 515) ≤ 515 :=
  (edge_precision_iff 515 (by decide)).mpr (by decide)

/-- The edge of the bucket of 512 is 515, which is 3 above it; a 256th of 512 is 2. -/
theorem edge_not_precise :
    (valueAtUpperEdge (indexFor 512)).toNat = 515 ∧
      ¬256 * ((valueAtUpperEdge (indexFor 512)).toNat - 512) ≤ 512 := by
  decide

/-- Every value is within a 128th of the edge. -/
theorem edge_within_128th {v : UInt64} (hv : v.toNat < 2 ^ 47) :
    128 * ((valueAtUpperEdge (indexFor v)).toNat - v.toNat) ≤ v.toNat := by
  have hle := edge_sub_le (k := kSubBucketBits) (by decide) v.toNat
  rw [upper_edge_eq hv]
  change 256 * _ ≤ _ at hle
  omega

end Precision

end Histogram
end GtpMeter
