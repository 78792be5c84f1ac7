import Mathlib.Algebra.Ring.Nat
import GtpMeter.ByteSpan

/-!
# The latency histogram

`Histogram` from `histogram.hpp`: a value is counted in one of 256 sub-buckets for each of
40 binary magnitudes, and `quantile` adds the counts up until a rank is reached.

* An access outside the vector of counts is an `OutOfBounds` error.
* The rank that `quantile` computes from its argument in floating point is an argument
  here.
-/

namespace GtpMeter

/-- The counts of the buckets, and of all recorded values their number, sum and extremes. -/
structure Histogram where
  counts : List UInt64
  total : UInt64 := 0
  sum : UInt64 := 0
  min : UInt64 := 0xFFFFFFFFFFFFFFFF
  max : UInt64 := 0
deriving DecidableEq

namespace Histogram

/-- Each magnitude has `2 ^ 8` sub-buckets. -/
def kSubBucketBits : Nat := 8

/-- The number of sub-buckets of a magnitude. -/
def kSubBucketCount : Nat := 2 ^ kSubBucketBits

/-- The number of magnitudes. -/
def kBucketCount : Nat := 40

/-- A new histogram. -/
def init : Histogram where
  counts := List.replicate (kBucketCount * kSubBucketCount) 0

/-- `std::countl_zero`. -/
def countlZero (value : UInt64) : Nat :=
  if value = 0 then 64 else 63 - value.toNat.log2

/-- The bucket a value is counted in. -/
def indexFor (value : UInt64) : Nat :=
  if value.toNat < kSubBucketCount then value.toNat
  else
    let msb := 63 - countlZero value
    let bucket := msb - kSubBucketBits + 1
    let clamped := Nat.min bucket (kBucketCount - 1)
    let sub := (value >>> UInt64.ofNat clamped) &&& UInt64.ofNat (kSubBucketCount - 1)
    clamped * kSubBucketCount + sub.toNat

/-- The largest value of a bucket. -/
def valueAtUpperEdge (index : Nat) : UInt64 :=
  let bucket := index / kSubBucketCount
  let sub := UInt64.ofNat (index % kSubBucketCount)
  if bucket = 0 then sub else ((sub + 1) <<< UInt64.ofNat bucket) - 1

/-- `record`: one more value. -/
def record (h : Histogram) (value : UInt64) : Except OutOfBounds Histogram :=
  let idx := indexFor value
  if idx < h.counts.length then
    .ok {
      counts := h.counts.modify idx (· + 1)
      total := h.total + 1
      sum := h.sum + value
      min := if value < h.min then value else h.min
      max := if h.max < value then value else h.max }
  else .error (.read idx 1)

/-- How many values have been recorded. -/
def count (h : Histogram) : UInt64 :=
  h.total

/-- The loop of `quantile`, with the total and the index so far. -/
def scan (target : UInt64) : UInt64 → Nat → List UInt64 → Option Nat
  | _, _, [] => none
  | cumulative, i, c :: counts =>
      if cumulative + c ≥ target ∧ c ≠ 0 then some i
      else scan target (cumulative + c) (i + 1) counts

/-- `quantile`, from the rank on. -/
def quantileAt (h : Histogram) (target : UInt64) : UInt64 :=
  if h.total = 0 then 0
  else
    match scan target 0 0 h.counts with
    | some i => valueAtUpperEdge i
    | none => h.max

end Histogram

end GtpMeter
