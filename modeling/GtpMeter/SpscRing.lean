import GtpMeter.FlatHash

/-!
# The record ring, used from one side at a time

`SpscRing` from `spsc_ring.hpp`, with one call running to its end before the
next one starts.  Indices are free-running 64-bit counters; each side keeps a
stale copy of the other side's index and reloads it only when it has to.
-/

namespace GtpMeter

structure SpscRing (T : Type) where
  capacity : UInt64
  mask : UInt64
  slots : UInt64 → T
  head : UInt64
  cachedTail : UInt64
  tail : UInt64
  cachedHead : UInt64

namespace SpscRing

variable {T : Type}

/-- The constructor: capacity rounded up to a power of two, at least 2. -/
def init [Inhabited T] (capacity : UInt64) : SpscRing T :=
  let cap := UInt64.ofNat (roundUpPow2 (if capacity < 2 then 2 else capacity.toNat))
  { capacity := cap
    mask := cap - 1
    slots := fun _ => default
    head := 0
    cachedTail := 0
    tail := 0
    cachedHead := 0 }

/-- Producer side: `false` when the ring is full. -/
def tryPush (q : SpscRing T) (value : T) : SpscRing T × Bool :=
  let q :=
    if q.head - q.cachedTail ≥ q.capacity then { q with cachedTail := q.tail } else q
  if q.head - q.cachedTail ≥ q.capacity then (q, false)
  else
    ({ q with
        slots := Function.update q.slots (q.head &&& q.mask) value
        head := q.head + 1 }, true)

/-- A push succeeds on a ring that is not full, however stale the copy of the other
index is. -/
theorem tryPush_of_room {q : SpscRing T} (h : q.head - q.tail < q.capacity) (value : T) :
    (q.tryPush value).2 = true := by
  have hroom : ¬q.head - q.tail ≥ q.capacity := UInt64.not_le.mpr h
  by_cases hstale : q.head - q.cachedTail ≥ q.capacity
  · simp [tryPush, hstale, hroom]
  · simp [tryPush, hstale]

/-- Whether a push succeeds does not depend on what is pushed. -/
theorem tryPush_success (q : SpscRing T) (value value' : T) :
    (q.tryPush value).2 = (q.tryPush value').2 := by
  simp only [tryPush, apply_ite Prod.snd]

/-- Consumer side: `none` when the ring is empty. -/
def tryPop (q : SpscRing T) : SpscRing T × Option T :=
  let q := if q.tail = q.cachedHead then { q with cachedHead := q.head } else q
  if q.tail = q.cachedHead then (q, none)
  else ({ q with tail := q.tail + 1 }, some (q.slots (q.tail &&& q.mask)))

/-- The ring after `n` pops. -/
def popTimes (q : SpscRing T) : Nat → SpscRing T
  | 0 => q
  | n + 1 => popTimes (tryPop q).1 n

end SpscRing

end GtpMeter
