import GtpMeter.FreeRunningIndex
import GtpMeter.SpscRing
import GtpMeter.TransitionRuns
import Mathlib.Data.List.Infix

/-!
# The ring between two threads

`SpscRing` from `spsc_ring.hpp` with one producer and one consumer at work.  A call
is cut into its loads and stores of the two indices and its copies of slots; each
side keeps its place in the call and what it has loaded.  The steps of the two sides
interleave in any order, and memory is sequentially consistent.

**Results.**
* `produce_moves`, `consume_moves`: the ways a step of either side can go.
* `Core`: what the indices and the slots say of the elements in the ring.
* `Ok.produce`, `Ok.consume`, `Ok.step`: the invariant survives every step.
-/

namespace GtpMeter

open Runs

/-- Where the producer is in a call, with what it has loaded. -/
inductive PushPc (T : Type) where
  | idle
  /-- `try_push`, with `head_` loaded -/
  | check (value : T) (head : UInt64)
  /-- there is room -/
  | write (value : T) (head : UInt64)
  /-- the slot is written -/
  | publish (value : T) (head : UInt64)
  /-- `try_push_bulk`, with `head_` loaded -/
  | bulkCheck (items : List T) (head : UInt64)
  /-- the loop over the slots: what is written, what is left, and `count` -/
  | bulkWrite (head : UInt64) (done todo : List T) (count : Nat)

/-- Where the consumer is in a call. -/
inductive PopPc (T : Type) where
  | idle
  /-- `try_pop`, with `tail_` loaded -/
  | check (tail : UInt64)
  /-- there is an element -/
  | copy (tail : UInt64)
  /-- the slot is copied -/
  | release (tail : UInt64) (value : T)
  /-- `try_pop_bulk`, with `tail_` loaded -/
  | bulkCheck (max : UInt64) (tail : UInt64)
  /-- the loop over the slots: how many to copy, and the copies -/
  | bulkCopy (tail : UInt64) (available : Nat) (out : List T)

/-- The consumer is not in a bulk pop. -/
def PopPc.single {T : Type} : PopPc T → Prop
  | .bulkCheck _ _ => False
  | .bulkCopy _ _ _ => False
  | _ => True

/-- A ring and its two users. -/
structure SharedRing (T : Type) where
  ring : SpscRing T
  push : PushPc T
  pop : PopPc T

/-- What a step returns to the caller, if it ends a call: the elements accepted and
how many were offered, or the elements popped. -/
inductive RingOut (T : Type) where
  | pending
  | pushed (accepted : List T) (count : Nat)
  | popped (out : List T)

/-- A call begins, or a call under way takes its next step. -/
inductive RingOp (T : Type) where
  | push (value : T)
  | pushBulk (items : List T)
  | produce
  | pop
  | popBulk (max : UInt64)
  | consume

namespace RingOut

variable {T : Type}

def accepted : RingOut T → List T
  | .pushed values _ => values
  | _ => []

def taken : RingOut T → List T
  | .popped values => values
  | _ => []

@[simp] theorem accepted_pending : (pending : RingOut T).accepted = [] :=
  rfl

@[simp] theorem accepted_pushed (values : List T) (count : Nat) :
    (pushed values count).accepted = values :=
  rfl

@[simp] theorem accepted_popped (values : List T) : (popped values).accepted = [] :=
  rfl

@[simp] theorem taken_pending : (pending : RingOut T).taken = [] :=
  rfl

@[simp] theorem taken_pushed (values : List T) (count : Nat) : (pushed values count).taken = [] :=
  rfl

@[simp] theorem taken_popped (values : List T) : (popped values).taken = values :=
  rfl

end RingOut

namespace SharedRing

variable {T : Type}

section Steps

/-- Free slots as `try_push_bulk` computes them. -/
def freeSlots (q : SpscRing T) (head tail : UInt64) : Nat :=
  (q.capacity - (head - tail)).toNat

/-- How many elements `try_pop_bulk` takes. -/
def batchSize (available max : UInt64) : Nat :=
  (if available > max then max else available).toNat

/-- The next step of the producer in a call. -/
def produce (r : SharedRing T) : Except Blocked (SharedRing T × RingOut T) :=
  match r.push with
  | .idle => .error .blocked
  | .check value head =>
      if head - r.ring.cachedTail ≥ r.ring.capacity then
        let q := { r.ring with cachedTail := r.ring.tail }
        if head - q.cachedTail ≥ q.capacity then
          .ok ({ r with ring := q, push := .idle }, .pushed [] 1)
        else .ok ({ r with ring := q, push := .write value head }, .pending)
      else .ok ({ r with push := .write value head }, .pending)
  | .write value head =>
      let q := { r.ring with
        slots := Function.update r.ring.slots (head &&& r.ring.mask) value }
      .ok ({ r with ring := q, push := .publish value head }, .pending)
  | .publish value head =>
      .ok ({ r with ring := { r.ring with head := head + 1 }, push := .idle },
        .pushed [value] 1)
  | .bulkCheck items head =>
      if freeSlots r.ring head r.ring.cachedTail < items.length then
        let q := { r.ring with cachedTail := r.ring.tail }
        .ok ({ r with
            ring := q
            push := .bulkWrite head [] (items.take (freeSlots q head q.cachedTail))
              items.length }, .pending)
      else .ok ({ r with push := .bulkWrite head [] items items.length }, .pending)
  | .bulkWrite head done (value :: todo) count =>
      let i := head + UInt64.ofNat done.length
      let q := { r.ring with slots := Function.update r.ring.slots (i &&& r.ring.mask) value }
      .ok ({ r with ring := q, push := .bulkWrite head (done ++ [value]) todo count }, .pending)
  | .bulkWrite head done [] count =>
      .ok ({ r with
          ring := { r.ring with head := head + UInt64.ofNat done.length }
          push := .idle }, .pushed done count)

/-- The next step of the consumer in a call. -/
def consume (r : SharedRing T) : Except Blocked (SharedRing T × RingOut T) :=
  match r.pop with
  | .idle => .error .blocked
  | .check tail =>
      if tail = r.ring.cachedHead then
        let q := { r.ring with cachedHead := r.ring.head }
        if tail = q.cachedHead then .ok ({ r with ring := q, pop := .idle }, .popped [])
        else .ok ({ r with ring := q, pop := .copy tail }, .pending)
      else .ok ({ r with pop := .copy tail }, .pending)
  | .copy tail =>
      .ok ({ r with pop := .release tail (r.ring.slots (tail &&& r.ring.mask)) }, .pending)
  | .release tail value =>
      .ok ({ r with ring := { r.ring with tail := tail + 1 }, pop := .idle }, .popped [value])
  | .bulkCheck max tail =>
      if tail = r.ring.cachedHead then
        let q := { r.ring with cachedHead := r.ring.head }
        if tail = q.cachedHead then .ok ({ r with ring := q, pop := .idle }, .popped [])
        else
          .ok ({ r with
              ring := q
              pop := .bulkCopy tail (batchSize (q.cachedHead - tail) max) [] }, .pending)
      else
        .ok ({ r with pop := .bulkCopy tail (batchSize (r.ring.cachedHead - tail) max) [] },
          .pending)
  | .bulkCopy tail available out =>
      if out.length < available then
        let i := tail + UInt64.ofNat out.length
        .ok ({ r with
            pop := .bulkCopy tail available (out ++ [r.ring.slots (i &&& r.ring.mask)]) },
          .pending)
      else
        .ok ({ r with
            ring := { r.ring with tail := tail + UInt64.ofNat available }
            pop := .idle }, .popped out)

/-- The producer begins a call: it loads `head_`. -/
def beginPush (r : SharedRing T) (pc : UInt64 → PushPc T) :
    Except Blocked (SharedRing T × RingOut T) :=
  match r.push with
  | .idle => .ok ({ r with push := pc r.ring.head }, .pending)
  | _ => .error .blocked

/-- The consumer begins a call: it loads `tail_`. -/
def beginPop (r : SharedRing T) (pc : UInt64 → PopPc T) :
    Except Blocked (SharedRing T × RingOut T) :=
  match r.pop with
  | .idle => .ok ({ r with pop := pc r.ring.tail }, .pending)
  | _ => .error .blocked

def step (r : SharedRing T) : RingOp T → Except Blocked (SharedRing T × RingOut T)
  | .push value => r.beginPush (.check value)
  | .pushBulk items => r.beginPush (.bulkCheck items)
  | .produce => r.produce
  | .pop => r.beginPop .check
  | .popBulk max => r.beginPop (.bulkCheck max)
  | .consume => r.consume

/-- A new ring of capacity `2 ^ k`, with anything in its slots, and two idle users. -/
def start (k : Nat) (slots : UInt64 → T) : SharedRing T :=
  { ring :=
      { capacity := UInt64.ofNat (2 ^ k)
        mask := UInt64.ofNat (2 ^ k) - 1
        slots := slots
        head := 0
        cachedTail := 0
        tail := 0
        cachedHead := 0 }
    push := .idle
    pop := .idle }

variable {r r' : SharedRing T} {out : RingOut T}

/-- The ways a step of the producer can go, with what it saw. -/
inductive Produces (r : SharedRing T) : SharedRing T → RingOut T → Prop
  | full {value : T} {head : UInt64} (hpc : r.push = .check value head)
      (hstale : head - r.ring.cachedTail ≥ r.ring.capacity)
      (hfull : head - r.ring.tail ≥ r.ring.capacity) :
      Produces r { r with ring := { r.ring with cachedTail := r.ring.tail }, push := .idle }
        (.pushed [] 1)
  | reload {value : T} {head : UInt64} (hpc : r.push = .check value head)
      (hstale : head - r.ring.cachedTail ≥ r.ring.capacity)
      (hroom : ¬head - r.ring.tail ≥ r.ring.capacity) :
      Produces r
        { r with
          ring := { r.ring with cachedTail := r.ring.tail }
          push := .write value head } .pending
  | room {value : T} {head : UInt64} (hpc : r.push = .check value head)
      (hroom : ¬head - r.ring.cachedTail ≥ r.ring.capacity) :
      Produces r { r with push := .write value head } .pending
  | write {value : T} {head : UInt64} (hpc : r.push = .write value head) :
      Produces r
        { r with
          ring := { r.ring with
            slots := Function.update r.ring.slots (head &&& r.ring.mask) value }
          push := .publish value head } .pending
  | publish {value : T} {head : UInt64} (hpc : r.push = .publish value head) :
      Produces r { r with ring := { r.ring with head := head + 1 }, push := .idle }
        (.pushed [value] 1)
  | bulkReload {items : List T} {head : UInt64} (hpc : r.push = .bulkCheck items head)
      (hfew : freeSlots r.ring head r.ring.cachedTail < items.length) :
      Produces r
        { r with
          ring := { r.ring with cachedTail := r.ring.tail }
          push := .bulkWrite head []
            (items.take (freeSlots { r.ring with cachedTail := r.ring.tail } head r.ring.tail))
            items.length } .pending
  | bulkRoom {items : List T} {head : UInt64} (hpc : r.push = .bulkCheck items head)
      (hroom : ¬freeSlots r.ring head r.ring.cachedTail < items.length) :
      Produces r { r with push := .bulkWrite head [] items items.length } .pending
  | bulkWrite {head : UInt64} {done todo : List T} {value : T} {count : Nat}
      (hpc : r.push = .bulkWrite head done (value :: todo) count) :
      Produces r
        { r with
          ring := { r.ring with
            slots := Function.update r.ring.slots
              ((head + UInt64.ofNat done.length) &&& r.ring.mask) value }
          push := .bulkWrite head (done ++ [value]) todo count } .pending
  | bulkPublish {head : UInt64} {done : List T} {count : Nat}
      (hpc : r.push = .bulkWrite head done [] count) :
      Produces r
        { r with
          ring := { r.ring with head := head + UInt64.ofNat done.length }
          push := .idle } (.pushed done count)

theorem produce_moves (hs : r.produce = .ok (r', out)) : Produces r r' out := by
  unfold produce at hs
  cases hpc : r.push with
  | idle =>
      rw [hpc] at hs
      cases hs
  | check value head =>
      rw [hpc] at hs
      dsimp only at hs
      split_ifs at hs with hstale hfull
      · cases hs
        exact .full hpc hstale hfull
      · cases hs
        exact .reload hpc hstale hfull
      · cases hs
        exact .room hpc hstale
  | write value head =>
      rw [hpc] at hs
      cases hs
      exact .write hpc
  | publish value head =>
      rw [hpc] at hs
      cases hs
      exact .publish hpc
  | bulkCheck items head =>
      rw [hpc] at hs
      dsimp only at hs
      split_ifs at hs with hfew
      · cases hs
        exact .bulkReload hpc hfew
      · cases hs
        exact .bulkRoom hpc hfew
  | bulkWrite head done todo count =>
      rw [hpc] at hs
      cases todo with
      | nil =>
          cases hs
          exact .bulkPublish hpc
      | cons value todo =>
          cases hs
          exact .bulkWrite hpc

/-- The ways a step of the consumer can go, with what it saw. -/
inductive Consumes (r : SharedRing T) : SharedRing T → RingOut T → Prop
  | empty {tail : UInt64} (hpc : r.pop = .check tail) (hempty : tail = r.ring.head) :
      Consumes r { r with ring := { r.ring with cachedHead := r.ring.head }, pop := .idle }
        (.popped [])
  | reload {tail : UInt64} (hpc : r.pop = .check tail) (hsome : tail ≠ r.ring.head) :
      Consumes r { r with ring := { r.ring with cachedHead := r.ring.head }, pop := .copy tail }
        .pending
  | some {tail : UInt64} (hpc : r.pop = .check tail) (hsome : tail ≠ r.ring.cachedHead) :
      Consumes r { r with pop := .copy tail } .pending
  | copy {tail : UInt64} (hpc : r.pop = .copy tail) :
      Consumes r { r with pop := .release tail (r.ring.slots (tail &&& r.ring.mask)) } .pending
  | release {tail : UInt64} {value : T} (hpc : r.pop = .release tail value) :
      Consumes r { r with ring := { r.ring with tail := tail + 1 }, pop := .idle }
        (.popped [value])
  | bulkEmpty {max tail : UInt64} (hpc : r.pop = .bulkCheck max tail)
      (hempty : tail = r.ring.head) :
      Consumes r { r with ring := { r.ring with cachedHead := r.ring.head }, pop := .idle }
        (.popped [])
  | bulkReload {max tail : UInt64} (hpc : r.pop = .bulkCheck max tail)
      (hsome : tail ≠ r.ring.head) :
      Consumes r
        { r with
          ring := { r.ring with cachedHead := r.ring.head }
          pop := .bulkCopy tail (batchSize (r.ring.head - tail) max) [] } .pending
  | bulkSome {max tail : UInt64} (hpc : r.pop = .bulkCheck max tail)
      (hsome : tail ≠ r.ring.cachedHead) :
      Consumes r { r with pop := .bulkCopy tail (batchSize (r.ring.cachedHead - tail) max) [] }
        .pending
  | bulkCopy {tail : UInt64} {available : Nat} {got : List T}
      (hpc : r.pop = .bulkCopy tail available got) (hmore : got.length < available) :
      Consumes r
        { r with
          pop := .bulkCopy tail available
            (got ++ [r.ring.slots ((tail + UInt64.ofNat got.length) &&& r.ring.mask)]) } .pending
  | bulkRelease {tail : UInt64} {available : Nat} {got : List T}
      (hpc : r.pop = .bulkCopy tail available got) (hall : ¬got.length < available) :
      Consumes r
        { r with
          ring := { r.ring with tail := tail + UInt64.ofNat available }
          pop := .idle } (.popped got)

theorem consume_moves (hs : r.consume = .ok (r', out)) : Consumes r r' out := by
  unfold consume at hs
  cases hpc : r.pop with
  | idle =>
      rw [hpc] at hs
      cases hs
  | check tail =>
      rw [hpc] at hs
      dsimp only at hs
      split_ifs at hs with hstale hempty
      · cases hs
        exact .empty hpc hempty
      · cases hs
        exact .reload hpc hempty
      · cases hs
        exact .some hpc hstale
  | copy tail =>
      rw [hpc] at hs
      cases hs
      exact .copy hpc
  | release tail value =>
      rw [hpc] at hs
      cases hs
      exact .release hpc
  | bulkCheck max tail =>
      rw [hpc] at hs
      dsimp only at hs
      split_ifs at hs with hstale hempty
      · cases hs
        exact .bulkEmpty hpc hempty
      · cases hs
        exact .bulkReload hpc hempty
      · cases hs
        exact .bulkSome hpc hstale
  | bulkCopy tail available got =>
      rw [hpc] at hs
      dsimp only at hs
      split_ifs at hs with hmore
      · cases hs
        exact .bulkCopy hpc hmore
      · cases hs
        exact .bulkRelease hpc hmore

theorem beginPush_ok {pc : UInt64 → PushPc T} (hs : r.beginPush pc = .ok (r', out)) :
    r.push = .idle ∧ r' = { r with push := pc r.ring.head } ∧ out = .pending := by
  unfold beginPush at hs
  cases hpc : r.push with
  | idle =>
      rw [hpc] at hs
      cases hs
      exact ⟨rfl, rfl, rfl⟩
  | _ =>
      rw [hpc] at hs
      cases hs

theorem beginPop_ok {pc : UInt64 → PopPc T} (hs : r.beginPop pc = .ok (r', out)) :
    r.pop = .idle ∧ r' = { r with pop := pc r.ring.tail } ∧ out = .pending := by
  unfold beginPop at hs
  cases hpc : r.pop with
  | idle =>
      rw [hpc] at hs
      cases hs
      exact ⟨rfl, rfl, rfl⟩
  | _ =>
      rw [hpc] at hs
      cases hs

end Steps

section Ring

open FreeRunning

variable {k ct ch : Nat} {q : SpscRing T} {accepted taken : List T}

/-- The indices and the slots of a ring that has accepted and given out these
elements.  `ct` and `ch` are the counts behind the two cached indices. -/
structure Core (k : Nat) (q : SpscRing T) (accepted taken : List T) (ct ch : Nat) : Prop where
  small : k < 64
  capacity_eq : q.capacity = UInt64.ofNat (2 ^ k)
  mask_eq : q.mask = UInt64.ofNat (2 ^ k) - 1
  head_eq : q.head = UInt64.ofNat accepted.length
  tail_eq : q.tail = UInt64.ofNat taken.length
  cachedTail_eq : q.cachedTail = UInt64.ofNat ct
  cachedHead_eq : q.cachedHead = UInt64.ofNat ch
  ct_le : ct ≤ taken.length
  room : accepted.length ≤ ct + 2 ^ k
  le_ch : taken.length ≤ ch
  ch_le : ch ≤ accepted.length
  fifo : taken <+: accepted
  stored : ∀ i v, taken.length ≤ i → accepted[i]? = some v → q.slots (cell k i) = v

/-- The order of the counts, and the size of the ring. -/
theorem Core.bounds (hc : Core k q accepted taken ct ch) :
    ct ≤ taken.length ∧ taken.length ≤ ch ∧ ch ≤ accepted.length ∧
      accepted.length ≤ ct + 2 ^ k ∧ 0 < 2 ^ k ∧ 2 ^ k < 2 ^ 64 :=
  ⟨hc.ct_le, hc.le_ch, hc.ch_le, hc.room, Nat.two_pow_pos k,
    Nat.pow_lt_pow_right (by decide) hc.small⟩

theorem Core.capacity_toNat (hc : Core k q accepted taken ct ch) : q.capacity.toNat = 2 ^ k := by
  obtain ⟨-, -, -, -, -, hpow⟩ := hc.bounds
  rw [hc.capacity_eq]
  exact UInt64.toNat_ofNat_of_lt' hpow

/-- What the producer knows of the elements in the ring. -/
theorem Core.cached_used (hc : Core k q accepted taken ct ch) :
    (q.head - q.cachedTail).toNat = accepted.length - ct := by
  obtain ⟨hct, hch, hch', hroom, hpos, hpow⟩ := hc.bounds
  rw [hc.head_eq, hc.cachedTail_eq]
  exact toNat_sub (by omega) (by omega)

/-- The elements in the ring. -/
theorem Core.used (hc : Core k q accepted taken ct ch) :
    (q.head - q.tail).toNat = accepted.length - taken.length := by
  obtain ⟨hct, hch, hch', hroom, hpos, hpow⟩ := hc.bounds
  rw [hc.head_eq, hc.tail_eq]
  exact toNat_sub (by omega) (by omega)

/-- What the consumer knows of the elements in the ring. -/
theorem Core.available (hc : Core k q accepted taken ct ch) :
    (q.cachedHead - q.tail).toNat = ch - taken.length := by
  obtain ⟨hct, hch, hch', hroom, hpos, hpow⟩ := hc.bounds
  rw [hc.cachedHead_eq, hc.tail_eq]
  exact toNat_sub (by omega) (by omega)

theorem Core.full_iff (hc : Core k q accepted taken ct ch) :
    q.head - q.cachedTail ≥ q.capacity ↔ accepted.length = ct + 2 ^ k := by
  obtain ⟨hct, hch, hch', hroom, hpos, hpow⟩ := hc.bounds
  rw [ge_iff_le, UInt64.le_iff_toNat_le, hc.capacity_toNat, hc.cached_used]
  omega

theorem Core.free_eq (hc : Core k q accepted taken ct ch) :
    freeSlots q q.head q.cachedTail = ct + 2 ^ k - accepted.length := by
  obtain ⟨hct, hch, hch', hroom, hpos, hpow⟩ := hc.bounds
  have hle : q.head - q.cachedTail ≤ q.capacity := by
    rw [UInt64.le_iff_toNat_le, hc.capacity_toNat, hc.cached_used]
    omega
  unfold freeSlots
  rw [UInt64.toNat_sub_of_le _ _ hle, hc.capacity_toNat, hc.cached_used]
  omega

theorem Core.empty_iff (hc : Core k q accepted taken ct ch) :
    q.tail = q.cachedHead ↔ ch = taken.length := by
  obtain ⟨hct, hch, hch', hroom, hpos, hpow⟩ := hc.bounds
  rw [hc.cachedHead_eq, hc.tail_eq, eq_comm]
  exact ofNat_eq_iff hch (by omega)

/-- A bulk pop takes no more than the consumer knows of. -/
theorem Core.bulk_le (hc : Core k q accepted taken ct ch) (max : UInt64) :
    taken.length + batchSize (q.cachedHead - q.tail) max ≤ ch := by
  have hsize : batchSize (q.cachedHead - q.tail) max ≤ (q.cachedHead - q.tail).toNat := by
    unfold batchSize
    split_ifs with hmore
    · exact Nat.le_of_lt (UInt64.lt_iff_toNat_lt.mp hmore)
    · exact le_rfl
  have hle := hc.le_ch
  rw [hc.available] at hsize
  omega

/-- The producer loads `tail_`. -/
theorem Core.reloadTail (hc : Core k q accepted taken ct ch) :
    Core k { q with cachedTail := q.tail } accepted taken taken.length ch :=
  { hc with
    cachedTail_eq := hc.tail_eq
    ct_le := le_rfl
    room := le_trans hc.room (Nat.add_le_add_right hc.ct_le _) }

/-- The consumer loads `head_`. -/
theorem Core.reloadHead (hc : Core k q accepted taken ct ch) :
    Core k { q with cachedHead := q.head } accepted taken ct accepted.length :=
  { hc with
    cachedHead_eq := hc.head_eq
    le_ch := le_trans hc.le_ch hc.ch_le
    ch_le := le_rfl }

/-- A free cell is not one of those that hold an element. -/
theorem Core.cell_ne (hc : Core k q accepted taken ct ch) {i j : Nat} (hi : taken.length ≤ i)
    (hlt : i < accepted.length) (hj : accepted.length ≤ j) (hroom : j < ct + 2 ^ k) :
    cell k i ≠ cell k j := by
  have hct := hc.ct_le
  exact FreeRunning.cell_ne hc.small (by omega) (by omega)

/-- The producer writes a free cell. -/
theorem Core.write (hc : Core k q accepted taken ct ch) {j : Nat} (hj : accepted.length ≤ j)
    (hroom : j < ct + 2 ^ k) (value : T) :
    Core k { q with slots := Function.update q.slots (cell k j) value } accepted taken ct ch := by
  refine { hc with stored := ?_ }
  intro i v hi hv
  have hlt : i < accepted.length := (List.getElem?_eq_some_iff.mp hv).1
  exact (Function.update_of_ne (hc.cell_ne hi hlt hj hroom) ..).trans (hc.stored i v hi hv)

/-- The producer stores `head_`. -/
theorem Core.publish (hc : Core k q accepted taken ct ch) (vs : List T)
    (hroom : accepted.length + vs.length ≤ ct + 2 ^ k)
    (hvs : ∀ j v, vs[j]? = some v → q.slots (cell k (accepted.length + j)) = v) :
    Core k { q with head := q.head + UInt64.ofNat vs.length } (accepted ++ vs) taken ct ch := by
  refine { hc with
    head_eq := ?_
    room := ?_
    ch_le := ?_
    fifo := hc.fifo.trans (List.prefix_append _ _)
    stored := ?_ }
  · rw [List.length_append, UInt64.ofNat_add, hc.head_eq]
  · rwa [List.length_append]
  · rw [List.length_append]
    exact Nat.le_add_right_of_le hc.ch_le
  · intro i v hi hv
    by_cases hlt : i < accepted.length
    · rw [List.getElem?_append_left hlt] at hv
      exact hc.stored i v hi hv
    · rw [List.getElem?_append_right (Nat.le_of_not_lt hlt)] at hv
      have hslot := hvs _ v hv
      rwa [Nat.add_sub_cancel' (Nat.le_of_not_lt hlt)] at hslot

/-- The consumer stores `tail_`. -/
theorem Core.release (hc : Core k q accepted taken ct ch) (vs : List T)
    (hvs : taken ++ vs <+: accepted) (hch : taken.length + vs.length ≤ ch) :
    Core k { q with tail := q.tail + UInt64.ofNat vs.length } accepted (taken ++ vs) ct ch := by
  refine { hc with
    tail_eq := ?_
    ct_le := ?_
    le_ch := ?_
    fifo := hvs
    stored := ?_ }
  · rw [List.length_append, UInt64.ofNat_add, hc.tail_eq]
  · rw [List.length_append]
    exact Nat.le_add_right_of_le hc.ct_le
  · rwa [List.length_append]
  · intro i v hi hv
    rw [List.length_append] at hi
    exact hc.stored i v (Nat.le_of_add_right_le hi) hv

end Ring

section Calls

open FreeRunning

variable {k ct ch : Nat} {q : SpscRing T} {r r' : SharedRing T} {accepted taken : List T}
  {out : RingOut T}

/-- What the producer relies on at each place of a call. -/
def PushOk (k : Nat) (q : SpscRing T) (accepted : List T) (ct : Nat) : PushPc T → Prop
  | .idle => True
  | .check _ head => head = q.head
  | .write _ head => head = q.head ∧ accepted.length < ct + 2 ^ k
  | .publish value head =>
      head = q.head ∧ accepted.length < ct + 2 ^ k ∧ q.slots (cell k accepted.length) = value
  | .bulkCheck _ head => head = q.head
  | .bulkWrite head done todo _ =>
      head = q.head ∧ accepted.length + done.length + todo.length ≤ ct + 2 ^ k ∧
        ∀ j v, done[j]? = some v → q.slots (cell k (accepted.length + j)) = v

/-- What the consumer relies on at each place of a call. -/
def PopOk (q : SpscRing T) (accepted taken : List T) (ch : Nat) : PopPc T → Prop
  | .idle => True
  | .check tail => tail = q.tail
  | .copy tail => tail = q.tail ∧ taken.length < ch
  | .release tail value =>
      tail = q.tail ∧ taken.length < ch ∧ taken ++ [value] <+: accepted
  | .bulkCheck _ tail => tail = q.tail
  | .bulkCopy tail available out =>
      tail = q.tail ∧ out.length ≤ available ∧ taken.length + available ≤ ch ∧
        taken ++ out <+: accepted

/-- The invariant of a ring with its users. -/
structure Ok (k : Nat) (r : SharedRing T) (accepted taken : List T) (ct ch : Nat) : Prop
    extends Core k r.ring accepted taken ct ch where
  producer : PushOk k r.ring accepted ct r.push
  consumer : PopOk r.ring accepted taken ch r.pop

/-- More elements in the ring do not disturb the consumer. -/
theorem PopOk.publish {pc : PopPc T} (hp : PopOk q accepted taken ch pc) (vs : List T) :
    PopOk q (accepted ++ vs) taken ch pc := by
  cases pc with
  | release tail value =>
      obtain ⟨htail, hlt, hpre⟩ := hp
      exact ⟨htail, hlt, hpre.trans (List.prefix_append _ _)⟩
  | bulkCopy tail available out =>
      obtain ⟨htail, hle, hch, hpre⟩ := hp
      exact ⟨htail, hle, hch, hpre.trans (List.prefix_append _ _)⟩
  | _ => exact hp

theorem Core.index_eq (hc : Core k q accepted taken ct ch) (j : Nat) :
    (q.head + UInt64.ofNat j) &&& q.mask = cell k (accepted.length + j) := by
  rw [hc.head_eq, hc.mask_eq, ← UInt64.ofNat_add]
  rfl

theorem Core.head_index (hc : Core k q accepted taken ct ch) :
    q.head &&& q.mask = cell k accepted.length := by
  simpa using hc.index_eq 0

/-- A step of the producer. -/
theorem Ok.produce (ho : Ok k r accepted taken ct ch) (hs : r.produce = .ok (r', out)) :
    ∃ ct', Ok k r' (accepted ++ out.accepted) taken ct' ch := by
  obtain ⟨hc, hp, hcons⟩ := ho
  cases produce_moves hs with
  | full hpc _ hfull =>
      rw [RingOut.accepted_pushed, List.append_nil]
      exact ⟨_, hc.reloadTail, trivial, hcons⟩
  | reload hpc _ hroom =>
      rw [hpc] at hp
      obtain rfl : _ = r.ring.head := hp
      rw [RingOut.accepted_pending, List.append_nil]
      refine ⟨_, hc.reloadTail, ⟨rfl, ?_⟩, hcons⟩
      exact lt_of_le_of_ne hc.reloadTail.room (fun heq => hroom (hc.reloadTail.full_iff.mpr heq))
  | room hpc hroom =>
      rw [hpc] at hp
      obtain rfl : _ = r.ring.head := hp
      rw [RingOut.accepted_pending, List.append_nil]
      refine ⟨ct, hc, ⟨rfl, ?_⟩, hcons⟩
      exact lt_of_le_of_ne hc.room (fun heq => hroom (hc.full_iff.mpr heq))
  | @write value head hpc =>
      rw [hpc] at hp
      obtain ⟨rfl, hroom⟩ := hp
      rw [RingOut.accepted_pending, List.append_nil, hc.head_index]
      exact ⟨ct, hc.write le_rfl hroom value, ⟨rfl, hroom, Function.update_self ..⟩, hcons⟩
  | @publish value head hpc =>
      rw [hpc] at hp
      obtain ⟨rfl, hroom, hslot⟩ := hp
      refine ⟨ct, hc.publish [value] hroom ?_, trivial, hcons.publish [value]⟩
      intro j v hv
      cases j with
      | zero => simpa [← Option.some.inj hv] using hslot
      | succ j => simp at hv
  | bulkReload hpc hfew =>
      rw [hpc] at hp
      obtain rfl : _ = r.ring.head := hp
      rw [RingOut.accepted_pending, List.append_nil]
      refine ⟨_, hc.reloadTail, ⟨rfl, ?_, by simp⟩, hcons⟩
      have hfree := hc.reloadTail.free_eq
      have hroom := hc.reloadTail.room
      rw [List.length_take]
      simp only [List.length_nil] at hfree ⊢
      omega
  | bulkRoom hpc hroom =>
      rw [hpc] at hp
      obtain rfl : _ = r.ring.head := hp
      rw [RingOut.accepted_pending, List.append_nil]
      refine ⟨ct, hc, ⟨rfl, ?_, by simp⟩, hcons⟩
      have hfree := hc.free_eq
      have hle := hc.room
      simp only [List.length_nil]
      omega
  | @bulkPublish head done count hpc =>
      rw [hpc] at hp
      obtain ⟨rfl, hroom, hdone⟩ := hp
      exact ⟨ct, hc.publish done (by simpa using hroom) hdone, trivial, hcons.publish done⟩
  | @bulkWrite head done todo value count hpc =>
      rw [hpc] at hp
      obtain ⟨rfl, hroom, hdone⟩ := hp
      rw [RingOut.accepted_pending, List.append_nil, hc.index_eq]
      simp only [List.length_cons] at hroom
      obtain ⟨hct, hch, hch', -⟩ := hc.bounds
      refine ⟨ct, hc.write (by omega) (by omega) value, ⟨rfl, ?_, ?_⟩, hcons⟩
      · simp only [List.length_append, List.length_cons, List.length_nil]
        omega
      · intro j v hv
        rcases Nat.lt_trichotomy j done.length with hlt | rfl | hgt
        · rw [List.getElem?_append_left hlt] at hv
          have hne : cell k (accepted.length + j) ≠ cell k (accepted.length + done.length) :=
            FreeRunning.cell_ne hc.small (by omega) (by omega)
          exact (Function.update_of_ne hne ..).trans (hdone j v hv)
        · rw [List.getElem?_concat_length] at hv
          rw [← Option.some.inj hv]
          exact Function.update_self ..
        · rw [List.getElem?_eq_none (by simp; omega)] at hv
          cases hv

theorem prefix_snoc {xs ys : List T} {v : T} (hpre : xs <+: ys) (hv : ys[xs.length]? = some v) :
    xs ++ [v] <+: ys := by
  obtain ⟨zs, rfl⟩ := hpre
  rw [List.getElem?_append_right le_rfl, Nat.sub_self] at hv
  cases zs with
  | nil => simp at hv
  | cons z zs =>
      obtain rfl : z = v := by simpa using hv
      exact ⟨zs, by simp⟩

/-- The next cell of the consumer holds the next element. -/
theorem Core.next_element (hc : Core k q accepted taken ct ch) (got : List T)
    (hgot : taken ++ got <+: accepted) (hlt : taken.length + got.length < ch) :
    taken ++ (got ++ [q.slots ((q.tail + UInt64.ofNat got.length) &&& q.mask)]) <+: accepted := by
  have hle := hc.ch_le
  have hidx : (q.tail + UInt64.ofNat got.length) &&& q.mask =
      cell k (taken.length + got.length) := by
    rw [hc.tail_eq, hc.mask_eq, ← UInt64.ofNat_add]
    rfl
  have hget := List.getElem?_eq_getElem (lt_of_lt_of_le hlt hle)
  rw [hidx, hc.stored _ _ (Nat.le_add_right _ _) hget, ← List.append_assoc]
  exact prefix_snoc hgot (by rwa [List.length_append])

/-- A step of the consumer. -/
theorem Ok.consume (ho : Ok k r accepted taken ct ch) (hs : r.consume = .ok (r', out)) :
    ∃ ch', Ok k r' accepted (taken ++ out.taken) ct ch' := by
  obtain ⟨hc, hprod, hp⟩ := ho
  have hfirst : taken ++ [] <+: accepted := by simpa using hc.fifo
  cases consume_moves hs with
  | empty hpc hempty =>
      rw [RingOut.taken_popped, List.append_nil]
      exact ⟨_, hc.reloadHead, hprod, trivial⟩
  | reload hpc hsome =>
      rw [hpc] at hp
      obtain rfl : _ = r.ring.tail := hp
      rw [RingOut.taken_pending, List.append_nil]
      refine ⟨_, hc.reloadHead, hprod, rfl, ?_⟩
      exact lt_of_le_of_ne hc.reloadHead.le_ch
        (fun heq => hsome (hc.reloadHead.empty_iff.mpr heq.symm))
  | some hpc hsome =>
      rw [hpc] at hp
      obtain rfl : _ = r.ring.tail := hp
      rw [RingOut.taken_pending, List.append_nil]
      refine ⟨ch, hc, hprod, rfl, ?_⟩
      exact lt_of_le_of_ne hc.le_ch (fun heq => hsome (hc.empty_iff.mpr heq.symm))
  | copy hpc =>
      rw [hpc] at hp
      obtain ⟨rfl, hlt⟩ := hp
      rw [RingOut.taken_pending, List.append_nil]
      refine ⟨ch, hc, hprod, rfl, hlt, ?_⟩
      have hnext := hc.next_element [] hfirst hlt
      simpa using hnext
  | @release tail value hpc =>
      rw [hpc] at hp
      obtain ⟨rfl, hlt, hpre⟩ := hp
      exact ⟨ch, hc.release [value] hpre hlt, hprod, trivial⟩
  | bulkEmpty hpc hempty =>
      rw [RingOut.taken_popped, List.append_nil]
      exact ⟨_, hc.reloadHead, hprod, trivial⟩
  | @bulkReload max tail hpc hsome =>
      rw [hpc] at hp
      obtain rfl : tail = r.ring.tail := hp
      rw [RingOut.taken_pending, List.append_nil]
      refine ⟨_, hc.reloadHead, hprod, rfl, Nat.zero_le _, ?_, hfirst⟩
      exact hc.reloadHead.bulk_le max
  | @bulkSome max tail hpc hsome =>
      rw [hpc] at hp
      obtain rfl : tail = r.ring.tail := hp
      rw [RingOut.taken_pending, List.append_nil]
      exact ⟨ch, hc, hprod, rfl, Nat.zero_le _, hc.bulk_le max, hfirst⟩
  | @bulkCopy tail available got hpc hmore =>
      rw [hpc] at hp
      obtain ⟨rfl, hle, hch, hpre⟩ := hp
      rw [RingOut.taken_pending, List.append_nil]
      refine ⟨ch, hc, hprod, rfl, ?_, hch, hc.next_element got hpre (by omega)⟩
      rw [List.length_append]
      exact hmore
  | @bulkRelease tail available got hpc hall =>
      rw [hpc] at hp
      obtain ⟨rfl, hle, hch, hpre⟩ := hp
      obtain rfl : available = got.length := by omega
      exact ⟨ch, hc.release got hpre hch, hprod, trivial⟩

/-- The producer leaves the consumer where it is. -/
theorem produce_frame (hs : r.produce = .ok (r', out)) : r'.pop = r.pop ∧ out.taken = [] := by
  cases produce_moves hs <;> exact ⟨rfl, rfl⟩

/-- The consumer leaves the producer where it is, and writes no slot. -/
theorem consume_frame (hs : r.consume = .ok (r', out)) :
    r'.push = r.push ∧ out.accepted = [] ∧ r'.ring.slots = r.ring.slots ∧
      ∀ vs count, out ≠ .pushed vs count := by
  cases consume_moves hs <;> exact ⟨rfl, rfl, rfl, by simp⟩

/-- The invariant survives every step, with what the step accepts and gives out. -/
theorem Ok.step {op : RingOp T} (ho : Ok k r accepted taken ct ch)
    (hs : r.step op = .ok (r', out)) :
    ∃ ct' ch', Ok k r' (accepted ++ out.accepted) (taken ++ out.taken) ct' ch' := by
  cases op with
  | push value | pushBulk items =>
      obtain ⟨-, rfl, rfl⟩ := beginPush_ok hs
      simp only [RingOut.accepted_pending, RingOut.taken_pending, List.append_nil]
      exact ⟨ct, ch, ho.toCore, rfl, ho.consumer⟩
  | produce =>
      obtain ⟨ct', ho'⟩ := ho.produce hs
      rw [(produce_frame hs).2, List.append_nil]
      exact ⟨ct', ch, ho'⟩
  | pop | popBulk max =>
      obtain ⟨-, rfl, rfl⟩ := beginPop_ok hs
      simp only [RingOut.accepted_pending, RingOut.taken_pending, List.append_nil]
      exact ⟨ct, ch, ho.toCore, ho.producer, rfl⟩
  | consume =>
      obtain ⟨ch', ho'⟩ := ho.consume hs
      rw [(consume_frame hs).2.1, List.append_nil]
      exact ⟨ct, ch', ho'⟩

theorem start_ok (hk : k < 64) (slots : UInt64 → T) : Ok k (start k slots) [] [] 0 0 :=
  { small := hk
    capacity_eq := rfl
    mask_eq := rfl
    head_eq := rfl
    tail_eq := rfl
    cachedTail_eq := rfl
    cachedHead_eq := rfl
    ct_le := le_rfl
    room := Nat.zero_le _
    le_ch := le_rfl
    ch_le := le_rfl
    fifo := List.prefix_refl _
    stored := by simp
    producer := trivial
    consumer := trivial }

end Calls

section Users

variable {k : Nat} {r r' : SharedRing T} {accepted taken : List T} {out : RingOut T}

/-- The ring has accepted and given out these elements. -/
def Holds (k : Nat) (r : SharedRing T) (accepted taken : List T) : Prop :=
  ∃ ct ch, Ok k r accepted taken ct ch

theorem Holds.step {op : RingOp T} (ho : Holds k r accepted taken)
    (hs : r.step op = .ok (r', out)) :
    Holds k r' (accepted ++ out.accepted) (taken ++ out.taken) := by
  obtain ⟨ct, ch, hok⟩ := ho
  exact hok.step hs

/-- A ring whose occupancy is 0 has given out all that it accepted. -/
theorem Holds.drained (ho : Holds k r accepted taken) (hzero : r.ring.head - r.ring.tail = 0) :
    accepted = taken := by
  obtain ⟨ct, ch, hok⟩ := ho
  have hused := hok.used
  rw [hzero] at hused
  have hle := hok.fifo.length_le
  exact (hok.fifo.eq_of_length (by simp at hused; omega)).symm

/-- A call of the producer gives nothing out. -/
theorem step_push {value : T} (hs : r.step (.push value) = .ok (r', out)) :
    out.taken = [] ∧ r'.pop = r.pop ∧ r'.push ≠ .idle := by
  obtain ⟨-, rfl, rfl⟩ := beginPush_ok hs
  exact ⟨rfl, rfl, by simp⟩

theorem step_produce (hs : r.step .produce = .ok (r', out)) :
    out.taken = [] ∧ r'.pop = r.pop := by
  obtain ⟨hpop, htaken⟩ := produce_frame hs
  exact ⟨htaken, hpop⟩

theorem step_pop (hs : r.step .pop = .ok (r', out)) :
    out = .pending ∧ r'.pop.single ∧ r'.push = r.push ∧ r'.pop ≠ .idle := by
  obtain ⟨-, rfl, rfl⟩ := beginPop_ok hs
  exact ⟨rfl, trivial, rfl, by simp⟩

theorem step_popBulk {max : UInt64} (hs : r.step (.popBulk max) = .ok (r', out)) :
    out = .pending ∧ r'.push = r.push ∧ r'.pop ≠ .idle := by
  obtain ⟨-, rfl, rfl⟩ := beginPop_ok hs
  exact ⟨rfl, rfl, by simp⟩

/-- The consumer leaves the producer where it is. -/
theorem step_consume_push (hs : r.step .consume = .ok (r', out)) : r'.push = r.push :=
  (consume_frame hs).1

/-- The producer is done with its call when the call returns. -/
theorem step_produce_ends (hs : r.step .produce = .ok (r', out)) :
    (out = .pending ∧ r'.push ≠ .idle) ∨ ∃ values count, out = .pushed values count ∧
      r'.push = .idle := by
  cases produce_moves hs <;> simp

/-- The same for the consumer. -/
theorem step_consume_ends (hs : r.step .consume = .ok (r', out)) :
    (out = .pending ∧ r'.pop ≠ .idle) ∨ ∃ values, out = .popped values ∧ r'.pop = .idle := by
  cases consume_moves hs <;> simp

/-- A call that is not begun can be begun, and one that is can go on. -/
theorem push_enabled (value : T) (hidle : r.push = .idle) : ∃ x, r.step (.push value) = .ok x := by
  simp [SharedRing.step, beginPush, hidle]

theorem pop_enabled (hidle : r.pop = .idle) : ∃ x, r.step .pop = .ok x := by
  simp [SharedRing.step, beginPop, hidle]

theorem popBulk_enabled (max : UInt64) (hidle : r.pop = .idle) :
    ∃ x, r.step (.popBulk max) = .ok x := by
  simp [SharedRing.step, beginPop, hidle]

theorem produce_enabled (hbusy : r.push ≠ .idle) : ∃ x, r.step .produce = .ok x := by
  unfold SharedRing.step produce
  cases hpc : r.push with
  | idle => exact absurd hpc hbusy
  | bulkWrite head done todo count => cases todo <;> exact ⟨_, rfl⟩
  | check value head | bulkCheck items head =>
      dsimp only
      split_ifs <;> exact ⟨_, rfl⟩
  | _ => exact ⟨_, rfl⟩

theorem consume_enabled (hbusy : r.pop ≠ .idle) : ∃ x, r.step .consume = .ok x := by
  unfold SharedRing.step consume
  cases hpc : r.pop with
  | idle => exact absurd hpc hbusy
  | check tail | bulkCheck max tail | bulkCopy tail available got =>
      dsimp only
      split_ifs <;> exact ⟨_, rfl⟩
  | _ => exact ⟨_, rfl⟩

/-- A pop that is not a bulk pop gives out one element, or finds the ring empty. -/
theorem step_consume (ho : Holds k r accepted taken) (hone : r.pop.single)
    (hs : r.step .consume = .ok (r', out)) :
    r'.pop.single ∧ (out = .pending ∨ (out = .popped [] ∧ accepted = taken) ∨
      ∃ value, out = .popped [value]) := by
  obtain ⟨ct, ch, hok⟩ := ho
  have hcons := hok.consumer
  cases consume_moves hs with
  | empty hpc hempty =>
      rw [hpc] at hcons
      obtain rfl : _ = r.ring.tail := hcons
      refine ⟨trivial, .inr (.inl ⟨rfl, ?_⟩)⟩
      have hlen := hok.toCore.reloadHead.empty_iff.mp hempty
      exact (hok.fifo.eq_of_length hlen.symm).symm
  | reload | some | copy => exact ⟨trivial, .inl rfl⟩
  | @release tail value hpc => exact ⟨trivial, .inr (.inr ⟨value, rfl⟩)⟩
  | bulkEmpty hpc | bulkReload hpc | bulkSome hpc | bulkCopy hpc | bulkRelease hpc =>
      rw [hpc] at hone
      exact hone.elim

end Users

end SharedRing
end GtpMeter
