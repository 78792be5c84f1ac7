import GtpMeter.SpscInterleaving

/-!
# The ring is a lossless bounded FIFO

Runs of a ring with one producer and one consumer, of any length; the indices may
wrap.

**Results.**
* `ring_lossless_fifo`: what is popped, overwritten and refused, over any run.
* `push_alone`, `pop_alone`: a call that is not interrupted is the call of `SpscRing`.
* `Served.push`, `Served.popTimes`: what a ring has accepted after such calls.
-/

namespace GtpMeter
namespace SharedRing

open Runs

variable {T : Type}

section Runs

open FreeRunning

variable {k ct ch : Nat} {slots : UInt64 → T} {r r' : SharedRing T} {accepted taken : List T}
  {op : RingOp T} {out : RingOut T}

/-- The steps of a ring and its users. -/
abbrev Trace (T : Type) := List (Transition (SharedRing T) (RingOp T) (RingOut T))

variable {h : Trace T}

/-- The elements that pushes accepted, oldest first. -/
def acceptedOf (h : Trace T) : List T :=
  h.flatMap (fun tr => tr.out.accepted)

/-- The elements that pops returned, oldest first. -/
def takenOf (h : Trace T) : List T :=
  h.flatMap (fun tr => tr.out.taken)

theorem reaches_ok (hk : k < 64) (hrun : Run step (start k slots) h r) :
    ∃ ct ch, Ok k r (acceptedOf h) (takenOf h) ct ch := by
  induction hrun with
  | nil => exact ⟨0, 0, start_ok hk slots⟩
  | snoc _ hs ih =>
      obtain ⟨ct, ch, ho⟩ := ih
      obtain ⟨ct', ch', ho'⟩ := ho.step hs
      refine ⟨ct', ch', ?_⟩
      simpa [acceptedOf, takenOf] using ho'

/-- The cell that a step writes. -/
def writes (r : SharedRing T) : RingOp T → Option UInt64
  | .produce =>
      match r.push with
      | .write _ head => some (head &&& r.ring.mask)
      | .bulkWrite head done (_ :: _) _ =>
          some ((head + UInt64.ofNat done.length) &&& r.ring.mask)
      | _ => none
  | _ => none

/-- A step changes no other cell. -/
theorem step_slots (hs : r.step op = .ok (r', out)) {i : UInt64} (hi : r.writes op ≠ some i) :
    r'.ring.slots i = r.ring.slots i := by
  cases op with
  | produce =>
      cases produce_moves hs with
      | write hpc | bulkWrite hpc =>
          rw [writes, hpc] at hi
          exact Function.update_of_ne (fun heq => hi (congrArg some heq.symm)) ..
      | _ => rfl
  | consume => exact congrFun (consume_frame hs).2.2.1 i
  | push value | pushBulk items =>
      obtain ⟨-, rfl, -⟩ := beginPush_ok hs
      rfl
  | pop | popBulk max =>
      obtain ⟨-, rfl, -⟩ := beginPop_ok hs
      rfl

/-- The producer writes free cells only. -/
theorem Ok.writes_free (ho : Ok k r accepted taken ct ch) {c : UInt64}
    (hw : r.writes op = some c) {i : Nat} (hi : taken.length ≤ i) (hlt : i < accepted.length) :
    c ≠ cell k i := by
  have hp := ho.producer
  have hc := ho.toCore
  cases op with
  | produce =>
      unfold writes at hw
      cases hpc : r.push with
      | write value head =>
          rw [hpc] at hw hp
          obtain ⟨rfl, hroom⟩ := hp
          simp only [Option.some.injEq] at hw
          rw [← hw, hc.head_index]
          exact (hc.cell_ne hi hlt le_rfl hroom).symm
      | bulkWrite head done todo count =>
          rw [hpc] at hw hp
          obtain ⟨rfl, hroom, -⟩ := hp
          cases todo with
          | nil => cases hw
          | cons value todo =>
              simp only [List.length_cons] at hroom
              simp only [Option.some.injEq] at hw
              rw [← hw, hc.index_eq]
              exact (hc.cell_ne hi hlt (by omega) (by omega)).symm
      | _ =>
          rw [hpc] at hw
          cases hw
  | _ => cases hw

/-- The step loads `tail_` for the producer. -/
def reloads (r : SharedRing T) : RingOp T → Bool
  | .produce =>
      match r.push with
      | .check _ head => decide (head - r.ring.cachedTail ≥ r.ring.capacity)
      | .bulkCheck items head => decide (freeSlots r.ring head r.ring.cachedTail < items.length)
      | _ => false
  | _ => false

/-- How many elements the ring held when the present push loaded `tail_`, if it did. -/
def reloadStep (last : Option Nat)
    (tr : Transition (SharedRing T) (RingOp T) (RingOut T)) : Option Nat :=
  if tr.pre.reloads tr.op then some (tr.pre.ring.head - tr.pre.ring.tail).toNat
  else
    match tr.op with
    | .push _ => none
    | .pushBulk _ => none
    | _ => last

def lastReload (h : Trace T) : Option Nat :=
  h.foldl reloadStep none

/-- A bulk push that found too little room has seen how little. -/
def Shortened (k : Nat) (last : Option Nat) : PushPc T → Prop
  | .bulkWrite _ done todo count => done.length + todo.length < count →
      last = some (2 ^ k - (done.length + todo.length))
  | _ => True

/-- The loop over the slots loads no index. -/
theorem reloadStep_bulkWrite {last : Option Nat} {head : UInt64} {done todo : List T}
    {count : Nat} (hpc : r.push = .bulkWrite head done todo count) :
    reloadStep last ⟨r, .produce, out, r'⟩ = last := by
  simp [reloadStep, reloads, hpc]

theorem shortened_produce {last : Option Nat} (ho : Ok k r accepted taken ct ch)
    (hsh : Shortened k last r.push) (hs : r.step .produce = .ok (r', out)) :
    Shortened k (reloadStep last ⟨r, .produce, out, r'⟩) r'.push ∧
      ∀ vs count, out = .pushed vs count → vs.length < count →
        reloadStep last ⟨r, .produce, out, r'⟩ = some (2 ^ k - vs.length) := by
  obtain ⟨hc, hp, -⟩ := ho
  have hused := hc.used
  have hbounds := hc.bounds
  cases produce_moves hs with
  | full hpc hstale hfull =>
      rw [hpc] at hp
      obtain rfl : _ = r.ring.head := hp
      refine ⟨trivial, ?_⟩
      intro vs count hout _
      obtain ⟨rfl, rfl⟩ := RingOut.pushed.inj hout
      have hall := hc.reloadTail.full_iff.mp hfull
      simp only [reloadStep, reloads, hpc, hstale, decide_true, if_true, hused, List.length_nil]
      congr 1
      omega
  | publish hpc =>
      refine ⟨trivial, ?_⟩
      intro vs count hout hlt
      obtain ⟨rfl, rfl⟩ := RingOut.pushed.inj hout
      exact absurd hlt (lt_irrefl 1)
  | bulkReload hpc hfew =>
      rw [hpc] at hp
      obtain rfl : _ = r.ring.head := hp
      refine ⟨?_, by simp⟩
      intro hlt
      have hfree := hc.reloadTail.free_eq
      simp only [List.length_nil, List.length_take, hfree, zero_add] at hlt
      simp only [reloadStep, reloads, hpc, hfew, decide_true, if_true, hused, hfree,
        List.length_nil, List.length_take, zero_add]
      congr 1
      omega
  | bulkRoom hpc hroom =>
      refine ⟨?_, by simp⟩
      intro hlt
      simp only [List.length_nil, zero_add] at hlt
      exact absurd hlt (lt_irrefl _)
  | bulkPublish hpc =>
      rw [hpc] at hsh
      refine ⟨trivial, ?_⟩
      intro vs count' hout hlt
      obtain ⟨rfl, rfl⟩ := RingOut.pushed.inj hout
      rw [reloadStep_bulkWrite hpc]
      exact hsh hlt
  | @bulkWrite head done todo value count hpc =>
      rw [hpc] at hsh
      refine ⟨?_, by simp⟩
      rw [reloadStep_bulkWrite hpc]
      intro hlt
      have hlen : (done ++ [value]).length + todo.length =
          done.length + (value :: todo).length := by
        simp only [List.length_append, List.length_cons, List.length_nil]
        omega
      rw [hlen] at hlt ⊢
      exact hsh hlt
  | _ => exact ⟨trivial, by simp⟩

theorem shortened_step {last : Option Nat} (ho : Ok k r accepted taken ct ch)
    (hsh : Shortened k last r.push) (hs : r.step op = .ok (r', out)) :
    Shortened k (reloadStep last ⟨r, op, out, r'⟩) r'.push ∧
      ∀ vs count, out = .pushed vs count → vs.length < count →
        reloadStep last ⟨r, op, out, r'⟩ = some (2 ^ k - vs.length) := by
  cases op with
  | produce => exact shortened_produce ho hsh hs
  | push value | pushBulk items =>
      obtain ⟨-, rfl, rfl⟩ := beginPush_ok hs
      exact ⟨trivial, by simp⟩
  | pop | popBulk max =>
      obtain ⟨-, rfl, rfl⟩ := beginPop_ok hs
      exact ⟨hsh, by simp⟩
  | consume =>
      obtain ⟨hpush, -, -, hout⟩ := consume_frame hs
      refine ⟨hpush ▸ hsh, ?_⟩
      intro vs count hpushed
      exact absurd hpushed (hout vs count)

theorem reaches_shortened (hk : k < 64) (hrun : Run step (start k slots) h r) :
    Shortened k (lastReload h) r.push := by
  induction hrun with
  | nil => exact trivial
  | snoc hprev hs ih =>
      obtain ⟨ct, ch, ho⟩ := reaches_ok hk hprev
      have hstep := (shortened_step ho ih hs).1
      simpa [lastReload] using hstep

/-- **The ring is a lossless bounded FIFO.**  Over every run of the two users:
* what was popped is a prefix of what was accepted;
* an element that was accepted and not yet popped is in its cell, and no step
  writes that cell;
* the producer's counts do not exceed the capacity, and the ring holds the elements
  accepted and not yet popped;
* a push that accepts fewer elements than it was offered saw the ring hold exactly
  so many less than its capacity when it loaded `tail_`. -/
theorem ring_lossless_fifo (hk : k < 64) (hrun : Run step (start k slots) h r) :
    takenOf h <+: acceptedOf h ∧
    (∀ i v, (takenOf h).length ≤ i → (acceptedOf h)[i]? = some v →
      r.ring.slots (UInt64.ofNat i &&& r.ring.mask) = v ∧
      ∀ op, r.writes op ≠ some (UInt64.ofNat i &&& r.ring.mask)) ∧
    (r.ring.head - r.ring.cachedTail ≤ r.ring.capacity ∧
      r.ring.head - r.ring.tail ≤ r.ring.capacity ∧ r.ring.capacity.toNat = 2 ^ k ∧
      (r.ring.head - r.ring.tail).toNat = (acceptedOf h).length - (takenOf h).length) ∧
    (∀ op r' vs count, r.step op = .ok (r', .pushed vs count) → vs.length < count →
      lastReload (h ++ [⟨r, op, .pushed vs count, r'⟩]) = some (2 ^ k - vs.length)) := by
  obtain ⟨ct, ch, ho⟩ := reaches_ok hk hrun
  have hc := ho.toCore
  obtain ⟨hct, hch, hch', hroom, hpos, hpow⟩ := hc.bounds
  have hcell : ∀ i, UInt64.ofNat i &&& r.ring.mask = cell k i := by
    intro i
    rw [hc.mask_eq]
    rfl
  refine ⟨hc.fifo, ?_, ⟨?_, ?_, hc.capacity_toNat, hc.used⟩, ?_⟩
  · intro i v hi hv
    have hlt : i < (acceptedOf h).length := (List.getElem?_eq_some_iff.mp hv).1
    rw [hcell]
    refine ⟨hc.stored i v hi hv, ?_⟩
    intro op hw
    exact ho.writes_free hw hi hlt rfl
  · rw [UInt64.le_iff_toNat_le, hc.capacity_toNat, hc.cached_used]
    omega
  · rw [UInt64.le_iff_toNat_le, hc.capacity_toNat, hc.used]
    omega
  · intro op r' vs count hs hlt
    have hshort := (shortened_step ho (reaches_shortened hk hrun) hs).2 vs count rfl hlt
    simpa [lastReload] using hshort

/-- A ring of two cells: a bulk push of three is cut short while the consumer pops. -/
theorem ring_lossless_fifo_short :
    ∃ (h : Trace Nat) (r : SharedRing Nat), Run step (start 1 (fun _ => 0)) h r ∧
      acceptedOf h = [1, 2, 3] ∧ takenOf h = [1] ∧ takenOf h <+: acceptedOf h ∧
      r.ring.head - r.ring.tail ≤ r.ring.capacity := by
  have hex : execCheck step (start 1 (fun _ => (0 : Nat)))
      [.push 1, .produce, .produce, .produce, .pop, .pushBulk [2, 3, 4], .consume, .consume,
        .produce, .produce, .consume, .produce, .pushBulk [3], .produce, .produce, .produce]
      (fun h _ => decide (acceptedOf h = [1, 2, 3] ∧ takenOf h = [1])) = true := by
    decide +kernel
  obtain ⟨h, r, hrun, hcheck⟩ := Run.of_execCheck hex
  obtain ⟨hacc, htaken⟩ := of_decide_eq_true hcheck
  obtain ⟨hfifo, -, ⟨-, hle, -⟩, -⟩ := ring_lossless_fifo (by decide) hrun
  exact ⟨h, r, hrun, hacc, htaken, hfifo, hle⟩

end Runs

section Alone

theorem init_start [Inhabited T] {capacity : UInt64} (hle : capacity.toNat ≤ 2 ^ 63) :
    ∃ k, k < 64 ∧ (start k (fun _ => default) : SharedRing T) =
      { ring := .init capacity, push := .idle, pop := .idle } := by
  have hv : (if capacity < 2 then 2 else capacity.toNat) ≤ 2 ^ 63 := by
    split_ifs
    · decide
    · exact hle
  obtain ⟨m, hm, hpow⟩ := roundUpPow2_pow hv
  refine ⟨m, by omega, ?_⟩
  simp only [start, SpscRing.init, hpow]

/-- A push that is not interrupted is `try_push` of the ring by itself. -/
theorem push_alone (q : SpscRing T) (pc : PopPc T) (value : T) :
    ∃ h, Run step ⟨q, .idle, pc⟩ h ⟨(q.tryPush value).1, .idle, pc⟩ ∧
      acceptedOf h = if (q.tryPush value).2 then [value] else [] := by
  have hex : ∃ ops h, exec step ⟨q, .idle, pc⟩ ops = .ok (h, ⟨(q.tryPush value).1, .idle, pc⟩) ∧
      acceptedOf h = if (q.tryPush value).2 then [value] else [] := by
    by_cases hfull : q.head - q.cachedTail ≥ q.capacity
    · by_cases hfull' : q.head - q.tail ≥ q.capacity
      · refine ⟨[.push value, .produce], ?_⟩
        simp [exec, step, beginPush, produce, SpscRing.tryPush, hfull, hfull', acceptedOf]
      · refine ⟨[.push value, .produce, .produce, .produce], ?_⟩
        simp [exec, step, beginPush, produce, SpscRing.tryPush, hfull, hfull', acceptedOf]
    · refine ⟨[.push value, .produce, .produce, .produce], ?_⟩
      simp [exec, step, beginPush, produce, SpscRing.tryPush, hfull, acceptedOf]
  obtain ⟨ops, h, hex, hacc⟩ := hex
  exact ⟨h, Run.of_exec hex, hacc⟩

/-- A pop that is not interrupted is `try_pop` of the ring by itself. -/
theorem pop_alone (q : SpscRing T) (pc : PushPc T) :
    ∃ h, Run step ⟨q, pc, .idle⟩ h ⟨q.tryPop.1, pc, .idle⟩ ∧ takenOf h = q.tryPop.2.toList ∧
      acceptedOf h = [] := by
  have hex : ∃ ops h, exec step ⟨q, pc, .idle⟩ ops = .ok (h, ⟨q.tryPop.1, pc, .idle⟩) ∧
      takenOf h = q.tryPop.2.toList ∧ acceptedOf h = [] := by
    by_cases hempty : q.tail = q.cachedHead
    · by_cases hempty' : q.tail = q.head
      · refine ⟨[.pop, .consume], ?_⟩
        simp [exec, step, beginPop, consume, SpscRing.tryPop, ← hempty, ← hempty', takenOf,
          acceptedOf]
      · refine ⟨[.pop, .consume, .consume, .consume], ?_⟩
        simp [exec, step, beginPop, consume, SpscRing.tryPop, ← hempty, hempty', takenOf,
          acceptedOf]
    · refine ⟨[.pop, .consume, .consume, .consume], ?_⟩
      simp [exec, step, beginPop, consume, SpscRing.tryPop, hempty, takenOf, acceptedOf]
  obtain ⟨ops, h, hex, htaken, hnone⟩ := hex
  exact ⟨h, Run.of_exec hex, htaken, hnone⟩

/-- By calls that are not interrupted, `q₀` has become `q` and accepted these elements. -/
def Served (q₀ q : SpscRing T) (accepted : List T) : Prop :=
  ∃ h, Run step ⟨q₀, .idle, .idle⟩ h ⟨q, .idle, .idle⟩ ∧ acceptedOf h = accepted

namespace Served

variable {q₀ q : SpscRing T} {accepted : List T}

theorem refl (q : SpscRing T) : Served q q [] :=
  ⟨[], .nil, rfl⟩

theorem push (h : Served q₀ q accepted) (value : T) :
    Served q₀ (q.tryPush value).1
      (accepted ++ if (q.tryPush value).2 then [value] else []) := by
  obtain ⟨h₁, hrun, rfl⟩ := h
  obtain ⟨h₂, hpush, hacc⟩ := push_alone q .idle value
  exact ⟨h₁ ++ h₂, hrun.trans hpush, by rw [acceptedOf, List.flatMap_append, ← hacc]; rfl⟩

theorem popTimes (h : Served q₀ q accepted) (n : Nat) : Served q₀ (q.popTimes n) accepted := by
  induction n generalizing q with
  | zero => exact h
  | succ n ih =>
      obtain ⟨h₁, hrun, hacc⟩ := h
      obtain ⟨h₂, hpop, -, hnone⟩ := pop_alone q .idle
      have hboth : acceptedOf (h₁ ++ h₂) = accepted := by
        rw [acceptedOf, List.flatMap_append, ← List.append_nil accepted, ← hacc, ← hnone]
        rfl
      exact ih ⟨h₁ ++ h₂, hrun.trans hpop, hboth⟩

end Served
end Alone

end SharedRing
end GtpMeter
