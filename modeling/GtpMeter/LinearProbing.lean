import Mathlib.Algebra.Ring.Nat
import Mathlib.Data.Finset.Card
import Mathlib.Data.Finset.Range
import Mathlib.Logic.Function.Basic

/-!
# Linear probing on a ring of slots

A hash table with linear probing is a ring of `n` slots, a marker key `vacant`
for the empty ones and a home slot for every key.  This module is the general
theory of such tables; it knows nothing of what the keys are or how the home
slots are computed.

**Ring arithmetic.**  `next`, `walk` and `dist` move around the ring, and
`walks` lists the slots of a number of moves.  Fixing one slot `z` cuts the ring
open behind it: `rank n z` numbers the slots from the one after `z` up to `z`
itself.  All reasoning about wrapping clusters is
done in ranks, where an interval of the ring is an interval of numbers.

**Tables.**  `Chained` is the probe-chain invariant: no key sits in two slots,
and no slot between a key's home and its slot is vacant.

**Results.**
* `Chained.scan_eq_some_iff`, `Chained.scan_vacant`: probing finds a key exactly
  when some slot holds it.
* `Chained.place`: writing a new key where its probe ends keeps the invariant.
* `backShift_spec`: with a vacant slot somewhere, backward-shift deletion ends,
  keeps the invariant and removes exactly one entry.
* `backShift_full`: with no vacant slot it never ends.
-/

namespace GtpMeter
namespace Probing

universe u v

section Ring

/-- The slot after `i`. -/
def next (n i : Nat) : Nat := (i + 1) % n

/-- The slot `d` moves after `a`. -/
def walk (n a d : Nat) : Nat := (a + d) % n

/-- The number of forward moves from `a` to `b`. -/
def dist (n a b : Nat) : Nat := (b + n - a) % n

/-- Position of slot `i` when the ring is cut open behind `z`. -/
def rank (n z i : Nat) : Nat := dist n (next n z) i

variable {n a b i z d : Nat}

theorem next_eq (hi : i < n) :
    next n i = if i + 1 < n then i + 1 else 0 := by
  unfold next
  split_ifs with h
  · exact Nat.mod_eq_of_lt h
  · have : i + 1 = n := by omega
    rw [this, Nat.mod_self]

theorem walk_eq (ha : a < n) (hd : d < n) :
    walk n a d = if a + d < n then a + d else a + d - n := by
  unfold walk
  split_ifs with h
  · exact Nat.mod_eq_of_lt h
  · rw [Nat.mod_eq_sub_mod (by omega)]
    exact Nat.mod_eq_of_lt (by omega)

theorem dist_eq (ha : a < n) (hb : b < n) :
    dist n a b = if a ≤ b then b - a else b + n - a := by
  unfold dist
  split_ifs with h
  · have : b + n - a = b - a + n := by omega
    rw [this, Nat.add_mod_right]
    exact Nat.mod_eq_of_lt (by omega)
  · exact Nat.mod_eq_of_lt (by omega)

/-- A ring of a power of two slots, with the mask that reduces an index to a slot. -/
structure Masked (n mask : Nat) : Prop where
  pow : ∃ m, n = 2 ^ m
  mask_eq : mask = n - 1

theorem Masked.and_eq_mod {mask : Nat} (h : Masked n mask) (x : Nat) : x &&& mask = x % n := by
  obtain ⟨m, hm⟩ := h.pow
  rw [h.mask_eq, hm, Nat.and_two_pow_sub_one_eq_mod]

theorem Masked.pos {mask : Nat} (h : Masked n mask) : 0 < n := by
  obtain ⟨m, hm⟩ := h.pow
  rw [hm]
  exact Nat.two_pow_pos m

theorem Masked.and_lt {mask : Nat} (h : Masked n mask) (x : Nat) : x &&& mask < n := by
  rw [h.and_eq_mod]
  exact Nat.mod_lt _ h.pos

theorem Masked.next_eq {mask : Nat} (h : Masked n mask) (i : Nat) :
    (i + 1) &&& mask = next n i :=
  h.and_eq_mod (i + 1)

theorem next_lt (hi : i < n) : next n i < n :=
  Nat.mod_lt _ (by omega)

theorem walk_lt (ha : a < n) : walk n a d < n :=
  Nat.mod_lt _ (by omega)

theorem dist_lt (ha : a < n) : dist n a b < n :=
  Nat.mod_lt _ (by omega)

@[simp] theorem walk_zero (ha : a < n) : walk n a 0 = a := by
  simp [walk, Nat.mod_eq_of_lt ha]

theorem walk_next : walk n (next n a) d = walk n a (d + 1) := by
  unfold walk next
  rw [Nat.mod_add_mod]
  congr 1
  omega

theorem walk_walk (a j k : Nat) : walk n (walk n a j) k = walk n a (j + k) := by
  unfold walk
  rw [Nat.mod_add_mod, Nat.add_assoc]

theorem walk_dist (ha : a < n) (hb : b < n) :
    walk n a (dist n a b) = b := by
  rw [walk_eq ha (dist_lt ha), dist_eq ha hb]
  split_ifs <;> omega

theorem dist_walk (ha : a < n) (hd : d < n) :
    dist n a (walk n a d) = d := by
  rw [dist_eq ha (walk_lt ha), walk_eq ha hd]
  split_ifs <;> omega

/-- The slots of `k` moves from `a` on. -/
def walks (n : Nat) : Nat → Nat → List Nat
  | _, 0 => []
  | a, k + 1 => a :: walks n (next n a) k

theorem walks_append (ha : a < n) (j k : Nat) :
    walks n a (j + k) = walks n a j ++ walks n (walk n a j) k := by
  induction j generalizing a with
  | zero => rw [Nat.zero_add, walk_zero ha, walks, List.nil_append]
  | succ j ih =>
      rw [Nat.succ_add, walks, walks, ih (next_lt ha), walk_next, List.cons_append]

theorem mem_walks_iff (ha : a < n) {k : Nat} : b ∈ walks n a k ↔ ∃ d < k, walk n a d = b := by
  induction k generalizing a with
  | zero => simp [walks]
  | succ k ih =>
      rw [walks, List.mem_cons, ih (next_lt ha)]
      constructor
      · rintro (rfl | ⟨d, hd, rfl⟩)
        · exact ⟨0, Nat.succ_pos k, walk_zero ha⟩
        · exact ⟨d + 1, Nat.succ_lt_succ hd, walk_next.symm⟩
      · rintro ⟨d, hd, rfl⟩
        cases d with
        | zero => exact .inl (walk_zero ha)
        | succ d => exact .inr ⟨d, Nat.lt_of_succ_lt_succ hd, walk_next⟩

/-- Moves around the ring pass every slot exactly if there are as many of them as slots. -/
theorem walks_cover_iff (ha : a < n) {k : Nat} : (∀ b < n, b ∈ walks n a k) ↔ n ≤ k := by
  constructor
  · intro hall
    by_contra hlt
    have hk : k < n := Nat.not_le.mp hlt
    obtain ⟨d, hd, hsame⟩ := (mem_walks_iff ha).mp (hall (walk n a k) (walk_lt ha))
    have hdist := congrArg (dist n a) hsame
    rw [dist_walk ha (by omega), dist_walk ha hk] at hdist
    omega
  · intro hle b hb
    exact (mem_walks_iff ha).mpr ⟨dist n a b, Nat.lt_of_lt_of_le (dist_lt ha) hle, walk_dist ha hb⟩

theorem rank_eq (hz : z < n) (hi : i < n) :
    rank n z i = if z < i then i - z - 1 else i + n - z - 1 := by
  unfold rank
  rw [dist_eq (next_lt hz) hi, next_eq hz]
  split_ifs <;> omega

theorem rank_lt (hz : z < n) : rank n z i < n :=
  dist_lt (next_lt hz)

theorem rank_self (hz : z < n) : rank n z z = n - 1 := by
  rw [rank_eq hz hz]
  split_ifs <;> omega

theorem rank_inj (hz : z < n) (ha : a < n) (hb : b < n)
    (h : rank n z a = rank n z b) : a = b := by
  rw [rank_eq hz ha, rank_eq hz hb] at h
  split_ifs at h <;> omega

theorem rank_next (hz : z < n) (hi : i < n) (hne : i ≠ z) :
    rank n z (next n i) = rank n z i + 1 := by
  rw [rank_eq hz (next_lt hi), rank_eq hz hi, next_eq hi]
  split_ifs <;> omega

theorem rank_walk (hz : z < n) (ha : a < n) (hd : rank n z a + d < n) :
    rank n z (walk n a d) = rank n z a + d := by
  have hdn : d < n := by omega
  rw [rank_eq hz ha] at hd ⊢
  rw [rank_eq hz (walk_lt ha), walk_eq ha hdn]
  split_ifs at hd ⊢ <;> omega

theorem dist_eq_rank_sub (hz : z < n) (ha : a < n) (hb : b < n)
    (h : rank n z a ≤ rank n z b) :
    dist n a b = rank n z b - rank n z a := by
  rw [rank_eq hz ha, rank_eq hz hb] at h ⊢
  rw [dist_eq ha hb]
  split_ifs at h ⊢ <;> omega

/-- A walk that goes backwards in rank passes the cut. -/
theorem dist_eq_of_rank_lt (hz : z < n) (ha : a < n) (hb : b < n)
    (h : rank n z b < rank n z a) :
    dist n a b = rank n z b + n - rank n z a := by
  rw [rank_eq hz ha, rank_eq hz hb] at h ⊢
  rw [dist_eq ha hb]
  split_ifs at h ⊢ <;> omega

end Ring

section Scan

variable {K : Type u} [DecidableEq K]

/-- Where a probe for `k` started at slot `i` stops within `r` slots: the first
one that holds `k` or is vacant. -/
def scan (n : Nat) (vacant : K) (keys : Nat → K) (k : K) : Nat → Nat → Option Nat
  | 0, _ => none
  | r + 1, i =>
      if keys i = k ∨ keys i = vacant then some i
      else scan n vacant keys k r (next n i)

variable {n : Nat} {vacant : K} {keys : Nat → K} {k : K}

theorem scan_some :
    ∀ {r i j : Nat}, i < n → scan n vacant keys k r i = some j →
      ∃ d, d < r ∧ j = walk n i d ∧ (keys j = k ∨ keys j = vacant) ∧
        ∀ d', d' < d → keys (walk n i d') ≠ k ∧ keys (walk n i d') ≠ vacant
  | 0, _, _, _, h => by simp [scan] at h
  | r + 1, i, j, hi, h => by
      unfold scan at h
      split_ifs at h with hstop
      · obtain rfl : i = j := by simpa using h
        exact ⟨0, by omega, (walk_zero hi).symm, hstop, by omega⟩
      · obtain ⟨d, hd, hj, hkey, hbefore⟩ := scan_some (next_lt hi) h
        refine ⟨d + 1, by omega, by rw [hj, walk_next], hkey, ?_⟩
        intro d' hd'
        cases d' with
        | zero =>
            rw [walk_zero hi]
            exact not_or.mp hstop
        | succ d' =>
            rw [← walk_next]
            exact hbefore d' (by omega)

theorem scan_none :
    ∀ {r i : Nat}, i < n → scan n vacant keys k r i = none →
      ∀ d, d < r → keys (walk n i d) ≠ k ∧ keys (walk n i d) ≠ vacant
  | 0, _, _, _, d, hd => by omega
  | r + 1, i, hi, h, d, hd => by
      unfold scan at h
      split_ifs at h with hstop
      cases d with
      | zero =>
          rw [walk_zero hi]
          exact not_or.mp hstop
      | succ d =>
          rw [← walk_next]
          exact scan_none (next_lt hi) h d (by omega)

theorem scan_of_first :
    ∀ {r i d : Nat}, i < n → d < r →
      (keys (walk n i d) = k ∨ keys (walk n i d) = vacant) →
      (∀ d', d' < d → keys (walk n i d') ≠ k ∧ keys (walk n i d') ≠ vacant) →
      scan n vacant keys k r i = some (walk n i d)
  | 0, _, _, _, hd, _, _ => by omega
  | r + 1, i, d, hi, hd, hstop, hbefore => by
      cases d with
      | zero =>
          rw [walk_zero hi] at hstop ⊢
          simp [scan, hstop]
      | succ d =>
          have h0 := hbefore 0 (by omega)
          rw [walk_zero hi] at h0
          have hrec :
              scan n vacant keys k r (next n i) = some (walk n (next n i) d) := by
            apply scan_of_first (next_lt hi) (by omega)
            · rw [walk_next]
              exact hstop
            · intro d' hd'
              rw [walk_next]
              exact hbefore (d' + 1) (by omega)
          rw [walk_next] at hrec
          simpa [scan, h0.1, h0.2] using hrec

/-- A full turn cannot miss a vacant slot. -/
theorem scan_isSome_of_vacant {i z : Nat} (hi : i < n) (hz : z < n)
    (hzv : keys z = vacant) :
    ∃ j, scan n vacant keys k n i = some j := by
  cases h : scan n vacant keys k n i with
  | some j => exact ⟨j, rfl⟩
  | none =>
      have hne := (scan_none hi h (dist n i z) (dist_lt hi)).2
      rw [walk_dist hi hz] at hne
      exact absurd hzv hne

end Scan

section Tables

variable {K : Type u}

/-- The probe-chain invariant. -/
structure Chained (n : Nat) (home : K → Nat) (vacant : K) (keys : Nat → K) : Prop where
  unique : ∀ i j, i < n → j < n → keys i = keys j → keys i ≠ vacant → i = j
  chain : ∀ j, j < n → keys j ≠ vacant →
    ∀ d, d < dist n (home (keys j)) j → keys (walk n (home (keys j)) d) ≠ vacant

variable {n : Nat} {home : K → Nat} {vacant : K} {keys : Nat → K} {k : K}

/-- With a vacant slot `z` the chains are intervals of ranks. -/
theorem Chained.rank_chain (hc : Chained n home vacant keys) (hhome : ∀ x, home x < n)
    {z j : Nat} (hz : z < n) (hzv : keys z = vacant) (hj : j < n) (hjv : keys j ≠ vacant) :
    rank n z (home (keys j)) ≤ rank n z j ∧
      ∀ i, i < n → rank n z (home (keys j)) ≤ rank n z i → rank n z i < rank n z j →
        keys i ≠ vacant := by
  have hh := hhome (keys j)
  have hrz := rank_self hz
  have hle : rank n z (home (keys j)) ≤ rank n z j := by
    by_contra hlt
    push Not at hlt
    have hd := dist_eq_of_rank_lt hz hh hj hlt
    have hrh := rank_lt (i := home (keys j)) hz
    have hdz := dist_eq_rank_sub hz hh hz (by omega)
    have hne := hc.chain j hj hjv (dist n (home (keys j)) z) (by omega)
    rw [walk_dist hh hz] at hne
    exact hne hzv
  refine ⟨hle, ?_⟩
  intro i hi hlow hhigh
  have hdj := dist_eq_rank_sub hz hh hj hle
  have hdi := dist_eq_rank_sub hz hh hi hlow
  have hne := hc.chain j hj hjv (dist n (home (keys j)) i) (by omega)
  rwa [walk_dist hh hi] at hne

/-- Conversely, rank intervals without vacant slots are probe chains. -/
theorem chained_of_rank (hhome : ∀ x, home x < n) {z : Nat} (hz : z < n)
    (hunique : ∀ i j, i < n → j < n → keys i = keys j → keys i ≠ vacant → i = j)
    (hrank : ∀ j, j < n → keys j ≠ vacant →
      rank n z (home (keys j)) ≤ rank n z j ∧
        ∀ i, i < n → rank n z (home (keys j)) ≤ rank n z i → rank n z i < rank n z j →
          keys i ≠ vacant) :
    Chained n home vacant keys := by
  refine ⟨hunique, ?_⟩
  intro j hj hjv d hd
  obtain ⟨hle, hbetween⟩ := hrank j hj hjv
  have hh := hhome (keys j)
  rw [dist_eq_rank_sub hz hh hj hle] at hd
  have hrj := rank_lt (i := j) hz
  have hrw := rank_walk hz hh (d := d) (by omega)
  exact hbetween _ (walk_lt hh) (by omega) (by omega)

variable [DecidableEq K]

/-- The slots in use. -/
def occupied (n : Nat) (vacant : K) (keys : Nat → K) : Finset Nat :=
  (Finset.range n).filter (fun i => keys i ≠ vacant)

/-- Some slot holds the entry `(k, v)`. -/
def Stored {V : Type v} (n : Nat) (keys : Nat → K) (vals : Nat → V) (k : K) (v : V) : Prop :=
  ∃ i, i < n ∧ keys i = k ∧ vals i = v

theorem mem_occupied {i : Nat} :
    i ∈ occupied n vacant keys ↔ i < n ∧ keys i ≠ vacant := by
  simp [occupied]

theorem occupied_card_le : (occupied n vacant keys).card ≤ n :=
  le_trans (Finset.card_filter_le _ _) (by simp)

theorem exists_vacant_iff :
    (∃ z, z < n ∧ keys z = vacant) ↔ (occupied n vacant keys).card < n := by
  constructor
  · rintro ⟨z, hz, hzv⟩
    have hsub : occupied n vacant keys ⊆ (Finset.range n).erase z := by
      intro i hi
      rw [mem_occupied] at hi
      rw [Finset.mem_erase, Finset.mem_range]
      exact ⟨fun h => hi.2 (h ▸ hzv), hi.1⟩
    have hcard := Finset.card_le_card hsub
    rw [Finset.card_erase_of_mem (Finset.mem_range.mpr hz), Finset.card_range] at hcard
    omega
  · intro hlt
    by_contra hno
    push Not at hno
    have hall : occupied n vacant keys = Finset.range n := by
      apply Finset.filter_true_of_mem
      intro i hi
      exact hno i (Finset.mem_range.mp hi)
    rw [hall, Finset.card_range] at hlt
    omega

theorem occupied_update_vacant {j : Nat} (hj : j < n) (hjv : keys j = vacant)
    (hk : k ≠ vacant) :
    (occupied n vacant (Function.update keys j k)).card =
      (occupied n vacant keys).card + 1 := by
  have hins : occupied n vacant (Function.update keys j k) =
      insert j (occupied n vacant keys) := by
    ext i
    by_cases h : i = j
    · subst h
      simp [mem_occupied, hj, hk]
    · simp [mem_occupied, h]
  rw [hins, Finset.card_insert_of_notMem]
  simp [mem_occupied, hjv]

theorem occupied_update_erase {j : Nat} (hj : j < n) (hjv : keys j ≠ vacant) :
    (occupied n vacant (Function.update keys j vacant)).card + 1 =
      (occupied n vacant keys).card := by
  have hera : occupied n vacant (Function.update keys j vacant) =
      (occupied n vacant keys).erase j := by
    ext i
    by_cases h : i = j
    · subst h
      simp [mem_occupied]
    · simp [mem_occupied, h]
  rw [hera]
  exact Finset.card_erase_add_one (mem_occupied.mpr ⟨hj, hjv⟩)

theorem occupied_update_occupied {j : Nat} (hjv : keys j ≠ vacant) (hk : k ≠ vacant) :
    occupied n vacant (Function.update keys j k) = occupied n vacant keys := by
  ext i
  by_cases h : i = j
  · subst h
    simp [mem_occupied, hk, hjv]
  · simp [mem_occupied, h]

namespace Chained

/-- Probing for a stored key stops at its slot. -/
theorem scan_of_stored (hc : Chained n home vacant keys) (hhome : home k < n)
    (hk : k ≠ vacant) {j : Nat} (hj : j < n) (hkj : keys j = k) :
    scan n vacant keys k n (home k) = some j := by
  have hstop : keys (walk n (home k) (dist n (home k) j)) = k := by
    rw [walk_dist hhome hj, hkj]
  have hscan : scan n vacant keys k n (home k) =
      some (walk n (home k) (dist n (home k) j)) := by
    apply scan_of_first hhome (dist_lt hhome) (Or.inl hstop)
    intro d hd
    have hne : keys (walk n (home k) d) ≠ vacant := by
      have := hc.chain j hj (by rw [hkj]; exact hk) d
      rw [hkj] at this
      exact this hd
    refine ⟨?_, hne⟩
    intro heq
    have hjd : walk n (home k) d = j :=
      hc.unique _ _ (walk_lt hhome) hj (by rw [heq, hkj]) hne
    have hdn : d < n := by
      have := dist_lt (b := j) hhome
      omega
    have := dist_walk hhome hdn
    rw [hjd] at this
    omega
  rw [hscan, walk_dist hhome hj]

/-- A probe that stops on the key found the only slot with it; one that stops
elsewhere, or nowhere, shows that no slot holds it. -/
theorem scan_eq_some_iff (hc : Chained n home vacant keys) (hhome : home k < n)
    (hk : k ≠ vacant) {j : Nat} :
    (scan n vacant keys k n (home k) = some j ∧ keys j = k) ↔ j < n ∧ keys j = k := by
  constructor
  · rintro ⟨hscan, hkj⟩
    obtain ⟨d, _, rfl, _⟩ := scan_some hhome hscan
    exact ⟨walk_lt hhome, hkj⟩
  · rintro ⟨hj, hkj⟩
    exact ⟨hc.scan_of_stored hhome hk hj hkj, hkj⟩

/-- A probe that stops on a vacant slot shows that no slot holds the key. -/
theorem scan_vacant (hc : Chained n home vacant keys) (hhome : home k < n)
    (hk : k ≠ vacant) {j : Nat} (hscan : scan n vacant keys k n (home k) = some j)
    (hj : keys j = vacant) :
    ∀ i, i < n → keys i ≠ k := by
  intro i hi hki
  have := hc.scan_of_stored hhome hk hi hki
  rw [hscan] at this
  obtain rfl : j = i := by simpa using this
  exact hk (hki.symm.trans hj)

/-- Writing a new key where its probe ended keeps the chains. -/
theorem place (hc : Chained n home vacant keys) (hhome : home k < n)
    (hk : k ≠ vacant) {j : Nat} (hscan : scan n vacant keys k n (home k) = some j)
    (hjv : keys j = vacant) :
    Chained n home vacant (Function.update keys j k) := by
  have habsent := hc.scan_vacant hhome hk hscan hjv
  obtain ⟨d, hd, rfl, _, hbefore⟩ := scan_some hhome hscan
  have hnew : ∀ i, keys i ≠ vacant →
      Function.update keys (walk n (home k) d) k i ≠ vacant := by
    intro i hi
    by_cases h : i = walk n (home k) d
    · subst h
      simpa using hk
    · simpa [h] using hi
  refine ⟨?_, ?_⟩
  · intro i i' hi hi' heq hne
    by_cases h : i = walk n (home k) d <;> by_cases h' : i' = walk n (home k) d
    · rw [h, h']
    · subst h
      simp only [Function.update_self, Function.update_of_ne h'] at heq
      exact absurd heq.symm (habsent i' hi')
    · subst h'
      simp only [Function.update_self, Function.update_of_ne h] at heq
      exact absurd heq (habsent i hi)
    · simp only [Function.update_of_ne h, Function.update_of_ne h'] at heq hne
      exact hc.unique i i' hi hi' heq hne
  · intro i hi hne d' hd'
    by_cases h : i = walk n (home k) d
    · subst h
      simp only [Function.update_self] at hd' ⊢
      rw [dist_walk hhome hd] at hd'
      exact hnew _ (hbefore d' hd').2
    · simp only [Function.update_of_ne h] at hne hd' ⊢
      exact hnew _ (hc.chain i hi hne d' hd')

end Chained

end Tables

section BackwardShift

variable {K : Type u}

/-- Loop invariant of the deletion, in ranks over a vacant slot `z`: everything
off the hole is chained when the hole counts as filled, and the entries already
scanned have their home behind the hole. -/
structure Shifting (n : Nat) (home : K → Nat) (vacant : K) (keys : Nat → K)
    (z hole i : Nat) : Prop where
  hole_lt : hole < n
  scan_lt : i < n
  hole_used : keys hole ≠ vacant
  ahead : rank n z hole < rank n z i
  used : ∀ j, j < n → rank n z hole < rank n z j → rank n z j < rank n z i → keys j ≠ vacant
  unique : ∀ j j', j < n → j' < n → j ≠ hole → j' ≠ hole →
    keys j = keys j' → keys j ≠ vacant → j = j'
  home_le : ∀ j, j < n → j ≠ hole → keys j ≠ vacant →
    rank n z (home (keys j)) ≤ rank n z j
  chain : ∀ j, j < n → j ≠ hole → keys j ≠ vacant →
    ∀ j', j' < n → rank n z (home (keys j)) ≤ rank n z j' → rank n z j' < rank n z j →
      keys j' ≠ vacant
  scanned : ∀ j, j < n → rank n z hole < rank n z j → rank n z j < rank n z i →
    rank n z hole < rank n z (home (keys j))

variable {n : Nat} {home : K → Nat} {vacant : K} {keys : Nat → K} {z hole i : Nat}

namespace Shifting

theorem ne_hole (h : Shifting n home vacant keys z hole i) : i ≠ hole := by
  intro he
  have := h.ahead
  rw [he] at this
  omega

/-- The code's distance test asks whether the home is at or before the hole. -/
theorem test_iff (h : Shifting n home vacant keys z hole i) (hhome : ∀ x, home x < n)
    (hz : z < n) (hi : keys i ≠ vacant) :
    dist n hole i ≤ dist n (home (keys i)) i ↔
      rank n z (home (keys i)) ≤ rank n z hole := by
  have hle := h.home_le i h.scan_lt h.ne_hole hi
  have hahead := h.ahead
  rw [dist_eq_rank_sub hz h.hole_lt h.scan_lt (by omega),
    dist_eq_rank_sub hz (hhome _) h.scan_lt hle]
  omega

theorem keep (h : Shifting n home vacant keys z hole i) (hz : z < n)
    (hzv : keys z = vacant) (hi : keys i ≠ vacant)
    (htest : rank n z hole < rank n z (home (keys i))) :
    Shifting n home vacant keys z hole (next n i) := by
  have hiz : i ≠ z := fun he => hi (he ▸ hzv)
  have hnext := rank_next hz h.scan_lt hiz
  have hahead := h.ahead
  refine ⟨h.hole_lt, next_lt h.scan_lt, h.hole_used, by omega, ?_, h.unique, h.home_le,
    h.chain, ?_⟩
  · intro j hj hlow hhigh
    by_cases he : rank n z j = rank n z i
    · rw [rank_inj hz hj h.scan_lt he]
      exact hi
    · exact h.used j hj hlow (by omega)
  · intro j hj hlow hhigh
    by_cases he : rank n z j = rank n z i
    · rw [rank_inj hz hj h.scan_lt he]
      exact htest
    · exact h.scanned j hj hlow (by omega)

theorem move (h : Shifting n home vacant keys z hole i) (hz : z < n)
    (hzv : keys z = vacant) (hi : keys i ≠ vacant)
    (htest : rank n z (home (keys i)) ≤ rank n z hole) :
    Shifting n home vacant (Function.update keys hole (keys i)) z i (next n i) := by
  have hiz : i ≠ z := fun he => hi (he ▸ hzv)
  have hnext := rank_next hz h.scan_lt hiz
  have hih := h.ne_hole
  have hahead := h.ahead
  -- filling the hole makes no slot vacant
  have hfill : ∀ j, keys j ≠ vacant → Function.update keys hole (keys i) j ≠ vacant := by
    intro j hj
    by_cases he : j = hole
    · subst he
      simpa using hi
    · simpa [he] using hj
  refine ⟨h.scan_lt, next_lt h.scan_lt, hfill i hi, by omega, ?_, ?_, ?_, ?_, ?_⟩
  · intro j hj hlow hhigh
    omega
  · intro j j' hj hj' hji hji' heq hne
    by_cases he : j = hole <;> by_cases he' : j' = hole
    · rw [he, he']
    · subst he
      simp only [Function.update_self, Function.update_of_ne he'] at heq
      exact absurd (h.unique i j' h.scan_lt hj' hih he' heq hi).symm hji'
    · subst he'
      simp only [Function.update_self, Function.update_of_ne he] at heq hne
      exact absurd (h.unique j i hj h.scan_lt he hih heq hne) hji
    · simp only [Function.update_of_ne he, Function.update_of_ne he'] at heq hne
      exact h.unique j j' hj hj' he he' heq hne
  · intro j hj hji hne
    by_cases he : j = hole
    · subst he
      simpa using htest
    · simp only [Function.update_of_ne he] at hne ⊢
      exact h.home_le j hj he hne
  · intro j hj hji hne j' hj' hlow hhigh
    apply hfill
    by_cases he : j = hole
    · -- the moved entry keeps a prefix of its old chain
      subst he
      simp only [Function.update_self] at hlow
      exact h.chain i h.scan_lt hih hi j' hj' hlow (by omega)
    · simp only [Function.update_of_ne he] at hne hlow
      exact h.chain j hj he hne j' hj' hlow hhigh
  · intro j hj hlow hhigh
    omega

/-- At a vacant slot no chain still runs through the hole. -/
theorem finish (h : Shifting n home vacant keys z hole i) (hhome : ∀ x, home x < n)
    (hz : z < n) (hi : keys i = vacant) :
    Chained n home vacant (Function.update keys hole vacant) := by
  have hahead := h.ahead
  apply chained_of_rank hhome hz
  · intro j j' hj hj' heq hne
    have hjh : j ≠ hole := by
      rintro rfl
      simp at hne
    have hjh' : j' ≠ hole := by
      rintro rfl
      rw [heq] at hne
      simp at hne
    simp only [Function.update_of_ne hjh, Function.update_of_ne hjh'] at heq hne
    exact h.unique j j' hj hj' hjh hjh' heq hne
  · intro j hj hne
    have hjh : j ≠ hole := by
      rintro rfl
      simp at hne
    simp only [Function.update_of_ne hjh] at hne ⊢
    refine ⟨h.home_le j hj hjh hne, ?_⟩
    intro j' hj' hlow hhigh
    by_cases hej : j' = hole
    · subst hej
      exfalso
      by_cases hscanned : rank n z j < rank n z i
      · have := h.scanned j hj hhigh hscanned
        omega
      · have hji : rank n z i ≠ rank n z j := by
          intro he
          rw [← rank_inj hz h.scan_lt hj he] at hne
          exact hne hi
        exact h.chain j hj hjh hne i h.scan_lt (by omega) (by omega) hi
    · simp only [Function.update_of_ne hej]
      exact h.chain j hj hjh hne j' hj' hlow hhigh

end Shifting

/-- The slot after the hole starts the loop invariant. -/
theorem Chained.shifting (hc : Chained n home vacant keys) (hhome : ∀ x, home x < n)
    (hz : z < n) (hzv : keys z = vacant) (hhole : hole < n) (hused : keys hole ≠ vacant) :
    Shifting n home vacant keys z hole (next n hole) := by
  have hhz : hole ≠ z := fun he => hused (he ▸ hzv)
  have hnext := rank_next hz hhole hhz
  refine ⟨hhole, next_lt hhole, hused, by omega, ?_, ?_, ?_, ?_, ?_⟩
  · intro j hj hlow hhigh
    omega
  · intro j j' hj hj' _ _ heq hne
    exact hc.unique j j' hj hj' heq hne
  · intro j hj _ hne
    exact (hc.rank_chain hhome hz hzv hj hne).1
  · intro j hj _ hne
    exact (hc.rank_chain hhome hz hzv hj hne).2
  · intro j hj hlow hhigh
    omega

variable {V : Type v} {vals : Nat → V} [DecidableEq K]

/-- Backward-shift deletion of the entry in slot `hole`, scanning from slot
`i`.  An entry moves into the hole unless its home lies behind the hole; the
first vacant slot ends the scan.  `none` means that the fuel ran out. -/
def backShift (n : Nat) (home : K → Nat) (vacant : K) :
    Nat → (Nat → K) → (Nat → V) → Nat → Nat → Option ((Nat → K) × (Nat → V))
  | 0, _, _, _, _ => none
  | fuel + 1, keys, vals, hole, i =>
      if keys i = vacant then some (Function.update keys hole vacant, vals)
      else if dist n hole i ≤ dist n (home (keys i)) i then
        backShift n home vacant fuel (Function.update keys hole (keys i))
          (Function.update vals hole (vals i)) i (next n i)
      else backShift n home vacant fuel keys vals hole (next n i)

/-- What a finished deletion of the entry in slot `hole` leaves. -/
structure Removed (n : Nat) (home : K → Nat) (vacant : K) (keys : Nat → K) (vals : Nat → V)
    (hole : Nat) (keys' : Nat → K) (vals' : Nat → V) : Prop where
  chained : Chained n home vacant keys'
  card : (occupied n vacant keys').card + 1 = (occupied n vacant keys).card
  stored : ∀ k v, k ≠ vacant →
    (Stored n keys' vals' k v ↔ ∃ i, i < n ∧ i ≠ hole ∧ keys i = k ∧ vals i = v)

theorem Removed.of_finish (h : Shifting n home vacant keys z hole i)
    (hhome : ∀ x, home x < n) (hz : z < n) (hi : keys i = vacant) :
    Removed n home vacant keys vals hole (Function.update keys hole vacant) vals := by
  refine ⟨h.finish hhome hz hi, occupied_update_erase h.hole_lt h.hole_used, ?_⟩
  intro k v hk
  constructor
  · rintro ⟨j, hj, hkj, hvj⟩
    have hjh : j ≠ hole := by
      rintro rfl
      simp only [Function.update_self] at hkj
      exact hk hkj.symm
    rw [Function.update_of_ne hjh] at hkj
    exact ⟨j, hj, hjh, hkj, hvj⟩
  · rintro ⟨j, hj, hjh, hkj, hvj⟩
    exact ⟨j, hj, by rwa [Function.update_of_ne hjh], hvj⟩

/-- Filling the hole from slot `i` and then deleting at `i` deletes at the hole. -/
theorem Removed.of_move {keys' : Nat → K} {vals' : Nat → V}
    (h : Shifting n home vacant keys z hole i) (hi : keys i ≠ vacant)
    (hrem : Removed n home vacant (Function.update keys hole (keys i))
      (Function.update vals hole (vals i)) i keys' vals') :
    Removed n home vacant keys vals hole keys' vals' := by
  have hih := h.ne_hole
  refine ⟨hrem.chained, ?_, ?_⟩
  · rw [hrem.card, occupied_update_occupied h.hole_used hi]
  · intro k v hk
    rw [hrem.stored k v hk]
    constructor
    · rintro ⟨j, hj, hji, hkj, hvj⟩
      by_cases he : j = hole
      · subst he
        simp only [Function.update_self] at hkj hvj
        exact ⟨i, h.scan_lt, hih, hkj, hvj⟩
      · simp only [Function.update_of_ne he] at hkj hvj
        exact ⟨j, hj, he, hkj, hvj⟩
    · rintro ⟨j, hj, hjh, hkj, hvj⟩
      by_cases he : j = i
      · subst he
        exact ⟨hole, h.hole_lt, fun hh => hjh hh.symm, by simpa using hkj, by simpa using hvj⟩
      · exact ⟨j, hj, he, by simpa [hjh] using hkj, by simpa [hjh] using hvj⟩

/-- From the loop invariant the loop ends within the slots that are left. -/
theorem backShift_of_shifting (hhome : ∀ x, home x < n) (hz : z < n) :
    ∀ (fuel : Nat) (keys : Nat → K) (vals : Nat → V) (hole i : Nat),
      keys z = vacant → hole ≠ z → Shifting n home vacant keys z hole i →
      n ≤ fuel + rank n z i →
      ∃ keys' vals', backShift n home vacant fuel keys vals hole i = some (keys', vals') ∧
        Removed n home vacant keys vals hole keys' vals'
  | 0, _, _, _, i, _, _, _, hfuel => by
      have := rank_lt (i := i) hz
      omega
  | fuel + 1, keys, vals, hole, i, hzv, hhz, h, hfuel => by
      by_cases hi : keys i = vacant
      · exact ⟨_, _, by simp [backShift, hi], Removed.of_finish h hhome hz hi⟩
      · have hiz : i ≠ z := fun he => hi (he ▸ hzv)
        have hnext := rank_next hz h.scan_lt hiz
        by_cases htest : dist n hole i ≤ dist n (home (keys i)) i
        · have hmove := h.move hz hzv hi ((h.test_iff hhome hz hi).mp htest)
          obtain ⟨keys', vals', hrun, hrem⟩ :=
            backShift_of_shifting hhome hz fuel _ (Function.update vals hole (vals i)) _ _
              (by rwa [Function.update_of_ne hhz.symm]) hiz hmove (by omega)
          exact ⟨keys', vals', by simp [backShift, hi, htest, hrun], hrem.of_move h hi⟩
        · have hkeep := h.keep hz hzv hi
            (by rw [h.test_iff hhome hz hi] at htest; omega)
          obtain ⟨keys', vals', hrun, hrem⟩ :=
            backShift_of_shifting hhome hz fuel keys vals _ _ hzv hhz hkeep (by omega)
          exact ⟨keys', vals', by simp [backShift, hi, htest, hrun], hrem⟩

/-- **Backward-shift deletion.**  If some slot is vacant, a full turn of fuel is
enough and exactly the entry in `hole` is gone. -/
theorem backShift_spec (hc : Chained n home vacant keys) (hhome : ∀ x, home x < n)
    (hvac : ∃ z, z < n ∧ keys z = vacant) (hhole : hole < n) (hused : keys hole ≠ vacant) :
    ∃ keys' vals',
      backShift n home vacant n keys vals hole (next n hole) = some (keys', vals') ∧
        Removed n home vacant keys vals hole keys' vals' := by
  obtain ⟨z, hz, hzv⟩ := hvac
  have hhz : hole ≠ z := fun he => hused (he ▸ hzv)
  exact backShift_of_shifting hhome hz n keys vals hole _ hzv hhz
    (hc.shifting hhome hz hzv hhole hused) (by omega)

/-- Without a vacant slot the loop goes round for ever. -/
theorem backShift_full :
    ∀ (fuel : Nat) (keys : Nat → K) (vals : Nat → V) (hole i : Nat), i < n →
      (∀ j, j < n → keys j ≠ vacant) →
      backShift n home vacant fuel keys vals hole i = none
  | 0, _, _, _, _, _, _ => rfl
  | fuel + 1, keys, vals, hole, i, hi, hfull => by
      have hne := hfull i hi
      have hfill : ∀ j, j < n → Function.update keys hole (keys i) j ≠ vacant := by
        intro j hj
        by_cases he : j = hole
        · subst he
          simpa using hne
        · simpa [he] using hfull j hj
      unfold backShift
      rw [if_neg hne]
      split_ifs
      · exact backShift_full fuel _ _ _ _ (next_lt hi) hfill
      · exact backShift_full fuel _ _ _ _ (next_lt hi) hfull

/-- The entries left by a deletion are those under the other keys. -/
theorem Removed.stored_iff {keys' : Nat → K} {vals' : Nat → V}
    (hrem : Removed n home vacant keys vals hole keys' vals')
    (hc : Chained n home vacant keys) (hhole : hole < n) {k : K} {v : V}
    (hk : k ≠ vacant) :
    Stored n keys' vals' k v ↔ Stored n keys vals k v ∧ k ≠ keys hole := by
  rw [hrem.stored k v hk]
  constructor
  · rintro ⟨j, hj, hjh, rfl, rfl⟩
    exact ⟨⟨j, hj, rfl, rfl⟩, fun he => hjh (hc.unique j hole hj hhole he hk)⟩
  · rintro ⟨⟨j, hj, rfl, rfl⟩, hne⟩
    exact ⟨j, hj, fun he => hne (by rw [he]), rfl, rfl⟩

end BackwardShift

end Probing
end GtpMeter
