import GtpMeter.FlatHash
import Mathlib.Data.Finmap

/-!
# Correctness of the flat TEID table

The loops of `FlatHash` are read as the probe and the backward shift of
`LinearProbing`.  From there every operation gets one specification in terms of
`lookup`, the partial map the table stands for:

* `find_table`, `lookup_insert`, `erase_spec`, `lookup_clear`: what an
  operation does to the map;
* `Wf`: the representation invariant, kept by all of them;
* `erase_none_iff`, `eraseFuel_none`: when a deletion does not return.
-/

namespace GtpMeter
namespace FlatHashU32

open Probing

variable {V : Type} {hash : UInt32 → UInt32} {t : FlatHashU32 V} {key : UInt32} {value : V}

/-- The slot where the probe for `key` starts. -/
def home (hash : UInt32 → UInt32) (mask : Nat) (key : UInt32) : Nat :=
  (hash key).toNat &&& mask

/-- Capacity and mask as the constructor sets them. -/
structure Shape (t : FlatHashU32 V) : Prop where
  pow : ∃ m, m ≤ 64 ∧ t.capacity = 2 ^ m
  mask_eq : t.mask = t.capacity - 1

/-- Representation invariant. -/
structure Wf (hash : UInt32 → UInt32) (t : FlatHashU32 V) : Prop extends Shape t where
  chained : Chained t.capacity (home hash t.mask) kEmptyKey t.keys
  size_eq : t.size = (occupied t.capacity kEmptyKey t.keys).card

section Masking

theorem Shape.masked (h : Shape t) : Masked t.capacity t.mask := by
  obtain ⟨m, _, hm⟩ := h.pow
  exact ⟨⟨m, hm⟩, h.mask_eq⟩

theorem Shape.mask_succ (h : Shape t) : t.mask + 1 = t.capacity := by
  have := h.masked.pos
  rw [h.mask_eq]
  omega

theorem Shape.home_lt (h : Shape t) (k : UInt32) : home hash t.mask k < t.capacity :=
  h.masked.and_lt _

/-- The wrapping difference of two slots, masked, is their distance. -/
theorem Shape.dist_eq (h : Shape t) {a : Nat} (b : Nat) (ha : a < t.capacity) :
    sizeSub b a &&& t.mask = Probing.dist t.capacity a b := by
  obtain ⟨m, hm64, hm⟩ := h.pow
  have hdvd : t.capacity ∣ 2 ^ 64 := by
    rw [hm]
    exact Nat.pow_dvd_pow 2 hm64
  obtain ⟨c, hc⟩ := hdvd
  cases c with
  | zero => simp at hc
  | succ c =>
      unfold sizeSub Probing.dist
      rw [h.masked.and_eq_mod, Nat.mod_mod_of_dvd _ ⟨c + 1, hc⟩, hc]
      have hsplit :
          b + t.capacity * (c + 1) - a = b + t.capacity - a + t.capacity * c := by
        rw [Nat.mul_add, Nat.mul_one]
        omega
      rw [hsplit, Nat.add_mul_mod_self_left]

end Masking

section Loops

/-- The loop of `find` is a probe. -/
theorem findLoop_fst (h : Shape t) (r idx : Nat) (probes : UInt64) :
    (findLoop t key r idx probes).1 =
      (scan t.capacity kEmptyKey t.keys key r idx).bind
        (fun j => if t.keys j = key then some (t.values j) else none) := by
  induction r generalizing idx probes with
  | zero => rfl
  | succ r ih =>
      unfold findLoop scan
      by_cases h1 : t.keys idx = key
      · simp [h1]
      · by_cases h2 : t.keys idx = kEmptyKey
        · rw [if_neg h1, if_pos h2, if_pos (Or.inr h2)]
          simp [h1]
        · simp only [h1, h2, if_false, or_self, ih, h.masked.next_eq]

/-- What the loop of `insert` leaves when it stops at slot `j`. -/
def placed (t : FlatHashU32 V) (key : UInt32) (value : V) (j : Nat) : FlatHashU32 V :=
  if t.keys j = kEmptyKey then
    { t with
      keys := Function.update t.keys j key
      values := Function.update t.values j value
      size := t.size + 1 }
  else { t with values := Function.update t.values j value }

theorem insertLoop_eq (h : Shape t) (hk : key ≠ kEmptyKey) (r idx : Nat) (p : UInt64) :
    ∃ p', insertLoop key value r idx { t with probes := p } =
      match scan t.capacity kEmptyKey t.keys key r idx with
      | none => ({ t with probes := p' }, false)
      | some j => ({ placed t key value j with probes := p' }, true) := by
  induction r generalizing idx p with
  | zero => exact ⟨p, rfl⟩
  | succ r ih =>
      by_cases h1 : t.keys idx = kEmptyKey
      · exact ⟨p + 1, by simp [insertLoop, scan, placed, h1]⟩
      · by_cases h2 : t.keys idx = key
        · exact ⟨p + 1, by simp [insertLoop, scan, placed, h2, hk]⟩
        · obtain ⟨p', hp'⟩ := ih (next t.capacity idx) (p + 1)
          refine ⟨p', ?_⟩
          simp only [insertLoop, scan, h1, h2, if_false, or_self, h.masked.next_eq]
          exact hp'

/-- The loop of `remove_at` is the backward shift. -/
theorem removeAt_eq (fuel hole i : Nat) (h : Shape t) (hhole : hole < t.capacity)
    (hi : i < t.capacity) :
    removeAt hash fuel t hole i =
      (backShift t.capacity (home hash t.mask) kEmptyKey fuel t.keys t.values hole i).map
        (fun kv => { t with keys := kv.1, values := kv.2 }) := by
  induction fuel generalizing t hole i with
  | zero => rfl
  | succ fuel ih =>
      have hnext := next_lt hi
      have hideal : (hash (t.keys i)).toNat &&& t.mask = home hash t.mask (t.keys i) := rfl
      unfold removeAt backShift
      by_cases h1 : t.keys i = kEmptyKey
      · simp [h1]
      · simp only [h1, if_false, hideal, h.dist_eq i hhole, h.dist_eq i (h.home_lt _),
          h.masked.next_eq, ge_iff_le]
        split_ifs
        · exact ih (t := { t with
            keys := Function.update t.keys hole (t.keys i)
            values := Function.update t.values hole (t.values i) }) i _ ⟨h.pow, h.mask_eq⟩
            hi hnext
        · exact ih hole _ h hhole hnext

theorem eraseLoop_eq (h : Shape t) (hk : key ≠ kEmptyKey) (fuel r idx : Nat) :
    eraseLoop hash fuel t key r idx =
      match scan t.capacity kEmptyKey t.keys key r idx with
      | none => some (t, false)
      | some j =>
          if t.keys j = key then
            (removeAt hash fuel t j (next t.capacity j)).map
              (fun t => ({ t with size := t.size - 1 }, true))
          else some (t, false) := by
  induction r generalizing idx with
  | zero => rfl
  | succ r ih =>
      unfold eraseLoop scan
      by_cases h1 : t.keys idx = kEmptyKey
      · have h2 : t.keys idx ≠ key := by
          rw [h1]
          exact hk.symm
        rw [if_pos h1, if_pos (Or.inr h1)]
        simp [h2]
      · by_cases h2 : t.keys idx = key
        · simp [h2, hk, h.masked.next_eq]
        · simp only [h1, h2, if_false, or_self, h.masked.next_eq]
          exact ih _

end Loops

section Lookup

/-- The table without its probe statistics. -/
def quiet (t : FlatHashU32 V) : FlatHashU32 V :=
  { t with probes := 0, lookups := 0 }

theorem findLoop_congr {t' : FlatHashU32 V} (hkeys : t'.keys = t.keys)
    (hvals : t'.values = t.values) (hmask : t'.mask = t.mask) (r idx : Nat) (p p' : UInt64) :
    (findLoop t' key r idx p).1 = (findLoop t key r idx p').1 := by
  induction r generalizing idx p p' with
  | zero => rfl
  | succ r ih =>
      unfold findLoop
      rw [hkeys, hvals, hmask]
      dsimp only
      split_ifs
      · rfl
      · rfl
      · exact ih _ _ _

@[simp] theorem lookup_quiet : lookup hash t.quiet key = lookup hash t key := by
  by_cases hk : key = kEmptyKey
  · simp only [lookup, find, hk, if_true]
    rfl
  · simp only [lookup, find, hk, if_false]
    apply findLoop_congr <;> rfl

/-- `find` changes nothing but the statistics. -/
theorem find_table : (find hash t key).2.quiet = t.quiet := by
  unfold find
  split_ifs <;> rfl

theorem lookup_congr {t' : FlatHashU32 V} (h : t'.quiet = t.quiet) :
    lookup hash t' key = lookup hash t key := by
  rw [← lookup_quiet (t := t'), h, lookup_quiet]

theorem Wf.congr {t' : FlatHashU32 V} (hw : Wf hash t) (h : t'.quiet = t.quiet) :
    Wf hash t' := by
  have hcap : t'.capacity = t.capacity := congrArg (fun x => x.capacity) h
  have hmask : t'.mask = t.mask := congrArg (fun x => x.mask) h
  have hkeys : t'.keys = t.keys := congrArg (fun x => x.keys) h
  have hsize : t'.size = t.size := congrArg (fun x => x.size) h
  refine ⟨⟨?_, ?_⟩, ?_, ?_⟩
  · rw [hcap]
    exact hw.pow
  · rw [hcap, hmask]
    exact hw.mask_eq
  · rw [hcap, hmask, hkeys]
    exact hw.chained
  · rw [hcap, hkeys, hsize]
    exact hw.size_eq

@[simp] theorem lookup_kEmptyKey :
    lookup hash t kEmptyKey = if t.sentinelUsed then some t.sentinelValue else none := by
  simp [lookup, find]

theorem sentinel_of_lookup {v : V} (hst : lookup hash t kEmptyKey = some v) :
    t.sentinelUsed = true ∧ t.sentinelValue = v := by
  rw [lookup_kEmptyKey] at hst
  split_ifs at hst with hused
  exact ⟨hused, Option.some.inj hst⟩

theorem lookup_eq_scan (h : Shape t) (hk : key ≠ kEmptyKey) :
    lookup hash t key =
      (scan t.capacity kEmptyKey t.keys key t.capacity (home hash t.mask key)).bind
        (fun j => if t.keys j = key then some (t.values j) else none) := by
  unfold lookup find
  rw [if_neg hk]
  have h' : Shape { t with lookups := t.lookups + 1 } := ⟨h.pow, h.mask_eq⟩
  simpa [h.mask_succ, home] using findLoop_fst h' t.capacity (home hash t.mask key) t.probes

theorem lookup_eq_some_iff (h : Wf hash t) (hk : key ≠ kEmptyKey) {v : V} :
    lookup hash t key = some v ↔ Stored t.capacity t.keys t.values key v := by
  rw [lookup_eq_scan h.toShape hk]
  constructor
  · intro heq
    obtain ⟨j, hscan, hv⟩ := Option.bind_eq_some_iff.mp heq
    split_ifs at hv with hkj
    have hj := ((h.chained.scan_eq_some_iff (h.home_lt key) hk).mp ⟨hscan, hkj⟩).1
    exact ⟨j, hj, hkj, by simpa using hv⟩
  · rintro ⟨j, hj, hkj, hv⟩
    rw [h.chained.scan_of_stored (h.home_lt key) hk hj hkj]
    simp [hkj, hv]

theorem lookup_eq_none_iff (h : Wf hash t) (hk : key ≠ kEmptyKey) :
    lookup hash t key = none ↔ ∀ j, j < t.capacity → t.keys j ≠ key := by
  rw [Option.eq_none_iff_forall_ne_some]
  constructor
  · intro hno j hj hkj
    exact hno (t.values j) ((lookup_eq_some_iff h hk).mpr ⟨j, hj, hkj, rfl⟩)
  · rintro hno v hv
    obtain ⟨j, hj, hkj, _⟩ := (lookup_eq_some_iff h hk).mp hv
    exact hno j hj hkj

/-- Two well-formed tables with the same entries stand for the same map. -/
theorem lookup_ext {t' : FlatHashU32 V} (h : Wf hash t) (h' : Wf hash t')
    (hk : key ≠ kEmptyKey)
    (hst : ∀ v, Stored t'.capacity t'.keys t'.values key v ↔
      Stored t.capacity t.keys t.values key v) :
    lookup hash t' key = lookup hash t key := by
  apply Option.ext
  intro v
  rw [lookup_eq_some_iff h' hk, lookup_eq_some_iff h hk]
  exact hst v

theorem Wf.size_le (h : Wf hash t) : t.size ≤ t.capacity := by
  rw [h.size_eq]
  exact occupied_card_le

/-- A slot is free exactly when `size_` is below the capacity. -/
theorem Wf.vacant_iff (h : Wf hash t) :
    (∃ z, z < t.capacity ∧ t.keys z = kEmptyKey) ↔ t.size < t.capacity := by
  rw [h.size_eq]
  exact exists_vacant_iff

end Lookup

section Insert

/-- The three ways through `insert`. -/
theorem insert_cases (h : Wf hash t) (key : UInt32) (value : V) :
    (key = kEmptyKey ∧
      insert hash t key value =
        ({ t with sentinelValue := value, sentinelUsed := true }, true)) ∨
    (key ≠ kEmptyKey ∧ t.size = t.capacity ∧ insert hash t key value = (t, false)) ∨
    (key ≠ kEmptyKey ∧ t.size < t.capacity ∧ ∃ j,
      scan t.capacity kEmptyKey t.keys key t.capacity (home hash t.mask key) = some j ∧
      (insert hash t key value).1.quiet = (placed t key value j).quiet ∧
      (insert hash t key value).2 = true) := by
  by_cases hk : key = kEmptyKey
  · left
    exact ⟨hk, by simp [insert, hk]⟩
  · right
    have hle := h.size_le
    by_cases hfull : t.size = t.capacity
    · left
      exact ⟨hk, hfull, by simp [insert, hk, hfull]⟩
    · right
      have hlt : t.size < t.capacity := by omega
      obtain ⟨z, hz, hzv⟩ := h.vacant_iff.mpr hlt
      have hhome : home hash t.mask key < t.capacity := h.home_lt key
      obtain ⟨j, hscan⟩ := scan_isSome_of_vacant (k := key) hhome hz hzv
      have hins : ∃ p, insert hash t key value =
          ({ placed t key value j with probes := p }, true) := by
        obtain ⟨p, hp⟩ := insertLoop_eq h.toShape hk t.capacity (home hash t.mask key) t.probes
        rw [hscan] at hp
        refine ⟨p, ?_⟩
        unfold insert
        rw [if_neg hk, if_neg (by omega), h.mask_succ]
        exact hp
      obtain ⟨p, hins⟩ := hins
      exact ⟨hk, hlt, j, hscan, by rw [hins]; rfl, by rw [hins]⟩

/-- `insert` fails exactly for an ordinary key on a full table. -/
theorem insert_eq_false_iff (h : Wf hash t) :
    (insert hash t key value).2 = false ↔ key ≠ kEmptyKey ∧ t.size = t.capacity := by
  rcases insert_cases h key value with ⟨hk, he⟩ | ⟨hk, hs, he⟩ | ⟨hk, hs, j, _, _, he⟩
  · rw [he]
    simp [hk]
  · simp [he, hk, hs]
  · simp [he]
    omega

theorem insert_of_false (h : Wf hash t) (hf : (insert hash t key value).2 = false) :
    insert hash t key value = (t, false) := by
  rcases insert_cases h key value with ⟨hk, he⟩ | ⟨hk, hs, he⟩ | ⟨hk, hs, j, _, _, he⟩
  · simp [he] at hf
  · exact he
  · simp [he] at hf

section Placing

variable {j : Nat} (h : Wf hash t)
  (hscan : scan t.capacity kEmptyKey t.keys key t.capacity (home hash t.mask key) = some j)
include h hscan

theorem scan_slot : j < t.capacity ∧ (t.keys j = key ∨ t.keys j = kEmptyKey) := by
  obtain ⟨d, _, rfl, hstop, _⟩ := scan_some (h.home_lt key) hscan
  exact ⟨walk_lt (h.home_lt key), hstop⟩

theorem placed_stored_self :
    Stored (placed t key value j).capacity (placed t key value j).keys
      (placed t key value j).values key value := by
  obtain ⟨hj, hstop⟩ := scan_slot h hscan
  unfold placed
  split_ifs with hjv
  · exact ⟨j, hj, by simp, by simp⟩
  · exact ⟨j, hj, hstop.resolve_right hjv, by simp⟩

theorem placed_stored_other {k : UInt32} {v : V} (hke : k ≠ kEmptyKey) (hkk : k ≠ key) :
    Stored (placed t key value j).capacity (placed t key value j).keys
        (placed t key value j).values k v ↔
      Stored t.capacity t.keys t.values k v := by
  obtain ⟨hj, hstop⟩ := scan_slot h hscan
  -- the slot written holds neither the key asked for before nor after
  have hold : ∀ i, t.keys i = k → i ≠ j := by
    rintro i hki rfl
    rcases hstop with hs | hs
    · exact hkk (hki.symm.trans hs)
    · exact hke (hki.symm.trans hs)
  unfold placed
  split_ifs with hjv
  · constructor
    · rintro ⟨i, hi, hki, hvi⟩
      have hij : i ≠ j := by
        rintro rfl
        simp only [Function.update_self] at hki
        exact hkk hki.symm
      simp only [Function.update_of_ne hij] at hki hvi
      exact ⟨i, hi, hki, hvi⟩
    · rintro ⟨i, hi, hki, hvi⟩
      have hij := hold i hki
      exact ⟨i, hi, by simpa [hij] using hki, by simpa [hij] using hvi⟩
  · constructor
    · rintro ⟨i, hi, hki, hvi⟩
      exact ⟨i, hi, hki, by simpa [hold i hki] using hvi⟩
    · rintro ⟨i, hi, hki, hvi⟩
      exact ⟨i, hi, hki, by simpa [hold i hki] using hvi⟩

variable (hk : key ≠ kEmptyKey)
include hk

theorem placed_wf : Wf hash (placed t key value j) := by
  obtain ⟨hj, _⟩ := scan_slot h hscan
  unfold placed
  split_ifs with hjv
  · refine ⟨⟨h.pow, h.mask_eq⟩, ?_, ?_⟩
    · exact h.chained.place (h.home_lt key) hk hscan hjv
    · show t.size + 1 = _
      rw [h.size_eq]
      exact (occupied_update_vacant hj hjv hk).symm
  · exact ⟨⟨h.pow, h.mask_eq⟩, h.chained, h.size_eq⟩

theorem lookup_placed (k : UInt32) :
    lookup hash (placed t key value j) k = if k = key then some value else lookup hash t k := by
  have hw : Wf hash (placed t key value j) := placed_wf h hscan hk
  by_cases hke : k = kEmptyKey
  · subst hke
    rw [if_neg hk.symm, lookup_kEmptyKey, lookup_kEmptyKey]
    unfold placed
    split_ifs <;> rfl
  · by_cases hkk : k = key
    · rw [if_pos hkk, hkk, lookup_eq_some_iff hw hk]
      exact placed_stored_self h hscan
    · rw [if_neg hkk]
      exact lookup_ext h hw hke (fun v => placed_stored_other h hscan hke hkk)

theorem placed_size :
    (placed t key value j).size = if lookup hash t key = none then t.size + 1 else t.size := by
  obtain ⟨hj, hstop⟩ := scan_slot h hscan
  unfold placed
  by_cases hjv : t.keys j = kEmptyKey
  · have hno := h.chained.scan_vacant (h.home_lt key) hk hscan hjv
    rw [if_pos hjv, if_pos ((lookup_eq_none_iff h hk).mpr hno)]
  · rw [if_neg hjv, if_neg]
    intro hno
    exact (lookup_eq_none_iff h hk).mp hno j hj (hstop.resolve_right hjv)

end Placing

theorem Wf.insert (h : Wf hash t) : Wf hash (insert hash t key value).1 := by
  rcases insert_cases h key value with ⟨hk, he⟩ | ⟨hk, hs, he⟩ | ⟨hk, hs, j, hscan, he, _⟩
  · rw [he]
    exact ⟨⟨h.pow, h.mask_eq⟩, h.chained, h.size_eq⟩
  · rw [he]
    exact h
  · exact (placed_wf h hscan hk).congr he

@[simp] theorem insert_capacity (h : Wf hash t) :
    (FlatHashU32.insert hash t key value).1.capacity = t.capacity := by
  rcases insert_cases h key value with ⟨hk, he⟩ | ⟨hk, hs, he⟩ | ⟨hk, hs, j, _, he, _⟩
  · rw [he]
  · rw [he]
  · have hcap := congrArg (fun x => x.capacity) he
    refine hcap.trans ?_
    simp only [quiet, placed]
    split_ifs <;> rfl

/-- A successful `insert` binds the key and leaves every other one alone. -/
theorem lookup_insert (h : Wf hash t) (hins : (FlatHashU32.insert hash t key value).2 = true)
    (k : UInt32) :
    lookup hash (FlatHashU32.insert hash t key value).1 k =
      if k = key then some value else lookup hash t k := by
  rcases insert_cases h key value with ⟨hk, he⟩ | ⟨hk, hs, he⟩ | ⟨hk, hs, j, hscan, he, _⟩
  · rw [he, hk]
    by_cases hkk : k = kEmptyKey
    · subst hkk
      simp
    · rw [if_neg hkk]
      have hw : Wf hash { t with sentinelValue := value, sentinelUsed := true } :=
        ⟨⟨h.pow, h.mask_eq⟩, h.chained, h.size_eq⟩
      exact lookup_ext h hw hkk (fun v => Iff.rfl)
  · rw [he] at hins
    simp at hins
  · rw [lookup_congr he]
    exact lookup_placed h hscan hk k

/-- How `size_` grows. -/
theorem insert_size (h : Wf hash t) :
    (FlatHashU32.insert hash t key value).1.size =
      if key ≠ kEmptyKey ∧ t.size < t.capacity ∧ lookup hash t key = none then t.size + 1
      else t.size := by
  rcases insert_cases h key value with ⟨hk, he⟩ | ⟨hk, hs, he⟩ | ⟨hk, hs, j, hscan, he, _⟩
  · rw [he, if_neg (fun hh => hh.1 hk)]
  · rw [he, if_neg (fun hh => by omega)]
  · have hsize := congrArg (fun x => x.size) he
    have hplaced : (placed t key value j).size =
        if lookup hash t key = none then t.size + 1 else t.size := placed_size h hscan hk
    refine hsize.trans ?_
    simpa [quiet, hk, hs] using hplaced

/-- With room, `insert` for a stored key writes its value and nothing else. -/
theorem insert_overwrites (value : V) (h : Wf hash t) (hk : key ≠ kEmptyKey)
    (hroom : t.size ≠ t.capacity) (hst : lookup hash t key ≠ none) :
    ∃ j, j < t.capacity ∧ t.keys j = key ∧
      (FlatHashU32.insert hash t key value).2 = true ∧
      (FlatHashU32.insert hash t key value).1.quiet =
        { t with values := Function.update t.values j value }.quiet := by
  rcases insert_cases h key value with ⟨hk', -⟩ | ⟨-, hfull, -⟩ | ⟨-, -, j, hscan, he, hok⟩
  · exact absurd hk' hk
  · exact absurd hfull hroom
  · obtain ⟨hj, hstop⟩ := scan_slot h hscan
    have hjv : t.keys j ≠ kEmptyKey := by
      intro hjv
      have hno := h.chained.scan_vacant (h.home_lt key) hk hscan hjv
      exact hst ((lookup_eq_none_iff h hk).mpr hno)
    refine ⟨j, hj, hstop.resolve_right hjv, hok, ?_⟩
    rw [he]
    unfold placed
    rw [if_neg hjv]

/-- Writing another value over a stored one and then the old one again leaves the
table as it was. -/
theorem insert_insert (h : Wf hash t) {v : V} (hst : lookup hash t key = some v)
    (hroom : key ≠ kEmptyKey → t.size ≠ t.capacity) :
    (FlatHashU32.insert hash (FlatHashU32.insert hash t key value).1 key v).1.quiet =
      t.quiet := by
  by_cases hk : key = kEmptyKey
  · subst hk
    obtain ⟨hused, rfl⟩ := sentinel_of_lookup hst
    simp [FlatHashU32.insert, quiet, hused]
  · have hne : lookup hash t key ≠ none := by simp [hst]
    obtain ⟨j, hj, hkj, hok, hq⟩ := insert_overwrites value h hk (hroom hk) hne
    generalize hins : FlatHashU32.insert hash t key value = ins at hok hq ⊢
    have hw : Wf hash ins.1 := by
      rw [← hins]
      exact h.insert
    have hkeys : ins.1.keys = t.keys := congrArg (fun x => x.keys) hq
    have hvals : ins.1.values = Function.update t.values j value :=
      congrArg (fun x => x.values) hq
    have hsize : ins.1.size = t.size := congrArg (fun x => x.size) hq
    have hcap : ins.1.capacity = t.capacity := congrArg (fun x => x.capacity) hq
    have hlk : lookup hash ins.1 key ≠ none := by
      rw [← hins, lookup_insert h (by rw [hins, hok])]
      simp
    obtain ⟨i, hi, hki, -, hq'⟩ := insert_overwrites v hw hk
      (by rw [hsize, hcap]; exact hroom hk) hlk
    -- a key is stored once
    obtain rfl : i = j := by
      rw [hkeys] at hki
      have hsi := h.chained.scan_of_stored (h.home_lt key) hk (hcap ▸ hi) hki
      rw [h.chained.scan_of_stored (h.home_lt key) hk hj hkj] at hsi
      exact (Option.some.inj hsi).symm
    have hv : t.values i = v := by
      have hlk' := (lookup_eq_some_iff h hk).mpr ⟨i, hj, hkj, rfl⟩
      exact Option.some.inj (hlk'.symm.trans hst)
    rw [hq']
    have heq : { ins.1 with values := Function.update ins.1.values i v }.quiet =
        { { t with values := Function.update t.values i value }.quiet with
          values := Function.update (Function.update t.values i value) i v } := by
      rw [← hq, ← hvals]
      rfl
    rw [heq, Function.update_idem, ← hv, Function.update_eq_self]
    rfl

/-- Writing the stored value again changes nothing. -/
theorem insert_stored (h : Wf hash t) {v : V} (hst : lookup hash t key = some v)
    (hroom : key ≠ kEmptyKey → t.size ≠ t.capacity) :
    (FlatHashU32.insert hash t key v).1.quiet = t.quiet := by
  by_cases hk : key = kEmptyKey
  · subst hk
    obtain ⟨hused, rfl⟩ := sentinel_of_lookup hst
    simp [FlatHashU32.insert, quiet, hused]
  · obtain ⟨j, hj, hkj, -, hq⟩ := insert_overwrites v h hk (hroom hk) (by simp [hst])
    have hv : t.values j = v := by
      have hlk := (lookup_eq_some_iff h hk).mpr ⟨j, hj, hkj, rfl⟩
      exact Option.some.inj (hlk.symm.trans hst)
    rw [hq, ← hv, Function.update_eq_self]

end Insert

section Erase

/-- What a deletion that returned has done. -/
structure Erased (hash : UInt32 → UInt32) (t : FlatHashU32 V) (key : UInt32)
    (t' : FlatHashU32 V) (had : Bool) : Prop where
  wf : Wf hash t'
  had_eq : had = (lookup hash t key).isSome
  lookup_eq : ∀ k, lookup hash t' k = if k = key then none else lookup hash t k
  capacity_eq : t'.capacity = t.capacity
  size_eq : t'.size + (if key ≠ kEmptyKey ∧ had = true then 1 else 0) = t.size
  absent : had = false → t' = t

theorem eraseFuel_sentinel (h : Wf hash t) :
    Erased hash t kEmptyKey { t with sentinelUsed := false } t.sentinelUsed := by
  have hw : Wf hash { t with sentinelUsed := false } :=
    ⟨⟨h.pow, h.mask_eq⟩, h.chained, h.size_eq⟩
  refine ⟨hw, ?_, ?_, rfl, by simp, ?_⟩
  · cases hu : t.sentinelUsed <;> simp [hu]
  · intro k
    by_cases hk : k = kEmptyKey
    · subst hk
      simp
    · rw [if_neg hk]
      exact lookup_ext h hw hk (fun v => Iff.rfl)
  · intro hu
    rw [← hu]

theorem erased_absent (h : Wf hash t) (habs : lookup hash t key = none) :
    Erased hash t key t false := by
  refine ⟨h, by simp [habs], ?_, rfl, by simp, fun _ => rfl⟩
  intro k
  split_ifs with hkk
  · rw [hkk, habs]
  · rfl

/-- An ordinary key that is not stored: nothing happens, at any fuel. -/
theorem eraseFuel_absent (h : Wf hash t) (hk : key ≠ kEmptyKey)
    (habs : lookup hash t key = none) (fuel : Nat) :
    eraseFuel hash fuel t key = some (t, false) := by
  have hno := (lookup_eq_none_iff h hk).mp habs
  unfold eraseFuel
  rw [if_neg hk, h.mask_succ, eraseLoop_eq h.toShape hk]
  cases hscan : scan t.capacity kEmptyKey t.keys key t.capacity
      ((hash key).toNat &&& t.mask) with
  | none => rfl
  | some j => simp [hno j (scan_slot h hscan).1]

/-- A stored ordinary key: the deletion is a backward shift from its slot. -/
theorem eraseFuel_stored (h : Wf hash t) (hk : key ≠ kEmptyKey) {j : Nat}
    (hj : j < t.capacity) (hkj : t.keys j = key) (fuel : Nat) :
    eraseFuel hash fuel t key =
      (backShift t.capacity (home hash t.mask) kEmptyKey fuel t.keys t.values j
        (next t.capacity j)).map
        (fun kv => ({ t with keys := kv.1, values := kv.2, size := t.size - 1 }, true)) := by
  have hscan := h.chained.scan_of_stored (h.home_lt key) hk hj hkj
  unfold eraseFuel
  rw [if_neg hk, h.mask_succ, eraseLoop_eq h.toShape hk]
  have hscan' : scan t.capacity kEmptyKey t.keys key t.capacity
      ((hash key).toNat &&& t.mask) = some j := hscan
  rw [hscan']
  simp only [hkj, if_true]
  rw [removeAt_eq fuel j _ h.toShape hj (next_lt hj), Option.map_map]
  rfl

theorem removed_erased (h : Wf hash t) (hk : key ≠ kEmptyKey) {j : Nat}
    (hj : j < t.capacity) (hkj : t.keys j = key) {keys' : Nat → UInt32} {vals' : Nat → V}
    (hrem : Removed t.capacity (home hash t.mask) kEmptyKey t.keys t.values j keys' vals') :
    Erased hash t key { t with keys := keys', values := vals', size := t.size - 1 } true := by
  have hcard := hrem.card
  have hsize := h.size_eq
  have hw : Wf hash { t with keys := keys', values := vals', size := t.size - 1 } := by
    refine ⟨⟨h.pow, h.mask_eq⟩, hrem.chained, ?_⟩
    show t.size - 1 = (occupied t.capacity kEmptyKey keys').card
    omega
  have hlk : lookup hash t key = some (t.values j) :=
    (lookup_eq_some_iff h hk).mpr ⟨j, hj, hkj, rfl⟩
  refine ⟨hw, by simp [hlk], ?_, rfl, ?_, by simp⟩
  · intro k
    by_cases hke : k = kEmptyKey
    · subst hke
      rw [if_neg hk.symm, lookup_kEmptyKey, lookup_kEmptyKey]
    · by_cases hkk : k = key
      · rw [if_pos hkk, lookup_eq_none_iff hw hke]
        intro i hi hki
        have hst : Stored t.capacity keys' vals' k (vals' i) := ⟨i, hi, hki, rfl⟩
        rw [hrem.stored_iff h.chained hj hke, hkj] at hst
        exact hst.2 hkk
      · rw [if_neg hkk]
        apply lookup_ext h hw hke
        intro v
        show Stored t.capacity keys' vals' k v ↔ _
        rw [hrem.stored_iff h.chained hj hke, hkj]
        simp [hkk]
  · simp only [hk, ne_eq, not_false_eq_true, and_self, if_true]
    omega

/-- With a free slot a deletion returns within one turn of the ring. -/
theorem erase_of_free (h : Wf hash t) (hfree : t.size < t.capacity) (key : UInt32) :
    ∃ t' had, erase hash t key = some (t', had) ∧ Erased hash t key t' had := by
  by_cases hk : key = kEmptyKey
  · subst hk
    exact ⟨_, _, by simp [erase, eraseFuel], eraseFuel_sentinel h⟩
  · cases hlk : lookup hash t key with
    | none => exact ⟨t, false, eraseFuel_absent h hk hlk _, erased_absent h hlk⟩
    | some v =>
        obtain ⟨j, hj, hkj, _⟩ := (lookup_eq_some_iff h hk).mp hlk
        have hused : t.keys j ≠ kEmptyKey := by
          rw [hkj]
          exact hk
        obtain ⟨keys', vals', hrun, hrem⟩ :
            ∃ keys' vals',
              backShift t.capacity (home hash t.mask) kEmptyKey t.capacity t.keys t.values j
                  (next t.capacity j) = some (keys', vals') ∧
                Removed t.capacity (home hash t.mask) kEmptyKey t.keys t.values j keys' vals' :=
          backShift_spec h.chained h.home_lt (h.vacant_iff.mpr hfree) hj hused
        refine ⟨_, _, ?_, removed_erased h hk hj hkj hrem⟩
        unfold erase
        rw [eraseFuel_stored h hk hj hkj, hrun]
        rfl

/-- On a full table no amount of fuel deletes a stored ordinary key. -/
theorem eraseFuel_none (h : Wf hash t) (hk : key ≠ kEmptyKey) (hfull : t.size = t.capacity)
    (hlk : lookup hash t key ≠ none) (fuel : Nat) :
    eraseFuel hash fuel t key = none := by
  obtain ⟨v, hv⟩ := Option.ne_none_iff_exists'.mp hlk
  obtain ⟨j, hj, hkj, _⟩ := (lookup_eq_some_iff h hk).mp hv
  have hused : ∀ i, i < t.capacity → t.keys i ≠ kEmptyKey := by
    intro i hi hiv
    have := h.vacant_iff.mp ⟨i, hi, hiv⟩
    omega
  rw [eraseFuel_stored h hk hj hkj, backShift_full fuel _ _ _ _ (next_lt hj) hused]
  rfl

/-- The specification of `erase`. -/
theorem erase_spec (h : Wf hash t) {t' : FlatHashU32 V} {had : Bool}
    (he : erase hash t key = some (t', had)) : Erased hash t key t' had := by
  by_cases hfree : t.size < t.capacity
  · obtain ⟨t₁, had₁, he₁, hspec⟩ := erase_of_free h hfree key
    rw [he] at he₁
    obtain ⟨rfl, rfl⟩ : t' = t₁ ∧ had = had₁ := by simpa using he₁
    exact hspec
  · have hfull : t.size = t.capacity := by
      have := h.size_le
      omega
    by_cases hk : key = kEmptyKey
    · subst hk
      obtain ⟨rfl, rfl⟩ : { t with sentinelUsed := false } = t' ∧ t.sentinelUsed = had := by
        simpa [erase, eraseFuel] using he
      exact eraseFuel_sentinel h
    · cases hlk : lookup hash t key with
      | none =>
          obtain ⟨rfl, rfl⟩ : t = t' ∧ false = had := by
            simpa [erase, eraseFuel_absent h hk hlk] using he
          exact erased_absent h hlk
      | some v =>
          rw [erase, eraseFuel_none h hk hfull (by simp [hlk])] at he
          simp at he

/-- When `erase` does not return. -/
theorem erase_none_iff (h : Wf hash t) :
    erase hash t key = none ↔
      key ≠ kEmptyKey ∧ t.size = t.capacity ∧ lookup hash t key ≠ none := by
  constructor
  · intro hnone
    have hle := h.size_le
    refine ⟨?_, ?_, ?_⟩
    · rintro rfl
      simp [erase, eraseFuel] at hnone
    · by_contra hne
      obtain ⟨t', had, he, _⟩ := erase_of_free h (by omega) key
      rw [hnone] at he
      simp at he
    · intro hlk
      by_cases hk : key = kEmptyKey
      · subst hk
        simp [erase, eraseFuel] at hnone
      · rw [erase, eraseFuel_absent h hk hlk] at hnone
        simp at hnone
  · rintro ⟨hk, hfull, hlk⟩
    exact eraseFuel_none h hk hfull hlk _

/-- More fuel than one turn of the ring never helps. -/
theorem erase_none_iff_forall (h : Wf hash t) :
    erase hash t key = none ↔ ∀ fuel, eraseFuel hash fuel t key = none := by
  constructor
  · intro hnone fuel
    obtain ⟨hk, hfull, hlk⟩ := (erase_none_iff h).mp hnone
    exact eraseFuel_none h hk hfull hlk fuel
  · intro hnone
    exact hnone t.capacity

end Erase

section Whole

/-- A table without entries is well formed. -/
theorem wf_of_empty (h : Shape t) (hkeys : ∀ i, t.keys i = kEmptyKey) (hsize : t.size = 0) :
    Wf hash t := by
  refine ⟨h, ⟨?_, ?_⟩, ?_⟩
  · intro i j _ _ _ hne
    exact absurd (hkeys i) hne
  · intro j _ hne
    exact absurd (hkeys j) hne
  · rw [hsize]
    symm
    rw [Finset.card_eq_zero]
    apply Finset.filter_false_of_mem
    intro i _
    simp [hkeys i]

theorem lookup_of_empty (h : Shape t) (hkeys : ∀ i, t.keys i = kEmptyKey)
    (hused : t.sentinelUsed = false) (k : UInt32) : lookup hash t k = none := by
  by_cases hk : k = kEmptyKey
  · subst hk
    simp [hused]
  · rw [lookup_eq_scan h hk]
    cases hscan : scan t.capacity kEmptyKey t.keys k t.capacity (home hash t.mask k) with
    | none => rfl
    | some j =>
        have hne : t.keys j ≠ k := by
          rw [hkeys j]
          exact fun he => hk he.symm
        simp [hne]

theorem init_shape [Inhabited V] (capacity : UInt64) :
    Shape (init capacity : FlatHashU32 V) := by
  refine ⟨?_, rfl⟩
  apply roundUpPow2_pow
  split_ifs
  · decide
  · exact Nat.le_of_lt capacity.toNat_lt

theorem init_wf [Inhabited V] (capacity : UInt64) :
    Wf hash (init capacity : FlatHashU32 V) :=
  wf_of_empty (init_shape capacity) (fun _ => rfl) rfl

theorem lookup_init [Inhabited V] (capacity : UInt64) (k : UInt32) :
    lookup hash (init capacity : FlatHashU32 V) k = none :=
  lookup_of_empty (init_shape capacity) (fun _ => rfl) rfl k

theorem Wf.clear (h : Wf hash t) : Wf hash t.clear :=
  wf_of_empty ⟨h.pow, h.mask_eq⟩ (fun _ => rfl) rfl

theorem lookup_clear (h : Wf hash t) (k : UInt32) : lookup hash t.clear k = none :=
  lookup_of_empty (t := t.clear) ⟨h.pow, h.mask_eq⟩ (fun _ => rfl) rfl k

/-- `for_each` visits exactly the bindings of the map. -/
theorem mem_forEach (h : Wf hash t) (k : UInt32) (v : V) :
    (k, v) ∈ t.forEach ↔ lookup hash t k = some v := by
  unfold forEach
  rw [List.mem_append]
  by_cases hk : k = kEmptyKey
  · subst hk
    have hleft : (kEmptyKey, v) ∉
        ((List.range t.capacity).filter (fun i => t.keys i ≠ kEmptyKey)).map
          (fun i => (t.keys i, t.values i)) := by
      intro hmem
      simp only [List.mem_map, List.mem_filter, decide_eq_true_eq] at hmem
      obtain ⟨i, ⟨_, hne⟩, heq⟩ := hmem
      exact hne (congrArg Prod.fst heq)
    rw [or_iff_right hleft, lookup_kEmptyKey]
    cases t.sentinelUsed <;> simp [eq_comm]
  · rw [lookup_eq_some_iff h hk]
    constructor
    · rintro (hmem | hmem)
      · simp only [List.mem_map, List.mem_filter, List.mem_range] at hmem
        obtain ⟨i, ⟨hi, _⟩, heq⟩ := hmem
        exact ⟨i, hi, congrArg Prod.fst heq, congrArg Prod.snd heq⟩
      · split_ifs at hmem
        · simp only [List.mem_singleton, Prod.mk.injEq] at hmem
          exact absurd hmem.1 hk
        · simp at hmem
    · rintro ⟨i, hi, hki, hvi⟩
      left
      simp only [List.mem_map, List.mem_filter, List.mem_range, decide_eq_true_eq]
      exact ⟨i, ⟨hi, by rw [hki]; exact hk⟩, by rw [hki, hvi]⟩

/-- No key is visited twice. -/
theorem forEach_nodup (h : Wf hash t) : (t.forEach.map Prod.fst).Nodup := by
  unfold forEach
  rw [List.map_append, List.map_map]
  have hslots : (((List.range t.capacity).filter (fun i => t.keys i ≠ kEmptyKey)).map
      (Prod.fst ∘ fun i => (t.keys i, t.values i))).Nodup := by
    apply List.Nodup.map_on
    · intro i hi j hj heq
      simp only [List.mem_filter, List.mem_range, decide_eq_true_eq] at hi hj
      exact h.chained.unique i j hi.1 hj.1 heq hi.2
    · exact List.nodup_range.filter _
  cases hu : t.sentinelUsed
  · simpa using hslots
  · rw [List.nodup_append]
    refine ⟨hslots, by simp, ?_⟩
    intro a ha b hb
    simp only [List.mem_map, List.mem_filter, Function.comp_apply, decide_eq_true_eq] at ha
    obtain ⟨i, ⟨_, hne⟩, rfl⟩ := ha
    simp at hb
    rw [hb]
    exact hne

theorem forEach_length (h : Wf hash t) : t.forEach.length = t.totalSize := by
  have hslots : ((List.range t.capacity).filter (fun i => t.keys i ≠ kEmptyKey)).length =
      t.size := by
    rw [h.size_eq]
    rfl
  unfold forEach totalSize
  rw [List.length_append, List.length_map, hslots]
  split_ifs <;> rfl

end Whole

end FlatHashU32
end GtpMeter
