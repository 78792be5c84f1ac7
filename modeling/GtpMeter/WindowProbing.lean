import GtpMeter.LinearProbing

/-!
# Linear probing within a window

A table that never gives a slot back can bound its probes: a key lives within the
first `w` slots behind its home, and when all of them are taken by other keys, the
slot of least age among them is overwritten.  Slots that hold a key never become
vacant again, which is what keeps every other key reachable from its own home.
-/

namespace GtpMeter.Probing

universe u

section Victims

variable {A : Type u} [LinearOrder A]

/-- The slot that a probe of `r` slots from `i` leaves to be overwritten: the first
one of least age, where only ages below `bound` count and `best` is what earlier
slots left. -/
def victim (n : Nat) (age : Nat → A) : Nat → Nat → Option Nat → A → Option Nat
  | 0, _, best, _ => best
  | r + 1, i, best, bound =>
      if age i < bound then victim n age r (next n i) (some i) (age i)
      else victim n age r (next n i) best bound

variable {n : Nat} {age : Nat → A}

theorem victim_some :
    ∀ {r i v : Nat} {best : Option Nat} {bound : A}, i < n →
      victim n age r i best bound = some v →
      best = some v ∨ ∃ d, d < r ∧ v = walk n i d
  | 0, _, _, _, _, _, h => .inl h
  | r + 1, i, v, best, bound, hi, h => by
      unfold victim at h
      split_ifs at h with hlt
      · obtain heq | ⟨d, hd, hv⟩ := victim_some (next_lt hi) h
        · obtain rfl : i = v := by simpa using heq
          exact .inr ⟨0, by omega, (walk_zero hi).symm⟩
        · exact .inr ⟨d + 1, by omega, by rw [hv, walk_next]⟩
      · obtain heq | ⟨d, hd, hv⟩ := victim_some (next_lt hi) h
        · exact .inl heq
        · exact .inr ⟨d + 1, by omega, by rw [hv, walk_next]⟩

/-- What is known of the walk behind the first slot, together with the first slot. -/
private theorem forall_walk_succ {P : Nat → Prop} {r i : Nat} (hi : i < n) (hfirst : P i)
    (hrest : ∀ d, d < r → P (walk n (next n i) d)) :
    ∀ d, d < r + 1 → P (walk n i d) := by
  intro d hd
  cases d with
  | zero => rwa [walk_zero hi]
  | succ d =>
      rw [← walk_next]
      exact hrest d (by omega)

/-- The slot left to be overwritten is no younger than any slot that was passed. -/
theorem victim_least :
    ∀ {r i v : Nat} {best : Option Nat} {bound : A}, i < n →
      (∀ b, best = some b → age b = bound) → (best = none → ∀ j, age j ≤ bound) →
      victim n age r i best bound = some v →
      age v ≤ bound ∧ ∀ d, d < r → age v ≤ age (walk n i d)
  | 0, _, v, _, _, _, hbest, _, h => ⟨(hbest v h).le, by omega⟩
  | r + 1, i, v, best, bound, hi, hbest, htop, h => by
      unfold victim at h
      split_ifs at h with hlt
      · have hnew : ∀ b, some i = some b → age b = age i := by
          intro b hb
          rw [Option.some.inj hb]
        obtain ⟨hle, hmin⟩ := victim_least (next_lt hi) hnew (by simp) h
        refine ⟨hle.trans hlt.le, ?_⟩
        exact forall_walk_succ (P := fun j => age v ≤ age j) hi hle hmin
      · obtain ⟨hle, hmin⟩ := victim_least (next_lt hi) hbest htop h
        have hfirst : age v ≤ age i := hle.trans (not_lt.mp hlt)
        exact ⟨hle, forall_walk_succ (P := fun j => age v ≤ age j) hi hfirst hmin⟩

theorem victim_of_best :
    ∀ {r i b : Nat} {bound : A}, ∃ v, victim n age r i (some b) bound = some v
  | 0, _, b, _ => ⟨b, rfl⟩
  | r + 1, i, b, bound => by
      unfold victim
      split_ifs
      · exact victim_of_best
      · exact victim_of_best

/-- A window whose first slot counts has a slot to overwrite. -/
theorem exists_victim {r i : Nat} {bound : A} (hr : 0 < r) (hage : age i < bound) :
    ∃ v, victim n age r i none bound = some v := by
  obtain ⟨r, rfl⟩ := Nat.exists_eq_succ_of_ne_zero hr.ne'
  simp only [victim, hage, if_true]
  exact victim_of_best

end Victims

section Windows

variable {K : Type u}

/-- The invariant of a table whose probes end after `w` slots. -/
structure Windowed (n w : Nat) (home : K → Nat) (vacant : K) (keys : Nat → K) : Prop where
  unique : ∀ i j, i < n → j < n → keys i = keys j → keys i ≠ vacant → i = j
  within : ∀ j, j < n → keys j ≠ vacant →
    ∃ d, d < w ∧ walk n (home (keys j)) d = j ∧
      ∀ d', d' < d → keys (walk n (home (keys j)) d') ≠ vacant

variable {n w : Nat} {home : K → Nat} {vacant : K} {keys : Nat → K} {k : K}

namespace Windowed

theorem empty (h : ∀ i, i < n → keys i = vacant) : Windowed n w home vacant keys where
  unique i _ hi _ _ hne := absurd (h i hi) hne
  within j hj hne := absurd (h j hj) hne

/-- An absent key may be written to any slot of its window with no vacant slot before
it. -/
theorem write (hw : Windowed n w home vacant keys) (hk : k ≠ vacant)
    (habsent : ∀ i, i < n → keys i ≠ k) {d : Nat} (hd : d < w)
    (hbefore : ∀ d', d' < d → keys (walk n (home k) d') ≠ vacant) :
    Windowed n w home vacant (Function.update keys (walk n (home k) d) k) := by
  set j := walk n (home k) d with hj
  -- no slot becomes vacant
  have hkeep : ∀ i, keys i ≠ vacant → Function.update keys j k i ≠ vacant := by
    intro i hne
    by_cases h : i = j
    · subst h
      simpa using hk
    · simpa [h] using hne
  constructor
  · intro a b ha hb heq hne
    by_cases haj : a = j
    · by_cases hbj : b = j
      · rw [haj, hbj]
      · rw [haj] at heq
        simp only [Function.update_self, Function.update_of_ne hbj] at heq
        exact absurd heq.symm (habsent b hb)
    · rw [Function.update_of_ne haj] at heq hne
      by_cases hbj : b = j
      · rw [hbj, Function.update_self] at heq
        exact absurd heq (habsent a ha)
      · rw [Function.update_of_ne hbj] at heq
        exact hw.unique a b ha hb heq hne
  · intro i hi hne
    by_cases hij : i = j
    · rw [hij, Function.update_self]
      exact ⟨d, hd, hj.symm, fun d' hd' => hkeep _ (hbefore d' hd')⟩
    · rw [Function.update_of_ne hij] at hne ⊢
      obtain ⟨d', hd', heq, hpassed⟩ := hw.within i hi hne
      exact ⟨d', hd', heq, fun d'' hd'' => hkeep _ (hpassed d'' hd'')⟩

variable [DecidableEq K]

/-- Probing for a stored key stops at its slot, and within the window. -/
theorem scan_of_stored (hw : Windowed n w home vacant keys) (hhome : home k < n)
    (hk : k ≠ vacant) {j : Nat} (hj : j < n) (hkj : keys j = k) :
    scan n vacant keys k w (home k) = some j := by
  subst hkj
  obtain ⟨d, hd, hdj, hbefore⟩ := hw.within j hj hk
  cases hscan : scan n vacant keys (keys j) w (home (keys j)) with
  | none =>
      have hne := (scan_none hhome hscan d hd).1
      rw [hdj] at hne
      exact absurd rfl hne
  | some i =>
      obtain ⟨d', _, hi, hstop, hpassed⟩ := scan_some hhome hscan
      have hin : i < n := hi ▸ walk_lt hhome
      rcases hstop with hhit | hvac
      · rw [hw.unique i j hin hj hhit (hhit ▸ hk)]
      · -- a vacant slot can stand neither before the key's own slot nor behind it
        rcases Nat.lt_trichotomy d' d with hlt | heq | hgt
        · exact absurd (hi ▸ hvac) (hbefore d' hlt)
        · subst heq
          rw [hi, hdj] at hvac
          exact absurd hvac hk
        · have hne := (hpassed d hgt).1
          rw [hdj] at hne
          exact absurd rfl hne

/-- A probe that does not stop at the key shows that the key is absent. -/
theorem absent_of_scan (hw : Windowed n w home vacant keys) (hhome : home k < n)
    (hk : k ≠ vacant)
    (hscan : ∀ j, scan n vacant keys k w (home k) = some j → keys j = vacant) :
    ∀ i, i < n → keys i ≠ k := by
  intro i hi hki
  have hvac := hscan i (hw.scan_of_stored hhome hk hi hki)
  exact hk (hki.symm.trans hvac)

end Windowed

end Windows

end GtpMeter.Probing
