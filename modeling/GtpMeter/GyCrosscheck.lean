import GtpMeter.BindingSoundness

/-!
# The Gy cross-check

`gy_crosscheck` lists, for every active subscriber that Gy has reported on, what was metered,
what was reported and the difference.  The difference of the two `uint64_t` values is taken
after both are converted to `int64_t`.  A conversion takes off 2^64 in the upper half, so the
subtraction of two converted values from different halves is off by 2^64 from the difference
of the values; where the latter fits `int64_t`, the former overflows, which is undefined.

**Results.**
* `fits_converted_iff`: when the subtraction overflows.
* `gyCrosscheck_returns_iff`, `gyCrosscheck_row`: when the call is defined, and its rows.
* `gy_difference_exact_iff`: when the cross-check is exact.
-/

namespace GtpMeter

section SignedSubtraction

/-- What leaves the defined behaviour of the call. -/
inductive CrosscheckFault where
  | outOfRange
  | overflow
deriving DecidableEq, Repr

/-- The integers of `int64_t`. -/
def FitsInt64 (x : Int) : Prop :=
  -9223372036854775808 ≤ x ∧ x < 9223372036854775808

instance (x : Int) : Decidable (FitsInt64 x) :=
  inferInstanceAs (Decidable (_ ∧ _))

/-- A subtraction on `int64_t`. -/
def subInt64 (a b : Int64) : Except CrosscheckFault Int64 :=
  if FitsInt64 (a.toInt - b.toInt) then .ok (a - b) else .error .overflow

theorem toInt_sub_of_fits {a b : Int64} (hfits : FitsInt64 (a.toInt - b.toInt)) :
    (a - b).toInt = a.toInt - b.toInt := by
  obtain ⟨hlo, hhi⟩ := hfits
  rw [Int64.toInt_sub]
  exact Int.bmod_eq_of_le (by omega) (by omega)

/-- Conversion to `int64_t`. -/
theorem toInt_toInt64 (x : UInt64) :
    x.toInt64.toInt =
      if x.toNat < 9223372036854775808 then (x.toNat : Int)
      else x.toNat - 18446744073709551616 := by
  show x.toBitVec.toInt = _
  rw [BitVec.toInt_eq_toNat_cond, UInt64.toNat_toBitVec]
  split_ifs <;> omega

/-- Both values are in the same half of `uint64_t`. -/
def SameHalf (x y : UInt64) : Prop :=
  x.toNat < 9223372036854775808 ↔ y.toNat < 9223372036854775808

instance (x y : UInt64) : Decidable (SameHalf x y) :=
  inferInstanceAs (Decidable (_ ↔ _))

/-- The subtraction after conversion is defined exactly if the values are in the same half
or their difference does not fit. -/
theorem fits_converted_iff (x y : UInt64) :
    FitsInt64 (x.toInt64.toInt - y.toInt64.toInt) ↔
      SameHalf x y ∨ ¬FitsInt64 ((x.toNat : Int) - y.toNat) := by
  have hx := x.toNat_lt
  have hy := y.toNat_lt
  rw [toInt_toInt64, toInt_toInt64]
  unfold FitsInt64 SameHalf
  split_ifs <;> omega

/-- Where it is defined and the difference fits, the two are the same. -/
theorem converted_sub_eq {x y : UInt64} (hfits : FitsInt64 (x.toInt64.toInt - y.toInt64.toInt))
    (hexact : FitsInt64 ((x.toNat : Int) - y.toNat)) :
    x.toInt64.toInt - y.toInt64.toInt = (x.toNat : Int) - y.toNat := by
  have hhalf := ((fits_converted_iff x y).mp hfits).resolve_right (not_not_intro hexact)
  rw [toInt_toInt64, toInt_toInt64]
  unfold SameHalf at hhalf
  split_ifs <;> omega

end SignedSubtraction

/-- Metered and reported octets of a subscriber. -/
structure GyDelta where
  imsi : UInt64
  meteredOctets : UInt64
  reportedOctets : UInt64
  difference : Int64
  reports : UInt32

/-- `total_bytes`. -/
def SubscriberCounters.totalBytes (c : SubscriberCounters) : UInt64 :=
  c.ulBytes + c.dlBytes

namespace MeterEngine

open Runs

variable {cfg : MeterConfig} {sink : RecordSink} {h : History} {e : MeterEngine}

section Crosscheck

/-- The row of a subscriber. -/
def gyDelta (c : SubscriberCounters) (info : SubscriberInfo) : Except CrosscheckFault GyDelta := do
  let metered := c.totalBytes
  let difference ← subInt64 metered.toInt64 info.gyReportedOctets.toInt64
  .ok {
    imsi := info.imsi
    meteredOctets := metered
    reportedOctets := info.gyReportedOctets
    difference := difference
    reports := info.gyReports }

/-- Loop of `gy_crosscheck`: subscribers left and index. -/
def gyCrosscheckLoop (e : MeterEngine) : Nat → Nat → Except CrosscheckFault (List GyDelta)
  | 0, _ => .ok []
  | n + 1, idx =>
      if idx < e.tableSize then
        let info := e.info idx
        if !info.active || info.gyReports = 0 then gyCrosscheckLoop e n (idx + 1)
        else do
          let row ← gyDelta (e.counters idx) info
          let rows ← gyCrosscheckLoop e n (idx + 1)
          .ok (row :: rows)
      else .error .outOfRange

def gyCrosscheck (e : MeterEngine) : Except CrosscheckFault (List GyDelta) :=
  e.gyCrosscheckLoop e.nextSub 0

/-- The subscriber has a row. -/
def Checked (e : MeterEngine) (idx : Nat) : Prop :=
  (e.info idx).active = true ∧ (e.info idx).gyReports ≠ 0

instance (e : MeterEngine) (idx : Nat) : Decidable (Checked e idx) :=
  inferInstanceAs (Decidable (_ ∧ _))

theorem gyDelta_ok {c : SubscriberCounters} {info : SubscriberInfo} {row : GyDelta}
    (hrow : gyDelta c info = .ok row) :
    FitsInt64 (c.totalBytes.toInt64.toInt - info.gyReportedOctets.toInt64.toInt) ∧
      row = { imsi := info.imsi
              meteredOctets := c.totalBytes
              reportedOctets := info.gyReportedOctets
              difference := c.totalBytes.toInt64 - info.gyReportedOctets.toInt64
              reports := info.gyReports } := by
  obtain ⟨difference, hsub, hrow⟩ := bind_eq_ok.mp hrow
  unfold subInt64 at hsub
  split_ifs at hsub with hfits
  obtain rfl := Except.ok.inj hsub
  exact ⟨hfits, (Except.ok.inj hrow).symm⟩

theorem gyDelta_returns {c : SubscriberCounters} {info : SubscriberInfo}
    (hfits : FitsInt64 (c.totalBytes.toInt64.toInt - info.gyReportedOctets.toInt64.toInt)) :
    ∃ row, gyDelta c info = .ok row := by
  unfold gyDelta
  dsimp only
  rw [subInt64, if_pos hfits]
  exact ⟨_, rfl⟩

/-- The subtraction for a subscriber is defined. -/
def Defined (e : MeterEngine) (idx : Nat) : Prop :=
  FitsInt64 ((e.counters idx).totalBytes.toInt64.toInt -
    (e.info idx).gyReportedOctets.toInt64.toInt)

theorem gyCrosscheckLoop_unchecked {n idx : Nat} (hlt : idx < e.tableSize)
    (hno : ¬Checked e idx) :
    e.gyCrosscheckLoop (n + 1) idx = e.gyCrosscheckLoop n (idx + 1) := by
  have hskip : (!(e.info idx).active || decide ((e.info idx).gyReports = 0)) = true := by
    by_contra hrow
    simp only [Bool.or_eq_true, not_or, Bool.not_eq_true', Bool.not_eq_false,
      decide_eq_true_eq] at hrow
    exact hno hrow
  rw [gyCrosscheckLoop, if_pos hlt]
  exact if_pos hskip

theorem gyCrosscheckLoop_checked {n idx : Nat} (hlt : idx < e.tableSize)
    (hyes : Checked e idx) :
    e.gyCrosscheckLoop (n + 1) idx =
      (do
        let row ← gyDelta (e.counters idx) (e.info idx)
        let rows ← e.gyCrosscheckLoop n (idx + 1)
        .ok (row :: rows)) := by
  have hrow : ¬(!(e.info idx).active || decide ((e.info idx).gyReports = 0)) = true := by
    simp [hyes.1, hyes.2]
  rw [gyCrosscheckLoop, if_pos hlt]
  exact if_neg hrow

/-- The loop returns if every subtraction is defined. -/
theorem gyCrosscheckLoop_returns (n : Nat) : ∀ idx, idx + n ≤ e.tableSize →
    (∀ i, idx ≤ i → i < idx + n → Checked e i → Defined e i) →
    ∃ rows, e.gyCrosscheckLoop n idx = .ok rows := by
  induction n with
  | zero => exact fun _ _ _ => ⟨[], rfl⟩
  | succ n ih =>
      intro idx hle hall
      obtain ⟨rows, hrows⟩ := ih (idx + 1) (by omega)
        (fun i hlo hhi => hall i (by omega) (by omega))
      by_cases hchecked : Checked e idx
      · obtain ⟨row, hrow⟩ := gyDelta_returns (hall idx le_rfl (by omega) hchecked)
        refine ⟨row :: rows, ?_⟩
        rw [gyCrosscheckLoop_checked (by omega) hchecked, hrow, hrows]
        rfl
      · exact ⟨rows, (gyCrosscheckLoop_unchecked (by omega) hchecked).trans hrows⟩

/-- If it returns, every subtraction was defined, and each row is one of them. -/
theorem gyCrosscheckLoop_rows (n : Nat) : ∀ idx rows, idx + n ≤ e.tableSize →
    e.gyCrosscheckLoop n idx = .ok rows →
    (∀ i, idx ≤ i → i < idx + n → Checked e i → Defined e i) ∧
      ∀ row ∈ rows, ∃ i, gyDelta (e.counters i) (e.info i) = .ok row := by
  induction n with
  | zero =>
      intro idx rows _ hloop
      obtain rfl := Except.ok.inj hloop
      exact ⟨fun i hlo hhi => by omega, fun row hrow => absurd hrow List.not_mem_nil⟩
  | succ n ih =>
      intro idx rows hle hloop
      by_cases hchecked : Checked e idx
      · rw [gyCrosscheckLoop_checked (by omega) hchecked] at hloop
        obtain ⟨row, hrow, hloop⟩ := bind_eq_ok.mp hloop
        obtain ⟨rest, hrest, hloop⟩ := bind_eq_ok.mp hloop
        obtain rfl := Except.ok.inj hloop
        obtain ⟨hdefined, hmem⟩ := ih (idx + 1) rest (by omega) hrest
        constructor
        · intro i hlo hhi hi
          rcases Nat.eq_or_lt_of_le hlo with rfl | hlt
          · exact (gyDelta_ok hrow).1
          · exact hdefined i hlt (by omega) hi
        · intro row' hrow'
          rcases List.mem_cons.mp hrow' with rfl | hrow'
          · exact ⟨idx, hrow⟩
          · exact hmem row' hrow'
      · rw [gyCrosscheckLoop_unchecked (by omega) hchecked] at hloop
        obtain ⟨hdefined, hmem⟩ := ih (idx + 1) rows (by omega) hloop
        refine ⟨?_, hmem⟩
        intro i hlo hhi hi
        rcases Nat.eq_or_lt_of_le hlo with rfl | hlt
        · exact absurd hi hchecked
        · exact hdefined i hlt (by omega) hi

theorem gyCrosscheck_returns_iff (hi : Indexed e) :
    (∃ rows, e.gyCrosscheck = .ok rows) ↔ ∀ idx, idx < e.nextSub → Checked e idx → Defined e idx := by
  have hle : 0 + e.nextSub ≤ e.tableSize := by simpa using hi.next_le
  constructor
  · rintro ⟨rows, hrows⟩ idx hlt hchecked
    exact (gyCrosscheckLoop_rows e.nextSub 0 rows hle hrows).1 idx (Nat.zero_le _) (by omega)
      hchecked
  · intro hall
    exact gyCrosscheckLoop_returns e.nextSub 0 hle
      (fun i _ hhi hchecked => hall i (by omega) hchecked)

/-- Every row of a cross-check that returns is exact where the difference fits. -/
theorem gyCrosscheck_row (hi : Indexed e) {rows : List GyDelta} {row : GyDelta}
    (hrows : e.gyCrosscheck = .ok rows) (hrow : row ∈ rows)
    (hfits : FitsInt64 ((row.meteredOctets.toNat : Int) - row.reportedOctets.toNat)) :
    row.difference.toInt = (row.meteredOctets.toNat : Int) - row.reportedOctets.toNat := by
  have hle : 0 + e.nextSub ≤ e.tableSize := by simpa using hi.next_le
  obtain ⟨i, hdelta⟩ := (gyCrosscheckLoop_rows e.nextSub 0 rows hle hrows).2 row hrow
  obtain ⟨hdefined, rfl⟩ := gyDelta_ok hdelta
  exact (toInt_sub_of_fits hdefined).trans (converted_sub_eq hdefined hfits)

/-- **The Gy cross-check.**  No subtraction overflows and every difference that fits is exact,
if and only if for every row the metered and the reported octets are both below 2^63 or both
not, or their difference does not fit. -/
theorem gy_difference_exact_iff (hrun : Reaches cfg sink h e) :
    (∃ rows, e.gyCrosscheck = .ok rows ∧ ∀ row ∈ rows,
      FitsInt64 ((row.meteredOctets.toNat : Int) - row.reportedOctets.toNat) →
        row.difference.toInt = (row.meteredOctets.toNat : Int) - row.reportedOctets.toNat) ↔
      ∀ idx, idx < e.nextSub → Checked e idx →
        SameHalf (e.counters idx).totalBytes (e.info idx).gyReportedOctets ∨
          ¬FitsInt64 (((e.counters idx).totalBytes.toNat : Int) -
            (e.info idx).gyReportedOctets.toNat) := by
  have hi := reaches_indexed hrun
  have hreturns := gyCrosscheck_returns_iff hi
  constructor
  · rintro ⟨rows, hrows, -⟩ idx hlt hchecked
    exact (fits_converted_iff _ _).mp (hreturns.mp ⟨rows, hrows⟩ idx hlt hchecked)
  · intro hall
    obtain ⟨rows, hrows⟩ := hreturns.mpr
      (fun idx hlt hchecked => (fits_converted_iff _ _).mpr (hall idx hlt hchecked))
    exact ⟨rows, hrows, fun row hrow hfits => gyCrosscheck_row hi hrows hrow hfits⟩

/-- A hundred bytes metered and forty reported. -/
theorem gy_difference_exact_iff_sixty :
    ∃ h e row, Reaches smallConfig noSink h e ∧ e.gyCrosscheck = .ok [row] ∧
      row.meteredOctets = 100 ∧ row.reportedOctets = 40 ∧ row.difference.toInt = 60 := by
  have hex : execCheck step (init smallConfig noSink)
      [.install { imsi := 1, ulTeid := 100 } 0, .apply { teid := 100, bytes := 100 },
        .applyGy { imsi := 1, hasImsi := true, hasUsed := true, usedTotalOctets := 40 }]
      (fun _ e => decide (e.nextSub = 1 ∧
          SameHalf (e.counters 0).totalBytes (e.info 0).gyReportedOctets) &&
        returnsWith e.gyCrosscheck (fun rows => decide
          (rows.map (fun row => (row.meteredOctets, row.reportedOctets)) = [(100, 40)]))) = true := by
    decide +kernel
  obtain ⟨h, e, hrun, hcheck⟩ := Run.of_execCheck hex
  obtain ⟨hstate, hreturns⟩ := (Bool.and_eq_true _ _).mp hcheck
  obtain ⟨hnext, hhalf⟩ := of_decide_eq_true hstate
  obtain ⟨rows, hrows, hexact⟩ := (gy_difference_exact_iff hrun).mpr (by
    intro idx hlt _
    obtain rfl : idx = 0 := by omega
    exact .inl hhalf)
  obtain ⟨rows', hrows', hshown⟩ := returnsWith_iff.mp hreturns
  obtain rfl := Except.ok.inj (hrows.symm.trans hrows')
  obtain ⟨row, rfl, hrow⟩ := List.map_eq_singleton_iff.mp (of_decide_eq_true hshown)
  obtain ⟨hmetered, hreported⟩ := Prod.mk.inj hrow
  have hdifference := hexact row (by simp) (by rw [hmetered, hreported]; decide)
  rw [hmetered, hreported] at hdifference
  exact ⟨h, e, row, hrun, hrows, hmetered, hreported, hdifference⟩

/-- Gy reports 2^63 octets where none were metered: the difference, -2^63, fits, and the
subtraction overflows. -/
theorem half_range_report_overflows :
    ∃ h e, Reaches smallConfig noSink h e ∧ (e.counters 0).totalBytes = 0 ∧
      (e.info 0).gyReportedOctets = 9223372036854775808 ∧
      FitsInt64 (((e.counters 0).totalBytes.toNat : Int) - (e.info 0).gyReportedOctets.toNat) ∧
      e.gyCrosscheck = .error .overflow := by
  have hex : execCheck step (init smallConfig noSink)
      [.install { imsi := 1, ulTeid := 100 } 0,
        .applyGy { imsi := 1, hasImsi := true, hasUsed := true,
                   usedTotalOctets := 9223372036854775808 }]
      (fun _ e => decide ((e.counters 0).totalBytes = 0 ∧
          (e.info 0).gyReportedOctets = 9223372036854775808 ∧
          failsWith e.gyCrosscheck .overflow = true)) = true := by
    decide +kernel
  obtain ⟨h, e, hrun, hcheck⟩ := Run.of_execCheck hex
  obtain ⟨hmetered, hreported, hfault⟩ := of_decide_eq_true hcheck
  refine ⟨h, e, hrun, hmetered, hreported, ?_, failsWith_iff.mp hfault⟩
  rw [hmetered, hreported]
  decide

end Crosscheck

end MeterEngine
end GtpMeter
