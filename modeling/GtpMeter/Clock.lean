import GtpMeter.Printf

/-!
# Wall-clock times as text

`format_rfc3339` from `clock.hpp`.  `gmtime_r` goes by the Gregorian calendar: it counts
whole years from 1970, then whole months.

**Results.**
* `length_formatRfc3339`: every time has 24 characters.
* `plain_formatRfc3339`: none of them is a mark of a record.
-/

namespace GtpMeter

section Calendar

def isLeapYear (year : Nat) : Bool :=
  year % 4 == 0 && (year % 100 != 0 || year % 400 == 0)

def daysInYear (year : Nat) : Nat :=
  if isLeapYear year then 366 else 365

def monthLengths (year : Nat) : List Nat :=
  [31, if isLeapYear year then 29 else 28, 31, 30, 31, 30, 31, 31, 30, 31, 30, 31]

/-- The year in which a day falls that is `day` days after the first of `year`, and which
day of that year it is; for at most so many years. -/
def splitYears : Nat → Nat → Nat → Nat × Nat
  | 0, year, day => (year, day)
  | years + 1, year, day =>
      if day < daysInYear year then (year, day)
      else splitYears years (year + 1) (day - daysInYear year)

/-- The month of a day of the year, counted from `month`, and which day of it it is, both
counted from 0. -/
def splitMonths : Nat → List Nat → Nat → Nat × Nat
  | month, [], day => (month, day)
  | month, days :: lengths, day =>
      if day < days then (month, day) else splitMonths (month + 1) lengths (day - days)

/-- The broken-down time, with the month and the day counted from 1. -/
structure Tm where
  year : Nat
  month : Nat
  mday : Nat
  hour : Nat
  min : Nat
  sec : Nat
deriving DecidableEq

/-- `gmtime_r`. -/
def gmtime (secs : Nat) : Tm :=
  let days := secs / 86400
  let rem := secs % 86400
  let y := splitYears (days / 365 + 1) 1970 days
  let m := splitMonths 0 (monthLengths y.1) y.2
  ⟨y.1, m.1 + 1, m.2 + 1, rem / 3600, rem % 3600 / 60, rem % 60⟩

end Calendar

/-- `strftime` with `%Y-%m-%dT%H:%M:%S`. -/
def strftimeText (t : Tm) : List UInt8 :=
  decimalText t.year ++ 45 :: (paddedText 2 t.month ++ 45 :: (paddedText 2 t.mday ++
    84 :: (paddedText 2 t.hour ++ 58 :: (paddedText 2 t.min ++ 58 :: paddedText 2 t.sec))))

def formatRfc3339 (ns : UInt64) : List UInt8 :=
  let secs := ns.toNat / 1000000000
  let millis := ns.toNat % 1000000000 / 1000000
  strftimeText (gmtime secs) ++ 46 :: (paddedText 3 millis ++ [90])

example : formatRfc3339 1709164800123000000 = text "2024-02-29T00:00:00.123Z" := by
  decide +kernel

section Shape

theorem splitYears_bounds (years : Nat) :
    ∀ year day, year ≤ (splitYears years year day).1 ∧
      (splitYears years year day).1 ≤ year + years := by
  induction years with
  | zero =>
      intro year day
      exact ⟨Nat.le_refl _, Nat.le_refl _⟩
  | succ years ih =>
      intro year day
      rw [splitYears]
      split_ifs
      · exact ⟨Nat.le_refl _, Nat.le_add_right _ _⟩
      · obtain ⟨hge, hle⟩ := ih (year + 1) (day - daysInYear year)
        omega

theorem gmtime_year (ns : UInt64) :
    1000 ≤ (gmtime (ns.toNat / 1000000000)).year ∧
      (gmtime (ns.toNat / 1000000000)).year < 10000 := by
  have hlt := ns.toNat_lt
  obtain ⟨hge, hle⟩ := splitYears_bounds (ns.toNat / 1000000000 / 86400 / 365 + 1) 1970
    (ns.toNat / 1000000000 / 86400)
  rw [gmtime]
  dsimp only
  omega

theorem length_formatRfc3339 (ns : UInt64) : (formatRfc3339 ns).length = 24 := by
  obtain ⟨hge, hlt⟩ := gmtime_year ns
  have hyear : Nat.log 10 (gmtime (ns.toNat / 1000000000)).year = 3 :=
    (Nat.log_eq_iff (.inl (by decide))).mpr ⟨hge, hlt⟩
  simp [formatRfc3339, strftimeText, length_decimalText, hyear]

theorem plain_formatRfc3339 (ns : UInt64) : Plain (formatRfc3339 ns) := by
  refine Plain.append ?_ ((Plain.append (plain_paddedText 3 _) (by decide)).cons (by decide))
  refine Plain.append (plain_decimalText _) (Plain.cons (by decide) ?_)
  refine Plain.append (plain_paddedText 2 _) (Plain.cons (by decide) ?_)
  refine Plain.append (plain_paddedText 2 _) (Plain.cons (by decide) ?_)
  refine Plain.append (plain_paddedText 2 _) (Plain.cons (by decide) ?_)
  exact Plain.append (plain_paddedText 2 _) ((plain_paddedText 2 _).cons (by decide))

end Shape

end GtpMeter
