import GtpMeter.SessionCsv
import Mathlib.Tactic.IntervalCases

/-!
# What session files hold

Rows are cut at commas, their cells trimmed, and the first four cells read as numbers, in
base 10 or behind `0x` in base 16.  The digits of a number are accumulated in 64 bits,
where a number that is too large comes out as another one; and a rating group that cannot
be read, or that is too large for its field, is taken for 0.

**Results.**
* `parseU64_eq`: the number that is read, in terms of the number that is written.
* `loadSessionsCsv_eq`: every line that is not passed over is loaded or counted.
* `sessions_round_trip`: a file that was written is loaded with the same sessions.
* `rows_exact_iff`: when rows are loaded as written.
-/

namespace GtpMeter

open DelimitedText

section Numbers

/-- The value of a digit. -/
def digitNat (base : Nat) (c : UInt8) : Option Nat :=
  (digitValue base c).map UInt64.toNat

/-- The number that a cell stands for, of any size. -/
def exactValue (s : List UInt8) : Option Nat :=
  if s = [] then none
  else numeral (digitNat (numeralBase s)) (numeralBase s)
    (s.drop (if numeralBase s = 16 then 2 else 0))

/-- Digits accumulated from the left make up the number. -/
theorem foldl_eq_ofDigits (b : Nat) (ds : List Nat) :
    ds.foldl (fun n d => n * b + d) 0 = Nat.ofDigits b ds.reverse := by
  rw [Nat.ofDigits_eq_foldr, List.foldr_reverse]
  congr 1
  funext n d
  rw [Nat.cast_id, Nat.mul_comm, Nat.add_comm]

/-- The loop wraps around at the range of its accumulator. -/
theorem parseDigits_eq (base : Nat) (cs : List UInt8) (n : Nat) :
    parseDigits base cs (UInt64.ofNat n) =
      (cs.mapM (digitNat base)).map
        (fun ds => UInt64.ofNat (ds.foldl (fun n d => n * base + d) n)) := by
  induction cs generalizing n with
  | nil => rfl
  | cons c cs ih =>
      rw [parseDigits, List.mapM_cons, digitNat]
      cases hc : digitValue base c with
      | none => rfl
      | some digit =>
          have hnext : UInt64.ofNat n * UInt64.ofNat base + digit =
              UInt64.ofNat (n * base + digit.toNat) := by
            rw [UInt64.ofNat_add, UInt64.ofNat_mul, UInt64.ofNat_toNat]
          simp only [Option.bind_eq_bind, Option.bind_some, Option.map_some, hnext, ih]
          cases cs.mapM (digitNat base) with
          | none => rfl
          | some ds => rfl

/-- `parse_u64` reads a number modulo the range of its result. -/
theorem parseU64_eq (s : List UInt8) : parseU64 s = (exactValue s).map UInt64.ofNat := by
  rw [parseU64, exactValue]
  split
  · rfl
  · rw [show (0 : UInt64) = UInt64.ofNat 0 from rfl, parseDigits_eq, numeral, Option.map_map]
    congr 1
    funext ds
    exact congrArg UInt64.ofNat (foldl_eq_ofDigits _ ds)

end Numbers

section Lines

variable {cols : List (List UInt8)} {s : SessionRow}

/-- A row that is loaded. -/
theorem sessionOf_eq_some_iff :
    sessionOf cols = some s ↔
      3 ≤ cols.length ∧ ∃ imsi ul dl,
        parseU64 (cols.getD 0 []) = some imsi ∧ parseU64 (cols.getD 1 []) = some ul ∧
        parseU64 (cols.getD 2 []) = some dl ∧ ul ≤ 0xFFFFFFFF ∧ dl ≤ 0xFFFFFFFF ∧
        s = { imsi, ulTeid := ul.toUInt32, dlTeid := dl.toUInt32,
              ratingGroup := ratingGroupOf cols, msisdn := cols.getD 4 [],
              apn := cols.getD 5 [] } ∧
        s.valid = true := by
  constructor
  · intro h
    rw [sessionOf] at h
    split at h
    · cases h
    · rename_i hlen
      obtain ⟨imsi, himsi, h⟩ := Option.bind_eq_some_iff.mp h
      obtain ⟨ul, hul, h⟩ := Option.bind_eq_some_iff.mp h
      obtain ⟨dl, hdl, h⟩ := Option.bind_eq_some_iff.mp h
      split at h
      · cases h
      · rename_i hrange
        obtain ⟨hulmax, hdlmax⟩ := not_or.mp hrange
        dsimp only at h
        split at h
        · rename_i hvalid
          obtain rfl := Option.some.inj h
          exact ⟨Nat.not_lt.mp hlen, imsi, ul, dl, himsi, hul, hdl, UInt64.not_lt.mp hulmax,
            UInt64.not_lt.mp hdlmax, rfl, hvalid⟩
        · cases h
  · rintro ⟨hlen, imsi, ul, dl, himsi, hul, hdl, hulmax, hdlmax, rfl, hvalid⟩
    rw [sessionOf, if_neg (Nat.not_lt.mpr hlen), himsi, hul, hdl]
    simp only [Option.bind_eq_bind, Option.bind_some]
    rw [if_neg (not_or.mpr ⟨UInt64.not_lt.mpr hulmax, UInt64.not_lt.mpr hdlmax⟩), if_pos hvalid]

/-- The rows of a file: its lines without the blanks around them, and without those that
are passed over. -/
def rowLines (bytes : List UInt8) : List (List UInt8) :=
  ((segments 10 bytes).map trim).filter (fun line => !isIgnored line)

theorem foldl_sessionLine (lines : List (List UInt8)) (result : SessionLoadResult) :
    lines.foldl sessionLine result =
      { result with
        sessions := result.sessions ++ ((lines.map trim).filter (fun line => !isIgnored line)).filterMap
          (fun line => sessionOf (columns line))
        skippedLines := result.skippedLines +
          ((lines.map trim).filter (fun line => !isIgnored line)).countP
            (fun line => (sessionOf (columns line)).isNone) } := by
  induction lines generalizing result with
  | nil => simp
  | cons line lines ih =>
      rw [List.foldl_cons, ih, List.map_cons]
      cases hignored : isIgnored (trim line) with
      | true => simp [sessionLine, hignored]
      | false =>
          cases hrow : sessionOf (columns (trim line)) with
          | none =>
              simp [sessionLine, hignored, hrow]
              omega
          | some s => simp [sessionLine, hignored, hrow]

/-- **Rows.**  Every row of a file is loaded, in order, or counted as skipped. -/
theorem loadSessionsCsv_eq (path : String) (bytes : List UInt8) :
    loadSessionsCsv path (some bytes) =
      { sessions := (rowLines bytes).filterMap (fun line => sessionOf (columns line))
        skippedLines := (rowLines bytes).countP (fun line => (sessionOf (columns line)).isNone) } := by
  rw [loadSessionsCsv, foldl_sessionLine, rowLines]
  simp

end Lines

section Exact

variable {cols : List (List UInt8)} {s : SessionRow} {cell : List UInt8} {v : UInt64}

/-- The numbers of a session are those of its columns. -/
structure AsWritten (cols : List (List UInt8)) (s : SessionRow) : Prop where
  imsi : exactValue (cols.getD 0 []) = some s.imsi.toNat
  ulTeid : exactValue (cols.getD 1 []) = some s.ulTeid.toNat
  dlTeid : exactValue (cols.getD 2 []) = some s.dlTeid.toNat
  ratingGroup : 3 < cols.length → exactValue (cols.getD 3 []) = some s.ratingGroup.toNat

/-- The number in a cell, if there is one, fits 64 bits. -/
def FitsU64 (cell : List UInt8) : Prop :=
  ∀ n ∈ exactValue cell, n < 18446744073709551616

/-- The numbers in the first three columns do not wrap around, and a rating group is a
number of 32 bits. -/
structure NumbersFit (cols : List (List UInt8)) : Prop where
  imsi : FitsU64 (cols.getD 0 [])
  ulTeid : FitsU64 (cols.getD 1 [])
  dlTeid : FitsU64 (cols.getD 2 [])
  ratingGroup : 3 < cols.length → ∃ n ∈ exactValue (cols.getD 3 []), n < 4294967296

/-- A number is read right if it fits. -/
theorem exactValue_eq_iff (h : parseU64 cell = some v) :
    exactValue cell = some v.toNat ↔ FitsU64 cell := by
  rw [parseU64_eq] at h
  obtain ⟨n, hn, rfl⟩ := Option.map_eq_some_iff.mp h
  have hval : (UInt64.ofNat n).toNat = n % 18446744073709551616 := UInt64.toNat_ofNat'
  rw [FitsU64, hn, hval]
  constructor
  · intro hexact m hm
    obtain rfl := Option.some.inj hm
    have hlt := Nat.mod_lt n (show 0 < 18446744073709551616 by decide)
    rw [← Option.some.inj hexact] at hlt
    exact hlt
  · intro hfits
    rw [Nat.mod_eq_of_lt (hfits n rfl)]

theorem toUInt32_toNat (h : v ≤ 0xFFFFFFFF) : v.toUInt32.toNat = v.toNat := by
  have hle : v.toNat ≤ 4294967295 := UInt64.le_iff_toNat_le.mp h
  rw [UInt64.toNat_toUInt32]
  omega

/-- A rating group is read right if it is there as a number of 32 bits. -/
theorem ratingGroup_eq_iff (h : 3 < cols.length) :
    exactValue (cols.getD 3 []) = some (ratingGroupOf cols).toNat ↔
      ∃ n ∈ exactValue (cols.getD 3 []), n < 4294967296 := by
  rw [ratingGroupOf, if_pos h, parseU64_eq]
  cases hvalue : exactValue (cols.getD 3 []) with
  | none => simp
  | some n =>
      have hval : (UInt64.ofNat n).toNat = n % 18446744073709551616 := UInt64.toNat_ofNat'
      simp only [Option.map_some, Option.some.injEq, Option.mem_some_iff, exists_eq_left']
      constructor
      · intro hexact
        rw [hexact]
        exact UInt32.toNat_lt _
      · intro hlt
        have hle : UInt64.ofNat n ≤ 0xFFFFFFFF := by
          apply UInt64.le_iff_toNat_le.mpr
          rw [hval]
          simp only [UInt64.reduceToNat]
          omega
        rw [if_pos hle, toUInt32_toNat hle, hval]
        omega

/-- A row that is loaded is loaded as written if its numbers fit. -/
theorem asWritten_iff (h : sessionOf cols = some s) : AsWritten cols s ↔ NumbersFit cols := by
  obtain ⟨-, imsi, ul, dl, himsi, hul, hdl, hulmax, hdlmax, rfl, -⟩ := sessionOf_eq_some_iff.mp h
  constructor
  · rintro ⟨himsi', hul', hdl', hrg⟩
    rw [toUInt32_toNat hulmax] at hul'
    rw [toUInt32_toNat hdlmax] at hdl'
    exact ⟨(exactValue_eq_iff himsi).mp himsi', (exactValue_eq_iff hul).mp hul',
      (exactValue_eq_iff hdl).mp hdl', fun hlen => (ratingGroup_eq_iff hlen).mp (hrg hlen)⟩
  · rintro ⟨himsi', hul', hdl', hrg⟩
    refine ⟨(exactValue_eq_iff himsi).mpr himsi', ?_, ?_, ?_⟩
    · rw [toUInt32_toNat hulmax]
      exact (exactValue_eq_iff hul).mpr hul'
    · rw [toUInt32_toNat hdlmax]
      exact (exactValue_eq_iff hdl).mpr hdl'
    · exact fun hlen => (ratingGroup_eq_iff hlen).mpr (hrg hlen)

/-- **Loaded as written.**  Every row of a file yields a session or is counted, and each
session has the numbers of its row exactly if in the rows that yield one the first three
numbers fit 64 bits and the fourth column, if there is one, is a number of 32 bits. -/
theorem rows_exact_iff (path : String) (bytes : List UInt8) :
    loadSessionsCsv path (some bytes) =
      { sessions := (rowLines bytes).filterMap (fun line => sessionOf (columns line))
        skippedLines := (rowLines bytes).countP
          (fun line => (sessionOf (columns line)).isNone) } ∧
    ((∀ line ∈ rowLines bytes, ∀ s ∈ sessionOf (columns line), AsWritten (columns line) s) ↔
      ∀ line ∈ rowLines bytes, (sessionOf (columns line)).isSome → NumbersFit (columns line)) := by
  refine ⟨loadSessionsCsv_eq path bytes, ?_⟩
  constructor
  · intro hexact line hline hloaded
    obtain ⟨s, hs⟩ := Option.isSome_iff_exists.mp hloaded
    exact (asWritten_iff hs).mp (hexact line hline s hs)
  · intro hfits line hline s hs
    exact (asWritten_iff hs).mpr (hfits line hline (Option.isSome_iff_exists.mpr ⟨s, hs⟩))

/-- Numbers that are too large are loaded as other numbers: an IMSI as its remainder, a
rating group as 0. -/
theorem large_numbers_load :
    loadSessionsCsv "sessions.csv"
        (some (text "18446744073709551617,100,200\n7,100,200,4294967296\n")) =
      { sessions := [{ imsi := 1, ulTeid := 100, dlTeid := 200 },
          { imsi := 7, ulTeid := 100, dlTeid := 200, ratingGroup := 0 }] } ∧
    exactValue (text "18446744073709551617") = some 18446744073709551617 ∧
    exactValue (text "4294967296") = some 4294967296 := by
  refine ⟨?_, ?_, ?_⟩
  · decide +kernel
  · decide +kernel
  · decide +kernel

end Exact

section RoundTrip

variable {s : SessionRow} {n : Nat}

/-- A cell of text that comes back as it was: without commas and newlines in it, and
without blanks around it. -/
structure TextCell (cell : List UInt8) : Prop where
  no_comma : 44 ∉ cell
  no_newline : 10 ∉ cell
  clean : Clean isBlank cell

/-- A session that is written to a file. -/
structure Storable (s : SessionRow) : Prop where
  valid : s.valid = true
  msisdn : TextCell s.msisdn
  apn : TextCell s.apn

theorem digitNat_write {d : Nat} (h : d < 10) : digitNat 10 (UInt8.ofNat (48 + d)) = some d := by
  interval_cases d <;> rfl

theorem isBlank_of_ge {c : UInt8} (h : 33 ≤ c.toNat) : isBlank c = false := by
  have hne : ∀ b : UInt8, b.toNat < 33 → c ≠ b := by
    rintro b hb rfl
    omega
  simp [isBlank, hne 32 (by decide), hne 9 (by decide), hne 13 (by decide)]

theorem decimalText_cell (n : Nat) : TextCell (decimalText n) where
  no_comma := not_mem_decimalText (by decide)
  no_newline := not_mem_decimalText (by decide)
  clean :=
    { first := fun c hc => by
        have hrange := mem_decimalText (List.mem_of_mem_head? hc)
        exact isBlank_of_ge (by omega)
      last := fun c hc => by
        have hrange := mem_decimalText (List.mem_of_mem_getLast? hc)
        exact isBlank_of_ge (by omega) }

/-- A number that is written is read in base 10. -/
theorem numeralBase_decimalText (n : Nat) : numeralBase (decimalText n) = 10 := by
  rw [numeralBase, if_neg]
  rintro ⟨hlen, -, hx⟩
  have hmem : (decimalText n).getD 1 0 ∈ decimalText n := by
    rw [List.getD_eq_getElem?_getD, List.getElem?_eq_getElem (by omega), Option.getD_some]
    exact List.getElem_mem _
  have hrange := mem_decimalText hmem
  rcases hx with hx | hx
  · rw [hx] at hrange
    exact absurd hrange.2 (by decide)
  · rw [hx] at hrange
    exact absurd hrange.2 (by decide)

theorem exactValue_decimalText (n : Nat) : exactValue (decimalText n) = some n := by
  rw [exactValue, if_neg (decimalText_ne_nil n), numeralBase_decimalText, if_neg (by decide),
    List.drop_zero]
  exact numeral_digits (by decide) (fun d hd => digitNat_write hd) n

theorem parseU64_decimalText (n : Nat) : parseU64 (decimalText n) = some (UInt64.ofNat n) := by
  rw [parseU64_eq, exactValue_decimalText, Option.map_some]

/-- An identifier of 32 bits comes back through 64. -/
theorem ofNat_teid (teid : UInt32) :
    UInt64.ofNat teid.toNat ≤ 0xFFFFFFFF ∧ (UInt64.ofNat teid.toNat).toUInt32 = teid := by
  have hlt := teid.toNat_lt
  have hval : (UInt64.ofNat teid.toNat).toNat = teid.toNat := by
    rw [UInt64.toNat_ofNat']
    omega
  have hle : UInt64.ofNat teid.toNat ≤ 0xFFFFFFFF := by
    apply UInt64.le_iff_toNat_le.mpr
    rw [hval]
    simp only [UInt64.reduceToNat]
    omega
  refine ⟨hle, UInt32.toNat_inj.mp ?_⟩
  rw [toUInt32_toNat hle, hval]

theorem sessionColumns_cell (h : Storable s) : ∀ col ∈ sessionColumns s, TextCell col := by
  intro col hcol
  simp only [sessionColumns, List.mem_cons, List.not_mem_nil, or_false] at hcol
  rcases hcol with rfl | rfl | rfl | rfl | rfl
  · exact decimalText_cell _
  · exact decimalText_cell _
  · exact decimalText_cell _
  · exact decimalText_cell _
  · exact h.msisdn

/-- The columns of a row, of which an empty last one is not seen. -/
theorem columns_sessionText (h : Storable s) :
    columns (sessionText s) = sessionColumns s ++ (if s.apn = [] then [] else [s.apn]) := by
  have hcells := sessionColumns_cell h
  have hlast : segments 44 s.apn = if s.apn = [] then [] else [s.apn] := by
    split
    · rename_i hnil
      rw [hnil]
      rfl
    · rename_i hne
      exact segments_last hne h.apn.no_comma
  have htrim : ∀ col ∈ sessionColumns s ++ (if s.apn = [] then [] else [s.apn]), trim col = col := by
    intro col hcol
    rcases List.mem_append.mp hcol with hcol | hcol
    · exact trim_clean (hcells col hcol).clean
    · split at hcol
      · cases hcol
      · rw [List.mem_singleton.mp hcol]
        exact trim_clean h.apn.clean
  rw [columns, sessionText, segments_flatMap (fun col hcol => (hcells col hcol).no_comma), hlast,
    List.map_congr_left htrim, List.map_id']

theorem sessionOf_sessionText (h : Storable s) : sessionOf (columns (sessionText s)) = some s := by
  have hrg : ratingGroupOf (columns (sessionText s)) = s.ratingGroup := by
    rw [columns_sessionText h, ratingGroupOf, if_pos (by simp [sessionColumns])]
    have hcell : (sessionColumns s ++ (if s.apn = [] then [] else [s.apn])).getD 3 [] =
        decimalText s.ratingGroup.toNat := rfl
    rw [hcell, parseU64_decimalText]
    simp only [ofNat_teid, if_true]
  have hapn : (columns (sessionText s)).getD 5 [] = s.apn := by
    rw [columns_sessionText h]
    split
    · rename_i hnil
      rw [hnil]
      rfl
    · rfl
  refine sessionOf_eq_some_iff.mpr ⟨?_, UInt64.ofNat s.imsi.toNat, UInt64.ofNat s.ulTeid.toNat,
    UInt64.ofNat s.dlTeid.toNat, ?_, ?_, ?_, (ofNat_teid s.ulTeid).1, (ofNat_teid s.dlTeid).1, ?_,
    h.valid⟩
  · rw [columns_sessionText h]
    simp [sessionColumns]
  · rw [columns_sessionText h]
    exact parseU64_decimalText s.imsi.toNat
  · rw [columns_sessionText h]
    exact parseU64_decimalText s.ulTeid.toNat
  · rw [columns_sessionText h]
    exact parseU64_decimalText s.dlTeid.toNat
  · have hmsisdn : (columns (sessionText s)).getD 4 [] = s.msisdn := by
      rw [columns_sessionText h]
      rfl
    rw [(ofNat_teid s.ulTeid).2, (ofNat_teid s.dlTeid).2, hrg, hapn, hmsisdn, UInt64.ofNat_toNat]

/-- A row begins with a digit. -/
theorem sessionText_cons (s : SessionRow) :
    ∃ c rest, sessionText s = c :: rest ∧ 48 ≤ c.toNat ∧ c.toNat ≤ 57 := by
  obtain ⟨c, digits, hcons⟩ := List.exists_cons_of_ne_nil (decimalText_ne_nil s.imsi.toNat)
  have hdecimal : decimalText s.imsi.toNat <+: sessionText s := by
    rw [sessionText, sessionColumns, List.flatMap_cons, List.append_assoc, List.append_assoc]
    exact List.prefix_append _ _
  obtain ⟨rest, hrest⟩ := hdecimal
  rw [hcons, List.cons_append] at hrest
  exact ⟨c, digits ++ rest, hrest.symm, mem_decimalText (hcons ▸ List.mem_cons_self)⟩

theorem sessionText_clean (h : Storable s) : Clean isBlank (sessionText s) where
  first := by
    obtain ⟨c, rest, hcons, hge, -⟩ := sessionText_cons s
    intro c' hc'
    rw [hcons] at hc'
    obtain rfl := Option.some.inj hc'
    exact isBlank_of_ge (by omega)
  last := by
    intro c hc
    by_cases hnil : s.apn = []
    · -- the row ends with the comma in front of the empty column
      rw [sessionText, hnil, List.append_nil, sessionColumns] at hc
      simp only [List.flatMap_cons, List.flatMap_nil, List.append_nil, ← List.append_assoc,
        List.getLast?_concat] at hc
      obtain rfl := Option.some.inj hc
      rfl
    · rw [sessionText, List.getLast?_append_of_ne_nil _ hnil] at hc
      exact h.apn.clean.last c hc

theorem sessionText_not_ignored (s : SessionRow) : isIgnored (sessionText s) = false := by
  obtain ⟨c, rest, hcons, hge, hle⟩ := sessionText_cons s
  have hcomment : c ≠ 35 := by
    rintro rfl
    exact absurd hge (by decide)
  have hheader : (105 == c) = false := by
    rw [beq_eq_false_iff_ne]
    rintro rfl
    exact absurd hle (by decide)
  rw [hcons, isIgnored, show text "imsi" = [105, 109, 115, 105] from rfl, List.isPrefixOf, hheader]
  simp [hcomment]

theorem sessionText_no_newline (h : Storable s) : 10 ∉ sessionText s := by
  intro hmem
  rcases List.mem_append.mp hmem with hcols | hapn
  · obtain ⟨col, hcol, hin⟩ := List.mem_flatMap.mp hcols
    rcases List.mem_append.mp hin with hin | hcomma
    · exact (sessionColumns_cell h col hcol).no_newline hin
    · cases List.mem_singleton.mp hcomma
  · exact h.apn.no_newline hapn

/-- The rows of a file that was written. -/
theorem rowLines_written (sessions : List SessionRow) (h : ∀ s ∈ sessions, Storable s) :
    rowLines (sessionHeader ++ [10] ++ sessions.flatMap (fun s => sessionText s ++ [10])) =
      sessions.map sessionText := by
  have hlines : sessionHeader ++ [10] ++ sessions.flatMap (fun s => sessionText s ++ [10]) =
      (sessionHeader :: sessions.map sessionText).flatMap (fun line => line ++ [10]) ++ [] := by
    rw [List.append_nil, List.flatMap_cons, List.flatMap_map]
  have hnewline : ∀ line ∈ sessionHeader :: sessions.map sessionText, 10 ∉ line := by
    intro line hline
    rcases List.mem_cons.mp hline with rfl | hrow
    · decide
    · obtain ⟨s, hs, rfl⟩ := List.mem_map.mp hrow
      exact sessionText_no_newline (h s hs)
  have hrows : ∀ row ∈ sessions.map sessionText, trim row = row ∧ (!isIgnored row) = true := by
    intro row hrow
    obtain ⟨s, hs, rfl⟩ := List.mem_map.mp hrow
    rw [sessionText_not_ignored]
    exact ⟨trim_clean (sessionText_clean (h s hs)), rfl⟩
  rw [rowLines, hlines, segments_flatMap hnewline, segments, List.append_nil, List.map_cons,
    List.filter_cons_of_neg (by decide), List.map_congr_left (fun row hrow => (hrows row hrow).1),
    List.map_id', List.filter_eq_self.mpr (fun row hrow => (hrows row hrow).2)]

/-- **Session files.**  A file that `write_sessions_csv` has written is loaded without an
error and without skipped lines, and yields the same sessions. -/
theorem sessions_round_trip (path : String) (sessions : List SessionRow)
    (h : ∀ s ∈ sessions, Storable s) :
    ∃ bytes, writeSessionsCsv true sessions = some bytes ∧
      (loadSessionsCsv path (some bytes)).ok = true ∧
      (loadSessionsCsv path (some bytes)).skippedLines = 0 ∧
      (loadSessionsCsv path (some bytes)).sessions = sessions := by
  have hrow : ∀ s ∈ sessions, sessionOf (columns (sessionText s)) = some s :=
    fun s hs => sessionOf_sessionText (h s hs)
  refine ⟨_, rfl, ?_⟩
  rw [loadSessionsCsv_eq, rowLines_written sessions h]
  refine ⟨rfl, ?_, ?_⟩
  · rw [List.countP_eq_zero]
    intro line hline
    obtain ⟨s, hs, rfl⟩ := List.mem_map.mp hline
    rw [hrow s hs]
    exact Bool.false_ne_true
  · rw [List.filterMap_map]
    exact (List.filterMap_congr hrow).trans List.filterMap_some

/-- The largest numbers. -/
def largestSession : SessionRow where
  imsi := 18446744073709551615
  ulTeid := 4294967295
  ratingGroup := 4294967295
  msisdn := text "15551234567"
  apn := text "internet"

/-- A session with one tunnel and two empty columns. -/
def bareSession : SessionRow where
  imsi := 1
  dlTeid := 7

theorem sessions_round_trip_bare :
    (∀ s ∈ [largestSession, bareSession], Storable s) ∧
    ∃ bytes, writeSessionsCsv true [largestSession, bareSession] = some bytes ∧
      (loadSessionsCsv "sessions.csv" (some bytes)).sessions = [largestSession, bareSession] := by
  have hlargest : Storable largestSession :=
    ⟨rfl, ⟨by decide, by decide, Clean.of_ends rfl rfl rfl rfl⟩,
      ⟨by decide, by decide, Clean.of_ends rfl rfl rfl rfl⟩⟩
  have hbare : Storable bareSession :=
    ⟨rfl, ⟨by decide, by decide, Clean.nil⟩, ⟨by decide, by decide, Clean.nil⟩⟩
  have hall : ∀ s ∈ [largestSession, bareSession], Storable s := by
    intro s hs
    rcases List.mem_cons.mp hs with rfl | hs
    · exact hlargest
    · rw [List.mem_singleton.mp hs]
      exact hbare
  obtain ⟨bytes, hwrite, -, -, hload⟩ := sessions_round_trip "sessions.csv" _ hall
  exact ⟨hall, bytes, hwrite, hload⟩

end RoundTrip

end GtpMeter
