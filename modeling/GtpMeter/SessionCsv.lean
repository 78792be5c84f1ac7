import GtpMeter.AsciiText
import GtpMeter.MeterData

/-!
# Session files

`load_sessions_csv` reads sessions from a file with one row for each of them,
`imsi,ul_teid,dl_teid,rating_group,msisdn,apn`, and `write_sessions_csv` writes such a file.
A row that cannot be read is counted and passed over.

Strings are lists of bytes; what a file holds is an argument of the one function and the
result of the other.
-/

namespace GtpMeter

/-- A session with the columns that the engine does not use. -/
structure SessionRow extends SessionSpec where
  msisdn : List UInt8 := []
  apn : List UInt8 := []
deriving DecidableEq

structure SessionLoadResult where
  sessions : List SessionRow := []
  skippedLines : Nat := 0
  error : String := ""
deriving DecidableEq

def SessionLoadResult.ok (r : SessionLoadResult) : Bool :=
  r.error.isEmpty

section Cells

/-- Space, tab and carriage return. -/
def isBlank (c : UInt8) : Bool :=
  c == 32 || c == 9 || c == 13

def trim (s : List UInt8) : List UInt8 :=
  DelimitedText.trim isBlank s

/-- Base 16 behind `0x` or `0X`, 10 otherwise. -/
def numeralBase (s : List UInt8) : Nat :=
  if s.length > 2 ∧ s.getD 0 0 = 48 ∧ (s.getD 1 0 = 120 ∨ s.getD 1 0 = 88) then 16 else 10

def digitValue (base : Nat) (c : UInt8) : Option UInt64 :=
  if 48 ≤ c ∧ c ≤ 57 then some (c - 48).toUInt64
  else if base = 16 ∧ 97 ≤ c ∧ c ≤ 102 then some (c - 97 + 10).toUInt64
  else if base = 16 ∧ 65 ≤ c ∧ c ≤ 70 then some (c - 65 + 10).toUInt64
  else none

/-- The loop of `parse_u64`. -/
def parseDigits (base : Nat) : List UInt8 → UInt64 → Option UInt64
  | [], v => some v
  | c :: cs, v => do
      let digit ← digitValue base c
      parseDigits base cs (v * UInt64.ofNat base + digit)

def parseU64 (s : List UInt8) : Option UInt64 :=
  if s = [] then none
  else parseDigits (numeralBase s) (s.drop (if numeralBase s = 16 then 2 else 0)) 0

end Cells

section Rows

/-- The fourth column, which is optional. -/
def ratingGroupOf (cols : List (List UInt8)) : UInt32 :=
  if cols.length > 3 then
    match parseU64 (cols.getD 3 []) with
    | some rg => if rg ≤ 0xFFFFFFFF then rg.toUInt32 else 0
    | none => 0
  else 0

/-- The session of a row, from its columns; `none` when the row is skipped. -/
def sessionOf (cols : List (List UInt8)) : Option SessionRow :=
  if cols.length < 3 then none
  else do
    let imsi ← parseU64 (cols.getD 0 [])
    let ul ← parseU64 (cols.getD 1 [])
    let dl ← parseU64 (cols.getD 2 [])
    if ul > 0xFFFFFFFF ∨ dl > 0xFFFFFFFF then none
    else
      let s : SessionRow := {
        imsi
        ulTeid := ul.toUInt32
        dlTeid := dl.toUInt32
        ratingGroup := ratingGroupOf cols
        msisdn := cols.getD 4 []
        apn := cols.getD 5 [] }
      if s.valid then some s else none

def columns (line : List UInt8) : List (List UInt8) :=
  (DelimitedText.segments 44 line).map trim

/-- Blank lines, comments and the header line, which are passed over. -/
def isIgnored (trimmed : List UInt8) : Bool :=
  trimmed.isEmpty || trimmed.head? == some 35 || (text "imsi").isPrefixOf trimmed

/-- One line of the file. -/
def sessionLine (result : SessionLoadResult) (line : List UInt8) : SessionLoadResult :=
  let trimmed := trim line
  if isIgnored trimmed then result
  else
    match sessionOf (columns trimmed) with
    | none => { result with skippedLines := result.skippedLines + 1 }
    | some s => { result with sessions := result.sessions ++ [s] }

/-- `content` is what the file at `path` holds, if it can be opened. -/
def loadSessionsCsv (path : String) (content : Option (List UInt8)) : SessionLoadResult :=
  match content with
  | none => { error := "cannot open session file: " ++ path }
  | some bytes => (DelimitedText.segments 10 bytes).foldl sessionLine {}

end Rows

section Write

def sessionColumns (s : SessionRow) : List (List UInt8) :=
  [decimalText s.imsi.toNat, decimalText s.ulTeid.toNat, decimalText s.dlTeid.toNat,
    decimalText s.ratingGroup.toNat, s.msisdn]

/-- The row of a session, without the end of the line. -/
def sessionText (s : SessionRow) : List UInt8 :=
  (sessionColumns s).flatMap (fun col => col ++ [44]) ++ s.apn

def sessionHeader : List UInt8 :=
  text "imsi,ul_teid,dl_teid,rating_group,msisdn,apn"

/-- What is written to the file, if it can be created. -/
def writeSessionsCsv (created : Bool) (sessions : List SessionRow) : Option (List UInt8) :=
  if created then
    some (sessionHeader ++ [10] ++ sessions.flatMap (fun s => sessionText s ++ [10]))
  else none

end Write

end GtpMeter
