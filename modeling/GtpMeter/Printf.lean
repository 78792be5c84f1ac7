import GtpMeter.AsciiText
import GtpMeter.BinaryDouble
import GtpMeter.FilledText

/-!
# Formatted output

`snprintf` and `vsnprintf` of the C library, for the conversions that the program uses:
`%s`, `%u`, `%llu` and `%.Nf`.  A format is parsed into the text in front of the
first conversion and the conversions, each with the text behind it.

* An argument that does not fit its conversion is a fault.
* Lengths are natural numbers; the functions return them as an `int`.

**Results.**
* `formatted_eq`: the text that a format with given conversions makes.
-/

namespace GtpMeter

open BinaryDouble FilledText

inductive Conversion where
  | str
  | uint
  | ulonglong
  | fixed (precision : Nat)
deriving DecidableEq

/-- An argument; as a double, `none` is infinity. -/
inductive Argument where
  | str (s : List UInt8)
  | uint (n : UInt32)
  | ulonglong (n : UInt64)
  | double (x : Option FiniteDouble)

section Conversions

/-- `n` in `width` digits. -/
def paddedText (width n : Nat) : List UInt8 :=
  (List.range width).map fun i => UInt8.ofNat (48 + n / 10 ^ (width - 1 - i) % 10)

@[simp] theorem length_paddedText (width n : Nat) : (paddedText width n).length = width := by
  rw [paddedText, List.length_map, List.length_range]

theorem plain_paddedText (width n : Nat) : Plain (paddedText width n) := by
  refine plain_of_digits fun c hc => ?_
  obtain ⟨i, -, rfl⟩ := List.mem_map.mp hc
  have hdigit : n / 10 ^ (width - 1 - i) % 10 < 10 := Nat.mod_lt _ (by decide)
  rw [UInt8.toNat_ofNat']
  omega

/-- `%.Nf` of a finite number: correctly rounded, ties to even. -/
def fixedText (precision : Nat) (x : FiniteDouble) : List UInt8 :=
  let q := roundHalfEven (x.ratio.1 * 10 ^ precision) x.ratio.2
  (if x.negative then [45] else []) ++ decimalText (q / 10 ^ precision) ++
    (if precision = 0 then [] else 46 :: paddedText precision (q % 10 ^ precision))

/-- `%.Nf` of any double; `none` is infinity. -/
def doubleText (precision : Nat) : Option FiniteDouble → List UInt8
  | some x => fixedText precision x
  | none => text "inf"

theorem plain_fixedText (precision : Nat) (x : FiniteDouble) : Plain (fixedText precision x) := by
  refine .append (.append ?_ (plain_decimalText _)) ?_
  · split_ifs <;> decide
  · split_ifs
    · decide
    · exact .cons (by decide) (plain_paddedText _ _)

theorem plain_doubleText (precision : Nat) (x : Option FiniteDouble) :
    Plain (doubleText precision x) := by
  cases x with
  | none => exact (by decide +kernel : Plain (text "inf"))
  | some x => exact plain_fixedText precision x

/-- What a conversion makes of an argument of its kind. -/
def convert : Conversion → Argument → Option (List UInt8)
  | .str, .str s => some s
  | .uint, .uint n => some (decimalText n.toNat)
  | .ulonglong, .ulonglong n => some (decimalText n.toNat)
  | .fixed precision, .double x => some (doubleText precision x)
  | _, _ => none

def convertAll : List Conversion → List Argument → Option (List (List UInt8))
  | [], [] => some []
  | conv :: convs, arg :: args => do
      let value ← convert conv arg
      let values ← convertAll convs args
      some (value :: values)
  | _, _ => none

end Conversions

section Formats

/-- The conversion behind a `%`, and how many characters it has. -/
def conversionAt : List UInt8 → Option (Conversion × Nat)
  | 115 :: _ => some (.str, 1)
  | 117 :: _ => some (.uint, 1)
  | 108 :: 108 :: 117 :: _ => some (.ulonglong, 3)
  | 46 :: digit :: 102 :: _ => some (.fixed (digit.toNat - 48), 3)
  | _ => none

/-- A format in its parts. -/
structure Format where
  front : List UInt8 := []
  convs : List Conversion := []
  /-- The text behind each conversion. -/
  pieces : List (List UInt8) := []
deriving DecidableEq

/-- The parts of a format, from the character on that stands behind the first `skip`. -/
def parseFormat : Nat → List UInt8 → Format
  | _, [] => {}
  | skip + 1, _ :: cs => parseFormat skip cs
  | 0, c :: cs =>
      match if c = 37 then conversionAt cs else none with
      | some (conv, len) =>
          let rest := parseFormat len cs
          ⟨[], conv :: rest.convs, rest.front :: rest.pieces⟩
      | none =>
          let rest := parseFormat 0 cs
          { rest with front := c :: rest.front }

/-- The whole text of a format and its arguments. -/
def formatted (fmt : List UInt8) (args : List Argument) : Option (List UInt8) :=
  let f := parseFormat 0 fmt
  (convertAll f.convs args).map fun values => f.front ++ interleave values f.pieces

theorem formatted_eq {fmt : List UInt8} {f : Format} {args : List Argument}
    {values : List (List UInt8)} (hf : parseFormat 0 fmt = f)
    (hvalues : convertAll f.convs args = some values) :
    formatted fmt args = some (f.front ++ interleave values f.pieces) := by
  rw [formatted, hf, hvalues]
  rfl

/-- Values without marks, each in front of a mark, can be read back. -/
theorem stops_of_plain {values pieces : List (List UInt8)} (hlen : values.length = pieces.length)
    (hvalues : ∀ value ∈ values, Plain value)
    (hpieces : ∀ piece ∈ pieces, piece.head? ∈ [some 34, some 44, some 123, some 125]) :
    List.Forall₂ Stops values pieces := by
  refine List.forall₂_iff_zip.mpr ⟨hlen, ?_⟩
  intro value piece hmem
  have hplain := hvalues value (List.of_mem_zip hmem).1
  have hmark := hpieces piece (List.of_mem_zip hmem).2
  simp only [List.mem_cons, List.not_mem_nil, or_false] at hmark
  rcases hmark with h | h | h | h
  · exact ⟨34, h, fun hc => (hplain 34 hc).1 rfl⟩
  · exact ⟨44, h, fun hc => (hplain 44 hc).2.1 rfl⟩
  · exact ⟨123, h, fun hc => (hplain 123 hc).2.2.1 rfl⟩
  · exact ⟨125, h, fun hc => (hplain 125 hc).2.2.2 rfl⟩

end Formats

section Buffers

/-- What becomes of a buffer of `size` bytes: the bytes that are stored, with the final
null byte, and the length of the whole text. -/
def snprintf (size : Nat) (fmt : List UInt8) (args : List Argument) :
    Option (List UInt8 × Nat) :=
  (formatted fmt args).map fun out => (out.take (size - 1) ++ [0], out.length)

/-- Why a caller of these functions goes wrong. -/
inductive PrintFault where
  /-- An argument does not fit its conversion. -/
  | badArgument
  /-- So many bytes are read from a buffer that has fewer. -/
  | overread (count : Nat)
deriving DecidableEq

/-- `out.append(buf, n)` with what `snprintf` stored and returned. -/
def appendBuffer (out : List UInt8) :
    Option (List UInt8 × Nat) → Except PrintFault (List UInt8)
  | none => .error .badArgument
  | some (buf, n) => if n ≤ buf.length then .ok (out ++ buf.take n) else .error (.overread n)

variable {size : Nat} {fmt out full : List UInt8} {args : List Argument}

/-- What `snprintf` returns is the length of the whole text. -/
theorem snprintf_fits (hfull : formatted fmt args = some full)
    (hfits : full.length + 1 < size) :
    ∃ stored n, snprintf size fmt args = some (stored, n) ∧ n + 1 < size :=
  ⟨full.take (size - 1) ++ [0], full.length, by rw [snprintf, hfull]; rfl, hfits⟩

/-- A text that fits its buffer is appended as a whole. -/
theorem appendBuffer_eq (hfull : formatted fmt args = some full) (hfits : full.length < size) :
    appendBuffer out (snprintf size fmt args) = .ok (out ++ full) := by
  have hall : full.take (size - 1) = full := List.take_of_length_le (by omega)
  have hlen : full.length ≤ (full ++ [0]).length := by simp
  rw [snprintf, hfull, Option.map_some, hall, appendBuffer, if_pos hlen, List.take_left]

end Buffers

end GtpMeter
