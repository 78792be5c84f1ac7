import Mathlib.Data.List.Basic

/-!
# Spans of bytes

A `Span` is a view into a buffer of bytes: where it begins there, and the bytes it
sees.  Reading a byte, loading a big-endian word, copying a block and cutting out a
smaller span are checked: an access that leaves the span is an `OutOfBounds` error
and not a value.  A computation over spans that returns has therefore stayed inside
every span it was given.

`ViewOf input s` says that `s` is a sub-range of `input`; `Returns P a` says that the
computation `a` returns, with a result that has `P`.

**Results.**
* `Returns.bind`, `Returns.read`, `Returns.load16`, …: rules that run a computation
  step by step, with the bound of each access as what is left to prove.
* `ViewOf.subspan`, `ViewOf.suffix`: what is cut out of a sub-range is a sub-range.
-/

namespace GtpMeter

section Returning

universe u v

variable {F : Type u} {A B : Type v} {P : A → Prop} {Q : B → Prop}

/-- The computation returns a value that has `P`. -/
def Returns (P : A → Prop) (a : Except F A) : Prop :=
  ∃ r, a = .ok r ∧ P r

namespace Returns

theorem ok {r : A} (h : P r) : Returns P (.ok r : Except F A) :=
  ⟨r, rfl, h⟩

theorem bind {a : Except F A} {f : A → Except F B} (ha : Returns P a)
    (hf : ∀ r, P r → Returns Q (f r)) : Returns Q (a >>= f) := by
  obtain ⟨r, rfl, hr⟩ := ha
  exact hf r hr

theorem ite {c : Prop} [Decidable c] {a b : Except F A} (ha : c → Returns P a)
    (hb : ¬c → Returns P b) : Returns P (if c then a else b) := by
  by_cases h : c
  · rw [if_pos h]
    exact ha h
  · rw [if_neg h]
    exact hb h

theorem mono {R : A → Prop} {a : Except F A} (ha : Returns P a) (h : ∀ r, P r → R r) :
    Returns R a := by
  obtain ⟨r, hr, hP⟩ := ha
  exact ⟨r, hr, h r hP⟩

end Returns
end Returning

/-- An access that leaves the span: `count` bytes at `offset`. -/
inductive OutOfBounds where
  | read (offset count : Nat)
  | subspan (offset count : Nat)
deriving DecidableEq, Repr

/-- A view of some bytes of a buffer. -/
structure Span where
  /-- Where the span begins in the buffer it was cut from. -/
  off : Nat := 0
  bytes : List UInt8 := []
deriving DecidableEq, Repr

namespace Span

/-- The span of a whole buffer. -/
def whole (input : List UInt8) : Span where
  bytes := input

/-- How many bytes there are. -/
def size (s : Span) : Nat :=
  s.bytes.length

/-- The byte at `i`, for an `i` inside. -/
def byte (s : Span) (i : Nat) : UInt8 :=
  s.bytes.getD i 0

/-- The byte at `i`, or an error. -/
def read (s : Span) (i : Nat) : Except OutOfBounds UInt8 :=
  if i < s.size then .ok (s.byte i) else .error (.read i 1)

/-- `count` bytes at `i`. -/
def copy (s : Span) (i count : Nat) : Except OutOfBounds (List UInt8) :=
  if i + count ≤ s.size then .ok ((s.bytes.drop i).take count) else .error (.read i count)

/-- The view of `count` bytes at `i`. -/
def subspan (s : Span) (i count : Nat) : Except OutOfBounds Span :=
  if i + count ≤ s.size then .ok ⟨s.off + i, (s.bytes.drop i).take count⟩
  else .error (.subspan i count)

/-- What follows the first `i` bytes. -/
def suffix (s : Span) (i : Nat) : Except OutOfBounds Span :=
  if i ≤ s.size then .ok ⟨s.off + i, s.bytes.drop i⟩ else .error (.subspan i 0)

end Span

section BigEndian

/-- The 16-bit number of two bytes, highest first. -/
def be16 (b0 b1 : UInt8) : UInt16 :=
  (b0.toUInt16 <<< 8) ||| b1.toUInt16

/-- The 24-bit number of three bytes, highest first. -/
def be24 (b0 b1 b2 : UInt8) : UInt32 :=
  (b0.toUInt32 <<< 16) ||| (b1.toUInt32 <<< 8) ||| b2.toUInt32

/-- The 32-bit number of four bytes, highest first. -/
def be32 (b0 b1 b2 b3 : UInt8) : UInt32 :=
  (b0.toUInt32 <<< 24) ||| (b1.toUInt32 <<< 16) ||| (b2.toUInt32 <<< 8) ||| b3.toUInt32

/-- The 64-bit number of its two halves. -/
def be64 (hi lo : UInt32) : UInt64 :=
  (hi.toUInt64 <<< 32) ||| lo.toUInt64

variable (s : Span) (i : Nat)

/-- Two bytes at `i`, highest first. -/
def Span.loadBe16 : Except OutOfBounds UInt16 := do
  let b0 ← s.read i
  let b1 ← s.read (i + 1)
  .ok (be16 b0 b1)

/-- Three bytes at `i`, highest first. -/
def Span.loadBe24 : Except OutOfBounds UInt32 := do
  let b0 ← s.read i
  let b1 ← s.read (i + 1)
  let b2 ← s.read (i + 2)
  .ok (be24 b0 b1 b2)

/-- Four bytes at `i`, highest first. -/
def Span.loadBe32 : Except OutOfBounds UInt32 := do
  let b0 ← s.read i
  let b1 ← s.read (i + 1)
  let b2 ← s.read (i + 2)
  let b3 ← s.read (i + 3)
  .ok (be32 b0 b1 b2 b3)

/-- Eight bytes at `i`, highest first. -/
def Span.loadBe64 : Except OutOfBounds UInt64 := do
  let hi ← s.loadBe32 i
  let lo ← s.loadBe32 (i + 4)
  .ok (be64 hi lo)

end BigEndian

namespace Span

variable {s : Span} {i count : Nat}

theorem read_eq (hi : i < s.size) : s.read i = .ok (s.byte i) :=
  if_pos hi

theorem copy_eq (hi : i + count ≤ s.size) : s.copy i count = .ok ((s.bytes.drop i).take count) :=
  if_pos hi

theorem subspan_eq (hi : i + count ≤ s.size) :
    s.subspan i count = .ok ⟨s.off + i, (s.bytes.drop i).take count⟩ :=
  if_pos hi

theorem suffix_eq (hi : i ≤ s.size) : s.suffix i = .ok ⟨s.off + i, s.bytes.drop i⟩ :=
  if_pos hi

theorem loadBe16_eq (hi : i + 2 ≤ s.size) :
    s.loadBe16 i = .ok (be16 (s.byte i) (s.byte (i + 1))) := by
  rw [loadBe16, read_eq (by omega), read_eq (by omega)]
  rfl

theorem loadBe24_eq (hi : i + 3 ≤ s.size) :
    s.loadBe24 i = .ok (be24 (s.byte i) (s.byte (i + 1)) (s.byte (i + 2))) := by
  rw [loadBe24, read_eq (by omega), read_eq (by omega), read_eq (by omega)]
  rfl

theorem loadBe32_eq (hi : i + 4 ≤ s.size) :
    s.loadBe32 i =
      .ok (be32 (s.byte i) (s.byte (i + 1)) (s.byte (i + 2)) (s.byte (i + 3))) := by
  rw [loadBe32, read_eq (by omega), read_eq (by omega), read_eq (by omega), read_eq (by omega)]
  rfl

end Span

/-- The span is a sub-range of `input`. -/
structure ViewOf (input : List UInt8) (s : Span) : Prop where
  fits : s.off + s.size ≤ input.length
  bytes_eq : s.bytes = (input.drop s.off).take s.size

namespace ViewOf

variable {input : List UInt8} {s : Span} {i count : Nat}

theorem whole (input : List UInt8) : ViewOf input (Span.whole input) where
  fits := by simp [Span.whole, Span.size]
  bytes_eq := by simp [Span.whole, Span.size]

/-- Every span is a view of some buffer. -/
theorem somewhere (s : Span) : ViewOf (List.replicate s.off 0 ++ s.bytes) s where
  fits := by simp [Span.size]
  bytes_eq := by simp [Span.size]

/-- A span that was never set views nothing. -/
theorem empty (input : List UInt8) : ViewOf input {} where
  fits := by simp [Span.size]
  bytes_eq := by simp [Span.size]

theorem subspan (h : ViewOf input s) (hi : i + count ≤ s.size) :
    ViewOf input ⟨s.off + i, (s.bytes.drop i).take count⟩ := by
  have hsize : ((s.bytes.drop i).take count).length = count := by
    have : s.bytes.length = s.size := rfl
    simp only [List.length_take, List.length_drop]
    omega
  refine ⟨?_, ?_⟩
  · have := h.fits
    simp only [Span.size, hsize] at this ⊢
    simp only [Span.size] at hi
    omega
  · simp only [Span.size, hsize]
    rw [h.bytes_eq, List.drop_take, List.drop_drop, List.take_take,
      Nat.min_eq_left (by omega)]

theorem suffix (h : ViewOf input s) (hi : i ≤ s.size) :
    ViewOf input ⟨s.off + i, s.bytes.drop i⟩ := by
  have hcut : ViewOf input ⟨s.off + i, (s.bytes.drop i).take (s.size - i)⟩ :=
    h.subspan (by omega)
  rwa [List.take_of_length_le (by simp [Span.size])] at hcut

end ViewOf

namespace Returns

variable {B : Type} {s : Span} {i count : Nat} {Q : B → Prop}

theorem read {f : UInt8 → Except OutOfBounds B} (hi : i < s.size)
    (hf : Returns Q (f (s.byte i))) : Returns Q (s.read i >>= f) := by
  rw [Span.read_eq hi]
  exact hf

theorem copy {f : List UInt8 → Except OutOfBounds B} (hi : i + count ≤ s.size)
    (hf : Returns Q (f ((s.bytes.drop i).take count))) :
    Returns Q (s.copy i count >>= f) := by
  rw [Span.copy_eq hi]
  exact hf

theorem subspan {f : Span → Except OutOfBounds B} (hi : i + count ≤ s.size)
    (hf : Returns Q (f ⟨s.off + i, (s.bytes.drop i).take count⟩)) :
    Returns Q (s.subspan i count >>= f) := by
  rw [Span.subspan_eq hi]
  exact hf

theorem suffix {f : Span → Except OutOfBounds B} (hi : i ≤ s.size)
    (hf : Returns Q (f ⟨s.off + i, s.bytes.drop i⟩)) :
    Returns Q (s.suffix i >>= f) := by
  rw [Span.suffix_eq hi]
  exact hf

theorem load16 {f : UInt16 → Except OutOfBounds B} (hi : i + 2 ≤ s.size)
    (hf : Returns Q (f (be16 (s.byte i) (s.byte (i + 1))))) :
    Returns Q (s.loadBe16 i >>= f) := by
  rw [Span.loadBe16_eq hi]
  exact hf

theorem load24 {f : UInt32 → Except OutOfBounds B} (hi : i + 3 ≤ s.size)
    (hf : Returns Q (f (be24 (s.byte i) (s.byte (i + 1)) (s.byte (i + 2))))) :
    Returns Q (s.loadBe24 i >>= f) := by
  rw [Span.loadBe24_eq hi]
  exact hf

theorem load32 {f : UInt32 → Except OutOfBounds B} (hi : i + 4 ≤ s.size)
    (hf : Returns Q
      (f (be32 (s.byte i) (s.byte (i + 1)) (s.byte (i + 2)) (s.byte (i + 3))))) :
    Returns Q (s.loadBe32 i >>= f) := by
  rw [Span.loadBe32_eq hi]
  exact hf

theorem load64 {f : UInt64 → Except OutOfBounds B} (hi : i + 8 ≤ s.size)
    (hf : Returns Q (f (be64
      (be32 (s.byte i) (s.byte (i + 1)) (s.byte (i + 2)) (s.byte (i + 3)))
      (be32 (s.byte (i + 4)) (s.byte (i + 4 + 1)) (s.byte (i + 4 + 2))
        (s.byte (i + 4 + 3)))))) :
    Returns Q (s.loadBe64 i >>= f) := by
  rw [Span.loadBe64]
  simp only [bind_assoc]
  exact load32 (by omega) (load32 (by omega) hf)

end Returns
end GtpMeter
