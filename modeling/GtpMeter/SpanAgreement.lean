import GtpMeter.ByteSpan

/-!
# Spans that begin alike

Two spans that begin at the same place with the same `n` bytes cannot be told apart by
an access that stays within these bytes.  `after` and `upTo` name what a parser cuts
out of a span: all that follows a header, and no more than a declared length.

**Results.**
* `AgreeTo.byte`, `AgreeTo.block`: what is read of the common bytes is the same.
* `AgreeTo.after`, `AgreeTo.upTo`: the common bytes that are left after a cut.

`ReadsTo n parse s result` says that `parse` has looked at the first `n` bytes of `s` only.
-/

namespace GtpMeter
namespace Span

variable {s t : Span} {n m i d count : Nat}

section Cuts

/-- All that follows the first `i` bytes. -/
def after (s : Span) (i : Nat) : Span :=
  ⟨s.off + i, s.bytes.drop i⟩

/-- The first `d` bytes, or all when there are fewer. -/
def upTo (s : Span) (d : Nat) : Span :=
  ⟨s.off, s.bytes.take d⟩

@[simp] theorem after_off : (s.after i).off = s.off + i :=
  rfl

@[simp] theorem size_after : (s.after i).size = s.size - i := by
  simp [after, size]

@[simp] theorem size_upTo : (s.upTo d).size = min d s.size := by
  simp [upTo, size]

theorem after_after : (s.after i).after count = s.after (i + count) := by
  simp [after, List.drop_drop, Nat.add_assoc]

@[simp] theorem byte_after : (s.after i).byte count = s.byte (i + count) := by
  simp [after, byte, List.getD_eq_getElem?_getD]

theorem suffix_after (hi : i ≤ s.size) : s.suffix i = .ok (s.after i) :=
  suffix_eq hi

/-- A length that is clamped to what is there. -/
theorem subspan_clamped (hd : i ≤ d) (hi : i ≤ s.size) :
    s.subspan i (min d s.size - i) = .ok ((s.upTo d).after i) := by
  have hfits : i + (min d s.size - i) ≤ s.size := by omega
  have hlen : (s.bytes.drop i).length = s.size - i := List.length_drop
  have hbytes : (s.bytes.drop i).take (min d s.size - i) = (s.bytes.drop i).take (d - i) := by
    rw [List.take_eq_take_iff, hlen]
    omega
  rw [subspan_eq hfits, hbytes, ← List.drop_take]
  rfl

end Cuts

/-- The spans begin at the same place with the same `n` bytes. -/
structure AgreeTo (n : Nat) (s t : Span) : Prop where
  off_eq : t.off = s.off
  left : n ≤ s.size
  right : n ≤ t.size
  take_eq : t.bytes.take n = s.bytes.take n

namespace AgreeTo

theorem refl (hn : n ≤ s.size) : AgreeTo n s s where
  off_eq := rfl
  left := hn
  right := hn
  take_eq := rfl

theorem symm (h : AgreeTo n s t) : AgreeTo n t s where
  off_eq := h.off_eq.symm
  left := h.right
  right := h.left
  take_eq := h.take_eq.symm

theorem block (h : AgreeTo n s t) (hi : i + count ≤ n) :
    (t.bytes.drop i).take count = (s.bytes.drop i).take count := by
  -- the block is one of the common bytes
  have hcut : ∀ l : List UInt8, (l.drop i).take count = ((l.take n).drop i).take count := by
    intro l
    rw [List.drop_take, List.take_take, Nat.min_eq_left (by omega)]
  rw [hcut t.bytes, hcut s.bytes, h.take_eq]

theorem mono (h : AgreeTo n s t) (hm : m ≤ n) : AgreeTo m s t where
  off_eq := h.off_eq
  left := Nat.le_trans hm h.left
  right := Nat.le_trans hm h.right
  take_eq := by
    have hblock : (t.bytes.drop 0).take m = (s.bytes.drop 0).take m := h.block (by omega)
    exact hblock

theorem byte (h : AgreeTo n s t) (hi : i < n) : t.byte i = s.byte i := by
  have hget : (t.bytes.take n)[i]? = (s.bytes.take n)[i]? := by rw [h.take_eq]
  rw [List.getElem?_take_of_lt hi, List.getElem?_take_of_lt hi] at hget
  rw [Span.byte, Span.byte, List.getD_eq_getElem?_getD, List.getD_eq_getElem?_getD, hget]

theorem read (h : AgreeTo n s t) (hi : i < n) : t.read i = s.read i := by
  have hleft := h.left
  have hright := h.right
  rw [read_eq (by omega), read_eq (by omega), h.byte hi]

theorem load16 (h : AgreeTo n s t) (hi : i + 2 ≤ n) : t.loadBe16 i = s.loadBe16 i := by
  rw [loadBe16, loadBe16, h.read (by omega), h.read (by omega)]

theorem after (h : AgreeTo n s t) (hi : i ≤ n) : AgreeTo (n - i) (s.after i) (t.after i) where
  off_eq := by rw [after_off, after_off, h.off_eq]
  left := by
    have hleft := h.left
    rw [size_after]
    omega
  right := by
    have hright := h.right
    rw [size_after]
    omega
  take_eq := h.block (by omega)

theorem upTo (h : AgreeTo n s t) (hd : n ≤ d) : AgreeTo n (s.upTo d) (t.upTo d) where
  off_eq := h.off_eq
  left := by
    rw [size_upTo]
    exact Nat.le_min.mpr ⟨hd, h.left⟩
  right := by
    rw [size_upTo]
    exact Nat.le_min.mpr ⟨hd, h.right⟩
  take_eq := by
    rw [Span.upTo, Span.upTo, List.take_take, List.take_take, Nat.min_eq_left hd, h.take_eq]

end AgreeTo

/-- On every span that begins like `s`, the parser returns `result`. -/
def ReadsTo {R : Type} (n : Nat) (parse : Span → Except OutOfBounds R) (s : Span)
    (result : Span → R) : Prop :=
  ∀ t, AgreeTo n s t → parse t = .ok (result t)

theorem ReadsTo.self {R : Type} {parse : Span → Except OutOfBounds R} {result : Span → R} {r : R}
    (h : ReadsTo n parse s result) (hn : n ≤ s.size) (hparse : parse s = .ok r) :
    r = result s :=
  Except.ok.inj (hparse.symm.trans (h s (AgreeTo.refl hn)))

end Span
end GtpMeter
