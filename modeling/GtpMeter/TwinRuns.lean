import GtpMeter.ByteSpan
import Mathlib.Data.Option.Basic

/-!
# Two runs side by side

`Twin R x y` says that the computations `x` and `y` end the same way: both return, with
results that `R` relates, or both fail with the same error.  Its rules follow the two
computations step by step.

A span's bytes are all that reading from it depends on: spans with the same bytes, at
whatever places of whatever buffers, are read alike.

**Results.**
* `Twin.bind`, `Twin.ite`: the rules.
* `Span.subspan_twin`, `Span.read_congr`, `Span.loadBe32_congr`, …: reading.
-/

namespace GtpMeter

section Twins

universe u v

variable {F : Type u} {A B C D : Type v} {R : A → B → Prop} {Q : C → D → Prop}

/-- Both return, with related results, or both fail alike. -/
inductive Twin (R : A → B → Prop) : Except F A → Except F B → Prop
  | ok {a : A} {b : B} (h : R a b) : Twin R (.ok a) (.ok b)
  | error (e : F) : Twin R (.error e) (.error e)

namespace Twin

theorem bind {x : Except F A} {y : Except F B} {f : A → Except F C} {g : B → Except F D}
    (h : Twin R x y) (hf : ∀ a b, R a b → Twin Q (f a) (g b)) : Twin Q (x >>= f) (y >>= g) := by
  cases h with
  | ok hab => exact hf _ _ hab
  | error e => exact .error e

/-- The same computation on both sides, first. -/
theorem bind_same {x : Except F A} {f : A → Except F C} {g : A → Except F D}
    (hf : ∀ a, Twin Q (f a) (g a)) : Twin Q (x >>= f) (x >>= g) := by
  cases x with
  | ok a => exact hf a
  | error e => exact .error e

theorem ite {c : Prop} [Decidable c] {x x' : Except F A} {y y' : Except F B}
    (hx : c → Twin R x y) (hy : ¬c → Twin R x' y') :
    Twin R (if c then x else x') (if c then y else y') := by
  by_cases h : c
  · rw [if_pos h, if_pos h]
    exact hx h
  · rw [if_neg h, if_neg h]
    exact hy h

theorem refl (x : Except F A) : Twin Eq x x := by
  cases x with
  | ok a => exact .ok rfl
  | error e => exact .error e

theorem mono {R' : A → B → Prop} {x : Except F A} {y : Except F B} (h : Twin R x y)
    (hR : ∀ a b, R a b → R' a b) : Twin R' x y := by
  cases h with
  | ok hab => exact .ok (hR _ _ hab)
  | error e => exact .error e

theorem eq {x y : Except F A} (h : Twin Eq x y) : x = y := by
  cases h with
  | ok hab => rw [hab]
  | error e => rfl

/-- What one side returns the other returns, up to the relation. -/
theorem of_ok {x : Except F A} {y : Except F B} {a : A} (h : Twin R x y) (hx : x = .ok a) :
    ∃ b, y = .ok b ∧ R a b := by
  cases h with
  | ok hab =>
      obtain rfl := Except.ok.inj hx
      exact ⟨_, rfl, hab⟩
  | error e => cases hx

theorem of_ok_right {x : Except F A} {y : Except F B} {b : B} (h : Twin R x y) (hy : y = .ok b) :
    ∃ a, x = .ok a ∧ R a b := by
  cases h with
  | ok hab =>
      obtain rfl := Except.ok.inj hy
      exact ⟨_, rfl, hab⟩
  | error e => cases hy

end Twin
end Twins

namespace Span

variable {s t : Span} {i count : Nat}

theorem read_congr (h : s.bytes = t.bytes) : s.read i = t.read i := by
  obtain ⟨a, bs⟩ := s
  obtain ⟨b, cs⟩ := t
  obtain rfl : bs = cs := h
  rfl

theorem loadBe24_congr (h : s.bytes = t.bytes) : s.loadBe24 i = t.loadBe24 i := by
  simp only [loadBe24, read_congr h]

theorem loadBe32_congr (h : s.bytes = t.bytes) : s.loadBe32 i = t.loadBe32 i := by
  simp only [loadBe32, read_congr h]

theorem loadBe64_congr (h : s.bytes = t.bytes) : s.loadBe64 i = t.loadBe64 i := by
  simp only [loadBe64, loadBe32_congr h]

theorem subspan_twin (h : s.bytes = t.bytes) :
    Twin (fun a b => a.bytes = b.bytes) (s.subspan i count) (t.subspan i count) := by
  have hsize : s.size = t.size := congrArg List.length h
  rw [subspan, subspan, hsize]
  refine Twin.ite (fun _ => .ok ?_) (fun _ => .error _)
  rw [h]

end Span
end GtpMeter
