import Mathlib.Data.List.DropRight
import Mathlib.Data.Nat.Digits.Lemmas

/-!
# Delimited text and numerals

Text is read segment by segment, up to a delimiter that is not part of the segment.  What
stands behind the last delimiter is a segment only if there is something.  Blanks around a
segment are cut off, and a segment of digits is read as a number, most significant digit
first.

**Results.**
* `segments_append`, `segments_flatMap`: text is read as it was put together.
* `trim_clean`: nothing is cut off where nothing is blank.
* `numeral_digits`: a number is read from its digits.
-/

namespace DelimitedText

universe u

section Segments

variable {A : Type u} [DecidableEq A] {d : A} {seg rest : List A} {segs : List (List A)}

/-- What repeated calls of `getline` with delimiter `d` return. -/
def segments (d : A) : List A → List (List A)
  | [] => []
  | c :: cs =>
      if c = d then [] :: segments d cs
      else
        match segments d cs with
        | [] => [[c]]
        | seg :: segs => (c :: seg) :: segs

/-- A segment that is ended by a delimiter. -/
theorem segments_append (h : d ∉ seg) : segments d (seg ++ d :: rest) = seg :: segments d rest := by
  induction seg with
  | nil => rw [List.nil_append, segments, if_pos rfl]
  | cons c seg ih =>
      obtain ⟨hc, hseg⟩ := not_or.mp (fun hmem => h (List.mem_cons.mpr hmem))
      rw [List.cons_append, segments, if_neg (Ne.symm hc), ih hseg]

/-- A last segment without a delimiter. -/
theorem segments_last (hne : seg ≠ []) (h : d ∉ seg) : segments d seg = [seg] := by
  induction seg with
  | nil => exact absurd rfl hne
  | cons c seg ih =>
      obtain ⟨hc, hseg⟩ := not_or.mp (fun hmem => h (List.mem_cons.mpr hmem))
      cases seg with
      | nil => rw [segments, if_neg (Ne.symm hc), segments]
      | cons c' seg => rw [segments, if_neg (Ne.symm hc), ih (List.cons_ne_nil _ _) hseg]

/-- Segments with a delimiter behind each, and more text. -/
theorem segments_flatMap (h : ∀ seg ∈ segs, d ∉ seg) :
    segments d (segs.flatMap (fun seg => seg ++ [d]) ++ rest) = segs ++ segments d rest := by
  induction segs with
  | nil => rfl
  | cons seg segs ih =>
      rw [List.flatMap_cons, List.append_assoc, List.append_assoc, List.singleton_append,
        segments_append (h seg List.mem_cons_self),
        ih (fun seg' hseg' => h seg' (List.mem_cons_of_mem seg hseg'))]
      rfl

end Segments

section Trim

variable {A : Type u} (blank : A → Bool)

/-- Without the blanks on either side. -/
def trim (s : List A) : List A :=
  (s.dropWhile blank).rdropWhile blank

/-- There are no blanks on either side. -/
structure Clean (s : List A) : Prop where
  first : ∀ c ∈ s.head?, blank c = false
  last : ∀ c ∈ s.getLast?, blank c = false

variable {blank} {s : List A}

theorem Clean.nil : Clean blank ([] : List A) where
  first := by simp
  last := by simp

theorem Clean.of_ends {c c' : A} (hfirst : s.head? = some c) (hlast : s.getLast? = some c')
    (hc : blank c = false) (hc' : blank c' = false) : Clean blank s where
  first := by
    intro b hb
    rw [hfirst] at hb
    exact Option.some.inj hb ▸ hc
  last := by
    intro b hb
    rw [hlast] at hb
    exact Option.some.inj hb ▸ hc'

theorem trim_clean (h : Clean blank s) : trim blank s = s := by
  have hfirst : s.dropWhile blank = s := by
    cases s with
    | nil => rfl
    | cons c s => rw [List.dropWhile_cons_of_neg (by simp [h.first c rfl])]
  rw [trim, hfirst, List.rdropWhile_eq_self_iff]
  intro hne hblank
  have hlast := h.last (s.getLast hne) (List.getLast?_eq_getLast_of_ne_nil hne)
  rw [hlast] at hblank
  cases hblank

end Trim

section Numerals

variable {A : Type u} (value : A → Option Nat)

/-- The number that a string of digits stands for, in base `b`. -/
def numeral (b : Nat) (s : List A) : Option Nat :=
  (s.mapM value).map (fun ds => Nat.ofDigits b ds.reverse)

/-- The digits of a number, most significant first; 0 has one. -/
def digits (b n : Nat) : List Nat :=
  if n = 0 then [0] else (Nat.digits b n).reverse

theorem digits_ne_nil (b n : Nat) : digits b n ≠ [] := by
  rw [digits]
  split
  · exact List.cons_ne_nil _ _
  · rename_i hn
    rw [ne_eq, List.reverse_eq_nil_iff]
    exact Nat.digits_ne_nil_iff_ne_zero.mpr hn

theorem length_digits {b : Nat} (hb : 1 < b) (n : Nat) :
    (digits b n).length = Nat.log b n + 1 := by
  rw [digits]
  split
  · rename_i hn
    rw [hn, Nat.log_zero_right]
    rfl
  · rename_i hn
    rw [List.length_reverse, Nat.length_digits b n hb hn]

theorem digits_lt {b n d : Nat} (hb : 1 < b) (h : d ∈ digits b n) : d < b := by
  rw [digits] at h
  split at h
  · rw [List.mem_singleton.mp h]
    omega
  · exact Nat.digits_lt_base hb (List.mem_reverse.mp h)

theorem ofDigits_digits (b n : Nat) : Nat.ofDigits b (digits b n).reverse = n := by
  rw [digits]
  split
  · rename_i hn
    rw [hn]
    simp
  · rw [List.reverse_reverse, Nat.ofDigits_digits]

variable {value}

/-- Digits that are written down are read back. -/
theorem numeral_digits {b : Nat} {write : Nat → A} (hb : 1 < b)
    (hwrite : ∀ d < b, value (write d) = some d) (n : Nat) :
    numeral value b ((digits b n).map write) = some n := by
  have hmap : ((digits b n).map write).mapM value = some (digits b n) := by
    have hall : ∀ d ∈ digits b n, value (write d) = some d :=
      fun d hd => hwrite d (digits_lt hb hd)
    generalize digits b n = ds at hall
    induction ds with
    | nil => rfl
    | cons d ds ih =>
        rw [List.map_cons, List.mapM_cons, hall d List.mem_cons_self,
          ih (fun d' hd' => hall d' (List.mem_cons_of_mem d hd'))]
        rfl
  rw [numeral, hmap, Option.map_some, ofDigits_digits]

end Numerals

end DelimitedText
