import Mathlib.Algebra.Ring.Nat
import Mathlib.Data.List.Basic
import Mathlib.Data.List.Forall2

/-!
# Text with values filled in

A text is made of values and fixed pieces that follow each of them.  `interleave` puts it
together.

**Results.**
* `length_interleave`: how long it is.
* `interleave_inj`: values can be read back where each is followed by a symbol that does
  not occur in it.
* `depthAfter_interleave`: values without brackets do not change how brackets are nested.
* `Enclosed.not_cut`: what is cut off at its end is not enclosed in brackets any more.
-/

namespace FilledText

universe u

variable {A : Type u}

/-- Each value, and the piece behind it. -/
def interleave : List (List A) → List (List A) → List A
  | value :: values, piece :: pieces => value ++ (piece ++ interleave values pieces)
  | _, _ => []

variable {values values' pieces : List (List A)}

/-- Induction over values and as many pieces. -/
@[elab_as_elim]
theorem filled_induction {motive : List (List A) → List (List A) → Prop}
    (hnil : motive [] [])
    (hcons : ∀ value piece values pieces, values.length = pieces.length →
      motive values pieces → motive (value :: values) (piece :: pieces))
    (h : values.length = pieces.length) : motive values pieces := by
  induction values generalizing pieces with
  | nil =>
      have hpieces : pieces = [] := List.length_eq_zero_iff.mp h.symm
      rw [hpieces]
      exact hnil
  | cons value values ih =>
      cases pieces with
      | nil => cases h
      | cons piece pieces => exact hcons _ _ _ _ (Nat.succ.inj h) (ih (Nat.succ.inj h))

theorem length_interleave (h : values.length = pieces.length) :
    (interleave values pieces).length =
      (values.map List.length).sum + (pieces.map List.length).sum := by
  refine filled_induction rfl ?_ h
  intro value piece values pieces _ ih
  rw [interleave, List.length_append, List.length_append, ih]
  simp only [List.map_cons, List.sum_cons]
  omega

/-- The text ends with its last piece. -/
theorem suffix_interleave (h : values.length = pieces.length) :
    ∀ last, pieces.getLast? = some last → last <:+ interleave values pieces := by
  refine filled_induction ?_ ?_ h
  · intro last hlast
    cases hlast
  · intro value piece values pieces hlen ih last hlast
    rw [interleave, ← List.append_assoc]
    cases pieces with
    | nil =>
        obtain rfl : piece = last := Option.some.inj hlast
        have hvalues : values = [] := List.length_eq_zero_iff.mp hlen
        rw [hvalues]
        change piece <:+ value ++ piece ++ []
        rw [List.append_nil]
        exact List.suffix_append value piece
    | cons piece' pieces =>
        rw [List.getLast?_cons_cons] at hlast
        exact (ih last hlast).trans (List.suffix_append _ _)

section Reading

/-- The piece begins with a symbol that does not occur in the value. -/
def Stops (value piece : List A) : Prop :=
  ∃ d, piece.head? = some d ∧ d ∉ value

/-- What stands before the first occurrence of a symbol is determined. -/
theorem append_cons_inj {d : A} {a b rest rest' : List A} (ha : d ∉ a) (hb : d ∉ b)
    (h : a ++ d :: rest = b ++ d :: rest') : a = b ∧ rest = rest' := by
  induction a generalizing b with
  | nil =>
      cases b with
      | nil => exact ⟨rfl, (List.cons.inj h).2⟩
      | cons y b => exact absurd (List.mem_cons.mpr (.inl (List.cons.inj h).1)) hb
  | cons x a ih =>
      cases b with
      | nil => exact absurd (List.mem_cons.mpr (.inl (List.cons.inj h).1.symm)) ha
      | cons y b =>
          obtain ⟨hxy, htail⟩ := List.cons.inj h
          obtain ⟨hab, hrest⟩ := ih (fun hmem => ha (List.mem_cons_of_mem x hmem))
            (fun hmem => hb (List.mem_cons_of_mem y hmem)) htail
          exact ⟨by rw [hxy, hab], hrest⟩

/-- The values of a text can be read back. -/
theorem interleave_inj {rest rest' : List A} (hstop : List.Forall₂ Stops values pieces)
    (hstop' : List.Forall₂ Stops values' pieces)
    (h : interleave values pieces ++ rest = interleave values' pieces ++ rest') :
    values = values' ∧ rest = rest' := by
  induction hstop generalizing values' with
  | nil =>
      cases hstop'
      exact ⟨rfl, h⟩
  | cons hfirst hmore ih =>
      cases hstop' with
      | cons hfirst' hmore' =>
          obtain ⟨d, hd, hnot⟩ := hfirst
          obtain ⟨d', hd', hnot'⟩ := hfirst'
          obtain rfl : d = d' := Option.some.inj (hd.symm.trans hd')
          obtain ⟨piece, rfl⟩ := List.head?_eq_some_iff.mp hd
          simp only [interleave, List.append_assoc, List.cons_append] at h
          obtain ⟨hvalue, htail⟩ := append_cons_inj hnot hnot' h
          obtain ⟨hvalues, hrest⟩ := ih hmore' (List.append_cancel_left htail)
          exact ⟨by rw [hvalue, hvalues], hrest⟩

end Reading

section Brackets

variable [DecidableEq A] {o c : A} {d : Nat}

/-- The nesting depth behind a text that starts at depth `d`; `none` if the outermost
bracket is closed before the end. -/
def depthAfter (o c : A) : Nat → List A → Option Nat
  | d, [] => some d
  | 0, _ :: _ => none
  | d + 1, x :: xs =>
      if x = o then depthAfter o c (d + 2) xs
      else if x = c then depthAfter o c d xs
      else depthAfter o c (d + 1) xs

/-- The text is a pair of brackets and what they enclose. -/
def Enclosed (o c : A) (xs : List A) : Prop :=
  ∃ body, xs = o :: body ∧ depthAfter o c 1 body = some 0

theorem depthAfter_append (xs ys : List A) :
    ∀ d, depthAfter o c d (xs ++ ys) = (depthAfter o c d xs).bind fun d' => depthAfter o c d' ys := by
  induction xs with
  | nil =>
      intro d
      rw [List.nil_append, depthAfter]
      rfl
  | cons x xs ih =>
      intro d
      cases d with
      | zero => rfl
      | succ d =>
          rw [List.cons_append, depthAfter, depthAfter]
          split_ifs
          · exact ih (d + 2)
          · exact ih d
          · exact ih (d + 1)

/-- Text without brackets stays at its depth. -/
theorem depthAfter_of_not_mem {xs : List A} (ho : o ∉ xs) (hc : c ∉ xs) :
    depthAfter o c (d + 1) xs = some (d + 1) := by
  induction xs with
  | nil => rfl
  | cons x xs ih =>
      obtain ⟨hxo, ho⟩ := not_or.mp (mt List.mem_cons.mpr ho)
      obtain ⟨hxc, hc⟩ := not_or.mp (mt List.mem_cons.mpr hc)
      rw [depthAfter, if_neg (Ne.symm hxo), if_neg (Ne.symm hxc), ih ho hc]

theorem depthAfter_zero {xs : List A} (hne : xs ≠ []) : depthAfter o c 0 xs = none := by
  cases xs with
  | nil => exact absurd rfl hne
  | cons x xs => rfl

/-- The nesting is that of the pieces. -/
theorem depthAfter_interleave (hlen : values.length = pieces.length) :
    (∀ value ∈ values, o ∉ value ∧ c ∉ value) → (∀ piece ∈ pieces, piece ≠ []) →
      ∀ d, depthAfter o c d (interleave values pieces) = depthAfter o c d pieces.flatten := by
  refine filled_induction (fun _ _ _ => rfl) ?_ hlen
  intro value piece values pieces _ ih hvalues hpieces d
  obtain ⟨⟨ho, hc⟩, hvalues⟩ := List.forall_mem_cons.mp hvalues
  obtain ⟨hpiece, hpieces⟩ := List.forall_mem_cons.mp hpieces
  rw [interleave, List.flatten_cons]
  cases d with
  | zero => rw [depthAfter_zero (by simp [hpiece]), depthAfter_zero (by simp [hpiece])]
  | succ d =>
      rw [depthAfter_append value, depthAfter_of_not_mem ho hc, Option.bind_some,
        depthAfter_append, depthAfter_append]
      exact congrArg _ (funext (ih hvalues hpieces))

/-- A text that lacks its end is not enclosed. -/
theorem Enclosed.not_cut {xs ys : List A} (h : Enclosed o c (xs ++ ys)) (hne : ys ≠ []) :
    ¬Enclosed o c xs := by
  rintro ⟨body, rfl, hbody⟩
  obtain ⟨whole, hwhole, hdepth⟩ := h
  rw [← (List.cons.inj hwhole).2] at hdepth
  change depthAfter o c 1 (body ++ ys) = some 0 at hdepth
  rw [depthAfter_append, hbody, Option.bind_some, depthAfter_zero hne] at hdepth
  cases hdepth

end Brackets

end FilledText
