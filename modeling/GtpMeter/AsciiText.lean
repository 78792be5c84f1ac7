import GtpMeter.DelimitedText
import Mathlib.Data.List.Forall2

/-!
# Text as the program writes it

Strings are lists of bytes.  Constants have only ASCII characters, and numbers are written
in decimal without leading zeros.
-/

namespace GtpMeter

open DelimitedText

/-- The bytes of a string constant. -/
def text (s : String) : List UInt8 :=
  s.toList.map Char.toUInt8

/-- A number as the stream writes it. -/
def decimalText (n : Nat) : List UInt8 :=
  (DelimitedText.digits 10 n).map (fun d => UInt8.ofNat (48 + d))

/-- The bytes of a constant, character by character. -/
theorem text_ofList {cs : List Char} : text (String.ofList cs) = cs.map Char.toUInt8 := by
  rw [text, String.toList_ofList]

/-- A constant that is written in several parts. -/
def textParts (parts : List String) : List UInt8 :=
  parts.flatMap text

theorem textParts_eq {parts : List String} {css : List (List Char)}
    (h : List.Forall₂ (fun s cs => s = String.ofList cs) parts css) :
    textParts parts = css.flatMap (List.map Char.toUInt8) := by
  induction h with
  | nil => rfl
  | cons hs _ ih => rw [textParts, List.flatMap_cons, List.flatMap_cons, hs, text_ofList, ← ih,
      textParts]

section Decimal

variable {n m : Nat}

theorem mem_decimalText {c : UInt8} (h : c ∈ decimalText n) : 48 ≤ c.toNat ∧ c.toNat ≤ 57 := by
  obtain ⟨d, hd, rfl⟩ := List.mem_map.mp h
  have hlt := digits_lt (by decide) hd
  rw [UInt8.toNat_ofNat']
  omega

theorem decimalText_ne_nil (n : Nat) : decimalText n ≠ [] := by
  rw [decimalText, ne_eq, List.map_eq_nil_iff]
  exact digits_ne_nil 10 n

theorem not_mem_decimalText {c : UInt8} (h : c.toNat < 48) : c ∉ decimalText n := by
  intro hc
  have hrange := mem_decimalText hc
  omega

theorem length_decimalText (n : Nat) : (decimalText n).length = Nat.log 10 n + 1 := by
  rw [decimalText, List.length_map, length_digits (by decide)]

theorem length_decimalText_le {k : Nat} (hk : 0 < k) (h : n < 10 ^ k) :
    (decimalText n).length ≤ k := by
  rw [length_decimalText]
  exact Nat.log_lt_of_lt_pow' (by omega) h

theorem length_decimalText_uint32 (v : UInt32) : (decimalText v.toNat).length ≤ 10 :=
  length_decimalText_le (by decide) (Nat.lt_trans v.toNat_lt (by decide))

theorem length_decimalText_uint64 (v : UInt64) : (decimalText v.toNat).length ≤ 20 :=
  length_decimalText_le (by decide) (Nat.lt_trans v.toNat_lt (by decide))

/-- Different numbers are written differently. -/
theorem decimalText_inj (h : decimalText n = decimalText m) : n = m := by
  have hread : ∀ k, numeral (fun c : UInt8 => some (c.toNat - 48)) 10 (decimalText k) = some k := by
    intro k
    refine numeral_digits (by decide) ?_ k
    intro d hd
    rw [UInt8.toNat_ofNat', Nat.mod_eq_of_lt (by omega)]
    congr 1
    omega
  have hn := hread n
  rw [h, hread m] at hn
  exact (Option.some.inj hn).symm

end Decimal

section Plain

/-- Text without quotes, commas and braces, the marks between the values of a record. -/
def Plain (s : List UInt8) : Prop :=
  ∀ c ∈ s, c ≠ 34 ∧ c ≠ 44 ∧ c ≠ 123 ∧ c ≠ 125

-- over the list, not over all bytes
instance (s : List UInt8) : Decidable (Plain s) :=
  List.decidableBAll (fun c => c ≠ 34 ∧ c ≠ 44 ∧ c ≠ 123 ∧ c ≠ 125) s

variable {s t : List UInt8}

theorem Plain.append (hs : Plain s) (ht : Plain t) : Plain (s ++ t) := by
  intro c hc
  rcases List.mem_append.mp hc with hleft | hright
  · exact hs c hleft
  · exact ht c hright

theorem Plain.cons {c : UInt8} (hc : c ≠ 34 ∧ c ≠ 44 ∧ c ≠ 123 ∧ c ≠ 125) (hs : Plain s) :
    Plain (c :: s) := by
  intro b hb
  rcases List.mem_cons.mp hb with rfl | hb
  · exact hc
  · exact hs b hb

theorem plain_of_digits (h : ∀ c ∈ s, 48 ≤ c.toNat ∧ c.toNat ≤ 57) : Plain s := by
  intro c hc
  have hdigit := h c hc
  refine ⟨?_, ?_, ?_, ?_⟩
  all_goals
    rintro rfl
    exact absurd hdigit (by decide)

theorem plain_decimalText (n : Nat) : Plain (decimalText n) :=
  plain_of_digits fun _ => mem_decimalText

end Plain

end GtpMeter
