import Mathlib.Algebra.BigOperators.Group.Finset.Basic
import Mathlib.Algebra.BigOperators.Group.Finset.Piecewise
import Mathlib.Algebra.BigOperators.Group.List.Basic
import Mathlib.Algebra.Group.Hom.Defs
import Mathlib.Tactic.Abel

/-!
# Accounts that are charged and billed

An account is charged amounts of an additive commutative group and billed from
time to time.  A bill carries what was charged since the bill before it, a
sequence number and the interval it covers.  The amounts may wrap, so nothing
here compares them.

**Results.**
* `Follows.tiles`: the bills of an account number consecutively and their
  intervals follow each other without gap.
* `Follows.billed_eq`, `Follows.total_eq`: the bills add up to what is billed,
  the charges to the total.
* `Follows.pending_eq`: charges and bills account for every change of what is
  still pending.
* `Follows.vanish`: a linear law of the charges is a law of every bill.
* `sum_by_key`: amounts summed account by account are the sum of all amounts.
-/

namespace GtpMeter
namespace Billing

universe u v w x

/-- An account: all that was charged, all that was billed, the number of the
next bill and the time it starts from. -/
structure Account (G : Type u) (S : Type v) (T : Type w) where
  total : G
  billed : G
  seq : S
  since : T

structure Bill (G : Type u) (S : Type v) (T : Type w) where
  amount : G
  seq : S
  start : T
  stop : T

/-- What is posted to an account. -/
inductive Posting (G : Type u) (S : Type v) (T : Type w) where
  | charge (amount : G)
  | bill (b : Bill G S T)

section Definitions

variable {G : Type u} {S : Type v} {T : Type w}

/-- The bills among the postings. -/
def bills : List (Posting G S T) → List (Bill G S T)
  | [] => []
  | .charge _ :: ps => bills ps
  | .bill b :: ps => b :: bills ps

/-- The charges among the postings. -/
def charges : List (Posting G S T) → List G
  | [] => []
  | .charge g :: ps => g :: charges ps
  | .bill _ :: ps => charges ps

/-- Bills that number from `s` to `s'` and cover the time from `t` to `t'`. -/
def Tiles (succ : S → S) : S → T → List (Bill G S T) → S → T → Prop
  | s, t, [], s', t' => s = s' ∧ t = t'
  | s, t, b :: bs, s', t' => b.seq = s ∧ b.start = t ∧ Tiles succ (succ s) b.stop bs s' t'

/-- An account just opened. -/
def Account.fresh [Zero G] (s : S) (t : T) : Account G S T :=
  ⟨0, 0, s, t⟩

/-- The account after an optional opening. -/
def Account.reopen [Zero G] (s : S) (a : Account G S T) : Option T → Account G S T
  | none => a
  | some t => .fresh s t

variable [AddCommGroup G]

def Account.pending (a : Account G S T) : G :=
  a.total - a.billed

/-- The bill over what is pending, up to time `t`. -/
def Account.makeBill (a : Account G S T) (t : T) : Bill G S T :=
  ⟨a.pending, a.seq, a.since, t⟩

/-- `Follows succ a ps a'`: posting `ps` takes the account from `a` to `a'`. -/
inductive Follows (succ : S → S) :
    Account G S T → List (Posting G S T) → Account G S T → Prop
  | nil (a : Account G S T) : Follows succ a [] a
  | charge {a a' : Account G S T} {ps : List (Posting G S T)} (g : G) :
      Follows succ { a with total := a.total + g } ps a' →
      Follows succ a (.charge g :: ps) a'
  | bill {a a' : Account G S T} {ps : List (Posting G S T)} (t : T) :
      Follows succ { a with billed := a.total, seq := succ a.seq, since := t } ps a' →
      Follows succ a (.bill (a.makeBill t) :: ps) a'

end Definitions

section Tiling

variable {G : Type u} {S : Type v} {T : Type w} {succ : S → S}

/-- Bill number `i` carries the `i`-th number. -/
theorem Tiles.seq_get {s s' : S} {t t' : T} {bs : List (Bill G S T)}
    (h : Tiles succ s t bs s' t') {i : Nat} {b : Bill G S T} (hb : bs[i]? = some b) :
    b.seq = succ^[i] s := by
  induction bs generalizing s t i with
  | nil => simp at hb
  | cons c bs ih =>
      obtain ⟨hseq, _, hrest⟩ := h
      cases i with
      | zero =>
          obtain rfl : c = b := by simpa using hb
          exact hseq
      | succ i => exact ih hrest (by simpa using hb)

theorem Tiles.start_head {s s' : S} {t t' : T} {b : Bill G S T} {bs : List (Bill G S T)}
    (h : Tiles succ s t (b :: bs) s' t') : b.start = t :=
  h.2.1

/-- Each later bill starts where the one before it stopped. -/
theorem Tiles.start_succ {s s' : S} {t t' : T} {bs : List (Bill G S T)}
    (h : Tiles succ s t bs s' t') {i : Nat} {b c : Bill G S T} (hb : bs[i]? = some b)
    (hc : bs[i + 1]? = some c) : c.start = b.stop := by
  induction bs generalizing s t i with
  | nil => simp at hb
  | cons d bs ih =>
      obtain ⟨_, _, hrest⟩ := h
      cases i with
      | zero =>
          obtain rfl : d = b := by simpa using hb
          cases bs with
          | nil => simp at hc
          | cons d' bs =>
              obtain rfl : d' = c := by simpa using hc
              exact hrest.start_head
      | succ i => exact ih hrest (by simpa using hb) (by simpa using hc)

end Tiling

section Accounts

variable {G : Type u} {S : Type v} {T : Type w}

theorem bills_append (ps ps' : List (Posting G S T)) :
    bills (ps ++ ps') = bills ps ++ bills ps' := by
  induction ps with
  | nil => rfl
  | cons p ps ih => cases p <;> simp [bills, ih]

theorem charges_append (ps ps' : List (Posting G S T)) :
    charges (ps ++ ps') = charges ps ++ charges ps' := by
  induction ps with
  | nil => rfl
  | cons p ps ih => cases p <;> simp [charges, ih]

variable {succ : S → S} [AddCommGroup G] {a a' a'' : Account G S T}
  {ps ps' : List (Posting G S T)}

theorem Follows.append (h : Follows succ a ps a') (h' : Follows succ a' ps' a'') :
    Follows succ a (ps ++ ps') a'' := by
  induction h with
  | nil => exact h'
  | charge g _ ih => exact .charge g (ih h')
  | bill t _ ih => exact .bill t (ih h')

theorem Follows.tiles (h : Follows succ a ps a') :
    Tiles succ a.seq a.since (bills ps) a'.seq a'.since := by
  induction h with
  | nil => exact ⟨rfl, rfl⟩
  | charge g _ ih => exact ih
  | bill t _ ih => exact ⟨rfl, rfl, ih⟩

theorem Follows.total_eq (h : Follows succ a ps a') :
    a'.total = a.total + (charges ps).sum := by
  induction h with
  | nil => simp [charges]
  | charge g _ ih => simp [charges, ih, add_assoc]
  | bill t _ ih => exact ih

/-- The bills add up to what is billed. -/
theorem Follows.billed_eq (h : Follows succ a ps a') :
    a'.billed = a.billed + ((bills ps).map (·.amount)).sum := by
  induction h with
  | nil => simp [bills]
  | charge g _ ih => exact ih
  | bill t _ ih => simp [bills, ih, Account.makeBill, Account.pending, ← add_assoc]

theorem Follows.pending_eq (h : Follows succ a ps a') :
    ((bills ps).map (·.amount)).sum + a'.pending = a.pending + (charges ps).sum := by
  unfold Account.pending
  rw [h.total_eq, h.billed_eq]
  abel

/-- What a homomorphism kills in every charge it kills in every bill. -/
theorem Follows.vanish {H : Type x} [AddCommGroup H] {f : G →+ H} (h : Follows succ a ps a')
    (hc : ∀ g ∈ charges ps, f g = 0) (ht : f a.total = 0) (hb : f a.billed = 0) :
    f a'.total = 0 ∧ f a'.billed = 0 ∧ ∀ b ∈ bills ps, f b.amount = 0 := by
  induction h with
  | nil => exact ⟨ht, hb, by simp [bills]⟩
  | charge g _ ih =>
      refine ih (fun g' hg' => hc g' (List.mem_cons_of_mem _ hg')) ?_ hb
      simp [ht, hc g List.mem_cons_self]
  | @bill a a' ps t _ ih =>
      obtain ⟨ht', hb', hrest⟩ := ih hc ht ht
      refine ⟨ht', hb', ?_⟩
      intro b hmem
      rcases List.mem_cons.mp hmem with rfl | hmem
      · simp [Account.makeBill, Account.pending, ht, hb]
      · exact hrest b hmem

end Accounts

section Grouping

variable {K : Type u} {G : Type v} {A : Type w} [DecidableEq K] [AddCommMonoid G]

/-- Amounts summed key by key. -/
theorem sum_by_key (s : Finset K) (key : A → K) (amount : A → G) {l : List A}
    (hl : ∀ x ∈ l, key x ∈ s) :
    ∑ k ∈ s, ((l.filter (fun x => key x = k)).map amount).sum = (l.map amount).sum := by
  induction l with
  | nil => simp
  | cons x l ih =>
      have hrest := ih (fun y hy => hl y (List.mem_cons_of_mem _ hy))
      have hx := hl x List.mem_cons_self
      have hsplit : ∀ k, (((x :: l).filter (fun x => key x = k)).map amount).sum =
          (if key x = k then amount x else 0) +
            ((l.filter (fun x => key x = k)).map amount).sum := by
        intro k
        by_cases hk : key x = k <;> simp [hk]
      simp only [hsplit, Finset.sum_add_distrib, Finset.sum_ite_eq, if_pos hx, hrest,
        List.map_cons, List.sum_cons]

end Grouping

end Billing
end GtpMeter
