import Mathlib.Algebra.BigOperators.Group.List.Basic
import Mathlib.Algebra.Group.Pi.Basic
import Mathlib.Data.Option.Basic

/-!
# Metering by tunnel

Users attach sessions and detach.  A session claims tunnels, each for one
direction.  What comes through a tunnel is credited to the user and the direction
that own it at that moment.

A `Meter` does this with a map from tunnels to owners and one sum per user and
direction.  A `Tally` does it for one user with neither: it lists everything that
came by since the user attached, each with the session in force at that moment.

**Results.**
* `tallyStep_all`: a tally holds only sessions that were attached.
* `Agrees.step`: meter and tallies agree as long as no session claims a tunnel of
  another user.
-/

namespace GtpMeter
namespace Tunnels

universe u v w x y z

/-- What can happen to a meter. -/
inductive Op (K : Type u) (S : Type v) (A : Type w) where
  | attach (k : K) (s : S)
  | detach (k : K)
  | use (a : A)
  | idle

structure Meter (K : Type u) (T : Type v) (D : Type w) (G : Type x) where
  owner : T → Option (K × D)
  sums : K → Option (D → G)
  stray : G

/-- Everything since a user attached, each with the session of that moment, and the
session now. -/
structure Tally (S : Type v) (A : Type w) where
  latest : S
  seen : List (S × A)

section Definitions

variable {K : Type u} {S : Type v} {A : Type w} {T : Type x} {D : Type y} {G : Type z}
  [DecidableEq K] [DecidableEq D] [AddCommMonoid G]

def Meter.empty : Meter K T D G :=
  ⟨fun _ => none, fun _ => none, 0⟩

/-- The owners other than `k`. -/
def Meter.without (m : Meter K T D G) (k : K) (t : T) : Option (K × D) :=
  (m.owner t).filter (fun o => o.1 ≠ k)

/-- One step of the meter.  A user who is attached already keeps the sums. -/
def Meter.step (claim : S → T → Option D) (tunnel : A → T) (weight : A → G)
    (m : Meter K T D G) : Op K S A → Meter K T D G
  | .attach k s =>
      { m with
        owner := fun t => ((claim s t).map (fun d => (k, d))).or (m.without k t)
        sums := Function.update m.sums k (some ((m.sums k).getD 0)) }
  | .detach k => { m with owner := m.without k, sums := Function.update m.sums k none }
  | .use a =>
      match m.owner (tunnel a) with
      | some (k, d) =>
          { m with
            sums := Function.update m.sums k
              ((m.sums k).map (fun s => s + Pi.single d (weight a))) }
      | none => { m with stray := m.stray + weight a }
  | .idle => m

/-- One step of the tally of `k`. -/
def tallyStep (k : K) (tally : Option (Tally S A)) : Op K S A → Option (Tally S A)
  | .attach k' s => if k' = k then some ⟨s, tally.elim [] (·.seen)⟩ else tally
  | .detach k' => if k' = k then none else tally
  | .use a => tally.map (fun τ => { τ with seen := τ.seen ++ [(τ.latest, a)] })
  | .idle => tally

/-- All sessions of a tally satisfy `P`. -/
def Tally.All (P : S → Prop) (τ : Tally S A) : Prop :=
  P τ.latest ∧ ∀ x ∈ τ.seen, P x.1

/-- What a tally has for direction `d`. -/
def Tally.sums (claim : S → T → Option D) (tunnel : A → T) (weight : A → G) (τ : Tally S A)
    (d : D) : G :=
  ((τ.seen.filter (fun x => claim x.1 (tunnel x.2) = some d)).map (fun x => weight x.2)).sum

/-- No session attaches to a tunnel of another user. -/
def Exclusive (claim : S → T → Option D) (m : Meter K T D G) : Op K S A → Prop
  | .attach k s => ∀ t d o, claim s t = some d → m.owner t = some o → o.1 = k
  | _ => True

/-- The meter and the tallies of all users say the same. -/
structure Agrees (claim : S → T → Option D) (tunnel : A → T) (weight : A → G)
    (m : Meter K T D G) (tallies : K → Option (Tally S A)) : Prop where
  owner_iff : ∀ t k d, m.owner t = some (k, d) ↔
    ∃ τ, tallies k = some τ ∧ claim τ.latest t = some d
  sums_eq : ∀ k, m.sums k = (tallies k).map (Tally.sums claim tunnel weight)

end Definitions

section Agreement

variable {K : Type u} {S : Type v} {A : Type w} {T : Type x} {D : Type y} {G : Type z}
  [DecidableEq K] [DecidableEq D] [AddCommMonoid G]
  {claim : S → T → Option D} {tunnel : A → T} {weight : A → G}
  {m : Meter K T D G} {tallies : K → Option (Tally S A)}

omit [DecidableEq D] [AddCommMonoid G] in
/-- The sessions of a tally are sessions that were attached. -/
theorem tallyStep_all {P : S → Prop} {k : K} {tally : Option (Tally S A)} {op : Op K S A}
    (hop : ∀ k s, op = .attach k s → P s) (hall : ∀ τ, tally = some τ → τ.All P)
    {τ : Tally S A} (hτ : tallyStep k tally op = some τ) : τ.All P := by
  cases op with
  | attach k' s =>
      simp only [tallyStep] at hτ
      split_ifs at hτ
      · obtain rfl := Option.some.inj hτ
        refine ⟨hop k' s rfl, ?_⟩
        cases htally : tally with
        | none => simp
        | some τ₀ => exact (hall τ₀ htally).2
      · exact hall τ hτ
  | detach k' =>
      simp only [tallyStep] at hτ
      split_ifs at hτ
      exact hall τ hτ
  | use a =>
      obtain ⟨τ₀, htally, rfl⟩ := Option.map_eq_some_iff.mp hτ
      obtain ⟨hlatest, hseen⟩ := hall τ₀ htally
      refine ⟨hlatest, ?_⟩
      intro x hx
      rcases List.mem_append.mp hx with hx | hx
      · exact hseen x hx
      · rw [List.mem_singleton.mp hx]
        exact hlatest
  | idle => exact hall τ hτ

omit [DecidableEq D] [AddCommMonoid G] in
theorem Meter.without_eq_some {k k' : K} {t : T} {d : D} :
    m.without k t = some (k', d) ↔ m.owner t = some (k', d) ∧ k' ≠ k := by
  simp [Meter.without, Option.filter_eq_some_iff]

omit [DecidableEq K] in
theorem Agrees.empty :
    Agrees claim tunnel weight (Meter.empty : Meter K T D G) (fun _ => none) :=
  ⟨by simp [Meter.empty], by simp [Meter.empty]⟩

/-- A use in direction `d` adds to the sum of that direction only. -/
theorem Tally.sums_use {τ : Tally S A} {a : A} {d : D}
    (hd : claim τ.latest (tunnel a) = some d) :
    Tally.sums claim tunnel weight { τ with seen := τ.seen ++ [(τ.latest, a)] } =
      Tally.sums claim tunnel weight τ + Pi.single d (weight a) := by
  funext d'
  unfold Tally.sums
  by_cases h : d' = d
  · subst h
    simp [hd]
  · simp [hd, h, Ne.symm h]

theorem Tally.sums_other {τ : Tally S A} {a : A} (hd : claim τ.latest (tunnel a) = none) :
    Tally.sums claim tunnel weight { τ with seen := τ.seen ++ [(τ.latest, a)] } =
      Tally.sums claim tunnel weight τ := by
  funext d'
  simp [Tally.sums, hd]

theorem Agrees.attach (hag : Agrees claim tunnel weight m tallies) {k : K} {s : S}
    (hx : ∀ t d o, claim s t = some d → m.owner t = some o → o.1 = k) :
    Agrees claim tunnel weight (m.step claim tunnel weight (.attach k s : Op K S A))
      (fun k' => tallyStep k' (tallies k') (.attach k s)) := by
  refine ⟨?_, ?_⟩
  · intro t k' d
    by_cases hk : k = k'
    · subst hk
      have hmine : ¬m.without k t = some (k, d) := by simp [Meter.without_eq_some]
      cases hc : claim s t with
      | none => simp [Meter.step, tallyStep, hc, hmine]
      | some d' => simp [Meter.step, tallyStep, hc]
    · have htally : tallyStep k' (tallies k') (.attach k s : Op K S A) = tallies k' := by
        simp [tallyStep, hk]
      rw [htally, ← hag.owner_iff]
      cases hc : claim s t with
      | none => simp [Meter.step, hc, Meter.without_eq_some, Ne.symm hk]
      | some d' =>
          -- the tunnel is now of `k`, and it was of nobody else before
          have hno : ¬m.owner t = some (k', d) := fun ho => hk (hx t d' _ hc ho).symm
          simp [Meter.step, hc, hno, hk]
  · intro k'
    by_cases hk : k = k'
    · subst hk
      simp only [Meter.step, tallyStep, Function.update_self, if_true, Option.map_some,
        hag.sums_eq k]
      cases tallies k with
      | none => congr 1
      | some τ => rfl
    · simp [Meter.step, tallyStep, hk, Ne.symm hk, hag.sums_eq k']

theorem Agrees.detach (hag : Agrees claim tunnel weight m tallies) (k : K) :
    Agrees claim tunnel weight (m.step claim tunnel weight (.detach k : Op K S A))
      (fun k' => tallyStep k' (tallies k') (.detach k)) := by
  refine ⟨?_, ?_⟩
  · intro t k' d
    show m.without k t = some (k', d) ↔ _
    rw [Meter.without_eq_some, hag.owner_iff]
    by_cases hk : k = k'
    · simp [tallyStep, hk]
    · simp [tallyStep, hk, Ne.symm hk]
  · intro k'
    by_cases hk : k = k'
    · subst hk
      simp [Meter.step, tallyStep]
    · simp [Meter.step, tallyStep, hk, Ne.symm hk, hag.sums_eq k']

theorem Agrees.use (hag : Agrees claim tunnel weight m tallies) (a : A) :
    Agrees claim tunnel weight (m.step claim tunnel weight (.use a : Op K S A))
      (fun k => tallyStep k (tallies k) (.use a)) := by
  have howner : (m.step claim tunnel weight (.use a : Op K S A)).owner = m.owner := by
    unfold Meter.step
    dsimp only
    split <;> rfl
  refine ⟨?_, ?_⟩
  · -- a use changes no session
    intro t k d
    rw [howner, hag.owner_iff]
    cases tallies k <;> simp [tallyStep]
  · intro k
    have hclaim : ∀ τ d, tallies k = some τ → claim τ.latest (tunnel a) = some d →
        m.owner (tunnel a) = some (k, d) :=
      fun τ d hτ hd => (hag.owner_iff _ k d).mpr ⟨τ, hτ, hd⟩
    cases htally : tallies k with
    | none =>
        have hnone := hag.sums_eq k
        rw [htally] at hnone
        cases ho : m.owner (tunnel a) with
        | none => simpa [Meter.step, tallyStep, ho] using hnone
        | some o =>
            obtain ⟨τ, hτ, -⟩ := (hag.owner_iff _ o.1 o.2).mp ho
            have hk : k ≠ o.1 := by
              rintro rfl
              simp [htally] at hτ
            simpa [Meter.step, tallyStep, ho, hk] using hnone
    | some τ =>
        have hsum := hag.sums_eq k
        rw [htally] at hsum
        cases hd : claim τ.latest (tunnel a) with
        | none =>
            have hk : ∀ o, m.owner (tunnel a) = some o → k ≠ o.1 := by
              rintro o ho rfl
              obtain ⟨τ', hτ', hd'⟩ := (hag.owner_iff _ o.1 o.2).mp ho
              obtain rfl := Option.some.inj (htally.symm.trans hτ')
              simp [hd] at hd'
            cases ho : m.owner (tunnel a) with
            | none => simpa [Meter.step, tallyStep, ho, Tally.sums_other hd] using hsum
            | some o =>
                simpa [Meter.step, tallyStep, ho, hk o ho, Tally.sums_other hd] using hsum
        | some d =>
            have ho := hclaim τ d htally hd
            simp [Meter.step, tallyStep, ho, hsum, Tally.sums_use hd]

/-- Meter and tallies stay in agreement. -/
theorem Agrees.step (hag : Agrees claim tunnel weight m tallies) {op : Op K S A}
    (hx : Exclusive claim m op) :
    Agrees claim tunnel weight (m.step claim tunnel weight op)
      (fun k => tallyStep k (tallies k) op) := by
  cases op with
  | attach k s => exact hag.attach hx
  | detach k => exact hag.detach k
  | use a => exact hag.use a
  | idle => exact hag

end Agreement

end Tunnels
end GtpMeter
