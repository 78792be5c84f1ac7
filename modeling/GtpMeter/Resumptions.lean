import GtpMeter.TransitionRuns

/-!
# Computations that ask

A computation that stops at certain points with a question `q : Q`, goes on with the
answer `a : A`, and in the end returns or fails.  What answers it may be a function of
some state (`interp`), or another thread in its own time.

**Results.**
* `interp_bind`: to answer a sequence of two is to answer one and then the other.
* `Ends.bind`: if one always returns, and the other does from there, so does the sequence.
-/

namespace GtpMeter

universe u

inductive Resumption (Q A F : Type) (R : Type u) : Type u where
  | done (r : R)
  | ask (q : Q) (resume : A → Resumption Q A F R)
  | fail (f : F)

namespace Resumption

variable {Q A F S : Type} {R R' : Type u}

def bind : Resumption Q A F R → (R → Resumption Q A F R') → Resumption Q A F R'
  | done r, next => next r
  | ask q resume, next => ask q (fun a => (resume a).bind next)
  | fail f, _ => fail f

def ofExcept : Except F R → Resumption Q A F R
  | .ok r => done r
  | .error f => fail f

/-- Answers given by a function of a state. -/
def interp (handle : S → Q → S × A) : Resumption Q A F R → S → Except F (R × S)
  | done r, s => .ok (r, s)
  | ask q resume, s => interp handle (resume (handle s q).2) (handle s q).1
  | fail f, _ => .error f

theorem interp_bind (handle : S → Q → S × A) (x : Resumption Q A F R)
    (next : R → Resumption Q A F R') (s : S) :
    interp handle (x.bind next) s =
      match interp handle x s with
      | .ok (r, s') => interp handle (next r) s'
      | .error f => .error f := by
  induction x generalizing s with
  | done r => rfl
  | ask q resume ih => exact ih _ _
  | fail f => rfl

/-- However it is answered, the computation returns, and its result has `P`. -/
def Ends (P : R → Prop) : Resumption Q A F R → Prop
  | done r => P r
  | ask _ resume => ∀ a, (resume a).Ends P
  | fail _ => False

theorem Ends.bind {P : R → Prop} {P' : R' → Prop} {x : Resumption Q A F R}
    {next : R → Resumption Q A F R'} (hx : x.Ends P) (hnext : ∀ r, P r → (next r).Ends P') :
    (x.bind next).Ends P' := by
  induction x with
  | done r => exact hnext r hx
  | ask q resume ih => exact fun a => ih a (hx a)
  | fail f => exact hx.elim

theorem Ends.mono {P P' : R → Prop} {x : Resumption Q A F R} (hx : x.Ends P)
    (hle : ∀ r, P r → P' r) : x.Ends P' := by
  induction x with
  | done r => exact hle r hx
  | ask q resume ih => exact fun a => ih a (hx a)
  | fail f => exact hx.elim

end Resumption
end GtpMeter
