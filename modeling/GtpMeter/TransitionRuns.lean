import Mathlib.Data.List.Basic

/-!
# Runs of a stepping machine

A machine is a step function `step : S → Op → Except F (S × Out)`.  A step that
does not return, or that faults, is an `error`.  `Run step s₀ h s` says that the
machine has come from `s₀` to `s` and that `h` lists the steps it took, oldest
first, each with the state before and after it.

**Results.**
* `Run.invariant`: what every step preserves holds after every run.
* `Run.trans`: runs compose.
* `Run.simulate`: a relation to an abstract state that is folded along the
  history holds after every run.
* `Run.of_exec`, `Run.of_execCheck`: computing the steps of a list of operations
  gives a run.
-/

namespace GtpMeter
namespace Runs

universe u v w x y

variable {S : Type u} {Op : Type v} {Out : Type w} {F : Type x}

/-- A computation that returns is one that returns at every bind. -/
theorem bind_eq_ok {A : Type v} {B : Type v} {a : Except F A} {f : A → Except F B} {b : B} :
    (a >>= f) = .ok b ↔ ∃ r, a = .ok r ∧ f r = .ok b := by
  cases a with
  | error e => simp [bind, Except.bind]
  | ok r => simp [bind, Except.bind]

/-- A computation that fails does so at one of its binds. -/
theorem bind_eq_error {A : Type v} {B : Type v} {a : Except F A} {f : A → Except F B} {e : F} :
    (a >>= f) = .error e ↔ a = .error e ∨ ∃ r, a = .ok r ∧ f r = .error e := by
  cases a with
  | error e => simp [bind, Except.bind]
  | ok r => simp [bind, Except.bind]

/-- The computation returns a value that passes the check. -/
def returnsWith {A : Type v} (a : Except F A) (check : A → Bool) : Bool :=
  match a with
  | .error _ => false
  | .ok r => check r

theorem returnsWith_iff {A : Type v} {a : Except F A} {check : A → Bool} :
    returnsWith a check = true ↔ ∃ r, a = .ok r ∧ check r = true := by
  cases a with
  | error e => simp [returnsWith]
  | ok r => simp [returnsWith]

/-- The computation fails with `f`. -/
def failsWith {A : Type v} [DecidableEq F] (a : Except F A) (f : F) : Bool :=
  match a with
  | .error g => decide (g = f)
  | .ok _ => false

theorem failsWith_iff {A : Type v} [DecidableEq F] {a : Except F A} {f : F} :
    failsWith a f = true ↔ a = .error f := by
  cases a with
  | error g => simp [failsWith]
  | ok r => simp [failsWith]

/-- Why a machine of several threads refuses a step: the thread is not at a place
where it could take it. -/
inductive Blocked where
  | blocked
deriving DecidableEq

/-- One step of a run. -/
structure Transition (S : Type u) (Op : Type v) (Out : Type w) where
  pre : S
  op : Op
  out : Out
  post : S

/-- The runs of a machine, with their history. -/
inductive Run (step : S → Op → Except F (S × Out)) (s₀ : S) :
    List (Transition S Op Out) → S → Prop
  | nil : Run step s₀ [] s₀
  | snoc {h : List (Transition S Op Out)} {s s' : S} {op : Op} {out : Out} :
      Run step s₀ h s →
      step s op = .ok (s', out) →
      Run step s₀ (h ++ [⟨s, op, out, s'⟩]) s'

variable {step : S → Op → Except F (S × Out)} {s₀ s : S}
  {h : List (Transition S Op Out)}

namespace Run

/-- What holds at the start and survives every step holds after every run. -/
theorem invariant {I : S → Prop} (hinit : I s₀)
    (hstep : ∀ s op s' out, I s → step s op = .ok (s', out) → I s')
    (hrun : Run step s₀ h s) : I s := by
  induction hrun with
  | nil => exact hinit
  | snoc _ hs ih => exact hstep _ _ _ _ ih hs

/-- Forward simulation along the history.  `G` is what the run is assumed to
satisfy at each of its steps. -/
theorem simulate {A : Type y} {abs : A → Transition S Op Out → A} {R : S → A → Prop}
    {G : Transition S Op Out → Prop} {a₀ : A} (hinit : R s₀ a₀)
    (hstep : ∀ s a op s' out, R s a → step s op = .ok (s', out) → G ⟨s, op, out, s'⟩ →
      R s' (abs a ⟨s, op, out, s'⟩))
    (hrun : Run step s₀ h s) (hG : ∀ tr ∈ h, G tr) : R s (h.foldl abs a₀) := by
  induction hrun with
  | nil => exact hinit
  | snoc _ hs ih =>
      rw [List.foldl_append]
      exact hstep _ _ _ _ _ (ih (fun tr htr => hG tr (List.mem_append_left _ htr))) hs
        (hG _ (List.mem_append_right _ (List.mem_singleton.mpr rfl)))

/-- A run goes on where another one ended. -/
theorem trans {h' : List (Transition S Op Out)} {s' : S} (hrun : Run step s₀ h s)
    (hnext : Run step s h' s') : Run step s₀ (h ++ h') s' := by
  induction hnext with
  | nil => simpa using hrun
  | snoc _ hs ih =>
      rw [← List.append_assoc]
      exact .snoc ih hs

/-- Every step of the history was taken by the machine, from a state that an
earlier part of the run had reached. -/
theorem mem (hrun : Run step s₀ h s) {tr : Transition S Op Out} (htr : tr ∈ h) :
    (∃ h', Run step s₀ h' tr.pre) ∧ step tr.pre tr.op = .ok (tr.post, tr.out) := by
  induction hrun with
  | nil => simp at htr
  | snoc hprev hs ih =>
      rcases List.mem_append.mp htr with hold | hnew
      · exact ih hold
      · obtain rfl := List.mem_singleton.mp hnew
        exact ⟨⟨_, hprev⟩, hs⟩

end Run

/-- The steps of a list of operations, computed. -/
def exec (step : S → Op → Except F (S × Out)) :
    S → List Op → Except F (List (Transition S Op Out) × S)
  | s, [] => .ok ([], s)
  | s, op :: ops =>
      match step s op with
      | .error f => .error f
      | .ok (s', out) =>
          match exec step s' ops with
          | .error f => .error f
          | .ok (h, s'') => .ok (⟨s, op, out, s'⟩ :: h, s'')

theorem Run.of_exec_append {ops : List Op} {h' : List (Transition S Op Out)} {s' : S}
    (hrun : Run step s₀ h s) (hex : exec step s ops = .ok (h', s')) :
    Run step s₀ (h ++ h') s' := by
  induction ops generalizing h s h' with
  | nil =>
      simp only [exec, Except.ok.injEq, Prod.mk.injEq] at hex
      obtain ⟨rfl, rfl⟩ := hex
      simpa using hrun
  | cons op ops ih =>
      unfold exec at hex
      cases hs : step s op with
      | error f => simp [hs] at hex
      | ok r =>
          obtain ⟨s₁, out⟩ := r
          cases hrest : exec step s₁ ops with
          | error f => simp [hs, hrest] at hex
          | ok r' =>
              obtain ⟨h₁, s₂⟩ := r'
              simp only [hs, hrest, Except.ok.injEq, Prod.mk.injEq] at hex
              obtain ⟨rfl, rfl⟩ := hex
              have := ih (Run.snoc hrun hs) hrest
              simpa using this

theorem Run.of_exec {ops : List Op} (hex : exec step s₀ ops = .ok (h, s)) :
    Run step s₀ h s := by
  simpa using Run.of_exec_append Run.nil hex

/-- The operations run without error and end as `check` asks. -/
def execCheck (step : S → Op → Except F (S × Out)) (s₀ : S) (ops : List Op)
    (check : List (Transition S Op Out) → S → Bool) : Bool :=
  returnsWith (exec step s₀ ops) (fun r => check r.1 r.2)

theorem Run.of_execCheck {ops : List Op} {check : List (Transition S Op Out) → S → Bool}
    (hex : execCheck step s₀ ops check = true) :
    ∃ h s, Run step s₀ h s ∧ check h s = true := by
  obtain ⟨r, hrun, hcheck⟩ := returnsWith_iff.mp hex
  exact ⟨r.1, r.2, Run.of_exec hrun, hcheck⟩

end Runs
end GtpMeter
