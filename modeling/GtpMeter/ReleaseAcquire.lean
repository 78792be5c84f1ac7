import GtpMeter.TransitionRuns
import Mathlib.Logic.Function.Basic
import Mathlib.Order.Lattice
import Mathlib.Order.Nat
import Mathlib.Order.BoundedOrder.Lattice

/-!
# Shared memory with release and acquire

An operational memory for threads that share atomic locations and plain cells.

**Atomic locations.**  The stores to a location are messages with timestamps, and a
message stays.  A thread has a view of each location, the newest message it knows
of: a load may return any message that is not older, and a store takes any free
timestamp that is newer.  A message carries a view.  A `release` store puts the whole
view of its thread there and an `acquire` load takes it over; with `relaxed` accesses
the fences do the same.

**Plain cells.**  Every access to a cell is a tick of the clock of its thread, and
views carry how much of every clock they know.  An access that conflicts with an
earlier one that is not known is a data race, and the program has no meaning then.

Loads return what was stored earlier in the run: no store is visible before it is
made.

A program is a chain of accesses, and `Safe` is the judgement about it: no access is a data
race, and what the chain returns satisfies a condition.

**Results.**
* `load_ok`, `store_ok`, `update_ok`: what an access returns and leaves behind.
* `load_frame`, `store_frame`, `update_frame`: what it leaves alone.
* `Safe.bind`, and one rule for each access.
-/

namespace GtpMeter
namespace ReleaseAcquire

/-- For each location the newest message known, and for each thread how many of its
accesses to cells are known. -/
abbrev View (L Tid : Type) := L ⊕ Tid → Nat

inductive LoadOrder where
  | relaxed
  | acquire

inductive StoreOrder where
  | relaxed
  | release

/-- An access to a plain cell. -/
inductive Access where
  | read
  | write
deriving DecidableEq

/-- Why a step is refused: it is not possible, or it is a data race. -/
inductive Refused where
  | blocked
  | race
deriving DecidableEq

structure Message (L Tid V : Type) where
  val : V
  view : View L Tid

/-- What a thread knows, what it will know after an acquire fence, and what it knew at
its last release fence. -/
structure Thread (L Tid : Type) where
  cur : View L Tid
  acq : View L Tid
  rel : View L Tid
  rel_le : rel ≤ cur
  cur_le : cur ≤ acq

/-- A plain cell, with the accesses so far: each a thread and the tick of its clock. -/
structure Cell (Tid D : Type) where
  value : D
  done : Access → List (Tid × Nat)

structure Memory (L Tid C V D : Type) where
  history : L → Nat → Option (Message L Tid V)
  threads : Tid → Thread L Tid
  cells : C → Cell Tid D

section Judgement

variable {α β : Type} {x : Except Refused α} {Q : α → Prop} {a : α}

/-- `x` is no data race, and if it is possible it returns what satisfies `Q`. -/
def Safe (x : Except Refused α) (Q : α → Prop) : Prop :=
  match x with
  | .ok a => Q a
  | .error refused => refused ≠ .race

theorem Safe.blocked : Safe (.error .blocked) Q :=
  Refused.noConfusion

theorem Safe.bind {f : α → Except Refused β} {R : β → Prop} (hx : Safe x Q)
    (hf : ∀ a, Q a → Safe (f a) R) : Safe (x >>= f) R := by
  cases x with
  | ok a => exact hf a hx
  | error refused => exact hx

theorem Safe.returns (h : Safe x Q) (hx : x = .ok a) : Q a := by
  subst hx
  exact h

theorem Safe.no_race (h : Safe x Q) : x ≠ .error .race := by
  rintro rfl
  exact h rfl

/-- A step that is no data race returns what it returns. -/
theorem safe_self (h : x ≠ .error .race) : Safe x (fun a => x = .ok a) := by
  cases x with
  | ok a => rfl
  | error refused => exact fun heq => h (heq ▸ rfl)

end Judgement

variable {L Tid C V D : Type}

section Operations

variable [DecidableEq L] [DecidableEq Tid] [DecidableEq C]

namespace Thread

/-- Knows of nothing but the first message of each location. -/
def fresh : Thread L Tid :=
  { cur := ⊥
    acq := ⊥
    rel := ⊥
    rel_le := le_rfl
    cur_le := le_rfl }

/-- The thread moves on to `n` at one place of its view. -/
def advance (th : Thread L Tid) (x : L ⊕ Tid) (n : Nat) : Thread L Tid :=
  { cur := th.cur ⊔ Function.update ⊥ x n
    acq := th.acq ⊔ Function.update ⊥ x n
    rel := th.rel
    rel_le := le_trans th.rel_le le_sup_left
    cur_le := sup_le_sup_right th.cur_le _ }

/-- The thread takes over a view, now or at its next acquire fence. -/
def observe (th : Thread L Tid) (o : LoadOrder) (view : View L Tid) : Thread L Tid :=
  match o with
  | .relaxed =>
      { th with acq := th.acq ⊔ view, cur_le := le_trans th.cur_le le_sup_left }
  | .acquire =>
      { cur := th.cur ⊔ view
        acq := th.acq ⊔ view
        rel := th.rel
        rel_le := le_trans th.rel_le le_sup_left
        cur_le := sup_le_sup_right th.cur_le _ }

/-- What a store of this thread to `l` passes on. -/
def released (th : Thread L Tid) (o : StoreOrder) (l : L) (ts : Nat) : View L Tid :=
  match o with
  | .relaxed => th.rel ⊔ Function.update ⊥ (.inl l) ts
  | .release => th.cur

def fenceAcquire (th : Thread L Tid) : Thread L Tid :=
  { th with cur := th.acq, rel_le := le_trans th.rel_le th.cur_le, cur_le := le_rfl }

def fenceRelease (th : Thread L Tid) : Thread L Tid :=
  { th with rel := th.cur, rel_le := le_rfl }

end Thread

namespace Memory

/-- Every location holds one message, which all threads know, and no cell has been
accessed. -/
def init (val : L → V) (value : C → D) : Memory L Tid C V D :=
  { history := fun l ts => if ts = 0 then some ⟨val l, ⊥⟩ else none
    threads := fun _ => .fresh
    cells := fun c => { value := value c, done := fun _ => [] } }

def onThread (m : Memory L Tid C V D) (t : Tid) (f : Thread L Tid → Thread L Tid) :
    Memory L Tid C V D :=
  { m with threads := Function.update m.threads t (f (m.threads t)) }

def publish (m : Memory L Tid C V D) (l : L) (ts : Nat) (msg : Message L Tid V) :
    Memory L Tid C V D :=
  { m with
    history := Function.update m.history l (Function.update (m.history l) ts (some msg)) }

/-- Thread `t` loads the message of `l` at `ts`. -/
def load (m : Memory L Tid C V D) (t : Tid) (o : LoadOrder) (l : L) (ts : Nat) :
    Except Refused (V × Memory L Tid C V D) :=
  match m.history l ts with
  | none => .error .blocked
  | some msg =>
      if (m.threads t).cur (.inl l) ≤ ts then
        .ok (msg.val, m.onThread t (fun th => (th.advance (.inl l) ts).observe o msg.view))
      else .error .blocked

/-- Thread `t` stores to `l`, at `ts`. -/
def store (m : Memory L Tid C V D) (t : Tid) (o : StoreOrder) (l : L) (val : V) (ts : Nat) :
    Except Refused (Memory L Tid C V D) :=
  if (m.threads t).cur (.inl l) < ts ∧ (m.history l ts).isNone then
    let th := (m.threads t).advance (.inl l) ts
    .ok ((m.onThread t (fun _ => th)).publish l ts ⟨val, th.released o l ts⟩)
  else .error .blocked

/-- Thread `t` reads the message of `l` at `ts` and puts `f` of its value right behind
it.  The new message passes on what the old one did. -/
def update (m : Memory L Tid C V D) (t : Tid) (lo : LoadOrder) (so : StoreOrder) (l : L)
    (f : V → V) (ts : Nat) : Except Refused (V × Memory L Tid C V D) :=
  match m.history l ts with
  | none => .error .blocked
  | some msg =>
      if (m.threads t).cur (.inl l) ≤ ts ∧ (m.history l (ts + 1)).isNone then
        let th := ((m.threads t).observe lo msg.view).advance (.inl l) (ts + 1)
        .ok (msg.val, (m.onThread t (fun _ => th)).publish l (ts + 1)
          ⟨f msg.val, th.released so l (ts + 1) ⊔ msg.view⟩)
      else .error .blocked

/-- `compare_exchange`: an update if the value is the one expected, and otherwise a load;
with whether it was one and the value found. -/
def compareExchange [DecidableEq V] (m : Memory L Tid C V D) (t : Tid) (success failure : LoadOrder)
    (l : L) (expected desired : V) (ts : Nat) :
    Except Refused (Bool × V × Memory L Tid C V D) :=
  match m.history l ts with
  | none => .error .blocked
  | some msg =>
      if msg.val = expected then do
        let (val, m) ← m.update t success .relaxed l (fun _ => desired) ts
        .ok (true, val, m)
      else do
        let (val, m) ← m.load t failure l ts
        .ok (false, val, m)

/-- `compare_exchange_weak`, which may fail for no reason. -/
def compareExchangeWeak [DecidableEq V] (m : Memory L Tid C V D) (t : Tid)
    (success failure : LoadOrder) (l : L) (expected desired : V) (spurious : Bool) (ts : Nat) :
    Except Refused (Bool × V × Memory L Tid C V D) :=
  if spurious then do
    let (val, m) ← m.load t failure l ts
    .ok (false, val, m)
  else m.compareExchange t success failure l expected desired ts

def fenceAcquire (m : Memory L Tid C V D) (t : Tid) : Memory L Tid C V D :=
  m.onThread t Thread.fenceAcquire

def fenceRelease (m : Memory L Tid C V D) (t : Tid) : Memory L Tid C V D :=
  m.onThread t Thread.fenceRelease

/-- Every access of the list is known in the view. -/
def Known (accesses : List (Tid × Nat)) (view : View L Tid) : Prop :=
  ∀ a ∈ accesses, a.2 ≤ view (.inr a.1)

instance (accesses : List (Tid × Nat)) (view : View L Tid) : Decidable (Known accesses view) :=
  List.decidableBAll _ accesses

/-- The clock of `t` ticks, and cell `c` is accessed and left with `value`. -/
def touch (m : Memory L Tid C V D) (t : Tid) (a : Access) (c : C) (value : D) :
    Memory L Tid C V D :=
  let now := (m.threads t).cur (.inr t) + 1
  let done := Function.update (m.cells c).done a ((t, now) :: (m.cells c).done a)
  { m.onThread t (fun th => th.advance (.inr t) now) with
    cells := Function.update m.cells c { value := value, done := done } }

def readCell (m : Memory L Tid C V D) (t : Tid) (c : C) :
    Except Refused (D × Memory L Tid C V D) :=
  if Known ((m.cells c).done .write) (m.threads t).cur then
    .ok ((m.cells c).value, m.touch t .read c (m.cells c).value)
  else .error .race

def writeCell (m : Memory L Tid C V D) (t : Tid) (c : C) (value : D) :
    Except Refused (Memory L Tid C V D) :=
  if Known ((m.cells c).done .write) (m.threads t).cur ∧
      Known ((m.cells c).done .read) (m.threads t).cur then
    .ok (m.touch t .write c value)
  else .error .race

end Memory
end Operations

section Views

variable {th : Thread L Tid} {x y : L ⊕ Tid} {n : Nat} {o : LoadOrder} {view : View L Tid}

theorem Thread.le_observe : th.cur ≤ (th.observe o view).cur := by
  cases o with
  | relaxed => exact le_rfl
  | acquire => exact le_sup_left

theorem Thread.observe_acquire : view ≤ (th.observe .acquire view).cur :=
  le_sup_right

theorem Thread.observe_acq : view ≤ (th.observe o view).acq := by
  cases o with
  | relaxed | acquire => exact le_sup_right

theorem Thread.le_observe_acq : th.acq ≤ (th.observe o view).acq := by
  cases o with
  | relaxed | acquire => exact le_sup_left

@[simp] theorem Thread.observe_rel : (th.observe o view).rel = th.rel := by
  cases o <;> rfl

variable [DecidableEq L] [DecidableEq Tid]

theorem Thread.advance_self : (th.advance x n).cur x = max (th.cur x) n := by
  simp [Thread.advance]

theorem Thread.advance_ne (hne : y ≠ x) : (th.advance x n).cur y = th.cur y := by
  simp [Thread.advance, hne]

theorem Thread.advance_acq_ne (hne : y ≠ x) : (th.advance x n).acq y = th.acq y := by
  simp [Thread.advance, hne]

theorem Thread.le_advance : th.cur ≤ (th.advance x n).cur :=
  le_sup_left

theorem Thread.le_advance_acq : th.acq ≤ (th.advance x n).acq :=
  le_sup_left

@[simp] theorem Thread.advance_rel : (th.advance x n).rel = th.rel :=
  rfl

/-- A load adds no more than its message to what a thread will know. -/
theorem Thread.load_acq_le {b : Nat} (hacq : th.acq y ≤ b) (hts : x = y → n ≤ b)
    (hview : view y ≤ b) : ((th.advance x n).observe o view).acq y ≤ b := by
  have hown : (Function.update (⊥ : View L Tid) x n) y ≤ b := by
    by_cases hxy : x = y
    · subst hxy
      simpa using hts rfl
    · simp [Function.update_of_ne (Ne.symm hxy)]
  cases o with
  | relaxed | acquire => exact sup_le (sup_le hacq hown) hview

end Views

namespace Memory

variable {m m' : Memory L Tid C V D} {t u w : Tid} {l l' : L} {ts ts' : Nat} {o : LoadOrder}
  {so : StoreOrder} {val : V} {msg msg' : Message L Tid V} {f : Thread L Tid → Thread L Tid}
  {c c' : C} {a a' : Access} {d : D}

theorem Known.mono {accesses : List (Tid × Nat)} {v v' : View L Tid} (h : Known accesses v)
    (hle : v ≤ v') : Known accesses v' :=
  fun a ha => le_trans (h a ha) (hle _)

section Threads

variable [DecidableEq Tid]

@[simp] theorem onThread_cells : (m.onThread t f).cells = m.cells :=
  rfl

@[simp] theorem onThread_self : (m.onThread t f).threads t = f (m.threads t) :=
  Function.update_self ..

theorem onThread_ne (hne : u ≠ t) : (m.onThread t f).threads u = m.threads u :=
  Function.update_of_ne hne ..

@[simp] theorem fenceAcquire_cur : ((m.fenceAcquire t).threads t).cur = (m.threads t).acq := by
  simp [Memory.fenceAcquire, Thread.fenceAcquire]

@[simp] theorem fenceRelease_rel : ((m.fenceRelease t).threads t).rel = (m.threads t).cur := by
  simp [Memory.fenceRelease, Thread.fenceRelease]

@[simp] theorem fenceRelease_cur : ((m.fenceRelease t).threads t).cur = (m.threads t).cur := by
  simp [Memory.fenceRelease, Thread.fenceRelease]

/-- No view shrinks: a thread that moves on keeps what it knew. -/
theorem onThread_cur (hle : (m.threads t).cur ≤ (f (m.threads t)).cur) (u : Tid) :
    (m.threads u).cur ≤ ((m.onThread t f).threads u).cur := by
  by_cases hu : u = t
  · subst hu
    rwa [onThread_self]
  · rw [onThread_ne hu]

end Threads

section Messages

variable [DecidableEq L]

@[simp] theorem publish_threads : (m.publish l ts msg).threads = m.threads :=
  rfl

@[simp] theorem publish_cells : (m.publish l ts msg).cells = m.cells :=
  rfl

/-- The messages after a store: the new one and those that were there. -/
theorem publish_history (h : (m.publish l ts msg).history l' ts' = some msg') :
    (l' = l ∧ ts' = ts ∧ msg' = msg) ∨ m.history l' ts' = some msg' := by
  by_cases hl : l' = l
  · subst hl
    by_cases hts : ts' = ts
    · subst hts
      simp only [publish, Function.update_self] at h
      exact .inl ⟨rfl, rfl, (Option.some.inj h).symm⟩
    · simp only [publish, Function.update_self, Function.update_of_ne hts] at h
      exact .inr h
  · simp only [publish, Function.update_of_ne hl] at h
    exact .inr h

theorem publish_history_ne (hne : l' ≠ l) : (m.publish l ts msg).history l' = m.history l' :=
  Function.update_of_ne hne ..

@[simp] theorem publish_self : (m.publish l ts msg).history l ts = some msg := by
  simp [publish]

theorem publish_ts_ne (hne : ts' ≠ ts) :
    (m.publish l ts msg).history l ts' = m.history l ts' := by
  simp [publish, hne]

end Messages

variable [DecidableEq L] [DecidableEq Tid]

theorem load_ok (h : m.load t o l ts = .ok (val, m')) :
    ∃ msg, m.history l ts = some msg ∧ (m.threads t).cur (.inl l) ≤ ts ∧ val = msg.val ∧
      m' = m.onThread t (fun th => (th.advance (.inl l) ts).observe o msg.view) := by
  unfold load at h
  cases hmsg : m.history l ts with
  | none =>
      rw [hmsg] at h
      cases h
  | some msg =>
      rw [hmsg] at h
      dsimp only at h
      split_ifs at h with hle
      cases h
      exact ⟨msg, rfl, hle, rfl, rfl⟩

theorem store_ok (h : m.store t so l val ts = .ok m') :
    (m.threads t).cur (.inl l) < ts ∧
      m' = (m.onThread t (fun th => th.advance (.inl l) ts)).publish l ts
        ⟨val, ((m.threads t).advance (.inl l) ts).released so l ts⟩ := by
  unfold store at h
  split_ifs at h with hfree
  obtain rfl := Except.ok.inj h
  exact ⟨hfree.1, rfl⟩

theorem update_ok {lo : LoadOrder} {g : V → V} (h : m.update t lo so l g ts = .ok (val, m')) :
    ∃ msg, m.history l ts = some msg ∧ (m.threads t).cur (.inl l) ≤ ts ∧
      m.history l (ts + 1) = none ∧ val = msg.val ∧
      m' = (m.onThread t
          (fun th => (th.observe lo msg.view).advance (.inl l) (ts + 1))).publish l (ts + 1)
        ⟨g msg.val, (((m.threads t).observe lo msg.view).advance (.inl l) (ts + 1)).released so l
          (ts + 1) ⊔ msg.view⟩ := by
  unfold update at h
  cases hmsg : m.history l ts with
  | none =>
      rw [hmsg] at h
      cases h
  | some msg =>
      rw [hmsg] at h
      dsimp only at h
      split_ifs at h with hfree
      cases h
      exact ⟨msg, rfl, hfree.1, Option.isNone_iff_eq_none.mp hfree.2, rfl, rfl⟩

theorem load_safe : Safe (m.load t o l ts) (fun r => m.load t o l ts = .ok r) := by
  refine safe_self ?_
  unfold load
  split
  · simp
  · split_ifs <;> simp

theorem store_safe : Safe (m.store t so l val ts) (fun r => m.store t so l val ts = .ok r) := by
  refine safe_self ?_
  unfold store
  split_ifs <;> simp

theorem update_safe {lo : LoadOrder} {g : V → V} :
    Safe (m.update t lo so l g ts) (fun r => m.update t lo so l g ts = .ok r) := by
  refine safe_self ?_
  unfold update
  split
  · simp
  · split_ifs <;> simp

/-- What a `compare_exchange` comes to. -/
def Exchanged (m : Memory L Tid C V D) (t : Tid) (success failure : LoadOrder) (l : L)
    (expected desired : V) (ts : Nat) (r : Bool × V × Memory L Tid C V D) : Prop :=
  (r.1 = true ∧ m.update t success .relaxed l (fun _ => desired) ts = .ok (expected, r.2.2)) ∨
    (r.1 = false ∧ m.load t failure l ts = .ok r.2)

section Exchange

variable [DecidableEq V] {success failure : LoadOrder} {expected desired : V}

theorem compareExchange_safe :
    Safe (m.compareExchange t success failure l expected desired ts)
      (m.Exchanged t success failure l expected desired ts) := by
  unfold compareExchange
  cases hmsg : m.history l ts with
  | none => exact .blocked
  | some msg =>
      dsimp only
      split_ifs with heq
      · refine update_safe.bind ?_
        rintro ⟨v, m₁⟩ hup
        obtain ⟨msg', hmsg', -, -, rfl, -⟩ := update_ok hup
        obtain rfl := Option.some.inj (hmsg'.symm.trans hmsg)
        exact .inl ⟨rfl, heq ▸ hup⟩
      · exact load_safe.bind (fun r hload => .inr ⟨rfl, hload⟩)

theorem compareExchangeWeak_safe {spurious : Bool} :
    Safe (m.compareExchangeWeak t success failure l expected desired spurious ts)
      (m.Exchanged t success failure l expected desired ts) := by
  unfold compareExchangeWeak
  split_ifs
  · exact load_safe.bind (fun r hload => .inr ⟨rfl, hload⟩)
  · exact compareExchange_safe

end Exchange

theorem load_frame (h : m.load t o l ts = .ok (val, m')) :
    m'.history = m.history ∧ m'.cells = m.cells ∧
      ∀ u, (m.threads u).cur ≤ (m'.threads u).cur := by
  obtain ⟨msg, -, -, -, rfl⟩ := load_ok h
  exact ⟨rfl, rfl, onThread_cur (le_trans Thread.le_advance Thread.le_observe)⟩

theorem store_frame (h : m.store t so l val ts = .ok m') :
    (∀ l', l' ≠ l → m'.history l' = m.history l') ∧ m'.cells = m.cells ∧
      ∀ u, (m.threads u).cur ≤ (m'.threads u).cur := by
  obtain ⟨-, rfl⟩ := store_ok h
  refine ⟨fun l' hne => publish_history_ne hne, rfl, fun u => ?_⟩
  rw [publish_threads]
  exact onThread_cur Thread.le_advance u

theorem update_frame {lo : LoadOrder} {g : V → V} (h : m.update t lo so l g ts = .ok (val, m')) :
    (∀ l', l' ≠ l → m'.history l' = m.history l') ∧ m'.cells = m.cells ∧
      ∀ u, (m.threads u).cur ≤ (m'.threads u).cur := by
  obtain ⟨msg, -, -, -, -, rfl⟩ := update_ok h
  refine ⟨fun l' hne => publish_history_ne hne, rfl, fun u => ?_⟩
  rw [publish_threads]
  exact onThread_cur (le_trans Thread.le_observe Thread.le_advance) u

variable [DecidableEq C]

theorem readCell_safe (hknown : Known ((m.cells c).done .write) (m.threads t).cur) :
    Safe (m.readCell t c)
      (fun r => r = ((m.cells c).value, m.touch t .read c (m.cells c).value)) := by
  unfold readCell
  rw [if_pos hknown]
  rfl

theorem writeCell_safe (hwrites : Known ((m.cells c).done .write) (m.threads t).cur)
    (hreads : Known ((m.cells c).done .read) (m.threads t).cur) :
    Safe (m.writeCell t c d) (fun m' => m' = m.touch t .write c d) := by
  unfold writeCell
  rw [if_pos ⟨hwrites, hreads⟩]
  rfl

@[simp] theorem touch_self :
    (m.touch t a c d).threads t =
      (m.threads t).advance (.inr t) ((m.threads t).cur (.inr t) + 1) :=
  Function.update_self ..

theorem touch_ne (hne : u ≠ t) : (m.touch t a c d).threads u = m.threads u :=
  Function.update_of_ne hne ..

@[simp] theorem touch_value : ((m.touch t a c d).cells c).value = d := by
  simp [touch]

theorem touch_cell_ne (hne : c' ≠ c) : (m.touch t a c d).cells c' = m.cells c' :=
  Function.update_of_ne hne ..

/-- An access of the other kind leaves the list of a cell alone. -/
theorem touch_done_ne (hne : a' ≠ a) :
    ((m.touch t a c d).cells c').done a' = (m.cells c').done a' := by
  by_cases hc : c' = c
  · subst hc
    simp [touch, hne]
  · rw [touch_cell_ne hc]

theorem touch_done :
    ((m.touch t a c d).cells c).done a =
      (t, (m.threads t).cur (.inr t) + 1) :: (m.cells c).done a := by
  simp [touch]

/-- The values in the cells after a write. -/
theorem touch_write_values :
    (fun i => ((m.touch t .write c d).cells i).value) =
      Function.update (fun i => (m.cells i).value) c d := by
  funext i
  by_cases hi : i = c
  · subst hi
    rw [touch_value, Function.update_self]
  · rw [touch_cell_ne hi, Function.update_of_ne hi]

/-- A read leaves the values as they are. -/
theorem touch_read_values :
    (fun i => ((m.touch t .read c (m.cells c).value).cells i).value) =
      fun i => (m.cells i).value := by
  funext i
  by_cases hi : i = c
  · subst hi
    rw [touch_value]
  · rw [touch_cell_ne hi]

theorem touch_cur (u : Tid) : (m.threads u).cur ≤ ((m.touch t a c d).threads u).cur :=
  onThread_cur (f := fun th => th.advance (.inr t) ((m.threads t).cur (.inr t) + 1))
    Thread.le_advance u

end Memory

end ReleaseAcquire
end GtpMeter
