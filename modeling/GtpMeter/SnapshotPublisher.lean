import GtpMeter.TransitionRuns
import Mathlib.Algebra.Ring.Nat
import Mathlib.Data.List.Count
import Mathlib.Logic.Function.Basic

/-!
# Publication of snapshots

`SnapshotPublisher` from `snapshot.hpp`: one writer rotates through `N` buffers and
readers pin the current one with a reference count.  A step is one load, store or
read-modify-write of an atomic, a change of the contents of a buffer, or a local
step; the steps of the writer and of any number of readers interleave in any order,
and memory is sequentially consistent.

* `current_ = -1` and `writing_ = -1` are `none`.
* `compare_exchange_weak` may fail for no reason, and loads the value it found.
* The handles that exist are kept as a list of the buffers they pin.  A reader holds
  its handle from its successful exchange on.

**Results.**
* `step_moves`: the ways a step can go, with what it saw.
-/

namespace GtpMeter

open Runs

def kWriterOwned : UInt32 := 0x80000000

/-- A buffer and its reference count. -/
structure Slot (V : Type) where
  value : V
  refs : UInt32

structure SnapshotPublisher (V : Type) (N : Nat) where
  slots : Fin N → Slot V
  current : Option (Fin N)
  version : UInt64
  writeHint : Nat
  writing : Option (Fin N)

namespace SnapshotPublisher

variable {V : Type} {N : Nat}

def setRefs (p : SnapshotPublisher V N) (s : Fin N) (refs : UInt32) : SnapshotPublisher V N :=
  { p with slots := Function.update p.slots s { p.slots s with refs := refs } }

def setValue (p : SnapshotPublisher V N) (s : Fin N) (value : V) : SnapshotPublisher V N :=
  { p with slots := Function.update p.slots s { p.slots s with value := value } }

variable (p : SnapshotPublisher V N) (s i : Fin N) (refs : UInt32) (value : V)

@[simp] theorem setRefs_value : ((p.setRefs s refs).slots i).value = (p.slots i).value := by
  unfold setRefs
  by_cases hi : i = s
  · simp [hi]
  · simp [hi]

@[simp] theorem setRefs_refs :
    ((p.setRefs s refs).slots i).refs = if i = s then refs else (p.slots i).refs := by
  unfold setRefs
  by_cases hi : i = s
  · simp [hi]
  · simp [hi]

@[simp] theorem setValue_refs : ((p.setValue s value).slots i).refs = (p.slots i).refs := by
  unfold setValue
  by_cases hi : i = s
  · simp [hi]
  · simp [hi]

@[simp] theorem setValue_value :
    ((p.setValue s value).slots i).value = if i = s then value else (p.slots i).value := by
  unfold setValue
  by_cases hi : i = s
  · simp [hi]
  · simp [hi]

@[simp] theorem setRefs_current : (p.setRefs s refs).current = p.current :=
  rfl

@[simp] theorem setRefs_writing : (p.setRefs s refs).writing = p.writing :=
  rfl

@[simp] theorem setRefs_writeHint : (p.setRefs s refs).writeHint = p.writeHint :=
  rfl

@[simp] theorem setValue_current : (p.setValue s value).current = p.current :=
  rfl

@[simp] theorem setValue_writing : (p.setValue s value).writing = p.writing :=
  rfl

end SnapshotPublisher

/-- Where the writer is. -/
inductive WriterPc (N : Nat) where
  | idle
  /-- `begin_write`, with `current_` loaded and the attempts made so far -/
  | scan (current : Option (Fin N)) (attempt : Nat)
  /-- `begin_write` has returned a buffer -/
  | filling
  /-- `commit` has stored 0 to the count -/
  | stored
  /-- `commit` has stored `current_` -/
  | published

/-- The writer has a buffer, or has not yet forgotten it. -/
def WriterPc.holds {N : Nat} : WriterPc N → Bool
  | .idle => false
  | .scan _ _ => false
  | .filling => true
  | .stored => true
  | .published => true

/-- Where a reader is. -/
inductive ReaderPc (N : Nat) where
  | idle
  /-- `read`, with the attempts made so far -/
  | start (attempt : Nat)
  /-- `current_` is loaded -/
  | loaded (attempt : Nat) (idx : Fin N)
  /-- the count is loaded, and the exchange is to be tried -/
  | pinning (attempt : Nat) (idx : Fin N) (refs : UInt32)

/-- The buffer that a reader has in hand. -/
def ReaderPc.aims {N : Nat} : ReaderPc N → Option (Fin N)
  | .idle => none
  | .start _ => none
  | .loaded _ idx => some idx
  | .pinning _ idx _ => some idx

/-- A publisher with its writer, its readers and the handles that exist. -/
structure Snapshots (V : Type) (N : Nat) where
  pub : SnapshotPublisher V N
  writer : WriterPc N
  readers : Nat → ReaderPc N
  live : List (Fin N)

inductive SnapshotOp (V : Type) (N : Nat) where
  | beginWrite
  | fill (value : V)
  | commit
  | writer
  | read (reader : Nat)
  | reader (reader : Nat) (spurious : Bool)
  | drop (idx : Fin N)

/-- What a step did, for the caller or for the record. -/
inductive SnapshotOut (V : Type) (N : Nat) where
  | quiet
  /-- `begin_write` was called, and loaded `current_` -/
  | began
  /-- `begin_write` found the count of a buffer not at 0 -/
  | busy (idx : Fin N)
  | claimed (idx : Fin N)
  /-- `begin_write` returned `nullptr` -/
  | failed
  /-- `commit` was handed this buffer with these contents -/
  | handed (idx : Fin N) (value : V)
  /-- `commit` made it current -/
  | published (idx : Fin N) (value : V)
  /-- `read` returned an empty handle -/
  | invalid (reader : Nat)
  /-- `read` returned a handle -/
  | pinned (reader : Nat) (idx : Fin N) (value : V)

namespace Snapshots

variable {V : Type} {N : Nat} [NeZero N]

/-- Attempts of `read`. -/
def kReadAttempts : Nat := 16

/-- The buffer that `begin_write` looks at in an attempt. -/
def slotAt (m : Snapshots V N) (attempt : Nat) : Fin N :=
  Fin.ofNat N (m.pub.writeHint + attempt)

def setReader (m : Snapshots V N) (i : Nat) (pc : ReaderPc N) : Snapshots V N :=
  { m with readers := Function.update m.readers i pc }

/-- The next step of the writer in a call. -/
def writerStep (m : Snapshots V N) : Except Blocked (Snapshots V N × SnapshotOut V N) :=
  match m.writer with
  | .scan current attempt =>
      if attempt < N then
        let idx := m.slotAt attempt
        if current = some idx then .ok ({ m with writer := .scan current (attempt + 1) }, .quiet)
        else if (m.pub.slots idx).refs = 0 then
          let pub := { m.pub.setRefs idx kWriterOwned with
            writing := some idx
            writeHint := (idx.val + 1) % N }
          .ok ({ m with pub := pub, writer := .filling }, .claimed idx)
        else .ok ({ m with writer := .scan current (attempt + 1) }, .busy idx)
      else .ok ({ m with writer := .idle }, .failed)
  | .stored =>
      match m.pub.writing with
      | some idx =>
          .ok ({ m with pub := { m.pub with current := some idx }, writer := .published },
            .published idx (m.pub.slots idx).value)
      | none => .error .blocked
  | .published =>
      let pub := { m.pub with version := m.pub.version + 1, writing := none }
      .ok ({ m with pub := pub, writer := .idle }, .quiet)
  | _ => .error .blocked

/-- `commit` up to its first store. -/
def commit (m : Snapshots V N) : Except Blocked (Snapshots V N × SnapshotOut V N) :=
  match m.pub.writing with
  | none => .ok (m, .quiet)
  | some idx =>
      .ok ({ m with pub := m.pub.setRefs idx 0, writer := .stored },
        .handed idx (m.pub.slots idx).value)

/-- The next step of reader `i` in a call. -/
def readerStep (m : Snapshots V N) (i : Nat) (spurious : Bool) :
    Except Blocked (Snapshots V N × SnapshotOut V N) :=
  match m.readers i with
  | .idle => .error .blocked
  | .start attempt =>
      if attempt < kReadAttempts then
        match m.pub.current with
        | none => .ok (m.setReader i .idle, .invalid i)
        | some idx => .ok (m.setReader i (.loaded attempt idx), .quiet)
      else .ok (m.setReader i .idle, .invalid i)
  | .loaded attempt idx =>
      .ok (m.setReader i (.pinning attempt idx (m.pub.slots idx).refs), .quiet)
  | .pinning attempt idx refs =>
      if refs < kWriterOwned then
        if (m.pub.slots idx).refs = refs ∧ spurious = false then
          .ok ({ m.setReader i .idle with
              pub := m.pub.setRefs idx (refs + 1)
              live := idx :: m.live }, .pinned i idx (m.pub.slots idx).value)
        else .ok (m.setReader i (.pinning attempt idx (m.pub.slots idx).refs), .quiet)
      else .ok (m.setReader i (.start (attempt + 1)), .quiet)

def step (m : Snapshots V N) :
    SnapshotOp V N → Except Blocked (Snapshots V N × SnapshotOut V N)
  | .beginWrite =>
      match m.writer with
      | .idle => .ok ({ m with writer := .scan m.pub.current 0 }, .began)
      | _ => .error .blocked
  | .fill value =>
      match m.writer, m.pub.writing with
      | .filling, some idx => .ok ({ m with pub := m.pub.setValue idx value }, .quiet)
      | _, _ => .error .blocked
  | .commit =>
      match m.writer with
      | .idle => m.commit
      | .filling => m.commit
      | _ => .error .blocked
  | .writer => m.writerStep
  | .read i =>
      match m.readers i with
      | .idle => .ok (m.setReader i (.start 0), .quiet)
      | _ => .error .blocked
  | .reader i spurious => m.readerStep i spurious
  | .drop idx =>
      if idx ∈ m.live then
        .ok ({ m with
            pub := m.pub.setRefs idx ((m.pub.slots idx).refs - 1)
            live := m.live.erase idx }, .quiet)
      else .error .blocked

/-- A new publisher, with `value` in every buffer. -/
def start (value : V) : Snapshots V N :=
  { pub :=
      { slots := fun _ => { value := value, refs := 0 }
        current := none
        version := 0
        writeHint := 0
        writing := none }
    writer := .idle
    readers := fun _ => .idle
    live := [] }

/-- The buffer that the writer owns: from the exchange in `begin_write` to the store
of 0 in `commit`. -/
def claimed (m : Snapshots V N) : Option (Fin N) :=
  match m.writer with
  | .filling => m.pub.writing
  | _ => none

/-- The buffer whose `commit` has stored the count and not yet `current_`. -/
def committing (m : Snapshots V N) : Option (Fin N) :=
  match m.writer with
  | .stored => m.pub.writing
  | _ => none

/-- What a step did.  One constructor for each way a step can go. -/
inductive Moves (m : Snapshots V N) : SnapshotOp V N → SnapshotOut V N → Snapshots V N → Prop
  | begin : m.writer = .idle →
      Moves m .beginWrite .began { m with writer := .scan m.pub.current 0 }
  | skip {current : Option (Fin N)} {attempt : Nat} :
      m.writer = .scan current attempt → attempt < N → current = some (m.slotAt attempt) →
      Moves m .writer .quiet { m with writer := .scan current (attempt + 1) }
  | busy {current : Option (Fin N)} {attempt : Nat} :
      m.writer = .scan current attempt → attempt < N →
      (m.pub.slots (m.slotAt attempt)).refs ≠ 0 →
      Moves m .writer (.busy (m.slotAt attempt)) { m with writer := .scan current (attempt + 1) }
  | claim {current : Option (Fin N)} {attempt hint : Nat} {idx : Fin N} :
      m.writer = .scan current attempt → current ≠ some idx → (m.pub.slots idx).refs = 0 →
      Moves m .writer (.claimed idx)
        { m with
          pub := { m.pub.setRefs idx kWriterOwned with writing := some idx, writeHint := hint }
          writer := .filling }
  | fail {current : Option (Fin N)} {attempt : Nat} :
      m.writer = .scan current attempt → ¬attempt < N →
      Moves m .writer .failed { m with writer := .idle }
  | fill {idx : Fin N} {value : V} :
      m.writer = .filling → m.pub.writing = some idx →
      Moves m (.fill value) .quiet { m with pub := m.pub.setValue idx value }
  | nothing : m.pub.writing = none → Moves m .commit .quiet m
  | hand {idx : Fin N} :
      m.writer = .idle ∨ m.writer = .filling → m.pub.writing = some idx →
      Moves m .commit (.handed idx (m.pub.slots idx).value)
        { m with pub := m.pub.setRefs idx 0, writer := .stored }
  | publish {idx : Fin N} :
      m.writer = .stored → m.pub.writing = some idx →
      Moves m .writer (.published idx (m.pub.slots idx).value)
        { m with pub := { m.pub with current := some idx }, writer := .published }
  | bump : m.writer = .published →
      Moves m .writer .quiet
        { m with
          pub := { m.pub with version := m.pub.version + 1, writing := none }
          writer := .idle }
  | read {i : Nat} : m.readers i = .idle → Moves m (.read i) .quiet (m.setReader i (.start 0))
  | invalid {i attempt : Nat} {spurious : Bool} :
      m.readers i = .start attempt → (attempt < kReadAttempts → m.pub.current = none) →
      Moves m (.reader i spurious) (.invalid i) (m.setReader i .idle)
  | load {i attempt : Nat} {spurious : Bool} {idx : Fin N} :
      m.readers i = .start attempt → attempt < kReadAttempts → m.pub.current = some idx →
      Moves m (.reader i spurious) .quiet (m.setReader i (.loaded attempt idx))
  | refs {i attempt : Nat} {spurious : Bool} {idx : Fin N} :
      (m.readers i).aims = some idx →
      Moves m (.reader i spurious) .quiet
        (m.setReader i (.pinning attempt idx (m.pub.slots idx).refs))
  | retry {i attempt : Nat} {spurious : Bool} {idx : Fin N} {refs : UInt32} :
      m.readers i = .pinning attempt idx refs → ¬refs < kWriterOwned →
      Moves m (.reader i spurious) .quiet (m.setReader i (.start (attempt + 1)))
  | pin {i attempt : Nat} {idx : Fin N} :
      m.readers i = .pinning attempt idx (m.pub.slots idx).refs →
      (m.pub.slots idx).refs < kWriterOwned →
      Moves m (.reader i false) (.pinned i idx (m.pub.slots idx).value)
        { m.setReader i .idle with
          pub := m.pub.setRefs idx ((m.pub.slots idx).refs + 1)
          live := idx :: m.live }
  | drop {idx : Fin N} : idx ∈ m.live →
      Moves m (.drop idx) .quiet
        { m with
          pub := m.pub.setRefs idx ((m.pub.slots idx).refs - 1)
          live := m.live.erase idx }

variable {m m' : Snapshots V N} {out : SnapshotOut V N}

omit [NeZero N] in
/-- What holds of the buffers that the readers are at, when one of them moves. -/
theorem aims_setReader {P : Nat → Fin N → Prop} {i : Nat} {pc : ReaderPc N}
    (haim : ∀ s, pc.aims = some s → P i s)
    (hrest : ∀ k s, (m.readers k).aims = some s → P k s) :
    ∀ k s, ((m.setReader i pc).readers k).aims = some s → P k s := by
  intro k s hs
  by_cases hk : k = i
  · subst hk
    simp only [setReader, Function.update_self] at hs
    exact haim s hs
  · simp only [setReader, Function.update_of_ne hk] at hs
    exact hrest k s hs

theorem writerStep_moves (hs : m.writerStep = .ok (m', out)) : Moves m .writer out m' := by
  unfold writerStep at hs
  cases hw : m.writer with
  | idle => simp [hw] at hs
  | filling => simp [hw] at hs
  | scan current attempt =>
      simp only [hw] at hs
      by_cases ha : attempt < N
      · rw [if_pos ha] at hs
        by_cases hc : current = some (m.slotAt attempt)
        · rw [if_pos hc] at hs
          cases hs
          exact .skip hw ha hc
        · rw [if_neg hc] at hs
          by_cases hr : (m.pub.slots (m.slotAt attempt)).refs = 0
          · rw [if_pos hr] at hs
            cases hs
            exact .claim hw hc hr
          · rw [if_neg hr] at hs
            cases hs
            exact .busy hw ha hr
      · rw [if_neg ha] at hs
        cases hs
        exact .fail hw ha
  | stored =>
      cases hidx : m.pub.writing with
      | none => simp [hw, hidx] at hs
      | some idx =>
          simp only [hw, hidx] at hs
          cases hs
          simpa only [hidx] using Moves.publish hw hidx
  | published =>
      simp only [hw] at hs
      cases hs
      exact .bump hw

theorem commit_moves (hw : m.writer = .idle ∨ m.writer = .filling)
    (hs : m.commit = .ok (m', out)) : Moves m .commit out m' := by
  unfold commit at hs
  cases hidx : m.pub.writing with
  | none =>
      simp only [hidx] at hs
      cases hs
      exact .nothing hidx
  | some idx =>
      simp only [hidx] at hs
      cases hs
      exact .hand hw hidx

theorem readerStep_moves {i : Nat} {spurious : Bool}
    (hs : m.readerStep i spurious = .ok (m', out)) : Moves m (.reader i spurious) out m' := by
  unfold readerStep at hs
  cases hr : m.readers i with
  | idle => simp [hr] at hs
  | start attempt =>
      simp only [hr] at hs
      by_cases ha : attempt < kReadAttempts
      · rw [if_pos ha] at hs
        cases hc : m.pub.current with
        | none =>
            simp only [hc] at hs
            cases hs
            exact .invalid hr (fun _ => hc)
        | some idx =>
            simp only [hc] at hs
            cases hs
            exact .load hr ha hc
      · rw [if_neg ha] at hs
        cases hs
        exact .invalid hr (fun h => absurd h ha)
  | loaded attempt idx =>
      simp only [hr] at hs
      cases hs
      exact .refs (by rw [hr]; rfl)
  | pinning attempt idx refs =>
      simp only [hr] at hs
      by_cases hlt : refs < kWriterOwned
      · rw [if_pos hlt] at hs
        by_cases heq : (m.pub.slots idx).refs = refs ∧ spurious = false
        · obtain ⟨rfl, rfl⟩ := heq
          simp only [and_self, if_true] at hs
          cases hs
          exact .pin hr hlt
        · rw [if_neg heq] at hs
          cases hs
          exact .refs (by rw [hr]; rfl)
      · rw [if_neg hlt] at hs
        cases hs
        exact .retry hr hlt

/-- The ways a step can go. -/
theorem step_moves {op : SnapshotOp V N} (hs : m.step op = .ok (m', out)) : Moves m op out m' := by
  cases op with
  | beginWrite =>
      cases hw : m.writer <;> simp only [step, hw, reduceCtorEq] at hs
      cases hs
      exact .begin hw
  | fill value =>
      simp only [step] at hs
      split at hs
      · rename_i hw hidx
        cases hs
        exact .fill hw hidx
      · cases hs
  | commit =>
      cases hw : m.writer <;> simp only [step, hw, reduceCtorEq] at hs
      · exact commit_moves (.inl hw) hs
      · exact commit_moves (.inr hw) hs
  | writer => exact writerStep_moves hs
  | read i =>
      cases hr : m.readers i <;> simp only [step, hr, reduceCtorEq] at hs
      cases hs
      exact .read hr
  | reader i spurious => exact readerStep_moves hs
  | drop idx =>
      simp only [step] at hs
      split at hs
      · rename_i hmem
        cases hs
        exact .drop hmem
      · cases hs

/-- What a run did, from its history. -/
structure Journal (V : Type) (N : Nat) where
  /-- what was handed to `commit`, oldest first -/
  commits : List V
  /-- what was last handed to `commit` in each buffer -/
  handed : Fin N → Option V
  /-- what was last made current in each buffer -/
  published : Fin N → Option V
  /-- the buffers whose count the last `begin_write` did not find at 0, each with the
  number of the handles on it at that step -/
  tried : List (Fin N × Nat)
  /-- what each reader was given, oldest first -/
  reads : Nat → List V

/-- The steps of a publisher and its threads. -/
abbrev Trace (V : Type) (N : Nat) :=
  List (Transition (Snapshots V N) (SnapshotOp V N) (SnapshotOut V N))

def Journal.empty : Journal V N :=
  { commits := [], handed := fun _ => none, published := fun _ => none, tried := [],
    reads := fun _ => [] }

def Journal.note (j : Journal V N)
    (tr : Transition (Snapshots V N) (SnapshotOp V N) (SnapshotOut V N)) : Journal V N :=
  match tr.out with
  | .began => { j with tried := [] }
  | .busy idx => { j with tried := j.tried ++ [(idx, tr.pre.live.count idx)] }
  | .handed idx value =>
      { j with
        commits := j.commits ++ [value]
        handed := Function.update j.handed idx (some value) }
  | .published idx value =>
      { j with published := Function.update j.published idx (some value) }
  | .pinned i _ value =>
      { j with reads := Function.update j.reads i (j.reads i ++ [value]) }
  | _ => j

def journal (h : Trace V N) : Journal V N :=
  h.foldl Journal.note Journal.empty

end Snapshots
end GtpMeter
