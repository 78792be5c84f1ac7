import GtpMeter.TransitionRuns
import Mathlib.Algebra.Ring.Nat
import Mathlib.Logic.Function.Basic

/-!
# The sequence lock

`Seqlock` from `seqlock.hpp`.  The writer makes the sequence odd, stores the words of
the value one at a time and makes it even again.  A reader copies the words one at a
time and keeps its copy if the sequence was even before and is the same after.  A step
is one load or store; the steps of the writer and of any number of readers interleave
in any order, and memory is sequentially consistent.

A value is the words that `store` stages for it.

**Results.**
* `Published.moves`: the words, the sequence and the copies of the readers, step by step.
* `seqlock_never_torn`: what a `load` returns is one stored value as a whole, and not one
  that was already overwritten when the `load` began.
-/

namespace GtpMeter

open Runs

/-- The words of a value, `W` of them. -/
abbrev Payload (W : Nat) := Fin W → UInt64

structure Seqlock (W : Nat) where
  seq : UInt32
  words : Payload W

/-- Where the writer is. -/
inductive StorePc (W : Nat) where
  | idle
  /-- `seq_` is loaded -/
  | loaded (value : Payload W) (seq : UInt32)
  /-- `seq_` is odd and the first `i` words are stored -/
  | writing (value : Payload W) (seq : UInt32) (i : Nat)

/-- 1 while the writer is between its two stores of the sequence. -/
def StorePc.odd {W : Nat} : StorePc W → Nat
  | .writing _ _ _ => 1
  | _ => 0

/-- Where a reader is. -/
inductive LoadPc (W : Nat) where
  | idle
  | start (attempt maxAttempts : Int)
  /-- the sequence was even, and the first `i` words are copied -/
  | copying (attempt maxAttempts : Int) (before : UInt32) (i : Nat) (staging : Payload W)

/-- A sequence lock with its writer and its readers. -/
structure SharedSeqlock (W : Nat) where
  lock : Seqlock W
  writer : StorePc W
  readers : Nat → LoadPc W

inductive SeqlockOp (W : Nat) where
  | store (value : Payload W)
  | writer
  | load (reader : Nat) (maxAttempts : Int)
  | reader (reader : Nat)

/-- What a step did, for the caller or for the record. -/
inductive SeqlockOut (W : Nat) where
  | quiet
  /-- `store` returned -/
  | stored (value : Payload W)
  /-- `load` was called -/
  | called (reader : Nat)
  /-- an attempt of `load` found the sequence even -/
  | began (reader : Nat)
  /-- `load` returned true -/
  | loaded (reader : Nat) (value : Payload W)
  /-- `load` returned false -/
  | failed (reader : Nat)

/-- What a `load` of this reader returned. -/
def SeqlockOut.returned {W : Nat} (r : Nat) : SeqlockOut W → Option (Payload W)
  | .loaded r' value => if r' = r then some value else none
  | _ => none

theorem SeqlockOut.eq_loaded {W r : Nat} {out : SeqlockOut W} {value : Payload W}
    (hout : out.returned r = some value) : out = .loaded r value := by
  cases out with
  | loaded r' v =>
      simp only [returned] at hout
      split at hout
      · simp_all
      · cases hout
  | _ => cases hout

namespace SharedSeqlock

variable {W : Nat}

/-- A new lock. -/
def start : SharedSeqlock W :=
  { lock := { seq := 0, words := fun _ => 0 }
    writer := .idle
    readers := fun _ => .idle }

def setReader (m : SharedSeqlock W) (i : Nat) (pc : LoadPc W) : SharedSeqlock W :=
  { m with readers := Function.update m.readers i pc }

/-- The next step of `store`. -/
def storeStep (m : SharedSeqlock W) : Except Blocked (SharedSeqlock W × SeqlockOut W) :=
  match m.writer with
  | .idle => .error .blocked
  | .loaded value seq =>
      .ok ({ m with
        lock := { m.lock with seq := seq + 1 }
        writer := .writing value seq 0 }, .quiet)
  | .writing value seq i =>
      if h : i < W then
        let words := Function.update m.lock.words ⟨i, h⟩ (value ⟨i, h⟩)
        .ok ({ m with
            lock := { m.lock with words := words }
            writer := .writing value seq (i + 1) }, .quiet)
      else .ok ({ m with lock := { m.lock with seq := seq + 2 }, writer := .idle }, .stored value)

/-- The next step of `load` in reader `r`. -/
def loadStep (m : SharedSeqlock W) (r : Nat) : Except Blocked (SharedSeqlock W × SeqlockOut W) :=
  match m.readers r with
  | .idle => .error .blocked
  | .start attempt maxAttempts =>
      if attempt < maxAttempts then
        if m.lock.seq &&& 1 ≠ 0 then .ok (m.setReader r (.start (attempt + 1) maxAttempts), .quiet)
        else
          -- the staging words are not initialised in the source
          let pc := .copying attempt maxAttempts m.lock.seq 0 (fun _ => 0)
          .ok (m.setReader r pc, .began r)
      else .ok (m.setReader r .idle, .failed r)
  | .copying attempt maxAttempts before i staging =>
      if h : i < W then
        let staging := Function.update staging ⟨i, h⟩ (m.lock.words ⟨i, h⟩)
        .ok (m.setReader r (.copying attempt maxAttempts before (i + 1) staging), .quiet)
      else if m.lock.seq = before then .ok (m.setReader r .idle, .loaded r staging)
      else .ok (m.setReader r (.start (attempt + 1) maxAttempts), .quiet)

def step (m : SharedSeqlock W) :
    SeqlockOp W → Except Blocked (SharedSeqlock W × SeqlockOut W)
  | .store value =>
      match m.writer with
      | .idle => .ok ({ m with writer := .loaded value m.lock.seq }, .quiet)
      | _ => .error .blocked
  | .writer => m.storeStep
  | .load r maxAttempts =>
      match m.readers r with
      | .idle => .ok (m.setReader r (.start 0 maxAttempts), .called r)
      | _ => .error .blocked
  | .reader r => m.loadStep r

/-- What a step did.  One constructor for each way a step can go. -/
inductive Moves (m : SharedSeqlock W) :
    SeqlockOp W → SeqlockOut W → SharedSeqlock W → Prop
  | store {value : Payload W} : m.writer = .idle →
      Moves m (.store value) .quiet { m with writer := .loaded value m.lock.seq }
  | odd {value : Payload W} {seq : UInt32} : m.writer = .loaded value seq →
      Moves m .writer .quiet
        { m with lock := { m.lock with seq := seq + 1 }, writer := .writing value seq 0 }
  | word {value : Payload W} {seq : UInt32} {i : Nat} (h : i < W) :
      m.writer = .writing value seq i →
      Moves m .writer .quiet
        { m with
          lock := { m.lock with
            words := Function.update m.lock.words ⟨i, h⟩ (value ⟨i, h⟩) }
          writer := .writing value seq (i + 1) }
  | even {value : Payload W} {seq : UInt32} {i : Nat} :
      m.writer = .writing value seq i → ¬i < W →
      Moves m .writer (.stored value)
        { m with lock := { m.lock with seq := seq + 2 }, writer := .idle }
  | call {r : Nat} {maxAttempts : Int} : m.readers r = .idle →
      Moves m (.load r maxAttempts) (.called r) (m.setReader r (.start 0 maxAttempts))
  | busy {r : Nat} {attempt maxAttempts : Int} :
      m.readers r = .start attempt maxAttempts →
      Moves m (.reader r) .quiet (m.setReader r (.start (attempt + 1) maxAttempts))
  | begin {r : Nat} {attempt maxAttempts : Int} :
      m.readers r = .start attempt maxAttempts → m.lock.seq &&& 1 = 0 →
      Moves m (.reader r) (.began r)
        (m.setReader r (.copying attempt maxAttempts m.lock.seq 0 (fun _ => 0)))
  | fail {r : Nat} {attempt maxAttempts : Int} :
      m.readers r = .start attempt maxAttempts → ¬attempt < maxAttempts →
      Moves m (.reader r) (.failed r) (m.setReader r .idle)
  | copy {r : Nat} {attempt maxAttempts : Int} {before : UInt32} {i : Nat}
      {staging : Payload W} (h : i < W) :
      m.readers r = .copying attempt maxAttempts before i staging →
      Moves m (.reader r) .quiet
        (m.setReader r (.copying attempt maxAttempts before (i + 1)
          (Function.update staging ⟨i, h⟩ (m.lock.words ⟨i, h⟩))))
  | accept {r : Nat} {attempt maxAttempts : Int} {i : Nat} {staging : Payload W} :
      m.readers r = .copying attempt maxAttempts m.lock.seq i staging → ¬i < W →
      Moves m (.reader r) (.loaded r staging) (m.setReader r .idle)
  | reject {r : Nat} {attempt maxAttempts : Int} {before : UInt32} {i : Nat}
      {staging : Payload W} :
      m.readers r = .copying attempt maxAttempts before i staging → m.lock.seq ≠ before →
      Moves m (.reader r) .quiet (m.setReader r (.start (attempt + 1) maxAttempts))

variable {m m' : SharedSeqlock W} {op : SeqlockOp W} {out : SeqlockOut W}

theorem storeStep_moves (hs : m.storeStep = .ok (m', out)) : Moves m .writer out m' := by
  unfold storeStep at hs
  cases hw : m.writer with
  | idle => simp [hw] at hs
  | loaded value seq =>
      simp only [hw] at hs
      cases hs
      exact .odd hw
  | writing value seq i =>
      simp only [hw] at hs
      by_cases hi : i < W
      · rw [dif_pos hi] at hs
        cases hs
        exact .word hi hw
      · rw [dif_neg hi] at hs
        cases hs
        exact .even hw hi

theorem loadStep_moves {r : Nat} (hs : m.loadStep r = .ok (m', out)) :
    Moves m (.reader r) out m' := by
  unfold loadStep at hs
  cases hr : m.readers r with
  | idle => simp [hr] at hs
  | start attempt maxAttempts =>
      simp only [hr] at hs
      by_cases ha : attempt < maxAttempts
      · rw [if_pos ha] at hs
        by_cases hodd : m.lock.seq &&& 1 = 0
        · rw [if_neg (not_not_intro hodd)] at hs
          cases hs
          exact .begin hr hodd
        · rw [if_pos hodd] at hs
          cases hs
          exact .busy hr
      · rw [if_neg ha] at hs
        cases hs
        exact .fail hr ha
  | copying attempt maxAttempts before i staging =>
      simp only [hr] at hs
      by_cases hi : i < W
      · rw [dif_pos hi] at hs
        cases hs
        exact .copy hi hr
      · rw [dif_neg hi] at hs
        by_cases heq : m.lock.seq = before
        · subst heq
          rw [if_pos rfl] at hs
          cases hs
          exact .accept hr hi
        · rw [if_neg heq] at hs
          cases hs
          exact .reject hr heq

/-- The ways a step can go. -/
theorem step_moves (hs : m.step op = .ok (m', out)) : Moves m op out m' := by
  cases op with
  | store value =>
      cases hw : m.writer <;> simp only [step, hw, reduceCtorEq] at hs
      cases hs
      exact .store hw
  | writer => exact storeStep_moves hs
  | load r maxAttempts =>
      cases hr : m.readers r <;> simp only [step, hr, reduceCtorEq] at hs
      cases hs
      exact .call hr
  | reader r => exact loadStep_moves hs

/-- What a run did, from its history. -/
structure Journal (W : Nat) where
  /-- the values whose `store` returned, oldest first -/
  stored : List (Payload W)
  /-- how many had returned when the present `load` of a reader was called -/
  calledAt : Nat → Nat
  /-- how many had returned when its present attempt loaded the sequence -/
  beganAt : Nat → Nat

abbrev Trace (W : Nat) :=
  List (Transition (SharedSeqlock W) (SeqlockOp W) (SeqlockOut W))

def Journal.empty : Journal W :=
  { stored := [], calledAt := fun _ => 0, beganAt := fun _ => 0 }

def Journal.note (j : Journal W)
    (tr : Transition (SharedSeqlock W) (SeqlockOp W) (SeqlockOut W)) : Journal W :=
  match tr.out with
  | .stored value => { j with stored := j.stored ++ [value] }
  | .called r => { j with calledAt := Function.update j.calledAt r j.stored.length }
  | .began r => { j with beganAt := Function.update j.beganAt r j.stored.length }
  | _ => j

def journal (h : Trace W) : Journal W :=
  h.foldl Journal.note Journal.empty

/-- The newest value, the initial zeros if there is none. -/
def Journal.newest (j : Journal W) : Payload W :=
  j.stored.getLastD (fun _ => 0)

/-- The words between the stores of the writer. -/
def WordsOk (m : SharedSeqlock W) (newest : Payload W) : Prop :=
  match m.writer with
  | .idle => m.lock.words = newest
  | .loaded _ seq => m.lock.words = newest ∧ seq = m.lock.seq
  | .writing value seq i => m.lock.seq = seq + 1 ∧
      ∀ k : Fin W, m.lock.words k = if k.val < i then value k else newest k

/-- The copy of a reader, as far as it has come. -/
def CopyOk (m : SharedSeqlock W) (j : Journal W) (r : Nat) : Prop :=
  match m.readers r with
  | .idle => True
  | .start _ _ => j.calledAt r ≤ j.stored.length
  | .copying _ _ before i staging =>
      j.calledAt r ≤ j.beganAt r ∧ j.beganAt r ≤ j.stored.length ∧
      before = UInt32.ofNat (2 * j.beganAt r) ∧
      -- nothing is known of the copy once a store has begun
      (j.beganAt r = j.stored.length → m.writer.odd = 0 →
        ∀ k : Fin W, k.val < i → staging k = j.newest k)

structure Published (m : SharedSeqlock W) (j : Journal W) : Prop where
  seq : m.lock.seq = UInt32.ofNat (2 * j.stored.length + m.writer.odd)
  words : m.WordsOk j.newest
  copies : ∀ r, m.CopyOk j r

variable {j : Journal W}

theorem Journal.getElem?_newest (j : Journal W) :
    ((fun _ => 0) :: j.stored)[j.stored.length]? = some j.newest := by
  rcases List.eq_nil_or_concat j.stored with hnil | ⟨l, value, hlast⟩
  · simp [Journal.newest, hnil]
  · simp [Journal.newest, hlast]

theorem odd_le_one (pc : StorePc W) : pc.odd ≤ 1 := by
  cases pc <;> simp [StorePc.odd]

/-- An even sequence means that no store is in progress. -/
theorem odd_eq_zero {n : Nat} {pc : StorePc W}
    (heven : UInt32.ofNat (2 * n + pc.odd) &&& 1 = 0) : pc.odd = 0 := by
  have hle := odd_le_one pc
  have hmod := congrArg UInt32.toNat heven
  rw [UInt32.toNat_and, UInt32.toNat_one, Nat.and_one_is_mod, UInt32.toNat_ofNat',
    UInt32.toNat_zero] at hmod
  omega

/-- The sequence comes back to the same value only after `2 ^ 31` stores. -/
theorem seq_inj {b n : Nat} {pc : StorePc W} (hle : b ≤ n) (hfew : n - b < 2 ^ 31)
    (heq : UInt32.ofNat (2 * n + pc.odd) = UInt32.ofNat (2 * b)) : n = b ∧ pc.odd = 0 := by
  have hodd := odd_le_one pc
  have hmod := congrArg UInt32.toNat heq
  rw [UInt32.toNat_ofNat', UInt32.toNat_ofNat'] at hmod
  omega

theorem Published.start : Published (start : SharedSeqlock W) Journal.empty := by
  refine ⟨rfl, rfl, ?_⟩
  intro r
  trivial

/-- With no store in progress the words are the newest value. -/
theorem WordsOk.of_even {newest : Payload W} (hw : m.WordsOk newest) (heven : m.writer.odd = 0) :
    m.lock.words = newest := by
  unfold WordsOk at hw
  cases hpc : m.writer with
  | idle => simpa [hpc] using hw
  | loaded value seq =>
      rw [hpc] at hw
      exact hw.1
  | writing value seq i => simp [hpc, StorePc.odd] at heven

/-- A step of one reader. -/
theorem Published.setReader (hp : Published m j) {j' : Journal W} {r : Nat} {pc : LoadPc W}
    (hstored : j'.stored = j.stored)
    (hcalled : ∀ q, q ≠ r → j'.calledAt q = j.calledAt q)
    (hbegan : ∀ q, q ≠ r → j'.beganAt q = j.beganAt q)
    (hcopy : CopyOk (m.setReader r pc) j' r) : Published (m.setReader r pc) j' := by
  have hnewest : j'.newest = j.newest := by
    unfold Journal.newest
    rw [hstored]
  refine ⟨?_, ?_, ?_⟩
  · rw [hstored]
    exact hp.seq
  · rw [hnewest]
    exact hp.words
  · intro q
    by_cases hq : q = r
    · subst hq
      exact hcopy
    · have hold := hp.copies q
      unfold CopyOk at hold ⊢
      simp only [SharedSeqlock.setReader, Function.update_of_ne hq] at hold ⊢
      rw [hstored, hcalled q hq, hbegan q hq, hnewest]
      exact hold

/-- A step of the writer that returns nothing. -/
theorem Published.setWriter (hp : Published m j) {lock : Seqlock W} {pc : StorePc W}
    (hseq : lock.seq = UInt32.ofNat (2 * j.stored.length + pc.odd))
    (hwords : WordsOk { m with lock := lock, writer := pc } j.newest)
    (hodd : pc.odd = 0 → m.writer.odd = 0) :
    Published { m with lock := lock, writer := pc } j := by
  refine ⟨hseq, hwords, ?_⟩
  intro r
  have hold := hp.copies r
  unfold CopyOk at hold ⊢
  cases hr : m.readers r with
  | idle => trivial
  | start a n =>
      simp only [hr] at hold ⊢
      exact hold
  | copying a n before i staging =>
      simp only [hr] at hold ⊢
      obtain ⟨hcalled, hbegan, hbefore, hcopy⟩ := hold
      exact ⟨hcalled, hbegan, hbefore, fun heq h => hcopy heq (hodd h)⟩

theorem Published.store (hp : Published m j) {value : Payload W} (hw : m.writer = .idle) :
    Published { m with writer := .loaded value m.lock.seq } j := by
  have hseq := hp.seq
  rw [hw] at hseq
  refine hp.setWriter hseq ⟨hp.words.of_even (by rw [hw]; rfl), rfl⟩ ?_
  intro _
  rw [hw]
  rfl

theorem Published.odd (hp : Published m j) {value : Payload W} {seq : UInt32}
    (hw : m.writer = .loaded value seq) :
    Published
      { m with lock := { m.lock with seq := seq + 1 }, writer := .writing value seq 0 } j := by
  have hwords := hp.words
  simp only [WordsOk, hw] at hwords
  obtain ⟨hnewest, rfl⟩ := hwords
  refine hp.setWriter ?_ ⟨rfl, ?_⟩ (by simp [StorePc.odd])
  · have hseq := hp.seq
    rw [hw] at hseq
    rw [hseq]
    exact (UInt32.ofNat_add _ _).symm
  · intro k
    simp [hnewest]

theorem Published.word (hp : Published m j) {value : Payload W} {seq : UInt32} {i : Nat}
    (h : i < W) (hw : m.writer = .writing value seq i) :
    Published
      { m with
        lock := { m.lock with words := Function.update m.lock.words ⟨i, h⟩ (value ⟨i, h⟩) }
        writer := .writing value seq (i + 1) } j := by
  have hwords := hp.words
  simp only [WordsOk, hw] at hwords
  have hseq := hp.seq
  rw [hw] at hseq
  refine hp.setWriter hseq ⟨hwords.1, ?_⟩ (by simp [StorePc.odd])
  intro k
  by_cases hk : k = ⟨i, h⟩
  · subst hk
    simp
  · have hne : k.val ≠ i := fun hv => hk (Fin.ext hv)
    have hlt : k.val < i + 1 ↔ k.val < i := by omega
    simp only [Function.update_of_ne hk, hwords.2 k, hlt]

/-- The `store` returns: its value is the newest, and every copy is out of date. -/
theorem Published.even (hp : Published m j) {value : Payload W} {seq : UInt32} {i : Nat}
    (hw : m.writer = .writing value seq i) (hi : ¬i < W) :
    Published { m with lock := { m.lock with seq := seq + 2 }, writer := .idle }
      { j with stored := j.stored ++ [value] } := by
  have hwords := hp.words
  simp only [WordsOk, hw] at hwords
  have hseq := hp.seq
  rw [hw, hwords.1] at hseq
  refine ⟨?_, ?_, ?_⟩
  · have hnext : seq + 2 = seq + 1 + 1 := (UInt32.add_assoc seq 1 1).symm
    have hlen : 2 * (j.stored ++ [value]).length + 0 = 2 * j.stored.length + 1 + 1 := by
      simp
      omega
    simp only [StorePc.odd] at hseq ⊢
    rw [hnext, hseq, hlen]
    exact (UInt32.ofNat_add _ _).symm
  · have hall : m.lock.words = value := by
      funext k
      have hk : k.val < i := by omega
      rw [hwords.2 k, if_pos hk]
    simpa [WordsOk, Journal.newest] using hall
  · intro r
    have hold := hp.copies r
    unfold CopyOk at hold ⊢
    cases hr : m.readers r with
    | idle => trivial
    | start a n =>
        simp only [hr, List.length_append] at hold ⊢
        omega
    | copying a n before k staging =>
        simp only [hr, List.length_append, List.length_singleton] at hold ⊢
        obtain ⟨hcalled, hbegan, hbefore, -⟩ := hold
        refine ⟨hcalled, by omega, hbefore, ?_⟩
        intro heq
        omega

/-- An attempt begins. -/
theorem Published.begin (hp : Published m j) {r : Nat} {attempt maxAttempts : Int}
    (hr : m.readers r = .start attempt maxAttempts) (heven : m.lock.seq &&& 1 = 0) :
    Published (m.setReader r (.copying attempt maxAttempts m.lock.seq 0 (fun _ => 0)))
      { j with beganAt := Function.update j.beganAt r j.stored.length } := by
  refine hp.setReader rfl (fun _ _ => rfl) (fun q hq => by simp [hq]) ?_
  have hold := hp.copies r
  simp only [CopyOk, hr] at hold
  have hseq := hp.seq
  rw [hseq] at heven
  rw [odd_eq_zero heven] at hseq
  simp only [CopyOk, SharedSeqlock.setReader, Function.update_self]
  exact ⟨hold, Nat.le_refl _, hseq, by simp⟩

theorem Published.copy (hp : Published m j) {r : Nat} {attempt maxAttempts : Int}
    {before : UInt32} {i : Nat} {staging : Payload W} (h : i < W)
    (hr : m.readers r = .copying attempt maxAttempts before i staging) :
    Published (m.setReader r (.copying attempt maxAttempts before (i + 1)
      (Function.update staging ⟨i, h⟩ (m.lock.words ⟨i, h⟩)))) j := by
  refine hp.setReader rfl (fun _ _ => rfl) (fun _ _ => rfl) ?_
  have hold := hp.copies r
  simp only [CopyOk, hr] at hold
  obtain ⟨hcalled, hbegan, hbefore, hcopy⟩ := hold
  simp only [CopyOk, SharedSeqlock.setReader, Function.update_self]
  refine ⟨hcalled, hbegan, hbefore, ?_⟩
  intro heq heven k hk
  by_cases hki : k = ⟨i, h⟩
  · subst hki
    rw [Function.update_self, hp.words.of_even heven]
  · have hlt : k.val < i := by
      have hne : k.val ≠ i := fun hv => hki (Fin.ext hv)
      omega
    rw [Function.update_of_ne hki]
    exact hcopy heq heven k hlt

theorem Published.moves (hp : Published m j) (hm : Moves m op out m') :
    Published m' (j.note ⟨m, op, out, m'⟩) := by
  cases hm with
  | store hw => exact hp.store hw
  | odd hw => exact hp.odd hw
  | word h hw => exact hp.word h hw
  | even hw hi => exact hp.even hw hi
  | call hr =>
      refine hp.setReader rfl (fun q hq => by simp [Journal.note, hq]) (fun _ _ => rfl) ?_
      simp [CopyOk, SharedSeqlock.setReader, Journal.note]
  | @busy r a n hr =>
      refine hp.setReader rfl (fun _ _ => rfl) (fun _ _ => rfl) ?_
      have hold := hp.copies r
      simp only [CopyOk, hr] at hold
      simpa [CopyOk, SharedSeqlock.setReader, Journal.note] using hold
  | begin hr heven => exact hp.begin hr heven
  | fail hr =>
      refine hp.setReader rfl (fun _ _ => rfl) (fun _ _ => rfl) ?_
      simp [CopyOk, SharedSeqlock.setReader]
  | copy h hr => exact hp.copy h hr
  | accept hr =>
      refine hp.setReader rfl (fun _ _ => rfl) (fun _ _ => rfl) ?_
      simp [CopyOk, SharedSeqlock.setReader]
  | @reject r a n before i staging hr =>
      refine hp.setReader rfl (fun _ _ => rfl) (fun _ _ => rfl) ?_
      have hold := hp.copies r
      simp only [CopyOk, hr] at hold
      have hle : j.calledAt r ≤ j.stored.length := Nat.le_trans hold.1 hold.2.1
      simpa [CopyOk, SharedSeqlock.setReader, Journal.note] using hle

theorem reaches_published {h : Trace W} (hrun : Run step start h m) :
    Published m (journal h) := by
  refine hrun.simulate (R := fun m j => Published m j) (G := fun _ => True) ?_ ?_
    (fun _ _ => trivial)
  · exact Published.start
  · intro m j op m' out hp hs _
    exact hp.moves (step_moves hs)

/-- A `load` that returns true, with fewer than `2 ^ 31` stores during its last attempt,
returns the words of one value of the sequence of all values, and not of one before the
last that was stored when the `load` was called. -/
theorem seqlock_never_torn {h : Trace W} (hrun : Run step start h m) {r : Nat}
    {value : Payload W} (hload : m.step (.reader r) = .ok (m', .loaded r value))
    (hfew : (journal h).stored.length - (journal h).beganAt r < 2 ^ 31) :
    ∃ k, (journal h).calledAt r ≤ k ∧
      ((fun _ => 0) :: (journal h).stored)[k]? = some value := by
  have hp := reaches_published hrun
  cases step_moves hload with
  | accept hr hi =>
      have hold := hp.copies r
      simp only [CopyOk, hr] at hold
      obtain ⟨hcalled, hbegan, hbefore, hcopy⟩ := hold
      rw [hp.seq] at hbefore
      obtain ⟨hn, heven⟩ := seq_inj hbegan hfew hbefore
      have hvalue : value = (journal h).newest := by
        funext k
        exact hcopy hn.symm heven k (by omega)
      refine ⟨(journal h).stored.length, by omega, ?_⟩
      rw [hvalue]
      exact (journal h).getElem?_newest

/-- A reader copies its first word, a store goes by, and the next attempt returns what
was stored. -/
theorem seqlock_never_torn_retry :
    ∃ (h : Trace 2) (m m' : SharedSeqlock 2) (value : Payload 2), Run step start h m ∧
      m.step (.reader 0) = .ok (m', .loaded 0 value) ∧ value 0 = 7 ∧ value 1 = 8 ∧
      ∃ k, (journal h).calledAt 0 ≤ k ∧
        ((fun _ => 0) :: (journal h).stored)[k]? = some value := by
  have hex : execCheck step (start : SharedSeqlock 2)
      [.load 0 64, .reader 0, .reader 0, .store (fun k => if k = 0 then 7 else 8), .writer,
        .writer, .writer, .writer, .reader 0, .reader 0, .reader 0, .reader 0, .reader 0]
      (fun h m => decide ((journal h).stored.length - (journal h).beganAt 0 < 2 ^ 31) &&
        returnsWith (m.step (.reader 0)) (fun r => (r.2.returned 0).any
          (fun value => decide (value 0 = 7 ∧ value 1 = 8)))) = true := by
    decide +kernel
  obtain ⟨h, m, hrun, hcheck⟩ := Run.of_execCheck hex
  obtain ⟨hfew, hret⟩ := Bool.and_eq_true_iff.mp hcheck
  obtain ⟨⟨m', out⟩, hstep, hany⟩ := returnsWith_iff.mp hret
  cases hvalue : out.returned 0 with
  | none => simp [hvalue] at hany
  | some value =>
      obtain rfl := SeqlockOut.eq_loaded hvalue
      obtain ⟨h0, h1⟩ : value 0 = 7 ∧ value 1 = 8 := by simpa [hvalue] using hany
      exact ⟨h, m, m', value, hrun, hstep, h0, h1,
        seqlock_never_torn hrun hstep (of_decide_eq_true hfew)⟩

end SharedSeqlock
end GtpMeter
