import GtpMeter.Seqlock
import GtpMeter.SingleWriter

/-!
# The sequence lock in release/acquire memory

`Seqlock` from `seqlock.hpp` with its memory orders: every load and store is `relaxed`,
`store` has a release fence after the odd sequence and one before the even sequence,
and `load` has an acquire fence before and after it copies the words.  A load may return
an old value, each word on its own.

The fences tie the words to the sequence.  A reader that finds a word of store `n` will
find the sequence at least odd for store `n`; one that finds the sequence even after
store `n` will find no word older than store `n`.

**Results.**
* `Consistent.step`: the sequence and the words, step by step.
* `seqlock_release_acquire`: every value that `load` returns is one stored value as a
  whole, and a reader never goes back to an older one.
-/

namespace GtpMeter

open Runs ReleaseAcquire

inductive SeqlockLoc (W : Nat) where
  | seq
  | word (i : Fin W)
deriving DecidableEq

inductive SeqlockThread where
  | writer
  | reader (i : Nat)
deriving DecidableEq

/-- A location holds 64 bits, of which the sequence uses the low half. -/
abbrev SeqlockMemory (W : Nat) := Memory (SeqlockLoc W) SeqlockThread Empty UInt64 Unit

/-- A sequence lock in shared memory, with its writer and its readers. -/
structure AtomicSeqlock (W : Nat) where
  memory : SeqlockMemory W
  writer : StorePc W
  readers : Nat → LoadPc W

/-- The value whose `store` returned. -/
def SeqlockOut.completed {W : Nat} : SeqlockOut W → List (Payload W)
  | .stored value => [value]
  | _ => []

/-- 1 if the store in progress has stored word `i`. -/
def StorePc.wrote {W : Nat} (pc : StorePc W) (i : Fin W) : Nat :=
  match pc with
  | .writing _ _ k => if i.val < k then 1 else 0
  | _ => 0

namespace AtomicSeqlock

variable {W : Nat}

section Steps

/-- A new lock. -/
def start : AtomicSeqlock W :=
  { memory := .init (fun _ => 0) (fun _ => ())
    writer := .idle
    readers := fun _ => .idle }

def setReader (m : AtomicSeqlock W) (i : Nat) (memory : SeqlockMemory W) (pc : LoadPc W) :
    AtomicSeqlock W :=
  { m with memory := memory, readers := Function.update m.readers i pc }

/-- The next step of `store`, with the timestamp of its store.  A fence goes with the
store next to it. -/
def storeStep (m : AtomicSeqlock W) (ts : Nat) :
    Except Refused (AtomicSeqlock W × SeqlockOut W) :=
  match m.writer with
  | .idle => .error .blocked
  | .loaded value seq => do
      let memory ← m.memory.store .writer .relaxed .seq (seq + 1).toUInt64 ts
      .ok ({ m with
        memory := memory.fenceRelease .writer
        writer := .writing value seq 0 }, .quiet)
  | .writing value seq i =>
      if h : i < W then do
        let memory ← m.memory.store .writer .relaxed (.word ⟨i, h⟩) (value ⟨i, h⟩) ts
        .ok ({ m with memory := memory, writer := .writing value seq (i + 1) }, .quiet)
      else do
        let memory ←
          (m.memory.fenceRelease .writer).store .writer .relaxed .seq (seq + 2).toUInt64 ts
        .ok ({ m with memory := memory, writer := .idle }, .stored value)

/-- The next step of `load` in reader `r`, with the timestamp of its load. -/
def loadStep (m : AtomicSeqlock W) (r ts : Nat) :
    Except Refused (AtomicSeqlock W × SeqlockOut W) :=
  match m.readers r with
  | .idle => .error .blocked
  | .start attempt maxAttempts =>
      if attempt < maxAttempts then do
        let (before, memory) ← m.memory.load (.reader r) .relaxed .seq ts
        if before.toUInt32 &&& 1 ≠ 0 then
          .ok (m.setReader r memory (.start (attempt + 1) maxAttempts), .quiet)
        else
          -- the staging words are not initialised in the source
          let pc := .copying attempt maxAttempts before.toUInt32 0 (fun _ => 0)
          .ok (m.setReader r (memory.fenceAcquire (.reader r)) pc, .began r)
      else .ok (m.setReader r m.memory .idle, .failed r)
  | .copying attempt maxAttempts before i staging =>
      if h : i < W then do
        let (word, memory) ← m.memory.load (.reader r) .relaxed (.word ⟨i, h⟩) ts
        let staging := Function.update staging ⟨i, h⟩ word
        .ok (m.setReader r memory (.copying attempt maxAttempts before (i + 1) staging), .quiet)
      else do
        let (after, memory) ←
          (m.memory.fenceAcquire (.reader r)).load (.reader r) .relaxed .seq ts
        if after.toUInt32 = before then .ok (m.setReader r memory .idle, .loaded r staging)
        else .ok (m.setReader r memory (.start (attempt + 1) maxAttempts), .quiet)

/-- A step, with the timestamp of its load or store. -/
def step (m : AtomicSeqlock W) (op : SeqlockOp W × Nat) :
    Except Refused (AtomicSeqlock W × SeqlockOut W) :=
  match op.1 with
  | .store value =>
      match m.writer with
      | .idle => do
          let (seq, memory) ← m.memory.load .writer .relaxed .seq op.2
          .ok ({ m with memory := memory, writer := .loaded value seq.toUInt32 }, .quiet)
      | _ => .error .blocked
  | .writer => m.storeStep op.2
  | .load r maxAttempts =>
      match m.readers r with
      | .idle => .ok (m.setReader r m.memory (.start 0 maxAttempts), .called r)
      | _ => .error .blocked
  | .reader r => m.loadStep r op.2

end Steps

section Versions

variable {stored stored' : List (Payload W)} {v : Payload W} {n : Nat}

/-- Value number `n` of all values: the initial zeros, and then those stored. -/
def version (stored : List (Payload W)) (n : Nat) : Payload W :=
  ((fun _ => 0) :: stored).getD n (fun _ => 0)

theorem version_append (hn : n ≤ stored.length) :
    version (stored ++ stored') n = version stored n := by
  unfold version
  rw [List.getD_eq_getElem?_getD, List.getD_eq_getElem?_getD, ← List.cons_append,
    List.getElem?_append_left]
  rw [List.length_cons]
  omega

theorem version_last : version (stored ++ [v]) (stored.length + 1) = v := by
  simp [version]

end Versions

section Invariant

variable {m m' : AtomicSeqlock W} {stored : List (Payload W)} {sl sl' : Nat → Nat}
  {wl wl' : Fin W → Nat → Nat} {floor : Nat → Nat} {r ts : Nat} {out : SeqlockOut W}

/-- The values stored, and the one that is being stored. -/
def values (m : AtomicSeqlock W) (stored : List (Payload W)) : List (Payload W) :=
  match m.writer with
  | .idle => stored
  | .loaded value _ => stored ++ [value]
  | .writing value _ _ => stored ++ [value]

/-- Who knows the sequence at `n` knows the words of the stores that were complete. -/
def SeqKnows (wl : Fin W → Nat → Nat) (n : Nat) (view : View (SeqlockLoc W) SeqlockThread) : Prop :=
  ∀ i, n / 2 ≤ wl i (view (.inl (.word i)))

/-- Who knows a word of store `n` knows that the sequence was odd for it. -/
def WordKnows (sl : Nat → Nat) (n : Nat) (view : View (SeqlockLoc W) SeqlockThread) : Prop :=
  2 * n ≤ sl (view (.inl .seq)) + 1

theorem WordKnows.mono {sl sl' : Nat → Nat} (hsl : ∀ t, sl t ≤ sl' t) {n : Nat}
    {view : View (SeqlockLoc W) SeqlockThread} (hk : WordKnows sl n view) :
    WordKnows sl' n view :=
  le_trans hk (Nat.add_le_add_right (hsl _) 1)

/-- What the writer has at each place of `store`, with `c` stores complete. -/
def WriterOk (c : Nat) (sl : Nat → Nat) (wl : Fin W → Nat → Nat)
    (rel : View (SeqlockLoc W) SeqlockThread) : StorePc W → Prop
  | .idle => ∀ i, c ≤ wl i (rel (.inl (.word i)))
  | .loaded _ seq => seq = UInt32.ofNat (2 * c) ∧ ∀ i, c ≤ wl i (rel (.inl (.word i)))
  | .writing _ seq _ => seq = UInt32.ofNat (2 * c) ∧ 2 * c + 1 ≤ sl (rel (.inl .seq))

/-- What a reader has: `floor` is the number of the value it returned last, and a copy in
progress began when value `b` was complete. -/
def ReaderOk (values : List (Payload W)) (sl : Nat → Nat) (wl : Fin W → Nat → Nat) (floor : Nat)
    (th : Thread (SeqlockLoc W) SeqlockThread) (pc : LoadPc W) : Prop :=
  2 * floor ≤ sl (th.cur (.inl .seq)) ∧
  match pc with
  | .copying _ _ before i staging =>
      ∃ b, floor ≤ b ∧ before = UInt32.ofNat (2 * b) ∧ 2 * b ≤ sl (th.cur (.inl .seq)) ∧
        (∀ k, b ≤ wl k (th.cur (.inl (.word k)))) ∧
        ∀ k : Fin W, k.val < i → ∃ n, b ≤ n ∧ n ≤ values.length ∧
          staging k = version values n k ∧ 2 * n ≤ sl (th.acq (.inl .seq)) + 1
  | _ => True

/-- The invariant: the numbered stores to the sequence and to every word, and what the
writer and the readers have. -/
structure Consistent (m : AtomicSeqlock W) (stored : List (Payload W)) (sl : Nat → Nat)
    (wl : Fin W → Nat → Nat) (floor : Nat → Nat) : Prop where
  seq : m.memory.Timeline .seq .writer (fun n => (UInt32.ofNat n).toUInt64) (SeqKnows wl)
    (2 * stored.length + m.writer.odd) sl
  word : ∀ i, m.memory.Timeline (.word i) .writer (fun n => version (m.values stored) n i)
    (WordKnows sl) (stored.length + m.writer.wrote i) (wl i)
  writer : WriterOk stored.length sl wl (m.memory.threads .writer).rel m.writer
  readers : ∀ r, ReaderOk (m.values stored) sl wl (floor r) (m.memory.threads (.reader r))
    (m.readers r)

theorem Consistent.start : Consistent (start : AtomicSeqlock W) [] (fun _ => 0) (fun _ _ => 0)
    (fun _ => 0) :=
  { seq := Memory.init_timeline rfl (fun _ => le_rfl)
    word := fun _ => Memory.init_timeline rfl (Nat.zero_le _)
    writer := fun _ => le_rfl
    readers := fun _ => ⟨le_rfl, trivial⟩ }

/-- More stores do not disturb a reader. -/
theorem ReaderOk.mono {values values' : List (Payload W)} {f : Nat}
    {th : Thread (SeqlockLoc W) SeqlockThread} {pc : LoadPc W}
    (hr : ReaderOk values sl wl f th pc) (hsl : ∀ t, sl t ≤ sl' t) (hwl : ∀ k t, wl k t ≤ wl' k t)
    (hvalues : values <+: values') : ReaderOk values' sl' wl' f th pc := by
  obtain ⟨hfloor, hcopy⟩ := hr
  refine ⟨le_trans hfloor (hsl _), ?_⟩
  cases pc with
  | copying attempt maxAttempts before i staging =>
      obtain ⟨b, hb, hbefore, hseq, hwords, hstaging⟩ := hcopy
      refine ⟨b, hb, hbefore, le_trans hseq (hsl _), fun k => le_trans (hwords k) (hwl k _), ?_⟩
      intro k hk
      obtain ⟨n, hbn, hn, hval, hknown⟩ := hstaging k hk
      obtain ⟨more, rfl⟩ := hvalues
      refine ⟨n, hbn, ?_, ?_, ?_⟩
      · rw [List.length_append]
        exact Nat.le_add_right_of_le hn
      · rw [version_append hn, hval]
      · exact le_trans hknown (Nat.add_le_add_right (hsl _) 1)
  | _ => trivial

/-- A step of a reader leaves the stores as they are, and the other threads. -/
structure Kept (m : AtomicSeqlock W) (stored : List (Payload W)) (sl : Nat → Nat)
    (wl : Fin W → Nat → Nat) (r : Nat) (memory : SeqlockMemory W) : Prop where
  seq : memory.Timeline .seq .writer (fun n => (UInt32.ofNat n).toUInt64) (SeqKnows wl)
    (2 * stored.length + m.writer.odd) sl
  word : ∀ i, memory.Timeline (.word i) .writer (fun n => version (m.values stored) n i)
    (WordKnows sl) (stored.length + m.writer.wrote i) (wl i)
  threads : ∀ t, t ≠ .reader r → memory.threads t = m.memory.threads t

variable {memory memory' : SeqlockMemory W}

theorem Consistent.kept (hc : Consistent m stored sl wl floor) (r : Nat) :
    Kept m stored sl wl r m.memory :=
  ⟨hc.seq, hc.word, fun _ _ => rfl⟩

theorem Kept.load {o : LoadOrder} {l : SeqlockLoc W} {val : UInt64}
    (hk : Kept m stored sl wl r memory)
    (h : memory.load (.reader r) o l ts = .ok (val, memory')) : Kept m stored sl wl r memory' := by
  refine ⟨hk.seq.load h, fun i => (hk.word i).load h, ?_⟩
  obtain ⟨msg, -, -, -, rfl⟩ := Memory.load_ok h
  intro t ht
  rw [Memory.onThread_ne ht, hk.threads t ht]

theorem Kept.fence (hk : Kept m stored sl wl r memory) :
    Kept m stored sl wl r (memory.fenceAcquire (.reader r)) := by
  refine ⟨hk.seq.fenceAcquire, fun i => (hk.word i).fenceAcquire, ?_⟩
  intro t ht
  rw [Memory.fenceAcquire, Memory.onThread_ne ht, hk.threads t ht]

theorem Consistent.setReader {f : Nat} {pc : LoadPc W} (hc : Consistent m stored sl wl floor)
    (hk : Kept m stored sl wl r memory)
    (hpc : ReaderOk (m.values stored) sl wl f (memory.threads (.reader r)) pc) :
    Consistent (m.setReader r memory pc) stored sl wl (Function.update floor r f) := by
  refine ⟨hk.seq, hk.word, ?_, ?_⟩
  · simp only [AtomicSeqlock.setReader, hk.threads .writer SeqlockThread.noConfusion]
    exact hc.writer
  · intro u
    by_cases hu : u = r
    · subst hu
      simp only [AtomicSeqlock.setReader, Function.update_self]
      exact hpc
    · have hne : SeqlockThread.reader u ≠ .reader r := fun heq => hu (SeqlockThread.reader.inj heq)
      simp only [AtomicSeqlock.setReader, Function.update_of_ne hu, hk.threads _ hne]
      exact hc.readers u

/-- A load or store of the writer, as its readers see it. -/
theorem Consistent.readers_mono {stored' : List (Payload W)} {pc : StorePc W}
    (hc : Consistent m stored sl wl floor)
    (hthreads : ∀ r, memory.threads (.reader r) = m.memory.threads (.reader r))
    (hsl : ∀ t, sl t ≤ sl' t) (hwl : ∀ k t, wl k t ≤ wl' k t)
    (hvalues : m.values stored <+:
      ({ m with memory := memory, writer := pc } : AtomicSeqlock W).values stored') (r : Nat) :
    ReaderOk (({ m with memory := memory, writer := pc } : AtomicSeqlock W).values stored') sl' wl'
      (floor r) (memory.threads (.reader r)) (m.readers r) := by
  rw [hthreads]
  exact (hc.readers r).mono hsl hwl hvalues

/-- `store` loads the sequence. -/
theorem Consistent.store {value : Payload W} {seq : UInt64} (hc : Consistent m stored sl wl floor)
    (hw : m.writer = .idle)
    (hload : m.memory.load .writer .relaxed .seq ts = .ok (seq, memory)) :
    Consistent { m with memory := memory, writer := .loaded value seq.toUInt32 } stored sl wl
      floor := by
  have hown := hc.seq.load_own hload
  have hseq := hc.seq.load hload
  have hword := fun i => (hc.word i).load hload
  have hwriter := hc.writer
  have hvalues : m.values stored = stored := by
    unfold values
    rw [hw]
  rw [hw] at hown hseq hwriter
  simp only [hw, hvalues] at hword
  refine ⟨hseq, ?_, ⟨?_, ?_⟩, ?_⟩
  · intro i
    refine (hword i).imp (fun n v hn hk => ⟨?_, hk⟩)
    simp only [StorePc.wrote, Nat.add_zero] at hn
    simp only [values, version_append hn]
  · rw [hown]
    exact UInt32.toUInt32_toUInt64 _
  · obtain ⟨msg, -, -, -, rfl⟩ := Memory.load_ok hload
    simp only [Memory.onThread_self, Thread.observe_rel, Thread.advance_rel]
    exact hwriter
  · refine hc.readers_mono ?_ (fun _ => le_rfl) (fun _ _ => le_rfl) ?_
    · obtain ⟨msg, -, -, -, rfl⟩ := Memory.load_ok hload
      exact fun r => Memory.onThread_ne SeqlockThread.noConfusion
    · rw [hvalues]
      exact List.prefix_append _ _

theorem seq_ne_word (i : Fin W) : SeqlockLoc.seq ≠ .word i := by
  simp

/-- What a `relaxed` store of a thread passes on from its last release fence. -/
theorem rel_le_released {t : SeqlockThread} (l : SeqlockLoc W) (ts : Nat) :
    (memory.threads t).rel ≤
      ((memory.threads t).advance (.inl l) ts).released .relaxed l ts :=
  le_sup_left

theorem store_threads {so : StoreOrder} {l : SeqlockLoc W} {val : UInt64}
    (hstore : memory.store .writer so l val ts = .ok memory') (r : Nat) :
    memory'.threads (.reader r) = memory.threads (.reader r) := by
  obtain ⟨-, rfl⟩ := Memory.store_ok hstore
  rw [Memory.publish_threads, Memory.onThread_ne SeqlockThread.noConfusion]

/-- `store` makes the sequence odd. -/
theorem Consistent.odd {value : Payload W} {seq : UInt32} (hc : Consistent m stored sl wl floor)
    (hw : m.writer = .loaded value seq)
    (hstore : m.memory.store .writer .relaxed .seq (seq + 1).toUInt64 ts = .ok memory) :
    Consistent
      { m with memory := memory.fenceRelease .writer, writer := .writing value seq 0 } stored
      (Memory.logged sl ts (2 * stored.length + 1)) wl floor := by
  have hseq := hc.seq
  have hwriter := hc.writer
  rw [hw] at hseq hwriter
  obtain ⟨rfl, hrel⟩ := hwriter
  have hval : UInt32.ofNat (2 * stored.length) + 1 = UInt32.ofNat (2 * stored.length + 1) := by
    rw [UInt32.ofNat_add]
    rfl
  rw [hval] at hstore
  have hsl : ∀ t, sl t ≤ Memory.logged sl ts (2 * stored.length + 1) t :=
    Memory.le_logged (fun t => le_trans (hseq.bounded t) (Nat.le_succ _))
  have hseq' := (hseq.store (n := 2 * stored.length + 1) (Nat.le_succ _) hstore (by
    intro i
    refine le_trans ?_ ((hc.word i).ordered _ _ (rel_le_released _ _ _))
    exact le_trans (by omega) (hrel i))).fenceRelease (t := .writer)
  refine ⟨hseq', ?_, ⟨rfl, ?_⟩, ?_⟩
  · intro i
    have hknows := ((hc.word i).store_ne (seq_ne_word i) hstore).imp
      (fun _ _ _ hk => ⟨rfl, WordKnows.mono hsl hk⟩)
    have hword := hknows.fenceRelease (t := .writer)
    simp only [hw, values, StorePc.wrote] at hword ⊢
    simpa using hword
  · have hnew := hseq'.newest_eq
    rw [Memory.fenceRelease_cur] at hnew
    rw [Memory.fenceRelease_rel]
    exact hnew.ge
  · refine hc.readers_mono ?_ hsl (fun _ _ => le_rfl) ?_
    · intro r
      rw [Memory.fenceRelease, Memory.onThread_ne SeqlockThread.noConfusion, store_threads hstore]
    · simp only [values, hw]
      exact List.prefix_refl _

/-- `store` stores a word. -/
theorem Consistent.word_store {value : Payload W} {seq : UInt32} {i : Nat}
    (hc : Consistent m stored sl wl floor) (hw : m.writer = .writing value seq i) (hi : i < W)
    (hstore : m.memory.store .writer .relaxed (.word ⟨i, hi⟩) (value ⟨i, hi⟩) ts = .ok memory) :
    Consistent { m with memory := memory, writer := .writing value seq (i + 1) } stored sl
      (Function.update wl ⟨i, hi⟩ (Memory.logged (wl ⟨i, hi⟩) ts (stored.length + 1))) floor := by
  have hwriter := hc.writer
  rw [hw] at hwriter
  obtain ⟨hseq, hrel⟩ := hwriter
  have hvalues : m.values stored = stored ++ [value] := by
    unfold values
    rw [hw]
  have hword := hc.word
  simp only [hvalues] at hword
  have hnew : value ⟨i, hi⟩ = version (stored ++ [value]) (stored.length + 1) ⟨i, hi⟩ := by
    rw [version_last]
  have hbound : ∀ t, wl ⟨i, hi⟩ t ≤ stored.length + 1 := by
    intro t
    have hle := (hword ⟨i, hi⟩).bounded t
    simp only [hw, StorePc.wrote, lt_irrefl, if_false] at hle
    omega
  have hwl : ∀ k t, wl k t ≤
      Function.update wl ⟨i, hi⟩ (Memory.logged (wl ⟨i, hi⟩) ts (stored.length + 1)) k t := by
    intro k t
    by_cases hk : k = ⟨i, hi⟩
    · subst hk
      rw [Function.update_self]
      exact Memory.le_logged hbound t
    · rw [Function.update_of_ne hk]
  refine ⟨?_, ?_, ⟨hseq, ?_⟩, ?_⟩
  · have htime := (hc.seq.store_ne (seq_ne_word _).symm hstore).imp
      (fun n v _ hk => ⟨rfl, fun k => le_trans (hk k) (hwl k _)⟩)
    rw [hw] at htime
    exact htime
  · intro k
    by_cases hk : k = ⟨i, hi⟩
    · subst hk
      rw [hnew] at hstore
      have htime := (hword ⟨i, hi⟩).store (n := stored.length + 1) (by
        simp only [hw, StorePc.wrote, lt_irrefl, if_false]
        omega) hstore (by
        refine le_trans ?_ (Nat.add_le_add_right
          (hc.seq.ordered _ _ (rel_le_released (.word ⟨i, hi⟩) ts _)) 1)
        omega)
      simpa [values, StorePc.wrote] using htime
    · have hne : SeqlockLoc.word ⟨i, hi⟩ ≠ .word k := fun heq => hk (SeqlockLoc.word.inj heq).symm
      have htime := (hword k).store_ne hne hstore
      have hsame : (if k.val < i then 1 else 0) = if k.val < i + 1 then 1 else 0 := by
        have hki : k.val ≠ i := fun heq => hk (Fin.ext heq)
        split_ifs <;> omega
      simp only [hw, StorePc.wrote, hsame] at htime
      simpa [values, StorePc.wrote, Function.update_of_ne hk] using htime
  · obtain ⟨-, rfl⟩ := Memory.store_ok hstore
    simp only [Memory.publish_threads, Memory.onThread_self, Thread.advance_rel]
    exact hrel
  · refine hc.readers_mono (store_threads hstore) (fun _ => le_rfl) hwl ?_
    rw [hvalues]
    exact List.prefix_refl _

/-- `store` makes the sequence even and returns. -/
theorem Consistent.even {value : Payload W} {seq : UInt32} {i : Nat}
    (hc : Consistent m stored sl wl floor) (hw : m.writer = .writing value seq i) (hi : ¬i < W)
    (hstore : (m.memory.fenceRelease .writer).store .writer .relaxed .seq (seq + 2).toUInt64 ts =
      .ok memory) :
    Consistent { m with memory := memory, writer := .idle } (stored ++ [value])
      (Memory.logged sl ts (2 * (stored.length + 1))) wl floor := by
  have hwriter := hc.writer
  rw [hw] at hwriter
  obtain ⟨rfl, -⟩ := hwriter
  have hvalues : m.values stored = stored ++ [value] := by
    unfold values
    rw [hw]
  have hseq := hc.seq.fenceRelease (t := .writer)
  have hword := fun k => (hc.word k).fenceRelease (t := .writer)
  have hwrote : ∀ k, m.writer.wrote k = 1 := by
    intro k
    simp only [hw, StorePc.wrote]
    rw [if_pos (by omega)]
  simp only [hwrote, hvalues] at hword
  rw [hw] at hseq
  have hval : UInt32.ofNat (2 * stored.length) + 2 = UInt32.ofNat (2 * (stored.length + 1)) := by
    rw [Nat.mul_add, UInt32.ofNat_add]
    rfl
  rw [hval] at hstore
  have hsl : ∀ t, sl t ≤ Memory.logged sl ts (2 * (stored.length + 1)) t :=
    Memory.le_logged (fun t => le_trans (hseq.bounded t) (by simp only [StorePc.odd]; omega))
  -- at the fence the writer knows all words of this store
  have hrel : ∀ k, stored.length + 1 ≤
      wl k (((m.memory.fenceRelease .writer).threads .writer).rel (.inl (.word k))) := by
    intro k
    have hnew := (hword k).newest_eq
    rw [Memory.fenceRelease_cur] at hnew
    rw [Memory.fenceRelease_rel]
    exact hnew.ge
  refine ⟨?_, ?_, ?_, ?_⟩
  · have htime := hseq.store (n := 2 * (stored.length + 1)) (by simp only [StorePc.odd]; omega)
      hstore (by
        intro k
        refine le_trans ?_ ((hword k).ordered _ _ (rel_le_released _ _ _))
        exact le_trans (by omega) (hrel k))
    simpa [StorePc.odd] using htime
  · intro k
    have htime := ((hword k).store_ne (seq_ne_word k) hstore).imp
      (fun _ _ _ hk => ⟨rfl, WordKnows.mono hsl hk⟩)
    simpa [values, StorePc.wrote] using htime
  · obtain ⟨-, rfl⟩ := Memory.store_ok hstore
    intro k
    rw [List.length_append, Memory.publish_threads, Memory.onThread_self, Thread.advance_rel]
    exact hrel k
  · refine hc.readers_mono ?_ hsl (fun _ _ => le_rfl) ?_
    · intro r
      rw [store_threads hstore, Memory.fenceRelease, Memory.onThread_ne SeqlockThread.noConfusion]
    · rw [hvalues]
      exact List.prefix_refl _

theorem even_of_and {n : Nat} (heven : UInt32.ofNat n &&& 1 = 0) : 2 * (n / 2) = n := by
  have hbit : (UInt32.ofNat n &&& 1).toNat = n % 2 := by
    rw [UInt32.toNat_and, UInt32.toNat_ofNat', show (1 : UInt32).toNat = 1 from rfl,
      Nat.and_one_is_mod]
    omega
  rw [heven, show (0 : UInt32).toNat = 0 from rfl] at hbit
  omega

/-- `load` finds the sequence even and passes its first fence. -/
theorem Consistent.begin {before : UInt64} (hc : Consistent m stored sl wl floor)
    (attempt maxAttempts : Int)
    (hload : m.memory.load (.reader r) .relaxed .seq ts = .ok (before, memory))
    (heven : before.toUInt32 &&& 1 = 0) :
    ReaderOk (m.values stored) sl wl (floor r)
      ((memory.fenceAcquire (.reader r)).threads (.reader r))
      (.copying attempt maxAttempts before.toUInt32 0 (fun _ => 0)) := by
  obtain ⟨msg, hmsg, rfl, hknows, hle, hat⟩ := hc.seq.load_val hload
  rw [UInt32.toUInt32_toUInt64] at heven ⊢
  have hn := even_of_and heven
  have hfloor := (hc.readers r).1
  have hseq : sl ts ≤ sl ((memory.threads (.reader r)).acq (.inl .seq)) := by
    refine hc.seq.ordered _ _ ?_
    rw [← hat]
    exact (memory.threads (.reader r)).cur_le _
  have hview : msg.view ≤ (memory.threads (.reader r)).acq := by
    obtain ⟨msg', hmsg', -, -, rfl⟩ := Memory.load_ok hload
    obtain rfl : msg' = msg := Option.some.inj (hmsg'.symm.trans hmsg)
    rw [Memory.onThread_self]
    exact Thread.observe_acq
  refine ⟨?_, sl ts / 2, by omega, by rw [hn], ?_, ?_, ?_⟩
  · rw [Memory.fenceAcquire_cur]
    omega
  · rw [Memory.fenceAcquire_cur]
    omega
  · intro k
    rw [Memory.fenceAcquire_cur]
    exact le_trans (hknows k) ((hc.word k).ordered _ _ (hview _))
  · intro k hk
    exact absurd hk (Nat.not_lt_zero _)

theorem wrote_le (m : AtomicSeqlock W) (stored : List (Payload W)) (i : Fin W) :
    stored.length + m.writer.wrote i ≤ (m.values stored).length := by
  unfold values StorePc.wrote
  cases m.writer with
  | writing value seq k =>
      dsimp only
      rw [List.length_append, List.length_singleton]
      split_ifs <;> omega
  | _ => simp

/-- `load` copies a word. -/
theorem Consistent.copy {attempt maxAttempts : Int} {before : UInt32} {i : Nat}
    {staging : Payload W} {word : UInt64} (hc : Consistent m stored sl wl floor)
    (hr : m.readers r = .copying attempt maxAttempts before i staging) (hi : i < W)
    (hload : m.memory.load (.reader r) .relaxed (.word ⟨i, hi⟩) ts = .ok (word, memory)) :
    ReaderOk (m.values stored) sl wl (floor r) (memory.threads (.reader r))
      (.copying attempt maxAttempts before (i + 1) (Function.update staging ⟨i, hi⟩ word)) := by
  obtain ⟨msg, hmsg, rfl, hknows, hle, -⟩ := (hc.word ⟨i, hi⟩).load_val hload
  obtain ⟨hfloor, hcopy⟩ := hc.readers r
  rw [hr] at hcopy
  obtain ⟨b, hb, hbefore, hseq, hwords, hstaging⟩ := hcopy
  obtain ⟨hcur, hacq, hview⟩ :
      (m.memory.threads (.reader r)).cur ≤ (memory.threads (.reader r)).cur ∧
      (m.memory.threads (.reader r)).acq ≤ (memory.threads (.reader r)).acq ∧
      msg.view ≤ (memory.threads (.reader r)).acq := by
    obtain ⟨msg', hmsg', -, -, rfl⟩ := Memory.load_ok hload
    obtain rfl : msg' = msg := Option.some.inj (hmsg'.symm.trans hmsg)
    rw [Memory.onThread_self]
    exact ⟨le_trans Thread.le_advance Thread.le_observe,
      le_trans Thread.le_advance_acq Thread.le_observe_acq, Thread.observe_acq⟩
  refine ⟨le_trans hfloor (hc.seq.ordered _ _ (hcur _)), b, hb, hbefore,
    le_trans hseq (hc.seq.ordered _ _ (hcur _)),
    fun k => le_trans (hwords k) ((hc.word k).ordered _ _ (hcur _)), ?_⟩
  intro k hk
  by_cases heq : k = ⟨i, hi⟩
  · subst heq
    refine ⟨wl ⟨i, hi⟩ ts, le_trans (hwords _) hle, ?_, Function.update_self .., ?_⟩
    · exact le_trans ((hc.word _).bounded ts) (wrote_le m stored _)
    · exact le_trans hknows (Nat.add_le_add_right (hc.seq.ordered _ _ (hview _)) 1)
  · have hlt : k.val < i := by
      have hne : k.val ≠ i := fun h => heq (Fin.ext h)
      omega
    obtain ⟨n, hbn, hn, hval, hknown⟩ := hstaging k hlt
    refine ⟨n, hbn, hn, ?_, le_trans hknown
      (Nat.add_le_add_right (hc.seq.ordered _ _ (hacq _)) 1)⟩
    rw [Function.update_of_ne heq, hval]

theorem version_values {n : Nat} (hn : n ≤ stored.length) :
    version (m.values stored) n = version stored n := by
  unfold values
  cases m.writer with
  | idle => rfl
  | _ => exact version_append hn

/-- `load` finds the sequence as it was and returns. -/
theorem Consistent.accept {attempt maxAttempts : Int} {before : UInt32} {i : Nat}
    {staging : Payload W} {after : UInt64} (hc : Consistent m stored sl wl floor)
    (hfew : stored.length < 2 ^ 31)
    (hr : m.readers r = .copying attempt maxAttempts before i staging) (hi : ¬i < W)
    (hload : (m.memory.fenceAcquire (.reader r)).load (.reader r) .relaxed .seq ts =
      .ok (after, memory))
    (hsame : after.toUInt32 = before) :
    ∃ b, floor r ≤ b ∧ b ≤ stored.length ∧ staging = version stored b ∧
      ReaderOk (m.values stored) sl wl b (memory.threads (.reader r)) .idle := by
  obtain ⟨msg, -, rfl, -, hle, hat⟩ := hc.seq.fenceAcquire.load_val hload
  have hcopy := (hc.readers r).2
  rw [hr] at hcopy
  obtain ⟨b, hb, rfl, hseq, -, hstaging⟩ := hcopy
  have hodd := SharedSeqlock.odd_le_one m.writer
  have hbound := hc.seq.bounded
  rw [Memory.fenceAcquire_cur] at hle
  rw [UInt32.toUInt32_toUInt64] at hsame
  -- fewer than `2 ^ 32` steps of the sequence: the word determines it
  have hsl : sl ts = 2 * b := by
    have hnat := congrArg UInt32.toNat hsame
    have hts := hbound ts
    have hb' := le_trans hseq (hbound _)
    rw [UInt32.toNat_ofNat', UInt32.toNat_ofNat'] at hnat
    omega
  have hblen : b ≤ stored.length := by
    have := le_trans hseq (hbound _)
    omega
  refine ⟨b, hb, hblen, ?_, ?_, trivial⟩
  · funext k
    obtain ⟨n, hbn, -, hval, hknown⟩ := hstaging k (by omega)
    obtain rfl : n = b := by omega
    rw [hval, version_values hblen]
  · rw [hat, hsl]

/-- After a step: the invariant holds, no reader has gone back, and what a `load` returns
is the value that its reader has come to. -/
def Advances (stored : List (Payload W)) (floor : Nat → Nat)
    (s : AtomicSeqlock W × SeqlockOut W) : Prop :=
  ∃ sl' wl' floor', Consistent s.1 (stored ++ s.2.completed) sl' wl' floor' ∧
    (∀ u, floor u ≤ floor' u) ∧
    ∀ u value, s.2.returned u = some value →
      floor' u ≤ stored.length ∧ value = version stored (floor' u)

theorem Consistent.advances (hc : Consistent m' (stored ++ out.completed) sl wl floor)
    (hnone : ∀ u, out.returned u = none) : Advances stored floor (m', out) :=
  ⟨sl, wl, floor, hc, fun _ => le_rfl, fun u value hu => by simp [hnone u] at hu⟩

/-- A step at which no call returns a value. -/
theorem Consistent.quiet (hc : Consistent m' stored sl wl floor) (hdone : out.completed = [])
    (hnone : ∀ u, out.returned u = none) : Advances stored floor (m', out) := by
  rw [← List.append_nil stored, ← hdone] at hc
  exact hc.advances hnone

/-- A reader goes on. -/
theorem Consistent.goes (hc : Consistent m stored sl wl floor) {pc : LoadPc W}
    (hk : Kept m stored sl wl r memory)
    (hpc : ReaderOk (m.values stored) sl wl (floor r) (memory.threads (.reader r)) pc)
    (hdone : out.completed = []) (hnone : ∀ u, out.returned u = none) :
    Advances stored floor (m.setReader r memory pc, out) := by
  have hc' := hc.setReader hk hpc
  rw [Function.update_eq_self] at hc'
  exact hc'.quiet hdone hnone

/-- A reader is between two attempts. -/
theorem Consistent.rest (hc : Consistent m stored sl wl floor) {pc : LoadPc W}
    (hk : Kept m stored sl wl r memory)
    (hle : (m.memory.threads (.reader r)).cur ≤ (memory.threads (.reader r)).cur)
    (hpc : ∀ attempt maxAttempts before i staging,
      pc ≠ .copying attempt maxAttempts before i staging) (hdone : out.completed = [])
    (hnone : ∀ u, out.returned u = none) :
    Advances stored floor (m.setReader r memory pc, out) := by
  have hfloor := le_trans (hc.readers r).1 (hc.seq.ordered _ _ (hle _))
  refine hc.goes hk ⟨hfloor, ?_⟩ hdone hnone
  cases pc with
  | copying attempt maxAttempts before i staging => exact absurd rfl (hpc _ _ _ _ _)
  | _ => trivial

theorem Consistent.storeStep (hc : Consistent m stored sl wl floor) :
    Safe (m.storeStep ts) (Advances stored floor) := by
  unfold AtomicSeqlock.storeStep
  cases hw : m.writer with
  | idle => exact .blocked
  | loaded value seq =>
      exact Memory.store_safe.bind (fun memory hstore =>
        (hc.odd hw hstore).quiet rfl (fun _ => rfl))
  | writing value seq i =>
      dsimp only
      split_ifs with hi
      · exact Memory.store_safe.bind (fun memory hstore =>
          (hc.word_store hw hi hstore).quiet rfl (fun _ => rfl))
      · exact Memory.store_safe.bind (fun memory hstore =>
          (hc.even hw hi hstore).advances (fun _ => rfl))

theorem Consistent.loadStep (hc : Consistent m stored sl wl floor)
    (hfew : stored.length < 2 ^ 31) : Safe (m.loadStep r ts) (Advances stored floor) := by
  unfold AtomicSeqlock.loadStep
  cases hr : m.readers r with
  | idle => exact .blocked
  | start attempt maxAttempts =>
      dsimp only
      split_ifs with hmore
      · refine Memory.load_safe.bind ?_
        rintro ⟨before, memory⟩ hload
        have hkept := (hc.kept r).load hload
        dsimp only
        split_ifs with hodd
        · exact hc.rest hkept ((Memory.load_frame hload).2.2 _) (by simp) rfl (fun _ => rfl)
        · exact hc.goes hkept.fence (hc.begin attempt maxAttempts hload (not_not.mp hodd)) rfl
            (fun _ => rfl)
      · exact hc.rest (hc.kept r) le_rfl (by simp) rfl (fun _ => rfl)
  | copying attempt maxAttempts before i staging =>
      dsimp only
      split_ifs with hi
      · refine Memory.load_safe.bind ?_
        rintro ⟨word, memory⟩ hload
        exact hc.goes ((hc.kept r).load hload) (hc.copy hr hi hload) rfl (fun _ => rfl)
      · refine Memory.load_safe.bind ?_
        rintro ⟨after, memory⟩ hload
        have hkept := (hc.kept r).fence.load hload
        dsimp only
        split_ifs with hsame
        · obtain ⟨b, hb, hlen, hvalue, hpc⟩ := hc.accept hfew hr hi hload hsame
          refine ⟨sl, wl, Function.update floor r b, ?_, ?_, ?_⟩
          · exact (List.append_nil stored).symm ▸ hc.setReader hkept hpc
          · intro u
            by_cases hu : u = r
            · subst hu
              rwa [Function.update_self]
            · rw [Function.update_of_ne hu]
          · intro u value hu
            obtain ⟨rfl, rfl⟩ := SeqlockOut.loaded.inj (SeqlockOut.eq_loaded hu)
            rw [Function.update_self]
            exact ⟨hlen, hvalue⟩
        · refine hc.rest hkept ?_ (by simp) rfl (fun _ => rfl)
          refine le_trans ?_ ((Memory.load_frame hload).2.2 _)
          rw [Memory.fenceAcquire_cur]
          exact (m.memory.threads (.reader r)).cur_le

/-- The invariant survives every step. -/
theorem Consistent.step (hc : Consistent m stored sl wl floor) (hfew : stored.length < 2 ^ 31)
    (op : SeqlockOp W × Nat) : Safe (m.step op) (Advances stored floor) := by
  obtain ⟨op, ts⟩ := op
  cases op with
  | store value =>
      simp only [AtomicSeqlock.step]
      cases hw : m.writer with
      | idle =>
          refine Memory.load_safe.bind ?_
          rintro ⟨seq, memory⟩ hload
          exact (hc.store hw hload).quiet rfl (fun _ => rfl)
      | _ => exact .blocked
  | writer => exact hc.storeStep
  | load r maxAttempts =>
      simp only [AtomicSeqlock.step]
      cases hr : m.readers r with
      | idle => exact hc.rest (hc.kept r) le_rfl (by simp) rfl (fun _ => rfl)
      | _ => exact .blocked
  | reader r => exact hc.loadStep hfew

end Invariant

section Runs

variable {m : AtomicSeqlock W}

abbrev Trace (W : Nat) :=
  List (Transition (AtomicSeqlock W) (SeqlockOp W × Nat) (SeqlockOut W))

/-- The values whose `store` returned, oldest first. -/
def storedOf (h : Trace W) : List (Payload W) :=
  h.flatMap (fun tr => tr.out.completed)

/-- The values that `load` returned to reader `r`, oldest first. -/
def loadedOf (r : Nat) (h : Trace W) : List (Payload W) :=
  h.filterMap (fun tr => tr.out.returned r)

/-- The values that a reader has got are stored values, up to number `f` and in order. -/
def InOrder (stored : List (Payload W)) (f : Nat) (loaded : List (Payload W)) : Prop :=
  ∃ versions : List Nat, versions.Pairwise (· ≤ ·) ∧
    (∀ n ∈ versions, n ≤ f ∧ n ≤ stored.length) ∧ loaded = versions.map (version stored)

theorem InOrder.mono {stored loaded : List (Payload W)} {f f' : Nat}
    (ho : InOrder stored f loaded) (more : List (Payload W)) (hf : f ≤ f') :
    InOrder (stored ++ more) f' loaded := by
  obtain ⟨versions, hsorted, hle, rfl⟩ := ho
  refine ⟨versions, hsorted, ?_, ?_⟩
  · intro n hn
    obtain ⟨hnf, hlen⟩ := hle n hn
    rw [List.length_append]
    exact ⟨le_trans hnf hf, Nat.le_add_right_of_le hlen⟩
  · exact List.map_congr_left (fun n hn => (version_append (hle n hn).2).symm)

theorem InOrder.snoc {stored loaded : List (Payload W)} {f : Nat} (ho : InOrder stored f loaded)
    (hlen : f ≤ stored.length) : InOrder stored f (loaded ++ [version stored f]) := by
  obtain ⟨versions, hsorted, hle, rfl⟩ := ho
  refine ⟨versions ++ [f], ?_, ?_, by simp⟩
  · refine List.pairwise_append.mpr ⟨hsorted, List.pairwise_singleton _ _, ?_⟩
    intro n hn k hk
    obtain rfl := List.mem_singleton.mp hk
    exact (hle n hn).1
  · intro n hn
    rcases List.mem_append.mp hn with hn | hn
    · exact hle n hn
    · obtain rfl := List.mem_singleton.mp hn
      exact ⟨le_rfl, hlen⟩

theorem reaches_consistent {h : Trace W} (hrun : Run step start h m)
    (hfew : (storedOf h).length < 2 ^ 31) :
    ∃ sl wl floor, Consistent m (storedOf h) sl wl floor ∧
      ∀ r, InOrder (storedOf h) (floor r) (loadedOf r h) := by
  induction hrun with
  | nil => exact ⟨_, _, _, Consistent.start, fun _ => ⟨[], .nil, by simp, rfl⟩⟩
  | @snoc h s s' op out hprev hs ih =>
      simp only [storedOf, List.flatMap_append, List.flatMap_singleton, List.length_append] at hfew
      obtain ⟨sl, wl, floor, hc, horder⟩ := ih (by unfold storedOf; omega)
      obtain ⟨sl', wl', floor', hc', hfloor, hret⟩ :=
        (hc.step (by unfold storedOf; omega) op).returns hs
      refine ⟨sl', wl', floor', by simpa [storedOf] using hc', ?_⟩
      intro r
      have hold := (horder r).mono [] (hfloor r)
      rw [List.append_nil] at hold
      have hnew : InOrder (storedOf h) (floor' r) (loadedOf r h ++ (out.returned r).toList) := by
        cases hu : out.returned r with
        | none => simpa using hold
        | some value =>
            obtain ⟨hlen, rfl⟩ := hret r value hu
            exact hold.snoc hlen
      have hgrown := hnew.mono out.completed le_rfl
      cases hu : out.returned r <;> simpa [storedOf, loadedOf, hu] using hgrown

/-- Over any run with fewer than `2 ^ 31` stores, what the loads of a reader return are
whole stored values (or the initial zeros), and in the order in which they were stored. -/
theorem seqlock_release_acquire {h : Trace W} (hrun : Run step start h m)
    (hfew : (storedOf h).length < 2 ^ 31) (r : Nat) :
    ∃ versions : List Nat, versions.Pairwise (· ≤ ·) ∧
      (∀ n ∈ versions, n ≤ (storedOf h).length) ∧
      loadedOf r h = versions.map (version (storedOf h)) := by
  obtain ⟨sl, wl, floor, -, horder⟩ := reaches_consistent hrun hfew
  obtain ⟨versions, hsorted, hle, hloaded⟩ := horder r
  exact ⟨versions, hsorted, fun n hn => (hle n hn).2, hloaded⟩

/-- A reader finds the sequence of before a store and a word of after it, and tries
again; another reads only old values and returns the initial zeros. -/
theorem seqlock_release_acquire_two :
    ∃ (h : Trace 2) (m : AtomicSeqlock 2), Run step start h m ∧
      (loadedOf 0 h).map (fun v => (v 0, v 1)) = [(7, 8)] ∧
      (loadedOf 1 h).map (fun v => (v 0, v 1)) = [(0, 0)] ∧
      ∃ versions : List Nat, versions.Pairwise (· ≤ ·) ∧
        (∀ n ∈ versions, n ≤ (storedOf h).length) ∧
        loadedOf 0 h = versions.map (version (storedOf h)) := by
  have hex : execCheck step (start : AtomicSeqlock 2)
      [(.store (fun k => if k = 0 then 7 else 8), 0), (.writer, 2), (.writer, 3), (.writer, 3),
        (.writer, 4), (.load 0 64, 0), (.load 1 64, 0), (.reader 0, 0), (.reader 1, 0),
        (.reader 0, 0), (.reader 0, 3), (.reader 0, 2), (.reader 0, 4), (.reader 0, 3),
        (.reader 0, 3), (.reader 0, 4), (.reader 1, 0), (.reader 1, 0), (.reader 1, 0)]
      (fun h _ => decide ((storedOf h).length < 2 ^ 31 ∧
        (loadedOf 0 h).map (fun v => (v 0, v 1)) = [(7, 8)] ∧
        (loadedOf 1 h).map (fun v => (v 0, v 1)) = [(0, 0)])) = true := by
    decide +kernel
  obtain ⟨h, m, hrun, hcheck⟩ := Run.of_execCheck hex
  obtain ⟨hfew, hfirst, hsecond⟩ := of_decide_eq_true hcheck
  exact ⟨h, m, hrun, hfirst, hsecond, seqlock_release_acquire hrun hfew 0⟩

end Runs

end AtomicSeqlock
end GtpMeter
