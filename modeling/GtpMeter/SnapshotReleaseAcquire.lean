import GtpMeter.SnapshotPublisher
import GtpMeter.UpdateChains

/-!
# Publication of snapshots in release/acquire memory

`SnapshotPublisher` from `snapshot.hpp` with its memory orders.  The buffers are plain
memory.  The writer claims a buffer with an `acquire` exchange of its count from 0 and
gives it back with a `release` store of 0; a reader pins it with an `acquire` exchange
and lets go with a `release` decrement.  Every load, of `current_` or of a count, may
return an old value.

Between two stores of 0 the count of a buffer is a chain of updates, each right behind
the one before, and what one of them passes on reaches all that follow.  So the writer
that finds 0 at the end of the chain knows of every read that was made through a handle,
and a reader that gets on the chain knows of every write.

**Results.**
* `Pinned.step`: the counts, the buffers and what the threads know, step by step.
* `snapshot_release_acquire`: no step of any run is a data race, and a handle shows the
  contents that were last handed to `commit` in its buffer.
-/

namespace GtpMeter

open Runs ReleaseAcquire

inductive SnapshotLoc (N : Nat) where
  | current
  | version
  | refs (s : Fin N)
deriving DecidableEq

inductive SnapshotThread where
  | writer
  | reader (i : Nat)
deriving DecidableEq

/-- The value of an atomic of the publisher. -/
inductive SnapshotWord (N : Nat) where
  | index (idx : Option (Fin N))
  | version (value : UInt64)
  | count (refs : UInt32)
deriving DecidableEq

namespace SnapshotWord

variable {N : Nat}

/-- `fetch_add(1)`. -/
def succ : SnapshotWord N → SnapshotWord N
  | .index idx => .index idx
  | .version value => .version (value + 1)
  | .count refs => .count (refs + 1)

/-- `fetch_sub(1)`. -/
def pred : SnapshotWord N → SnapshotWord N
  | .index idx => .index idx
  | .version value => .version (value - 1)
  | .count refs => .count (refs - 1)

end SnapshotWord

abbrev SnapshotMemory (V : Type) (N : Nat) :=
  Memory (SnapshotLoc N) SnapshotThread (Fin N) (SnapshotWord N) V

/-- A publisher in shared memory, with its writer, its readers and the handles that
exist, each with the reader that holds it. -/
structure AtomicSnapshots (V : Type) (N : Nat) where
  memory : SnapshotMemory V N
  writeHint : Nat
  writing : Option (Fin N)
  writer : WriterPc N
  readers : Nat → ReaderPc N
  live : List (Nat × Fin N)

inductive AtomicSnapshotOp (V : Type) (N : Nat) where
  | beginWrite
  | fill (value : V)
  | commit
  | writer
  | read (reader : Nat)
  | reader (reader : Nat) (spurious : Bool)
  /-- the contents are read through a handle -/
  | look (reader : Nat) (idx : Fin N)
  | drop (reader : Nat) (idx : Fin N)

/-- What a step did, for the caller or for the record. -/
inductive AtomicSnapshotOut (V : Type) (N : Nat) where
  | quiet
  | claimed (idx : Fin N)
  /-- `begin_write` returned `nullptr` -/
  | failed
  /-- `commit` was handed this buffer with these contents -/
  | handed (idx : Fin N) (value : V)
  /-- `read` returned an empty handle -/
  | invalid (reader : Nat)
  /-- `read` returned a handle -/
  | pinned (reader : Nat) (idx : Fin N)
  /-- what a handle showed -/
  | seen (reader : Nat) (idx : Fin N) (value : V)

/-- The step handed nothing to `commit` and showed nothing to a reader. -/
def AtomicSnapshotOut.silent {V : Type} {N : Nat} : AtomicSnapshotOut V N → Bool
  | .handed _ _ => false
  | .seen _ _ _ => false
  | _ => true

/-- What a handle showed, to whom. -/
def AtomicSnapshotOut.shown {V : Type} {N : Nat} :
    AtomicSnapshotOut V N → Option (Nat × Fin N × V)
  | .seen reader idx value => some (reader, idx, value)
  | _ => none

theorem AtomicSnapshotOut.eq_seen {V : Type} {N i : Nat} {idx : Fin N} {value : V}
    {out : AtomicSnapshotOut V N} (hout : out.shown = some (i, idx, value)) :
    out = .seen i idx value := by
  cases out with
  | seen reader idx' value' =>
      obtain ⟨rfl, rfl, rfl⟩ := by simpa [shown] using hout
      rfl
  | _ => cases hout

namespace AtomicSnapshots

variable {V : Type} {N : Nat}

section Steps

/-- The buffer that `begin_write` looks at in an attempt. -/
def slotAt [NeZero N] (m : AtomicSnapshots V N) (attempt : Nat) : Fin N :=
  Fin.ofNat N (m.writeHint + attempt)

def setReader (m : AtomicSnapshots V N) (i : Nat) (memory : SnapshotMemory V N)
    (pc : ReaderPc N) : AtomicSnapshots V N :=
  { m with memory := memory, readers := Function.update m.readers i pc }

/-- The next step of the writer in a call, with the timestamp of what it loads or
stores. -/
def writerStep [NeZero N] (m : AtomicSnapshots V N) (ts : Nat) :
    Except Refused (AtomicSnapshots V N × AtomicSnapshotOut V N) :=
  match m.writer with
  | .scan current attempt =>
      if attempt < N then
        let idx := m.slotAt attempt
        if current = some idx then .ok ({ m with writer := .scan current (attempt + 1) }, .quiet)
        else do
          let (won, _, memory) ← m.memory.compareExchange .writer .acquire .relaxed (.refs idx)
            (.count 0) (.count kWriterOwned) ts
          if won then
            .ok ({ m with
                memory := memory
                writing := some idx
                writeHint := (idx.val + 1) % N
                writer := .filling }, .claimed idx)
          else .ok ({ m with memory := memory, writer := .scan current (attempt + 1) }, .quiet)
      else .ok ({ m with writer := .idle }, .failed)
  | .stored =>
      match m.writing with
      | some idx => do
          let memory ← m.memory.store .writer .release .current (.index (some idx)) ts
          .ok ({ m with memory := memory, writer := .published }, .quiet)
      | none => .error .blocked
  | .published => do
      let (_, memory) ← m.memory.update .writer .relaxed .release .version SnapshotWord.succ ts
      .ok ({ m with memory := memory, writing := none, writer := .idle }, .quiet)
  | _ => .error .blocked

/-- `commit` up to its first store. -/
def commit (m : AtomicSnapshots V N) (ts : Nat) :
    Except Refused (AtomicSnapshots V N × AtomicSnapshotOut V N) :=
  match m.writing with
  | none => .ok (m, .quiet)
  | some idx => do
      let memory ← m.memory.store .writer .release (.refs idx) (.count 0) ts
      .ok ({ m with memory := memory, writer := .stored },
        .handed idx (m.memory.cells idx).value)

/-- The next step of reader `i` in a call. -/
def readerStep (m : AtomicSnapshots V N) (i : Nat) (spurious : Bool) (ts : Nat) :
    Except Refused (AtomicSnapshots V N × AtomicSnapshotOut V N) :=
  match m.readers i with
  | .idle => .error .blocked
  | .start attempt =>
      if attempt < Snapshots.kReadAttempts then do
        let (word, memory) ← m.memory.load (.reader i) .acquire .current ts
        match word with
        | .index none => .ok (m.setReader i memory .idle, .invalid i)
        | .index (some idx) => .ok (m.setReader i memory (.loaded attempt idx), .quiet)
        | _ => .error .blocked
      else .ok (m.setReader i m.memory .idle, .invalid i)
  | .loaded attempt idx => do
      let (word, memory) ← m.memory.load (.reader i) .relaxed (.refs idx) ts
      match word with
      | .count refs => .ok (m.setReader i memory (.pinning attempt idx refs), .quiet)
      | _ => .error .blocked
  | .pinning attempt idx refs =>
      if refs < kWriterOwned then do
        let (won, word, memory) ← m.memory.compareExchangeWeak (.reader i) .acquire .relaxed
          (.refs idx) (.count refs) (.count (refs + 1)) spurious ts
        if won then
          .ok ({ m.setReader i memory .idle with live := (i, idx) :: m.live }, .pinned i idx)
        else
          match word with
          | .count found => .ok (m.setReader i memory (.pinning attempt idx found), .quiet)
          | _ => .error .blocked
      else .ok (m.setReader i m.memory (.start (attempt + 1)), .quiet)

/-- A step, with the timestamp of what it loads or stores. -/
def step [NeZero N] (m : AtomicSnapshots V N) (op : AtomicSnapshotOp V N × Nat) :
    Except Refused (AtomicSnapshots V N × AtomicSnapshotOut V N) :=
  match op.1 with
  | .beginWrite =>
      match m.writer with
      | .idle => do
          let (word, memory) ← m.memory.load .writer .relaxed .current op.2
          match word with
          | .index current => .ok ({ m with memory := memory, writer := .scan current 0 }, .quiet)
          | _ => .error .blocked
      | _ => .error .blocked
  | .fill value =>
      match m.writer, m.writing with
      | .filling, some idx => do
          let memory ← m.memory.writeCell .writer idx value
          .ok ({ m with memory := memory }, .quiet)
      | _, _ => .error .blocked
  | .commit =>
      match m.writer with
      | .idle => m.commit op.2
      | .filling => m.commit op.2
      | _ => .error .blocked
  | .writer => m.writerStep op.2
  | .read i =>
      match m.readers i with
      | .idle => .ok (m.setReader i m.memory (.start 0), .quiet)
      | _ => .error .blocked
  | .reader i spurious => m.readerStep i spurious op.2
  | .look i idx =>
      if (i, idx) ∈ m.live then do
        let (value, memory) ← m.memory.readCell (.reader i) idx
        .ok ({ m with memory := memory }, .seen i idx value)
      else .error .blocked
  | .drop i idx =>
      if (i, idx) ∈ m.live then do
        let (_, memory) ←
          m.memory.update (.reader i) .relaxed .release (.refs idx) SnapshotWord.pred op.2
        .ok ({ m with memory := memory, live := m.live.erase (i, idx) }, .quiet)
      else .error .blocked

/-- The first value of each atomic. -/
def initial : SnapshotLoc N → SnapshotWord N
  | .current => .index none
  | .version => .version 0
  | .refs _ => .count 0

/-- A new publisher, with `value` in every buffer. -/
def start (value : V) : AtomicSnapshots V N :=
  { memory := .init initial (fun _ => value)
    writeHint := 0
    writing := none
    writer := .idle
    readers := fun _ => .idle
    live := [] }

end Steps

section Invariant

variable {m m' : AtomicSnapshots V N} {handed handed' : Fin N → Option V} {s idx : Fin N}
  {base top ts : Nat} {memory : SnapshotMemory V N} {out : AtomicSnapshotOut V N}

/-- The buffer that the writer owns. -/
def claimed (m : AtomicSnapshots V N) : Option (Fin N) :=
  match m.writer with
  | .filling => m.writing
  | _ => none

/-- The number of handles on a buffer. -/
def handles (live : List (Nat × Fin N)) (s : Fin N) : Nat :=
  live.countP (fun h => h.2 = s)

/-- What holds of a buffer: its count is a chain of updates whose end is the number of
handles, or `kWriterOwned` while the writer owns it; who gets on the chain knows the
writes to the buffer, and at its end all reads are known but those of handles that still
exist. -/
structure SlotOk (m : AtomicSnapshots V N) (handed : Fin N → Option V) (s : Fin N)
    (base top : Nat) : Prop where
  chain : Memory.Chain (m.memory.history (.refs s)) (· = .count kWriterOwned) base top
  free : m.claimed ≠ some s → ∃ msg, m.memory.history (.refs s) top = some msg ∧
    msg.val = .count (UInt32.ofNat (handles m.live s)) ∧ handles m.live s ≤ 2 ^ 31 ∧
    Memory.Known ((m.memory.cells s).done .write) msg.view ∧
    ∀ a ∈ (m.memory.cells s).done .read,
      a.2 ≤ msg.view (.inr a.1) ∨ ∃ i, a.1 = .reader i ∧ (i, s) ∈ m.live
  owned : m.claimed = some s →
    (∀ msg, m.memory.history (.refs s) top = some msg → msg.val = .count kWriterOwned) ∧
    top ≤ (m.memory.threads .writer).cur (.inl (.refs s)) ∧
    Memory.Known ((m.memory.cells s).done .write) (m.memory.threads .writer).cur ∧
    Memory.Known ((m.memory.cells s).done .read) (m.memory.threads .writer).cur ∧
    handles m.live s = 0
  holders : ∀ i, (i, s) ∈ m.live →
    base ≤ (m.memory.threads (.reader i)).cur (.inl (.refs s)) ∧
    Memory.Known ((m.memory.cells s).done .write) (m.memory.threads (.reader i)).cur
  own : ∀ a ∈ (m.memory.cells s).done .read, a.2 ≤ (m.memory.threads a.1).cur (.inr a.1)
  value : ∀ v, handed s = some v → m.claimed ≠ some s → (m.memory.cells s).value = v

/-- The invariant: every buffer, and which buffers `current_` and the readers can name. -/
structure Pinned (m : AtomicSnapshots V N) (handed : Fin N → Option V) : Prop where
  slots : ∀ s, ∃ base top, SlotOk m handed s base top
  current : ∀ ts msg s, m.memory.history .current ts = some msg → msg.val = .index (some s) →
    (handed s).isSome
  aimed : ∀ i s, (m.readers i).aims = some s → (handed s).isSome
  live : ∀ i s, (i, s) ∈ m.live → (handed s).isSome
  stored : m.writer = .stored → ∀ s, m.writing = some s → (handed s).isSome
  writing : m.writing.isSome = m.writer.holds

/-- A step that does not concern the buffer. -/
theorem SlotOk.frame (hs : SlotOk m handed s base top)
    (hhist : m'.memory.history (.refs s) = m.memory.history (.refs s))
    (hcell : m'.memory.cells s = m.memory.cells s)
    (hcur : ∀ t, (m.memory.threads t).cur ≤ (m'.memory.threads t).cur)
    (hlive : ∀ i, (i, s) ∈ m'.live ↔ (i, s) ∈ m.live)
    (hcount : handles m'.live s = handles m.live s)
    (hclaim : m'.claimed = some s ↔ m.claimed = some s) (hhanded : handed' s = handed s) :
    SlotOk m' handed' s base top := by
  refine ⟨hhist ▸ hs.chain, ?_, ?_, ?_, ?_, ?_⟩
  · intro hfree
    obtain ⟨msg, hmsg, hval, hle, hwrites, hreads⟩ := hs.free (fun h => hfree (hclaim.mpr h))
    rw [hhist, hcell, hcount]
    refine ⟨msg, hmsg, hval, hle, hwrites, ?_⟩
    intro a ha
    rcases hreads a ha with hknown | ⟨i, hi, hmem⟩
    · exact .inl hknown
    · exact .inr ⟨i, hi, (hlive i).mpr hmem⟩
  · intro howned
    obtain ⟨hval, htop, hwrites, hreads, hnone⟩ := hs.owned (hclaim.mp howned)
    rw [hhist, hcell, hcount]
    exact ⟨hval, le_trans htop (hcur _ _), hwrites.mono (hcur _), hreads.mono (hcur _), hnone⟩
  · intro i hi
    obtain ⟨hbase, hwrites⟩ := hs.holders i ((hlive i).mp hi)
    rw [hcell]
    exact ⟨le_trans hbase (hcur _ _), hwrites.mono (hcur _)⟩
  · rw [hcell]
    exact fun a ha => le_trans (hs.own a ha) (hcur _ _)
  · intro v hv hne
    rw [hcell]
    exact hs.value v (hhanded ▸ hv) (fun h => hne (hclaim.mpr h))

theorem not_live {live : List (Nat × Fin N)} (hzero : handles live s = 0) (i : Nat) :
    (i, s) ∉ live := by
  intro hi
  have hpos : 0 < handles live s := List.countP_pos_iff.mpr ⟨(i, s), hi, by simp⟩
  omega

/-- A step that concerns no buffer. -/
theorem Pinned.frame (hp : Pinned m handed)
    (hhist : ∀ s, m'.memory.history (.refs s) = m.memory.history (.refs s))
    (hcell : m'.memory.cells = m.memory.cells)
    (hcur : ∀ t, (m.memory.threads t).cur ≤ (m'.memory.threads t).cur)
    (hlive : m'.live = m.live) (hclaim : m'.claimed = m.claimed)
    (hcurrent : ∀ ts msg s, m'.memory.history .current ts = some msg →
      msg.val = .index (some s) → (handed s).isSome)
    (haimed : ∀ i s, (m'.readers i).aims = some s → (handed s).isSome)
    (hstored : m'.writer = .stored → ∀ s, m'.writing = some s → (handed s).isSome)
    (hwriting : m'.writing.isSome = m'.writer.holds) : Pinned m' handed := by
  refine ⟨?_, hcurrent, haimed, by rw [hlive]; exact hp.live, hstored, hwriting⟩
  intro s
  obtain ⟨base, top, hs⟩ := hp.slots s
  refine ⟨base, top, hs.frame (hhist s) (by rw [hcell]) hcur ?_ (by rw [hlive]) (by rw [hclaim])
    rfl⟩
  intro i
  rw [hlive]

/-- The writer moves on without a buffer. -/
theorem Pinned.setWriter {pc : WriterPc N} (hp : Pinned m handed)
    (hhist : memory.history = m.memory.history) (hcell : memory.cells = m.memory.cells)
    (hcur : ∀ t, (m.memory.threads t).cur ≤ (memory.threads t).cur)
    (hw : m.writer.holds = false) (hpc : pc.holds = false) :
    Pinned { m with memory := memory, writer := pc } handed := by
  have hnone : m.writing = none := by
    have hwriting := hp.writing
    rw [hw] at hwriting
    simpa using hwriting
  refine hp.frame (fun s => by rw [hhist]) hcell hcur rfl ?_ ?_ hp.aimed ?_ ?_
  · unfold claimed
    dsimp only
    split <;> split <;> simp_all
  · dsimp only
    rw [hhist]
    exact hp.current
  · rintro rfl
    simp [WriterPc.holds] at hpc
  · dsimp only
    rw [hpc, hnone]
    rfl

/-- A reader loads something. -/
theorem Pinned.setReader {i : Nat} {pc : ReaderPc N} (hp : Pinned m handed)
    (hhist : memory.history = m.memory.history) (hcell : memory.cells = m.memory.cells)
    (hcur : ∀ t, (m.memory.threads t).cur ≤ (memory.threads t).cur)
    (haim : ∀ s, pc.aims = some s → (handed s).isSome) :
    Pinned (m.setReader i memory pc) handed := by
  refine hp.frame (fun s => by rw [← hhist]; rfl) hcell hcur rfl rfl ?_ ?_ hp.stored hp.writing
  · intro ts msg s hmsg
    simp only [AtomicSnapshots.setReader, hhist] at hmsg
    exact hp.current ts msg s hmsg
  · intro j s hs
    by_cases hj : j = i
    · subst hj
      simp only [AtomicSnapshots.setReader, Function.update_self] at hs
      exact haim s hs
    · simp only [AtomicSnapshots.setReader, Function.update_of_ne hj] at hs
      exact hp.aimed j s hs

theorem refs_ne (hne : s ≠ idx) : SnapshotLoc.refs s ≠ .refs idx :=
  fun heq => hne (SnapshotLoc.refs.inj heq)

theorem current_ne (s : Fin N) : SnapshotLoc.current ≠ .refs s := by
  simp

theorem count_zero {n : Nat} (hle : n ≤ 2 ^ 31)
    (h : (SnapshotWord.count 0 : SnapshotWord N) = .count (UInt32.ofNat n)) : n = 0 := by
  have hnat := congrArg UInt32.toNat (SnapshotWord.count.inj h)
  rw [UInt32.toNat_ofNat', show (0 : UInt32).toNat = 0 from rfl] at hnat
  omega

/-- `begin_write` claims a buffer. -/
theorem Pinned.claim {current : Option (Fin N)} {attempt hint : Nat} (hp : Pinned m handed)
    (hw : m.writer = .scan current attempt)
    (hup : m.memory.update .writer .acquire .relaxed (.refs idx) (fun _ => .count kWriterOwned) ts =
      .ok (.count 0, memory)) :
    Pinned
      { m with
        memory := memory
        writing := some idx
        writeHint := hint
        writer := .filling } handed := by
  obtain ⟨hne, hcells, hcur⟩ := Memory.update_frame hup
  have hcl : m.claimed = none := by simp [claimed, hw]
  refine ⟨?_, ?_, hp.aimed, hp.live, by simp, rfl⟩
  · intro s
    obtain ⟨base, top, hs⟩ := hp.slots s
    by_cases heq : s = idx
    · subst heq
      obtain ⟨msg, hmsg, -, hfree, hval, rfl⟩ := Memory.update_ok hup
      have hdead : ¬msg.val = .count kWriterOwned := by
        rw [← hval]
        exact fun h => absurd (SnapshotWord.count.inj h) (by decide)
      obtain rfl := hs.chain.at_top hmsg hfree (.inl hdead)
      obtain ⟨msg', hmsg', hcount, hle, hwrites, hreads⟩ := hs.free (by simp [hcl])
      obtain rfl := Option.some.inj (hmsg.symm.trans hmsg')
      have hzero := count_zero hle (hval.trans hcount)
      refine ⟨base, ts + 1, hs.chain.publish_next, fun h => absurd rfl h, ?_, ?_, ?_, ?_⟩
      · intro _
        have hview : msg.view ≤ (((m.memory.threads .writer).observe .acquire msg.view).advance
            (.inl (.refs s)) (ts + 1)).cur := le_trans Thread.observe_acquire Thread.le_advance
        simp only [Memory.publish_threads, Memory.onThread_self, Memory.publish_cells,
          Memory.onThread_cells]
        refine ⟨?_, ?_, hwrites.mono hview, ?_, hzero⟩
        · intro msg' h
          rw [Memory.publish_self] at h
          rw [← Option.some.inj h]
        · rw [Thread.advance_self]
          exact le_max_right _ _
        · intro a ha
          rcases hreads a ha with hknown | ⟨i, -, hi⟩
          · exact le_trans hknown (hview _)
          · exact absurd hi (not_live hzero i)
      · exact fun i hi => absurd hi (not_live hzero i)
      · exact fun a ha => le_trans (hs.own a ha) (hcur _ _)
      · exact fun v hv h => absurd rfl h
    · refine ⟨base, top, hs.frame (hne _ (refs_ne heq)) (by rw [hcells]) hcur (fun _ => Iff.rfl) rfl
        ?_ rfl⟩
      rw [hcl]
      exact ⟨fun h => absurd (Option.some.inj h).symm heq, fun h => by cases h⟩
  · dsimp only
    rw [hne _ (current_ne idx)]
    exact hp.current

/-- The writer writes to the buffer that it owns. -/
theorem Pinned.fill {value : V} (hp : Pinned m handed) (hw : m.writer = .filling)
    (hidx : m.writing = some idx) :
    Pinned { m with memory := m.memory.touch .writer .write idx value } handed := by
  have hcl : m.claimed = some idx := by simp [claimed, hw, hidx]
  refine ⟨?_, hp.current, hp.aimed, hp.live, hp.stored, hp.writing⟩
  intro s
  obtain ⟨base, top, hs⟩ := hp.slots s
  by_cases heq : s = idx
  · subst heq
    obtain ⟨hval, htop, hwrites, hreads, hzero⟩ := hs.owned hcl
    refine ⟨base, top, hs.chain, fun h => absurd hcl h, fun _ => ⟨hval, ?_, ?_, ?_, hzero⟩, ?_, ?_,
      fun v hv h => absurd hcl h⟩
    · exact le_trans htop (Memory.touch_cur _ _)
    · intro a ha
      simp only [Memory.touch_done, Memory.touch_self] at ha ⊢
      rcases List.mem_cons.mp ha with rfl | ha
      · rw [Thread.advance_self]
        exact le_max_right _ _
      · exact le_trans (hwrites a ha) (Thread.le_advance _)
    · simp only [Memory.touch_done_ne (show Access.read ≠ .write from Access.noConfusion)]
      exact hreads.mono (Memory.touch_cur _)
    · exact fun i hi => absurd hi (not_live hzero i)
    · simp only [Memory.touch_done_ne (show Access.read ≠ .write from Access.noConfusion)]
      exact fun a ha => le_trans (hs.own a ha) (Memory.touch_cur _ _)
  · exact ⟨base, top, hs.frame rfl (Memory.touch_cell_ne heq) Memory.touch_cur (fun _ => Iff.rfl)
      rfl Iff.rfl rfl⟩

theorem isSome_update {v : V} (h : (handed s).isSome) :
    (Function.update handed idx (some v) s).isSome := by
  by_cases heq : s = idx
  · simp [heq]
  · rwa [Function.update_of_ne heq]

/-- `commit` gives the buffer back. -/
theorem Pinned.hand (hp : Pinned m handed) (hw : m.writer = .filling) (hidx : m.writing = some idx)
    (hstore : m.memory.store .writer .release (.refs idx) (.count 0) ts = .ok memory) :
    Pinned { m with memory := memory, writer := .stored }
      (Function.update handed idx (some (m.memory.cells idx).value)) := by
  obtain ⟨hne, hcells, hcur⟩ := Memory.store_frame hstore
  have hcl : m.claimed = some idx := by simp [claimed, hw, hidx]
  refine ⟨?_, ?_, fun i s hs => isSome_update (hp.aimed i s hs),
    fun i s hs => isSome_update (hp.live i s hs), ?_, ?_⟩
  · intro s
    obtain ⟨base, top, hs⟩ := hp.slots s
    by_cases heq : s = idx
    · subst heq
      obtain ⟨hval, htop, hwrites, hreads, hzero⟩ := hs.owned hcl
      obtain ⟨hlt, rfl⟩ := Memory.store_ok hstore
      refine ⟨ts, ts, hs.chain.publish_store (lt_of_le_of_lt htop hlt) hval, ?_, ?_, ?_, ?_, ?_⟩
      · intro _
        refine ⟨_, Memory.publish_self, ?_, ?_, hwrites.mono Thread.le_advance, ?_⟩
        · simp only [hzero]
          rfl
        · simp only [hzero]
          omega
        · exact fun a ha => .inl (le_trans (hreads a ha) (Thread.le_advance _))
      · exact fun h => by cases h
      · exact fun i hi => absurd hi (not_live hzero i)
      · exact fun a ha => le_trans (hs.own a ha) (hcur _ _)
      · intro v hv _
        rw [Function.update_self] at hv
        exact Option.some.inj hv
    · refine ⟨base, top, hs.frame (hne _ (refs_ne heq)) (by rw [hcells]) hcur (fun _ => Iff.rfl) rfl
        ?_ (Function.update_of_ne heq ..)⟩
      rw [hcl]
      exact ⟨fun h => (by cases h), fun h => absurd (Option.some.inj h).symm heq⟩
  · intro ts' msg s hmsg hval
    rw [hne _ (current_ne idx)] at hmsg
    exact isSome_update (hp.current ts' msg s hmsg hval)
  · intro _ s hs
    obtain rfl := Option.some.inj (hidx.symm.trans hs)
    simp
  · simp [hidx, WriterPc.holds]

/-- `commit` makes the buffer current. -/
theorem Pinned.publish (hp : Pinned m handed) (hw : m.writer = .stored) (hidx : m.writing = some idx)
    (hstore : m.memory.store .writer .release .current (.index (some idx)) ts = .ok memory) :
    Pinned { m with memory := memory, writer := .published } handed := by
  obtain ⟨hne, hcells, hcur⟩ := Memory.store_frame hstore
  refine hp.frame (fun s => hne _ (current_ne s).symm) hcells hcur rfl (by simp [claimed, hw]) ?_
    hp.aimed (by simp) (by simp [hidx, WriterPc.holds])
  intro ts' msg s hmsg hval
  obtain ⟨-, rfl⟩ := Memory.store_ok hstore
  rcases Memory.publish_history hmsg with ⟨-, -, rfl⟩ | hold
  · obtain rfl := Option.some.inj (SnapshotWord.index.inj hval)
    exact hp.stored hw idx hidx
  · exact hp.current ts' msg s hold hval

/-- `commit` counts the version and forgets the buffer. -/
theorem Pinned.bump {word : SnapshotWord N} (hp : Pinned m handed) (hw : m.writer = .published)
    (hup : m.memory.update .writer .relaxed .release .version SnapshotWord.succ ts =
      .ok (word, memory)) :
    Pinned { m with memory := memory, writing := none, writer := .idle } handed := by
  obtain ⟨hne, hcells, hcur⟩ := Memory.update_frame hup
  refine hp.frame (fun s => hne _ (by simp)) hcells hcur rfl (by simp [claimed, hw]) ?_
    hp.aimed (by simp) rfl
  dsimp only
  rw [hne _ (by simp)]
  exact hp.current

theorem count_succ {n : Nat} {refs : UInt32} (hle : n ≤ 2 ^ 31) (hlt : refs < kWriterOwned)
    (h : (SnapshotWord.count refs : SnapshotWord N) = .count (UInt32.ofNat n)) :
    n + 1 ≤ 2 ^ 31 ∧ refs + 1 = UInt32.ofNat (n + 1) := by
  obtain rfl := SnapshotWord.count.inj h
  have hnat := UInt32.lt_iff_toNat_lt.mp hlt
  rw [UInt32.toNat_ofNat', show kWriterOwned.toNat = 2 ^ 31 from rfl] at hnat
  refine ⟨by omega, ?_⟩
  rw [UInt32.ofNat_add]
  rfl

/-- `read` pins a buffer. -/
theorem Pinned.pin {i attempt : Nat} {refs : UInt32} (hp : Pinned m handed)
    (hr : m.readers i = .pinning attempt idx refs) (hlt : refs < kWriterOwned)
    (hup : m.memory.update (.reader i) .acquire .relaxed (.refs idx)
      (fun _ => .count (refs + 1)) ts = .ok (.count refs, memory)) :
    Pinned { m.setReader i memory .idle with live := (i, idx) :: m.live } handed := by
  obtain ⟨hne, hcells, hcur⟩ := Memory.update_frame hup
  have haim : (handed idx).isSome := hp.aimed i idx (by simp [hr, ReaderPc.aims])
  have hquiet : Pinned (m.setReader i m.memory .idle) handed :=
    hp.setReader rfl rfl (fun _ => le_rfl) (by simp [ReaderPc.aims])
  refine ⟨?_, ?_, hquiet.aimed, ?_, hp.stored, hp.writing⟩
  · intro s
    obtain ⟨base, top, hs⟩ := hp.slots s
    by_cases heq : s = idx
    · subst heq
      obtain ⟨msg, hmsg, -, hfree, hval, rfl⟩ := Memory.update_ok hup
      have hdead : ¬msg.val = .count kWriterOwned := by
        rw [← hval]
        intro h
        rw [SnapshotWord.count.inj h] at hlt
        exact absurd hlt (by decide)
      obtain rfl := hs.chain.at_top hmsg hfree (.inl hdead)
      have hcl : m.claimed ≠ some s := fun h => hdead ((hs.owned h).1 msg hmsg)
      obtain ⟨msg', hmsg', hcount, hle, hwrites, hreads⟩ := hs.free hcl
      obtain rfl := Option.some.inj (hmsg.symm.trans hmsg')
      obtain ⟨hle', hsucc⟩ := count_succ hle hlt (hval.trans hcount)
      have hhandles : handles ((i, s) :: m.live) s = handles m.live s + 1 := by
        simp [handles]
      refine ⟨base, ts + 1, hs.chain.publish_next, ?_, fun h => absurd h hcl, ?_, ?_, hs.value⟩
      · intro _
        refine ⟨_, Memory.publish_self, ?_, ?_, hwrites.mono le_sup_right, ?_⟩
        · simp only [hhandles, hsucc]
        · simp only [hhandles]
          exact hle'
        · intro a ha
          rcases hreads a ha with hknown | ⟨j, hj, hmem⟩
          · exact .inl (le_trans hknown (le_sup_right (a := _) (b := msg.view) _))
          · exact .inr ⟨j, hj, List.mem_cons_of_mem _ hmem⟩
      · intro j hj
        rcases List.mem_cons.mp hj with hnew | hold
        · obtain ⟨rfl, -⟩ := Prod.mk.inj hnew
          simp only [AtomicSnapshots.setReader, Memory.publish_threads, Memory.onThread_self]
          refine ⟨?_, hwrites.mono (le_trans Thread.observe_acquire Thread.le_advance)⟩
          rw [Thread.advance_self]
          have hle := hs.chain.le
          exact le_trans (by omega) (le_max_right _ _)
        · obtain ⟨hbase, hknown⟩ := hs.holders j hold
          exact ⟨le_trans hbase (hcur _ _), hknown.mono (hcur _)⟩
      · exact fun a ha => le_trans (hs.own a ha) (hcur _ _)
    · refine ⟨base, top, hs.frame (hne _ (refs_ne heq)) (by rw [← hcells]; rfl) hcur ?_ ?_ Iff.rfl
        rfl⟩
      · intro j
        simp [heq]
      · simp [handles, Ne.symm heq]
  · intro ts' msg s hmsg
    simp only [AtomicSnapshots.setReader, hne _ (current_ne idx)] at hmsg
    exact hp.current ts' msg s hmsg
  · intro j s hj
    rcases List.mem_cons.mp hj with hnew | hold
    · obtain ⟨-, rfl⟩ := Prod.mk.inj hnew
      exact haim
    · exact hp.live j s hold

/-- A reader looks at the contents through its handle. -/
theorem Pinned.look {i : Nat} (hp : Pinned m handed) (hin : (i, idx) ∈ m.live) :
    handed idx = some (m.memory.cells idx).value ∧
      Pinned { m with
        memory := m.memory.touch (.reader i) .read idx (m.memory.cells idx).value } handed := by
  have hacc : Access.write ≠ .read := Access.noConfusion
  obtain ⟨base, top, hi⟩ := hp.slots idx
  have hcl : m.claimed ≠ some idx := fun h => not_live (hi.owned h).2.2.2.2 i hin
  refine ⟨?_, ?_, hp.current, hp.aimed, hp.live, hp.stored, hp.writing⟩
  · obtain ⟨v, hv⟩ := Option.isSome_iff_exists.mp (hp.live i idx hin)
    rw [hv, hi.value v hv hcl]
  · intro s
    obtain ⟨base, top, hs⟩ := hp.slots s
    by_cases heq : s = idx
    · subst heq
      obtain ⟨msg, hmsg, hcount, hle, hwrites, hreads⟩ := hs.free hcl
      refine ⟨base, top, hs.chain, fun _ => ⟨msg, hmsg, hcount, hle, ?_, ?_⟩,
        fun h => absurd h hcl, ?_, ?_, ?_⟩
      · simp only [Memory.touch_done_ne hacc]
        exact hwrites
      · intro a ha
        simp only [Memory.touch_done] at ha
        rcases List.mem_cons.mp ha with rfl | ha
        · exact .inr ⟨i, rfl, hin⟩
        · exact hreads a ha
      · intro j hj
        obtain ⟨hbase, hknown⟩ := hs.holders j hj
        simp only [Memory.touch_done_ne hacc]
        exact ⟨le_trans hbase (Memory.touch_cur _ _), hknown.mono (Memory.touch_cur _)⟩
      · intro a ha
        simp only [Memory.touch_done] at ha
        rcases List.mem_cons.mp ha with rfl | ha
        · simp only [Memory.touch_self, Thread.advance_self]
          exact le_max_right _ _
        · exact le_trans (hs.own a ha) (Memory.touch_cur _ _)
      · intro v hv h
        simp only [Memory.touch_value]
        exact hs.value v hv h
    · exact ⟨base, top, hs.frame rfl (Memory.touch_cell_ne heq) Memory.touch_cur (fun _ => Iff.rfl)
        rfl Iff.rfl rfl⟩

/-- A handle is let go. -/
theorem Pinned.drop {i : Nat} {word : SnapshotWord N} (hp : Pinned m handed)
    (hin : (i, idx) ∈ m.live)
    (hup : m.memory.update (.reader i) .relaxed .release (.refs idx) SnapshotWord.pred ts =
      .ok (word, memory)) :
    Pinned { m with memory := memory, live := m.live.erase (i, idx) } handed := by
  obtain ⟨hne, hcells, hcur⟩ := Memory.update_frame hup
  refine ⟨?_, ?_, hp.aimed, fun j s hj => hp.live j s (List.mem_of_mem_erase hj), hp.stored,
    hp.writing⟩
  · intro s
    obtain ⟨base, top, hs⟩ := hp.slots s
    by_cases heq : s = idx
    · subst heq
      obtain ⟨msg, hmsg, hseen, hfree, -, rfl⟩ := Memory.update_ok hup
      obtain rfl := hs.chain.at_top hmsg hfree (.inr (le_trans (hs.holders i hin).1 hseen))
      have hcl : m.claimed ≠ some s := fun h => not_live (hs.owned h).2.2.2.2 i hin
      obtain ⟨msg', hmsg', hcount, hle, hwrites, hreads⟩ := hs.free hcl
      obtain rfl := Option.some.inj (hmsg.symm.trans hmsg')
      have hpos : 0 < handles m.live s := List.countP_pos_iff.mpr ⟨(i, s), hin, by simp⟩
      have hhandles : handles (m.live.erase (i, s)) s = handles m.live s - 1 := by
        simp [handles, List.countP_erase, hin]
      refine ⟨base, ts + 1, hs.chain.publish_next, ?_, fun h => absurd h hcl, ?_, ?_, hs.value⟩
      · intro _
        refine ⟨_, Memory.publish_self, ?_, ?_, hwrites.mono le_sup_right, ?_⟩
        · simp only [hhandles, hcount, SnapshotWord.pred]
          rw [UInt32.ofNat_sub hpos]
          rfl
        · simp only [hhandles]
          omega
        · intro a ha
          rcases hreads a ha with hknown | ⟨j, hj, hmem⟩
          · exact .inl (le_trans hknown (le_sup_right (a := _) (b := msg.view) _))
          · by_cases hji : j = i
            · -- the thread that lets go passes on its own reads
              left
              have hown := hs.own a ha
              rw [hj, hji] at hown ⊢
              refine le_trans (le_trans hown ?_) (le_sup_left (b := msg.view) _)
              -- a `relaxed` update takes over nothing
              exact Thread.le_advance _
            · refine .inr ⟨j, hj, (List.mem_erase_of_ne ?_).mpr hmem⟩
              exact fun h => hji (Prod.mk.inj h).1
      · intro j hj
        obtain ⟨hbase, hknown⟩ := hs.holders j (List.mem_of_mem_erase hj)
        exact ⟨le_trans hbase (hcur _ _), hknown.mono (hcur _)⟩
      · exact fun a ha => le_trans (hs.own a ha) (hcur _ _)
    · refine ⟨base, top, hs.frame (hne _ (refs_ne heq)) (by rw [hcells]) hcur ?_ ?_ Iff.rfl rfl⟩
      · exact fun j => List.mem_erase_of_ne (fun h => heq (Prod.mk.inj h).2)
      · simp [handles, List.countP_erase, Ne.symm heq]
  · dsimp only
    rw [hne _ (current_ne idx)]
    exact hp.current

theorem Pinned.start (value : V) : Pinned (start value : AtomicSnapshots V N) (fun _ => none) := by
  refine ⟨?_, ?_, by simp [AtomicSnapshots.start, ReaderPc.aims], by simp [AtomicSnapshots.start],
    by simp [AtomicSnapshots.start], rfl⟩
  · intro s
    refine ⟨0, 0, Memory.init_chain initial _, ?_, by simp [claimed, AtomicSnapshots.start],
      by simp [AtomicSnapshots.start], ?_, by simp⟩
    · exact fun _ => ⟨_, rfl, rfl, Nat.zero_le _, fun a ha => absurd ha List.not_mem_nil,
        fun a ha => absurd ha List.not_mem_nil⟩
    · exact fun a ha => absurd ha List.not_mem_nil
  · intro ts msg s hmsg hval
    simp only [AtomicSnapshots.start, Memory.init] at hmsg
    split_ifs at hmsg
    obtain rfl := Option.some.inj hmsg
    cases hval

/-- What was last handed to `commit` in each buffer, after a step. -/
def noteHanded (handed : Fin N → Option V) : AtomicSnapshotOut V N → Fin N → Option V
  | .handed idx value => Function.update handed idx (some value)
  | _ => handed

/-- A buffer with a handle on it is not the writer's. -/
theorem Pinned.not_claimed {i : Nat} (hp : Pinned m handed) (hin : (i, idx) ∈ m.live) :
    m.claimed ≠ some idx := by
  obtain ⟨base, top, hs⟩ := hp.slots idx
  exact fun h => not_live (hs.owned h).2.2.2.2 i hin

/-- After a step: the invariant holds; what a handle showed is what was last handed over
in its buffer; and a buffer that is handed over has no handle on it. -/
structure Keeps (m : AtomicSnapshots V N) (handed : Fin N → Option V)
    (r : AtomicSnapshots V N × AtomicSnapshotOut V N) : Prop where
  pinned : Pinned r.1 (noteHanded handed r.2)
  shown : ∀ i idx v, r.2 = .seen i idx v → handed idx = some v
  unpinned : ∀ idx v, r.2 = .handed idx v → ∀ i, (i, idx) ∉ m.live

/-- A step that hands nothing over and shows nothing. -/
theorem Pinned.keeps (hp : Pinned m' handed) (hout : out.silent = true) :
    Keeps m handed (m', out) := by
  refine ⟨?_, ?_, ?_⟩
  · cases out <;> first | exact hp | cases hout
  · rintro i idx v rfl
    cases hout
  · rintro idx v rfl
    cases hout

/-- The writer goes on in its scan. -/
theorem Pinned.scan {current : Option (Fin N)} {attempt : Nat} {pc : WriterPc N}
    (hp : Pinned m handed) (hw : m.writer = .scan current attempt) (hpc : pc.holds = false)
    (hhist : memory.history = m.memory.history) (hcell : memory.cells = m.memory.cells)
    (hcur : ∀ t, (m.memory.threads t).cur ≤ (memory.threads t).cur) (hout : out.silent = true) :
    Keeps m handed ({ m with memory := memory, writer := pc }, out) :=
  (hp.setWriter hhist hcell hcur (by simp [hw, WriterPc.holds]) hpc).keeps hout

theorem Pinned.writerStep [NeZero N] (hp : Pinned m handed) :
    Safe (m.writerStep ts) (Keeps m handed) := by
  unfold AtomicSnapshots.writerStep
  cases hw : m.writer with
  | scan current attempt =>
      dsimp only
      split_ifs with hmore hcur
      · exact hp.scan hw rfl rfl rfl (fun _ => le_rfl) rfl
      · refine Memory.compareExchange_safe.bind ?_
        rintro ⟨won, word, memory⟩ (⟨rfl, hup⟩ | ⟨rfl, hload⟩)
        · exact (hp.claim hw hup).keeps rfl
        · obtain ⟨hhist, hcells, hle⟩ := Memory.load_frame hload
          exact hp.scan hw rfl hhist hcells hle rfl
      · exact hp.scan hw rfl rfl rfl (fun _ => le_rfl) rfl
  | stored =>
      dsimp only
      cases hidx : m.writing with
      | none => exact .blocked
      | some idx =>
          refine Memory.store_safe.bind ?_
          intro memory hstore
          rw [← hidx]
          exact (hp.publish hw hidx hstore).keeps rfl
  | published =>
      refine Memory.update_safe.bind ?_
      rintro ⟨word, memory⟩ hup
      exact (hp.bump hw hup).keeps rfl
  | _ => exact .blocked

theorem Pinned.commit (hp : Pinned m handed) (hw : m.writer = .idle ∨ m.writer = .filling) :
    Safe (m.commit ts) (Keeps m handed) := by
  unfold AtomicSnapshots.commit
  cases hidx : m.writing with
  | none => exact hp.keeps rfl
  | some idx =>
      have hfilling : m.writer = .filling := by
        rcases hw with hidle | hfilling
        · have hwriting := hp.writing
          rw [hidx, hidle] at hwriting
          simp [WriterPc.holds] at hwriting
        · exact hfilling
      refine Memory.store_safe.bind ?_
      intro memory hstore
      rw [← hidx]
      refine ⟨hp.hand hfilling hidx hstore, fun _ _ _ h => (by cases h), ?_⟩
      rintro idx' v heq i
      obtain ⟨rfl, -⟩ := AtomicSnapshotOut.handed.inj heq
      exact fun hin => hp.not_claimed hin (by simp [claimed, hfilling, hidx])

/-- A reader goes on, with a buffer in hand that it had or that it found in `current_`. -/
theorem Pinned.load {i : Nat} {o : LoadOrder} {l : SnapshotLoc N} {word : SnapshotWord N}
    {pc : ReaderPc N} (hp : Pinned m handed)
    (hload : m.memory.load (.reader i) o l ts = .ok (word, memory))
    (haim : ∀ s, pc.aims = some s →
      (m.readers i).aims = some s ∨ (l = .current ∧ word = .index (some s)))
    (hout : out.silent = true) : Keeps m handed (m.setReader i memory pc, out) := by
  obtain ⟨hhist, hcells, hcur⟩ := Memory.load_frame hload
  refine (hp.setReader hhist hcells hcur ?_).keeps hout
  intro s hs
  rcases haim s hs with hold | ⟨rfl, rfl⟩
  · exact hp.aimed i s hold
  · obtain ⟨msg, hmsg, -, hval, -⟩ := Memory.load_ok hload
    exact hp.current ts msg s hmsg hval.symm

theorem Pinned.turn {i : Nat} {pc : ReaderPc N} (hp : Pinned m handed) (haim : pc.aims = none)
    (hout : out.silent = true) : Keeps m handed (m.setReader i m.memory pc, out) :=
  (hp.setReader rfl rfl (fun _ => le_rfl) (by simp [haim])).keeps hout

theorem Pinned.readerStep {i : Nat} {spurious : Bool} (hp : Pinned m handed) :
    Safe (m.readerStep i spurious ts) (Keeps m handed) := by
  unfold AtomicSnapshots.readerStep
  cases hr : m.readers i with
  | idle => exact .blocked
  | start attempt =>
      dsimp only
      split_ifs with hmore
      · refine Memory.load_safe.bind ?_
        rintro ⟨word, memory⟩ hload
        dsimp only
        split
        · exact hp.load hload (by simp [ReaderPc.aims]) rfl
        · exact hp.load hload (by simp [ReaderPc.aims]) rfl
        · exact .blocked
      · exact hp.turn rfl rfl
  | loaded attempt idx =>
      refine Memory.load_safe.bind ?_
      rintro ⟨word, memory⟩ hload
      dsimp only
      split
      · exact hp.load hload (by simp [ReaderPc.aims, hr]) rfl
      · exact .blocked
  | pinning attempt idx refs =>
      dsimp only
      split_ifs with hlt
      · refine Memory.compareExchangeWeak_safe.bind ?_
        rintro ⟨won, word, memory⟩ (⟨rfl, hup⟩ | ⟨rfl, hload⟩)
        · exact (hp.pin hr hlt hup).keeps rfl
        · dsimp only
          rw [if_neg Bool.false_ne_true]
          split
          · exact hp.load hload (by simp [ReaderPc.aims, hr]) rfl
          · exact .blocked
      · exact hp.turn rfl rfl

/-- No step is a data race, and the invariant survives it. -/
theorem Pinned.step [NeZero N] (hp : Pinned m handed) (op : AtomicSnapshotOp V N × Nat) :
    Safe (m.step op) (Keeps m handed) := by
  obtain ⟨op, ts⟩ := op
  cases op with
  | beginWrite =>
      simp only [AtomicSnapshots.step]
      cases hw : m.writer with
      | idle =>
          refine Memory.load_safe.bind ?_
          rintro ⟨word, memory⟩ hload
          obtain ⟨hhist, hcells, hcur⟩ := Memory.load_frame hload
          dsimp only
          split
          · exact (hp.setWriter hhist hcells hcur (by simp [hw, WriterPc.holds]) rfl).keeps rfl
          · exact .blocked
      | _ => exact .blocked
  | fill value =>
      simp only [AtomicSnapshots.step]
      split
      · rename_i idx hw hidx
        obtain ⟨base, top, hs⟩ := hp.slots idx
        obtain ⟨-, -, hwrites, hreads, -⟩ := hs.owned (by simp [claimed, hw, hidx])
        refine (Memory.writeCell_safe hwrites hreads).bind ?_
        rintro memory rfl
        exact (hp.fill hw hidx).keeps rfl
      · exact .blocked
  | commit =>
      simp only [AtomicSnapshots.step]
      split
      · rename_i hw
        exact hp.commit (.inl hw)
      · rename_i hw
        exact hp.commit (.inr hw)
      · exact .blocked
  | writer => exact hp.writerStep
  | read i =>
      simp only [AtomicSnapshots.step]
      split
      · exact hp.turn rfl rfl
      · exact .blocked
  | reader i spurious => exact hp.readerStep
  | look i idx =>
      simp only [AtomicSnapshots.step]
      split_ifs with hin
      · obtain ⟨base, top, hs⟩ := hp.slots idx
        refine (Memory.readCell_safe (hs.holders i hin).2).bind ?_
        rintro _ rfl
        obtain ⟨hvalue, hp'⟩ := hp.look hin
        refine ⟨hp', ?_, fun _ _ h => by cases h⟩
        intro j idx' v heq
        obtain ⟨-, rfl, rfl⟩ := AtomicSnapshotOut.seen.inj heq
        exact hvalue
      · exact .blocked
  | drop i idx =>
      simp only [AtomicSnapshots.step]
      split_ifs with hin
      · refine Memory.update_safe.bind ?_
        rintro ⟨word, memory⟩ hup
        exact (hp.drop hin hup).keeps rfl
      · exact .blocked

end Invariant

section Runs

variable {m : AtomicSnapshots V N} [NeZero N]

abbrev Trace (V : Type) (N : Nat) :=
  List (Transition (AtomicSnapshots V N) (AtomicSnapshotOp V N × Nat) (AtomicSnapshotOut V N))

/-- What was last handed to `commit` in each buffer. -/
def handedOf (h : Trace V N) : Fin N → Option V :=
  h.foldl (fun handed tr => noteHanded handed tr.out) (fun _ => none)

theorem reaches_pinned {value : V} {h : Trace V N} (hrun : Run step (start value) h m) :
    Pinned m (handedOf h) := by
  refine hrun.simulate (R := fun m handed => Pinned m handed) (G := fun _ => True)
    (Pinned.start value) ?_ (fun _ _ => trivial)
  intro m handed op m' out hp hs _
  exact ((hp.step op).returns hs).pinned

/-- However old the values are that the threads load, no step is a data race; a buffer
with a handle on it is neither claimed nor handed to `commit`; and what a handle shows is
what was last handed to `commit` in its buffer. -/
theorem snapshot_release_acquire {value : V} {h : Trace V N}
    (hrun : Run step (start value) h m) :
    (∀ op, m.step op ≠ .error .race) ∧
    (∀ i idx, (i, idx) ∈ m.live → m.claimed ≠ some idx ∧
      ∀ op m' v, m.step op ≠ .ok (m', .handed idx v)) ∧
    ∀ op m' i idx v, m.step op = .ok (m', .seen i idx v) → handedOf h idx = some v := by
  have hp := reaches_pinned hrun
  refine ⟨fun op => (hp.step op).no_race, ?_, ?_⟩
  · intro i idx hin
    refine ⟨hp.not_claimed hin, ?_⟩
    exact fun op m' v hs => ((hp.step op).returns hs).unpinned idx v rfl i hin
  · exact fun op m' i idx v hs => ((hp.step op).returns hs).shown i idx v rfl

/-- Buffer 0 is published and pinned; while the handle exists the writer fills and
publishes buffer 1, and the reader, which still finds buffer 0 in `current_`, pins it
again. -/
theorem snapshot_release_acquire_old :
    ∃ (h : Trace Nat 4) (m m' : AtomicSnapshots Nat 4), Run step (start 0) h m ∧
      m.live = [(0, 0), (0, 0)] ∧ m.step (.look 0 0, 0) = .ok (m', .seen 0 0 7) ∧
      handedOf h 0 = some 7 := by
  have hex : execCheck step (start 0 : AtomicSnapshots Nat 4)
      [(.beginWrite, 0), (.writer, 0), (.fill 7, 0), (.commit, 5), (.writer, 3), (.writer, 0),
        (.read 0, 0), (.reader 0 false, 3), (.reader 0 false, 5), (.reader 0 false, 5),
        (.beginWrite, 3), (.writer, 0), (.fill 8, 0), (.commit, 2), (.writer, 4), (.writer, 1),
        (.read 0, 0), (.reader 0 false, 3), (.reader 0 false, 6), (.reader 0 false, 6)]
      (fun _ m => decide (m.live = [(0, 0), (0, 0)]) &&
        returnsWith (m.step (.look 0 0, 0)) (fun r => decide (r.2.shown = some (0, 0, 7)))) =
        true := by
    decide +kernel
  obtain ⟨h, m, hrun, hcheck⟩ := Run.of_execCheck hex
  obtain ⟨hlive, hret⟩ := Bool.and_eq_true_iff.mp hcheck
  obtain ⟨⟨m', out⟩, hstep, hout⟩ := returnsWith_iff.mp hret
  obtain rfl := AtomicSnapshotOut.eq_seen (of_decide_eq_true hout)
  exact ⟨h, m, m', hrun, of_decide_eq_true hlive, hstep,
    (snapshot_release_acquire hrun).2.2 _ _ _ _ _ hstep⟩

end Runs

end AtomicSnapshots
end GtpMeter
