import GtpMeter.SnapshotPublisher

/-!
# Pinned snapshots are safe

What holds of a `SnapshotPublisher` after every interleaving of its writer and its
readers.  The journal of a run lists what was handed to `commit`, what was made
current, what `begin_write` found in its last call and what each reader was given.

**Results.**
* `Counted.moves`: the count of a buffer is the number of the handles on it, or
  `kWriterOwned` while the writer owns it.
* `Committed.moves`: the contents of a buffer that was handed to `commit` and is not
  owned are what was handed.
* `Scanned.moves`: `begin_write` passed over a buffer only with a handle on it.
* `run_finished`: a handle is on a buffer whose `commit` has not stored `current_`
  exactly if it was pinned between the two stores of that `commit`.
* `snapshot_pinning`: all of it together, after every run.
* `unfinished_commit_pinned`: such a run.
-/

namespace GtpMeter
namespace Snapshots

open Runs

variable {V : Type} {N : Nat}

structure Counted (m : Snapshots V N) : Prop where
  free : ∀ s, m.claimed ≠ some s → (m.pub.slots s).refs.toNat = m.live.count s
  owned : ∀ s, m.claimed = some s → (m.pub.slots s).refs = kWriterOwned ∧ s ∉ m.live
  writing : m.pub.writing.isSome = m.writer.holds
  current : ∀ s, m.pub.writing = some s → m.writer ≠ .published → m.pub.current ≠ some s
  scan : ∀ c a, m.writer = .scan c a → c = m.pub.current

variable {m m' : Snapshots V N} {op : SnapshotOp V N} {out : SnapshotOut V N}

theorem Counted.start (value : V) : Counted (start value : Snapshots V N) := by
  constructor <;> simp [Snapshots.start, claimed, WriterPc.holds]

/-- A step of a reader that pins nothing. -/
theorem Counted.setReader (hc : Counted m) (i : Nat) (pc : ReaderPc N) :
    Counted (m.setReader i pc) :=
  ⟨hc.free, hc.owned, hc.writing, hc.current, hc.scan⟩

theorem Counted.writing_none (hc : Counted m) (hw : m.writer.holds = false) :
    m.pub.writing = none := by
  have hnone := hc.writing
  rw [hw] at hnone
  simpa using hnone

/-- A `commit` that finds a buffer to hand over comes from a writer that filled it. -/
theorem Counted.filling (hc : Counted m) {s : Fin N}
    (hw : m.writer = .idle ∨ m.writer = .filling) (hs : m.pub.writing = some s) :
    m.writer = .filling := by
  refine hw.resolve_left fun hidle => ?_
  rw [hc.writing_none (by rw [hidle]; rfl)] at hs
  cases hs

theorem Counted.not_claimed (hc : Counted m) {s : Fin N}
    (hs : (m.pub.slots s).refs < kWriterOwned) : m.claimed ≠ some s := by
  intro hcl
  rw [(hc.owned s hcl).1] at hs
  exact absurd hs (by decide)

/-- The writer moves on and the buffers stay. -/
theorem Counted.setWriter (hc : Counted m) {pc : WriterPc N} (hcl : m.claimed = none)
    (hpc : pc.holds = false) (hw : m.writer.holds = false)
    (hscan : ∀ c a, pc = .scan c a → c = m.pub.current) :
    Counted { m with writer := pc } := by
  have hnone : m.pub.writing = none := hc.writing_none hw
  have hcl' : ({ m with writer := pc } : Snapshots V N).claimed = none := by
    unfold claimed
    split
    · exact hnone
    · rfl
  refine ⟨?_, ?_, ?_, ?_, hscan⟩
  · intro s _
    exact hc.free s (by simp [hcl])
  · intro s hs
    simp [hcl'] at hs
  · rw [hpc]
    simp [hnone]
  · intro s hs
    simp [hnone] at hs

theorem Counted.claim (hc : Counted m) {c : Option (Fin N)} {a hint : Nat} {s : Fin N}
    (hw : m.writer = .scan c a) (hne : c ≠ some s) (hz : (m.pub.slots s).refs = 0) :
    Counted
      { m with
        pub := { m.pub.setRefs s kWriterOwned with writing := some s, writeHint := hint }
        writer := .filling } := by
  have hfree : ∀ i, (m.pub.slots i).refs.toNat = m.live.count i :=
    fun i => hc.free i (by simp [claimed, hw])
  refine ⟨?_, ?_, rfl, ?_, by simp⟩
  · intro i hi
    have his : i ≠ s := by
      rintro rfl
      exact hi rfl
    simpa [his] using hfree i
  · intro i hi
    obtain rfl : s = i := Option.some.inj hi
    have hcount := hfree s
    rw [hz] at hcount
    exact ⟨by simp, List.count_eq_zero.mp hcount.symm⟩
  · intro i hi _
    obtain rfl : s = i := Option.some.inj hi
    exact (hc.scan c a hw) ▸ hne

theorem Counted.hand (hc : Counted m) {s : Fin N} (hw : m.writer = .filling)
    (hs : m.pub.writing = some s) :
    Counted { m with pub := m.pub.setRefs s 0, writer := .stored } := by
  have hcl : m.claimed = some s := by simp [claimed, hw, hs]
  refine ⟨?_, ?_, ?_, ?_, by simp⟩
  · intro i _
    by_cases his : i = s
    · have hlive := (hc.owned s hcl).2
      simp [his, List.count_eq_zero.mpr hlive]
    · have hi : m.claimed ≠ some i := by
        rw [hcl]
        exact fun h => his (Option.some.inj h).symm
      simpa [his] using hc.free i hi
  · simp [claimed]
  · simp [hs, WriterPc.holds]
  · intro i hi _
    exact hc.current i hi (by simp [hw])

theorem Counted.pin (hc : Counted m) {s : Fin N} (hlt : (m.pub.slots s).refs < kWriterOwned) :
    Counted
      { m with
        pub := m.pub.setRefs s ((m.pub.slots s).refs + 1)
        live := s :: m.live } := by
  have hcl := hc.not_claimed hlt
  refine ⟨?_, ?_, hc.writing, hc.current, hc.scan⟩
  · intro i hi
    by_cases his : i = s
    · subst his
      have hcount := hc.free i hcl
      have hb : (m.pub.slots i).refs.toNat < 2147483648 := by
        simpa [kWriterOwned] using UInt32.lt_iff_toNat_lt.mp hlt
      simp only [SnapshotPublisher.setRefs_refs, if_true, List.count_cons_self]
      rw [UInt32.toNat_add, UInt32.toNat_one, Nat.mod_eq_of_lt (by omega), hcount]
    · have hsi : s ≠ i := fun h => his h.symm
      simpa [his, List.count_cons_of_ne hsi] using hc.free i hi
  · intro i hi
    have his : i ≠ s := by
      rintro rfl
      exact hcl hi
    simpa [his] using hc.owned i hi

theorem Counted.drop (hc : Counted m) {s : Fin N} (hs : s ∈ m.live) :
    Counted
      { m with
        pub := m.pub.setRefs s ((m.pub.slots s).refs - 1)
        live := m.live.erase s } := by
  have hcl : m.claimed ≠ some s := fun h => (hc.owned s h).2 hs
  refine ⟨?_, ?_, hc.writing, hc.current, hc.scan⟩
  · intro i hi
    by_cases his : i = s
    · subst his
      have hcount := hc.free i hcl
      have hpos : 0 < m.live.count i := List.count_pos_iff.mpr hs
      simp only [SnapshotPublisher.setRefs_refs, if_true, List.count_erase_self]
      rw [UInt32.toNat_sub_of_le _ _ (UInt32.le_iff_toNat_le.mpr (by simp; omega)),
        UInt32.toNat_one, hcount]
    · simpa [his, List.count_erase_of_ne his] using hc.free i hi
  · intro i hi
    have his : i ≠ s := by
      rintro rfl
      exact hcl hi
    obtain ⟨hr, hl⟩ := hc.owned i hi
    refine ⟨by simpa [his] using hr, ?_⟩
    exact fun h => hl (List.mem_of_mem_erase h)

theorem Counted.moves [NeZero N] (hc : Counted m) (hm : Moves m op out m') : Counted m' := by
  cases hm with
  | begin hw =>
      exact hc.setWriter (by simp [claimed, hw]) rfl (by rw [hw]; rfl) (by simp)
  | skip hw | busy hw =>
      have hscan := hc.scan _ _ hw
      exact hc.setWriter (by simp [claimed, hw]) rfl (by rw [hw]; rfl) (by simp [hscan])
  | fail hw => exact hc.setWriter (by simp [claimed, hw]) rfl (by rw [hw]; rfl) (by simp)
  | claim hw hne hz => exact hc.claim hw hne hz
  | fill hw hs =>
      refine ⟨?_, ?_, hc.writing, hc.current, hc.scan⟩
      · intro i hi
        simpa using hc.free i hi
      · intro i hi
        simpa using hc.owned i hi
  | nothing => exact hc
  | hand hw hs => exact hc.hand (hc.filling hw hs) hs
  | publish hw hs =>
      refine ⟨?_, by simp [claimed], ?_, by simp, by simp⟩
      · intro i _
        exact hc.free i (by simp [claimed, hw])
      · simp [hs, WriterPc.holds]
  | bump hw =>
      refine ⟨?_, by simp [claimed], by simp [WriterPc.holds], by simp, by simp⟩
      intro i _
      exact hc.free i (by simp [claimed, hw])
  | read | invalid | load | refs | retry => exact hc.setReader _ _
  | pin _ hlt => exact (hc.pin hlt).setReader _ _
  | drop hs => exact hc.drop hs

/-- The contents of the buffers, against what was last handed to `commit` and what was
last made current in each. -/
structure Committed (m : Snapshots V N) (handed published : Fin N → Option V) : Prop where
  value : ∀ s v, handed s = some v → m.claimed ≠ some s → (m.pub.slots s).value = v
  current : ∀ s, m.pub.current = some s → (handed s).isSome
  committing : ∀ s, m.committing = some s → (handed s).isSome
  aimed : ∀ i s, (m.readers i).aims = some s → (handed s).isSome
  live : ∀ s ∈ m.live, (handed s).isSome
  published : ∀ s, m.committing ≠ some s → published s = handed s

variable {handed published : Fin N → Option V}

theorem Committed.start (value : V) :
    Committed (start value : Snapshots V N) (fun _ => none) (fun _ => none) := by
  constructor <;> simp [Snapshots.start, ReaderPc.aims, Snapshots.committing]

theorem Committed.setReader (hj : Committed m handed published) {i : Nat} {pc : ReaderPc N}
    (haim : ∀ s, pc.aims = some s → (handed s).isSome) :
    Committed (m.setReader i pc) handed published := by
  exact { hj with aimed := Snapshots.aims_setReader haim hj.aimed }

/-- The writer moves on and the buffers stay. -/
theorem Committed.setWriter (hj : Committed m handed published) {pc : WriterPc N}
    (hcl : m.claimed = none) (hco : m.committing = none) (hpc : pc ≠ .stored) :
    Committed { m with writer := pc } handed published := by
  have hco' : ({ m with writer := pc } : Snapshots V N).committing = none := by
    unfold Snapshots.committing
    split
    · contradiction
    · rfl
  refine ⟨?_, hj.current, ?_, hj.aimed, hj.live, ?_⟩
  · intro s v hs _
    exact hj.value s v hs (by simp [hcl])
  · simp [hco']
  · intro s _
    exact hj.published s (by simp [hco])

theorem isSome_update {f : Fin N → Option V} {s i : Fin N} (v : V) (hi : (f i).isSome) :
    (Function.update f s (some v) i).isSome := by
  by_cases his : i = s
  · simp [his]
  · simpa [his] using hi

theorem Committed.hand (hj : Committed m handed published) {s : Fin N} (hw : m.writer = .filling)
    (hs : m.pub.writing = some s) :
    Committed { m with pub := m.pub.setRefs s 0, writer := .stored }
      (Function.update handed s (some (m.pub.slots s).value)) published := by
  have hcl : m.claimed = some s := by simp [claimed, hw, hs]
  refine ⟨?_, ?_, ?_, ?_, ?_, ?_⟩
  · intro i v hi _
    by_cases his : i = s
    · subst his
      simpa using hi
    · have hi' : handed i = some v := by simpa [his] using hi
      have hne : m.claimed ≠ some i := by
        rw [hcl]
        exact fun h => his (Option.some.inj h).symm
      simpa using hj.value i v hi' hne
  · intro i hi
    exact isSome_update _ (hj.current i hi)
  · intro i hi
    have hsi : some s = some i := hs.symm.trans hi
    simp [Option.some.inj hsi]
  · intro k i hi
    exact isSome_update _ (hj.aimed k i hi)
  · intro i hi
    exact isSome_update _ (hj.live i hi)
  · intro i hi
    have his : i ≠ s := by
      rintro rfl
      exact hi hs
    simpa [his] using hj.published i (by simp [Snapshots.committing, hw])

theorem Committed.publish (hj : Committed m handed published) {s : Fin N} (hw : m.writer = .stored)
    (hs : m.pub.writing = some s) :
    Committed { m with pub := { m.pub with current := some s }, writer := .published }
      handed (Function.update published s (some (m.pub.slots s).value)) := by
  have hco : m.committing = some s := by simp [Snapshots.committing, hw, hs]
  have hcl : ∀ i, m.claimed ≠ some i := by simp [claimed, hw]
  obtain ⟨v, hv⟩ := Option.isSome_iff_exists.mp (hj.committing s hco)
  have hval := hj.value s v hv (hcl s)
  refine ⟨?_, ?_, by simp [Snapshots.committing], hj.aimed, hj.live, ?_⟩
  · intro i v' hi _
    exact hj.value i v' hi (hcl i)
  · intro i hi
    obtain rfl : s = i := Option.some.inj hi
    simp [hv]
  · intro i _
    by_cases his : i = s
    · subst his
      simp [hval, hv]
    · have hne : m.committing ≠ some i := by
        rw [hco]
        exact fun h => his (Option.some.inj h).symm
      simpa [his] using hj.published i hne

variable [NeZero N]

theorem Committed.moves {j : Journal V N} (hj : Committed m j.handed j.published) (hc : Counted m)
    (hm : Moves m op out m') :
    Committed m' (j.note ⟨m, op, out, m'⟩).handed (j.note ⟨m, op, out, m'⟩).published := by
  cases hm with
  | begin hw | skip hw | busy hw | fail hw =>
      exact hj.setWriter (by simp [claimed, hw]) (by simp [Snapshots.committing, hw]) (by simp)
  | claim hw =>
      refine ⟨?_, hj.current, by simp [Snapshots.committing], hj.aimed, hj.live, ?_⟩
      · intro i v hi _
        simpa using hj.value i v hi (by simp [claimed, hw])
      · intro i _
        exact hj.published i (by simp [Snapshots.committing, hw])
  | @fill s v hw hs =>
      refine ⟨?_, hj.current, hj.committing, hj.aimed, hj.live, hj.published⟩
      intro i w hi hne
      have his : i ≠ s := by
        rintro rfl
        exact hne (by simp [claimed, hw, hs])
      simpa [his] using hj.value i w hi hne
  | nothing => exact hj
  | hand hw hs => exact hj.hand (hc.filling hw hs) hs
  | publish hw hs => exact hj.publish hw hs
  | bump hw =>
      refine ⟨?_, hj.current, by simp [Snapshots.committing], hj.aimed, hj.live, ?_⟩
      · intro i v hi _
        exact hj.value i v hi (by simp [claimed, hw])
      · intro i _
        exact hj.published i (by simp [Snapshots.committing, hw])
  | read | invalid => exact hj.setReader (by simp [ReaderPc.aims])
  | load _ _ hcur =>
      refine hj.setReader ?_
      intro i hi
      obtain rfl := Option.some.inj hi
      exact hj.current _ hcur
  | @refs k _ _ s haim =>
      refine hj.setReader ?_
      intro i hi
      obtain rfl := Option.some.inj hi
      exact hj.aimed k _ haim
  | retry => exact hj.setReader (by simp [ReaderPc.aims])
  | @pin k a s hr hlt =>
      have hidle : Committed (m.setReader k .idle) j.handed j.published :=
        hj.setReader (by simp [ReaderPc.aims])
      refine ⟨?_, hidle.current, hidle.committing, hidle.aimed, ?_, hidle.published⟩
      · intro i v hi hne
        simpa using hj.value i v hi hne
      · intro i hi
        rcases List.mem_cons.mp hi with rfl | hold
        · exact hj.aimed k i (by rw [hr]; rfl)
        · exact hj.live i hold
  | drop =>
      refine ⟨?_, hj.current, hj.committing, hj.aimed, ?_, hj.published⟩
      · intro i v hi hne
        simpa using hj.value i v hi hne
      · intro i hi
        exact hj.live i (List.mem_of_mem_erase hi)

/-- What `begin_write` has passed over. -/
def Scanned (m : Snapshots V N) (tried : List (Fin N × Nat)) : Prop :=
  ∀ c a, m.writer = .scan c a →
    ∀ k < a, c = some (m.slotAt k) ∨ ∃ n, 0 < n ∧ (m.slotAt k, n) ∈ tried

/-- One more attempt of `begin_write`. -/
theorem Scanned.attempt {tried tried' : List (Fin N × Nat)} (hn : Scanned m tried)
    {c : Option (Fin N)} {a : Nat} (hw : m.writer = .scan c a)
    (hsub : ∀ e ∈ tried, e ∈ tried')
    (hnew : c = some (m.slotAt a) ∨ ∃ n, 0 < n ∧ (m.slotAt a, n) ∈ tried') :
    Scanned { m with writer := .scan c (a + 1) } tried' := by
  intro c' a' hw' k hk
  obtain ⟨rfl, rfl⟩ : c = c' ∧ a + 1 = a' := by simpa using hw'
  rcases Nat.lt_succ_iff_lt_or_eq.mp hk with hlt | rfl
  · rcases hn c a hw k hlt with hcur | ⟨n, hpos, hmem⟩
    · exact .inl hcur
    · exact .inr ⟨n, hpos, hsub _ hmem⟩
  · exact hnew

theorem Scanned.moves {j : Journal V N} (hn : Scanned m j.tried) (hc : Counted m)
    (hm : Moves m op out m') : Scanned m' (j.note ⟨m, op, out, m'⟩).tried := by
  cases hm with
  | begin =>
      intro c a hw k hk
      obtain ⟨rfl, rfl⟩ : m.pub.current = c ∧ 0 = a := by simpa using hw
      omega
  | skip hw _ hcur => exact hn.attempt hw (fun _ he => he) (.inl hcur)
  | @busy c a hw _ hne =>
      refine hn.attempt hw (fun _ he => List.mem_append_left _ he)
        (.inr ⟨m.live.count (m.slotAt a), ?_, ?_⟩)
      · rw [← hc.free _ (by simp [claimed, hw])]
        exact Nat.pos_of_ne_zero (fun h => hne (UInt32.toNat_inj.mp h))
      · exact List.mem_append_right _ (List.mem_singleton.mpr rfl)
  | claim | fail | hand | publish | bump => simp [Scanned]
  | fill | nothing | read | invalid | load | refs | retry | pin | drop => exact hn

/-- Every buffer is looked at in one of `N` attempts. -/
theorem exists_slotAt (m : Snapshots V N) (s : Fin N) : ∃ k < N, m.slotAt k = s := by
  have hN : 0 < N := Nat.pos_of_ne_zero (NeZero.ne N)
  have hlt : m.pub.writeHint % N < N := Nat.mod_lt _ hN
  refine ⟨(s.val + (N - m.pub.writeHint % N)) % N, Nat.mod_lt _ hN, ?_⟩
  apply Fin.ext
  have hsum : m.pub.writeHint % N + (s.val + (N - m.pub.writeHint % N)) = s.val + N := by omega
  calc (m.pub.writeHint + (s.val + (N - m.pub.writeHint % N)) % N) % N
      = (m.pub.writeHint % N + (s.val + (N - m.pub.writeHint % N))) % N := by
        simp [Nat.add_mod]
    _ = s.val := by
        rw [hsum, Nat.add_mod_right, Nat.mod_eq_of_lt s.isLt]

/-- A step leaves the contents of a buffer with a handle on it. -/
theorem Moves.value_eq (hm : Moves m op out m') (hc : Counted m) {s : Fin N} (hs : s ∈ m.live) :
    (m'.pub.slots s).value = (m.pub.slots s).value := by
  cases hm with
  | @fill idx v hw hidx =>
      have hne : s ≠ idx := by
        rintro rfl
        exact (hc.owned s (by simp [claimed, hw, hidx])).2 hs
      simp [hne]
  | claim => simp
  | hand => simp
  | pin => simp
  | drop => simp
  | _ => rfl

/-- The step is an exchange that succeeds, on the buffer whose `commit` has not yet
stored `current_`. -/
def pinsEarly (m : Snapshots V N) : SnapshotOp V N → Bool
  | .reader i false =>
      match m.readers i with
      | .pinning _ idx refs =>
          decide (refs < kWriterOwned ∧ (m.pub.slots idx).refs = refs ∧ m.committing = some idx)
      | _ => false
  | _ => false

/-- No handle is on a buffer whose `commit` has not stored `current_`. -/
def Finished (m : Snapshots V N) : Prop :=
  ∀ s ∈ m.live, m.committing ≠ some s

/-- A step that pins no such buffer leaves no such handle. -/
theorem Finished.moves (hf : Finished m) (hc : Counted m) (hm : Moves m op out m')
    (hearly : pinsEarly m op = false) : Finished m' := by
  cases hm with
  | @hand s hw hs =>
      intro i hi hco
      obtain rfl : s = i := Option.some.inj (hs.symm.trans hco)
      exact (hc.owned s (by simp [claimed, hc.filling hw hs, hs])).2 hi
  | @pin k a s hr hlt =>
      have hne : m.committing ≠ some s := by simpa [pinsEarly, hr, hlt] using hearly
      intro i hi
      rcases List.mem_cons.mp hi with rfl | hold
      · exact hne
      · exact hf i hold
  | drop => exact fun i hi => hf i (List.mem_of_mem_erase hi)
  | fill | nothing | read | invalid | load | refs | retry => exact hf
  | _ => simp [Finished, Snapshots.committing]

/-- A step that pins such a buffer leaves a handle on it. -/
theorem not_finished_of_pinsEarly (hs : m.step op = .ok (m', out))
    (hearly : pinsEarly m op = true) : ¬Finished m' := by
  unfold pinsEarly at hearly
  split at hearly
  · split at hearly
    · rename_i hr
      obtain ⟨hlt, heq, hco⟩ := of_decide_eq_true hearly
      simp only [step, readerStep, hr, hlt, heq, and_self, if_true] at hs
      cases hs
      exact fun hf => hf _ List.mem_cons_self hco
    · cases hearly
  · cases hearly

/-- What holds after every run. -/
theorem reaches {value : V} {h : Trace V N} (hrun : Run step (start value) h m) :
    Counted m ∧ Committed m (journal h).handed (journal h).published ∧
      Scanned m (journal h).tried := by
  refine hrun.simulate (R := fun m (j : Journal V N) =>
    Counted m ∧ Committed m j.handed j.published ∧ Scanned m j.tried)
    (G := fun _ => True) ?_ ?_ (fun _ _ => trivial)
  · refine ⟨Counted.start value, Committed.start value, ?_⟩
    simp [Scanned, Snapshots.start]
  · rintro m j op m' out ⟨hc, hj, hn⟩ hs _
    have hm := step_moves hs
    exact ⟨hc.moves hm, hj.moves hc hm, hn.moves hc hm⟩

/-- Over a whole run, the handles are on finished buffers exactly if none was pinned
early. -/
theorem run_finished {value : V} {h : Trace V N} (hrun : Run step (start value) h m) :
    ((∀ tr ∈ h, Finished tr.post) ↔ ∀ tr ∈ h, pinsEarly tr.pre tr.op = false) ∧
      ((∀ tr ∈ h, pinsEarly tr.pre tr.op = false) → Finished m) := by
  induction hrun with
  | nil => simp [Finished, Snapshots.start]
  | @snoc h m m' op out hprev hs ih =>
      have hc := (reaches hprev).1
      -- the step is judged only in a run that was good before it
      have hstep : (∀ tr ∈ h, pinsEarly tr.pre tr.op = false) →
          (Finished m' ↔ pinsEarly m op = false) := by
        intro hall
        refine ⟨fun hf => ?_, (ih.2 hall).moves hc (step_moves hs)⟩
        rw [← Bool.not_eq_true]
        exact fun hearly => not_finished_of_pinsEarly hs hearly hf
      simp only [List.forall_mem_append, List.forall_mem_singleton]
      refine ⟨?_, fun hall => (hstep hall.1).mpr hall.2⟩
      rw [ih.1]
      exact and_congr_right hstep

/-- Pinning is safe and leak-free, after every interleaving.  The value under a handle
was also made current, if no reader pinned a buffer between the two stores of its
`commit`; a run with such a pin has a handle on a buffer that was not. -/
theorem snapshot_pinning {value : V} {h : Trace V N} (hrun : Run step (start value) h m)
    (hfew : m.live.length < 2 ^ 31) :
    (∀ s, m.claimed ≠ some s → (m.pub.slots s).refs.toNat = m.live.count s) ∧
      (∀ s, (m.pub.slots s).refs = kWriterOwned ↔ m.claimed = some s) ∧
      (∀ s ∈ m.live, m.claimed ≠ some s ∧
        ∀ op m' out, m.step op = .ok (m', out) →
          (m'.pub.slots s).value = (m.pub.slots s).value) ∧
      (∀ s ∈ m.live, (journal h).handed s = some (m.pub.slots s).value ∧
        (m.committing ≠ some s → (journal h).published s = some (m.pub.slots s).value)) ∧
      ((∀ tr ∈ h, pinsEarly tr.pre tr.op = false) →
        ∀ s ∈ m.live, (journal h).published s = some (m.pub.slots s).value) ∧
      ((∀ tr ∈ h, Finished tr.post) ↔ ∀ tr ∈ h, pinsEarly tr.pre tr.op = false) ∧
      (∀ m', m.step .writer = .ok (m', .failed) →
        ∀ s, m.pub.current ≠ some s → ∃ n, 0 < n ∧ (s, n) ∈ (journal h).tried) := by
  obtain ⟨hc, hj, hn⟩ := reaches hrun
  have hfree : ∀ s ∈ m.live, m.claimed ≠ some s := fun s hs hcl => (hc.owned s hcl).2 hs
  have hvalue : ∀ s ∈ m.live, (journal h).handed s = some (m.pub.slots s).value ∧
      (m.committing ≠ some s → (journal h).published s = some (m.pub.slots s).value) := by
    intro s hs
    obtain ⟨v, hv⟩ := Option.isSome_iff_exists.mp (hj.live s hs)
    have hval := hj.value s v hv (hfree s hs)
    refine ⟨by rw [hv, hval], ?_⟩
    intro hne
    rw [hj.published s hne, hv, hval]
  refine ⟨hc.free, ?_, ?_, hvalue, ?_, (run_finished hrun).1, ?_⟩
  · intro s
    refine ⟨?_, fun hcl => (hc.owned s hcl).1⟩
    intro hr
    by_contra hcl
    have hcount := hc.free s hcl
    have hle : m.live.count s ≤ m.live.length := List.count_le_length
    have howned : kWriterOwned.toNat = 2 ^ 31 := rfl
    rw [hr, howned] at hcount
    omega
  · intro s hs
    exact ⟨hfree s hs, fun op m' out hstep => (step_moves hstep).value_eq hc hs⟩
  · intro hearly s hs
    exact (hvalue s hs).2 ((run_finished hrun).2 hearly s hs)
  · intro m' hstep s hs
    cases step_moves hstep with
    | @fail c a hw ha =>
        obtain ⟨k, hk, rfl⟩ := m.exists_slotAt s
        rcases hn c a hw k (by omega) with hcur | htried
        · exact absurd (hc.scan c a hw ▸ hcur) hs
        · exact htried

/-- The calls of the writer that publish `value`, if its first attempt finds a buffer. -/
def publishes (value : Nat) : List (SnapshotOp Nat 4) :=
  [.beginWrite, .writer, .fill value, .commit, .writer, .writer]

/-- A handle on buffer 0, pinned after a spurious failure, while the writer fills
buffer 1. -/
theorem snapshot_pinning_filling :
    ∃ (h : Trace Nat 4) (m : Snapshots Nat 4), Run step (start 0) h m ∧
      m.live = [0] ∧ m.claimed = some 1 ∧ (m.pub.slots 0).refs.toNat = m.live.count 0 ∧
      (m.pub.slots 1).refs = kWriterOwned ∧
      (journal h).published 0 = some (m.pub.slots 0).value ∧ ∀ tr ∈ h, Finished tr.post := by
  have hex : execCheck step (start 0 : Snapshots Nat 4)
      (publishes 1 ++ [.read 0, .reader 0 false, .reader 0 false, .reader 0 true,
        .reader 0 false, .beginWrite, .writer, .fill 2])
      (fun h m => decide (m.live = [0] ∧ m.claimed = some 1 ∧
        ∀ tr ∈ h, pinsEarly tr.pre tr.op = false)) = true := by
    decide +kernel
  obtain ⟨h, m, hrun, hcheck⟩ := Run.of_execCheck hex
  obtain ⟨hlive, hcl, hearly⟩ := of_decide_eq_true hcheck
  obtain ⟨hfree, howned, -, -, hvalue, hfinished, -⟩ := snapshot_pinning hrun (by simp [hlive])
  exact ⟨h, m, hrun, hlive, hcl, hfree 0 (by simp [hcl]), (howned 1).mpr hcl,
    hvalue hearly 0 (by simp [hlive]), hfinished.mpr hearly⟩

/-- The reader loads `current_`, four publications go by up to the first store of the
fourth `commit`, which has come round to the same buffer, and the reader pins it. -/
def stalledRead : List (SnapshotOp Nat 4) :=
  publishes 1 ++ [.read 0, .reader 0 false] ++ publishes 2 ++ publishes 3 ++ publishes 4 ++
    [.beginWrite, .writer, .fill 5, .commit, .reader 0 false, .reader 0 false]

/-- The handle of `stalledRead` is on a value that was never made current. -/
theorem unfinished_commit_pinned :
    ∃ (h : Trace Nat 4) (m : Snapshots Nat 4), Run step (start 0) h m ∧
      m.live = [0] ∧ m.committing = some 0 ∧ m.pub.current = some 3 ∧
      (m.pub.slots 0).value = 5 ∧ (journal h).published 0 = some 1 := by
  have hex : execCheck step (start 0 : Snapshots Nat 4) stalledRead
      (fun h m => decide (m.live = [0] ∧ m.committing = some 0 ∧ m.pub.current = some 3 ∧
        (m.pub.slots 0).value = 5 ∧ (journal h).published 0 = some 1)) = true := by
    decide +kernel
  obtain ⟨h, m, hrun, hcheck⟩ := Run.of_execCheck hex
  exact ⟨h, m, hrun, of_decide_eq_true hcheck⟩

end Snapshots
end GtpMeter
