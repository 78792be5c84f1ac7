import GtpMeter.SnapshotPinning

/-!
# The order of snapshots

`commit` stores 0 to the count of its buffer before it stores `current_`.  Between
the two stores a reader that loaded this index long ago can pin the buffer, and has
then seen a newer value than the one that is current.

**Results.**
* `snapshot_goes_back`: a reader is given generation 5 and then generation 4.
* `snapshot_reads_ordered`: if no reader pins a buffer between the two stores of its
  `commit`, what a reader is given never gets older.
-/

namespace GtpMeter
namespace Snapshots

open Runs

variable {V : Type} {N : Nat}

/-- The current snapshot is at least of this generation. -/
def Reached (g : V → Nat) (m : Snapshots V N) (handed : Fin N → Option V) (n : Nat) : Prop :=
  ∃ c w, m.pub.current = some c ∧ handed c = some w ∧ n ≤ g w

/-- The generations of the buffers and of the reads. -/
structure Ordered (g : V → Nat) (m : Snapshots V N) (commits : List V)
    (handed : Fin N → Option V) (reads : Nat → List V) : Prop where
  known : ∀ s v, handed s = some v → v ∈ commits
  newest : ∀ s v, m.committing = some s → handed s = some v → ∀ w ∈ commits, g w ≤ g v
  older : ∀ s v, handed s = some v → m.committing ≠ some s → Reached g m handed (g v)
  read : ∀ i, ∀ r ∈ reads i, Reached g m handed (g r)
  aimed : ∀ i s, (m.readers i).aims = some s →
    ∃ v, handed s = some v ∧ ∀ r ∈ reads i, g r ≤ g v
  sorted : ∀ i, ((reads i).map g).Pairwise (· ≤ ·)

variable {g : V → Nat} {m m' : Snapshots V N} {op : SnapshotOp V N} {out : SnapshotOut V N}
  {commits : List V} {handed published : Fin N → Option V} {reads : Nat → List V}

theorem Ordered.start (value : V) :
    Ordered g (start value : Snapshots V N) [] (fun _ => none) (fun _ => []) := by
  constructor <;> simp [Snapshots.start, ReaderPc.aims]

theorem Ordered.setReader (ho : Ordered g m commits handed reads) {i : Nat} {pc : ReaderPc N}
    (haim : ∀ s, pc.aims = some s → ∃ v, handed s = some v ∧ ∀ r ∈ reads i, g r ≤ g v) :
    Ordered g (m.setReader i pc) commits handed reads := by
  exact { ho with aimed := Snapshots.aims_setReader haim ho.aimed }

/-- The writer moves on outside of `commit`. -/
theorem Ordered.writes (ho : Ordered g m commits handed reads)
    (hcur : m'.pub.current = m.pub.current) (hrd : m'.readers = m.readers)
    (hco : m.committing = none) (hco' : m'.committing = none) :
    Ordered g m' commits handed reads := by
  have hreached : ∀ n, Reached g m handed n → Reached g m' handed n := by
    rintro n ⟨c, w, hc, hw, hle⟩
    exact ⟨c, w, by rw [hcur, hc], hw, hle⟩
  refine ⟨ho.known, by simp [hco'], ?_, ?_, ?_, ho.sorted⟩
  · intro s v hs _
    exact hreached _ (ho.older s v hs (by simp [hco]))
  · intro i r hr
    exact hreached _ (ho.read i r hr)
  · rw [hrd]
    exact ho.aimed

theorem Ordered.hand (ho : Ordered g m commits handed reads) (hc : Counted m) {s : Fin N} {v : V}
    (hw : m.writer = .filling) (hs : m.pub.writing = some s) (hnew : ∀ w ∈ commits, g w ≤ g v) :
    Ordered g { m with pub := m.pub.setRefs s 0, writer := .stored } (commits ++ [v])
      (Function.update handed s (some v)) reads := by
  have hcur : m.pub.current ≠ some s := hc.current s hs (by simp [hw])
  have hco : m.committing = none := by simp [committing, hw]
  -- the current buffer is another one
  have hreached : ∀ n, Reached g m handed n → Reached g
      { m with pub := m.pub.setRefs s 0, writer := .stored }
      (Function.update handed s (some v)) n := by
    rintro n ⟨c, w, hcc, hcw, hle⟩
    have hne : c ≠ s := by
      rintro rfl
      exact hcur hcc
    exact ⟨c, w, hcc, by simpa [hne] using hcw, hle⟩
  refine ⟨?_, ?_, ?_, ?_, ?_, ho.sorted⟩
  · intro i w hi
    by_cases his : i = s
    · subst his
      have hvw : v = w := by simpa using hi
      simp [hvw]
    · exact List.mem_append_left _ (ho.known i w (by simpa [his] using hi))
  · intro i w hi hiw x hx
    obtain rfl : s = i := Option.some.inj (hs.symm.trans hi)
    obtain rfl : v = w := by simpa using hiw
    rcases List.mem_append.mp hx with hold | hlast
    · exact hnew x hold
    · exact Nat.le_of_eq (congrArg g (List.mem_singleton.mp hlast))
  · intro i w hiw hi
    have his : i ≠ s := by
      rintro rfl
      exact hi hs
    exact hreached _ (ho.older i w (by simpa [his] using hiw) (by simp [hco]))
  · intro i r hr
    exact hreached _ (ho.read i r hr)
  · intro k i hi
    obtain ⟨w, hiw, hle⟩ := ho.aimed k i hi
    by_cases his : i = s
    · refine ⟨v, by simp [his], ?_⟩
      intro r hr
      exact Nat.le_trans (hle r hr) (hnew w (ho.known i w hiw))
    · exact ⟨w, by simpa [his] using hiw, hle⟩

theorem Ordered.publish (ho : Ordered g m commits handed reads)
    (hj : Committed m handed published) {s : Fin N} (hw : m.writer = .stored)
    (hs : m.pub.writing = some s) :
    Ordered g { m with pub := { m.pub with current := some s }, writer := .published }
      commits handed reads := by
  have hco : m.committing = some s := by simp [committing, hw, hs]
  obtain ⟨v, hv⟩ := Option.isSome_iff_exists.mp (hj.committing s hco)
  have hnew := ho.newest s v hco hv
  refine ⟨ho.known, by simp [committing], ?_, ?_, ho.aimed, ho.sorted⟩
  · intro i w hi _
    exact ⟨s, v, rfl, hv, hnew w (ho.known i w hi)⟩
  · intro i r hr
    obtain ⟨c, w, _, hcw, hle⟩ := ho.read i r hr
    exact ⟨s, v, rfl, hv, Nat.le_trans hle (hnew w (ho.known c w hcw))⟩

theorem Ordered.pin (ho : Ordered g m commits handed reads) (hc : Counted m)
    (hj : Committed m handed published) {i attempt : Nat} {s : Fin N} {refs : UInt32}
    (hr : m.readers i = .pinning attempt s (m.pub.slots s).refs)
    (hlt : (m.pub.slots s).refs < kWriterOwned) (hco : m.committing ≠ some s) :
    Ordered g
      { m.setReader i .idle with
        pub := m.pub.setRefs s refs
        live := s :: m.live }
      commits handed (Function.update reads i (reads i ++ [(m.pub.slots s).value])) := by
  obtain ⟨v, hv, hle⟩ := ho.aimed i s (by rw [hr]; rfl)
  have hval : (m.pub.slots s).value = v := hj.value s v hv (hc.not_claimed hlt)
  have hidle : Ordered g (m.setReader i .idle) commits handed reads :=
    ho.setReader (by simp [ReaderPc.aims])
  rw [hval]
  refine ⟨ho.known, ho.newest, ho.older, ?_, ?_, ?_⟩
  · intro k r hk
    by_cases hki : k = i
    · subst hki
      rw [Function.update_self] at hk
      rcases List.mem_append.mp hk with hold | hlast
      · exact ho.read k r hold
      · rw [List.mem_singleton.mp hlast]
        exact ho.older s v hv hco
    · rw [Function.update_of_ne hki] at hk
      exact ho.read k r hk
  · intro k t hk
    by_cases hki : k = i
    · subst hki
      simp [Snapshots.setReader, ReaderPc.aims] at hk
    · rw [Function.update_of_ne hki]
      exact hidle.aimed k t hk
  · intro k
    by_cases hki : k = i
    · subst hki
      rw [Function.update_self, List.map_append, List.pairwise_append]
      refine ⟨ho.sorted k, by simp, ?_⟩
      intro a ha b hb
      obtain ⟨r, hrm, rfl⟩ := List.mem_map.mp ha
      obtain rfl : b = g v := by simpa using hb
      exact hle r hrm
    · rw [Function.update_of_ne hki]
      exact ho.sorted k

variable [NeZero N]

theorem Ordered.moves {j : Journal V N} (ho : Ordered g m j.commits j.handed j.reads)
    (hc : Counted m) (hj : Committed m j.handed j.published) (hm : Moves m op out m')
    (hearly : pinsEarly m op = false)
    (hinc : ((j.note ⟨m, op, out, m'⟩).commits.map g).Pairwise (· ≤ ·)) :
    Ordered g m' (j.note ⟨m, op, out, m'⟩).commits (j.note ⟨m, op, out, m'⟩).handed
      (j.note ⟨m, op, out, m'⟩).reads := by
  cases hm with
  | begin hw | skip hw | busy hw | claim hw | fail hw
  | bump hw => exact ho.writes rfl rfl (by simp [committing, hw]) (by simp [committing])
  | fill hw => exact ho.writes rfl rfl (by simp [committing, hw]) (by simp [committing, hw])
  | nothing => exact ho
  | @hand s hw hs =>
      refine ho.hand hc (hc.filling hw hs) hs ?_
      intro w hmem
      have hinc' : ((j.commits ++ [(m.pub.slots s).value]).map g).Pairwise (· ≤ ·) := hinc
      rw [List.map_append, List.pairwise_append] at hinc'
      exact hinc'.2.2 _ (List.mem_map_of_mem hmem) _ (by simp)
  | publish hw hs => exact ho.publish hj hw hs
  | read | invalid | retry => exact ho.setReader (by simp [ReaderPc.aims])
  | @load i _ _ s _ _ hcur =>
      refine ho.setReader ?_
      intro t ht
      obtain rfl := Option.some.inj ht
      obtain ⟨v, hv⟩ := Option.isSome_iff_exists.mp (hj.current s hcur)
      refine ⟨v, hv, ?_⟩
      intro r hr
      obtain ⟨c, w, hcc, hcw, hle⟩ := ho.read i r hr
      obtain rfl : c = s := Option.some.inj (hcc.symm.trans hcur)
      obtain rfl : w = v := Option.some.inj (hcw.symm.trans hv)
      exact hle
  | @refs i _ _ s haim =>
      refine ho.setReader ?_
      intro t ht
      obtain rfl := Option.some.inj ht
      exact ho.aimed i s haim
  | @pin i a s hr hlt =>
      refine ho.pin hc hj hr hlt ?_
      simpa [pinsEarly, hr, hlt] using hearly
  | drop => exact ⟨ho.known, ho.newest, ho.older, ho.read, ho.aimed, ho.sorted⟩

omit [NeZero N] in
/-- What was handed to `commit` before a step was so after it. -/
theorem note_commits (j : Journal V N)
    (tr : Transition (Snapshots V N) (SnapshotOp V N) (SnapshotOut V N)) :
    j.commits <+: (j.note tr).commits := by
  unfold Journal.note
  split <;> simp

/-- If no reader pins a buffer between the two stores of its `commit`, and the
generations handed to `commit` do not go back, no reader goes back. -/
theorem snapshot_reads_ordered {value : V} {h : Trace V N} (hrun : Run step (start value) h m)
    (hinc : ((journal h).commits.map g).Pairwise (· ≤ ·))
    (hearly : ∀ tr ∈ h, pinsEarly tr.pre tr.op = false) (i : Nat) :
    (((journal h).reads i).map g).Pairwise (· ≤ ·) := by
  have hall : Counted m ∧ Committed m (journal h).handed (journal h).published ∧
      (((journal h).commits.map g).Pairwise (· ≤ ·) →
        Ordered g m (journal h).commits (journal h).handed (journal h).reads) := by
    refine hrun.simulate (R := fun m (j : Journal V N) =>
      Counted m ∧ Committed m j.handed j.published ∧
        ((j.commits.map g).Pairwise (· ≤ ·) → Ordered g m j.commits j.handed j.reads))
      (G := fun tr => pinsEarly tr.pre tr.op = false) ?_ ?_ hearly
    · exact ⟨Counted.start value, Committed.start value, fun _ => Ordered.start value⟩
    · rintro m j op m' out ⟨hc, hj, ho⟩ hs hG
      have hm := step_moves hs
      refine ⟨hc.moves hm, hj.moves hc hm, ?_⟩
      intro hinc'
      have hpre := hinc'.sublist ((note_commits j ⟨m, op, out, m'⟩).sublist.map g)
      exact (ho hpre).moves hc hj hm hG hinc'
  exact (hall.2.2 hinc).sorted i

/-- A whole `read` of reader 0, if it pins at its first attempt. -/
def readsOnce : List (SnapshotOp Nat 4) :=
  [.read 0, .reader 0 false, .reader 0 false, .reader 0 false]

/-- Two reads with a publication between them. -/
theorem snapshot_reads_ordered_two :
    ∃ (h : Trace Nat 4) (m : Snapshots Nat 4), Run step (start 0) h m ∧
      (journal h).reads 0 = [1, 2] ∧ (((journal h).reads 0).map id).Pairwise (· ≤ ·) := by
  have hex : execCheck step (start 0 : Snapshots Nat 4)
      (publishes 1 ++ readsOnce ++ publishes 2 ++ readsOnce)
      (fun h _ => decide ((journal h).reads 0 = [1, 2] ∧
        ((journal h).commits.map id).Pairwise (· ≤ ·) ∧
        ∀ tr ∈ h, pinsEarly tr.pre tr.op = false)) = true := by
    decide +kernel
  obtain ⟨h, m, hrun, hcheck⟩ := Run.of_execCheck hex
  obtain ⟨hreads, hinc, hearly⟩ := of_decide_eq_true hcheck
  exact ⟨h, m, hrun, hreads, snapshot_reads_ordered hrun hinc hearly 0⟩

/-- The reader pins generation 5 before it is current, and its next read gives the
generation before. -/
theorem snapshot_goes_back :
    ∃ (h : Trace Nat 4) (m : Snapshots Nat 4), Run step (start 0) h m ∧
      (journal h).commits = [1, 2, 3, 4, 5] ∧ (journal h).reads 0 = [5, 4] := by
  have hex : execCheck step (start 0 : Snapshots Nat 4)
      (stalledRead ++ [.drop 0] ++ readsOnce)
      (fun h _ => decide ((journal h).commits = [1, 2, 3, 4, 5] ∧
        (journal h).reads 0 = [5, 4])) = true := by
    decide +kernel
  obtain ⟨h, m, hrun, hcheck⟩ := Run.of_execCheck hex
  exact ⟨h, m, hrun, of_decide_eq_true hcheck⟩

end Snapshots
end GtpMeter
