import GtpMeter.SingleWriter

/-!
# Cells that a counter hands over

One thread counts in a location that it alone stores to, and the count tells another
thread which cells it may use: a count of `n` stands for the cells below `n + ahead`.
The stores are `release` and the loads of the other thread are `acquire`, so that who
has read the count knows of the accesses that were made to the cells before.  The other
thread may read an old count; it never reads one that is older than its last.

**Results.**
* `Open.load`: what a load of the count gives.
* `Open.covered`: the accesses to the cells handed over are known.
* `Open.store`, `Open.touch`: how the two threads go on.
-/

namespace GtpMeter
namespace ReleaseAcquire

/-- The location of a count, who stores and who loads it, and what it hands over: the
`access`es that the writer made to the cells. -/
structure Channel (L Tid C V : Type) where
  loc : L
  writer : Tid
  reader : Tid
  access : Access
  val : Nat → V
  cell : Nat → C
  ahead : Nat

namespace Channel

variable {L Tid C V D : Type}

/-- The accesses to the cells from `lo` to below `hi` are known. -/
def Covers (ch : Channel L Tid C V) (m : Memory L Tid C V D) (lo hi : Nat) (view : View L Tid) :
    Prop :=
  ∀ i, lo ≤ i → i < hi → Memory.Known ((m.cells (ch.cell i)).done ch.access) view

/-- The state of a channel: the newest count and the one that the reader has seen.
Cells before `lo` are in use again. -/
structure Logged (ch : Channel L Tid C V) (m : Memory L Tid C V D) (lo newest seen : Nat)
    (log : Nat → Nat) : Prop
    extends m.Timeline ch.loc ch.writer ch.val (fun n view => ch.Covers m lo (n + ch.ahead) view)
      newest log where
  seen_eq : log ((m.threads ch.reader).cur (.inl ch.loc)) = seen
  covered : ch.Covers m lo (seen + ch.ahead) (m.threads ch.reader).cur
  own : ∀ c, Memory.Known ((m.cells c).done ch.access) (m.threads ch.writer).cur

def Open (ch : Channel L Tid C V) (m : Memory L Tid C V D) (lo newest seen : Nat) : Prop :=
  ∃ log, ch.Logged m lo newest seen log

variable {ch : Channel L Tid C V} {m m' : Memory L Tid C V D} {lo newest seen ts : Nat}
  {o : LoadOrder} {so : StoreOrder} {l : L} {val : V} {c : C} {d : D} {a : Access}

theorem Covers.mono {hi : Nat} {v v' : View L Tid} (h : ch.Covers m lo hi v) (hle : v ≤ v') :
    ch.Covers m lo hi v' :=
  fun i hlo hhi => (h i hlo hhi).mono hle

theorem Open.covered (ho : ch.Open m lo newest seen) {i : Nat} (hlo : lo ≤ i)
    (hhi : i < seen + ch.ahead) :
    Memory.Known ((m.cells (ch.cell i)).done ch.access) (m.threads ch.reader).cur := by
  obtain ⟨log, hlog⟩ := ho
  exact hlog.covered i hlo hhi

theorem Open.own (ho : ch.Open m lo newest seen) (c : C) :
    Memory.Known ((m.cells c).done ch.access) (m.threads ch.writer).cur := by
  obtain ⟨log, hlog⟩ := ho
  exact hlog.own c

theorem init_open {val : L → V} {value : C → D} (hval : val ch.loc = ch.val 0) :
    ch.Open (Memory.init val value : Memory L Tid C V D) 0 0 0 := by
  have hnone : ∀ hi v, ch.Covers (Memory.init val value : Memory L Tid C V D) 0 hi v :=
    fun hi v i _ _ a ha => absurd ha List.not_mem_nil
  refine ⟨fun _ => 0, Memory.init_timeline hval (hnone _ _), rfl, hnone _ _, ?_⟩
  exact fun c a ha => absurd ha List.not_mem_nil

variable [DecidableEq L] [DecidableEq Tid]

/-- The reader loads the count. -/
theorem Open.load (ho : ch.Open m lo newest seen)
    (h : m.load ch.reader .acquire ch.loc ts = .ok (val, m')) :
    ∃ n, seen ≤ n ∧ n ≤ newest ∧ val = ch.val n ∧ ch.Open m' lo newest n := by
  obtain ⟨log, hlog⟩ := ho
  obtain ⟨msg, hmsg, hval, hcovers, hle, hat⟩ := hlog.load_val h
  have htime := hlog.toTimeline.load h
  obtain ⟨msg', hmsg', -, -, rfl⟩ := Memory.load_ok h
  obtain rfl : msg' = msg := Option.some.inj (hmsg'.symm.trans hmsg)
  rw [hlog.seen_eq] at hle
  refine ⟨log ts, hle, hlog.bounded ts, hval, log, htime, by rw [hat], ?_, ?_⟩
  · refine hcovers.mono ?_
    rw [Memory.onThread_self]
    exact Thread.observe_acquire
  · intro c
    refine (hlog.own c).mono ?_
    by_cases hw : ch.writer = ch.reader
    · rw [hw, Memory.onThread_self]
      exact le_trans Thread.le_advance Thread.le_observe
    · rw [Memory.onThread_ne hw]

/-- The writer loads any location. -/
theorem Open.load_writer (ho : ch.Open m lo newest seen) (hne : ch.reader ≠ ch.writer)
    (h : m.load ch.writer o l ts = .ok (val, m')) : ch.Open m' lo newest seen := by
  obtain ⟨log, hlog⟩ := ho
  have htime := hlog.toTimeline.load h
  obtain ⟨msg, -, -, -, rfl⟩ := Memory.load_ok h
  refine ⟨log, htime, ?_, ?_, ?_⟩
  · rw [Memory.onThread_ne hne, hlog.seen_eq]
  · rw [Memory.onThread_ne hne]
    exact hlog.covered
  · intro c
    refine (hlog.own c).mono ?_
    rw [Memory.onThread_self]
    exact le_trans Thread.le_advance Thread.le_observe

/-- The reader loads another location, `relaxed`. -/
theorem Open.load_reader (ho : ch.Open m lo newest seen) (hne : ch.reader ≠ ch.writer)
    (hl : l ≠ ch.loc) (h : m.load ch.reader .relaxed l ts = .ok (val, m')) :
    ch.Open m' lo newest seen := by
  obtain ⟨log, hlog⟩ := ho
  have htime := hlog.toTimeline.load h
  obtain ⟨msg, -, -, -, rfl⟩ := Memory.load_ok h
  have hne' : (Sum.inl ch.loc : L ⊕ Tid) ≠ .inl l := fun heq => hl (Sum.inl.inj heq).symm
  refine ⟨log, htime, ?_, ?_, ?_⟩
  · rw [Memory.onThread_self]
    exact (congrArg log (Thread.advance_ne hne')).trans hlog.seen_eq
  · refine hlog.covered.mono ?_
    rw [Memory.onThread_self]
    exact le_trans Thread.le_advance Thread.le_observe
  · intro c
    rw [Memory.onThread_ne hne.symm]
    exact hlog.own c

/-- The writer finds its own count. -/
theorem Open.load_own (ho : ch.Open m lo newest seen)
    (h : m.load ch.writer o ch.loc ts = .ok (val, m')) : val = ch.val newest := by
  obtain ⟨log, hlog⟩ := ho
  exact hlog.toTimeline.load_own h

/-- The writer counts on. -/
theorem Open.store {n : Nat} (ho : ch.Open m lo newest seen) (hne : ch.reader ≠ ch.writer)
    (hn : newest ≤ n) (h : m.store ch.writer .release ch.loc (ch.val n) ts = .ok m') :
    ch.Open m' lo n seen := by
  obtain ⟨log, hlog⟩ := ho
  have htime := hlog.toTimeline.store hn h
    (fun i _ _ => (hlog.own (ch.cell i)).mono Thread.le_advance)
  obtain ⟨hlt, rfl⟩ := Memory.store_ok h
  refine ⟨Memory.logged log ts n, htime, ?_, ?_, ?_⟩
  · rw [Memory.publish_threads, Memory.onThread_ne hne, Memory.logged_of_lt, hlog.seen_eq]
    exact lt_of_le_of_lt (le_trans ((m.threads ch.reader).cur_le _) (hlog.owned.threads _)) hlt
  · rw [Memory.publish_threads, Memory.onThread_ne hne]
    exact hlog.covered
  · intro c
    refine (hlog.own c).mono ?_
    rw [Memory.publish_threads, Memory.onThread_self]
    exact Thread.le_advance

/-- The reader stores to another location. -/
theorem Open.store_reader (ho : ch.Open m lo newest seen) (hne : ch.reader ≠ ch.writer)
    (hl : l ≠ ch.loc) (h : m.store ch.reader so l val ts = .ok m') :
    ch.Open m' lo newest seen := by
  obtain ⟨log, hlog⟩ := ho
  have htime := hlog.toTimeline.store_ne hl h
  obtain ⟨-, rfl⟩ := Memory.store_ok h
  have hne' : (Sum.inl ch.loc : L ⊕ Tid) ≠ .inl l := fun heq => hl (Sum.inl.inj heq).symm
  refine ⟨log, htime, ?_, ?_, ?_⟩
  · rw [Memory.publish_threads, Memory.onThread_self, Thread.advance_ne hne', hlog.seen_eq]
  · refine hlog.covered.mono ?_
    rw [Memory.publish_threads, Memory.onThread_self]
    exact Thread.le_advance
  · intro c
    rw [Memory.publish_threads, Memory.onThread_ne hne.symm]
    exact hlog.own c

variable [DecidableEq C]

/-- The writer accesses a cell that no count from `lo'` on stands for. -/
theorem Open.touch {lo' x : Nat} (ho : ch.Open m lo newest seen) (hne : ch.reader ≠ ch.writer)
    (hlo : lo ≤ lo')
    (hfree : ∀ i, lo' ≤ i → i < newest + ch.ahead → ch.cell i ≠ ch.cell x) :
    ch.Open (m.touch ch.writer ch.access (ch.cell x) d) lo' newest seen := by
  obtain ⟨log, hlog⟩ := ho
  have hcovers : ∀ n v, n ≤ newest → ch.Covers m lo (n + ch.ahead) v →
      ch.Covers (m.touch ch.writer ch.access (ch.cell x) d) lo' (n + ch.ahead) v := by
    intro n v hn hc i hi hhi
    rw [Memory.touch_cell_ne (hfree i hi (by omega))]
    exact hc i (le_trans hlo hi) hhi
  have hseen : seen ≤ newest := by
    rw [← hlog.seen_eq]
    exact hlog.bounded _
  refine ⟨log, hlog.toTimeline.touch.imp (fun n v hn hc => ⟨rfl, hcovers n v hn hc⟩), ?_, ?_, ?_⟩
  · rw [Memory.touch_ne hne, hlog.seen_eq]
  · rw [Memory.touch_ne hne]
    exact hcovers _ _ hseen hlog.covered
  · intro c p hp
    rw [Memory.touch_self]
    by_cases hc : c = ch.cell x
    · subst hc
      rw [Memory.touch_done] at hp
      rcases List.mem_cons.mp hp with rfl | hp
      · rw [Thread.advance_self]
        exact le_max_right _ _
      · exact le_trans (hlog.own _ p hp) (Thread.le_advance _)
    · rw [Memory.touch_cell_ne hc] at hp
      exact le_trans (hlog.own _ p hp) (Thread.le_advance _)

/-- The reader makes accesses of the other kind. -/
theorem Open.touch_reader (ho : ch.Open m lo newest seen) (hne : ch.reader ≠ ch.writer)
    (ha : ch.access ≠ a) : ch.Open (m.touch ch.reader a c d) lo newest seen := by
  obtain ⟨log, hlog⟩ := ho
  have hcovers : ∀ hi v, ch.Covers m lo hi v → ch.Covers (m.touch ch.reader a c d) lo hi v := by
    intro hi v hc i hlo hhi
    rw [Memory.touch_done_ne ha]
    exact hc i hlo hhi
  refine ⟨log, hlog.toTimeline.touch.imp (fun n v _ hc => ⟨rfl, hcovers _ v hc⟩), ?_, ?_, ?_⟩
  · rw [Memory.touch_self, Thread.advance_ne Sum.inl_ne_inr, hlog.seen_eq]
  · refine (hcovers _ _ hlog.covered).mono ?_
    rw [Memory.touch_self]
    exact Thread.le_advance
  · intro c'
    rw [Memory.touch_done_ne ha, Memory.touch_ne hne.symm]
    exact hlog.own c'

end Channel
end ReleaseAcquire
end GtpMeter
