import GtpMeter.ReleaseAcquire

/-!
# Locations with one writer

A location that one thread alone stores to.  Its view of the location is the newest, and
the stores can be numbered: what another thread loads is a store of a number that is not
below the last it knew.

**Results.**
* `Owned`: the steps that keep the writer the only one.
* `Timeline`: the stores, numbered, and what their messages carry.
-/

namespace GtpMeter
namespace ReleaseAcquire
namespace Memory

variable {L Tid C V D : Type}
  {m m' : Memory L Tid C V D} {t u w : Tid} {l l' : L} {ts ts' : Nat} {o : LoadOrder}
  {so : StoreOrder} {val : V} {msg : Message L Tid V} {c : C} {a : Access} {d : D}

/-- Only the owner `w` stores to `l`: its view of `l` is the newest, and no view is
beyond it. -/
structure Owned (m : Memory L Tid C V D) (l : L) (w : Tid) : Prop where
  latest : ∀ ts msg, m.history l ts = some msg → ts ≤ (m.threads w).cur (.inl l)
  own : ∀ ts msg, m.history l ts = some msg → msg.view (.inl l) ≤ ts
  threads : ∀ u, (m.threads u).acq (.inl l) ≤ (m.threads w).cur (.inl l)
  messages : ∀ l' ts msg, m.history l' ts = some msg →
    msg.view (.inl l) ≤ (m.threads w).cur (.inl l)

theorem init_owned (val : L → V) (value : C → D) :
    (init val value : Memory L Tid C V D).Owned l w := by
  refine ⟨?_, ?_, fun u => le_rfl, ?_⟩
  · intro ts msg h
    simp only [init] at h
    split_ifs at h with hts
    exact hts.le
  · intro ts msg h
    simp only [init] at h
    split_ifs at h with hts
    obtain rfl := Option.some.inj h
    exact Nat.zero_le _
  · intro l' ts msg h
    simp only [init] at h
    split_ifs at h with hts
    obtain rfl := Option.some.inj h
    exact le_rfl

section Steps

variable [DecidableEq Tid]

/-- A view between the owner's and the bound is the owner's. -/
theorem Owned.of_threads (ho : m.Owned l w) {g : Thread L Tid → Thread L Tid}
    (hle : (m.threads t).cur ≤ (g (m.threads t)).cur)
    (hacq : (g (m.threads t)).acq (.inl l) ≤ (m.threads w).cur (.inl l)) :
    (m.onThread t g).Owned l w ∧
      ((m.onThread t g).threads w).cur (.inl l) = (m.threads w).cur (.inl l) := by
  have hcur : ((m.onThread t g).threads w).cur (.inl l) = (m.threads w).cur (.inl l) := by
    by_cases hw : w = t
    · subst hw
      rw [onThread_self]
      exact le_antisymm (le_trans ((g (m.threads w)).cur_le _) hacq) (hle _)
    · rw [onThread_ne hw]
  refine ⟨⟨?_, ho.own, ?_, ?_⟩, hcur⟩
  · rw [hcur]
    exact ho.latest
  · intro u
    rw [hcur]
    by_cases hu : u = t
    · subst hu
      rwa [onThread_self]
    · rw [onThread_ne hu]
      exact ho.threads u
  · rw [hcur]
    exact ho.messages

variable [DecidableEq L]

/-- A load keeps the owner's place. -/
theorem Owned.load (ho : m.Owned l w) (h : m.load t o l' ts = .ok (val, m')) :
    m'.Owned l w ∧ (m'.threads w).cur (.inl l) = (m.threads w).cur (.inl l) := by
  obtain ⟨msg, hmsg, -, -, rfl⟩ := load_ok h
  refine ho.of_threads (le_trans Thread.le_advance Thread.le_observe) ?_
  refine Thread.load_acq_le (ho.threads t) ?_ (ho.messages _ _ _ hmsg)
  intro heq
  obtain rfl := Sum.inl.inj heq
  exact ho.latest _ _ hmsg

/-- The owner finds the newest message. -/
theorem Owned.load_own (ho : m.Owned l w) (h : m.load w o l ts = .ok (val, m')) :
    ts = (m.threads w).cur (.inl l) := by
  obtain ⟨msg, hmsg, hle, -, -⟩ := load_ok h
  exact le_antisymm (ho.latest _ _ hmsg) hle

/-- A thread that loads `l` is then where the message is. -/
theorem Owned.load_at (ho : m.Owned l w) (h : m.load t o l ts = .ok (val, m')) :
    (m'.threads t).cur (.inl l) = ts := by
  obtain ⟨msg, hmsg, hle, -, rfl⟩ := load_ok h
  have hadv : ((m.threads t).advance (.inl l) ts).cur (.inl l) = ts := by
    rw [Thread.advance_self]
    exact max_eq_right hle
  rw [onThread_self]
  cases o with
  | relaxed => exact hadv
  | acquire =>
      refine le_antisymm (sup_le hadv.le (ho.own _ _ hmsg)) ?_
      exact le_trans hadv.ge le_sup_left

/-- A store to another location. -/
theorem Owned.store_ne (ho : m.Owned l w) (hne : l' ≠ l)
    (h : m.store t so l' val ts = .ok m') :
    m'.Owned l w ∧ (m'.threads w).cur (.inl l) = (m.threads w).cur (.inl l) := by
  obtain ⟨-, rfl⟩ := store_ok h
  have hne' : (Sum.inl l : L ⊕ Tid) ≠ .inl l' := fun heq => hne (Sum.inl.inj heq).symm
  obtain ⟨hthreads, hcur⟩ := ho.of_threads (t := t) (g := fun th => th.advance (.inl l') ts)
    Thread.le_advance ((Thread.advance_acq_ne hne').trans_le (ho.threads t))
  have hnew : ((m.threads t).advance (.inl l') ts).released so l' ts (.inl l) ≤
      (m.threads w).cur (.inl l) := by
    have hcurt : (m.threads t).cur (.inl l) ≤ (m.threads w).cur (.inl l) :=
      le_trans ((m.threads t).cur_le _) (ho.threads t)
    cases so with
    | release =>
        simp only [Thread.released, Thread.advance_ne hne']
        exact hcurt
    | relaxed =>
        refine sup_le (le_trans ((m.threads t).rel_le _) hcurt) ?_
        simp [Function.update_of_ne hne']
  refine ⟨⟨?_, ?_, hthreads.threads, ?_⟩, hcur⟩
  · intro ts' msg hmsg
    rcases publish_history hmsg with ⟨heq, -⟩ | hold
    · exact absurd heq.symm hne
    · exact hthreads.latest _ _ hold
  · intro ts' msg hmsg
    rcases publish_history hmsg with ⟨heq, -⟩ | hold
    · exact absurd heq.symm hne
    · exact hthreads.own _ _ hold
  · intro l'' ts' msg hmsg
    rw [publish_threads, hcur]
    rcases publish_history hmsg with ⟨-, -, rfl⟩ | hold
    · exact hnew
    · exact ho.messages _ _ _ hold

/-- A store of the owner is the newest message. -/
theorem Owned.store (ho : m.Owned l w) (h : m.store w so l val ts = .ok m') :
    m'.Owned l w ∧ (m'.threads w).cur (.inl l) = ts := by
  obtain ⟨hlt, rfl⟩ := store_ok h
  have hcur : ((m.threads w).advance (.inl l) ts).cur (.inl l) = ts := by
    rw [Thread.advance_self]
    exact max_eq_right hlt.le
  have hnew : ((m.threads w).advance (.inl l) ts).released so l ts (.inl l) ≤ ts := by
    cases so with
    | release => exact hcur.le
    | relaxed =>
        refine sup_le (le_trans ((m.threads w).rel_le _) hlt.le) ?_
        simp
  have hself : ((m.onThread w (fun th => th.advance (.inl l) ts)).threads w).cur (.inl l) = ts := by
    rw [onThread_self, hcur]
  refine ⟨⟨?_, ?_, ?_, ?_⟩, hself⟩
  · intro ts' msg hmsg
    rw [publish_threads, hself]
    rcases publish_history hmsg with ⟨-, rfl, -⟩ | hold
    · exact le_rfl
    · exact le_trans (ho.latest _ _ hold) hlt.le
  · intro ts' msg hmsg
    rcases publish_history hmsg with ⟨-, rfl, rfl⟩ | hold
    · exact hnew
    · exact ho.own _ _ hold
  · intro u
    rw [publish_threads, hself]
    by_cases hu : u = w
    · subst hu
      rw [onThread_self]
      refine sup_le (le_trans (ho.threads u) hlt.le) ?_
      simp
    · rw [onThread_ne hu]
      exact le_trans (ho.threads u) hlt.le
  · intro l' ts' msg hmsg
    rw [publish_threads, hself]
    rcases publish_history hmsg with ⟨-, -, rfl⟩ | hold
    · exact hnew
    · exact le_trans (ho.messages _ _ _ hold) hlt.le

/-- Accesses to cells do not concern the locations. -/
theorem Owned.touch [DecidableEq C] (ho : m.Owned l w) :
    (m.touch t a c d).Owned l w ∧
      ((m.touch t a c d).threads w).cur (.inl l) = (m.threads w).cur (.inl l) := by
  have hne : (Sum.inl l : L ⊕ Tid) ≠ .inr t := Sum.inl_ne_inr
  obtain ⟨hthreads, hcur⟩ := ho.of_threads (t := t)
    (g := fun th => th.advance (.inr t) ((m.threads t).cur (.inr t) + 1))
    Thread.le_advance ((Thread.advance_acq_ne hne).trans_le (ho.threads t))
  exact ⟨⟨hthreads.latest, hthreads.own, hthreads.threads, hthreads.messages⟩, hcur⟩

end Steps

/-- The stores to an owned location, numbered: `log` is the number of the store at a
timestamp or before it, the store of number `n` has the value `val n`, and what its
message carries satisfies `I n`. -/
structure Timeline (m : Memory L Tid C V D) (l : L) (w : Tid) (val : Nat → V)
    (I : Nat → View L Tid → Prop) (newest : Nat) (log : Nat → Nat) : Prop where
  owned : m.Owned l w
  ordered : ∀ ts ts', ts ≤ ts' → log ts ≤ log ts'
  bounded : ∀ ts, log ts ≤ newest
  newest_eq : log ((m.threads w).cur (.inl l)) = newest
  messages : ∀ ts msg, m.history l ts = some msg → msg.val = val (log ts) ∧ I (log ts) msg.view

variable {vals vals' : Nat → V} {I I' : Nat → View L Tid → Prop} {newest : Nat} {log : Nat → Nat}

theorem init_timeline {val : L → V} {value : C → D} (hval : val l = vals 0) (hI : I 0 ⊥) :
    (init val value : Memory L Tid C V D).Timeline l w vals I 0 (fun _ => 0) := by
  refine ⟨init_owned val value, fun _ _ _ => le_rfl, fun _ => le_rfl, rfl, ?_⟩
  intro ts msg hmsg
  simp only [init] at hmsg
  split_ifs at hmsg
  obtain rfl := Option.some.inj hmsg
  exact ⟨hval, hI⟩

theorem Timeline.imp (hl : m.Timeline l w vals I newest log)
    (himp : ∀ n v, n ≤ newest → I n v → vals' n = vals n ∧ I' n v) :
    m.Timeline l w vals' I' newest log := by
  refine { hl with messages := ?_ }
  intro ts msg hmsg
  obtain ⟨hval, hI⟩ := hl.messages ts msg hmsg
  obtain ⟨heq, hI'⟩ := himp _ _ (hl.bounded ts) hI
  exact ⟨hval.trans heq.symm, hI'⟩

variable [DecidableEq Tid]

theorem Timeline.fenceAcquire (hl : m.Timeline l w vals I newest log) :
    (m.fenceAcquire t).Timeline l w vals I newest log := by
  obtain ⟨howned, hcur⟩ := hl.owned.of_threads (t := t) (g := Thread.fenceAcquire)
    (m.threads t).cur_le (hl.owned.threads t)
  exact ⟨howned, hl.ordered, hl.bounded, hcur ▸ hl.newest_eq, hl.messages⟩

theorem Timeline.fenceRelease (hl : m.Timeline l w vals I newest log) :
    (m.fenceRelease t).Timeline l w vals I newest log := by
  obtain ⟨howned, hcur⟩ := hl.owned.of_threads (t := t) (g := Thread.fenceRelease)
    le_rfl (hl.owned.threads t)
  exact ⟨howned, hl.ordered, hl.bounded, hcur ▸ hl.newest_eq, hl.messages⟩

variable [DecidableEq L]

/-- Any load leaves the stores as they are. -/
theorem Timeline.load (hl : m.Timeline l w vals I newest log)
    (h : m.load t o l' ts = .ok (val, m')) : m'.Timeline l w vals I newest log := by
  obtain ⟨howned, hcur⟩ := hl.owned.load h
  obtain ⟨msg, -, -, -, rfl⟩ := load_ok h
  exact ⟨howned, hl.ordered, hl.bounded, hcur ▸ hl.newest_eq, hl.messages⟩

/-- What a load returns: the value of a store that is not older than what the thread
knew, with what that store passed on. -/
theorem Timeline.load_val (hl : m.Timeline l w vals I newest log)
    (h : m.load t o l ts = .ok (val, m')) :
    ∃ msg, m.history l ts = some msg ∧ val = vals (log ts) ∧ I (log ts) msg.view ∧
      log ((m.threads t).cur (.inl l)) ≤ log ts ∧ (m'.threads t).cur (.inl l) = ts := by
  have hat := hl.owned.load_at h
  obtain ⟨msg, hmsg, hle, rfl, -⟩ := load_ok h
  obtain ⟨hval, hI⟩ := hl.messages ts msg hmsg
  exact ⟨msg, hmsg, hval, hI, hl.ordered _ _ hle, hat⟩

/-- The owner finds its own last store. -/
theorem Timeline.load_own (hl : m.Timeline l w vals I newest log)
    (h : m.load w o l ts = .ok (val, m')) : val = vals newest := by
  obtain ⟨msg, -, hval, -⟩ := hl.load_val h
  rw [hval, hl.owned.load_own h, hl.newest_eq]

/-- Numbers of stores after one more, number `n` at `ts`. -/
def logged (log : Nat → Nat) (ts n : Nat) : Nat → Nat :=
  fun ts' => if ts' < ts then log ts' else n

theorem le_logged {n : Nat} (hbound : ∀ ts, log ts ≤ n) (ts' : Nat) :
    log ts' ≤ logged log ts n ts' := by
  unfold logged
  split_ifs
  · exact le_rfl
  · exact hbound ts'

theorem logged_of_lt {n : Nat} (hlt : ts' < ts) : logged log ts n ts' = log ts' :=
  if_pos hlt

theorem logged_self {n : Nat} : logged log ts n ts = n :=
  if_neg (lt_irrefl _)

/-- The owner stores once more. -/
theorem Timeline.store {n : Nat} (hl : m.Timeline l w vals I newest log) (hn : newest ≤ n)
    (h : m.store w so l (vals n) ts = .ok m')
    (hI : I n (((m.threads w).advance (.inl l) ts).released so l ts)) :
    m'.Timeline l w vals I n (logged log ts n) := by
  obtain ⟨howned, hcur⟩ := hl.owned.store h
  obtain ⟨hlt, rfl⟩ := store_ok h
  refine ⟨howned, ?_, ?_, ?_, ?_⟩
  · intro i j hij
    have hi := hl.bounded i
    have hmono := hl.ordered i j hij
    unfold logged
    split_ifs <;> omega
  · intro i
    have hi := hl.bounded i
    unfold logged
    split_ifs <;> omega
  · rw [hcur, logged_self]
  · intro ts' msg hmsg
    rcases publish_history hmsg with ⟨-, rfl, rfl⟩ | hmsg
    · rw [logged_self]
      exact ⟨rfl, hI⟩
    · rw [logged_of_lt (lt_of_le_of_lt (hl.owned.latest _ _ hmsg) hlt)]
      exact hl.messages ts' msg hmsg

/-- A store to another location. -/
theorem Timeline.store_ne (hl : m.Timeline l w vals I newest log) (hne : l' ≠ l)
    (h : m.store t so l' val ts = .ok m') : m'.Timeline l w vals I newest log := by
  obtain ⟨howned, hcur⟩ := hl.owned.store_ne hne h
  obtain ⟨-, rfl⟩ := store_ok h
  refine ⟨howned, hl.ordered, hl.bounded, hcur ▸ hl.newest_eq, ?_⟩
  intro ts' msg hmsg
  rcases publish_history hmsg with ⟨heq, -⟩ | hmsg
  · exact absurd heq.symm hne
  · exact hl.messages ts' msg hmsg

theorem Timeline.touch [DecidableEq C] (hl : m.Timeline l w vals I newest log) :
    (m.touch t a c d).Timeline l w vals I newest log := by
  obtain ⟨howned, hcur⟩ := hl.owned.touch (t := t) (a := a) (c := c) (d := d)
  exact ⟨howned, hl.ordered, hl.bounded, hcur ▸ hl.newest_eq, hl.messages⟩

end Memory
end ReleaseAcquire
end GtpMeter
