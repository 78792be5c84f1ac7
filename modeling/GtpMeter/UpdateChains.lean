import GtpMeter.ReleaseAcquire

/-!
# Chains of updates

A location that many threads change with read-modify-write operations.  An update goes
right behind the message it read, so two updates never read the same message, and the
messages since the last plain store are a chain.  What a message passes on reaches every
later one of its chain.

**Results.**
* `Chain.at_top`: an update is made at the end of the chain.
* `Chain.publish_next`, `Chain.publish_store`: one more update, and a store that begins a
  new chain.
-/

namespace GtpMeter
namespace ReleaseAcquire
namespace Memory

variable {L Tid C V D : Type}
  {m m' : Memory L Tid C V D} {t u w : Tid} {l l' : L} {ts ts' : Nat} {o : LoadOrder}
  {so : StoreOrder} {val : V} {msg : Message L Tid V} {c : C} {a : Access} {d : D}

/-- The messages of a location that many threads update: from `base` to `top` each is
right behind the one before, and a message before `base` has another right behind it or a
`dead` value, on which no update is made. -/
structure Chain (history : Nat → Option (Message L Tid V)) (dead : V → Prop) (base top : Nat) :
    Prop where
  le : base ≤ top
  present : ∀ ts, base ≤ ts → ts ≤ top → history ts ≠ none
  last : ∀ ts, history ts ≠ none → ts ≤ top
  old : ∀ ts msg, history ts = some msg → ts < base → dead msg.val ∨ history (ts + 1) ≠ none

variable {dead : V → Prop} {base top : Nat}

theorem init_chain (val : L → V) (value : C → D) :
    Chain ((init val value : Memory L Tid C V D).history l) dead 0 0 := by
  refine ⟨le_rfl, ?_, ?_, ?_⟩
  · intro ts _ hts
    simp [init, Nat.le_zero.mp hts]
  · intro ts hts
    by_contra hne
    exact hts (if_neg (by omega))
  · exact fun ts msg _ hlt => absurd hlt (Nat.not_lt_zero _)

/-- An update is made at the end of the chain. -/
theorem Chain.at_top (hc : Chain (m.history l) dead base top) (hmsg : m.history l ts = some msg)
    (hfree : m.history l (ts + 1) = none) (hlive : ¬dead msg.val ∨ base ≤ ts) : ts = top := by
  have hle := hc.last ts (by simp [hmsg])
  by_contra hne
  by_cases hbase : base ≤ ts
  · exact hc.present (ts + 1) (by omega) (by omega) hfree
  · rcases hc.old ts msg hmsg (by omega) with hdead | hnext
    · exact hlive.elim (fun h => h hdead) hbase
    · exact hnext hfree

variable [DecidableEq L]

/-- One more update. -/
theorem Chain.publish_next (hc : Chain (m.history l) dead base top) :
    Chain ((m.publish l (top + 1) msg).history l) dead base (top + 1) := by
  have hnew : ∀ ts, ts ≠ top + 1 → (m.publish l (top + 1) msg).history l ts = m.history l ts :=
    fun ts hne => publish_ts_ne hne
  refine ⟨Nat.le_succ_of_le hc.le, ?_, ?_, ?_⟩
  · intro ts hbase hts
    by_cases heq : ts = top + 1
    · simp [heq]
    · rw [hnew ts heq]
      exact hc.present ts hbase (by omega)
  · intro ts hts
    by_cases heq : ts = top + 1
    · omega
    · rw [hnew ts heq] at hts
      exact Nat.le_succ_of_le (hc.last ts hts)
  · intro ts msg' hmsg hlt
    have hle := hc.le
    rw [hnew ts (by omega)] at hmsg
    rcases hc.old ts msg' hmsg hlt with hdead | hnext
    · exact .inl hdead
    · rw [hnew (ts + 1) (by omega)]
      exact .inr hnext

/-- A store behind a chain that ends with a dead value begins a new chain. -/
theorem Chain.publish_store (hc : Chain (m.history l) dead base top) (hlt : top < ts)
    (htop : ∀ msg, m.history l top = some msg → dead msg.val) :
    Chain ((m.publish l ts msg).history l) dead ts ts := by
  refine ⟨le_rfl, ?_, ?_, ?_⟩
  · intro ts' h1 h2
    obtain rfl : ts' = ts := le_antisymm h2 h1
    simp
  · intro ts' hts
    by_cases heq : ts' = ts
    · exact heq.le
    · rw [publish_ts_ne heq] at hts
      exact le_trans (hc.last ts' hts) hlt.le
  · intro ts' msg' hmsg hlt'
    rw [publish_ts_ne (by omega)] at hmsg
    have hle := hc.last ts' (by simp [hmsg])
    by_cases heq : ts' = top
    · exact .inl (htop msg' (heq ▸ hmsg))
    · by_cases hbase : base ≤ ts'
      · right
        have hnext := hc.present (ts' + 1) (by omega) (by omega)
        rwa [publish_ts_ne (by omega)]
      · rcases hc.old ts' msg' hmsg (by omega) with hdead | hnext
        · exact .inl hdead
        · right
          have hle' := hc.last (ts' + 1) hnext
          rwa [publish_ts_ne (by omega)]

end Memory
end ReleaseAcquire
end GtpMeter
