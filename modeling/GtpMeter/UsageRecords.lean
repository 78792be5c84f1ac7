import GtpMeter.UsageLedger

/-!
# The usage records of a subscriber

A subscriber index lives from a fresh installation, or from the event that taught
it, to the next one.  The records that `emit_record` builds during such a life tile
its usage and its time.  This holds whether or not the sink takes them; a record
that the sink refuses is lost with the usage it carries.

**Results.**
* `life_follows`: the records of a life are the bills of an account.
* `records_tile`: numbering, intervals, running sums and slots of the records.
* `usage_accounted`: accepted, refused and pending usage add up to the counters.
-/

namespace GtpMeter
namespace MeterEngine

open FlatHashU32 Runs Billing

variable {cfg : MeterConfig} {sink : RecordSink} {h : History} {e e' : MeterEngine} {idx : Nat}
  {nowNs : UInt64}

section Lives

/-- The present life of a subscriber index: when it was opened and what has been
emitted since. -/
structure Life where
  opened : UInt64
  emissions : List Emission

/-- A call may open a new life, and adds what it emits. -/
def lifeStep (idx : Nat) (life : Option Life)
    (tr : Transition MeterEngine MeterOp Answer) : Option Life :=
  ((tr.pre.opening tr.op idx).elim life (fun t => some ⟨t, []⟩)).map
    (fun l => { l with emissions := l.emissions ++ emissionsFor idx tr.out.emissions })

/-- The present life of `idx` after the calls in `h`, if it has been opened. -/
def lifeOf (idx : Nat) (h : History) : Option Life :=
  h.foldl (lifeStep idx) none

/-- The usage carried by a list of records. -/
def usageOf (ems : List Emission) : Usage :=
  (ems.map (fun em => em.record.usage)).sum

/-- The records of a life are the bills of an account opened with it. -/
theorem life_follows (hrun : Reaches cfg sink h e) {l : Life} (hl : lifeOf idx h = some l) :
    ∃ ps, Follows (· + 1) (.fresh 0 l.opened) ps (e.account idx) ∧
      bills ps = l.emissions.map (fun em => em.record.bill) ∧
      ∀ g ∈ charges ps, slotExcess g = 0 := by
  induction hrun generalizing l with
  | nil => simp [lifeOf] at hl
  | @snoc h e e' op out hprev hs ih =>
      have hi := reaches_indexed hprev
      obtain ⟨charged, hp⟩ := (step_moves hi.wf hs).ledger hi
      obtain ⟨ps, hf, hb, hc⟩ := hp.follows idx
      have hbal : ∀ g ∈ charges ps, slotExcess g = 0 := hc ▸ hp.balanced idx
      unfold lifeOf at hl ih
      rw [List.foldl_append] at hl
      obtain ⟨l₀, hl₀, rfl⟩ := Option.map_eq_some_iff.mp hl
      dsimp only at hl₀ hf ⊢
      cases hopen : e.opening op idx with
      | some t =>
          rw [hopen] at hl₀ hf
          obtain rfl := Option.some.inj hl₀
          exact ⟨ps, hf, by simpa using hb, hbal⟩
      | none =>
          rw [hopen] at hl₀ hf
          obtain ⟨ps₀, hf₀, hb₀, hbal₀⟩ := ih hl₀
          refine ⟨ps₀ ++ ps, hf₀.append hf, ?_, ?_⟩
          · rw [bills_append, hb₀, hb, List.map_append]
          · intro g hg
            rw [charges_append] at hg
            rcases List.mem_append.mp hg with hg | hg
            · exact hbal₀ g hg
            · exact hbal g hg

/-- The records of a life carry what is marked as emitted. -/
theorem usageOf_life (hrun : Reaches cfg sink h e) {l : Life} (hl : lifeOf idx h = some l) :
    usageOf l.emissions = (e.info idx).emitted := by
  obtain ⟨ps, hf, hb, -⟩ := life_follows hrun hl
  have hsum := hf.billed_eq
  rw [hb, List.map_map] at hsum
  have hzero : (Account.fresh 0 l.opened : Account Usage UInt32 UInt64).billed = 0 := rfl
  rw [hzero, zero_add] at hsum
  exact hsum.symm

theorem iterate_succ (i : Nat) : (fun s : UInt32 => s + 1)^[i] 0 = UInt32.ofNat i := by
  induction i with
  | zero => rfl
  | succ i ih =>
      rw [Function.iterate_succ_apply', ih]
      exact (UInt32.ofNat_add i 1).symm

theorem life_bill {l : Life} {i : Nat} {em : Emission} (hem : l.emissions[i]? = some em) :
    (l.emissions.map (fun em => em.record.bill))[i]? = some em.record.bill := by
  rw [List.getElem?_map, hem]
  rfl

/-- The records of a life number 0, 1, 2 and so on. -/
theorem life_seq (hrun : Reaches cfg sink h e) {l : Life} (hl : lifeOf idx h = some l) {i : Nat}
    {em : Emission} (hem : l.emissions[i]? = some em) :
    em.record.recordSeq = UInt32.ofNat i := by
  obtain ⟨ps, hf, hb, -⟩ := life_follows hrun hl
  have htiles := hf.tiles
  rw [hb] at htiles
  have hseq := htiles.seq_get (life_bill hem)
  rw [← iterate_succ]
  exact hseq

/-- **Usage records tile usage and time.**  The records of a life number 0, 1, 2
and so on; the first starts when the life was opened and each later one where the
one before it stopped; their sums are what is marked as emitted; and in each record
the slots add up to the bytes. -/
theorem records_tile (hrun : Reaches cfg sink h e) {l : Life} (hl : lifeOf idx h = some l) :
    (∀ (i : Nat) em, l.emissions[i]? = some em → em.record.recordSeq = UInt32.ofNat i) ∧
    (∀ em, l.emissions[0]? = some em → em.record.intervalStartNs = l.opened) ∧
    (∀ (i : Nat) em em', l.emissions[i]? = some em → l.emissions[i + 1]? = some em' →
      em'.record.intervalStartNs = em.record.intervalEndNs) ∧
    (∀ ch, usageOf l.emissions ch = (e.info idx).emitted ch) ∧
    (∀ em ∈ l.emissions, em.record.bucketBytes 0 + em.record.bucketBytes 1 +
      em.record.bucketBytes 2 = em.record.ulBytes + em.record.dlBytes) := by
  obtain ⟨ps, hf, hb, hbal⟩ := life_follows hrun hl
  have htiles := hf.tiles
  rw [hb] at htiles
  refine ⟨fun i em hem => life_seq hrun hl hem, ?_, ?_, ?_, ?_⟩
  · intro em hem
    cases hems : l.emissions with
    | nil => simp [hems] at hem
    | cons em₀ ems =>
        obtain rfl : em₀ = em := by simpa [hems] using hem
        rw [hems] at htiles
        exact htiles.start_head
  · intro i em em' hem hem'
    exact htiles.start_succ (life_bill hem) (life_bill hem')
  · intro ch
    rw [usageOf_life hrun hl]
  · intro em hem
    have hvanish := hf.vanish hbal (map_zero _) (map_zero _)
    have hrec := slotExcess_eq_zero.mp
      (hvanish.2.2 em.record.bill (hb ▸ List.mem_map_of_mem hem))
    exact hrec

/-- The second life of a subscriber, with two records. -/
theorem records_tile_second_life :
    ∃ h e l, Reaches smallConfig noSink h e ∧ lifeOf 0 h = some l ∧ l.opened = 5 ∧
      l.emissions.length = 2 ∧
      (∀ (i : Nat) em, l.emissions[i]? = some em → em.record.recordSeq = UInt32.ofNat i) ∧
      (∀ ch, usageOf l.emissions ch = (e.info 0).emitted ch) := by
  have hex : execCheck step (init smallConfig noSink)
      [.install { imsi := 1, ulTeid := 100 } 0, .apply { teid := 100, bytes := 7 },
        .release 1 3, .install { imsi := 1, ulTeid := 100 } 5,
        .apply { teid := 100, bytes := 40 }, .drain 6, .apply { teid := 100, bytes := 2 },
        .drain 9]
      (fun h _ => (lifeOf 0 h).any
        (fun l => decide (l.opened = 5 ∧ l.emissions.length = 2))) = true := by
    decide +kernel
  obtain ⟨h, e, hrun, hcheck⟩ := Run.of_execCheck hex
  obtain ⟨l, hl, hcheck⟩ := (Option.any_eq_true _ _).mp hcheck
  obtain ⟨hopened, hlen⟩ := of_decide_eq_true hcheck
  obtain ⟨hseq, -, -, hsum, -⟩ := records_tile hrun hl
  exact ⟨h, e, l, hrun, hl, hopened, hlen, hseq, hsum⟩

end Lives

section Sink

/-- The records that the sink took. -/
def accepted (ems : List Emission) : List Emission :=
  ems.filter (fun em => em.outcome = .pushed)

/-- The records that the sink refused. -/
def refused (ems : List Emission) : List Emission :=
  ems.filter (fun em => em.outcome = .refused)

/-- All records built in a history. -/
def emissionsOf (h : History) : List Emission :=
  h.flatMap (fun tr => tr.out.emissions)

theorem usageOf_cons (em : Emission) (ems : List Emission) :
    usageOf (em :: ems) = em.record.usage + usageOf ems :=
  List.sum_cons

/-- With a sink attached every record is taken or refused. -/
theorem usageOf_split {ems : List Emission} (hems : ∀ em ∈ ems, em.outcome ≠ .noSink) :
    usageOf (accepted ems) + usageOf (refused ems) = usageOf ems := by
  induction ems with
  | nil => exact zero_add _
  | cons em ems ih =>
      have hrest := ih (fun em' hem' => hems em' (List.mem_cons_of_mem _ hem'))
      rw [usageOf_cons, ← hrest]
      cases hout : em.outcome with
      | noSink => exact absurd hout (hems em List.mem_cons_self)
      | pushed | refused =>
          simp only [accepted, refused, List.filter_cons, hout, decide_true, if_true,
            reduceCtorEq, decide_false, Bool.false_eq_true, if_false, usageOf_cons]
          abel

theorem offer_attached {r : UsageRecord} (hring : sink.ring.isSome) :
    (sink.offer r).1.ring.isSome ∧ (sink.offer r).2 ≠ .noSink := by
  unfold RecordSink.offer
  cases hq : sink.ring with
  | none => simp [hq] at hring
  | some q =>
      refine ⟨rfl, ?_⟩
      dsimp only
      split_ifs <;> simp

theorem EmitRun.attached {ems : List Emission} (hr : EmitRun nowNs e ems e')
    (hring : e.sink.ring.isSome) :
    e'.sink.ring.isSome ∧ ∀ em ∈ ems, em.outcome ≠ .noSink := by
  induction hr with
  | nil => exact ⟨hring, by simp⟩
  | sweep cursor last _ ih => exact ih hring
  | emit reason _ _ _ _ ih =>
      obtain ⟨hnext, hout⟩ := offer_attached hring
      obtain ⟨hlast, hrest⟩ := ih hnext
      refine ⟨hlast, ?_⟩
      intro em hem
      rcases List.mem_cons.mp hem with rfl | hem
      · exact hout
      · exact hrest em hem

/-- `records_dropped` counts the refused records. -/
theorem EmitRun.dropped_eq {ems : List Emission} (hr : EmitRun nowNs e ems e') :
    e'.stats.recordsDropped = e.stats.recordsDropped + UInt64.ofNat (refused ems).length := by
  induction hr with
  | nil e => exact (add_zero _).symm
  | sweep cursor last _ ih => exact ih
  | @emit e e' ems idx reason _ _ _ _ ih =>
      rw [ih, emitted_stats]
      cases hout : (e.emitted idx reason nowNs).2.outcome with
      | refused =>
          simp only [refused, List.filter_cons, hout, decide_true, if_true, List.length_cons,
            UInt64.ofNat_add, countRecord]
          show _ + 1 + _ = _ + (_ + 1)
          abel
      | _ => simp [refused, hout, countRecord]

/-- As far as the sink is concerned, a call is a sequence of emissions. -/
theorem Moves.reports {op : MeterOp} {out : Answer} (hm : Moves e op out e') (hi : Indexed e) :
    ∃ nowNs e₁, EmitRun nowNs e out.emissions e₁ ∧ e'.sink = e₁.sink ∧
      e'.stats.recordsDropped = e₁.stats.recordsDropped := by
  cases hm with
  | modified _ _ hin | allocated _ _ _ hin =>
      refine ⟨0, e, .nil e, ?_⟩
      cases hin
      exact ⟨rfl, rfl⟩
  | @released imsi nowNs idx m hidx hlt hact hu =>
      exact ⟨nowNs, _, .emit .release hlt (hi.imsi_eq _ _ hidx).1 hact (.nil _), rfl, rfl⟩
  | charged _ ha hc =>
      refine ⟨0, e, .nil e, ?_⟩
      rcases hc with ⟨-, rfl⟩ | ⟨b, -, hm⟩
      · cases ha <;> exact ⟨rfl, rfl⟩
      · cases hm with
        | mk info slot hs fl fa fi fe hlt hslot =>
            dsimp only [addTotals]
            split_ifs <;> cases ha <;> exact ⟨rfl, rfl⟩
  | polled hr | drained hr => exact ⟨_, _, hr, rfl, rfl⟩
  | _ => exact ⟨0, e, .nil e, rfl, rfl⟩

theorem emissionsOf_snoc (h : History) (tr : Transition MeterEngine MeterOp Answer) :
    emissionsOf (h ++ [tr]) = emissionsOf h ++ tr.out.emissions := by
  simp [emissionsOf]

/-- What a life has emitted, the history has. -/
theorem mem_emissionsOf {l : Life} {em : Emission} (hl : lifeOf idx h = some l)
    (hem : em ∈ l.emissions) : em ∈ emissionsOf h := by
  induction h using List.reverseRecOn generalizing l with
  | nil => simp [lifeOf] at hl
  | append_singleton h tr ih =>
      rw [emissionsOf_snoc]
      unfold lifeOf at hl ih
      rw [List.foldl_append] at hl
      obtain ⟨l₀, hl₀, rfl⟩ := Option.map_eq_some_iff.mp hl
      rcases List.mem_append.mp hem with hold | hnew
      · refine List.mem_append_left _ ?_
        cases hopen : tr.pre.opening tr.op idx with
        | some t =>
            rw [hopen] at hl₀
            obtain rfl := Option.some.inj hl₀
            simp at hold
        | none =>
            rw [hopen] at hl₀
            exact ih hl₀ hold
      · exact List.mem_append_right _ (List.mem_filter.mp hnew).1

/-- The sink over a whole run: a ring that is attached stays attached, and the
refused records are counted. -/
theorem reaches_sink (hrun : Reaches cfg sink h e) :
    (sink.ring.isSome →
      e.sink.ring.isSome ∧ ∀ em ∈ emissionsOf h, em.outcome ≠ .noSink) ∧
    e.stats.recordsDropped = UInt64.ofNat (refused (emissionsOf h)).length := by
  induction hrun with
  | nil => exact ⟨fun hring => ⟨hring, by simp [emissionsOf]⟩, rfl⟩
  | snoc hprev hs ih =>
      obtain ⟨hatt, hdrop⟩ := ih
      have hi := reaches_indexed hprev
      obtain ⟨nowNs, e₁, hr, hsink, hstat⟩ := (step_moves hi.wf hs).reports hi
      rw [emissionsOf_snoc]
      refine ⟨?_, ?_⟩
      · intro hring
        obtain ⟨hring', hold⟩ := hatt hring
        obtain ⟨hlast, hnew⟩ := hr.attached hring'
        refine ⟨hsink ▸ hlast, ?_⟩
        intro em hem
        rcases List.mem_append.mp hem with hem | hem
        · exact hold em hem
        · exact hnew em hem
      · rw [hstat, hr.dropped_eq, hdrop]
        simp [refused, List.filter_append, UInt64.ofNat_add]

/-- **Usage under back-pressure.**  With a sink of any capacity and any pattern of
pops, the usage in the records that the sink accepted, the usage in those it refused
and what is pending add up to the counters.  Each refused record is counted, and a
subscriber of whose records none was refused loses nothing. -/
theorem usage_accounted (hring : sink.ring.isSome) (hrun : Reaches cfg sink h e) {l : Life}
    (hl : lifeOf idx h = some l) :
    (∀ ch, usageOf (accepted l.emissions) ch + usageOf (refused l.emissions) ch +
      ((e.counters idx).usage ch - (e.info idx).emitted ch) = (e.counters idx).usage ch) ∧
    (refused l.emissions = [] →
      ∀ ch, usageOf (accepted l.emissions) ch +
        ((e.counters idx).usage ch - (e.info idx).emitted ch) = (e.counters idx).usage ch) ∧
    e.stats.recordsDropped = UInt64.ofNat (refused (emissionsOf h)).length := by
  obtain ⟨hatt, hdrop⟩ := reaches_sink hrun
  have hsplit := usageOf_split (fun em hem => (hatt hring).2 em (mem_emissionsOf hl hem))
  rw [usageOf_life hrun hl] at hsplit
  have hall : ∀ ch, usageOf (accepted l.emissions) ch + usageOf (refused l.emissions) ch +
      ((e.counters idx).usage ch - (e.info idx).emitted ch) = (e.counters idx).usage ch := by
    intro ch
    rw [← Pi.add_apply, hsplit]
    abel
  refine ⟨hall, ?_, hdrop⟩
  intro hnone ch
  have hch := hall ch
  rw [hnone] at hch
  simpa [usageOf] using hch

/-- A ring for two records that nobody empties. -/
def stalledSink : RecordSink :=
  { noSink with ring := some (.init 2) }

/-- Three records for a ring of two, and a packet after them. -/
theorem usage_accounted_stalled :
    ∃ h e l, Reaches smallConfig stalledSink h e ∧ lifeOf 0 h = some l ∧
      (refused l.emissions).length = 1 ∧
      (∀ ch, usageOf (accepted l.emissions) ch + usageOf (refused l.emissions) ch +
        ((e.counters 0).usage ch - (e.info 0).emitted ch) = (e.counters 0).usage ch) ∧
      e.stats.recordsDropped = UInt64.ofNat (refused (emissionsOf h)).length := by
  have hex : execCheck step (init smallConfig stalledSink)
      [.install { imsi := 1, ulTeid := 100 } 0, .apply { teid := 100, bytes := 10 }, .drain 1,
        .apply { teid := 100, bytes := 20 }, .drain 2, .apply { teid := 100, bytes := 30 },
        .drain 3, .apply { teid := 100, bytes := 5 }]
      (fun h _ => (lifeOf 0 h).any (fun l => decide ((refused l.emissions).length = 1))) =
        true := by
    decide +kernel
  obtain ⟨h, e, hrun, hcheck⟩ := Run.of_execCheck hex
  obtain ⟨l, hl, hcheck⟩ := (Option.any_eq_true _ _).mp hcheck
  obtain ⟨hall, -, hdrop⟩ := usage_accounted rfl hrun hl
  exact ⟨h, e, l, hrun, hl, of_decide_eq_true hcheck, hall, hdrop⟩

/-- The usage in a refused record does not come back: the ring takes two records,
the third is refused, and its 30 bytes are neither accepted nor pending. -/
theorem refused_usage_lost :
    ∃ h e l, Reaches smallConfig stalledSink h e ∧ lifeOf 0 h = some l ∧
      usageOf (accepted l.emissions) .ulBytes = 30 ∧
      (e.counters 0).usage .ulBytes - (e.info 0).emitted .ulBytes = 0 ∧
      (e.counters 0).usage .ulBytes = 60 := by
  have hex : execCheck step (init smallConfig stalledSink)
      [.install { imsi := 1, ulTeid := 100 } 0, .apply { teid := 100, bytes := 10 }, .drain 1,
        .apply { teid := 100, bytes := 20 }, .drain 2, .apply { teid := 100, bytes := 30 },
        .drain 3]
      (fun h e => (lifeOf 0 h).any (fun l =>
        decide (usageOf (accepted l.emissions) .ulBytes = 30 ∧
          (e.counters 0).usage .ulBytes - (e.info 0).emitted .ulBytes = 0 ∧
          (e.counters 0).usage .ulBytes = 60))) = true := by
    decide +kernel
  obtain ⟨h, e, hrun, hcheck⟩ := Run.of_execCheck hex
  obtain ⟨l, hl, hcheck⟩ := (Option.any_eq_true _ _).mp hcheck
  exact ⟨h, e, l, hrun, hl, of_decide_eq_true hcheck⟩

end Sink

end MeterEngine
end GtpMeter
