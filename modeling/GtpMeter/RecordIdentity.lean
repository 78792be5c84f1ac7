import GtpMeter.UsageRecords

/-!
# The identity of a usage record

A record names its subscriber by IMSI and carries a sequence number.  The number
starts at zero with every life of a subscriber index, and a subscriber that comes
back after its release starts a new one.  Subscribers learned from traffic all have
IMSI 0.  So the pair identifies a record only as long as no IMSI is used again.

**Results.**
* `Moves.hasImsi_iff`: which IMSIs a call gives to which index.
* `record_identity`: the numbers of all records of an IMSI that is not used again.
-/

namespace GtpMeter
namespace MeterEngine

open FlatHashU32 Runs

variable {cfg : MeterConfig} {sink : RecordSink} {h : History} {e e' : MeterEngine} {idx : Nat}
  {nowNs imsi : UInt64} {op : MeterOp} {out : Answer}

section Names

/-- Subscriber `idx` was given out and has the IMSI. -/
def HasImsi (e : MeterEngine) (imsi : UInt64) (idx : Nat) : Prop :=
  idx < e.nextSub ∧ (e.info idx).imsi = imsi

/-- The IMSI of the subscriber that a call opens. -/
def openedImsi : MeterOp → UInt64
  | .install spec _ => spec.imsi
  | _ => 0

theorem SameSessions.hasImsi_iff (hs : SameSessions e e') :
    HasImsi e' imsi idx ↔ HasImsi e imsi idx := by
  have himsi : (e'.info idx).imsi = (e.info idx).imsi := congrArg Session.imsi (hs.session_eq idx)
  unfold HasImsi
  rw [hs.nextSub_eq, himsi]

theorem hasImsi_update {info : SubscriberInfo} {i : Nat} (hnext : e'.nextSub = e.nextSub)
    (hinfo : e'.info = Function.update e.info idx info) (himsi : info.imsi = (e.info idx).imsi) :
    HasImsi e' imsi i ↔ HasImsi e imsi i := by
  unfold HasImsi
  rw [hnext, hinfo]
  by_cases hi : i = idx
  · simp [hi, himsi]
  · simp [hi]

theorem opening_unique {i j : Nat} {t t' : UInt64} (hopen : e.opening op i = some t)
    (hopen' : e.opening op j = some t') : i = j := by
  cases op with
  | install spec nowNs =>
      simp only [opening] at hopen hopen'
      cases hidx : e.imsiIndex spec.imsi with
      | some k | none =>
          simp only [hidx] at hopen hopen'
          split_ifs at hopen hopen' with hi hj
          rw [hi.2.1, hj.2.1]
  | apply ev =>
      simp only [opening] at hopen hopen'
      split_ifs at hopen hopen' with hi hj
      rw [hi.2.1, hj.2.1]
  | _ => simp [opening] at hopen

/-- A call that opens an index once more keeps its IMSI. -/
theorem opening_imsi (hi : Indexed e) {t : UInt64} (hopen : e.opening op idx = some t)
    (hlt : idx < e.nextSub) : (e.info idx).imsi = openedImsi op := by
  cases op with
  | install spec nowNs =>
      simp only [opening] at hopen
      cases hidx : e.imsiIndex spec.imsi with
      | some k =>
          simp only [hidx] at hopen
          split_ifs at hopen with hk
          rw [hk.2.1]
          exact (hi.imsi_eq _ _ hidx).2
      | none =>
          simp only [hidx] at hopen
          split_ifs at hopen with hk
          omega
  | apply ev =>
      simp only [opening] at hopen
      split_ifs at hopen with hk
      omega
  | _ => simp [opening] at hopen

/-- An installation writes the IMSI it was given. -/
theorem Installed.hasImsi_iff {spec : SessionSpec} {r : Option Nat} {i : Nat}
    (hin : Installed e idx spec nowNs e' r) :
    HasImsi e' imsi i ↔
      i < e.nextSub ∧ (if i = idx then spec.imsi else (e.info i).imsi) = imsi := by
  obtain ⟨-, hinfo⟩ := hin.arrays_eq i
  obtain ⟨-, hnext, -⟩ := hin.frame
  obtain ⟨himsi, -⟩ := installInfo_session (e.info idx) spec nowNs
  unfold HasImsi
  rw [hnext, hinfo]
  split_ifs with hi
  · rw [himsi]
  · rfl

theorem Arrived.hasImsi_iff {ev : MeterEvent} {i : Nat} (ha : Arrived e ev e') :
    HasImsi e' imsi i ↔ HasImsi e imsi i ∨ (i = e.nextSub ∧ Learns e ev) ∧ imsi = 0 := by
  cases ha with
  | found m hq hno => simp [HasImsi, hno]
  | learned m f ok hnone hlearn hroom hw hlk =>
      have himsi : (learnInfo ev).1.imsi = 0 := by
        unfold learnInfo
        split_ifs <;> rfl
      have hl : Learns e ev := ⟨hnone, hlearn, hroom⟩
      by_cases hi : i = e.nextSub
      · simp [HasImsi, hi, hl, learnedState, himsi, eq_comm]
      · have hlt : i < e.nextSub + 1 ↔ i < e.nextSub := by omega
        simp [HasImsi, hi, learnedState, hlt]

/-- The step: a call gives the IMSI it opens to the index it opens, and changes no
other. -/
theorem Moves.hasImsi_iff {i : Nat} (hm : Moves e op out e') (hi : Indexed e) :
    HasImsi e' imsi i ↔ HasImsi e imsi i ∨ e.opening op i ≠ none ∧ openedImsi op = imsi := by
  cases hm with
  | @refused spec nowNs hno =>
      rcases hno with hv | ⟨hidx, hfull⟩
      · cases hidx : e.imsiIndex spec.imsi <;> simp [opening, hidx, hv]
      · simp [opening, hidx, Nat.not_lt.mpr hfull]
  | @modified spec nowNs idx r _ hv hidx hin =>
      obtain ⟨hlt, himsi⟩ := hi.imsi_eq _ _ hidx
      rw [hin.hasImsi_iff]
      by_cases hne : i = idx
      · subst hne
        simp only [if_pos, HasImsi, himsi, openedImsi]
        tauto
      · simp [HasImsi, opening, hidx, hne]
  | @allocated spec nowNs r _ hv hidx hroom hin =>
      rw [hin.hasImsi_iff]
      by_cases hne : i = e.nextSub
      · simp [HasImsi, opening, hidx, hne, hv, hroom, openedImsi, allocate]
      · have hlt : i < e.nextSub + 1 ↔ i < e.nextSub := by omega
        simp [HasImsi, opening, hidx, hne, allocate, hlt]
  | charged hctl ha hc =>
      rw [hc.sameSessions.hasImsi_iff, ha.hasImsi_iff]
      simp [opening, hctl, openedImsi, eq_comm]
  | released hidx hlt hact hu =>
      refine Iff.trans (hasImsi_update (e := e) rfl (releasedState_info _) rfl) ?_
      simp [opening]
  | polled hr | drained hr => simp [hr.sameSessions.hasImsi_iff, opening]
  | control hctl => simp [HasImsi, opening, hctl]
  | gyReported hidx hlt =>
      refine Iff.trans (hasImsi_update (e := e) rfl rfl rfl) ?_
      simp [opening]
  | _ => simp [HasImsi, opening]

end Names

section Numbers

/-- The records that `emit_record` built for an IMSI in a history. -/
def recordsFor (imsi : UInt64) (h : History) : List Emission :=
  (emissionsOf h).filter (fun em => em.record.imsi = imsi)

/-- The call opens a subscriber under an IMSI that one already has. -/
def Reuses (imsi : UInt64) (e : MeterEngine) (op : MeterOp) : Prop :=
  (∃ idx, e.opening op idx ≠ none) ∧ openedImsi op = imsi ∧ ∃ idx, HasImsi e imsi idx

/-- The IMSI of an active session is not used again. -/
theorem not_reuses_of_active (hne : imsi ≠ 0) (hidx : e.imsiIndex imsi = some idx)
    (hact : (e.info idx).active = true) : ¬Reuses imsi e op := by
  rintro ⟨⟨j, hopen⟩, hop, -⟩
  cases op with
  | install spec nowNs =>
      have himsi : spec.imsi = imsi := hop
      simp [opening, himsi, hidx, hact] at hopen
  | _ => exact hne hop.symm

theorem EmitRun.hasImsi {ems : List Emission} (hr : EmitRun nowNs e ems e') :
    ∀ em ∈ ems, HasImsi e em.record.imsi em.idx := by
  induction hr with
  | nil => simp
  | sweep cursor last _ ih => exact ih
  | @emit e e' ems idx reason _ hnext _ _ ih =>
      intro em hem
      rcases List.mem_cons.mp hem with rfl | hem
      · exact ⟨hnext, rfl⟩
      · exact (emitted_sameSessions idx reason).hasImsi_iff.mp (ih em hem)

/-- What is known of an IMSI that has not been used again: no index has it and it
has no records, or one index has it and its records are those of that index. -/
def Tracked (imsi : UInt64) (h : History) (e : MeterEngine) : Prop :=
  ((∀ j, ¬HasImsi e imsi j) ∧ recordsFor imsi h = []) ∨
    ∃ i l, (∀ j, HasImsi e imsi j ↔ j = i) ∧ lifeOf i h = some l ∧ recordsFor imsi h = l.emissions

theorem lifeOf_snoc (idx : Nat) (h : History) (tr : Transition MeterEngine MeterOp Answer) :
    lifeOf idx (h ++ [tr]) = lifeStep idx (lifeOf idx h) tr := by
  simp [lifeOf]

theorem recordsFor_snoc (imsi : UInt64) (h : History)
    (tr : Transition MeterEngine MeterOp Answer) :
    recordsFor imsi (h ++ [tr]) =
      recordsFor imsi h ++ tr.out.emissions.filter (fun em => em.record.imsi = imsi) := by
  simp [recordsFor, emissionsOf_snoc]

/-- While one index has the IMSI, the IMSI tells its records. -/
theorem filter_imsi {ems : List Emission} {i : Nat} (hhas : ∀ j, HasImsi e imsi j ↔ j = i)
    (hems : ∀ em ∈ ems, HasImsi e em.record.imsi em.idx) :
    ems.filter (fun em => em.record.imsi = imsi) = emissionsFor i ems := by
  refine List.filter_congr ?_
  intro em hem
  have hem := hems em hem
  have hiff : em.record.imsi = imsi ↔ em.idx = i := by
    constructor
    · intro himsi
      exact (hhas _).mp (himsi ▸ hem)
    · intro hidx
      have hi := (hhas _).mpr hidx
      rw [← hem.2, hi.2]
  simp only [hiff]

/-- An IMSI that nobody has gets no record. -/
theorem filter_imsi_none {ems : List Emission} (hnone : ∀ j, ¬HasImsi e imsi j)
    (hems : ∀ em ∈ ems, HasImsi e em.record.imsi em.idx) :
    ems.filter (fun em => em.record.imsi = imsi) = [] := by
  refine List.filter_eq_nil_iff.mpr ?_
  intro em hem himsi
  exact hnone em.idx (of_decide_eq_true himsi ▸ hems em hem)

/-- An IMSI that nobody has, and a call: its first index begins with no record. -/
theorem tracked_of_none (hm : Moves e op out e') (hi : Indexed e) (hnone : ∀ j, ¬HasImsi e imsi j)
    (hrec : recordsFor imsi h = []) : Tracked imsi (h ++ [⟨e, op, out, e'⟩]) e' := by
  obtain ⟨nowNs, e₁, hr, -⟩ := hm.reports hi
  have hrec' : recordsFor imsi (h ++ [⟨e, op, out, e'⟩]) = [] := by
    rw [recordsFor_snoc, hrec, filter_imsi_none hnone hr.hasImsi, List.append_nil]
  have hhas : ∀ k, HasImsi e' imsi k ↔ e.opening op k ≠ none ∧ openedImsi op = imsi := by
    intro k
    rw [hm.hasImsi_iff hi]
    exact or_iff_right (hnone k)
  by_cases hnew : ∃ j, HasImsi e' imsi j
  · obtain ⟨j, hj⟩ := hnew
    obtain ⟨hopen, himsi⟩ := (hhas j).mp hj
    obtain ⟨t, hopen⟩ := Option.ne_none_iff_exists'.mp hopen
    have hquiet : emissionsFor j out.emissions = [] := by
      refine List.filter_eq_nil_iff.mpr ?_
      intro em hem hidx
      have hlt : j < e.nextSub := of_decide_eq_true hidx ▸ (hr.hasImsi em hem).1
      exact hnone j ⟨hlt, (opening_imsi hi hopen hlt).trans himsi⟩
    refine .inr ⟨j, ⟨t, []⟩, ?_, ?_, hrec'⟩
    · intro k
      constructor
      · intro hk
        obtain ⟨t', hopen'⟩ := Option.ne_none_iff_exists'.mp ((hhas k).mp hk).1
        exact opening_unique hopen' hopen
      · rintro rfl
        exact hj
    · rw [lifeOf_snoc]
      simp [lifeStep, hopen, hquiet]
  · exact .inl ⟨not_exists.mp hnew, hrec'⟩

/-- The step: a call that does not use the IMSI again. -/
theorem Tracked.snoc (ht : Tracked imsi h e) (hm : Moves e op out e') (hi : Indexed e)
    (hnew : ¬Reuses imsi e op) : Tracked imsi (h ++ [⟨e, op, out, e'⟩]) e' := by
  rcases ht with ⟨hnone, hrec⟩ | ⟨i, l, hhas, hl, hrec⟩
  · exact tracked_of_none hm hi hnone hrec
  · have hown : HasImsi e imsi i := (hhas i).mpr rfl
    have hkeep : ∀ k, e.opening op k ≠ none → openedImsi op ≠ imsi := by
      intro k hopen himsi
      exact hnew ⟨⟨k, hopen⟩, himsi, i, hown⟩
    have hopen : e.opening op i = none := by
      by_contra hopen
      obtain ⟨t, ht⟩ := Option.ne_none_iff_exists'.mp hopen
      exact hkeep i hopen ((opening_imsi hi ht hown.1).symm.trans hown.2)
    obtain ⟨nowNs, e₁, hr, -⟩ := hm.reports hi
    refine .inr ⟨i, { l with emissions := l.emissions ++ emissionsFor i out.emissions }, ?_, ?_, ?_⟩
    · intro k
      rw [hm.hasImsi_iff hi, hhas]
      exact or_iff_left (fun hk => hkeep k hk.1 hk.2)
    · rw [lifeOf_snoc, hl]
      simp [lifeStep, hopen]
    · rw [recordsFor_snoc, hrec, filter_imsi hhas hr.hasImsi]

theorem reaches_tracked (hrun : Reaches cfg sink h e)
    (hnew : ∀ tr ∈ h, ¬Reuses imsi tr.pre tr.op) : Tracked imsi h e := by
  induction hrun with
  | nil => exact .inl ⟨fun j hj => Nat.not_lt_zero j hj.1, rfl⟩
  | snoc hprev hs ih =>
      have hi := reaches_indexed hprev
      have ht := ih (fun tr htr => hnew tr (List.mem_append_left _ htr))
      exact ht.snoc (step_moves hi.wf hs) hi 
        (hnew _ (List.mem_append_right _ (List.mem_singleton_self _)))

/-- **Record identity.**  Over a whole run, with any releases and installations, the
records of an IMSI number 0, 1, 2 and so on, and no number comes twice among the
first 2^32, as long as no call uses the IMSI again. -/
theorem record_identity (hrun : Reaches cfg sink h e)
    (hnew : ∀ tr ∈ h, ¬Reuses imsi tr.pre tr.op) :
    (∀ (i : Nat) em, (recordsFor imsi h)[i]? = some em →
      em.record.recordSeq = UInt32.ofNat i) ∧
    ((recordsFor imsi h).length ≤ 2 ^ 32 →
      ((recordsFor imsi h).map (fun em => em.record.recordSeq)).Nodup) := by
  have hseq : ∀ (i : Nat) em, (recordsFor imsi h)[i]? = some em →
      em.record.recordSeq = UInt32.ofNat i := by
    intro i em hem
    rcases reaches_tracked hrun hnew with ⟨-, hrec⟩ | ⟨idx, l, -, hl, hrec⟩
    · simp [hrec] at hem
    · exact life_seq hrun hl (hrec ▸ hem)
  refine ⟨hseq, ?_⟩
  intro hlen
  have hmap : (recordsFor imsi h).map (fun em => em.record.recordSeq) =
      (List.range (recordsFor imsi h).length).map UInt32.ofNat := by
    refine List.ext_getElem (by simp) ?_
    intro i hi _
    have hlt : i < (recordsFor imsi h).length := by simpa using hi
    simpa using hseq i _ (List.getElem?_eq_getElem hlt)
  rw [hmap]
  refine List.Nodup.map_on ?_ List.nodup_range
  intro a ha b hb hab
  have hab := congrArg UInt32.toNat hab
  rwa [UInt32.toNat_ofNat_of_lt' (lt_of_lt_of_le (List.mem_range.mp ha) hlen),
    UInt32.toNat_ofNat_of_lt' (lt_of_lt_of_le (List.mem_range.mp hb) hlen)] at hab

/-- A modification and two records of one life. -/
theorem record_identity_modified :
    ∃ h e, Reaches smallConfig noSink h e ∧ (recordsFor 1 h).length = 2 ∧
      ∀ (i : Nat) em, (recordsFor 1 h)[i]? = some em → em.record.recordSeq = UInt32.ofNat i := by
  have hex : execCheck step (init smallConfig noSink)
      [.install { imsi := 1, ulTeid := 100 } 0, .apply { teid := 100, bytes := 7 }, .drain 2,
        .install { imsi := 1, ulTeid := 200 } 3, .release 1 5]
      (fun h _ => decide ((recordsFor 1 h).length = 2 ∧ ∀ tr ∈ h, openedImsi tr.op ≠ 1 ∨
        tr.pre.nextSub = 0 ∨ tr.pre.imsiIndex 1 = some 0 ∧ (tr.pre.info 0).active = true)) =
        true := by
    decide +kernel
  obtain ⟨h, e, hrun, hcheck⟩ := Run.of_execCheck hex
  obtain ⟨hlen, hops⟩ := of_decide_eq_true hcheck
  have hnew : ∀ tr ∈ h, ¬Reuses 1 tr.pre tr.op := by
    intro tr htr
    rcases hops tr htr with hop | hnext | ⟨hidx, hact⟩
    · exact fun hre => hop hre.2.1
    · rintro ⟨-, -, idx, hhas⟩
      have hlt := hhas.1
      omega
    · exact not_reuses_of_active (by decide) hidx hact
  exact ⟨h, e, hrun, hlen, (record_identity hrun hnew).1⟩

/-- A subscriber that is released and comes back begins its numbers again. -/
theorem record_seq_restarts :
    ∃ h e, Reaches smallConfig noSink h e ∧
      (recordsFor 1 h).map (fun em => em.record.recordSeq) = [0, 0] := by
  have hex : execCheck step (init smallConfig noSink)
      [.install { imsi := 1, ulTeid := 100 } 0, .release 1 1,
        .install { imsi := 1, ulTeid := 100 } 2, .release 1 3]
      (fun h _ => decide ((recordsFor 1 h).map (fun em => em.record.recordSeq) = [0, 0])) =
        true := by
    decide +kernel
  obtain ⟨h, e, hrun, hcheck⟩ := Run.of_execCheck hex
  exact ⟨h, e, hrun, of_decide_eq_true hcheck⟩

end Numbers

end MeterEngine
end GtpMeter
