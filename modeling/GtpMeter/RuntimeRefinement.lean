import GtpMeter.RuntimeCycles

/-!
# The runtime refines the engine

The results about `MeterEngine` are about an engine that makes its calls one after the
other and has the record ring for itself; a schedule says how often the reporter has
popped before each record.  In the runtime the metering thread, the reporter and the
ingest thread take their steps in any order, also in the middle of a call.  Here every
life of the runtime is shown to be a run of such an engine.

A record is decided at one step, at which `try_push` returns, and the schedule has the
records popped by then.  The schedule is known only as far as the run has come, so the
invariant is about every schedule that goes on from there (`Extends`).

**Results.**
* `EngineStep`: what a step of the threads is to the engine.
* `Follows`: the invariant; between calls the engines agree, and in a call the rest of it,
  answered by the ring by itself, gives what the whole call would give.
* `life_refines_engine`: the engine of the runtime is in a state that an engine by itself
  reaches by the same operations, with the same records accepted.
-/

namespace GtpMeter

open Runs SharedRing MeterEngine

/-- The element that a push in progress carries. -/
def PushPc.offers {T : Type} : PushPc T → Option T
  | .check value _ => some value
  | .write value _ => some value
  | .publish value _ => some value
  | _ => none

namespace SharedRing

variable {T : Type} {k : Nat} {r r' : SharedRing T} {accepted taken : List T} {out : RingOut T}

theorem push_offers {value : T} (hs : r.step (.push value) = .ok (r', out)) :
    out = .pending ∧ r'.push.offers = some value := by
  obtain ⟨-, rfl, rfl⟩ := beginPush_ok hs
  exact ⟨rfl, rfl⟩

/-- `try_push` returns at a step at which it is right: there is room or there is none. -/
theorem produce_offers {value : T} (ho : Holds k r accepted taken)
    (hv : r.push.offers = some value) (hs : r.step .produce = .ok (r', out)) :
    (out = .pending ∧ r'.push.offers = some value) ∨
      ∃ count, out = .pushed (if accepted.length < taken.length + 2 ^ k then [value] else [])
        count := by
  obtain ⟨ct, ch, hok⟩ := ho
  have hp := hok.producer
  cases produce_moves hs with
  | full hpc _ hfull =>
      rw [hpc] at hp
      obtain rfl : _ = r.ring.head := hp
      have heq : accepted.length = taken.length + 2 ^ k :=
        hok.toCore.reloadTail.full_iff.mp hfull
      exact .inr ⟨1, by rw [if_neg (by omega)]⟩
  | reload hpc | room hpc | write hpc =>
      rw [hpc] at hv
      exact .inl ⟨rfl, hv⟩
  | publish hpc =>
      rw [hpc] at hv hp
      obtain rfl := Option.some.inj hv
      have hle := hok.ct_le
      obtain ⟨-, hroom, -⟩ := hp
      exact .inr ⟨1, by rw [if_pos (by omega)]⟩
  | bulkReload hpc | bulkRoom hpc | bulkWrite hpc
  | bulkPublish hpc => simp [hpc, PushPc.offers] at hv

theorem Holds.fifo (ho : Holds k r accepted taken) : taken <+: accepted := by
  obtain ⟨ct, ch, hok⟩ := ho
  exact hok.fifo

end SharedRing

/-- The records that a step puts into the ring, and those that it takes out. -/
def RuntimeOut.recordsIn : RuntimeOut → List UsageRecord
  | .recordRing out => out.accepted
  | _ => []

def RuntimeOut.recordsOut : RuntimeOut → List UsageRecord
  | .recordRing out => out.taken
  | _ => []

namespace Runtime

section Steps

variable {E : Type} {calls : EngineCalls E} {meterBatch : UInt64} {rt rt' : Runtime E}
  {j : Journal} {out : RuntimeOut}

theorem enter_recordIn (j : Journal) (out : RuntimeOut) :
    (j.enter out).recordIn = j.recordIn ++ out.recordsIn := by
  cases out <;> simp [Journal.enter, RuntimeOut.recordsIn]

theorem enter_recordOut (j : Journal) (out : RuntimeOut) :
    (j.enter out).recordOut = j.recordOut ++ out.recordsOut := by
  cases out <;> simp [Journal.enter, RuntimeOut.recordsOut]

/-- What a step of the threads is to the engine. -/
inductive EngineStep (calls : EngineCalls E) (rt : Runtime E) : Runtime E → RuntimeOut → Prop
  /-- another thread, or the metering thread outside of a call -/
  | aside {rt' : Runtime E} {out : RuntimeOut} (hengine : rt'.engine = rt.engine)
      (hmeter : rt'.meter = rt.meter ∨
        ∃ here next, rt.meter = .place here ∧ rt'.meter = .place next)
      (hpush : rt'.recordRing.push = rt.recordRing.push) (hin : out.recordsIn = [])
      (hcall : (LifeOut.threads out).op = none) : EngineStep calls rt rt' out
  | call {here next : MeterAt} {c : EngineCall} (hm : rt.meter = .place here) :
      EngineStep calls rt (rt.enter calls c next).1 (rt.enter calls c next).2
  | returns {e : E} {next : MeterAt} (hm : rt.meter = .working (.done e) next) :
      EngineStep calls rt { rt with engine := e, meter := .place next } .quiet
  | ask {record : UsageRecord} {resume : Bool → Work E} {next : MeterAt}
      {r : SharedRing UsageRecord} {o : RingOut UsageRecord}
      (hm : rt.meter = .working (.ask record resume) next)
      (hring : rt.recordRing.step (.push record) = .ok (r, o)) :
      EngineStep calls rt { rt with recordRing := r, meter := .emitting resume next }
        (.recordRing o)
  | offer {resume : Bool → Work E} {next : MeterAt} {r : SharedRing UsageRecord}
      {o : RingOut UsageRecord} {pc : MeterPc E} (hm : rt.meter = .emitting resume next)
      (hring : rt.recordRing.step .produce = .ok (r, o))
      (hpending : o = .pending → pc = .emitting resume next)
      (hpushed : ∀ accepted count, o = .pushed accepted count →
        pc = .working (resume (!accepted.isEmpty)) next) :
      EngineStep calls rt { rt with recordRing := r, meter := pc } (.recordRing o)

theorem step_engine {op : RuntimeOp} (hstep : rt.step calls meterBatch op = .ok (rt', out)) :
    EngineStep calls rt rt' out := by
  cases step_moves hstep with
  | stopCall =>
      unfold Runtime.stop
      split_ifs <;> exact .aside rfl (.inl rfl) rfl rfl rfl
  | ingestDrain _ hd | reporterDrain _ hd => exact .aside rfl (.inl rfl) hd.push hd.accepted rfl
  | meterPop hm | gyPop hm | goes hm => exact .aside rfl (.inr ⟨_, _, hm, rfl⟩) rfl rfl rfl
  | enters hm => exact .call hm
  | returns hm => exact .returns hm
  | ask hm hring => exact .ask hm hring
  | offer hm hring hpc =>
      refine .offer hm hring (fun h => ?_) (fun accepted count h => ?_)
      · rcases hpc with ⟨-, rfl, -⟩ | ⟨_, _, rfl, -⟩
        · rfl
        · cases h
      · rcases hpc with ⟨rfl, -⟩ | ⟨_, _, rfl, rfl, -⟩
        · cases h
        · cases h
          rfl
  | _ => exact .aside rfl (.inl rfl) rfl rfl rfl

end Steps

section Follows

variable {cfg : MeterConfig} {sink₀ s₀ s : RecordSink} {k k₁ k₂ k₃ : Nat}
  {rt rt' : Runtime MeterEngine} {j : Journal} {out : RuntimeOut} {ops : List MeterOp}
  {h : History} {log taken : List UsageRecord} {meterBatch : UInt64}

/-- Where the engine is in its present call: `done` are the operations that have returned,
`s₀` was the sink at the beginning of the call and `s` is the sink now, and `log` has what
the ring took since. -/
def InCall (engine : MeterEngine) (offers : Option UsageRecord) (done ops : List MeterOp)
    (s₀ s : RecordSink) (log : List UsageRecord) : MeterPc MeterEngine → Prop
  | .place _ => s = s₀ ∧ log = [] ∧ ops = done
  | .working work _ => ∃ c : EngineCall, ops = done ++ [c.op] ∧
      Resumption.interp tally (meterCalls engine c) (s₀, []) =
        Resumption.interp tally work (s, log)
  | .emitting resume _ => ∃ (c : EngineCall) (record : UsageRecord), ops = done ++ [c.op] ∧
      Resumption.interp tally (meterCalls engine c) (s₀, []) =
        Resumption.interp tally (.ask record resume) (s, log) ∧
      offers = some record

/-- The engine of the runtime follows an engine by itself, whose history is `h`. -/
structure Follows (cfg : MeterConfig) (sink₀ : RecordSink) (k : Nat) (rt : Runtime MeterEngine)
    (j : Journal) (ops : List MeterOp) (taken : List UsageRecord) (h : History)
    (s₀ s : RecordSink) (log : List UsageRecord) : Prop where
  reaches : Reaches cfg sink₀ h (rt.engine.attach s₀)
  agrees : SinkAgrees s₀ rt.engine
  serves : s.Serves k j.recordIn taken
  pops : s.pops = sink₀.pops
  records : j.recordIn = acceptedRecords (emissionsOf h) ++ log
  current : InCall rt.engine rt.recordRing.push.offers (h.map (fun tr => tr.op)) ops s₀ s log
    rt.meter

theorem Follows.aside (hf : Follows cfg sink₀ k rt j ops taken h s₀ s log)
    (hengine : rt'.engine = rt.engine)
    (hmeter : rt'.meter = rt.meter ∨
      ∃ here next, rt.meter = .place here ∧ rt'.meter = .place next)
    (hpush : rt'.recordRing.push.offers = rt.recordRing.push.offers)
    (hin : out.recordsIn = []) :
    Follows cfg sink₀ k rt' (j.enter out) ops taken h s₀ s log := by
  have hsame : (j.enter out).recordIn = j.recordIn := by
    rw [enter_recordIn, hin, List.append_nil]
  refine ⟨hengine ▸ hf.reaches, hengine ▸ hf.agrees, hsame ▸ hf.serves, hf.pops,
    hsame ▸ hf.records, ?_⟩
  have hcurrent := hf.current
  rw [hengine, hpush]
  rcases hmeter with hmeter | ⟨here, next, hm, hm'⟩
  · rw [hmeter]
    exact hcurrent
  · rw [hm] at hcurrent
    rw [hm']
    exact hcurrent

/-- A call begins. -/
theorem Follows.call (hf : Follows cfg sink₀ k rt j ops taken h s₀ s log) {here next : MeterAt}
    {c : EngineCall} (hm : rt.meter = .place here) :
    Follows cfg sink₀ k (rt.enter meterCalls c next).1 (j.enter (rt.enter meterCalls c next).2)
      (ops ++ [c.op]) taken h s₀ s log := by
  have hcurrent := hf.current
  rw [hm] at hcurrent
  obtain ⟨rfl, rfl, rfl⟩ := hcurrent
  exact ⟨hf.reaches, hf.agrees, hf.serves, hf.pops, hf.records, c, rfl, rfl⟩

/-- A call returns, and so does the call of the engine by itself. -/
theorem Follows.returns (hf : Follows cfg sink₀ k rt j ops taken h s₀ s log) {e : MeterEngine}
    {next : MeterAt} (hm : rt.meter = .working (.done e) next) :
    ∃ h', Follows cfg sink₀ k { rt with engine := e, meter := .place next } (j.enter .quiet) ops
      taken h' s s [] := by
  have hcurrent := hf.current
  rw [hm] at hcurrent
  obtain ⟨c, rfl, hinterp⟩ := hcurrent
  obtain ⟨hagrees, out, hstep, hlog⟩ := meterCalls_tally hf.agrees c hinterp
  rw [List.nil_append] at hlog
  subst hlog
  have hreaches : Reaches cfg sink₀
      (h ++ [⟨rt.engine.attach s₀, c.op, out, e.attach s⟩]) (e.attach s) := hf.reaches.snoc hstep
  refine ⟨_, hreaches, hagrees, hf.serves, hf.pops, ?_, rfl, rfl, by simp⟩
  rw [emissionsOf_snoc, acceptedRecords_append, List.append_nil]
  exact hf.records

/-- `try_push` of a record begins. -/
theorem Follows.ask (hf : Follows cfg sink₀ k rt j ops taken h s₀ s log) {record : UsageRecord}
    {resume : Bool → Work MeterEngine} {next : MeterAt} {r : SharedRing UsageRecord}
    {o : RingOut UsageRecord} (hm : rt.meter = .working (.ask record resume) next)
    (hring : rt.recordRing.step (.push record) = .ok (r, o)) :
    Follows cfg sink₀ k { rt with recordRing := r, meter := .emitting resume next }
      (j.enter (.recordRing o)) ops taken h s₀ s log := by
  obtain ⟨rfl, hoffers⟩ := push_offers hring
  have hsame : (j.enter (.recordRing .pending)).recordIn = j.recordIn := by
    rw [enter_recordIn]
    exact List.append_nil _
  have hcurrent := hf.current
  rw [hm] at hcurrent
  obtain ⟨c, hops, hinterp⟩ := hcurrent
  exact ⟨hf.reaches, hf.agrees, hsame ▸ hf.serves, hf.pops, hsame ▸ hf.records,
    c, record, hops, hinterp, hoffers⟩

/-- `try_push` of a record returns: the ring by itself, after as many pops, answers the
same. -/
theorem Follows.offer (hf : Follows cfg sink₀ k rt j ops taken h s₀ s log)
    (hout : j.recordOut <+: j.recordIn) (htaken : taken <+: j.recordOut)
    (hpops : s.pops s.offered = j.recordOut.length - taken.length)
    {resume : Bool → Work MeterEngine} {next : MeterAt} {record : UsageRecord}
    (hm : rt.meter = .emitting resume next) (hoffers : rt.recordRing.push.offers = some record)
    (r : SharedRing UsageRecord) (count : Nat) :
    let accepted := if j.recordIn.length < j.recordOut.length + 2 ^ k then [record] else []
    ∃ s' log', Follows cfg sink₀ k
      { rt with recordRing := r, meter := .working (resume (!accepted.isEmpty)) next }
      (j.enter (.recordRing (.pushed accepted count))) ops j.recordOut h s₀ s' log' ∧
      s'.offered = s.offered + 1 := by
  intro accepted
  obtain ⟨more, hmore⟩ := htaken
  have hcurrent := hf.current
  rw [hm] at hcurrent
  obtain ⟨c, record', hops, hinterp, hoffers'⟩ := hcurrent
  obtain rfl : record = record' := Option.some.inj (hoffers.symm.trans hoffers')
  have hlen : s.pops s.offered = more.length := by
    rw [hpops, ← hmore, List.length_append]
    omega
  obtain ⟨hanswer, hserves, hsame, hoffered⟩ :=
    hf.serves.answer (hmore ▸ hout) hlen record
  rw [hmore] at hanswer hserves
  have haccepted : (if (answer s record).2 = true then [record] else []) = accepted := by
    rw [hanswer]
    simp only [accepted, decide_eq_true_eq]
  have hnonempty : (!accepted.isEmpty) = (answer s record).2 := by
    rw [hanswer]
    simp only [accepted]
    split_ifs with hroom <;> simp [hroom]
  rw [haccepted] at hserves
  refine ⟨(answer s record).1, log ++ accepted, ⟨hf.reaches, hf.agrees, ?_,
    hsame.trans hf.pops, ?_, c, hops, ?_⟩, hoffered⟩
  · rw [enter_recordIn]
    exact hserves
  · rw [enter_recordIn, hf.records, List.append_assoc]
    rfl
  · rw [hinterp, hnonempty, ← haccepted]
    rfl

/-- A session is installed between two cycles. -/
theorem Follows.install (hf : Follows cfg sink₀ k rt j ops taken h s₀ s log) {here : MeterAt}
    (hm : rt.meter = .place here) {spec : SessionSpec} {nowNs : UInt64} {e : MeterEngine}
    (hinstall : meterInstall rt.engine spec nowNs = .ok e) :
    ∃ h', Follows cfg sink₀ k { rt with engine := e } j (ops ++ [.install spec nowNs]) taken h'
      s₀ s log := by
  have hcurrent := hf.current
  rw [hm] at hcurrent
  obtain ⟨rfl, rfl, rfl⟩ := hcurrent
  cases hsession : rt.engine.installSession spec nowNs with
  | error f => simp [meterInstall, hsession, Except.map] at hinstall
  | ok r =>
      obtain ⟨e', idx⟩ := r
      obtain rfl : e' = e := by simpa [meterInstall, hsession, Except.map] using hinstall
      have hstep : (rt.engine.attach s).step (.install spec nowNs) =
          .ok (e'.attach s, { index := idx }) := by
        simp [MeterEngine.step, installSession_attach, hsession, Except.map, Bind.bind,
          Except.bind]
      have hself : rt.engine.installSession spec nowNs =
          (rt.engine.installSession spec nowNs).map
            (fun r => (r.1.attach rt.engine.sink, r.2)) := installSession_attach spec nowNs
      rw [hsession] at hself
      have hsink : e' = e'.attach rt.engine.sink := (Prod.mk.inj (Except.ok.inj hself)).1
      have hagrees : SinkAgrees s e' := by
        rw [hsink]
        exact ⟨hf.agrees.wall, hf.agrees.offered, hf.agrees.ring⟩
      have hreaches : Reaches cfg sink₀ (h ++ [⟨rt.engine.attach s, .install spec nowNs,
          { index := idx }, e'.attach s⟩]) (e'.attach s) := hf.reaches.snoc hstep
      refine ⟨_, hreaches, hagrees, hf.serves, hf.pops, ?_, ?_⟩
      · rw [emissionsOf_snoc]
        simpa using hf.records
      · rw [hm]
        exact ⟨rfl, rfl, by simp⟩

end Follows

section Lives

variable {cfg : MeterConfig} {sink₀ : RecordSink} {k₁ k₂ k₃ : Nat}
  {rt rt' : Runtime MeterEngine} {j : Journal} {ops : List MeterOp} {meterBatch : UInt64}

/-- A schedule that begins with these numbers. -/
def Extends (pops : Nat → Nat) (ps : List Nat) : Prop :=
  ∀ i d, ps[i]? = some d → pops i = d

theorem Extends.snoc {pops : Nat → Nat} {ps : List Nat} {d : Nat} (he : Extends pops (ps ++ [d])) :
    Extends pops ps ∧ pops ps.length = d := by
  constructor
  · intro i x hx
    refine he i x ?_
    rw [List.getElem?_append_left (List.getElem?_eq_some_iff.mp hx).1]
    exact hx
  · exact he _ _ (by simp)

/-- Whatever the schedule will be from here on, the engine follows an engine by itself. -/
def Linear (cfg : MeterConfig) (sink₀ : RecordSink) (k : Nat) (rt : Runtime MeterEngine)
    (j : Journal) (ops : List MeterOp) : Prop :=
  ∃ ps taken, taken <+: j.recordOut ∧ ∀ pops, Extends pops ps → ∃ h s₀ s log,
    Follows cfg { sink₀ with pops := pops } k rt j ops taken h s₀ s log ∧ s.offered = ps.length

/-- One such schedule. -/
theorem Linear.follows (hl : Linear cfg sink₀ k₃ rt j ops) :
    ∃ pops taken hist s₀ s log,
      Follows cfg { sink₀ with pops := pops } k₃ rt j ops taken hist s₀ s log := by
  obtain ⟨ps, taken, -, hall⟩ := hl
  obtain ⟨hist, s₀, s, log, hf, -⟩ := hall (fun i => ps.getD i 0) (by
    intro i d hd
    simp [List.getD, hd])
  exact ⟨_, taken, hist, s₀, s, log, hf⟩

/-- A step that leaves the sink of the engine by itself as it is. -/
theorem Linear.keep {j' : Journal} {ops' : List MeterOp} (hl : Linear cfg sink₀ k₃ rt j ops)
    (hout : j.recordOut <+: j'.recordOut)
    (hkeep : ∀ {pops taken h s₀ s log},
      Follows cfg { sink₀ with pops := pops } k₃ rt j ops taken h s₀ s log → ∃ h' s₀' log',
      Follows cfg { sink₀ with pops := pops } k₃ rt' j' ops' taken h' s₀' s log') :
    Linear cfg sink₀ k₃ rt' j' ops' := by
  obtain ⟨ps, taken, htaken, hall⟩ := hl
  refine ⟨ps, taken, htaken.trans hout, fun pops he => ?_⟩
  obtain ⟨h, s₀, s, log, hf, hoffered⟩ := hall pops he
  obtain ⟨h', s₀', log', hf'⟩ := hkeep hf
  exact ⟨h', s₀', s, log', hf', hoffered⟩

/-- A step of the threads. -/
theorem Linear.step {out : RuntimeOut} (hl : Linear cfg sink₀ k₃ rt j ops)
    (hrecords : Holds k₃ rt.recordRing j.recordIn j.recordOut) {op : RuntimeOp}
    (hstep : rt.step meterCalls meterBatch op = .ok (rt', out)) :
    Linear cfg sink₀ k₃ rt' (j.enter out) (ops ++ (LifeOut.threads out).op.toList) := by
  have hout : j.recordOut <+: (j.enter out).recordOut := by
    rw [enter_recordOut]
    exact List.prefix_append _ _
  cases step_engine hstep with
  | aside hengine hmeter hpush hin hcall =>
      rw [hcall, Option.toList_none, List.append_nil]
      exact hl.keep hout (fun hf => ⟨_, _, _, hf.aside hengine hmeter (by rw [hpush]) hin⟩)
  | call hm => exact hl.keep hout (fun hf => ⟨_, _, _, hf.call hm⟩)
  | returns hm =>
      refine hl.keep hout (fun hf => ?_)
      obtain ⟨h', hf'⟩ := hf.returns hm
      exact ⟨h', _, [], by simpa [LifeOut.op] using hf'⟩
  | ask hm hring =>
      exact hl.keep hout (fun hf => ⟨_, _, _, by simpa [LifeOut.op] using hf.ask hm hring⟩)
  | @offer resume next r o pc hm hring hpending hpushed =>
      -- the record is that of the call, whichever schedule is looked at
      have hoffers : ∃ record, rt.recordRing.push.offers = some record := by
        obtain ⟨pops, taken', h, s₀, s, log, hf⟩ := hl.follows
        have hcurrent := hf.current
        rw [hm] at hcurrent
        obtain ⟨c, record, -, -, hoffers⟩ := hcurrent
        exact ⟨record, hoffers⟩
      obtain ⟨record, hoffers⟩ := hoffers
      rcases produce_offers hrecords hoffers hring with ⟨rfl, hoffers'⟩ | ⟨count, rfl⟩
      · obtain rfl := hpending rfl
        have hops : ops ++ (LifeOut.threads (.recordRing .pending)).op.toList = ops :=
          List.append_nil ops
        rw [hops]
        exact hl.keep hout (fun hf =>
          ⟨_, _, _, hf.aside rfl (.inl hm.symm) (hoffers'.trans hoffers.symm) rfl⟩)
      · obtain rfl := hpushed _ _ rfl
        obtain ⟨ps, taken, htaken, hall⟩ := hl
        refine ⟨ps ++ [j.recordOut.length - taken.length], j.recordOut, ?_, fun pops he => ?_⟩
        · rw [enter_recordOut]
          exact List.prefix_append _ _
        · obtain ⟨he, hd⟩ := he.snoc
          obtain ⟨h, s₀, s, log, hf, hoffered⟩ := hall pops he
          obtain ⟨s', log', hf', hoffered'⟩ := hf.offer hrecords.fifo htaken
            (by rw [hf.pops, hoffered]; exact hd) hm hoffers r count
          exact ⟨h, s₀, s', log', by simpa [LifeOut.op] using hf', by simp [hoffered', hoffered]⟩

theorem Linear.lifeStep {out : LifeOut} (hl : Linear cfg sink₀ k₃ rt j ops)
    (hc : Cycled k₁ k₂ k₃ rt j) {op : LifeOp}
    (hstep : rt.lifeStep meterCalls meterInstall meterBatch op = .ok (rt', out)) :
    Linear cfg sink₀ k₃ rt' (j.enterLife out) (ops ++ out.op.toList) := by
  cases op with
  | threads op =>
      obtain ⟨⟨rt₁, o⟩, hop, hret⟩ := bind_eq_ok.mp hstep
      cases hret
      refine hl.step ?_ hop
      by_cases hstopped : rt.ingest = .stopped
      · exact (hc.down hstopped).recordRing
      · obtain ⟨before, now, -, hs⟩ := hc.up hstopped
        exact hs.recordRing
  | install spec nowNs =>
      simp only [Runtime.lifeStep] at hstep
      split at hstep
      · rename_i e hstopped he
        cases hstep
        refine hl.keep List.prefix_rfl (fun hf => ?_)
        obtain ⟨h', hf'⟩ := hf.install (hc.down hstopped).meter he
        exact ⟨h', _, _, hf'⟩
      · cases hstep
  | start opened =>
      simp only [Runtime.lifeStep] at hstep
      split at hstep
      · cases hstep
        have hops : ops ++ (LifeOut.threads .quiet).op.toList = ops := List.append_nil ops
        rw [hops]
        exact hl
      · rename_i hstopped
        cases hstep
        refine hl.keep List.prefix_rfl (fun hf => ?_)
        have hcurrent := hf.current
        rw [(hc.down hstopped).meter] at hcurrent
        obtain ⟨hsame, hlog, hops⟩ := hcurrent
        exact ⟨_, _, _, hf.reaches, hf.agrees, hf.serves, hf.pops, hf.records, hsame, hlog,
          (List.append_nil ops).trans hops⟩
      · cases hstep

/-- The record ring of an engine by itself, with the schedule of the reporter. -/
def ringSink (k : Nat) (slots : UInt64 → UsageRecord) (wall : Nat → UInt64)
    (pops : Nat → Nat) : RecordSink :=
  { ring := some (SharedRing.start k slots).ring, wall := wall, pops := pops }

/-- The runtime of `MeterEngine` as the constructor leaves it. -/
def assembledMeter (cfg : MeterConfig) (wall : Nat → UInt64) (k₁ k₂ k₃ : Nat)
    (s₁ : UInt64 → MeterEvent) (s₂ : UInt64 → GyEvent) (s₃ : UInt64 → UsageRecord) :
    Runtime MeterEngine :=
  assembled (MeterEngine.init cfg (ringSink k₃ s₃ wall (fun _ => 0)))
    (.start k₁ s₁) (.start k₂ s₂) (.start k₃ s₃)

theorem Linear.assembled {wall : Nat → UInt64} (h₃ : k₃ < 64) (s₁ : UInt64 → MeterEvent)
    (s₂ : UInt64 → GyEvent) (s₃ : UInt64 → UsageRecord) :
    Linear cfg (ringSink k₃ s₃ wall (fun _ => 0)) k₃ (assembledMeter cfg wall k₁ k₂ k₃ s₁ s₂ s₃)
      {} [] := by
  refine ⟨[], [], List.prefix_rfl, fun pops _ => ?_⟩
  have hserves : (ringSink k₃ s₃ wall pops).Serves k₃ [] [] :=
    ⟨_, 0, 0, rfl, (start_ok h₃ s₃).toCore⟩
  exact ⟨[], ringSink k₃ s₃ wall pops, ringSink k₃ s₃ wall pops, [],
    ⟨.nil, ⟨rfl, rfl, rfl⟩, hserves, rfl, rfl, rfl, rfl, rfl⟩, rfl⟩

variable {wall : Nat → UInt64} {s₁ : UInt64 → MeterEvent} {s₂ : UInt64 → GyEvent}
  {s₃ : UInt64 → UsageRecord} {h : LifeTrace MeterEngine}

theorem life_linear (h₁ : k₁ < 64) (h₂ : k₂ < 64) (h₃ : k₃ < 64)
    (hrun : Run (Runtime.lifeStep meterCalls meterInstall meterBatch)
      (assembledMeter cfg wall k₁ k₂ k₃ s₁ s₂ s₃) h rt) :
    Linear cfg (ringSink k₃ s₃ wall (fun _ => 0)) k₃ rt (lifeJournal h) (opsOf h) := by
  induction hrun with
  | nil => exact Linear.assembled h₃ s₁ s₂ s₃
  | @snoc h rt rt' op out hprev hstep ih =>
      have hl := ih.lifeStep (life_cycled h₁ h₂ h₃ hprev) hstep
      have hops : opsOf (h ++ [⟨rt, op, out, rt'⟩]) = opsOf h ++ out.op.toList := by
        cases hop : out.op <;> simp [opsOf, hop]
      rw [hops]
      simpa [lifeJournal] using hl

/-- At any time of any life the engine of the runtime is, but for the ring, in a state
that an engine by itself reaches: by the operations of the threads in their order, with
some schedule of the reporter, and with the same records accepted.  Only the present call
of the metering thread, and the records accepted in it, may be ahead. -/
theorem life_refines_engine (h₁ : k₁ < 64) (h₂ : k₂ < 64) (h₃ : k₃ < 64)
    (hrun : Run (Runtime.lifeStep meterCalls meterInstall meterBatch)
      (assembledMeter cfg wall k₁ k₂ k₃ s₁ s₂ s₃) h rt) :
    ∃ (pops : Nat → Nat) (hist : History) (e : MeterEngine),
      Reaches cfg (ringSink k₃ s₃ wall pops) hist e ∧ rt.engine.attach e.sink = e ∧
      ∃ (current : Option EngineCall) (log : List UsageRecord),
        opsOf h = hist.map (fun tr => tr.op) ++ (current.map EngineCall.op).toList ∧
        (lifeJournal h).recordIn = acceptedRecords (emissionsOf hist) ++ log ∧
        ((∃ here, rt.meter = .place here) → current = none ∧ log = []) := by
  obtain ⟨pops, taken, hist, s₀, s, log, hf⟩ := (life_linear h₁ h₂ h₃ hrun).follows
  refine ⟨pops, hist, _, hf.reaches, rfl, ?_⟩
  have hcurrent := hf.current
  cases hm : rt.meter with
  | place here =>
      rw [hm] at hcurrent
      obtain ⟨-, rfl, hops⟩ := hcurrent
      exact ⟨none, [], by simpa using hops, hf.records, fun _ => ⟨rfl, rfl⟩⟩
  | working work next =>
      rw [hm] at hcurrent
      obtain ⟨c, hops, -⟩ := hcurrent
      exact ⟨some c, log, hops, hf.records, fun ⟨here, hplace⟩ => by cases hplace⟩
  | emitting resume next =>
      rw [hm] at hcurrent
      obtain ⟨c, record, hops, -⟩ := hcurrent
      exact ⟨some c, log, hops, hf.records, fun ⟨here, hplace⟩ => by cases hplace⟩

/-- Two cycles of a small runtime, as ten operations of an engine by itself. -/
theorem life_refines_engine_twice :
    ∃ (h : LifeTrace MeterEngine) (rt : Runtime MeterEngine) (pops : Nat → Nat)
      (hist : History) (e : MeterEngine),
      Run (Runtime.lifeStep meterCalls meterInstall 256) smallAssembled h rt ∧
      Reaches smallConfig (ringSink 1 (fun _ => {}) (fun _ => 0) pops) hist e ∧
      hist.length = 10 ∧ e.stats.ulBytes = 150 ∧
      (lifeJournal h).recordIn = acceptedRecords (emissionsOf hist) := by
  obtain ⟨h, rt, hrun, hstopped, -, -, hlen, hbytes, -⟩ := two_cycles
  have hidle := (life_cycled (by decide) (by decide) (by decide) hrun).down hstopped
  obtain ⟨pops, hist, e, hreach, hattach, current, log, hops, hrecords, hplace⟩ :=
    life_refines_engine (by decide) (by decide) (by decide) hrun
  obtain ⟨rfl, rfl⟩ := hplace ⟨_, hidle.meter⟩
  rw [hops] at hlen
  refine ⟨h, rt, pops, hist, e, hrun, hreach, by simpa using hlen, ?_, by simpa using hrecords⟩
  rw [← hattach]
  exact hbytes

end Lives

end Runtime
end GtpMeter
