import GtpMeter.DetailPass

/-!
# The top talkers of a report

`render_subscribers_json` and the per-subscriber series of `render_prometheus` show the
first rows of the published table as the busiest subscribers.  The scan puts the rows in
order only when it has to cut them to the limit; otherwise they stand in the order of the
subscriber table.

Of `render_prometheus` only the per-subscriber series is modelled.

**Results.**
* `commits_rows`: the rows of every snapshot that the scan commits.
* `top_talkers_busiest_iff`: when the rows shown are the busiest ones.
-/

namespace GtpMeter

open Selection Runs

section Rendering

/-- `%llu` and `%u`. -/
def decimal (n : Nat) : String :=
  toString n

/-- The bucket list of a row; unused buckets are left out. -/
def bucketsJson (row : SubscriberSnapshot) : List String :=
  (List.finRange kBucketSlots).filterMap fun b =>
    if row.bucketIds b = kUnsetBucket ∧ row.bucketBytes b = 0 then none
    else some ("\x7b\"kind\":\"" ++
      (if row.bucketIds b &&& kQfiBucketTag ≠ 0 then "qfi" else "rating-group") ++
      "\",\"id\":" ++ decimal (row.bucketIds b &&& ~~~kQfiBucketTag).toNat ++
      ",\"bytes\":" ++ decimal (row.bucketBytes b).toNat ++ "\x7d")

/-- `append_subscriber`. -/
def subscriberJson (row : SubscriberSnapshot) : String :=
  "\x7b\"imsi\":\"" ++ decimal row.imsi.toNat ++ "\",\"sub\":" ++ decimal row.subIdx.toNat ++
    ",\"ul_teid\":" ++ decimal row.ulTeid.toNat ++ ",\"dl_teid\":" ++ decimal row.dlTeid.toNat ++
    ",\"ul_bytes\":" ++ decimal row.ulBytes.toNat ++
    ",\"dl_bytes\":" ++ decimal row.dlBytes.toNat ++
    ",\"ul_packets\":" ++ decimal row.ulPackets.toNat ++
    ",\"dl_packets\":" ++ decimal row.dlPackets.toNat ++
    ",\"gy_reported_octets\":" ++ decimal row.gyReportedOctets.toNat ++
    ",\"gy_reports\":" ++ decimal row.gyReports.toNat ++
    ",\"buckets\":[" ++ String.intercalate "," (bucketsJson row) ++
    "],\"bucket_aggregated\":" ++ (if row.bucketAggregated then "true" else "false") ++ "\x7d"

/-- The text around a list of rows. -/
def subscribersJson (rows : List SubscriberSnapshot) (total : UInt64) : String :=
  "\x7b\"subscribers\":[" ++ String.intercalate "," (rows.map subscriberJson) ++
    "],\"returned\":" ++ decimal rows.length ++ ",\"total\":" ++ decimal total.toNat ++ "\x7d"

def renderSubscribersJson (detail : DetailSnapshot) (limit : Nat) : String :=
  let n := min limit detail.subscribers.length
  subscribersJson (detail.subscribers.take n) detail.totalSubscribers

/-- The two lines of a row. -/
def seriesLines (row : SubscriberSnapshot) : String :=
  "gtpm_subscriber_bytes_total\x7bimsi=\"" ++ decimal row.imsi.toNat ++
    "\",direction=\"uplink\"\x7d " ++ decimal row.ulBytes.toNat ++ "\n" ++
    "gtpm_subscriber_bytes_total\x7bimsi=\"" ++ decimal row.imsi.toNat ++
    "\",direction=\"downlink\"\x7d " ++ decimal row.dlBytes.toNat ++ "\n"

/-- The text of the series of some rows. -/
def seriesText (rows : List SubscriberSnapshot) : String :=
  "# HELP gtpm_subscriber_bytes_total Per-subscriber metered bytes (top talkers only)\n" ++
    "# TYPE gtpm_subscriber_bytes_total counter\n" ++ String.join (rows.map seriesLines)

/-- The per-subscriber series of `render_prometheus`. -/
def subscriberSeries (detail : Option DetailSnapshot) (series : Nat) : String :=
  match detail with
  | none => ""
  | some detail =>
      if series > 0 then
        seriesText (detail.subscribers.take (min series detail.subscribers.length))
      else ""

/-- The rows that a report of size `n` shows. -/
def shownRows (detail : DetailSnapshot) (n : Nat) : List SubscriberSnapshot :=
  detail.subscribers.take n

/-- The rows that it leaves out. -/
def hiddenRows (detail : DetailSnapshot) (n : Nat) : List SubscriberSnapshot :=
  detail.subscribers.drop n

theorem take_min_length {α : Type} (l : List α) (n : Nat) : l.take (min n l.length) = l.take n := by
  rw [← List.take_eq_take_min]

end Rendering

namespace DetailScan

variable {std : StdLib} {cfg : DetailConfig} {e : MeterEngine} {s s' : DetailScan}
  {tick : DetailTick} {out : Option DetailSnapshot} {snap : DetailSnapshot}

section Rows

/-- The rows of the pass that is going on are those below the cursor. -/
def RowsScanned (e : MeterEngine) (s : DetailScan) : Prop :=
  ∀ snap, s.building = some snap →
    s.subCursor ≤ e.nextSub ∧ snap.subscribers = rowsBelow e s.subCursor

/-- The rows at the start of a tick. -/
theorem openPass_rows (h : RowsScanned e s) {sub flow : Nat}
    (hopen : s.openPass tick = some (snap, sub, flow)) :
    sub ≤ e.nextSub ∧ snap.subscribers = rowsBelow e sub := by
  unfold openPass at hopen
  cases hb : s.building with
  | some old =>
      simp only [hb, Option.some.injEq, Prod.mk.injEq] at hopen
      obtain ⟨rfl, rfl, rfl⟩ := hopen
      exact h old hb
  | none =>
      simp only [hb] at hopen
      obtain ⟨old, -, hnew⟩ := Option.map_eq_some_iff.mp hopen
      simp only [Prod.mk.injEq] at hnew
      obtain ⟨rfl, rfl, rfl⟩ := hnew
      exact ⟨Nat.zero_le _, rfl⟩

/-- A tick keeps the rows, and what it commits has all of them, cut to the limit. -/
theorem advance_rows (hsize : e.nextSub ≤ e.tableSize) (h : RowsScanned e s)
    (hstep : advanceDetailScan std cfg e s tick = .ok (s', out)) :
    RowsScanned e s' ∧ ∀ snap, out = some snap →
      snap.subscribers =
        limitRows std cfg.snapshotSubscriberLimit.toNat (rowsBelow e e.nextSub) := by
  unfold advanceDetailScan at hstep
  cases hopen : s.openPass tick with
  | none =>
      rw [hopen] at hstep
      cases hstep
      exact ⟨h, fun _ hout => by cases hout⟩
  | some pass =>
      obtain ⟨snap₀, sub, flow⟩ := pass
      obtain ⟨hle, hrows⟩ := openPass_rows h hopen
      rw [hopen] at hstep
      dsimp only at hstep
      rw [hrows, scanSubscribers_eq hsize _ sub hle] at hstep
      obtain ⟨_, hscan, hstep⟩ := bind_eq_ok.mp hstep
      obtain rfl := Except.ok.inj hscan
      obtain ⟨⟨flow', top⟩, -, hstep⟩ := bind_eq_ok.mp hstep
      have hstop : stopAt sub cfg.snapshotScanBudget.toNat e.nextSub ≤ e.nextSub :=
        Nat.min_le_right _ _
      dsimp only at hstep
      split_ifs at hstep with hmore
      · cases hstep
        constructor
        · intro snap hbuilding
          obtain rfl := Option.some.inj hbuilding
          exact ⟨hstop, rfl⟩
        · intro snap hnone
          cases hnone
      · cases hstep
        constructor
        · intro snap hnone
          cases hnone
        · intro snap hcommit
          have hend : stopAt sub cfg.snapshotScanBudget.toNat e.nextSub = e.nextSub := by
            omega
          obtain rfl := Option.some.inj hcommit
          show limitRows std _ (rowsBelow e (stopAt sub _ e.nextSub)) = _
          rw [hend]

/-- Every snapshot that a scan commits over an engine that stays as it is has the same
rows. -/
theorem commits_rows (hsize : e.nextSub ≤ e.tableSize)
    {hist : List (Transition DetailScan DetailTick (Option DetailSnapshot))}
    (hrun : Run (advanceDetailScan std cfg e) s hist s') (hidle : s.building = none)
    {tr : Transition DetailScan DetailTick (Option DetailSnapshot)} (htr : tr ∈ hist)
    (hout : tr.out = some snap) :
    snap.subscribers =
      limitRows std cfg.snapshotSubscriberLimit.toNat (rowsBelow e e.nextSub) := by
  have hstart : RowsScanned e s := fun _ hb => by rw [hidle] at hb; cases hb
  obtain ⟨⟨before, hbefore⟩, hstep⟩ := hrun.mem htr
  have hpre : RowsScanned e tr.pre :=
    Run.invariant (I := RowsScanned e) hstart
      (fun _ _ _ _ hi hs => (advance_rows hsize hi hs).1) hbefore
  exact (advance_rows hsize hpre hstep).2 snap hout

end Rows

section Busiest

/-- **Top talkers.**  A report shows the first rows of the table.  These are the busiest
ones, for every size of the report, exactly if the table was cut to the limit, or if the
active subscribers with traffic happen to stand in the order of their total bytes. -/
theorem top_talkers_busiest_iff {mcfg : MeterConfig} {sink : RecordSink}
    {h : MeterEngine.History} (std : StdLib) (cfg : DetailConfig)
    (hreach : MeterEngine.Reaches mcfg sink h e)
    {hist : List (Transition DetailScan DetailTick (Option DetailSnapshot))}
    (hrun : Run (advanceDetailScan std cfg e) s hist s') (hidle : s.building = none)
    {tr : Transition DetailScan DetailTick (Option DetailSnapshot)} (htr : tr ∈ hist)
    (hout : tr.out = some snap) :
    (∀ n, renderSubscribersJson snap n =
      subscribersJson (shownRows snap n) snap.totalSubscribers) ∧
    (∀ n, 0 < n → subscriberSeries (some snap) n = seriesText (shownRows snap n)) ∧
    ((∀ n, ∀ a ∈ shownRows snap n, ∀ b ∈ hiddenRows snap n, rowBytes b ≤ rowBytes a) ↔
      cfg.snapshotSubscriberLimit.toNat < (rowsBelow e e.nextSub).length ∨
        Descending rowBytes (rowsBelow e e.nextSub)) := by
  have hsize : e.nextSub ≤ e.tableSize := (MeterEngine.reaches_indexed hreach).next_le
  have hrows := commits_rows hsize hrun hidle htr hout
  refine ⟨fun n => ?_, fun n hn => ?_, ?_⟩
  · rw [renderSubscribersJson, take_min_length]
    rfl
  · rw [subscriberSeries, if_pos hn, take_min_length]
    rfl
  · unfold shownRows hiddenRows
    rw [← descending_iff_fronts, hrows]
    by_cases hcut : cfg.snapshotSubscriberLimit.toNat < (rowsBelow e e.nextSub).length
    · rw [limitRows, if_pos hcut]
      simp only [hcut, true_or, iff_true]
      exact std.rows.partialSort_desc _ _ hcut.le
    · rw [limitRows, if_neg hcut]
      simp only [hcut, false_or]

/-- The less busy of two subscribers is the top talker. -/
theorem first_talker_not_busiest :
    ∃ h e hist s snap, MeterEngine.Reaches smallTables MeterEngine.noSink h e ∧
      Run (advanceDetailScan sortingStd {} e) {} hist s ∧
      hist.filterMap Transition.out = [snap] ∧
      (shownRows snap 1).map (fun row => (row.imsi, row.totalBytes)) = [(1, 10)] ∧
      (hiddenRows snap 1).map (fun row => (row.imsi, row.totalBytes)) = [(2, 20)] := by
  have hex : execCheck MeterEngine.step (MeterEngine.init smallTables MeterEngine.noSink)
      twoTalkers (fun _ e => returnsWith
        (exec (advanceDetailScan sortingStd {} e) {} [{ wallNs := 5, free := some {} }])
        (fun r => decide ((r.1.filterMap Transition.out).map (fun snap =>
          ((shownRows snap 1).map (fun row => (row.imsi, row.totalBytes)),
            (hiddenRows snap 1).map (fun row => (row.imsi, row.totalBytes)))) =
          [([(1, 10)], [(2, 20)])]))) = true := by
    decide +kernel
  obtain ⟨h, e, hrun, hcheck⟩ := Run.of_execCheck hex
  obtain ⟨⟨hist, s⟩, hexec, hrows⟩ := returnsWith_iff.mp hcheck
  obtain ⟨snap, hcommit, hsnap⟩ := List.map_eq_singleton_iff.mp (of_decide_eq_true hrows)
  obtain ⟨hshown, hhidden⟩ := Prod.mk.inj hsnap
  exact ⟨h, e, hist, s, snap, hrun, Run.of_exec hexec, hcommit, hshown, hhidden⟩

/-- With room for one row, the busier of the two is shown. -/
theorem top_talkers_busiest_iff_cut :
    ∃ h e hist s snap, MeterEngine.Reaches smallTables MeterEngine.noSink h e ∧
      Run (advanceDetailScan sortingStd oneByOne e) {} hist s ∧
      hist.filterMap Transition.out = [snap] ∧ snap.subscribers.map (·.imsi) = [2] ∧
      ∀ n, ∀ a ∈ shownRows snap n, ∀ b ∈ hiddenRows snap n, rowBytes b ≤ rowBytes a := by
  have hex : execCheck MeterEngine.step (MeterEngine.init smallTables MeterEngine.noSink)
      twoTalkers (fun _ e => decide ((rowsBelow e e.nextSub).length = 2) && returnsWith
        (exec (advanceDetailScan sortingStd oneByOne e) {}
          (List.replicate 4 { wallNs := 5, free := some {} }))
        (fun r => decide ((r.1.filterMap Transition.out).map
          (fun snap => snap.subscribers.map (·.imsi)) = [[2]]))) = true := by
    decide +kernel
  obtain ⟨h, e, hreach, hcheck⟩ := Run.of_execCheck hex
  rw [Bool.and_eq_true, decide_eq_true_eq] at hcheck
  obtain ⟨htwo, hpass⟩ := hcheck
  obtain ⟨⟨hist, s⟩, hexec, hrows⟩ := returnsWith_iff.mp hpass
  obtain ⟨snap, hcommit, himsi⟩ := List.map_eq_singleton_iff.mp (of_decide_eq_true hrows)
  have hmem : snap ∈ hist.filterMap Transition.out := by
    rw [hcommit]
    exact List.mem_singleton.mpr rfl
  obtain ⟨tr, htr, hout⟩ := List.mem_filterMap.mp hmem
  have hrun := Run.of_exec hexec
  have hcut : oneByOne.snapshotSubscriberLimit.toNat < (rowsBelow e e.nextSub).length := by
    rw [htwo]
    decide
  have hbusiest := top_talkers_busiest_iff sortingStd oneByOne hreach hrun rfl htr hout
  exact ⟨h, e, hist, s, snap, hreach, hrun, hcommit, himsi, hbusiest.2.2.mpr (.inl hcut)⟩

end Busiest

end DetailScan

end GtpMeter
