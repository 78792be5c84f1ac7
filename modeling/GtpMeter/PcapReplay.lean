import GtpMeter.Pcap
import GtpMeter.RepeatedSequences
import GtpMeter.TransitionRuns
import Mathlib.Algebra.Ring.Nat

/-!
# Replay of a capture

`PcapReplaySource` hands out the packets of a loaded capture in batches, as often as
`loops` says, or without end when that is 0.  The cursor goes back to the first packet
only when the next packet is asked for, and the end is noticed in the same place.

A source is at place `n` when it has handed out `n` packets in all.  `At` says what its
fields are there, and a call moves it as far as there are packets.

**Results.**
* `nextBatch_spec`: what a call returns, from any place.
* `replay_independent_of_batching`: what a run of calls returns.
-/

namespace GtpMeter

open Repetition

structure ReplayOptions where
  /-- 0 means that the capture is replayed until the source is stopped. -/
  loops : UInt32 := 1
deriving DecidableEq

structure PcapReplaySource where
  file : PcapFile := {}
  opt : ReplayOptions := {}
  cursor : Nat := 0
  loop : UInt32 := 0
  replayed : UInt64 := 0
  bytes : UInt64 := 0
  exhausted : Bool := false
  stopped : Bool := false
deriving DecidableEq

namespace PcapReplaySource

/-- `content` is what the file at `path` holds; the result is a source or an error text. -/
def openCapture (path : String) (content : Option (List UInt8)) (opt : ReplayOptions) :
    Except OutOfBounds (Except String PcapReplaySource) := do
  let (r, file) ← PcapFile.load path content
  if !r.ok then .ok (.error r.error)
  else if file.packets.isEmpty then .ok (.error ("capture contains no packets: " ++ path))
  else .ok (.ok { file, opt })

/-- What comes before each packet: behind the last one, a repetition is over. -/
def turn (s : PcapReplaySource) : PcapReplaySource :=
  if s.cursor ≥ s.file.packets.length then
    let loop := s.loop + 1
    if s.opt.loops ≠ 0 ∧ loop ≥ s.opt.loops then { s with loop, exhausted := true }
    else { s with loop, cursor := 0 }
  else s

/-- The loop of `next_batch`: how many packets there is room for, and those so far. -/
def nextPackets : Nat → PcapReplaySource → List PcapPacket →
    Except OutOfBounds (PcapReplaySource × List PcapPacket)
  | 0, s, out => .ok (s, out)
  | left + 1, s, out =>
      let s := s.turn
      if s.exhausted then .ok (s, out)
      else
        match s.file.packets[s.cursor]? with
        | none => .error (.read s.cursor 1)
        | some p =>
            nextPackets left
              { s with
                cursor := s.cursor + 1
                bytes := s.bytes + UInt64.ofNat p.data.size
                replayed := s.replayed + 1 }
              (out ++ [p])

def nextBatch (s : PcapReplaySource) (max : Nat) :
    Except OutOfBounds (PcapReplaySource × List PcapPacket) :=
  if s.exhausted || s.stopped then .ok (s, []) else nextPackets max s []

def stop (s : PcapReplaySource) : PcapReplaySource :=
  { s with stopped := true }

section Places

variable {file : PcapFile} {opt : ReplayOptions} {s : PcapReplaySource} {n : Nat}

/-- How far a source gets with `n` packets asked for. -/
def reach (file : PcapFile) (opt : ReplayOptions) (n : Nat) : Nat :=
  if opt.loops = 0 then n else min n (opt.loops.toNat * file.packets.length)

def bytesOf (packets : List PcapPacket) : Nat :=
  (packets.map fun p => p.data.size).sum

/-- The source has handed out `n` packets. -/
structure At (file : PcapFile) (opt : ReplayOptions) (n : Nat) (s : PcapReplaySource) : Prop where
  file_eq : s.file = file
  opt_eq : s.opt = opt
  running : s.stopped = false
  replayed_eq : s.replayed = UInt64.ofNat n
  bytes_eq : s.bytes = UInt64.ofNat (bytesOf (cycled file.packets n))
  /-- At the end, all repetitions have been handed out. -/
  ended : s.exhausted = true → opt.loops ≠ 0 ∧ n = opt.loops.toNat * file.packets.length
  /-- Before it, so many whole repetitions, and the packets in front of the cursor. -/
  within : s.exhausted = false → ∃ k, n = k * file.packets.length + s.cursor ∧
    s.cursor ≤ file.packets.length ∧ s.loop = UInt32.ofNat k ∧
    (opt.loops ≠ 0 → k < opt.loops.toNat)

theorem at_start (file : PcapFile) (opt : ReplayOptions) : At file opt 0 { file, opt } where
  file_eq := rfl
  opt_eq := rfl
  running := rfl
  replayed_eq := rfl
  bytes_eq := rfl
  ended := by simp
  within := by
    intro _
    refine ⟨0, by simp, Nat.zero_le _, rfl, ?_⟩
    intro hne
    exact Nat.pos_of_ne_zero fun hzero => hne (UInt32.toNat_inj.mp hzero)

theorem reach_add (n m : Nat) : reach file opt (reach file opt n + m) = reach file opt (n + m) := by
  unfold reach
  split_ifs <;> omega

/-- No place is behind the last repetition. -/
theorem At.reach_eq (h : At file opt n s) : reach file opt n = n := by
  unfold reach
  split_ifs with hloops
  · rfl
  · refine Nat.min_eq_left ?_
    cases hend : s.exhausted with
    | true => exact Nat.le_of_eq (h.ended hend).2
    | false =>
        obtain ⟨k, hn, hle, -, hk⟩ := h.within hend
        have hwhole : (k + 1) * file.packets.length ≤ opt.loops.toNat * file.packets.length :=
          Nat.mul_le_mul_right _ (hk hloops)
        rw [Nat.succ_mul] at hwhole
        omega

/-- Nothing is left to hand out. -/
theorem At.reach_of_ended (h : At file opt n s) (hend : s.exhausted = true) (m : Nat) :
    reach file opt (n + m) = n := by
  obtain ⟨hloops, hn⟩ := h.ended hend
  rw [reach, if_neg hloops]
  omega

/-- What a turn can do. -/
theorem turn_cases (s : PcapReplaySource) :
    (s.cursor < s.file.packets.length ∧ s.turn = s) ∨
    (s.file.packets.length ≤ s.cursor ∧ (s.opt.loops ≠ 0 ∧ s.opt.loops ≤ s.loop + 1) ∧
      s.turn = { s with loop := s.loop + 1, exhausted := true }) ∨
    (s.file.packets.length ≤ s.cursor ∧ ¬(s.opt.loops ≠ 0 ∧ s.opt.loops ≤ s.loop + 1) ∧
      s.turn = { s with loop := s.loop + 1, cursor := 0 }) := by
  by_cases hcur : s.file.packets.length ≤ s.cursor
  · by_cases hlast : s.opt.loops ≠ 0 ∧ s.opt.loops ≤ s.loop + 1
    · refine .inr (.inl ⟨hcur, hlast, ?_⟩)
      rw [turn, if_pos hcur, if_pos hlast]
    · refine .inr (.inr ⟨hcur, hlast, ?_⟩)
      rw [turn, if_pos hcur, if_neg hlast]
  · refine .inl ⟨Nat.lt_of_not_le hcur, ?_⟩
    rw [turn, if_neg hcur]

/-- The loop counter says whether the last repetition is over. -/
theorem last_loop_iff {loops : UInt32} {k : Nat} (hk : k < loops.toNat) :
    loops ≤ UInt32.ofNat k + 1 ↔ loops.toNat = k + 1 := by
  have hlt := loops.toNat_lt
  have hnat : (UInt32.ofNat k + 1).toNat = (k + 1) % 2 ^ 32 := by
    rw [UInt32.toNat_add, UInt32.toNat_ofNat']
    simp
  rw [UInt32.le_iff_toNat_le, hnat, Nat.mod_eq_of_lt (by omega)]
  omega

/-- Before a packet, the source either notices the end or stands in front of a packet. -/
theorem At.turn (h : At file opt n s) (hrun : s.exhausted = false) (hne : file.packets ≠ []) :
    At file opt n s.turn ∧
      (s.turn.exhausted = false → s.turn.cursor < file.packets.length ∧
        s.turn.cursor = n % file.packets.length) := by
  have hpos : 0 < file.packets.length := List.length_pos_iff.mpr hne
  obtain ⟨k, hn, hle, hloop, hk⟩ := h.within hrun
  obtain ⟨hcur, hturn⟩ | ⟨hcur, ⟨hloops, hlast⟩, hturn⟩ | ⟨hcur, hmore, hturn⟩ := s.turn_cases
  all_goals rw [h.file_eq] at hcur
  all_goals rw [hturn]
  · refine ⟨h, fun _ => ⟨hcur, ?_⟩⟩
    rw [hn, Nat.add_comm, Nat.add_mul_mod_self_right, Nat.mod_eq_of_lt hcur]
  · rw [h.opt_eq] at hloops hlast
    have hend : opt.loops.toNat = k + 1 := by
      rw [hloop] at hlast
      exact (last_loop_iff (hk hloops)).mp hlast
    refine ⟨{ h with ended := ?_, within := ?_ }, ?_⟩
    · intro _
      refine ⟨hloops, ?_⟩
      rw [hend, Nat.succ_mul]
      omega
    · intro hfalse
      cases hfalse
    · intro hfalse
      cases hfalse
  · rw [h.opt_eq, hloop] at hmore
    have hk' : opt.loops ≠ 0 → k + 1 < opt.loops.toNat := by
      intro hloops
      have hlast := mt (last_loop_iff (hk hloops)).mpr fun hle => hmore ⟨hloops, hle⟩
      have := hk hloops
      omega
    have hn' : n = (k + 1) * file.packets.length + 0 := by
      rw [Nat.succ_mul]
      omega
    refine ⟨{ h with ended := ?_, within := ?_ }, fun _ => ⟨hpos, ?_⟩⟩
    · intro hend
      exact absurd hend (by simp [hrun])
    · intro _
      refine ⟨k + 1, hn', Nat.zero_le _, ?_, hk'⟩
      rw [hloop, UInt32.ofNat_add]
      rfl
    · rw [hn', Nat.add_zero, Nat.mul_mod_left]

/-- A packet is handed out. -/
theorem At.hand (h : At file opt n s) (hrun : s.exhausted = false) {p : PcapPacket}
    (hcur : s.cursor < file.packets.length) (hmod : s.cursor = n % file.packets.length)
    (hp : file.packets[s.cursor]? = some p) :
    At file opt (n + 1)
        { s with
          cursor := s.cursor + 1
          bytes := s.bytes + UInt64.ofNat p.data.size
          replayed := s.replayed + 1 } ∧
      cycled file.packets (n + 1) = cycled file.packets n ++ [p] := by
  rw [hmod] at hp
  have hnext := cycled_succ hp
  refine ⟨{ h with replayed_eq := ?_, bytes_eq := ?_, ended := ?_, within := ?_ }, hnext⟩
  · rw [h.replayed_eq, UInt64.ofNat_add]
    rfl
  · rw [hnext, h.bytes_eq]
    simp [bytesOf, UInt64.ofNat_add]
  · intro hend
    exact absurd hend (by simp [hrun])
  · intro _
    obtain ⟨k, hn, -, hloop, hk⟩ := h.within hrun
    exact ⟨k, by rw [hn]; rfl, hcur, hloop, hk⟩

/-- The loop hands out the packets of the next places, as far as there are any. -/
theorem nextPackets_spec (hne : file.packets ≠ []) (left : Nat) :
    ∀ (n : Nat) (s : PcapReplaySource) (out : List PcapPacket), At file opt n s →
      s.exhausted = false →
      ∃ s' new, nextPackets left s out = .ok (s', out ++ new) ∧
        cycled file.packets n ++ new = cycled file.packets (reach file opt (n + left)) ∧
        At file opt (reach file opt (n + left)) s' := by
  induction left with
  | zero =>
      intro n s out h _
      refine ⟨s, [], ?_, ?_, ?_⟩
      · rw [nextPackets, List.append_nil]
      · rw [Nat.add_zero, h.reach_eq, List.append_nil]
      · rwa [Nat.add_zero, h.reach_eq]
  | succ left ih =>
      intro n s out h hrun
      obtain ⟨hturn, hfront⟩ := h.turn hrun hne
      unfold nextPackets
      cases hend : s.turn.exhausted with
      | true =>
          have hreach := hturn.reach_of_ended hend (left + 1)
          refine ⟨s.turn, [], ?_, ?_, ?_⟩
          · simp [hend]
          · rw [hreach, List.append_nil]
          · rwa [hreach]
      | false =>
          obtain ⟨hcur, hmod⟩ := hfront hend
          obtain ⟨p, hp⟩ : ∃ p, file.packets[s.turn.cursor]? = some p :=
            ⟨_, List.getElem?_eq_getElem hcur⟩
          obtain ⟨hhand, hnext⟩ := hturn.hand hend hcur hmod hp
          obtain ⟨s', new, hok, hall, hat⟩ := ih (n + 1) _ (out ++ [p]) hhand hend
          have hshift : n + 1 + left = n + (left + 1) := by omega
          rw [hshift] at hall hat
          refine ⟨s', p :: new, ?_, ?_, hat⟩
          · rw [← hturn.file_eq] at hp
            simpa [hend, hp] using hok
          · rw [← hall, hnext, List.append_assoc]
            rfl

theorem nextBatch_of_exhausted (hend : s.exhausted = true) (max : Nat) :
    nextBatch s max = .ok (s, []) := by
  rw [nextBatch, hend]
  rfl

/-- A call goes on where the last one stopped. -/
theorem nextBatch_spec (hne : file.packets ≠ []) (h : At file opt n s) (max : Nat) :
    ∃ s' batch, nextBatch s max = .ok (s', batch) ∧
      cycled file.packets n ++ batch = cycled file.packets (reach file opt (n + max)) ∧
      At file opt (reach file opt (n + max)) s' := by
  cases hend : s.exhausted with
  | true =>
      have hreach := h.reach_of_ended hend max
      refine ⟨s, [], nextBatch_of_exhausted hend max, ?_, ?_⟩
      · rw [hreach, List.append_nil]
      · rwa [hreach]
  | false =>
      rw [nextBatch, hend, h.running]
      exact nextPackets_spec hne max n s [] h hend

end Places

section Calls

open Runs

variable {file : PcapFile} {opt : ReplayOptions} {s : PcapReplaySource} {n : Nat}

/-- The packets that the calls of a history returned, in order. -/
def returnedBy (h : List (Transition PcapReplaySource Nat (List PcapPacket))) : List PcapPacket :=
  (h.map Transition.out).flatten

/-- A run of calls goes as far as one call for all the packets would. -/
theorem calls_spec (hne : file.packets ≠ []) (sizes : List Nat) :
    ∀ (n : Nat) (s : PcapReplaySource), At file opt n s →
      ∃ h s', exec nextBatch s sizes = .ok (h, s') ∧
        cycled file.packets n ++ returnedBy h =
          cycled file.packets (reach file opt (n + sizes.sum)) ∧
        At file opt (reach file opt (n + sizes.sum)) s' := by
  induction sizes with
  | nil =>
      intro n s hat
      refine ⟨[], s, rfl, ?_, ?_⟩
      · rw [List.sum_nil, Nat.add_zero, hat.reach_eq]
        exact List.append_nil _
      · rwa [List.sum_nil, Nat.add_zero, hat.reach_eq]
  | cons max sizes ih =>
      intro n s hat
      obtain ⟨s₁, batch, hok, hbatch, hat₁⟩ := nextBatch_spec hne hat max
      obtain ⟨h, s', hexec, hrest, hat'⟩ := ih _ s₁ hat₁
      rw [reach_add, Nat.add_assoc] at hrest hat'
      refine ⟨⟨s, max, batch, s₁⟩ :: h, s', ?_, ?_, ?_⟩
      · rw [exec, hok]
        dsimp only
        rw [hexec]
      · rw [List.sum_cons, ← hrest, ← hbatch, List.append_assoc]
        rfl
      · rwa [List.sum_cons]

/-- What `open` returns is at the start of a capture with packets. -/
theorem openCapture_source {path : String} {content : Option (List UInt8)}
    (hopen : openCapture path content opt = .ok (.ok s)) :
    s.file.packets ≠ [] ∧ s = { file := s.file, opt } := by
  obtain ⟨⟨r, file⟩, -, hrest⟩ := bind_eq_ok.mp hopen
  dsimp only at hrest
  split_ifs at hrest with herror hempty
  · cases hrest
  · cases hrest
  · obtain rfl := Except.ok.inj (Except.ok.inj hrest)
    exact ⟨by simpa using hempty, rfl⟩

/-- **Replay does not depend on batching.**  Whatever the sizes of the batches, the calls
together return the first packets of the repeated capture, as many as were asked for if
there are so many.  The source reports its end only when it has returned all repetitions,
and nothing comes after that. -/
theorem replay_independent_of_batching (file : PcapFile) (hne : file.packets ≠ [])
    (opt : ReplayOptions) (sizes : List Nat) :
    ∃ h s, exec nextBatch { file, opt } sizes = .ok (h, s) ∧
      (opt.loops ≠ 0 → returnedBy h =
        ((List.replicate opt.loops.toNat file.packets).flatten).take sizes.sum) ∧
      (opt.loops = 0 → ∀ k, sizes.sum ≤ k * file.packets.length →
        returnedBy h = ((List.replicate k file.packets).flatten).take sizes.sum) ∧
      (s.exhausted = true → opt.loops ≠ 0 ∧
        returnedBy h = (List.replicate opt.loops.toNat file.packets).flatten) ∧
      (s.exhausted = true → ∀ max, nextBatch s max = .ok (s, [])) ∧
      s.replayed = UInt64.ofNat (returnedBy h).length ∧
      s.bytes = UInt64.ofNat (bytesOf (returnedBy h)) := by
  obtain ⟨h, s, hexec, hall, hat⟩ := calls_spec hne sizes 0 _ (at_start file opt)
  rw [cycled_zero, List.nil_append, Nat.zero_add] at hall
  rw [Nat.zero_add] at hat
  refine ⟨h, s, hexec, ?_, ?_, ?_, nextBatch_of_exhausted, ?_, ?_⟩
  · intro hloops
    rw [hall, reach, if_neg hloops, ← cycled_mul]
    rw [take_cycled hne]
  · intro hloops k hk
    rw [hall, reach, if_pos hloops, ← cycled_mul, take_cycled hne, Nat.min_eq_left hk]
  · intro hend
    obtain ⟨hloops, hplace⟩ := hat.ended hend
    exact ⟨hloops, by rw [hall, hplace, cycled_mul]⟩
  · rw [hat.replayed_eq, hall, length_cycled hne]
  · rw [hat.bytes_eq, hall]

/-- A capture of two packets, replayed twice. -/
def twoPackets : PcapReplaySource where
  file := { packets := [{ tsNs := 1, origLen := 60 }, { tsNs := 2, origLen := 80 }] }
  opt := { loops := 2 }

/-- The second call returns the last packet of the first repetition and the first of the
second. -/
theorem replay_independent_of_batching_twice :
    ∃ h s, exec nextBatch twoPackets [1, 2, 5] = .ok (h, s) ∧ s.exhausted = true ∧
      h.map (fun tr => tr.out.map PcapPacket.origLen) = [[60], [80, 60], [80]] ∧
      returnedBy h = twoPackets.file.packets ++ twoPackets.file.packets ∧ s.replayed = 4 := by
  obtain ⟨h, s, hexec, hall, -, -, -, hcount, -⟩ :=
    replay_independent_of_batching twoPackets.file (by decide) { loops := 2 } [1, 2, 5]
  have hreturned : returnedBy h = twoPackets.file.packets ++ twoPackets.file.packets :=
    hall (by decide)
  have hcalls : returnsWith (exec nextBatch twoPackets [1, 2, 5]) (fun r => decide
      (r.2.exhausted = true ∧
        r.1.map (fun tr => tr.out.map PcapPacket.origLen) = [[60], [80, 60], [80]])) = true := by
    decide
  obtain ⟨r, hr, hcheck⟩ := returnsWith_iff.mp hcalls
  obtain rfl := Except.ok.inj (hexec.symm.trans hr)
  obtain ⟨hend, hbatches⟩ := of_decide_eq_true hcheck
  exact ⟨h, s, hexec, hend, hbatches, hreturned, by rw [hcount, hreturned]; rfl⟩

end Calls

end PcapReplaySource

end GtpMeter
