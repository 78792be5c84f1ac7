import GtpMeter.CellHandover
import GtpMeter.SpscInterleaving

/-!
# The ring in release/acquire memory

`SpscRing` from `spsc_ring.hpp` with its memory orders: each side loads its own index
`relaxed` and the other one `acquire`, and stores its own `release`; the slots are plain
memory.  A load of the other index may return an old value, so that a side can work with
an index that is behind for as long as it likes.

A step that does not load the other side's index is a step of the ring in sequentially
consistent memory, and one that does finds a count between the cached one and the newest.

**Results.**
* `Sound.step`: no step is a data race, and the invariant of the ring and of the two indices
  survives it.
* `ring_release_acquire`: no step of any run is a data race, and what is popped is what
  was pushed, in order.
-/

namespace GtpMeter

open Runs ReleaseAcquire

namespace SharedRing

variable {T : Type}

section Refinement

open FreeRunning

variable {k ct ch : Nat} {q q' : SpscRing T} {r r' : SharedRing T}
  {accepted accepted' taken taken' : List T} {out : RingOut T}

/-- The producer loads a count that may be old. -/
theorem Core.staleTail {n : Nat} (hc : Core k q accepted taken ct ch) (hle : ct ≤ n)
    (hn : n ≤ taken.length) :
    Core k { q with cachedTail := UInt64.ofNat n } accepted taken n ch :=
  { hc with
    cachedTail_eq := rfl
    ct_le := hn
    room := le_trans hc.room (Nat.add_le_add_right hle _) }

theorem PushOk.staleTail {n : Nat} {tail : UInt64} {pc : PushPc T}
    (hp : PushOk k q accepted ct pc) (hle : ct ≤ n) :
    PushOk k { q with cachedTail := tail } accepted n pc := by
  cases pc with
  | write value head =>
      obtain ⟨hhead, hroom⟩ := hp
      exact ⟨hhead, by omega⟩
  | publish value head =>
      obtain ⟨hhead, hroom, hslot⟩ := hp
      exact ⟨hhead, by omega, hslot⟩
  | bulkWrite head done todo count =>
      obtain ⟨hhead, hroom, hdone⟩ := hp
      exact ⟨hhead, by omega, hdone⟩
  | _ => exact hp

/-- The consumer loads a count that may be old. -/
theorem Core.staleHead {n : Nat} (hc : Core k q accepted taken ct ch) (hle : ch ≤ n)
    (hn : n ≤ accepted.length) :
    Core k { q with cachedHead := UInt64.ofNat n } accepted taken ct n :=
  { hc with
    cachedHead_eq := rfl
    le_ch := le_trans hc.le_ch hle
    ch_le := hn }

theorem PopOk.staleHead {n : Nat} {head : UInt64} {pc : PopPc T}
    (hp : PopOk q accepted taken ch pc) (hle : ch ≤ n) :
    PopOk { q with cachedHead := head } accepted taken n pc := by
  cases pc with
  | copy tail =>
      obtain ⟨htail, hlt⟩ := hp
      exact ⟨htail, by omega⟩
  | release tail value =>
      obtain ⟨htail, hlt, hpre⟩ := hp
      exact ⟨htail, by omega, hpre⟩
  | bulkCopy tail available got =>
      obtain ⟨htail, hgot, havail, hpre⟩ := hp
      exact ⟨htail, hgot, by omega, hpre⟩
  | _ => exact hp

/-- Two counts of one word that are close are equal. -/
theorem eq_of_ofNat {a b n : Nat} (heq : UInt64.ofNat a = UInt64.ofNat b) (hn : n < 2 ^ 64)
    (hab : a ≤ b + n) (hba : b ≤ a + n) : a = b := by
  rcases Nat.le_total a b with hle | hle
  · exact ((ofNat_eq_iff hle (by omega)).mp heq.symm).symm
  · exact (ofNat_eq_iff hle (by omega)).mp heq

/-- A step that keeps the cached indices keeps the counts behind them. -/
theorem Ok.step_cached (ho : Ok k r accepted taken ct ch) (op : RingOp T) (out : RingOut T)
    (r' : SharedRing T) (hs : r.step op = .ok (r', out)) (htail : r'.ring.cachedTail = r.ring.cachedTail)
    (hhead : r'.ring.cachedHead = r.ring.cachedHead) (hone : out.accepted = [] ∨ out.taken = []) :
    Ok k r' (accepted ++ out.accepted) (taken ++ out.taken) ct ch := by
  obtain ⟨ct', ch', ho'⟩ := ho.step hs
  obtain ⟨hct, hch, hch', hroom, -, hpow⟩ := ho.bounds
  obtain ⟨hct2, hch2, hch2', hroom2, -⟩ := ho'.bounds
  rw [ho.cachedTail_eq, ho'.cachedTail_eq] at htail
  rw [ho.cachedHead_eq, ho'.cachedHead_eq] at hhead
  simp only [List.length_append] at hct2 hch2 hch2' hroom2
  have hzero : out.accepted.length = 0 ∨ out.taken.length = 0 :=
    hone.imp (fun h => by rw [h, List.length_nil]) (fun h => by rw [h, List.length_nil])
  obtain rfl : ct' = ct := eq_of_ofNat htail hpow (by omega) (by omega)
  obtain rfl : ch' = ch := eq_of_ofNat hhead hpow (by omega) (by omega)
  exact ho'

end Refinement

end SharedRing

inductive RingIndex where
  | head
  | tail
deriving DecidableEq

inductive RingSide where
  | producer
  | consumer
deriving DecidableEq

abbrev RingMemory (T : Type) := Memory RingIndex RingSide UInt64 UInt64 T

/-- A ring with its indices and slots in shared memory, and its two users.  Each cached
index belongs to one side. -/
structure AtomicRing (T : Type) where
  capacity : UInt64
  mask : UInt64
  memory : RingMemory T
  cachedTail : UInt64
  cachedHead : UInt64
  push : PushPc T
  pop : PopPc T

/-- How many slots the call under way has written. -/
def PushPc.written {T : Type} : PushPc T → Nat
  | .publish _ _ => 1
  | .bulkWrite _ done _ _ => done.length
  | _ => 0

/-- How many slots the call under way has copied. -/
def PopPc.copied {T : Type} : PopPc T → Nat
  | .release _ _ => 1
  | .bulkCopy _ _ out => out.length
  | _ => 0

namespace AtomicRing

variable {T : Type}

section Steps

/-- Free slots as `try_push_bulk` computes them. -/
def freeSlots (w : AtomicRing T) (head tail : UInt64) : Nat :=
  (w.capacity - (head - tail)).toNat

/-- The next step of the producer in a call.  A load or store of an index is at `ts`. -/
def produce (w : AtomicRing T) (ts : Nat) : Except Refused (AtomicRing T × RingOut T) :=
  match w.push with
  | .idle => .error .blocked
  | .check value head =>
      if head - w.cachedTail ≥ w.capacity then do
        let (tail, memory) ← w.memory.load .producer .acquire .tail ts
        let w := { w with memory := memory, cachedTail := tail }
        if head - w.cachedTail ≥ w.capacity then .ok ({ w with push := .idle }, .pushed [] 1)
        else .ok ({ w with push := .write value head }, .pending)
      else .ok ({ w with push := .write value head }, .pending)
  | .write value head => do
      let memory ← w.memory.writeCell .producer (head &&& w.mask) value
      .ok ({ w with memory := memory, push := .publish value head }, .pending)
  | .publish value head => do
      let memory ← w.memory.store .producer .release .head (head + 1) ts
      .ok ({ w with memory := memory, push := .idle }, .pushed [value] 1)
  | .bulkCheck items head =>
      if w.freeSlots head w.cachedTail < items.length then do
        let (tail, memory) ← w.memory.load .producer .acquire .tail ts
        let todo := items.take (w.freeSlots head tail)
        .ok ({ w with
            memory := memory
            cachedTail := tail
            push := .bulkWrite head [] todo items.length }, .pending)
      else .ok ({ w with push := .bulkWrite head [] items items.length }, .pending)
  | .bulkWrite head done (value :: todo) count => do
      let i := head + UInt64.ofNat done.length
      let memory ← w.memory.writeCell .producer (i &&& w.mask) value
      .ok ({ w with memory := memory, push := .bulkWrite head (done ++ [value]) todo count },
        .pending)
  | .bulkWrite head done [] count => do
      let memory ← w.memory.store .producer .release .head (head + UInt64.ofNat done.length) ts
      .ok ({ w with memory := memory, push := .idle }, .pushed done count)

/-- The next step of the consumer in a call. -/
def consume (w : AtomicRing T) (ts : Nat) : Except Refused (AtomicRing T × RingOut T) :=
  match w.pop with
  | .idle => .error .blocked
  | .check tail =>
      if tail = w.cachedHead then do
        let (head, memory) ← w.memory.load .consumer .acquire .head ts
        let w := { w with memory := memory, cachedHead := head }
        if tail = w.cachedHead then .ok ({ w with pop := .idle }, .popped [])
        else .ok ({ w with pop := .copy tail }, .pending)
      else .ok ({ w with pop := .copy tail }, .pending)
  | .copy tail => do
      let (value, memory) ← w.memory.readCell .consumer (tail &&& w.mask)
      .ok ({ w with memory := memory, pop := .release tail value }, .pending)
  | .release tail value => do
      let memory ← w.memory.store .consumer .release .tail (tail + 1) ts
      .ok ({ w with memory := memory, pop := .idle }, .popped [value])
  | .bulkCheck max tail =>
      if tail = w.cachedHead then do
        let (head, memory) ← w.memory.load .consumer .acquire .head ts
        let w := { w with memory := memory, cachedHead := head }
        if tail = head then .ok ({ w with pop := .idle }, .popped [])
        else
          .ok ({ w with pop := .bulkCopy tail (SharedRing.batchSize (head - tail) max) [] },
            .pending)
      else
        .ok ({ w with pop := .bulkCopy tail (SharedRing.batchSize (w.cachedHead - tail) max) [] },
          .pending)
  | .bulkCopy tail available out =>
      if out.length < available then do
        let i := tail + UInt64.ofNat out.length
        let (value, memory) ← w.memory.readCell .consumer (i &&& w.mask)
        .ok ({ w with memory := memory, pop := .bulkCopy tail available (out ++ [value]) },
          .pending)
      else do
        let memory ←
          w.memory.store .consumer .release .tail (tail + UInt64.ofNat available) ts
        .ok ({ w with memory := memory, pop := .idle }, .popped out)

/-- The producer begins a call: it loads `head_`. -/
def beginPush (w : AtomicRing T) (pc : UInt64 → PushPc T) (ts : Nat) :
    Except Refused (AtomicRing T × RingOut T) :=
  match w.push with
  | .idle => do
      let (head, memory) ← w.memory.load .producer .relaxed .head ts
      .ok ({ w with memory := memory, push := pc head }, .pending)
  | _ => .error .blocked

/-- The consumer begins a call: it loads `tail_`. -/
def beginPop (w : AtomicRing T) (pc : UInt64 → PopPc T) (ts : Nat) :
    Except Refused (AtomicRing T × RingOut T) :=
  match w.pop with
  | .idle => do
      let (tail, memory) ← w.memory.load .consumer .relaxed .tail ts
      .ok ({ w with memory := memory, pop := pc tail }, .pending)
  | _ => .error .blocked

/-- A step, with the timestamp of its load or store. -/
def step (w : AtomicRing T) (op : RingOp T × Nat) : Except Refused (AtomicRing T × RingOut T) :=
  match op.1 with
  | .push value => w.beginPush (.check value) op.2
  | .pushBulk items => w.beginPush (.bulkCheck items) op.2
  | .produce => w.produce op.2
  | .pop => w.beginPop .check op.2
  | .popBulk max => w.beginPop (.bulkCheck max) op.2
  | .consume => w.consume op.2

/-- A new ring of capacity `2 ^ k`, with anything in its slots, and two idle users. -/
def start (k : Nat) (slots : UInt64 → T) : AtomicRing T :=
  { capacity := UInt64.ofNat (2 ^ k)
    mask := UInt64.ofNat (2 ^ k) - 1
    memory := .init (fun _ => 0) slots
    cachedTail := 0
    cachedHead := 0
    push := .idle
    pop := .idle }

end Steps

section Invariant

open FreeRunning

variable {k ct ch : Nat} {slots : UInt64 → T} {w w' : AtomicRing T} {accepted taken : List T}
  {out : RingOut T} {ts : Nat} {memory : RingMemory T}

/-- `head_` tells the consumer which slots are written. -/
def headChannel (k : Nat) : Channel RingIndex RingSide UInt64 UInt64 :=
  { loc := .head
    writer := .producer
    reader := .consumer
    access := .write
    val := UInt64.ofNat
    cell := cell k
    ahead := 0 }

/-- `tail_` tells the producer which slots are copied: those that the elements up to
`2 ^ k` further on will take. -/
def tailChannel (k : Nat) : Channel RingIndex RingSide UInt64 UInt64 :=
  { loc := .tail
    writer := .consumer
    reader := .producer
    access := .read
    val := UInt64.ofNat
    cell := cell k
    ahead := 2 ^ k }

theorem headChannel_sides (k : Nat) : (headChannel k).reader ≠ (headChannel k).writer :=
  RingSide.noConfusion

theorem tailChannel_sides (k : Nat) : (tailChannel k).reader ≠ (tailChannel k).writer :=
  RingSide.noConfusion

/-- The ring as its newest indices have it. -/
def shared (w : AtomicRing T) (head tail : UInt64) : SharedRing T :=
  { ring :=
      { capacity := w.capacity
        mask := w.mask
        slots := fun i => (w.memory.cells i).value
        head := head
        cachedTail := w.cachedTail
        tail := tail
        cachedHead := w.cachedHead }
    push := w.push
    pop := w.pop }

/-- The invariant: the ring is one of sequentially consistent memory, and each index
hands over the slots of the elements it counts. -/
structure Sound (k : Nat) (w : AtomicRing T) (accepted taken : List T) (ct ch : Nat) : Prop where
  ok : SharedRing.Ok k (w.shared (UInt64.ofNat accepted.length) (UInt64.ofNat taken.length))
    accepted taken ct ch
  head : (headChannel k).Open w.memory (accepted.length + w.push.written - 2 ^ k) accepted.length ch
  tail : (tailChannel k).Open w.memory (taken.length + w.pop.copied) taken.length ct

theorem Sound.start (hk : k < 64) (slots : UInt64 → T) : Sound k (start k slots) [] [] 0 0 :=
  { ok := SharedRing.start_ok hk slots
    head := by
      rw [show List.length ([] : List T) + (AtomicRing.start k slots).push.written - 2 ^ k = 0
        from Nat.zero_sub _]
      exact Channel.init_open rfl
    tail := Channel.init_open rfl }

/-- After a step: the invariant holds, with what the step accepted and gave out. -/
def After (k : Nat) (accepted taken : List T) (r : AtomicRing T × RingOut T) : Prop :=
  ∃ ct ch, Sound k r.1 (accepted ++ r.2.accepted) (taken ++ r.2.taken) ct ch

/-- A step that neither accepts nor gives out anything. -/
theorem Sound.after (hw : Sound k w accepted taken ct ch) (haccepted : out.accepted = [])
    (htaken : out.taken = []) : After k accepted taken (w, out) := by
  refine ⟨ct, ch, ?_⟩
  rw [haccepted, htaken, List.append_nil, List.append_nil]
  exact hw

/-- Another place in a call of the producer, with as many slots written. -/
theorem Sound.setPush {pc : PushPc T} (hw : Sound k w accepted taken ct ch)
    (hpc : SharedRing.PushOk k
      (w.shared (UInt64.ofNat accepted.length) (UInt64.ofNat taken.length)).ring accepted ct pc)
    (hwritten : pc.written = w.push.written) (haccepted : out.accepted = [])
    (htaken : out.taken = []) : After k accepted taken ({ w with push := pc }, out) := by
  refine Sound.after ⟨⟨hw.ok.toCore, hpc, hw.ok.consumer⟩, ?_, hw.tail⟩ haccepted htaken
  simp only [hwritten]
  exact hw.head

theorem Sound.setPop {pc : PopPc T} (hw : Sound k w accepted taken ct ch)
    (hpc : SharedRing.PopOk
      (w.shared (UInt64.ofNat accepted.length) (UInt64.ofNat taken.length)).ring accepted taken
      ch pc)
    (hcopied : pc.copied = w.pop.copied) (haccepted : out.accepted = [])
    (htaken : out.taken = []) : After k accepted taken ({ w with pop := pc }, out) := by
  refine Sound.after ⟨⟨hw.ok.toCore, hw.ok.producer, hpc⟩, hw.head, ?_⟩ haccepted htaken
  simp only [hcopied]
  exact hw.tail

/-- The producer loads its own index at the start of a call. -/
theorem Sound.loadHead {head : UInt64} (hw : Sound k w accepted taken ct ch)
    (hload : w.memory.load .producer .relaxed .head ts = .ok (head, memory)) :
    head = UInt64.ofNat accepted.length ∧
      Sound k { w with memory := memory } accepted taken ct ch := by
  have hval := hw.head.load_own hload
  have hhead := hw.head.load_writer (headChannel_sides k) hload
  have htail := hw.tail.load_reader (tailChannel_sides k) RingIndex.noConfusion hload
  obtain ⟨msg, -, -, -, rfl⟩ := Memory.load_ok hload
  exact ⟨hval, hw.ok, hhead, htail⟩

theorem Sound.loadTail {tail : UInt64} (hw : Sound k w accepted taken ct ch)
    (hload : w.memory.load .consumer .relaxed .tail ts = .ok (tail, memory)) :
    tail = UInt64.ofNat taken.length ∧
      Sound k { w with memory := memory } accepted taken ct ch := by
  have hval := hw.tail.load_own hload
  have htail := hw.tail.load_writer (tailChannel_sides k) hload
  have hhead := hw.head.load_reader (headChannel_sides k) RingIndex.noConfusion hload
  obtain ⟨msg, -, -, -, rfl⟩ := Memory.load_ok hload
  exact ⟨hval, hw.ok, hhead, htail⟩

/-- The producer loads the other index. -/
theorem Sound.reloadTail {tail : UInt64} (hw : Sound k w accepted taken ct ch)
    (hload : w.memory.load .producer .acquire .tail ts = .ok (tail, memory)) :
    ∃ n, Sound k { w with memory := memory, cachedTail := tail } accepted taken n ch := by
  obtain ⟨n, hle, hn, rfl, htail⟩ := hw.tail.load hload
  have hhead := hw.head.load_writer (headChannel_sides k) hload
  obtain ⟨msg, -, -, -, rfl⟩ := Memory.load_ok hload
  refine ⟨n, ⟨hw.ok.toCore.staleTail hle hn, ?_, hw.ok.consumer⟩, hhead, htail⟩
  exact hw.ok.producer.staleTail hle

/-- The consumer loads the other index. -/
theorem Sound.reloadHead {head : UInt64} (hw : Sound k w accepted taken ct ch)
    (hload : w.memory.load .consumer .acquire .head ts = .ok (head, memory)) :
    ∃ n, Sound k { w with memory := memory, cachedHead := head } accepted taken ct n := by
  obtain ⟨n, hle, hn, rfl, hhead⟩ := hw.head.load hload
  have htail := hw.tail.load_writer (tailChannel_sides k) hload
  obtain ⟨msg, -, -, -, rfl⟩ := Memory.load_ok hload
  refine ⟨n, ⟨hw.ok.toCore.staleHead hle hn, hw.ok.producer, ?_⟩, hhead, htail⟩
  exact hw.ok.consumer.staleHead hle

/-- The slot of element `j` from the first that is not published. -/
theorem Sound.cell_eq (hw : Sound k w accepted taken ct ch) (n j : Nat) :
    (UInt64.ofNat n + UInt64.ofNat j) &&& w.mask = cell k (n + j) := by
  rw [show w.mask = _ from hw.ok.mask_eq, ← UInt64.ofNat_add]
  rfl

/-- The consumer copies no more than it knows of. -/
theorem Sound.copied_le (hw : Sound k w accepted taken ct ch) :
    taken.length + w.pop.copied ≤ ch := by
  have hp := hw.ok.consumer
  have hle := hw.ok.le_ch
  simp only [shared] at hp
  cases hpc : w.pop with
  | release tail value =>
      rw [hpc] at hp
      exact hp.2.1
  | bulkCopy tail available got =>
      rw [hpc] at hp
      obtain ⟨-, hgot, havail, -⟩ := hp
      simp only [PopPc.copied]
      omega
  | _ => exact hle

/-- The producer writes no more than it has room for. -/
theorem Sound.written_le (hw : Sound k w accepted taken ct ch) :
    accepted.length + w.push.written ≤ ct + 2 ^ k := by
  have hp := hw.ok.producer
  have hle := hw.ok.room
  simp only [shared] at hp
  cases hpc : w.push with
  | publish value head =>
      rw [hpc] at hp
      exact hp.2.1
  | bulkWrite head done todo count =>
      rw [hpc] at hp
      obtain ⟨-, hroom, -⟩ := hp
      simp only [PushPc.written]
      omega
  | _ => exact hle

/-- The producer writes a slot: whoever copied it is known to have done so. -/
theorem Sound.write {n : Nat} {value : T} {pc : PushPc T} (hw : Sound k w accepted taken ct ch)
    (hn : w.push.written = n) (hroom : accepted.length + n < ct + 2 ^ k)
    (hwritten : pc.written = n + 1)
    (hstep : (w.shared (UInt64.ofNat accepted.length) (UInt64.ofNat taken.length)).step .produce =
      .ok (({ w with
          memory := w.memory.touch .producer .write (cell k (accepted.length + n)) value
          push := pc } : AtomicRing T).shared (UInt64.ofNat accepted.length)
            (UInt64.ofNat taken.length), .pending)) :
    Safe (do
        let memory ← w.memory.writeCell .producer (cell k (accepted.length + n)) value
        .ok ({ w with memory := memory, push := pc }, .pending)) (After k accepted taken) := by
  subst hn
  have hcopied := hw.copied_le
  have hch := hw.ok.ch_le
  refine (Memory.writeCell_safe (hw.head.own _) (hw.tail.covered (by omega) hroom)).bind ?_
  rintro memory rfl
  have hok := hw.ok.step_cached .produce .pending _ hstep rfl rfl (.inl rfl)
  rw [RingOut.accepted_pending, RingOut.taken_pending, List.append_nil, List.append_nil] at hok
  refine Sound.after ⟨hok, ?_, ?_⟩ rfl rfl
  · refine hw.head.touch (headChannel_sides k) ?_ ?_
    · simp only [hwritten]
      omega
    · -- the slots of the last `2 ^ k` elements before this one are other slots
      intro i hlo hhi
      simp only [hwritten] at hlo
      simp only [headChannel, Nat.add_zero] at hhi
      have hpos : 0 < 2 ^ k := Nat.two_pow_pos k
      exact FreeRunning.cell_ne hw.ok.small (by omega) (by omega)
  · exact hw.tail.touch_reader (tailChannel_sides k) Access.noConfusion

/-- The consumer copies a slot: the write of the element is known. -/
theorem Sound.copy {n : Nat} (hw : Sound k w accepted taken ct ch) (pc : T → PopPc T)
    (hn : w.pop.copied = n) (hsome : taken.length + n < ch)
    (hcopied : ∀ value, (pc value).copied = n + 1)
    (hstep : ∀ value, value = (w.memory.cells (cell k (taken.length + n))).value →
      (w.shared (UInt64.ofNat accepted.length) (UInt64.ofNat taken.length)).step .consume =
      .ok (({ w with
          memory := w.memory.touch .consumer .read (cell k (taken.length + n)) value
          pop := pc value } : AtomicRing T).shared (UInt64.ofNat accepted.length)
            (UInt64.ofNat taken.length), .pending)) :
    Safe (do
        let (value, memory) ← w.memory.readCell .consumer (cell k (taken.length + n))
        .ok ({ w with memory := memory, pop := pc value }, .pending))
      (After k accepted taken) := by
  subst hn
  have hwritten := hw.written_le
  have hct := hw.ok.ct_le
  refine (Memory.readCell_safe (hw.head.covered (by omega) hsome)).bind ?_
  rintro _ rfl
  have hok := hw.ok.step_cached .consume .pending _ (hstep _ rfl) rfl rfl (.inl rfl)
  rw [RingOut.accepted_pending, RingOut.taken_pending, List.append_nil, List.append_nil] at hok
  refine Sound.after ⟨hok, ?_, ?_⟩ rfl rfl
  · exact hw.head.touch_reader (headChannel_sides k) Access.noConfusion
  · refine hw.tail.touch (tailChannel_sides k) ?_ ?_
    · simp only [hcopied]
      omega
    · -- the elements that may be written now take other slots
      intro i hlo hhi
      simp only [hcopied] at hlo
      simp only [tailChannel] at hhi
      exact (FreeRunning.cell_ne hw.ok.small (by omega) (by omega)).symm

/-- The producer stores its index and ends the call. -/
theorem Sound.publish {vs : List T} {count : Nat} (hw : Sound k w accepted taken ct ch)
    (hwritten : w.push.written = vs.length)
    (hstep : ∀ memory : RingMemory T, memory.cells = w.memory.cells →
      (w.shared (UInt64.ofNat accepted.length) (UInt64.ofNat taken.length)).step .produce =
      .ok (({ w with memory := memory, push := .idle } : AtomicRing T).shared
        (UInt64.ofNat (accepted.length + vs.length)) (UInt64.ofNat taken.length),
        .pushed vs count)) :
    Safe (do
        let memory ← w.memory.store .producer .release .head
          (UInt64.ofNat (accepted.length + vs.length)) ts
        .ok ({ w with memory := memory, push := .idle }, .pushed vs count))
      (After k accepted taken) := by
  refine Memory.store_safe.bind ?_
  intro memory hstore
  have hok := hw.ok.step_cached .produce (.pushed vs count) _
    (hstep memory (Memory.store_frame hstore).2.1) rfl rfl (.inr rfl)
  have hhead := hw.head.store (headChannel_sides k) (Nat.le_add_right _ _) hstore
  have htail := hw.tail.store_reader (tailChannel_sides k) RingIndex.noConfusion hstore
  rw [RingOut.taken_pushed, RingOut.accepted_pushed, List.append_nil, ← List.length_append] at hok
  rw [hwritten, ← List.length_append] at hhead
  refine ⟨ct, ch, ?_⟩
  rw [RingOut.taken_pushed, RingOut.accepted_pushed, List.append_nil]
  exact ⟨hok, hhead, htail⟩

/-- The consumer stores its index and ends the call. -/
theorem Sound.release {vs : List T} (hw : Sound k w accepted taken ct ch)
    (hcopied : w.pop.copied = vs.length)
    (hstep : ∀ memory : RingMemory T, memory.cells = w.memory.cells →
      (w.shared (UInt64.ofNat accepted.length) (UInt64.ofNat taken.length)).step .consume =
      .ok (({ w with memory := memory, pop := .idle } : AtomicRing T).shared
        (UInt64.ofNat accepted.length) (UInt64.ofNat (taken.length + vs.length)),
        .popped vs)) :
    Safe (do
        let memory ← w.memory.store .consumer .release .tail
          (UInt64.ofNat (taken.length + vs.length)) ts
        .ok ({ w with memory := memory, pop := .idle }, .popped vs))
      (After k accepted taken) := by
  refine Memory.store_safe.bind ?_
  intro memory hstore
  have hok := hw.ok.step_cached .consume (.popped vs) _
    (hstep memory (Memory.store_frame hstore).2.1) rfl rfl (.inl rfl)
  have htail := hw.tail.store (tailChannel_sides k) (Nat.le_add_right _ _) hstore
  have hhead := hw.head.store_reader (headChannel_sides k) RingIndex.noConfusion hstore
  rw [RingOut.taken_popped, RingOut.accepted_popped, List.append_nil, ← List.length_append] at hok
  rw [hcopied, ← List.length_append] at htail
  refine ⟨ct, ch, ?_⟩
  rw [RingOut.taken_popped, RingOut.accepted_popped, List.append_nil]
  exact ⟨hok, hhead, htail⟩

theorem ofNat_succ {n : Nat} {value : T} :
    UInt64.ofNat (n + [value].length) = UInt64.ofNat n + 1 := by
  rw [List.length_singleton, UInt64.ofNat_add]
  rfl

/-- There is room, and `try_push` goes on to write. -/
theorem Sound.enter {value : T} (hw : Sound k w accepted taken ct ch)
    (hzero : w.push.written = 0)
    (hroom : ¬UInt64.ofNat accepted.length - w.cachedTail ≥ w.capacity) :
    After k accepted taken
      ({ w with push := .write value (UInt64.ofNat accepted.length) }, .pending) := by
  refine hw.setPush ⟨rfl, ?_⟩ hzero.symm rfl rfl
  exact lt_of_le_of_ne hw.ok.room (fun heq => hroom (hw.ok.full_iff.mpr heq))

theorem Sound.enterBulk {todo : List T} {count : Nat} (hw : Sound k w accepted taken ct ch)
    (hzero : w.push.written = 0)
    (hfree : todo.length ≤ w.freeSlots (UInt64.ofNat accepted.length) w.cachedTail) :
    After k accepted taken
      ({ w with push := .bulkWrite (UInt64.ofNat accepted.length) [] todo count }, .pending) := by
  refine hw.setPush ⟨rfl, ?_, by simp⟩ hzero.symm rfl rfl
  have heq : w.freeSlots (UInt64.ofNat accepted.length) w.cachedTail =
      ct + 2 ^ k - accepted.length := hw.ok.free_eq
  have hroom := hw.ok.room
  rw [heq] at hfree
  rw [List.length_nil]
  omega

/-- The next step of the producer. -/
theorem Sound.produce (hw : Sound k w accepted taken ct ch) :
    Safe (w.produce ts) (After k accepted taken) := by
  have hp := hw.ok.producer
  simp only [shared] at hp
  unfold AtomicRing.produce
  cases hpc : w.push with
  | idle => exact .blocked
  | check value head =>
      rw [hpc] at hp
      obtain rfl : head = UInt64.ofNat accepted.length := hp
      have hzero : w.push.written = 0 := by rw [hpc]; rfl
      dsimp only
      split_ifs with hstale
      · refine Memory.load_safe.bind ?_
        rintro ⟨tail, memory⟩ hload
        obtain ⟨n, hw'⟩ := hw.reloadTail hload
        dsimp only
        split_ifs with hfull
        · exact hw'.setPush trivial hzero.symm rfl rfl
        · exact hw'.enter hzero hfull
      · exact hw.enter hzero hstale
  | write value head =>
      rw [hpc] at hp
      obtain ⟨rfl : head = UInt64.ofNat accepted.length, hroom⟩ := hp
      have hcell : UInt64.ofNat accepted.length &&& w.mask = cell k (accepted.length + 0) := by
        simpa using hw.cell_eq accepted.length 0
      dsimp only
      rw [hcell]
      refine hw.write (by rw [hpc]; rfl) hroom rfl ?_
      simp only [SharedRing.step, SharedRing.produce, shared, hpc, Memory.touch_write_values, hcell]
  | publish value head =>
      rw [hpc] at hp
      obtain ⟨rfl : head = UInt64.ofNat accepted.length, -⟩ := hp
      dsimp only
      rw [← ofNat_succ]
      refine hw.publish (by rw [hpc]; rfl) ?_
      intro memory hcells
      simp [SharedRing.step, SharedRing.produce, shared, hpc, hcells]
  | bulkCheck items head =>
      rw [hpc] at hp
      obtain rfl : head = UInt64.ofNat accepted.length := hp
      have hzero : w.push.written = 0 := by rw [hpc]; rfl
      dsimp only
      split_ifs with hfew
      · refine Memory.load_safe.bind ?_
        rintro ⟨tail, memory⟩ hload
        obtain ⟨n, hw'⟩ := hw.reloadTail hload
        refine hw'.enterBulk hzero ?_
        rw [List.length_take]
        exact Nat.min_le_left _ _
      · exact hw.enterBulk hzero (Nat.le_of_not_lt hfew)
  | bulkWrite head done todo count =>
      rw [hpc] at hp
      obtain ⟨rfl : head = UInt64.ofNat accepted.length, hroom, -⟩ := hp
      cases todo with
      | nil =>
          dsimp only
          rw [← UInt64.ofNat_add]
          refine hw.publish (by rw [hpc]; rfl) ?_
          intro memory hcells
          simp [SharedRing.step, SharedRing.produce, shared, hpc, hcells]
      | cons value todo =>
          rw [List.length_cons] at hroom
          dsimp only
          rw [hw.cell_eq]
          refine hw.write (by rw [hpc]; rfl) (by omega) (by simp [PushPc.written]) ?_
          simp only [SharedRing.step, SharedRing.produce, shared, hpc, Memory.touch_write_values,
            ← hw.cell_eq]

/-- Something is there, and `try_pop` goes on to copy. -/
theorem Sound.enterCopy (hw : Sound k w accepted taken ct ch) (hzero : w.pop.copied = 0)
    (hsome : UInt64.ofNat taken.length ≠ w.cachedHead) :
    After k accepted taken ({ w with pop := .copy (UInt64.ofNat taken.length) }, .pending) := by
  refine hw.setPop ⟨rfl, ?_⟩ hzero.symm rfl rfl
  exact lt_of_le_of_ne hw.ok.le_ch (fun heq => hsome (hw.ok.empty_iff.mpr heq.symm))

theorem Sound.enterBulkCopy (hw : Sound k w accepted taken ct ch) (hzero : w.pop.copied = 0)
    (max : UInt64) :
    After k accepted taken
      ({ w with
        pop := .bulkCopy (UInt64.ofNat taken.length)
          (SharedRing.batchSize (w.cachedHead - UInt64.ofNat taken.length) max) [] }, .pending) := by
  have hfirst : taken ++ [] <+: accepted := by simpa using hw.ok.fifo
  exact hw.setPop ⟨rfl, Nat.zero_le _, hw.ok.bulk_le max, hfirst⟩ hzero.symm rfl rfl

/-- The next step of the consumer. -/
theorem Sound.consume (hw : Sound k w accepted taken ct ch) :
    Safe (w.consume ts) (After k accepted taken) := by
  have hp := hw.ok.consumer
  simp only [shared] at hp
  unfold AtomicRing.consume
  cases hpc : w.pop with
  | idle => exact .blocked
  | check tail =>
      rw [hpc] at hp
      obtain rfl : tail = UInt64.ofNat taken.length := hp
      have hzero : w.pop.copied = 0 := by rw [hpc]; rfl
      dsimp only
      split_ifs with hstale
      · refine Memory.load_safe.bind ?_
        rintro ⟨head, memory⟩ hload
        obtain ⟨n, hw'⟩ := hw.reloadHead hload
        dsimp only
        split_ifs with hempty
        · exact hw'.setPop trivial hzero.symm rfl rfl
        · exact hw'.enterCopy hzero hempty
      · exact hw.enterCopy hzero hstale
  | copy tail =>
      rw [hpc] at hp
      obtain ⟨rfl : tail = UInt64.ofNat taken.length, hlt⟩ := hp
      have hcell : UInt64.ofNat taken.length &&& w.mask = cell k (taken.length + 0) := by
        simpa using hw.cell_eq taken.length 0
      dsimp only
      rw [hcell]
      refine hw.copy (.release _) (by rw [hpc]; rfl) hlt (fun _ => rfl) ?_
      rintro _ rfl
      simp only [SharedRing.step, SharedRing.consume, shared, hpc, Memory.touch_read_values, hcell]
  | release tail value =>
      rw [hpc] at hp
      obtain ⟨rfl : tail = UInt64.ofNat taken.length, -⟩ := hp
      dsimp only
      rw [← ofNat_succ]
      refine hw.release (by rw [hpc]; rfl) ?_
      intro memory hcells
      simp [SharedRing.step, SharedRing.consume, shared, hpc, hcells]
  | bulkCheck max tail =>
      rw [hpc] at hp
      obtain rfl : tail = UInt64.ofNat taken.length := hp
      have hzero : w.pop.copied = 0 := by rw [hpc]; rfl
      dsimp only
      split_ifs with hstale
      · refine Memory.load_safe.bind ?_
        rintro ⟨head, memory⟩ hload
        obtain ⟨n, hw'⟩ := hw.reloadHead hload
        dsimp only
        split_ifs with hempty
        · exact hw'.setPop trivial hzero.symm rfl rfl
        · exact hw'.enterBulkCopy hzero max
      · exact hw.enterBulkCopy hzero max
  | bulkCopy tail available got =>
      rw [hpc] at hp
      obtain ⟨rfl : tail = UInt64.ofNat taken.length, hle, havail, -⟩ := hp
      dsimp only
      split_ifs with hmore
      · rw [hw.cell_eq]
        refine hw.copy (fun value => .bulkCopy _ available (got ++ [value]))
          (by rw [hpc]; rfl) (by omega) (by simp [PopPc.copied]) ?_
        rintro _ rfl
        simp only [SharedRing.step, SharedRing.consume, shared, hpc, Memory.touch_read_values,
          if_pos hmore, ← hw.cell_eq]
      · obtain rfl : available = got.length := by omega
        rw [← UInt64.ofNat_add]
        refine hw.release (by rw [hpc]; rfl) ?_
        intro memory hcells
        simp [SharedRing.step, SharedRing.consume, shared, hpc, hcells]

theorem Sound.beginPush {pc : UInt64 → PushPc T} (hw : Sound k w accepted taken ct ch)
    (hpc : ∀ q : SpscRing T, SharedRing.PushOk k q accepted ct (pc q.head))
    (hwritten : ∀ head, (pc head).written = 0) :
    Safe (w.beginPush pc ts) (After k accepted taken) := by
  unfold AtomicRing.beginPush
  cases hidle : w.push with
  | idle =>
      refine Memory.load_safe.bind ?_
      rintro ⟨head, memory⟩ hload
      obtain ⟨rfl, hw'⟩ := hw.loadHead hload
      refine hw'.setPush (hpc _) ?_ rfl rfl
      rw [hwritten, hidle]
      rfl
  | _ => exact .blocked

theorem Sound.beginPop {pc : UInt64 → PopPc T} (hw : Sound k w accepted taken ct ch)
    (hpc : ∀ q : SpscRing T, SharedRing.PopOk q accepted taken ch (pc q.tail))
    (hcopied : ∀ tail, (pc tail).copied = 0) :
    Safe (w.beginPop pc ts) (After k accepted taken) := by
  unfold AtomicRing.beginPop
  cases hidle : w.pop with
  | idle =>
      refine Memory.load_safe.bind ?_
      rintro ⟨tail, memory⟩ hload
      obtain ⟨rfl, hw'⟩ := hw.loadTail hload
      refine hw'.setPop (hpc _) ?_ rfl rfl
      rw [hcopied, hidle]
      rfl
  | _ => exact .blocked

/-- No step is a data race, and the invariant survives it. -/
theorem Sound.step (hw : Sound k w accepted taken ct ch) (op : RingOp T × Nat) :
    Safe (w.step op) (After k accepted taken) := by
  obtain ⟨op, ts⟩ := op
  cases op with
  | push value | pushBulk items => exact hw.beginPush (fun _ => rfl) (fun _ => rfl)
  | produce => exact hw.produce
  | pop | popBulk max => exact hw.beginPop (fun _ => rfl) (fun _ => rfl)
  | consume => exact hw.consume

end Invariant

section Runs

variable {k : Nat} {slots : UInt64 → T} {w : AtomicRing T}

/-- The steps of a ring and its users. -/
abbrev Trace (T : Type) := List (Transition (AtomicRing T) (RingOp T × Nat) (RingOut T))

variable {h : Trace T}

/-- The elements that pushes accepted, oldest first. -/
def acceptedOf (h : Trace T) : List T :=
  h.flatMap (fun tr => tr.out.accepted)

/-- The elements that pops returned, oldest first. -/
def takenOf (h : Trace T) : List T :=
  h.flatMap (fun tr => tr.out.taken)

theorem reaches_sound (hk : k < 64) (hrun : Run step (start k slots) h w) :
    ∃ ct ch, Sound k w (acceptedOf h) (takenOf h) ct ch := by
  induction hrun with
  | nil => exact ⟨0, 0, Sound.start hk slots⟩
  | snoc _ hs ih =>
      obtain ⟨ct, ch, hw⟩ := ih
      obtain ⟨ct', ch', hw'⟩ := (hw.step _).returns hs
      refine ⟨ct', ch', ?_⟩
      simpa [acceptedOf, takenOf] using hw'

/-- However the loads of the indices lag behind, no step is a data race, the elements
come out in the order they went in, and no more than `2 ^ k` are ever in the ring. -/
theorem ring_release_acquire (hk : k < 64) (hrun : Run step (start k slots) h w) :
    (∀ op, w.step op ≠ .error .race) ∧ takenOf h <+: acceptedOf h ∧
      (acceptedOf h).length ≤ (takenOf h).length + 2 ^ k := by
  obtain ⟨ct, ch, hw⟩ := reaches_sound hk hrun
  refine ⟨fun op => (hw.step op).no_race, hw.ok.fifo, ?_⟩
  obtain ⟨hct, -, -, hroom, -⟩ := hw.ok.bounds
  omega

/-- A ring of two slots is full for the producer, which reads an old `tail_`, although
the consumer has popped an element; later it finds the slot free. -/
theorem ring_release_acquire_stale :
    ∃ (h : Trace Nat) (w : AtomicRing Nat), Run step (start 1 (fun _ => 0)) h w ∧
      acceptedOf h = [1, 2, 3] ∧ takenOf h = [1] ∧ (∀ op, w.step op ≠ .error .race) := by
  have hex : execCheck step (start 1 (fun _ => (0 : Nat)))
      [(.pushBulk [1, 2], 0), (.produce, 0), (.produce, 0), (.produce, 0), (.produce, 5),
        (.pop, 0), (.consume, 5), (.consume, 0), (.consume, 3),
        (.push 3, 5), (.produce, 0), (.push 3, 5), (.produce, 3), (.produce, 0), (.produce, 6)]
      (fun h _ => decide (acceptedOf h = [1, 2, 3] ∧ takenOf h = [1])) = true := by
    decide +kernel
  obtain ⟨h, w, hrun, hcheck⟩ := Run.of_execCheck hex
  obtain ⟨hacc, htaken⟩ := of_decide_eq_true hcheck
  obtain ⟨hrace, -⟩ := ring_release_acquire (by decide) hrun
  exact ⟨h, w, hrun, hacc, htaken, hrace⟩

end Runs

end AtomicRing
end GtpMeter
