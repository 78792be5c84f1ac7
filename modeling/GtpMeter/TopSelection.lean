import Mathlib.Data.List.Induction
import Mathlib.Data.List.Sort

/-!
# The elements of largest key

Elements of a list go by, and the `n` of largest key are to be kept.  `Top key n xs top`
says that `top` is such a choice from `xs`; which elements it holds is not determined,
but their keys are (`Top.keys_perm`).

What the standard library promises about its heap and sorting algorithms, with the
comparison `key a > key b`, is collected in `Algorithms`.  Nothing else is used of them,
so results hold for every implementation.
-/

namespace GtpMeter.Selection

universe u v

variable {α : Type u} {K : Type v} [LinearOrder K] {key : α → K}

section Order

/-- The larger keys come first. -/
def Descending (key : α → K) (l : List α) : Prop :=
  l.Pairwise fun a b => key b ≤ key a

theorem Descending.insert {pre post : List α} {x : α} (h : Descending key (pre ++ post))
    (hpre : ∀ a ∈ pre, key x ≤ key a) (hpost : ∀ b ∈ post, key b ≤ key x) :
    Descending key (pre ++ x :: post) := by
  obtain ⟨hfront, hback, hcross⟩ := List.pairwise_append.mp h
  refine List.pairwise_append.mpr ⟨hfront, List.pairwise_cons.mpr ⟨hpost, hback⟩, ?_⟩
  intro a ha b hb
  rcases List.mem_cons.mp hb with rfl | hb
  · exact hpre a ha
  · exact hcross a ha b hb

/-- In a list with the larger keys first, and in no other, every front has the largest
ones. -/
theorem descending_iff_fronts {l : List α} :
    Descending key l ↔ ∀ n, ∀ a ∈ l.take n, ∀ b ∈ l.drop n, key b ≤ key a := by
  constructor
  · intro h n
    unfold Descending at h
    rw [← List.take_append_drop n l] at h
    exact (List.pairwise_append.mp h).2.2
  · intro h
    refine List.pairwise_iff_getElem.mpr fun i j hi hj hij => ?_
    refine h (i + 1) _ ?_ _ ?_
    · exact List.mem_take_iff_getElem.mpr ⟨i, by omega, rfl⟩
    · exact List.mem_drop_iff_getElem.mpr ⟨j - (i + 1), by omega, by congr 1; omega⟩

/-- No element has a smaller key than its parent. -/
def MinHeap (key : α → K) (l : List α) : Prop :=
  ∀ i a b, 0 < i → l[(i - 1) / 2]? = some a → l[i]? = some b → key a ≤ key b

theorem minHeap_nil : MinHeap key ([] : List α) := by
  intro i a b _ ha
  simp at ha

/-- The root has the least key. -/
theorem MinHeap.head_le {a : α} {l : List α} (h : MinHeap key (a :: l)) :
    ∀ b ∈ l, key a ≤ key b := by
  have hall : ∀ (i : Nat) (b : α), (a :: l)[i]? = some b → key a ≤ key b := by
    intro i
    induction i using Nat.strongRecOn with
    | _ i ih =>
        intro b hb
        cases i with
        | zero =>
            obtain rfl : a = b := by simpa using hb
            exact le_refl _
        | succ i =>
            have hlt : i + 1 < (a :: l).length := (List.getElem?_eq_some_iff.mp hb).1
            have hparent : (a :: l)[(i + 1 - 1) / 2]? =
                some ((a :: l).get ⟨(i + 1 - 1) / 2, by omega⟩) :=
              List.getElem?_eq_getElem (by omega)
            exact (ih _ (by omega) _ hparent).trans (h (i + 1) _ b (by omega) hparent hb)
  intro b hb
  obtain ⟨i, hi⟩ := List.getElem?_of_mem (List.mem_cons_of_mem a hb)
  exact hall i b hi

theorem minHeap_of_ascending {l : List α} (h : l.Pairwise fun a b => key a ≤ key b) :
    MinHeap key l := by
  intro i a b hi ha hb
  obtain ⟨hlt, rfl⟩ := List.getElem?_eq_some_iff.mp ha
  obtain ⟨hlt', rfl⟩ := List.getElem?_eq_some_iff.mp hb
  exact List.pairwise_iff_getElem.mp h _ _ hlt hlt' (by omega)

end Order

section Top

/-- `top` holds the elements of the `n` largest keys of `xs`. -/
structure Top (key : α → K) (n : Nat) (xs top : List α) : Prop where
  length_eq : top.length = min n xs.length
  exists_rest : ∃ rest, (top ++ rest).Perm xs ∧ ∀ a ∈ top, ∀ b ∈ rest, key b ≤ key a

variable {n : Nat} {xs top top' : List α} {x : α}

theorem Top.nil : Top key n ([] : List α) [] :=
  ⟨by simp, [], List.Perm.refl _, by simp⟩

theorem Top.perm (h : Top key n xs top) (hp : top'.Perm top) : Top key n xs top' := by
  obtain ⟨rest, hrest, hle⟩ := h.exists_rest
  refine ⟨hp.length_eq.trans h.length_eq, rest, (hp.append_right rest).trans hrest, ?_⟩
  exact fun a ha => hle a (hp.mem_iff.mp ha)

/-- As long as there is room, everything is kept. -/
theorem Top.perm_of_lt (h : Top key n xs top) (hlt : top.length < n) : top.Perm xs := by
  obtain ⟨rest, hrest, -⟩ := h.exists_rest
  have hlen := hrest.length_eq
  have htop := h.length_eq
  rw [List.length_append] at hlen
  have hnone : rest = [] := List.length_eq_zero_iff.mp (by omega)
  rw [hnone, List.append_nil] at hrest
  exact hrest

theorem top_of_perm (hp : top.Perm xs) (hle : xs.length ≤ n) : Top key n xs top :=
  ⟨by rw [hp.length_eq, Nat.min_eq_right hle], [], by rwa [List.append_nil], by simp⟩

/-- A new element while there is room. -/
theorem Top.add (h : Top key n xs top) (hlt : top.length < n) :
    Top key n (xs ++ [x]) (top ++ [x]) := by
  have hp := h.perm_of_lt hlt
  have hlen := hp.length_eq
  refine top_of_perm (hp.append_right [x]) ?_
  rw [List.length_append, List.length_singleton]
  omega

/-- A new element that no kept one is smaller than. -/
theorem Top.skip (h : Top key n xs top) (hfull : top.length = n)
    (hle : ∀ a ∈ top, key x ≤ key a) : Top key n (xs ++ [x]) top := by
  obtain ⟨rest, hrest, hcut⟩ := h.exists_rest
  have hlen := h.length_eq
  refine ⟨?_, rest ++ [x], ?_, ?_⟩
  · rw [List.length_append]
    omega
  · rw [← List.append_assoc]
    exact hrest.append_right [x]
  · intro a ha b hb
    rcases List.mem_append.mp hb with hold | hnew
    · exact hcut a ha b hold
    · obtain rfl := List.mem_singleton.mp hnew
      exact hle a ha

/-- A new element takes the place of one of least key. -/
theorem Top.replace {least : α} {others : List α} (h : Top key n xs (least :: others))
    (hleast : ∀ a ∈ others, key least ≤ key a) (hlt : key least < key x)
    (hfull : (least :: others).length = n) : Top key n (xs ++ [x]) (others ++ [x]) := by
  obtain ⟨rest, hrest, hcut⟩ := h.exists_rest
  have hlen := h.length_eq
  refine ⟨?_, least :: rest, ?_, ?_⟩
  · rw [List.length_append, List.length_append]
    rw [List.length_cons] at hlen hfull
    simp only [List.length_singleton]
    omega
  · have hmove : (others ++ [x] ++ least :: rest).Perm (least :: others ++ rest ++ [x]) := by
      have hx : (others ++ [x] ++ least :: rest).Perm (x :: (others ++ least :: rest)) := by
        rw [List.append_assoc]
        exact List.perm_middle
      have hl : (others ++ least :: rest).Perm (least :: (others ++ rest)) := List.perm_middle
      exact (hx.trans (hl.cons x)).trans (List.perm_append_singleton x _).symm
    exact hmove.trans (hrest.append_right [x])
  · -- what was cut off before, and the element that goes, are no larger than it
    have hold : ∀ b ∈ least :: rest, key b ≤ key least := by
      intro b hb
      rcases List.mem_cons.mp hb with rfl | hb
      · exact le_refl _
      · exact hcut least List.mem_cons_self b hb
    intro a ha b hb
    rcases List.mem_append.mp ha with hkept | hnew
    · exact (hold b hb).trans (hleast a hkept)
    · obtain rfl := List.mem_singleton.mp hnew
      exact (hold b hb).trans hlt.le

/-- An arrangement of the values at some places is one of the places. -/
theorem exists_places_of_perm {β : Type v} {f : β → α} {l : List α} :
    ∀ {places : List β}, l.Perm (places.map f) → ∃ arranged : List β,
      arranged.Perm places ∧ l = arranged.map f := by
  induction l with
  | nil =>
      intro places hp
      have hnil : places = [] := List.map_eq_nil_iff.mp hp.symm.eq_nil
      exact ⟨[], by rw [hnil], rfl⟩
  | cons a l ih =>
      intro places hp
      obtain ⟨b, hb, rfl⟩ := List.mem_map.mp (hp.mem_iff.mp List.mem_cons_self)
      obtain ⟨pre, post, rfl⟩ := List.append_of_mem hb
      have hfront : (pre ++ b :: post).Perm (b :: (pre ++ post)) := List.perm_middle
      obtain ⟨arranged, harranged, rfl⟩ := ih (hp.trans (hfront.map f)).cons_inv
      exact ⟨b :: arranged, (harranged.cons b).trans hfront.symm, rfl⟩

/-- A choice of values is a choice of places. -/
theorem Top.exists_places {β : Type v} {f : β → α} {places : List β}
    (h : Top key n (places.map f) top) :
    ∃ chosen rest : List β, (chosen ++ rest).Perm places ∧ top = chosen.map f ∧
      ∀ i ∈ chosen, ∀ j ∈ rest, key (f j) ≤ key (f i) := by
  obtain ⟨rest, hrest, hcut⟩ := h.exists_rest
  obtain ⟨arranged, hperm, heq⟩ := exists_places_of_perm hrest
  obtain ⟨chosen, left, rfl, rfl, rfl⟩ := List.map_eq_append_iff.mp heq.symm
  refine ⟨chosen, left, hperm, rfl, ?_⟩
  intro i hi j hj
  exact hcut _ (List.mem_map_of_mem hi) _ (List.mem_map_of_mem hj)

/-- The keys in descending order. -/
def sortedKeys (key : α → K) (l : List α) : List K :=
  (l.map key).insertionSort (· ≥ ·)

theorem sortedKeys_perm (l : List α) : (sortedKeys key l).Perm (l.map key) :=
  List.perm_insertionSort _ _

theorem sortedKeys_desc (l : List α) : (sortedKeys key l).Pairwise (· ≥ ·) :=
  List.pairwise_insertionSort _ _

/-- The keys of a choice stand at the front of all keys in descending order. -/
theorem Top.sortedKeys_eq (h : Top key n xs top) :
    sortedKeys key top = (sortedKeys key xs).take (min n xs.length) := by
  obtain ⟨rest, hrest, hcut⟩ := h.exists_rest
  have hsorted : (sortedKeys key top ++ sortedKeys key rest).Pairwise (· ≥ ·) := by
    refine List.pairwise_append.mpr ⟨sortedKeys_desc _, sortedKeys_desc _, ?_⟩
    intro k hk k' hk'
    obtain ⟨a, ha, rfl⟩ := List.mem_map.mp ((sortedKeys_perm top).mem_iff.mp hk)
    obtain ⟨b, hb, rfl⟩ := List.mem_map.mp ((sortedKeys_perm rest).mem_iff.mp hk')
    exact hcut a ha b hb
  have hperm : (sortedKeys key top ++ sortedKeys key rest).Perm (sortedKeys key xs) := by
    have hmap := hrest.map key
    rw [List.map_append] at hmap
    exact (((sortedKeys_perm top).append (sortedKeys_perm rest)).trans hmap).trans
      (sortedKeys_perm xs).symm
  have heq : sortedKeys key top ++ sortedKeys key rest = sortedKeys key xs :=
    hperm.eq_of_pairwise' hsorted (sortedKeys_desc xs)
  have hlen : (sortedKeys key top).length = min n xs.length := by
    rw [(sortedKeys_perm top).length_eq, List.length_map, h.length_eq]
  rw [← heq, ← hlen, List.take_left]

/-- Two choices of the `n` largest have the same keys. -/
theorem Top.keys_perm (h : Top key n xs top) (h' : Top key n xs top') :
    (top.map key).Perm (top'.map key) := by
  have heq : sortedKeys key top = sortedKeys key top' :=
    h.sortedKeys_eq.trans h'.sortedKeys_eq.symm
  exact ((sortedKeys_perm top).symm.trans (List.Perm.of_eq heq)).trans (sortedKeys_perm top')

end Top

section Contracts

/-- What the standard library promises about `push_heap`, `pop_heap`, `sort` and
`partial_sort` when `key a > key b` is the comparison. -/
structure Algorithms (key : α → K) where
  pushHeap : List α → List α
  popHeap : List α → List α
  sort : List α → List α
  partialSort : Nat → List α → List α
  /-- The last element joins the heap in front of it. -/
  pushHeap_perm : ∀ l x, MinHeap key l → (pushHeap (l ++ [x])).Perm (l ++ [x])
  pushHeap_heap : ∀ l x, MinHeap key l → MinHeap key (pushHeap (l ++ [x]))
  /-- The root goes to the end, the others stay a heap. -/
  popHeap_eq : ∀ x l, MinHeap key (x :: l) →
    ∃ rest, popHeap (x :: l) = rest ++ [x] ∧ rest.Perm l ∧ MinHeap key rest
  sort_perm : ∀ l, (sort l).Perm l
  sort_desc : ∀ l, Descending key (sort l)
  /-- The first `m` places get the elements of largest key, in order. -/
  partialSort_perm : ∀ m l, m ≤ l.length → (partialSort m l).Perm l
  partialSort_desc : ∀ m l, m ≤ l.length → Descending key ((partialSort m l).take m)
  partialSort_top : ∀ m l, m ≤ l.length →
    ∀ a ∈ (partialSort m l).take m, ∀ b ∈ (partialSort m l).drop m, key b ≤ key a

/-- The front of a partially sorted list. -/
theorem Algorithms.partialSort_take (std : Algorithms key) {m : Nat} {l : List α}
    (hm : m ≤ l.length) : Top key m l ((std.partialSort m l).take m) := by
  refine ⟨?_, (std.partialSort m l).drop m, ?_, std.partialSort_top m l hm⟩
  · rw [List.length_take, (std.partialSort_perm m l hm).length_eq]
  · rw [List.take_append_drop]
    exact std.partialSort_perm m l hm

instance instTotalKey (key : α → K) : Std.Total fun a b : α => key b ≤ key a :=
  ⟨fun a b => le_total (key b) (key a)⟩

instance instTransKey (key : α → K) : IsTrans α fun a b : α => key b ≤ key a :=
  ⟨fun _ _ _ hab hbc => hbc.trans hab⟩

instance instTotalKeyAsc (key : α → K) : Std.Total fun a b : α => key a ≤ key b :=
  ⟨fun a b => le_total (key a) (key b)⟩

instance instTransKeyAsc (key : α → K) : IsTrans α fun a b : α => key a ≤ key b :=
  ⟨fun _ _ _ hab hbc => hab.trans hbc⟩

/-- The promises can be kept: every heap may be a sorted list. -/
def Algorithms.bySorting (key : α → K) : Algorithms key where
  pushHeap l := l.insertionSort fun a b => key a ≤ key b
  popHeap l := (l.tail.insertionSort fun a b => key a ≤ key b) ++ l.head?.toList
  sort l := l.insertionSort fun a b => key b ≤ key a
  partialSort _ l := l.insertionSort fun a b => key b ≤ key a
  pushHeap_perm l x _ := List.perm_insertionSort _ _
  pushHeap_heap l x _ := minHeap_of_ascending (List.pairwise_insertionSort _ _)
  popHeap_eq x l _ := ⟨_, rfl, List.perm_insertionSort _ _,
    minHeap_of_ascending (List.pairwise_insertionSort _ _)⟩
  sort_perm l := List.perm_insertionSort _ _
  sort_desc l := List.pairwise_insertionSort _ _
  partialSort_perm _ l _ := List.perm_insertionSort _ _
  partialSort_desc _ l _ := (List.pairwise_insertionSort _ l).sublist (List.take_sublist _ _)
  partialSort_top m l _ := by
    have hdesc := List.pairwise_insertionSort (fun a b => key b ≤ key a) l
    rw [← List.take_append_drop m (l.insertionSort fun a b => key b ≤ key a)] at hdesc
    exact (List.pairwise_append.mp hdesc).2.2

end Contracts

section HeapSteps

variable {n : Nat} {xs top : List α} {x : α}

/-- A heap with room takes the new element. -/
theorem Top.push (std : Algorithms key) (h : Top key n xs top) (hheap : MinHeap key top)
    (hlt : top.length < n) :
    Top key n (xs ++ [x]) (std.pushHeap (top ++ [x])) ∧
      MinHeap key (std.pushHeap (top ++ [x])) :=
  ⟨(h.add hlt).perm (std.pushHeap_perm _ _ hheap), std.pushHeap_heap _ _ hheap⟩

/-- In a full heap, a new element larger than the root takes its place. -/
theorem Top.popPush {root : α} {others : List α} (std : Algorithms key)
    (h : Top key n xs (root :: others)) (hheap : MinHeap key (root :: others))
    (hfull : (root :: others).length = n) (hlt : key root < key x) :
    Top key n (xs ++ [x])
        (std.pushHeap ((std.popHeap (root :: others)).dropLast ++ [x])) ∧
      MinHeap key (std.pushHeap ((std.popHeap (root :: others)).dropLast ++ [x])) := by
  obtain ⟨rest, hpop, hperm, hrest⟩ := std.popHeap_eq root others hheap
  have hlast : (std.popHeap (root :: others)).dropLast = rest := by
    rw [hpop, List.dropLast_concat]
  rw [hlast]
  have hreplaced : Top key n (xs ++ [x]) (others ++ [x]) :=
    h.replace hheap.head_le hlt hfull
  refine ⟨?_, std.pushHeap_heap _ _ hrest⟩
  exact hreplaced.perm ((std.pushHeap_perm _ _ hrest).trans (hperm.append_right [x]))

end HeapSteps

section Bubbling

/-- The element at `i` is swapped towards the front while its key is larger than that of
the element before it. -/
def bubbleUp (key : α → K) : List α → Nat → List α
  | l, 0 => l
  | l, i + 1 =>
      match l[i]?, l[i + 1]? with
      | some a, some b =>
          if key a < key b then bubbleUp key ((l.set i b).set (i + 1) a) i else l
      | _, _ => l

/-- Bubbling up an element that is at least as large as all behind it sorts it in. -/
theorem bubbleUp_spec (pre : List α) :
    ∀ (post : List α) (x : α), Descending key (pre ++ post) → (∀ b ∈ post, key b ≤ key x) →
      Descending key (bubbleUp key (pre ++ x :: post) pre.length) ∧
        (bubbleUp key (pre ++ x :: post) pre.length).Perm (pre ++ x :: post) := by
  induction pre using List.reverseRecOn with
  | nil =>
      intro post x hdesc hle
      exact ⟨List.pairwise_cons.mpr ⟨hle, hdesc⟩, List.Perm.refl _⟩
  | append_singleton pre a ih =>
      intro post x hdesc hle
      have hlist : pre ++ [a] ++ x :: post = pre ++ a :: x :: post := by simp
      have hfirst : (pre ++ a :: x :: post)[pre.length]? = some a := by simp
      have hsecond : (pre ++ a :: x :: post)[pre.length + 1]? = some x := by
        simp
      have hdesc' : Descending key (pre ++ a :: post) := by simpa using hdesc
      rw [hlist, List.length_append, List.length_singleton, bubbleUp, hfirst, hsecond]
      dsimp only
      split_ifs with hlt
      · have hswap : ((pre ++ a :: x :: post).set pre.length x).set (pre.length + 1) a =
            pre ++ x :: a :: post := by
          simp [List.set_append_right]
        rw [hswap]
        have hle' : ∀ b ∈ a :: post, key b ≤ key x := by
          intro b hb
          rcases List.mem_cons.mp hb with rfl | hb
          · exact hlt.le
          · exact hle b hb
        obtain ⟨hsorted, hperm⟩ := ih (a :: post) x hdesc' hle'
        exact ⟨hsorted, hperm.trans ((List.Perm.swap a x post).append_left pre)⟩
      · rw [← hlist]
        refine ⟨hdesc.insert ?_ hle, List.Perm.refl _⟩
        intro b hb
        rcases List.mem_append.mp hb with hb | hb
        · have hab : key a ≤ key b :=
            (List.pairwise_append.mp hdesc').2.2 b hb a List.mem_cons_self
          exact (not_lt.mp hlt).trans hab
        · obtain rfl := List.mem_singleton.mp hb
          exact not_lt.mp hlt

end Bubbling

end GtpMeter.Selection
