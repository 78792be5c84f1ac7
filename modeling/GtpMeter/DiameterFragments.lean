import GtpMeter.AcceptedMessages

/-!
# Fragments of Diameter messages

`process_diameter` does not reassemble: a segment that ends or begins in the middle of a
message is to be rejected.  Its loop goes on while there is room for a base header, so
what follows the last complete message is looked at only if it has 20 bytes.

**Results.**
* `isMessage_of_accepted`: a message that is accepted is one at the front of the buffer.
* `exists_messages_rest`: every payload is some messages and a rest that is none.
* `messages_unique`: in one way only.
* `fragments_rejected_iff`: a segment without parse error is a list of complete messages,
  but for a rest shorter than a header.
-/

namespace GtpMeter

section Front

variable {m rest : List UInt8} {k : Nat}

/-- The header of a message that is cut out of the buffer it was accepted in. -/
theorem headerFits_of_append (h : HeaderFits ⟨k, m ++ rest⟩)
    (hlen : (declaredLength ⟨k, m ++ rest⟩).toNat = m.length) :
    HeaderFits (.whole m) ∧ (declaredLength (.whole m)).toNat = m.length := by
  have hge : kDiameterHeaderLen ≤ m.length := hlen ▸ h.length_ge
  obtain ⟨hfits, hdeclared⟩ := h.congr (t := .whole m)
    (fun i hi => (byte_append (Nat.lt_of_lt_of_le hi hge)).symm) (Nat.le_of_eq hlen)
  exact ⟨hfits, by rw [hdeclared, hlen]⟩

/-- What is accepted at the front of a buffer is a message there. -/
theorem isMessage_of_accepted {buf : Span} {hdr : DiameterHeader} {gy : GyMessage}
    (h : parseDiameterGy buf = .ok (.ok, hdr, gy)) :
    ∃ m rest, buf.bytes = m ++ rest ∧ IsMessage m := by
  have hhead := header_of_parseDiameterGy h
  obtain ⟨hfits, rfl⟩ := fits_of_parseDiameterHeader hhead
  obtain ⟨k, bytes⟩ := buf
  let n := (declaredLength ⟨k, bytes⟩).toNat
  have hcut : bytes = bytes.take n ++ bytes.drop n := (List.take_append_drop n bytes).symm
  have hlen : n = (bytes.take n).length := by
    rw [List.length_take]
    exact (Nat.min_eq_left hfits.complete).symm
  generalize bytes.take n = m at hcut hlen
  generalize bytes.drop n = rest at hcut
  subst hcut
  obtain ⟨hfits', hlen'⟩ := headerFits_of_append hfits hlen
  have hsame : SameHeader (headerOf (.whole m)) (headerOf ⟨k, m ++ rest⟩) :=
    (headerFits_append hfits' hlen').2
  have htwin : Twin SameMessage (parseDiameterGy (.whole m)) (parseDiameterGy ⟨k, m ++ rest⟩) := by
    unfold parseDiameterGy
    rw [hhead, parseDiameterHeader_of_fits hfits']
    exact afterHeader_twin .ok hsame
  obtain ⟨⟨st, hdr', gy'⟩, hread, hst, hhdr, -⟩ := htwin.of_ok_right h
  obtain rfl : st = .ok := hst
  have hmsg : hdr'.msgLength.toNat = m.length := by
    rw [← hhdr.msgLength]
    exact hlen
  exact ⟨m, rest, rfl, hdr', gy', hread, hmsg⟩

theorem IsMessage.length_ge (h : IsMessage m) : kDiameterHeaderLen ≤ m.length :=
  (isMessage_iff.mp h).header.size_ge

end Front

section Splitting

variable {tail tail' : List UInt8} {ms ms' : List (List UInt8)}

/-- Bytes at which no message begins, though there is room for a header. -/
def NoMessage (tail : List UInt8) : Prop :=
  kDiameterHeaderLen ≤ tail.length ∧
    ∃ st hdr gy, parseDiameterGy (.whole tail) = .ok (st, hdr, gy) ∧ st ≠ .ok

/-- Messages, and a rest in which the loop finds no more. -/
theorem exists_messages_rest (bytes : List UInt8) :
    ∃ (ms : List (List UInt8)) (tail : List UInt8), bytes = ms.flatten ++ tail ∧
      (∀ m ∈ ms, IsMessage m) ∧ (tail.length < kDiameterHeaderLen ∨ NoMessage tail) := by
  -- a message has 20 bytes at least, so the rest behind it is shorter
  induction hn : bytes.length using Nat.strong_induction_on generalizing bytes with
  | _ n ih =>
      by_cases hshort : bytes.length < kDiameterHeaderLen
      · exact ⟨[], bytes, rfl, fun _ hm => absurd hm List.not_mem_nil, .inl hshort⟩
      obtain ⟨⟨st, hdr, gy⟩, hread, -⟩ := parseDiameterGy_views (ViewOf.whole bytes)
      by_cases hst : st = .ok
      swap
      · exact ⟨[], bytes, rfl, fun _ hm => absurd hm List.not_mem_nil,
          .inr ⟨Nat.le_of_not_lt hshort, st, hdr, gy, hread, hst⟩⟩
      subst hst
      obtain ⟨m, rest, hcut, hm⟩ := isMessage_of_accepted hread
      obtain rfl : bytes = m ++ rest := hcut
      have hge := hm.length_ge
      have hhead : kDiameterHeaderLen = 20 := rfl
      rw [List.length_append] at hn
      obtain ⟨ms, tail, rfl, hms, htail⟩ := ih rest.length (by omega) rest rfl
      exact ⟨m :: ms, tail, by simp, List.forall_mem_cons.mpr ⟨hm, hms⟩, htail⟩

/-- Two messages at the front of the same bytes are the same. -/
theorem message_unique {m m' rest rest' : List UInt8} (h : IsMessage m) (h' : IsMessage m')
    (heq : m ++ rest = m' ++ rest') : m = m' ∧ rest = rest' := by
  obtain ⟨hdr, gy, hread, hlen, -⟩ := h.read 0 rest 0
  obtain ⟨hdr', gy', hread', hlen', -⟩ := h'.read 0 rest' 0
  rw [heq, hread'] at hread
  obtain rfl := (Prod.mk.inj (Prod.mk.inj (Except.ok.inj hread)).2).1
  exact List.append_inj heq (hlen.symm.trans hlen')

/-- Nothing but messages cannot also be messages and a shorter rest. -/
theorem messages_unique (h : ∀ m ∈ ms, IsMessage m) (h' : ∀ m ∈ ms', IsMessage m)
    (htail : tail.length < kDiameterHeaderLen) (heq : ms.flatten ++ tail = ms'.flatten) :
    tail = [] := by
  induction ms generalizing ms' with
  | nil =>
      cases ms' with
      | nil => exact heq
      | cons m' ms' =>
          have hge := (h' m' (by simp)).length_ge
          have hlen := congrArg List.length heq
          simp only [List.flatten_nil, List.nil_append, List.flatten_cons,
            List.length_append] at hlen
          omega
  | cons m ms ih =>
      have hm := h m (by simp)
      cases ms' with
      | nil =>
          have hge := hm.length_ge
          have hhead : kDiameterHeaderLen = 20 := rfl
          have hlen := congrArg List.length heq
          simp only [List.flatten_nil, List.length_nil, List.flatten_cons,
            List.length_append] at hlen
          omega
      | cons m' ms' =>
          rw [List.flatten_cons, List.flatten_cons, List.append_assoc] at heq
          obtain ⟨-, hrest⟩ := message_unique hm (h' m' (by simp)) heq
          exact ih (fun m hmem => h m (by simp [hmem])) (fun m hmem => h' m (by simp [hmem])) hrest

end Splitting

section Fragments

variable {ms : List (List UInt8)}

/-- Complete messages, and then some bytes, fewer than a header has. -/
def EndsShort (bytes : List UInt8) : Prop :=
  ∃ (ms : List (List UInt8)) (tail : List UInt8), bytes = ms.flatten ++ tail ∧
    (∀ m ∈ ms, WellFormedMessage m) ∧ tail ≠ [] ∧ tail.length < kDiameterHeaderLen

theorem wellFormed_messages : (∀ m ∈ ms, WellFormedMessage m) ↔ ∀ m ∈ ms, IsMessage m :=
  forall₂_congr (fun _ _ => isMessage_iff.symm)

theorem afterMessages_counters (ing : Ingest) (ms : List (List UInt8)) (tsNs : UInt64) :
    (ing.afterMessages ms tsNs).stats.diameterMessages =
        ing.stats.diameterMessages + UInt64.ofNat ms.length ∧
      (ing.afterMessages ms tsNs).stats.diameterParseErrors = ing.stats.diameterParseErrors :=
  Ingest.pushGyAll_counters _ _ _

/-- **Fragments are rejected, but for those shorter than a header.**  `process_diameter`
counts at most one parse error.  Without one, the payload is `k` complete messages and
`k` messages have been counted; this holds of a payload exactly if it does not end in
fewer than 20 bytes behind its complete messages. -/
theorem fragments_rejected_iff (ing : Ingest) (payload : Span) (tsNs : UInt64) :
    ∃ ing' outcome, ing.processDiameter payload tsNs = .ok (ing', outcome) ∧
      (ing'.stats.diameterParseErrors = ing.stats.diameterParseErrors ∨
        ing'.stats.diameterParseErrors = ing.stats.diameterParseErrors + 1) ∧
      ((ing'.stats.diameterParseErrors = ing.stats.diameterParseErrors →
          ∃ ms : List (List UInt8), (∀ m ∈ ms, WellFormedMessage m) ∧
            payload.bytes = ms.flatten ∧
            ing'.stats.diameterMessages =
              ing.stats.diameterMessages + UInt64.ofNat ms.length) ↔
        ¬EndsShort payload.bytes) := by
  obtain ⟨ms, tail, hbytes, hms, htail⟩ := exists_messages_rest payload.bytes
  obtain ⟨hmessages, herrors⟩ := afterMessages_counters ing ms tsNs
  rcases htail with hshort | ⟨hge, st, hdr, gy, hread, hst⟩
  · refine ⟨_, _, Ingest.processDiameter_short hms hbytes hshort, .inl herrors, ?_⟩
    constructor
    · rintro hfull ⟨ms₁, tail₁, hbytes₁, hms₁, hne, hshort₁⟩
      obtain ⟨ms₂, hms₂, hbytes₂, -⟩ := hfull herrors
      exact hne (messages_unique (wellFormed_messages.mp hms₁) (wellFormed_messages.mp hms₂)
        hshort₁ (hbytes₁.symm.trans hbytes₂))
    · intro hends _
      have hms' := wellFormed_messages.mpr hms
      have hnil : tail = [] := by
        by_contra hne
        exact hends ⟨ms, tail, hbytes, hms', hne, hshort⟩
      rw [hnil, List.append_nil] at hbytes
      exact ⟨ms, hms', hbytes, hmessages⟩
  · have hrun : ing.processDiameter payload tsNs = .ok (_, _) :=
      Ingest.processDiameter_rejected hms hbytes hge hread hst
    have hmore : ing.stats.diameterParseErrors + 1 ≠ ing.stats.diameterParseErrors := by simp
    refine ⟨_, _, hrun, .inr rfl, fun _ hends => ?_, fun _ hsame => absurd hsame hmore⟩
    -- a shorter rest would have been left uncounted
    obtain ⟨ms₁, tail₁, hbytes₁, hms₁, -, hshort₁⟩ := hends
    have hrun₁ : ing.processDiameter payload tsNs = .ok (_, _) :=
      Ingest.processDiameter_short (wellFormed_messages.mp hms₁) hbytes₁ hshort₁
    rw [hrun] at hrun₁
    have heq := congrArg (fun i => i.stats.diameterParseErrors)
      (Prod.mk.inj (Except.ok.inj hrun₁)).1
    exact hmore (heq.trans (afterMessages_counters ing ms₁ tsNs).2)

/-- The first 19 bytes of a watchdog request, alone and behind a complete one, are not
counted by anything. -/
theorem short_fragment_unnoticed :
    (({} : Ingest).processDiameter (.whole (watchdogMessage.take 19)) 7 =
      .ok ({}, .notOurTraffic) ∧ EndsShort (watchdogMessage.take 19)) ∧
    (∃ ing' outcome, ({} : Ingest).processDiameter
        (.whole (watchdogMessage ++ watchdogMessage.take 19)) 7 = .ok (ing', outcome) ∧
      ing'.stats.diameterParseErrors = 0 ∧ ing'.stats.diameterMessages = 1 ∧
      ¬∃ ms : List (List UInt8), (∀ m ∈ ms, WellFormedMessage m) ∧
        watchdogMessage ++ watchdogMessage.take 19 = ms.flatten) := by
  have hwatchdog : IsMessage watchdogMessage := isMessage_of_check (by decide +kernel)
  have hms : ∀ m ∈ [watchdogMessage], IsMessage m :=
    fun m hm => List.mem_singleton.mp hm ▸ hwatchdog
  have hnone : ∀ m ∈ ([] : List (List UInt8)), IsMessage m :=
    fun _ hm => absurd hm List.not_mem_nil
  refine ⟨⟨Ingest.processDiameter_short hnone rfl (by decide), [], _, rfl,
    wellFormed_messages.mpr hnone, by decide, by decide⟩, ?_⟩
  refine ⟨_, _, Ingest.processDiameter_short hms rfl (by decide), ?_, ?_, ?_⟩
  · exact (afterMessages_counters {} [watchdogMessage] 7).2
  · exact (afterMessages_counters {} [watchdogMessage] 7).1
  · rintro ⟨ms, hms', heq⟩
    have hnil := messages_unique hms (wellFormed_messages.mp hms') (by decide)
      (show [watchdogMessage].flatten ++ watchdogMessage.take 19 = ms.flatten from heq)
    exact absurd hnil (by decide)

end Fragments
end GtpMeter
