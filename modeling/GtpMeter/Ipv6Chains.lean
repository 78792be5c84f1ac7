import GtpMeter.PacketFields
import GtpMeter.WireBytes
import Mathlib.Tactic.IntervalCases

/-!
# IPv6 extension headers

Between the fixed header of an IPv6 packet and its transport header stands a chain of
extension headers.  Each of them names the kind of the one behind it, and gives its own
length in units of its kind; the walk of `parse_ipv6` takes the kind of a header from the
one before, and stops after eight.

A packet is given here by its parts, and `parse_ip` is run on the bytes that they make
up, with any bytes behind them.

**Results.**
* `walk_chain`: a chain of first fragments at most is walked over.
* `walk_fragment`: the walk ends at a fragment that is not the first.
* `ipv6_chain_walked`: what `parse_ip` returns on either.
-/

namespace GtpMeter

section Fragments

/-- Offset, two reserved bits and the flag for more fragments stand in one word. -/
theorem and_offset_mask (w : UInt16) : w &&& (0xFFF8 : UInt16) = (w >>> 3) <<< 3 := by
  apply UInt16.eq_of_toBitVec_eq
  ext i hi
  interval_cases i <;> simp

theorem first_fragment_iff (w : UInt16) : w &&& 0xFFF8 = 0 ↔ w >>> 3 = 0 := by
  rw [and_offset_mask]
  constructor
  · intro h
    have hnat := congrArg UInt16.toNat h
    simp only [UInt16.toNat_shiftLeft, UInt16.toNat_shiftRight, UInt16.reduceToNat,
      Nat.shiftLeft_eq, Nat.shiftRight_eq_div_pow, Nat.reduceMod, Nat.reducePow] at hnat
    have hlt := w.toNat_lt
    apply UInt16.toNat_inj.mp
    simp only [UInt16.toNat_shiftRight, UInt16.reduceToNat, Nat.shiftRight_eq_div_pow,
      Nat.reduceMod, Nat.reducePow]
    omega
  · intro h
    rw [h]
    rfl

/-- A fragment at an offset is marked as one. -/
theorem fragment_marked {w : UInt16} (h : w >>> 3 ≠ 0) : (w &&& 0xFFF9 != 0) = true := by
  rw [bne_iff_ne]
  intro hzero
  apply h
  rw [← first_fragment_iff]
  have hmask : w &&& 0xFFF8 = (w &&& 0xFFF9) &&& 0xFFF8 := by
    rw [UInt16.and_assoc]
    rfl
  rw [hmask, hzero, UInt16.zero_and]

end Fragments

section Headers

/-- The extension headers that are walked over. -/
inductive ExtKind where
  | hopByHop
  | route
  | dest
  | ah
  | fragment
deriving DecidableEq

namespace ExtKind

def code : ExtKind → UInt8
  | hopByHop => IpProto.hopByHop.code
  | route => IpProto.ipv6Route.code
  | dest => IpProto.ipv6Dest.code
  | ah => IpProto.ah.code
  | fragment => IpProto.ipv6Frag.code

/-- The size of a header whose length field is `n`. -/
def size (n : UInt8) : ExtKind → Nat
  | hopByHop => 8 * (n.toNat + 1)
  | route => 8 * (n.toNat + 1)
  | dest => 8 * (n.toNat + 1)
  | ah => 4 * (n.toNat + 2)
  | fragment => 8

theorem size_ge (n : UInt8) (k : ExtKind) : 8 ≤ k.size n := by
  cases k <;> simp only [size] <;> omega

theorem size_le (n : UInt8) (k : ExtKind) : k.size n ≤ 2048 := by
  have hlt := n.toNat_lt
  cases k <;> simp only [size] <;> omega

theorem isIpv6Ext_code (k : ExtKind) : isIpv6Ext k.code = true := by
  cases k <;> rfl

theorem code_eq_fragment_iff (k : ExtKind) : k.code = IpProto.ipv6Frag.code ↔ k = .fragment := by
  cases k <;> decide

/-- The length that the walk computes. -/
theorem walked_size {n : UInt8} {k : ExtKind} (h : k ≠ .fragment) :
    (if k.code = IpProto.ah.code then (n.toNat + 2) * 4 else (n.toNat + 1) * 8) = k.size n := by
  cases k with
  | fragment => exact absurd rfl h
  | hopByHop | route | dest | ah => exact Nat.mul_comm _ _

end ExtKind

/-- An extension header, without the byte that names the header behind it. -/
structure ExtHeader where
  kind : ExtKind
  len : UInt8
  body : List UInt8
  length_eq : body.length + 2 = kind.size len

namespace ExtHeader

def size (h : ExtHeader) : Nat :=
  h.kind.size h.len

def bytes (h : ExtHeader) (next : UInt8) : List UInt8 :=
  next :: h.len :: h.body

theorem bytes_length (h : ExtHeader) (next : UInt8) : (h.bytes next).length = h.size :=
  h.length_eq

/-- The word of a Fragment header that holds offset and flags. -/
def fragWord (h : ExtHeader) : UInt16 :=
  be16 (h.body.getD 0 0) (h.body.getD 1 0)

/-- The offset of a Fragment header, in units of 8 bytes. -/
def offset (h : ExtHeader) : UInt16 :=
  h.fragWord >>> 3

/-- A Fragment header at an offset. -/
def LaterFragment (h : ExtHeader) : Prop :=
  h.kind = .fragment ∧ h.offset ≠ 0

instance decidableLaterFragment (h : ExtHeader) : Decidable h.LaterFragment :=
  inferInstanceAs (Decidable (_ ∧ _))

end ExtHeader

/-- The byte that names the first header of a chain, or what is behind it. -/
def firstCode (proto : UInt8) : List ExtHeader → UInt8
  | [] => proto
  | h :: _ => h.kind.code

/-- A chain of headers in front of a header of protocol `proto`. -/
def ipv6ChainBytes (proto : UInt8) : List ExtHeader → List UInt8
  | [] => []
  | h :: chain => h.bytes (firstCode proto chain) ++ ipv6ChainBytes proto chain

def ipv6ChainLength (chain : List ExtHeader) : Nat :=
  (chain.map ExtHeader.size).sum

theorem ipv6ChainBytes_length (proto : UInt8) (chain : List ExtHeader) :
    (ipv6ChainBytes proto chain).length = ipv6ChainLength chain := by
  induction chain with
  | nil => rfl
  | cons h chain ih =>
      rw [ipv6ChainBytes, List.length_append, h.bytes_length, ih]
      rfl

theorem ipv6ChainLength_le (chain : List ExtHeader) : ipv6ChainLength chain ≤ chain.length * 2048 := by
  induction chain with
  | nil => exact Nat.le_refl _
  | cons h chain ih =>
      have hsize := ExtKind.size_le h.len h.kind
      rw [ipv6ChainLength, List.map_cons, List.sum_cons, List.length_cons, ← ipv6ChainLength]
      rw [ExtHeader.size]
      omega

end Headers

section Walk

variable {s : Span} {endOff n off : Nat} {next proto : UInt8} {h : ExtHeader}
  {chain : List ExtHeader} {out : IpPacket}

/-- What a header changes of the packet: a Fragment header says whether it is one. -/
def ExtHeader.mark (h : ExtHeader) (out : IpPacket) : IpPacket :=
  if h.kind = .fragment then { out with tuple.fragmented := h.fragWord &&& 0xFFF9 != 0 } else out

theorem read_next (hhas : s.Has off (h.bytes next)) : s.read off = .ok next :=
  hhas.read (j := 0) rfl

theorem load_fragWord (hhas : s.Has off (h.bytes next)) : s.loadBe16 (off + 2) = .ok h.fragWord := by
  have hfits := hhas.fits
  have hsize := ExtKind.size_ge h.len h.kind
  have hlen := h.length_eq
  rw [h.bytes_length, ExtHeader.size] at hfits
  have hbyte : ∀ i, i < 2 → s.byte (off + (i + 2)) = h.body.getD i 0 := by
    intro i hi
    refine hhas.byte_eq ?_
    rw [ExtHeader.bytes, List.getElem?_cons_succ, List.getElem?_cons_succ,
      List.getD_eq_getElem?_getD, List.getElem?_eq_getElem (by omega), Option.getD_some]
  rw [Span.loadBe16_eq (by omega), ExtHeader.fragWord, ← hbyte 0 (by omega),
    ← hbyte 1 (by omega)]

/-- One turn over a header that is not a later fragment. -/
theorem walk_header (hhas : s.Has off (h.bytes next)) (hend : off + h.size ≤ endOff)
    (hfirst : ¬h.LaterFragment) :
    walkIpv6Ext s endOff (n + 1) h.kind.code off out =
      walkIpv6Ext s endOff n next (off + h.size) (h.mark out) := by
  have hsize : 8 ≤ h.size := ExtKind.size_ge h.len h.kind
  rw [walkIpv6Ext, h.kind.isIpv6Ext_code, if_neg (by decide), if_neg (by omega)]
  by_cases hfrag : h.kind = .fragment
  · have hoffset : h.fragWord &&& 0xFFF8 = 0 :=
      (first_fragment_iff _).mpr (not_not.mp (fun hne => hfirst ⟨hfrag, hne⟩))
    have height : h.size = 8 := by rw [ExtHeader.size, hfrag]; rfl
    rw [if_pos (h.kind.code_eq_fragment_iff.mpr hfrag), load_fragWord hhas, read_next hhas]
    simp only [bind, Except.bind, hoffset, if_true, ExtHeader.mark, hfrag, height]
  · rw [if_neg (fun hcode => hfrag (h.kind.code_eq_fragment_iff.mp hcode)), hhas.read (j := 1) rfl]
    simp only [bind, Except.bind]
    rw [ExtKind.walked_size hfrag, if_neg (by rw [ExtHeader.size] at hend; omega),
      read_next hhas, ExtHeader.mark, if_neg hfrag]
    rfl

/-- One turn at a later fragment. -/
theorem walk_later (hhas : s.Has off (h.bytes next)) (hend : off + h.size ≤ endOff)
    (hlater : h.LaterFragment) :
    walkIpv6Ext s endOff (n + 1) h.kind.code off out =
      .ok (.done { h.mark out with
        tuple.proto := next
        l3HeaderLen := UInt16.ofNat (off + h.size) }) := by
  obtain ⟨hfrag, hoffset⟩ := hlater
  have hne : ¬(h.fragWord &&& 0xFFF8 = 0) := fun hzero => hoffset ((first_fragment_iff _).mp hzero)
  have height : h.size = 8 := by rw [ExtHeader.size, hfrag]; rfl
  rw [walkIpv6Ext, h.kind.isIpv6Ext_code, if_neg (by decide), if_neg (by omega),
    if_pos (h.kind.code_eq_fragment_iff.mpr hfrag), load_fragWord hhas, read_next hhas]
  simp only [bind, Except.bind, hne, if_false, ExtHeader.mark, hfrag, height, if_true]

/-- The first header of a chain, and the rest of it. -/
theorem chain_cons (hn : (h :: chain).length ≤ n)
    (hhas : s.Has off (ipv6ChainBytes proto (h :: chain)))
    (hend : off + ipv6ChainLength (h :: chain) ≤ endOff) :
    ∃ m, n = m + 1 ∧ chain.length ≤ m ∧
      s.Has off (h.bytes (firstCode proto chain)) ∧ off + h.size ≤ endOff ∧
      s.Has (off + h.size) (ipv6ChainBytes proto chain) ∧
      off + h.size + ipv6ChainLength chain ≤ endOff := by
  rw [List.length_cons] at hn
  have hlength : ipv6ChainLength (h :: chain) = h.size + ipv6ChainLength chain := rfl
  obtain ⟨hhead, hrest⟩ := Span.Has.append_iff.mp hhas
  rw [h.bytes_length] at hrest
  exact ⟨n - 1, by omega, by omega, hhead, by omega, hrest, by omega⟩

/-- **The chain.**  Without later fragments it is walked over, up to the header behind
it. -/
theorem walk_chain (hproto : isIpv6Ext proto = false) (hn : chain.length ≤ n)
    (hhas : s.Has off (ipv6ChainBytes proto chain)) (hend : off + ipv6ChainLength chain ≤ endOff)
    (hfirst : ∀ h ∈ chain, ¬h.LaterFragment) :
    walkIpv6Ext s endOff n (firstCode proto chain) off out =
      .ok (.upper proto (off + ipv6ChainLength chain)
        (chain.foldl (fun out h => h.mark out) out)) := by
  induction chain generalizing n off out with
  | nil =>
      cases n with
      | zero => rfl
      | succ n =>
          rw [firstCode, walkIpv6Ext, hproto]
          rfl
  | cons h chain ih =>
      obtain ⟨m, rfl, hm, hhead, hfits, hrest, hend'⟩ := chain_cons hn hhas hend
      rw [firstCode, walk_header hhead hfits (hfirst h List.mem_cons_self),
        ih hm hrest hend' (fun g hg => hfirst g (List.mem_cons_of_mem h hg)), Nat.add_assoc]
      rfl

/-- The walk ends at the first of the later fragments. -/
theorem walk_fragment (out : IpPacket) (hn : chain.length ≤ n) (hhas : s.Has off (ipv6ChainBytes proto chain))
    (hend : off + ipv6ChainLength chain ≤ endOff) (hlater : ∃ h ∈ chain, h.LaterFragment) :
    ∃ r, walkIpv6Ext s endOff n (firstCode proto chain) off out = .ok (.done r) ∧
      r.tuple.fragmented = true := by
  induction chain generalizing n off out with
  | nil =>
      obtain ⟨h, hh, -⟩ := hlater
      cases hh
  | cons h chain ih =>
      obtain ⟨m, rfl, hm, hhead, hfits, hrest, hend'⟩ := chain_cons hn hhas hend
      by_cases hthis : h.LaterFragment
      · refine ⟨_, walk_later hhead hfits hthis, ?_⟩
        rw [ExtHeader.mark, if_pos hthis.1]
        exact fragment_marked hthis.2
      · rw [firstCode, walk_header hhead hfits hthis]
        refine ih _ hm hrest hend' ?_
        obtain ⟨g, hg, hglater⟩ := hlater
        rcases List.mem_cons.mp hg with rfl | htail
        · exact absurd hglater hthis
        · exact ⟨g, htail, hglater⟩

end Walk

section Transports

/-- What follows the ports in a transport header: 4 bytes for UDP, 8 for SCTP, and for TCP
up to the 5 to 15 words that the header says it has. -/
inductive HeaderRest : UInt8 → List UInt8 → Prop
  | udp {rest : List UInt8} (length_eq : rest.length = 4) : HeaderRest IpProto.udp.code rest
  | tcp {rest : List UInt8} {words : Nat} (five_le : 5 ≤ words) (le_fifteen : words ≤ 15)
      (length_eq : rest.length + 4 = 4 * words)
      (offset_eq : (rest.getD 8 0 >>> 4).toNat = words) : HeaderRest IpProto.tcp.code rest
  | sctp {rest : List UInt8} (length_eq : rest.length = 8) : HeaderRest IpProto.sctp.code rest

/-- A transport header. -/
structure TransportHeader where
  proto : UInt8
  src : UInt16
  dst : UInt16
  rest : List UInt8
  rest_wf : HeaderRest proto rest

namespace TransportHeader

variable {t : TransportHeader} {l4 : Span} {out : IpPacket} {payload : List UInt8}

def bytes (t : TransportHeader) : List UInt8 :=
  be16Bytes t.src ++ be16Bytes t.dst ++ t.rest

theorem bytes_length (t : TransportHeader) : t.bytes.length = t.rest.length + 4 := by
  rw [bytes, List.length_append, Nat.add_comm]
  rfl

theorem notExt (t : TransportHeader) : isIpv6Ext t.proto = false := by
  obtain ⟨proto, src, dst, rest, hrest⟩ := t
  cases hrest <;> rfl

theorem byte_eq (hl4 : l4.bytes = t.bytes ++ payload) (i : Nat) :
    l4.byte i = (t.bytes ++ payload).getD i 0 := by
  rw [← hl4]
  rfl

theorem withPorts_eq (hl4 : l4.bytes = t.bytes ++ payload) (tuple : FiveTuple) :
    withPorts l4 tuple =
      { tuple with srcPort := t.src, dstPort := t.dst, portsValid := true } := by
  rw [withPorts, byte_eq hl4, byte_eq hl4, byte_eq hl4, byte_eq hl4]
  simp only [bytes, be16Bytes, List.cons_append, List.nil_append, List.getD_cons_zero,
    List.getD_cons_succ, be16_be16Bytes]

theorem parseL4_eq (hl4 : l4.bytes = t.bytes ++ payload) (hproto : out.tuple.proto = t.proto) :
    parseL4 l4 out = .ok (withL4 l4 t.bytes.length out) := by
  have hsize : l4.size = t.rest.length + 4 + payload.length := by
    rw [Span.size, hl4, List.length_append, t.bytes_length]
  obtain ⟨proto, src, dst, rest, hrest⟩ := t
  rw [bytes_length]
  cases hrest with
  | udp hlen =>
      dsimp only at hsize ⊢
      rw [hlen] at hsize ⊢
      exact parseL4_udp hproto (by omega)
  | sctp hlen =>
      dsimp only at hsize ⊢
      rw [hlen] at hsize ⊢
      exact parseL4_sctp hproto (by omega)
  | tcp hmin hmax hlen hoff =>
      refine parseL4_tcp hproto ?_ (by dsimp only; omega) (by dsimp only at hsize ⊢; omega)
      have hbyte : l4.byte 12 = rest.getD 8 0 := by
        rw [byte_eq hl4]
        simp only [bytes, be16Bytes, List.cons_append, List.nil_append, List.getD_cons_succ]
        rw [List.getD_eq_getElem?_getD, List.getElem?_append_left (by omega),
          ← List.getD_eq_getElem?_getD]
      rw [hbyte, hoff, hlen, Nat.mul_comm]

/-- The transport parser takes such a header off. -/
theorem parse (hl4 : l4.bytes = t.bytes ++ payload) (hproto : out.tuple.proto = t.proto) :
    parseL4 l4 out = .ok { out with
      tuple := { out.tuple with srcPort := t.src, dstPort := t.dst, portsValid := true }
      l4HeaderLen := UInt16.ofNat t.bytes.length
      l4Payload := ⟨l4.off + t.bytes.length, payload⟩ } := by
  have hpayload : l4.after t.bytes.length = ⟨l4.off + t.bytes.length, payload⟩ := by
    rw [Span.after, hl4, List.drop_left]
  rw [parseL4_eq hl4 hproto, withL4, withPorts_eq hl4, hpayload]

end TransportHeader

end Transports

section Packets

/-- The parts of an IPv6 packet: the fixed header but for the fields that follow from the
others, the extension headers, and what is behind them. -/
structure Ipv6Datagram where
  head : List UInt8
  hopLimit : UInt8
  addresses : List UInt8
  chain : List ExtHeader
  proto : UInt8
  body : List UInt8
  head_length : head.length = 4
  version : head.getD 0 0 >>> 4 = 6
  addresses_length : addresses.length = 32
  chain_le : chain.length ≤ kMaxIpv6ExtHeaders
  length_lt : ipv6ChainLength chain + body.length < 65536

namespace Ipv6Datagram

variable {d : Ipv6Datagram} {pkt : Span} {trailing : List UInt8}

/-- The fixed header. -/
def fixed (d : Ipv6Datagram) : List UInt8 :=
  d.head ++ (be16Bytes (UInt16.ofNat (ipv6ChainLength d.chain + d.body.length)) ++
    (firstCode d.proto d.chain :: d.hopLimit :: d.addresses))

def bytes (d : Ipv6Datagram) : List UInt8 :=
  d.fixed ++ (ipv6ChainBytes d.proto d.chain ++ d.body)

theorem fixed_length (d : Ipv6Datagram) : d.fixed.length = 40 := by
  simp [fixed, be16Bytes, d.head_length, d.addresses_length]

theorem bytes_length (d : Ipv6Datagram) :
    d.bytes.length = 40 + (ipv6ChainLength d.chain + d.body.length) := by
  rw [bytes, List.length_append, List.length_append, d.fixed_length, ipv6ChainBytes_length]

/-- The packet has these parts, and trailing bytes. -/
theorem has_fixed (h : pkt.bytes = d.bytes ++ trailing) : pkt.Has 0 d.fixed := by
  refine Span.Has.zero_iff.mpr ?_
  rw [h, bytes, List.append_assoc]
  exact List.prefix_append _ _

theorem has_chain (h : pkt.bytes = d.bytes ++ trailing) :
    pkt.Has 40 (ipv6ChainBytes d.proto d.chain) := by
  rw [← d.fixed_length]
  refine Span.Has.of_append d.fixed (d.body ++ trailing) ?_
  rw [h, bytes, List.append_assoc, List.append_assoc, List.append_assoc]

theorem header (h : pkt.bytes = d.bytes ++ trailing) : Ipv6Header pkt where
  size_ge := by
    rw [Span.size, h, List.length_append, d.bytes_length]
    omega
  version := by
    have hbyte : pkt.byte (0 + 0) = d.head.getD 0 0 := by
      refine (has_fixed h).byte_eq ?_
      have hlen := d.head_length
      rw [fixed, List.getElem?_append_left (by omega), List.getD_eq_getElem?_getD,
        List.getElem?_eq_getElem (by omega), Option.getD_some]
    rw [Nat.add_zero] at hbyte
    rw [hbyte]
    exact d.version

theorem declared (h : pkt.bytes = d.bytes ++ trailing) : ipv6Declared pkt = d.bytes.length := by
  have hload : pkt.loadBe16 (0 + 4) =
      .ok (UInt16.ofNat (ipv6ChainLength d.chain + d.body.length)) := by
    refine (has_fixed h).load16 ?_
    rw [fixed, List.drop_left' d.head_length]
    exact List.take_left' rfl
  have hsize := (header h).size_ge
  have hlt := d.length_lt
  rw [Nat.zero_add, Span.loadBe16_eq (by omega)] at hload
  rw [ipv6Declared, ipv6PayloadLen, Except.ok.inj hload, d.bytes_length, UInt16.toNat_ofNat',
    Nat.mod_eq_of_lt hlt]

theorem byte_next (h : pkt.bytes = d.bytes ++ trailing) :
    pkt.byte 6 = firstCode d.proto d.chain := by
  have hbyte : pkt.byte (0 + 6) = firstCode d.proto d.chain := by
    refine (has_fixed h).byte_eq ?_
    rw [fixed, List.getElem?_append_right (by rw [d.head_length]; omega), d.head_length]
    rfl
  rwa [Nat.zero_add] at hbyte

/-- What is behind the chain, without the trailing bytes. -/
theorem after_chain (h : pkt.bytes = d.bytes ++ trailing) :
    (pkt.upTo (ipv6Declared pkt)).after (40 + ipv6ChainLength d.chain) =
      ⟨pkt.off + (40 + ipv6ChainLength d.chain), d.body⟩ := by
  rw [Span.after, Span.upTo, declared h, h, List.take_left, bytes, ← List.append_assoc]
  congr 1
  refine List.drop_left' ?_
  rw [List.length_append, d.fixed_length, ipv6ChainBytes_length]

/-- The walk over the packet begins at its chain. -/
theorem parseIp_eq (h : pkt.bytes = d.bytes ++ trailing) :
    parseIp pkt =
      (walkIpv6Ext pkt d.bytes.length kMaxIpv6ExtHeaders (firstCode d.proto d.chain) 40
        (ipv6Packet pkt) >>= finishIpv6 pkt d.bytes.length) := by
  have hheader := header h
  have hsize := hheader.size_ge
  have hend : min (ipv6Declared pkt) pkt.size = d.bytes.length := by
    rw [declared h, Span.size, h, List.length_append]
    omega
  rw [parseIp_of_version6 (by omega) hheader.version, parseIpv6_of_header hheader, hend,
    byte_next h]

theorem le_size (h : pkt.bytes = d.bytes ++ trailing) : d.bytes.length ≤ pkt.size := by
  rw [Span.size, h, List.length_append]
  exact Nat.le_add_right _ _

/-- Without later fragments the transport header behind the chain is taken off. -/
theorem parse_first {t : TransportHeader} {payload : List UInt8}
    (h : pkt.bytes = d.bytes ++ trailing) (hfirst : ∀ h ∈ d.chain, ¬h.LaterFragment)
    (hproto : d.proto = t.proto) (hbody : d.body = t.bytes ++ payload) :
    ∃ r, parseIp pkt = .ok r ∧ r.valid = true ∧ r.tuple.proto = t.proto ∧
      r.tuple.portsValid = true ∧ r.tuple.srcPort = t.src ∧ r.tuple.dstPort = t.dst ∧
      r.l3HeaderLen.toNat = 40 + ipv6ChainLength d.chain ∧
      r.l4Payload = ⟨pkt.off + (40 + ipv6ChainLength d.chain) + t.bytes.length, payload⟩ := by
  have hlength := d.bytes_length
  have hsize := le_size h
  have hend : min (ipv6Declared pkt) pkt.size = d.bytes.length := by
    rw [declared h]
    exact Nat.min_eq_left hsize
  obtain ⟨out, hwalk⟩ : ∃ out, walkIpv6Ext pkt d.bytes.length kMaxIpv6ExtHeaders
      (firstCode d.proto d.chain) 40 (ipv6Packet pkt) =
        .ok (.upper d.proto (40 + ipv6ChainLength d.chain) out) :=
    ⟨_, walk_chain (hproto ▸ t.notExt) d.chain_le (has_chain h) (by omega) hfirst⟩
  have hrest : out = withWalk (ipv6Packet pkt) out := walkIpv6Ext_rest hwalk
  have hle : ipv6ChainLength d.chain ≤ 16384 := by
    have hcap := ipv6ChainLength_le d.chain
    have hcount := d.chain_le
    simp only [kMaxIpv6ExtHeaders] at hcount
    omega
  rw [parseIp_eq h, hwalk]
  simp only [bind, Except.bind]
  rw [← hend, finishIpv6_upper (by rw [declared h]; omega) (by omega), after_chain h,
    TransportHeader.parse hbody hproto]
  refine ⟨_, rfl, ?_, hproto, rfl, rfl, rfl, ?_, rfl⟩
  · rw [hrest]
    rfl
  · exact Nat.mod_eq_of_lt (by omega : 40 + ipv6ChainLength d.chain < 65536)

/-- With a later fragment there are no ports. -/
theorem parse_later (h : pkt.bytes = d.bytes ++ trailing)
    (hlater : ∃ h ∈ d.chain, h.LaterFragment) :
    ∃ r, parseIp pkt = .ok r ∧ r.valid = true ∧ r.tuple.fragmented = true ∧
      r.tuple.portsValid = false ∧ r.tuple.srcPort = 0 ∧ r.tuple.dstPort = 0 := by
  have hlength := d.bytes_length
  obtain ⟨r, hwalk, hfragmented⟩ := walk_fragment (ipv6Packet pkt) d.chain_le (has_chain h)
    (by omega : _ ≤ d.bytes.length) hlater
  have hrest : r = withWalk (ipv6Packet pkt) r := walkIpv6Ext_rest hwalk
  rw [parseIp_eq h, hwalk]
  refine ⟨r, rfl, ?_, hfragmented, ?_, ?_, ?_⟩
  -- the walk has not touched these
  all_goals
    rw [hrest]
    rfl

end Ipv6Datagram

/-- **Extension headers.**  On an IPv6 packet with at most eight of them, and any trailing
bytes, `parse_ip` finds the transport header behind the chain and exactly its payload,
if no Fragment header has an offset; if one has, the packet is marked as a fragment, and
its ports are not set. -/
theorem ipv6_chain_walked (d : Ipv6Datagram) (pkt : Span) (trailing : List UInt8)
    (hpkt : pkt.bytes = d.bytes ++ trailing) :
    ((∀ h ∈ d.chain, ¬h.LaterFragment) →
      ∀ (t : TransportHeader) (payload : List UInt8), d.proto = t.proto →
        d.body = t.bytes ++ payload →
        ∃ r, parseIp pkt = .ok r ∧ r.valid = true ∧ r.tuple.proto = t.proto ∧
          r.tuple.portsValid = true ∧ r.tuple.srcPort = t.src ∧ r.tuple.dstPort = t.dst ∧
          r.l3HeaderLen.toNat = 40 + ipv6ChainLength d.chain ∧
          r.l4Payload = ⟨pkt.off + (40 + ipv6ChainLength d.chain) + t.bytes.length, payload⟩) ∧
    ((∃ h ∈ d.chain, h.LaterFragment) →
      ∃ r, parseIp pkt = .ok r ∧ r.valid = true ∧ r.tuple.fragmented = true ∧
        r.tuple.portsValid = false ∧ r.tuple.srcPort = 0 ∧ r.tuple.dstPort = 0) := by
  constructor
  · intro hfirst t payload hproto hbody
    exact Ipv6Datagram.parse_first hpkt hfirst hproto hbody
  · intro hlater
    exact Ipv6Datagram.parse_later hpkt hlater

/-- Destination options of 8 bytes. -/
def destOptions : ExtHeader where
  kind := .dest
  len := 0
  body := [1, 4, 0, 0, 0, 0]
  length_eq := rfl

/-- Eight extension headers: Hop-by-Hop, AH, a first fragment, and Destination options. -/
def eightHeaders : List ExtHeader :=
  [⟨.hopByHop, 0, [1, 4, 0, 0, 0, 0], rfl⟩, ⟨.ah, 1, List.replicate 10 7, rfl⟩,
    ⟨.fragment, 0, [0, 1, 0, 0, 0, 5], rfl⟩] ++ List.replicate 5 destOptions

/-- A UDP header from port 1000 to port 2000. -/
def udpPorts : TransportHeader where
  proto := IpProto.udp.code
  src := 1000
  dst := 2000
  rest := [0, 11, 0, 0]
  rest_wf := .udp rfl

def eightHeadersDatagram : Ipv6Datagram where
  head := [0x60, 0, 0, 0]
  hopLimit := 64
  addresses := List.replicate 32 1
  chain := eightHeaders
  proto := udpPorts.proto
  body := udpPorts.bytes ++ [1, 2, 3]
  head_length := rfl
  version := rfl
  addresses_length := rfl
  chain_le := by decide
  length_lt := by decide

theorem ipv6_chain_walked_eight :
    (∀ h ∈ eightHeadersDatagram.chain, ¬h.LaterFragment) ∧
    ∃ r, parseIp (.whole (eightHeadersDatagram.bytes ++ [0xAA])) = .ok r ∧ r.valid = true ∧
      r.tuple.srcPort = 1000 ∧ r.tuple.dstPort = 2000 ∧ r.l3HeaderLen.toNat = 108 ∧
      r.l4Payload = ⟨116, [1, 2, 3]⟩ := by
  have hfirst : ∀ h ∈ eightHeadersDatagram.chain, ¬h.LaterFragment := by decide
  obtain ⟨r, hparse, hvalid, -, -, hsrc, hdst, hlen, hpayload⟩ :=
    (ipv6_chain_walked eightHeadersDatagram (.whole (eightHeadersDatagram.bytes ++ [0xAA]))
      [0xAA] rfl).1 hfirst udpPorts [1, 2, 3] rfl rfl
  exact ⟨hfirst, r, hparse, hvalid, hsrc, hdst, hlen, hpayload⟩

end Packets

end GtpMeter
