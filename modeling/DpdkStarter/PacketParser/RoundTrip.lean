import DpdkStarter.Packet.Frame
import DpdkStarter.PacketParser.ParsePacket

/-!
`parse_packet` against the frames themselves: what it prints for a buffer that carries the
encoding of a frame.

* `Frame.lines`: the fields of a frame, as a reader of the output expects them.
* `linesOn`, `parsePacket_carries`: what is printed on a host of either byte order. The
  function takes the octets of an address out of a 32-bit load that it does not convert,
  so the host decides in which order they come.
* `parsePacket_encode_iff`: the output is that of the frame exactly on little-endian hosts,
  or when the addresses read the same backwards.
-/

namespace DpdkStarter.PacketParser

open Segregation

/-! ### What a frame says -/

/-- The eight bits of a number from the given one on. -/
def octet (v k : UInt32) : UInt32 := v >>> k &&& 0xFF

/-- An address by its octets, first octet first. -/
def dottedDecimal (line : UInt32 → UInt32 → UInt32 → UInt32 → Line) (addr : UInt32) : Line :=
  line (octet addr 24) (octet addr 16) (octet addr 8) (octet addr 0)

/-- The lines of a transport header behind an IPv4 header. -/
def l4Lines : L4Header → List Line
  | .udp srcPort dstPort _ _ => [.l4 .udp, .srcPort srcPort, .dstPort dstPort]
  | .tcp srcPort dstPort sentSeq recvAck _ tcpFlags _ _ _ =>
      [.l4 .tcp, .srcPort srcPort, .dstPort dstPort, .seqNum sentSeq, .ackNum recvAck,
        .flags tcpFlags]
  | .icmp icmpType icmpCode _ _ _ => [.l4 .icmp, .icmpType icmpType, .icmpCode icmpCode]
  | .other _ _ => []

/-- The lines of a transport header behind an IPv6 header. -/
def l4Ipv6Lines : L4Header → List Line
  | .udp srcPort dstPort _ _ => [.l4Ipv6 .udp, .srcPort srcPort, .dstPort dstPort]
  | .tcp srcPort dstPort _ _ _ _ _ _ _ => [.l4Ipv6 .tcp, .srcPort srcPort, .dstPort dstPort]
  | .icmp .. | .other .. => []

/-- The lines of a packet, with the way an IPv4 address is printed. -/
def networkLines (address : (UInt32 → UInt32 → UInt32 → UInt32 → Line) → UInt32 → Line) :
    Network → List Line
  | .ipv4 hdr l4 => .ipv4 :: address .srcIp hdr.srcAddr :: address .dstIp hdr.dstAddr :: l4Lines l4
  | .ipv6 hdr l4 => .ipv6 :: .srcIpv6 hdr.srcAddr :: .dstIpv6 hdr.dstAddr :: l4Ipv6Lines l4
  | .other _ _ => []

/-- The lines of a frame, with the way an IPv4 address is printed. -/
def frameLines (address : (UInt32 → UInt32 → UInt32 → UInt32 → Line) → UInt32 → Line)
    (d : Frame) : List Line :=
  .packetParsing :: .ethernet :: .srcMac d.srcAddr.bytes :: .dstMac d.dstAddr.bytes ::
    (d.vlanTci.toList.map .vlanTag ++ networkLines address d.network)

/-- The fields of a frame. -/
def lines (d : Frame) : List Line := frameLines dottedDecimal d

/-- The lines printed on a host, which takes the octets out of its own load. -/
def linesOn (e : Endian) (d : Frame) : List Line :=
  frameLines (fun line addr => dotted line (beToCpu32 e addr)) d

/-! ### What is printed -/

variable {buf : ℕ → UInt8}

lemma eval_parsePorts {offset : UInt16} {i : ℕ} (hoffset : offset.toNat = i)
    {srcPort dstPort : UInt16} {rest : List UInt8}
    (h : Carries buf i (bytes16 .big srcPort ++ (bytes16 .big dstPort ++ rest))) :
    (parsePorts offset).eval buf = [.srcPort srcPort, .dstPort dstPort] := by
  simp only [carries_append, length_bytes16] at h
  rw [parsePorts, ByteReader.eval_bind, ByteReader.eval_bind, ByteReader.eval_pure, hoffset,
    h.1.be16, h.2.1.be16]

lemma eval_parseIpv4L4 {offset : UInt16} {i : ℕ} (hoffset : offset.toNat = i) {l4 : L4Header}
    (h : Carries buf i l4.encode) : (parseIpv4L4 offset l4.proto).eval buf = l4Lines l4 := by
  cases l4 with
  | udp srcPort dstPort dgramLen dgramCksum =>
      rw [L4Header.proto, parseIpv4L4, if_pos rfl, ByteReader.eval_bind, ByteReader.eval_pure,
        eval_parsePorts hoffset h]
      rfl
  | tcp srcPort dstPort sentSeq recvAck dataOff tcpFlags rxWin cksum tcpUrp =>
      have hports := eval_parsePorts hoffset h
      simp only [L4Header.encode, carries_append, carries_cons, length_bytes16,
        length_bytes32, Nat.add_assoc, Nat.reduceAdd] at h
      obtain ⟨-, -, hseq, hack, -, hflags, -⟩ := h
      rw [L4Header.proto, parseIpv4L4, if_neg (by decide), if_pos rfl]
      simp only [ByteReader.eval_bind, ByteReader.eval_pure, ByteReader.eval_byte, hports, hoffset,
        hseq.be32, hack.be32, hflags]
      rfl
  | icmp icmpType icmpCode icmpCksum icmpIdent icmpSeqNb =>
      simp only [L4Header.encode, carries_cons] at h
      rw [L4Header.proto, parseIpv4L4, if_neg (by decide), if_neg (by decide), if_pos rfl]
      simp only [ByteReader.eval_bind, ByteReader.eval_pure, ByteReader.eval_byte, hoffset, h.1,
        h.2.1]
      rfl
  | other proto hproto =>
      simp only [List.mem_cons, List.not_mem_nil, or_false, not_or] at hproto
      rw [L4Header.proto, parseIpv4L4, if_neg hproto.1, if_neg hproto.2.1, if_neg hproto.2.2]
      rfl

lemma eval_parseIpv6L4 {offset : UInt16} {i : ℕ} (hoffset : offset.toNat = i) {l4 : L4Header}
    (h : Carries buf i l4.encode) : (parseIpv6L4 offset l4.proto).eval buf = l4Ipv6Lines l4 := by
  cases l4 with
  | udp srcPort dstPort dgramLen dgramCksum =>
      rw [L4Header.proto, parseIpv6L4, if_pos rfl, ByteReader.eval_bind, ByteReader.eval_pure,
        eval_parsePorts hoffset h]
      rfl
  | tcp srcPort dstPort sentSeq recvAck dataOff tcpFlags rxWin cksum tcpUrp =>
      rw [L4Header.proto, parseIpv6L4, if_neg (by decide), if_pos rfl, ByteReader.eval_bind,
        ByteReader.eval_pure, eval_parsePorts hoffset h]
      rfl
  | icmp icmpType icmpCode icmpCksum icmpIdent icmpSeqNb =>
      rw [L4Header.proto, parseIpv6L4, if_neg (by decide), if_neg (by decide)]
      rfl
  | other proto hproto =>
      simp only [List.mem_cons, List.not_mem_nil, or_false, not_or] at hproto
      rw [L4Header.proto, parseIpv6L4, if_neg hproto.1, if_neg hproto.2.1]
      rfl

/-- The options are skipped by the length nibble. -/
lemma eval_parseIpv4 (e : Endian) {offset : UInt16} {i : ℕ} (hoffset : offset.toNat = i)
    (hi : i ≤ 18) {hdr : Ipv4Header} {l4 : L4Header}
    (h : Carries buf i (Network.ipv4 hdr l4).encode) :
    (parseIpv4 e offset).eval buf
      = networkLines (fun line addr => dotted line (beToCpu32 e addr)) (.ipv4 hdr l4) := by
  rw [Network.encode, carries_append, Ipv4Header.length_encode] at h
  obtain ⟨hversion, -, -, -, -, -, hproto, -, hsrc, hdst, -⟩ := carries_ipv4Header.mp h.1
  have hl4 : (offset + (hdr.versionIhl &&& 0x0F).toUInt16 * 4).toNat
      = i + (20 + hdr.options.length) := by
    have hihl := hdr.ihl_toNat
    have hle := hdr.options_le
    simp only [UInt16.toNat_add, UInt16.toNat_mul, UInt8.toNat_toUInt16, UInt16.reduceToNat]
    omega
  simp only [parseIpv4, ByteReader.eval_bind, ByteReader.eval_pure, ByteReader.eval_byte, hoffset,
    hsrc.load32 e, hdst.load32 e, hproto, hversion, eval_parseIpv4L4 hl4 h.2]
  rfl

lemma eval_parseIpv6 {offset : UInt16} {i : ℕ} (hoffset : offset.toNat = i) (hi : i ≤ 18)
    {hdr : Ipv6Header} {l4 : L4Header} (h : Carries buf i (Network.ipv6 hdr l4).encode)
    (address : (UInt32 → UInt32 → UInt32 → UInt32 → Line) → UInt32 → Line) :
    (parseIpv6 offset).eval buf = networkLines address (.ipv6 hdr l4) := by
  rw [Network.encode, carries_append, Ipv6Header.length_encode] at h
  obtain ⟨hproto, hsrc, hdst⟩ := h.1.ipv6Header
  have hl4 : (offset + sizeofIpv6Hdr.toUInt16).toNat = i + 40 := by
    have h40 : sizeofIpv6Hdr.toUInt16.toNat = 40 := rfl
    rw [UInt16.toNat_add, h40]
    omega
  have hsrc' := hsrc.bytes
  have hdst' := hdst.bytes
  rw [hdr.length_srcAddr] at hsrc'
  rw [hdr.length_dstAddr] at hdst'
  simp only [parseIpv6, ByteReader.eval_bind, ByteReader.eval_pure, ByteReader.eval_byte, hoffset,
    hsrc', hdst', hproto, eval_parseIpv6L4 hl4 h.2]
  rfl

lemma eval_parseL3 (e : Endian) {offset : UInt16} {i : ℕ} (hoffset : offset.toNat = i)
    (hi : i ≤ 18) {network : Network} (h : Carries buf i network.encode) :
    (parseL3 e offset network.etherType).eval buf
      = networkLines (fun line addr => dotted line (beToCpu32 e addr)) network := by
  cases network with
  | ipv4 hdr l4 =>
      rw [Network.etherType, parseL3, if_pos rfl]
      exact eval_parseIpv4 e hoffset hi h
  | ipv6 hdr l4 =>
      rw [Network.etherType, parseL3, if_neg (by decide), if_pos rfl]
      exact eval_parseIpv6 hoffset hi h _
  | other type htype =>
      simp only [List.mem_cons, List.not_mem_nil, or_false, not_or] at htype
      rw [Network.etherType, parseL3, if_neg htype.1, if_neg htype.2.1]
      rfl

/-- **What is printed for a frame**, on a host of either byte order. -/
lemma parsePacket_carries (e : Endian) {m : Mbuf} {d : Frame} (h : Carries m.data 0 d.encode) :
    parsePacket e m = linesOn e d := by
  obtain ⟨hdst, hsrc, htag, htype, hnetwork, -⟩ := carries_frame.mp h
  have hdst' := hdst.bytes
  have hsrc' := hsrc.bytes
  rw [d.dstAddr.length_bytes] at hdst'
  rw [d.srcAddr.length_bytes] at hsrc'
  have hrest : (parseVlan e sizeofEtherHdr.toUInt16 (etherType.eval m.data)).eval m.data
      = d.vlanTci.toList.map .vlanTag
        ++ networkLines (fun line addr => dotted line (beToCpu32 e addr)) d.network := by
    rw [Frame.l3Offset] at htype hnetwork
    cases hvlan : d.vlanTci with
    | none =>
        rw [hvlan] at htype hnetwork
        have htype' : Carries m.data 12 (bytes16 .big d.network.etherType) := htype
        have hoffset : sizeofEtherHdr.toUInt16.toNat = 14 := rfl
        rw [etherType, htype'.be16, parseVlan, if_neg d.network.etherType_ne_vlan]
        exact eval_parseL3 e hoffset (by decide) hnetwork
    | some tci =>
        rw [hvlan] at htag htype hnetwork
        rw [encodeTag, carries_append] at htag
        have htci : Carries m.data 14 (bytes16 .big tci) := htag.2
        have htype' : Carries m.data 16 (bytes16 .big d.network.etherType) := htype
        have hoffset : (sizeofEtherHdr.toUInt16 + sizeofVlanHdr.toUInt16).toNat = 18 := rfl
        have hl3 := eval_parseL3 e hoffset le_rfl hnetwork
        rw [etherType, htag.1.be16, parseVlan, if_pos rfl]
        simp only [ByteReader.eval_bind, ByteReader.eval_pure]
        rw [show sizeofEtherHdr.toUInt16.toNat = 14 from rfl, htci.be16, htype'.be16, hl3]
        rfl
  rw [parsePacket, parse]
  simp only [ByteReader.eval_bind, ByteReader.eval_pure, hdst', hsrc', hrest]
  rfl

/-! ### Which host prints the fields -/

lemma toNat_octet (v k : UInt32) : (octet v k).toNat = v.toNat / 2 ^ (k.toNat % 32) % 256 := by
  have hmask : (0xFF : UInt32).toNat = 2 ^ 8 - 1 := rfl
  rw [octet, UInt32.toNat_and, UInt32.toNat_shiftRight, hmask, Nat.and_two_pow_sub_one_eq_mod,
    Nat.shiftRight_eq_div_pow]

/-- The octets of a number put together from bytes are the bytes. -/
lemma octet_ofHalves (a b c d : UInt8) (v : UInt32)
    (hv : v = ofHalves (ofBytes a b) (ofBytes c d)) :
    octet v 24 = a.toUInt32 ∧ octet v 16 = b.toUInt32 ∧ octet v 8 = c.toUInt32 ∧
    octet v 0 = d.toUInt32 := by
  have ha := a.toNat_lt
  have hb := b.toNat_lt
  have hc := c.toNat_lt
  have hd := d.toNat_lt
  simp only [← UInt32.toNat_inj, toNat_octet, hv, toNat_ofHalves, toNat_ofBytes,
    UInt8.toNat_toUInt32, UInt32.reduceToNat, Nat.reduceMod, Nat.reducePow]
  omega

/-- Every number is put together from bytes. -/
lemma exists_bytes (v : UInt32) : ∃ a b c d, v = ofHalves (ofBytes a b) (ofBytes c d) :=
  ⟨hiByte (hiHalf v), loByte (hiHalf v), hiByte (loHalf v), loByte (loHalf v), by simp⟩

/-- The octets of a number determine it. -/
lemma eq_of_octets {v w : UInt32} (h0 : octet v 0 = octet w 0) (h8 : octet v 8 = octet w 8)
    (h16 : octet v 16 = octet w 16) (h24 : octet v 24 = octet w 24) : v = w := by
  obtain ⟨a, b, c, d, hv⟩ := exists_bytes v
  obtain ⟨a', b', c', d', hw⟩ := exists_bytes w
  obtain ⟨va, vb, vc, vd⟩ := octet_ofHalves a b c d v hv
  obtain ⟨wa, wb, wc, wd⟩ := octet_ofHalves a' b' c' d' w hw
  have hinj : ∀ x y : UInt8, x.toUInt32 = y.toUInt32 → x = y := by
    intro x y hxy
    rw [← UInt8.toNat_inj, ← UInt8.toNat_toUInt32, hxy, UInt8.toNat_toUInt32]
  rw [hv, hw, hinj a a' (by rw [← va, ← wa, h24]), hinj b b' (by rw [← vb, ← wb, h16]),
    hinj c c' (by rw [← vc, ← wc, h8]), hinj d d' (by rw [← vd, ← wd, h0])]

/-- Swapping the bytes puts the octets in reverse. -/
lemma octet_bswap32 (v : UInt32) :
    octet (bswap32 v) 0 = octet v 24 ∧ octet (bswap32 v) 8 = octet v 16 ∧
    octet (bswap32 v) 16 = octet v 8 ∧ octet (bswap32 v) 24 = octet v 0 := by
  obtain ⟨a, b, c, d, hv⟩ := exists_bytes v
  have hswap : bswap32 v = ofHalves (ofBytes d c) (ofBytes b a) := by
    rw [hv]
    simp [bswap32, bswap16]
  obtain ⟨va, vb, vc, vd⟩ := octet_ofHalves a b c d v hv
  obtain ⟨wd, wc, wb, wa⟩ := octet_ofHalves d c b a (bswap32 v) hswap
  exact ⟨wa.trans va.symm, wb.trans vb.symm, wc.trans vc.symm, wd.trans vd.symm⟩

/-- What the function prints are the octets of the load from the last to the first. -/
lemma dotted_eq (line : UInt32 → UInt32 → UInt32 → UInt32 → Line) (v : UInt32) :
    dotted line v = line (octet v 0) (octet v 8) (octet v 16) (octet v 24) := by
  simp [dotted, octet]

lemma dottedDecimal_eq (line : UInt32 → UInt32 → UInt32 → UInt32 → Line) (addr : UInt32) :
    dottedDecimal line addr = dotted line (bswap32 addr) := by
  obtain ⟨h0, h8, h16, h24⟩ := octet_bswap32 addr
  rw [dottedDecimal, dotted_eq, h0, h8, h16, h24]

/-- An address is printed right when the host's load has its bytes in reverse. -/
lemma srcIp_dotted_eq_iff {v w : UInt32} : dotted .srcIp v = dotted .srcIp w ↔ v = w := by
  constructor
  · intro h
    rw [dotted_eq, dotted_eq, Line.srcIp.injEq] at h
    exact eq_of_octets h.1 h.2.1 h.2.2.1 h.2.2.2
  · rintro rfl
    rfl

lemma dstIp_dotted_eq_iff {v w : UInt32} : dotted .dstIp v = dotted .dstIp w ↔ v = w := by
  constructor
  · intro h
    rw [dotted_eq, dotted_eq, Line.dstIp.injEq] at h
    exact eq_of_octets h.1 h.2.1 h.2.2.1 h.2.2.2
  · rintro rfl
    rfl

/-- The IPv4 addresses of the frame, if it has any, read the same backwards. -/
def ReadsBackwards (d : Frame) : Prop :=
  match d.network with
  | .ipv4 hdr _ => bswap32 hdr.srcAddr = hdr.srcAddr ∧ bswap32 hdr.dstAddr = hdr.dstAddr
  | .ipv6 _ _ | .other _ _ => True

/-- On a little-endian host the octets come in order. -/
lemma linesOn_little (d : Frame) : linesOn .little d = lines d := by
  have hlittle : (fun line addr => dotted line (beToCpu32 .little addr)) = dottedDecimal := by
    funext line addr
    exact (dottedDecimal_eq line addr).symm
  rw [linesOn, lines, hlittle]

/-- **The round trip.** For every frame with any tag, options and payload, in any buffer
that carries its encoding, `parse_packet` prints the fields of the frame exactly when the
host is little-endian or the IPv4 addresses read the same backwards; on the others the two
addresses come out with their octets in reverse, and nothing else changes. -/
theorem parsePacket_encode_iff (e : Endian) (m : Mbuf) (d : Frame) (h : Carries m.data 0 d.encode) :
    (parsePacket e m = lines d ↔ e = .little ∨ ReadsBackwards d) ∧
    parsePacket .big m = frameLines (fun line addr => dottedDecimal line (bswap32 addr)) d := by
  have haddress : (fun line addr => dottedDecimal line (bswap32 addr))
      = fun line addr => dotted line (beToCpu32 .big addr) := by
    funext line addr
    rw [dottedDecimal_eq, bswap32_bswap32]
    rfl
  refine ⟨?_, by rw [parsePacket_carries .big h, linesOn, haddress]⟩
  rw [parsePacket_carries e h]
  cases e with
  | little => simp only [linesOn_little, true_or]
  | big =>
      rw [linesOn, lines]
      simp only [frameLines, List.cons.injEq, List.append_cancel_left_eq, true_and, reduceCtorEq,
        false_or, ReadsBackwards]
      cases d.network with
      | ipv4 hdr l4 =>
          simp only [networkLines, dottedDecimal_eq, List.cons.injEq, srcIp_dotted_eq_iff,
            dstIp_dotted_eq_iff, beToCpu32, true_and, and_true, eq_comm]
      | ipv6 | other => simp only [networkLines]

/-- A tagged query to a name server, with a word of options in the IPv4 header. -/
def taggedQuery : Frame where
  dstAddr := .ofHost 1
  srcAddr := .ofHost 2
  vlanTci := some 5
  network := .ipv4
    { typeOfService := 0, totalLength := 32, packetId := 7, fragmentOffset := 0, timeToLive := 64
      hdrChecksum := 0, srcAddr := rteIpv4 10 0 0 1, dstAddr := rteIpv4 10 0 0 2
      options := [1, 1, 1, 1]
      options_words := ⟨1, rfl⟩
      options_le := by decide }
    (.udp 12345 53 8 0)
  payload := []

/-- Its source address comes out in reverse on a big-endian host. -/
theorem parsePacket_encode_tagged :
    parsePacket .little taggedQuery.toMbuf = lines taggedQuery ∧
      parsePacket .big taggedQuery.toMbuf ≠ lines taggedQuery := by
  have hcarries := (Frame.holds_toMbuf (d := taggedQuery) (by decide)).data
  refine ⟨(parsePacket_encode_iff .little _ _ hcarries).1.mpr (Or.inl rfl), fun h => ?_⟩
  rcases (parsePacket_encode_iff .big _ _ hcarries).1.mp h with hlittle | ⟨hsrc, -⟩
  · exact absurd hlittle (by decide)
  · exact absurd hsrc (by decide)

end DpdkStarter.PacketParser
