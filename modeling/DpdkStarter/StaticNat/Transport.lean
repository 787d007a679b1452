import DpdkStarter.StaticNat.Checksum

/-!
`NAT/static_nat/main.c`: the transport checksum of what leaves `simulate_nat`.

The checksum of TCP and UDP covers a pseudo-header with both addresses, which the
function rewrites; the checksum itself it does not touch.

* `l4Sum`, `L4Valid`: the sum a receiver makes, and that it is right.
* `l4Sum_simulateNat`: how the sum changes.
* `transport_checksum_iff`: a packet that was right is right afterwards exactly
  when both rules apply or neither does.
-/

namespace DpdkStarter.StaticNat

open ByteProgram

/-! ### The sum of a receiver -/

/-- `total_length`. -/
def totalLength (buf : ℕ → UInt8) : ℕ := ((ByteReader.be16 (sizeofEtherHdr + 2)).eval buf).toNat

/-- The fragment offset and the flag for more fragments. -/
def fragment (buf : ℕ → UInt8) : UInt16 :=
  (ByteReader.be16 (sizeofEtherHdr + 6)).eval buf &&& 0x3FFF

/-- `next_proto_id`. -/
def nextProtoId (buf : ℕ → UInt8) : UInt8 := buf (sizeofEtherHdr + 9)

/-- `src_addr`, in host order. -/
def source (buf : ℕ → UInt8) : UInt32 := (ByteReader.be32 srcAddr).eval buf

/-- `dst_addr`, in host order. -/
def destination (buf : ℕ → UInt8) : UInt32 := (ByteReader.be32 dstAddr).eval buf

/-- Where the transport header starts. -/
def l4Offset (buf : ℕ → UInt8) : ℕ := sizeofEtherHdr + headerLen buf

/-- `dgram_len` of a UDP header. -/
def dgramLen (buf : ℕ → UInt8) : ℕ := ((ByteReader.be16 (l4Offset buf + 4)).eval buf).toNat

/-- `dgram_cksum` of a UDP header. -/
def dgramCksum (buf : ℕ → UInt8) : UInt16 := (ByteReader.be16 (l4Offset buf + 6)).eval buf

/-- The length of the transport header and its payload: UDP says it itself. -/
def l4Length (buf : ℕ → UInt8) : ℕ :=
  if nextProtoId buf = ipprotoUdp then dgramLen buf else totalLength buf - headerLen buf

/-- The sum of the words the checksum covers: the addresses, protocol and length of
the pseudo-header, and the transport header with its payload. -/
def l4Sum (buf : ℕ → UInt8) : ℕ :=
  wordSum .big (slice buf srcAddr 8) + (nextProtoId buf).toNat + l4Length buf
    + wordSum .big (slice buf (l4Offset buf) (l4Length buf))

/-- The checksum of TCP or UDP is valid. -/
def L4Valid (buf : ℕ → UInt8) : Prop := fold16 (l4Sum buf) = 65535

/-- An unfragmented IPv4 packet of TCP, or of UDP with a checksum. -/
@[mk_iff]
structure TransportPacket (m : Mbuf) : Prop where
  ipv4 : isIpv4 m
  version : m.data sizeofEtherHdr >>> 4 = 4
  ihl_ge : 5 ≤ ihl m.data
  unfragmented : fragment m.data = 0
  total_le : sizeofEtherHdr + totalLength m.data ≤ m.dataLen.toNat
  transport :
    (nextProtoId m.data = ipprotoTcp ∧ headerLen m.data + sizeofTcpHdr ≤ totalLength m.data) ∨
      (nextProtoId m.data = ipprotoUdp ∧ sizeofUdpHdr ≤ dgramLen m.data ∧
        headerLen m.data + dgramLen m.data ≤ totalLength m.data ∧ dgramCksum m.data ≠ 0)

instance (m : Mbuf) : Decidable (TransportPacket m) :=
  decidable_of_iff' _ (transportPacket_iff m)

/-! ### What the rules do to it -/

/-- The address a rule leaves. -/
def mapped (old new addr : UInt32) : UInt32 := if addr = old then new else addr

/-- What an address adds to the sum. -/
def addrSum (addr : UInt32) : ℕ := wordSum .big (bytes32 .big addr)

lemma slice_addr (buf : ℕ → UInt8) (offset : ℕ) :
    slice buf offset 4 = bytes32 .big ((ByteReader.be32 offset).eval buf) := by
  have hvalue : (ByteReader.be32 offset).eval buf
      = ofHalves (ofBytes (buf offset) (buf (offset + 1)))
          (ofBytes (buf (offset + 2)) (buf (offset + 2 + 1))) := rfl
  rw [hvalue, bytes32, hiHalf_ofHalves, loHalf_ofHalves, bytes16, bytes16, hiByte_ofBytes,
    hiByte_ofBytes, loByte_ofBytes, loByte_ofBytes]
  rfl

lemma slice_rewritten (offset : ℕ) (old new : UInt32) (buf : ℕ → UInt8) :
    slice (rewritten offset old new buf) offset 4
      = bytes32 .big (mapped old new ((ByteReader.be32 offset).eval buf)) := by
  rw [rewritten, mapped]
  split
  · exact slice_putBytes buf offset (bytes32 .big new)
  · exact slice_addr buf offset

/-- One rule leaves the bytes beside its address. -/
lemma slice_rewritten_of_disjoint {offset i n : ℕ} (h : i + n ≤ offset ∨ offset + 4 ≤ i)
    (old new : UInt32) (buf : ℕ → UInt8) :
    slice (rewritten offset old new buf) i n = slice buf i n := by
  rw [rewritten]
  split
  · exact slice_putBytes_of_disjoint (by rwa [length_bytes32]) buf
  · rfl

/-- The addresses in the sum. -/
lemma wordSum_addrs (src dst : UInt32) :
    wordSum .big (bytes32 .big src ++ bytes32 .big dst) = addrSum src + addrSum dst := by
  rw [wordSum_append .big (by rw [length_bytes32]), addrSum, addrSum]

/-- An address is read off its bytes. -/
lemma be32_of_slice {buf : ℕ → UInt8} {offset : ℕ} {addr : UInt32}
    (h : slice buf offset 4 = bytes32 .big addr) : (ByteReader.be32 offset).eval buf = addr := by
  rw [slice_addr] at h
  have hvalue := congrArg beValue h
  rw [beValue_bytes32, beValue_bytes32] at hvalue
  exact UInt32.toNat_inj.mp hvalue

lemma be32_eq_of_slice_eq {buf buf' : ℕ → UInt8} {offset : ℕ}
    (h : slice buf offset 4 = slice buf' offset 4) :
    (ByteReader.be32 offset).eval buf = (ByteReader.be32 offset).eval buf' :=
  be32_of_slice (h.trans (slice_addr buf' offset))

/-- The source address afterwards. -/
lemma slice_cleared_srcAddr (buf : ℕ → UInt8) :
    slice (cleared buf) srcAddr 4 = bytes32 .big (mapped privateIp publicIp (source buf)) := by
  calc slice (cleared buf) srcAddr 4
      = slice (rewritten dstAddr publicIp privateIp
          (rewritten srcAddr privateIp publicIp buf)) srcAddr 4 :=
        slice_putBytes_of_disjoint (Or.inr (le_refl srcAddr)) _
    _ = slice (rewritten srcAddr privateIp publicIp buf) srcAddr 4 :=
        slice_rewritten_of_disjoint (Or.inl (by decide)) _ _ _
    _ = _ := slice_rewritten srcAddr privateIp publicIp buf

/-- The destination address afterwards. -/
lemma slice_cleared_dstAddr (buf : ℕ → UInt8) :
    slice (cleared buf) dstAddr 4
      = bytes32 .big (mapped publicIp privateIp (destination buf)) := by
  have hbeside : slice (rewritten srcAddr privateIp publicIp buf) dstAddr 4
      = slice buf dstAddr 4 := slice_rewritten_of_disjoint (Or.inr (le_refl dstAddr)) _ _ _
  calc slice (cleared buf) dstAddr 4
      = slice (rewritten dstAddr publicIp privateIp
          (rewritten srcAddr privateIp publicIp buf)) dstAddr 4 :=
        slice_putBytes_of_disjoint (Or.inr (by decide)) _
    _ = _ := by rw [slice_rewritten, be32_eq_of_slice_eq hbeside, destination]

/-- Both addresses afterwards. -/
lemma slice_cleared (buf : ℕ → UInt8) :
    slice (cleared buf) srcAddr 8 = bytes32 .big (mapped privateIp publicIp (source buf))
      ++ bytes32 .big (mapped publicIp privateIp (destination buf)) := by
  calc slice (cleared buf) srcAddr 8
      = slice (cleared buf) srcAddr 4 ++ slice (cleared buf) dstAddr 4 :=
        slice_add (cleared buf) srcAddr 4 4
    _ = _ := by rw [slice_cleared_srcAddr, slice_cleared_dstAddr]

section Sum

variable {rteIpv4Cksum : ByteReader UInt16} {e : Endian} {m : Mbuf} (hipv4 : isIpv4 m)

include hipv4

/-- Apart from the checksum, the function leaves what the rules leave. -/
lemma simulateNat_data_of_notMem {j : ℕ} (hj : j < 24 ∨ 26 ≤ j) :
    (simulateNat rteIpv4Cksum e m).2.data j = cleared m.data j := by
  have hbeside : j < hdrChecksum ∨
      hdrChecksum + (bytes16 e (rteIpv4Cksum.eval (cleared m.data))).length ≤ j := by
    rw [length_bytes16]
    exact hj
  rw [simulateNat_data _ _ hipv4, putBytes_of_notMem hbeside]

/-- Neither the fixed fields before the checksum nor what lies behind the addresses
is written. -/
lemma simulateNat_data_beside {j : ℕ} (hj : j < 24 ∨ 34 ≤ j) :
    (simulateNat rteIpv4Cksum e m).2.data j = m.data j := by
  rw [simulateNat_data_of_notMem hipv4 (by omega), cleared_of_notMem hj]

lemma headerLen_simulateNat :
    headerLen (simulateNat rteIpv4Cksum e m).2.data = headerLen m.data := by
  rw [headerLen, headerLen, ihl, ihl, simulateNat_data_beside hipv4 (Or.inl (by decide))]

lemma nextProtoId_simulateNat :
    nextProtoId (simulateNat rteIpv4Cksum e m).2.data = nextProtoId m.data :=
  simulateNat_data_beside hipv4 (Or.inl (by decide))

lemma totalLength_simulateNat :
    totalLength (simulateNat rteIpv4Cksum e m).2.data = totalLength m.data := by
  rw [totalLength, totalLength, ByteReader.eval_be16, ByteReader.eval_be16,
    simulateNat_data_beside hipv4 (Or.inl (by decide)),
    simulateNat_data_beside hipv4 (Or.inl (by decide))]

lemma dgramLen_simulateNat (hl4 : 34 ≤ l4Offset m.data) :
    dgramLen (simulateNat rteIpv4Cksum e m).2.data = dgramLen m.data := by
  rw [dgramLen, dgramLen, l4Offset, headerLen_simulateNat hipv4, ← l4Offset, ByteReader.eval_be16,
    ByteReader.eval_be16, simulateNat_data_beside hipv4 (Or.inr (by omega)),
    simulateNat_data_beside hipv4 (Or.inr (by omega))]

lemma l4Length_simulateNat (hl4 : 34 ≤ l4Offset m.data) :
    l4Length (simulateNat rteIpv4Cksum e m).2.data = l4Length m.data := by
  rw [l4Length, l4Length, nextProtoId_simulateNat hipv4, dgramLen_simulateNat hipv4 hl4,
    totalLength_simulateNat hipv4, headerLen_simulateNat hipv4]

/-- **The sum** of the words the transport checksum covers changes by what the
rules change in the addresses. -/
lemma l4Sum_simulateNat (hihl : 5 ≤ ihl m.data) :
    l4Sum (simulateNat rteIpv4Cksum e m).2.data + addrSum (source m.data)
        + addrSum (destination m.data)
      = l4Sum m.data + addrSum (mapped privateIp publicIp (source m.data))
        + addrSum (mapped publicIp privateIp (destination m.data)) := by
  have hl4 : 34 ≤ l4Offset m.data := by
    rw [l4Offset, headerLen, sizeofEtherHdr]
    omega
  have haddrs : slice (simulateNat rteIpv4Cksum e m).2.data srcAddr 8
      = bytes32 .big (mapped privateIp publicIp (source m.data))
        ++ bytes32 .big (mapped publicIp privateIp (destination m.data)) := by
    rw [← slice_cleared]
    exact slice_congr fun j hj _ => simulateNat_data_of_notMem hipv4 (Or.inr hj)
  have haddrs' : slice m.data srcAddr 8
      = bytes32 .big (source m.data) ++ bytes32 .big (destination m.data) := by
    rw [source, destination, ← slice_addr, ← slice_addr]
    exact slice_add m.data srcAddr 4 4
  have hsegment : slice (simulateNat rteIpv4Cksum e m).2.data (l4Offset m.data) (l4Length m.data)
      = slice m.data (l4Offset m.data) (l4Length m.data) :=
    slice_congr fun j hj _ => simulateNat_data_beside hipv4 (Or.inr (hl4.trans hj))
  have hoffset : l4Offset (simulateNat rteIpv4Cksum e m).2.data = l4Offset m.data := by
    rw [l4Offset, headerLen_simulateNat hipv4, l4Offset]
  rw [l4Sum, l4Sum, haddrs, haddrs', wordSum_addrs, wordSum_addrs, nextProtoId_simulateNat hipv4,
    l4Length_simulateNat hipv4 hl4, hoffset, hsegment]
  omega

end Sum

/-- **The transport checksum** of a packet that was valid on arrival is valid
afterwards exactly when both rules apply or neither does. -/
theorem transport_checksum_iff (rteIpv4Cksum : ByteReader UInt16) (e : Endian) (m : Mbuf)
    (hpacket : TransportPacket m) (hvalid : L4Valid m.data) :
    L4Valid (simulateNat rteIpv4Cksum e m).2.data
      ↔ (source m.data = privateIp ↔ destination m.data = publicIp) := by
  have hsum := @l4Sum_simulateNat rteIpv4Cksum e m hpacket.ipv4 hpacket.ihl_ge
  have hprivate : addrSum privateIp = 73820 := by decide
  have hpublic : addrSum publicIp = 80906 := by decide
  rw [L4Valid, fold16_eq_ones_iff] at hvalid ⊢
  by_cases hsrc : source m.data = privateIp
  · by_cases hdst : destination m.data = publicIp
    · rw [hsrc, hdst, mapped, mapped, if_pos rfl, if_pos rfl] at hsum
      have hsame : l4Sum (simulateNat rteIpv4Cksum e m).2.data = l4Sum m.data := by omega
      rw [hsame]
      exact iff_of_true hvalid (iff_of_true hsrc hdst)
    · rw [hsrc, mapped, mapped, if_pos rfl, if_neg hdst, hprivate, hpublic] at hsum
      refine iff_of_false ?_ fun h => hdst (h.mp hsrc)
      omega
  · by_cases hdst : destination m.data = publicIp
    · rw [hdst, mapped, mapped, if_neg hsrc, if_pos rfl, hprivate, hpublic] at hsum
      refine iff_of_false ?_ fun h => hsrc (h.mpr hdst)
      omega
    · rw [mapped, mapped, if_neg hsrc, if_neg hdst] at hsum
      have hsame : l4Sum (simulateNat rteIpv4Cksum e m).2.data = l4Sum m.data := by omega
      rw [hsame]
      exact iff_of_true hvalid (iff_of_false hsrc hdst)

/-- A name lookup with those addresses and that checksum. -/
def lookup (src dst cksum : List UInt8) : Mbuf :=
  frame 42 (List.replicate 12 0
    ++ [0x08, 0x00, 0x45, 0, 0, 28, 0, 0, 0, 0, 64, 17, 0, 0] ++ src ++ dst
    ++ [0, 0, 0, 53, 0, 8] ++ cksum)

/-- To a public server, and with a valid checksum. -/
def outboundLookup : Mbuf := lookup [172, 22, 116, 70] [8, 8, 8, 8] [207, 60]

/-- To the address it is sent from outside, and with a valid checksum. -/
def returnedLookup : Mbuf := lookup [172, 22, 116, 70] [203, 0, 113, 10] [163, 65]

/-- What the outbound rule translates leaves with an invalid checksum. -/
theorem outbound_lookup_invalid :
    ¬∀ (rteIpv4Cksum : ByteReader UInt16) (e : Endian) (m : Mbuf),
      IsIpv4Cksum e rteIpv4Cksum → TransportPacket m → L4Valid m.data →
        L4Valid (simulateNat rteIpv4Cksum e m).2.data := by
  intro h
  have hpacket : TransportPacket outboundLookup := by decide
  have harrival : l4Sum outboundLookup.data = 131070 := by decide
  have hsrc : addrSum (source outboundLookup.data) = 73820 := by decide
  have hdst : addrSum (destination outboundLookup.data) = 4112 := by decide
  have hsrc' : addrSum (mapped privateIp publicIp (source outboundLookup.data)) = 80906 := by decide
  have hdst' : addrSum (mapped publicIp privateIp (destination outboundLookup.data)) = 4112 := by
    decide
  have hvalid := h (ipv4Cksum .little) .little _ (isIpv4Cksum_ipv4Cksum .little) hpacket (by
    rw [L4Valid, harrival, fold16_eq_ones_iff]
    decide)
  have hsum := @l4Sum_simulateNat (ipv4Cksum .little) .little _ hpacket.ipv4 hpacket.ihl_ge
  rw [hsrc, hdst, hsrc', hdst', harrival] at hsum
  rw [L4Valid, fold16_eq_ones_iff] at hvalid
  omega

theorem both_rules_lookup_valid :
    L4Valid (simulateNat (ipv4Cksum .little) .little returnedLookup).2.data := by
  have hpacket : TransportPacket returnedLookup := by decide
  have harrival : l4Sum returnedLookup.data = 196605 := by decide
  have hvalid : L4Valid returnedLookup.data := by
    rw [L4Valid, harrival, fold16_eq_ones_iff]
    decide
  exact (transport_checksum_iff _ _ _ hpacket hvalid).mpr (by decide)

end DpdkStarter.StaticNat
