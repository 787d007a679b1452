import DpdkStarter.Library.ByteProgram
import DpdkStarter.Segregation.Headers

/-!
`thread_parsing/threaded_project/parser.c` and
`ports/packet_parsing/packet_parsing.c`: `parse_packet`, which is the same function
in both, and which bytes it looks at.

The function never asks for the data length, so a short frame is parsed like a
long one, with whatever the buffer holds behind it.

* `parse`: the function as a program over the bytes behind the packet pointer;
  `Line`: what it prints.
* `HeadersInside`: the frame holds every field that is printed or followed.
* `parse_readsBelow_iff`: which frames are parsed without a read behind their end.
* `parse_inside_iff`: these are the frames whose output depends on no other byte.
-/

namespace DpdkStarter.PacketParser

open Segregation

/-- The transport protocols the function knows. -/
inductive Transport where
  | udp | tcp | icmp
  deriving DecidableEq, Repr

/-- A `printf` of the function, with the values printed. -/
inductive Line where
  /-- `========== PACKET PARSING ==========` -/
  | packetParsing
  /-- `L2: Ethernet` -/
  | ethernet
  | srcMac (a : List UInt8)
  | dstMac (a : List UInt8)
  /-- `L2: VLAN Tag - TCI=` -/
  | vlanTag (tci : UInt16)
  /-- `L3: IPv4` -/
  | ipv4
  | srcIp (a b c d : UInt32)
  | dstIp (a b c d : UInt32)
  /-- `L3: IPv6` -/
  | ipv6
  | srcIpv6 (a : List UInt8)
  | dstIpv6 (a : List UInt8)
  /-- `L4: UDP`, `L4: TCP` and `L4: ICMP` -/
  | l4 (t : Transport)
  /-- `L4: UDP (IPv6)` and `L4: TCP (IPv6)` -/
  | l4Ipv6 (t : Transport)
  | srcPort (port : UInt16)
  | dstPort (port : UInt16)
  | seqNum (n : UInt32)
  | ackNum (n : UInt32)
  | flags (f : UInt8)
  | icmpType (t : UInt8)
  | icmpCode (c : UInt8)
  deriving DecidableEq, Repr

/-- `sizeof(struct rte_ipv6_hdr)`. -/
def sizeofIpv6Hdr : ℕ := 40

/-- The four numbers printed for an address loaded in the byte order of the host. -/
def dotted (line : UInt32 → UInt32 → UInt32 → UInt32 → Line) (addr : UInt32) : Line :=
  line (addr &&& 0xFF) (addr >>> 8 &&& 0xFF) (addr >>> 16 &&& 0xFF) (addr >>> 24 &&& 0xFF)

/-- The two ports of a transport header. -/
def parsePorts (offset : UInt16) : ByteReader (List Line) := do
  let srcPort ← .be16 offset.toNat
  let dstPort ← .be16 (offset.toNat + 2)
  return [.srcPort srcPort, .dstPort dstPort]

/-- `parse_packet` after `offset += ihl`. What it adds to `offset` further down is
never used; the length of the TCP header is loaded for it all the same. -/
def parseIpv4L4 (offset : UInt16) (proto : UInt8) : ByteReader (List Line) :=
  if proto = ipprotoUdp then do
    let ports ← parsePorts offset
    return .l4 .udp :: ports
  else if proto = ipprotoTcp then do
    let ports ← parsePorts offset
    let seq ← .be32 (offset.toNat + 4)
    let ack ← .be32 (offset.toNat + 8)
    let tcpFlags ← .byte (offset.toNat + 13)
    let _dataOff ← ByteReader.byte (offset.toNat + 12)
    return .l4 .tcp :: ports ++ [.seqNum seq, .ackNum ack, .flags tcpFlags]
  else if proto = ipprotoIcmp then do
    let icmpType ← .byte offset.toNat
    let icmpCode ← .byte (offset.toNat + 1)
    return [.l4 .icmp, .icmpType icmpType, .icmpCode icmpCode]
  else return []

/-- The IPv4 branch; `offset` is that of the network header. -/
def parseIpv4 (e : Endian) (offset : UInt16) : ByteReader (List Line) := do
  let srcAddr ← .load32 e (offset.toNat + 12)
  let dstAddr ← .load32 e (offset.toNat + 16)
  let proto ← .byte (offset.toNat + 9)
  let versionIhl ← .byte offset.toNat
  let ihl : UInt16 := (versionIhl &&& 0x0F).toUInt16 * 4
  let rest ← parseIpv4L4 (offset + ihl) proto
  return .ipv4 :: dotted .srcIp srcAddr :: dotted .dstIp dstAddr :: rest

/-- The IPv6 branch from the test of the protocol on. -/
def parseIpv6L4 (offset : UInt16) (proto : UInt8) : ByteReader (List Line) :=
  if proto = ipprotoUdp then do
    let ports ← parsePorts offset
    return .l4Ipv6 .udp :: ports
  else if proto = ipprotoTcp then do
    let ports ← parsePorts offset
    return .l4Ipv6 .tcp :: ports
  else return []

/-- The IPv6 branch; `offset` is that of the network header. -/
def parseIpv6 (offset : UInt16) : ByteReader (List Line) := do
  let srcAddr ← .bytes (offset.toNat + 8) 16
  let dstAddr ← .bytes (offset.toNat + 24) 16
  let proto ← .byte (offset.toNat + 6)
  let rest ← parseIpv6L4 (offset + sizeofIpv6Hdr.toUInt16) proto
  return .ipv6 :: .srcIpv6 srcAddr :: .dstIpv6 dstAddr :: rest

/-- `parse_packet` from the tests of the ethertype on. -/
def parseL3 (e : Endian) (offset ethType : UInt16) : ByteReader (List Line) :=
  if ethType = etherTypeIpv4 then parseIpv4 e offset
  else if ethType = etherTypeIpv6 then parseIpv6 offset
  else return []

/-- `parse_packet` from the test for a VLAN tag on. -/
def parseVlan (e : Endian) (offset ethType : UInt16) : ByteReader (List Line) :=
  if ethType = etherTypeVlan then do
    let vlanTci ← .be16 offset.toNat
    let ethProto ← .be16 (offset.toNat + 2)
    let rest ← parseL3 e (offset + sizeofVlanHdr.toUInt16) ethProto
    return .vlanTag vlanTci :: rest
  else parseL3 e offset ethType

/-- `parse_packet` as a program over the bytes behind the packet pointer, on a host
of that byte order. -/
def parse (e : Endian) : ByteReader (List Line) := do
  let srcAddr ← .bytes 6 6
  let dstAddr ← .bytes 0 6
  let ethType ← etherType
  let rest ← parseVlan e sizeofEtherHdr.toUInt16 ethType
  return .packetParsing :: .ethernet :: .srcMac srcAddr :: .dstMac dstAddr :: rest

/-- `parse_packet`: the lines printed. -/
def parsePacket (e : Endian) (m : Mbuf) : List Line := (parse e).eval m.data

/-! ### What is read -/

/-- The part of an IPv4 packet that is printed or followed is in the frame. -/
def Ipv4Inside (m : Mbuf) : Prop :=
  l3Offset m + sizeofIpv4Hdr ≤ m.dataLen.toNat ∧
    (ipProto m = ipprotoUdp → l4Offset m + 4 ≤ m.dataLen.toNat) ∧
    (ipProto m = ipprotoTcp → l4Offset m + 14 ≤ m.dataLen.toNat) ∧
    (ipProto m = ipprotoIcmp → l4Offset m + 2 ≤ m.dataLen.toNat)

/-- The part of an IPv6 packet that is printed or followed is in the frame. -/
def Ipv6Inside (m : Mbuf) : Prop :=
  l3Offset m + sizeofIpv6Hdr ≤ m.dataLen.toNat ∧
    (m.data (l3Offset m + 6) = ipprotoUdp ∨ m.data (l3Offset m + 6) = ipprotoTcp →
      l3Offset m + sizeofIpv6Hdr + 4 ≤ m.dataLen.toNat)

/-- The frame holds every field that is printed or followed: its Ethernet header, the
tag if there is one, and what is behind them of an IP packet. -/
def HeadersInside (m : Mbuf) : Prop :=
  l3Offset m ≤ m.dataLen.toNat ∧ (l3Type m = etherTypeIpv4 → Ipv4Inside m) ∧
    (l3Type m = etherTypeIpv6 → Ipv6Inside m)

instance (m : Mbuf) : Decidable (Ipv4Inside m) := inferInstanceAs (Decidable (_ ∧ _))

instance (m : Mbuf) : Decidable (Ipv6Inside m) := inferInstanceAs (Decidable (_ ∧ _))

instance (m : Mbuf) : Decidable (HeadersInside m) := inferInstanceAs (Decidable (_ ∧ _))

lemma parsePorts_readsBelow (offset : UInt16) (buf : ℕ → UInt8) (n : ℕ) :
    (parsePorts offset).ReadsBelow buf n ↔ offset.toNat + 4 ≤ n := by
  simp only [parsePorts, ByteReader.readsBelow_bind, ByteReader.readsBelow_be16,
    ByteReader.readsBelow_pure, and_true]
  omega

lemma parseIpv4L4_readsBelow (offset : UInt16) (proto : UInt8) (buf : ℕ → UInt8) (n : ℕ) :
    (parseIpv4L4 offset proto).ReadsBelow buf n
      ↔ (proto = ipprotoUdp → offset.toNat + 4 ≤ n) ∧ (proto = ipprotoTcp → offset.toNat + 14 ≤ n) ∧
        (proto = ipprotoIcmp → offset.toNat + 2 ≤ n) := by
  have hudptcp : ipprotoUdp ≠ ipprotoTcp := by decide
  have hudpicmp : ipprotoUdp ≠ ipprotoIcmp := by decide
  have htcpicmp : ipprotoTcp ≠ ipprotoIcmp := by decide
  rw [parseIpv4L4]
  split_ifs with hudp htcp hicmp
  · simp only [hudp, ByteReader.readsBelow_bind, parsePorts_readsBelow, ByteReader.readsBelow_pure,
      and_true, true_implies, hudptcp, hudpicmp, false_implies]
  · simp only [htcp, ByteReader.readsBelow_bind, parsePorts_readsBelow,
      ByteReader.readsBelow_be32, ByteReader.readsBelow_byte, ByteReader.readsBelow_pure, and_true,
      true_implies, hudptcp.symm, htcpicmp, false_implies, true_and]
    omega
  · simp only [hicmp, ByteReader.readsBelow_bind, ByteReader.readsBelow_byte,
      ByteReader.readsBelow_pure, and_true, true_implies, hudpicmp.symm, htcpicmp.symm,
      false_implies, true_and]
    omega
  · simp only [hudp, htcp, hicmp, ByteReader.readsBelow_pure, false_implies, and_true]

lemma parseIpv6L4_readsBelow (offset : UInt16) (proto : UInt8) (buf : ℕ → UInt8) (n : ℕ) :
    (parseIpv6L4 offset proto).ReadsBelow buf n
      ↔ (proto = ipprotoUdp ∨ proto = ipprotoTcp → offset.toNat + 4 ≤ n) := by
  rw [parseIpv6L4]
  split_ifs with hudp htcp
  · simp [hudp, parsePorts_readsBelow]
  · simp [htcp, parsePorts_readsBelow]
  · simp [hudp, htcp]

section Network

variable {m : Mbuf} {offset : UInt16} (hoffset : offset.toNat = l3Offset m)

include hoffset

lemma parseIpv4_readsBelow (e : Endian) :
    (parseIpv4 e offset).ReadsBelow m.data m.dataLen.toNat ↔ Ipv4Inside m := by
  have hl4 := toNat_l4Offset hoffset
  simp only [parseIpv4, ByteReader.readsBelow_bind, ByteReader.readsBelow_load32,
    ByteReader.readsBelow_byte, ByteReader.readsBelow_pure, ByteReader.eval_byte, and_true, hoffset,
    parseIpv4L4_readsBelow, hl4]
  rw [Ipv4Inside, sizeofIpv4Hdr, ipProto]
  -- the destination address is the last of the fields in the fixed header
  constructor
  · rintro ⟨-, hdst, -, -, hports⟩
    exact ⟨by omega, hports⟩
  · rintro ⟨hfixed, hports⟩
    exact ⟨by omega, by omega, by omega, by omega, hports⟩

lemma parseIpv6_readsBelow :
    (parseIpv6 offset).ReadsBelow m.data m.dataLen.toNat ↔ Ipv6Inside m := by
  have hl4 : (offset + sizeofIpv6Hdr.toUInt16).toNat = l3Offset m + sizeofIpv6Hdr := by
    have hcases := l3Offset_cases m
    have h40 : sizeofIpv6Hdr.toUInt16.toNat = 40 := rfl
    rw [UInt16.toNat_add, h40, sizeofIpv6Hdr]
    omega
  simp only [parseIpv6, ByteReader.readsBelow_bind, ByteReader.readsBelow_bytes,
    ByteReader.readsBelow_byte, ByteReader.readsBelow_pure, ByteReader.eval_byte, and_true, hoffset,
    parseIpv6L4_readsBelow, hl4]
  rw [Ipv6Inside, sizeofIpv6Hdr]
  constructor
  · rintro ⟨-, hdst, -, hports⟩
    exact ⟨by omega, hports⟩
  · rintro ⟨hfixed, hports⟩
    exact ⟨by omega, by omega, by omega, hports⟩

lemma parseL3_readsBelow (e : Endian) :
    (parseL3 e offset (l3Type m)).ReadsBelow m.data m.dataLen.toNat
      ↔ (l3Type m = etherTypeIpv4 → Ipv4Inside m) ∧ (l3Type m = etherTypeIpv6 → Ipv6Inside m) := by
  have hne : etherTypeIpv4 ≠ etherTypeIpv6 := by decide
  rw [parseL3]
  split_ifs with hv4 hv6
  · rw [parseIpv4_readsBelow hoffset, hv4]
    simp only [true_implies, hne, false_implies, and_true]
  · rw [parseIpv6_readsBelow hoffset, hv6]
    simp only [true_implies, hne.symm, false_implies, true_and]
  · simp only [hv4, hv6, ByteReader.readsBelow_pure, false_implies, and_true]

end Network

/-- **The reads stay inside the frame** exactly when it holds every field that is
printed or followed. -/
lemma parse_readsBelow_iff (e : Endian) (m : Mbuf) :
    (parse e).ReadsBelow m.data m.dataLen.toNat ↔ HeadersInside m := by
  have hstart : (parse e).ReadsBelow m.data m.dataLen.toNat
      ↔ 14 ≤ m.dataLen.toNat ∧ (parseVlan e sizeofEtherHdr.toUInt16
          (etherType.eval m.data)).ReadsBelow m.data m.dataLen.toNat := by
    simp only [parse, ByteReader.readsBelow_bind, ByteReader.readsBelow_bytes, etherType,
      ByteReader.readsBelow_be16, ByteReader.readsBelow_pure, and_true]
    constructor
    · rintro ⟨-, -, htype, hrest⟩
      exact ⟨by omega, hrest⟩
    · rintro ⟨hlen, hrest⟩
      exact ⟨by omega, by omega, by omega, hrest⟩
  rw [hstart, HeadersInside, parseVlan]
  by_cases htag : etherType.eval m.data = etherTypeVlan
  · have hl3 := l3Offset_of_tag htag
    have htype := l3Type_of_tag htag
    have hoffset : (sizeofEtherHdr.toUInt16 + sizeofVlanHdr.toUInt16).toNat = l3Offset m := hl3.symm
    have h14 : sizeofEtherHdr.toUInt16.toNat = 14 := rfl
    rw [if_pos htag]
    simp only [ByteReader.readsBelow_bind, ByteReader.readsBelow_be16, ByteReader.readsBelow_pure,
      and_true, h14, htype, parseL3_readsBelow hoffset]
    rw [hl3]
    constructor
    · rintro ⟨-, -, hproto, hrest⟩
      exact ⟨by omega, hrest⟩
    · rintro ⟨hlen, hrest⟩
      exact ⟨by omega, by omega, by omega, hrest⟩
  · have hl3 := l3Offset_of_noTag htag
    have hoffset : sizeofEtherHdr.toUInt16.toNat = l3Offset m := hl3.symm
    rw [if_neg htag, l3Type_of_noTag htag, parseL3_readsBelow hoffset, hl3]

/-- Two packet buffers hold the same frame. -/
def SameFrame (m m' : Mbuf) : Prop :=
  m.dataLen = m'.dataLen ∧ ∀ i < m.dataLen.toNat, m.data i = m'.data i

/-- **Which frames are parsed from their own bytes.** For every frame of any length
and contents, every index read is below the data length, and what is printed is what
is printed for the same frame in any other buffer, exactly when the frame holds every
field that is printed or followed. -/
theorem parse_inside_iff (e : Endian) (m : Mbuf) :
    (∀ i ∈ (parse e).reads m.data, i < m.dataLen.toNat) ∧
        (∀ m', SameFrame m m' → parsePacket e m = parsePacket e m')
      ↔ HeadersInside m := by
  rw [← parse_readsBelow_iff e m]
  constructor
  · exact fun h => h.1
  · intro hreads
    exact ⟨hreads, fun m' hsame => ByteReader.eval_congr _ fun i hi => hsame.2 i (hreads i hi)⟩

/-- A minimum-size UDP frame whose IPv4 header claims 60 bytes: the ports are looked
for behind its end. -/
def optionsPastEnd : Mbuf := frame 60 (ipv4Bytes 0x4F 0 0 17)

theorem parse_leaves_frame :
    ¬∀ i ∈ (parse .little).reads optionsPastEnd.data, i < optionsPastEnd.dataLen.toNat := by
  intro hreads
  exact absurd ((parse_readsBelow_iff .little optionsPastEnd).mp hreads) (by decide)

end DpdkStarter.PacketParser
