import DpdkStarter.Library.Wire
import DpdkStarter.Packet.Mbuf
import DpdkStarter.Segregation.Classify

/-!
Frames by their fields, and the bytes they are on the wire.

The functions of the repository see a frame as bytes behind a pointer. What a frame says
is stated here once, so that what they print, decide and rewrite can be compared with it:
headers with the fields of DPDK's structures in host order, and their encodings.

* `Ipv4Header`, `Ipv6Header`, `L4Header`, `Frame`: the headers; an IPv4 header carries the
  proof that its options fill whole words.
* `Ipv4Header.encode`, `L4Header.encode`, `Frame.encode`: the bytes in network order.
* `Ipv4Header.ihl_toNat`: the length nibble is the length of the encoding.
-/

namespace DpdkStarter

open Segregation

/-- `struct rte_ether_addr`. -/
structure MacAddr where
  bytes : List UInt8
  length_bytes : bytes.length = 6
deriving DecidableEq

/-- A locally administered address. -/
def MacAddr.ofHost (n : UInt8) : MacAddr := ⟨[0x02, 0, 0, 0, 0, n], rfl⟩

/-- `struct rte_ipv4_hdr` with its options; the protocol is that of what it carries. -/
structure Ipv4Header where
  typeOfService : UInt8
  totalLength : UInt16
  packetId : UInt16
  fragmentOffset : UInt16
  timeToLive : UInt8
  hdrChecksum : UInt16
  srcAddr : UInt32
  dstAddr : UInt32
  options : List UInt8
  options_words : 4 ∣ options.length
  options_le : options.length ≤ 40
deriving DecidableEq

lemma noOptions_words : 4 ∣ ([] : List UInt8).length := ⟨0, rfl⟩

lemma noOptions_le : ([] : List UInt8).length ≤ 40 := Nat.zero_le _

/-- `struct rte_ipv6_hdr`, the addresses as bytes. -/
structure Ipv6Header where
  vtcFlow : UInt32
  payloadLen : UInt16
  hopLimits : UInt8
  srcAddr : List UInt8
  dstAddr : List UInt8
  length_srcAddr : srcAddr.length = 16
  length_dstAddr : dstAddr.length = 16
deriving DecidableEq

/-- `struct rte_udp_hdr`, `struct rte_tcp_hdr`, `struct rte_icmp_hdr`, and any other
protocol, of which only the number is known. -/
inductive L4Header where
  | udp (srcPort dstPort dgramLen dgramCksum : UInt16)
  | tcp (srcPort dstPort : UInt16) (sentSeq recvAck : UInt32) (dataOff tcpFlags : UInt8)
      (rxWin cksum tcpUrp : UInt16)
  | icmp (icmpType icmpCode : UInt8) (icmpCksum icmpIdent icmpSeqNb : UInt16)
  | other (proto : UInt8) (hproto : proto ∉ [ipprotoUdp, ipprotoTcp, ipprotoIcmp])
deriving DecidableEq

/-- What the Ethernet header announces. -/
inductive Network where
  | ipv4 (hdr : Ipv4Header) (l4 : L4Header)
  | ipv6 (hdr : Ipv6Header) (l4 : L4Header)
  | other (type : UInt16) (htype : type ∉ [etherTypeIpv4, etherTypeIpv6, etherTypeVlan])
deriving DecidableEq

/-- A frame: `struct rte_ether_hdr`, a VLAN tag if there is one, and what is behind. -/
structure Frame where
  dstAddr : MacAddr
  srcAddr : MacAddr
  vlanTci : Option UInt16
  network : Network
  payload : List UInt8
deriving DecidableEq

/-! ### Encodings -/

/-- The protocol number. -/
def L4Header.proto : L4Header → UInt8
  | .udp .. => ipprotoUdp
  | .tcp .. => ipprotoTcp
  | .icmp .. => ipprotoIcmp
  | .other proto _ => proto

/-- The transport header. -/
def L4Header.encode : L4Header → List UInt8
  | .udp srcPort dstPort dgramLen dgramCksum =>
      bytes16 .big srcPort ++ (bytes16 .big dstPort ++ (bytes16 .big dgramLen
        ++ bytes16 .big dgramCksum))
  | .tcp srcPort dstPort sentSeq recvAck dataOff tcpFlags rxWin cksum tcpUrp =>
      bytes16 .big srcPort ++ (bytes16 .big dstPort ++ (bytes32 .big sentSeq
        ++ (bytes32 .big recvAck ++ (dataOff :: tcpFlags :: (bytes16 .big rxWin
        ++ (bytes16 .big cksum ++ bytes16 .big tcpUrp))))))
  | .icmp icmpType icmpCode icmpCksum icmpIdent icmpSeqNb =>
      icmpType :: icmpCode :: (bytes16 .big icmpCksum ++ (bytes16 .big icmpIdent
        ++ bytes16 .big icmpSeqNb))
  | .other _ _ => []

/-- `version_ihl`: version 4 and the length of the header in words. -/
def Ipv4Header.versionIhl (h : Ipv4Header) : UInt8 := 0x45 + (h.options.length / 4).toUInt8

/-- The fields of the IPv4 header in front of the checksum. -/
def Ipv4Header.front (h : Ipv4Header) (proto : UInt8) : List UInt8 :=
  h.versionIhl :: h.typeOfService :: (bytes16 .big h.totalLength ++ (bytes16 .big h.packetId
    ++ (bytes16 .big h.fragmentOffset ++ [h.timeToLive, proto])))

/-- The IPv4 header in front of a transport protocol. -/
def Ipv4Header.encode (h : Ipv4Header) (proto : UInt8) : List UInt8 :=
  h.front proto ++ (bytes16 .big h.hdrChecksum ++ (bytes32 .big h.srcAddr
    ++ (bytes32 .big h.dstAddr ++ h.options)))

/-- The IPv6 header in front of a transport protocol. -/
def Ipv6Header.encode (h : Ipv6Header) (proto : UInt8) : List UInt8 :=
  bytes32 .big h.vtcFlow ++ (bytes16 .big h.payloadLen ++ (proto :: h.hopLimits ::
    (h.srcAddr ++ h.dstAddr)))

/-- The ethertype of what is behind. -/
def Network.etherType : Network → UInt16
  | .ipv4 .. => etherTypeIpv4
  | .ipv6 .. => etherTypeIpv6
  | .other type _ => type

lemma Network.etherType_ne_vlan (network : Network) : network.etherType ≠ etherTypeVlan := by
  cases network with
  | ipv4 => exact (by decide : etherTypeIpv4 ≠ etherTypeVlan)
  | ipv6 => exact (by decide : etherTypeIpv6 ≠ etherTypeVlan)
  | other type htype =>
      simp only [List.mem_cons, List.not_mem_nil, or_false, not_or] at htype
      exact htype.2.2

/-- The network header and the transport header. -/
def Network.encode : Network → List UInt8
  | .ipv4 hdr l4 => hdr.encode l4.proto ++ l4.encode
  | .ipv6 hdr l4 => hdr.encode l4.proto ++ l4.encode
  | .other _ _ => []

/-- The tag in front of the ethertype. -/
def encodeTag : Option UInt16 → List UInt8
  | none => []
  | some tci => bytes16 .big etherTypeVlan ++ bytes16 .big tci

/-- The bytes of the frame. -/
def Frame.encode (d : Frame) : List UInt8 :=
  d.dstAddr.bytes ++ (d.srcAddr.bytes ++ (encodeTag d.vlanTci
    ++ (bytes16 .big d.network.etherType ++ (d.network.encode ++ d.payload))))

/-! ### Lengths -/

@[simp] lemma Ipv4Header.length_front (h : Ipv4Header) (proto : UInt8) :
    (h.front proto).length = 10 := by simp [Ipv4Header.front]

@[simp] lemma Ipv4Header.length_encode (h : Ipv4Header) (proto : UInt8) :
    (h.encode proto).length = 20 + h.options.length := by
  simp [Ipv4Header.encode]
  omega

@[simp] lemma Ipv6Header.length_encode (h : Ipv6Header) (proto : UInt8) :
    (h.encode proto).length = 40 := by
  simp [Ipv6Header.encode, h.length_srcAddr, h.length_dstAddr]

/-- The length nibble, in words. -/
lemma Ipv4Header.ihl_toNat (h : Ipv4Header) :
    (h.versionIhl &&& 0x0F).toNat * 4 = 20 + h.options.length := by
  have hnibble : ∀ n ≤ 10, ((0x45 + n.toUInt8) &&& 0x0F : UInt8).toNat = 5 + n := by decide
  have hle := h.options_le
  have hwords := h.options_words
  rw [versionIhl, hnibble _ (by omega)]
  omega

/-- Where the network header is. -/
def Frame.l3Offset (d : Frame) : ℕ := 14 + (encodeTag d.vlanTci).length

/-! ### A buffer that carries a frame -/

variable {buf : ℕ → UInt8} {d : Frame}

/-- The addresses, the tag, the ethertype and the packet, each in its place. -/
lemma carries_frame :
    Carries buf 0 d.encode ↔ Carries buf 0 d.dstAddr.bytes ∧ Carries buf 6 d.srcAddr.bytes ∧
      Carries buf 12 (encodeTag d.vlanTci) ∧
      Carries buf (d.l3Offset - 2) (bytes16 .big d.network.etherType) ∧
      Carries buf d.l3Offset d.network.encode ∧
      Carries buf (d.l3Offset + d.network.encode.length) d.payload := by
  have htwo : 12 + (encodeTag d.vlanTci).length = d.l3Offset - 2 := by
    rw [Frame.l3Offset]
    omega
  have hl3 : d.l3Offset - 2 + 2 = d.l3Offset := by
    rw [Frame.l3Offset]
    omega
  simp only [Frame.encode, carries_append, d.dstAddr.length_bytes, d.srcAddr.length_bytes,
    length_bytes16, Nat.zero_add, Nat.reduceAdd, htwo, hl3]

/-- The packet buffer holds the frame, and its length is that of the frame. -/
structure Mbuf.Holds (m : Mbuf) (d : Frame) : Prop where
  data : Carries m.data 0 d.encode
  dataLen : m.dataLen.toNat = d.encode.length

variable {i : ℕ}

/-- The fields of the IPv4 header, each at its offset. -/
lemma carries_ipv4Header {h : Ipv4Header} {proto : UInt8} :
    Carries buf i (h.encode proto) ↔ buf i = h.versionIhl ∧ buf (i + 1) = h.typeOfService ∧
      Carries buf (i + 2) (bytes16 .big h.totalLength) ∧
      Carries buf (i + 4) (bytes16 .big h.packetId) ∧
      Carries buf (i + 6) (bytes16 .big h.fragmentOffset) ∧
      buf (i + 8) = h.timeToLive ∧ buf (i + 9) = proto ∧
      Carries buf (i + 10) (bytes16 .big h.hdrChecksum) ∧
      Carries buf (i + 12) (bytes32 .big h.srcAddr) ∧
      Carries buf (i + 16) (bytes32 .big h.dstAddr) ∧ Carries buf (i + 20) h.options := by
  rw [Ipv4Header.encode, carries_append, Ipv4Header.length_front]
  simp only [carries_append, Ipv4Header.front, carries_cons, length_bytes16, length_bytes32,
    Nat.add_assoc, Nat.reduceAdd, carries_nil, and_true, and_assoc]

/-- The fields of the IPv6 header that are read, each at its offset. -/
lemma Carries.ipv6Header {h : Ipv6Header} {proto : UInt8} (hc : Carries buf i (h.encode proto)) :
    buf (i + 6) = proto ∧ Carries buf (i + 8) h.srcAddr ∧ Carries buf (i + 24) h.dstAddr := by
  simp only [Ipv6Header.encode, carries_append, carries_cons, length_bytes16, length_bytes32,
    Nat.add_assoc, Nat.reduceAdd, h.length_srcAddr] at hc
  exact ⟨hc.2.2.1, hc.2.2.2.2.1, hc.2.2.2.2.2⟩

/-- A buffer made of bytes carries each part of them. -/
lemma carries_getD (pre bs : List UInt8) :
    Carries (fun i => (pre ++ bs).getD i 0) pre.length bs := by
  induction bs generalizing pre with
  | nil => exact carries_nil
  | cons b bs ih =>
      refine carries_cons.mpr ⟨by simp, ?_⟩
      have hrest := ih (pre ++ [b])
      rwa [List.append_assoc, List.length_append] at hrest

/-- The packet buffer of a frame that fits into one. -/
def Frame.toMbuf (d : Frame) : Mbuf := frame d.encode.length.toUInt16 d.encode

lemma Frame.holds_toMbuf {d : Frame} (h : d.encode.length < 65536) : d.toMbuf.Holds d :=
  ⟨carries_getD [] d.encode, UInt16.toNat_ofNat_of_lt' h⟩

end DpdkStarter
