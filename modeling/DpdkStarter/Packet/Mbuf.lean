import DpdkStarter.Library.ByteOrder

/-!
Packet buffers and the header layouts the programs of the repository parse.

An `Mbuf` is the pointer a program hands from call to call together with what it
finds behind it: the data length of the single segment, and the memory from the
start of the packet data on, of which the first `dataLen` bytes are the frame.

* `frame`: a packet buffer given by its bytes.
* `etherType`: the load every program starts with, `isIpv4`: the test most of them
  make on it; `load16_etherType`: that test on the field as a host loads it.
-/

namespace DpdkStarter

/-- A packet buffer, `struct rte_mbuf *`. -/
structure Mbuf where
  addr : ℕ
  dataLen : UInt16
  data : ℕ → UInt8

/-- A frame of the given bytes, zero behind them. -/
def frame (dataLen : UInt16) (bytes : List UInt8) : Mbuf :=
  { addr := 0, dataLen := dataLen, data := fun i => bytes.getD i 0 }

/-! ### Header sizes and constants -/

/-- `sizeof(struct rte_ether_hdr)`. -/
def sizeofEtherHdr : ℕ := 14

/-- `sizeof(struct rte_vlan_hdr)`. -/
def sizeofVlanHdr : ℕ := 4

/-- `sizeof(struct rte_ipv4_hdr)`, without options. -/
def sizeofIpv4Hdr : ℕ := 20

/-- `sizeof(struct rte_udp_hdr)`. -/
def sizeofUdpHdr : ℕ := 8

/-- `sizeof(struct rte_tcp_hdr)`, without options. -/
def sizeofTcpHdr : ℕ := 20

/-- `RTE_ETHER_TYPE_IPV4`. -/
def etherTypeIpv4 : UInt16 := 0x0800

/-- `RTE_ETHER_TYPE_VLAN`. -/
def etherTypeVlan : UInt16 := 0x8100

/-- `RTE_ETHER_TYPE_IPV6`. -/
def etherTypeIpv6 : UInt16 := 0x86DD

/-- `IPPROTO_IP`. -/
def ipprotoIp : UInt8 := 0

/-- `IPPROTO_ICMP`. -/
def ipprotoIcmp : UInt8 := 1

/-- `IPPROTO_TCP`. -/
def ipprotoTcp : UInt8 := 6

/-- `IPPROTO_UDP`. -/
def ipprotoUdp : UInt8 := 17

/-- The protocol number of OSPF. -/
def ipprotoOspf : UInt8 := 89

/-- `eth->ether_type` in host order. -/
def etherType : ByteReader UInt16 := .be16 12

/-- The frame has the ethertype of IPv4. -/
def isIpv4 (m : Mbuf) : Bool := etherType.eval m.data = etherTypeIpv4

/-- A host tests the field against the converted number. -/
lemma load16_etherType (e : Endian) (buf : ℕ → UInt8) (type : UInt16) :
    (ByteReader.load16 e 12).eval buf = beToCpu16 e type ↔ etherType.eval buf = type := by
  rw [← beToCpu16_inj, ByteReader.beToCpu16_load16, beToCpu16_beToCpu16, etherType]

lemma isIpv4_iff {m : Mbuf} : isIpv4 m = true ↔ etherType.eval m.data = etherTypeIpv4 :=
  decide_eq_true_iff

/-- `RTE_IPV4`. -/
def rteIpv4 (a b c d : UInt8) : UInt32 := ofHalves (ofBytes a b) (ofBytes c d)

end DpdkStarter
