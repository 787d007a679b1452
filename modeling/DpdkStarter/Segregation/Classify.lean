import DpdkStarter.Packet.Mbuf

/-!
`control_data_segregation/main.c`: `classify_packet`.

The function is cut where it moves on to the next header: `classifyL3` is the
part from the test of the ethertype on, `classifyL4` the part after
`offset += ihl`. The variable `offset` is a `uint16_t`; the comparisons with the
data length are made in a wider type.

* `classifyPacket`: 1 for a control frame, 0 for a data frame.
* `isControl`: how the main loop reads that.
-/

namespace DpdkStarter.Segregation

/-- `is_control_tcp_port`, on the port in host order. -/
def isControlTcpPort (port : UInt16) : ℕ :=
  if port = 22 ∨ port = 53 ∨ port = 179 ∨ port = 389 then 1 else 0

/-- `is_control_udp_port`, on the port in host order. -/
def isControlUdpPort (port : UInt16) : ℕ :=
  if port = 53 ∨ port = 67 ∨ port = 68 ∨ port = 123 ∨ port = 161 then 1 else 0

/-- `classify_packet` from the test of the protocol on; `offset` is that of the
transport header. -/
def classifyL4 (dataLen offset : UInt16) (proto : UInt8) : ByteReader ℕ :=
  if proto = ipprotoIcmp then return 1
  else if proto = ipprotoOspf then return 1
  else if proto = ipprotoUdp then
    if dataLen.toNat < offset.toNat + sizeofUdpHdr then return 0
    else do
      let port ← .be16 (offset.toNat + 2)
      return isControlUdpPort port
  else if proto = ipprotoTcp then
    if dataLen.toNat < offset.toNat + sizeofTcpHdr then return 0
    else do
      let port ← .be16 (offset.toNat + 2)
      return isControlTcpPort port
  else return 0

/-- `classify_packet` from the test of the ethertype on; `offset` is that of the
network header. -/
def classifyL3 (dataLen offset ethType : UInt16) : ByteReader ℕ :=
  if ethType ≠ etherTypeIpv4 then return 0
  else if dataLen.toNat < offset.toNat + sizeofIpv4Hdr then return 0
  else do
    let proto ← .byte (offset.toNat + 9)
    let versionIhl ← .byte offset.toNat
    let ihl : UInt16 := (versionIhl &&& 0x0F).toUInt16 * 4
    classifyL4 dataLen (offset + ihl) proto

/-- `classify_packet` as a program over the bytes of a frame of that length. -/
def classify (dataLen : UInt16) : ByteReader ℕ :=
  if dataLen.toNat < sizeofEtherHdr then return 0
  else do
    let offset : UInt16 := sizeofEtherHdr.toUInt16
    let ethType ← etherType
    if ethType = etherTypeVlan then
      if dataLen.toNat < offset.toNat + sizeofVlanHdr then return 0
      else do
        let ethProto ← .be16 (offset.toNat + 2)
        classifyL3 dataLen (offset + sizeofVlanHdr.toUInt16) ethProto
    else classifyL3 dataLen offset ethType

/-- `classify_packet`. -/
def classifyPacket (m : Mbuf) : ℕ := (classify m.dataLen).eval m.data

/-- The main loop takes a frame for control when the result is not zero. -/
def isControl (m : Mbuf) : Bool := classifyPacket m ≠ 0

lemma not_isControl (m : Mbuf) : (!isControl m) = decide (classifyPacket m = 0) := by
  simp [isControl]

end DpdkStarter.Segregation
