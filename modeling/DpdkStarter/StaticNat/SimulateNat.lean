import DpdkStarter.Library.ByteProgram
import DpdkStarter.Packet.Mbuf

/-!
`NAT/static_nat/main.c`: `simulate_nat`, on a host of either byte order.

The function works on the raw fields of the frame, as they are loaded. The
checksum of the IPv4 header is computed by `rte_ipv4_cksum`, which is not part of
the repository: it is a parameter, a program that reads the frame.

* `translate`: the function as a program over the bytes of a frame.
* `simulateNat`: the function.
-/

namespace DpdkStarter.StaticNat

open ByteProgram

/-- `PRIVATE_IP`. -/
def privateIp : UInt32 := rteIpv4 172 22 116 70

/-- `PUBLIC_IP`. -/
def publicIp : UInt32 := rteIpv4 203 0 113 10

/-- The offset of `hdr_checksum`. -/
def hdrChecksum : ℕ := sizeofEtherHdr + 10

/-- The offset of `src_addr`. -/
def srcAddr : ℕ := sizeofEtherHdr + 12

/-- The offset of `dst_addr`. -/
def dstAddr : ℕ := sizeofEtherHdr + 16

/-- The lines `simulate_nat` prints, with the addresses in host order. -/
inductive Line where
  | before (src dst : UInt32)
  | outbound
  | inbound
  | after (src dst : UInt32)
  deriving DecidableEq, Repr

/-- One rule: the field at `offset` is rewritten when it holds `old`. -/
def rewriteAddr (e : Endian) (offset : ℕ) (old new : UInt32) (line : Line) :
    ByteProgram (List Line) := do
  let addr ← ofReader (.load32 e offset)
  if addr = beToCpu32 e old then do
    store32 e offset (beToCpu32 e new)
    return [line]
  else return []

/-- `simulate_nat` as a program over the bytes of a frame. -/
def translate (rteIpv4Cksum : ByteReader UInt16) (e : Endian) : ByteProgram (List Line) := do
  let ethType ← ofReader (.load16 e 12)
  if ethType ≠ beToCpu16 e etherTypeIpv4 then return []
  else do
    let src ← ofReader (.load32 e srcAddr)
    let dst ← ofReader (.load32 e dstAddr)
    let outbound ← rewriteAddr e srcAddr privateIp publicIp .outbound
    let inbound ← rewriteAddr e dstAddr publicIp privateIp .inbound
    store16 e hdrChecksum 0
    let cksum ← ofReader rteIpv4Cksum
    store16 e hdrChecksum cksum
    let src' ← ofReader (.load32 e srcAddr)
    let dst' ← ofReader (.load32 e dstAddr)
    return .before (beToCpu32 e src) (beToCpu32 e dst) :: outbound ++ inbound
      ++ [.after (beToCpu32 e src') (beToCpu32 e dst')]

/-- `simulate_nat`: the lines it prints, and the packet buffer with the bytes it
leaves. -/
def simulateNat (rteIpv4Cksum : ByteReader UInt16) (e : Endian) (m : Mbuf) : List Line × Mbuf :=
  let done := (translate rteIpv4Cksum e).exec m.data
  (done.1, { m with data := done.2 })

end DpdkStarter.StaticNat
