import DpdkStarter.PacketParser.RoundTrip
import DpdkStarter.SimpleTx.Generator
import DpdkStarter.StaticNat.Refinement

/-!
The frame of `tranmit_packet/packet_creation/simple_tx.c`: `build_udp_packet` writes every
byte of it, so what the allocation found in the buffer is not sent.

* `builtFrame`: the frame, with the checksum its header should have.
* `exec_writeFields`: the buffer the function leaves, by its four contiguous parts.
* `holds_buildUdpPacket`: the buffer holds the frame, on a host of either byte order.
* `calls_first_burst`: the loop begins by handing over the buffer that was allocated.
* `generator_sends_builtFrame`: what that first burst hands to the device is the frame.
-/

namespace DpdkStarter.SimpleTx

open ByteProgram StaticNat

/-! ### The frame -/

/-- The header with its checksum field cleared, as `rte_ipv4_cksum` finds it. -/
def clearedHeader : Ipv4Header where
  typeOfService := 0
  totalLength := (sizeofIpv4Hdr + sizeofUdpHdr + payload.length).toUInt16
  packetId := 0
  fragmentOffset := 0
  timeToLive := 64
  hdrChecksum := 0
  srcAddr := 0x7F000001
  dstAddr := 0x7F000001
  options := []
  options_words := noOptions_words
  options_le := noOptions_le

/-- The transport header. -/
def builtUdp : L4Header := .udp 1234 5678 (sizeofUdpHdr + payload.length).toUInt16 0

/-- The header as it is sent. -/
def builtHeader : Ipv4Header :=
  { clearedHeader with hdrChecksum := checksum .big (clearedHeader.encode builtUdp.proto) }

/-- The frame: broadcast, from the loopback address to itself. -/
def builtFrame : Frame where
  dstAddr := ⟨[0xFF, 0xFF, 0xFF, 0xFF, 0xFF, 0xFF], rfl⟩
  srcAddr := ⟨[0x00, 0x15, 0x5D, 0x0E, 0x66, 0x03], rfl⟩
  vlanTci := none
  network := .ipv4 builtHeader builtUdp
  payload := payload

/-! ### What `build_udp_packet` leaves -/

/-- The bytes in front of the checksum. -/
def frontBytes : List UInt8 :=
  builtFrame.dstAddr.bytes ++ (builtFrame.srcAddr.bytes ++ (bytes16 .big etherTypeIpv4
    ++ clearedHeader.front builtUdp.proto))

/-- The bytes of the addresses. -/
def addrBytes : List UInt8 :=
  bytes32 .big clearedHeader.srcAddr ++ bytes32 .big clearedHeader.dstAddr

/-- The buffer when the checksum is computed. -/
def beforeCksum (buf : ℕ → UInt8) : ℕ → UInt8 :=
  putBytes (putBytes (putBytes buf 0 frontBytes) 26 addrBytes) 24 [0, 0]

lemma bytes16_beToCpu16 (e : Endian) (v : UInt16) :
    bytes16 e (beToCpu16 e v) = bytes16 .big v := by
  cases e with
  | big => rfl
  | little => simp [bytes16, beToCpu16, bswap16]

/-- **What the function leaves**, whatever the host. -/
lemma exec_writeFields (rteIpv4Cksum : ByteReader UInt16) (e : Endian) (buf : ℕ → UInt8) :
    ((writeFields rteIpv4Cksum e).exec buf).2
      = putBytes (putBytes (beforeCksum buf) 24
          (bytes16 e (rteIpv4Cksum.eval (beforeCksum buf)))) 34 (builtUdp.encode ++ payload) := by
  simp only [writeFields, exec_bind, exec_store, exec_store16, exec_store32, exec_ofReader,
    bytes16_beToCpu16, bytes32_beToCpu32, bytes16_zero]
  rfl

/-- The bytes in front of the transport header, for a checksum. -/
lemma carries_beforeCksum (buf : ℕ → UInt8) :
    Carries (beforeCksum buf) 0 (frontBytes ++ (bytes16 .big 0 ++ addrBytes)) := by
  have hfront : frontBytes.length = 24 := rfl
  have haddr : addrBytes.length = 8 := rfl
  rw [carries_append, carries_append, hfront, length_bytes16, bytes16_zero, beforeCksum]
  refine ⟨?_, carries_putBytes _ 24 [0, 0], ?_⟩
  · rw [carries_putBytes_of_disjoint (Or.inl (by rw [hfront])),
      carries_putBytes_of_disjoint (Or.inl (by rw [hfront]; omega))]
    exact carries_putBytes buf 0 frontBytes
  · rw [carries_putBytes_of_disjoint (Or.inr (by decide))]
    exact carries_putBytes _ 26 addrBytes

/-- The checksum is made of the header that is there. -/
lemma header_beforeCksum (buf : ℕ → UInt8) :
    header (beforeCksum buf) = clearedHeader.encode builtUdp.proto := by
  refine header_of_carries ?_
  have hparts : frontBytes ++ (bytes16 .big 0 ++ addrBytes)
      = (builtFrame.dstAddr.bytes ++ (builtFrame.srcAddr.bytes ++ bytes16 .big etherTypeIpv4))
        ++ clearedHeader.encode builtUdp.proto := rfl
  have hall := carries_beforeCksum buf
  rw [hparts] at hall
  exact (carries_append.mp hall).2

/-- **The frame is built**: the buffer holds it, whatever was there before and whatever the
byte order of the host, and the bytes behind it stay. -/
lemma holds_buildUdpPacket {rteIpv4Cksum : ByteReader UInt16} {e : Endian}
    (hcksum : IsIpv4Cksum e rteIpv4Cksum) (m : Mbuf) :
    (buildUdpPacket rteIpv4Cksum e m).Holds builtFrame ∧
    ∀ j, pktLen ≤ j → (buildUdpPacket rteIpv4Cksum e m).data j = m.data j := by
  have hdata : (buildUdpPacket rteIpv4Cksum e m).data
      = putBytes (putBytes (beforeCksum m.data) 24
          (bytes16 .big builtHeader.hdrChecksum)) 34 (builtUdp.encode ++ payload) := by
    have hexec := exec_writeFields rteIpv4Cksum e m.data
    rw [hcksum, bytes16_checksum, header_beforeCksum] at hexec
    exact hexec
  have hfront : frontBytes.length = 24 := rfl
  have haddr : addrBytes.length = 8 := rfl
  refine ⟨⟨?_, ?_⟩, ?_⟩
  · have hparts : builtFrame.encode = (frontBytes ++ (bytes16 .big builtHeader.hdrChecksum
        ++ addrBytes)) ++ (builtUdp.encode ++ payload) := rfl
    have hhead : Carries (putBytes (beforeCksum m.data) 24 (bytes16 .big builtHeader.hdrChecksum))
        0 (frontBytes ++ (bytes16 .big builtHeader.hdrChecksum ++ addrBytes)) :=
      (carries_beforeCksum m.data).replace (by rw [hfront]) (by rw [length_bytes16, length_bytes16])
    have hlen : (frontBytes ++ (bytes16 .big builtHeader.hdrChecksum ++ addrBytes)).length = 34 :=
      rfl
    rw [hdata, hparts, carries_append, hlen]
    refine ⟨?_, carries_putBytes _ 34 _⟩
    rwa [carries_putBytes_of_disjoint (Or.inl (by rw [hlen]))]
  · have hlen : pktLen.toUInt16.toNat = builtFrame.encode.length := by decide
    exact hlen
  · intro j hj
    have hpkt : pktLen = 68 := by decide
    have hrest : (builtUdp.encode ++ payload).length = 34 := by decide
    rw [hdata, putBytes_of_notMem (Or.inr (by omega)),
      putBytes_of_notMem (Or.inr (by rw [length_bytes16]; omega)), beforeCksum,
      putBytes_of_notMem (Or.inr (by simp; omega)), putBytes_of_notMem (Or.inr (by omega)),
      putBytes_of_notMem (Or.inr (by omega))]

/-- Calls are only added to the record. -/
lemma calls_run (results : List Bool) (s : State) :
    ∃ later, (Machine.run iterate results s).calls = s.calls ++ later := by
  refine Machine.run_invariant (P := fun t => ∃ later, t.calls = s.calls ++ later) iterate ?_
    ⟨[], (List.append_nil _).symm⟩ results
  rintro sent t ⟨later, ht⟩
  rw [iterate, ht, List.append_assoc]
  exact ⟨_, rfl⟩

/-- The loop begins with a burst of the buffer that was allocated. -/
lemma calls_first_burst {env : Setup} {s : State} (h : start env = .ok s) (sent : Bool)
    (results : List Bool) :
    ∃ later, (Machine.run iterate (sent :: results) s).calls
      = [.pktmbufAlloc s.m] ++ .ethTxBurst s.m sent :: later := by
  obtain ⟨later, hlater⟩ := calls_run results (iterate sent s)
  refine ⟨(if sent then [] else [.pktmbufFree s.m]) ++ later, ?_⟩
  rw [Machine.run_cons, hlater, iterate, start_calls h, List.append_assoc]
  rfl

/-- **What the generator sends.** Whatever the allocation found in the buffer and on a host
of either byte order, the buffer that the first burst hands to the device is the program's at
that call and holds one and the same frame; behind the frame its bytes are as they were found.
The sum of the frame's header is right, and the repository's parser on a little-endian host
prints its fields. -/
theorem generator_sends_builtFrame (env : Setup)
    (hcksum : IsIpv4Cksum env.endian env.rteIpv4Cksum) (s : State) (hstart : start env = .ok s) :
    ∃ found m, env.alloc = some found ∧ s.buffer = some m ∧
      m.Holds builtFrame ∧
      (∀ j, pktLen ≤ j → m.data j = found.data j) ∧
      fold16 (wordSum .big (header m.data)) = 65535 ∧
      PacketParser.parsePacket .little m = PacketParser.lines builtFrame ∧
      ∀ sent results, ∃ before later,
        (Machine.run iterate (sent :: results) s).calls
          = before ++ .ethTxBurst m.addr sent :: later ∧
        (∀ c ∈ before, c.passes = none) ∧ Owned before m.addr := by
  obtain ⟨found, printed, halloc, rfl⟩ := exists_of_start hstart
  obtain ⟨hholds, hbehind⟩ := holds_buildUdpPacket hcksum found
  refine ⟨found, _, halloc, rfl, hholds, hbehind, ?_, ?_, fun sent results => ?_⟩
  · have hnetwork : Carries (buildUdpPacket env.rteIpv4Cksum env.endian found).data sizeofEtherHdr
        (builtHeader.encode builtUdp.proto ++ builtUdp.encode) :=
      (carries_frame.mp hholds.data).2.2.2.2.1
    rw [header_of_carries (carries_append.mp hnetwork).1]
    exact fold16_encode clearedHeader builtUdp.proto
  · rw [PacketParser.parsePacket_carries .little hholds.data, PacketParser.linesOn_little]
  · obtain ⟨later, hcalls⟩ := calls_first_burst hstart sent results
    refine ⟨[.pktmbufAlloc found.addr], later, hcalls, fun c hc => ?_, (start_owned hstart).2⟩
    rw [List.mem_singleton.mp hc]
    rfl

/-- A little-endian host on which every library call succeeds. -/
def littleSetup : Setup := { goodSetup with rteIpv4Cksum := ipv4Cksum .little }

/-- The frame the parser prints on that host. -/
theorem generator_sends_builtFrame_parsed :
    ∃ s m, start littleSetup = .ok s ∧ s.buffer = some m ∧
      PacketParser.parsePacket .little m = PacketParser.lines builtFrame := by
  obtain ⟨-, m, -, hbuffer, -, -, -, hlines, -⟩ :=
    generator_sends_builtFrame littleSetup (isIpv4Cksum_ipv4Cksum .little) _ rfl
  exact ⟨_, m, rfl, hbuffer, hlines⟩

end DpdkStarter.SimpleTx
