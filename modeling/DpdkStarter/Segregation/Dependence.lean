import DpdkStarter.Segregation.Headers

/-!
`control_data_segregation/main.c`: which bytes `classify_packet` looks at, and which
of them its verdict depends on.

* `classify_in_bounds`: only bytes of the frame are read, and the 16-bit offsets
  are the offsets there are: the function is `classifyWide`, which computes them
  as natural numbers.
* `payload_ignored_iff`: two frames with the same headers get the same verdict,
  except when the bytes of a later fragment are taken for ports.
-/

namespace DpdkStarter.Segregation

/-! ### The function without machine arithmetic -/

/-- `classifyL4` with the offset as a natural number. -/
def classifyWideL4 (dataLen offset : ℕ) (proto : UInt8) : ByteReader ℕ :=
  if proto = ipprotoIcmp then return 1
  else if proto = ipprotoOspf then return 1
  else if proto = ipprotoUdp then
    if dataLen < offset + sizeofUdpHdr then return 0
    else do
      let port ← .be16 (offset + 2)
      return isControlUdpPort port
  else if proto = ipprotoTcp then
    if dataLen < offset + sizeofTcpHdr then return 0
    else do
      let port ← .be16 (offset + 2)
      return isControlTcpPort port
  else return 0

/-- `classifyL3` with the offset as a natural number. -/
def classifyWideL3 (dataLen offset : ℕ) (ethType : UInt16) : ByteReader ℕ :=
  if ethType ≠ etherTypeIpv4 then return 0
  else if dataLen < offset + sizeofIpv4Hdr then return 0
  else do
    let proto ← .byte (offset + 9)
    let versionIhl ← .byte offset
    classifyWideL4 dataLen (offset + (versionIhl &&& 0x0F).toNat * 4) proto

/-- `classify` with the offset as a natural number. -/
def classifyWide (dataLen : ℕ) : ByteReader ℕ :=
  if dataLen < sizeofEtherHdr then return 0
  else do
    let ethType ← etherType
    if ethType = etherTypeVlan then
      if dataLen < sizeofEtherHdr + sizeofVlanHdr then return 0
      else do
        let ethProto ← .be16 (sizeofEtherHdr + 2)
        classifyWideL3 dataLen (sizeofEtherHdr + sizeofVlanHdr) ethProto
    else classifyWideL3 dataLen sizeofEtherHdr ethType

lemma classifyL4_eq_wide (dataLen offset : UInt16) (proto : UInt8) :
    classifyL4 dataLen offset proto = classifyWideL4 dataLen.toNat offset.toNat proto := rfl

lemma classifyL3_eq_wide (dataLen ethType : UInt16) {offset : UInt16} (h : offset.toNat ≤ 18) :
    classifyL3 dataLen offset ethType = classifyWideL3 dataLen.toNat offset.toNat ethType := by
  simp only [classifyL3, classifyWideL3, classifyL4_eq_wide, toNat_add_ihl h]

/-- No offset wraps. -/
lemma classify_eq_wide (dataLen : UInt16) : classify dataLen = classifyWide dataLen.toNat := by
  have h14 : (sizeofEtherHdr.toUInt16).toNat = sizeofEtherHdr := rfl
  have h18 : (sizeofEtherHdr.toUInt16 + sizeofVlanHdr.toUInt16).toNat
      = sizeofEtherHdr + sizeofVlanHdr := rfl
  have hle14 : (sizeofEtherHdr.toUInt16).toNat ≤ 18 := by decide
  have hle18 : (sizeofEtherHdr.toUInt16 + sizeofVlanHdr.toUInt16).toNat ≤ 18 := by decide
  simp only [classify, classifyWide, classifyL3_eq_wide _ _ hle14, classifyL3_eq_wide _ _ hle18,
    h14, h18]

/-! ### What is read -/

lemma classifyWideL4_reads {dataLen offset : ℕ} {proto : UInt8} {buf : ℕ → UInt8} {i : ℕ}
    (hi : i ∈ (classifyWideL4 dataLen offset proto).reads buf) : i < dataLen := by
  rw [classifyWideL4] at hi
  split_ifs at hi with _ _ _ hudp _ htcp
  · simp at hi
  · simp at hi
  · simp at hi
  · rw [ByteReader.reads_bind, ByteReader.reads_pure, List.append_nil, ByteReader.reads_be16,
      List.mem_pair] at hi
    rw [sizeofUdpHdr] at hudp
    omega
  · simp at hi
  · rw [ByteReader.reads_bind, ByteReader.reads_pure, List.append_nil, ByteReader.reads_be16,
      List.mem_pair] at hi
    rw [sizeofTcpHdr] at htcp
    omega
  · simp at hi

lemma classifyWideL3_reads {dataLen offset : ℕ} {ethType : UInt16} {buf : ℕ → UInt8} {i : ℕ}
    (hi : i ∈ (classifyWideL3 dataLen offset ethType).reads buf) : i < dataLen := by
  rw [classifyWideL3] at hi
  split_ifs at hi with htype hlen
  · simp at hi
  · simp at hi
  · rw [ByteReader.reads_bind, ByteReader.reads_bind, ByteReader.reads_byte, ByteReader.reads_byte,
      List.mem_append, List.mem_append, List.mem_singleton, List.mem_singleton] at hi
    rw [sizeofIpv4Hdr] at hlen
    rcases hi with hproto | hversion | hl4
    · omega
    · omega
    · exact classifyWideL4_reads hl4

lemma classifyWide_reads {dataLen : ℕ} {buf : ℕ → UInt8} {i : ℕ}
    (hi : i ∈ (classifyWide dataLen).reads buf) : i < dataLen := by
  rw [classifyWide] at hi
  split at hi
  · simp at hi
  · rename_i hlen
    rw [sizeofEtherHdr] at hlen
    rw [ByteReader.reads_bind, etherType, ByteReader.reads_be16, List.mem_append,
      List.mem_pair] at hi
    rcases hi with htype | hrest
    · omega
    · split_ifs at hrest with htag hvlan
      · simp at hrest
      · rw [ByteReader.reads_bind, ByteReader.reads_be16, List.mem_append, List.mem_pair] at hrest
        rw [sizeofEtherHdr, sizeofVlanHdr] at hvlan
        rcases hrest with hproto | hl3
        · rw [sizeofEtherHdr] at hproto
          omega
        · exact classifyWideL3_reads hl3
      · exact classifyWideL3_reads hrest

lemma classify_reads {dataLen : UInt16} {buf : ℕ → UInt8} {i : ℕ}
    (hi : i ∈ (classify dataLen).reads buf) : i < dataLen.toNat := by
  rw [classify_eq_wide] at hi
  exact classifyWide_reads hi

/-- **No read outside the frame**, for every length and every contents, and no
offset that wraps. -/
theorem classify_in_bounds (m : Mbuf) :
    (∀ i ∈ (classify m.dataLen).reads m.data, i < m.dataLen.toNat)
      ∧ classify m.dataLen = classifyWide m.dataLen.toNat
      ∧ (sizeofEtherHdr.toUInt16 + sizeofVlanHdr.toUInt16).toNat = sizeofEtherHdr + sizeofVlanHdr
      ∧ ∀ offset ∈ [sizeofEtherHdr.toUInt16, sizeofEtherHdr.toUInt16 + sizeofVlanHdr.toUInt16],
          ∀ versionIhl : UInt8, (offset + (versionIhl &&& 0x0F).toUInt16 * 4).toNat
            = offset.toNat + (versionIhl &&& 0x0F).toNat * 4 := by
  refine ⟨fun i hi => classify_reads hi, classify_eq_wide m.dataLen, rfl,
    fun offset hoffset versionIhl => ?_⟩
  rcases List.mem_pair.mp hoffset with rfl | rfl
  · exact toNat_add_ihl (by decide) versionIhl
  · exact toNat_add_ihl (by decide) versionIhl

/-- What lies behind the frame makes no difference. -/
theorem classifyPacket_congr {m m' : Mbuf} (hlen : m'.dataLen = m.dataLen)
    (hdata : ∀ i < m.dataLen.toNat, m'.data i = m.data i) :
    classifyPacket m' = classifyPacket m := by
  rw [classifyPacket, classifyPacket, hlen]
  exact (ByteReader.eval_congr _ fun i hi => (hdata i (classify_reads hi)).symm).symm

/-! ### What the verdict depends on -/

/-- A frame with an IPv4 packet: the version and a possible header length. -/
@[mk_iff]
structure Ipv4Frame (m : Mbuf) : Prop where
  carriesIpv4 : CarriesIpv4 m
  version : ipVersion m = 4
  ihl_ge : 5 ≤ ihl m

instance (m : Mbuf) : Decidable (Ipv4Frame m) := decidable_of_iff' _ (ipv4Frame_iff m)

/-- The size of the transport header. -/
def sizeofL4Hdr (proto : UInt8) : ℕ :=
  if proto = ipprotoUdp then sizeofUdpHdr else if proto = ipprotoTcp then sizeofTcpHdr else 0

/-- The byte belongs to a header. Only the first fragment of a packet has a
transport header. -/
def HeaderByte (m : Mbuf) (i : ℕ) : Prop :=
  i < l4Offset m ∨ (fragmentOffset m = 0 ∧ i < l4Offset m + sizeofL4Hdr (ipProto m))

/-- Frames of one length with the same headers. -/
structure SameHeaders (m m' : Mbuf) : Prop where
  dataLen : m'.dataLen = m.dataLen
  data : ∀ i < m.dataLen.toNat, HeaderByte m i → m'.data i = m.data i

/-- The bytes of a later fragment are long enough to be taken for a header with
ports. -/
def FragmentPorts (m : Mbuf) : Prop :=
  fragmentOffset m ≠ 0 ∧
    ((ipProto m = ipprotoUdp ∧ l4Offset m + sizeofUdpHdr ≤ m.dataLen.toNat) ∨
      (ipProto m = ipprotoTcp ∧ l4Offset m + sizeofTcpHdr ≤ m.dataLen.toNat))

section SameFrameHeader

variable {m m' : Mbuf} (hdata : ∀ i < l3Offset m, m'.data i = m.data i)

include hdata

lemma l3Offset_congr : l3Offset m' = l3Offset m := by
  have hle := l3Offset_cases m
  have htype : etherType.eval m'.data = etherType.eval m.data := by
    rw [etherType, ByteReader.eval_be16, ByteReader.eval_be16, hdata 12 (by omega),
      hdata (12 + 1) (by omega)]
  rw [l3Offset, l3Offset, htype]

lemma l3Type_congr : l3Type m' = l3Type m := by
  have hle := l3Offset_cases m
  rw [l3Type, l3Type, l3Offset_congr hdata, ByteReader.eval_be16, ByteReader.eval_be16,
    hdata (l3Offset m - 2) (by omega), hdata (l3Offset m - 2 + 1) (by omega)]

end SameFrameHeader

section SameNetworkHeader

variable {m m' : Mbuf} (hdata : ∀ i < l3Offset m + sizeofIpv4Hdr, m'.data i = m.data i)

include hdata

lemma data_l3Offset_congr {j : ℕ} (hj : j < sizeofIpv4Hdr) :
    m'.data (l3Offset m' + j) = m.data (l3Offset m + j) := by
  rw [l3Offset_congr fun i hi => hdata i (Nat.lt_add_right _ hi)]
  exact hdata _ (Nat.add_lt_add_left hj _)

lemma ipVersion_congr : ipVersion m' = ipVersion m :=
  congrArg (fun b : UInt8 => (b >>> 4).toNat) (data_l3Offset_congr hdata (by decide : 0 < 20))

lemma ihl_congr : ihl m' = ihl m :=
  congrArg (fun b : UInt8 => (b &&& 0x0F).toNat) (data_l3Offset_congr hdata (by decide : 0 < 20))

lemma ipProto_congr : ipProto m' = ipProto m :=
  data_l3Offset_congr hdata (by decide : 9 < 20)

lemma l4Offset_congr : l4Offset m' = l4Offset m := by
  rw [l4Offset, l4Offset, ihl_congr hdata, l3Offset_congr fun i hi => hdata i
    (Nat.lt_add_right _ hi)]

end SameNetworkHeader

section SameHeaders

variable {m m' : Mbuf}

/-- The fixed part of the network header is among the headers. -/
lemma SameHeaders.network (h : SameHeaders m m') (hm : Ipv4Frame m)
    (hlen : l3Offset m + sizeofIpv4Hdr ≤ m.dataLen.toNat) :
    ∀ i < l3Offset m + sizeofIpv4Hdr, m'.data i = m.data i := by
  intro i hi
  have hihl := hm.ihl_ge
  have hl4 : i < l4Offset m := by
    rw [sizeofIpv4Hdr] at hi
    rw [l4Offset]
    omega
  exact h.data i (by omega) (Or.inl hl4)

/-- The port is too, unless it is that of a later fragment. -/
lemma SameHeaders.dstPort (h : SameHeaders m m') (hports : ¬FragmentPorts m)
    (hl4 : l4Offset m' = l4Offset m) (hproto : ipProto m = ipprotoUdp ∨ ipProto m = ipprotoTcp)
    (hlen : l4Offset m + sizeofL4Hdr (ipProto m) ≤ m.dataLen.toNat) :
    dstPort m' = dstPort m := by
  have hfirst : fragmentOffset m = 0 := by
    by_contra hlater
    refine hports ⟨hlater, hproto.imp (fun hp => ⟨hp, ?_⟩) (fun hp => ⟨hp, ?_⟩)⟩
    · rwa [hp] at hlen
    · rwa [hp] at hlen
  have hsize : 4 ≤ sizeofL4Hdr (ipProto m) := by
    rcases hproto with hp | hp <;> rw [hp] <;> decide
  have hbyte : ∀ j < 4, m'.data (l4Offset m + j) = m.data (l4Offset m + j) := by
    intro j hj
    exact h.data _ (by omega) (Or.inr ⟨hfirst, by omega⟩)
  rw [Segregation.dstPort, Segregation.dstPort, hl4, ByteReader.eval_be16, ByteReader.eval_be16,
    hbyte 2 (by decide), Nat.add_assoc, hbyte (2 + 1) (by decide)]

/-- What the transport header says is the same. -/
lemma SameHeaders.controlL4 (h : SameHeaders m m') (hm : Ipv4Frame m) (hports : ¬FragmentPorts m)
    (hlen : l3Offset m + sizeofIpv4Hdr ≤ m.dataLen.toNat) : ControlL4 m' ↔ ControlL4 m := by
  have hnet := h.network hm hlen
  have hl4 := l4Offset_congr hnet
  rw [ControlL4, ControlL4, ipProto_congr hnet, hl4, h.dataLen]
  refine or_congr_right (or_congr_right (or_congr ?_ ?_))
  · refine and_congr_right fun hp => and_congr_right fun hle => ?_
    rw [h.dstPort hports hl4 (Or.inl hp) (by rwa [hp])]
  · refine and_congr_right fun hp => and_congr_right fun hle => ?_
    rw [h.dstPort hports hl4 (Or.inr hp) (by rwa [hp])]

/-- Frames with the same headers get the same verdict. -/
lemma SameHeaders.classifyPacket_eq (h : SameHeaders m m') (hm : Ipv4Frame m)
    (hm' : Ipv4Frame m') (hports : ¬FragmentPorts m) :
    classifyPacket m' = classifyPacket m := by
  have hl3 : l3Offset m' = l3Offset m := l3Offset_congr fun i hi => by
    have hle : l3Offset m ≤ l4Offset m := Nat.le_add_right _ _
    have hin : l3Offset m ≤ m.dataLen.toNat := hm.carriesIpv4.1
    exact h.data i (by omega) (Or.inl (by omega))
  simp only [Segregation.classifyPacket_eq, hm.carriesIpv4, hm'.carriesIpv4, hl3, h.dataLen,
    true_and]
  by_cases hlen : l3Offset m + sizeofIpv4Hdr ≤ m.dataLen.toNat
  · simp only [h.controlL4 hm hports hlen]
  · simp only [hlen, false_and]

end SameHeaders

/-! ### A later fragment -/

/-- The frame with other bytes where a first fragment has its destination port. -/
def withPort (hi lo : UInt8) (m : Mbuf) : Mbuf :=
  { m with
    data := Function.update (Function.update m.data (l4Offset m + 2) hi) (l4Offset m + 3) lo }

lemma withPort_data (hi lo : UInt8) (m : Mbuf) {i : ℕ} (h : i < l4Offset m) :
    (withPort hi lo m).data i = m.data i := by
  have h2 : i ≠ l4Offset m + 2 := by omega
  have h3 : i ≠ l4Offset m + 3 := by omega
  exact (Function.update_of_ne h3 _ _).trans (Function.update_of_ne h2 _ _)

lemma sameHeaders_withPort (hi lo : UInt8) {m : Mbuf} (hlater : fragmentOffset m ≠ 0) :
    SameHeaders m (withPort hi lo m) := by
  refine ⟨rfl, fun i _ hbyte => ?_⟩
  rcases hbyte with hheader | ⟨hfirst, -⟩
  · exact withPort_data hi lo m hheader
  · exact absurd hfirst hlater

section WithPort

variable {m : Mbuf} (hi lo : UInt8) (hm : Ipv4Frame m)

include hm

lemma withPort_network :
    ∀ i < l3Offset m + sizeofIpv4Hdr, (withPort hi lo m).data i = m.data i := by
  intro i h
  have hihl := hm.ihl_ge
  have hl4 : i < l4Offset m := by
    rw [sizeofIpv4Hdr] at h
    rw [l4Offset]
    omega
  exact withPort_data hi lo m hl4

lemma withPort_frame : ∀ i < l3Offset m, (withPort hi lo m).data i = m.data i :=
  fun i h => withPort_network hi lo hm i (Nat.lt_add_right _ h)

lemma carriesIpv4_withPort : CarriesIpv4 (withPort hi lo m) := by
  have hframe := withPort_frame hi lo hm
  rw [CarriesIpv4, l3Offset_congr hframe, l3Type_congr hframe]
  exact hm.carriesIpv4

lemma ipv4Frame_withPort : Ipv4Frame (withPort hi lo m) := by
  have hnet := withPort_network hi lo hm
  refine ⟨carriesIpv4_withPort hi lo hm, ?_, ?_⟩
  · rw [ipVersion_congr hnet]
    exact hm.version
  · rw [ihl_congr hnet]
    exact hm.ihl_ge

lemma dstPort_withPort :
    dstPort (withPort hi lo m) = hi.toUInt16 * 256 + lo.toUInt16 := by
  have h2 : (withPort hi lo m).data (l4Offset m + 2) = hi := by
    have hne : l4Offset m + 2 ≠ l4Offset m + 3 := by omega
    exact (Function.update_of_ne hne _ _).trans (Function.update_self _ _ _)
  have h3 : (withPort hi lo m).data (l4Offset m + 2 + 1) = lo := Function.update_self _ _ _
  rw [dstPort, l4Offset_congr (withPort_network hi lo hm), ByteReader.eval_be16, h2, h3]

/-- What is taken for the port of a later fragment decides. -/
lemma classifyPacket_withPort (hports : FragmentPorts m) :
    classifyPacket (withPort 0 53 m) = 1 ∧ classifyPacket (withPort 0 0 m) = 0 := by
  have hlen : l3Offset m + sizeofIpv4Hdr ≤ m.dataLen.toNat := by
    have hihl := hm.ihl_ge
    have hl4 : l4Offset m = l3Offset m + ihl m * 4 := rfl
    rw [sizeofIpv4Hdr]
    rcases hports.2 with ⟨-, hle⟩ | ⟨-, hle⟩ <;> omega
  have hcontrol : ∀ lo, ControlL4 (withPort 0 lo m)
      ↔ ipProto m = ipprotoIcmp ∨ ipProto m = ipprotoOspf ∨
        (ipProto m = ipprotoUdp ∧ l4Offset m + sizeofUdpHdr ≤ m.dataLen.toNat ∧
          lo.toUInt16 ∈ [53, 67, 68, 123, 161]) ∨
        (ipProto m = ipprotoTcp ∧ l4Offset m + sizeofTcpHdr ≤ m.dataLen.toNat ∧
          lo.toUInt16 ∈ [22, 53, 179, 389]) := by
    intro lo
    have hnet := withPort_network 0 lo hm
    have hport : dstPort (withPort 0 lo m) = lo.toUInt16 := by
      rw [dstPort_withPort 0 lo hm]
      simp
    rw [ControlL4, ipProto_congr hnet, l4Offset_congr hnet, hport]
    rfl
  constructor
  · rw [classifyPacket_eq_one_iff, l3Offset_congr (withPort_frame 0 53 hm), hcontrol]
    refine ⟨carriesIpv4_withPort 0 53 hm, hlen, Or.inr (Or.inr ?_)⟩
    rcases hports.2 with ⟨hp, hle⟩ | ⟨hp, hle⟩
    · exact Or.inl ⟨hp, hle, by decide⟩
    · exact Or.inr ⟨hp, hle, by decide⟩
  · rw [classifyPacket_eq_zero_iff, hcontrol]
    rintro ⟨-, -, hicmp | hospf | ⟨-, -, hmem⟩ | ⟨-, -, hmem⟩⟩
    · rcases hports.2 with ⟨hp, -⟩ | ⟨hp, -⟩ <;> rw [hp] at hicmp <;> exact absurd hicmp (by decide)
    · rcases hports.2 with ⟨hp, -⟩ | ⟨hp, -⟩ <;> rw [hp] at hospf <;> exact absurd hospf (by decide)
    · exact absurd hmem (by decide)
    · exact absurd hmem (by decide)

end WithPort

/-- **The payload is ignored**: every frame with the same headers gets the same
verdict, exactly unless the frame is a later fragment of a UDP or TCP packet with
room for a header where the first fragment has one. -/
theorem payload_ignored_iff (m : Mbuf) (hm : Ipv4Frame m) :
    (∀ m', Ipv4Frame m' → SameHeaders m m' → classifyPacket m' = classifyPacket m)
      ↔ ¬FragmentPorts m := by
  constructor
  · intro hsame hports
    have hverdicts := classifyPacket_withPort hm hports
    have h53 := hsame _ (ipv4Frame_withPort 0 53 hm) (sameHeaders_withPort 0 53 hports.1)
    have h0 := hsame _ (ipv4Frame_withPort 0 0 hm) (sameHeaders_withPort 0 0 hports.1)
    rw [hverdicts.1] at h53
    rw [hverdicts.2, ← h53] at h0
    exact absurd h0 zero_ne_one
  · intro hports m' hm' hsame
    exact hsame.classifyPacket_eq hm hm' hports

/-- A later fragment of a datagram, with that payload. -/
def laterFragment (payload : List UInt8) : Mbuf := frame 42 (ipv4Bytes 0x45 0 185 17 ++ payload)

/-- Two payloads of one fragment, of which one goes to the control ring. -/
theorem fragment_payload_decides :
    ¬∀ m m', Ipv4Frame m → Ipv4Frame m' → SameHeaders m m' →
      classifyPacket m' = classifyPacket m := by
  intro h
  have hplain : Ipv4Frame (laterFragment [0, 0, 0, 0]) := by decide
  have hlookup : Ipv4Frame (laterFragment [0, 0, 0, 53]) := by decide
  have hheader : ∀ i < 34, (laterFragment [0, 0, 0, 53]).data i
      = (laterFragment [0, 0, 0, 0]).data i := by decide
  have hsame : SameHeaders (laterFragment [0, 0, 0, 0]) (laterFragment [0, 0, 0, 53]) := by
    refine ⟨rfl, fun i _ hbyte => hheader i ?_⟩
    rcases hbyte with hlt | ⟨hfirst, -⟩
    · exact hlt
    · exact absurd hfirst (by decide)
  have heq := h _ _ hplain hlookup hsame
  exact absurd heq (by decide)

/-- A whole datagram with that first byte of payload. -/
def datagram (first : UInt8) : Mbuf :=
  frame 44 (ipv4Bytes 0x45 0 0 17 ++ [0x30, 0x39, 0, 53, 0, 9, 0, 0, first])

theorem datagram_payload_ignored : classifyPacket (datagram 1) = classifyPacket (datagram 0) := by
  have hframe : Ipv4Frame (datagram 0) := by decide
  have hframe' : Ipv4Frame (datagram 1) := by decide
  have hheader : ∀ i < 42, (datagram 1).data i = (datagram 0).data i := by decide
  have hsame : SameHeaders (datagram 0) (datagram 1) := by
    refine ⟨rfl, fun i _ hbyte => hheader i ?_⟩
    rcases hbyte with hlt | ⟨-, hlt⟩
    · exact lt_trans hlt (by decide)
    · exact hlt
  exact (payload_ignored_iff _ hframe).mpr (fun h => absurd (by decide) h.1) _ hframe' hsame

end DpdkStarter.Segregation
