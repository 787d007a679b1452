import DpdkStarter.Segregation.Classify

/-!
`control_data_segregation/main.c`: the verdict of `classify_packet` in terms of
the headers of the frame.

The headers are read off the frame as the standards lay them out, with the
network header behind at most one VLAN tag; none of it mentions `offset`.

* `l3Offset`, `l4Offset`: where the headers start; `ihl`, `ipProto`, `dstPort` and
  the others: their fields.
* `classifyPacket_eq`: the control frames, for every frame there is.
* `classifyPacket_wellFormed`: on well-formed packets.
* `malformed_data_iff`: on malformed ones.
* `classifyPacket_tag`: a VLAN tag makes no difference.
-/

namespace DpdkStarter.Segregation

/-! ### Header fields -/

/-- Where the network header starts. -/
def l3Offset (m : Mbuf) : ℕ :=
  if etherType.eval m.data = etherTypeVlan then sizeofEtherHdr + sizeofVlanHdr else sizeofEtherHdr

/-- The ethertype after at most one VLAN tag. -/
def l3Type (m : Mbuf) : UInt16 := (ByteReader.be16 (l3Offset m - 2)).eval m.data

/-- The version of the network header. -/
def ipVersion (m : Mbuf) : ℕ := (m.data (l3Offset m) >>> 4).toNat

/-- The length of the network header in 32-bit words. -/
def ihl (m : Mbuf) : ℕ := (m.data (l3Offset m) &&& 0x0F).toNat

/-- The protocol. -/
def ipProto (m : Mbuf) : UInt8 := m.data (l3Offset m + 9)

/-- The fragment offset, without the flags. -/
def fragmentOffset (m : Mbuf) : UInt16 := (ByteReader.be16 (l3Offset m + 6)).eval m.data &&& 0x1FFF

/-- Where the transport header starts. -/
def l4Offset (m : Mbuf) : ℕ := l3Offset m + ihl m * 4

/-- The destination port. -/
def dstPort (m : Mbuf) : UInt16 := (ByteReader.be16 (l4Offset m + 2)).eval m.data

/-- The frame has an ethertype after at most one VLAN tag, that of IPv4. -/
def CarriesIpv4 (m : Mbuf) : Prop := l3Offset m ≤ m.dataLen.toNat ∧ l3Type m = etherTypeIpv4

instance (m : Mbuf) : Decidable (CarriesIpv4 m) := inferInstanceAs (Decidable (_ ∧ _))

/-- What the transport header says is control traffic: the protocols without
ports, and the ports of UDP and TCP when their header is in the frame. -/
def ControlL4 (m : Mbuf) : Prop :=
  ipProto m = ipprotoIcmp ∨ ipProto m = ipprotoOspf ∨
    (ipProto m = ipprotoUdp ∧ l4Offset m + sizeofUdpHdr ≤ m.dataLen.toNat ∧
      dstPort m ∈ [53, 67, 68, 123, 161]) ∨
    (ipProto m = ipprotoTcp ∧ l4Offset m + sizeofTcpHdr ≤ m.dataLen.toNat ∧
      dstPort m ∈ [22, 53, 179, 389])

instance (m : Mbuf) : Decidable (ControlL4 m) := inferInstanceAs (Decidable (_ ∨ _))

lemma l3Offset_cases (m : Mbuf) : l3Offset m = 14 ∨ l3Offset m = 18 := by
  rw [l3Offset]
  split
  · exact Or.inr rfl
  · exact Or.inl rfl

/-! ### The offsets do not wrap -/

/-- `offset += ihl` does not wrap below the largest frame. -/
lemma toNat_add_ihl {offset : UInt16} (h : offset.toNat ≤ 18) (versionIhl : UInt8) :
    (offset + (versionIhl &&& 0x0F).toUInt16 * 4).toNat
      = offset.toNat + (versionIhl &&& 0x0F).toNat * 4 := by
  have hle : (versionIhl &&& 0x0F).toNat ≤ 15 := by
    rw [UInt8.toNat_and]
    exact Nat.and_le_right
  simp only [UInt16.toNat_add, UInt16.toNat_mul, UInt8.toNat_toUInt16, UInt16.reduceToNat]
  omega

section Offsets

variable {m : Mbuf}

/-- Nor is `offset += ihl` another number than the start of the transport header. -/
lemma toNat_l4Offset {offset : UInt16} (h : offset.toNat = l3Offset m) :
    (offset + (m.data (l3Offset m) &&& 0x0F).toUInt16 * 4).toNat = l4Offset m := by
  have hle : offset.toNat ≤ 18 := by
    rcases l3Offset_cases m with h' | h' <;> omega
  rw [toNat_add_ihl hle, h]
  rfl

lemma l3Offset_of_tag (h : etherType.eval m.data = etherTypeVlan) : l3Offset m = 18 := if_pos h

lemma l3Type_of_tag (h : etherType.eval m.data = etherTypeVlan) :
    (ByteReader.be16 16).eval m.data = l3Type m := by
  rw [l3Type, l3Offset_of_tag h]

lemma l3Offset_of_noTag (h : etherType.eval m.data ≠ etherTypeVlan) : l3Offset m = 14 := if_neg h

lemma l3Type_of_noTag (h : etherType.eval m.data ≠ etherTypeVlan) :
    etherType.eval m.data = l3Type m := by
  rw [l3Type, l3Offset_of_noTag h, etherType]

end Offsets

/-! ### The verdict -/

/-- The port tests answer 0 or 1. -/
lemma isControlUdpPort_eq (port : UInt16) :
    isControlUdpPort port = if port ∈ [53, 67, 68, 123, 161] then 1 else 0 := by
  simp [isControlUdpPort]

lemma isControlTcpPort_eq (port : UInt16) :
    isControlTcpPort port = if port ∈ [22, 53, 179, 389] then 1 else 0 := by
  simp [isControlTcpPort]

/-- The test of a transport header with ports. -/
lemma eval_portBranch (m : Mbuf) (size : ℕ) {isControlPort : UInt16 → ℕ} {ports : List UInt16}
    (hports : ∀ port, isControlPort port = if port ∈ ports then 1 else 0) :
    (if m.dataLen.toNat < l4Offset m + size then return 0
      else do
        let port ← .be16 (l4Offset m + 2)
        return isControlPort port : ByteReader ℕ).eval m.data
      = if l4Offset m + size ≤ m.dataLen.toNat ∧ dstPort m ∈ ports then 1 else 0 := by
  by_cases hshort : m.dataLen.toNat < l4Offset m + size
  · rw [if_pos hshort, if_neg fun h => absurd h.1 (not_le.mpr hshort)]
    rfl
  · rw [if_neg hshort, ByteReader.eval_bind, ByteReader.eval_pure, ← dstPort, hports]
    simp only [not_lt.mp hshort, true_and]

/-- The part after `offset += ihl`. -/
lemma eval_classifyL4 {m : Mbuf} {offset : UInt16} (hoffset : offset.toNat = l4Offset m) :
    (classifyL4 m.dataLen offset (ipProto m)).eval m.data = if ControlL4 m then 1 else 0 := by
  rw [classifyL4, hoffset]
  by_cases hicmp : ipProto m = ipprotoIcmp
  · have hctl : ControlL4 m := Or.inl hicmp
    rw [if_pos hicmp, if_pos hctl]
    rfl
  by_cases hospf : ipProto m = ipprotoOspf
  · have hctl : ControlL4 m := Or.inr (Or.inl hospf)
    rw [if_neg hicmp, if_pos hospf, if_pos hctl]
    rfl
  rw [if_neg hicmp, if_neg hospf]
  by_cases hudp : ipProto m = ipprotoUdp
  · have hctl : ControlL4 m ↔ l4Offset m + sizeofUdpHdr ≤ m.dataLen.toNat ∧
        dstPort m ∈ [53, 67, 68, 123, 161] := by
      simp [ControlL4, hudp, ipprotoIcmp, ipprotoOspf, ipprotoUdp, ipprotoTcp]
    rw [if_pos hudp, eval_portBranch m sizeofUdpHdr isControlUdpPort_eq]
    simp only [hctl]
  rw [if_neg hudp]
  by_cases htcp : ipProto m = ipprotoTcp
  · have hctl : ControlL4 m ↔ l4Offset m + sizeofTcpHdr ≤ m.dataLen.toNat ∧
        dstPort m ∈ [22, 53, 179, 389] := by
      simp [ControlL4, htcp, ipprotoIcmp, ipprotoOspf, ipprotoUdp, ipprotoTcp]
    rw [if_pos htcp, eval_portBranch m sizeofTcpHdr isControlTcpPort_eq]
    simp only [hctl]
  · have hctl : ¬ControlL4 m := by simp [ControlL4, hicmp, hospf, hudp, htcp]
    rw [if_neg htcp, if_neg hctl]
    rfl

/-- The part from the test of the ethertype on. -/
lemma eval_classifyL3 {m : Mbuf} {offset : UInt16} (hoffset : offset.toNat = l3Offset m) :
    (classifyL3 m.dataLen offset (l3Type m)).eval m.data
      = if l3Type m = etherTypeIpv4 ∧ l3Offset m + sizeofIpv4Hdr ≤ m.dataLen.toNat ∧ ControlL4 m
        then 1 else 0 := by
  have hl4 := toNat_l4Offset hoffset
  rw [classifyL3]
  by_cases htype : l3Type m = etherTypeIpv4
  · rw [if_neg (not_not.mpr htype), hoffset]
    by_cases hshort : m.dataLen.toNat < l3Offset m + sizeofIpv4Hdr
    · rw [if_pos hshort, if_neg (by omega)]
      rfl
    · rw [if_neg hshort, ByteReader.eval_bind, ByteReader.eval_bind, ByteReader.eval_byte,
        ByteReader.eval_byte, ← ipProto, eval_classifyL4 hl4]
      simp only [htype, not_lt.mp hshort, true_and]
  · rw [if_pos htype]
    simp only [htype, false_and, if_false]
    rfl

/-- **The control frames**: IPv4 frames that hold the fixed part of the network
header, with what the transport header says is control traffic. -/
lemma classifyPacket_eq (m : Mbuf) :
    classifyPacket m
      = if CarriesIpv4 m ∧ l3Offset m + sizeofIpv4Hdr ≤ m.dataLen.toNat ∧ ControlL4 m
        then 1 else 0 := by
  have hle := l3Offset_cases m
  rw [classifyPacket, classify]
  by_cases hshort : m.dataLen.toNat < sizeofEtherHdr
  · have hnone : ¬CarriesIpv4 m := fun h => by
      have := h.1
      simp only [sizeofEtherHdr] at hshort
      omega
    rw [if_pos hshort, if_neg fun h => hnone h.1]
    rfl
  rw [if_neg hshort, ByteReader.eval_bind]
  by_cases htag : etherType.eval m.data = etherTypeVlan
  · have hl3 := l3Offset_of_tag htag
    have htype := l3Type_of_tag htag
    rw [if_pos htag]
    by_cases hvlan : m.dataLen.toNat < 18
    · have hnone : ¬CarriesIpv4 m := fun h => by have := h.1; omega
      rw [if_neg (c := CarriesIpv4 m ∧ _) fun h => hnone h.1]
      exact congrArg (fun p : ByteReader ℕ => p.eval m.data) (if_pos hvlan)
    · have hoffset : (18 : UInt16).toNat = l3Offset m := hl3.symm
      calc _ = (classifyL3 m.dataLen 18 (l3Type m)).eval m.data := by
            rw [← htype, ← ByteReader.eval_bind (ByteReader.be16 16)]
            exact congrArg (fun p : ByteReader ℕ => p.eval m.data) (if_neg hvlan)
        _ = _ := eval_classifyL3 hoffset
        _ = _ := by simp only [CarriesIpv4, hl3, not_lt.mp hvlan, true_and]
  · have hl3 := l3Offset_of_noTag htag
    have htype := l3Type_of_noTag htag
    have hlong : 14 ≤ m.dataLen.toNat := not_lt.mp hshort
    have hoffset : (14 : UInt16).toNat = l3Offset m := hl3.symm
    rw [if_neg htag, htype]
    calc _ = _ := eval_classifyL3 hoffset
      _ = _ := by simp only [CarriesIpv4, hl3, hlong, true_and]

lemma classifyPacket_eq_one_iff (m : Mbuf) :
    classifyPacket m = 1
      ↔ CarriesIpv4 m ∧ l3Offset m + sizeofIpv4Hdr ≤ m.dataLen.toNat ∧ ControlL4 m := by
  rw [classifyPacket_eq]
  split
  · exact iff_of_true rfl ‹_›
  · exact iff_of_false zero_ne_one ‹_›

lemma classifyPacket_eq_zero_iff (m : Mbuf) :
    classifyPacket m = 0
      ↔ ¬(CarriesIpv4 m ∧ l3Offset m + sizeofIpv4Hdr ≤ m.dataLen.toNat ∧ ControlL4 m) := by
  rw [classifyPacket_eq]
  split
  · exact iff_of_false one_ne_zero (not_not.mpr ‹_›)
  · exact iff_of_true rfl ‹_›

/-! ### Well-formed packets -/

/-- An unfragmented IPv4 packet whose headers are in the frame. -/
@[mk_iff]
structure WellFormed (m : Mbuf) : Prop where
  carriesIpv4 : CarriesIpv4 m
  version : ipVersion m = 4
  ihl_ge : 5 ≤ ihl m
  unfragmented : fragmentOffset m = 0
  header_le : l4Offset m ≤ m.dataLen.toNat
  udp_le : ipProto m = ipprotoUdp → l4Offset m + sizeofUdpHdr ≤ m.dataLen.toNat
  tcp_le : ipProto m = ipprotoTcp → l4Offset m + sizeofTcpHdr ≤ m.dataLen.toNat

instance (m : Mbuf) : Decidable (WellFormed m) := decidable_of_iff' _ (wellFormed_iff m)

lemma WellFormed.fixed_header_le {m : Mbuf} (h : WellFormed m) :
    l3Offset m + sizeofIpv4Hdr ≤ m.dataLen.toNat := by
  have hihl := h.ihl_ge
  have hheader : l3Offset m + ihl m * 4 ≤ m.dataLen.toNat := h.header_le
  rw [sizeofIpv4Hdr]
  omega

/-- On a well-formed packet the protocol and the port decide. -/
lemma WellFormed.controlL4_iff {m : Mbuf} (h : WellFormed m) :
    ControlL4 m ↔ ipProto m = ipprotoIcmp ∨ ipProto m = ipprotoOspf ∨
      (ipProto m = ipprotoUdp ∧ dstPort m ∈ [53, 67, 68, 123, 161]) ∨
      (ipProto m = ipprotoTcp ∧ dstPort m ∈ [22, 53, 179, 389]) := by
  have hudp : (ipProto m = ipprotoUdp ∧ l4Offset m + sizeofUdpHdr ≤ m.dataLen.toNat ∧
      dstPort m ∈ [53, 67, 68, 123, 161])
        ↔ ipProto m = ipprotoUdp ∧ dstPort m ∈ [53, 67, 68, 123, 161] :=
    and_congr_right fun hp => and_iff_right (h.udp_le hp)
  have htcp : (ipProto m = ipprotoTcp ∧ l4Offset m + sizeofTcpHdr ≤ m.dataLen.toNat ∧
      dstPort m ∈ [22, 53, 179, 389])
        ↔ ipProto m = ipprotoTcp ∧ dstPort m ∈ [22, 53, 179, 389] :=
    and_congr_right fun hp => and_iff_right (h.tcp_le hp)
  rw [ControlL4, hudp, htcp]

/-- **Control against data** on every well-formed packet, by protocol and
destination port; a frame without an IPv4 packet is data. -/
theorem classifyPacket_wellFormed (m : Mbuf) :
    (WellFormed m →
      (classifyPacket m = 1 ↔ ipProto m = ipprotoIcmp ∨ ipProto m = ipprotoOspf ∨
        (ipProto m = ipprotoUdp ∧ dstPort m ∈ [53, 67, 68, 123, 161]) ∨
        (ipProto m = ipprotoTcp ∧ dstPort m ∈ [22, 53, 179, 389])))
      ∧ (¬CarriesIpv4 m → classifyPacket m = 0) := by
  constructor
  · intro h
    rw [classifyPacket_eq_one_iff, ← h.controlL4_iff]
    constructor
    · rintro ⟨-, -, hctl⟩
      exact hctl
    · intro hctl
      exact ⟨h.carriesIpv4, h.fixed_header_le, hctl⟩
  · intro hnone
    rw [classifyPacket_eq_zero_iff]
    exact fun h => hnone h.1

/-- An Ethernet header with that ethertype and the first bytes of an IPv4 header:
version and length, fragment word, protocol. -/
def ipv4Bytes (versionIhl fragHi fragLo proto : UInt8) : List UInt8 :=
  List.replicate 12 0 ++ [0x08, 0x00, versionIhl, 0, 0, 0, 0, 0, fragHi, fragLo, 64, proto]
    ++ List.replicate 10 0

/-- A name lookup and its header with options. -/
def dnsQuery : Mbuf := frame 46 (ipv4Bytes 0x46 0 0 17 ++ [0, 0, 0, 0, 0x30, 0x39, 0, 53])

theorem classifyPacket_dnsQuery :
    classifyPacket dnsQuery = 1 ∧ classifyPacket (frame 60 []) = 0 := by
  have hwell : WellFormed dnsQuery := by decide
  have hnone : ¬CarriesIpv4 (frame 60 []) := by decide
  exact ⟨((classifyPacket_wellFormed dnsQuery).1 hwell).mpr (by decide),
    (classifyPacket_wellFormed (frame 60 [])).2 hnone⟩

/-! ### Malformed packets -/

/-- An IPv4 packet of another version, with a header length below the minimum, or
cut inside its header. -/
def Malformed (m : Mbuf) : Prop :=
  CarriesIpv4 m ∧ (ipVersion m ≠ 4 ∨ ihl m < 5 ∨ m.dataLen.toNat < l4Offset m)

instance (m : Mbuf) : Decidable (Malformed m) := inferInstanceAs (Decidable (_ ∧ _))

/-- **A malformed packet is data** exactly when fewer than 20 bytes of its network
header are in the frame, or its protocol byte and, where the length it declares
puts them, its ports do not name control traffic. -/
theorem malformed_data_iff (m : Mbuf) (hmalformed : Malformed m) :
    classifyPacket m = 0
      ↔ m.dataLen.toNat < l3Offset m + sizeofIpv4Hdr ∨ ¬ControlL4 m := by
  rw [classifyPacket_eq_zero_iff, and_iff_right hmalformed.1, not_and_or, not_le]

/-- An echo request whose header claims to be empty. -/
def emptyHeaderPing : Mbuf := frame 34 (ipv4Bytes 0x40 0 0 1)

theorem malformed_control_frame :
    ¬∀ m, Malformed m → classifyPacket m = 0 := by
  intro h
  have hdata := h emptyHeaderPing (by decide)
  exact absurd hdata (by decide)

theorem malformed_data_frame : classifyPacket (frame 34 (ipv4Bytes 0x40 0 0 99)) = 0 :=
  (malformed_data_iff _ (by decide)).mpr (Or.inr (by decide))

/-! ### A VLAN tag -/

/-- The frame with a tag inserted after the addresses. -/
def tag (tci : UInt16) (m : Mbuf) : Mbuf :=
  { m with
    dataLen := m.dataLen + 4
    data := fun i =>
      if i < 12 then m.data i
      else if i = 12 then 0x81
      else if i = 13 then 0x00
      else if i = 14 then (tci >>> 8).toUInt8
      else if i = 15 then tci.toUInt8
      else m.data (i - 4) }

/-- The ethertype and what comes behind it moves. -/
lemma tag_data (tci : UInt16) (m : Mbuf) {i : ℕ} (hi : 12 ≤ i) :
    (tag tci m).data (i + 4) = m.data i := by
  have h12 : ¬i + 4 < 12 := by omega
  have h13 : i + 4 ≠ 12 := by omega
  simp only [tag]
  rw [if_neg h12, if_neg h13, if_neg (by omega), if_neg (by omega), if_neg (by omega)]
  rfl

lemma be16_tag (tci : UInt16) (m : Mbuf) {i : ℕ} (hi : 12 ≤ i) :
    (ByteReader.be16 (i + 4)).eval (tag tci m).data = (ByteReader.be16 i).eval m.data := by
  rw [ByteReader.eval_be16, ByteReader.eval_be16, tag_data tci m hi, Nat.add_right_comm,
    tag_data tci m (by omega)]

lemma etherType_tag (tci : UInt16) (m : Mbuf) :
    etherType.eval (tag tci m).data = etherTypeVlan := by
  have h12 : (tag tci m).data 12 = 0x81 := rfl
  have h13 : (tag tci m).data 13 = 0x00 := rfl
  rw [etherType, ByteReader.eval_be16, h12, h13]
  rfl

section Tag

variable {m : Mbuf} (tci : UInt16) (huntagged : etherType.eval m.data ≠ etherTypeVlan)

include huntagged

lemma l3Offset_tag : l3Offset (tag tci m) = l3Offset m + 4 := by
  rw [l3Offset, if_pos (etherType_tag tci m), l3Offset, if_neg huntagged]
  rfl

lemma l3Type_tag : l3Type (tag tci m) = l3Type m := by
  rw [l3Type, l3Type, l3Offset_tag tci huntagged, l3Offset_of_noTag huntagged]
  exact be16_tag tci m (le_refl 12)

lemma ihl_tag : ihl (tag tci m) = ihl m := by
  have hle := l3Offset_cases m
  rw [ihl, ihl, l3Offset_tag tci huntagged, tag_data tci m (by omega)]

lemma ipProto_tag : ipProto (tag tci m) = ipProto m := by
  have hle := l3Offset_cases m
  rw [ipProto, ipProto, l3Offset_tag tci huntagged, Nat.add_right_comm,
    tag_data tci m (by omega)]

lemma l4Offset_tag : l4Offset (tag tci m) = l4Offset m + 4 := by
  rw [l4Offset, l4Offset, l3Offset_tag tci huntagged, ihl_tag tci huntagged, Nat.add_right_comm]

lemma dstPort_tag : dstPort (tag tci m) = dstPort m := by
  have hle := l3Offset_cases m
  have hl4 : 12 ≤ l4Offset m + 2 := by
    rw [l4Offset]
    omega
  rw [dstPort, dstPort, l4Offset_tag tci huntagged, Nat.add_right_comm, be16_tag tci m hl4]

end Tag

/-- **A VLAN tag makes no difference**, to whatever frame it is put on. -/
theorem classifyPacket_tag (tci : UInt16) (m : Mbuf) (hlen : m.dataLen.toNat ≤ 65531)
    (huntagged : etherType.eval m.data ≠ etherTypeVlan) :
    classifyPacket (tag tci m) = classifyPacket m := by
  have hdataLen : (tag tci m).dataLen.toNat = m.dataLen.toNat + 4 := by
    simp only [tag, UInt16.toNat_add, UInt16.reduceToNat]
    omega
  have hcarries : CarriesIpv4 (tag tci m) ↔ CarriesIpv4 m := by
    rw [CarriesIpv4, CarriesIpv4, l3Offset_tag tci huntagged, l3Type_tag tci huntagged, hdataLen,
      Nat.add_le_add_iff_right]
  have hcontrol : ControlL4 (tag tci m) ↔ ControlL4 m := by
    rw [ControlL4, ControlL4, ipProto_tag tci huntagged, l4Offset_tag tci huntagged,
      dstPort_tag tci huntagged, hdataLen, Nat.add_right_comm, Nat.add_le_add_iff_right,
      Nat.add_right_comm, Nat.add_le_add_iff_right]
  simp only [classifyPacket_eq, hcarries, hcontrol, l3Offset_tag tci huntagged, hdataLen,
    Nat.add_right_comm, Nat.add_le_add_iff_right]

theorem classifyPacket_tag_ping :
    classifyPacket (tag 7 emptyHeaderPing) = classifyPacket emptyHeaderPing :=
  classifyPacket_tag 7 emptyHeaderPing (by decide) (by decide)

end DpdkStarter.Segregation
