import DpdkStarter.PacketParser.ParsePacket

/-!
The two packet decoders of the repository: `parse_packet` of
`thread_parsing/threaded_project/parser.c` and `classify_packet` of
`control_data_segregation/main.c`.

* `decidesOn`: the protocol and the destination port `classify_packet` comes to test;
  `classifyPacket_eq_verdict`: they decide about every frame.
* `reported`: the protocol and the destination port among the lines `parse_packet`
  prints.
* `decoders_agree`: on every IPv4 frame that holds its headers they are the same.
-/

namespace DpdkStarter.PacketParser

open Segregation

/-! ### What `classify_packet` decides on -/

/-- `classifyL4` up to its last test: the protocol, and the port when it is loaded. -/
def decidesOnL4 (dataLen offset : UInt16) (proto : UInt8) : ByteReader (UInt8 × Option UInt16) :=
  if proto = ipprotoIcmp then return (proto, none)
  else if proto = ipprotoOspf then return (proto, none)
  else if proto = ipprotoUdp then
    if dataLen.toNat < offset.toNat + sizeofUdpHdr then return (proto, none)
    else do
      let port ← .be16 (offset.toNat + 2)
      return (proto, some port)
  else if proto = ipprotoTcp then
    if dataLen.toNat < offset.toNat + sizeofTcpHdr then return (proto, none)
    else do
      let port ← .be16 (offset.toNat + 2)
      return (proto, some port)
  else return (proto, none)

/-- `classifyL3` up to its last test. -/
def decidesOnL3 (dataLen offset ethType : UInt16) :
    ByteReader (Option (UInt8 × Option UInt16)) :=
  if ethType ≠ etherTypeIpv4 then return none
  else if dataLen.toNat < offset.toNat + sizeofIpv4Hdr then return none
  else do
    let proto ← .byte (offset.toNat + 9)
    let versionIhl ← .byte offset.toNat
    let ihl : UInt16 := (versionIhl &&& 0x0F).toUInt16 * 4
    let d ← decidesOnL4 dataLen (offset + ihl) proto
    return some d

/-- `classify` up to its last test; `none` when the frame is data before its protocol
is looked at. -/
def decides (dataLen : UInt16) : ByteReader (Option (UInt8 × Option UInt16)) :=
  if dataLen.toNat < sizeofEtherHdr then return none
  else do
    let offset : UInt16 := sizeofEtherHdr.toUInt16
    let ethType ← etherType
    if ethType = etherTypeVlan then
      if dataLen.toNat < offset.toNat + sizeofVlanHdr then return none
      else do
        let ethProto ← .be16 (offset.toNat + 2)
        decidesOnL3 dataLen (offset + sizeofVlanHdr.toUInt16) ethProto
    else decidesOnL3 dataLen offset ethType

/-- What `classify_packet` decides on. -/
def decidesOn (m : Mbuf) : Option (UInt8 × Option UInt16) := (decides m.dataLen).eval m.data

/-- The last test of `classify_packet`. -/
def verdict (proto : UInt8) (port : Option UInt16) : ℕ :=
  if proto = ipprotoIcmp ∨ proto = ipprotoOspf then 1
  else match port with
    | none => 0
    | some port =>
        if proto = ipprotoUdp then isControlUdpPort port else isControlTcpPort port

/-- The tests of a protocol and its port. -/
lemma verdict_eq_one_iff {proto : UInt8} {port : Option UInt16}
    (hport : port ≠ none → proto = ipprotoUdp ∨ proto = ipprotoTcp) :
    verdict proto port = 1
      ↔ proto = ipprotoIcmp ∨ proto = ipprotoOspf ∨
        (∃ p, (proto, port) = (ipprotoUdp, some p) ∧ isControlUdpPort p = 1) ∨
        (∃ p, (proto, port) = (ipprotoTcp, some p) ∧ isControlTcpPort p = 1) := by
  have hudptcp : ipprotoTcp ≠ ipprotoUdp := by decide
  rw [← or_assoc]
  by_cases hproto : proto = ipprotoIcmp ∨ proto = ipprotoOspf
  · exact iff_of_true (if_pos hproto) (Or.inl hproto)
  rw [or_iff_right hproto]
  cases port with
  | none =>
      rw [verdict, if_neg hproto]
      simp
  | some p =>
      rw [verdict, if_neg hproto]
      rcases hport (Option.some_ne_none p) with rfl | rfl
      · simp [hudptcp.symm]
      · simp [hudptcp]

lemma eval_classifyL4_eq_verdict (dataLen offset : UInt16) (proto : UInt8) (buf : ℕ → UInt8) :
    (classifyL4 dataLen offset proto).eval buf
      = verdict ((decidesOnL4 dataLen offset proto).eval buf).1
          ((decidesOnL4 dataLen offset proto).eval buf).2 := by
  rw [classifyL4, decidesOnL4]
  split_ifs with hicmp hospf hudp hshort htcp hshort
  · simp [verdict, hicmp]
  · simp [verdict, hospf]
  · simp [verdict, hicmp, hospf]
  · simp only [verdict, ByteReader.eval_bind, ByteReader.eval_pure, hicmp, hospf, or_self, if_false,
      if_pos hudp]
  · simp [verdict, hicmp, hospf]
  · simp only [verdict, ByteReader.eval_bind, ByteReader.eval_pure, hicmp, hospf, or_self, if_false,
      if_neg hudp]
  · simp [verdict, hicmp, hospf]

lemma eval_classifyL3_eq_verdict (dataLen offset ethType : UInt16) (buf : ℕ → UInt8) :
    (classifyL3 dataLen offset ethType).eval buf
      = ((decidesOnL3 dataLen offset ethType).eval buf).elim 0 fun d => verdict d.1 d.2 := by
  rw [classifyL3, decidesOnL3]
  split_ifs with htype hshort
  · rfl
  · rfl
  · simp only [ByteReader.eval_bind, ByteReader.eval_pure, Option.elim_some,
      eval_classifyL4_eq_verdict]

/-- **The verdict** on every frame is that on the protocol and the port it comes to
test; a frame without a protocol is data. -/
lemma classifyPacket_eq_verdict (m : Mbuf) :
    classifyPacket m = (decidesOn m).elim 0 fun d => verdict d.1 d.2 := by
  rw [classifyPacket, decidesOn, classify, decides]
  split_ifs with hshort
  · rfl
  · simp only [ByteReader.eval_bind]
    split_ifs with htag hvlan
    · rfl
    · simp only [ByteReader.eval_bind, eval_classifyL3_eq_verdict]
    · exact eval_classifyL3_eq_verdict _ _ _ _

/-! ### What `parse_packet` reports -/

/-- The protocol number of a transport protocol. -/
def Transport.proto : Transport → UInt8
  | .udp => ipprotoUdp
  | .tcp => ipprotoTcp
  | .icmp => ipprotoIcmp

/-- The protocol a line names. -/
def Line.proto? : Line → Option UInt8
  | .l4 t | .l4Ipv6 t => some t.proto
  | _ => none

/-- The destination port a line gives. -/
def Line.dstPort? : Line → Option UInt16
  | .dstPort port => some port
  | _ => none

/-- The protocol and the destination port in the lines printed. -/
def reported (lines : List Line) : Option (UInt8 × Option UInt16) :=
  (lines.findSome? Line.proto?).map fun proto => (proto, lines.findSome? Line.dstPort?)

/-- The destination port of the transport protocols with ports. -/
def headerPort (m : Mbuf) : Option UInt16 :=
  if ipProto m = ipprotoUdp ∨ ipProto m = ipprotoTcp then some (dstPort m) else none

/-- An IPv4 frame that holds its headers, whatever length its network header claims. -/
@[mk_iff]
structure HoldsHeaders (m : Mbuf) : Prop where
  carriesIpv4 : CarriesIpv4 m
  fixed_le : l3Offset m + sizeofIpv4Hdr ≤ m.dataLen.toNat
  udp_le : ipProto m = ipprotoUdp → l4Offset m + sizeofUdpHdr ≤ m.dataLen.toNat
  tcp_le : ipProto m = ipprotoTcp → l4Offset m + sizeofTcpHdr ≤ m.dataLen.toNat

instance (m : Mbuf) : Decidable (HoldsHeaders m) := decidable_of_iff' _ (holdsHeaders_iff m)

section Fields

variable {m : Mbuf} {offset : UInt16}

/-- The lines of the transport header. -/
lemma reported_parseIpv4L4 (hoffset : offset.toNat = l4Offset m) :
    reported ((parseIpv4L4 offset (ipProto m)).eval m.data)
      = if ipProto m ∈ [ipprotoUdp, ipprotoTcp, ipprotoIcmp]
        then some (ipProto m, headerPort m) else none := by
  have hudpicmp : ipprotoIcmp ≠ ipprotoUdp := by decide
  have htcpicmp : ipprotoIcmp ≠ ipprotoTcp := by decide
  simp only [parseIpv4L4, List.mem_cons, List.not_mem_nil, or_false, headerPort, dstPort, ← hoffset]
  by_cases hudp : ipProto m = ipprotoUdp
  · simp only [hudp, if_true, true_or]
    rfl
  by_cases htcp : ipProto m = ipprotoTcp
  · simp only [htcp, if_true, true_or, or_true]
    rfl
  by_cases hicmp : ipProto m = ipprotoIcmp
  · simp only [hicmp, hudpicmp, htcpicmp, if_false, if_true, or_true, or_self]
    rfl
  · simp only [hudp, htcp, hicmp, or_self, if_false]
    rfl

/-- The lines of the network header name no protocol and no port. -/
lemma reported_parseL3 (e : Endian) (hoffset : offset.toNat = l3Offset m)
    (htype : l3Type m = etherTypeIpv4) :
    reported ((parseL3 e offset (l3Type m)).eval m.data)
      = if ipProto m ∈ [ipprotoUdp, ipprotoTcp, ipprotoIcmp]
        then some (ipProto m, headerPort m) else none := by
  have hl4 := toNat_l4Offset hoffset
  rw [← reported_parseIpv4L4 hl4, parseL3, if_pos htype, parseIpv4]
  simp only [ByteReader.eval_bind, ByteReader.eval_byte, ByteReader.eval_pure, hoffset, ipProto]
  rfl

/-- **What `parse_packet` reports** of an IPv4 frame is in its headers. -/
lemma reported_parsePacket (e : Endian) (htype : l3Type m = etherTypeIpv4) :
    reported (parsePacket e m)
      = if ipProto m ∈ [ipprotoUdp, ipprotoTcp, ipprotoIcmp]
        then some (ipProto m, headerPort m) else none := by
  have hstart : reported (parsePacket e m)
      = reported ((parseVlan e sizeofEtherHdr.toUInt16 (etherType.eval m.data)).eval m.data) := by
    simp only [parsePacket, parse, ByteReader.eval_bind, ByteReader.eval_pure]
    rfl
  rw [hstart, parseVlan]
  by_cases htag : etherType.eval m.data = etherTypeVlan
  · have hl3 := l3Offset_of_tag htag
    have hproto := l3Type_of_tag htag
    have hoffset : (sizeofEtherHdr.toUInt16 + sizeofVlanHdr.toUInt16).toNat = l3Offset m := hl3.symm
    have h14 : sizeofEtherHdr.toUInt16.toNat = 14 := rfl
    rw [if_pos htag, ← reported_parseL3 e hoffset htype]
    simp only [ByteReader.eval_bind, ByteReader.eval_pure, h14, hproto]
    rfl
  · have hoffset : sizeofEtherHdr.toUInt16.toNat = l3Offset m := (l3Offset_of_noTag htag).symm
    rw [if_neg htag, l3Type_of_noTag htag, reported_parseL3 e hoffset htype]

/-- The part of `classify_packet` after `offset += ihl`. -/
lemma eval_decidesOnL4 (h : HoldsHeaders m) (hoffset : offset.toNat = l4Offset m) :
    (decidesOnL4 m.dataLen offset (ipProto m)).eval m.data = (ipProto m, headerPort m) := by
  rw [decidesOnL4, hoffset]
  by_cases hicmp : ipProto m = ipprotoIcmp
  · have hport : headerPort m = none := if_neg (by rw [hicmp]; decide)
    rw [if_pos hicmp, hport]
    rfl
  by_cases hospf : ipProto m = ipprotoOspf
  · have hport : headerPort m = none := if_neg (by rw [hospf]; decide)
    rw [if_neg hicmp, if_pos hospf, hport]
    rfl
  rw [if_neg hicmp, if_neg hospf]
  by_cases hudp : ipProto m = ipprotoUdp
  · have hport : headerPort m = some (dstPort m) := if_pos (Or.inl hudp)
    rw [if_pos hudp, if_neg (not_lt.mpr (h.udp_le hudp)), hport]
    rfl
  rw [if_neg hudp]
  by_cases htcp : ipProto m = ipprotoTcp
  · have hport : headerPort m = some (dstPort m) := if_pos (Or.inr htcp)
    rw [if_pos htcp, if_neg (not_lt.mpr (h.tcp_le htcp)), hport]
    rfl
  · have hport : headerPort m = none := if_neg (not_or.mpr ⟨hudp, htcp⟩)
    rw [if_neg htcp, hport]
    rfl

/-- The part from the test of the ethertype on. -/
lemma eval_decidesOnL3 (h : HoldsHeaders m) (hoffset : offset.toNat = l3Offset m) :
    (decidesOnL3 m.dataLen offset (l3Type m)).eval m.data = some (ipProto m, headerPort m) := by
  have hl4 := toNat_l4Offset hoffset
  rw [decidesOnL3, if_neg (not_not.mpr h.carriesIpv4.2), hoffset, if_neg (not_lt.mpr h.fixed_le),
    ← eval_decidesOnL4 h hl4]
  simp only [ByteReader.eval_bind, ByteReader.eval_byte, ByteReader.eval_pure, ipProto]

/-- **What `classify_packet` decides on** in a frame that holds its headers. -/
lemma decidesOn_eq (h : HoldsHeaders m) : decidesOn m = some (ipProto m, headerPort m) := by
  have hlen := h.carriesIpv4.1
  have hcases := l3Offset_cases m
  have hlong : ¬m.dataLen.toNat < sizeofEtherHdr := by
    rw [sizeofEtherHdr]
    omega
  rw [decidesOn, decides, if_neg hlong, ByteReader.eval_bind]
  by_cases htag : etherType.eval m.data = etherTypeVlan
  · have hl3 := l3Offset_of_tag htag
    have hproto := l3Type_of_tag htag
    have hoffset : (18 : UInt16).toNat = l3Offset m := hl3.symm
    have hvlan : ¬m.dataLen.toNat < 18 := by omega
    rw [if_pos htag, ← eval_decidesOnL3 h hoffset, ← hproto, ← ByteReader.eval_bind]
    exact congrArg (fun p : ByteReader _ => p.eval m.data) (if_neg hvlan)
  · have hoffset : (14 : UInt16).toNat = l3Offset m := (l3Offset_of_noTag htag).symm
    rw [if_neg htag, l3Type_of_noTag htag]
    exact eval_decidesOnL3 h hoffset

end Fields

/-! ### Agreement -/

/-- **The two decoders agree.** Of every IPv4 frame behind at most one VLAN tag that
holds its headers, `classify_packet` decides on its protocol and, where that has ports,
its destination port, and these are what `parse_packet` reports of a protocol it knows.
So the frame is control traffic exactly when its protocol is ICMP or OSPF, or what
`parse_packet` reports is in the tables. -/
theorem decoders_agree (e : Endian) (m : Mbuf) (h : HoldsHeaders m) :
    decidesOn m = some (ipProto m, headerPort m) ∧
      reported (parsePacket e m)
        = (decidesOn m).filter (fun d => d.1 ∈ [ipprotoUdp, ipprotoTcp, ipprotoIcmp]) ∧
      (classifyPacket m = 1
        ↔ ipProto m = ipprotoIcmp ∨ ipProto m = ipprotoOspf ∨
          (∃ port, reported (parsePacket e m) = some (ipprotoUdp, some port) ∧
            isControlUdpPort port = 1) ∨
          (∃ port, reported (parsePacket e m) = some (ipprotoTcp, some port) ∧
            isControlTcpPort port = 1)) := by
  have hdecides := decidesOn_eq h
  have hreported := reported_parsePacket e h.carriesIpv4.2
  refine ⟨hdecides, ?_, ?_⟩
  · rw [hreported, hdecides, Option.filter_some]
    simp only [decide_eq_true_eq]
  · have hport : headerPort m ≠ none → ipProto m = ipprotoUdp ∨ ipProto m = ipprotoTcp := by
      intro hne
      by_contra hnone
      exact hne (if_neg hnone)
    have hpair : ∀ proto ∈ [ipprotoUdp, ipprotoTcp, ipprotoIcmp], ∀ port,
        reported (parsePacket e m) = some (proto, port)
          ↔ (ipProto m, headerPort m) = (proto, port) := by
      intro proto hproto port
      rw [hreported, Option.ite_none_right_eq_some, Option.some.injEq]
      refine and_iff_right_of_imp fun hpair => ?_
      rw [show ipProto m = proto from congrArg Prod.fst hpair]
      exact hproto
    rw [classifyPacket_eq_verdict, hdecides, Option.elim_some, verdict_eq_one_iff hport]
    simp only [hpair ipprotoUdp (by simp), hpair ipprotoTcp (by simp)]

/-- A name lookup and its header with options, and the same behind a tag. -/
theorem decoders_agree_dnsQuery :
    (classifyPacket (tag 7 dnsQuery) = 1
      ↔ ipProto (tag 7 dnsQuery) = ipprotoIcmp ∨ ipProto (tag 7 dnsQuery) = ipprotoOspf ∨
        (∃ port, reported (parsePacket .little (tag 7 dnsQuery)) = some (ipprotoUdp, some port) ∧
          isControlUdpPort port = 1) ∨
        (∃ port, reported (parsePacket .little (tag 7 dnsQuery)) = some (ipprotoTcp, some port) ∧
          isControlTcpPort port = 1)) :=
  (decoders_agree .little (tag 7 dnsQuery) (by decide)).2.2

end DpdkStarter.PacketParser
