import DpdkStarter.Packet.Frame
import DpdkStarter.StaticNat.LcoreMain
import DpdkStarter.StaticNat.Transport

/-!
`NAT/static_nat/main.c` as a translator of frames: what the bytes `simulate_nat` writes
mean, and what `lcore_main` makes of a stream of frames.

* `natHeader`, `natFrame`, `natLines`: the translation of a header and of a frame, and what
  is printed for it, said of the fields.
* `header_of_carries`: what `rte_ipv4_cksum` sums up is the encoding of the header.
* `simulateNat_carries`: a buffer that carries a frame carries its translation afterwards.
* `nat_stream`: over any number of iterations the device gets the translations, in order.
-/

namespace DpdkStarter.StaticNat

open ByteProgram Machine

/-! ### The translation -/

/-- The header with the addresses mapped and no checksum. -/
def clearedHeader (h : Ipv4Header) : Ipv4Header :=
  { h with
    srcAddr := mapped privateIp publicIp h.srcAddr
    dstAddr := mapped publicIp privateIp h.dstAddr
    hdrChecksum := 0 }

/-- The header with the addresses mapped and its checksum made anew. -/
def natHeader (h : Ipv4Header) (proto : UInt8) : Ipv4Header :=
  { clearedHeader h with hdrChecksum := checksum .big ((clearedHeader h).encode proto) }

/-- The frame with its IPv4 header translated, if that is behind the Ethernet header. -/
def natFrame (d : Frame) : Frame :=
  match d.vlanTci, d.network with
  | none, .ipv4 hdr l4 => { d with network := .ipv4 (natHeader hdr l4.proto) l4 }
  | _, _ => d

/-- What is printed for the frame. -/
def natLines (d : Frame) : List Line :=
  match d.vlanTci, d.network with
  | none, .ipv4 hdr _ =>
      .before hdr.srcAddr hdr.dstAddr :: (if hdr.srcAddr = privateIp then [.outbound] else [])
        ++ (if hdr.dstAddr = publicIp then [.inbound] else [])
        ++ [.after (mapped privateIp publicIp hdr.srcAddr) (mapped publicIp privateIp hdr.dstAddr)]
  | _, _ => []

/-! ### What a buffer carries -/

variable {buf : ℕ → UInt8}

/-- **What the checksum covers** is the encoding of the header. -/
lemma header_of_carries {h : Ipv4Header} {proto : UInt8}
    (hc : Carries buf sizeofEtherHdr (h.encode proto)) : header buf = h.encode proto := by
  have hversion := (carries_ipv4Header.mp hc).1
  have hlen : headerLen buf = (h.encode proto).length := by
    rw [headerLen, ihl, hversion, h.ihl_toNat, Ipv4Header.length_encode]
  rw [header, hlen]
  exact hc

/-- The sum of a header is that of the cleared one and its checksum. -/
lemma wordSum_encode (h : Ipv4Header) (proto : UInt8) (cksum : UInt16) :
    wordSum .big ({ h with hdrChecksum := cksum }.encode proto)
      = wordSum .big ({ h with hdrChecksum := 0 }.encode proto) + cksum.toNat := by
  have hfront : (h.front proto).length % 2 = 0 := by rw [Ipv4Header.length_front]
  have hfield : ∀ v, (bytes16 .big v).length % 2 = 0 := fun v => by rw [length_bytes16]
  have hsum : ∀ v : UInt16, wordSum .big ({ h with hdrChecksum := v }.encode proto)
      = wordSum .big (h.front proto) + (v.toNat
        + wordSum .big (bytes32 .big h.srcAddr ++ (bytes32 .big h.dstAddr ++ h.options))) := by
    intro v
    have hparts : ({ h with hdrChecksum := v } : Ipv4Header).encode proto
        = h.front proto ++ (bytes16 .big v
          ++ (bytes32 .big h.srcAddr ++ (bytes32 .big h.dstAddr ++ h.options))) := rfl
    rw [hparts, wordSum_append .big hfront, wordSum_append .big (hfield v), wordSum_bytes16]
  rw [hsum, hsum, UInt16.toNat_zero]
  omega

/-- **A header with its checksum** sums up to all bits set. -/
lemma fold16_encode (h : Ipv4Header) (proto : UInt8) :
    fold16 (wordSum .big ({ h with
      hdrChecksum := checksum .big ({ h with hdrChecksum := 0 }.encode proto) }.encode proto))
        = 65535 := by
  rw [wordSum_encode]
  exact fold16_wordSum_add_checksum .big _

/-- One rule maps an address that stands in the buffer. -/
lemma Carries.rewritten {front back : List UInt8} {addr : UInt32} {offset : ℕ}
    (h : Carries buf 0 (front ++ (bytes32 .big addr ++ back))) (hoffset : offset = front.length)
    (old new : UInt32) :
    Carries (rewritten offset old new buf) 0
      (front ++ (bytes32 .big (mapped old new addr) ++ back)) := by
  have hload : (ByteReader.be32 offset).eval buf = addr := by
    simp only [carries_append, Nat.zero_add, ← hoffset] at h
    exact h.2.1.be32
  rw [StaticNat.rewritten, hload, mapped]
  split
  · exact h.replace (by rw [hoffset, Nat.zero_add]) (by rw [length_bytes32, length_bytes32])
  · exact h

/-- The lines a rule prints. -/
lemma exec_rewriteAddr_lines (e : Endian) (offset : ℕ) (old new : UInt32) (line : Line) :
    ((rewriteAddr e offset old new line).exec buf).1
      = if (ByteReader.be32 offset).eval buf = old then [line] else [] := by
  have hload : (ByteReader.load32 e offset).eval buf = beToCpu32 e old
      ↔ (ByteReader.be32 offset).eval buf = old := by
    rw [← beToCpu32_inj (e := e), ByteReader.beToCpu32_load32, beToCpu32_beToCpu32]
  rw [rewriteAddr, exec_bind, exec_ofReader]
  by_cases hold : (ByteReader.be32 offset).eval buf = old
  · rw [if_pos (hload.mpr hold), if_pos hold, exec_bind, exec_pure]
  · rw [if_neg (mt hload.mp hold), if_neg hold]
    rfl

/-- The lines printed for an IPv4 frame, by the addresses in the buffers. -/
lemma exec_translate_lines (rteIpv4Cksum : ByteReader UInt16) (e : Endian)
    (htype : etherType.eval buf = etherTypeIpv4) :
    ((translate rteIpv4Cksum e).exec buf).1
      = .before ((ByteReader.be32 srcAddr).eval buf) ((ByteReader.be32 dstAddr).eval buf)
        :: (if (ByteReader.be32 srcAddr).eval buf = privateIp then [.outbound] else [])
        ++ (if (ByteReader.be32 dstAddr).eval (rewritten srcAddr privateIp publicIp buf) = publicIp
            then [.inbound] else [])
        ++ [.after
          ((ByteReader.be32 srcAddr).eval ((translate rteIpv4Cksum e).exec buf).2)
          ((ByteReader.be32 dstAddr).eval ((translate rteIpv4Cksum e).exec buf).2)] := by
  have hload := (load16_etherType e buf etherTypeIpv4).mpr htype
  rw [translate, exec_bind, exec_ofReader, if_neg (not_not.mpr hload)]
  simp only [exec_bind, exec_ofReader, exec_rewriteAddr, exec_rewriteAddr_lines, exec_store16,
    exec_pure, ByteReader.beToCpu32_load32]

/-! ### The parts of a frame around the rewritten fields -/

section Parts

variable (dst src : MacAddr) (hdr : Ipv4Header) (l4 : L4Header) (payload : List UInt8)

/-- The bytes in front of the checksum. -/
def frontBytes : List UInt8 :=
  dst.bytes ++ (src.bytes ++ (bytes16 .big etherTypeIpv4 ++ hdr.front l4.proto))

/-- The bytes behind the addresses. -/
def backBytes : List UInt8 := hdr.options ++ (l4.encode ++ payload)

lemma length_frontBytes : (frontBytes dst src hdr l4).length = hdrChecksum := by
  simp [frontBytes, dst.length_bytes, src.length_bytes, hdrChecksum, sizeofEtherHdr]

/-- The frame by these parts. -/
lemma encode_ipv4 :
    (Frame.mk dst src none (.ipv4 hdr l4) payload).encode
      = frontBytes dst src hdr l4 ++ (bytes16 .big hdr.hdrChecksum
        ++ (bytes32 .big hdr.srcAddr ++ (bytes32 .big hdr.dstAddr
          ++ backBytes hdr l4 payload))) := by
  simp [Frame.encode, Network.encode, Network.etherType, encodeTag, Ipv4Header.encode,
    frontBytes, backBytes, List.append_assoc]

variable {dst src hdr l4 payload}

/-- The addresses in the buffer. -/
lemma addresses_of_carries
    (h : Carries buf 0 (Frame.mk dst src none (.ipv4 hdr l4) payload).encode) :
    (ByteReader.be32 srcAddr).eval buf = hdr.srcAddr ∧
    (ByteReader.be32 dstAddr).eval buf = hdr.dstAddr := by
  have hnetwork : Carries buf sizeofEtherHdr (hdr.encode l4.proto ++ l4.encode) :=
    (carries_frame.mp h).2.2.2.2.1
  have hfields := carries_ipv4Header.mp (carries_append.mp hnetwork).1
  exact ⟨hfields.2.2.2.2.2.2.2.2.1.be32, hfields.2.2.2.2.2.2.2.2.2.1.be32⟩

/-- The buffer after both rules: the addresses are mapped, and each rule found its own. -/
lemma carries_rules (h : Carries buf 0 (Frame.mk dst src none (.ipv4 hdr l4) payload).encode) :
    (ByteReader.be32 dstAddr).eval (rewritten srcAddr privateIp publicIp buf) = hdr.dstAddr ∧
    Carries (rewritten dstAddr publicIp privateIp (rewritten srcAddr privateIp publicIp buf)) 0
      (frontBytes dst src hdr l4 ++ (bytes16 .big hdr.hdrChecksum
        ++ (bytes32 .big (mapped privateIp publicIp hdr.srcAddr)
          ++ (bytes32 .big (mapped publicIp privateIp hdr.dstAddr)
            ++ backBytes hdr l4 payload)))) := by
  have hfront := length_frontBytes dst src hdr l4
  have hsrcAt : srcAddr = (frontBytes dst src hdr l4 ++ bytes16 .big hdr.hdrChecksum).length := by
    rw [List.length_append, hfront, length_bytes16]
    rfl
  have hdstAt : dstAddr = (frontBytes dst src hdr l4 ++ bytes16 .big hdr.hdrChecksum
      ++ bytes32 .big (mapped privateIp publicIp hdr.srcAddr)).length := by
    rw [List.length_append, ← hsrcAt, length_bytes32]
    rfl
  rw [encode_ipv4, ← List.append_assoc] at h
  have hrule := Carries.rewritten h hsrcAt privateIp publicIp
  rw [← List.append_assoc] at hrule
  refine ⟨?_, ?_⟩
  · have hdst := (carries_append.mp (carries_append.mp hrule).2).1
    rw [← hdstAt, Nat.zero_add] at hdst
    exact hdst.be32
  · have hboth := Carries.rewritten hrule hdstAt publicIp privateIp
    rwa [List.append_assoc, List.append_assoc] at hboth

/-- The buffer with the checksum cleared, which is what the checksum is made of. -/
lemma carries_cleared (h : Carries buf 0 (Frame.mk dst src none (.ipv4 hdr l4) payload).encode) :
    Carries (cleared buf) 0 (frontBytes dst src hdr l4 ++ (bytes16 .big 0
      ++ (bytes32 .big (mapped privateIp publicIp hdr.srcAddr)
        ++ (bytes32 .big (mapped publicIp privateIp hdr.dstAddr)
          ++ backBytes hdr l4 payload)))) := by
  have hfront := length_frontBytes dst src hdr l4
  rw [bytes16_zero]
  exact (carries_rules h).2.replace (by rw [hfront, Nat.zero_add]) (by rw [length_bytes16]; rfl)

/-- **A translated frame** is in the buffer afterwards. -/
lemma carries_translated {rteIpv4Cksum : ByteReader UInt16} {e : Endian}
    (hcksum : IsIpv4Cksum e rteIpv4Cksum)
    (h : Carries buf 0 (Frame.mk dst src none (.ipv4 hdr l4) payload).encode) :
    Carries (putBytes (cleared buf) hdrChecksum (bytes16 e (rteIpv4Cksum.eval (cleared buf)))) 0
      (Frame.mk dst src none (.ipv4 (natHeader hdr l4.proto) l4) payload).encode := by
  have hfront := length_frontBytes dst src hdr l4
  have hcleared := carries_cleared h
  have hframe : Carries (cleared buf) 0
      (Frame.mk dst src none (.ipv4 (clearedHeader hdr) l4) payload).encode := by
    rw [encode_ipv4]
    exact hcleared
  have hnetwork : Carries (cleared buf) sizeofEtherHdr
      ((clearedHeader hdr).encode l4.proto ++ l4.encode) := (carries_frame.mp hframe).2.2.2.2.1
  rw [hcksum, bytes16_checksum, header_of_carries (carries_append.mp hnetwork).1, encode_ipv4]
  exact hcleared.replace (by rw [hfront, Nat.zero_add]) (by rw [length_bytes16]; rfl)

end Parts

/-- A frame without an IPv4 header behind the Ethernet header announces another type. -/
lemma isIpv4_of_carries {m : Mbuf} {d : Frame} (h : Carries m.data 0 d.encode) :
    isIpv4 m ↔ d.vlanTci = none ∧ d.network.etherType = etherTypeIpv4 := by
  obtain ⟨-, -, htag, htype, -, -⟩ := carries_frame.mp h
  rw [Frame.l3Offset] at htype
  rw [isIpv4_iff, etherType]
  cases hvlan : d.vlanTci with
  | none =>
      rw [hvlan] at htype
      have htype' : Carries m.data 12 (bytes16 .big d.network.etherType) := htype
      rw [htype'.be16]
      simp
  | some tci =>
      rw [hvlan, encodeTag, carries_append] at htag
      rw [htag.1.be16]
      simp [etherTypeVlan, etherTypeIpv4]

/-- **What `simulate_nat` means**: it prints the lines of the frame, and leaves its
translation in the buffer. -/
lemma simulateNat_carries {rteIpv4Cksum : ByteReader UInt16} {e : Endian}
    (hcksum : IsIpv4Cksum e rteIpv4Cksum) {m : Mbuf} {d : Frame} (h : Carries m.data 0 d.encode) :
    (simulateNat rteIpv4Cksum e m).1 = natLines d ∧
    Carries (simulateNat rteIpv4Cksum e m).2.data 0 (natFrame d).encode := by
  have hipv4 := isIpv4_of_carries h
  by_cases hcase : d.vlanTci = none ∧ d.network.etherType = etherTypeIpv4
  · obtain ⟨dst, src, vlanTci, network, payload⟩ := d
    obtain ⟨rfl, htype⟩ := hcase
    cases network with
    | ipv4 hdr l4 =>
        have hipv4 := hipv4.mpr ⟨rfl, rfl⟩
        have htranslated := carries_translated hcksum h
        have hdata : Carries (simulateNat rteIpv4Cksum e m).2.data 0
            (Frame.mk dst src none (.ipv4 (natHeader hdr l4.proto) l4) payload).encode := by
          rw [simulateNat_data _ _ hipv4]
          exact htranslated
        obtain ⟨hsrc, hdst⟩ := addresses_of_carries h
        obtain ⟨hsrc', hdst'⟩ := addresses_of_carries hdata
        have hlines := exec_translate_lines rteIpv4Cksum e (isIpv4_iff.mp hipv4)
        rw [hsrc, hdst, (carries_rules h).1] at hlines
        refine ⟨hlines.trans ?_, hdata⟩
        have hfinal : ((translate rteIpv4Cksum e).exec m.data).2
            = (simulateNat rteIpv4Cksum e m).2.data := rfl
        rw [hfinal, hsrc', hdst']
        rfl
    | ipv6 hdr l4 => exact absurd htype (by simp [Network.etherType, etherTypeIpv4, etherTypeIpv6])
    | other type hother => exact absurd (by simp [Network.etherType] at htype; simp [htype]) hother
  · have hnot := mt hipv4.mp hcase
    have hsame : natFrame d = d ∧ natLines d = [] := by
      rw [natFrame, natLines]
      split
      · rename_i hdr l4 hvlan hnetwork
        exact absurd ⟨hvlan, by rw [hnetwork]; rfl⟩ hcase
      · exact ⟨rfl, rfl⟩
    rw [simulateNat_data_of_not_ipv4 _ _ hnot, hsame.1, hsame.2]
    refine ⟨?_, h⟩
    have hload := mt (load16_etherType e m.data etherTypeIpv4).mp (mt isIpv4_iff.mpr hnot)
    rw [simulateNat, translate, exec_bind, exec_ofReader, if_pos hload]
    rfl

/-- Translation keeps the length. -/
lemma length_encode_natFrame (d : Frame) : (natFrame d).encode.length = d.encode.length := by
  rw [natFrame]
  split
  · rename_i hdr l4 hvlan hnetwork
    simp only [Frame.encode, hnetwork, Network.encode, Network.etherType, L4Header.proto,
      List.length_append, length_bytes16, Ipv4Header.length_encode]
    rfl
  · rfl

/-- A packet buffer that holds a frame holds its translation. -/
lemma holds_simulateNat {rteIpv4Cksum : ByteReader UInt16} {e : Endian}
    (hcksum : IsIpv4Cksum e rteIpv4Cksum) {m : Mbuf} {d : Frame} (h : m.Holds d) :
    (simulateNat rteIpv4Cksum e m).2.Holds (natFrame d) :=
  ⟨(simulateNat_carries hcksum h.data).2, h.dataLen.trans (length_encode_natFrame d).symm⟩

/-! ### The loop -/

/-- The frames of a burst, one for each packet buffer. -/
abbrev Input.Brings (inp : Input) (ds : List Frame) : Prop := List.Forall₂ Mbuf.Holds inp.burst ds

/-- What the device gets of a burst of frames. -/
def sent (inp : Input) (ds : List Frame) : List Frame := (ds.map natFrame).take inp.accepts

/-- What is printed for a burst. -/
lemma printed_burst {rteIpv4Cksum : ByteReader UInt16} {e : Endian}
    (hcksum : IsIpv4Cksum e rteIpv4Cksum) {ms : List Mbuf} {ds : List Frame}
    (h : List.Forall₂ Mbuf.Holds ms ds) :
    (ms.map (simulateNat rteIpv4Cksum e)).flatMap Prod.fst = ds.flatMap natLines := by
  induction h with
  | nil => rfl
  | cons hm _ ih =>
      rw [List.map_cons, List.flatMap_cons, List.flatMap_cons, ih,
        (simulateNat_carries hcksum hm.data).1]

/-- One iteration translates its burst. -/
lemma iterate_brings {rteIpv4Cksum : ByteReader UInt16} {e : Endian}
    (hcksum : IsIpv4Cksum e rteIpv4Cksum) {inp : Input} {ds : List Frame} (h : inp.Brings ds)
    (s : State) :
    (iterate rteIpv4Cksum e inp s).printed = s.printed ++ ds.flatMap natLines ∧
    ∃ ms, (iterate rteIpv4Cksum e inp s).nic = s.nic ++ ms ∧
      List.Forall₂ Mbuf.Holds ms (sent inp ds) := by
  have hframes : List.Forall₂ Mbuf.Holds
      ((inp.burst.map (simulateNat rteIpv4Cksum e)).map Prod.snd) (ds.map natFrame) := by
    rw [List.map_map]
    exact List.forall₂_map_left_iff.mpr (List.forall₂_map_right_iff.mpr
      (h.imp fun _ _ hm => holds_simulateNat hcksum hm))
  rw [iterate]
  split
  · rename_i hnone
    have hds : ds = [] := List.eq_nil_of_length_eq_zero (h.length_eq ▸ hnone)
    subst hds
    exact ⟨by simp, [], by simp, by simp [sent]⟩
  · exact ⟨by rw [← printed_burst hcksum h]; rfl, _, rfl, List.forall₂_take _ hframes⟩

/-- **The static NAT as a stream of frames.** Over any number of iterations, whatever the
bursts and however many frames the device accepts of each, `lcore_main` prints the lines of
all the frames received, and the device gets their translations in the order received:
addresses mapped, header checksum made anew, every other byte and the length as they were. -/
theorem nat_stream (rteIpv4Cksum : ByteReader UInt16) (e : Endian)
    (hcksum : IsIpv4Cksum e rteIpv4Cksum) (inputs : List Input) (frames : List (List Frame))
    (h : List.Forall₂ Input.Brings inputs frames) :
    (reached rteIpv4Cksum e inputs).printed = frames.flatten.flatMap natLines ∧
    List.Forall₂ Mbuf.Holds (reached rteIpv4Cksum e inputs).nic
      (List.zipWith sent inputs frames).flatten := by
  have hrun : ∀ s : State,
      (run (iterate rteIpv4Cksum e) inputs s).printed
        = s.printed ++ frames.flatten.flatMap natLines ∧
      ∃ ms, (run (iterate rteIpv4Cksum e) inputs s).nic = s.nic ++ ms ∧
        List.Forall₂ Mbuf.Holds ms (List.zipWith sent inputs frames).flatten := by
    induction h with
    | nil => exact fun s => ⟨by simp, [], by simp, List.Forall₂.nil⟩
    | cons hinp _ ih =>
        intro s
        obtain ⟨hprinted, ms, hnic, hms⟩ := iterate_brings hcksum hinp s
        obtain ⟨hprinted', ms', hnic', hms'⟩ := ih (iterate rteIpv4Cksum e _ s)
        refine ⟨?_, ms ++ ms', ?_, ?_⟩
        · rw [run_cons, hprinted', hprinted, List.flatten_cons, List.flatMap_append,
            List.append_assoc]
        · rw [run_cons, hnic', hnic, List.append_assoc]
        · rw [List.zipWith_cons_cons, List.flatten_cons]
          exact List.rel_append hms hms'
  obtain ⟨hprinted, ms, hnic, hms⟩ := hrun State.init
  refine ⟨hprinted, ?_⟩
  have hall : (reached rteIpv4Cksum e inputs).nic = ms := hnic
  rwa [hall]

/-- An echo request from the private host, with a wrong checksum. -/
def pingFrame : Frame where
  dstAddr := .ofHost 1
  srcAddr := .ofHost 2
  vlanTci := none
  network := .ipv4
    { typeOfService := 0, totalLength := 28, packetId := 7, fragmentOffset := 0, timeToLive := 64
      hdrChecksum := 0, srcAddr := privateIp, dstAddr := rteIpv4 8 8 8 8, options := []
      options_words := noOptions_words
      options_le := noOptions_le }
    (.icmp 8 0 0 1 1)
  payload := []

/-- It leaves with the public source address. -/
theorem nat_stream_ping :
    List.Forall₂ Mbuf.Holds
      (reached (ipv4Cksum .little) .little [⟨[pingFrame.toMbuf], by decide, 1⟩]).nic
      [natFrame pingFrame] := by
  have hbrings : Input.Brings ⟨[pingFrame.toMbuf], by decide, 1⟩ [pingFrame] :=
    List.Forall₂.cons (Frame.holds_toMbuf (by decide)) List.Forall₂.nil
  exact (nat_stream (ipv4Cksum .little) .little (isIpv4Cksum_ipv4Cksum .little)
    [⟨[pingFrame.toMbuf], by decide, 1⟩] [[pingFrame]]
    (List.Forall₂.cons hbrings List.Forall₂.nil)).2

end DpdkStarter.StaticNat
