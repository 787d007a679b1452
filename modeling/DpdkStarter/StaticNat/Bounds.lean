import DpdkStarter.StaticNat.Checksum

/-!
`NAT/static_nat/main.c`: which bytes `simulate_nat` reads and writes.

The function goes by the ethertype alone: it works on the fields of an IPv4 header,
and has `rte_ipv4_cksum` sum up as many bytes as that header claims, whether or not
they are in the frame.

* `ReadsHeader`: what `rte_ipv4_cksum` is assumed to look at.
* `HoldsHeader`: the frame holds its Ethernet header and, for IPv4, both the fixed part
  and the length it claims of the network header.
* `translate_inside_iff`: which frames are translated without an access behind their
  end.
-/

namespace DpdkStarter.StaticNat

open ByteProgram

/-- The program looks at the byte with the header length and at as many bytes as that
says, as `rte_ipv4_cksum` does, and at no others. -/
def ReadsHeader (rteIpv4Cksum : ByteReader UInt16) : Prop :=
  ∀ buf i, i ∈ rteIpv4Cksum.reads buf
    ↔ i = sizeofEtherHdr ∨ sizeofEtherHdr ≤ i ∧ i < sizeofEtherHdr + headerLen buf

/-- The frame holds its Ethernet header and, for IPv4, the network header: the fixed
part of it, and as much as it claims. -/
def HoldsHeader (m : Mbuf) : Prop :=
  sizeofEtherHdr ≤ m.dataLen.toNat ∧
    (isIpv4 m → sizeofEtherHdr + sizeofIpv4Hdr ≤ m.dataLen.toNat ∧
      sizeofEtherHdr + headerLen m.data ≤ m.dataLen.toNat)

instance (m : Mbuf) : Decidable (HoldsHeader m) := inferInstanceAs (Decidable (_ ∧ _))

lemma readsBelow_of_readsHeader {rteIpv4Cksum : ByteReader UInt16}
    (hreads : ReadsHeader rteIpv4Cksum) (buf : ℕ → UInt8) (n : ℕ) :
    rteIpv4Cksum.ReadsBelow buf n
      ↔ sizeofEtherHdr < n ∧ sizeofEtherHdr + headerLen buf ≤ n := by
  simp only [ByteReader.ReadsBelow, hreads buf]
  constructor
  · intro h
    have hfirst : sizeofEtherHdr < n := h _ (Or.inl rfl)
    refine ⟨hfirst, ?_⟩
    by_contra hlong
    -- the last byte of the header would be behind the bound
    have hlast := h (sizeofEtherHdr + headerLen buf - 1) (Or.inr (by omega))
    omega
  · rintro ⟨hfirst, hlen⟩ i (rfl | ⟨-, hi⟩)
    · exact hfirst
    · exact hi.trans_le hlen

lemma readsHeader_ipv4Cksum (e : Endian) : ReadsHeader (ipv4Cksum e) := by
  intro buf i
  have hbytes : ∀ k n : ℕ, i ∈ (ByteReader.bytes k n).reads buf ↔ k ≤ i ∧ i < k + n := by
    intro k n
    induction n generalizing k with
    | zero =>
        simp only [ByteReader.bytes, ByteReader.reads_pure, List.not_mem_nil, false_iff]
        omega
    | succ n ih =>
        rw [ByteReader.bytes, ByteReader.reads_bind, ByteReader.reads_bind, ByteReader.reads_byte,
          ByteReader.reads_pure, List.append_nil, List.singleton_append, List.mem_cons, ih]
        omega
  rw [ipv4Cksum, ByteReader.reads_bind, ByteReader.reads_bind, ByteReader.reads_byte,
    ByteReader.reads_pure, List.append_nil, List.singleton_append, List.mem_cons, hbytes]
  exact Iff.rfl

/-- One rule touches its address and nothing else. -/
lemma rewriteAddr_touchesBelow (e : Endian) (offset : ℕ) (old new : UInt32) (line : Line)
    (buf : ℕ → UInt8) (n : ℕ) :
    (rewriteAddr e offset old new line).TouchesBelow buf n ↔ offset + 4 ≤ n := by
  rw [rewriteAddr, touchesBelow_bind, touchesBelow_ofReader, ByteReader.readsBelow_load32]
  refine and_iff_left_of_imp fun hload => ?_
  split
  · rw [touchesBelow_bind, touchesBelow_store32]
    exact ⟨hload, touchesBelow_pure _ _ _⟩
  · exact touchesBelow_pure _ _ _

/-- **What the function touches** is in the frame exactly when the frame holds its
header. -/
lemma translate_touchesBelow_iff {rteIpv4Cksum : ByteReader UInt16}
    (hreads : ReadsHeader rteIpv4Cksum) (e : Endian) (m : Mbuf) :
    (translate rteIpv4Cksum e).TouchesBelow m.data m.dataLen.toNat ↔ HoldsHeader m := by
  have hload : (ByteReader.load16 e 12).eval m.data = beToCpu16 e etherTypeIpv4 ↔ isIpv4 m :=
    (load16_etherType e m.data etherTypeIpv4).trans isIpv4_iff.symm
  have hcksum : rteIpv4Cksum.ReadsBelow (cleared m.data) m.dataLen.toNat
      ↔ 14 < m.dataLen.toNat ∧ 14 + headerLen m.data ≤ m.dataLen.toNat := by
    rw [readsBelow_of_readsHeader hreads, headerLen, ihl_cleared, ← headerLen, sizeofEtherHdr]
  rw [translate, touchesBelow_bind, touchesBelow_ofReader, ByteReader.readsBelow_load16,
    exec_ofReader, HoldsHeader, sizeofEtherHdr, sizeofIpv4Hdr]
  refine and_congr_right fun hether => ?_
  by_cases hipv4 : isIpv4 m
  · rw [if_neg (not_not.mpr (hload.mpr hipv4))]
    simp only [touchesBelow_bind, touchesBelow_ofReader, touchesBelow_store16, touchesBelow_pure,
      ByteReader.readsBelow_load32, rewriteAddr_touchesBelow, exec_ofReader,
      exec_rewriteAddr, exec_store16, bytes16_zero, hipv4, true_implies, and_true]
    rw [← cleared, hcksum, srcAddr, dstAddr, hdrChecksum, sizeofEtherHdr]
    -- the destination address is the last of the fields
    constructor
    · rintro ⟨-, hdst, -, -, -, ⟨-, hheader⟩, -⟩
      exact ⟨by omega, hheader⟩
    · rintro ⟨hfixed, hheader⟩
      refine ⟨by omega, by omega, by omega, by omega, by omega, ⟨by omega, hheader⟩, ?_⟩
      exact ⟨by omega, by omega, by omega⟩
  · rw [if_pos (mt hload.mp hipv4)]
    exact iff_of_true (touchesBelow_pure _ _ _) fun h => absurd h hipv4

/-- **Which frames are translated inside their own bytes.** For every frame of any
length and contents, every byte read or written, those summed up for the checksum
included, has an index below the data length exactly when the frame holds its Ethernet
header and, for IPv4, the fixed network header and the length that claims. -/
theorem translate_inside_iff {rteIpv4Cksum : ByteReader UInt16}
    (hreads : ReadsHeader rteIpv4Cksum) (e : Endian) (m : Mbuf) :
    (∀ i ∈ (translate rteIpv4Cksum e).touches m.data, i < m.dataLen.toNat) ↔ HoldsHeader m :=
  translate_touchesBelow_iff hreads e m

/-- An IPv4 frame of the least size whose header claims options behind its end. -/
def optionsPastEnd : Mbuf := frame 60 (List.replicate 12 0 ++ [0x08, 0x00, 0x4F])

theorem translate_leaves_frame :
    ¬∀ (rteIpv4Cksum : ByteReader UInt16) (e : Endian) (m : Mbuf), ReadsHeader rteIpv4Cksum →
      ∀ i ∈ (translate rteIpv4Cksum e).touches m.data, i < m.dataLen.toNat := by
  intro h
  have hinside := h (ipv4Cksum .little) .little optionsPastEnd (readsHeader_ipv4Cksum .little)
  have hholds := (translate_touchesBelow_iff (readsHeader_ipv4Cksum .little) .little _).mp hinside
  exact absurd hholds (by decide)

theorem translate_inside_ping :
    HoldsHeader (ping [0, 0] [172, 22, 116, 70] [8, 8, 8, 8]) ∧
      List.all ((translate (ipv4Cksum .little) .little).touches
        (ping [0, 0] [172, 22, 116, 70] [8, 8, 8, 8]).data) (· < 42) := by
  have hholds : HoldsHeader (ping [0, 0] [172, 22, 116, 70] [8, 8, 8, 8]) := by decide
  refine ⟨hholds, List.all_eq_true.mpr fun i hi => decide_eq_true ?_⟩
  exact (translate_inside_iff (readsHeader_ipv4Cksum .little) .little _).mpr hholds i hi

end DpdkStarter.StaticNat
