import DpdkStarter.Library.OnesComplement
import DpdkStarter.StaticNat.SimulateNat

/-!
`NAT/static_nat/main.c`: the header checksum of what leaves `simulate_nat`.

`rte_ipv4_cksum` is assumed to do what its documentation says: `IsIpv4Cksum`. It is
called for every IPv4 frame, also when no rule has rewritten an address.

* `exec_translate`: the buffer the function leaves.
* `header_checksum`: the sum of the header is right afterwards, whatever rules
  applied.
* `foreign_unchanged_iff`: the frames no rule translates that keep their bytes:
  those that carry the checksum the function would write.
-/

namespace DpdkStarter.StaticNat

open ByteProgram

/-! ### The checksum function -/

/-- The length of the IPv4 header in 32-bit words. -/
def ihl (buf : ℕ → UInt8) : ℕ := (buf sizeofEtherHdr &&& 0x0F).toNat

/-- The length of the IPv4 header in bytes. -/
def headerLen (buf : ℕ → UInt8) : ℕ := ihl buf * 4

/-- The IPv4 header, options included. -/
def header (buf : ℕ → UInt8) : List UInt8 := slice buf sizeofEtherHdr (headerLen buf)

/-- The program computes the complement of the folded sum of the header, as
`rte_ipv4_cksum` does. -/
def IsIpv4Cksum (e : Endian) (rteIpv4Cksum : ByteReader UInt16) : Prop :=
  ∀ buf, rteIpv4Cksum.eval buf = checksum e (header buf)

/-- Such a program. -/
def ipv4Cksum (e : Endian) : ByteReader UInt16 := do
  let versionIhl ← .byte sizeofEtherHdr
  let bytes ← .bytes sizeofEtherHdr ((versionIhl &&& 0x0F).toNat * 4)
  return checksum e bytes

lemma isIpv4Cksum_ipv4Cksum (e : Endian) : IsIpv4Cksum e (ipv4Cksum e) := by
  intro buf
  rw [ipv4Cksum, ByteReader.eval_bind, ByteReader.eval_bind, ByteReader.eval_pure,
    ByteReader.eval_bytes, ByteReader.eval_byte]
  rfl

/-! ### What the function leaves -/

/-- The field is cleared by two zero bytes. -/
lemma bytes16_zero (e : Endian) : bytes16 e 0 = [0, 0] := by cases e <;> rfl

/-- The buffer after one rule. -/
def rewritten (offset : ℕ) (old new : UInt32) (buf : ℕ → UInt8) : ℕ → UInt8 :=
  if (ByteReader.be32 offset).eval buf = old then putBytes buf offset (bytes32 .big new) else buf

/-- The buffer after both rules, with the checksum field cleared. -/
def cleared (buf : ℕ → UInt8) : ℕ → UInt8 :=
  putBytes (rewritten dstAddr publicIp privateIp (rewritten srcAddr privateIp publicIp buf))
    hdrChecksum [0, 0]

lemma exec_rewriteAddr (e : Endian) (offset : ℕ) (old new : UInt32) (line : Line)
    (buf : ℕ → UInt8) :
    ((rewriteAddr e offset old new line).exec buf).2 = rewritten offset old new buf := by
  have hload : (ByteReader.load32 e offset).eval buf = beToCpu32 e old
      ↔ (ByteReader.be32 offset).eval buf = old := by
    rw [← beToCpu32_inj (e := e), ByteReader.beToCpu32_load32, beToCpu32_beToCpu32]
  rw [rewriteAddr, exec_bind, exec_ofReader, rewritten]
  by_cases hold : (ByteReader.be32 offset).eval buf = old
  · rw [if_pos (hload.mpr hold), if_pos hold, exec_bind, exec_store32, exec_pure,
      bytes32_beToCpu32]
  · rw [if_neg (mt hload.mp hold), if_neg hold]
    rfl

/-- **What the function leaves** in a buffer. -/
lemma exec_translate (rteIpv4Cksum : ByteReader UInt16) (e : Endian) (buf : ℕ → UInt8) :
    ((translate rteIpv4Cksum e).exec buf).2
      = if etherType.eval buf = etherTypeIpv4
        then putBytes (cleared buf) hdrChecksum (bytes16 e (rteIpv4Cksum.eval (cleared buf)))
        else buf := by
  have hload := load16_etherType e buf etherTypeIpv4
  rw [translate, exec_bind, exec_ofReader]
  by_cases htype : etherType.eval buf = etherTypeIpv4
  · rw [if_neg (not_not.mpr (hload.mpr htype)), if_pos htype]
    simp only [exec_bind, exec_ofReader, exec_rewriteAddr, exec_store16, exec_pure, bytes16_zero]
    rfl
  · rw [if_pos (mt hload.mp htype), if_neg htype]
    rfl

lemma simulateNat_data (rteIpv4Cksum : ByteReader UInt16) (e : Endian) {m : Mbuf}
    (hipv4 : isIpv4 m) :
    (simulateNat rteIpv4Cksum e m).2.data = putBytes (cleared m.data) hdrChecksum
      (bytes16 e (rteIpv4Cksum.eval (cleared m.data))) :=
  (exec_translate rteIpv4Cksum e m.data).trans (if_pos (of_decide_eq_true hipv4))

/-- A frame of another ethertype is left. -/
lemma simulateNat_data_of_not_ipv4 (rteIpv4Cksum : ByteReader UInt16) (e : Endian) {m : Mbuf}
    (hipv4 : ¬isIpv4 m) : (simulateNat rteIpv4Cksum e m).2.data = m.data :=
  (exec_translate rteIpv4Cksum e m.data).trans
    (if_neg fun htype => hipv4 (decide_eq_true htype))

/-- Only the checksum and the addresses are written. -/
lemma cleared_of_notMem {j : ℕ} (h : j < 24 ∨ 34 ≤ j) (buf : ℕ → UInt8) :
    cleared buf j = buf j := by
  have hrule : ∀ offset old new (b : ℕ → UInt8), offset = 26 ∨ offset = 30 →
      rewritten offset old new b j = b j := by
    intro offset old new b hoffset
    rw [rewritten]
    split
    · exact putBytes_of_notMem (by rw [length_bytes32]; omega) b
    · rfl
  have hfield : j < hdrChecksum ∨ hdrChecksum + [(0 : UInt8), 0].length ≤ j := by
    simp only [hdrChecksum, sizeofEtherHdr, List.length_cons, List.length_nil]
    omega
  calc cleared buf j
      = rewritten dstAddr publicIp privateIp (rewritten srcAddr privateIp publicIp buf) j :=
        putBytes_of_notMem hfield _
    _ = rewritten srcAddr privateIp publicIp buf j := hrule dstAddr _ _ _ (Or.inr rfl)
    _ = buf j := hrule srcAddr _ _ _ (Or.inl rfl)

/-- The header keeps its length. -/
lemma ihl_cleared (buf : ℕ → UInt8) : ihl (cleared buf) = ihl buf := by
  rw [ihl, ihl, cleared_of_notMem (Or.inl (by decide))]

/-! ### The sum of the header -/

/-- The length is not in the checksum field. -/
lemma ihl_putBytes (buf : ℕ → UInt8) (bs : List UInt8) :
    ihl (putBytes buf hdrChecksum bs) = ihl buf := by
  rw [ihl, ihl, putBytes_of_notMem (Or.inl (by decide))]

/-- The sum of the header by its parts, the checksum field between the others. -/
lemma wordSum_header (e : Endian) {buf : ℕ → UInt8} (hihl : 5 ≤ ihl buf) :
    wordSum e (header buf) = wordSum e (slice buf 14 10) + wordSum e (slice buf hdrChecksum 2)
      + wordSum e (slice buf 26 (headerLen buf - 12)) := by
  have hsplit : headerLen buf = 10 + 2 + (headerLen buf - 12) := by
    rw [headerLen]
    omega
  calc wordSum e (header buf)
      = wordSum e (slice buf 14 (10 + 2 + (headerLen buf - 12))) := by rw [← hsplit]; rfl
    _ = _ := by
        rw [slice_add, slice_add, wordSum_append e (by simp), wordSum_append e (by simp)]
        rfl

/-- Another checksum changes the sum by the difference. -/
lemma wordSum_header_putBytes (e : Endian) {buf : ℕ → UInt8} (hihl : 5 ≤ ihl buf) (v : UInt16) :
    wordSum e (header (putBytes buf hdrChecksum (bytes16 e v)))
        + wordSum e (slice buf hdrChecksum 2)
      = wordSum e (header buf) + v.toNat := by
  have hput := ihl_putBytes buf (bytes16 e v)
  have hfield : slice (putBytes buf hdrChecksum (bytes16 e v)) hdrChecksum 2 = bytes16 e v := by
    have hslice := slice_putBytes buf hdrChecksum (bytes16 e v)
    rwa [length_bytes16] at hslice
  rw [wordSum_header e (hput ▸ hihl), wordSum_header e hihl, headerLen, headerLen, hput, hfield,
    wordSum_bytes16, slice_putBytes_of_disjoint (Or.inl (by decide)),
    slice_putBytes_of_disjoint (Or.inr (by rw [length_bytes16]; decide))]
  omega

/-- **The header checksum** is right after `simulate_nat`, whatever rules
applied: the sum of the words of the header has all bits set. -/
theorem header_checksum {rteIpv4Cksum : ByteReader UInt16} {e : Endian}
    (hcksum : IsIpv4Cksum e rteIpv4Cksum) (m : Mbuf) (hipv4 : isIpv4 m)
    (hihl : 5 ≤ ihl m.data) :
    fold16 (wordSum .big (header (simulateNat rteIpv4Cksum e m).2.data)) = 65535 := by
  have hfield : wordSum e (slice (cleared m.data) hdrChecksum 2) = 0 := by
    have hslice : slice (cleared m.data) hdrChecksum 2 = [0, 0] := slice_putBytes _ _ [0, 0]
    rw [hslice]
    cases e <;> rfl
  have hput := wordSum_header_putBytes e ((ihl_cleared m.data).symm ▸ hihl)
    (checksum e (header (cleared m.data)))
  rw [← fold16_wordSum_eq_ones_iff e, simulateNat_data _ _ hipv4, hcksum,
    ← Nat.add_zero (wordSum e _), ← hfield, hput]
  exact fold16_wordSum_add_checksum e _

/-- An echo request with that checksum and those addresses. -/
def ping (cksum src dst : List UInt8) : Mbuf :=
  frame 42 (List.replicate 12 0
    ++ [0x08, 0x00, 0x45, 0, 0, 28, 0, 0, 0, 0, 64, 1] ++ cksum ++ src ++ dst)

theorem header_checksum_outbound :
    fold16 (wordSum .big (header (simulateNat (ipv4Cksum .little) .little
      (ping [0, 0] [172, 22, 116, 70] [8, 8, 8, 8])).2.data)) = 65535 :=
  header_checksum (isIpv4Cksum_ipv4Cksum .little) _ (by decide) (by decide)

/-! ### Frames no rule translates -/

/-- No rule translates the frame. -/
def Foreign (m : Mbuf) : Prop :=
  ¬isIpv4 m ∨ ((ByteReader.be32 srcAddr).eval m.data ≠ privateIp ∧
    (ByteReader.be32 dstAddr).eval m.data ≠ publicIp)

instance (m : Mbuf) : Decidable (Foreign m) := inferInstanceAs (Decidable (_ ∨ _))

/-- The checksum of the header there is, in network order. -/
def correctChecksum (buf : ℕ → UInt8) : UInt16 :=
  checksum .big (header (putBytes buf hdrChecksum [0, 0]))

/-- What the frame holds of its checksum field is what it should be. -/
def CarriesChecksum (m : Mbuf) : Prop :=
  (hdrChecksum < m.dataLen.toNat → m.data hdrChecksum = hiByte (correctChecksum m.data)) ∧
    (hdrChecksum + 1 < m.dataLen.toNat →
      m.data (hdrChecksum + 1) = loByte (correctChecksum m.data))

/-- No rule writes to it. -/
lemma cleared_of_foreign {m : Mbuf} (hforeign : Foreign m) (hipv4 : isIpv4 m) :
    cleared m.data = putBytes m.data hdrChecksum [0, 0] := by
  obtain ⟨hsrc, hdst⟩ := hforeign.resolve_left (not_not.mpr hipv4)
  rw [cleared, rewritten, rewritten, if_neg hsrc, if_neg hdst]

/-- The checksum is written all the same. -/
lemma simulateNat_foreign {rteIpv4Cksum : ByteReader UInt16} {e : Endian}
    (hcksum : IsIpv4Cksum e rteIpv4Cksum) {m : Mbuf} (hforeign : Foreign m) (hipv4 : isIpv4 m) :
    (simulateNat rteIpv4Cksum e m).2.data
      = putBytes m.data hdrChecksum (bytes16 .big (correctChecksum m.data)) := by
  have hcleared := cleared_of_foreign hforeign hipv4
  have hlen : [0, 0].length = (bytes16 .big (correctChecksum m.data)).length :=
    (length_bytes16 _ _).symm
  calc (simulateNat rteIpv4Cksum e m).2.data
      = putBytes (cleared m.data) hdrChecksum
          (bytes16 e (rteIpv4Cksum.eval (cleared m.data))) :=
        simulateNat_data _ _ hipv4
    _ = putBytes (putBytes m.data hdrChecksum [0, 0]) hdrChecksum
          (bytes16 .big (correctChecksum m.data)) := by
        rw [hcksum, bytes16_checksum, hcleared]
        rfl
    _ = _ := putBytes_putBytes hlen _ _

/-- The bytes stay when those of the checksum do. -/
lemma unchanged_iff {rteIpv4Cksum : ByteReader UInt16} {e : Endian}
    (hcksum : IsIpv4Cksum e rteIpv4Cksum) {m : Mbuf} (hforeign : Foreign m) :
    (∀ i < m.dataLen.toNat, (simulateNat rteIpv4Cksum e m).2.data i = m.data i)
      ↔ (isIpv4 m → CarriesChecksum m) := by
  by_cases hipv4 : isIpv4 m
  · rw [simulateNat_foreign hcksum hforeign hipv4, bytes16, putBytes_pair_eq_iff]
    exact ⟨fun h _ => h, fun h => h hipv4⟩
  · rw [simulateNat_data_of_not_ipv4 _ _ hipv4]
    exact iff_of_true (fun _ _ => rfl) fun h => absurd h hipv4

/-- A header without its checksum does not sum to zero: its first byte is not. -/
lemma wordSum_cleared_ne_zero {buf : ℕ → UInt8} (hihl : 5 ≤ ihl buf) :
    wordSum .big (header (putBytes buf hdrChecksum [0, 0])) ≠ 0 := by
  have hbyte : putBytes buf hdrChecksum [0, 0] sizeofEtherHdr = buf sizeofEtherHdr :=
    putBytes_of_notMem (Or.inl (by decide)) buf
  have hfirst : (buf sizeofEtherHdr).toNat ≠ 0 := by
    intro hzero
    have hempty : ihl buf = 0 := by rw [ihl, UInt8.toNat_and, hzero, Nat.zero_and]
    omega
  have hlen : headerLen (putBytes buf hdrChecksum [0, 0]) = 2 + (headerLen buf - 2) := by
    rw [headerLen, headerLen, ihl_putBytes]
    omega
  have hword : wordSum .big (slice (putBytes buf hdrChecksum [0, 0]) sizeofEtherHdr 2)
      = (ofBytes (putBytes buf hdrChecksum [0, 0] sizeofEtherHdr)
          (putBytes buf hdrChecksum [0, 0] (sizeofEtherHdr + 1))).toNat := rfl
  rw [header, hlen, slice_add, wordSum_append .big (by simp), hword, hbyte, toNat_ofBytes]
  omega

/-- When that is, for a header in the frame: its sum is right, and the field is not
the other zero. -/
lemma carriesChecksum_iff {m : Mbuf} (hihl : 5 ≤ ihl m.data)
    (hlen : sizeofEtherHdr + headerLen m.data ≤ m.dataLen.toNat) :
    CarriesChecksum m ↔ fold16 (wordSum .big (header m.data)) = 65535 ∧
      (ByteReader.be16 hdrChecksum).eval m.data ≠ 0xFFFF := by
  have hfield : hdrChecksum + 1 < m.dataLen.toNat := by
    rw [headerLen] at hlen
    simp only [hdrChecksum, sizeofEtherHdr] at hlen ⊢
    omega
  have hsum : wordSum .big (header (putBytes m.data hdrChecksum [0, 0]))
      + ((ByteReader.be16 hdrChecksum).eval m.data).toNat = wordSum .big (header m.data) := by
    have hput := wordSum_header_putBytes .big hihl 0
    have hslice : wordSum .big (slice m.data hdrChecksum 2)
        = ((ByteReader.be16 hdrChecksum).eval m.data).toNat := rfl
    rw [hslice] at hput
    exact hput
  calc CarriesChecksum m
      ↔ (ByteReader.be16 hdrChecksum).eval m.data = correctChecksum m.data := by
        rw [ByteReader.eval_be16, ← ofBytes, ofBytes_eq_iff]
        exact and_congr (forall_prop_of_true (Nat.lt_of_succ_lt hfield))
          (forall_prop_of_true hfield)
    _ ↔ ((ByteReader.be16 hdrChecksum).eval m.data).toNat
          = 65535 - fold16 (wordSum .big (header (putBytes m.data hdrChecksum [0, 0]))) := by
        rw [← toNat_checksum, ← UInt16.toNat_inj]
        rfl
    _ ↔ fold16 (wordSum .big (header m.data)) = 65535
          ∧ ((ByteReader.be16 hdrChecksum).eval m.data).toNat ≠ 65535 := by
        rw [eq_complement_iff (wordSum_cleared_ne_zero hihl) (UInt16.toNat_lt _), hsum]
    _ ↔ _ := and_congr_right' (not_congr (by rw [← UInt16.toNat_inj]; rfl))

/-- **A frame no rule translates keeps its bytes** exactly when it is not IPv4, or
what it holds of its checksum field is the checksum of its header; for a header in
the frame, when its sum is right and the field is not the other zero. -/
theorem foreign_unchanged_iff {rteIpv4Cksum : ByteReader UInt16} {e : Endian}
    (hcksum : IsIpv4Cksum e rteIpv4Cksum) (m : Mbuf) (hforeign : Foreign m) :
    ((∀ i < m.dataLen.toNat, (simulateNat rteIpv4Cksum e m).2.data i = m.data i)
      ↔ (isIpv4 m → CarriesChecksum m))
      ∧ (5 ≤ ihl m.data → sizeofEtherHdr + headerLen m.data ≤ m.dataLen.toNat →
          (CarriesChecksum m ↔ fold16 (wordSum .big (header m.data)) = 65535 ∧
            (ByteReader.be16 hdrChecksum).eval m.data ≠ 0xFFFF)) :=
  ⟨unchanged_iff hcksum hforeign, carriesChecksum_iff⟩

/-- The checksum of a foreign packet is repaired. -/
theorem foreign_checksum_repaired :
    ¬∀ (e : Endian) (rteIpv4Cksum : ByteReader UInt16) (m : Mbuf),
      IsIpv4Cksum e rteIpv4Cksum → Foreign m →
        ∀ i < m.dataLen.toNat, (simulateNat rteIpv4Cksum e m).2.data i = m.data i := by
  intro h
  have hsame := h .little (ipv4Cksum .little) (ping [0, 0] [8, 8, 8, 8] [8, 8, 4, 4])
    (isIpv4Cksum_ipv4Cksum .little) (by decide)
  have hcarries := (unchanged_iff (isIpv4Cksum_ipv4Cksum .little) (by decide)).mp hsame (by decide)
  have hsum := ((carriesChecksum_iff (by decide) (by decide)).mp hcarries).1
  have hwords : wordSum .big (header (ping [0, 0] [8, 8, 8, 8] [8, 8, 4, 4]).data) < 65535 := by
    decide
  rw [fold16_of_lt (hwords.trans (by decide))] at hsum
  exact absurd hsum hwords.ne

/-- A foreign packet with its checksum. -/
def foreignPing : Mbuf := ping [94, 198] [8, 8, 8, 8] [8, 8, 4, 4]

theorem foreign_ping_unchanged :
    slice (simulateNat (ipv4Cksum .big) .big foreignPing).2.data 0 42
      = slice foreignPing.data 0 42 := by
  have hiff := foreign_unchanged_iff (isIpv4Cksum_ipv4Cksum .big) foreignPing (by decide)
  have hsum : wordSum .big (header foreignPing.data) = 65535 := by decide
  have hcarries : CarriesChecksum foreignPing := by
    refine (hiff.2 (by decide) (by decide)).mpr ⟨?_, by decide⟩
    rw [hsum, fold16_of_lt (by decide)]
  exact slice_congr fun i _ hi => hiff.1.mpr (fun _ => hcarries) i (by rwa [Nat.zero_add] at hi)

end DpdkStarter.StaticNat
