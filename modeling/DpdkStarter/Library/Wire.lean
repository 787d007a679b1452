import DpdkStarter.Library.ByteProgram

/-!
Byte sequences that stand in a buffer, and what is loaded from them.

A format is described by the bytes it writes, one part behind the other. That a
buffer carries them splits along the parts, so that each load is read off the
part it falls into.

* `Carries`: the bytes stand in the buffer from an index on, with its laws for
  `::` and `++`.
* `Carries.be16`, `Carries.be32`, `Carries.load16`, `Carries.load32`: a load of a field that
  stands there.
* `carries_putBytes`, `Carries.replace`: bytes that are put, and a part replaced by
  another of the same length.
-/

namespace DpdkStarter

variable {buf : ℕ → UInt8} {i : ℕ}

/-- The bytes stand in the buffer from the index on. -/
def Carries (buf : ℕ → UInt8) (i : ℕ) (bs : List UInt8) : Prop := slice buf i bs.length = bs

instance (buf : ℕ → UInt8) (i : ℕ) (bs : List UInt8) : Decidable (Carries buf i bs) :=
  inferInstanceAs (Decidable (_ = _))

@[simp] lemma carries_nil : Carries buf i [] := rfl

@[simp] lemma carries_cons {b : UInt8} {bs : List UInt8} :
    Carries buf i (b :: bs) ↔ buf i = b ∧ Carries buf (i + 1) bs := by
  rw [Carries, List.length_cons, slice, List.cons.injEq, Carries]

/-- A sequence stands there when each of its parts does, one behind the other. -/
@[simp] lemma carries_append {bs cs : List UInt8} :
    Carries buf i (bs ++ cs) ↔ Carries buf i bs ∧ Carries buf (i + bs.length) cs := by
  rw [Carries, List.length_append, slice_add, Carries, Carries]
  constructor
  · intro h
    exact List.append_inj h (length_slice buf i bs.length)
  · rintro ⟨hbs, hcs⟩
    rw [hbs, hcs]

/-! ### Loads -/

/-- A field loaded in network order. -/
lemma Carries.be16 {v : UInt16} (h : Carries buf i (bytes16 .big v)) :
    (ByteReader.be16 i).eval buf = v := by
  simp only [bytes16, carries_cons] at h
  rw [ByteReader.eval_be16, h.1, h.2.1]
  exact ofBytes_hiByte_loByte v

lemma Carries.be32 {v : UInt32} (h : Carries buf i (bytes32 .big v)) :
    (ByteReader.be32 i).eval buf = v := by
  rw [bytes32, carries_append, length_bytes16] at h
  have hload : (ByteReader.be32 i).eval buf
      = ofHalves ((ByteReader.be16 i).eval buf) ((ByteReader.be16 (i + 2)).eval buf) := rfl
  rw [hload, h.1.be16, h.2.be16, ofHalves_hiHalf_loHalf]

/-- A field in network order, loaded in the byte order of the host. -/
lemma Carries.load16 (e : Endian) {v : UInt16} (h : Carries buf i (bytes16 .big v)) :
    (ByteReader.load16 e i).eval buf = beToCpu16 e v := by
  rw [← beToCpu16_inj (e := e), ByteReader.beToCpu16_load16, h.be16, beToCpu16_beToCpu16]

lemma Carries.load32 (e : Endian) {v : UInt32} (h : Carries buf i (bytes32 .big v)) :
    (ByteReader.load32 e i).eval buf = beToCpu32 e v := by
  rw [← beToCpu32_inj (e := e), ByteReader.beToCpu32_load32, h.be32, beToCpu32_beToCpu32]

/-- Consecutive bytes. -/
lemma Carries.bytes {bs : List UInt8} (h : Carries buf i bs) :
    (ByteReader.bytes i bs.length).eval buf = bs := by
  rw [ByteReader.eval_bytes]
  exact h

/-! ### Stores -/

/-- What is put stands there. -/
lemma carries_putBytes (buf : ℕ → UInt8) (i : ℕ) (bs : List UInt8) :
    Carries (putBytes buf i bs) i bs := slice_putBytes buf i bs

/-- What stands beside the bytes put stays. -/
lemma carries_putBytes_of_disjoint {bs cs : List UInt8} {j : ℕ}
    (h : j + bs.length ≤ i ∨ i + cs.length ≤ j) :
    Carries (putBytes buf i cs) j bs ↔ Carries buf j bs := by
  rw [Carries, Carries, slice_putBytes_of_disjoint h]

/-- **A part is replaced** by another of the same length. -/
lemma Carries.replace {front old back new : List UInt8} {j : ℕ}
    (h : Carries buf i (front ++ (old ++ back))) (hj : j = i + front.length)
    (hlen : new.length = old.length) :
    Carries (putBytes buf j new) i (front ++ (new ++ back)) := by
  subst hj
  obtain ⟨hfront, hrest⟩ := carries_append.mp h
  obtain ⟨-, hback⟩ := carries_append.mp hrest
  refine carries_append.mpr ⟨?_, carries_append.mpr ⟨carries_putBytes _ _ _, ?_⟩⟩
  · exact (carries_putBytes_of_disjoint (Or.inl le_rfl)).mpr hfront
  · rw [hlen]
    exact (carries_putBytes_of_disjoint (Or.inr (by rw [hlen]))).mpr hback

end DpdkStarter
