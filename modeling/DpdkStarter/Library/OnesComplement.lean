import DpdkStarter.Library.ByteOrder

/-!
Sums of 16-bit words in ones' complement arithmetic, as the checksums of the
internet protocols use them.

The sum of the words is a natural number; folding its carries back in leaves one
of 16 bits with the same remainder modulo 65535. A number and its folding vanish
together, so that the folding is determined by the remainder.

* `fold16`: the number with its carries folded in, characterised by `eq_fold16`;
  `fold16_eq_ones_iff`: when all bits are set.
* `wordSum`: the sum of the words of a byte sequence, as a host loads them.
* `checksum`: its complement; `fold16_wordSum_add_checksum`: what it is for;
  `bytes16_checksum`: every host stores the same bytes for it.
-/

namespace DpdkStarter

/-! ### Folding carries -/

/-- The number with its carries folded in until it has 16 bits. -/
def fold16 (n : ℕ) : ℕ :=
  if n < 65536 then n else fold16 (n / 65536 + n % 65536)

lemma fold16_of_lt {n : ℕ} (h : n < 65536) : fold16 n = n := by
  rw [fold16, if_pos h]

lemma fold16_lt (n : ℕ) : fold16 n < 65536 := by
  induction n using fold16.induct with
  | case1 n h =>
      rw [fold16_of_lt h]
      exact h
  | case2 n h ih =>
      rw [fold16, if_neg h]
      exact ih

/-- Folding keeps the remainder. -/
lemma fold16_modEq (n : ℕ) : fold16 n ≡ n [MOD 65535] := by
  induction n using fold16.induct with
  | case1 n h => rw [fold16_of_lt h]
  | case2 n h ih =>
      rw [fold16, if_neg h]
      refine ih.trans ?_
      rw [Nat.ModEq]
      omega

lemma fold16_eq_zero_iff (n : ℕ) : fold16 n = 0 ↔ n = 0 := by
  induction n using fold16.induct with
  | case1 n h => rw [fold16_of_lt h]
  | case2 n h ih =>
      rw [fold16, if_neg h, ih]
      omega

/-- A number of 16 bits is a folding by its remainder and by whether it
vanishes. -/
lemma eq_fold16 {a n : ℕ} (ha : a < 65536) (hmod : a ≡ n [MOD 65535]) (hzero : a = 0 ↔ n = 0) :
    a = fold16 n := by
  have hlt := fold16_lt n
  have hrem : a % 65535 = fold16 n % 65535 := hmod.trans (fold16_modEq n).symm
  have hsame : a = 0 ↔ fold16 n = 0 := hzero.trans (fold16_eq_zero_iff n).symm
  omega

/-- **All bits are set** after folding a multiple of 65535 other than zero. -/
lemma fold16_eq_ones_iff (n : ℕ) : fold16 n = 65535 ↔ n ≠ 0 ∧ 65535 ∣ n := by
  have hlt := fold16_lt n
  have hrem : fold16 n % 65535 = n % 65535 := fold16_modEq n
  have hzero := fold16_eq_zero_iff n
  omega

/-! ### Sums of words -/

/-- The sum of the 16-bit words of a byte sequence, as a host loads them; an odd
byte is the first of a word that ends in zero. -/
def wordSum (e : Endian) : List UInt8 → ℕ
  | [] => 0
  | [a] => (word a 0).toNat
  | a :: b :: bytes => (word a b).toNat + wordSum e bytes
where
  /-- The word of two bytes. -/
  word (a b : UInt8) : UInt16 :=
    match e with
    | .little => ofBytes b a
    | .big => ofBytes a b

/-- Sums add up where no word is cut. -/
lemma wordSum_append (e : Endian) {bytes : List UInt8} (heven : bytes.length % 2 = 0)
    (bytes' : List UInt8) : wordSum e (bytes ++ bytes') = wordSum e bytes + wordSum e bytes' := by
  induction bytes using wordSum.induct with
  | case1 => simp [wordSum]
  | case2 a => simp at heven
  | case3 a b bytes ih =>
      have hrest : bytes.length % 2 = 0 := by
        simp only [List.length_cons] at heven
        omega
      rw [List.cons_append, List.cons_append, wordSum, wordSum, ih hrest, Nat.add_assoc]

/-- A stored number counts for itself. -/
lemma wordSum_bytes16 (e : Endian) (v : UInt16) : wordSum e (bytes16 e v) = v.toNat := by
  cases e <;> simp [bytes16, wordSum, wordSum.word]

lemma wordSum_little_modEq (bytes : List UInt8) :
    wordSum .little bytes ≡ 256 * wordSum .big bytes [MOD 65535] := by
  induction bytes using wordSum.induct with
  | case1 => rfl
  | case2 a =>
      simp only [wordSum, wordSum.word, toNat_ofBytes, UInt8.toNat_zero, Nat.ModEq]
      omega
  | case3 a b bytes ih =>
      simp only [wordSum, wordSum.word, toNat_ofBytes, Nat.ModEq] at ih ⊢
      omega

lemma wordSum_little_eq_zero_iff (bytes : List UInt8) :
    wordSum .little bytes = 0 ↔ wordSum .big bytes = 0 := by
  induction bytes using wordSum.induct with
  | case1 => exact Iff.rfl
  | case2 a =>
      simp only [wordSum, wordSum.word, toNat_ofBytes, UInt8.toNat_zero]
      omega
  | case3 a b bytes ih =>
      simp only [wordSum, wordSum.word, toNat_ofBytes]
      omega

/-- Swapping the bytes of every word swaps those of the folded sum. -/
lemma fold16_wordSum_little (bytes : List UInt8) :
    fold16 (wordSum .little bytes)
      = fold16 (wordSum .big bytes) % 256 * 256 + fold16 (wordSum .big bytes) / 256 := by
  have hlt := fold16_lt (wordSum .big bytes)
  have hmod := fold16_modEq (wordSum .big bytes)
  have hzero := fold16_eq_zero_iff (wordSum .big bytes)
  refine (eq_fold16 (by omega) ?_ ?_).symm
  · calc _ ≡ 256 * fold16 (wordSum .big bytes) [MOD 65535] := by
          rw [Nat.ModEq]
          omega
      _ ≡ 256 * wordSum .big bytes [MOD 65535] := hmod.mul_left 256
      _ ≡ wordSum .little bytes [MOD 65535] := (wordSum_little_modEq bytes).symm
  · rw [wordSum_little_eq_zero_iff, ← hzero]
    omega

/-- **The byte order does not matter** to a sum that folds to all bits set. -/
lemma fold16_wordSum_eq_ones_iff (e : Endian) (bytes : List UInt8) :
    fold16 (wordSum e bytes) = 65535 ↔ fold16 (wordSum .big bytes) = 65535 := by
  cases e with
  | big => exact Iff.rfl
  | little =>
      have hlt := fold16_lt (wordSum .big bytes)
      rw [fold16_wordSum_little]
      omega

/-! ### The checksum -/

/-- The complement of the folded sum. -/
def checksum (e : Endian) (bytes : List UInt8) : UInt16 :=
  ~~~(fold16 (wordSum e bytes)).toUInt16

lemma toNat_checksum (e : Endian) (bytes : List UInt8) :
    (checksum e bytes).toNat = 65535 - fold16 (wordSum e bytes) := by
  have hlt := fold16_lt (wordSum e bytes)
  rw [checksum, UInt16.toNat_not, Nat.toUInt16, UInt16.toNat_ofNat_of_lt' hlt]
  rfl

/-- **What the checksum is for**: with it, the sum folds to all bits set. -/
lemma fold16_wordSum_add_checksum (e : Endian) (bytes : List UInt8) :
    fold16 (wordSum e bytes + (checksum e bytes).toNat) = 65535 := by
  have hlt := fold16_lt (wordSum e bytes)
  have hmod : fold16 (wordSum e bytes) % 65535 = wordSum e bytes % 65535 := fold16_modEq _
  have hzero := fold16_eq_zero_iff (wordSum e bytes)
  rw [fold16_eq_ones_iff, toNat_checksum]
  omega

/-- The complement of a number of two bytes, byte by byte. -/
lemma complement_bytes {hi lo : ℕ} (hhi : hi < 256) (hlo : lo < 256) :
    (65535 - (hi * 256 + lo)) / 256 = 255 - hi ∧ (65535 - (hi * 256 + lo)) % 256 = 255 - lo := by
  have hsplit : 65535 - (hi * 256 + lo) = (255 - hi) * 256 + (255 - lo) := by omega
  omega

/-- **The complement is determined** by what it is for, up to the two zeros of ones'
complement. -/
lemma eq_complement_iff {n v : ℕ} (hn : n ≠ 0) (hv : v < 65536) :
    v = 65535 - fold16 n ↔ fold16 (n + v) = 65535 ∧ v ≠ 65535 := by
  have hlt := fold16_lt n
  have hmod : fold16 n % 65535 = n % 65535 := fold16_modEq n
  have hpos : fold16 n ≠ 0 := mt (fold16_eq_zero_iff n).mp hn
  rw [fold16_eq_ones_iff]
  omega

/-- Every host stores the same bytes for the checksum. -/
lemma bytes16_checksum (e : Endian) (bytes : List UInt8) :
    bytes16 e (checksum e bytes) = bytes16 .big (checksum .big bytes) := by
  cases e with
  | big => rfl
  | little =>
      have hlt := fold16_lt (wordSum .big bytes)
      obtain ⟨hi, lo, hhi, hlo, hsum⟩ : ∃ hi lo, hi < 256 ∧ lo < 256 ∧
          fold16 (wordSum .big bytes) = hi * 256 + lo :=
        ⟨_, _, by omega, Nat.mod_lt _ (by decide), (Nat.div_add_mod' _ 256).symm⟩
      have hswap : fold16 (wordSum .little bytes) = lo * 256 + hi := by
        rw [fold16_wordSum_little]
        omega
      have hbig := complement_bytes hhi hlo
      have hlittle := complement_bytes hlo hhi
      have hfirst : loByte (checksum .little bytes) = hiByte (checksum .big bytes) := by
        apply UInt8.toNat_inj.mp
        rw [toNat_loByte, toNat_hiByte, toNat_checksum, toNat_checksum, hswap, hsum, hlittle.2,
          hbig.1]
      have hsecond : hiByte (checksum .little bytes) = loByte (checksum .big bytes) := by
        apply UInt8.toNat_inj.mp
        rw [toNat_loByte, toNat_hiByte, toNat_checksum, toNat_checksum, hswap, hsum, hlittle.1,
          hbig.2]
      rw [bytes16, bytes16, hfirst, hsecond]

end DpdkStarter
