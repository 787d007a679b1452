import DpdkStarter.Library.ByteReader

/-!
Integers as bytes, on hosts of either byte order.

A 16-bit number is put together from two bytes and a 32-bit one from two
halves, most significant first, so that every statement about 32 bits follows
from the one about 16.

* `bytes16`, `bytes32`: the bytes a host stores for a number, and `beValue`: the
  number a byte sequence is in network order.
* `load16`, `load32`: what a host loads.
* `beToCpu16`, `beToCpu32`: the conversion, which a little-endian host makes by
  swapping the bytes.
* `beToCpu32_load32`: a converted load is the number in network order;
  `beValue_bytes32`: the bytes of a number, read in network order, are its
  conversion.
-/

namespace DpdkStarter

/-- The byte order of a host. -/
inductive Endian where
  | little | big
  deriving DecidableEq, Repr

/-! ### Halves -/

/-- The 16-bit number of two bytes. -/
def ofBytes (hi lo : UInt8) : UInt16 := hi.toUInt16 * 256 + lo.toUInt16

/-- The upper byte. -/
def hiByte (v : UInt16) : UInt8 := (v >>> 8).toUInt8

/-- The lower byte. -/
def loByte (v : UInt16) : UInt8 := v.toUInt8

/-- The 32-bit number of two halves. -/
def ofHalves (hi lo : UInt16) : UInt32 := hi.toUInt32 * 65536 + lo.toUInt32

/-- The upper half. -/
def hiHalf (v : UInt32) : UInt16 := (v >>> 16).toUInt16

/-- The lower half. -/
def loHalf (v : UInt32) : UInt16 := v.toUInt16

lemma toNat_ofBytes (hi lo : UInt8) : (ofBytes hi lo).toNat = hi.toNat * 256 + lo.toNat := by
  have hhi := hi.toNat_lt
  have hlo := lo.toNat_lt
  simp only [ofBytes, UInt16.toNat_add, UInt16.toNat_mul, UInt8.toNat_toUInt16,
    UInt16.reduceToNat]
  omega

lemma toNat_ofHalves (hi lo : UInt16) : (ofHalves hi lo).toNat = hi.toNat * 65536 + lo.toNat := by
  have hhi := hi.toNat_lt
  have hlo := lo.toNat_lt
  simp only [ofHalves, UInt32.toNat_add, UInt32.toNat_mul, UInt16.toNat_toUInt32,
    UInt32.reduceToNat]
  omega

lemma toNat_hiByte (v : UInt16) : (hiByte v).toNat = v.toNat / 256 := by
  have hv := v.toNat_lt
  simp only [hiByte, UInt16.toNat_toUInt8, UInt16.toNat_shiftRight, UInt16.reduceToNat,
    Nat.reduceMod, Nat.shiftRight_eq_div_pow]
  omega

lemma toNat_loByte (v : UInt16) : (loByte v).toNat = v.toNat % 256 := by simp [loByte]

lemma toNat_hiHalf (v : UInt32) : (hiHalf v).toNat = v.toNat / 65536 := by
  have hv := v.toNat_lt
  simp only [hiHalf, UInt32.toNat_toUInt16, UInt32.toNat_shiftRight, UInt32.reduceToNat,
    Nat.reduceMod, Nat.shiftRight_eq_div_pow]
  omega

lemma toNat_loHalf (v : UInt32) : (loHalf v).toNat = v.toNat % 65536 := by simp [loHalf]

@[simp] lemma hiByte_ofBytes (hi lo : UInt8) : hiByte (ofBytes hi lo) = hi := by
  have hlo := lo.toNat_lt
  apply UInt8.toNat_inj.mp
  rw [toNat_hiByte, toNat_ofBytes]
  omega

@[simp] lemma loByte_ofBytes (hi lo : UInt8) : loByte (ofBytes hi lo) = lo := by
  have hlo := lo.toNat_lt
  apply UInt8.toNat_inj.mp
  rw [toNat_loByte, toNat_ofBytes]
  omega

@[simp] lemma ofBytes_hiByte_loByte (v : UInt16) : ofBytes (hiByte v) (loByte v) = v := by
  apply UInt16.toNat_inj.mp
  rw [toNat_ofBytes, toNat_hiByte, toNat_loByte]
  omega

lemma ofBytes_eq_iff {hi lo : UInt8} {v : UInt16} :
    ofBytes hi lo = v ↔ hi = hiByte v ∧ lo = loByte v := by
  constructor
  · rintro rfl
    exact ⟨(hiByte_ofBytes hi lo).symm, (loByte_ofBytes hi lo).symm⟩
  · rintro ⟨rfl, rfl⟩
    exact ofBytes_hiByte_loByte v

@[simp] lemma hiHalf_ofHalves (hi lo : UInt16) : hiHalf (ofHalves hi lo) = hi := by
  have hlo := lo.toNat_lt
  apply UInt16.toNat_inj.mp
  rw [toNat_hiHalf, toNat_ofHalves]
  omega

@[simp] lemma loHalf_ofHalves (hi lo : UInt16) : loHalf (ofHalves hi lo) = lo := by
  have hlo := lo.toNat_lt
  apply UInt16.toNat_inj.mp
  rw [toNat_loHalf, toNat_ofHalves]
  omega

@[simp] lemma ofHalves_hiHalf_loHalf (v : UInt32) : ofHalves (hiHalf v) (loHalf v) = v := by
  apply UInt32.toNat_inj.mp
  rw [toNat_ofHalves, toNat_hiHalf, toNat_loHalf]
  omega

/-! ### Swapping -/

/-- A 16-bit number with its bytes swapped. -/
def bswap16 (v : UInt16) : UInt16 := ofBytes (loByte v) (hiByte v)

/-- A 32-bit number with its bytes in reverse order. -/
def bswap32 (v : UInt32) : UInt32 := ofHalves (bswap16 (loHalf v)) (bswap16 (hiHalf v))

@[simp] lemma bswap16_bswap16 (v : UInt16) : bswap16 (bswap16 v) = v := by simp [bswap16]

@[simp] lemma bswap32_bswap32 (v : UInt32) : bswap32 (bswap32 v) = v := by simp [bswap32]

/-- `rte_be_to_cpu_16`, and `rte_cpu_to_be_16` as well. -/
def beToCpu16 : Endian → UInt16 → UInt16
  | .little, v => bswap16 v
  | .big, v => v

/-- `rte_be_to_cpu_32`, and `rte_cpu_to_be_32` as well. -/
def beToCpu32 : Endian → UInt32 → UInt32
  | .little, v => bswap32 v
  | .big, v => v

@[simp] lemma beToCpu16_beToCpu16 (e : Endian) (v : UInt16) :
    beToCpu16 e (beToCpu16 e v) = v := by
  cases e <;> simp [beToCpu16]

@[simp] lemma beToCpu32_beToCpu32 (e : Endian) (v : UInt32) :
    beToCpu32 e (beToCpu32 e v) = v := by
  cases e <;> simp [beToCpu32]

lemma beToCpu16_inj {e : Endian} {v w : UInt16} : beToCpu16 e v = beToCpu16 e w ↔ v = w :=
  (Function.Involutive.injective (beToCpu16_beToCpu16 e)).eq_iff

lemma beToCpu32_inj {e : Endian} {v w : UInt32} : beToCpu32 e v = beToCpu32 e w ↔ v = w :=
  (Function.Involutive.injective (beToCpu32_beToCpu32 e)).eq_iff

/-! ### Loads -/

namespace ByteReader

/-- Load a 16-bit field in the byte order of the host. -/
def load16 (e : Endian) (i : ℕ) : ByteReader UInt16 := do
  let first ← byte i
  let second ← byte (i + 1)
  return match e with
    | .little => ofBytes second first
    | .big => ofBytes first second

/-- Load a 32-bit field in the byte order of the host. -/
def load32 (e : Endian) (i : ℕ) : ByteReader UInt32 := do
  let first ← load16 e i
  let second ← load16 e (i + 2)
  return match e with
    | .little => ofHalves second first
    | .big => ofHalves first second

/-- A converted 16-bit load is the field in network order. -/
lemma beToCpu16_load16 (e : Endian) (i : ℕ) (buf : ℕ → UInt8) :
    beToCpu16 e ((load16 e i).eval buf) = (be16 i).eval buf := by
  cases e with
  | big => rfl
  | little =>
      show bswap16 (ofBytes (buf (i + 1)) (buf i)) = ofBytes (buf i) (buf (i + 1))
      simp [bswap16]

/-- **A converted 32-bit load** is the field in network order. -/
lemma beToCpu32_load32 (e : Endian) (i : ℕ) (buf : ℕ → UInt8) :
    beToCpu32 e ((load32 e i).eval buf) = (be32 i).eval buf := by
  have hfirst := beToCpu16_load16 e i buf
  have hsecond := beToCpu16_load16 e (i + 2) buf
  have hbe : (be32 i).eval buf = ofHalves ((be16 i).eval buf) ((be16 (i + 2)).eval buf) := rfl
  rw [hbe, ← hfirst, ← hsecond]
  cases e <;> simp [load32, beToCpu32, beToCpu16, bswap32]

@[simp] lemma readsBelow_load16 (e : Endian) (i : ℕ) (buf : ℕ → UInt8) (n : ℕ) :
    (load16 e i).ReadsBelow buf n ↔ i + 1 < n := readsBelow_be16 i buf n

@[simp] lemma readsBelow_load32 (e : Endian) (i : ℕ) (buf : ℕ → UInt8) (n : ℕ) :
    (load32 e i).ReadsBelow buf n ↔ i + 3 < n := by
  simp only [load32, readsBelow_bind, readsBelow_load16, readsBelow_pure, and_true]
  exact and_iff_right_of_imp fun h => by omega

end ByteReader

/-! ### Stored numbers -/

/-- The number a byte sequence is in network order. -/
def beValue (bytes : List UInt8) : ℕ := bytes.foldl (fun n b => n * 256 + b.toNat) 0

/-- The bytes a host stores for a 16-bit number. -/
def bytes16 : Endian → UInt16 → List UInt8
  | .little, v => [loByte v, hiByte v]
  | .big, v => [hiByte v, loByte v]

/-- The bytes a host stores for a 32-bit number. -/
def bytes32 : Endian → UInt32 → List UInt8
  | .little, v => bytes16 .little (loHalf v) ++ bytes16 .little (hiHalf v)
  | .big, v => bytes16 .big (hiHalf v) ++ bytes16 .big (loHalf v)

@[simp] lemma length_bytes16 (e : Endian) (v : UInt16) : (bytes16 e v).length = 2 := by
  cases e <;> rfl

@[simp] lemma length_bytes32 (e : Endian) (v : UInt32) : (bytes32 e v).length = 4 := by
  cases e <;> rfl

/-- A converted number is stored in network order. -/
lemma bytes32_beToCpu32 (e : Endian) (v : UInt32) :
    bytes32 e (beToCpu32 e v) = bytes32 .big v := by
  cases e with
  | big => rfl
  | little => simp [bytes32, bytes16, beToCpu32, bswap32, bswap16]

/-- The bytes of a 16-bit number, read in network order, are its conversion. -/
lemma beValue_bytes16 (e : Endian) (v : UInt16) :
    beValue (bytes16 e v) = (beToCpu16 e v).toNat := by
  have hbytes : ∀ hi lo : UInt8, beValue [hi, lo] = (ofBytes hi lo).toNat := by
    intro hi lo
    rw [toNat_ofBytes]
    simp [beValue]
  cases e with
  | little => rw [bytes16, hbytes]; rfl
  | big => rw [bytes16, hbytes, ofBytes_hiByte_loByte]; rfl

/-- **The bytes of a 32-bit number**, read in network order, are its conversion. -/
lemma beValue_bytes32 (e : Endian) (v : UInt32) :
    beValue (bytes32 e v) = (beToCpu32 e v).toNat := by
  have hhalves : ∀ a b c d : UInt8,
      beValue [a, b, c, d] = (ofHalves (ofBytes a b) (ofBytes c d)).toNat := by
    intro a b c d
    rw [toNat_ofHalves, toNat_ofBytes, toNat_ofBytes]
    simp only [beValue, List.foldl_cons, List.foldl_nil]
    omega
  cases e with
  | little => exact hhalves _ _ _ _
  | big =>
      refine (hhalves _ _ _ _).trans ?_
      rw [ofBytes_hiByte_loByte, ofBytes_hiByte_loByte, ofHalves_hiHalf_loHalf]
      rfl

end DpdkStarter
