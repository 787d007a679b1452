import DpdkStarter.Library.ByteOrder

/-!
Programs that read and write bytes of a buffer.

Such a program extends those that only read: it says which byte it reads or
writes next, so that its result and the buffer it leaves are one function of the
buffer it finds.

* `exec`: the result and the buffer, with its equations for `pure` and `bind`.
* `ofReader`: a program that only reads; `exec_ofReader`: it leaves the buffer.
* `slice`, `putBytes`: consecutive bytes of a buffer, and a buffer with others in
  their place.
* `store16`, `store32`: the stores of a host; `exec_store16`, `exec_store32`: the
  buffers they leave.
* `touches`: the indices read or written; `TouchesBelow`: every one of them is below
  a bound, with the bound that each load and store asks for.
-/

namespace DpdkStarter

/-- A program that reads and writes bytes by index and returns a value. -/
inductive ByteProgram (α : Type) where
  | ret (a : α)
  | read (i : ℕ) (k : UInt8 → ByteProgram α)
  | write (i : ℕ) (b : UInt8) (k : ByteProgram α)

namespace ByteProgram

variable {α β : Type}

/-- Go on with the result of a program. -/
def bind : ByteProgram α → (α → ByteProgram β) → ByteProgram β
  | .ret a, f => f a
  | .read i k, f => .read i fun b => (k b).bind f
  | .write i b k, f => .write i b (k.bind f)

instance : Monad ByteProgram where
  pure := .ret
  bind := ByteProgram.bind

/-- The result on a buffer, and the buffer it leaves. -/
def exec : ByteProgram α → (ℕ → UInt8) → α × (ℕ → UInt8)
  | .ret a, buf => (a, buf)
  | .read i k, buf => (k (buf i)).exec buf
  | .write i b k, buf => k.exec (Function.update buf i b)

@[simp] lemma exec_pure (a : α) (buf : ℕ → UInt8) :
    (pure a : ByteProgram α).exec buf = (a, buf) := rfl

@[simp] lemma exec_bind (p : ByteProgram α) (f : α → ByteProgram β) (buf : ℕ → UInt8) :
    (p >>= f).exec buf = (f (p.exec buf).1).exec (p.exec buf).2 := by
  induction p generalizing buf with
  | ret a => rfl
  | read i k ih => exact ih (buf i) buf
  | write i b k ih => exact ih (Function.update buf i b)

/-- A program that only reads. -/
def ofReader : ByteReader α → ByteProgram α
  | .ret a => .ret a
  | .read i k => .read i fun b => ofReader (k b)

@[simp] lemma exec_ofReader (p : ByteReader α) (buf : ℕ → UInt8) :
    (ofReader p).exec buf = (p.eval buf, buf) := by
  induction p with
  | ret a => rfl
  | read i k ih => exact ih (buf i)

/-- Store consecutive bytes. -/
def store (i : ℕ) : List UInt8 → ByteProgram Unit
  | [] => .ret ()
  | b :: bs => .write i b (store (i + 1) bs)

/-- Store a 16-bit field in the byte order of the host. -/
def store16 (e : Endian) (i : ℕ) (v : UInt16) : ByteProgram Unit := store i (bytes16 e v)

/-- Store a 32-bit field in the byte order of the host. -/
def store32 (e : Endian) (i : ℕ) (v : UInt32) : ByteProgram Unit := store i (bytes32 e v)

end ByteProgram

/-! ### Consecutive bytes -/

/-- So many bytes of a buffer from an index on. -/
def slice (buf : ℕ → UInt8) (i : ℕ) : ℕ → List UInt8
  | 0 => []
  | n + 1 => buf i :: slice buf (i + 1) n

/-- The buffer with those bytes from an index on. -/
def putBytes (buf : ℕ → UInt8) (i : ℕ) : List UInt8 → ℕ → UInt8
  | [] => buf
  | b :: bs => putBytes (Function.update buf i b) (i + 1) bs

@[simp] lemma length_slice (buf : ℕ → UInt8) (i n : ℕ) : (slice buf i n).length = n := by
  induction n generalizing i with
  | zero => rfl
  | succ n ih => rw [slice, List.length_cons, ih]

lemma slice_add (buf : ℕ → UInt8) (i n n' : ℕ) :
    slice buf i (n + n') = slice buf i n ++ slice buf (i + n) n' := by
  induction n generalizing i with
  | zero => simp [slice]
  | succ n ih =>
      rw [Nat.add_right_comm, slice, slice, List.cons_append, ih, Nat.add_right_comm i 1 n,
        Nat.add_assoc i n 1]

/-- A slice depends on its bytes only. -/
lemma slice_congr {buf buf' : ℕ → UInt8} {i n : ℕ}
    (h : ∀ j, i ≤ j → j < i + n → buf j = buf' j) : slice buf i n = slice buf' i n := by
  induction n generalizing i with
  | zero => rfl
  | succ n ih =>
      have hrest : slice buf (i + 1) n = slice buf' (i + 1) n :=
        ih fun j hle hlt => h j (by omega) (by omega)
      rw [slice, slice, h i le_rfl (by omega), hrest]

/-- The other bytes stay. -/
lemma putBytes_of_notMem {bs : List UInt8} {i j : ℕ} (h : j < i ∨ i + bs.length ≤ j)
    (buf : ℕ → UInt8) : putBytes buf i bs j = buf j := by
  induction bs generalizing i buf with
  | nil => rfl
  | cons b bs ih =>
      rw [List.length_cons] at h
      have hne : j ≠ i := by omega
      rw [putBytes, ih (by omega), Function.update_of_ne hne]

/-- What was put is there. -/
lemma slice_putBytes (buf : ℕ → UInt8) (i : ℕ) (bs : List UInt8) :
    slice (putBytes buf i bs) i bs.length = bs := by
  induction bs generalizing i buf with
  | nil => rfl
  | cons b bs ih =>
      have hfirst : putBytes (Function.update buf i b) (i + 1) bs i = b := by
        rw [putBytes_of_notMem (Or.inl (Nat.lt_succ_self i)), Function.update_self]
      rw [List.length_cons, slice, putBytes, hfirst, ih]

/-- A slice beside the bytes put is the same. -/
lemma slice_putBytes_of_disjoint {bs : List UInt8} {i j n : ℕ}
    (h : j + n ≤ i ∨ i + bs.length ≤ j) (buf : ℕ → UInt8) :
    slice (putBytes buf i bs) j n = slice buf j n :=
  slice_congr fun _ hle hlt => putBytes_of_notMem (by omega) buf

/-- What was there before does not matter. -/
lemma putBytes_congr {bs : List UInt8} {buf buf' : ℕ → UInt8} {i : ℕ}
    (h : ∀ j, j < i ∨ i + bs.length ≤ j → buf j = buf' j) :
    putBytes buf i bs = putBytes buf' i bs := by
  induction bs generalizing i buf buf' with
  | nil => exact funext fun j => h j (lt_or_ge j i)
  | cons b bs ih =>
      refine ih fun j hj => ?_
      rw [List.length_cons] at h
      by_cases hji : j = i
      · rw [hji, Function.update_self, Function.update_self]
      · rw [Function.update_of_ne hji, Function.update_of_ne hji, h j (by omega)]

/-- The later of two puts in one place stays. -/
lemma putBytes_putBytes {bs bs' : List UInt8} (h : bs.length = bs'.length) (buf : ℕ → UInt8)
    (i : ℕ) : putBytes (putBytes buf i bs) i bs' = putBytes buf i bs' :=
  putBytes_congr fun _ hj => putBytes_of_notMem (by rwa [h]) buf

/-- Two bytes put make no difference below a bound where they are there already. -/
lemma putBytes_pair_eq_iff (buf : ℕ → UInt8) (k n : ℕ) (b c : UInt8) :
    (∀ i < n, putBytes buf k [b, c] i = buf i)
      ↔ (k < n → buf k = b) ∧ (k + 1 < n → buf (k + 1) = c) := by
  have hput : putBytes buf k [b, c] = Function.update (Function.update buf k b) (k + 1) c := rfl
  have hfirst : putBytes buf k [b, c] k = b := by
    rw [hput, Function.update_of_ne (Nat.succ_ne_self k).symm, Function.update_self]
  have hsecond : putBytes buf k [b, c] (k + 1) = c := by rw [hput, Function.update_self]
  constructor
  · intro h
    exact ⟨fun hk => (h k hk).symm.trans hfirst, fun hk => (h (k + 1) hk).symm.trans hsecond⟩
  · rintro ⟨hk, hk'⟩ i hi
    by_cases hik : i = k
    · rw [hik, hfirst, hk (hik ▸ hi)]
    · by_cases hik' : i = k + 1
      · rw [hik', hsecond, hk' (hik' ▸ hi)]
      · rw [hput, Function.update_of_ne hik', Function.update_of_ne hik]

/-- Load consecutive bytes. -/
def ByteReader.bytes (i : ℕ) : ℕ → ByteReader (List UInt8)
  | 0 => return []
  | n + 1 => do
      let b ← .byte i
      let bs ← bytes (i + 1) n
      return b :: bs

@[simp] lemma ByteReader.eval_bytes (i n : ℕ) (buf : ℕ → UInt8) :
    (ByteReader.bytes i n).eval buf = slice buf i n := by
  induction n generalizing i with
  | zero => rfl
  | succ n ih => rw [bytes, eval_bind, eval_bind, eval_pure, eval_byte, ih, slice]

@[simp] lemma ByteReader.readsBelow_bytes (i n : ℕ) (buf : ℕ → UInt8) (bound : ℕ) :
    (ByteReader.bytes i n).ReadsBelow buf bound ↔ (n = 0 ∨ i + n ≤ bound) := by
  induction n generalizing i with
  | zero => exact iff_of_true (readsBelow_pure [] buf bound) (Or.inl rfl)
  | succ n ih =>
      rw [bytes, readsBelow_bind, readsBelow_bind, readsBelow_byte, ih,
        and_iff_left (readsBelow_pure _ buf bound)]
      omega

namespace ByteProgram

@[simp] lemma exec_store (i : ℕ) (bs : List UInt8) (buf : ℕ → UInt8) :
    (store i bs).exec buf = ((), putBytes buf i bs) := by
  induction bs generalizing i buf with
  | nil => rfl
  | cons b bs ih => exact ih (i + 1) (Function.update buf i b)

@[simp] lemma exec_store16 (e : Endian) (i : ℕ) (v : UInt16) (buf : ℕ → UInt8) :
    (store16 e i v).exec buf = ((), putBytes buf i (bytes16 e v)) := exec_store i _ buf

@[simp] lemma exec_store32 (e : Endian) (i : ℕ) (v : UInt32) (buf : ℕ → UInt8) :
    (store32 e i v).exec buf = ((), putBytes buf i (bytes32 e v)) := exec_store i _ buf

/-! ### What a program touches -/

/-- The indices a program reads or writes on a buffer, in order. -/
def touches : ByteProgram α → (ℕ → UInt8) → List ℕ
  | .ret _, _ => []
  | .read i k, buf => i :: (k (buf i)).touches buf
  | .write i b k, buf => i :: k.touches (Function.update buf i b)

lemma touches_bind (p : ByteProgram α) (f : α → ByteProgram β) (buf : ℕ → UInt8) :
    (p >>= f).touches buf = p.touches buf ++ (f (p.exec buf).1).touches (p.exec buf).2 := by
  induction p generalizing buf with
  | ret a => rfl
  | read i k ih => exact congrArg (i :: ·) (ih (buf i) buf)
  | write i b k ih => exact congrArg (i :: ·) (ih (Function.update buf i b))

lemma touches_ofReader (p : ByteReader α) (buf : ℕ → UInt8) :
    (ofReader p).touches buf = p.reads buf := by
  induction p with
  | ret a => rfl
  | read i k ih => exact congrArg (i :: ·) (ih (buf i))

/-- Every index a program touches on a buffer is below a bound. -/
def TouchesBelow (p : ByteProgram α) (buf : ℕ → UInt8) (n : ℕ) : Prop :=
  ∀ i ∈ p.touches buf, i < n

@[simp] lemma touchesBelow_pure (a : α) (buf : ℕ → UInt8) (n : ℕ) :
    (pure a : ByteProgram α).TouchesBelow buf n := fun _ hi => absurd hi List.not_mem_nil

@[simp] lemma touchesBelow_bind (p : ByteProgram α) (f : α → ByteProgram β) (buf : ℕ → UInt8)
    (n : ℕ) : (p >>= f).TouchesBelow buf n
      ↔ p.TouchesBelow buf n ∧ (f (p.exec buf).1).TouchesBelow (p.exec buf).2 n := by
  rw [TouchesBelow, touches_bind, List.forall_mem_append]
  exact Iff.rfl

@[simp] lemma touchesBelow_ofReader (p : ByteReader α) (buf : ℕ → UInt8) (n : ℕ) :
    (ofReader p).TouchesBelow buf n ↔ p.ReadsBelow buf n := by
  rw [TouchesBelow, touches_ofReader, ByteReader.ReadsBelow]

@[simp] lemma touchesBelow_store (i : ℕ) (bs : List UInt8) (buf : ℕ → UInt8) (n : ℕ) :
    (store i bs).TouchesBelow buf n ↔ (bs = [] ∨ i + bs.length ≤ n) := by
  induction bs generalizing i buf with
  | nil => exact iff_of_true (touchesBelow_pure () buf n) (Or.inl rfl)
  | cons b bs ih =>
      have hcons : (store i (b :: bs)).TouchesBelow buf n
          ↔ i < n ∧ (store (i + 1) bs).TouchesBelow (Function.update buf i b) n :=
        List.forall_mem_cons
      rw [hcons, ih, List.length_cons]
      cases bs with
      | nil => simp
      | cons c cs =>
          simp only [List.length_cons, reduceCtorEq, false_or]
          omega

@[simp] lemma touchesBelow_store16 (e : Endian) (i : ℕ) (v : UInt16) (buf : ℕ → UInt8) (n : ℕ) :
    (store16 e i v).TouchesBelow buf n ↔ i + 2 ≤ n := by
  have hne : bytes16 e v ≠ [] := List.ne_nil_of_length_pos (by rw [length_bytes16]; decide)
  rw [store16, touchesBelow_store, length_bytes16, or_iff_right hne]

@[simp] lemma touchesBelow_store32 (e : Endian) (i : ℕ) (v : UInt32) (buf : ℕ → UInt8) (n : ℕ) :
    (store32 e i v).TouchesBelow buf n ↔ i + 4 ≤ n := by
  have hne : bytes32 e v ≠ [] := List.ne_nil_of_length_pos (by rw [length_bytes32]; decide)
  rw [store32, touchesBelow_store, length_bytes32, or_iff_right hne]

end ByteProgram

end DpdkStarter
