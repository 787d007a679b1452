import Mathlib.Tactic

/-!
Programs that read bytes of a buffer and do nothing else.

A program says which byte it reads next and how it goes on with the answer, so
that its result on a buffer and the indices it looks at are two functions of one
text.

* `eval`: the result on a buffer, with its equations for `pure` and `bind`.
* `byte`, `be16`, `be32`: the loads a packet parser is made of.
* `reads`: the indices looked at, with the same equations; `eval_congr`: the result
  depends on no other byte.
* `ReadsBelow`: every index looked at is below a bound, with the bound that each
  load asks for.
-/

namespace DpdkStarter

/-- A program that reads bytes by index and returns a value. -/
inductive ByteReader (α : Type) where
  | ret (a : α)
  | read (i : ℕ) (k : UInt8 → ByteReader α)

namespace ByteReader

variable {α β : Type}

/-- Go on with the result of a program. -/
def bind : ByteReader α → (α → ByteReader β) → ByteReader β
  | .ret a, f => f a
  | .read i k, f => .read i fun b => (k b).bind f

instance : Monad ByteReader where
  pure := .ret
  bind := ByteReader.bind

/-- The result on a buffer. -/
def eval : ByteReader α → (ℕ → UInt8) → α
  | .ret a, _ => a
  | .read i k, buf => (k (buf i)).eval buf

@[simp] lemma eval_pure (a : α) (buf : ℕ → UInt8) : (pure a : ByteReader α).eval buf = a := rfl

@[simp] lemma eval_bind (p : ByteReader α) (f : α → ByteReader β) (buf : ℕ → UInt8) :
    (p >>= f).eval buf = (f (p.eval buf)).eval buf := by
  induction p with
  | ret a => rfl
  | read i k ih => exact ih (buf i)

/-- Load one byte. -/
def byte (i : ℕ) : ByteReader UInt8 := .read i .ret

/-- Load a 16-bit field in network byte order. -/
def be16 (i : ℕ) : ByteReader UInt16 := do
  let hi ← byte i
  let lo ← byte (i + 1)
  return hi.toUInt16 * 256 + lo.toUInt16

/-- Load a 32-bit field in network byte order. -/
def be32 (i : ℕ) : ByteReader UInt32 := do
  let hi ← be16 i
  let lo ← be16 (i + 2)
  return hi.toUInt32 * 65536 + lo.toUInt32

@[simp] lemma eval_byte (i : ℕ) (buf : ℕ → UInt8) : (byte i).eval buf = buf i := rfl

@[simp] lemma eval_be16 (i : ℕ) (buf : ℕ → UInt8) :
    (be16 i).eval buf = (buf i).toUInt16 * 256 + (buf (i + 1)).toUInt16 := rfl

/-! ### What a program looks at -/

/-- The indices a program looks at on a buffer, in order. -/
def reads : ByteReader α → (ℕ → UInt8) → List ℕ
  | .ret _, _ => []
  | .read i k, buf => i :: (k (buf i)).reads buf

@[simp] lemma reads_pure (a : α) (buf : ℕ → UInt8) : (pure a : ByteReader α).reads buf = [] := rfl

@[simp] lemma reads_bind (p : ByteReader α) (f : α → ByteReader β) (buf : ℕ → UInt8) :
    (p >>= f).reads buf = p.reads buf ++ (f (p.eval buf)).reads buf := by
  induction p with
  | ret a => rfl
  | read i k ih => exact congrArg (i :: ·) (ih (buf i))

@[simp] lemma reads_byte (i : ℕ) (buf : ℕ → UInt8) : (byte i).reads buf = [i] := rfl

@[simp] lemma reads_be16 (i : ℕ) (buf : ℕ → UInt8) : (be16 i).reads buf = [i, i + 1] := rfl

/-- **The result depends on what is read** and on no other byte. -/
lemma eval_congr (p : ByteReader α) {buf buf' : ℕ → UInt8}
    (h : ∀ i ∈ p.reads buf, buf i = buf' i) : p.eval buf = p.eval buf' := by
  induction p with
  | ret a => rfl
  | read i k ih =>
      have hi : buf i = buf' i := h i List.mem_cons_self
      rw [eval, eval, ← hi]
      exact ih (buf i) fun j hj => h j (List.mem_cons_of_mem i hj)

/-- Every index a program looks at on a buffer is below a bound. -/
def ReadsBelow (p : ByteReader α) (buf : ℕ → UInt8) (n : ℕ) : Prop := ∀ i ∈ p.reads buf, i < n

@[simp] lemma readsBelow_pure (a : α) (buf : ℕ → UInt8) (n : ℕ) :
    (pure a : ByteReader α).ReadsBelow buf n := fun _ hi => absurd hi List.not_mem_nil

@[simp] lemma readsBelow_bind (p : ByteReader α) (f : α → ByteReader β) (buf : ℕ → UInt8)
    (n : ℕ) : (p >>= f).ReadsBelow buf n
      ↔ p.ReadsBelow buf n ∧ (f (p.eval buf)).ReadsBelow buf n := by
  rw [ReadsBelow, reads_bind, List.forall_mem_append]
  exact Iff.rfl

@[simp] lemma readsBelow_byte (i : ℕ) (buf : ℕ → UInt8) (n : ℕ) :
    (byte i).ReadsBelow buf n ↔ i < n := List.forall_mem_singleton

@[simp] lemma readsBelow_be16 (i : ℕ) (buf : ℕ → UInt8) (n : ℕ) :
    (be16 i).ReadsBelow buf n ↔ i + 1 < n := by
  simp only [be16, readsBelow_bind, readsBelow_byte, readsBelow_pure, and_true]
  exact and_iff_right_of_imp fun h => Nat.lt_of_succ_lt h

@[simp] lemma readsBelow_be32 (i : ℕ) (buf : ℕ → UInt8) (n : ℕ) :
    (be32 i).ReadsBelow buf n ↔ i + 3 < n := by
  simp only [be32, readsBelow_bind, readsBelow_be16, readsBelow_pure, and_true]
  exact and_iff_right_of_imp fun h => by omega

end ByteReader

end DpdkStarter
