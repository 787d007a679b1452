import Mathlib.Tactic

/-!
Programs over arrays of fixed sizes.

A program reads and writes cells of its arrays by index, and some scalars beside
them. It says what it does next, so that its result, the memory it leaves and the
cells it uses are functions of the memory it finds. A cell that the array does not
have stops it.

* `Layout`, `Memory`: arrays with their sizes, and what they hold; `Memory.Begins`: an
  array begins with a list of values.
* `exec`: the result and the memory, or what stopped the program.
* `used`: the cells a program uses, the one that stopped it included;
  `used_inside_iff`: these are cells of the arrays exactly when no cell stopped it.
* `Simulates`: a run ends as an abstract computation does, and
  `Simulates.bind`, its rule for what comes after.
-/

namespace DpdkStarter

/-- Named arrays: what a cell of each holds, and how many cells it has. -/
structure Layout (A : Type) where
  Val : A → Type
  capacity : A → ℕ

/-- The contents of the arrays, and the scalars. -/
structure Memory {A : Type} (L : Layout A) (R : Type) where
  cells : ∀ a, Vector (L.Val a) (L.capacity a)
  scalars : R

/-- A program that uses cells by index, may fail with an `E` and returns a value. -/
inductive ArrayProgram {A : Type} (L : Layout A) (R E α : Type) where
  | ret (x : α)
  | load (a : A) (i : ℕ) (k : L.Val a → ArrayProgram L R E α)
  | store (a : A) (i : ℕ) (v : L.Val a) (k : ArrayProgram L R E α)
  | getScalars (k : R → ArrayProgram L R E α)
  | setScalars (r : R) (k : ArrayProgram L R E α)
  | fail (e : E)

/-- What stops a program: a cell its array does not have, or a failure of its own. -/
inductive Stop (A E : Type) where
  | outside (a : A) (i : ℕ)
  | failure (e : E)
  deriving DecidableEq

variable {A : Type} [DecidableEq A] {L : Layout A} {R E α β γ : Type}

namespace Memory

/-- The memory with another value in one cell. -/
def put (m : Memory L R) (a : A) (i : ℕ) (v : L.Val a) : Memory L R :=
  { m with cells := Function.update m.cells a ((m.cells a).setIfInBounds i v) }

@[simp] lemma scalars_put (m : Memory L R) (a : A) (i : ℕ) (v : L.Val a) :
    (m.put a i v).scalars = m.scalars := rfl

lemma cells_put_of_ne {a b : A} (hb : b ≠ a) (m : Memory L R) (i : ℕ) (v : L.Val a) :
    (m.put a i v).cells b = m.cells b :=
  Function.update_of_ne hb _ _

lemma cells_put_self (m : Memory L R) (a : A) (i : ℕ) (v : L.Val a) :
    (m.put a i v).cells a = (m.cells a).setIfInBounds i v :=
  Function.update_self _ _ _

lemma getElem?_put_self {a : A} {i : ℕ} (hi : i < L.capacity a) (m : Memory L R)
    (v : L.Val a) : ((m.put a i v).cells a)[i]? = some v := by
  rw [cells_put_self, Vector.getElem?_setIfInBounds_self, if_pos hi]

lemma getElem?_put_of_ne {i j : ℕ} (hj : j ≠ i) (m : Memory L R) (a : A) (v : L.Val a) :
    ((m.put a i v).cells a)[j]? = (m.cells a)[j]? := by
  rw [cells_put_self, Vector.getElem?_setIfInBounds_ne hj.symm]

/-- The array begins with these values. -/
def Begins (m : Memory L R) (a : A) (l : List (L.Val a)) : Prop :=
  ∀ (i : ℕ) (v : L.Val a), l[i]? = some v → (m.cells a)[i]? = some v

variable {m : Memory L R} {a : A} {l : List (L.Val a)}

omit [DecidableEq A] in
lemma begins_nil : m.Begins a [] := by
  intro i v hv
  cases hv

omit [DecidableEq A] in
/-- An array begins with no more values than it has cells. -/
lemma Begins.length_le (h : m.Begins a l) : l.length ≤ L.capacity a := by
  by_contra hlong
  rw [not_le] at hlong
  have hlast := h (L.capacity a) _ (List.getElem?_eq_getElem hlong)
  rw [Vector.getElem?_eq_none le_rfl] at hlast
  cases hlast

variable {f : β → L.Val a} {pre post xs : List β} {x : β}

omit [DecidableEq A] in
/-- The value at the split of a list. -/
lemma Begins.getElem?_length (h : m.Begins a ((pre ++ x :: post).map f)) :
    (m.cells a)[pre.length]? = some (f x) :=
  h pre.length (f x) (by simp)

/-- Another value in place of one of them. -/
lemma Begins.put_replace (h : m.Begins a ((pre ++ x :: post).map f)) (y : β) :
    (m.put a pre.length (f y)).Begins a ((pre ++ y :: post).map f) := by
  have hlen := h.length_le
  rw [List.length_map, List.length_append, List.length_cons] at hlen
  intro i v hv
  by_cases hi : i = pre.length
  · subst hi
    rw [getElem?_put_self (by omega)]
    simpa using hv
  · rw [getElem?_put_of_ne hi]
    refine h i v ?_
    rw [List.getElem?_map] at hv ⊢
    rcases lt_or_gt_of_ne hi with hlt | hgt
    · rwa [List.getElem?_append_left hlt] at hv ⊢
    · obtain ⟨k, rfl⟩ := Nat.exists_eq_add_of_lt hgt
      rw [List.getElem?_append_right (by omega)] at hv ⊢
      rwa [show pre.length + k + 1 - pre.length = k + 1 by omega, List.getElem?_cons_succ] at hv ⊢

/-- One more value behind them. -/
lemma Begins.put_push (h : m.Begins a (xs.map f)) (hlen : xs.length < L.capacity a) (y : β) :
    (m.put a xs.length (f y)).Begins a ((xs ++ [y]).map f) := by
  intro i v hv
  by_cases hi : i = xs.length
  · subst hi
    rw [getElem?_put_self hlen]
    simpa using hv
  · rw [getElem?_put_of_ne hi]
    refine h i v ?_
    have hlt : i < ((xs ++ [y]).map f).length := (List.getElem?_eq_some_iff.mp hv).1
    rw [List.length_map, List.length_append, List.length_singleton] at hlt
    rw [List.getElem?_map] at hv ⊢
    rwa [List.getElem?_append_left (by omega)] at hv

/-- The other arrays begin as before. -/
lemma Begins.put_of_ne {b : A} (h : m.Begins a l) (hb : a ≠ b) (i : ℕ) (v : L.Val b) :
    (m.put b i v).Begins a l := by
  intro j x hx
  rw [cells_put_of_ne hb]
  exact h j x hx

end Memory

namespace ArrayProgram

/-- Go on with the result of a program. -/
def bind : ArrayProgram L R E α → (α → ArrayProgram L R E β) → ArrayProgram L R E β
  | .ret x, f => f x
  | .load a i k, f => .load a i fun v => (k v).bind f
  | .store a i v k, f => .store a i v (k.bind f)
  | .getScalars k, f => .getScalars fun r => (k r).bind f
  | .setScalars r k, f => .setScalars r (k.bind f)
  | .fail e, _ => .fail e

instance : Monad (ArrayProgram L R E) where
  pure := .ret
  bind := ArrayProgram.bind

/-- Read a cell. -/
def read (a : A) (i : ℕ) : ArrayProgram L R E (L.Val a) := .load a i .ret

/-- Write a cell. -/
def write (a : A) (i : ℕ) (v : L.Val a) : ArrayProgram L R E Unit := .store a i v (.ret ())

/-- Read the scalars. -/
def get : ArrayProgram L R E R := .getScalars .ret

/-- Write the scalars. -/
def set (r : R) : ArrayProgram L R E Unit := .setScalars r (.ret ())

/-- Run a program. -/
def exec : ArrayProgram L R E α → Memory L R → Except (Stop A E) (α × Memory L R)
  | .ret x, m => .ok (x, m)
  | .load a i k, m =>
      match (m.cells a)[i]? with
      | some v => (k v).exec m
      | none => .error (.outside a i)
  | .store a i v k, m =>
      if i < L.capacity a then k.exec (m.put a i v) else .error (.outside a i)
  | .getScalars k, m => (k m.scalars).exec m
  | .setScalars r k, m => k.exec { m with scalars := r }
  | .fail e, _ => .error (.failure e)

/-- The cells a program uses, in order. -/
def used : ArrayProgram L R E α → Memory L R → List (A × ℕ)
  | .ret _, _ => []
  | .load a i k, m =>
      (a, i) :: match (m.cells a)[i]? with
        | some v => (k v).used m
        | none => []
  | .store a i v k, m => (a, i) :: if i < L.capacity a then k.used (m.put a i v) else []
  | .getScalars k, m => (k m.scalars).used m
  | .setScalars r k, m => k.used { m with scalars := r }
  | .fail _, _ => []

/-- **The cells used are cells of the arrays** exactly when no cell stopped the
program. -/
theorem used_inside_iff (p : ArrayProgram L R E α) (m : Memory L R) :
    (∀ x ∈ p.used m, x.2 < L.capacity x.1) ↔ ∀ a i, p.exec m ≠ .error (.outside a i) := by
  induction p generalizing m with
  | ret x => simp [used, exec]
  | load a i k ih =>
      by_cases hi : i < L.capacity a
      · simp only [used, exec, Vector.getElem?_eq_getElem hi, List.forall_mem_cons, hi, true_and]
        exact ih _ m
      · simp [used, exec, hi]
  | store a i v k ih =>
      by_cases hi : i < L.capacity a
      · simp only [used, exec, List.forall_mem_cons, hi, true_and]
        exact ih (m.put a i v)
      · simp [used, exec, hi]
  | getScalars k ih => exact ih m.scalars m
  | setScalars r k ih => exact ih _
  | fail e => simp [used, exec]

section Exec

variable (f : α → ArrayProgram L R E β) (m : Memory L R)

lemma exec_bind (p : ArrayProgram L R E α) :
    (p >>= f).exec m = p.exec m >>= fun x => (f x.1).exec x.2 := by
  induction p generalizing m with
  | ret x => rfl
  | load a i k ih =>
      show exec (.load a i fun v => (k v).bind f) m = _
      rw [exec, exec]
      cases (m.cells a)[i]? with
      | none => rfl
      | some v => exact ih v m
  | store a i v k ih =>
      show exec (.store a i v (k.bind f)) m = _
      rw [exec, exec]
      split
      · exact ih (m.put a i v)
      · rfl
  | getScalars k ih => exact ih m.scalars m
  | setScalars r k ih => exact ih _
  | fail e => rfl

@[simp] lemma exec_get_bind (f : R → ArrayProgram L R E β) :
    (get >>= f).exec m = (f m.scalars).exec m := rfl

@[simp] lemma exec_set (r : R) :
    (set r : ArrayProgram L R E Unit).exec m = .ok ((), { m with scalars := r }) := rfl

variable {a : A} {i : ℕ} {m}

/-- A read of a cell that is there. -/
lemma exec_read_bind {v : L.Val a} (hv : (m.cells a)[i]? = some v)
    (f : L.Val a → ArrayProgram L R E β) : (read a i >>= f).exec m = (f v).exec m := by
  show exec (.load a i f) m = _
  rw [exec, hv]

/-- A write to a cell that is there. -/
lemma exec_write_bind (hi : i < L.capacity a) (v : L.Val a)
    (f : Unit → ArrayProgram L R E β) :
    (write a i v >>= f).exec m = (f ()).exec (m.put a i v) := by
  show exec (.store a i v (f ())) m = _
  rw [exec, if_pos hi]

lemma exec_write (hi : i < L.capacity a) (v : L.Val a) :
    (write a i v : ArrayProgram L R E Unit).exec m = .ok ((), m.put a i v) := by
  rw [write, exec, if_pos hi]
  rfl

/-- A write to a cell that is not there. -/
lemma exec_write_bind_of_le (hi : L.capacity a ≤ i) (v : L.Val a)
    (f : Unit → ArrayProgram L R E β) :
    (write a i v >>= f).exec m = .error (.outside a i) := by
  show exec (.store a i v (f ())) m = _
  rw [exec, if_neg (not_lt.mpr hi)]

end Exec

/-! ### Simulation -/

variable {ε : Type}

/-- A run ends as a computation does: with a result and a memory that stand for its
value, or stopped by what stands for its error. -/
def Simulates (F : Stop A E → ε) (Rel : α → Memory L R → β → Prop) :
    Except (Stop A E) (α × Memory L R) → Except ε β → Prop
  | .ok (x, m), .ok y => Rel x m y
  | .error stop, .error e => F stop = e
  | _, _ => False

section Ends

variable {F : Stop A E → ε} {Rel : α → Memory L R → β → Prop}

omit [DecidableEq A]

lemma Simulates.exists_ok {r : Except (Stop A E) (α × Memory L R)} {y : β}
    (h : Simulates F Rel r (.ok y)) : ∃ x m, r = .ok (x, m) ∧ Rel x m y := by
  cases r with
  | error stop => exact h.elim
  | ok x => exact ⟨x.1, x.2, rfl, h⟩

lemma Simulates.exists_error {r : Except (Stop A E) (α × Memory L R)} {e : ε}
    (h : Simulates F Rel r (.error e)) : ∃ stop, r = .error stop ∧ F stop = e := by
  cases r with
  | error stop => exact ⟨stop, rfl, h⟩
  | ok x => exact h.elim

lemma Simulates.eq_ok {x : α} {m : Memory L R} {y : Except ε β}
    (h : Simulates F Rel (.ok (x, m)) y) : ∃ z, y = .ok z ∧ Rel x m z := by
  cases y with
  | error e => exact h.elim
  | ok z => exact ⟨z, rfl, h⟩

lemma Simulates.eq_error {stop : Stop A E} {y : Except ε β}
    (h : Simulates F Rel (.error stop) y) : y = .error (F stop) := by
  cases y with
  | error e => exact congrArg _ (Eq.symm h)
  | ok z => exact h.elim

/-- What becomes of a value does not change how its computation ends. -/
lemma Simulates.map {Rel' : α → Memory L R → γ → Prop} {r : Except (Stop A E) (α × Memory L R)}
    {y : Except ε β} {g : β → γ} (h : Simulates F Rel r y)
    (himp : ∀ x m z, Rel x m z → Rel' x m (g z)) :
    Simulates F Rel' r (y >>= fun z => .ok (g z)) := by
  cases r with
  | error stop => exact h.eq_error ▸ rfl
  | ok x =>
      obtain ⟨z, rfl, hz⟩ := h.eq_ok
      exact himp x.1 x.2 z hz

end Ends

/-- **Programs in sequence** simulate computations in sequence. -/
lemma Simulates.bind {F : Stop A E → ε} {Rel : α → Memory L R → β → Prop} {δ : Type}
    {Rel' : γ → Memory L R → δ → Prop} {p : ArrayProgram L R E α} {f : α → ArrayProgram L R E γ}
    {m : Memory L R} {y : Except ε β} {g : β → Except ε δ}
    (h : Simulates F Rel (p.exec m) y)
    (hnext : ∀ x m' z, Rel x m' z → Simulates F Rel' ((f x).exec m') (g z)) :
    Simulates F Rel' ((p >>= f).exec m) (y >>= g) := by
  rw [exec_bind]
  cases hp : p.exec m with
  | error stop =>
      rw [hp] at h
      exact h.eq_error ▸ rfl
  | ok x =>
      rw [hp] at h
      obtain ⟨z, rfl, hz⟩ := h.eq_ok
      exact hnext x.1 x.2 z hz

end ArrayProgram

end DpdkStarter
