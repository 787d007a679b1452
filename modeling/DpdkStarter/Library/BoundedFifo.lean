import Mathlib.Tactic

/-!
Bounded FIFO queues with the single and the burst operations of a packet ring.

The bound is a field of the structure, so a queue over its capacity cannot be
built. The four operations are given by what they return: `enqueue` and
`dequeue` fail on a full and on an empty queue, `enqueueBurst` takes as many of
the offered elements as fit and `dequeueBurst` returns at most the number asked
for, both in order.

* `enqueue_eq_some`, `enqueue_eq_none`, `dequeue_eq_some`, `dequeue_eq_none`:
  the single operations, inverted.
* `items_enqueueBurst`, `enqueueBurst_of_fits`: a burst that fits is stored
  whole.
* `items_of_dequeueBurst`: a burst and what it leaves behind are the old content.
-/

namespace DpdkStarter

/-- A FIFO queue of at most `cap` elements, the oldest first. -/
@[ext]
structure BoundedFifo (α : Type*) (cap : ℕ) where
  items : List α
  length_le : items.length ≤ cap
  deriving DecidableEq

namespace BoundedFifo

variable {α : Type*} {cap : ℕ}

/-- The queue as it is created. -/
def empty : BoundedFifo α cap := ⟨[], Nat.zero_le cap⟩

@[simp] lemma items_empty : (empty : BoundedFifo α cap).items = [] := rfl

/-- Append one element, or fail on a full queue. -/
def enqueue (q : BoundedFifo α cap) (x : α) : Option (BoundedFifo α cap) :=
  if h : q.items.length < cap then some ⟨q.items ++ [x], by simpa using h⟩ else none

/-- Remove the oldest element, or fail on an empty queue. -/
def dequeue (q : BoundedFifo α cap) : Option (α × BoundedFifo α cap) :=
  match h : q.items with
  | [] => none
  | x :: xs => some (x, ⟨xs, by have := q.length_le; rw [h] at this; simp at this; omega⟩)

/-- How many of `n` offered elements a burst can store. -/
def accepts (q : BoundedFifo α cap) (n : ℕ) : ℕ := min n (cap - q.items.length)

/-- Append the elements of a burst that fit, from its front. -/
def enqueueBurst (q : BoundedFifo α cap) (xs : List α) : BoundedFifo α cap :=
  ⟨q.items ++ xs.take (q.accepts xs.length), by
    have := q.length_le
    simp only [accepts, List.length_append, List.length_take]
    omega⟩

/-- Remove up to `n` of the oldest elements. -/
def dequeueBurst (q : BoundedFifo α cap) (n : ℕ) : List α × BoundedFifo α cap :=
  (q.items.take n, ⟨q.items.drop n, by have := q.length_le; simp; omega⟩)

/-! ### The single operations -/

/-- An enqueue succeeds exactly below the capacity, and appends. -/
lemma enqueue_eq_some {q q' : BoundedFifo α cap} {x : α} :
    q.enqueue x = some q' ↔ q.items.length < cap ∧ q'.items = q.items ++ [x] := by
  rw [enqueue]
  split
  · rename_i h
    simp only [Option.some.injEq, BoundedFifo.ext_iff, h, true_and]
    exact eq_comm
  · rename_i h
    simp [h]

/-- An enqueue fails exactly on a full queue. -/
lemma enqueue_eq_none {q : BoundedFifo α cap} {x : α} :
    q.enqueue x = none ↔ q.items.length = cap := by
  have hle := q.length_le
  rw [enqueue]
  split
  · rename_i h
    simp only [reduceCtorEq, false_iff]
    omega
  · rename_i h
    simp only [true_iff]
    omega

/-- A dequeue returns the head of the queue and leaves its tail. -/
lemma dequeue_eq_some {q q' : BoundedFifo α cap} {x : α} :
    q.dequeue = some (x, q') ↔ q.items = x :: q'.items := by
  rw [dequeue]
  split
  · rename_i h
    simp [h]
  · rename_i y ys h
    simp only [Option.some.injEq, Prod.mk.injEq, BoundedFifo.ext_iff, h, List.cons.injEq]

/-- A dequeue fails exactly on an empty queue. -/
lemma dequeue_eq_none {q : BoundedFifo α cap} : q.dequeue = none ↔ q.items = [] := by
  rw [dequeue]
  split
  · rename_i h
    simp [h]
  · rename_i y ys h
    simp [h]

/-- Below the capacity an enqueue succeeds. -/
lemma exists_enqueue {q : BoundedFifo α cap} (h : q.items.length < cap) (x : α) :
    ∃ q', q.enqueue x = some q' ∧ q'.items = q.items ++ [x] :=
  ⟨⟨q.items ++ [x], by simpa using h⟩, enqueue_eq_some.mpr ⟨h, rfl⟩, rfl⟩

/-- On an empty queue an enqueue succeeds. -/
lemma exists_enqueue_of_empty {q : BoundedFifo α cap} (hcap : 0 < cap) (h : q.items = []) (x : α) :
    ∃ q', q.enqueue x = some q' ∧ q'.items = [x] := by
  obtain ⟨q', hq, hitems⟩ := exists_enqueue (q := q) (by rwa [h]) x
  exact ⟨q', hq, by rw [hitems, h, List.nil_append]⟩

/-- On a non-empty queue a dequeue succeeds. -/
lemma exists_dequeue {q : BoundedFifo α cap} {x : α} {xs : List α} (h : q.items = x :: xs) :
    ∃ q', q.dequeue = some (x, q') ∧ q'.items = xs := by
  have hle : xs.length ≤ cap := by
    have := q.length_le
    rw [h, List.length_cons] at this
    omega
  exact ⟨⟨xs, hle⟩, dequeue_eq_some.mpr h, rfl⟩

/-! ### Bursts -/

/-- A burst below the free room is accepted whole. -/
lemma accepts_of_fits {q : BoundedFifo α cap} {n : ℕ} (h : q.items.length + n ≤ cap) :
    q.accepts n = n := by
  rw [accepts]
  omega

@[simp] lemma items_enqueueBurst (q : BoundedFifo α cap) (xs : List α) :
    (q.enqueueBurst xs).items = q.items ++ xs.take (q.accepts xs.length) := rfl

/-- A burst below the free room is stored whole. -/
lemma enqueueBurst_of_fits {q : BoundedFifo α cap} {xs : List α}
    (h : q.items.length + xs.length ≤ cap) : (q.enqueueBurst xs).items = q.items ++ xs := by
  rw [items_enqueueBurst, accepts_of_fits h, List.take_length]

@[simp] lemma items_dequeueBurst (q : BoundedFifo α cap) (n : ℕ) :
    (q.dequeueBurst n).2.items = q.items.drop n := rfl

/-- What a burst removes and what it leaves are the old content, in order. -/
lemma items_of_dequeueBurst {q q' : BoundedFifo α cap} {n : ℕ} {xs : List α}
    (h : q.dequeueBurst n = (xs, q')) : q.items = xs ++ q'.items := by
  have hfst : xs = q.items.take n := congrArg Prod.fst h.symm
  have hsnd : q' = (q.dequeueBurst n).2 := congrArg Prod.snd h.symm
  rw [hfst, hsnd, items_dequeueBurst, List.take_append_drop]

end BoundedFifo

end DpdkStarter
