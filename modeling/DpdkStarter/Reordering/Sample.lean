import DpdkStarter.Library.ReorderBuffer
import DpdkStarter.Library.Run

/-!
`reordering/sample/main.c`: eight packets with numbers out of order go through a reorder
buffer.

The program does not look at what `rte_reorder_insert` returns, so a packet that is not
accepted would be lost; and it drains once. The numbers are those of `seq_list`, and what is
proved is about every order of arrival that starts with the smallest number.

* `insertAll`, `main`: the two loops.
* `HeldAfter`: the invariant of the first loop.
* `main_restores_order`: what is printed and freed.
-/

namespace DpdkStarter.ReorderSample

open Machine ReorderBuffer

/-- `WINDOW`. -/
def window : ℕ := 8

/-- `BURST`. -/
def burst : ℕ := 8

/-- `seq_list`. -/
def seqList : List UInt32 := [0, 2, 1, 4, 3, 6, 5, 7]

/-- What the program prints. -/
inductive Line where
  | insert (seq : UInt32)
  | drained (seq : UInt32)
  deriving DecidableEq

/-- The reorder buffer, what was printed, and the packets freed. -/
structure State (R P : Type*) where
  buf : R
  printed : List Line
  freed : List P

variable {R P : Type*}

/-- The state in front of the first loop. -/
def State.init (b : ReorderBuffer R P) : State R P := ⟨b.create, [], []⟩

/-- The body of the first loop, for a packet with its number. -/
def insertOne (b : ReorderBuffer R P) (m : Numbered P) (s : State R P) : State R P :=
  { s with buf := (b.insert s.buf m).2, printed := s.printed ++ [.insert m.seqn] }

/-- The first loop. -/
def insertAll (b : ReorderBuffer R P) (arrivals : List (Numbered P)) : State R P :=
  run (insertOne b) arrivals (State.init b)

/-- The drain and the second loop. -/
def drainAll (b : ReorderBuffer R P) (s : State R P) : State R P :=
  let done := b.drain s.buf burst
  { buf := done.2
    printed := s.printed ++ done.1.map fun m => .drained m.seqn
    freed := s.freed ++ done.1.map Numbered.item }

/-- The packets as they are inserted: the `i`-th packet allocated gets the `i`-th number. -/
def number (mbufs : ℕ → P) (seqs : List UInt32) : List (Numbered P) :=
  seqs.zipIdx.map fun p => ⟨p.1, mbufs p.2⟩

/-- `main`, for any `seq_list`. -/
def main (b : ReorderBuffer R P) (arrivals : List (Numbered P)) : State R P :=
  drainAll b (insertAll b arrivals)

/-! ### The first loop -/

/-- After these packets the buffer holds them all, and their lines are printed. -/
structure HeldAfter (b : ReorderBuffer R P) (m : UInt32) (arrived : List (Numbered P))
    (s : State R P) : Prop where
  holdsAll : b.HoldsAll s.buf m arrived
  printed_eq : s.printed = arrived.map fun p => .insert p.seqn
  freed_eq : s.freed = []

variable {b : ReorderBuffer R P} {m : UInt32}

/-- The rest of the packets, each with a number of its own inside the window. -/
lemma HeldAfter.run (law : b.Lawful window) {arrived rest : List (Numbered P)} {s : State R P}
    (h : HeldAfter b m arrived s) (hdist : ∀ p ∈ rest, (p.seqn - m).toNat < window)
    (hnodup : ((arrived ++ rest).map Numbered.seqn).Nodup) :
    HeldAfter b m (arrived ++ rest) (Machine.run (insertOne b) rest s) := by
  induction rest generalizing arrived s with
  | nil => rwa [List.append_nil]
  | cons p rest ih =>
      have hfree : ∀ p' ∈ arrived, p'.seqn ≠ p.seqn := by
        rw [List.map_append, List.nodup_append] at hnodup
        intro p' hp'
        exact hnodup.2.2 p'.seqn (List.mem_map_of_mem hp') p.seqn
          (List.mem_map_of_mem List.mem_cons_self)
      have hinsert := h.holdsAll.insert law (hdist p List.mem_cons_self) hfree
      have hnext : HeldAfter b m (arrived ++ [p]) (insertOne b p s) := by
        refine ⟨hinsert.2, ?_, h.freed_eq⟩
        rw [insertOne, h.printed_eq, List.map_append]
        rfl
      have hrest := ih hnext (fun p' hp' => hdist p' (List.mem_cons_of_mem p hp'))
        (by rwa [List.append_assoc])
      rwa [List.append_assoc] at hrest

/-- **The first loop** keeps every packet, when the first one has the smallest number. -/
lemma heldAfter_insertAll (law : b.Lawful window) {first : Numbered P}
    {rest sorted : List (Numbered P)} (hperm : (first :: rest).Perm sorted)
    (hsorted : Consecutive first.seqn sorted) (hlen : (first :: rest).length ≤ window) :
    HeldAfter b first.seqn (first :: rest) (insertAll b (first :: rest)) := by
  have hsmall : sorted.length ≤ 2 ^ 32 := by
    rw [← hperm.length_eq]
    exact hlen.trans (by decide)
  have hfirst : HeldAfter b first.seqn [first] (insertOne b first (State.init b)) :=
    ⟨(law.holdsAll_first first).2, rfl, rfl⟩
  refine hfirst.run law (fun p hp => ?_) ?_
  · have hdist := hsorted.dist_lt hsmall (hperm.mem_iff.mp (List.mem_cons_of_mem first hp))
    rw [← hperm.length_eq] at hdist
    omega
  · exact (hperm.map Numbered.seqn).nodup_iff.mpr (hsorted.nodup hsmall)

/-! ### The program -/

/-- Every packet is put in, and drained and freed in order; the buffer is empty. -/
structure Restores (b : ReorderBuffer R P) (arrivals sorted : List (Numbered P)) : Prop where
  printed_eq : (main b arrivals).printed
    = (arrivals.map fun p => .insert p.seqn) ++ sorted.map fun p => .drained p.seqn
  freed_eq : (main b arrivals).freed = sorted.map Numbered.item
  held_eq : ∀ q, b.held (main b arrivals).buf q = none

lemma restores (law : b.Lawful window) {first : Numbered P} {rest sorted : List (Numbered P)}
    (hperm : (first :: rest).Perm sorted) (hsorted : Consecutive first.seqn sorted)
    (hlen : (first :: rest).length ≤ window) : Restores b (first :: rest) sorted := by
  have hheld := heldAfter_insertAll law hperm hsorted hlen
  rw [hperm.length_eq] at hlen
  have hrun := hheld.holdsAll.holds hperm hsorted (hlen.trans (by decide))
  obtain ⟨hout, hempty⟩ := hrun.drain law (n := burst) hlen (by decide)
  refine ⟨?_, ?_, hempty.2⟩
  · rw [main, drainAll, hout, hheld.printed_eq]
  · rw [main, drainAll, hout, hheld.freed_eq, List.nil_append]

/-- The packets of the source in the order of their numbers. -/
def sortedMbufs (mbufs : ℕ → P) : List (Numbered P) :=
  [⟨0, mbufs 0⟩, ⟨1, mbufs 2⟩, ⟨2, mbufs 1⟩, ⟨3, mbufs 4⟩, ⟨4, mbufs 3⟩, ⟨5, mbufs 6⟩,
    ⟨6, mbufs 5⟩, ⟨7, mbufs 7⟩]

lemma perm_sortedMbufs (mbufs : ℕ → P) : (number mbufs seqList).Perm (sortedMbufs mbufs) := by
  -- three pairs of neighbours have changed places
  refine List.Perm.cons _ ?_
  refine (List.Perm.swap _ _ _).trans (List.Perm.cons _ (List.Perm.cons _ ?_))
  refine (List.Perm.swap _ _ _).trans (List.Perm.cons _ (List.Perm.cons _ ?_))
  exact List.Perm.swap _ _ _

lemma consecutive_sortedMbufs (mbufs : ℕ → P) : Consecutive 0 (sortedMbufs mbufs) := by
  intro i p hi
  obtain ⟨hlt, rfl⟩ := List.getElem?_eq_some_iff.mp hi
  have hi8 : i < 8 := hlt
  interval_cases i <;> rfl

/-- **The order is restored.** For every lawful reorder buffer: of packets with consecutive
numbers, no more than the window, that arrive in any order with the smallest number first,
none is refused, all are drained in the order of their numbers, and each is freed once; in
particular the eight packets of the source. -/
theorem main_restores_order (law : b.Lawful window) :
    (∀ (first : Numbered P) (rest sorted : List (Numbered P)), (first :: rest).Perm sorted →
      Consecutive first.seqn sorted → (first :: rest).length ≤ window →
      Restores b (first :: rest) sorted) ∧
    ∀ mbufs : ℕ → P, Restores b (number mbufs seqList) (sortedMbufs mbufs) :=
  ⟨fun _ _ _ hperm hsorted hlen => restores law hperm hsorted hlen,
    fun mbufs => restores law (perm_sortedMbufs mbufs) (consecutive_sortedMbufs mbufs)
      (Nat.le_refl 8)⟩

/-- The program with packets named by the order of their allocation. -/
theorem main_restores_order_source :
    (main (windowBuffer ℕ window) (number id seqList)).freed = [0, 2, 1, 4, 3, 6, 5, 7] :=
  ((main_restores_order (windowBuffer_lawful ℕ window)).2 id).freed_eq

end DpdkStarter.ReorderSample
