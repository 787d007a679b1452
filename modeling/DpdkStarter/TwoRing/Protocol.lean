import DpdkStarter.TwoRing.Memory

/-!
The two-ring protocol in every interleaving.

The processes alternate: there is at most one message, and every cell is
allocated and freed before the next one. So the heap after a round is a function
of the round: request `i` is the cell `2 * i` and its answer the cell
`2 * i + 1`, cells are freed in the order of their addresses, and a cell is
freed by the side that did not allocate it.

* `Books`: the heap after `n` allocations and `f` frees, with one lemma for each
  operation.
* `Stage`, `At`: where the two processes stand within a round.
* `primary_stage`, `secondary_stage`: every step leads from a stage to a stage.
* `two_ring_safe`: the protocol in the words of its messages.
-/

namespace DpdkStarter.TwoRing

/-! ### The heap -/

/-- The side that allocates the cell: the two take turns. -/
def builder (a : ℕ) : Side := if a % 2 = 0 then .primary else .secondary

lemma builder_two_mul (i : ℕ) : builder (2 * i) = .primary := by simp [builder]

lemma builder_two_mul_add_one (i : ℕ) : builder (2 * i + 1) = .secondary := by
  simp [builder, Nat.add_mod]

/-- The heap after `n` allocations and `f` frees, made in turn. -/
structure Books (n f : ℕ) (heap : Heap Cell) (freedBy : List (Side × ℕ)) : Prop where
  cells : heap.cells.length = n
  freed : heap.freed = List.range f
  reads : heap.deadReads = []
  owner : ∀ a c, heap.cells[a]? = some c → c.owner = builder a
  by_other : freedBy = (List.range f).map fun a => ((builder a).other, a)

variable {n f : ℕ} {s : State}

/-- The cells allocated last are live. -/
lemma Books.live (h : Books n f s.heap s.freedBy) {a : ℕ} (hf : f ≤ a) (hn : a < n) :
    s.heap.live a :=
  ⟨by rw [h.cells]; exact hn, by rw [h.freed, List.mem_range]; omega⟩

/-- An allocation by the side whose turn it is. -/
lemma Books.malloc (h : Books n f s.heap s.freedBy) (side : Side) (hside : builder n = side)
    (junk : ℤ) : Books (n + 1) f (s.malloc side junk).heap (s.malloc side junk).freedBy where
  cells := by simp [State.malloc, Heap.alloc, h.cells]
  freed := h.freed
  reads := h.reads
  owner := by
    intro a c hc
    simp only [State.malloc, Heap.alloc] at hc
    rcases Nat.lt_trichotomy a n with hlt | heq | hgt
    · rw [List.getElem?_append_left (by rw [h.cells]; exact hlt)] at hc
      exact h.owner a c hc
    · rw [heq, ← h.cells, List.getElem?_concat_length, Option.some.injEq] at hc
      rw [← hc, heq]
      exact hside.symm
    · rw [List.getElem?_eq_none (by simp [h.cells]; omega)] at hc
      simp at hc
  by_other := h.by_other

/-- An assignment. -/
lemma Books.assign (h : Books n f s.heap s.freedBy) (a : ℕ) (v : ℤ) :
    Books n f (s.assign a v).heap (s.assign a v).freedBy where
  cells := by simp [State.assign, Heap.write, h.cells]
  freed := h.freed
  reads := h.reads
  owner := by
    intro b c hc
    simp only [State.assign, Heap.write, List.getElem?_modify, Option.map_eq_map,
      Option.map_eq_some_iff] at hc
    obtain ⟨d, hd, hdc⟩ := hc
    rw [← h.owner b d hd, ← hdc]
    split <;> rfl
  by_other := h.by_other

/-- A read of a live cell changes nothing. -/
lemma Books.touch (h : Books n f s.heap s.freedBy) {a : ℕ} (hf : f ≤ a) (hn : a < n) :
    s.touch a = s := by
  rw [State.touch, Heap.read_of_live (h.live hf hn)]

/-- A free of the oldest live cell by the other side. -/
lemma Books.free (h : Books n f s.heap s.freedBy) (side : Side)
    (hside : (builder f).other = side) :
    Books n (f + 1) (s.free side f).heap (s.free side f).freedBy where
  cells := h.cells
  freed := by simp [State.free, Heap.free, h.freed, List.range_succ]
  reads := h.reads
  owner := h.owner
  by_other := by simp [State.free, h.by_other, List.range_succ, hside]

/-- An assignment is read back. -/
lemma val_assign {a : ℕ} (ha : a < s.heap.cells.length) (v : ℤ) :
    ∀ w, some v = some w → (s.assign a v).val a = w := by
  rintro _ ⟨⟩
  simp [State.val, State.assign, Heap.write, ha]

/-! ### Stages -/

/-- The stages of a round, and of the end: `start` and `half` before the rings
exist, then the primary's steps up to the enqueue of the request, `sent` with
the request in its ring, the secondary's steps, `replied` with the answer in the
other ring, the primary's last two steps; the stages of the stop value. -/
inductive Stage where
  | start | half
  | malloc | write | enqueue | sent
  | test | print | compute | free | malloc2 | write2 | enqueue2 | replied
  | read | free2
  | mallocStop | writeStop | enqueueStop | sentStop | testStop | freeStop | finished
  deriving DecidableEq, Repr

namespace Stage

/-- The allocations made in the round. -/
def allocs : Stage → ℕ
  | .start | .half | .malloc | .mallocStop => 0
  | .write2 | .enqueue2 | .replied | .read | .free2 => 2
  | _ => 1

/-- The frees made in the round. -/
def frees : Stage → ℕ
  | .malloc2 | .write2 | .enqueue2 | .replied | .read | .free2 | .finished => 1
  | _ => 0

lemma frees_le_allocs (st : Stage) : st.frees ≤ st.allocs := by
  cases st <;> simp [frees, allocs]

/-- The content of the first ring. -/
def ring (i : ℕ) : Stage → List ℕ
  | .sent | .sentStop => [2 * i]
  | _ => []

/-- The content of the second ring. -/
def ring2 (i : ℕ) : Stage → List ℕ
  | .replied => [2 * i + 1]
  | _ => []

/-- Where the primary stands. -/
def primary (i : ℕ) : Stage → PrimaryPc
  | .start => .createRing
  | .half => .createRing2
  | .malloc => .malloc i
  | .write => .write i (2 * i)
  | .enqueue => .enqueue i (2 * i)
  | .sent | .test | .print | .compute | .free | .malloc2 | .write2 | .enqueue2 | .replied =>
      .dequeue i
  | .read => .read i (2 * i + 1)
  | .free2 => .free i (2 * i + 1)
  | .mallocStop => .mallocStop
  | .writeStop => .writeStop (2 * i)
  | .enqueueStop => .enqueueStop (2 * i)
  | .sentStop | .testStop | .freeStop | .finished => .done

/-- Where the secondary can stand: while it is not its turn it looks the rings
up or waits. -/
def secondary (i : ℕ) : Stage → SecondaryPc → Prop
  | .start, pc => pc = .lookup
  | .half, pc => pc = .lookup ∨ pc = .lookup2
  | .test, pc => pc = .test (2 * i)
  | .print, pc => pc = .print (2 * i)
  | .compute, pc => pc = .compute (2 * i)
  | .free, pc => pc = .free (2 * i) (i * 10)
  | .malloc2, pc => pc = .malloc (i * 10)
  | .write2, pc => pc = .write (2 * i + 1) (i * 10)
  | .enqueue2, pc => pc = .enqueue (2 * i + 1) (i * 10)
  | .testStop, pc => pc = .test (2 * i)
  | .freeStop, pc => pc = .freeStop (2 * i)
  | .finished, pc => pc = .done
  | _, pc => pc = .lookup ∨ pc = .lookup2 ∨ pc = .dequeue

/-- The value of the message, when it was written and is still to be read. -/
def value (i : ℕ) : Stage → Option ℤ
  | .enqueue | .sent | .test | .print | .compute => some i
  | .enqueue2 | .replied | .read => some (i * 10)
  | .enqueueStop | .sentStop | .testStop | .freeStop => some (-1)
  | _ => none

/-- A message with a value is not freed. -/
lemma frees_lt_allocs {i : ℕ} {st : Stage} {v : ℤ} (h : st.value i = some v) :
    st.frees < st.allocs := by
  cases st <;> simp [value, frees, allocs] at h ⊢

/-- The requests of the round that the secondary printed. -/
def processed : Stage → ℕ
  | .compute | .free | .malloc2 | .write2 | .enqueue2 | .replied | .read | .free2 => 1
  | _ => 0

/-- The answers of the round that the primary printed. -/
def received : Stage → ℕ
  | .free2 => 1
  | _ => 0

/-- The value on which the secondary left its loop. -/
def leftOn : Stage → Option ℤ
  | .finished => some (-1)
  | _ => none

/-- The rings exist. -/
def created : Stage → Bool
  | .start => false
  | _ => true

/-- The second ring exists. -/
def created2 : Stage → Bool
  | .start | .half => false
  | _ => true

/-- The rounds in which the stage occurs. -/
def valid (i : ℕ) : Stage → Prop
  | .start | .half => i = 0
  | .mallocStop | .writeStop | .enqueueStop | .sentStop | .testStop | .freeStop | .finished =>
      i = requestCount
  | _ => i < requestCount

end Stage

/-- The state is at the stage of round `i`. -/
structure At (i : ℕ) (st : Stage) (s : State) : Prop where
  books : Books (2 * i + st.allocs) (2 * i + st.frees) s.heap s.freedBy
  created : s.created = st.created
  created2 : s.created2 = st.created2
  ring : s.ring.items = st.ring i
  ring2 : s.ring2.items = st.ring2 i
  primary : s.primary = st.primary i
  secondary : st.secondary i s.secondary
  value : ∀ v, st.value i = some v → s.val (2 * i + st.frees) = v
  processed : s.processed = (List.range (i + st.processed)).map fun k : ℕ => (k : ℤ)
  received : s.received = (List.range (i + st.received)).map fun k : ℕ => (k : ℤ) * 10
  lost : s.lost = []
  leftOn : s.leftOn = st.leftOn
  valid : st.valid i

lemma at_init : At 0 .start State.init where
  books := ⟨rfl, rfl, rfl, by simp [State.init, Heap.empty], rfl⟩
  created := rfl
  created2 := rfl
  ring := rfl
  ring2 := rfl
  primary := rfl
  secondary := rfl
  value := by simp [Stage.value]
  processed := rfl
  received := rfl
  lost := rfl
  leftOn := rfl
  valid := rfl

variable {i : ℕ} {st : Stage}

/-- The message of the round that is not freed is one of the cells. -/
lemma At.cell (h : At i st s) (hlt : st.frees < st.allocs) :
    2 * i + st.frees < s.heap.cells.length := by
  rw [h.books.cells]
  omega

/-- A read of the message that has a value changes nothing. -/
lemma At.touch (h : At i st s) {v : ℤ} (hv : st.value i = some v) :
    s.touch (2 * i + st.frees) = s := by
  have hlt := Stage.frees_lt_allocs hv
  exact h.books.touch (by omega) (by omega)

/-- **A step of the primary** leads to a stage. -/
lemma primary_stage (junk : ℤ) (h : At i st s) :
    ∃ i' st', At i' st' (TwoRing.primary junk s) := by
  have hpc := h.primary
  have hring := h.ring
  have hring2 := h.ring2
  have hbooks := h.books
  rw [TwoRing.primary, hpc]
  cases st with
  | start =>
      refine ⟨i, .half, ?_⟩
      exact { h with created := rfl, primary := rfl, secondary := Or.inl h.secondary }
  | half =>
      have hi : i = 0 := h.valid
      subst hi
      refine ⟨0, .malloc, ?_⟩
      exact { h with
        created2 := rfl, primary := rfl, valid := by simp [Stage.valid, requestCount]
        secondary := h.secondary.elim Or.inl fun hs => Or.inr (Or.inl hs) }
  | malloc =>
      have hfresh : s.fresh = 2 * i := hbooks.cells
      refine ⟨i, .write, ?_⟩
      exact { h with
        books := hbooks.malloc .primary (builder_two_mul i) junk
        primary := by simp [Stage.primary, hfresh], value := by simp [Stage.value] }
  | write =>
      refine ⟨i, .enqueue, ?_⟩
      have hcell : 2 * i < s.heap.cells.length := h.cell (by decide)
      exact { h with books := hbooks.assign _ _, primary := rfl, value := val_assign hcell _ }
  | enqueue =>
      obtain ⟨ring', henq, hitems⟩ := BoundedFifo.exists_enqueue_of_empty room_pos hring (2 * i)
      refine ⟨i, .sent, ?_⟩
      simp only [Stage.primary, henq]
      exact { h with ring := hitems, primary := rfl }
  | sent | test | print | compute | free | malloc2 | write2 | enqueue2 =>
      have hdeq : s.ring2.dequeue = none := BoundedFifo.dequeue_eq_none.mpr hring2
      simp only [Stage.primary, hdeq]
      exact ⟨i, _, h⟩
  | replied =>
      obtain ⟨ring', hdeq, hitems⟩ := BoundedFifo.exists_dequeue hring2
      refine ⟨i, .read, ?_⟩
      simp only [Stage.primary, hdeq]
      exact { h with ring2 := hitems, primary := rfl }
  | read =>
      have hval : s.val (2 * i + 1) = i * 10 := h.value _ rfl
      have htouch : s.touch (2 * i + 1) = s := h.touch rfl
      refine ⟨i, .free2, ?_⟩
      simp only [Stage.primary, htouch]
      exact { h with
        primary := rfl, value := by simp [Stage.value]
        received := by
          simp only [hval, h.received]
          simp [Stage.received, List.range_succ] }
  | free2 =>
      have hfree := hbooks.free .primary (congrArg Side.other (builder_two_mul_add_one i))
      have hvalid : i < requestCount := h.valid
      by_cases hi : i + 1 < requestCount
      · refine ⟨i + 1, .malloc, ?_⟩
        simp only [Stage.primary, if_pos hi]
        exact { h with books := hfree, primary := rfl, value := by simp [Stage.value], valid := hi }
      · have hlast : i + 1 = requestCount := by omega
        refine ⟨i + 1, .mallocStop, ?_⟩
        simp only [Stage.primary, if_neg hi]
        exact { h with
          books := hfree, primary := rfl, value := by simp [Stage.value], valid := hlast }
  | mallocStop =>
      have hfresh : s.fresh = 2 * i := hbooks.cells
      refine ⟨i, .writeStop, ?_⟩
      exact { h with
        books := hbooks.malloc .primary (builder_two_mul i) junk
        primary := by simp [Stage.primary, hfresh], value := by simp [Stage.value] }
  | writeStop =>
      refine ⟨i, .enqueueStop, ?_⟩
      have hcell : 2 * i < s.heap.cells.length := h.cell (by decide)
      exact { h with books := hbooks.assign _ _, primary := rfl, value := val_assign hcell _ }
  | enqueueStop =>
      obtain ⟨ring', henq, hitems⟩ := BoundedFifo.exists_enqueue_of_empty room_pos hring (2 * i)
      refine ⟨i, .sentStop, ?_⟩
      simp only [Stage.primary, henq]
      exact { h with ring := hitems, primary := rfl }
  | sentStop | testStop | freeStop | finished => exact ⟨i, _, h⟩

/-- Where the secondary is not needed it looks the rings up or waits. -/
def Stage.Idle (i : ℕ) (st : Stage) : Prop :=
  st.created2 = true ∧ ∀ pc, st.secondary i pc ↔ pc = .lookup ∨ pc = .lookup2 ∨ pc = .dequeue

/-- A secondary that is not needed and does not wait yet looks a ring up. -/
lemma secondary_looks (junk : ℤ) (h : At i st s) (hidle : st.Idle i) :
    At i st (TwoRing.secondary junk s) ∨ s.secondary = .dequeue := by
  have hfirst : s.created = true := by
    rw [h.created]
    cases st <;> first | rfl | simp [Stage.Idle, Stage.created2] at hidle
  have hsecond : s.created2 = true := h.created2.trans hidle.1
  rcases (hidle.2 _).mp h.secondary with hpc | hpc | hpc
  · left
    rw [TwoRing.secondary, hpc]
    simp only [hfirst, if_true]
    exact { h with
      created := hfirst.symm.trans h.created, secondary := (hidle.2 _).mpr (Or.inr (Or.inl rfl)) }
  · left
    rw [TwoRing.secondary, hpc]
    simp only [hsecond, if_true]
    exact { h with
      created2 := hsecond.symm.trans h.created2
      secondary := (hidle.2 _).mpr (Or.inr (Or.inr rfl)) }
  · exact Or.inr hpc

/-- With nothing in its ring it stays where it is. -/
lemma secondary_idle (junk : ℤ) (h : At i st s) (hidle : st.Idle i) (hring : s.ring.items = []) :
    At i st (TwoRing.secondary junk s) := by
  rcases secondary_looks junk h hidle with hlook | hpc
  · exact hlook
  · rw [TwoRing.secondary, hpc]
    simp only [BoundedFifo.dequeue_eq_none.mpr hring]
    exact h

/-- With a message in its ring it takes the message, once it waits. -/
lemma secondary_takes (st' : Stage) (junk : ℤ) (h : At i st s) (hidle : st.Idle i)
    (hring : s.ring.items = [2 * i])
    (htaken : ∀ ring : MsgRing, ring.items = [] →
      At i st' { s with ring := ring, secondary := .test (2 * i) }) :
    ∃ i' st', At i' st' (TwoRing.secondary junk s) := by
  rcases secondary_looks junk h hidle with hlook | hpc
  · exact ⟨i, st, hlook⟩
  · obtain ⟨ring', hdeq, hitems⟩ := BoundedFifo.exists_dequeue hring
    refine ⟨i, st', ?_⟩
    rw [TwoRing.secondary, hpc]
    simp only [hdeq]
    exact htaken ring' hitems

/-- **A step of the secondary** leads to a stage. -/
lemma secondary_stage (junk : ℤ) (h : At i st s) :
    ∃ i' st', At i' st' (TwoRing.secondary junk s) := by
  have hring := h.ring
  have hring2 := h.ring2
  have hbooks := h.books
  have hpc := h.secondary
  cases st with
  | start =>
      have hcreated : s.created = false := h.created
      rw [TwoRing.secondary, hpc]
      simp only [hcreated]
      exact ⟨i, .start, h⟩
  | half =>
      refine ⟨i, .half, ?_⟩
      have hcreated : s.created = true := h.created
      have hcreated2 : s.created2 = false := h.created2
      rcases hpc with hpc | hpc
      · rw [TwoRing.secondary, hpc]
        simp only [hcreated, if_true]
        exact { h with created := rfl, secondary := Or.inr rfl }
      · rw [TwoRing.secondary, hpc]
        simp only [hcreated2]
        exact h
  | malloc | write | enqueue | replied | read | free2 | mallocStop | writeStop | enqueueStop =>
      exact ⟨i, _, secondary_idle junk h ⟨rfl, fun _ => Iff.rfl⟩ hring⟩
  | sent =>
      refine secondary_takes .test junk h ⟨rfl, fun _ => Iff.rfl⟩ hring ?_
      intro ring hitems
      exact { h with ring := hitems, secondary := rfl }
  | sentStop =>
      refine secondary_takes .testStop junk h ⟨rfl, fun _ => Iff.rfl⟩ hring ?_
      intro ring hitems
      exact { h with ring := hitems, secondary := rfl }
  | test =>
      have hval : s.val (2 * i) = i := h.value _ rfl
      have hgoes : ¬s.val (2 * i) = -1 := by omega
      have htouch : s.touch (2 * i) = s := h.touch rfl
      refine ⟨i, .print, ?_⟩
      rw [TwoRing.secondary, hpc]
      simp only [if_neg hgoes, htouch]
      exact { h with secondary := rfl }
  | print =>
      have hval : s.val (2 * i) = i := h.value _ rfl
      have htouch : s.touch (2 * i) = s := h.touch rfl
      refine ⟨i, .compute, ?_⟩
      rw [TwoRing.secondary, hpc]
      simp only [htouch, hval]
      exact { h with
        secondary := rfl
        processed := by
          simp only [h.processed]
          simp [Stage.processed, List.range_succ] }
  | compute =>
      have hval : s.val (2 * i) = i := h.value _ rfl
      have htouch : s.touch (2 * i) = s := h.touch rfl
      refine ⟨i, .free, ?_⟩
      rw [TwoRing.secondary, hpc]
      simp only [htouch, hval]
      exact { h with secondary := rfl, value := by simp [Stage.value] }
  | free =>
      have hfree := hbooks.free .secondary (congrArg Side.other (builder_two_mul i))
      refine ⟨i, .malloc2, ?_⟩
      rw [TwoRing.secondary, hpc]
      exact { h with books := hfree, secondary := rfl, value := by simp [Stage.value] }
  | malloc2 =>
      have hfresh : s.fresh = 2 * i + 1 := hbooks.cells
      have hmalloc := hbooks.malloc .secondary (builder_two_mul_add_one i) junk
      refine ⟨i, .write2, ?_⟩
      rw [TwoRing.secondary, hpc]
      exact { h with
        books := hmalloc, secondary := by simp [Stage.secondary, hfresh]
        value := by simp [Stage.value] }
  | write2 =>
      have hcell : 2 * i + 1 < s.heap.cells.length := h.cell (by decide)
      refine ⟨i, .enqueue2, ?_⟩
      rw [TwoRing.secondary, hpc]
      exact { h with books := hbooks.assign _ _, secondary := rfl, value := val_assign hcell _ }
  | enqueue2 =>
      obtain ⟨ring', henq, hitems⟩ :=
        BoundedFifo.exists_enqueue_of_empty room_pos hring2 (2 * i + 1)
      refine ⟨i, .replied, ?_⟩
      rw [TwoRing.secondary, hpc]
      simp only [henq]
      exact { h with ring2 := hitems, secondary := Or.inr (Or.inr rfl) }
  | testStop =>
      have hval : s.val (2 * i) = -1 := h.value _ rfl
      have htouch : s.touch (2 * i) = s := h.touch rfl
      refine ⟨i, .freeStop, ?_⟩
      rw [TwoRing.secondary, hpc]
      simp only [if_pos hval, htouch]
      exact { h with secondary := rfl }
  | freeStop =>
      have hval : s.val (2 * i) = -1 := h.value _ rfl
      have hfree := hbooks.free .secondary (congrArg Side.other (builder_two_mul i))
      refine ⟨i, .finished, ?_⟩
      rw [TwoRing.secondary, hpc]
      exact { h with
        books := hfree, secondary := rfl, value := by simp [Stage.value]
        leftOn := by simp only [hval]; rfl }
  | finished =>
      rw [TwoRing.secondary, hpc]
      exact ⟨i, .finished, h⟩

/-- **Every state reached** is at a stage. -/
lemma reached_stage (turns : List Turn) : ∃ i st, At i st (reached turns) := by
  refine Machine.run_invariant step (P := fun s => ∃ i st, At i st s) ?_ ⟨0, .start, at_init⟩ turns
  intro turn s h
  obtain ⟨i, st, hat⟩ := h
  cases turn with
  | primary junk => exact primary_stage junk hat
  | secondary junk => exact secondary_stage junk hat

/-! ### The protocol in the words of its messages -/

/-- What is outstanding at a stage: the cells that are allocated and not freed. -/
lemma At.outstanding (h : At i st s) :
    s.outstanding = List.range' (2 * i + st.frees) (st.allocs - st.frees) := by
  have hsecondary := h.secondary
  rw [State.outstanding, h.primary, h.ring, h.ring2]
  cases st with
  | half => rcases hsecondary with hpc | hpc <;> rw [hpc] <;> rfl
  | malloc | write | enqueue | sent | replied | read | free2 | mallocStop | writeStop | enqueueStop
    | sentStop => rcases hsecondary with hpc | hpc | hpc <;> rw [hpc] <;> rfl
  | _ => rw [hsecondary]; rfl

/-- What was allocated is freed or outstanding. -/
lemma At.cells_perm (h : At i st s) :
    (List.range s.heap.cells.length).Perm (s.heap.freed ++ s.outstanding) := by
  have hle := st.frees_le_allocs
  have hsplit : 2 * i + st.allocs = (2 * i + st.frees) + (st.allocs - st.frees) := by omega
  rw [h.outstanding, h.books.cells, h.books.freed, hsplit, List.range_eq_range',
    List.range_eq_range', ← List.range'_append_1, Nat.zero_add]

/-- A free is made by the side that did not allocate the cell. -/
lemma At.freed_by_other (h : At i st s) {side : Side} {a : ℕ} (ha : (side, a) ∈ s.freedBy) :
    ∃ c, s.heap.cells[a]? = some c ∧ side = c.owner.other := by
  rw [h.books.by_other, List.mem_map] at ha
  obtain ⟨b, hb, hpair⟩ := ha
  obtain ⟨rfl, rfl⟩ := Prod.mk.inj hpair
  have hle := st.frees_le_allocs
  have hcell : b < s.heap.cells.length := by
    rw [h.books.cells]
    have := List.mem_range.mp hb
    omega
  obtain ⟨c, hc⟩ : ∃ c, s.heap.cells[b]? = some c := ⟨_, List.getElem?_eq_getElem hcell⟩
  exact ⟨c, hc, by rw [h.books.owner b c hc]⟩

/-- The heap is safe: no dead cell was read, no cell was freed twice. -/
lemma At.safe (h : At i st s) : s.heap.Safe where
  reads := h.books.reads
  frees := by rw [h.books.freed]; exact List.nodup_range
  allocated := by
    intro a ha
    have hle := st.frees_le_allocs
    rw [h.books.freed, List.mem_range] at ha
    rw [h.books.cells]
    omega

/-- **The two-ring protocol**, in every interleaving and whatever an allocation
finds in its cell: at most one message is outstanding and the enqueue of the stop
value succeeds; the `k`-th value the secondary processed is `k` and the `k`-th
value the primary received is `10 * k`. Every allocated message was freed once or
is still outstanding, a free is made by the side that did not allocate the
message, and no message was read after its free. The secondary has left its loop
only on the stop value, with all requests answered and everything freed. -/
theorem two_ring_safe (turns : List Turn) :
    (reached turns).outstanding.length ≤ 1 ∧
    (reached turns).lost = [] ∧
    (∃ handled answered : ℕ,
      (reached turns).processed = (List.range handled).map (fun k : ℕ => (k : ℤ)) ∧
      (reached turns).received = (List.range answered).map (fun k : ℕ => (k : ℤ) * 10) ∧
      answered ≤ handled ∧ handled ≤ answered + 1 ∧
      (∀ v, (reached turns).leftOn = some v →
        v = -1 ∧ answered = requestCount ∧ handled = requestCount)) ∧
    ((reached turns).secondary = .done →
      (reached turns).leftOn = some (-1) ∧ (reached turns).outstanding = []) ∧
    (List.range (reached turns).heap.cells.length).Perm
      ((reached turns).heap.freed ++ (reached turns).outstanding) ∧
    (reached turns).freedBy.map Prod.snd = (reached turns).heap.freed ∧
    (∀ side a, (side, a) ∈ (reached turns).freedBy →
      ∃ c, (reached turns).heap.cells[a]? = some c ∧ side = c.owner.other) ∧
    (reached turns).heap.Safe := by
  obtain ⟨i, st, h⟩ := reached_stage turns
  refine ⟨?_, h.lost, ⟨_, _, h.processed, h.received, ?_, ?_, ?_⟩, ?_, h.cells_perm, ?_,
    fun _ _ => h.freed_by_other, h.safe⟩
  · rw [h.outstanding, List.length_range']
    cases st <;> simp [Stage.frees, Stage.allocs]
  · cases st <;> simp [Stage.processed, Stage.received]
  · cases st <;> simp [Stage.processed, Stage.received]
  · intro v hv
    rw [h.leftOn] at hv
    have hvalid := h.valid
    cases st with
    | finished =>
        rw [← Option.some.inj hv]
        exact ⟨rfl, hvalid, hvalid⟩
    | _ => simp [Stage.leftOn] at hv
  · intro hdone
    have hsecondary := h.secondary
    have hleft := h.leftOn
    have houtstanding := h.outstanding
    rw [hdone] at hsecondary
    cases st with
    | finished => exact ⟨hleft, houtstanding⟩
    | _ => simp [Stage.secondary] at hsecondary
  · rw [h.books.by_other, h.books.freed, List.map_map]
    exact List.map_id _

end DpdkStarter.TwoRing
