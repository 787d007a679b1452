import DpdkStarter.Library.Trace
import DpdkStarter.SimpleRing.Ownership

/-!
What the consumer of `rings/sample/simple_ring.c` prints.

The producer counts its values, those included that the full ring refuses, and an
allocation never gives an address twice: so the value at an address is the number of
the allocation, and what passes the ring comes out with growing numbers.

* `Line`, `lines`, `output`: the lines of the consumer and the `Ring full!` lines.
* `Seen`: what the addresses printed and refused so far say about the state.
* `producer_seen`, `consumer_seen`: one step of each thread.
* `values_in_order`: the values printed, the values skipped, and the values left in
  the ring at the end.
-/

namespace DpdkStarter.SimpleRing

open Machine

/-- A line of the consumer, or the line of the producer on a full ring. -/
inductive Line where
  | dequeued (v : UInt64)
  | ringFull
  deriving DecidableEq, Repr

/-- The value of a line of the consumer. -/
def Line.value : Line → Option UInt64
  | .dequeued v => some v
  | .ringFull => none

/-- The value at an address. -/
def State.val (s : State) (a : ℕ) : UInt64 := (s.heap.cells[a]?).getD 0

/-- The lines a step prints. -/
def lines : Turn → State → List Line
  | .producer _, s =>
      match s.producer with
      | .enqueue _ => if s.ring.items.length = ringCapacity then [.ringFull] else []
      | _ => []
  | .consumer, s =>
      match s.consumer with
      | .print data => [.dequeued (s.val data)]
      | _ => []
  | .signal, _ => []

/-- The lines printed in a run. -/
def output (turns : List Turn) : List Line := trace step lines turns State.init

/-! ### The invariant -/

/-- The value the producer has not yet offered to the ring. -/
def ProducerPc.offered : ProducerPc → List ℕ
  | .write data | .enqueue data => [data]
  | _ => []

/-- The value the consumer has taken and not yet printed. -/
def ConsumerPc.unprinted : ConsumerPc → List ℕ
  | .print data => [data]
  | _ => []

/-- The values the producer has still to write. -/
def ProducerPc.unwritten : ProducerPc → ℕ
  | .write _ => 1
  | _ => 0

/-- The values on their way, in the order of the way. -/
def State.way (s : State) : List ℕ :=
  s.consumer.unprinted ++ s.ring.items ++ s.producer.offered

/-- The values at `as` were printed and those at `rs` refused, in this state. -/
structure Seen (as rs : List ℕ) (s : State) : Prop where
  counter : ∃ n, s.heap.cells.length = n + s.producer.unwritten ∧ s.counter = UInt64.ofNat n ∧
    ∀ a < n, s.heap.cells[a]? = some (UInt64.ofNat a)
  fresh : ∀ a ∈ s.producer.held, a + 1 = s.heap.cells.length
  order : (as ++ s.way).Pairwise (· < ·)
  all : (List.range s.heap.cells.length).Perm (as ++ s.way ++ rs)

lemma seen_init : Seen [] [] State.init where
  counter := ⟨0, rfl, rfl, by simp⟩
  fresh := by simp [State.init, ProducerPc.held]
  order := List.Pairwise.nil
  all := List.Perm.nil

/-- A value on its way that is written has its number. -/
lemma Seen.val_eq {as rs : List ℕ} {s : State} (h : Seen as rs s) {a : ℕ}
    (ha : a + s.producer.unwritten < s.heap.cells.length) : s.val a = UInt64.ofNat a := by
  obtain ⟨n, hlen, -, hvalues⟩ := h.counter
  rw [State.val, hvalues a (by omega)]
  rfl

/-- A value that was printed, or is in the ring or with the consumer, is written: it is
below the one the producer has still to write. -/
lemma Seen.lt_written {as rs : List ℕ} {s : State} (h : Seen as rs s) {a : ℕ}
    (ha : a ∈ as ++ (s.consumer.unprinted ++ s.ring.items)) :
    a + s.producer.unwritten < s.heap.cells.length := by
  have horder := h.order
  have hall := h.all
  rw [State.way, ← List.append_assoc] at horder hall
  have hlt : a < s.heap.cells.length :=
    List.mem_range.mp (hall.mem_iff.mpr (List.mem_append_left _ (List.mem_append_left _ ha)))
  cases hprod : s.producer with
  | write b =>
      have hb : b + 1 = s.heap.cells.length := h.fresh b (by simp [hprod, ProducerPc.held])
      have hab : a < b :=
        (List.pairwise_append.mp horder).2.2 a ha b (by simp [hprod, ProducerPc.offered])
      simp only [ProducerPc.unwritten]
      omega
  | _ => simpa [ProducerPc.unwritten] using hlt

/-- Reads and frees change neither the cells nor their number. -/
lemma cells_read (heap : Heap UInt64) (a : ℕ) : (heap.read a).cells = heap.cells := by
  rw [Heap.read]
  split <;> rfl

/-- **A step of the producer**: a value is appended to those on their way, or refused. -/
lemma producer_seen (junk : UInt64) {as rs : List ℕ} {s : State} (h : Seen as rs s) :
    ∃ rs', (lines (.producer junk) s).count .ringFull + rs.length = rs'.length ∧
      (lines (.producer junk) s).filterMap Line.value = [] ∧
      Seen as rs' (SimpleRing.producer junk s) := by
  obtain ⟨n, hlen, hcounter, hvalues⟩ := h.counter
  have hfresh := h.fresh
  have horder := h.order
  have hall := h.all
  rw [State.way] at horder hall
  simp only [lines]
  rw [SimpleRing.producer]
  cases hpc : s.producer with
  | test =>
      rw [hpc] at hlen hfresh horder hall
      refine ⟨rs, by simp, rfl, ?_⟩
      dsimp only
      split <;> exact ⟨⟨n, hlen, hcounter, hvalues⟩, by simp [ProducerPc.held], horder, hall⟩
  | malloc =>
      rw [hpc] at hlen horder hall
      simp only [ProducerPc.unwritten, Nat.add_zero] at hlen
      simp only [ProducerPc.offered, List.append_nil] at horder hall
      refine ⟨rs, by simp, rfl, ⟨n, by simp [Heap.alloc, hlen, ProducerPc.unwritten], hcounter,
        fun a ha => ?_⟩, by simp [ProducerPc.held, Heap.alloc], ?_, ?_⟩
      · rw [Heap.alloc, List.getElem?_append_left (by omega)]
        exact hvalues a ha
      · -- the new address is above all that were given out
        have hbelow : ∀ a ∈ as ++ (s.consumer.unprinted ++ s.ring.items),
            a < s.heap.cells.length := by
          intro a ha
          exact List.mem_range.mp (hall.mem_iff.mpr (List.mem_append_left _ ha))
        rw [State.way, ← List.append_assoc]
        exact List.pairwise_append.mpr ⟨horder, List.pairwise_singleton _ _, fun a ha b hb => by
          rw [List.mem_singleton.mp hb]; exact hbelow a ha⟩
      · simp only [State.way, ProducerPc.offered, Heap.alloc, List.length_append,
          List.length_singleton, List.range_succ]
        refine (hall.append_right _).trans ?_
        simp only [List.append_assoc]
        refine List.Perm.append_left _ (List.Perm.append_left _ (List.Perm.append_left _ ?_))
        exact List.perm_append_comm
  | write data =>
      rw [hpc] at hlen hfresh horder hall
      have hdata : data + 1 = s.heap.cells.length := hfresh data (by simp [ProducerPc.held])
      simp only [ProducerPc.unwritten] at hlen
      have hn : data = n := by omega
      subst hn
      refine ⟨rs, by simp, rfl, ⟨data + 1, ?_, ?_, fun a ha => ?_⟩, ?_, horder, ?_⟩
      · simp only [Heap.write, List.length_modify, ProducerPc.unwritten]
        omega
      · rw [hcounter]
        simp
      · simp only [Heap.write, List.getElem?_modify]
        by_cases hda : data = a
        · subst hda
          simp only [if_true, List.getElem?_eq_getElem (show data < s.heap.cells.length by omega)]
          rw [← hcounter]
          rfl
        · simp only [if_neg hda, hvalues a (by omega)]
          rfl
      · intro a ha
        simp only [Heap.write, List.length_modify]
        exact hfresh a ha
      · simp only [Heap.write, List.length_modify]
        exact hall
  | enqueue data =>
      rw [hpc] at hlen hfresh horder hall
      simp only [ProducerPc.offered] at horder hall
      cases hring : s.ring.enqueue data with
      | some ring =>
          obtain ⟨hroom, hitems⟩ := BoundedFifo.enqueue_eq_some.mp hring
          simp only [hring, if_neg hroom.ne]
          refine ⟨rs, by simp, rfl, ⟨n, hlen, hcounter, hvalues⟩, by simp [ProducerPc.held],
            ?_, ?_⟩
          · simpa [State.way, ProducerPc.offered, hitems] using horder
          · simpa [State.way, ProducerPc.offered, hitems] using hall
      | none =>
          simp only [hring, if_pos (BoundedFifo.enqueue_eq_none.mp hring)]
          refine ⟨data :: rs, ?_, rfl, ⟨n, hlen, hcounter, hvalues⟩, hfresh, ?_, ?_⟩
          · rw [List.length_cons]
            exact Nat.add_comm 1 rs.length
          · simp only [State.way, ProducerPc.offered, List.append_nil]
            rw [← List.append_assoc] at horder
            exact (List.pairwise_append.mp horder).1
          · simpa [State.way, ProducerPc.offered] using hall
  | print data =>
      rw [hpc] at hlen hfresh horder hall
      refine ⟨rs, by simp, rfl, ⟨n, ?_, hcounter, ?_⟩, by simp [ProducerPc.held], horder, ?_⟩
      · rw [cells_read]
        exact hlen
      · rw [cells_read]
        exact hvalues
      · rw [cells_read]
        exact hall
  | free data =>
      rw [hpc] at hlen hfresh horder hall
      exact ⟨rs, by simp, rfl, ⟨n, hlen, hcounter, hvalues⟩, by simp [ProducerPc.held], horder,
        hall⟩
  | done => exact ⟨rs, by simp, rfl, h⟩

/-- **A step of the consumer**: the first value on its way is taken, or printed. -/
lemma consumer_seen {as rs : List ℕ} {s : State} (h : Seen as rs s) :
    ∃ as', (lines .consumer s).filterMap Line.value = as'.map UInt64.ofNat ∧
      (lines .consumer s).count .ringFull = 0 ∧
      Seen (as ++ as') rs (SimpleRing.consumer s) := by
  have hcounter := h.counter
  have hfresh := h.fresh
  have horder := h.order
  have hall := h.all
  rw [State.way] at horder hall
  simp only [lines]
  rw [SimpleRing.consumer]
  cases hpc : s.consumer with
  | test =>
      rw [hpc] at horder hall
      refine ⟨[], rfl, rfl, ?_⟩
      rw [List.append_nil]
      dsimp only
      split <;> exact ⟨hcounter, hfresh, horder, hall⟩
  | dequeue =>
      rw [hpc] at horder hall
      simp only [ConsumerPc.unprinted, List.nil_append] at horder hall
      refine ⟨[], rfl, rfl, ?_⟩
      rw [List.append_nil]
      dsimp only
      split
      · rename_i data ring hring
        have hitems := BoundedFifo.dequeue_eq_some.mp hring
        rw [hitems] at horder hall
        exact ⟨hcounter, hfresh, horder, hall⟩
      · exact ⟨hcounter, hfresh, horder, hall⟩
  | print data =>
      rw [hpc] at horder hall
      simp only [ConsumerPc.unprinted] at horder hall
      have hval : s.val data = UInt64.ofNat data :=
        h.val_eq (h.lt_written (by simp [hpc, ConsumerPc.unprinted]))
      refine ⟨[data], by simp [Line.value, hval], by simp, ⟨?_, ?_, ?_, ?_⟩⟩
      · simpa only [cells_read] using hcounter
      · simpa only [cells_read] using hfresh
      · simpa [State.way, ConsumerPc.unprinted] using horder
      · simp only [cells_read]
        simpa [State.way, ConsumerPc.unprinted] using hall
  | free data =>
      rw [hpc] at horder hall
      refine ⟨[], rfl, rfl, ?_⟩
      rw [List.append_nil]
      exact ⟨hcounter, hfresh, horder, hall⟩
  | done =>
      refine ⟨[], rfl, rfl, ?_⟩
      rwa [List.append_nil]

/-- The output so far is that of a list of printed and a list of refused addresses. -/
def Matches (os : List Line) (s : State) : Prop :=
  ∃ as rs, os.filterMap Line.value = as.map UInt64.ofNat ∧ os.count .ringFull = rs.length ∧
    Seen as rs s

/-- Every step keeps the output matched. -/
lemma step_matches (t : Turn) (os : List Line) (s : State) (h : Matches os s) :
    Matches (os ++ lines t s) (step t s) := by
  obtain ⟨as, rs, hvalues, hfull, hseen⟩ := h
  cases t with
  | producer junk =>
      obtain ⟨rs', hcount, hnone, hseen'⟩ := producer_seen junk hseen
      refine ⟨as, rs', ?_, ?_, hseen'⟩
      · rw [List.filterMap_append, hvalues, hnone, List.append_nil]
      · rw [List.count_append, hfull]
        omega
  | consumer =>
      obtain ⟨as', hprinted, hnone, hseen'⟩ := consumer_seen hseen
      refine ⟨as ++ as', rs, ?_, ?_, hseen'⟩
      · rw [List.filterMap_append, hvalues, hprinted, List.map_append]
      · rw [List.count_append, hfull, hnone, Nat.add_zero]
  | signal =>
      refine ⟨as, rs, ?_, ?_, hseen.counter, hseen.fresh, hseen.order, hseen.all⟩
      · simpa [lines] using hvalues
      · simpa [lines] using hfull

/-- A growing list of all numbers below `n` starts with `0, 1, 2, …`. -/
lemma eq_range_of_perm {n : ℕ} {as bs : List ℕ} (horder : (as ++ bs).Pairwise (· < ·))
    (hall : (List.range n).Perm (as ++ bs)) : as = List.range as.length := by
  have heq : as ++ bs = List.range n :=
    hall.symm.eq_of_pairwise (fun _ _ _ _ hab hba => absurd (hab.trans hba) (lt_irrefl _)) horder
      List.pairwise_lt_range
  have hle : as.length ≤ n := by
    have hlen := congrArg List.length heq
    rw [List.length_append, List.length_range] at hlen
    omega
  calc as = (as ++ bs).take as.length := List.take_left.symm
    _ = (List.range n).take as.length := by rw [heq]
    _ = List.range as.length := by rw [List.take_range, Nat.min_eq_left hle]

/-- **The values of the consumer.** In every interleaving the counter of the producer is the
number of values it has written, and each of these is the counter at its write: the number of
its allocation. The consumer prints the values of a growing list of these allocations, each
once. Every other value allocated is on its way, or was refused by the full ring, of which
there is one line for each; while there is no such line the values printed are `0, 1, 2, …`
without a gap. When both threads have returned, the values still allocated are those in the
ring: nobody takes them out. -/
theorem values_in_order (turns : List Turn) :
    (∃ (n : ℕ) (as rs : List ℕ),
      (reached turns).counter = UInt64.ofNat n ∧
      (reached turns).heap.cells.length = n + (reached turns).producer.unwritten ∧
      (∀ a < n, (reached turns).val a = UInt64.ofNat a) ∧
      (output turns).filterMap Line.value = as.map UInt64.ofNat ∧ as.Pairwise (· < ·) ∧
      (∀ a ∈ as, a < n) ∧
      (output turns).count .ringFull = rs.length ∧
      (List.range (reached turns).heap.cells.length).Perm (as ++ (reached turns).way ++ rs)) ∧
    (.ringFull ∉ output turns → ∃ n : ℕ,
      (output turns).filterMap Line.value = (List.range n).map UInt64.ofNat) ∧
    ((reached turns).producer = .done → (reached turns).consumer = .done →
      ∀ a, (reached turns).heap.live a ↔ a ∈ (reached turns).ring.items) := by
  have h : Matches (output turns) (reached turns) :=
    trace_invariant step lines step_matches ⟨[], [], rfl, rfl, seen_init⟩ turns
  obtain ⟨as, rs, hvalues, hfull, hseen⟩ := h
  refine ⟨?_, ?_, ?_⟩
  · obtain ⟨n, hlen, hcounter, -⟩ := hseen.counter
    refine ⟨n, as, rs, hcounter, hlen, fun a ha => hseen.val_eq (by omega), hvalues,
      (List.pairwise_append.mp hseen.order).1, fun a ha => ?_, hfull, hseen.all⟩
    have hwritten := hseen.lt_written (List.mem_append_left _ ha)
    omega
  · intro hnone
    rw [List.count_eq_zero_of_not_mem hnone] at hfull
    have hrs : rs = [] := List.eq_nil_of_length_eq_zero hfull.symm
    have hall := hseen.all
    rw [hrs, List.append_nil] at hall
    exact ⟨as.length, by rw [hvalues]; exact congrArg _ (eq_range_of_perm hseen.order hall)⟩
  · intro hproducer hconsumer a
    have hplaced := placed_reached turns
    rw [State.places, hproducer, hconsumer] at hplaced
    simp only [ProducerPc.held, ConsumerPc.held, List.nil_append, List.append_nil] at hplaced
    constructor
    · rintro ⟨hlt, hfreed⟩
      have hmem := hplaced.mem_iff.mp (List.mem_range.mpr hlt)
      exact (List.mem_append.mp hmem).resolve_right hfreed
    · exact fun ha => hplaced.live ha

end DpdkStarter.SimpleRing
