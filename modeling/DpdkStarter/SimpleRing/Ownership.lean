import DpdkStarter.Library.BoundedFifo
import DpdkStarter.Library.Heap
import DpdkStarter.Library.Run

/-!
`rings/sample/simple_ring.c`: a producer and a consumer on one ring, down to
their accesses to the heap.

A step is one test of `keep_running`, one `malloc`, one write, one read, one
`free` or one ring operation of one thread; the ring holds addresses. The signal
handler clears `keep_running` at any point. An allocation is taken to succeed:
the result is dereferenced unchecked, so a producer that gets `NULL` ends there
and takes no further turn.

* `producer`, `consumer`: one step of each thread.
* `placed_reached`: every value is in one place in every reachable state.
* `reads_live_iff`: and no freed value is read if and only if the consumer never
  frees a value before the producer has printed it; the producer reads `*data`
  once more after the enqueue that gave `data` away.
* `producer_reads_freed_value`: a run in which it reads a freed one.
-/

namespace DpdkStarter.SimpleRing

/-- Where the producer stands; `data` is its local pointer. -/
inductive ProducerPc where
  | test
  | malloc
  | write (data : ℕ)
  | enqueue (data : ℕ)
  /-- at the `printf` after a successful enqueue -/
  | print (data : ℕ)
  /-- at the `free` on a full ring -/
  | free (data : ℕ)
  | done
  deriving DecidableEq, Repr

/-- Where the consumer stands; `data` is what it dequeued. -/
inductive ConsumerPc where
  | test
  | dequeue
  | print (data : ℕ)
  | free (data : ℕ)
  | done
  deriving DecidableEq, Repr

/-- The most elements a ring of `RING_SIZE` 1024 holds. -/
def ringCapacity : ℕ := 1023

/-- The flag, the ring, the heap and the two threads. -/
structure State where
  keepRunning : Bool
  ring : BoundedFifo ℕ ringCapacity
  heap : Heap UInt64
  counter : UInt64
  producer : ProducerPc
  consumer : ConsumerPc

/-- The state in which the threads are launched. -/
def State.init : State := ⟨true, .empty, .empty, 0, .test, .test⟩

/-- One step of the producer; an allocation finds `junk` in the cell. -/
def producer (junk : UInt64) (s : State) : State :=
  match s.producer with
  | .test => { s with producer := if s.keepRunning then .malloc else .done }
  | .malloc => { s with heap := (s.heap.alloc junk).2, producer := .write (s.heap.alloc junk).1 }
  | .write data =>
      { s with
        heap := s.heap.write data fun _ => s.counter
        counter := s.counter + 1
        producer := .enqueue data }
  | .enqueue data =>
      match s.ring.enqueue data with
      | some ring => { s with ring := ring, producer := .print data }
      | none => { s with producer := .free data }
  | .print data => { s with heap := s.heap.read data, producer := .test }
  | .free data => { s with heap := s.heap.free data, producer := .test }
  | .done => s

/-- One step of the consumer. -/
def consumer (s : State) : State :=
  match s.consumer with
  | .test => { s with consumer := if s.keepRunning then .dequeue else .done }
  | .dequeue =>
      match s.ring.dequeue with
      | some (data, ring) => { s with ring := ring, consumer := .print data }
      | none => { s with consumer := .test }
  | .print data => { s with heap := s.heap.read data, consumer := .free data }
  | .free data => { s with heap := s.heap.free data, consumer := .test }
  | .done => s

/-- Who moves: the producer, with what an allocation finds in the cell, the
consumer, or the signal handler. -/
inductive Turn where
  | producer (junk : UInt64)
  | consumer
  | signal

/-- One step of the program. -/
def step : Turn → State → State
  | .producer junk, s => SimpleRing.producer junk s
  | .consumer, s => SimpleRing.consumer s
  | .signal, s => { s with keepRunning := false }

/-- The state after a sequence of turns. -/
abbrev reached (turns : List Turn) : State := Machine.run step turns State.init

/-! ### The place of each value -/

/-- The value in the producer's hands. After a successful enqueue it is the
ring's, although the producer still has the pointer. -/
def ProducerPc.held : ProducerPc → List ℕ
  | .write data | .enqueue data | .free data => [data]
  | _ => []

/-- The value in the consumer's hands. -/
def ConsumerPc.held : ConsumerPc → List ℕ
  | .print data | .free data => [data]
  | _ => []

/-- The values not freed: in the producer's hands, in the ring, in the consumer's
hands. -/
def State.places (s : State) : List ℕ := s.producer.held ++ s.ring.items ++ s.consumer.held

/-- A step of the producer leaves every value in one place. -/
lemma producer_placed (junk : UInt64) {s : State} (h : s.heap.Placed s.places) :
    (SimpleRing.producer junk s).heap.Placed (SimpleRing.producer junk s).places := by
  rw [State.places] at h
  rw [SimpleRing.producer]
  cases hpc : s.producer with
  | test =>
      rw [hpc] at h
      dsimp only
      split <;> exact h
  | malloc => rw [hpc] at h; exact h.alloc junk
  | write data => rw [hpc] at h; exact h.write _ _
  | enqueue data =>
      rw [hpc] at h
      dsimp only
      split
      · rename_i ring hring
        have hitems : ring.items = s.ring.items ++ [data] :=
          (BoundedFifo.enqueue_eq_some.mp hring).2
        refine h.perm ?_
        simp only [State.places, ProducerPc.held, hitems, List.nil_append]
        exact (List.perm_append_singleton data s.ring.items).symm.append_right _
      · exact h
  | print data => rw [hpc] at h; exact h.read data
  | free data => rw [hpc] at h; exact Heap.Placed.free h
  | done => rw [hpc] at h; rw [State.places, hpc]; exact h

/-- A step of the consumer leaves every value in one place. -/
lemma consumer_placed {s : State} (h : s.heap.Placed s.places) :
    (SimpleRing.consumer s).heap.Placed (SimpleRing.consumer s).places := by
  rw [State.places] at h
  rw [SimpleRing.consumer]
  cases hpc : s.consumer with
  | test =>
      rw [hpc] at h
      dsimp only
      split <;> exact h
  | dequeue =>
      rw [hpc] at h
      dsimp only
      split
      · rename_i data ring hring
        rw [BoundedFifo.dequeue_eq_some.mp hring] at h
        refine h.perm ?_
        simp only [State.places, ConsumerPc.held, List.append_nil, List.append_assoc]
        exact (List.perm_append_singleton data ring.items).symm.append_left _
      · exact h
  | print data => rw [hpc] at h; exact h.read data
  | free data =>
      rw [hpc] at h
      refine Heap.Placed.free (h.perm ?_)
      simp only [State.places, ConsumerPc.held, List.append_nil]
      exact List.perm_append_singleton data _
  | done => rw [hpc] at h; rw [State.places, hpc]; exact h

/-- A step leaves every value in one place. -/
lemma step_placed (t : Turn) (s : State) (h : s.heap.Placed s.places) :
    (step t s).heap.Placed (step t s).places := by
  cases t with
  | producer junk => exact producer_placed junk h
  | consumer => exact consumer_placed h
  | signal => exact h

/-- Every value is in one place in every reachable state. -/
theorem placed_reached (turns : List Turn) :
    (reached turns).heap.Placed (reached turns).places :=
  Machine.run_invariant (P := fun s => s.heap.Placed s.places) step step_placed
    Heap.placed_empty turns

/-! ### The value after its enqueue -/

/-- The consumer is about to free the value that the producer, past its enqueue,
is about to print. -/
def State.freesUnderPrint (s : State) : Bool :=
  match s.producer, s.consumer with
  | .print a, .free b => a == b
  | _, _ => false

/-- The step does not free a value before the producer printed it. -/
def PrintsFirst : Turn → State → Prop
  | .consumer, s => s.freesUnderPrint = false
  | _, _ => True

/-- Every value is in one place, no dead value was read, and none is about to be. -/
structure Inv (s : State) : Prop where
  placed : s.heap.Placed s.places
  reads : s.heap.deadReads = []
  printed : ∀ data, s.producer = .print data → s.heap.live data

lemma inv_init : Inv State.init := ⟨Heap.placed_empty, rfl, nofun⟩

/-- The heap of a state that meets the invariant is used safely. -/
lemma Inv.safe {s : State} (h : Inv s) : s.heap.Safe := ⟨h.placed.freedOnce, h.reads⟩

/-- What the producer holds is alive. -/
lemma Inv.live_producer {s : State} (h : Inv s) {data : ℕ} (hheld : data ∈ s.producer.held) :
    s.heap.live data :=
  h.placed.live (List.mem_append_left _ (List.mem_append_left _ hheld))

/-- What the consumer holds is alive. -/
lemma Inv.live_consumer {s : State} (h : Inv s) {data : ℕ} (hheld : data ∈ s.consumer.held) :
    s.heap.live data :=
  h.placed.live (List.mem_append_right _ hheld)

/-- A step of the producer keeps the invariant. -/
lemma producer_inv (junk : UInt64) {s : State} (h : Inv s) :
    Inv (SimpleRing.producer junk s) := by
  suffices hread : (SimpleRing.producer junk s).heap.deadReads = [] ∧
      ∀ data, (SimpleRing.producer junk s).producer = .print data →
        (SimpleRing.producer junk s).heap.live data from
    ⟨producer_placed junk h.placed, hread.1, hread.2⟩
  have hreads := h.reads
  rw [SimpleRing.producer]
  cases hpc : s.producer with
  | test => exact ⟨hreads, by dsimp only; split <;> simp⟩
  | malloc => exact ⟨hreads, nofun⟩
  | write data => exact ⟨hreads, nofun⟩
  | enqueue data =>
      -- from here on the value belongs to the ring, and it is alive there
      have hlive : s.heap.live data := h.live_producer (by simp [hpc, ProducerPc.held])
      dsimp only
      split
      · refine ⟨hreads, ?_⟩
        rintro _ ⟨⟩
        exact hlive
      · exact ⟨hreads, nofun⟩
  | print data =>
      have hlive : s.heap.live data := h.printed data hpc
      dsimp only
      rw [Heap.read_of_live hlive]
      exact ⟨hreads, nofun⟩
  | free data => exact ⟨hreads, nofun⟩
  | done => exact ⟨hreads, by simp [hpc]⟩

/-- The consumer leaves the producer where it stands. -/
lemma consumer_producer (s : State) : (SimpleRing.consumer s).producer = s.producer := by
  rw [SimpleRing.consumer]
  cases s.consumer with
  | dequeue => dsimp only; split <;> rfl
  | _ => rfl

/-- A step of the consumer that lets the producer print first keeps the invariant. -/
lemma consumer_inv {s : State} (h : Inv s) (hprint : s.freesUnderPrint = false) :
    Inv (SimpleRing.consumer s) := by
  suffices hread : (SimpleRing.consumer s).heap.deadReads = [] ∧
      ∀ data, s.producer = .print data → (SimpleRing.consumer s).heap.live data from
    ⟨consumer_placed h.placed, hread.1, by rw [consumer_producer]; exact hread.2⟩
  have hreads := h.reads
  rw [SimpleRing.consumer]
  cases hpc : s.consumer with
  | test => exact ⟨hreads, h.printed⟩
  | dequeue => dsimp only; split <;> exact ⟨hreads, h.printed⟩
  | print data =>
      have hlive : s.heap.live data := h.live_consumer (by simp [hpc, ConsumerPc.held])
      dsimp only
      rw [Heap.read_of_live hlive]
      exact ⟨hreads, h.printed⟩
  | free data =>
      refine ⟨hreads, ?_⟩
      intro a ha
      have hne : a ≠ data := by
        rintro rfl
        simp [State.freesUnderPrint, hpc, ha] at hprint
      exact Heap.live_free.mpr ⟨h.printed a ha, hne⟩
  | done => exact ⟨hreads, h.printed⟩

/-- A step that lets the producer print first keeps the invariant. -/
lemma step_inv (t : Turn) (s : State) (hprint : PrintsFirst t s) (h : Inv s) :
    Inv (step t s) := by
  cases t with
  | producer junk => exact producer_inv junk h
  | consumer => exact consumer_inv h hprint
  | signal => exact ⟨h.placed, h.reads, h.printed⟩

/-- Once the consumer has freed the value, the print of it is a dead read. -/
lemma dead_print {s : State} (hprint : s.freesUnderPrint = true) (junk : UInt64) :
    ¬ (step (.producer junk) (step .consumer s)).heap.Safe := by
  rw [State.freesUnderPrint] at hprint
  split at hprint
  · rename_i a b hproducer hconsumer
    obtain rfl : a = b := by simpa using hprint
    have hheap : (SimpleRing.consumer s).heap = s.heap.free a := by
      simp [SimpleRing.consumer, hconsumer]
    have hpc : (SimpleRing.consumer s).producer = .print a := by
      rw [consumer_producer, hproducer]
    simp only [step, SimpleRing.producer, hpc]
    exact Heap.not_safe_read (by simp [hheap])
  · simp at hprint

/-- **Ownership of the values.** In every run each value ever allocated is at
every moment in exactly one place (the producer's hands, the ring, the consumer's
hands, freed) and is freed at most once; and no value is read after it was freed,
neither in the run nor by a next step of the producer at any point of it, if and
only if the consumer never frees a value before the producer has printed it. -/
theorem reads_live_iff (turns : List Turn) :
    (∀ pre, pre <+: turns →
      (List.range (reached pre).heap.cells.length).Perm
        ((reached pre).producer.held ++ (reached pre).ring.items ++ (reached pre).consumer.held ++
          (reached pre).heap.freed) ∧
      (reached pre).heap.FreedOnce) ∧
    ((∀ pre, pre <+: turns → (reached pre).heap.Safe ∧
        ∀ junk, (reached (pre ++ [.producer junk])).heap.Safe) ↔
      Machine.StepsMeet step PrintsFirst turns State.init) := by
  refine ⟨fun pre _ => ⟨placed_reached pre, (placed_reached pre).freedOnce⟩, ?_⟩
  refine Machine.good_iff_stepsMeet (fun s => s.heap.Safe) Turn.producer step_inv
    (fun _ => Inv.safe) (fun _ _ => trivial) ?_ inv_init turns
  intro t s hprint
  cases t with
  | producer junk => exact absurd trivial hprint
  | signal => exact absurd trivial hprint
  | consumer => exact ⟨0, dead_print (Bool.not_eq_false _ ▸ hprint) 0⟩

/-- The producer enqueues its first value; the consumer dequeues, prints and frees
it before the producer comes to its own `printf`. -/
def freesBeforePrint : List Turn :=
  List.replicate 4 (.producer 0) ++ List.replicate 4 .consumer ++ [.producer 0]

/-- The producer reads `*data` of a value that the consumer freed. -/
theorem producer_reads_freed_value :
    ¬ ∀ turns : List Turn, (reached turns).heap.Safe := by
  intro h
  have hread : (reached freesBeforePrint).heap.deadReads = [0] := by decide +kernel
  rw [(h freesBeforePrint).reads] at hread
  simp at hread

end DpdkStarter.SimpleRing
