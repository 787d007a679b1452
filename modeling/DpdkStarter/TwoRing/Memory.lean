import DpdkStarter.Library.Run
import DpdkStarter.Library.BoundedFifo
import DpdkStarter.Library.Heap

/-!
`inter_process_comm/ring_full_duplex`: `primary.c` and `secondary.c`, which send
integers over one ring and their answers back over another.

A step is one `rte_malloc`, one assignment to or read of `*msg`, one `rte_free`,
one creation, lookup or operation of a ring; the rings hold addresses. What an
`rte_malloc` finds in the cell is up to the turn. An allocation is taken to
succeed: the result is dereferenced unchecked, so a process that gets `NULL` ends
there and takes no further turn.

* `PrimaryPc`, `SecondaryPc`: where a process stands, with its local variables.
* `State`: the shared memory; `processed`, `received`, `freedBy`, `lost` and
  `leftOn` record what happened and are read by neither process.
* `primary`, `secondary`: one step of each process.
* `State.outstanding`: the messages in the rings and in the hands of a process.
-/

namespace DpdkStarter.TwoRing

/-- `RING_SIZE`. -/
def ringSize : ℕ := 1024

/-- A ring created with `RING_SIZE`: one slot stays unused. -/
abbrev MsgRing := BoundedFifo ℕ (ringSize - 1)

/-- It has room for a message. -/
lemma room_pos : 0 < ringSize - 1 := by decide

/-- The requests the primary sends. -/
def requestCount : ℕ := 10

/-- The two processes. -/
inductive Side where
  | primary | secondary
  deriving DecidableEq, Repr

/-- The other process. -/
def Side.other : Side → Side
  | .primary => .secondary
  | .secondary => .primary

/-- An allocated `int`, with the process that allocated it. -/
structure Cell where
  owner : Side
  value : ℤ
  deriving DecidableEq, Repr

/-- Where the primary stands, in the order of `primary.c`. -/
inductive PrimaryPc where
  | createRing
  | createRing2
  | malloc (i : ℕ)
  | write (i a : ℕ)
  | enqueue (i a : ℕ)
  | dequeue (i : ℕ)
  | read (i a : ℕ)
  | free (i a : ℕ)
  | mallocStop
  | writeStop (a : ℕ)
  | enqueueStop (a : ℕ)
  | done
  deriving DecidableEq, Repr

/-- Where the secondary stands, in the order of `secondary.c`; `r` is its
variable `result`. -/
inductive SecondaryPc where
  | lookup
  | lookup2
  | dequeue
  | test (a : ℕ)
  | freeStop (a : ℕ)
  | print (a : ℕ)
  | compute (a : ℕ)
  | free (a : ℕ) (r : ℤ)
  | malloc (r : ℤ)
  | write (b : ℕ) (r : ℤ)
  | enqueue (b : ℕ) (r : ℤ)
  | done
  deriving DecidableEq, Repr

/-- The shared memory, the two processes and the record of the messages. -/
structure State where
  created : Bool
  created2 : Bool
  heap : Heap Cell
  ring : MsgRing
  ring2 : MsgRing
  primary : PrimaryPc
  secondary : SecondaryPc
  /-- values the secondary printed, in order -/
  processed : List ℤ
  /-- values the primary printed, in order -/
  received : List ℤ
  /-- the frees, with the process that made them, in order -/
  freedBy : List (Side × ℕ)
  /-- messages whose unchecked enqueue failed -/
  lost : List ℕ
  /-- the value on which the secondary left its loop -/
  leftOn : Option ℤ

/-- The state before either process runs. -/
def State.init : State where
  created := false
  created2 := false
  heap := .empty
  ring := .empty
  ring2 := .empty
  primary := .createRing
  secondary := .lookup
  processed := []
  received := []
  freedBy := []
  lost := []
  leftOn := none

/-- The value at an address. -/
def State.val (s : State) (a : ℕ) : ℤ := (s.heap.cells[a]?).elim 0 Cell.value

/-- `rte_malloc`, which finds `junk` in the cell. -/
def State.malloc (s : State) (side : Side) (junk : ℤ) : State :=
  { s with heap := (s.heap.alloc ⟨side, junk⟩).2 }

/-- The address the next `rte_malloc` returns. -/
def State.fresh (s : State) : ℕ := s.heap.cells.length

/-- `*a = v`. -/
def State.assign (s : State) (a : ℕ) (v : ℤ) : State :=
  { s with heap := s.heap.write a fun c => { c with value := v } }

/-- A read of `*a`. -/
def State.touch (s : State) (a : ℕ) : State := { s with heap := s.heap.read a }

/-- `rte_free`. -/
def State.free (s : State) (side : Side) (a : ℕ) : State :=
  { s with heap := s.heap.free a, freedBy := s.freedBy ++ [(side, a)] }

/-- One step of the primary; an allocation finds `junk` in the cell. -/
def primary (junk : ℤ) (s : State) : State :=
  match s.primary with
  | .createRing => { s with created := true, primary := .createRing2 }
  | .createRing2 => { s with created2 := true, primary := .malloc 0 }
  | .malloc i => { s.malloc .primary junk with primary := .write i s.fresh }
  | .write i a => { s.assign a i with primary := .enqueue i a }
  | .enqueue i a =>
      match s.ring.enqueue a with
      | some ring => { s with ring := ring, primary := .dequeue i }
      | none => s
  | .dequeue i =>
      match s.ring2.dequeue with
      | some (b, ring2) => { s with ring2 := ring2, primary := .read i b }
      | none => s
  | .read i b => { s.touch b with received := s.received ++ [s.val b], primary := .free i b }
  | .free i b =>
      { s.free .primary b with
        primary := if i + 1 < requestCount then .malloc (i + 1) else .mallocStop }
  | .mallocStop => { s.malloc .primary junk with primary := .writeStop s.fresh }
  | .writeStop a => { s.assign a (-1) with primary := .enqueueStop a }
  | .enqueueStop a =>
      -- the result of the enqueue is not looked at
      match s.ring.enqueue a with
      | some ring => { s with ring := ring, primary := .done }
      | none => { s with lost := s.lost ++ [a], primary := .done }
  | .done => s

/-- One step of the secondary; an allocation finds `junk` in the cell. -/
def secondary (junk : ℤ) (s : State) : State :=
  match s.secondary with
  | .lookup => if s.created then { s with secondary := .lookup2 } else s
  | .lookup2 => if s.created2 then { s with secondary := .dequeue } else s
  | .dequeue =>
      match s.ring.dequeue with
      | some (a, ring) => { s with ring := ring, secondary := .test a }
      | none => s
  | .test a => { s.touch a with secondary := if s.val a = -1 then .freeStop a else .print a }
  | .freeStop a => { s.free .secondary a with leftOn := some (s.val a), secondary := .done }
  | .print a => { s.touch a with processed := s.processed ++ [s.val a], secondary := .compute a }
  | .compute a => { s.touch a with secondary := .free a (s.val a * 10) }
  | .free a r => { s.free .secondary a with secondary := .malloc r }
  | .malloc r => { s.malloc .secondary junk with secondary := .write s.fresh r }
  | .write b r => { s.assign b r with secondary := .enqueue b r }
  | .enqueue b _ =>
      match s.ring2.enqueue b with
      | some ring2 => { s with ring2 := ring2, secondary := .dequeue }
      | none => s
  | .done => s

/-- Which process moves, and what an allocation finds in the cell. -/
inductive Turn where
  | primary (junk : ℤ)
  | secondary (junk : ℤ)

/-- One step of the system. -/
def step : Turn → State → State
  | .primary junk, s => TwoRing.primary junk s
  | .secondary junk, s => TwoRing.secondary junk s

/-- The state after a sequence of turns. -/
abbrev reached (turns : List Turn) : State := Machine.run step turns State.init

/-! ### Where the messages are -/

/-- The messages in the hands of the primary. -/
def PrimaryPc.hands : PrimaryPc → List ℕ
  | .write _ a | .enqueue _ a | .read _ a | .free _ a | .writeStop a | .enqueueStop a => [a]
  | _ => []

/-- The messages in the hands of the secondary. -/
def SecondaryPc.hands : SecondaryPc → List ℕ
  | .test a | .freeStop a | .print a | .compute a | .free a _ | .write a _ | .enqueue a _ => [a]
  | _ => []

/-- The messages in the rings or in the hands of a process. -/
def State.outstanding (s : State) : List ℕ :=
  s.primary.hands ++ s.ring.items ++ s.ring2.items ++ s.secondary.hands

end DpdkStarter.TwoRing
