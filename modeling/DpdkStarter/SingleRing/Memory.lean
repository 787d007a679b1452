import DpdkStarter.Library.Heap
import DpdkStarter.SingleRing.Messages

/-!
`inter_process_comm/single_ring_full_duplex`: `primary.c` and `secondary.c` down
to their accesses to the shared heap.

A step is one `rte_malloc`, one field assignment, one field read, one
`rte_free` or one ring operation; the ring holds addresses. What an `rte_malloc`
finds in the cell is up to the turn. An allocation is taken to succeed: the
result is dereferenced unchecked, so a process that gets `NULL` ends there and
takes no further turn.

* `PrimaryPc`, `SecondaryPc`: where a process stands, with the addresses in its
  local pointers.
* `primary`, `secondary`: one step of each process.
* `PrimaryPc.owned`, `SecondaryPc.owned`: the messages a process may use. The
  secondary gives its response away with the enqueue and still reads it in the
  `printf` that follows.
-/

namespace DpdkStarter.SingleRing.Memory

/-- Where the primary stands, in the order of `primary.c`; `write i a k` is
before the `k`-th field assignment to the message at `a`. -/
inductive PrimaryPc where
  | create
  | malloc (i : ℕ)
  | write (i a k : ℕ)
  | enqueue (i a : ℕ)
  | dequeue (i : ℕ)
  | readDst (i a : ℕ)
  | putBack (i a : ℕ)
  | readType (i a : ℕ)
  | readValue (i a : ℕ)
  | free (i a : ℕ)
  | mallocExit
  | writeExit (a k : ℕ)
  | enqueueExit (a : ℕ)
  | done
  deriving DecidableEq, Repr

/-- Where the secondary stands, in the order of `secondary.c`; `a` is the
message it dequeued, `b` the response it builds. -/
inductive SecondaryPc where
  | lookup
  | dequeue
  | readDst (a : ℕ)
  | putBack (a : ℕ)
  | readExit (a : ℕ)
  | freeExit (a : ℕ)
  | readReq (a : ℕ)
  | printReceived (a : ℕ)
  | malloc (a : ℕ)
  | write (a b k : ℕ)
  | readValue (a b : ℕ)
  | writeValue (a b v : ℕ)
  | free (a b : ℕ)
  | enqueue (b : ℕ)
  | printSent (b : ℕ)
  | done
  deriving DecidableEq, Repr

/-- The shared memory and the two processes. -/
structure State where
  created : Bool
  heap : Heap Msg
  ring : MsgRing ℕ
  primary : PrimaryPc
  secondary : SecondaryPc

/-- The state before either process runs. -/
def State.init : State := ⟨false, .empty, .empty, .create, .lookup⟩

/-- The message at an address. -/
def State.msg (s : State) (a : ℕ) : Msg := (s.heap.cells[a]?).getD ⟨0, 0, .req, 0⟩

/-- The `k`-th field assignment of the primary to a message of type `t`. -/
def primaryField (t : MsgType) (v : ℕ) : ℕ → Msg → Msg
  | 0, m => { m with srcId := procA }
  | 1, m => { m with dstId := procB }
  | 2, m => { m with type := t }
  | _, m => { m with value := v }

/-- The `k`-th field assignment of the secondary to its response, the one of
`value` apart. -/
def secondaryField : ℕ → Msg → Msg
  | 0, m => { m with srcId := procB }
  | 1, m => { m with dstId := procA }
  | _, m => { m with type := .resp }

/-- One step of the primary; an allocation finds `junk` in the cell. -/
def primary (junk : Msg) (s : State) : State :=
  match s.primary with
  | .create => { s with created := true, primary := .malloc 0 }
  | .malloc i =>
      { s with heap := (s.heap.alloc junk).2, primary := .write i (s.heap.alloc junk).1 0 }
  | .write i a k =>
      { s with
        heap := s.heap.write a (primaryField .req i k)
        primary := if k < 3 then .write i a (k + 1) else .enqueue i a }
  | .enqueue i a =>
      match s.ring.enqueue a with
      | some ring => { s with ring := ring, primary := .dequeue i }
      | none => s
  | .dequeue i =>
      match s.ring.dequeue with
      | none => s
      | some (a, ring) => { s with ring := ring, primary := .readDst i a }
  | .readDst i a =>
      { s with
        heap := s.heap.read a
        primary := if (s.msg a).dstId ≠ procA then .putBack i a else .readType i a }
  | .putBack i a =>
      match s.ring.enqueue a with
      | some ring => { s with ring := ring, primary := .dequeue i }
      | none => { s with primary := .dequeue i }
  | .readType i a =>
      { s with
        heap := s.heap.read a
        primary := if (s.msg a).type = .resp then .readValue i a else .dequeue i }
  | .readValue i a => { s with heap := s.heap.read a, primary := .free i a }
  | .free i a =>
      { s with
        heap := s.heap.free a
        primary := if i + 1 < requestCount then .malloc (i + 1) else .mallocExit }
  | .mallocExit =>
      { s with heap := (s.heap.alloc junk).2, primary := .writeExit (s.heap.alloc junk).1 0 }
  | .writeExit a k =>
      { s with
        heap := s.heap.write a (primaryField .exit 0 k)
        primary := if k < 3 then .writeExit a (k + 1) else .enqueueExit a }
  | .enqueueExit a =>
      match s.ring.enqueue a with
      | some ring => { s with ring := ring, primary := .done }
      | none => { s with primary := .done }
  | .done => s

/-- One step of the secondary; an allocation finds `junk` in the cell. -/
def secondary (junk : Msg) (s : State) : State :=
  match s.secondary with
  | .lookup => if s.created then { s with secondary := .dequeue } else s
  | .dequeue =>
      match s.ring.dequeue with
      | none => s
      | some (a, ring) => { s with ring := ring, secondary := .readDst a }
  | .readDst a =>
      { s with
        heap := s.heap.read a
        secondary := if (s.msg a).dstId ≠ procB then .putBack a else .readExit a }
  | .putBack a =>
      match s.ring.enqueue a with
      | some ring => { s with ring := ring, secondary := .dequeue }
      | none => { s with secondary := .dequeue }
  | .readExit a =>
      { s with
        heap := s.heap.read a
        secondary := if (s.msg a).type = .exit then .freeExit a else .readReq a }
  | .freeExit a => { s with heap := s.heap.free a, secondary := .done }
  | .readReq a =>
      { s with
        heap := s.heap.read a
        secondary := if (s.msg a).type = .req then .printReceived a else .dequeue }
  | .printReceived a => { s with heap := s.heap.read a, secondary := .malloc a }
  | .malloc a =>
      { s with heap := (s.heap.alloc junk).2, secondary := .write a (s.heap.alloc junk).1 0 }
  | .write a b k =>
      { s with
        heap := s.heap.write b (secondaryField k)
        secondary := if k < 2 then .write a b (k + 1) else .readValue a b }
  | .readValue a b =>
      { s with heap := s.heap.read a, secondary := .writeValue a b (s.msg a).value }
  | .writeValue a b v =>
      { s with
        heap := s.heap.write b fun m => { m with value := v * 10 }
        secondary := .free a b }
  | .free a b => { s with heap := s.heap.free a, secondary := .enqueue b }
  | .enqueue b =>
      match s.ring.enqueue b with
      | some ring => { s with ring := ring, secondary := .printSent b }
      | none => s
  | .printSent b => { s with heap := s.heap.read b, secondary := .dequeue }
  | .done => s

/-- Which process moves, and what an allocation finds in the cell. -/
inductive Turn where
  | primary (junk : Msg)
  | secondary (junk : Msg)

/-- One step of the system. -/
def step : Turn → State → State
  | .primary junk, s => Memory.primary junk s
  | .secondary junk, s => Memory.secondary junk s

/-- The state after a sequence of turns. -/
abbrev reached (turns : List Turn) : State := Machine.run step turns State.init

/-! ### Ownership -/

/-- The messages the primary holds. -/
def PrimaryPc.owned : PrimaryPc → List ℕ
  | .write _ a _ | .enqueue _ a | .readDst _ a | .putBack _ a | .readType _ a | .readValue _ a
  | .free _ a | .writeExit a _ | .enqueueExit a => [a]
  | _ => []

/-- The messages the secondary holds. After the enqueue of its response that is
no longer one of them. -/
def SecondaryPc.owned : SecondaryPc → List ℕ
  | .readDst a | .putBack a | .readExit a | .freeExit a | .readReq a | .printReceived a
  | .malloc a | .enqueue a => [a]
  | .write a b _ | .readValue a b | .writeValue a b _ | .free a b => [a, b]
  | _ => []

/-- The messages held by a process or in the ring. -/
def State.owned (s : State) : List ℕ := s.primary.owned ++ s.ring.items ++ s.secondary.owned

end DpdkStarter.SingleRing.Memory
