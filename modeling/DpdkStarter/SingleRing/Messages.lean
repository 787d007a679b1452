import DpdkStarter.Library.Run
import DpdkStarter.Library.BoundedFifo

/-!
`inter_process_comm/single_ring_full_duplex/common.h`: the messages of the
request/response protocol over one ring, and the three messages that the two
processes build.
-/

namespace DpdkStarter.SingleRing

/-- `RING_SIZE`. -/
def ringSize : ℕ := 1024

/-- A ring created with `RING_SIZE`: one slot stays unused. -/
abbrev MsgRing (α : Type*) := BoundedFifo α (ringSize - 1)

/-- It has room for a message. -/
lemma room_pos : 0 < ringSize - 1 := by decide

/-- `PROC_A`. -/
def procA : ℕ := 1

/-- `PROC_B`. -/
def procB : ℕ := 2

/-- The requests the primary sends. -/
def requestCount : ℕ := 10

/-- `enum msg_type`. -/
inductive MsgType where
  | req | resp | exit
  deriving DecidableEq, Repr

/-- `struct msg`. -/
structure Msg where
  srcId : ℕ
  dstId : ℕ
  type : MsgType
  value : ℕ
  deriving DecidableEq, Repr

/-- The request the primary fills in for `i`. -/
def Msg.request (i : ℕ) : Msg := ⟨procA, procB, .req, i⟩

/-- The response the secondary fills in to a request of value `v`. -/
def Msg.response (v : ℕ) : Msg := ⟨procB, procA, .resp, v * 10⟩

/-- The message the primary ends with. -/
def Msg.goodbye : Msg := ⟨procA, procB, .exit, 0⟩

end DpdkStarter.SingleRing
