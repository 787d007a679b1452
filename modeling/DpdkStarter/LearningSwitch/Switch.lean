import DpdkStarter.Library.Run
import DpdkStarter.Library.KeyedTable

/-!
`l2_forwarding/main.c`: the learning switch. `mac_learn` and `mac_lookup` are
those of `hashing/mac_learning/main.c` as well.

`rte_hash` is a parameter: a `KeyedTable` from addresses to the pointers the
program stores, `Refused` being a negative result of `rte_hash_add_key_data`,
which `mac_learn` ignores. A port is stored as a pointer value.

* `processPacket`: what becomes of one packet, and the table after it.
* `tableAfter`, `verdict`: the table after a sequence of packets, and the verdict
  on the next one.
* `macTable`: a table of `HASH_ENTRIES` keys.
-/

namespace DpdkStarter.LearningSwitch

/-- `HASH_ENTRIES`. -/
def hashEntries : ℕ := 1024

/-- `MAX_PORTS`. -/
def maxPorts : ℕ := 4

/-- `struct rte_ether_addr`. -/
structure EtherAddr where
  addrBytes : Vector UInt8 6
  deriving DecidableEq

/-- The arguments of `process_packet`. -/
structure Packet where
  src : EtherAddr
  dst : EtherAddr
  inPort : UInt16
  deriving DecidableEq

/-- What `process_packet` does with a packet. -/
inductive Verdict where
  | forward (port : UInt16)
  | flood (ports : List ℕ)
  deriving DecidableEq

/-- The ports the packet is sent out of. -/
def Verdict.ports : Verdict → List ℕ
  | .forward port => [port.toNat]
  | .flood ports => ports

/-- `(void *)(uintptr_t)port`. -/
def portData (port : UInt16) : UInt64 := port.toUInt64

/-- The ports of `flood_packet`. -/
def floodPacket (inPort : UInt16) : List ℕ := (List.range maxPorts).filter (· ≠ inPort.toNat)

variable {T : Type*} (hash : KeyedTable T EtherAddr UInt64)

/-- `mac_learn`. -/
def macLearn (t : T) (src : EtherAddr) (port : UInt16) : T := (hash.add t src (portData port)).2

/-- `mac_lookup`. -/
def macLookup (t : T) (dst : EtherAddr) : Option UInt16 :=
  (hash.lookup t dst).map UInt64.toUInt16

/-- `process_packet`. -/
def processPacket (p : Packet) (t : T) : Verdict × T :=
  let learned := macLearn hash t p.src p.inPort
  match macLookup hash learned p.dst with
  | some outPort => (.forward outPort, learned)
  | none => (.flood (floodPacket p.inPort), learned)

/-- The table after one packet. -/
def step (p : Packet) (t : T) : T := (processPacket hash p t).2

/-- The table after a sequence of packets. -/
abbrev tableAfter (ps : List Packet) : T := Machine.run (step hash) ps hash.empty

/-- The verdict on a packet that follows a sequence of packets. -/
def verdict (ps : List Packet) (p : Packet) : Verdict :=
  (processPacket hash p (tableAfter hash ps)).1

/-- The table refuses to store the source of the packet. -/
def Refused (p : Packet) (t : T) : Prop := (hash.add t p.src (portData p.inPort)).1 = false

instance (p : Packet) (t : T) : Decidable (Refused hash p t) :=
  inferInstanceAs (Decidable (_ = _))

/-- The table of `create_mac_table`, when it refuses new keys only for want of
room. -/
def macTable : KeyedTable (AList fun _ : EtherAddr => UInt64) EtherAddr UInt64 :=
  .bounded EtherAddr UInt64 hashEntries

variable {hash}

/-- A packet learns its source, whatever becomes of it. -/
lemma step_eq (p : Packet) (t : T) : step hash p t = macLearn hash t p.src p.inPort := by
  unfold step processPacket
  dsimp only
  split <;> rfl

/-- A port survives being stored as a pointer, port 0 included. -/
@[simp] lemma toUInt16_portData (port : UInt16) : (portData port).toUInt16 = port := by
  simp [portData]

end DpdkStarter.LearningSwitch
