import DpdkStarter.Library.Run
import DpdkStarter.Library.BoundedFifo
import DpdkStarter.Packet.Mbuf

/-!
`graph/pipeline/pipeline.c`: the nodes of the packet graph and its walks.

`rte_graph` is modelled by what a walk does: the source node runs once, and then
every node is called with objects that were enqueued to it, in any portions and
any order, until none is left; only then does the next walk start. A run is a
list of `Turn`s, so that every such schedule is one.

* `rxNodeProcess`, `l2NodeProcess`, `ipv4NodeProcess`, `ipv6NodeProcess`,
  `txNodeProcess`, `dropNodeProcess`: the nodes. `fault` is raised by a write
  beyond one of the arrays of `l2_node_process`, and by an edge that does not
  exist.
* `step`: the start of a walk, or one call of a node.
-/

namespace DpdkStarter.GraphPipeline

/-- `BURST`. -/
def burst : ℕ := 32

/-- The registered nodes. -/
inductive Node where
  | rx | l2 | ipv4 | ipv6 | tx | drop
  deriving DecidableEq, Repr

/-- The nodes in the order of the graph. -/
def Node.all : List Node := [.rx, .l2, .ipv4, .ipv6, .tx, .drop]

/-- The `next_nodes` of a node, by edge. -/
def Node.nextNodes : Node → List Node
  | .rx => [.l2]
  | .l2 => [.ipv4, .ipv6, .drop]
  | .ipv4 => [.tx]
  | .ipv6 => [.tx]
  | .tx => []
  | .drop => []

/-- The objects enqueued to each node and not yet delivered, and the record of
the frames: received, accepted by the device, freed by `tx_node`, freed by
`drop_node`. -/
structure State where
  pending : Node → List Mbuf
  fault : Bool
  received : List Mbuf
  nic : List Mbuf
  txFreed : List Mbuf
  dropFreed : List Mbuf

/-- The graph before the first walk. -/
def State.init : State := ⟨fun _ => [], false, [], [], [], []⟩

/-- `rte_node_enqueue`. -/
def rteNodeEnqueue (node : Node) (edge : ℕ) (objs : List Mbuf) (s : State) : State :=
  match node.nextNodes[edge]? with
  | some next => { s with pending := Function.update s.pending next (s.pending next ++ objs) }
  | none => { s with fault := true }

/-! ### The nodes -/

/-- `rx_node_process`, when the device delivers `pkts`. -/
def rxNodeProcess (pkts : List Mbuf) (s : State) : State :=
  let s := { s with received := s.received ++ pkts }
  if pkts.length > 0 then rteNodeEnqueue .rx 0 pkts s else s

/-- The class `l2_node_process` reads off the ethertype. -/
inductive L2Class where
  | ipv4 | ipv6 | drop
  deriving DecidableEq, Repr

/-- The `switch` of `l2_node_process`. -/
def l2Class (m : Mbuf) : L2Class :=
  let ethType := etherType.eval m.data
  if ethType = etherTypeIpv4 then .ipv4
  else if ethType = etherTypeIpv6 then .ipv6
  else .drop

/-- The arrays `ipv4`, `ipv6` and `drop` of `l2_node_process`, filled up to `v4`,
`v6` and `d`. -/
structure L2Arrays where
  ipv4 : BoundedFifo Mbuf burst
  ipv6 : BoundedFifo Mbuf burst
  drop : BoundedFifo Mbuf burst

/-- Store one object; `none` is a write beyond the array. -/
def L2Arrays.store (a : L2Arrays) (m : Mbuf) : Option L2Arrays :=
  match l2Class m with
  | .ipv4 => (a.ipv4.enqueue m).map fun q => { a with ipv4 := q }
  | .ipv6 => (a.ipv6.enqueue m).map fun q => { a with ipv6 := q }
  | .drop => (a.drop.enqueue m).map fun q => { a with drop := q }

/-- The loop of `l2_node_process` over its objects. -/
def l2Split (objs : List Mbuf) : Option L2Arrays :=
  objs.foldlM L2Arrays.store ⟨.empty, .empty, .empty⟩

/-- The `if`s that end `l2_node_process`. -/
def l2Enqueue (edge : ℕ) (objs : List Mbuf) (s : State) : State :=
  if objs.length > 0 then rteNodeEnqueue .l2 edge objs s else s

/-- `l2_node_process`. -/
def l2NodeProcess (objs : List Mbuf) (s : State) : State :=
  match l2Split objs with
  | some a => l2Enqueue 2 a.drop.items <| l2Enqueue 1 a.ipv6.items <| l2Enqueue 0 a.ipv4.items s
  | none => { s with fault := true }

/-- `ipv4_node_process`. -/
def ipv4NodeProcess (objs : List Mbuf) (s : State) : State := rteNodeEnqueue .ipv4 0 objs s

/-- `ipv6_node_process`. -/
def ipv6NodeProcess (objs : List Mbuf) (s : State) : State := rteNodeEnqueue .ipv6 0 objs s

/-- `tx_node_process`, when the device accepts up to `accepts` frames. -/
def txNodeProcess (accepts : ℕ) (objs : List Mbuf) (s : State) : State :=
  { s with nic := s.nic ++ objs.take accepts, txFreed := s.txFreed ++ objs.drop accepts }

/-- `drop_node_process`. -/
def dropNodeProcess (objs : List Mbuf) (s : State) : State :=
  { s with dropFreed := s.dropFreed ++ objs }

/-! ### Walks -/

/-- A call of a node: which of its objects it gets, as the first `count` of them
in some order, and how many frames the device would accept. -/
structure Delivery where
  node : Node
  order : List Mbuf → List Mbuf
  order_perm : ∀ objs, (order objs).Perm objs
  count : ℕ
  accepts : ℕ

/-- The objects delivered. -/
def Delivery.objs (d : Delivery) (s : State) : List Mbuf :=
  (d.order (s.pending d.node)).take d.count

/-- The objects left for later calls. -/
def Delivery.rest (d : Delivery) (s : State) : List Mbuf :=
  (d.order (s.pending d.node)).drop d.count

/-- The process function of a node; the source node is not called with objects. -/
def nodeProcess (node : Node) (accepts : ℕ) (objs : List Mbuf) : State → State :=
  match node with
  | .rx => id
  | .l2 => l2NodeProcess objs
  | .ipv4 => ipv4NodeProcess objs
  | .ipv6 => ipv6NodeProcess objs
  | .tx => txNodeProcess accepts objs
  | .drop => dropNodeProcess objs

/-- One call of a node. -/
def deliver (d : Delivery) (s : State) : State :=
  nodeProcess d.node d.accepts (d.objs s)
    { s with pending := Function.update s.pending d.node (d.rest s) }

/-- The objects not yet delivered. -/
def State.inFlight (s : State) : List Mbuf := Node.all.flatMap s.pending

/-- Every object was delivered: the walk is over. -/
def State.drained (s : State) : Bool := s.inFlight.isEmpty

/-- What happens next: a walk starts with what the device delivers, or a node is
called. -/
inductive Turn where
  | walk (pkts : List Mbuf) (pkts_le : pkts.length ≤ burst)
  | call (d : Delivery)

/-- One step; a walk does not start before the last one is over. -/
def step : Turn → State → State
  | .walk pkts _, s => if s.drained then rxNodeProcess pkts s else s
  | .call d, s => deliver d s

/-- The state after a sequence of turns. -/
abbrev reached (turns : List Turn) : State := Machine.run step turns State.init

end DpdkStarter.GraphPipeline
