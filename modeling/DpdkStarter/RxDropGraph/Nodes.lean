import DpdkStarter.Library.Run
import DpdkStarter.Packet.Mbuf

/-!
`graph/rx_drop_sample/sample/main.c`: the nodes of the graph and its walks.

As for the packet pipeline, `rte_graph` is modelled by what a walk does: the
source node runs once, and then every node is called with objects that were
enqueued to it, in any portions and any order, until none is left; only then does
the next walk start.

* `rxNodeProcess`, `ipv4NodeProcess`, `txNodeProcess`, `dropNodeProcess`: the
  nodes. `tx_node_process` does not look at the result of `rte_eth_tx_burst`.
* `step`: the start of a walk, or one call of a node.
-/

namespace DpdkStarter.RxDropGraph

open Machine

/-- `BURST_SIZE`, which is `RTE_GRAPH_BURST_SIZE`. -/
def burstSize : ℕ := 256

/-- The registered nodes. -/
inductive Node where
  | rx | ipv4 | tx | drop
  deriving DecidableEq, Repr

/-- The nodes in the order of the graph. -/
def Node.all : List Node := [.rx, .ipv4, .tx, .drop]

/-- The `next_nodes` of a node, by edge. -/
def Node.nextNodes : Node → List Node
  | .rx => [.ipv4]
  | .ipv4 => [.tx, .drop]
  | .tx => []
  | .drop => []

/-- The objects enqueued to each node and not yet delivered, what was printed, and
the record of the frames: received, accepted by the device, freed. -/
structure State where
  pending : Node → List Mbuf
  /-- the counts `ipv4_node_process` printed -/
  printed : List ℕ
  received : List Mbuf
  nic : List Mbuf
  freed : List Mbuf

/-- The graph before the first walk. -/
def State.init : State := ⟨fun _ => [], [], [], [], []⟩

/-- Append objects to those of a node. -/
def State.put (node : Node) (objs : List Mbuf) (s : State) : State :=
  { s with pending := Function.update s.pending node (s.pending node ++ objs) }

/-- `rte_node_enqueue`; the nodes use no edge they do not have. -/
def rteNodeEnqueue (node : Node) (edge : ℕ) (objs : List Mbuf) (s : State) : State :=
  match node.nextNodes[edge]? with
  | some next => s.put next objs
  | none => s

/-! ### The nodes -/

/-- `rx_node_process`, when the device delivers `pkts`. -/
def rxNodeProcess (pkts : List Mbuf) (s : State) : State :=
  let s := { s with received := s.received ++ pkts }
  if pkts.length > 0 then rteNodeEnqueue .rx 0 pkts s else s

/-- The body of the loop of `ipv4_node_process`. -/
def ipv4Enqueue (s : State) (pkt : Mbuf) : State :=
  if isIpv4 pkt then rteNodeEnqueue .ipv4 0 [pkt] s else rteNodeEnqueue .ipv4 1 [pkt] s

/-- `ipv4_node_process`. -/
def ipv4NodeProcess (objs : List Mbuf) (s : State) : State :=
  objs.foldl ipv4Enqueue { s with printed := s.printed ++ [objs.length] }

/-- `tx_node_process`, when the device accepts up to `accepts` frames. -/
def txNodeProcess (accepts : ℕ) (objs : List Mbuf) (s : State) : State :=
  { s with nic := s.nic ++ objs.take accepts }

/-- `drop_node_process`. -/
def dropNodeProcess (objs : List Mbuf) (s : State) : State := { s with freed := s.freed ++ objs }

/-! ### Walks -/

/-- A call of a node: which of its objects it gets, as the first `count` of them
in some order, and how many frames the device would accept. -/
structure Delivery where
  node : Node
  order : List Mbuf → List Mbuf
  order_perm : ∀ objs, (order objs).Perm objs
  count : ℕ
  accepts : ℕ

/-- The objects delivered. -/
def Delivery.objs (d : Delivery) (s : State) : List Mbuf :=
  (d.order (s.pending d.node)).take d.count

/-- The objects left for later calls. -/
def Delivery.rest (d : Delivery) (s : State) : List Mbuf :=
  (d.order (s.pending d.node)).drop d.count

/-- The process function of a node; the source node is not called with objects. -/
def nodeProcess (node : Node) (accepts : ℕ) (objs : List Mbuf) : State → State :=
  match node with
  | .rx => id
  | .ipv4 => ipv4NodeProcess objs
  | .tx => txNodeProcess accepts objs
  | .drop => dropNodeProcess objs

/-- One call of a node. -/
def deliver (d : Delivery) (s : State) : State :=
  if d.node = .rx then s
  else nodeProcess d.node d.accepts (d.objs s)
    { s with pending := Function.update s.pending d.node (d.rest s) }

/-- The objects not yet delivered. -/
def State.inFlight (s : State) : List Mbuf := Node.all.flatMap s.pending

/-- Every object was delivered: the walk is over. -/
def State.drained (s : State) : Bool := s.inFlight.isEmpty

/-- What happens next: a walk starts with what the device delivers, or a node is
called. -/
inductive Turn where
  | walk (pkts : List Mbuf) (pkts_le : pkts.length ≤ burstSize)
  | call (d : Delivery)

/-- One step; a walk does not start before the last one is over. -/
def step : Turn → State → State
  | .walk pkts _, s => if s.drained then rxNodeProcess pkts s else s
  | .call d, s => deliver d s

/-- The state after a sequence of turns. -/
abbrev reached (turns : List Turn) : State := run step turns State.init

end DpdkStarter.RxDropGraph
