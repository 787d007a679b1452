import DpdkStarter.Library.Run
import DpdkStarter.Library.BoundedFifo

/-!
`thread_parsing/threaded_project` and `nic_stats/sample`: the three threads
`rx_loop`, `parser_loop` and `tx_loop`, joined by two rings.

Each loop is cut into its accesses to shared memory, one a step: the test of
`force_quit`, the update of a counter, one ring operation, one call of the
device. A run is a list of `Turn`s, each naming the thread that moves and what
the device answers it, so that every list of turns is one interleaving.

* `RxPc`, `ParserPc`, `TxPc`: where each thread stands, with the packets it
  holds in its local array.
* `State`: the shared data; `received`, `txTaken`, `nic`, `txFreed`,
  `parserFreed` and `refused` record what happened to the packets and are read
  by no thread.
* `rxLoop`, `parserLoop`, `txLoop`: one step of each thread.
-/

namespace DpdkStarter.ThreadedPipeline

/-- `BURST_SIZE`. -/
def burstSize : ℕ := 32

/-- `RX_RING_SIZE` and `TX_RING_SIZE`. -/
def ringSize : ℕ := 1024

/-- The packets at which `rx_loop` stops. -/
def rxLimit : ℕ := 10

/-- A ring created with `ringSize`: one slot stays unused. -/
abbrev PktRing (α : Type*) := BoundedFifo α (ringSize - 1)

/-- What `rte_eth_rx_burst` can return when asked for `BURST_SIZE` packets. -/
abbrev Burst (α : Type*) := {pkts : List α // pkts.length ≤ burstSize}

/-- The two programs. The parser loop of `threaded_project` calls `parse_packet`
on each packet, that of `nic_stats` does not; the loops are otherwise the same. -/
inductive Variant where
  | threadedProject | nicStats
  deriving DecidableEq, Repr

/-- Where `rx_loop` stands: before `rx_count = 0`, at the loop test, before
`rte_eth_rx_burst`, before `rx_count += n`, in the enqueue loop with the packets
still to enqueue, at the test of the limit, before `force_quit = 1`, returned. -/
inductive RxPc (α : Type*) where
  | start | head | burst
  | count (pkts : List α)
  | enqueue (rest : List α)
  | limit | quit | done
  deriving DecidableEq, Repr

/-- Where `parser_loop` stands: before `parser_count = 0`, at the loop test,
before the dequeue, before `parse_packet(pkts[i])`, before `parser_count += n`,
before the enqueue, in the loop that frees what was not enqueued, returned. -/
inductive ParserPc (α : Type*) where
  | start | head | dequeue
  | parse (i : ℕ) (pkts : List α)
  | count (pkts : List α)
  | enqueue (pkts : List α)
  | free (rest : List α)
  | done
  deriving DecidableEq, Repr

/-- Where `tx_loop` stands: before `tx_count = 0`, at the loop test, before the
dequeue, before `tx_count += n`, before `rte_eth_tx_burst`, in the loop that
frees what was not sent, returned. -/
inductive TxPc (α : Type*) where
  | start | head | dequeue
  | count (pkts : List α)
  | send (pkts : List α)
  | free (rest : List α)
  | done
  deriving DecidableEq, Repr

variable {α : Type*}

/-- The packets in the local array of `rx_loop` not yet given to the ring. -/
def RxPc.held : RxPc α → List α
  | .count pkts | .enqueue pkts => pkts
  | _ => []

/-- The packets in the local array of `parser_loop`. -/
def ParserPc.held : ParserPc α → List α
  | .parse _ pkts | .count pkts | .enqueue pkts | .free pkts => pkts
  | _ => []

/-- The packets in the local array of `tx_loop`. -/
def TxPc.held : TxPc α → List α
  | .count pkts | .send pkts | .free pkts => pkts
  | _ => []

/-- Where `rx_loop` goes with a burst: an empty one is not counted. -/
def RxPc.ofBurst (pkts : List α) : RxPc α := if pkts.length > 0 then .count pkts else .limit

/-- Where `parser_loop` goes with a burst: an empty one ends the iteration. -/
def ParserPc.ofBurst (v : Variant) (pkts : List α) : ParserPc α :=
  if pkts.length > 0 then
    match v with
    | .threadedProject => .parse 0 pkts
    | .nicStats => .count pkts
  else .head

/-- Where `tx_loop` goes with a burst: an empty one ends the iteration. -/
def TxPc.ofBurst (pkts : List α) : TxPc α := if pkts.length > 0 then .count pkts else .head

/-- The globals of `main.c`, the three threads and the record of the packets. -/
structure State (α : Type*) where
  forceQuit : Bool
  rxCount : ℕ
  parserCount : ℕ
  txCount : ℕ
  ringRxToParse : PktRing α
  ringParseToTx : PktRing α
  rx : RxPc α
  parser : ParserPc α
  tx : TxPc α
  /-- returned by `rte_eth_rx_burst`, in order -/
  received : List α
  /-- dequeued by `tx_loop`, in order -/
  txTaken : List α
  /-- accepted by `rte_eth_tx_burst` -/
  nic : List α
  /-- freed by `tx_loop` -/
  txFreed : List α
  /-- freed by `parser_loop` -/
  parserFreed : List α
  /-- refused by a full ring -/
  refused : List α

/-- The state in which `main` launches the threads. -/
def State.init : State α where
  forceQuit := false
  rxCount := 0
  parserCount := 0
  txCount := 0
  ringRxToParse := .empty
  ringParseToTx := .empty
  rx := .start
  parser := .start
  tx := .start
  received := []
  txTaken := []
  nic := []
  txFreed := []
  parserFreed := []
  refused := []

/-- One step of `rx_loop`; `b` is what the device returns if the step asks it. -/
def rxLoop (b : Burst α) (s : State α) : State α :=
  match s.rx with
  | .start => { s with rxCount := 0, rx := .head }
  | .head => if s.forceQuit then { s with rx := .done } else { s with rx := .burst }
  | .burst => { s with received := s.received ++ b.1, rx := .ofBurst b.1 }
  | .count pkts => { s with rxCount := s.rxCount + pkts.length, rx := .enqueue pkts }
  | .enqueue [] => { s with rx := .limit }
  | .enqueue (p :: rest) =>
      -- the result of `rte_ring_enqueue` is not looked at
      match s.ringRxToParse.enqueue p with
      | some ring => { s with ringRxToParse := ring, rx := .enqueue rest }
      | none => { s with refused := s.refused ++ [p], rx := .enqueue rest }
  | .limit => if s.rxCount ≥ rxLimit then { s with rx := .quit } else { s with rx := .head }
  | .quit => { s with forceQuit := true, rx := .done }
  | .done => s

/-- One step of `parser_loop`. `parse_packet` prints and leaves the packet and
the shared data alone. -/
def parserLoop (v : Variant) (s : State α) : State α :=
  match s.parser with
  | .start => { s with parserCount := 0, parser := .head }
  | .head => if s.forceQuit then { s with parser := .done } else { s with parser := .dequeue }
  | .dequeue =>
      let (pkts, ring) := s.ringRxToParse.dequeueBurst burstSize
      { s with ringRxToParse := ring, parser := .ofBurst v pkts }
  | .parse i pkts =>
      { s with parser := if i + 1 < pkts.length then .parse (i + 1) pkts else .count pkts }
  | .count pkts =>
      { s with parserCount := s.parserCount + pkts.length, parser := .enqueue pkts }
  | .enqueue pkts =>
      let m := s.ringParseToTx.accepts pkts.length
      { s with
        ringParseToTx := s.ringParseToTx.enqueueBurst pkts
        refused := s.refused ++ pkts.drop m
        parser := if m < pkts.length then .free (pkts.drop m) else .head }
  | .free [] => { s with parser := .head }
  | .free (p :: rest) => { s with parserFreed := s.parserFreed ++ [p], parser := .free rest }
  | .done => s

/-- One step of `tx_loop`; `accepted` is how many packets the device takes if
the step offers it some, at most all of them. -/
def txLoop (accepted : ℕ) (s : State α) : State α :=
  match s.tx with
  | .start => { s with txCount := 0, tx := .head }
  | .head => if s.forceQuit then { s with tx := .done } else { s with tx := .dequeue }
  | .dequeue =>
      let (pkts, ring) := s.ringParseToTx.dequeueBurst burstSize
      { s with ringParseToTx := ring, txTaken := s.txTaken ++ pkts, tx := .ofBurst pkts }
  | .count pkts => { s with txCount := s.txCount + pkts.length, tx := .send pkts }
  | .send pkts =>
      let sent := min accepted pkts.length
      { s with nic := s.nic ++ pkts.take sent, tx := .free (pkts.drop sent) }
  | .free [] => { s with tx := .head }
  | .free (p :: rest) => { s with txFreed := s.txFreed ++ [p], tx := .free rest }
  | .done => s

/-- Which thread moves, and what the device answers it. -/
inductive Turn (α : Type*) where
  | rx (burst : Burst α)
  | parser
  | tx (accepted : ℕ)

/-- One step of the pipeline. -/
def step (v : Variant) : Turn α → State α → State α
  | .rx b, s => rxLoop b s
  | .parser, s => parserLoop v s
  | .tx accepted, s => txLoop accepted s

/-- The state after a sequence of turns. -/
abbrev reached (v : Variant) (turns : List (Turn α)) : State α :=
  Machine.run (step v) turns State.init

end DpdkStarter.ThreadedPipeline
