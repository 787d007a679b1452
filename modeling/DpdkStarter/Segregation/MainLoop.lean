import DpdkStarter.Library.Run
import DpdkStarter.Library.BoundedFifo
import DpdkStarter.Segregation.Classify

/-!
`control_data_segregation/main.c`: the main loop.

One iteration is a function of what the device answers in it: the burst it
delivers and how many frames it accepts in each of the two calls of
`rte_eth_tx_burst`. The loop never ends, so a run is a list of iterations and
the state after it is that at a loop head.

* `segregate`: the body of the `for` loop over the burst.
* `drainControl`, `drainData`: the two drains. The number of frames accepted by
  `rte_eth_tx_burst` is not looked at.
* `iterate`: one iteration.
-/

namespace DpdkStarter.Segregation

/-- `BURST_SIZE`. -/
def burstSize : ℕ := 32

/-- `RING_SIZE`. -/
def ringSize : ℕ := 2048

/-- A ring created with `RING_SIZE`: one slot stays unused. -/
abbrev PktRing := BoundedFifo Mbuf (ringSize - 1)

/-- What the device answers in one iteration: the burst, and the number of
frames it accepts of those offered in each drain, if it is offered so many. -/
structure Input where
  burst : List Mbuf
  burst_le : burst.length ≤ burstSize
  acceptsControl : ℕ
  acceptsData : ℕ

/-- A call of the device: a burst received, frames offered for transmission. -/
inductive Call where
  | rx (pkts : List Mbuf)
  | tx (pkts : List Mbuf)

/-- The rings and counters of the program, the calls it made and the record of
the frames: those the device accepted and those given to `rte_pktmbuf_free`. -/
structure State where
  controlRing : PktRing
  dataRing : PktRing
  controlCount : UInt64
  dataCount : UInt64
  calls : List Call
  nic : List Mbuf
  freed : List Mbuf

/-- The state in which the loop is entered. -/
def State.init : State := ⟨.empty, .empty, 0, 0, [], [], []⟩

/-- The body of the loop over the burst: one frame goes into its ring, and is
freed when that is full. -/
def segregate (s : State) (m : Mbuf) : State :=
  if isControl m then
    match s.controlRing.enqueue m with
    | some ring => { s with controlRing := ring, controlCount := s.controlCount + 1 }
    | none => { s with freed := s.freed ++ [m] }
  else
    match s.dataRing.enqueue m with
    | some ring => { s with dataRing := ring, dataCount := s.dataCount + 1 }
    | none => { s with freed := s.freed ++ [m] }

/-- `rte_eth_rx_burst`. -/
def State.rxBurst (s : State) (pkts : List Mbuf) : State :=
  { s with calls := s.calls ++ [.rx pkts] }

/-- `rte_eth_tx_burst`, of which the device accepts up to `accepts` frames; made
only when there is something to send. -/
def State.txBurst (s : State) (accepts : ℕ) (out : List Mbuf) : State :=
  if out.length > 0 then
    { s with calls := s.calls ++ [.tx out], nic := s.nic ++ out.take accepts }
  else s

/-- Drain the control ring. -/
def drainControl (accepts : ℕ) (s : State) : State :=
  let (out, ring) := s.controlRing.dequeueBurst burstSize
  { s with controlRing := ring }.txBurst accepts out

/-- Drain the data ring. -/
def drainData (accepts : ℕ) (s : State) : State :=
  let (out, ring) := s.dataRing.dequeueBurst burstSize
  { s with dataRing := ring }.txBurst accepts out

/-- One iteration of the loop. -/
def iterate (inp : Input) (s : State) : State :=
  drainData inp.acceptsData <| drainControl inp.acceptsControl <|
    inp.burst.foldl segregate (s.rxBurst inp.burst)

/-- The state at the loop head after a sequence of iterations. -/
abbrev reached (inputs : List Input) : State := Machine.run iterate inputs State.init

/-- The frames received in a run, in order. -/
def received (inputs : List Input) : List Mbuf := inputs.flatMap Input.burst

end DpdkStarter.Segregation
