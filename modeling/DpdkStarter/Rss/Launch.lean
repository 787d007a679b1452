import Mathlib.Tactic

/-!
`rss_dpdk/main.c` and `rss_dpdk/af_packet_rss/main.c`: the receive queues `main`
configures, and the lcores it launches on them.

`lcore_rx` never returns, so an lcore polls the queue it is launched on and no
other. What the environment answers to the calls of `main` is an `Env`; where
`main` calls `rte_exit`, the model returns the text.

* `launchLoop`: the loop over the worker lcores.
* `polls`: which lcore polls which queue in the end, the main lcore included.
* `Adaptive.main`, `Fixed.main`: the two programs.
-/

namespace DpdkStarter.Rss

/-- The lcores of the process: the main one, and the workers in the order of
`RTE_LCORE_FOREACH_WORKER`. -/
structure Lcores where
  main : ℕ
  workers : List ℕ
  nodup : (main :: workers).Nodup

/-- `rte_lcore_count`. -/
def Lcores.count (l : Lcores) : ℕ := l.workers.length + 1

/-- The lcores, and what the calls of `main` return. -/
structure Env where
  lcores : Lcores
  ealInit : ℤ
  nbPorts : UInt16
  /-- the pool was created -/
  mbufPool : Bool
  maxRxQueues : UInt16
  configure : ℤ
  queueSetup : UInt16 → ℤ
  start : ℤ

/-- What `main` has set up when all its loops run. -/
structure Launched where
  /-- `mq_mode` is `RTE_ETH_MQ_RX_RSS` -/
  rss : Bool
  /-- the queues that were set up -/
  configured : List UInt16
  /-- the lcores with the queues they poll -/
  polls : List (ℕ × UInt16)

/-- The queues of the setup loop. -/
def queues (n : UInt16) : List UInt16 := (List.range n.toNat).map UInt16.ofNat

/-- The launch loop from `q` on: the launched workers with their queues, and the
last `q`. -/
def launchLoop (n : UInt16) : List ℕ → UInt16 → List (ℕ × UInt16) × UInt16
  | [], q => ([], q)
  | lcore :: lcores, q =>
      if q ≥ n then ([], q)
      else
        let rest := launchLoop n lcores (q + 1)
        ((lcore, q) :: rest.1, rest.2)

/-- Which lcore polls which of `n` queues: after the launch loop the main lcore
takes the next queue, if there is one left. -/
def polls (n : UInt16) (l : Lcores) : List (ℕ × UInt16) :=
  let launched := launchLoop n l.workers 0
  launched.1 ++ if launched.2 < n then [(l.main, launched.2)] else []

namespace Adaptive

/-- `used_rx_queues`. -/
def usedRxQueues (env : Env) : UInt16 :=
  let desired : UInt16 := UInt16.ofNat (env.lcores.count - 1)
  let desired := if desired = 0 then 1 else desired
  let used := if desired < env.maxRxQueues then desired else env.maxRxQueues
  if used = 0 then 1 else used

/-- `main` of `af_packet_rss/main.c`. -/
def main (env : Env) : Except String Launched :=
  let used := usedRxQueues env
  if env.ealInit < 0 then .error "EAL init failed\n"
  else if env.nbPorts = 0 then .error "No Ethernet ports found\n"
  else if !env.mbufPool then .error "Cannot create mbuf pool\n"
  else if env.configure < 0 then .error "Port configure failed\n"
  else if (queues used).any fun q => env.queueSetup q < 0 then .error "RX queue setup failed\n"
  else if env.start < 0 then .error "Port start failed\n"
  else .ok ⟨used > 1, queues used, polls used env.lcores⟩

end Adaptive

namespace Fixed

/-- `RX_QUEUES`. -/
def rxQueues : UInt16 := 4

/-- `main` of `rss_dpdk/main.c`. -/
def main (env : Env) : Except String Launched :=
  if env.ealInit < 0 then .error "EAL init failed\n"
  else if env.nbPorts = 0 then .error "No ports found\n"
  else if !env.mbufPool then .error "Cannot create mbuf pool\n"
  else if env.configure < 0 then .error "Port configure failed\n"
  else if (queues rxQueues).any fun q => env.queueSetup q < 0 then
    .error "RX queue setup failed\n"
  else if env.start < 0 then .error "Port start failed\n"
  else .ok ⟨true, queues rxQueues, polls rxQueues env.lcores⟩

end Fixed

end DpdkStarter.Rss
