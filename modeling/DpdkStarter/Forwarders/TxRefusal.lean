import DpdkStarter.StaticNat.LcoreMain
import DpdkStarter.Acl.ForwardLoop
import DpdkStarter.RxDropGraph.Conservation

/-!
Three forwarders that do not look at the result of `rte_eth_tx_burst`: the loop of
`NAT/static_nat/main.c`, the loop of `ACL/l2fwd_acl/main.c` and the node `tx_node` of
`graph/rx_drop_sample/sample/main.c`.

* `forwarders_conserve_iff`: when each of them accounts for all its frames.
* `forwarders_lose_frame`: a run of each of them in which a frame is lost.
-/

namespace DpdkStarter.Forwarders

open Machine

/-- **Partial acceptance.** In each of the three programs every received frame has
been accepted by the device or freed, by the start of the next iteration or walk,
exactly when the device accepts all it is offered: every burst of the static NAT,
every frame the rule of the access-control program matches on a selected port,
and, in the graph, the objects of every call of `tx_node` up to the end of a
walk. -/
theorem forwarders_conserve_iff (rteIpv4Cksum : ByteReader UInt16) (e : Endian)
    (bursts : List StaticNat.Input) (cfg : Acl.ForwardLoop.Setup)
    (rounds : List (List Acl.ForwardLoop.Poll)) (turns : List RxDropGraph.Turn) :
    ((∀ pre, pre <+: bursts → StaticNat.Conserved rteIpv4Cksum e pre)
      ↔ ∀ inp ∈ bursts, inp.burst.length ≤ inp.accepts) ∧
    ((∀ pre, pre <+: rounds → Acl.ForwardLoop.Conserved cfg pre)
      ↔ ∀ polls ∈ rounds, ∀ p ∈ polls, cfg.selects p.port = true →
          ∀ f ∈ p.burst, cfg.forwards f.item = true → f.accepted = true) ∧
    ((∀ pre, pre <+: turns → (RxDropGraph.reached pre).drained = true →
        RxDropGraph.Settled (RxDropGraph.reached pre))
      ↔ ∀ pre, pre <+: turns → (RxDropGraph.reached pre).drained = true →
          StepsMeet RxDropGraph.step (fun turn s => ¬RxDropGraph.Refuses turn s) pre
            RxDropGraph.State.init) :=
  ⟨StaticNat.settled_iff bursts, Acl.ForwardLoop.settled_iff rounds, RxDropGraph.settled_iff turns⟩

/-- A burst of the static NAT that the device refuses. -/
def refusedBurst : StaticNat.Input := ⟨[Acl.sampleFrame], by decide, 0⟩

/-- A frame the rule of the access-control program matches, refused by the device. -/
def refusedPoll : Acl.ForwardLoop.Poll := ⟨0, [⟨Acl.sampleFrame, false⟩], by decide⟩

/-- The whole of what is enqueued to a node, with the device refusing it. -/
def refusedCall (node : RxDropGraph.Node) : RxDropGraph.Delivery :=
  ⟨node, id, List.Perm.refl, 1, 0⟩

/-- One frame of which each of the programs loses track. -/
theorem forwarders_lose_frame :
    ¬StaticNat.Conserved (pure 0) .little [refusedBurst] ∧
    ¬Acl.ForwardLoop.Conserved ⟨.little, Acl.bestMatch, 1⟩ [[refusedPoll]] ∧
    ∃ turns, (RxDropGraph.reached turns).drained = true ∧
      ¬RxDropGraph.Settled (RxDropGraph.reached turns) := by
  refine ⟨?_, ?_, [.walk [Acl.sampleFrame] (by decide), .call (refusedCall .ipv4),
    .call (refusedCall .tx)], ?_, ?_⟩
  · intro h
    have hlen := h.length_eq
    revert hlen
    decide +kernel
  · intro h
    have hlen := h.length_eq
    revert hlen
    decide +kernel
  · decide +kernel
  · intro h
    have hlen := h.length_eq
    revert hlen
    decide +kernel

end DpdkStarter.Forwarders
