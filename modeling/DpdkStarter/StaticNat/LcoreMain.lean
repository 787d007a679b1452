import DpdkStarter.Library.Ledger
import DpdkStarter.StaticNat.SimulateNat

/-!
`NAT/static_nat/main.c`: `lcore_main`.

The frames are translated in place and transmitted in one call, so a frame keeps
the address of its packet buffer, by which it is counted here.

* `iterate`: one iteration, a function of the burst and of how many frames the
  device accepts. The result of `rte_eth_tx_burst` is not looked at.
* `settled_iff`: the packet buffers are conserved in a run exactly when the device
  accepts every burst.
-/

namespace DpdkStarter.StaticNat

open Machine Ledger

/-- `BURST_SIZE`. -/
def burstSize : ℕ := 32

/-- The burst of one iteration, and how many frames the device accepts, if it is
offered so many. -/
structure Input where
  burst : List Mbuf
  burst_le : burst.length ≤ burstSize
  accepts : ℕ

/-- What was printed, and the frames the device accepted or that were freed. -/
structure State where
  printed : List Line
  nic : List Mbuf
  freed : List Mbuf

/-- The state in which the loop is entered. -/
def State.init : State := ⟨[], [], []⟩

/-- `rte_eth_tx_burst`, of which the device accepts up to `accepts` frames. -/
def State.txBurst (s : State) (accepts : ℕ) (bufs : List Mbuf) : State :=
  { s with nic := s.nic ++ bufs.take accepts }

/-- One iteration; without frames it goes on to the next one. -/
def iterate (rteIpv4Cksum : ByteReader UInt16) (e : Endian) (inp : Input) (s : State) : State :=
  if inp.burst.length = 0 then s
  else
    let done := inp.burst.map (simulateNat rteIpv4Cksum e)
    let s := { s with printed := s.printed ++ done.flatMap Prod.fst }
    s.txBurst inp.accepts (done.map Prod.snd)

/-- The state after a sequence of iterations. -/
abbrev reached (rteIpv4Cksum : ByteReader UInt16) (e : Endian) (inputs : List Input) : State :=
  run (iterate rteIpv4Cksum e) inputs State.init

/-! ### Ownership -/

variable {rteIpv4Cksum : ByteReader UInt16} {e : Endian}

/-- The packet buffers received in a run, in order. -/
def received (inputs : List Input) : List ℕ := inputs.flatMap fun inp => inp.burst.map Mbuf.addr

/-- The packet buffers the device accepted or that were freed. -/
def State.settled (s : State) : List ℕ := (s.nic ++ s.freed).map Mbuf.addr

/-- Every packet buffer received so far was accepted by the device or freed, once. -/
def Conserved (rteIpv4Cksum : ByteReader UInt16) (e : Endian) (inputs : List Input) : Prop :=
  (received inputs).Perm (reached rteIpv4Cksum e inputs).settled

/-- The device accepts all the frames of the burst. -/
def Input.AcceptsAll (inp : Input) : Prop := inp.burst.length ≤ inp.accepts

/-- The packet buffers accepted of a burst. -/
def Input.accepted (inp : Input) : List ℕ := (inp.burst.map Mbuf.addr).take inp.accepts

/-- The packet buffers refused of a burst. -/
def Input.refused (inp : Input) : List ℕ := (inp.burst.map Mbuf.addr).drop inp.accepts

lemma Input.refused_eq_nil {inp : Input} : inp.refused = [] ↔ inp.AcceptsAll := by
  rw [refused, List.drop_eq_nil_iff, List.length_map, AcceptsAll]

/-- Translation keeps the packet buffer. -/
lemma addr_simulateNat (m : Mbuf) : (simulateNat rteIpv4Cksum e m).2.addr = m.addr := rfl

/-- An iteration settles what the device accepts. -/
lemma settled_iterate (inp : Input) (s : State) :
    (iterate rteIpv4Cksum e inp s).settled.Perm (s.settled ++ inp.accepted) := by
  rw [iterate]
  split
  · rename_i hnone
    rw [Input.accepted, List.eq_nil_of_length_eq_zero hnone]
    simp
  · have haddr : (((inp.burst.map (simulateNat rteIpv4Cksum e)).map Prod.snd).take
        inp.accepts).map Mbuf.addr = inp.accepted := by
      rw [List.map_take, List.map_map, List.map_map, Input.accepted]
      exact congrArg _ (List.map_congr_left fun m _ => addr_simulateNat m)
    simp only [State.settled, State.txBurst, List.map_append, haddr]
    rw [List.append_assoc, List.append_assoc]
    exact List.perm_append_comm.append_left _

/-- **Packet ownership in the static NAT.** Every packet buffer is accounted for
after each iteration exactly when the device accepts every burst. -/
lemma settled_iff (inputs : List Input) :
    (∀ pre, pre <+: inputs → Conserved rteIpv4Cksum e pre) ↔ ∀ inp ∈ inputs, inp.AcceptsAll := by
  have hsplit : ∀ inp : Input, (inp.burst.map Mbuf.addr).Perm (inp.accepted ++ inp.refused) := by
    intro inp
    rw [Input.accepted, Input.refused, List.take_append_drop]
  refine (books_match_iff hsplit settled_iterate rfl inputs).trans ?_
  simp only [Input.refused_eq_nil]

end DpdkStarter.StaticNat
