import DpdkStarter.Library.Ledger
import DpdkStarter.Packet.Mbuf

/-!
`longest_prefix_match_lpm/simple/main.c`: `main_loop`.

One iteration is a function of the burst it receives and of the answers of the
device to the transmissions, which are made one frame at a time. The lookup in
the table is up to the reader: it decides what is printed and nothing else.

* `forward`: the body of the loop over the burst. A frame that is not IPv4 is
  skipped, and the result of `rte_eth_tx_burst` is not looked at.
* `iterate`: one iteration.
* `router_conserves_iff`: the frames are conserved in a run exactly when all of
  them are IPv4 and are accepted by the device.
-/

namespace DpdkStarter.LpmRouter

open Machine Ledger

/-- `BURST_SIZE`. -/
def burstSize : ℕ := 32

/-- The lines `main_loop` prints. -/
inductive Line where
  | notIpv4
  | nextHop (dst hop : UInt32)
  | noRoute (dst : UInt32)
  deriving DecidableEq, Repr

/-- A received frame, and whether the device accepts it when it is offered. -/
abbrev Frame := Offer Mbuf

/-- The burst of one iteration. -/
structure Input where
  burst : List Frame
  burst_le : burst.length ≤ burstSize

/-- What was printed, and the frames the device accepted or that were freed. -/
structure State where
  printed : List Line
  nic : List Mbuf
  freed : List Mbuf

/-- The state in which the loop is entered. -/
def State.init : State := ⟨[], [], []⟩

/-- `rte_eth_tx_burst` of one frame. -/
def State.txBurst (s : State) (f : Frame) : State :=
  if f.accepted then { s with nic := s.nic ++ [f.item] } else s

/-- The body of the loop over the burst, with the lookup in `lpm_table`. -/
def forward (lookup : UInt32 → Option UInt32) (f : Frame) (s : State) : State :=
  if isIpv4 f.item then
    let dst := (ByteReader.be32 (sizeofEtherHdr + 16)).eval f.item.data
    let line := match lookup dst with
      | some hop => Line.nextHop dst hop
      | none => Line.noRoute dst
    { s with printed := s.printed ++ [line] }.txBurst f
  else { s with printed := s.printed ++ [.notIpv4] }

/-- One iteration. -/
def iterate (lookup : UInt32 → Option UInt32) (inp : Input) (s : State) : State :=
  run (forward lookup) inp.burst s

/-- The state after a sequence of iterations. -/
abbrev reached (lookup : UInt32 → Option UInt32) (inputs : List Input) : State :=
  run (iterate lookup) inputs State.init

/-- The frames received in a run, in order. -/
def received (inputs : List Input) : List Mbuf :=
  inputs.flatMap fun inp => inp.burst.map Offer.item

/-! ### Ownership -/

variable {lookup : UInt32 → Option UInt32}

/-- The frames that are accepted or freed. -/
def State.books (s : State) : List Mbuf := s.nic ++ s.freed

/-- The frame is offered to the device and accepted. -/
def Passes (f : Frame) : Prop := isIpv4 f.item = true ∧ f.accepted = true

instance : DecidablePred Passes := fun _ => inferInstanceAs (Decidable (_ ∧ _))

/-- The body of the loop settles the frame or loses it; what was printed of it
makes no difference. -/
lemma books_forward (f : Frame) (s : State) :
    (forward lookup f s).books.Perm (s.books ++ f.settled Passes) := by
  by_cases hip : isIpv4 f.item = true
  · by_cases hacc : f.accepted = true
    · have hpass : Passes f := ⟨hip, hacc⟩
      simp only [forward, hip, State.txBurst, hacc, if_true, Offer.settled, hpass, State.books]
      simp only [List.append_assoc]
      exact List.perm_append_comm.append_left s.nic
    · have hpass : ¬Passes f := fun h => hacc h.2
      simp [forward, hip, State.txBurst, hacc, Offer.settled, hpass, State.books]
  · have hpass : ¬Passes f := fun h => hip h.1
    simp [forward, hip, Offer.settled, hpass, State.books]

/-- Every frame received so far was accepted by the device or freed, once. -/
def Conserved (lookup : UInt32 → Option UInt32) (inputs : List Input) : Prop :=
  (received inputs).Perm ((reached lookup inputs).nic ++ (reached lookup inputs).freed)

/-- **Packet ownership in the router.** Every frame is accounted for after each
iteration if and only if every frame of every burst is an IPv4 frame that the
device accepts, whether or not there is a route for it. -/
theorem router_conserves_iff (lookup : UInt32 → Option UInt32) (inputs : List Input) :
    (∀ pre, pre <+: inputs → Conserved lookup pre)
      ↔ ∀ inp ∈ inputs, ∀ f ∈ inp.burst, isIpv4 f.item = true ∧ f.accepted = true := by
  have hsplit : ∀ inp : Input, (inp.burst.map Offer.item).Perm
      (inp.burst.flatMap (Offer.settled Passes) ++ inp.burst.flatMap (Offer.lost Passes)) := by
    intro inp
    rw [List.map_eq_flatMap]
    exact perm_settled_lost Offer.perm_settled_lost inp.burst
  have hstep : ∀ (inp : Input) s, (iterate lookup inp s).books.Perm
      (s.books ++ inp.burst.flatMap (Offer.settled Passes)) :=
    fun inp s => books_run books_forward _ s
  refine (books_match_iff hsplit hstep rfl inputs).trans ?_
  simp only [List.flatMap_eq_nil_iff, Offer.lost_eq_nil]
  rfl

/-- A burst of one frame of 60 bytes and ethertype 0, which the device would
accept. -/
def skipped : Input := ⟨[⟨⟨0, 60, fun _ => 0⟩, true⟩], by decide⟩

/-- A frame that is not IPv4 is lost. -/
theorem router_loses_frame : ¬∀ inputs, Conserved (fun _ => none) inputs := by
  intro h
  have hlen := (h [skipped]).length_eq
  revert hlen
  decide +kernel

end DpdkStarter.LpmRouter
