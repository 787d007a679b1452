import DpdkStarter.Library.Ledger
import DpdkStarter.Acl.Verdict

/-!
`ACL/l2fwd_acl/main.c`: the forwarding loop of `main`.

One iteration polls the ports the mask selects. The frames of a burst are
classified and transmitted one at a time; what the rule does not match, and what
is not IPv4, is freed.

* `forward`: the body of the loop over a burst. The result of `rte_eth_tx_burst`
  is not looked at.
* `iterate`: one iteration over the ports.
* `settled_iff`: the frames are conserved in a run exactly when the device accepts
  every frame that is to be forwarded.
-/

namespace DpdkStarter.Acl.ForwardLoop

open Machine Ledger

/-- `BURST`. -/
def burstSize : ℕ := 32

/-- A received frame, and whether the device accepts it when it is offered. -/
abbrev Frame := Offer Mbuf

/-- A port, and the burst it delivers when it is polled. -/
structure Poll where
  port : UInt16
  burst : List Frame
  burst_le : burst.length ≤ burstSize

/-- The frames the device accepted and those that were freed. -/
structure State where
  nic : List Mbuf
  freed : List Mbuf

/-- The state in which the loop is entered. -/
def State.init : State := ⟨[], []⟩

/-- What the program is started with: the host, the classifier and the mask of
ports. -/
structure Setup where
  endian : Endian
  classify : AclCtx numFields → List UInt8 → UInt32
  portmask : UInt32

variable (cfg : Setup)

/-- The port is in the mask. -/
def Setup.selects (port : UInt16) : Bool := cfg.portmask &&& (1 <<< port.toUInt32) != 0

/-- The frame is to be forwarded. -/
def Setup.forwards (m : Mbuf) : Bool := L2fwd.forwards cfg.classify cfg.endian m

/-- The body of the loop over a burst. -/
def forward (f : Frame) (s : State) : State :=
  if cfg.forwards f.item then
    if f.accepted then { s with nic := s.nic ++ [f.item] } else s
  else { s with freed := s.freed ++ [f.item] }

/-- The body of the loop over the ports. -/
def poll (p : Poll) (s : State) : State :=
  if cfg.selects p.port then run (forward cfg) p.burst s else s

/-- One iteration. -/
def iterate (polls : List Poll) (s : State) : State := run (poll cfg) polls s

/-- The state after a sequence of iterations. -/
abbrev reached (inputs : List (List Poll)) : State := run (iterate cfg) inputs State.init

/-! ### Ownership -/

variable {cfg}

/-- The frames a poll receives. -/
def Poll.received (cfg : Setup) (p : Poll) : List Mbuf :=
  if cfg.selects p.port then p.burst.map Offer.item else []

/-- The frames received in a run, in order. -/
def received (cfg : Setup) (inputs : List (List Poll)) : List Mbuf :=
  inputs.flatMap fun polls => polls.flatMap (Poll.received cfg)

/-- The frames the device accepted or that were freed. -/
def State.settled (s : State) : List Mbuf := s.nic ++ s.freed

/-- Every frame received so far was accepted by the device or freed, once. -/
def Conserved (cfg : Setup) (inputs : List (List Poll)) : Prop :=
  (received cfg inputs).Perm (reached cfg inputs).settled

/-- The frame is forwarded to a device that accepts it, or it is freed. -/
def Passes (cfg : Setup) (f : Frame) : Prop := cfg.forwards f.item = true → f.accepted = true

instance (cfg : Setup) : DecidablePred (Passes cfg) :=
  fun _ => inferInstanceAs (Decidable (_ → _))

/-- The body of the loop settles the frame or loses it. -/
lemma settled_forward (f : Frame) (s : State) :
    (forward cfg f s).settled.Perm (s.settled ++ f.settled (Passes cfg)) := by
  rw [forward]
  by_cases hfwd : cfg.forwards f.item = true
  · by_cases hacc : f.accepted = true
    · have hpass : Passes cfg f := fun _ => hacc
      simp only [hfwd, hacc, if_true, Offer.settled, hpass, State.settled, List.append_assoc]
      exact List.perm_append_comm.append_left s.nic
    · have hpass : ¬Passes cfg f := fun h => hacc (h hfwd)
      simp [hfwd, hacc, Offer.settled, hpass]
  · have hpass : Passes cfg f := fun h => absurd h hfwd
    simp [hfwd, Offer.settled, hpass, State.settled]

/-- The poll of a selected port settles and loses what its frames say. -/
def Poll.settled (cfg : Setup) (p : Poll) : List Mbuf :=
  if cfg.selects p.port then p.burst.flatMap (Offer.settled (Passes cfg)) else []

/-- What is lost of a burst. -/
def Poll.lost (cfg : Setup) (p : Poll) : List Mbuf :=
  if cfg.selects p.port then p.burst.flatMap (Offer.lost (Passes cfg)) else []

lemma Poll.perm_settled_lost (p : Poll) :
    (p.received cfg).Perm (p.settled cfg ++ p.lost cfg) := by
  by_cases hsel : cfg.selects p.port = true
  · simp only [received, settled, lost, hsel, if_true, List.map_eq_flatMap]
    exact Ledger.perm_settled_lost Offer.perm_settled_lost p.burst
  · simp [received, settled, lost, hsel]

/-- So does the body of the loop over the ports. -/
lemma settled_poll (p : Poll) (s : State) :
    (poll cfg p s).settled.Perm (s.settled ++ p.settled cfg) := by
  rw [poll]
  by_cases hsel : cfg.selects p.port = true
  · simp only [hsel, if_true, Poll.settled]
    exact books_run settled_forward p.burst s
  · simp [hsel, Poll.settled]

/-- **Packet ownership in the forwarder.** Every frame is accounted for after each
iteration exactly when the device accepts every frame that is to be forwarded. -/
lemma settled_iff (inputs : List (List Poll)) :
    (∀ pre, pre <+: inputs → Conserved cfg pre)
      ↔ ∀ polls ∈ inputs, ∀ p ∈ polls, cfg.selects p.port = true →
          ∀ f ∈ p.burst, cfg.forwards f.item = true → f.accepted = true := by
  have hsplit : ∀ polls : List Poll, (polls.flatMap (Poll.received cfg)).Perm
      (polls.flatMap (Poll.settled cfg) ++ polls.flatMap (Poll.lost cfg)) :=
    fun polls => Ledger.perm_settled_lost Poll.perm_settled_lost polls
  have hstep : ∀ polls s, (iterate cfg polls s).settled.Perm
      (s.settled ++ polls.flatMap (Poll.settled cfg)) :=
    fun polls s => books_run settled_poll polls s
  have hlost : ∀ p : Poll, p.lost cfg = []
      ↔ (cfg.selects p.port = true → ∀ f ∈ p.burst, Passes cfg f) := by
    intro p
    by_cases hsel : cfg.selects p.port = true
    · simp [Poll.lost, hsel, List.flatMap_eq_nil_iff, Offer.lost_eq_nil]
    · simp [Poll.lost, hsel]
  refine (books_match_iff hsplit hstep rfl inputs).trans ?_
  simp only [List.flatMap_eq_nil_iff, hlost]
  rfl

end DpdkStarter.Acl.ForwardLoop
