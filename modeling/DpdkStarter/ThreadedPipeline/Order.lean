import DpdkStarter.ThreadedPipeline.Invariant

/-!
The pipeline does not reorder packets.

The rings are first in, first out, and each has one thread at either end; what is left
to see is the last stage, where `tx_loop` offers a burst to the device, which takes a
front part of it, and frees the rest.

* `TxPc.unsent`: the packets `tx_loop` has still to offer.
* `TxOrder`: what was sent and what was freed are, each in order, among the packets
  taken from the second ring.
* `pipeline_order`: the device gets the packets in the order of their arrival.
-/

namespace DpdkStarter.ThreadedPipeline

variable {α : Type*}

/-- The packets `tx_loop` holds and has not offered to the device. -/
def TxPc.unsent : TxPc α → List α
  | .count pkts | .send pkts => pkts
  | _ => []

@[simp] lemma TxPc.unsent_ofBurst (pkts : List α) : (TxPc.ofBurst pkts).unsent = pkts := by
  cases pkts <;> rfl

/-- The order of the packets behind the second ring. -/
structure TxOrder (s : State α) : Prop where
  sent : (s.nic ++ s.tx.unsent).Sublist s.txTaken
  freed : (s.txFreed ++ s.tx.held).Sublist s.txTaken
  all_sent : s.txFreed = [] → s.nic ++ s.tx.held = s.txTaken

lemma txOrder_init : TxOrder (State.init : State α) where
  sent := List.Sublist.refl _
  freed := List.Sublist.refl _
  all_sent := fun _ => rfl

/-- The other threads leave the last stage alone. -/
lemma rxLoop_txFrame (b : Burst α) (s : State α) :
    (rxLoop b s).tx = s.tx ∧ (rxLoop b s).txTaken = s.txTaken ∧ (rxLoop b s).nic = s.nic ∧
      (rxLoop b s).txFreed = s.txFreed := by
  rw [rxLoop]
  cases s.rx with
  | head | limit => dsimp only; split <;> exact ⟨rfl, rfl, rfl, rfl⟩
  | enqueue rest =>
      cases rest with
      | nil => exact ⟨rfl, rfl, rfl, rfl⟩
      | cons p rest => dsimp only; split <;> exact ⟨rfl, rfl, rfl, rfl⟩
  | start | burst | count | quit | done => exact ⟨rfl, rfl, rfl, rfl⟩

lemma parserLoop_txFrame (v : Variant) (s : State α) :
    (parserLoop v s).tx = s.tx ∧ (parserLoop v s).txTaken = s.txTaken ∧
      (parserLoop v s).nic = s.nic ∧ (parserLoop v s).txFreed = s.txFreed := by
  rw [parserLoop]
  cases s.parser with
  | head => dsimp only; split <;> exact ⟨rfl, rfl, rfl, rfl⟩
  | free rest => cases rest <;> exact ⟨rfl, rfl, rfl, rfl⟩
  | start | dequeue | parse | count | enqueue | done => exact ⟨rfl, rfl, rfl, rfl⟩

/-- A step that leaves the last stage alone keeps its order. -/
lemma TxOrder.of_frame {s s' : State α} (h : TxOrder s)
    (hframe : s'.tx = s.tx ∧ s'.txTaken = s.txTaken ∧ s'.nic = s.nic ∧ s'.txFreed = s.txFreed) :
    TxOrder s' := by
  obtain ⟨htx, htaken, hnic, hfreed⟩ := hframe
  refine ⟨?_, ?_, ?_⟩
  · rw [hnic, htx, htaken]
    exact h.sent
  · rw [hfreed, htx, htaken]
    exact h.freed
  · rw [hfreed, hnic, htx, htaken]
    exact h.all_sent

/-- **A turn of `tx_loop`** keeps the order, however many packets the device accepts. -/
lemma txLoop_order (accepted : ℕ) {s : State α} (h : TxOrder s) :
    TxOrder (txLoop accepted s) := by
  have hsent := h.sent
  have hfreed := h.freed
  have hall := h.all_sent
  rw [txLoop]
  cases hpc : s.tx with
  | start | count => rw [hpc] at hsent hfreed hall; exact ⟨hsent, hfreed, hall⟩
  | head =>
      rw [hpc] at hsent hfreed hall
      dsimp only
      split <;> exact ⟨hsent, hfreed, hall⟩
  | dequeue =>
      rw [hpc] at hsent hfreed hall
      simp only [TxPc.unsent, TxPc.held, List.append_nil] at hsent hfreed hall
      refine ⟨?_, ?_, fun hnone => ?_⟩
      · rw [TxPc.unsent_ofBurst]
        exact hsent.append_right _
      · rw [TxPc.held_ofBurst]
        exact hfreed.append_right _
      · rw [TxPc.held_ofBurst, hall hnone]
  | send pkts =>
      rw [hpc] at hsent hfreed hall
      simp only [TxPc.unsent, TxPc.held] at hsent hfreed hall
      refine ⟨?_, ?_, fun hnone => ?_⟩
      · -- the device takes a front part of what was next in order
        simp only [TxPc.unsent, List.append_nil]
        exact ((List.take_sublist _ pkts).append_left s.nic).trans hsent
      · exact ((List.drop_sublist _ pkts).append_left s.txFreed).trans hfreed
      · simp only [TxPc.held, List.append_assoc, List.take_append_drop]
        exact hall hnone
  | free rest =>
      rw [hpc] at hsent hfreed hall
      cases rest with
      | nil => exact ⟨hsent, hfreed, hall⟩
      | cons p rest =>
          simp only [TxPc.unsent, TxPc.held] at hsent hfreed
          refine ⟨hsent, ?_, fun hnone => by simp at hnone⟩
          simp only [TxPc.held, List.append_assoc, List.singleton_append]
          exact hfreed
  | done => exact h

/-- Every step keeps the order. -/
lemma step_order (v : Variant) (t : Turn α) (s : State α) (h : TxOrder s) :
    TxOrder (step v t s) := by
  cases t with
  | rx b => exact h.of_frame (rxLoop_txFrame b s)
  | parser => exact h.of_frame (parserLoop_txFrame v s)
  | tx accepted => exact txLoop_order accepted h

/-- **Order of the packets.** In every reachable state the packets the device has
accepted are among those received, in the order in which they were received, and so are
the packets `tx_loop` freed. As long as `tx_loop` has freed none, the device has got the
first of the received packets, without a gap. -/
theorem pipeline_order (v : Variant) (turns : List (Turn α)) :
    (reached v turns).nic.Sublist (reached v turns).received ∧
    (reached v turns).txFreed.Sublist (reached v turns).received ∧
    ((reached v turns).txFreed = [] → (reached v turns).nic <+: (reached v turns).received) := by
  have h : TxOrder (reached v turns) :=
    Machine.run_invariant (step v) (step_order v) txOrder_init turns
  have htaken : (reached v turns).txTaken <+: (reached v turns).received := by
    rw [(inv_reached v turns).order]
    simp only [List.append_assoc]
    exact List.prefix_append _ _
  refine ⟨?_, ?_, fun hnone => ?_⟩
  · exact ((List.sublist_append_left _ _).trans h.sent).trans htaken.sublist
  · exact ((List.sublist_append_left _ _).trans h.freed).trans htaken.sublist
  · rw [← h.all_sent hnone] at htaken
    exact (List.prefix_append _ _).trans htaken

end DpdkStarter.ThreadedPipeline
