import DpdkStarter.Library.Progress
import DpdkStarter.ThroughRing.Protocol

/-!
The ten messages of `inter_process_comm/through_rte_ring` arrive in every fair run.

The secondary never returns: the exchange is over when the primary has returned and the
secondary finds the ring empty, with all it took freed. From then on nothing changes.

* `State.rank`: the steps the two processes have made.
* `Waits`, `step_of_waits`, `step_rank`: a process waits or gets on.
* `all_delivered`: every run of more than 72 rounds in which both processes move.
-/

namespace DpdkStarter.ThroughRing

open Machine

/-- The steps the primary has made: four for a message. -/
def PrimaryPc.rank : PrimaryPc → ℕ
  | .createRing => 0
  | .malloc i => 4 * i + 1
  | .write i _ => 4 * i + 2
  | .enqueue i _ => 4 * i + 3
  | .print i => 4 * i + 4
  | .done => 4 * messageCount + 1

/-- The steps the secondary has made, with so many messages freed: three for a
message. -/
def SecondaryPc.rank (freed : ℕ) : SecondaryPc → ℕ
  | .lookup => 3 * freed
  | .dequeue => 3 * freed + 1
  | .read _ => 3 * freed + 2
  | .free _ => 3 * freed + 3

/-- The steps made by the two processes. -/
def State.rank (s : State) : ℕ := s.primary.rank + s.secondary.rank s.freed

/-- The primary has returned and the secondary finds nothing more. -/
def State.Delivered (s : State) : Prop :=
  s.primary = .done ∧ s.secondary = .dequeue ∧ s.ring.items = []

/-- The two processes. -/
inductive Side where
  | primary | secondary
  deriving DecidableEq, Repr

/-- The process a turn belongs to. -/
def Turn.side : Turn → Side
  | .primary _ => .primary
  | .secondary => .secondary

/-- The rank is bounded. -/
lemma Inv.rank_le {s : State} (h : Inv s) : s.rank ≤ 72 := by
  have hvalid := h.valid
  have htaken := h.taken_le
  have hle := PrimaryPc.enqueued_le hvalid
  have hprimary : s.primary.rank ≤ 4 * messageCount + 1 := by
    cases hpc : s.primary <;> rw [hpc] at hvalid <;> simp only [PrimaryPc.valid] at hvalid <;>
      simp only [PrimaryPc.rank] <;> omega
  have hsecondary : s.secondary.rank s.freed ≤ 3 * s.taken + 1 := by
    rw [State.taken]
    cases s.secondary <;> simp only [SecondaryPc.rank, SecondaryPc.hands, List.length_nil,
      List.length_singleton] <;> omega
  rw [State.rank]
  simp only [messageCount] at hprimary hle
  omega

/-! ### Waiting -/

/-- The process can do nothing: it waits for the ring to exist, for room or for a
message, or it has returned. -/
def Waits : Side → State → Prop
  | .primary, s =>
      match s.primary with
      | .enqueue _ _ => s.ring.items.length = ringSize - 1
      | .done => True
      | _ => False
  | .secondary, s =>
      match s.secondary with
      | .lookup => s.created = false
      | .dequeue => s.ring.items = []
      | _ => False

/-- Waiting leaves the state alone. -/
lemma step_of_waits {t : Turn} {s : State} (h : Waits t.side s) : step t s = s := by
  cases t with
  | primary junk =>
      simp only [Turn.side, Waits] at h
      rw [step, ThroughRing.primary]
      cases hpc : s.primary with
      | enqueue i a =>
          rw [hpc] at h
          simp only [BoundedFifo.enqueue_eq_none.mpr h]
      | done => rfl
      | _ => simp [hpc] at h
  | secondary =>
      simp only [Turn.side, Waits] at h
      rw [step, ThroughRing.secondary]
      cases hpc : s.secondary with
      | lookup =>
          rw [hpc] at h
          simp only [h, Bool.false_eq_true, if_false]
      | dequeue =>
          rw [hpc] at h
          simp only [BoundedFifo.dequeue_eq_none.mpr h]
      | _ => simp [hpc] at h

/-- **A step of the primary**, when it does not wait. -/
lemma primary_rank (junk : ℤ) {s : State} (h : Inv s) (hgo : ¬Waits .primary s) :
    s.rank < (ThroughRing.primary junk s).rank := by
  have hvalid := h.valid
  simp only [Waits] at hgo
  rw [ThroughRing.primary]
  cases hpc : s.primary with
  | enqueue i a =>
      rw [hpc] at hgo
      dsimp only
      split
      · simp only [State.rank, State.freed, hpc, PrimaryPc.rank]
        omega
      · rename_i hfull
        exact absurd (BoundedFifo.enqueue_eq_none.mp hfull) hgo
  | print i =>
      rw [hpc] at hvalid
      simp only [PrimaryPc.valid] at hvalid
      simp only [State.rank, State.freed, hpc]
      split <;> simp only [PrimaryPc.rank] <;> omega
  | done => simp [hpc] at hgo
  | createRing | malloc | write =>
      simp only [State.rank, State.freed, Heap.alloc, Heap.write, hpc, PrimaryPc.rank]
      omega

/-- **A step of the secondary**, when it does not wait. -/
lemma secondary_rank {s : State} (hgo : ¬Waits .secondary s) :
    s.rank < (ThroughRing.secondary s).rank := by
  simp only [Waits] at hgo
  rw [ThroughRing.secondary]
  cases hpc : s.secondary with
  | lookup =>
      rw [hpc] at hgo
      simp only [if_pos (Bool.eq_true_of_not_eq_false hgo), State.rank, State.freed, hpc,
        SecondaryPc.rank]
      omega
  | dequeue =>
      rw [hpc] at hgo
      dsimp only
      split
      · simp only [State.rank, State.freed, hpc, SecondaryPc.rank]
        omega
      · rename_i hempty
        exact absurd (BoundedFifo.dequeue_eq_none.mp hempty) hgo
  | read a =>
      have hfreed : (s.heap.read a).freed = s.heap.freed := by
        rw [Heap.read]
        split <;> rfl
      simp only [State.rank, State.freed, hfreed, hpc, SecondaryPc.rank]
      omega
  | free a =>
      simp only [State.rank, State.freed, Heap.free, List.length_append, List.length_singleton, hpc,
        SecondaryPc.rank]
      omega

/-- **A step** brings the exchange on, unless the process waits. -/
lemma step_rank {t : Turn} {s : State} (h : Inv s) (hgo : ¬Waits t.side s) :
    s.rank < (step t s).rank := by
  cases t with
  | primary junk => exact primary_rank junk h hgo
  | secondary => exact secondary_rank hgo

/-- **There is no deadlock**: as long as something is to be delivered, one of the
processes does not wait. -/
lemma Inv.not_waits {s : State} (h : Inv s) (hopen : ¬s.Delivered) :
    ∃ side, ¬Waits side s := by
  have hroom := h.ring_lt
  by_cases hdone : s.primary = .done
  · refine ⟨.secondary, ?_⟩
    have hcreated : s.created = true := h.created (by rw [hdone]; simp)
    intro hwaits
    simp only [Waits] at hwaits
    cases hpc : s.secondary with
    | dequeue =>
        rw [hpc] at hwaits
        exact hopen ⟨hdone, hpc, hwaits⟩
    | _ => simp [hpc, hcreated] at hwaits
  · refine ⟨.primary, ?_⟩
    intro hwaits
    simp only [Waits] at hwaits
    cases hpc : s.primary with
    | enqueue i a =>
        rw [hpc] at hwaits
        omega
    | done => exact hdone hpc
    | _ => simp [hpc] at hwaits

/-- What is delivered stays so. -/
lemma step_delivered (t : Turn) {s : State} (h : s.Delivered) : (step t s).Delivered := by
  have hwaits : Waits t.side s := by
    cases t <;> simp [Turn.side, Waits, h.1, h.2.1, h.2.2]
  rwa [step_of_waits hwaits]

/-- Then all ten messages were received, and all of them are freed. -/
lemma Inv.received_of_delivered {s : State} (h : Inv s) (hd : s.Delivered) :
    s.received = (List.range 10).map (fun k : ℕ => (k : ℤ)) ∧ s.sent = List.range 10 ∧
      s.heap.freed = List.range 10 := by
  obtain ⟨hprimary, hsecondary, hempty⟩ := hd
  have hring := h.ring
  have htaken := h.taken_le
  have hreceived := h.received
  have hfreed := h.freed
  have hsent := h.sent
  rw [hprimary] at htaken hring hsent
  rw [hsecondary] at hreceived
  have hten : s.freed = 10 := by
    have hlen := congrArg List.length hring
    rw [hempty, List.length_nil, List.length_range'] at hlen
    simp only [State.taken, hsecondary, SecondaryPc.hands, List.length_nil, PrimaryPc.enqueued,
      messageCount] at hlen htaken
    omega
  rw [hten] at hreceived hfreed
  exact ⟨hreceived, hsent, hfreed⟩

/-- **Everything arrives in every fair run**: behind any turns, 73 rounds in which both
processes move leave the primary returned and the ring empty, with the ten messages
received in order and freed. -/
theorem all_delivered (turns : List Turn) (rounds : List (List Turn))
    (hrounds : ∀ r ∈ rounds, IsRound Turn.side r) (hlen : 72 < rounds.length) :
    (reached (turns ++ rounds.flatten)).Delivered ∧
    (reached (turns ++ rounds.flatten)).received = (List.range 10).map (fun k : ℕ => (k : ℤ)) ∧
    (reached (turns ++ rounds.flatten)).sent = List.range 10 ∧
    (reached (turns ++ rounds.flatten)).heap.freed = List.range 10 := by
  have hdelivered : (reached (turns ++ rounds.flatten)).Delivered := by
    rw [reached, run_append]
    refine done_of_rounds (P := Inv) (μ := State.rank) (c := fun _ _ => True) (f := Turn.side)
      (N := 72) (fun t s _ => step_inv t s) ?_ (fun t _ _ _ => step_delivered t) ?_
      (fun _ h => h.rank_le) hrounds (stepsMeet_of_forall (fun _ _ => trivial) _)
      (inv_reached turns) (by omega)
    · intro t s _ h
      by_cases hwaits : Waits t.side s
      · exact Or.inl (step_of_waits hwaits)
      · exact Or.inr (step_rank h hwaits)
    · intro s h hopen
      obtain ⟨side, hgo⟩ := h.not_waits hopen
      refine ⟨side, ?_⟩
      rintro t - rfl
      exact step_rank h hgo
  exact ⟨hdelivered, (inv_reached _).received_of_delivered hdelivered⟩

/-- The two processes taking turns. -/
theorem all_delivered_alternating :
    (reached (List.replicate 73 [Turn.primary 0, Turn.secondary]).flatten).heap.freed
      = List.range 10 := by
  have hrounds : ∀ r ∈ List.replicate 73 [Turn.primary 0, Turn.secondary],
      IsRound Turn.side r := by
    intro r hr k
    rw [List.eq_of_mem_replicate hr]
    cases k with
    | primary => exact ⟨.primary 0, by simp, rfl⟩
    | secondary => exact ⟨.secondary, by simp, rfl⟩
  have hall := all_delivered [] _ hrounds (by rw [List.length_replicate]; decide)
  rw [List.nil_append] at hall
  exact hall.2.2.2

end DpdkStarter.ThroughRing
