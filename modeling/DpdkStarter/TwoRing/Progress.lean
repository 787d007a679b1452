import DpdkStarter.Library.Progress
import DpdkStarter.TwoRing.Protocol

/-!
The two-ring protocol ends in every fair run.

Each side takes from a ring of its own, so nothing is ever put back: a step of a process
brings it on, or the process waits and nothing changes.

* `State.rank`: the steps the two processes have made.
* `Waits`, `step_of_waits`, `step_rank`: a process waits or gets on.
* `At.not_waits`: in every stage but the last one of the two does not wait.
* `two_ring_ends`: every run of more than 156 rounds in which both processes move.
-/

namespace DpdkStarter.TwoRing

open Machine

/-! ### The rank -/

/-- The steps the primary has made: six for a request. -/
def PrimaryPc.rank : PrimaryPc → ℕ
  | .createRing => 0
  | .createRing2 => 1
  | .malloc i => 6 * i + 2
  | .write i _ => 6 * i + 3
  | .enqueue i _ => 6 * i + 4
  | .dequeue i => 6 * i + 5
  | .read i _ => 6 * i + 6
  | .free i _ => 6 * i + 7
  | .mallocStop => 6 * requestCount + 2
  | .writeStop _ => 6 * requestCount + 3
  | .enqueueStop _ => 6 * requestCount + 4
  | .done => 6 * requestCount + 5

/-- The steps the secondary has made, having printed so many values: eight for a
request, the third of them printing. -/
def SecondaryPc.rank (processed : ℕ) : SecondaryPc → ℕ
  | .lookup => 8 * processed
  | .lookup2 => 8 * processed + 1
  | .compute _ => 8 * processed + 2
  | .free _ _ => 8 * processed + 3
  | .malloc _ => 8 * processed + 4
  | .write _ _ => 8 * processed + 5
  | .enqueue _ _ => 8 * processed + 6
  | .dequeue => 8 * processed + 7
  | .test _ => 8 * processed + 8
  | .print _ => 8 * processed + 9
  | .freeStop _ => 8 * processed + 9
  | .done => 8 * processed + 10

/-- The steps made by the two processes. -/
def State.rank (s : State) : ℕ := s.primary.rank + s.secondary.rank s.processed.length

/-- Both processes have returned. -/
def State.Finished (s : State) : Prop := s.primary = .done ∧ s.secondary = .done

/-- The process a turn belongs to. -/
def Turn.side : Turn → Side
  | .primary _ => .primary
  | .secondary _ => .secondary

/-- The requests are numbered from 0 to 9. -/
lemma At.index_lt {i j : ℕ} {st : Stage} {s : State} (h : At i st s) {a : ℕ}
    (hpc : s.primary = .free j a) : j < requestCount := by
  have hprimary := h.primary
  have hvalid := h.valid
  rw [hpc] at hprimary
  cases st <;> simp only [Stage.primary, reduceCtorEq, PrimaryPc.free.injEq] at hprimary
  rw [hprimary.1]
  exact hvalid

/-- The rank is bounded. -/
lemma At.rank_le {i : ℕ} {st : Stage} {s : State} (h : At i st s) : s.rank ≤ 156 := by
  have hlen : s.processed.length = i + st.processed := by
    rw [h.processed, List.length_map, List.length_range]
  have hvalid := h.valid
  have hsecondary := h.secondary
  rw [State.rank, h.primary, hlen]
  cases st with
  | half =>
      rcases hsecondary with hpc | hpc <;> rw [hpc] <;>
        simp only [Stage.valid, Stage.primary, Stage.processed, PrimaryPc.rank, SecondaryPc.rank]
          at hvalid ⊢ <;> omega
  | malloc | write | enqueue | sent | replied | read | free2 | mallocStop | writeStop | enqueueStop
    | sentStop =>
      rcases hsecondary with hpc | hpc | hpc <;> rw [hpc] <;>
        simp only [Stage.valid, Stage.primary, Stage.processed, PrimaryPc.rank, SecondaryPc.rank,
          requestCount] at hvalid ⊢ <;> omega
  | _ =>
      rw [hsecondary]
      simp only [Stage.valid, Stage.primary, Stage.processed, PrimaryPc.rank, SecondaryPc.rank,
        requestCount] at hvalid ⊢
      omega

/-! ### Waiting -/

/-- The process can do nothing: it waits for a ring to exist, for room or for a message,
or it has returned. -/
def Waits : Side → State → Prop
  | .primary, s =>
      match s.primary with
      | .enqueue _ _ => s.ring.items.length = ringSize - 1
      | .dequeue _ => s.ring2.items = []
      | .done => True
      | _ => False
  | .secondary, s =>
      match s.secondary with
      | .lookup => s.created = false
      | .lookup2 => s.created2 = false
      | .dequeue => s.ring.items = []
      | .enqueue _ _ => s.ring2.items.length = ringSize - 1
      | .done => True
      | _ => False

/-- Waiting leaves the state alone. -/
lemma step_of_waits {t : Turn} {s : State} (h : Waits t.side s) : step t s = s := by
  cases t with
  | primary junk =>
      simp only [Turn.side, Waits] at h
      rw [step, TwoRing.primary]
      cases hpc : s.primary with
      | enqueue i a =>
          rw [hpc] at h
          simp only [BoundedFifo.enqueue_eq_none.mpr h]
      | dequeue i =>
          rw [hpc] at h
          simp only [BoundedFifo.dequeue_eq_none.mpr h]
      | done => rfl
      | _ => simp [hpc] at h
  | secondary junk =>
      simp only [Turn.side, Waits] at h
      rw [step, TwoRing.secondary]
      cases hpc : s.secondary with
      | lookup | lookup2 =>
          rw [hpc] at h
          simp only [h, Bool.false_eq_true, if_false]
      | dequeue =>
          rw [hpc] at h
          simp only [BoundedFifo.dequeue_eq_none.mpr h]
      | enqueue b r =>
          rw [hpc] at h
          simp only [BoundedFifo.enqueue_eq_none.mpr h]
      | done => rfl
      | _ => simp [hpc] at h

/-- **A step of the primary**, when it does not wait. -/
lemma primary_rank (junk : ℤ) {i : ℕ} {st : Stage} {s : State} (h : At i st s)
    (hgo : ¬Waits .primary s) : s.rank < (TwoRing.primary junk s).rank := by
  simp only [Waits] at hgo
  rw [TwoRing.primary]
  cases hpc : s.primary with
  | enqueue j a =>
      rw [hpc] at hgo
      dsimp only
      split
      · simp only [State.rank, hpc, PrimaryPc.rank]
        omega
      · rename_i hfull
        exact absurd (BoundedFifo.enqueue_eq_none.mp hfull) hgo
  | dequeue j =>
      rw [hpc] at hgo
      dsimp only
      split
      · simp only [State.rank, hpc, PrimaryPc.rank]
        omega
      · rename_i hempty
        exact absurd (BoundedFifo.dequeue_eq_none.mp hempty) hgo
  | free j a =>
      have hj := h.index_lt hpc
      simp only [State.rank, State.free, hpc]
      split <;> simp only [PrimaryPc.rank] <;> omega
  | enqueueStop a =>
      dsimp only
      split <;> simp only [State.rank, hpc, PrimaryPc.rank] <;> omega
  | done => simp [hpc] at hgo
  | _ =>
      simp only [State.rank, State.malloc, State.assign, State.touch, hpc, PrimaryPc.rank]
      omega

/-- **A step of the secondary**, when it does not wait. -/
lemma secondary_rank (junk : ℤ) {s : State} (hgo : ¬Waits .secondary s) :
    s.rank < (TwoRing.secondary junk s).rank := by
  simp only [Waits] at hgo
  rw [TwoRing.secondary]
  cases hpc : s.secondary with
  | lookup | lookup2 =>
      rw [hpc] at hgo
      simp only [if_pos (Bool.eq_true_of_not_eq_false hgo), State.rank, hpc, SecondaryPc.rank]
      omega
  | dequeue =>
      rw [hpc] at hgo
      dsimp only
      split
      · simp only [State.rank, hpc, SecondaryPc.rank]
        omega
      · rename_i hempty
        exact absurd (BoundedFifo.dequeue_eq_none.mp hempty) hgo
  | enqueue b r =>
      rw [hpc] at hgo
      dsimp only
      split
      · simp only [State.rank, hpc, SecondaryPc.rank]
        omega
      · rename_i hfull
        exact absurd (BoundedFifo.enqueue_eq_none.mp hfull) hgo
  | test a =>
      simp only [State.rank, State.touch, hpc]
      split <;> simp only [SecondaryPc.rank] <;> omega
  | print a =>
      simp only [State.rank, State.touch, hpc, SecondaryPc.rank, List.length_append,
        List.length_singleton]
      omega
  | done => simp [hpc] at hgo
  | _ =>
      simp only [State.rank, State.malloc, State.assign, State.touch, State.free, hpc,
        SecondaryPc.rank]
      omega

/-- **A step** brings the exchange on, unless the process waits. -/
lemma step_rank {t : Turn} {s : State} (h : ∃ i st, At i st s) (hgo : ¬Waits t.side s) :
    s.rank < (step t s).rank := by
  obtain ⟨i, st, hat⟩ := h
  cases t with
  | primary junk => exact primary_rank junk hat hgo
  | secondary junk => exact secondary_rank junk hgo

/-! ### Whose turn it is -/

/-- The process with something to do. -/
def Stage.mover : Stage → Side
  | .start | .half | .malloc | .write | .enqueue | .replied | .read | .free2 | .mallocStop
  | .writeStop | .enqueueStop => .primary
  | _ => .secondary

/-- **There is no deadlock**: it does not wait, unless both have returned. -/
lemma At.not_waits {i : ℕ} {st : Stage} {s : State} (h : At i st s) (hopen : ¬s.Finished) :
    ¬Waits st.mover s := by
  have hring := h.ring
  have hring2 := h.ring2
  have hprimary := h.primary
  have hsecondary := h.secondary
  have hcreated := h.created
  have hcreated2 := h.created2
  -- a secondary that is needed finds the rings and a message in the first one
  have hneeded : s.created = true → s.created2 = true → s.ring.items ≠ [] →
      (s.secondary = .lookup ∨ s.secondary = .lookup2 ∨ s.secondary = .dequeue) →
      ¬Waits .secondary s := by
    rintro hcreated hcreated2 hitems (hpc | hpc | hpc) <;>
      simp [Waits, hpc, hcreated, hcreated2, hitems]
  cases st with
  | start | half | malloc | write | read | free2 | mallocStop | writeStop | enqueueStop =>
      simp [Stage.mover, Waits, hprimary, Stage.primary]
  | enqueue =>
      simp [Stage.mover, Waits, hprimary, Stage.primary, hring, Stage.ring, ringSize]
  | replied => simp [Stage.mover, Waits, hprimary, Stage.primary, hring2, Stage.ring2]
  | sent | sentStop =>
      exact hneeded hcreated hcreated2 (by rw [hring]; simp [Stage.ring]) hsecondary
  | enqueue2 =>
      have hpc : s.secondary = .enqueue (2 * i + 1) (i * 10) := hsecondary
      simp [Stage.mover, Waits, hpc, hring2, Stage.ring2, ringSize]
  | test | print | compute | free | malloc2 | write2 | testStop | freeStop =>
      simp only [Stage.secondary] at hsecondary
      simp [Stage.mover, Waits, hsecondary]
  | finished => exact absurd ⟨hprimary, hsecondary⟩ hopen

/-- Every step leads from a stage to a stage. -/
lemma step_stage (t : Turn) (s : State) (h : ∃ i st, At i st s) :
    ∃ i st, At i st (step t s) := by
  obtain ⟨i, st, hat⟩ := h
  cases t with
  | primary junk => exact primary_stage junk hat
  | secondary junk => exact secondary_stage junk hat

/-- Processes that have returned stay so. -/
lemma step_finished (t : Turn) {s : State} (h : s.Finished) : (step t s).Finished := by
  have hwaits : Waits t.side s := by cases t <;> simp [Turn.side, Waits, h.1, h.2]
  rwa [step_of_waits hwaits]

/-- **The exchange ends in every fair run**, whatever an allocation finds in its cell:
behind any turns, 157 rounds in which both processes move leave both returned, all ten
requests printed and answered, and every message freed. -/
theorem two_ring_ends (turns : List Turn) (rounds : List (List Turn))
    (hrounds : ∀ r ∈ rounds, IsRound Turn.side r) (hlen : 156 < rounds.length) :
    (reached (turns ++ rounds.flatten)).Finished ∧
    (reached (turns ++ rounds.flatten)).processed = (List.range 10).map (fun k : ℕ => (k : ℤ)) ∧
    (reached (turns ++ rounds.flatten)).received
      = (List.range 10).map (fun k : ℕ => (k : ℤ) * 10) ∧
    (reached (turns ++ rounds.flatten)).outstanding = [] := by
  have hfinished : (reached (turns ++ rounds.flatten)).Finished := by
    rw [reached, run_append]
    refine done_of_rounds (P := fun s => ∃ i st, At i st s) (μ := State.rank)
      (c := fun _ _ => True) (f := Turn.side) (N := 156) (fun t s _ => step_stage t s) ?_
      (fun t _ _ _ => step_finished t) ?_ (fun _ ⟨_, _, h⟩ => h.rank_le) hrounds
      (stepsMeet_of_forall (fun _ _ => trivial) _) (reached_stage turns) (by omega)
    · intro t s _ h
      by_cases hwaits : Waits t.side s
      · exact Or.inl (step_of_waits hwaits)
      · exact Or.inr (step_rank h hwaits)
    · rintro s ⟨i, st, h⟩ hopen
      refine ⟨st.mover, ?_⟩
      rintro t - hside
      exact step_rank ⟨i, st, h⟩ (by rw [hside]; exact h.not_waits hopen)
  obtain ⟨i, st, h⟩ := reached_stage (turns ++ rounds.flatten)
  have hsecondary := h.secondary
  have hvalid := h.valid
  rw [hfinished.2] at hsecondary
  cases st with
  | finished =>
      have hi : i = 10 := hvalid
      refine ⟨hfinished, ?_, ?_, h.outstanding⟩
      · rw [h.processed, hi]
        rfl
      · rw [h.received, hi]
        rfl
  | _ => simp [Stage.secondary] at hsecondary

/-- The two processes taking turns. -/
theorem two_ring_ends_alternating :
    (reached (List.replicate 157 [Turn.primary 0, Turn.secondary 0]).flatten).Finished := by
  refine (two_ring_ends [] (List.replicate 157 [.primary 0, .secondary 0]) ?_ ?_).1
  · intro r hr k
    rw [List.eq_of_mem_replicate hr]
    cases k with
    | primary => exact ⟨.primary 0, by simp, rfl⟩
    | secondary => exact ⟨.secondary 0, by simp, rfl⟩
  · rw [List.length_replicate]
    decide

end DpdkStarter.TwoRing
