import DpdkStarter.Library.Progress
import DpdkStarter.SingleRing.Protocol

/-!
The request/response protocol over one ring: whether it ends.

In every phase one of the two processes has something to do. The other one waits, or
takes the message that is not its own and puts it back, which leads nowhere: so a fair
run can go on for ever, and a run ends in bounded time when neither process takes what
is addressed to the other.

* `State.rank`: how far the exchange has come.
* `OwnOnly`: the turn takes no message from the ring that is addressed to the other side.
* `Waits`, `step_rank`: such a turn raises the rank, unless the process waits.
* `At.not_waits`: in every phase but the last one of the processes does not wait.
* `primary_bounces`, `secondary_bounces`: three turns that lead back to the same state.
* `exchange_progress`: the three facts about every reachable state.
-/

namespace DpdkStarter.SingleRing.Protocol

open Machine

/-! ### The rank -/

/-- How far the primary is: a message it has to put back sets it back. -/
def PrimaryPc.rank : PrimaryPc → ℕ
  | .create => 0
  | .send i => 3 * i + 1
  | .putBack i _ => 3 * i + 2
  | .await i => 3 * i + 3
  | .sendExit => 3 * requestCount + 1
  | .done => 3 * requestCount + 2

/-- How far the secondary is, with so many requests handled. -/
def SecondaryPc.rank (handled : ℕ) : SecondaryPc → ℕ
  | .lookup => 3 * handled
  | .reply _ => 3 * handled + 1
  | .putBack _ => 3 * handled + 2
  | .poll => 3 * handled + 3
  | .done => 3 * handled + 4

/-- How far the exchange has come. -/
def State.rank (s : State) : ℕ := s.primary.rank + s.secondary.rank s.handled.length

/-- Both processes have returned. -/
def State.Finished (s : State) : Prop := s.primary = .done ∧ s.secondary = .done

/-- The turn takes no message from the ring that is addressed to the other side. -/
def OwnOnly : Turn → State → Prop
  | .primary, s => (∃ i, s.primary = .await i) → ∀ m ∈ s.ring.items.head?, m.dstId = procA
  | .secondary, s => s.secondary = .poll → ∀ m ∈ s.ring.items.head?, m.dstId = procB

/-- A message in the ring is one of the three kinds; a response is what is addressed to
the primary. -/
lemma At.type_resp {φ : Phase} {s : State} (h : At φ s) {m : Msg} (hm : m ∈ s.ring.items)
    (hdst : m.dstId = procA) : m.type = .resp := by
  rw [h.ring] at hm
  cases φ <;> simp only [Phase.ring, List.mem_singleton, List.not_mem_nil] at hm <;>
    subst hm <;> first | rfl | simp [Msg.request, Msg.goodbye, procA, procB] at hdst

lemma At.type_req {φ : Phase} {s : State} (h : At φ s) {m : Msg} (hm : m ∈ s.ring.items)
    (hdst : m.dstId = procB) : m.type = .exit ∨ m.type = .req := by
  rw [h.ring] at hm
  cases φ <;> simp only [Phase.ring, List.mem_singleton, List.not_mem_nil] at hm <;>
    subst hm <;> first
      | exact Or.inl rfl
      | exact Or.inr rfl
      | simp [Msg.response, procA, procB] at hdst

/-- The rank is bounded. -/
lemma At.rank_le {φ : Phase} {s : State} (h : At φ s) : s.rank ≤ 66 := by
  have hhandled : s.handled.length = φ.counts.2.1 := by rw [h.handled, List.length_range]
  have hsecondary := h.secondary
  have hvalid := h.valid
  have hle : ∀ n pc, SecondaryPc.rank n pc ≤ 3 * n + 4 := by
    intro n pc
    cases pc <;> simp only [SecondaryPc.rank] <;> omega
  have hrank := hle φ.counts.2.1 s.secondary
  rw [State.rank, h.primary, hhandled]
  cases φ <;> simp only [Phase.counts, Phase.primary, PrimaryPc.rank, Phase.valid, requestCount]
    at hrank hvalid ⊢ <;> omega

/-- The response to a request in range brings the primary on. -/
lemma PrimaryPc.rank_afterResponse {i : ℕ} (hi : i < requestCount) :
    (PrimaryPc.await i).rank < (PrimaryPc.afterResponse i).rank := by
  rw [afterResponse]
  split <;> simp only [rank] <;> omega

/-! ### Waiting -/

/-- The process can do nothing: it waits for the ring to exist, for room or for a message,
or it has returned. -/
def Waits : Turn → State → Prop
  | .primary, s =>
      match s.primary with
      | .send _ => s.ring.items.length = ringSize - 1
      | .await _ => s.ring.items = []
      | .done => True
      | _ => False
  | .secondary, s =>
      match s.secondary with
      | .lookup => s.created = false
      | .poll => s.ring.items = []
      | .reply _ => s.ring.items.length = ringSize - 1
      | .done => True
      | _ => False

/-- Waiting leaves the state alone. -/
lemma step_of_waits {t : Turn} {s : State} (h : Waits t s) : step t s = s := by
  cases t with
  | primary =>
      simp only [Waits] at h
      rw [step, Protocol.primary]
      cases hpc : s.primary with
      | send i =>
          rw [hpc] at h
          simp only [BoundedFifo.enqueue_eq_none.mpr h]
      | await i =>
          rw [hpc] at h
          simp only [BoundedFifo.dequeue_eq_none.mpr h]
      | done => rfl
      | create | putBack | sendExit => simp [hpc] at h
  | secondary =>
      simp only [Waits] at h
      rw [step, Protocol.secondary]
      cases hpc : s.secondary with
      | lookup =>
          rw [hpc] at h
          simp only [h, Bool.false_eq_true, if_false]
      | poll =>
          rw [hpc] at h
          simp only [BoundedFifo.dequeue_eq_none.mpr h]
      | reply v =>
          rw [hpc] at h
          simp only [BoundedFifo.enqueue_eq_none.mpr h]
      | done => rfl
      | putBack => simp [hpc] at h

/-- **A turn of the primary** that does not wait and takes nothing of the other side's. -/
lemma primary_rank {φ : Phase} {s : State} (h : At φ s) (hown : OwnOnly .primary s)
    (hgo : ¬Waits .primary s) : s.rank < (Protocol.primary s).rank := by
  simp only [Waits] at hgo
  rw [Protocol.primary]
  cases hpc : s.primary with
  | create =>
      simp only [State.rank, hpc, PrimaryPc.rank]
      omega
  | sendExit =>
      dsimp only
      split <;> simp only [State.rank, hpc, PrimaryPc.rank] <;> omega
  | putBack i r =>
      dsimp only
      split <;> simp only [State.rank, hpc, PrimaryPc.rank] <;> omega
  | send i =>
      rw [hpc] at hgo
      dsimp only
      split
      · simp only [State.rank, hpc, PrimaryPc.rank]
        omega
      · rename_i hfull
        exact absurd (BoundedFifo.enqueue_eq_none.mp hfull) hgo
  | await i =>
      rw [hpc] at hgo
      dsimp only
      split
      · rename_i hempty
        exact absurd (BoundedFifo.dequeue_eq_none.mp hempty) hgo
      · rename_i r ring hdeq
        have hitems := BoundedFifo.dequeue_eq_some.mp hdeq
        have hdst : r.dstId = procA := hown ⟨i, hpc⟩ r (by rw [hitems]; rfl)
        have htype := h.type_resp (by rw [hitems]; exact List.mem_cons_self) hdst
        have hi : i < requestCount := by
          have hphase := h.primary
          have hvalid := h.valid
          rw [hpc] at hphase
          cases φ <;> simp only [Phase.primary, PrimaryPc.await.injEq, reduceCtorEq] at hphase <;>
            rw [hphase] <;> exact hvalid
        have hup := PrimaryPc.rank_afterResponse hi
        rw [if_neg (not_not_intro hdst), if_pos htype]
        simp only [State.rank, hpc]
        omega
  | done => simp [hpc] at hgo

/-- **A turn of the secondary** that does not wait and takes nothing of the other side's. -/
lemma secondary_rank {φ : Phase} {s : State} (h : At φ s) (hown : OwnOnly .secondary s)
    (hgo : ¬Waits .secondary s) : s.rank < (Protocol.secondary s).rank := by
  simp only [Waits] at hgo
  rw [Protocol.secondary]
  cases hpc : s.secondary with
  | lookup =>
      rw [hpc] at hgo
      simp only [if_pos (Bool.eq_true_of_not_eq_false hgo), State.rank, hpc, SecondaryPc.rank]
      omega
  | putBack m =>
      dsimp only
      split <;> simp only [State.rank, hpc, SecondaryPc.rank] <;> omega
  | reply v =>
      rw [hpc] at hgo
      dsimp only
      split
      · simp only [State.rank, hpc, SecondaryPc.rank]
        omega
      · rename_i hfull
        exact absurd (BoundedFifo.enqueue_eq_none.mp hfull) hgo
  | poll =>
      rw [hpc] at hgo
      dsimp only
      split
      · rename_i hempty
        exact absurd (BoundedFifo.dequeue_eq_none.mp hempty) hgo
      · rename_i m ring hdeq
        have hitems := BoundedFifo.dequeue_eq_some.mp hdeq
        have hdst : m.dstId = procB := hown hpc m (by rw [hitems]; rfl)
        rw [if_neg (not_not_intro hdst)]
        rcases h.type_req (by rw [hitems]; exact List.mem_cons_self) hdst with hexit | hreq
        · rw [if_pos hexit]
          simp only [State.rank, hpc, SecondaryPc.rank]
          omega
        · rw [if_neg (by rw [hreq]; decide), if_pos hreq]
          simp only [State.rank, hpc, SecondaryPc.rank, List.length_append, List.length_singleton]
          omega
  | done => simp [hpc] at hgo

/-- **A turn** that takes nothing of the other side's brings the exchange on, unless the
process waits. -/
lemma step_rank {t : Turn} {s : State} (hown : OwnOnly t s) (h : ∃ φ, At φ s)
    (hgo : ¬Waits t s) : s.rank < (step t s).rank := by
  obtain ⟨φ, hφ⟩ := h
  cases t with
  | primary => exact primary_rank hφ hown hgo
  | secondary => exact secondary_rank hφ hown hgo

/-! ### Whose turn it is -/

/-- The process with something to do. -/
def Phase.mover : Phase → Turn
  | .start | .sending _ | .returned _ | .replied _ | .exiting => .primary
  | _ => .secondary

/-- It takes nothing of the other side's. -/
lemma At.ownOnly {φ : Phase} {s : State} (h : At φ s) : OwnOnly φ.mover s := by
  have hring := h.ring
  have hprimary := h.primary
  have hsecondary := h.secondary
  cases φ with
  | start | sending | returned | exiting =>
      rintro ⟨i, hi⟩
      rw [hi] at hprimary
      cases hprimary
  | replied i | requested i | exitSent =>
      rintro - m hm
      rw [hring] at hm
      rw [← Option.some.inj hm]
      rfl
  | replying i | bounced i | finished =>
      intro hpoll
      rw [hpoll] at hsecondary
      cases hsecondary

/-- **There is no deadlock**: it does not wait, unless both have returned. -/
lemma At.not_waits {φ : Phase} {s : State} (h : At φ s) (hopen : ¬s.Finished) :
    ¬Waits φ.mover s := by
  have hring := h.ring
  have hprimary := h.primary
  have hsecondary := h.secondary
  have hcreated := h.created
  -- a secondary that is needed finds the ring and a message in it
  have hneeded : s.created = true → s.ring.items ≠ [] →
      (s.secondary = .lookup ∨ s.secondary = .poll) → ¬Waits .secondary s := by
    rintro hcreated hitems (hpc | hpc) <;> simp [Waits, hpc, hcreated, hitems]
  cases φ with
  | start | returned | exiting => simp [Phase.mover, Waits, hprimary, Phase.primary]
  | sending i => simp [Phase.mover, Waits, hprimary, Phase.primary, hring, Phase.ring, ringSize]
  | replied i => simp [Phase.mover, Waits, hprimary, Phase.primary, hring, Phase.ring]
  | requested i | exitSent => exact hneeded hcreated (by rw [hring]; simp [Phase.ring]) hsecondary
  | replying i =>
      have hpc : s.secondary = .reply i := hsecondary
      simp [Phase.mover, Waits, hpc, hring, Phase.ring, ringSize]
  | bounced i =>
      have hpc : s.secondary = .putBack (.response i) := hsecondary
      simp [Phase.mover, Waits, hpc]
  | finished => exact absurd ⟨hprimary, hsecondary⟩ hopen

/-- Processes that have returned stay so. -/
lemma step_finished (t : Turn) {s : State} (h : s.Finished) : (step t s).Finished := by
  have hwaits : Waits t s := by cases t <;> simp [Waits, h.1, h.2]
  rwa [step_of_waits hwaits]

/-! ### Turns that lead nowhere -/

/-- Two rings of the same content are the same. -/
lemma ring_eq {ring ring' : MsgRing Msg} (h : ring.items = ring'.items) : ring = ring' :=
  BoundedFifo.ext h

/-- The primary takes its own request, the secondary finds the ring empty, and the
request is back where it was. -/
lemma primary_bounces {i : ℕ} {s : State} (hring : s.ring.items = [.request i])
    (hprimary : s.primary = .await i) (hpoll : s.secondary = .poll) :
    run step [.primary, .secondary, .primary] s = s := by
  obtain ⟨ring₁, hdeq, hempty⟩ := BoundedFifo.exists_dequeue hring
  have hforeign : (Msg.request i).dstId ≠ procA := by simp [Msg.request, procA, procB]
  have htake : step .primary s = { s with ring := ring₁, primary := .putBack i (.request i) } := by
    rw [step, Protocol.primary, hprimary]
    simp only [hdeq, if_pos hforeign]
  have hwait : step .secondary { s with ring := ring₁, primary := .putBack i (.request i) }
      = { s with ring := ring₁, primary := .putBack i (.request i) } := by
    rw [step, Protocol.secondary]
    simp only [hpoll, BoundedFifo.dequeue_eq_none.mpr hempty]
  obtain ⟨ring₂, henq, hitems⟩ := BoundedFifo.exists_enqueue_of_empty room_pos hempty (.request i)
  have hback : ring₂ = s.ring := ring_eq (hitems.trans hring.symm)
  rw [run_cons, run_cons, run_cons, run_nil, htake, hwait, step, Protocol.primary]
  simp only [henq, hback, ← hprimary]

/-- So with the secondary and its response. -/
lemma secondary_bounces {i : ℕ} {s : State} (hring : s.ring.items = [.response i])
    (hprimary : s.primary = .await i) (hpoll : s.secondary = .poll) :
    run step [.secondary, .primary, .secondary] s = s := by
  obtain ⟨ring₁, hdeq, hempty⟩ := BoundedFifo.exists_dequeue hring
  have hforeign : (Msg.response i).dstId ≠ procB := by simp [Msg.response, procA, procB]
  have htake : step .secondary s
      = { s with ring := ring₁, secondary := .putBack (.response i) } := by
    rw [step, Protocol.secondary, hpoll]
    simp only [hdeq, if_pos hforeign]
  have hwait : step .primary { s with ring := ring₁, secondary := .putBack (.response i) }
      = { s with ring := ring₁, secondary := .putBack (.response i) } := by
    rw [step, Protocol.primary]
    simp only [hprimary, BoundedFifo.dequeue_eq_none.mpr hempty]
  obtain ⟨ring₂, henq, hitems⟩ := BoundedFifo.exists_enqueue_of_empty room_pos hempty (.response i)
  have hback : ring₂ = s.ring := ring_eq (hitems.trans hring.symm)
  rw [run_cons, run_cons, run_cons, run_nil, htake, hwait, step, Protocol.secondary]
  simp only [henq, hback, ← hpoll]

/-- A list of turns that leads back to a state does so any number of times. -/
lemma run_replicate_of_back {is : List Turn} {s : State} (h : run step is s = s) (n : ℕ) :
    run step (List.replicate n is).flatten s = s := by
  induction n with
  | zero => rfl
  | succ n ih => rw [List.replicate_succ, List.flatten_cons, run_append, h, ih]

/-! ### The protocol -/

/-- **Progress of the exchange**, from every reachable state. At most 66 further turns
can end it. Any 67 rounds in which both processes move do end it, if no turn takes a
message addressed to the other side. Without that, fairness is not enough: with a
message in the ring and the secondary polling, there is a round in which both processes
move and that leads back to the very same state, so that it can be repeated for ever. -/
theorem exchange_progress (turns : List Turn) :
    (∃ more : List Turn, more.length ≤ 66 ∧ (reached (turns ++ more)).Finished) ∧
    (∀ rounds : List (List Turn), (∀ r ∈ rounds, IsRound id r) →
      StepsMeet step OwnOnly rounds.flatten (reached turns) → 66 < rounds.length →
      (reached (turns ++ rounds.flatten)).Finished) ∧
    (∀ m, (reached turns).ring.items = [m] → m ≠ .goodbye → (reached turns).secondary = .poll →
      ∃ r, IsRound id r ∧
        ∀ n, reached (turns ++ (List.replicate n r).flatten) = reached turns) := by
  have hphase := reached_phase turns
  refine ⟨?_, ?_, ?_⟩
  · have hlive : ∀ s, (∃ φ, At φ s) → ¬s.Finished →
        ∃ t, OwnOnly t s ∧ s.rank < (step t s).rank := by
      rintro s ⟨φ, h⟩ hopen
      exact ⟨φ.mover, h.ownOnly, step_rank h.ownOnly ⟨φ, h⟩ (h.not_waits hopen)⟩
    obtain ⟨more, -, hlen, hdone⟩ :=
      exists_run_done (fun t s _ => step_phase t s) hlive (fun _ ⟨_, h⟩ => h.rank_le) hphase
    exact ⟨more, by omega, by rwa [reached, run_append]⟩
  · intro rounds hrounds hmeet hlen
    rw [reached, run_append]
    refine done_of_rounds (P := fun s => ∃ φ, At φ s) (μ := State.rank) (c := OwnOnly) (f := id)
      (N := 66) (fun t s _ => step_phase t s) ?_ (fun t _ _ _ => step_finished t) ?_
      (fun _ ⟨_, h⟩ => h.rank_le) hrounds hmeet hphase (by omega)
    · intro t s hown h
      by_cases hwaits : Waits t s
      · exact Or.inl (step_of_waits hwaits)
      · exact Or.inr (step_rank hown h hwaits)
    · rintro s ⟨φ, h⟩ hopen
      refine ⟨φ.mover, ?_⟩
      rintro t hown rfl
      exact step_rank hown ⟨φ, h⟩ (h.not_waits hopen)
  · rintro m hring hgoodbye hpoll
    obtain ⟨φ, h⟩ := hphase
    have hround : ∀ r : List Turn, .primary ∈ r → .secondary ∈ r → IsRound id r := by
      intro r hprimary hsecondary k
      cases k with
      | primary => exact ⟨_, hprimary, rfl⟩
      | secondary => exact ⟨_, hsecondary, rfl⟩
    have hitems := h.ring
    have hpc := h.primary
    rw [hring] at hitems
    cases φ with
    | requested i =>
        rw [Phase.ring, List.singleton_inj] at hitems
        rw [hitems] at hring
        refine ⟨[.primary, .secondary, .primary], hround _ (by decide) (by decide), fun n => ?_⟩
        rw [reached, run_append]
        exact run_replicate_of_back (primary_bounces hring hpc hpoll) n
    | replied i =>
        rw [Phase.ring, List.singleton_inj] at hitems
        rw [hitems] at hring
        refine ⟨[.secondary, .primary, .secondary], hround _ (by decide) (by decide), fun n => ?_⟩
        rw [reached, run_append]
        exact run_replicate_of_back (secondary_bounces hring hpc hpoll) n
    | exitSent => exact absurd (List.singleton_inj.mp hitems) hgoodbye
    | start | sending | returned | replying | bounced | exiting | finished =>
        simp [Phase.ring] at hitems

/-- The first request is in the ring and the secondary polls: a fair run from here need
not end. -/
theorem exchange_livelocks :
    ∃ r, IsRound id r ∧
      ∀ n, ¬(reached ([.primary, .primary, .secondary]
        ++ (List.replicate n r).flatten)).Finished := by
  obtain ⟨r, hround, hback⟩ := (exchange_progress [.primary, .primary, .secondary]).2.2
    (.request 0) (by decide) (by decide) (by decide)
  refine ⟨r, hround, fun n => ?_⟩
  rw [hback n]
  rintro ⟨hprimary, -⟩
  revert hprimary
  decide

end DpdkStarter.SingleRing.Protocol
