import DpdkStarter.Library.AtomicQueue
import DpdkStarter.Library.Ledger

/-!
`inter_process_comm/eventdev/primary.c` and `secondary.c`: packet buffers sent from process to
process through an event device.

The primary allocates a buffer, enqueues it and does not look at the answer; the secondary
dequeues from its port and frees. All events are of one atomic flow, and the queue is linked
to the ports of both processes, of which the primary never polls its own.

* `primary`, `secondary`, `step`: the steps of the processes and of the device.
* `At`, `at_reached`: the buffers and the order.
* `starves_after`: once the device has scheduled an event to the port of the primary.
* `lost_iff`: when a buffer is lost.
-/

namespace DpdkStarter.EventProcesses

open Machine AtomicQueue

/-- `nb_event_ports`: that of the primary and that of the secondary. -/
abbrev Port := Fin 2

/-- The flow of an event: `ev` is zeroed. -/
def flowId (_ : ℕ) : ℕ := 0

/-- Where the primary is. -/
inductive PrimaryPc where
  | alloc
  | enqueue (mbuf : ℕ)
  deriving DecidableEq

/-- Where the secondary is. -/
inductive SecondaryPc where
  | dequeue
  | free (mbuf : ℕ)
  deriving DecidableEq

/-- The mempool, the processes and the device; the buffers the device accepted, refused, and
delivered. -/
structure State where
  pool : List ℕ
  primary : PrimaryPc
  secondary : SecondaryPc
  queue : AtomicQueue Port ℕ
  sent : List ℕ
  refused : List ℕ
  received : List ℕ

/-- The state in which the loops are entered. -/
def State.init (mbufs : List ℕ) : State := ⟨mbufs, .alloc, .dequeue, .empty, [], [], []⟩

/-- A step of the primary; the pool hands out some buffer if it has one. -/
def primary (pick : ℕ) (accepted : Bool) (s : State) : State :=
  match s.primary with
  | .alloc =>
      match s.pool.drop (pick % s.pool.length) with
      | [] => s
      | mbuf :: post =>
          { s with pool := s.pool.take (pick % s.pool.length) ++ post, primary := .enqueue mbuf }
  | .enqueue mbuf =>
      if accepted then
        { s with queue := s.queue.enqueue mbuf, sent := s.sent ++ [mbuf], primary := .alloc }
      else { s with refused := s.refused ++ [mbuf], primary := .alloc }

/-- A step of the secondary. -/
def secondary (s : State) : State :=
  match s.secondary with
  | .dequeue =>
      match s.queue.dequeue 1 with
      | (none, _) => s
      | (some mbuf, queue) =>
          { s with queue := queue, received := s.received ++ [mbuf], secondary := .free mbuf }
  | .free mbuf => { s with pool := mbuf :: s.pool, secondary := .dequeue }

/-- Whose step it is. -/
inductive Turn where
  | primary (pick : ℕ) (accepted : Bool)
  | secondary
  | device (p : Port) (i : ℕ)

/-- One step; the device may schedule to both ports. -/
def step : Turn → State → State
  | .primary pick accepted, s => primary pick accepted s
  | .secondary, s => secondary s
  | .device p i, s => { s with queue := s.queue.schedule flowId p i }

/-- The state after a sequence of steps. -/
abbrev reached (mbufs : List ℕ) (turns : List Turn) : State := run step turns (State.init mbufs)

/-! ### The buffers -/

/-- The buffer a process has in hand. -/
def PrimaryPc.hand : PrimaryPc → List ℕ
  | .alloc => []
  | .enqueue mbuf => [mbuf]

/-- The buffer a process has in hand. -/
def SecondaryPc.hand : SecondaryPc → List ℕ
  | .dequeue => []
  | .free mbuf => [mbuf]

/-- The buffers in the device that can still get to the secondary. -/
def State.underWay (s : State) : List ℕ := s.queue.queued ++ s.queue.scheduled 1

/-- The buffers nobody frees: those refused, and those at the port of the primary. -/
def State.lost (s : State) : List ℕ := s.refused ++ s.queue.scheduled 0

/-- All buffers, where they are. -/
def State.all (s : State) : List ℕ :=
  s.pool ++ (s.primary.hand ++ (s.underWay ++ (s.secondary.hand ++ s.lost)))

/-- **The invariant**: every buffer is in one place, and those received are the first of those
sent. -/
structure At (mbufs : List ℕ) (s : State) : Prop where
  perm : s.all.Perm mbufs
  inOrder : InOrder flowId s.queue s.sent s.received

variable {mbufs : List ℕ}

lemma at_init (mbufs : List ℕ) : At mbufs (State.init mbufs) :=
  ⟨by rw [State.all]; exact List.Perm.of_eq (List.append_nil mbufs), inOrder_empty⟩

/-- Every buffer is counted as often before as after. -/
lemma perm_all_iff {s t : State} : s.all.Perm t.all ↔ ∀ a,
    s.pool.count a + s.primary.hand.count a + s.queue.queued.count a
        + (s.queue.scheduled 1).count a + s.secondary.hand.count a + s.refused.count a
        + (s.queue.scheduled 0).count a
      = t.pool.count a + t.primary.hand.count a + t.queue.queued.count a
        + (t.queue.scheduled 1).count a + t.secondary.hand.count a + t.refused.count a
        + (t.queue.scheduled 0).count a := by
  rw [List.perm_iff_count]
  refine forall_congr' fun a => ?_
  simp only [State.all, State.underWay, State.lost, List.count_append, add_assoc]

lemma perm_primary (pick : ℕ) (accepted : Bool) (s : State) :
    (primary pick accepted s).all.Perm s.all := by
  rw [primary]
  cases hpc : s.primary with
  | alloc =>
      dsimp only
      split
      · exact List.Perm.refl _
      · rename_i mbuf post hdrop
        refine perm_all_iff.mpr fun a => ?_
        have hpool := congrArg (List.count a) (List.take_append_drop (pick % s.pool.length) s.pool)
        rw [hdrop, List.count_append, List.count_cons] at hpool
        simp only [hpc, PrimaryPc.hand, List.count_append, List.count_cons, List.count_nil]
        omega
  | enqueue mbuf =>
      dsimp only
      split <;>
      · refine perm_all_iff.mpr fun a => ?_
        simp only [hpc, PrimaryPc.hand, AtomicQueue.enqueue, List.count_append, List.count_nil]
        omega

lemma perm_secondary (s : State) : (secondary s).all.Perm s.all := by
  rw [secondary]
  cases hpc : s.secondary with
  | dequeue =>
      dsimp only [dequeue]
      cases hport : s.queue.scheduled 1 with
      | nil => exact List.Perm.refl _
      | cons mbuf rest =>
          refine perm_all_iff.mpr fun a => ?_
          have hzero : (0 : Port) ≠ 1 := by decide
          dsimp only
          rw [Function.update_self, Function.update_of_ne hzero, hpc, hport]
          simp only [SecondaryPc.hand, List.count_cons, List.count_nil]
          omega
  | free mbuf =>
      refine perm_all_iff.mpr fun a => ?_
      simp only [hpc, SecondaryPc.hand, List.count_cons, List.count_nil]
      omega

lemma perm_device (p : Port) (i : ℕ) (s : State) :
    ({ s with queue := s.queue.schedule flowId p i } : State).all.Perm s.all := by
  rcases s.queue.schedule_cases flowId p i with hsame | ⟨pre, e, post, hqueued, -, hmove⟩
  · rw [hsame]
  · refine perm_all_iff.mpr fun a => ?_
    rw [hmove, hqueued]
    fin_cases p <;> simp [List.count_cons] <;> omega

/-- **Every step** keeps the invariant. -/
lemma At.step {s : State} (t : Turn) (h : At mbufs s) : At mbufs (step t s) := by
  cases t with
  | primary pick accepted =>
      refine ⟨(perm_primary pick accepted s).trans h.perm, ?_⟩
      rw [EventProcesses.step, EventProcesses.primary]
      cases hpc : s.primary with
      | alloc =>
          dsimp only
          split <;> exact h.inOrder
      | enqueue mbuf =>
          dsimp only
          split
          · exact h.inOrder.enqueue mbuf
          · exact h.inOrder
  | secondary =>
      refine ⟨(perm_secondary s).trans h.perm, ?_⟩
      rw [EventProcesses.step, EventProcesses.secondary]
      cases hpc : s.secondary with
      | dequeue =>
          dsimp only [dequeue]
          cases hport : s.queue.scheduled 1 with
          | nil => exact h.inOrder
          | cons mbuf rest => exact h.inOrder.dequeue hport
      | free mbuf => exact h.inOrder
  | device p i => exact ⟨(perm_device p i s).trans h.perm, h.inOrder.schedule p i⟩

lemma at_reached (mbufs : List ℕ) (turns : List Turn) : At mbufs (reached mbufs turns) :=
  run_invariant step (fun t _ h => h.step t) (at_init mbufs) turns

/-- There is one flow. -/
lemma ofFlow_flowId (es : List ℕ) : ofFlow flowId 0 es = es :=
  List.filter_eq_self.mpr fun _ _ => by simp [flowId]

lemma At.isPrefix {s : State} (h : At mbufs s) : s.received <+: s.sent := by
  have hprefix := h.inOrder.isPrefix 0
  rwa [ofFlow_flowId, ofFlow_flowId] at hprefix

/-- What was sent and not received is in the device. -/
lemma At.sent_le {s : State} (h : At mbufs s) :
    s.sent.length + s.refused.length ≤ s.received.length + mbufs.length := by
  obtain ⟨p, -, heq⟩ := h.inOrder 0
  simp only [ofFlow_flowId] at heq
  have hall := h.perm.length_eq
  have hsent := congrArg List.length heq
  simp only [State.all, State.underWay, State.lost, List.length_append] at hall hsent
  fin_cases p <;> simp only [Fin.zero_eta, Fin.mk_one] at hsent <;> omega

/-! ### The port of the primary -/

lemma blocked_iff {q : AtomicQueue Port ℕ} : Blocked flowId q 0 0 ↔ q.scheduled 0 ≠ [] := by
  constructor
  · rintro ⟨e, he, -⟩
    exact List.ne_nil_of_mem he
  · intro hne
    obtain ⟨e, he⟩ := List.exists_mem_of_ne_nil _ hne
    exact ⟨e, he, rfl⟩

/-- While an event waits at the port of the primary nothing is received, and it goes on
waiting. -/
lemma At.step_of_blocked {s : State} (h : At mbufs s) (hblocked : s.queue.scheduled 0 ≠ [])
    (t : Turn) :
    (EventProcesses.step t s).received = s.received ∧
      (EventProcesses.step t s).queue.scheduled 0 ≠ [] := by
  have hb := blocked_iff.mpr hblocked
  cases t with
  | primary pick accepted =>
      rw [EventProcesses.step, EventProcesses.primary]
      cases hpc : s.primary with
      | alloc =>
          dsimp only
          split <;> exact ⟨rfl, hblocked⟩
      | enqueue mbuf =>
          dsimp only
          split <;> exact ⟨rfl, hblocked⟩
  | secondary =>
      -- all events are of the flow that waits, so there is none at the other port
      have hnone : s.queue.scheduled 1 = [] := by
        by_contra hne
        obtain ⟨e, he⟩ := List.exists_mem_of_ne_nil _ hne
        exact h.inOrder.not_mem_of_blocked hb (by decide) he rfl
      rw [EventProcesses.step, EventProcesses.secondary]
      cases hpc : s.secondary with
      | dequeue =>
          dsimp only [dequeue]
          rw [hnone]
          exact ⟨rfl, hblocked⟩
      | free mbuf => exact ⟨rfl, hblocked⟩
  | device p i => exact ⟨rfl, blocked_iff.mp (hb.schedule p i)⟩

/-- **Starvation.** Once the device has scheduled an event to the port of the primary, in
every continuation the secondary receives nothing more, and the primary allocates no more
buffers than the pool has in all beyond those received: then it spins for ever. -/
theorem starves_after (mbufs : List ℕ) (pre post : List Turn)
    (h : (reached mbufs pre).queue.scheduled 0 ≠ []) :
    (reached mbufs (pre ++ post)).received = (reached mbufs pre).received ∧
      (reached mbufs (pre ++ post)).sent.length + (reached mbufs (pre ++ post)).refused.length
        ≤ (reached mbufs pre).received.length + mbufs.length := by
  have hrun : At mbufs (reached mbufs (pre ++ post)) ∧
      (reached mbufs (pre ++ post)).queue.scheduled 0 ≠ [] ∧
      (reached mbufs (pre ++ post)).received = (reached mbufs pre).received := by
    rw [reached, run_append]
    refine run_invariant (P := fun s => At mbufs s ∧ s.queue.scheduled 0 ≠ [] ∧
      s.received = (reached mbufs pre).received) step ?_ ⟨at_reached mbufs pre, h, rfl⟩ post
    rintro t s ⟨hat, hblocked, heq⟩
    obtain ⟨hreceived, hstill⟩ := hat.step_of_blocked hblocked t
    exact ⟨hat.step t, hstill, hreceived.trans heq⟩
  obtain ⟨hat, -, hreceived⟩ := hrun
  have hle := hat.sent_le
  rw [hreceived] at hle
  exact ⟨hreceived, hle⟩

/-- The first event goes to the wrong port, and the second one is stuck behind it. -/
theorem starves_after_first :
    (reached [1, 2] [.primary 0 true, .primary 0 true, .device 0 0, .primary 0 true,
      .primary 0 true, .device 1 0, .secondary, .secondary]).received = [] :=
  (starves_after [1, 2] [.primary 0 true, .primary 0 true, .device 0 0]
    [.primary 0 true, .primary 0 true, .device 1 0, .secondary, .secondary] (by decide)).1

/-! ### Lost buffers -/

/-- The step loses no buffer: an event enqueued is accepted, and none is scheduled to the port
of the primary. -/
def Keeps : Turn → State → Prop
  | .primary _ accepted, s => s.primary ≠ .alloc → accepted = true
  | .secondary, _ => True
  | .device p i, s => p = 1 ∨ s.queue.schedule flowId p i = s.queue

lemma lost_step_of_keeps {t : Turn} {s : State} (hkeeps : Keeps t s) :
    (step t s).lost = s.lost := by
  have hports : (0 : Port) ≠ 1 := by decide
  cases t with
  | primary pick accepted =>
      rw [step, primary]
      cases hpc : s.primary with
      | alloc =>
          dsimp only
          split <;> rfl
      | enqueue mbuf =>
          have haccepted : accepted = true := hkeeps (by simp [hpc])
          simp only [haccepted, if_true, State.lost, AtomicQueue.enqueue]
  | secondary =>
      rw [step, secondary]
      cases hpc : s.secondary with
      | dequeue =>
          dsimp only [dequeue]
          cases hport : s.queue.scheduled 1 with
          | nil => rfl
          | cons mbuf rest =>
              exact congrArg (s.refused ++ ·) (Function.update_of_ne hports rest _)
      | free mbuf => rfl
  | device p i =>
      rw [step, State.lost, State.lost]
      dsimp only
      rcases hkeeps with rfl | hsame
      · rcases s.queue.schedule_cases flowId 1 i with hsame | ⟨pre, e, post, -, -, hmove⟩
        · rw [hsame]
        · rw [hmove]
          exact congrArg (s.refused ++ ·)
            (Function.update_of_ne hports (s.queue.scheduled 1 ++ [e]) _)
      · rw [hsame]

lemma lost_step_of_not_keeps {t : Turn} {s : State} (hkeeps : ¬Keeps t s) :
    (step t s).lost ≠ [] := by
  cases t with
  | primary pick accepted =>
      simp only [Keeps, Classical.not_imp, Bool.not_eq_true] at hkeeps
      rw [step, primary]
      cases hpc : s.primary with
      | alloc => exact absurd hpc hkeeps.1
      | enqueue mbuf => simp [hkeeps.2, State.lost]
  | secondary => exact absurd trivial hkeeps
  | device p i =>
      simp only [Keeps, not_or] at hkeeps
      have hp : p = 0 := by
        fin_cases p
        · rfl
        · exact absurd rfl hkeeps.1
      subst hp
      rcases s.queue.schedule_cases flowId 0 i with hsame | ⟨pre, e, post, -, -, hmove⟩
      · exact absurd hsame hkeeps.2
      · simp [step, State.lost, hmove]

/-- What is lost stays lost. -/
lemma lost_step_of_lost (t : Turn) {s : State} (hlost : s.lost ≠ []) : (step t s).lost ≠ [] := by
  by_cases hkeeps : Keeps t s
  · rwa [lost_step_of_keeps hkeeps]
  · exact lost_step_of_not_keeps hkeeps

/-- **Where the buffers are.** In every run each buffer of the pool is in one place: free, in
the hand of a process, on its way through the device, or lost; those received are the first of
those sent, in order; and none is lost exactly when the device accepts every event and
schedules none to the port of the primary. -/
theorem lost_iff (mbufs : List ℕ) (turns : List Turn) :
    (reached mbufs turns).all.Perm mbufs ∧
    (reached mbufs turns).received <+: (reached mbufs turns).sent ∧
    ((reached mbufs turns).lost = [] ↔ StepsMeet step Keeps turns (State.init mbufs)) := by
  have h := at_reached mbufs turns
  refine ⟨h.perm, h.isPrefix, fun hnone => ?_, fun hmeet => ?_⟩
  · exact stepsMeet_of_final (P := fun _ => True) (B := fun s => s.lost ≠ []) (fun _ _ _ => trivial)
      (fun t _ _ hlost => lost_step_of_lost t hlost)
      (fun _ _ _ hkeeps => lost_step_of_not_keeps hkeeps) trivial (not_not.mpr hnone)
  · exact run_invariant_of_stepsMeet (P := fun s => s.lost = [])
      (fun _ _ hkeeps hlost => (lost_step_of_keeps hkeeps).trans hlost) hmeet rfl

end DpdkStarter.EventProcesses
