import DpdkStarter.Library.AtomicQueue
import DpdkStarter.Library.Progress

/-!
`eventdev/02practice/main.c`: ten events of two flows, and two consumers that take turns.

The events are enqueued one by one, each as often as it takes, into a queue of atomic flows;
then the two consumer ports are polled in turn until ten events came. The device schedules
when and where it likes, so a run is any sequence of steps of the program and of the device.

* `mainStep`, `step`: a step of the program, and of the whole.
* `KeepsFlows`: the steps of a device that keeps a flow at the port that is at work on it.
* `At`, `at_reached`: the invariant.
* `GetsOn`, `getsOn`: from every state before the end the program can get on.
* `every_event_once`: what is printed, and that the program can always end.
-/

namespace DpdkStarter.TwoConsumers

open Machine AtomicQueue

/-- `NUM_PORTS`: the producer and two consumers. -/
abbrev Port := Fin 3

/-- The fields of `struct rte_event` that differ. -/
structure Event where
  flowId : ℕ
  u64 : ℕ
  deriving DecidableEq

/-- The number of events. -/
def numEvents : ℕ := 10

/-- The `i`-th event. -/
def event (i : ℕ) : Event := ⟨i % 2, i⟩

/-- The events, in the order in which they are enqueued. -/
def events : List Event := (List.range numEvents).map event

/-- The ports linked to the queue. -/
def Linked (p : Port) : Prop := p = 1 ∨ p = 2

instance (p : Port) : Decidable (Linked p) := inferInstanceAs (Decidable (_ ∨ _))

/-- Where the program is: at the enqueue of an event, or at a poll with the count so far. -/
inductive Pc where
  | enqueue (i : ℕ)
  | consumer1 (received : ℕ)
  | consumer2 (received : ℕ)
  | done
  deriving DecidableEq

/-- The device, the program, and what was printed: the consumer and the event. A port is at
work on the event it dequeued until it dequeues again. -/
structure State where
  queue : AtomicQueue Port Event
  working : Port → Option Event
  pc : Pc
  printed : List (Port × Event)

/-- The state after the device was started. -/
def State.init : State := ⟨.empty, fun _ => none, .enqueue 0, []⟩

/-- `rte_event_dequeue_burst` at a port and what follows; `next` is told the count. -/
def poll (p : Port) (received : ℕ) (next : ℕ → Pc) (s : State) : State :=
  match s.queue.dequeue p with
  | (none, _) =>
      { s with
        working := Function.update s.working p none
        pc := next received }
  | (some e, queue) =>
      { queue := queue
        working := Function.update s.working p (some e)
        pc := next (received + 1)
        printed := s.printed ++ [(p, e)] }

/-- A step of the program; the device accepts an event or not. -/
def mainStep (accepted : Bool) (s : State) : State :=
  match s.pc with
  | .enqueue i =>
      if accepted then
        { s with
          queue := s.queue.enqueue (event i)
          pc := if i + 1 < numEvents then .enqueue (i + 1) else .consumer1 0 }
      else s
  | .consumer1 received =>
      if received < numEvents then poll 1 received .consumer2 s else { s with pc := .done }
  | .consumer2 received => poll 2 received .consumer1 s
  | .done => s

/-- Whose step it is. -/
inductive Turn where
  | main (accepted : Bool)
  | device (p : Port) (i : ℕ)

/-- One step. -/
def step : Turn → State → State
  | .main accepted, s => mainStep accepted s
  | .device p i, s => if Linked p then { s with queue := s.queue.schedule Event.flowId p i } else s

/-- The step is one of the program, or of a device that keeps a flow at the port that is at
work on it. -/
def KeepsFlows : Turn → State → Prop
  | .main _, _ => True
  | .device p i, s => ∀ e ∈ s.queue.queued[i]?, KeepsFlow Event.flowId s.working p e

/-- The state after a sequence of steps. -/
abbrev reached (turns : List Turn) : State := run step turns State.init

/-! ### The invariant -/

/-- The events enqueued. -/
def Pc.enqueued : Pc → ℕ
  | .enqueue i => i
  | .consumer1 _ | .consumer2 _ | .done => numEvents

/-- What the counters say. -/
def Pc.Counts (printed : ℕ) : Pc → Prop
  | .enqueue i => i < numEvents ∧ printed = 0
  | .consumer1 received | .consumer2 received => received = printed
  | .done => numEvents ≤ printed

/-- The number of events in the device, behind the producer. -/
def inside (q : AtomicQueue Port Event) : ℕ :=
  q.queued.length + (q.scheduled 1).length + (q.scheduled 2).length

/-- The events delivered. -/
def State.delivered (s : State) : List Event := s.printed.map Prod.snd

/-- **The invariant**: the flows are in order, the counters are right, and nothing is at the
port of the producer, which works on no event. -/
structure At (s : State) : Prop where
  inOrder : InOrder Event.flowId s.queue ((List.range s.pc.enqueued).map event) s.delivered
  counts : s.pc.Counts s.printed.length
  producer : s.queue.scheduled 0 = []
  idle : s.working 0 = none
  total : s.printed.length + inside s.queue = s.pc.enqueued
  consumers : ∀ line ∈ s.printed, line.1 = 1 ∨ line.1 = 2

lemma at_init : At State.init :=
  ⟨inOrder_empty, ⟨by decide, rfl⟩, rfl, rfl, rfl, fun _ h => absurd h List.not_mem_nil⟩

/-- A port other than the producer's holds one event less. -/
lemma inside_dequeue {q : AtomicQueue Port Event} {p : Port} (hp : Linked p) {e : Event}
    {rest : List Event} (hport : q.scheduled p = e :: rest) :
    inside { q with scheduled := Function.update q.scheduled p rest } + 1 = inside q := by
  rcases hp with rfl | rfl
  · simp only [inside, Function.update_self, hport, List.length_cons, Function.update_of_ne,
      ne_eq, (by decide : ¬(2 : Port) = 1), not_false_eq_true]
    omega
  · simp only [inside, Function.update_self, hport, List.length_cons, Function.update_of_ne,
      ne_eq, (by decide : ¬(1 : Port) = 2), not_false_eq_true]
    omega

/-- Scheduling to a consumer moves an event inside the device. -/
lemma inside_schedule (q : AtomicQueue Port Event) {p : Port} (hp : Linked p) (i : ℕ) :
    inside (q.schedule Event.flowId p i) = inside q := by
  rcases q.schedule_cases Event.flowId p i with hsame | ⟨pre, e, post, hqueued, -, hmove⟩
  · rw [hsame]
  · rw [hmove, inside, inside, hqueued]
    rcases hp with rfl | rfl <;> simp <;> omega

/-- A poll of a consumer, between two places with the count of what was printed. -/
lemma At.poll {s : State} (h : At s) {p : Port} (hp : Linked p) (next : ℕ → Pc)
    (hnow : s.pc.enqueued = numEvents) (hnext : ∀ n, (next n).enqueued = numEvents)
    (hcounts : ∀ n, (next n).Counts n) : At (poll p s.printed.length next s) := by
  have hinOrder := h.inOrder
  rw [hnow] at hinOrder
  have hne : (0 : Port) ≠ p := by rcases hp with rfl | rfl <;> decide
  have hidle : ∀ working, Function.update s.working p working 0 = none := fun working =>
    (Function.update_of_ne hne working s.working).trans h.idle
  rw [TwoConsumers.poll, dequeue]
  cases hport : s.queue.scheduled p with
  | nil =>
      refine ⟨?_, hcounts _, h.producer, hidle none, ?_, h.consumers⟩
      · dsimp only
        rwa [hnext]
      · dsimp only
        rw [hnext, h.total, hnow]
  | cons e rest =>
      refine ⟨?_, ?_, ?_, hidle (some e), ?_, ?_⟩
      · have hdequeue := hinOrder.dequeue hport
        dsimp only
        rw [hnext, State.delivered, List.map_append]
        exact hdequeue
      · dsimp only
        rw [List.length_append]
        exact hcounts _
      · dsimp only
        rw [Function.update_of_ne hne]
        exact h.producer
      · have htotal := h.total
        have hinside := inside_dequeue hp hport
        dsimp only
        rw [hnext, List.length_append, List.length_singleton]
        omega
      · intro line hline
        rcases List.mem_append.mp hline with hmem | hmem
        · exact h.consumers line hmem
        · rw [List.mem_singleton.mp hmem]
          exact hp

/-- A step of the program keeps the invariant. -/
lemma At.mainStep {s : State} (h : At s) (accepted : Bool) : At (mainStep accepted s) := by
  have hcounts := h.counts
  rw [TwoConsumers.mainStep]
  cases hpc : s.pc with
  | enqueue i =>
      rw [hpc] at hcounts
      dsimp only
      split
      · have hinOrder := h.inOrder.enqueue (event i)
        rw [hpc] at hinOrder
        have hall : (List.range i).map event ++ [event i] = (List.range (i + 1)).map event := by
          rw [List.range_succ, List.map_append]
          rfl
        have htotal : s.printed.length + inside (s.queue.enqueue (event i)) = i + 1 := by
          have hbefore := h.total
          rw [hpc, Pc.enqueued, inside] at hbefore
          rw [inside, AtomicQueue.enqueue, List.length_append, List.length_singleton]
          dsimp only
          omega
        rw [Pc.enqueued, hall] at hinOrder
        split
        · rename_i hlt
          exact ⟨hinOrder, ⟨hlt, hcounts.2⟩, h.producer, h.idle, htotal, h.consumers⟩
        · rename_i hlast
          have hten : i + 1 = numEvents := by
            have hlt := hcounts.1
            omega
          rw [hten] at hinOrder htotal
          exact ⟨hinOrder, hcounts.2.symm, h.producer, h.idle, htotal, h.consumers⟩
      · exact h
  | consumer1 received =>
      rw [hpc] at hcounts
      have hreceived : received = s.printed.length := hcounts
      subst hreceived
      dsimp only
      split
      · exact h.poll (Or.inl rfl) .consumer2 (by rw [hpc]; rfl) (fun _ => rfl) (fun _ => rfl)
      · rename_i hdone
        have hinOrder := h.inOrder
        have htotal := h.total
        rw [hpc] at hinOrder htotal
        exact ⟨hinOrder, not_lt.mp hdone, h.producer, h.idle, htotal, h.consumers⟩
  | consumer2 received =>
      rw [hpc] at hcounts
      have hreceived : received = s.printed.length := hcounts
      subst hreceived
      exact h.poll (Or.inr rfl) .consumer1 (by rw [hpc]; rfl) (fun _ => rfl) (fun _ => rfl)
  | done => exact h

/-- So does a step of the device. -/
lemma At.device {s : State} (h : At s) {p : Port} (hp : Linked p) (i : ℕ) :
    At { s with queue := s.queue.schedule Event.flowId p i } := by
  refine ⟨h.inOrder.schedule p i, h.counts, ?_, h.idle, ?_, h.consumers⟩
  · dsimp only
    rcases s.queue.schedule_cases Event.flowId p i with hsame | ⟨pre, e, post, -, -, hmove⟩
    · rw [hsame]
      exact h.producer
    · have hne : (0 : Port) ≠ p := by rcases hp with rfl | rfl <;> decide
      rw [hmove]
      dsimp only
      rw [Function.update_of_ne hne]
      exact h.producer
  · dsimp only
    rw [inside_schedule _ hp]
    exact h.total

/-- **Every step** keeps the invariant. -/
lemma At.step {s : State} (t : Turn) (h : At s) : At (step t s) := by
  cases t with
  | main accepted => exact h.mainStep accepted
  | device p i =>
      rw [TwoConsumers.step]
      split
      · rename_i hp
        exact h.device hp i
      · exact h

lemma at_reached (turns : List Turn) : At (reached turns) :=
  run_invariant step (fun t _ h => h.step t) at_init turns

/-! ### The end -/

/-- How far the program is. -/
def State.rank (s : State) : ℕ :=
  s.pc.enqueued + 2 * s.printed.length + (s.queue.scheduled 1).length
    + (s.queue.scheduled 2).length + if s.pc = .done then 1 else 0

lemma At.enqueued_le {s : State} (h : At s) : s.pc.enqueued ≤ numEvents := by
  have hcounts := h.counts
  cases hpc : s.pc with
  | enqueue i =>
      rw [hpc] at hcounts
      exact Nat.le_of_lt hcounts.1
  | _ => exact Nat.le_refl numEvents

lemma At.rank_le {s : State} (h : At s) : s.rank ≤ 31 := by
  have htotal := h.total
  have henqueued := h.enqueued_le
  rw [numEvents] at henqueued
  rw [inside] at htotal
  rw [State.rank]
  split <;> omega

/-- A poll finds an event. -/
lemma rank_poll {s : State} {p : Port} (hp : Linked p) (next : ℕ → Pc)
    (hnow : s.pc.enqueued = numEvents) (hnext : ∀ n, (next n).enqueued = numEvents)
    (hgoes : s.pc ≠ .done) (hport : s.queue.scheduled p ≠ []) (n : ℕ) :
    s.rank < (poll p n next s).rank := by
  obtain ⟨e, rest, hsome⟩ := List.exists_cons_of_ne_nil hport
  have hinside := inside_dequeue hp hsome
  rw [poll, dequeue, hsome, State.rank, State.rank, if_neg hgoes, hnow]
  rw [inside, inside] at hinside
  dsimp only at hinside ⊢
  rw [hnext, List.length_append, List.length_singleton]
  omega

/-- An empty poll ends the work on the event before, and the program goes on. -/
lemma poll_of_nil {s : State} {p : Port} (hport : s.queue.scheduled p = []) (n : ℕ)
    (next : ℕ → Pc) :
    poll p n next s = { s with working := Function.update s.working p none, pc := next n } := by
  rw [poll, dequeue, hport]

/-- The events behind the producer are the ones the first consumer waits for. -/
lemma At.received_add {s : State} (h : At s) {received : ℕ} (hpc : s.pc = .consumer1 received) :
    received + inside s.queue = numEvents := by
  have hcounts := h.counts
  have htotal := h.total
  rw [hpc] at hcounts htotal
  have hreceived : received = s.printed.length := hcounts
  rw [hreceived]
  exact htotal

/-- The first consumer finds nothing while events are missing. -/
lemma step_consumer1_of_nil {s : State} {received : ℕ} (hpc : s.pc = .consumer1 received)
    (hlt : received < numEvents) (hone : s.queue.scheduled 1 = []) :
    step (.main true) s
      = { s with working := Function.update s.working 1 none, pc := .consumer2 received } := by
  rw [step, mainStep, hpc]
  simp only [if_pos hlt]
  exact poll_of_nil hone received .consumer2

/-- The second one finds nothing. -/
lemma step_consumer2_of_nil {s : State} {received : ℕ} (hpc : s.pc = .consumer2 received)
    (htwo : s.queue.scheduled 2 = []) :
    step (.main true) s
      = { s with working := Function.update s.working 2 none, pc := .consumer1 received } := by
  rw [step, mainStep, hpc]
  exact poll_of_nil htwo received .consumer1

/-- With nothing scheduled, the device can schedule the first event. -/
lemma schedule_first {q : AtomicQueue Port Event} (hproducer : q.scheduled 0 = [])
    (hone : q.scheduled 1 = []) (htwo : q.scheduled 2 = []) {e : Event} {rest : List Event}
    (hqueued : q.queued = e :: rest) :
    q.schedule Event.flowId 1 0 = ⟨rest, Function.update q.scheduled 1 [e]⟩ := by
  have hmay : MaySchedule Event.flowId q 1 [] e := by
    refine ⟨fun _ h => absurd h List.not_mem_nil, fun p' _ e' he' => ?_⟩
    have hnone : q.scheduled p' = [] := by fin_cases p' <;> assumption
    rw [hnone] at he'
    exact absurd he' List.not_mem_nil
  rw [schedule, hqueued]
  simp only [List.drop_zero, List.take_zero, if_pos hmay, hone, List.nil_append]

/-- Once neither consumer is at work, every device can schedule the first event. -/
lemma keepsFlows_first {s : State} (h : At s) (hone : s.working 1 = none)
    (htwo : s.working 2 = none) : KeepsFlows (.device 1 0) s := by
  intro e _ p' _ e' he'
  have hnone : s.working p' = none := by
    have hproducer := h.idle
    fin_cases p' <;> assumption
  rw [hnone] at he'
  cases he'

/-- A step of the program is one on every device. -/
lemma keepsFlows_main (accepted : Bool) (s : State) : KeepsFlows (.main accepted) s := trivial

/-- The program gets on from a state: some steps that every device can make bring it further. -/
def GetsOn (s : State) : Prop :=
  ∃ is, StepsMeet step KeepsFlows is s ∧ s.rank < (run step is s).rank

/-- It does so when a step does, or when it does after a step that loses nothing. -/
lemma getsOn_of_step {s : State} {t : Turn} (ht : KeepsFlows t s)
    (h : s.rank < (step t s).rank ∨ (s.rank = (step t s).rank ∧ GetsOn (step t s))) :
    GetsOn s := by
  rcases h with hup | ⟨hsame, is, hmeet, hup⟩
  · exact ⟨[t], ⟨ht, trivial⟩, hup⟩
  · exact ⟨t :: is, ⟨ht, hmeet⟩, hsame ▸ hup⟩

/-- A poll that finds an event gets on. -/
lemma getsOn_poll {s : State} {p : Port} (hp : Linked p) (received : ℕ) (next : ℕ → Pc)
    (hnow : s.pc.enqueued = numEvents) (hnext : ∀ n, (next n).enqueued = numEvents)
    (hgoes : s.pc ≠ .done) (hport : s.queue.scheduled p ≠ [])
    (hstep : step (.main true) s = poll p received next s) : GetsOn s := by
  refine getsOn_of_step (keepsFlows_main true s) (Or.inl ?_)
  rw [hstep]
  exact rank_poll hp next hnow hnext hgoes hport received

/-- At the poll of the first consumer the program gets on when an event is at one of the
consumers, or none is left. -/
lemma getsOn_of_port {s : State} (h : At s) {received : ℕ} (hpc : s.pc = .consumer1 received)
    (hsome : s.queue.queued ≠ [] → s.queue.scheduled 1 ≠ [] ∨ s.queue.scheduled 2 ≠ []) :
    GetsOn s := by
  have hadd := h.received_add hpc
  rw [inside] at hadd
  have hgoes : s.pc ≠ .done := by simp [hpc]
  have hnow : s.pc.enqueued = numEvents := by rw [hpc]; rfl
  by_cases hone : s.queue.scheduled 1 = []
  · by_cases htwo : s.queue.scheduled 2 = []
    · -- nothing is left, so ten events came
      have hqueued : s.queue.queued = [] := by
        by_contra hne
        exact (hsome hne).elim (absurd hone) (absurd htwo)
      have hten : ¬received < numEvents := by
        rw [hone, htwo, hqueued] at hadd
        simp only [List.length_nil] at hadd
        omega
      refine getsOn_of_step (keepsFlows_main true s) (Or.inl ?_)
      rw [step, mainStep, hpc]
      simp only [if_neg hten, State.rank, hpc, Pc.enqueued, if_true, reduceCtorEq, if_false]
      omega
    · have hpos := List.length_pos_of_ne_nil htwo
      refine getsOn_of_step (keepsFlows_main true s) (Or.inr ?_)
      rw [step_consumer1_of_nil hpc (by omega) hone]
      refine ⟨by simp [State.rank, hpc, Pc.enqueued], ?_⟩
      exact getsOn_poll (Or.inr rfl) _ .consumer1 rfl (fun _ => rfl) (by simp) htwo rfl
  · have hpos := List.length_pos_of_ne_nil hone
    have hlt : received < numEvents := by omega
    refine getsOn_poll (Or.inl rfl) received .consumer2 hnow (fun _ => rfl) hgoes hone ?_
    rw [step, mainStep, hpc]
    simp only [if_pos hlt]

/-- So it does when neither consumer is at work. -/
lemma getsOn_idle {s : State} (h : At s) {received : ℕ} (hpc : s.pc = .consumer1 received)
    (hone : s.working 1 = none) (htwo : s.working 2 = none) : GetsOn s := by
  by_cases hport : s.queue.scheduled 1 = [] ∧ s.queue.scheduled 2 = []
  · cases hqueued : s.queue.queued with
    | nil => exact getsOn_of_port h hpc fun hne => absurd hqueued hne
    | cons e rest =>
        have hlinked : Linked 1 := Or.inl rfl
        refine getsOn_of_step (keepsFlows_first h hone htwo) (Or.inl ?_)
        rw [step, if_pos hlinked, schedule_first h.producer hport.1 hport.2 hqueued]
        simp [State.rank, hpc, hport.1]
  · exact getsOn_of_port h hpc fun _ => not_and_or.mp hport

/-- So it does from every poll of the first consumer: two empty polls end the work of the
consumers. -/
lemma getsOn_consumer1 {s : State} (h : At s) {received : ℕ} (hpc : s.pc = .consumer1 received) :
    GetsOn s := by
  by_cases hempty : s.queue.queued ≠ [] → s.queue.scheduled 1 ≠ [] ∨ s.queue.scheduled 2 ≠ []
  · exact getsOn_of_port h hpc hempty
  · simp only [Classical.not_imp, not_or, not_not] at hempty
    obtain ⟨hqueued, hone, htwo⟩ := hempty
    have hadd := h.received_add hpc
    have hpos := List.length_pos_of_ne_nil hqueued
    rw [inside] at hadd
    have hfirst := step_consumer1_of_nil hpc (by omega) hone
    have hsecond : step (.main true) (step (.main true) s)
        = { s with
            working := Function.update (Function.update s.working 1 none) 2 none
            pc := .consumer1 received } := by
      rw [hfirst]
      exact step_consumer2_of_nil rfl htwo
    have hidle : GetsOn (step (.main true) (step (.main true) s)) := by
      have hat := (h.step (.main true)).step (.main true)
      rw [hsecond] at hat ⊢
      exact getsOn_idle hat rfl rfl rfl
    refine getsOn_of_step (keepsFlows_main true s) (Or.inr ⟨?_, ?_⟩)
    · rw [hfirst]
      simp [State.rank, hpc, Pc.enqueued]
    · refine getsOn_of_step (keepsFlows_main true _) (Or.inr ⟨?_, hidle⟩)
      rw [hsecond, hfirst]
      rfl

/-- **The program gets on**, from every state before the end. -/
lemma getsOn {s : State} (h : At s) (hgoes : s.pc ≠ .done) : GetsOn s := by
  cases hpc : s.pc with
  | enqueue i =>
      refine getsOn_of_step (keepsFlows_main true s) (Or.inl ?_)
      rw [step, mainStep, hpc]
      have hcounts := h.counts
      rw [hpc] at hcounts
      by_cases hlast : i + 1 < numEvents
      · simp [State.rank, hpc, AtomicQueue.enqueue, Pc.enqueued, hlast]
      · have hten : numEvents = i + 1 := by
          have hlt := hcounts.1
          omega
        simp [State.rank, hpc, AtomicQueue.enqueue, Pc.enqueued, hten]
  | consumer1 received => exact getsOn_consumer1 h hpc
  | consumer2 received =>
      by_cases htwo : s.queue.scheduled 2 = []
      · have hfirst := step_consumer2_of_nil hpc htwo
        have hnext := h.step (.main true)
        rw [hfirst] at hnext
        refine getsOn_of_step (keepsFlows_main true s) (Or.inr ?_)
        rw [hfirst]
        exact ⟨by simp [State.rank, hpc, Pc.enqueued], getsOn_consumer1 hnext rfl⟩
      · refine getsOn_poll (Or.inr rfl) received .consumer1 (by rw [hpc]; rfl)
          (fun _ => rfl) hgoes htwo ?_
        rw [step, mainStep, hpc]
  | done => exact absurd hpc hgoes

/-- The program can end, on every device. -/
lemma exists_done {s : State} (h : At s) :
    ∃ is, StepsMeet step KeepsFlows is s ∧ (run step is s).pc = .done := by
  have hinv : ∀ is s, StepsMeet step KeepsFlows is s → At s → At (run step is s) :=
    fun is _ _ hs => run_invariant step (fun t _ ht => ht.step t) hs is
  have hlive : ∀ s, At s → ¬s.pc = .done → GetsOn s := fun _ hs hgoes => getsOn hs hgoes
  obtain ⟨iss, hmeet, -, hdone⟩ := exists_run_done hinv hlive (fun _ hs => hs.rank_le) h
  refine ⟨iss.flatten, stepsMeet_flatten.mpr hmeet, ?_⟩
  rwa [run_flatten]

/-- **Every event once.** In every run, whatever the device accepts and wherever it schedules:
of each flow the events printed are, in their order, a first part of those of the flow, all by
one of the two consumers; when the program has ended each of the ten events was printed once,
and none is left in the device; and at every point the program can still end, on a device that
keeps a flow at the port that is at work on it as well. -/
theorem every_event_once (turns : List Turn) :
    (∀ f, ofFlow Event.flowId f (reached turns).delivered <+: ofFlow Event.flowId f events) ∧
    (∀ line ∈ (reached turns).printed, line.1 = 1 ∨ line.1 = 2) ∧
    ((reached turns).pc = .done →
      (reached turns).delivered.Perm events ∧ (reached turns).queue = .empty) ∧
    ∃ more, StepsMeet step KeepsFlows more (reached turns) ∧
      (reached (turns ++ more)).pc = .done := by
  have h := at_reached turns
  have hcounts := h.counts
  refine ⟨fun f => (h.inOrder.isPrefix f).trans ?_, h.consumers, fun hdone => ?_, ?_⟩
  · have hfirst : List.range (reached turns).pc.enqueued <+: List.range numEvents := by
      rw [← Nat.min_eq_left h.enqueued_le, ← List.take_range]
      exact List.take_prefix _ _
    exact (hfirst.map event).filter _
  · have hinOrder := h.inOrder
    rw [hdone] at hinOrder hcounts
    refine hinOrder.perm ?_
    rw [State.delivered, List.length_map, List.length_map, List.length_range]
    exact hcounts
  · obtain ⟨more, hmeet, hdone⟩ := exists_done h
    refine ⟨more, hmeet, ?_⟩
    rwa [reached, run_append]

end DpdkStarter.TwoConsumers
