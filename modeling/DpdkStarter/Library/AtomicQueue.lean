import Mathlib.Tactic

/-!
A queue of events that are handed out flow by flow.

Events are enqueued, scheduled to a port, and dequeued there. Which event is scheduled when
and where is up to the device, within two limits: an event is not scheduled before an earlier
one of its flow, and not while events of its flow are at another port. A device may also keep
a flow at the port that dequeued an event of it, until that port dequeues again. What is shown
of all schedules is shown of those it makes; that a schedule of some kind exists has to be
shown for the ones it is left with, which is what `KeepsFlow` is for.

* `AtomicQueue`: what was enqueued and not scheduled, and what is at each port;
  `enqueue`, `schedule`, `dequeue`.
* `KeepsFlow`: no other port is at work on the flow of an event.
* `InOrder`: the events of each flow are delivered in the order in which they were enqueued;
  `InOrder.enqueue`, `InOrder.schedule`, `InOrder.dequeue`: every operation keeps it.
* `InOrder.perm`: when as many events were delivered as were enqueued, each was, once.
* `Blocked`: an event waits at a port, and its flow goes nowhere else.
-/

namespace DpdkStarter

/-- The events not yet scheduled, and those at each port and not yet dequeued. -/
structure AtomicQueue (π α : Type*) where
  queued : List α
  scheduled : π → List α

namespace AtomicQueue

variable {π α φ : Type*}

@[ext] lemma ext {q q' : AtomicQueue π α} (hqueued : q.queued = q'.queued)
    (hscheduled : q.scheduled = q'.scheduled) : q = q' := by
  cases q
  cases q'
  cases hqueued
  cases hscheduled
  rfl

/-- No events. -/
def empty : AtomicQueue π α := ⟨[], fun _ => []⟩

/-- One more event. -/
def enqueue (q : AtomicQueue π α) (e : α) : AtomicQueue π α :=
  { q with queued := q.queued ++ [e] }

/-- The next event at a port. -/
def dequeue [DecidableEq π] (q : AtomicQueue π α) (p : π) : Option α × AtomicQueue π α :=
  match q.scheduled p with
  | [] => (none, q)
  | e :: rest => (some e, { q with scheduled := Function.update q.scheduled p rest })

/-- The event behind `pre` may go to the port: its flow is neither in front of it nor at
another port. -/
def MaySchedule (flow : α → φ) (q : AtomicQueue π α) (p : π) (pre : List α) (e : α) : Prop :=
  (∀ e' ∈ pre, flow e' ≠ flow e) ∧ ∀ p', p' ≠ p → ∀ e' ∈ q.scheduled p', flow e' ≠ flow e

/-- No other port is at work on the flow of the event: a device that keeps a flow at the
port that dequeued an event of it may schedule this one to the port. -/
def KeepsFlow (flow : α → φ) (working : π → Option α) (p : π) (e : α) : Prop :=
  ∀ p', p' ≠ p → ∀ e' ∈ working p', flow e' ≠ flow e

instance [Fintype π] [DecidableEq π] [DecidableEq φ] (flow : α → φ) (q : AtomicQueue π α) (p : π)
    (pre : List α) (e : α) : Decidable (MaySchedule flow q p pre e) :=
  inferInstanceAs (Decidable (_ ∧ _))

/-- The device schedules the event in the `i`-th place to the port, if it may. -/
def schedule [Fintype π] [DecidableEq π] [DecidableEq φ] (flow : α → φ) (q : AtomicQueue π α)
    (p : π) (i : ℕ) : AtomicQueue π α :=
  match q.queued.drop i with
  | [] => q
  | e :: post =>
      if MaySchedule flow q p (q.queued.take i) e then
        { queued := q.queued.take i ++ post
          scheduled := Function.update q.scheduled p (q.scheduled p ++ [e]) }
      else q

/-- **What scheduling can do**: nothing, or move an event that may go to the port. -/
lemma schedule_cases [Fintype π] [DecidableEq π] [DecidableEq φ] (flow : α → φ)
    (q : AtomicQueue π α) (p : π) (i : ℕ) :
    q.schedule flow p i = q ∨ ∃ pre e post, q.queued = pre ++ e :: post ∧
      MaySchedule flow q p pre e ∧
      q.schedule flow p i
        = ⟨pre ++ post, Function.update q.scheduled p (q.scheduled p ++ [e])⟩ := by
  rw [schedule]
  split
  · exact Or.inl rfl
  · rename_i e post hdrop
    have hqueued : q.queued = q.queued.take i ++ e :: post := by
      rw [← hdrop, List.take_append_drop]
    split
    · rename_i hmay
      exact Or.inr ⟨q.queued.take i, e, post, hqueued, hmay, rfl⟩
    · exact Or.inl rfl

/-! ### Order -/

section Order

variable [DecidableEq φ] (flow : α → φ)

/-- The events of one flow. -/
def ofFlow (f : φ) (es : List α) : List α := es.filter fun e => flow e = f

variable {flow} {f : φ} {e : α} {es es' : List α}

@[simp] lemma ofFlow_nil : ofFlow flow f [] = [] := rfl

@[simp] lemma ofFlow_append : ofFlow flow f (es ++ es') = ofFlow flow f es ++ ofFlow flow f es' :=
  List.filter_append es es'

lemma ofFlow_cons_self : ofFlow flow (flow e) (e :: es) = e :: ofFlow flow (flow e) es :=
  List.filter_cons_of_pos (by simp)

lemma ofFlow_cons_of_ne (h : flow e ≠ f) : ofFlow flow f (e :: es) = ofFlow flow f es :=
  List.filter_cons_of_neg (by simpa using h)

lemma ofFlow_eq_nil (h : ∀ e ∈ es, flow e ≠ f) : ofFlow flow f es = [] :=
  List.filter_eq_nil_iff.mpr fun e he => by simpa using h e he

lemma not_mem_of_ofFlow_eq_nil (h : ofFlow flow (flow e) es = []) : e ∉ es := fun he => by
  simpa using List.filter_eq_nil_iff.mp h e he

lemma count_ofFlow [DecidableEq α] (es : List α) (e : α) :
    (ofFlow flow (flow e) es).count e = es.count e :=
  List.count_filter (by simp)

/-- **The order of a flow**: its events that were delivered, then those at the one port it is
scheduled to, then those queued, are its events as they were enqueued. -/
def InOrder (flow : α → φ) (q : AtomicQueue π α) (enqueued delivered : List α) : Prop :=
  ∀ f, ∃ p, (∀ p', p' ≠ p → ∀ e ∈ q.scheduled p', flow e ≠ f) ∧
    ofFlow flow f delivered ++ (ofFlow flow f (q.scheduled p) ++ ofFlow flow f q.queued)
      = ofFlow flow f enqueued

variable {q : AtomicQueue π α} {enqueued delivered : List α}

lemma inOrder_empty [Nonempty π] : InOrder flow (empty : AtomicQueue π α) [] [] :=
  fun _ => ⟨Classical.arbitrary π, fun _ _ _ h => absurd h List.not_mem_nil, rfl⟩

lemma InOrder.enqueue (h : InOrder flow q enqueued delivered) (e : α) :
    InOrder flow (q.enqueue e) (enqueued ++ [e]) delivered := by
  intro f
  obtain ⟨p, hother, heq⟩ := h f
  refine ⟨p, hother, ?_⟩
  rw [AtomicQueue.enqueue, ofFlow_append, ofFlow_append, ← heq]
  simp only [List.append_assoc]

/-- **Scheduling** moves an event behind those of its flow at the port. -/
lemma InOrder.move [DecidableEq π] (h : InOrder flow q enqueued delivered) {p : π}
    {pre post : List α} {e : α} (hqueued : q.queued = pre ++ e :: post)
    (hmay : MaySchedule flow q p pre e) :
    InOrder flow ⟨pre ++ post, Function.update q.scheduled p (q.scheduled p ++ [e])⟩ enqueued
      delivered := by
  intro f
  obtain ⟨p₀, hother, heq⟩ := h f
  rw [hqueued, ofFlow_append] at heq
  dsimp only
  by_cases hf : flow e = f
  · -- the flow of the event is now at `p`, wherever it was scheduled to before
    subst hf
    refine ⟨p, fun p' hp' => ?_, ?_⟩
    · rw [Function.update_of_ne hp']
      exact hmay.2 p' hp'
    · have hsame : ofFlow flow (flow e) (q.scheduled p₀)
          = ofFlow flow (flow e) (q.scheduled p) := by
        by_cases hp : p₀ = p
        · rw [hp]
        · rw [ofFlow_eq_nil (hmay.2 p₀ hp), ofFlow_eq_nil (hother p (Ne.symm hp))]
      have hpre := ofFlow_eq_nil hmay.1
      rw [hsame, ofFlow_cons_self, hpre, List.nil_append] at heq
      rw [Function.update_self, ofFlow_append, ofFlow_append, ofFlow_cons_self, ofFlow_nil, hpre,
        List.nil_append, List.append_assoc]
      exact heq
  · refine ⟨p₀, fun p' hp' => ?_, ?_⟩
    · by_cases hp : p' = p
      · subst hp
        rw [Function.update_self]
        intro e' he'
        rcases List.mem_append.mp he' with hmem | hmem
        · exact hother p' hp' e' hmem
        · rwa [List.mem_singleton.mp hmem]
      · rw [Function.update_of_ne hp]
        exact hother p' hp'
    · have hsame : ofFlow flow f (Function.update q.scheduled p (q.scheduled p ++ [e]) p₀)
          = ofFlow flow f (q.scheduled p₀) := by
        by_cases hp : p₀ = p
        · rw [hp, Function.update_self, ofFlow_append, ofFlow_cons_of_ne hf, ofFlow_nil,
            List.append_nil]
        · rw [Function.update_of_ne hp]
      rw [ofFlow_cons_of_ne hf] at heq
      rw [hsame, ofFlow_append]
      exact heq

lemma InOrder.schedule [Fintype π] [DecidableEq π] (h : InOrder flow q enqueued delivered) (p : π)
    (i : ℕ) : InOrder flow (q.schedule flow p i) enqueued delivered := by
  rcases q.schedule_cases flow p i with hsame | ⟨pre, e, post, hqueued, hmay, hmove⟩
  · rwa [hsame]
  · rw [hmove]
    exact h.move hqueued hmay

/-- **A delivery** takes the first event at a port, which is the next of its flow. -/
lemma InOrder.dequeue [DecidableEq π] (h : InOrder flow q enqueued delivered) {p : π} {e : α}
    {rest : List α} (hport : q.scheduled p = e :: rest) :
    InOrder flow { q with scheduled := Function.update q.scheduled p rest } enqueued
      (delivered ++ [e]) := by
  intro f
  obtain ⟨p₀, hother, heq⟩ := h f
  dsimp only
  have hmem : e ∈ q.scheduled p := by
    rw [hport]
    exact List.mem_cons_self
  refine ⟨p₀, fun p' hp' => ?_, ?_⟩
  · by_cases hp : p' = p
    · subst hp
      rw [Function.update_self]
      intro e' he'
      exact hother p' hp' e' (by rw [hport]; exact List.mem_cons_of_mem e he')
    · rw [Function.update_of_ne hp]
      exact hother p' hp'
  · by_cases hf : flow e = f
    · subst hf
      have hp : p = p₀ := by
        by_contra hne
        exact hother p hne e hmem rfl
      subst hp
      rw [hport, ofFlow_cons_self] at heq
      rw [Function.update_self, ofFlow_append, ofFlow_cons_self, ofFlow_nil, List.append_assoc]
      exact heq
    · have hsame : ofFlow flow f (Function.update q.scheduled p rest p₀)
          = ofFlow flow f (q.scheduled p₀) := by
        by_cases hp : p₀ = p
        · rw [hp, Function.update_self, hport, ofFlow_cons_of_ne hf]
        · rw [Function.update_of_ne hp]
      rw [hsame, ofFlow_append, ofFlow_cons_of_ne hf, ofFlow_nil, List.append_nil]
      exact heq

/-- What was delivered of a flow is a first part of it. -/
lemma InOrder.isPrefix (h : InOrder flow q enqueued delivered) (f : φ) :
    ofFlow flow f delivered <+: ofFlow flow f enqueued := by
  obtain ⟨p, -, heq⟩ := h f
  exact ⟨_, heq⟩

/-- **Every event once**: when as many were delivered as were enqueued, these are the same
events, and none is left. -/
lemma InOrder.perm [DecidableEq α] (h : InOrder flow q enqueued delivered)
    (hlen : enqueued.length ≤ delivered.length) : delivered.Perm enqueued ∧ q = empty := by
  have hsubperm : delivered.Subperm enqueued := by
    refine List.subperm_ext_iff.mpr fun e _ => ?_
    rw [← @count_ofFlow _ _ _ flow _ delivered e, ← @count_ofFlow _ _ _ flow _ enqueued e]
    exact (h.isPrefix (flow e)).sublist.count_le e
  have hperm := hsubperm.perm_of_length_le hlen
  have hrest : ∀ e, ∃ p, (∀ p', p' ≠ p → ∀ e' ∈ q.scheduled p', flow e' ≠ flow e) ∧
      ofFlow flow (flow e) (q.scheduled p) = [] ∧ ofFlow flow (flow e) q.queued = [] := by
    intro e
    obtain ⟨p, hother, heq⟩ := h (flow e)
    have hsame := (hperm.filter fun e' => flow e' = flow e).length_eq
    have hcount := congrArg List.length heq
    rw [List.length_append, List.length_append] at hcount
    rw [ofFlow, ofFlow, ofFlow, ofFlow] at hcount
    exact ⟨p, hother, List.eq_nil_of_length_eq_zero (by rw [ofFlow]; omega),
      List.eq_nil_of_length_eq_zero (by rw [ofFlow]; omega)⟩
  refine ⟨hperm, AtomicQueue.ext (List.eq_nil_iff_forall_not_mem.mpr fun e he => ?_) ?_⟩
  · obtain ⟨-, -, -, hqueued⟩ := hrest e
    exact not_mem_of_ofFlow_eq_nil hqueued he
  · refine funext fun p' => List.eq_nil_iff_forall_not_mem.mpr fun e he => ?_
    obtain ⟨p, hother, hport, -⟩ := hrest e
    by_cases hp : p' = p
    · subst hp
      exact not_mem_of_ofFlow_eq_nil hport he
    · exact hother p' hp e he rfl

/-! ### A port that does not dequeue -/

/-- An event of the flow waits at the port. -/
def Blocked (flow : α → φ) (q : AtomicQueue π α) (p : π) (f : φ) : Prop :=
  ∃ e ∈ q.scheduled p, flow e = f

variable {p p' : π}

/-- Scheduling takes nothing from a port. -/
lemma Blocked.schedule [Fintype π] [DecidableEq π] (h : Blocked flow q p f) (p' : π) (i : ℕ) :
    Blocked flow (q.schedule flow p' i) p f := by
  obtain ⟨e, he, hf⟩ := h
  rcases q.schedule_cases flow p' i with hsame | ⟨pre, e', post, -, -, hmove⟩
  · rw [hsame]
    exact ⟨e, he, hf⟩
  · rw [hmove]
    refine ⟨e, ?_, hf⟩
    by_cases hp : p = p'
    · subst hp
      dsimp only
      rw [Function.update_self]
      exact List.mem_append_left _ he
    · dsimp only
      rwa [Function.update_of_ne hp]

/-- **A flow that waits at a port is at no other.** -/
lemma InOrder.not_mem_of_blocked (h : InOrder flow q enqueued delivered)
    (hblocked : Blocked flow q p f) (hp : p' ≠ p) {e : α} (he : e ∈ q.scheduled p') :
    flow e ≠ f := by
  obtain ⟨e₀, hmem, hf⟩ := hblocked
  obtain ⟨p₀, hother, -⟩ := h f
  have hp₀ : p = p₀ := by
    by_contra hne
    exact hother p hne e₀ hmem hf
  exact hother p' (hp₀ ▸ hp) e he

end Order

end AtomicQueue

end DpdkStarter
