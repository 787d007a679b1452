import DpdkStarter.SingleRing.Messages

/-!
`inter_process_comm/single_ring_full_duplex`: the protocol of `primary.c` and
`secondary.c`, one ring operation a step.

A step of a process is one operation on the ring together with the local code
up to its next one; a run is any list of turns of the two processes. Each side
takes from the ring whatever comes first and puts back what is not its own, so
a message can be taken and put back any number of times.

* `State`, `primary`, `secondary`: the processes; the lists `requested`,
  `handled`, `replied`, `accepted`, `lost` and `stranded` record what happened
  and are read by neither.
* `Phase`: the configurations of the protocol. There is one message, and the
  phase says where it is.
* `step_phase`: every turn of either process leads from one phase to another.
* `protocol_safe`: no loss, no duplication and no misdelivery in any reachable
  state.
-/

namespace DpdkStarter.SingleRing.Protocol

/-- Where the primary stands: before `rte_ring_create`, at the enqueue of
request `i`, at the dequeue of its response, at the enqueue that puts back a
message that is not its own, at the enqueue of the exit message, returned. -/
inductive PrimaryPc where
  | create
  | send (i : ℕ)
  | await (i : ℕ)
  | putBack (i : ℕ) (r : Msg)
  | sendExit
  | done
  deriving DecidableEq, Repr

/-- Where the secondary stands: at `rte_ring_lookup`, at the dequeue, at the
enqueue that puts back a message that is not its own, at the enqueue of the
response to a request of value `v`, returned. -/
inductive SecondaryPc where
  | lookup
  | poll
  | putBack (m : Msg)
  | reply (v : ℕ)
  | done
  deriving DecidableEq, Repr

/-- The ring, the two processes and the record of the messages. -/
structure State where
  created : Bool
  ring : MsgRing Msg
  primary : PrimaryPc
  secondary : SecondaryPc
  /-- values of the requests put into the ring, in order -/
  requested : List ℕ
  /-- values of the requests the secondary handled, in order -/
  handled : List ℕ
  /-- values of the responses put into the ring, in order -/
  replied : List ℕ
  /-- values of the responses the primary accepted, in order -/
  accepted : List ℕ
  /-- messages whose unchecked enqueue failed -/
  lost : List Msg
  /-- messages dequeued and then neither freed nor put back -/
  stranded : List Msg
  /-- the message on which the secondary left its loop -/
  leftOn : Option Msg

/-- The state before either process runs. -/
def State.init : State where
  created := false
  ring := .empty
  primary := .create
  secondary := .lookup
  requested := []
  handled := []
  replied := []
  accepted := []
  lost := []
  stranded := []
  leftOn := none

/-- What the primary does after the response to request `i`. -/
def PrimaryPc.afterResponse (i : ℕ) : PrimaryPc :=
  if i + 1 < requestCount then .send (i + 1) else .sendExit

/-- A ring operation of the primary. -/
def primary (s : State) : State :=
  match s.primary with
  | .create => { s with created := true, primary := .send 0 }
  | .send i =>
      match s.ring.enqueue (.request i) with
      | some ring => { s with ring := ring, requested := s.requested ++ [i], primary := .await i }
      | none => s
  | .await i =>
      match s.ring.dequeue with
      | none => s
      | some (r, ring) =>
          if r.dstId ≠ procA then
            { s with ring := ring, primary := .putBack i r }
          else if r.type = .resp then
            { s with
              ring := ring, accepted := s.accepted ++ [r.value], primary := .afterResponse i }
          else
            { s with ring := ring, stranded := s.stranded ++ [r] }
  | .putBack i r =>
      -- the result of the enqueue is not looked at
      match s.ring.enqueue r with
      | some ring => { s with ring := ring, primary := .await i }
      | none => { s with lost := s.lost ++ [r], primary := .await i }
  | .sendExit =>
      match s.ring.enqueue .goodbye with
      | some ring => { s with ring := ring, primary := .done }
      | none => { s with lost := s.lost ++ [.goodbye], primary := .done }
  | .done => s

/-- A ring operation of the secondary. -/
def secondary (s : State) : State :=
  match s.secondary with
  | .lookup => if s.created then { s with secondary := .poll } else s
  | .poll =>
      match s.ring.dequeue with
      | none => s
      | some (m, ring) =>
          if m.dstId ≠ procB then
            { s with ring := ring, secondary := .putBack m }
          else if m.type = .exit then
            { s with ring := ring, leftOn := some m, secondary := .done }
          else if m.type = .req then
            { s with ring := ring, handled := s.handled ++ [m.value], secondary := .reply m.value }
          else
            { s with ring := ring, stranded := s.stranded ++ [m] }
  | .putBack m =>
      match s.ring.enqueue m with
      | some ring => { s with ring := ring, secondary := .poll }
      | none => { s with lost := s.lost ++ [m], secondary := .poll }
  | .reply v =>
      match s.ring.enqueue (.response v) with
      | some ring =>
          { s with ring := ring, replied := s.replied ++ [v * 10], secondary := .poll }
      | none => s
  | .done => s

/-- Which process moves. -/
inductive Turn where
  | primary | secondary
  deriving DecidableEq, Repr

/-- One ring operation of the system. -/
def step : Turn → State → State
  | .primary, s => Protocol.primary s
  | .secondary, s => Protocol.secondary s

/-- The state after a sequence of turns. -/
abbrev reached (turns : List Turn) : State := Machine.run step turns State.init

/-! ### The phases of the protocol -/

/-- The configurations of the protocol, by the place of its one message:
`sending i` with the primary, `requested i` in the ring, `returned i` back with
the primary that took it, `replying i` with the secondary, `replied i` in the
ring, `bounced i` back with the secondary that took it, then the exit message. -/
inductive Phase where
  | start
  | sending (i : ℕ)
  | requested (i : ℕ)
  | returned (i : ℕ)
  | replying (i : ℕ)
  | replied (i : ℕ)
  | bounced (i : ℕ)
  | exiting
  | exitSent
  | finished

namespace Phase

/-- Whether the ring exists. -/
def created : Phase → Bool
  | start => false
  | _ => true

/-- The content of the ring. -/
def ring : Phase → List Msg
  | requested i => [.request i]
  | replied i => [.response i]
  | exitSent => [.goodbye]
  | _ => []

/-- Where the primary stands. -/
def primary : Phase → PrimaryPc
  | start => .create
  | sending i => .send i
  | requested i | replying i | replied i | bounced i => .await i
  | returned i => .putBack i (.request i)
  | exiting => .sendExit
  | exitSent | finished => .done

/-- Where the secondary can stand: while it holds nothing it may still be
looking the ring up. -/
def secondary : Phase → SecondaryPc → Prop
  | start, pc => pc = .lookup
  | replying i, pc => pc = .reply i
  | bounced i, pc => pc = .putBack (.response i)
  | finished, pc => pc = .done
  | _, pc => pc = .lookup ∨ pc = .poll

/-- The message on which the secondary left its loop. -/
def leftOn : Phase → Option Msg
  | finished => some .goodbye
  | _ => none

/-- How many requests were sent, handled, answered and settled. -/
def counts : Phase → ℕ × ℕ × ℕ × ℕ
  | start => (0, 0, 0, 0)
  | sending i => (i, i, i, i)
  | requested i | returned i => (i + 1, i, i, i)
  | replying i => (i + 1, i + 1, i, i)
  | replied i | bounced i => (i + 1, i + 1, i + 1, i)
  | exiting | exitSent | finished =>
      (requestCount, requestCount, requestCount, requestCount)

/-- The request numbers of a phase are below the number of requests. -/
def valid : Phase → Prop
  | sending i | requested i | returned i | replying i | replied i | bounced i =>
      i < requestCount
  | _ => True

end Phase

/-- The state is in the phase: ring, processes and record are those of it. -/
structure At (φ : Phase) (s : State) : Prop where
  created : s.created = φ.created
  ring : s.ring.items = φ.ring
  primary : s.primary = φ.primary
  secondary : φ.secondary s.secondary
  requested : s.requested = List.range φ.counts.1
  handled : s.handled = List.range φ.counts.2.1
  replied : s.replied = (List.range φ.counts.2.2.1).map (· * 10)
  accepted : s.accepted = (List.range φ.counts.2.2.2).map (· * 10)
  lost : s.lost = []
  stranded : s.stranded = []
  leftOn : s.leftOn = φ.leftOn
  valid : φ.valid

lemma at_init : At .start State.init where
  created := rfl
  ring := rfl
  primary := rfl
  secondary := rfl
  requested := rfl
  handled := rfl
  replied := rfl
  accepted := rfl
  lost := rfl
  stranded := rfl
  leftOn := rfl
  valid := trivial

/-- **A turn of the primary** leads to a phase. -/
lemma primary_phase {φ : Phase} {s : State} (h : At φ s) :
    ∃ ψ, At ψ (Protocol.primary s) := by
  have hpc := h.primary
  have hring := h.ring
  have hvalid := h.valid
  rw [Protocol.primary, hpc]
  cases φ with
  | start =>
      refine ⟨.sending 0, ?_⟩
      exact { h with
        created := rfl, ring := hring, primary := rfl
        secondary := Or.inl h.secondary, valid := by simp [Phase.valid, requestCount] }
  | sending i =>
      obtain ⟨ring', henq, hitems⟩ :=
        BoundedFifo.exists_enqueue_of_empty room_pos hring (.request i)
      refine ⟨.requested i, ?_⟩
      simp only [Phase.primary, henq]
      exact { h with
        ring := hitems, primary := rfl
        secondary := h.secondary, valid := hvalid
        requested := by rw [h.requested]; exact List.range_succ.symm }
  | requested i =>
      -- it takes its own request, which is not addressed to it
      obtain ⟨ring', hdeq, hitems⟩ := BoundedFifo.exists_dequeue hring
      have hforeign : (Msg.request i).dstId ≠ procA := by simp [Msg.request, procA, procB]
      refine ⟨.returned i, ?_⟩
      simp only [Phase.primary, hdeq, if_pos hforeign]
      exact { h with
        ring := hitems, primary := rfl
        secondary := h.secondary, valid := hvalid }
  | returned i =>
      obtain ⟨ring', henq, hitems⟩ :=
        BoundedFifo.exists_enqueue_of_empty room_pos hring (.request i)
      refine ⟨.requested i, ?_⟩
      simp only [Phase.primary, henq]
      exact { h with
        ring := hitems, primary := rfl
        secondary := h.secondary, valid := hvalid }
  | replying i =>
      have hdeq : s.ring.dequeue = none := BoundedFifo.dequeue_eq_none.mpr hring
      refine ⟨.replying i, ?_⟩
      simp only [Phase.primary, hdeq]
      exact h
  | replied i =>
      obtain ⟨ring', hdeq, hitems⟩ := BoundedFifo.exists_dequeue hring
      have hsettled : s.accepted ++ [i * 10] = (List.range (i + 1)).map (· * 10) := by
        rw [h.accepted, List.range_succ, List.map_append]
        rfl
      simp only [Phase.primary, hdeq, Msg.response, ne_eq, not_true_eq_false, if_false, if_true]
      by_cases hi : i + 1 < requestCount
      · refine ⟨.sending (i + 1), ?_⟩
        exact { h with
          ring := hitems
          primary := by simp [PrimaryPc.afterResponse, hi, Phase.primary]
          secondary := h.secondary, accepted := hsettled, valid := hi }
      · have hlast : i + 1 = requestCount := by
          simp only [Phase.valid] at hvalid
          omega
        refine ⟨.exiting, ?_⟩
        exact { h with
          ring := hitems
          primary := by simp [PrimaryPc.afterResponse, hi, Phase.primary]
          secondary := h.secondary, valid := trivial
          requested := by rw [h.requested, Phase.counts, Phase.counts, hlast]
          handled := by rw [h.handled, Phase.counts, Phase.counts, hlast]
          replied := by rw [h.replied, Phase.counts, Phase.counts, hlast]
          accepted := by rw [hsettled, hlast]; rfl }
  | bounced i =>
      have hdeq : s.ring.dequeue = none := BoundedFifo.dequeue_eq_none.mpr hring
      refine ⟨.bounced i, ?_⟩
      simp only [Phase.primary, hdeq]
      exact h
  | exiting =>
      obtain ⟨ring', henq, hitems⟩ := BoundedFifo.exists_enqueue_of_empty room_pos hring .goodbye
      refine ⟨.exitSent, ?_⟩
      simp only [Phase.primary, henq]
      exact { h with
        ring := hitems, primary := rfl
        secondary := h.secondary, valid := trivial }
  | exitSent => exact ⟨.exitSent, h⟩
  | finished => exact ⟨.finished, h⟩

/-- **A turn of the secondary** leads to a phase. -/
lemma secondary_phase {φ : Phase} {s : State} (h : At φ s) :
    ∃ ψ, At ψ (Protocol.secondary s) := by
  have hpc := h.secondary
  have hring := h.ring
  -- a secondary that is still looking the ring up finds it and stays in the phase
  have hfound : s.created = true → (φ.secondary .poll) → s.secondary = .lookup →
      At φ (Protocol.secondary s) := by
    intro hcreated hpoll hlookup
    have hstep : Protocol.secondary s = { s with secondary := .poll } := by
      rw [Protocol.secondary, hlookup]
      simp only [hcreated, if_true]
    rw [hstep]
    exact { h with secondary := hpoll }
  -- a secondary that finds the ring empty stays where it is
  have hempty : s.ring.items = [] → s.secondary = .poll → Protocol.secondary s = s := by
    intro hnil hpoll
    rw [Protocol.secondary, hpoll]
    simp only [BoundedFifo.dequeue_eq_none.mpr hnil]
  cases φ with
  | start =>
      refine ⟨.start, ?_⟩
      have hstep : Protocol.secondary s = s := by
        rw [Protocol.secondary, show s.secondary = .lookup from hpc]
        simp only [show s.created = false from h.created, Bool.false_eq_true, if_false]
      rwa [hstep]
  | sending i | returned i | exiting =>
      rcases hpc with hlookup | hpoll
      · exact ⟨_, hfound h.created (Or.inr rfl) hlookup⟩
      · exact ⟨_, by rw [hempty hring hpoll]; exact h⟩
  | requested i =>
      rcases hpc with hlookup | hpoll
      · exact ⟨_, hfound h.created (Or.inr rfl) hlookup⟩
      · obtain ⟨ring', hdeq, hitems⟩ := BoundedFifo.exists_dequeue hring
        refine ⟨.replying i, ?_⟩
        rw [Protocol.secondary, hpoll]
        simp only [hdeq, Msg.request, ne_eq, not_true_eq_false, if_false, if_true, reduceCtorEq]
        exact { h with
          ring := hitems, secondary := rfl
          handled := by rw [h.handled]; exact List.range_succ.symm }
  | replying i =>
      obtain ⟨ring', henq, hitems⟩ :=
        BoundedFifo.exists_enqueue_of_empty room_pos hring (.response i)
      refine ⟨.replied i, ?_⟩
      rw [Protocol.secondary, show s.secondary = .reply i from hpc]
      simp only [henq]
      exact { h with
        ring := hitems, secondary := Or.inr rfl
        replied := by
          rw [h.replied, Phase.counts, Phase.counts, List.range_succ, List.map_append]
          rfl }
  | replied i =>
      rcases hpc with hlookup | hpoll
      · exact ⟨_, hfound h.created (Or.inr rfl) hlookup⟩
      · -- it takes its own response, which is not addressed to it
        obtain ⟨ring', hdeq, hitems⟩ := BoundedFifo.exists_dequeue hring
        have hforeign : (Msg.response i).dstId ≠ procB := by simp [Msg.response, procA, procB]
        refine ⟨.bounced i, ?_⟩
        rw [Protocol.secondary, hpoll]
        simp only [hdeq, if_pos hforeign]
        exact { h with ring := hitems, secondary := rfl }
  | bounced i =>
      obtain ⟨ring', henq, hitems⟩ :=
        BoundedFifo.exists_enqueue_of_empty room_pos hring (.response i)
      refine ⟨.replied i, ?_⟩
      rw [Protocol.secondary, show s.secondary = .putBack (.response i) from hpc]
      simp only [henq]
      exact { h with ring := hitems, secondary := Or.inr rfl }
  | exitSent =>
      rcases hpc with hlookup | hpoll
      · exact ⟨_, hfound h.created (Or.inr rfl) hlookup⟩
      · obtain ⟨ring', hdeq, hitems⟩ := BoundedFifo.exists_dequeue hring
        refine ⟨.finished, ?_⟩
        rw [Protocol.secondary, hpoll]
        simp only [hdeq, Msg.goodbye, ne_eq, not_true_eq_false, if_false, if_true]
        exact { h with ring := hitems, secondary := rfl, leftOn := rfl }
  | finished =>
      refine ⟨.finished, ?_⟩
      have hstep : Protocol.secondary s = s := by
        rw [Protocol.secondary, show s.secondary = .done from hpc]
      rwa [hstep]

/-- **Every turn** leads from a phase to a phase. -/
lemma step_phase (t : Turn) (s : State) (h : ∃ φ, At φ s) : ∃ ψ, At ψ (step t s) := by
  obtain ⟨φ, hφ⟩ := h
  cases t with
  | primary => exact primary_phase hφ
  | secondary => exact secondary_phase hφ

/-- Every reachable state is in a phase. -/
theorem reached_phase (turns : List Turn) : ∃ φ, At φ (reached turns) :=
  Machine.run_invariant step step_phase ⟨.start, at_init⟩ turns

/-! ### The protocol in the words of its messages -/

/-- The messages in the primary's hands. -/
def PrimaryPc.hands : PrimaryPc → List Msg
  | .send i => [.request i]
  | .putBack _ r => [r]
  | .sendExit => [.goodbye]
  | _ => []

/-- The messages in the secondary's hands. -/
def SecondaryPc.hands : SecondaryPc → List Msg
  | .putBack m => [m]
  | .reply v => [.response v]
  | _ => []

/-- The messages in the ring or in the hands of a process. -/
def State.messages (s : State) : List Msg :=
  s.primary.hands ++ s.ring.items ++ s.secondary.hands

/-- In every phase there is at most one message. -/
lemma At.messages_le {φ : Phase} {s : State} (h : At φ s) : s.messages.length ≤ 1 := by
  have hsec := h.secondary
  rw [State.messages, h.primary, h.ring]
  cases φ with
  | replying i => rw [show s.secondary = .reply i from hsec]; rfl
  | bounced i => rw [show s.secondary = .putBack (.response i) from hsec]; rfl
  | start => rw [show s.secondary = .lookup from hsec]; exact Nat.zero_le _
  | finished => rw [show s.secondary = .done from hsec]; exact Nat.zero_le _
  | sending i | requested i | returned i | replied i | exiting | exitSent =>
      rcases hsec with hpc | hpc <;> rw [hpc] <;> simp [Phase.primary, Phase.ring,
        PrimaryPc.hands, SecondaryPc.hands]

/-- **Safety of the protocol in every reachable state.** There is at most one
message in the ring or in a process's hands, and no unchecked enqueue has
failed. The requests handled are `0, 1, 2, …` and the responses accepted are
`0, 10, 20, …`; a request is sent only when the one before it is settled, and is
answered exactly once. No dequeued message was dropped. The secondary has
returned only with all requests settled, the exit message taken and the ring
empty. -/
theorem protocol_safe (turns : List Turn) :
    (reached turns).messages.length ≤ 1 ∧
    (reached turns).lost = [] ∧
    (∃ sent handled replied accepted : ℕ,
      (reached turns).requested = List.range sent ∧
      (reached turns).handled = List.range handled ∧
      (reached turns).replied = (List.range replied).map (· * 10) ∧
      (reached turns).accepted = (List.range accepted).map (· * 10) ∧
      accepted ≤ replied ∧ replied ≤ handled ∧ handled ≤ sent ∧ sent ≤ accepted + 1 ∧
      ((reached turns).primary = .done → accepted = requestCount)) ∧
    (reached turns).stranded = [] ∧
    ((reached turns).secondary = .done →
      (reached turns).leftOn = some .goodbye ∧ (reached turns).primary = .done ∧
        (reached turns).ring.items = []) := by
  obtain ⟨φ, h⟩ := reached_phase turns
  have hprimary := h.primary
  have hsecondary := h.secondary
  have hring := h.ring
  refine ⟨h.messages_le, h.lost, ⟨_, _, _, _, h.requested, h.handled, h.replied, h.accepted, ?_⟩,
    h.stranded, ?_⟩
  · rw [hprimary]
    cases φ <;> simp [Phase.counts, Phase.primary]
  · intro hdone
    rw [hdone] at hsecondary
    cases φ <;> simp [Phase.secondary] at hsecondary
    exact ⟨h.leftOn, hprimary, hring⟩

end DpdkStarter.SingleRing.Protocol
