import DpdkStarter.EventParser.Worker

/-!
Where the packets of `eventdev/parsing_event/main.c` end.

No port but the worker's is linked to a queue, so the TX adapter is handed nothing: a packet
received stays with the device and the worker, who parses it again and again, or the device
refuses it and it is lost. None is ever sent or freed.

* `State.inside`: the packets with the device and the worker.
* `retained_iff`: no event is ever handed to another port, and all packets are inside exactly
  as long as the device accepts what the worker forwards.
* `fromReceived_reached`: what the worker prints are addresses of packets received.
-/

namespace DpdkStarter.EventParser

open Machine

/-- The numbers of the packets with the device and the worker. -/
def State.inside (s : State) : List ℕ :=
  s.device.map Event.id ++ s.worker.event.toList.map Event.id

/-- The device accepts what the worker forwards. -/
def Accepts : Turn → State → Prop
  | .worker accepted, s => (∃ ev, s.worker = .enqueue ev) → accepted = true
  | _, _ => True

/-! ### What a step moves -/

/-- Everything received is inside, once. -/
def Retained (s : State) : Prop := s.inside.Perm (List.range s.received)

variable {s : State} {turn : Turn}

/-- A delivery moves an event from the device to the worker. -/
lemma inside_deliver (s : State) (port : UInt8) (k : ℕ) :
    (s.deliver port k).inside.Perm s.inside ∧ (s.deliver port k).received = s.received := by
  rcases deliver_cases s port k with heq | ⟨ev, hev, -, hworker, -, heq⟩
  · rw [heq]
    exact ⟨List.Perm.refl _, rfl⟩
  · obtain ⟨hk, hget⟩ := List.getElem?_eq_some_iff.mp hev
    have hperm : (ev :: s.device.eraseIdx k).Perm s.device :=
      hget ▸ List.getElem_cons_eraseIdx_perm hk
    rw [heq]
    refine ⟨?_, rfl⟩
    simp only [State.inside, WorkerPc.event, hworker, Option.toList, List.map_cons, List.map_nil,
      List.append_nil]
    exact (List.perm_append_singleton _ _).trans (hperm.map Event.id)

/-- A step of the worker puts its event back, when the device accepts it. -/
lemma inside_work (s : State) {accepted : Bool} (h : Accepts (.worker accepted) s) :
    (s.work accepted).inside = s.inside := by
  rw [State.work]
  cases hworker : s.worker with
  | dequeue => rfl
  | parse ev => simp [State.inside, WorkerPc.event, hworker]
  | enqueue ev =>
      have haccepted : accepted = true := h ⟨ev, hworker⟩
      simp [State.inside, WorkerPc.event, hworker, haccepted]

lemma received_work (s : State) (accepted : Bool) : (s.work accepted).received = s.received := by
  rw [State.work]
  cases s.worker with
  | dequeue => rfl
  | parse ev => rfl
  | enqueue ev => cases accepted <;> rfl

/-- Each step keeps what was received inside, when nothing is refused. -/
lemma Retained.step (h : Retained s) (haccepts : Accepts turn s) : Retained (step turn s) := by
  cases turn with
  | receive m =>
      rw [Retained, EventParser.step, State.receive, State.inside]
      dsimp only
      rw [List.range_succ, List.map_append, List.append_assoc]
      have hswap : (s.device.map Event.id
          ++ ([s.received] ++ s.worker.event.toList.map Event.id)).Perm
          (s.inside ++ [s.received]) := by
        rw [State.inside, List.append_assoc]
        exact List.perm_append_comm.append_left _
      exact hswap.trans (h.append_right _)
  | deliver port k =>
      obtain ⟨hinside, hreceived⟩ := inside_deliver s port k
      rw [Retained, EventParser.step, hreceived]
      exact hinside.trans h
  | worker accepted =>
      rw [Retained, EventParser.step, inside_work s haccepts, received_work]
      exact h

/-- How many packets are missing only grows, and a refusal makes one missing. -/
lemma inside_length_step (turn : Turn) (s : State) :
    (step turn s).inside.length + s.received ≤ s.inside.length + (step turn s).received ∧
      (¬Accepts turn s →
        (step turn s).inside.length + s.received < s.inside.length + (step turn s).received) := by
  cases turn with
  | receive m =>
      refine ⟨?_, fun h => absurd trivial h⟩
      rw [step, State.receive, State.inside, State.inside]
      simp only [List.length_append, List.length_map, List.length_singleton]
      omega
  | deliver port k =>
      obtain ⟨hinside, hreceived⟩ := inside_deliver s port k
      rw [step, hreceived, hinside.length_eq]
      exact ⟨le_rfl, fun h => absurd trivial h⟩
  | worker accepted =>
      rw [step, received_work]
      by_cases haccepts : Accepts (.worker accepted) s
      · rw [inside_work s haccepts]
        exact ⟨le_rfl, fun h => absurd haccepts h⟩
      · have hlt : (s.work accepted).inside.length < s.inside.length := by
          simp only [Accepts, Classical.not_imp, Bool.not_eq_true] at haccepts
          obtain ⟨⟨ev, hworker⟩, hrefused⟩ := haccepts
          simp [State.work, State.inside, WorkerPc.event, hworker, hrefused]
        exact ⟨by omega, fun _ => by omega⟩

/-- No event is handed to another port. -/
lemma taken_step (turn : Turn) (s : State) : (step turn s).taken = s.taken := by
  cases turn with
  | receive m => rfl
  | deliver port k =>
      rw [step]
      rcases deliver_cases s port k with heq | ⟨ev, -, -, -, -, heq⟩ <;> rw [heq]
  | worker accepted =>
      rw [step, State.work]
      cases s.worker with
      | dequeue => rfl
      | parse ev => rfl
      | enqueue ev => cases accepted <;> rfl

/-! ### What is printed -/

/-- Whatever the worker prints are the addresses of a packet received. -/
def FromReceived (frames : List Mbuf) (s : State) : Prop :=
  (∀ ev ∈ s.device, ev.mbuf ∈ frames) ∧ (∀ ev, s.worker.event = some ev → ev.mbuf ∈ frames) ∧
    ∀ line ∈ s.parsed, ∃ m ∈ frames, line ∈ parse.eval m.data

/-- The packets a run receives. -/
def frames (turns : List Turn) : List Mbuf := turns.filterMap fun
  | .receive m => some m
  | _ => none

lemma FromReceived.mono {fs fs' : List Mbuf} (h : FromReceived fs s) (hsub : fs ⊆ fs') :
    FromReceived fs' s :=
  ⟨fun ev hev => hsub (h.1 ev hev), fun ev hev => hsub (h.2.1 ev hev), fun line hline =>
    (h.2.2 line hline).imp fun _ hm => ⟨hsub hm.1, hm.2⟩⟩

lemma FromReceived.step {fs : List Mbuf} (h : FromReceived fs s) (turn : Turn) :
    FromReceived (fs ++ frames [turn]) (step turn s) := by
  obtain ⟨hdevice, hworker, hparsed⟩ := h.mono (List.subset_append_left fs (frames [turn]))
  cases turn with
  | receive m =>
      refine ⟨fun ev hev => ?_, hworker, hparsed⟩
      rcases List.mem_append.mp hev with hold | hnew
      · exact hdevice ev hold
      · rw [List.mem_singleton.mp hnew]
        exact List.mem_append_right _ List.mem_cons_self
  | deliver port k =>
      rw [EventParser.step]
      rcases deliver_cases s port k with heq | ⟨ev, hev, -, -, -, heq⟩
      · rw [heq]
        exact ⟨hdevice, hworker, hparsed⟩
      · rw [heq]
        refine ⟨fun ev' hev' => hdevice ev' (List.mem_of_mem_eraseIdx hev'), fun ev' hev' => ?_,
          hparsed⟩
        rw [← Option.some.inj hev']
        exact hdevice ev (List.mem_of_getElem? hev)
  | worker accepted =>
      rw [EventParser.step, State.work]
      cases hpc : s.worker with
      | dequeue => exact ⟨hdevice, hworker, hparsed⟩
      | parse ev =>
          have hev := hworker ev (by rw [hpc]; rfl)
          refine ⟨hdevice, fun ev' hev' => ?_, fun line hline => ?_⟩
          · rw [← Option.some.inj hev']
            exact hev
          · rcases List.mem_append.mp hline with hold | hnew
            · exact hparsed line hold
            · exact ⟨ev.mbuf, hev, hnew⟩
      | enqueue ev =>
          have hev := hworker ev (by rw [hpc]; rfl)
          cases accepted with
          | false => exact ⟨hdevice, by simp [WorkerPc.event], hparsed⟩
          | true =>
              refine ⟨fun ev' hev' => ?_, by simp [WorkerPc.event], hparsed⟩
              rcases List.mem_append.mp hev' with hold | hnew
              · exact hdevice ev' hold
              · rw [List.mem_singleton.mp hnew]
                exact hev

lemma fromReceived_reached (turns : List Turn) : FromReceived (frames turns) (reached turns) := by
  induction turns using List.reverseRecOn with
  | nil => exact ⟨by simp [State.init], by simp [State.init, WorkerPc.event], by simp [State.init]⟩
  | append_singleton turns turn ih =>
      rw [reached, run_concat, frames, List.filterMap_append]
      exact ih.step turn

/-- **No packet gets out.** In every run no event is handed to any port but the worker's, so
nothing is sent and nothing is freed; the packets received are all with the device or the
worker, each once, exactly when every enqueue of the worker so far was accepted, and after a
refusal one is missing for ever; and each line printed has the addresses of a packet received. -/
theorem retained_iff (turns : List Turn) :
    (reached turns).taken = [] ∧
    (Retained (reached turns) ↔ StepsMeet step Accepts turns State.init) ∧
    ∀ line ∈ (reached turns).parsed, ∃ m ∈ frames turns, line ∈ parse.eval m.data := by
  refine ⟨?_, ⟨fun hend => ?_, fun hmeet => ?_⟩, (fromReceived_reached turns).2.2⟩
  · exact run_invariant (P := fun s => s.taken = []) step
      (fun turn s h => (taken_step turn s).trans h) rfl turns
  · refine stepsMeet_of_final (P := fun s => s.inside.length ≤ s.received)
      (B := fun s => s.inside.length < s.received) ?_ ?_ ?_ (Nat.zero_le 0) ?_
    · intro turn s hle
      have hstep := (inside_length_step turn s).1
      omega
    · intro turn s _ hlt
      have hstep := (inside_length_step turn s).1
      omega
    · intro turn s hle hrefused
      have hstep := (inside_length_step turn s).2 hrefused
      omega
    · have hlen := hend.length_eq
      rw [List.length_range] at hlen
      exact not_lt.mpr hlen.ge
  · exact run_invariant_of_stepsMeet (fun _ _ hc h => h.step hc) hmeet (List.Perm.refl [])

end DpdkStarter.EventParser
