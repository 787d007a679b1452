import DpdkStarter.Library.Run
import DpdkStarter.Packet.Mbuf

/-!
`eventdev/parsing_event/main.c`: the wiring of the event device that `main` sets
up, and `event_worker` on its event port.

A step is one event put in by the RX adapter, one event handed to a port, one
packet parsed, or one enqueue of the worker. The device keeps the events of all
its queues, and which of them it hands out next is up to the turn. It hands an
event only to a port linked to the queue of the event.

* `links`: the queues an event port is linked to.
* `worker`: one step of `event_worker`.
* `DeliveredOnce`: no event is dequeued twice, nor again once it was forwarded.
* `deliveredOnce_iff`: that holds in a run exactly when no event of the queue
  `TX_QUEUE_ID` is handed to the worker.
-/

namespace DpdkStarter.EventParser

open Machine

/-- `RX_QUEUE_ID`. -/
def rxQueueId : UInt8 := 0

/-- `TX_QUEUE_ID`. -/
def txQueueId : UInt8 := 1

/-- `event_port_id` of the worker. -/
def workerPort : UInt8 := 0

/-- The queues a port is linked to: `main` links the worker's port to both of
them and links nothing to any other port, that of an adapter included. -/
def links (port : UInt8) : List UInt8 :=
  if port = workerPort then [rxQueueId, txQueueId] else []

/-- `struct rte_event`; the number tells apart what the RX adapter put in. -/
structure Event where
  id : ℕ
  queueId : UInt8
  mbuf : Mbuf

/-- Where `event_worker` stands, with its variable `ev`. -/
inductive WorkerPc where
  | dequeue
  | parse (ev : Event)
  | enqueue (ev : Event)

/-- What the worker did with an event. -/
inductive Action where
  | dequeued (id : ℕ)
  | forwarded (id : ℕ)
  deriving DecidableEq, Repr

/-- The event device, the worker and the record of what happened. -/
structure State where
  /-- the events in the queues of the device -/
  device : List Event
  /-- how many events the RX adapter has put in -/
  received : ℕ
  worker : WorkerPc
  /-- the addresses the worker printed -/
  parsed : List (UInt32 × UInt32)
  /-- what the worker did, in order -/
  log : List Action
  /-- events handed to another port -/
  taken : List Event

/-- The state when the adapters have started. -/
def State.init : State where
  device := []
  received := 0
  worker := .dequeue
  parsed := []
  log := []
  taken := []

/-- What the worker prints of a frame: the addresses, when it is an IPv4 frame. -/
def parse : ByteReader (List (UInt32 × UInt32)) := do
  let ethType ← etherType
  if ethType = etherTypeIpv4 then do
    let src ← .be32 (sizeofEtherHdr + 12)
    let dst ← .be32 (sizeofEtherHdr + 16)
    return [(src, dst)]
  else return []

/-- What happens next: the RX adapter puts in a packet, the device hands the
`k`-th of its events to a port, or the worker goes on; `accepted` is the answer
to its enqueue. -/
inductive Turn where
  | receive (m : Mbuf)
  | deliver (port : UInt8) (k : ℕ)
  | worker (accepted : Bool)

/-- The RX adapter puts a packet into the queue `RX_QUEUE_ID`. -/
def State.receive (s : State) (m : Mbuf) : State :=
  { s with device := s.device ++ [⟨s.received, rxQueueId, m⟩], received := s.received + 1 }

/-- The device hands its `k`-th event to a port, when the port is linked to the
queue of the event; the worker has to ask for one. -/
def State.deliver (s : State) (port : UInt8) (k : ℕ) : State :=
  match s.device[k]? with
  | none => s
  | some ev =>
      if ev.queueId ∉ links port then s
      else if port ≠ workerPort then
        { s with device := s.device.eraseIdx k, taken := s.taken ++ [ev] }
      else match s.worker with
        | .dequeue =>
            { s with
              device := s.device.eraseIdx k, worker := .parse ev
              log := s.log ++ [.dequeued ev.id] }
        | _ => s

/-- One step of `event_worker` with an event in its hands. -/
def State.work (s : State) (accepted : Bool) : State :=
  match s.worker with
  | .dequeue => s
  | .parse ev =>
      { s with
        parsed := s.parsed ++ parse.eval ev.mbuf.data
        worker := .enqueue { ev with queueId := txQueueId } }
  | .enqueue ev =>
      -- the result of the enqueue is not looked at
      if accepted then
        { s with
          device := s.device ++ [ev], worker := .dequeue, log := s.log ++ [.forwarded ev.id] }
      else { s with worker := .dequeue }

/-- One step of the system. -/
def step : Turn → State → State
  | .receive m, s => s.receive m
  | .deliver port k, s => s.deliver port k
  | .worker accepted, s => s.work accepted

/-- The state after a sequence of turns. -/
abbrev reached (turns : List Turn) : State := run step turns State.init

/-- The turn hands the worker an event of the queue `TX_QUEUE_ID`. -/
def Redelivers : Turn → State → Prop
  | .deliver port k, s =>
      port = workerPort ∧ s.worker = .dequeue ∧
        ∃ ev, s.device[k]? = some ev ∧ ev.queueId = txQueueId
  | _, _ => False

/-- The worker dequeued no event twice, and none again once it had forwarded it. -/
def DeliveredOnce (s : State) : Prop :=
  (∀ id, s.log.count (.dequeued id) ≤ 1) ∧
    ∀ id, ¬ [Action.forwarded id, Action.dequeued id].Sublist s.log

variable {s : State} {turn : Turn} {port : UInt8} {k : ℕ}

/-! ### What a delivery does -/

/-- A port other than that of the worker is linked to no queue. -/
lemma links_other (h : port ≠ workerPort) : links port = [] := if_neg h

/-- A delivery changes nothing, or hands an event to the waiting worker. -/
lemma deliver_cases (s : State) (port : UInt8) (k : ℕ) :
    s.deliver port k = s ∨
      ∃ ev, s.device[k]? = some ev ∧ port = workerPort ∧ s.worker = .dequeue ∧
        ev.queueId ∈ [rxQueueId, txQueueId] ∧
        s.deliver port k = { s with
          device := s.device.eraseIdx k, worker := .parse ev
          log := s.log ++ [.dequeued ev.id] } := by
  by_cases hport : port = workerPort
  · rw [State.deliver]
    cases hdevice : s.device[k]? with
    | none => exact Or.inl rfl
    | some ev =>
        simp only [hport, links, if_true, ne_eq, not_true_eq_false, if_false]
        by_cases hlink : ev.queueId ∈ [rxQueueId, txQueueId]
        · cases hworker : s.worker with
          | dequeue => exact Or.inr ⟨ev, rfl, trivial, rfl, hlink, by simp [hlink]⟩
          | parse _ => exact Or.inl (by simp [hlink])
          | enqueue _ => exact Or.inl (by simp [hlink])
        · exact Or.inl (if_pos hlink)
  · left
    rw [State.deliver]
    cases s.device[k]? with
    | none => rfl
    | some ev => simp [links_other hport]

/-! ### The log -/

/-- A pair in a log that grew by one action was there before, or the action
completes it. -/
lemma pair_sublist_concat {a b c : Action} {log : List Action} :
    [a, b].Sublist (log ++ [c]) ↔ [a, b].Sublist log ∨ a ∈ log ∧ b = c := by
  constructor
  · intro h
    rw [List.sublist_append_iff] at h
    obtain ⟨l, r, hlr, hl, hr⟩ := h
    rcases List.sublist_singleton.mp hr with rfl | rfl
    · left
      rw [List.append_nil] at hlr
      rw [hlr]
      exact hl
    · right
      obtain ⟨rfl, hb⟩ : l = [a] ∧ c = b := by
        cases l with
        | nil => simp at hlr
        | cons x l =>
            cases l with
            | nil => simp at hlr; exact ⟨by rw [hlr.1], hlr.2.symm⟩
            | cons y l => simp at hlr
      exact ⟨List.singleton_sublist.mp hl, hb.symm⟩
  · rintro (h | ⟨ha, rfl⟩)
    · exact h.trans (List.sublist_append_left ..)
    · exact (List.singleton_sublist.mpr ha).append (List.Sublist.refl [b])

/-- The log only grows. -/
lemma log_prefix_step (turn : Turn) (s : State) : s.log <+: (step turn s).log := by
  cases turn with
  | receive m => exact List.prefix_rfl
  | deliver port k =>
      rw [step]
      rcases deliver_cases s port k with heq | ⟨ev, -, -, -, -, heq⟩
      · rw [heq]
      · rw [heq]
        exact List.prefix_append ..
  | worker accepted =>
      rw [step, State.work]
      cases s.worker with
      | dequeue => exact List.prefix_rfl
      | parse ev => exact List.prefix_rfl
      | enqueue ev =>
          cases accepted with
          | true => exact List.prefix_append ..
          | false => exact List.prefix_rfl

/-- What the log forbids it goes on to forbid. -/
lemma DeliveredOnce.of_prefix {s' : State} (hlog : s.log <+: s'.log) (h : DeliveredOnce s') :
    DeliveredOnce s :=
  ⟨fun id => (hlog.sublist.count_le _).trans (h.1 id),
    fun id hpair => h.2 id (hpair.trans hlog.sublist)⟩

/-! ### The invariant -/

/-- The event in the hands of the worker. -/
def WorkerPc.event : WorkerPc → Option Event
  | .dequeue => none
  | .parse ev | .enqueue ev => some ev

/-- What holds in every run: an event of the first queue has not been dequeued,
an event of the second one has been forwarded. -/
structure Inv (s : State) : Prop where
  numbered : ∀ ev ∈ s.device, ev.id < s.received
  logged : ∀ id, .dequeued id ∈ s.log → id < s.received
  waiting : ∀ ev ∈ s.device, ev.queueId = rxQueueId → .dequeued ev.id ∉ s.log
  distinct : s.device.Pairwise fun ev ev' =>
    ev.queueId = rxQueueId → ev'.queueId = rxQueueId → ev.id ≠ ev'.id
  returned : ∀ ev ∈ s.device, ev.queueId = txQueueId → .forwarded ev.id ∈ s.log
  forwarded : ∀ id, .forwarded id ∈ s.log → .dequeued id ∈ s.log
  hands : ∀ ev, s.worker.event = some ev → .dequeued ev.id ∈ s.log
  target : ∀ ev, s.worker = .enqueue ev → ev.queueId = txQueueId

lemma inv_init : Inv State.init := by
  constructor <;> simp [State.init, WorkerPc.event]

/-- The RX adapter puts in an event with a number of its own. -/
lemma Inv.receive (h : Inv s) (m : Mbuf) : Inv (s.receive m) where
  numbered := by
    intro ev hev
    rcases List.mem_append.mp hev with hold | hnew
    · exact (h.numbered ev hold).trans (Nat.lt_succ_self _)
    · rw [List.mem_singleton.mp hnew]
      exact Nat.lt_succ_self _
  logged := fun id hid => (h.logged id hid).trans (Nat.lt_succ_self _)
  waiting := by
    intro ev hev hqueue
    rcases List.mem_append.mp hev with hold | hnew
    · exact h.waiting ev hold hqueue
    · rw [List.mem_singleton.mp hnew]
      exact fun hlog => (h.logged _ hlog).false
  distinct := by
    refine List.pairwise_append.mpr ⟨h.distinct, List.pairwise_singleton .., ?_⟩
    intro ev hev ev' hev' _ _
    rw [List.mem_singleton.mp hev']
    exact (h.numbered ev hev).ne
  returned := by
    intro ev hev hqueue
    rcases List.mem_append.mp hev with hold | hnew
    · exact h.returned ev hold hqueue
    · rw [List.mem_singleton.mp hnew] at hqueue
      exact absurd hqueue (show ¬rxQueueId = txQueueId by decide)
  forwarded := h.forwarded
  hands := h.hands
  target := h.target

/-- The worker dequeues an event. -/
lemma Inv.dequeued (h : Inv s) {ev : Event} (hev : s.device[k]? = some ev)
    (hlink : ev.queueId ∈ [rxQueueId, txQueueId]) : Inv { s with
      device := s.device.eraseIdx k, worker := .parse ev
      log := s.log ++ [.dequeued ev.id] } := by
  obtain ⟨hk, hget⟩ := List.getElem?_eq_some_iff.mp hev
  have hperm : (ev :: s.device.eraseIdx k).Perm s.device :=
    hget ▸ List.getElem_cons_eraseIdx_perm hk
  have hmem : ∀ ev' ∈ s.device.eraseIdx k, ev' ∈ s.device :=
    fun ev' hev' => hperm.mem_iff.mp (List.mem_cons_of_mem _ hev')
  have hlive : ev ∈ s.device := hperm.mem_iff.mp List.mem_cons_self
  have hdistinct := (hperm.pairwise_iff (fun h hx hy heq => h hy hx heq.symm)).mpr h.distinct
  constructor
  · exact fun ev' hev' => h.numbered ev' (hmem ev' hev')
  · intro id hid
    rcases List.mem_append.mp hid with hold | hnew
    · exact h.logged id hold
    · rw [Action.dequeued.inj (List.mem_singleton.mp hnew)]
      exact h.numbered ev hlive
  · intro ev' hev' hqueue hlog
    rcases List.mem_append.mp hlog with hold | hnew
    · exact h.waiting ev' (hmem ev' hev') hqueue hold
    · have hid : ev'.id = ev.id := Action.dequeued.inj (List.mem_singleton.mp hnew)
      rcases List.mem_pair.mp hlink with hrx | htx
      · exact (List.pairwise_cons.mp hdistinct).1 ev' hev' hrx hqueue hid.symm
      · refine h.waiting ev' (hmem ev' hev') hqueue ?_
        rw [hid]
        exact h.forwarded _ (h.returned ev hlive htx)
  · exact (List.pairwise_cons.mp hdistinct).2
  · intro ev' hev' hqueue
    exact List.mem_append_left _ (h.returned ev' (hmem ev' hev') hqueue)
  · intro id hid
    rcases List.mem_append.mp hid with hold | hnew
    · exact List.mem_append_left _ (h.forwarded id hold)
    · simp at hnew
  · intro ev' hev'
    rw [← Option.some.inj hev']
    exact List.mem_append_right _ (List.mem_singleton_self _)
  · simp

/-- The worker puts the event in its hands into the second queue. -/
lemma Inv.forward (h : Inv s) {ev : Event} (hhands : .dequeued ev.id ∈ s.log)
    (htarget : ev.queueId = txQueueId) :
    Inv { s with
      device := s.device ++ [ev], worker := .dequeue, log := s.log ++ [.forwarded ev.id] } := by
  have hnotrx : ev.queueId ≠ rxQueueId := by
    rw [htarget]
    decide
  have hold : ∀ id, .dequeued id ∈ s.log ++ [.forwarded ev.id] → .dequeued id ∈ s.log := by simp
  constructor
  · intro ev' hev'
    rcases List.mem_append.mp hev' with hev' | hev'
    · exact h.numbered ev' hev'
    · rw [List.mem_singleton.mp hev']
      exact h.logged _ hhands
  · exact fun id hid => h.logged id (hold id hid)
  · intro ev' hev' hqueue hlog
    rcases List.mem_append.mp hev' with hev' | hev'
    · exact h.waiting ev' hev' hqueue (hold _ hlog)
    · rw [List.mem_singleton.mp hev'] at hqueue
      exact hnotrx hqueue
  · refine List.pairwise_append.mpr ⟨h.distinct, List.pairwise_singleton .., ?_⟩
    intro ev' _ ev'' hev'' _ hqueue
    rw [List.mem_singleton.mp hev''] at hqueue
    exact absurd hqueue hnotrx
  · intro ev' hev' hqueue
    rcases List.mem_append.mp hev' with hev' | hev'
    · exact List.mem_append_left _ (h.returned ev' hev' hqueue)
    · rw [List.mem_singleton.mp hev']
      exact List.mem_append_right _ (List.mem_singleton_self _)
  · intro id hid
    rcases List.mem_append.mp hid with hid | hid
    · exact List.mem_append_left _ (h.forwarded id hid)
    · rw [Action.forwarded.inj (List.mem_singleton.mp hid)]
      exact List.mem_append_left _ hhands
  · simp [WorkerPc.event]
  · simp

/-- **A step keeps the invariant.** -/
lemma Inv.step (turn : Turn) (s : State) (h : Inv s) : Inv (step turn s) := by
  cases turn with
  | receive m => exact h.receive m
  | deliver port k =>
      rw [EventParser.step]
      rcases deliver_cases s port k with heq | ⟨ev, hev, -, -, hlink, heq⟩
      · rwa [heq]
      · rw [heq]
        exact h.dequeued hev hlink
  | worker accepted =>
      rw [EventParser.step, State.work]
      cases hworker : s.worker with
      | dequeue => exact h
      | parse ev =>
          have hhands := h.hands ev (by rw [hworker]; rfl)
          exact { h with
            hands := fun ev' hev' => by rw [← Option.some.inj hev']; exact hhands
            target := fun ev' hev' => by rw [← WorkerPc.enqueue.inj hev'] }
      | enqueue ev =>
          have hhands := h.hands ev (by rw [hworker]; rfl)
          have htarget := h.target ev hworker
          cases accepted with
          | false => exact { h with hands := by simp [WorkerPc.event], target := by simp }
          | true => exact h.forward hhands htarget

/-! ### The condition -/

/-- A step that hands the worker no event of the second queue adds no event to
those dequeued before. -/
lemma DeliveredOnce.step (h : Inv s) (hturn : ¬Redelivers turn s) (hs : DeliveredOnce s) :
    DeliveredOnce (step turn s) := by
  cases turn with
  | receive m => exact hs
  | deliver port k =>
      rw [EventParser.step]
      rcases deliver_cases s port k with heq | ⟨ev, hev, hport, hworker, hlink, heq⟩
      · rwa [heq]
      · have hrx : ev.queueId = rxQueueId := by
          rcases List.mem_pair.mp hlink with hrx | htx
          · exact hrx
          · exact absurd ⟨hport, hworker, ev, hev, htx⟩ hturn
        have hnew : .dequeued ev.id ∉ s.log := h.waiting ev (List.mem_of_getElem? hev) hrx
        rw [heq]
        constructor
        · intro id
          by_cases hid : id = ev.id
          · rw [hid, List.count_append, List.count_eq_zero_of_not_mem hnew]
            simp
          · have hne : Action.dequeued ev.id ≠ .dequeued id := by simp [Ne.symm hid]
            rw [List.count_append, List.count_singleton]
            simpa [hne] using hs.1 id
        · intro id hpair
          rcases pair_sublist_concat.mp hpair with hpair | ⟨hforwarded, hid⟩
          · exact hs.2 id hpair
          · rw [← hid] at hnew
            exact hnew (h.forwarded id hforwarded)
  | worker accepted =>
      rw [EventParser.step, State.work]
      cases s.worker with
      | dequeue => exact hs
      | parse ev => exact hs
      | enqueue ev =>
          cases accepted with
          | false => exact hs
          | true =>
              constructor
              · intro id
                simpa [List.count_append] using hs.1 id
              · intro id hpair
                rcases pair_sublist_concat.mp hpair with hpair | ⟨-, hid⟩
                · exact hs.2 id hpair
                · simp at hid

/-- A step that hands the worker an event of the second queue delivers it again. -/
lemma not_deliveredOnce_of_redelivers (h : Inv s) (hturn : Redelivers turn s) :
    ¬DeliveredOnce (step turn s) := by
  cases turn with
  | receive m => exact hturn.elim
  | worker accepted => exact hturn.elim
  | deliver port k =>
      obtain ⟨hport, hworker, ev, hev, htx⟩ := hturn
      have hstep : (EventParser.step (.deliver port k) s).log = s.log ++ [.dequeued ev.id] := by
        rw [EventParser.step, State.deliver, hev, hworker]
        simp [hport, links, htx]
      intro hs
      refine hs.2 ev.id ?_
      rw [hstep]
      exact pair_sublist_concat.mpr
        (Or.inr ⟨h.returned ev (List.mem_of_getElem? hev) htx, rfl⟩)

/-- **Each event is dequeued at most once**, and never again after it was
forwarded, in exactly those runs in which the device hands the worker no event
of the queue `TX_QUEUE_ID`, to which the worker forwards and its port is linked. -/
theorem deliveredOnce_iff (turns : List Turn) :
    DeliveredOnce (reached turns) ↔
      StepsMeet step (fun turn s => ¬Redelivers turn s) turns State.init := by
  constructor
  · intro hs
    refine stepsMeet_of_final (P := Inv) (B := fun s => ¬DeliveredOnce s)
      Inv.step ?_ ?_ inv_init (not_not.mpr hs)
    · exact fun turn s _ hbad hs => hbad (hs.of_prefix (log_prefix_step turn s))
    · exact fun turn s h hturn => not_deliveredOnce_of_redelivers h (not_not.mp hturn)
  · intro hmeet
    have hinit : DeliveredOnce State.init := ⟨by simp [State.init], by simp [State.init]⟩
    refine (run_invariant_of_stepsMeet (P := fun s => Inv s ∧ DeliveredOnce s)
      ?_ hmeet ⟨inv_init, hinit⟩).2
    exact fun turn s hturn h => ⟨h.1.step turn, h.2.step h.1 hturn⟩

/-- A packet whose event the worker forwards and is handed again. -/
theorem forwarded_event_returns :
    ¬DeliveredOnce (reached
      [.receive ⟨0, 60, fun _ => 0⟩, .deliver workerPort 0, .worker true, .worker true,
        .deliver workerPort 0]) := by
  intro h
  exact absurd (h.1 0) (by decide)

end DpdkStarter.EventParser
