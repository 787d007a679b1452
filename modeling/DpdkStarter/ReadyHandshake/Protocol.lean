import DpdkStarter.Library.Run
import DpdkStarter.Library.BoundedFifo

/-!
`inter_process_comm/Multi_Process_Messaging`: `primary.c` and `secondary.c`, which
agree by control messages that the secondary is there before the primary sends it
integers over a ring.

A step is one of a main function, one of a callback, or one of the channel, which
delivers, repeats or loses a `ready_check` or `ready_reply` in flight. A callback
runs only once it is registered.

* `primary`, `secondary`: one step of each main function.
* `State.check`, `State.reply`: the delivery of a control message.
* `Inv`, `inv_reached`: a reply needs a check that was handled, and what was sent
  is printed, in the hands of the secondary or in the ring.
* `handshake_safe`: the protocol in every interleaving.
-/

namespace DpdkStarter.ReadyHandshake

open Machine

/-- A ring created for 32 objects: one slot stays unused. -/
abbrev DataRing := BoundedFifo ℕ 31

/-- The integers the primary sends. -/
def sendCount : ℕ := 5

/-- Where `main` of the primary stands, in the order of `primary.c`. -/
inductive PrimaryPc where
  | createRing
  | register
  | test
  | send
  | test2
  | enqueue (i : ℕ)
  | done
  deriving DecidableEq, Repr

/-- Where `main` of the secondary stands, in the order of `secondary.c`. -/
inductive SecondaryPc where
  | register
  | lookup
  | dequeue
  | print (data : ℕ)
  deriving DecidableEq, Repr

/-- Where `check_cb` of the secondary stands. -/
inductive CallbackPc where
  | idle
  | reply
  deriving DecidableEq, Repr

/-- The two processes, the messages in flight and the record of the integers. -/
structure State where
  ringCreated : Bool
  ring : DataRing
  secondaryReady : Bool
  /-- `ready_reply` has its callback -/
  readyRegistered : Bool
  /-- `ready_check` has its callback -/
  checkRegistered : Bool
  /-- the `ready_check` messages in flight -/
  checks : ℕ
  /-- the `ready_reply` messages in flight -/
  replies : ℕ
  primary : PrimaryPc
  secondary : SecondaryPc
  callback : CallbackPc
  /-- how many checks the secondary has handled -/
  handled : ℕ
  /-- the integers put into the ring, in order -/
  sent : List ℕ
  /-- the integers whose unchecked enqueue failed -/
  lost : List ℕ
  /-- the integers the secondary printed, in order -/
  printed : List ℕ

/-- The state before either process runs. -/
def State.init : State where
  ringCreated := false
  ring := .empty
  secondaryReady := false
  readyRegistered := false
  checkRegistered := false
  checks := 0
  replies := 0
  primary := .createRing
  secondary := .register
  callback := .idle
  handled := 0
  sent := []
  lost := []
  printed := []

/-- One step of `main` of the primary. -/
def primary (s : State) : State :=
  match s.primary with
  | .createRing => { s with ringCreated := true, primary := .register }
  | .register => { s with readyRegistered := true, primary := .test }
  | .test => { s with primary := if s.secondaryReady then .test2 else .send }
  | .send => { s with checks := s.checks + 1, primary := .test }
  | .test2 => if s.secondaryReady then { s with primary := .enqueue 0 } else s
  | .enqueue i =>
      let next := if i + 1 < sendCount then .enqueue (i + 1) else .done
      -- the result of the enqueue is not looked at
      match s.ring.enqueue i with
      | some ring => { s with ring := ring, sent := s.sent ++ [i], primary := next }
      | none => { s with lost := s.lost ++ [i], primary := next }
  | .done => s

/-- One step of `main` of the secondary. -/
def secondary (s : State) : State :=
  match s.secondary with
  | .register => { s with checkRegistered := true, secondary := .lookup }
  | .lookup => if s.ringCreated then { s with secondary := .dequeue } else s
  | .dequeue =>
      match s.ring.dequeue with
      | some (data, ring) => { s with ring := ring, secondary := .print data }
      | none => s
  | .print data => { s with printed := s.printed ++ [data], secondary := .dequeue }

/-- `check_cb` sends its reply. -/
def State.answer (s : State) : State :=
  match s.callback with
  | .idle => s
  | .reply => { s with replies := s.replies + 1, callback := .idle }

/-- A `ready_check` in flight arrives, and is in flight still if it is repeated. A
callback at work lets it wait. -/
def State.check (s : State) (repeated : Bool) : State :=
  if s.checks = 0 ∨ s.callback ≠ .idle then s
  else
    let s := { s with checks := if repeated then s.checks else s.checks - 1 }
    if s.checkRegistered then { s with handled := s.handled + 1, callback := .reply } else s

/-- A `ready_reply` in flight arrives, and is in flight still if it is repeated. -/
def State.reply (s : State) (repeated : Bool) : State :=
  if s.replies = 0 then s
  else
    let s := { s with replies := if repeated then s.replies else s.replies - 1 }
    if s.readyRegistered then { s with secondaryReady := true } else s

/-- What happens next. -/
inductive Turn where
  | primary
  | secondary
  | answer
  | check (repeated : Bool)
  | reply (repeated : Bool)
  | loseCheck
  | loseReply

/-- One step of the system. -/
def step : Turn → State → State
  | .primary, s => ReadyHandshake.primary s
  | .secondary, s => ReadyHandshake.secondary s
  | .answer, s => s.answer
  | .check repeated, s => s.check repeated
  | .reply repeated, s => s.reply repeated
  | .loseCheck, s => { s with checks := s.checks - 1 }
  | .loseReply, s => { s with replies := s.replies - 1 }

/-- The state after a sequence of turns. -/
abbrev reached (turns : List Turn) : State := run step turns State.init

/-! ### The invariant -/

/-- How many integers the primary has tried to send. -/
def PrimaryPc.count : PrimaryPc → ℕ
  | .enqueue i => i
  | .done => sendCount
  | _ => 0

/-- The primary has seen that the secondary is ready. -/
def PrimaryPc.Past : PrimaryPc → Prop
  | .test2 | .enqueue _ | .done => True
  | _ => False

/-- The integer in the hands of the secondary. -/
def SecondaryPc.hand : SecondaryPc → List ℕ
  | .print data => [data]
  | _ => []

/-- **The invariant**: there is no reply, and no sign of one, before a check was
handled; the primary sends after such a sign; the integers sent so far are those
printed, in the hands of the secondary and in the ring. -/
structure Inv (s : State) : Prop where
  callback : s.callback = .reply → 0 < s.handled
  replies : 0 < s.replies → 0 < s.handled
  ready : s.secondaryReady = true → 0 < s.handled
  past : s.primary.Past → s.secondaryReady = true
  bound : ∀ i, s.primary = .enqueue i → i < sendCount
  sent : s.sent = List.range s.primary.count
  flow : s.printed ++ s.secondary.hand ++ s.ring.items = s.sent
  lost : s.lost = []

variable {s : State}

lemma inv_init : Inv State.init := by
  constructor <;> simp [State.init, PrimaryPc.Past, PrimaryPc.count, SecondaryPc.hand]

/-- The ring has room for what is still to be sent. -/
lemma Inv.exists_enqueue (h : Inv s) {i : ℕ} (hpc : s.primary = .enqueue i) :
    ∃ ring, s.ring.enqueue i = some ring ∧ ring.items = s.ring.items ++ [i] := by
  refine BoundedFifo.exists_enqueue ?_ i
  have hlen := congrArg List.length h.flow
  have hi := h.bound i hpc
  rw [h.sent, hpc] at hlen
  simp only [List.length_append, List.length_range, PrimaryPc.count, sendCount] at hlen hi
  omega

/-- A step of the primary. -/
lemma Inv.primary (h : Inv s) : Inv (ReadyHandshake.primary s) := by
  rw [ReadyHandshake.primary]
  have hsent := h.sent
  cases hpc : s.primary with
  | createRing | register | send =>
      rw [hpc] at hsent
      exact { h with past := False.elim, bound := by simp, sent := hsent }
  | test =>
      rw [hpc] at hsent
      by_cases hready : s.secondaryReady = true
      · dsimp only
        rw [if_pos hready]
        exact { h with past := fun _ => hready, bound := by simp, sent := hsent }
      · dsimp only
        rw [if_neg hready]
        exact { h with past := False.elim, bound := by simp, sent := hsent }
  | test2 =>
      rw [hpc] at hsent
      have hready : s.secondaryReady = true := h.past (by rw [hpc]; trivial)
      dsimp only
      rw [if_pos hready]
      exact { h with past := fun _ => hready, bound := by simp [sendCount], sent := hsent }
  | enqueue i =>
      have hready : s.secondaryReady = true := h.past (by rw [hpc]; trivial)
      have hi := h.bound i hpc
      obtain ⟨ring, henq, hitems⟩ := h.exists_enqueue hpc
      have hsucc : s.sent ++ [i] = List.range (i + 1) := by
        rw [hsent, hpc, List.range_succ]
        rfl
      have hflow : s.printed ++ s.secondary.hand ++ ring.items = s.sent ++ [i] := by
        rw [hitems, ← List.append_assoc, h.flow]
      simp only [henq]
      by_cases hnext : i + 1 < sendCount
      · rw [if_pos hnext]
        exact { h with
          past := fun _ => hready, flow := hflow, sent := hsucc
          bound := fun j hj => by rwa [← PrimaryPc.enqueue.inj hj] }
      · have hlast : i + 1 = sendCount := by omega
        rw [if_neg hnext]
        exact { h with
          past := fun _ => hready, flow := hflow, bound := by simp
          sent := by rw [hsucc, hlast]; rfl }
  | done => exact h

/-- A step of the secondary. -/
lemma Inv.secondary (h : Inv s) : Inv (ReadyHandshake.secondary s) := by
  have hflow := h.flow
  rw [ReadyHandshake.secondary]
  cases hpc : s.secondary with
  | register =>
      rw [hpc] at hflow
      exact { h with flow := hflow }
  | lookup =>
      rw [hpc] at hflow
      dsimp only
      split
      · exact { h with flow := hflow }
      · exact h
  | dequeue =>
      rw [hpc] at hflow
      dsimp only
      cases hdeq : s.ring.dequeue with
      | none => exact h
      | some taken =>
          have hitems := BoundedFifo.dequeue_eq_some.mp hdeq
          refine { h with flow := ?_ }
          rw [hitems] at hflow
          simpa [SecondaryPc.hand] using hflow
  | print data =>
      rw [hpc] at hflow
      refine { h with flow := ?_ }
      simpa [SecondaryPc.hand] using hflow

/-- **A step keeps the invariant.** -/
lemma Inv.step (turn : Turn) (s : State) (h : Inv s) : Inv (step turn s) := by
  cases turn with
  | primary => exact h.primary
  | secondary => exact h.secondary
  | answer =>
      rw [ReadyHandshake.step, State.answer]
      cases hcallback : s.callback with
      | idle => exact h
      | reply => exact { h with callback := by simp, replies := fun _ => h.callback hcallback }
  | check repeated =>
      rw [ReadyHandshake.step, State.check]
      split
      · exact h
      · dsimp only
        split
        · exact { h with
            callback := fun _ => Nat.succ_pos _, replies := fun _ => Nat.succ_pos _
            ready := fun _ => Nat.succ_pos _ }
        · exact { h with }
  | reply repeated =>
      rw [ReadyHandshake.step, State.reply]
      split
      · exact h
      · rename_i hreplies
        -- there was a reply in flight, whether or not it is repeated
        have hhandled : 0 < s.handled := h.replies (Nat.pos_of_ne_zero hreplies)
        dsimp only
        split
        · exact { h with
            replies := fun _ => hhandled, ready := fun _ => hhandled, past := fun _ => rfl }
        · exact { h with replies := fun _ => hhandled }
  | loseCheck => exact { h with }
  | loseReply => exact { h with replies := fun hpos => h.replies (hpos.trans_le (Nat.sub_le ..)) }

/-- The invariant holds in every state reached. -/
lemma inv_reached (turns : List Turn) : Inv (reached turns) :=
  run_invariant step Inv.step inv_init turns

/-- No more than `sendCount` integers are sent. -/
lemma Inv.count_le (h : Inv s) : s.primary.count ≤ sendCount := by
  cases hpc : s.primary with
  | enqueue i => exact (h.bound i hpc).le
  | done => exact le_rfl
  | _ => exact Nat.zero_le _

/-- **The ready handshake**, in every interleaving and for every loss and repetition
of control messages: the primary stands before an enqueue, and has enqueued
anything, only after the secondary has handled a `ready_check`; no enqueue fails;
and the integers the secondary has printed are a prefix of 0, 1, 2, 3, 4. -/
theorem handshake_safe (turns : List Turn) :
    ((∃ i, (reached turns).primary = .enqueue i) ∨ (reached turns).sent ≠ [] →
      0 < (reached turns).handled) ∧
    (reached turns).lost = [] ∧
    (reached turns).printed <+: [0, 1, 2, 3, 4] := by
  have h := inv_reached turns
  have hrange : (reached turns).sent <+: List.range sendCount := by
    obtain ⟨k, hk⟩ := Nat.exists_eq_add_of_le h.count_le
    rw [h.sent, hk, List.range_add]
    exact List.prefix_append ..
  refine ⟨?_, h.lost, ?_⟩
  · intro hsends
    refine h.ready (h.past ?_)
    have hsent := h.sent
    cases hpc : (reached turns).primary with
    | enqueue i => trivial
    | done => trivial
    | test2 => trivial
    | _ =>
        rw [hpc] at hsends hsent
        simp [hsent, PrimaryPc.count] at hsends
  · have hprinted : (reached turns).printed <+: (reached turns).sent := by
      rw [← h.flow, List.append_assoc]
      exact List.prefix_append ..
    exact hprinted.trans hrange

end DpdkStarter.ReadyHandshake
