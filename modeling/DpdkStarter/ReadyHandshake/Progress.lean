import DpdkStarter.Library.Progress
import DpdkStarter.ReadyHandshake.Protocol

/-!
The handshake of `inter_process_comm/Multi_Process_Messaging` succeeds in the end, whatever was
lost before, because the primary asks until it is answered.

Asking again and again is motion without progress: the primary goes round its loop for ever
when the channel loses everything. So the run is measured by how far the handshake has come,
and at every point one process helps: a main function, the callback, or the channel that
brings a message.

* `Registered`: who has registered what by when.
* `State.stage`, `State.rank`: how far the handshake has come, and the system.
* `Helps`, `step_helps`: who brings the system on, and that it helps until it moves.
* `handshake_completes`: every run of more than 28 rounds in which nothing is lost, behind any
  run.
-/

namespace DpdkStarter.ReadyHandshake

open Machine

/-! ### Registrations -/

/-- The ring and the callbacks are there when they are needed. -/
structure Registered (s : State) : Prop where
  created : s.primary ≠ .createRing → s.ringCreated = true
  ready : s.primary ≠ .createRing → s.primary ≠ .register → s.readyRegistered = true
  checks : 0 < s.checks → s.readyRegistered = true
  handled : 0 < s.handled → s.readyRegistered = true
  check : s.secondary ≠ .register → s.checkRegistered = true

lemma registered_init : Registered State.init := by
  constructor <;> simp [State.init]

variable {s : State}

lemma Registered.primary (h : Registered s) : Registered (ReadyHandshake.primary s) := by
  obtain ⟨hcreated, hready, hchecks, hhandled, hcheck⟩ := h
  rw [ReadyHandshake.primary]
  cases hpc : s.primary with
  | createRing => exact ⟨fun _ => rfl, by simp, hchecks, hhandled, hcheck⟩
  | register =>
      exact ⟨fun _ => hcreated (by simp [hpc]), fun _ _ => rfl, fun _ => rfl, fun _ => rfl, hcheck⟩
  | send =>
      have hregistered := hready (by simp [hpc]) (by simp [hpc])
      exact ⟨fun _ => hcreated (by simp [hpc]), fun _ _ => hregistered, fun _ => hregistered,
        fun _ => hregistered, hcheck⟩
  | test =>
      exact ⟨fun _ => hcreated (by simp [hpc]), fun _ _ => hready (by simp [hpc]) (by simp [hpc]),
        hchecks, hhandled, hcheck⟩
  | test2 =>
      have hcreated' := hcreated (by simp [hpc])
      have hregistered := hready (by simp [hpc]) (by simp [hpc])
      dsimp only
      split
      · exact ⟨fun _ => hcreated', fun _ _ => hregistered, hchecks, hhandled, hcheck⟩
      · exact ⟨fun _ => hcreated', fun _ _ => hregistered, hchecks, hhandled, hcheck⟩
  | enqueue i =>
      have hcreated' := hcreated (by simp [hpc])
      have hregistered := hready (by simp [hpc]) (by simp [hpc])
      dsimp only
      split
      · exact ⟨fun _ => hcreated', fun _ _ => hregistered, hchecks, hhandled, hcheck⟩
      · exact ⟨fun _ => hcreated', fun _ _ => hregistered, hchecks, hhandled, hcheck⟩
  | done =>
      exact ⟨fun _ => hcreated (by simp [hpc]), fun _ _ => hready (by simp [hpc]) (by simp [hpc]),
        hchecks, hhandled, hcheck⟩

lemma Registered.secondary (h : Registered s) : Registered (ReadyHandshake.secondary s) := by
  have hcheck := h.check
  rw [ReadyHandshake.secondary]
  cases hpc : s.secondary with
  | register => exact { h with check := fun _ => rfl }
  | lookup =>
      dsimp only
      split
      · exact { h with check := fun _ => hcheck (by simp [hpc]) }
      · exact h
  | dequeue =>
      dsimp only
      split
      · exact { h with check := fun _ => hcheck (by simp [hpc]) }
      · exact h
  | print data => exact { h with check := fun _ => hcheck (by simp [hpc]) }

/-- **A step** keeps the registrations. -/
lemma Registered.step (turn : Turn) (s : State) (h : Registered s) : Registered (step turn s) := by
  cases turn with
  | primary => exact h.primary
  | secondary => exact h.secondary
  | answer =>
      rw [ReadyHandshake.step, State.answer]
      split
      · exact h
      · exact { h with }
  | check repeated =>
      rw [ReadyHandshake.step, State.check]
      split
      · exact h
      · rename_i hsome
        have hregistered := h.checks (Nat.pos_of_ne_zero fun hzero => hsome (Or.inl hzero))
        dsimp only
        split
        · exact { h with checks := fun _ => hregistered, handled := fun _ => hregistered }
        · exact { h with checks := fun _ => hregistered }
  | reply repeated =>
      rw [ReadyHandshake.step, State.reply]
      split
      · exact h
      · dsimp only
        split
        · exact { h with }
        · exact { h with }
  | loseCheck => exact { h with checks := fun hpos => h.checks (hpos.trans_le (Nat.sub_le ..)) }
  | loseReply => exact { h with }

/-- Both invariants. -/
def Sound (s : State) : Prop := Inv s ∧ Registered s

lemma Sound.step (turn : Turn) (s : State) (h : Sound s) : Sound (step turn s) :=
  ⟨h.1.step turn s, h.2.step turn s⟩

lemma sound_reached (turns : List Turn) : Sound (reached turns) :=
  run_invariant step Sound.step ⟨inv_init, registered_init⟩ turns

/-! ### How far the system has come -/

/-- How far the primary is; asking again does not bring it on. -/
def PrimaryPc.rank : PrimaryPc → ℕ
  | .createRing => 0
  | .register => 1
  | .test | .send => 2
  | .test2 => 3
  | .enqueue i => 4 + i
  | .done => 4 + sendCount

/-- How far the handshake is: the secondary listens, the primary is about to ask, a question
is under way, it is being answered, an answer is under way, and it was received. -/
def State.stage (s : State) : ℕ :=
  if s.secondaryReady = true then if s.primary = .send then 6 else 7
  else if 0 < s.replies then 5
  else if s.callback = .reply then 4
  else if s.checkRegistered = false then 0
  else if 0 < s.checks then 3
  else if s.primary = .send then 2
  else 1

/-- How far the secondary is, with so many integers printed. -/
def SecondaryPc.rank (printed : ℕ) : SecondaryPc → ℕ
  | .register => 0
  | .lookup => 1
  | .dequeue => 2 * printed + 2
  | .print _ => 2 * printed + 3

/-- How far the system is. -/
def State.rank (s : State) : ℕ :=
  s.primary.rank + s.stage + s.secondary.rank s.printed.length

/-- All integers were printed. -/
def State.Complete (s : State) : Prop := s.printed = List.range sendCount

/-- A step that takes nothing back. -/
structure Advances (s t : State) : Prop where
  primary : s.primary.rank ≤ t.primary.rank
  stage : s.stage ≤ t.stage
  secondary : s.secondary.rank s.printed.length ≤ t.secondary.rank t.printed.length

lemma stage_le (s : State) : s.stage ≤ 7 := by
  rw [State.stage]
  split_ifs <;> omega

/-- The processes: the two main functions, the callback, and the channel in both directions. -/
inductive Process where
  | primary | secondary | callback | checks | replies
  deriving DecidableEq, Repr

/-- The process a turn belongs to. -/
def Turn.process : Turn → Process
  | .primary => .primary
  | .secondary => .secondary
  | .answer => .callback
  | .check _ | .loseCheck => .checks
  | .reply _ | .loseReply => .replies

/-- Nothing is lost. -/
def Turn.Delivers : Turn → Prop
  | .loseCheck | .loseReply => False
  | _ => True

/-- The process brings the system on when it moves. -/
def Helps : Process → State → Prop
  | .primary, s => s.primary.rank < 2 ∨ s.stage = 1 ∨ s.stage = 2 ∨
      (6 ≤ s.stage ∧ s.primary.rank < 4 + sendCount)
  | .secondary, s =>
      match s.secondary with
      | .register => True
      | .lookup => s.ringCreated = true
      | .dequeue => s.ring.items ≠ []
      | .print _ => True
  | .checks, s => s.stage = 3
  | .callback, s => s.stage = 4
  | .replies, s => s.stage = 5

/-! ### Steps -/

/-- What the others leave of what the secondary does and waits for. -/
structure SecondaryStays (s t : State) : Prop where
  secondary : t.secondary = s.secondary
  printed : t.printed = s.printed
  created : s.ringCreated = true → t.ringCreated = true
  items : s.ring.items ≠ [] → t.ring.items ≠ []

/-- What the primary leaves alone; it hears nothing by itself. -/
lemma primary_stays (s : State) : SecondaryStays s (ReadyHandshake.primary s) ∧
    (ReadyHandshake.primary s).secondaryReady = s.secondaryReady := by
  rw [ReadyHandshake.primary]
  cases s.primary with
  | createRing => exact ⟨⟨rfl, rfl, fun _ => rfl, id⟩, rfl⟩
  | test2 =>
      dsimp only
      split <;> exact ⟨⟨rfl, rfl, id, id⟩, rfl⟩
  | enqueue i =>
      dsimp only
      split
      · rename_i ring henq
        have hitems := (BoundedFifo.enqueue_eq_some.mp henq).2
        refine ⟨⟨rfl, rfl, id, fun _ => ?_⟩, rfl⟩
        rw [hitems]
        simp
      · exact ⟨⟨rfl, rfl, id, id⟩, rfl⟩
  | register | test | send | done => exact ⟨⟨rfl, rfl, id, id⟩, rfl⟩

/-- The secondary hears nothing for the primary, and prints behind what was printed. -/
lemma secondary_stays (s : State) :
    (ReadyHandshake.secondary s).secondaryReady = s.secondaryReady ∧
      s.printed <+: (ReadyHandshake.secondary s).printed := by
  rw [ReadyHandshake.secondary]
  cases s.secondary with
  | register => exact ⟨rfl, List.prefix_refl _⟩
  | lookup | dequeue =>
      dsimp only
      split <;> exact ⟨rfl, List.prefix_refl _⟩
  | print data => exact ⟨rfl, List.prefix_append ..⟩

/-- The callback and the channel move control messages, and an answer that arrives is heard. -/
lemma step_channel (s : State) {turn : Turn} (hprimary : turn.process ≠ .primary)
    (hsecondary : turn.process ≠ .secondary) :
    ∃ ready checks replies callback handled, step turn s = { s with
        secondaryReady := ready, checks := checks, replies := replies, callback := callback
        handled := handled } ∧
      (turn.process ≠ .replies → ready = s.secondaryReady) := by
  cases turn with
  | primary => exact absurd rfl hprimary
  | secondary => exact absurd rfl hsecondary
  | answer =>
      rw [step, State.answer]
      split <;> exact ⟨_, _, _, _, _, rfl, fun _ => rfl⟩
  | check repeated =>
      rw [step, State.check]
      split
      · exact ⟨_, _, _, _, _, rfl, fun _ => rfl⟩
      · dsimp only
        split <;> exact ⟨_, _, _, _, _, rfl, fun _ => rfl⟩
  | reply repeated =>
      rw [step, State.reply]
      split
      · exact ⟨_, _, _, _, _, rfl, fun _ => rfl⟩
      · dsimp only
        split <;> exact ⟨_, _, _, _, _, rfl, fun h => absurd rfl h⟩
  | loseCheck | loseReply => exact ⟨_, _, _, _, _, rfl, fun _ => rfl⟩

/-- Only the secondary moves the secondary, prints, or takes from the ring. -/
lemma secondary_frame (s : State) {turn : Turn} (hother : turn.process ≠ .secondary) :
    SecondaryStays s (step turn s) := by
  by_cases hprimary : turn.process = .primary
  · cases turn with
    | primary => exact (primary_stays s).1
    | _ => simp [Turn.process] at hprimary
  · obtain ⟨_, _, _, _, _, hstep, -⟩ := step_channel s hprimary hother
    rw [hstep]
    exact ⟨rfl, rfl, id, id⟩

/-- A step of the primary. -/
lemma primary_advances (h : Sound s) : Advances s (ReadyHandshake.primary s) ∧
    (Helps .primary s → s.rank < (ReadyHandshake.primary s).rank) := by
  simp only [State.rank, Helps]
  rw [ReadyHandshake.primary]
  cases hpc : s.primary with
  | createRing | register =>
      refine ⟨⟨?_, ?_, le_rfl⟩, fun _ => ?_⟩ <;>
        simp only [hpc, State.stage, PrimaryPc.rank, reduceCtorEq, if_false] <;> omega
  | test =>
      cases hready : s.secondaryReady with
      | true =>
          refine ⟨⟨?_, ?_, le_rfl⟩, fun _ => ?_⟩ <;>
            simp only [hpc, hready, State.stage, PrimaryPc.rank, reduceCtorEq, if_false,
              if_true] <;> omega
      | false =>
          refine ⟨⟨?_, ?_, le_rfl⟩, fun hhelps => ?_⟩
          · simp [hpc, PrimaryPc.rank]
          · simp only [hpc, State.stage]
            split_ifs <;> simp_all
          · simp only [hpc, State.stage, PrimaryPc.rank] at hhelps ⊢
            split_ifs at hhelps ⊢ <;> simp_all
  | send =>
      refine ⟨⟨?_, ?_, le_rfl⟩, fun hhelps => ?_⟩
      · simp [hpc, PrimaryPc.rank]
      · simp only [hpc, State.stage]
        split_ifs <;> simp_all
      · simp only [hpc, State.stage, PrimaryPc.rank] at hhelps ⊢
        split_ifs at hhelps ⊢ <;> simp_all
  | test2 =>
      have hready : s.secondaryReady = true := h.1.past (by rw [hpc]; trivial)
      simp only [hready, if_true]
      refine ⟨⟨?_, ?_, le_rfl⟩, fun _ => ?_⟩ <;>
        simp only [hpc, hready, State.stage, PrimaryPc.rank, reduceCtorEq, if_false, if_true] <;>
        omega
  | enqueue i =>
      have hi := h.1.bound i hpc
      obtain ⟨ring, henq, -⟩ := h.1.exists_enqueue hpc
      simp only [henq]
      by_cases hnext : i + 1 < sendCount
      · simp only [if_pos hnext]
        refine ⟨⟨?_, ?_, le_rfl⟩, fun _ => ?_⟩ <;>
          simp only [hpc, State.stage, PrimaryPc.rank, reduceCtorEq, if_false] <;> omega
      · simp only [if_neg hnext]
        refine ⟨⟨?_, ?_, le_rfl⟩, fun _ => ?_⟩ <;>
          simp only [hpc, State.stage, PrimaryPc.rank, reduceCtorEq, if_false] <;> omega
  | done =>
      have hready : s.secondaryReady = true := h.1.past (by rw [hpc]; trivial)
      refine ⟨⟨le_rfl, le_rfl, le_rfl⟩, fun hhelps => ?_⟩
      simp only [hpc, hready, State.stage, PrimaryPc.rank, reduceCtorEq, if_false,
        if_true] at hhelps
      omega

/-- A step of the secondary. -/
lemma secondary_advances (s : State) : Advances s (ReadyHandshake.secondary s) ∧
    (Helps .secondary s → s.rank < (ReadyHandshake.secondary s).rank) := by
  simp only [State.rank, Helps]
  rw [ReadyHandshake.secondary]
  cases hpc : s.secondary with
  | register =>
      have hstage : s.stage
          ≤ ({ s with checkRegistered := true, secondary := .lookup } : State).stage := by
        simp only [State.stage]
        split_ifs <;> simp_all
      refine ⟨⟨le_rfl, hstage, ?_⟩, fun _ => ?_⟩
      · simp [hpc, SecondaryPc.rank]
      · simp only [SecondaryPc.rank]
        omega
  | lookup =>
      dsimp only
      split
      · refine ⟨⟨le_rfl, le_rfl, ?_⟩, fun _ => ?_⟩
        · simp only [hpc, SecondaryPc.rank]
          omega
        · simp only [State.stage, SecondaryPc.rank]
          omega
      · rename_i hcreated
        exact ⟨⟨le_rfl, le_rfl, le_rfl⟩, fun hhelps => absurd hhelps hcreated⟩
  | dequeue =>
      cases hdeq : s.ring.dequeue with
      | none =>
          have hnil := BoundedFifo.dequeue_eq_none.mp hdeq
          exact ⟨⟨le_rfl, le_rfl, le_rfl⟩, fun hhelps => absurd hnil hhelps⟩
      | some taken =>
          refine ⟨⟨le_rfl, le_rfl, ?_⟩, fun _ => ?_⟩
          · simp only [hpc, SecondaryPc.rank]
            omega
          · simp only [State.stage, SecondaryPc.rank]
            omega
  | print data =>
      refine ⟨⟨le_rfl, le_rfl, ?_⟩, fun _ => ?_⟩
      · simp only [hpc, SecondaryPc.rank, List.length_append, List.length_singleton]
        omega
      · simp only [State.stage, SecondaryPc.rank, List.length_append, List.length_singleton]
        omega

/-- A step of the callback or of the channel moves the handshake only. -/
lemma advances_of_stage (turn : Turn) (hprimary : turn.process ≠ .primary)
    (hsecondary : turn.process ≠ .secondary) (hstage : s.stage ≤ (step turn s).stage) :
    Advances s (step turn s) ∧ (s.stage < (step turn s).stage → s.rank < (step turn s).rank) := by
  obtain ⟨ready, checks, replies, callback, handled, hstep, -⟩ :=
    step_channel s hprimary hsecondary
  have hsame : (step turn s).primary = s.primary ∧ (step turn s).secondary = s.secondary ∧
      (step turn s).printed = s.printed := by
    rw [hstep]
    exact ⟨rfl, rfl, rfl⟩
  obtain ⟨hpc, hpc', hprinted⟩ := hsame
  refine ⟨⟨by rw [hpc], hstage, by rw [hpc', hprinted]⟩, fun hup => ?_⟩
  rw [State.rank, State.rank, hpc, hpc', hprinted]
  omega

/-- The callback answers. -/
lemma answer_stage (s : State) :
    s.stage ≤ s.answer.stage ∧ (s.stage = 4 → s.stage < s.answer.stage) := by
  rw [State.answer]
  cases hcallback : s.callback with
  | idle =>
      refine ⟨le_rfl, fun hfour => ?_⟩
      simp only [State.stage, hcallback] at hfour
      split_ifs at hfour <;> simp_all
  | reply =>
      simp only [State.stage, hcallback]
      split_ifs <;> simp_all

/-- A question arrives. -/
lemma check_stage (s : State) (repeated : Bool) : s.stage ≤ (s.check repeated).stage ∧
    (s.stage = 3 → s.stage < (s.check repeated).stage) := by
  rw [State.check]
  split
  · rename_i hwaits
    refine ⟨le_rfl, fun hthree => ?_⟩
    cases hcallback : s.callback with
    | idle =>
        -- the channel is empty
        have hzero : s.checks = 0 := hwaits.resolve_right fun hbusy => hbusy hcallback
        simp only [State.stage, hcallback, hzero] at hthree
        split_ifs at hthree <;> simp_all
    | reply =>
        simp only [State.stage, hcallback] at hthree
        split_ifs at hthree <;> omega
  · rename_i hgo
    dsimp only
    split
    · simp only [State.stage]
      split_ifs <;> simp_all
    · simp only [State.stage]
      split_ifs <;> simp_all

/-- An answer arrives: the primary has registered for it. -/
lemma reply_stage (h : Sound s) (repeated : Bool) : s.stage ≤ (s.reply repeated).stage ∧
    (s.stage = 5 → s.stage < (s.reply repeated).stage) := by
  rw [State.reply]
  split
  · rename_i hnone
    refine ⟨le_rfl, fun hfive => ?_⟩
    simp only [State.stage, hnone] at hfive
    split_ifs at hfive <;> simp_all
  · rename_i hsome
    have hregistered : s.readyRegistered = true :=
      h.2.handled (h.1.replies (Nat.pos_of_ne_zero hsome))
    simp only [hregistered, if_true, State.stage]
    split_ifs <;> simp_all

/-- **A step** takes nothing back, and a process that helps brings the system on. -/
lemma step_advances (h : Sound s) {turn : Turn} (hdelivers : turn.Delivers) :
    Advances s (step turn s) ∧ (Helps turn.process s → s.rank < (step turn s).rank) := by
  cases turn with
  | primary => exact primary_advances h
  | secondary => exact secondary_advances s
  | answer =>
      obtain ⟨hstage, hhelps⟩ := answer_stage s
      obtain ⟨hadvances, hup⟩ := advances_of_stage .answer (by simp [Turn.process])
        (by simp [Turn.process]) hstage
      exact ⟨hadvances, fun h => hup (hhelps h)⟩
  | check repeated =>
      obtain ⟨hstage, hhelps⟩ := check_stage s repeated
      obtain ⟨hadvances, hup⟩ := advances_of_stage (.check repeated) (by simp [Turn.process])
        (by simp [Turn.process]) hstage
      exact ⟨hadvances, fun h => hup (hhelps h)⟩
  | reply repeated =>
      obtain ⟨hstage, hhelps⟩ := reply_stage h repeated
      obtain ⟨hadvances, hup⟩ := advances_of_stage (.reply repeated) (by simp [Turn.process])
        (by simp [Turn.process]) hstage
      exact ⟨hadvances, fun h => hup (hhelps h)⟩
  | loseCheck => exact hdelivers.elim
  | loseReply => exact hdelivers.elim

/-- **A process that helps goes on helping** until it moves or the system gets on. -/
lemma step_helps (h : Sound s) {turn : Turn} (hdelivers : turn.Delivers) {k : Process}
    (hhelps : Helps k s) : s.rank < (step turn s).rank ∨
      (turn.process ≠ k ∧ (step turn s).rank = s.rank ∧ Helps k (step turn s)) := by
  obtain ⟨⟨hprimary, hstage, hsecondary⟩, hmoves⟩ := step_advances h hdelivers
  rcases lt_or_ge s.rank (step turn s).rank with hup | hle
  · exact Or.inl hup
  · have hother : turn.process ≠ k := fun hk => absurd (hmoves (hk ▸ hhelps)) (not_lt.mpr hle)
    simp only [State.rank] at hle ⊢
    have hstage' : (step turn s).stage = s.stage := by omega
    have hprimary' : (step turn s).primary.rank = s.primary.rank := by omega
    refine Or.inr ⟨hother, by omega, ?_⟩
    cases k with
    | primary =>
        simp only [Helps] at hhelps ⊢
        rwa [hstage', hprimary']
    | secondary =>
        have hstays := secondary_frame s hother
        simp only [Helps] at hhelps ⊢
        rw [hstays.secondary]
        cases hpc : s.secondary with
        | lookup =>
            rw [hpc] at hhelps
            exact hstays.created hhelps
        | dequeue =>
            rw [hpc] at hhelps
            exact hstays.items hhelps
        | register | print => trivial
    | checks | callback | replies =>
        simp only [Helps] at hhelps ⊢
        rwa [hstage']

/-! ### The end -/

/-- The integers printed, and the one in hand, are a first part of those to be sent. -/
lemma Inv.printed_range (h : Inv s) : s.printed ++ s.secondary.hand <+: List.range sendCount := by
  obtain ⟨k, hk⟩ := Nat.exists_eq_add_of_le h.count_le
  have hsent : s.printed ++ s.secondary.hand <+: s.sent := by
    rw [← h.flow]
    exact List.prefix_append ..
  have hrange : s.sent <+: List.range sendCount := by
    rw [h.sent, hk, List.range_add]
    exact List.prefix_append ..
  exact hsent.trans hrange

/-- The rank is bounded. -/
lemma rank_le (h : Sound s) : s.rank ≤ 28 := by
  have hprinted := h.1.printed_range.length_le
  have hstage := stage_le s
  have hprimary : s.primary.rank ≤ 9 := by
    cases hpc : s.primary with
    | enqueue i =>
        have hi := h.1.bound i hpc
        simp only [PrimaryPc.rank, sendCount] at hi ⊢
        omega
    | _ => simp [PrimaryPc.rank, sendCount]
  have hsecondary : s.secondary.rank s.printed.length ≤ 12 := by
    rw [List.length_append, List.length_range] at hprinted
    cases hpc : s.secondary <;> rw [hpc] at hprinted <;>
      simp only [SecondaryPc.rank, SecondaryPc.hand, List.length_nil, List.length_singleton,
        sendCount] at hprinted ⊢ <;> omega
  rw [State.rank]
  omega

/-- What was printed stays printed. -/
lemma printed_step (turn : Turn) (s : State) : s.printed <+: (step turn s).printed := by
  by_cases hturn : turn.process = .secondary
  · cases turn with
    | secondary => exact (secondary_stays s).2
    | _ => simp [Turn.process] at hturn
  · rw [(secondary_frame s hturn).printed]

lemma step_complete (h : Sound s) (turn : Turn) (hdone : s.Complete) :
    (step turn s).Complete := by
  have hrange := (List.prefix_append _ _).trans (h.step turn).1.printed_range
  have hprinted := printed_step turn s
  rw [State.Complete] at hdone
  rw [hdone] at hprinted
  exact hrange.eq_of_length_le hprinted.length_le

/-- **There is no deadlock**: as long as something is to be printed, some process helps. -/
lemma exists_helps (h : Sound s) (hopen : ¬s.Complete) : ∃ k, Helps k s := by
  by_cases hearly : s.primary.rank < 2
  · exact ⟨.primary, Or.inl hearly⟩
  by_cases hregister : s.secondary = .register
  · exact ⟨.secondary, by simp only [Helps, hregister]⟩
  have hcreated : s.ringCreated = true := by
    refine h.2.created fun hpc => hearly ?_
    rw [hpc, PrimaryPc.rank]
    exact Nat.zero_lt_two
  have hstage : s.stage ≠ 0 := by
    simp only [State.stage, h.2.check hregister]
    split_ifs <;> simp_all
  by_cases hlast : s.primary.rank < 4 + sendCount
  · -- the handshake, or the primary behind it
    rcases (by omega : s.stage = 3 ∨ s.stage = 4 ∨ s.stage = 5 ∨
      (s.stage = 1 ∨ s.stage = 2 ∨ 6 ≤ s.stage)) with hthree | hfour | hfive | hrest
    · exact ⟨.checks, hthree⟩
    · exact ⟨.callback, hfour⟩
    · exact ⟨.replies, hfive⟩
    · exact ⟨.primary, Or.inr (hrest.imp_right fun h => h.imp_right fun h => ⟨h, hlast⟩)⟩
  · -- the primary has sent everything
    have hdone : s.primary = .done := by
      cases hpc : s.primary with
      | enqueue i =>
          have hi := h.1.bound i hpc
          rw [hpc, PrimaryPc.rank] at hlast
          omega
      | done => rfl
      | _ => simp [hpc, PrimaryPc.rank, sendCount] at hlast
    refine ⟨.secondary, ?_⟩
    cases hpc : s.secondary with
    | register => exact absurd hpc hregister
    | lookup => simpa only [Helps, hpc] using hcreated
    | print data => simp only [Helps, hpc]
    | dequeue =>
        simp only [Helps, hpc]
        intro hitems
        have hflow := h.1.flow
        rw [h.1.sent, hdone, hpc, hitems] at hflow
        simp only [SecondaryPc.hand, List.append_nil] at hflow
        exact hopen hflow

/-- Only an answer that arrives is heard. -/
lemma ready_step (s : State) {turn : Turn} (hother : turn.process ≠ .replies) :
    (step turn s).secondaryReady = s.secondaryReady := by
  by_cases hprimary : turn.process = .primary
  · cases turn with
    | primary => exact (primary_stays s).2
    | _ => simp [Turn.process] at hprimary
  by_cases hsecondary : turn.process = .secondary
  · cases turn with
    | secondary => exact (secondary_stays s).1
    | _ => simp [Turn.process] at hsecondary
  obtain ⟨_, _, _, _, _, hstep, hready⟩ := step_channel s hprimary hsecondary
  rw [hstep]
  exact hready hother

/-- Without an answer the primary sends nothing. -/
lemma sent_of_no_reply {turns : List Turn} (h : ∀ t ∈ turns, t.process ≠ .replies) :
    (reached turns).sent = [] := by
  have hquiet : (reached turns).secondaryReady = false :=
    run_invariant_of_stepsMeet (P := fun s => s.secondaryReady = false)
      (fun _ s hturn hs => (ready_step s hturn).trans hs) (stepsMeet_of_forall h State.init) rfl
  have hinv := inv_reached turns
  have hsent := hinv.sent
  have hpast : ¬(reached turns).primary.Past := fun hpast => by
    rw [hinv.past hpast] at hquiet
    cases hquiet
  cases hpc : (reached turns).primary with
  | test2 | enqueue | done =>
      rw [hpc] at hpast
      exact absurd trivial hpast
  | createRing | register | test | send =>
      rw [hpc] at hsent
      exact hsent

/-- **The handshake succeeds in the end.** Behind any turns, whatever was lost, repeated or
came too early in them, 29 rounds in which each main function, the callback and the channel in
either direction moves, and nothing is lost, leave the primary returned, the ring empty and all
five integers printed, in order. Without any answer the primary sends nothing, ever. -/
theorem handshake_completes (turns : List Turn) :
    (∀ rounds : List (List Turn), (∀ r ∈ rounds, IsRound Turn.process r) →
      (∀ t ∈ rounds.flatten, t.Delivers) → 28 < rounds.length →
      (reached (turns ++ rounds.flatten)).primary = .done ∧
      (reached (turns ++ rounds.flatten)).ring.items = [] ∧
      (reached (turns ++ rounds.flatten)).printed = [0, 1, 2, 3, 4]) ∧
    ((∀ t ∈ turns, t.process ≠ .replies) → (reached turns).sent = []) := by
  refine ⟨fun rounds hrounds hdelivers hlen => ?_, sent_of_no_reply⟩
  have hsound := sound_reached (turns ++ rounds.flatten)
  have hdone : (reached (turns ++ rounds.flatten)).Complete := by
    rw [reached, run_append]
    refine done_of_helpful_rounds (P := Sound) (μ := State.rank) (c := fun t _ => t.Delivers)
      (H := Helps) (fun t s _ hs => hs.step t s) (fun t s _ hs hdone => step_complete hs t hdone)
      (fun k t s ht hs _ hk => step_helps hs ht hk) (fun s hs => exists_helps hs)
      (fun s hs => rank_le hs) hrounds (stepsMeet_of_forall hdelivers _) (sound_reached turns) ?_
    exact hlen.trans_le (Nat.le_add_left _ _)
  have hflow := hsound.1.flow
  have hsent := hsound.1.sent
  have hcount := hsound.1.count_le
  rw [hdone, hsent] at hflow
  have hlength := congrArg List.length hflow
  simp only [List.length_append, List.length_range] at hlength
  refine ⟨?_, List.eq_nil_of_length_eq_zero (by omega), hdone⟩
  cases hpc : (reached (turns ++ rounds.flatten)).primary with
  | enqueue i =>
      have hi := hsound.1.bound i hpc
      rw [hpc, PrimaryPc.count] at hlength
      omega
  | done => rfl
  | _ =>
      rw [hpc] at hlength
      simp only [PrimaryPc.count, sendCount] at hlength
      omega

/-- The first question comes too early and the first answer is lost. -/
theorem handshake_completes_retry :
    (reached ([.primary, .primary, .primary, .primary, .check false, .secondary, .primary, .primary,
      .check false, .answer, .loseReply] ++ (List.replicate 29
        [.primary, .secondary, .check false, .answer, .reply true]).flatten)).printed
      = [0, 1, 2, 3, 4] := by
  refine ((handshake_completes _).1 _ (fun r hr => ?_) (fun t ht => ?_) (by simp)).2.2
  · rw [List.eq_of_mem_replicate hr]
    intro k
    cases k <;> simp [Turn.process]
  · obtain ⟨r, hr, ht⟩ := List.mem_flatten.mp ht
    rw [List.eq_of_mem_replicate hr] at ht
    simp only [List.mem_cons, List.not_mem_nil, or_false] at ht
    rcases ht with rfl | rfl | rfl | rfl | rfl <;> trivial

end DpdkStarter.ReadyHandshake
