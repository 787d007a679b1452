import DpdkStarter.ThreadedPipeline.Invariant

/-!
The shutdown of the three-thread pipeline.

`rx_loop` sets `force_quit` right after its last enqueue, and the other two
loops leave as soon as they read it, whatever their ring holds. Packets in a
ring at that moment are neither sent nor freed. A run ends well exactly when
the two loops happened to read the flag late enough.

* `Settled`, `Drained`: what the end of a run should look like, in packets and
  in the totals that `main` prints; the two agree (`settled_iff_drained`).
* `LeavesDrained`: the condition on a step that `parser_loop` reads the flag
  with the first ring empty, and `tx_loop` with nothing left before it.
* `shutdown_iff`: a run in which all three loops have returned is settled if and
  only if its steps all meet the condition.
* `shutdown_strands_packets`: a run that is not.
-/

namespace DpdkStarter.ThreadedPipeline

variable {α : Type*}

/-- All three loops have returned. -/
def State.allReturned (s : State α) : Prop := s.rx = .done ∧ s.parser = .done ∧ s.tx = .done

/-- Every received packet was accepted by the device or freed, exactly once. -/
def State.Settled (s : State α) : Prop := s.received.Perm (s.nic ++ s.txFreed ++ s.parserFreed)

/-- Both rings are empty and the three totals agree. -/
def State.Drained (s : State α) : Prop :=
  s.ringRxToParse.items = [] ∧ s.ringParseToTx.items = [] ∧
    s.rxCount = s.parserCount ∧ s.parserCount = s.txCount

instance [DecidableEq α] (s : State α) : Decidable s.allReturned :=
  inferInstanceAs (Decidable (_ ∧ _ ∧ _))

instance [DecidableEq α] (s : State α) : Decidable s.Settled :=
  inferInstanceAs (Decidable (List.Perm _ _))

instance [DecidableEq α] (s : State α) : Decidable s.Drained :=
  inferInstanceAs (Decidable (_ ∧ _ ∧ _ ∧ _))

/-- The packets that have not reached `tx_loop` and are past `rx_loop`. -/
def State.upstream (s : State α) : List α :=
  s.ringParseToTx.items ++ s.parser.held ++ s.ringRxToParse.items

/-- **The condition of an orderly shutdown** on one step: `parser_loop` reads
`force_quit` as set only with the first ring empty, `tx_loop` only with both
rings and the parser's array empty. -/
def LeavesDrained : Turn α → State α → Prop
  | .rx _, _ => True
  | .parser, s => s.parser = .head → s.forceQuit = true → s.ringRxToParse.items = []
  | .tx _, s => s.tx = .head → s.forceQuit = true → s.upstream = []

instance : ∀ (t : Turn α) (s : State α), [DecidableEq α] → Decidable (LeavesDrained t s)
  | .rx _, _, _ => inferInstanceAs (Decidable True)
  | .parser, _, _ => inferInstanceAs (Decidable (_ → _ → _))
  | .tx _, _, _ => inferInstanceAs (Decidable (_ → _ → _))

/-- Packets are stranded: the stage that should take them has returned. -/
def State.Stranded (s : State α) : Prop :=
  (s.parser = .done ∧ s.ringRxToParse.items ≠ []) ∨ (s.tx = .done ∧ s.upstream ≠ [])

/-- In a run that has ended, the packets are settled when the rings are drained
and the totals agree, and only then. -/
lemma Inv.settled_iff_drained {s : State α} (h : Inv s) (hdone : s.allReturned) :
    s.Settled ↔ s.Drained := by
  obtain ⟨hrx, hparser, htx⟩ := hdone
  have horder := h.order
  have htaken := h.taken
  have hrxCount := h.rxCount
  have hparserCount := h.parserCount
  have htxCount := h.txCount
  rw [hrx] at horder hrxCount
  rw [hparser] at horder hparserCount
  rw [htx] at htaken htxCount
  simp only [RxPc.held, ParserPc.held, TxPc.held, List.append_nil] at horder htaken
  simp only [RxPc.uncounted, ParserPc.uncounted, ParserPc.held, TxPc.uncounted,
    List.length_nil, Nat.add_zero, List.append_nil, List.length_append]
    at hrxCount hparserCount htxCount
  have hlen : s.received.length = s.txTaken.length + s.ringParseToTx.items.length
      + s.ringRxToParse.items.length := by
    rw [horder]
    simp only [List.length_append]
  constructor
  · intro hsettled
    have hall := hsettled.length_eq
    have htakenLen := htaken.length_eq
    simp only [h.parserFreed, List.length_append, List.length_nil, Nat.add_zero] at hall htakenLen
    refine ⟨List.eq_nil_of_length_eq_zero ?_, List.eq_nil_of_length_eq_zero ?_, ?_, ?_⟩ <;> omega
  · rintro ⟨hfirst, hsecond, -, -⟩
    rw [State.Settled, horder, hfirst, hsecond, h.parserFreed]
    simpa only [List.append_nil] using htaken

/-! ### What a thread leaves alone, and when it returns -/

/-- `rx_loop` moves neither of the other threads, and only appends to the first
ring. -/
lemma rxLoop_frame (b : Burst α) (s : State α) :
    (rxLoop b s).parser = s.parser ∧ (rxLoop b s).tx = s.tx ∧
      (rxLoop b s).ringParseToTx = s.ringParseToTx ∧
      s.ringRxToParse.items <+: (rxLoop b s).ringRxToParse.items := by
  rw [rxLoop]
  cases s.rx with
  | head | limit => dsimp only; split <;> exact ⟨rfl, rfl, rfl, List.prefix_rfl⟩
  | enqueue rest =>
      cases rest with
      | nil => exact ⟨rfl, rfl, rfl, List.prefix_rfl⟩
      | cons p rest =>
          dsimp only
          split
          · rename_i ring hring
            obtain ⟨-, hitems⟩ := BoundedFifo.enqueue_eq_some.mp hring
            exact ⟨rfl, rfl, rfl, hitems ▸ List.prefix_append _ _⟩
          · exact ⟨rfl, rfl, rfl, List.prefix_rfl⟩
  | start | burst | count | quit | done => exact ⟨rfl, rfl, rfl, List.prefix_rfl⟩

/-- `parser_loop` moves neither of the other threads. -/
lemma parserLoop_frame (v : Variant) (s : State α) :
    (parserLoop v s).forceQuit = s.forceQuit ∧ (parserLoop v s).rx = s.rx ∧
      (parserLoop v s).tx = s.tx ∧ (parserLoop v s).received = s.received ∧
      (parserLoop v s).txTaken = s.txTaken := by
  rw [parserLoop]
  cases s.parser with
  | head => dsimp only; split <;> exact ⟨rfl, rfl, rfl, rfl, rfl⟩
  | free rest => cases rest <;> exact ⟨rfl, rfl, rfl, rfl, rfl⟩
  | start | dequeue | parse | count | enqueue | done => exact ⟨rfl, rfl, rfl, rfl, rfl⟩

/-- `tx_loop` moves neither of the other threads and leaves the first ring
alone. -/
lemma txLoop_frame (accepted : ℕ) (s : State α) :
    (txLoop accepted s).forceQuit = s.forceQuit ∧ (txLoop accepted s).rx = s.rx ∧
      (txLoop accepted s).parser = s.parser ∧
      (txLoop accepted s).ringRxToParse = s.ringRxToParse := by
  rw [txLoop]
  cases s.tx with
  | head => dsimp only; split <;> exact ⟨rfl, rfl, rfl, rfl⟩
  | free rest => cases rest <;> exact ⟨rfl, rfl, rfl, rfl⟩
  | start | dequeue | count | send | done => exact ⟨rfl, rfl, rfl, rfl⟩

/-- A loop that reads the flag as set returns and does nothing else. -/
lemma parserLoop_leave (v : Variant) {s : State α} (hhead : s.parser = .head)
    (hquit : s.forceQuit = true) : parserLoop v s = { s with parser := .done } := by
  rw [parserLoop]
  rw [hhead]
  simp only [hquit, if_true]

lemma txLoop_leave (accepted : ℕ) {s : State α} (hhead : s.tx = .head)
    (hquit : s.forceQuit = true) : txLoop accepted s = { s with tx := .done } := by
  rw [txLoop]
  rw [hhead]
  simp only [hquit, if_true]

/-- A loop that has returned does nothing. -/
lemma parserLoop_of_done (v : Variant) {s : State α} (hdone : s.parser = .done) :
    parserLoop v s = s := by
  rw [parserLoop]
  rw [hdone]

lemma txLoop_of_done (accepted : ℕ) {s : State α} (hdone : s.tx = .done) :
    txLoop accepted s = s := by
  rw [txLoop]
  rw [hdone]

/-- A loop returns only from its test, on reading the flag. -/
lemma parserLoop_eq_done {v : Variant} {s : State α} (h : (parserLoop v s).parser = .done) :
    s.parser = .done ∨ (s.parser = .head ∧ s.forceQuit = true) := by
  rw [parserLoop] at h
  cases hpc : s.parser with
  | head =>
      rw [hpc] at h
      dsimp only at h
      split at h
      · rename_i hquit
        exact Or.inr ⟨rfl, hquit⟩
      · cases h
  | done => exact Or.inl rfl
  | dequeue =>
      rw [hpc] at h
      have hne : ∀ pkts : List α, ParserPc.ofBurst v pkts ≠ .done := by
        intro pkts
        cases pkts <;> cases v <;> simp [ParserPc.ofBurst]
      exact absurd h (hne _)
  | free rest => rw [hpc] at h; cases rest <;> cases h
  | parse _ _ | enqueue _ => rw [hpc] at h; dsimp only at h; split at h <;> cases h
  | start | count => rw [hpc] at h; cases h

lemma txLoop_eq_done {accepted : ℕ} {s : State α} (h : (txLoop accepted s).tx = .done) :
    s.tx = .done ∨ (s.tx = .head ∧ s.forceQuit = true) := by
  rw [txLoop] at h
  cases hpc : s.tx with
  | head =>
      rw [hpc] at h
      dsimp only at h
      split at h
      · rename_i hquit
        exact Or.inr ⟨rfl, hquit⟩
      · cases h
  | done => exact Or.inl rfl
  | dequeue =>
      rw [hpc] at h
      have hne : ∀ pkts : List α, TxPc.ofBurst pkts ≠ .done := by
        intro pkts
        cases pkts <;> simp [TxPc.ofBurst]
      exact absurd h (hne _)
  | free rest => rw [hpc] at h; cases rest <;> cases h
  | start | count | send => rw [hpc] at h; cases h

/-- `parser_loop` loses nothing on the way from the first ring to the second. -/
lemma parserLoop_upstream (v : Variant) {s : State α} (h : Inv s) :
    (parserLoop v s).upstream = s.upstream := by
  have horder := (parserLoop_inv v h).order
  obtain ⟨-, hrx, -, hreceived, htaken⟩ := parserLoop_frame v s
  -- the received packets are the same, and so is all that is not upstream
  rw [hreceived, hrx, htaken, h.order] at horder
  simp only [List.append_assoc, List.append_cancel_left_eq] at horder
  simp only [← List.append_assoc, List.append_cancel_right_eq] at horder
  exact horder.symm

/-! ### Stranded packets stay stranded -/

/-- Once the stage that should take them has returned, the packets before it
stay where they are or come closer to it, for ever. -/
lemma step_stranded (v : Variant) (t : Turn α) (s : State α) (h : Inv s) (hs : s.Stranded) :
    (step v t s).Stranded := by
  cases t with
  | rx b =>
      obtain ⟨hparser, htx, hsecond, hprefix⟩ := rxLoop_frame b s
      have hfirst : (rxLoop b s).ringRxToParse.items = [] → s.ringRxToParse.items = [] :=
        fun hnil => List.prefix_nil.mp (hnil ▸ hprefix)
      rcases hs with ⟨hdone, hne⟩ | ⟨hdone, hne⟩
      · exact Or.inl ⟨hparser.trans hdone, fun hnil => hne (hfirst hnil)⟩
      · refine Or.inr ⟨htx.trans hdone, fun hnil => hne ?_⟩
        simp only [State.upstream, step, hparser, hsecond, List.append_eq_nil_iff] at hnil ⊢
        exact ⟨hnil.1, hfirst hnil.2⟩
  | parser =>
      rcases hs with ⟨hdone, hne⟩ | ⟨hdone, hne⟩
      · rw [step, parserLoop_of_done v hdone]
        exact Or.inl ⟨hdone, hne⟩
      · obtain ⟨-, -, htx, -, -⟩ := parserLoop_frame v s
        exact Or.inr ⟨htx.trans hdone, by rw [step, parserLoop_upstream v h]; exact hne⟩
  | tx accepted =>
      rcases hs with ⟨hdone, hne⟩ | ⟨hdone, hne⟩
      · obtain ⟨-, -, hparser, hfirst⟩ := txLoop_frame accepted s
        exact Or.inl ⟨hparser.trans hdone, by rw [step, hfirst]; exact hne⟩
      · rw [step, txLoop_of_done accepted hdone]
        exact Or.inr ⟨hdone, hne⟩

/-- A step outside the condition strands packets. -/
lemma step_stranded_of_not (v : Variant) (t : Turn α) (s : State α)
    (hc : ¬ LeavesDrained t s) : (step v t s).Stranded := by
  cases t with
  | rx b => exact absurd trivial hc
  | parser =>
      simp only [LeavesDrained, Classical.not_imp] at hc
      obtain ⟨hhead, hquit, hne⟩ := hc
      rw [step, parserLoop_leave v hhead hquit]
      exact Or.inl ⟨rfl, hne⟩
  | tx accepted =>
      simp only [LeavesDrained, Classical.not_imp] at hc
      obtain ⟨hhead, hquit, hne⟩ := hc
      rw [step, txLoop_leave accepted hhead hquit]
      exact Or.inr ⟨rfl, hne⟩

/-! ### Orderly runs -/

/-- What an orderly run keeps: the flag is set by the last step of `rx_loop`, and
a loop that has returned has left nothing behind it. -/
structure Orderly (s : State α) : Prop where
  quit : s.forceQuit = true → s.rx = .done
  parserDone : s.parser = .done → s.forceQuit = true ∧ s.ringRxToParse.items = []
  txDone : s.tx = .done → s.forceQuit = true ∧ s.upstream = []

lemma orderly_init : Orderly (State.init : State α) where
  quit := fun h => by cases h
  parserDone := fun h => by cases h
  txDone := fun h => by cases h

/-- A step of `rx_loop` keeps a run orderly: once one of the other loops has
returned, it has returned itself. -/
lemma rxLoop_orderly (b : Burst α) {s : State α} (h : Orderly s) : Orderly (rxLoop b s) := by
  by_cases hquit : s.forceQuit = true
  · have hsame : rxLoop b s = s := by unfold rxLoop; rw [h.quit hquit]
    rwa [hsame]
  · obtain ⟨hparser, htx, -, -⟩ := rxLoop_frame b s
    have hparserDone : s.parser ≠ .done := fun hd => hquit (h.parserDone hd).1
    have htxDone : s.tx ≠ .done := fun hd => hquit (h.txDone hd).1
    refine ⟨?_, fun hd => absurd (hparser ▸ hd) hparserDone, fun hd => absurd (htx ▸ hd) htxDone⟩
    rw [rxLoop]
    cases hpc : s.rx with
    | quit => exact fun _ => rfl
    | enqueue rest =>
        cases rest with
        | nil => exact fun hq => absurd hq hquit
        | cons p rest => dsimp only; split <;> exact fun hq => absurd hq hquit
    | head | limit => dsimp only; split <;> exact fun hq => absurd hq hquit
    | start | burst | count | done => exact fun hq => absurd hq hquit

/-- A step of `parser_loop` that meets the condition keeps a run orderly. -/
lemma parserLoop_orderly (v : Variant) {s : State α} (hc : LeavesDrained .parser s)
    (hinv : Inv s) (h : Orderly s) : Orderly (parserLoop v s) := by
  obtain ⟨hquit, hrx, htx, -, -⟩ := parserLoop_frame v s
  refine ⟨by rw [hquit, hrx]; exact h.quit, fun hd => ?_, ?_⟩
  · rcases parserLoop_eq_done hd with hdone | ⟨hhead, hset⟩
    · rw [parserLoop_of_done v hdone]
      exact h.parserDone hdone
    · rw [parserLoop_leave v hhead hset]
      exact ⟨hset, hc hhead hset⟩
  · rw [htx, hquit, parserLoop_upstream v hinv]
    exact h.txDone

/-- A step of `tx_loop` that meets the condition keeps a run orderly. -/
lemma txLoop_orderly (accepted : ℕ) {s : State α} (hc : LeavesDrained (.tx accepted) s)
    (h : Orderly s) : Orderly (txLoop accepted s) := by
  obtain ⟨hquit, hrx, hparser, hfirst⟩ := txLoop_frame accepted s
  refine ⟨by rw [hquit, hrx]; exact h.quit, ?_, fun hd => ?_⟩
  · rw [hquit, hparser, hfirst]
    exact h.parserDone
  · rcases txLoop_eq_done hd with hdone | ⟨hhead, hset⟩
    · rw [txLoop_of_done accepted hdone]
      exact h.txDone hdone
    · rw [txLoop_leave accepted hhead hset]
      exact ⟨hset, hc hhead hset⟩

/-- A step that meets the condition keeps a run orderly. -/
lemma step_orderly (v : Variant) (t : Turn α) (s : State α) (hc : LeavesDrained t s)
    (hs : Inv s ∧ Orderly s) : Inv (step v t s) ∧ Orderly (step v t s) := by
  refine ⟨step_inv v t s hs.1, ?_⟩
  cases t with
  | rx b => exact rxLoop_orderly b hs.2
  | parser => exact parserLoop_orderly v hc hs.1 hs.2
  | tx accepted => exact txLoop_orderly accepted hc hs.2

/-- **The shutdown.** In every run in which all three loops have returned, every
packet received was sent or freed exactly once if and only if the run met the
condition at every step, and then and only then both rings are empty and the
three totals agree. -/
theorem shutdown_iff (v : Variant) (turns : List (Turn α))
    (hdone : (reached v turns).allReturned) :
    ((reached v turns).Settled ↔ Machine.StepsMeet (step v) LeavesDrained turns State.init) ∧
    ((reached v turns).Drained ↔ Machine.StepsMeet (step v) LeavesDrained turns State.init) := by
  have hinv := inv_reached v turns
  have hiff := hinv.settled_iff_drained hdone
  have key : (reached v turns).Drained ↔
      Machine.StepsMeet (step v) LeavesDrained turns State.init := by
    constructor
    · rintro ⟨hfirst, hsecond, -, -⟩
      refine Machine.stepsMeet_of_final (step_inv v) (step_stranded v)
        (fun t s _ => step_stranded_of_not v t s) inv_init ?_
      rintro (⟨-, hne⟩ | ⟨-, hne⟩)
      · exact hne hfirst
      · refine hne ?_
        have hheld : (reached v turns).parser.held = [] := by rw [hdone.2.1]; rfl
        show (reached v turns).upstream = []
        rw [State.upstream, hfirst, hsecond, hheld]
        rfl
    · intro hmeet
      have horderly := (Machine.run_invariant_of_stepsMeet (step_orderly v) hmeet
        ⟨inv_init, orderly_init⟩).2
      obtain ⟨-, hup⟩ := horderly.txDone hdone.2.2
      simp only [State.upstream, List.append_eq_nil_iff] at hup
      refine hiff.mp ?_
      have htaken := hinv.taken
      have horder := hinv.order
      rw [hdone.2.2] at htaken
      rw [hdone.1, hup.1.1, hup.1.2, hup.2] at horder
      simp only [RxPc.held, TxPc.held, List.append_nil] at horder htaken
      rw [State.Settled, horder, hinv.parserFreed, List.append_nil]
      exact htaken
  exact ⟨hiff.trans key, key⟩

/-- A turn of `rx_loop` in which the device has nothing. -/
def Turn.rxIdle : Turn α := .rx ⟨[], Nat.zero_le _⟩

/-- A turn of `rx_loop` in which ten packets arrive. -/
def Turn.rxTen : Turn ℕ := .rx ⟨List.range 10, by decide⟩

/-- Ten packets arrive in one burst and `rx_loop` runs to its end before the
other two threads start. -/
def rxRunsFirst : List (Turn ℕ) :=
  [[.rxIdle, .rxIdle, .rxTen], List.replicate 14 .rxIdle,
    [.parser, .parser, .tx 32, .tx 32]].flatten

/-- **Packets are stranded** when the other two loops then see the flag at their
first test: all three loops return with the ten packets in the first ring,
neither sent nor freed, and the totals are 10, 0 and 0. -/
theorem shutdown_strands_packets :
    (reached .threadedProject rxRunsFirst).allReturned ∧
    ¬ (reached .threadedProject rxRunsFirst).Settled ∧
    ¬ (reached .threadedProject rxRunsFirst).Drained := by
  decide +kernel

/-- The same ten packets, with the other two threads given the turns to pass
them on before `rx_loop` looks at its limit. -/
def rxRunsLast : List (Turn ℕ) :=
  [[.rxIdle, .rxIdle, .rxTen], List.replicate 12 .rxIdle, List.replicate 15 .parser,
    List.replicate 6 (.tx 32), [.rxIdle, .rxIdle, .parser, .tx 32]].flatten

/-- That run is orderly, and so it is settled. -/
theorem shutdown_iff_rxRunsLast : (reached .threadedProject rxRunsLast).Settled :=
  (shutdown_iff .threadedProject rxRunsLast (by decide +kernel)).1.mpr (by decide +kernel)

end DpdkStarter.ThreadedPipeline
