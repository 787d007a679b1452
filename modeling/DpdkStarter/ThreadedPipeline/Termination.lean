import DpdkStarter.Library.Progress
import DpdkStarter.ThreadedPipeline.Shutdown

/-!
The three loops of the pipeline return.

Each loop is given a number for the place where it stands and the packets it holds, an
upper bound on the turns it still needs. A turn of a loop lowers its number and the
other loops do not touch it: `rx_loop` as long as the device has packets for it, the
other two once `force_quit` is set.

* `Flagged`: the flag is set by the last step of `rx_loop`, behind the limit.
* `RxPc.turnsLeft`, `ParserPc.turnsLeft`, `TxPc.turnsLeft`: the numbers.
* `rxLoop_turnsLeft`, `parserLoop_turnsLeft`, `txLoop_turnsLeft`: one turn of each loop.
* `pipeline_returns`: every interleaving ends.
-/

namespace DpdkStarter.ThreadedPipeline

open Machine

variable {α : Type*}

/-! ### The flag -/

/-- `force_quit` is set exactly when `rx_loop` has returned, which it does behind the
limit. -/
structure Flagged (s : State α) : Prop where
  quit : s.rx = .quit → rxLimit ≤ s.rxCount
  done : s.rx = .done → s.forceQuit = true
  flag : s.forceQuit = true → s.rx = .done ∧ rxLimit ≤ s.rxCount

/-- Nothing is to be said while the flag is not set and `rx_loop` is not about to set it. -/
lemma flagged_of_running {s : State α} (hquit : s.rx ≠ .quit) (hdone : s.rx ≠ .done)
    (hflag : ¬s.forceQuit = true) : Flagged s :=
  ⟨fun h => absurd h hquit, fun h => absurd h hdone, fun h => absurd h hflag⟩

lemma flagged_init : Flagged (State.init : State α) :=
  flagged_of_running (by simp [State.init]) (by simp [State.init]) (by simp [State.init])

/-- A loop that has returned does nothing. -/
lemma rxLoop_of_done (b : Burst α) {s : State α} (hdone : s.rx = .done) : rxLoop b s = s := by
  rw [rxLoop]
  rw [hdone]

lemma RxPc.ofBurst_ne_quit (pkts : List α) : RxPc.ofBurst pkts ≠ .quit := by
  cases pkts <;> simp [RxPc.ofBurst]

lemma RxPc.ofBurst_ne_done (pkts : List α) : RxPc.ofBurst pkts ≠ .done := by
  cases pkts <;> simp [RxPc.ofBurst]

/-- A turn of `rx_loop`: the test of the limit is what leads to the flag. -/
lemma rxLoop_flagged (b : Burst α) {s : State α} (h : Flagged s) : Flagged (rxLoop b s) := by
  by_cases hflag : s.forceQuit = true
  · rwa [rxLoop_of_done b (h.flag hflag).1]
  · rw [rxLoop]
    cases hpc : s.rx with
    | start | count => exact flagged_of_running (by simp) (by simp) hflag
    | head =>
        dsimp only
        rw [if_neg hflag]
        exact flagged_of_running (by simp) (by simp) hflag
    | burst =>
        exact flagged_of_running (RxPc.ofBurst_ne_quit b.1) (RxPc.ofBurst_ne_done b.1) hflag
    | enqueue rest =>
        cases rest with
        | nil => exact flagged_of_running (by simp) (by simp) hflag
        | cons p rest =>
            dsimp only
            split <;> exact flagged_of_running (by simp) (by simp) hflag
    | limit =>
        dsimp only
        split
        · rename_i hlimit
          exact ⟨fun _ => hlimit, by simp, fun hset => absurd hset hflag⟩
        · exact flagged_of_running (by simp) (by simp) hflag
    | quit => exact ⟨by simp, fun _ => rfl, fun _ => ⟨rfl, h.quit hpc⟩⟩
    | done => exact absurd (h.done hpc) hflag

/-- The other loops leave the count of `rx_loop` alone. -/
lemma parserLoop_rxCount (v : Variant) (s : State α) : (parserLoop v s).rxCount = s.rxCount := by
  rw [parserLoop]
  cases s.parser with
  | head => dsimp only; split <;> rfl
  | free rest => cases rest <;> rfl
  | start | dequeue | parse | count | enqueue | done => rfl

lemma txLoop_rxFrame (accepted : ℕ) (s : State α) :
    (txLoop accepted s).rxCount = s.rxCount ∧ (txLoop accepted s).received = s.received := by
  rw [txLoop]
  cases s.tx with
  | head => dsimp only; split <;> exact ⟨rfl, rfl⟩
  | free rest => cases rest <;> exact ⟨rfl, rfl⟩
  | start | dequeue | count | send | done => exact ⟨rfl, rfl⟩

/-- Every step keeps what is known of the flag. -/
lemma step_flagged (v : Variant) (t : Turn α) (s : State α) (h : Flagged s) :
    Flagged (step v t s) := by
  cases t with
  | rx b => exact rxLoop_flagged b h
  | parser =>
      obtain ⟨hflag, hrx, -, -, -⟩ := parserLoop_frame v s
      have hcount := parserLoop_rxCount v s
      simp only [step]
      exact ⟨by rw [hrx, hcount]; exact h.quit, by rw [hrx, hflag]; exact h.done,
        by rw [hflag, hrx, hcount]; exact h.flag⟩
  | tx accepted =>
      obtain ⟨hflag, hrx, -, -⟩ := txLoop_frame accepted s
      obtain ⟨hcount, -⟩ := txLoop_rxFrame accepted s
      simp only [step]
      exact ⟨by rw [hrx, hcount]; exact h.quit, by rw [hrx, hflag]; exact h.done,
        by rw [hflag, hrx, hcount]; exact h.flag⟩

/-- What every reachable state keeps. -/
lemma step_inv_flagged (v : Variant) (t : Turn α) (s : State α) (h : Inv s ∧ Flagged s) :
    Inv (step v t s) ∧ Flagged (step v t s) :=
  ⟨step_inv v t s h.1, step_flagged v t s h.2⟩

lemma reached_inv_flagged (v : Variant) (turns : List (Turn α)) :
    Inv (reached v turns) ∧ Flagged (reached v turns) :=
  run_invariant (P := fun s => Inv s ∧ Flagged s) (step v) (step_inv_flagged v)
    ⟨inv_init, flagged_init⟩ turns

/-! ### `rx_loop` -/

/-- The turns `rx_loop` needs from the test of the limit on, with so many packets
missing: an iteration that brings `n` of them takes `n + 5`. -/
def turnsFromLimit (missing : ℕ) : ℕ := if missing = 0 then 2 else 6 * missing + 39

/-- The turns `rx_loop` needs at most, with so many packets missing. -/
def RxPc.turnsLeft (missing : ℕ) : RxPc α → ℕ
  | .start => 6 * missing + 39
  | .head => 6 * missing + 38
  | .burst => 6 * missing + 37
  | .count pkts => pkts.length + 2 + turnsFromLimit missing
  | .enqueue rest => rest.length + 1 + turnsFromLimit missing
  | .limit => turnsFromLimit missing
  | .quit => 1
  | .done => 0

/-- The turns `rx_loop` needs at most. -/
def State.rxTurns (s : State α) : ℕ := s.rx.turnsLeft (rxLimit - s.received.length)

/-- The device has a packet for `rx_loop` whenever it is asked. -/
def Turn.Delivers : Turn α → Prop
  | .rx b => b.1 ≠ []
  | _ => True

/-- It is a turn of `rx_loop`. -/
def Turn.isRx : Turn α → Bool
  | .rx _ => true
  | _ => false

/-- It is a turn of `parser_loop`. -/
def Turn.isParser : Turn α → Bool
  | .parser => true
  | _ => false

/-- It is a turn of `tx_loop`. -/
def Turn.isTx : Turn α → Bool
  | .tx _ => true
  | _ => false

/-- A burst that is not empty brings `rx_loop` closer to its end. -/
lemma turnsFromLimit_burst {received n : ℕ} (hlt : received < rxLimit) (hpos : 0 < n)
    (hle : n ≤ burstSize) :
    n + 2 + turnsFromLimit (rxLimit - (received + n)) ≤ 6 * (rxLimit - received) + 36 := by
  simp only [rxLimit, burstSize] at hlt hle ⊢
  rw [turnsFromLimit]
  split <;> omega

/-- **A turn of `rx_loop`** to which the device has an answer lowers its number. -/
lemma rxLoop_turnsLeft (b : Burst α) (hb : b.1 ≠ []) {s : State α} (h : Inv s) :
    (rxLoop b s).rxTurns ≤ s.rxTurns - 1 := by
  have hbound := h.bound
  have hcount := h.rxCount
  simp only [State.rxTurns]
  rw [rxLoop]
  cases hpc : s.rx with
  | start => simp [RxPc.turnsLeft]
  | head => dsimp only; split <;> simp [RxPc.turnsLeft]
  | burst =>
      rw [hpc] at hbound
      have hlt : s.received.length < rxLimit := by
        simp only [RxPc.bound, rxLimit] at hbound ⊢
        omega
      have hpos : 0 < b.1.length := List.length_pos_of_ne_nil hb
      have hpc' : RxPc.ofBurst b.1 = .count b.1 := if_pos hpos
      have hburst := turnsFromLimit_burst hlt hpos b.2
      simp only [hpc', RxPc.turnsLeft, List.length_append]
      omega
  | count pkts => simp only [RxPc.turnsLeft]; omega
  | enqueue rest =>
      cases rest with
      | nil => simp only [RxPc.turnsLeft, List.length_nil]; omega
      | cons p rest =>
          dsimp only
          split <;> simp only [RxPc.turnsLeft, List.length_cons] <;> omega
  | limit =>
      rw [hpc] at hcount
      simp only [RxPc.uncounted, List.length_nil] at hcount
      dsimp only
      split
      · simp only [RxPc.turnsLeft, turnsFromLimit]
        split <;> omega
      · have hmissing : rxLimit - s.received.length ≠ 0 := by omega
        simp only [RxPc.turnsLeft, turnsFromLimit, if_neg hmissing]
        omega
  | quit => simp [RxPc.turnsLeft]
  | done => simp [hpc, RxPc.turnsLeft]

/-- The other loops leave it alone. -/
lemma step_rxTurns_of_not {v : Variant} {t : Turn α} (ht : t.isRx = false) (s : State α) :
    (step v t s).rxTurns = s.rxTurns := by
  cases t with
  | rx b => simp [Turn.isRx] at ht
  | parser =>
      obtain ⟨-, hrx, -, hreceived, -⟩ := parserLoop_frame v s
      simp only [step, State.rxTurns, hrx, hreceived]
  | tx accepted =>
      obtain ⟨-, hrx, -, -⟩ := txLoop_frame accepted s
      obtain ⟨-, hreceived⟩ := txLoop_rxFrame accepted s
      simp only [step, State.rxTurns, hrx, hreceived]

/-- Only a loop that has returned needs no turn. -/
lemma RxPc.turnsLeft_eq_zero {missing : ℕ} {pc : RxPc α} (h : pc.turnsLeft missing = 0) :
    pc = .done := by
  cases pc with
  | limit => simp only [turnsLeft, turnsFromLimit] at h; split at h <;> omega
  | done => rfl
  | _ => simp [turnsLeft] at h

/-! ### The other loops, once the flag is set -/

/-- The turns `parser_loop` needs at most. -/
def ParserPc.turnsLeft : ParserPc α → ℕ
  | .start => 2
  | .head => 1
  | .dequeue => 2 * burstSize + 5
  | .parse i pkts => (pkts.length - (i + 1)) + pkts.length + 5
  | .count pkts => pkts.length + 4
  | .enqueue pkts => pkts.length + 3
  | .free rest => rest.length + 2
  | .done => 0

/-- The turns `tx_loop` needs at most. -/
def TxPc.turnsLeft : TxPc α → ℕ
  | .start => 2
  | .head => 1
  | .dequeue => burstSize + 5
  | .count pkts => pkts.length + 4
  | .send pkts => pkts.length + 3
  | .free rest => rest.length + 2
  | .done => 0

/-- **A turn of `parser_loop`** lowers its number. -/
lemma parserLoop_turnsLeft (v : Variant) {s : State α} (hflag : s.forceQuit = true) :
    (parserLoop v s).parser.turnsLeft ≤ s.parser.turnsLeft - 1 := by
  rw [parserLoop]
  cases hpc : s.parser with
  | start => simp [ParserPc.turnsLeft]
  | head => dsimp only; rw [if_pos hflag]; simp [ParserPc.turnsLeft]
  | dequeue =>
      have hlen : (s.ringRxToParse.dequeueBurst burstSize).1.length ≤ burstSize := by
        simp [BoundedFifo.dequeueBurst]
      simp only [ParserPc.ofBurst]
      split
      · cases v <;> simp only [ParserPc.turnsLeft] <;> omega
      · simp [ParserPc.turnsLeft]
  | parse i pkts =>
      dsimp only
      split <;> simp only [ParserPc.turnsLeft] <;> omega
  | count pkts => simp only [ParserPc.turnsLeft]; omega
  | enqueue pkts =>
      dsimp only
      split
      · simp only [ParserPc.turnsLeft, List.length_drop]
        omega
      · simp only [ParserPc.turnsLeft]
        omega
  | free rest =>
      cases rest with
      | nil => simp [ParserPc.turnsLeft]
      | cons p rest => simp only [ParserPc.turnsLeft, List.length_cons]; omega
  | done => simp [hpc, ParserPc.turnsLeft]

/-- **A turn of `tx_loop`** lowers its number. -/
lemma txLoop_turnsLeft (accepted : ℕ) {s : State α} (hflag : s.forceQuit = true) :
    (txLoop accepted s).tx.turnsLeft ≤ s.tx.turnsLeft - 1 := by
  rw [txLoop]
  cases hpc : s.tx with
  | start => simp [TxPc.turnsLeft]
  | head => dsimp only; rw [if_pos hflag]; simp [TxPc.turnsLeft]
  | dequeue =>
      have hlen : (s.ringParseToTx.dequeueBurst burstSize).1.length ≤ burstSize := by
        simp [BoundedFifo.dequeueBurst]
      simp only [TxPc.ofBurst]
      split
      · simp only [TxPc.turnsLeft]
        omega
      · simp [TxPc.turnsLeft]
  | count pkts => simp only [TxPc.turnsLeft]; omega
  | send pkts => simp only [TxPc.turnsLeft, List.length_drop]; omega
  | free rest =>
      cases rest with
      | nil => simp [TxPc.turnsLeft]
      | cons p rest => simp only [TxPc.turnsLeft, List.length_cons]; omega
  | done => simp [hpc, TxPc.turnsLeft]

lemma ParserPc.turnsLeft_eq_zero {pc : ParserPc α} (h : pc.turnsLeft = 0) : pc = .done := by
  cases pc <;> first | rfl | simp [turnsLeft] at h

lemma TxPc.turnsLeft_eq_zero {pc : TxPc α} (h : pc.turnsLeft = 0) : pc = .done := by
  cases pc <;> first | rfl | simp [turnsLeft] at h

/-- In a reachable state the numbers are small: at most 41 packets are anywhere. -/
lemma Inv.turnsLeft_le {s : State α} (h : Inv s) :
    s.parser.turnsLeft ≤ 86 ∧ s.tx.turnsLeft ≤ 45 := by
  have hlen := h.length_eq
  have htaken := h.taken.length_eq
  have hle := h.received_le
  simp only [List.length_append] at htaken
  have hparser : s.parser.held.length ≤ 41 := by omega
  have htx : s.tx.held.length ≤ 41 := by omega
  constructor
  · cases hpc : s.parser <;> rw [hpc] at hparser <;>
      simp only [ParserPc.held, ParserPc.turnsLeft, burstSize] at hparser ⊢ <;> omega
  · cases hpc : s.tx <;> rw [hpc] at htx <;>
      simp only [TxPc.held, TxPc.turnsLeft, burstSize] at htx ⊢ <;> omega

/-- The condition that the flag is set and what else is known stays. -/
lemma step_quitting (v : Variant) (t : Turn α) (s : State α)
    (h : s.forceQuit = true ∧ Flagged s) :
    (step v t s).forceQuit = true ∧ Flagged (step v t s) := by
  refine ⟨?_, step_flagged v t s h.2⟩
  cases t with
  | rx b => rw [step, rxLoop_of_done b (h.2.flag h.1).1]; exact h.1
  | parser => rw [step, (parserLoop_frame v s).1]; exact h.1
  | tx accepted => rw [step, (txLoop_frame accepted s).1]; exact h.1

/-- The turns of the others leave `parser_loop` where it stands. -/
lemma step_parser_of_not {v : Variant} {t : Turn α} (ht : t.isParser = false) (s : State α) :
    (step v t s).parser = s.parser := by
  cases t with
  | rx b => exact (rxLoop_frame b s).1
  | parser => simp [Turn.isParser] at ht
  | tx accepted => exact (txLoop_frame accepted s).2.2.1

/-- The turns of the others leave `tx_loop` where it stands. -/
lemma step_tx_of_not {v : Variant} {t : Turn α} (ht : t.isTx = false) (s : State α) :
    (step v t s).tx = s.tx := by
  cases t with
  | rx b => exact (rxLoop_frame b s).2.1
  | parser => exact (parserLoop_frame v s).2.2.1
  | tx accepted => simp [Turn.isTx] at ht

/-- The other two loops return once the flag is set. -/
lemma returned_of_flag (v : Variant) {s : State α} (hinv : Inv s) (hflagged : Flagged s)
    (hflag : s.forceQuit = true) {more : List (Turn α)} (hparser : 86 ≤ more.countP Turn.isParser)
    (htx : 45 ≤ more.countP Turn.isTx) : (run (step v) more s).allReturned := by
  have hmeet : StepsMeet (step v) (fun _ _ => True) more s :=
    stepsMeet_of_forall (fun _ _ => trivial) s
  obtain ⟨hparserLe, htxLe⟩ := hinv.turnsLeft_le
  have hend : (run (step v) more s).forceQuit = true ∧ Flagged (run (step v) more s) :=
    run_invariant (P := fun s => s.forceQuit = true ∧ Flagged s) (step v) (step_quitting v)
      ⟨hflag, hflagged⟩ more
  refine ⟨(hend.2.flag hend.1).1, ParserPc.turnsLeft_eq_zero ?_, TxPc.turnsLeft_eq_zero ?_⟩
  · have hrun := run_measure_le (P := fun s => s.forceQuit = true ∧ Flagged s)
      (μ := fun s : State α => s.parser.turnsLeft) (p := Turn.isParser)
      (fun t s _ => step_quitting v t s) ?_ ?_ hmeet ⟨hflag, hflagged⟩
    · omega
    · intro t s _ hs ht
      cases t with
      | parser => exact parserLoop_turnsLeft v hs.1
      | rx | tx => simp [Turn.isParser] at ht
    · intro t s _ _ ht
      rw [step_parser_of_not ht]
  · have hrun := run_measure_le (P := fun s => s.forceQuit = true ∧ Flagged s)
      (μ := fun s : State α => s.tx.turnsLeft) (p := Turn.isTx)
      (fun t s _ => step_quitting v t s) ?_ ?_ hmeet ⟨hflag, hflagged⟩
    · omega
    · intro t s _ hs ht
      cases t with
      | tx accepted => exact txLoop_turnsLeft accepted hs.1
      | rx | parser => simp [Turn.isTx] at ht
    · intro t s _ _ ht
      rw [step_tx_of_not ht]

/-- `rx_loop` returns when the device always has packets for it. -/
lemma rx_returned (v : Variant) {turns : List (Turn α)} (hdelivers : ∀ t ∈ turns, t.Delivers)
    (hrx : 99 ≤ turns.countP Turn.isRx) : (reached v turns).rx = .done := by
  have hmeet : StepsMeet (step v) (fun t _ => t.Delivers) turns State.init :=
    stepsMeet_of_forall hdelivers _
  have hrun := run_measure_le (P := Inv) (μ := State.rxTurns) (p := Turn.isRx)
    (fun t s _ => step_inv v t s) ?_ ?_ hmeet inv_init
  · have hinit : (State.init : State α).rxTurns = 99 := rfl
    rw [hinit] at hrun
    have hzero : (reached v turns).rxTurns = 0 := Nat.le_zero.mp (hrun.trans (by omega))
    exact RxPc.turnsLeft_eq_zero hzero
  · intro t s hd hs ht
    cases t with
    | rx b => exact rxLoop_turnsLeft b hd hs
    | parser | tx => simp [Turn.isRx] at ht
  · intro t s _ _ ht
    rw [step_rxTurns_of_not ht]

/-- **Every interleaving ends.** `force_quit` is set in exactly the states in which
`rx_loop` has returned, and then 10 to 41 packets were received. It has returned after 99
of its turns if the device has a packet for it each time it asks; from then on the whole
pipeline has returned after 86 turns of `parser_loop` and 45 of `tx_loop`, in whatever
order, and however many packets the device accepts. -/
theorem pipeline_returns (v : Variant) (turns : List (Turn α)) :
    ((reached v turns).forceQuit = true ↔ (reached v turns).rx = .done) ∧
    ((reached v turns).rx = .done →
      10 ≤ (reached v turns).rxCount ∧ (reached v turns).rxCount ≤ 41) ∧
    ((∀ t ∈ turns, t.Delivers) → 99 ≤ turns.countP Turn.isRx → (reached v turns).rx = .done) ∧
    ((reached v turns).rx = .done → ∀ more : List (Turn α), 86 ≤ more.countP Turn.isParser →
      45 ≤ more.countP Turn.isTx → (reached v (turns ++ more)).allReturned) := by
  obtain ⟨hinv, hflagged⟩ := reached_inv_flagged v turns
  refine ⟨⟨fun hflag => (hflagged.flag hflag).1, hflagged.done⟩, ?_, rx_returned v, ?_⟩
  · intro hdone
    exact ⟨(hflagged.flag (hflagged.done hdone)).2, hinv.counts_le.2.2⟩
  · intro hdone more hparser htx
    rw [reached, run_append]
    exact returned_of_flag v hinv hflagged (hflagged.done hdone) hparser htx

/-- A device that has ten packets each time: the pipeline has returned behind the turns
of `rx_loop`, those of `parser_loop` and those of `tx_loop`. -/
theorem pipeline_returns_rxTen :
    (reached .threadedProject (List.replicate 99 Turn.rxTen
      ++ (List.replicate 86 .parser ++ List.replicate 45 (.tx 32)))).allReturned := by
  obtain ⟨-, -, hrx, hreturns⟩ := pipeline_returns .threadedProject (List.replicate 99 Turn.rxTen)
  have hdelivers : ∀ t ∈ List.replicate 99 Turn.rxTen, t.Delivers := by
    intro t ht
    rw [List.eq_of_mem_replicate ht]
    exact show List.range 10 ≠ [] by decide
  refine hreturns (hrx hdelivers ?_) _ ?_ ?_
  · rw [List.countP_replicate]
    decide
  · rw [List.countP_append, List.countP_replicate, List.countP_replicate]
    decide
  · rw [List.countP_append, List.countP_replicate, List.countP_replicate]
    decide

end DpdkStarter.ThreadedPipeline
