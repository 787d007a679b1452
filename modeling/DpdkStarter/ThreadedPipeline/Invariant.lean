import DpdkStarter.ThreadedPipeline.Loops

/-!
The running invariant of the three-thread pipeline.

`rx_loop` ignores the result of its enqueues, so nothing in the code itself
keeps a packet from being lost on a full ring. What does is a global bound: the
loop test leaves at most nine packets behind before a burst of at most 32, so
at most 41 packets are ever received, far below the 1023 slots of either ring.

* `Inv`: the packets received are, in order, those taken by `tx_loop`, those in
  the second ring, with the parser, in the first ring and with `rx_loop`; the
  counters lag behind these sequences by the bursts not yet counted; nothing
  was refused.
* `rxLoop_inv`, `parserLoop_inv`, `txLoop_inv`, and `inv_reached`.
* `pipeline_safe`: the invariant in the words of the packets and counters.
-/

namespace DpdkStarter.ThreadedPipeline

variable {α : Type*}

/-- The packets `rx_loop` holds and has not counted. -/
def RxPc.uncounted : RxPc α → List α
  | .count pkts => pkts
  | _ => []

/-- The packets `parser_loop` holds and has not counted. -/
def ParserPc.uncounted : ParserPc α → List α
  | .parse _ pkts | .count pkts => pkts
  | _ => []

/-- The packets `tx_loop` holds and has not counted. -/
def TxPc.uncounted : TxPc α → List α
  | .count pkts => pkts
  | _ => []

/-- How many packets can have been received when `rx_loop` stands at a point:
at the loop test and before a burst the limit has not been reached. -/
def RxPc.bound : RxPc α → ℕ
  | .start | .head | .burst => rxLimit - 1
  | _ => rxLimit - 1 + burstSize

/-- `parser_loop` is freeing packets its ring refused. -/
def ParserPc.freeing : ParserPc α → Bool
  | .free _ => true
  | _ => false

section ofBurst

/-- A burst is held, whether it is empty or not. -/
@[simp] lemma RxPc.held_ofBurst (pkts : List α) : (RxPc.ofBurst pkts).held = pkts := by
  cases pkts <;> rfl

@[simp] lemma RxPc.uncounted_ofBurst (pkts : List α) :
    (RxPc.ofBurst pkts).uncounted = pkts := by
  cases pkts <;> rfl

@[simp] lemma RxPc.bound_ofBurst (pkts : List α) :
    (RxPc.ofBurst pkts).bound = rxLimit - 1 + burstSize := by
  cases pkts <;> rfl

lemma RxPc.ofBurst_ne_start (pkts : List α) : RxPc.ofBurst pkts ≠ .start := by
  cases pkts <;> simp [RxPc.ofBurst]

@[simp] lemma ParserPc.held_ofBurst (v : Variant) (pkts : List α) :
    (ParserPc.ofBurst v pkts).held = pkts := by
  cases pkts <;> cases v <;> rfl

@[simp] lemma ParserPc.uncounted_ofBurst (v : Variant) (pkts : List α) :
    (ParserPc.ofBurst v pkts).uncounted = pkts := by
  cases pkts <;> cases v <;> rfl

@[simp] lemma ParserPc.freeing_ofBurst (v : Variant) (pkts : List α) :
    (ParserPc.ofBurst v pkts).freeing = false := by
  cases pkts <;> cases v <;> rfl

lemma ParserPc.ofBurst_ne_start (v : Variant) (pkts : List α) :
    ParserPc.ofBurst v pkts ≠ .start := by
  cases pkts <;> cases v <;> simp [ParserPc.ofBurst]

@[simp] lemma TxPc.held_ofBurst (pkts : List α) : (TxPc.ofBurst pkts).held = pkts := by
  cases pkts <;> rfl

@[simp] lemma TxPc.uncounted_ofBurst (pkts : List α) :
    (TxPc.ofBurst pkts).uncounted = pkts := by
  cases pkts <;> rfl

lemma TxPc.ofBurst_ne_start (pkts : List α) : TxPc.ofBurst pkts ≠ .start := by
  cases pkts <;> simp [TxPc.ofBurst]

end ofBurst

/-- **The running invariant.** -/
structure Inv (s : State α) : Prop where
  order : s.received = s.txTaken ++ s.ringParseToTx.items ++ s.parser.held
    ++ s.ringRxToParse.items ++ s.rx.held
  taken : s.txTaken.Perm (s.nic ++ s.txFreed ++ s.tx.held)
  refused : s.refused = []
  parserFreed : s.parserFreed = []
  not_freeing : s.parser.freeing = false
  rxCount : s.rxCount + s.rx.uncounted.length = s.received.length
  parserCount : s.parserCount + s.parser.uncounted.length
    = (s.txTaken ++ s.ringParseToTx.items ++ s.parser.held).length
  txCount : s.txCount + s.tx.uncounted.length = s.txTaken.length
  bound : s.received.length ≤ s.rx.bound
  rxStart : s.rx = .start → s.rxCount = 0
  parserStart : s.parser = .start → s.parserCount = 0
  txStart : s.tx = .start → s.txCount = 0

lemma inv_init : Inv (State.init : State α) where
  order := rfl
  taken := List.Perm.nil
  refused := rfl
  parserFreed := rfl
  not_freeing := rfl
  rxCount := rfl
  parserCount := rfl
  txCount := rfl
  bound := Nat.zero_le _
  rxStart := fun _ => rfl
  parserStart := fun _ => rfl
  txStart := fun _ => rfl

/-- At most 41 packets are ever received. -/
lemma Inv.received_le {s : State α} (h : Inv s) : s.received.length ≤ 41 := by
  have hb : s.rx.bound ≤ 41 := by cases s.rx <;> simp [RxPc.bound, rxLimit, burstSize]
  exact h.bound.trans hb

/-- Where the received packets are, in numbers. -/
lemma Inv.length_eq {s : State α} (h : Inv s) :
    s.received.length = s.txTaken.length + s.ringParseToTx.items.length + s.parser.held.length
      + s.ringRxToParse.items.length + s.rx.held.length := by
  rw [h.order]
  simp only [List.length_append]

/-! ### One step of each thread -/

/-- `rx_loop` keeps the invariant: its enqueues find room in the first ring. -/
lemma rxLoop_inv (b : Burst α) {s : State α} (h : Inv s) : Inv (rxLoop b s) := by
  have horder := h.order
  have hcount := h.rxCount
  have hbound := h.bound
  have hlen := h.length_eq
  have hle := h.received_le
  rw [rxLoop]
  cases hpc : s.rx with
  | start =>
      rw [hpc] at horder hcount hbound
      have hzero := h.rxStart hpc
      exact { h with
        order := horder, bound := hbound, rxStart := fun _ => rfl
        rxCount := by simpa [RxPc.uncounted, hzero] using hcount }
  | head =>
      rw [hpc] at horder hcount hbound
      dsimp only
      split
      · exact { h with
          order := horder, rxCount := hcount, rxStart := by simp
          bound := by simp only [RxPc.bound] at hbound ⊢; omega }
      · exact { h with order := horder, rxCount := hcount, bound := hbound, rxStart := by simp }
  | burst =>
      rw [hpc] at horder hcount hbound
      have hburst := b.2
      refine { h with
        order := ?_, rxCount := ?_, bound := ?_
        rxStart := fun hs => absurd hs (RxPc.ofBurst_ne_start b.1) }
      · simp only [RxPc.held_ofBurst]
        simp only [horder, RxPc.held, List.append_nil]
      · simp only [RxPc.uncounted_ofBurst, List.length_append]
        simp only [RxPc.uncounted, List.length_nil] at hcount
        omega
      · simp only [RxPc.bound_ofBurst, List.length_append]
        simp only [RxPc.bound] at hbound
        omega
  | count pkts =>
      rw [hpc] at horder hcount hbound
      refine { h with order := horder, rxCount := ?_, bound := hbound, rxStart := by simp }
      simp only [RxPc.uncounted, List.length_nil] at hcount ⊢
      omega
  | enqueue rest =>
      rw [hpc] at horder hcount hbound hlen
      cases rest with
      | nil =>
          exact { h with
            order := horder, rxCount := hcount, bound := hbound, rxStart := by simp }
      | cons p rest =>
          have hroom : s.ringRxToParse.items.length < ringSize - 1 := by
            simp only [ringSize]
            omega
          dsimp only
          split
          · rename_i ring hring
            obtain ⟨-, hitems⟩ := BoundedFifo.enqueue_eq_some.mp hring
            refine { h with order := ?_, rxCount := hcount, bound := hbound, rxStart := by simp }
            simp only [horder, hitems, RxPc.held, List.append_assoc, List.singleton_append]
          · rename_i hring
            have hfull := BoundedFifo.enqueue_eq_none.mp hring
            omega
  | limit =>
      rw [hpc] at horder hcount hbound
      dsimp only
      split
      · exact { h with
          order := horder, rxCount := hcount, bound := hbound, rxStart := by simp }
      · refine { h with order := horder, rxCount := hcount, bound := ?_, rxStart := by simp }
        simp only [RxPc.uncounted, List.length_nil, RxPc.bound] at hcount ⊢
        omega
  | quit =>
      rw [hpc] at horder hcount hbound
      exact { h with order := horder, rxCount := hcount, bound := hbound, rxStart := by simp }
  | done => exact h

/-- `parser_loop` keeps the invariant: its bursts fit into the second ring. -/
lemma parserLoop_inv (v : Variant) {s : State α} (h : Inv s) : Inv (parserLoop v s) := by
  have horder := h.order
  have hcount := h.parserCount
  have hlen := h.length_eq
  have hle := h.received_le
  rw [parserLoop]
  cases hpc : s.parser with
  | start =>
      rw [hpc] at horder hcount
      have hzero := h.parserStart hpc
      refine { h with
        order := horder, not_freeing := rfl, parserCount := ?_, parserStart := fun _ => rfl }
      simpa [ParserPc.uncounted, ParserPc.held, hzero] using hcount
  | head =>
      rw [hpc] at horder hcount
      dsimp only
      split <;> exact { h with
        order := horder, not_freeing := rfl, parserCount := hcount, parserStart := by simp }
  | dequeue =>
      rw [hpc] at horder hcount
      cases hd : s.ringRxToParse.dequeueBurst burstSize with
      | mk pkts ring =>
          have hsplit := BoundedFifo.items_of_dequeueBurst hd
          refine { h with
            order := ?_, not_freeing := ParserPc.freeing_ofBurst v pkts, parserCount := ?_
            parserStart := fun hs => absurd hs (ParserPc.ofBurst_ne_start v pkts) }
          · simp only [ParserPc.held_ofBurst]
            simp only [horder, hsplit, ParserPc.held, List.append_assoc, List.nil_append]
          · simp only [ParserPc.held_ofBurst, ParserPc.uncounted_ofBurst, List.length_append]
            simp only [ParserPc.uncounted, ParserPc.held, List.length_append,
              List.length_nil] at hcount
            omega
  | parse i pkts =>
      rw [hpc] at horder hcount
      dsimp only
      split <;> exact { h with
        order := horder, not_freeing := rfl, parserCount := hcount, parserStart := by simp }
  | count pkts =>
      rw [hpc] at horder hcount
      refine { h with
        order := horder, not_freeing := rfl, parserCount := ?_, parserStart := by simp }
      simp only [ParserPc.uncounted, ParserPc.held, List.length_nil] at hcount ⊢
      omega
  | enqueue pkts =>
      rw [hpc] at horder hcount hlen
      have hfits : s.ringParseToTx.items.length + pkts.length ≤ ringSize - 1 := by
        simp only [ParserPc.held] at hlen
        simp only [ringSize]
        omega
      have hm : s.ringParseToTx.accepts pkts.length = pkts.length :=
        BoundedFifo.accepts_of_fits hfits
      have hitems := BoundedFifo.enqueueBurst_of_fits hfits
      dsimp only
      rw [hm, List.drop_length, List.append_nil, if_neg (lt_irrefl _)]
      refine { h with
        order := ?_, not_freeing := rfl, parserCount := ?_, parserStart := by simp }
      · simp only [horder, hitems, ParserPc.held, List.append_assoc, List.nil_append]
      · simp only [hitems, ParserPc.uncounted, ParserPc.held, List.length_append,
          List.length_nil] at hcount ⊢
        omega
  | free rest =>
      have hnot := h.not_freeing
      rw [hpc] at hnot
      cases hnot
  | done => exact h

/-- `tx_loop` keeps the invariant, however many packets the device accepts. -/
lemma txLoop_inv (accepted : ℕ) {s : State α} (h : Inv s) : Inv (txLoop accepted s) := by
  have horder := h.order
  have htaken := h.taken
  have hcount := h.txCount
  have hparser := h.parserCount
  rw [txLoop]
  cases hpc : s.tx with
  | start =>
      rw [hpc] at htaken hcount
      have hzero := h.txStart hpc
      refine { h with taken := htaken, txCount := ?_, txStart := fun _ => rfl }
      simpa [TxPc.uncounted, hzero] using hcount
  | head =>
      rw [hpc] at htaken hcount
      dsimp only
      split <;> exact { h with taken := htaken, txCount := hcount, txStart := by simp }
  | dequeue =>
      rw [hpc] at htaken hcount
      cases hd : s.ringParseToTx.dequeueBurst burstSize with
      | mk pkts ring =>
          have hsplit := BoundedFifo.items_of_dequeueBurst hd
          refine { h with
            order := ?_, taken := ?_, parserCount := ?_, txCount := ?_
            txStart := fun hs => absurd hs (TxPc.ofBurst_ne_start pkts) }
          · simp only [horder, hsplit, List.append_assoc]
          · simp only [TxPc.held_ofBurst]
            simp only [TxPc.held, List.append_nil] at htaken
            exact htaken.append_right pkts
          · simp only [hsplit, List.length_append] at hparser ⊢
            omega
          · simp only [TxPc.uncounted_ofBurst, List.length_append]
            simp only [TxPc.uncounted, List.length_nil] at hcount
            omega
  | count pkts =>
      rw [hpc] at htaken hcount
      refine { h with taken := htaken, txCount := ?_, txStart := by simp }
      simp only [TxPc.uncounted, List.length_nil] at hcount ⊢
      omega
  | send pkts =>
      rw [hpc] at htaken hcount
      refine { h with taken := ?_, txCount := hcount, txStart := by simp }
      simp only [TxPc.held] at htaken ⊢
      refine htaken.trans ?_
      -- the accepted prefix moves past the packets freed before
      rw [List.append_assoc, List.append_assoc, List.append_assoc]
      refine List.Perm.append_left s.nic ?_
      conv_lhs => rw [← List.take_append_drop (min accepted pkts.length) pkts]
      rw [← List.append_assoc, ← List.append_assoc]
      exact List.perm_append_comm.append_right _
  | free rest =>
      rw [hpc] at htaken hcount
      cases rest with
      | nil => exact { h with taken := htaken, txCount := hcount, txStart := by simp }
      | cons p rest =>
          refine { h with taken := ?_, txCount := hcount, txStart := by simp }
          simpa only [TxPc.held, List.append_assoc, List.singleton_append] using htaken
  | done => exact h

/-- Every step keeps the invariant. -/
lemma step_inv (v : Variant) (t : Turn α) (s : State α) (h : Inv s) : Inv (step v t s) := by
  cases t with
  | rx b => exact rxLoop_inv b h
  | parser => exact parserLoop_inv v h
  | tx accepted => exact txLoop_inv accepted h

/-- The invariant holds in every reachable state. -/
theorem inv_reached (v : Variant) (turns : List (Turn α)) : Inv (reached v turns) :=
  Machine.run_invariant (step v) (step_inv v) inv_init turns

/-! ### The invariant in the words of the packets -/

/-- The packets given to `rte_eth_tx_burst`: those the device accepted and those
`tx_loop` then freed. -/
def State.handedToTx (s : State α) : List α := s.nic ++ s.txFreed

/-- The places a packet can be in: with `rx_loop`, in the first ring, with
`parser_loop`, in the second ring, with `tx_loop`, or handed to TX. -/
def State.places (s : State α) : List α :=
  s.rx.held ++ s.ringRxToParse.items ++ s.parser.held ++ s.ringParseToTx.items ++ s.tx.held
    ++ s.handedToTx

/-- Every received packet is in exactly one place. -/
lemma Inv.received_perm_places {s : State α} (h : Inv s) : s.received.Perm s.places := by
  classical
  have htaken := h.taken
  rw [List.perm_iff_count] at htaken ⊢
  intro p
  have hp := htaken p
  simp only [h.order, State.places, State.handedToTx, List.count_append] at hp ⊢
  omega

/-- The counters are ordered as the stages are, and bounded. -/
lemma Inv.counts_le {s : State α} (h : Inv s) :
    s.txCount ≤ s.parserCount ∧ s.parserCount ≤ s.rxCount ∧ s.rxCount ≤ 41 := by
  have hrx := h.rxCount
  have hparser := h.parserCount
  have htx := h.txCount
  have hlen := h.length_eq
  have hle := h.received_le
  have hrxHeld : s.rx.uncounted.length ≤ s.rx.held.length := by
    cases s.rx <;> simp [RxPc.uncounted, RxPc.held]
  have hparserHeld : s.parser.uncounted.length ≤ s.parser.held.length := by
    cases s.parser <;> simp [ParserPc.uncounted, ParserPc.held]
  simp only [List.length_append] at hparser
  omega

/-- **Safety of the pipeline in every reachable state**: the counters are
ordered and at most 41, no enqueue was refused, every received packet is in
exactly one place, and `tx_loop` dequeues the packets in the order in which they
were received. -/
theorem pipeline_safe (v : Variant) (turns : List (Turn α)) :
    ((reached v turns).txCount ≤ (reached v turns).parserCount ∧
      (reached v turns).parserCount ≤ (reached v turns).rxCount ∧
      (reached v turns).rxCount ≤ 41) ∧
    (reached v turns).refused = [] ∧
    (reached v turns).received.Perm (reached v turns).places ∧
    (reached v turns).txTaken <+: (reached v turns).received := by
  have h := inv_reached v turns
  refine ⟨h.counts_le, h.refused, h.received_perm_places, ?_⟩
  rw [h.order]
  simp only [List.append_assoc]
  exact List.prefix_append _ _

end DpdkStarter.ThreadedPipeline
