import DpdkStarter.Library.ReorderBuffer
import DpdkStarter.Library.Run

/-!
`reordering/rx_burst/main2.c` (`rx_reorder_loop`) and `reordering/rx_burst/main.c`: the
receive loop in front of a reorder buffer.

Both loops number the packets of a burst in the order of arrival, insert them, and drain
as many packets as a burst can have. They differ in the sizes. The reorder buffer is
that of DPDK, a parameter with the laws of `ReorderBuffer`; the field that carries the
number is the one the library looks at. The counter is a `uint32_t` and starts again
at 0 after `2 ^ 32` packets.

* `Config`, `rxReorderLoop`, `rxBurstMain`: the sizes of the two programs.
* `iterate`: one iteration of the loop.
* `AtLoopHead`: the invariant, `AtLoopHead.iterate` its preservation.
* `rx_reorder_loop_drains`: what a run of any length does with its packets.
-/

namespace DpdkStarter.Reordering

open Machine ReorderBuffer

/-- `BURST_SIZE` and `WINDOW_SIZE`. -/
structure Config where
  burstSize : ℕ
  windowSize : ℕ
  burst_le : burstSize ≤ windowSize
  burst_lt : burstSize < 2 ^ 16

/-- The sizes of `rx_reorder_loop`. -/
def rxReorderLoop : Config := ⟨32, 128, by decide, by decide⟩

/-- The sizes of the other program. -/
def rxBurstMain : Config := ⟨8, 8, by decide, by decide⟩

/-- The burst of one iteration. -/
structure Input (cfg : Config) (P : Type*) where
  burst : List P
  burst_le : burst.length ≤ cfg.burstSize

/-- The reorder buffer and the counter; the packets whose insertion failed, those that
were drained, with the numbers printed of them, and those that were freed. -/
structure State (R P : Type*) where
  rbuf : R
  seqCounter : UInt32
  rejected : List P
  drained : List (Numbered P)
  freed : List P

variable {R P : Type*} {cfg : Config}

/-- The state in which the loop is entered. -/
def State.init (b : ReorderBuffer R P) : State R P := ⟨b.create, 0, [], [], []⟩

/-- The body of the loop over the burst. -/
def insertNext (b : ReorderBuffer R P) (m : P) (s : State R P) : State R P :=
  let done := b.insert s.rbuf ⟨s.seqCounter, m⟩
  let s := { s with rbuf := done.2, seqCounter := s.seqCounter + 1 }
  if done.1 then s else { s with rejected := s.rejected ++ [m], freed := s.freed ++ [m] }

/-- The drain and the loop over what it hands out. -/
def drainOrdered (b : ReorderBuffer R P) (n : ℕ) (s : State R P) : State R P :=
  let done := b.drain s.rbuf n
  { s with
    rbuf := done.2
    drained := s.drained ++ done.1
    freed := s.freed ++ done.1.map Numbered.item }

/-- One iteration. -/
def iterate (b : ReorderBuffer R P) (inp : Input cfg P) (s : State R P) : State R P :=
  if inp.burst.length = 0 then s
  else drainOrdered b cfg.burstSize (run (insertNext b) inp.burst s)

/-- The state after a sequence of iterations. -/
abbrev reached (b : ReorderBuffer R P) (inputs : List (Input cfg P)) : State R P :=
  run (iterate b) inputs (State.init b)

/-- The packets received in a run, in order. -/
def received (inputs : List (Input cfg P)) : List P := inputs.flatMap Input.burst

/-! ### One iteration -/

/-- Packets numbered one after the other. -/
def stamp (seq : UInt32) : List P → List (Numbered P)
  | [] => []
  | m :: ms => ⟨seq, m⟩ :: stamp (seq + 1) ms

@[simp] lemma length_stamp (seq : UInt32) (ms : List P) : (stamp seq ms).length = ms.length := by
  induction ms generalizing seq with
  | nil => rfl
  | cons m ms ih => rw [stamp, List.length_cons, List.length_cons, ih]

@[simp] lemma map_item_stamp (seq : UInt32) (ms : List P) :
    (stamp seq ms).map Numbered.item = ms := by
  induction ms generalizing seq with
  | nil => rfl
  | cons m ms ih => rw [stamp, List.map_cons, ih]

lemma stamp_append (seq : UInt32) (ms ms' : List P) :
    stamp seq (ms ++ ms') = stamp seq ms ++ stamp (seq + UInt32.ofNat ms.length) ms' := by
  induction ms generalizing seq with
  | nil => exact congrArg (stamp · ms') (UInt32.add_zero seq).symm
  | cons m ms ih =>
      rw [List.cons_append, stamp, stamp, List.cons_append, ih, List.length_cons,
        add_ofNat_succ]

/-- What the loop over a burst leaves: the packets in the buffer behind those that were
there, numbered on, and nothing rejected. -/
structure Inserted (b : ReorderBuffer R P) (first : UInt32) (held : List (Numbered P))
    (s s' : State R P) : Prop where
  holds : b.Holds s'.rbuf first held
  seqCounter_eq : s'.seqCounter = first + UInt32.ofNat held.length
  rejected_eq : s'.rejected = s.rejected
  drained_eq : s'.drained = s.drained
  freed_eq : s'.freed = s.freed

section Iteration

variable {b : ReorderBuffer R P} (law : b.Lawful cfg.windowSize)

include law

/-- One more packet of a burst. -/
lemma Inserted.insertNext {first : UInt32} {held : List (Numbered P)} {s s' : State R P}
    (h : Inserted b first held s s') (hlen : held.length < cfg.burstSize) (m : P) :
    Inserted b first (held ++ [⟨s'.seqCounter, m⟩]) s (insertNext b m s') := by
  have hwindow := cfg.burst_le
  have hsmall := cfg.burst_lt
  obtain ⟨hok, hholds⟩ := h.holds.insert law (p := ⟨s'.seqCounter, m⟩) (by omega) (by omega)
    h.seqCounter_eq
  have hnext : Reordering.insertNext b m s' = { s' with
      rbuf := (b.insert s'.rbuf ⟨s'.seqCounter, m⟩).2
      seqCounter := s'.seqCounter + 1 } := if_pos hok
  rw [hnext]
  refine ⟨hholds, ?_, h.rejected_eq, h.drained_eq, h.freed_eq⟩
  rw [List.length_append, List.length_singleton, UInt32.ofNat_add, ← UInt32.add_assoc,
    ← h.seqCounter_eq]
  rfl

/-- The rest of a burst. -/
lemma Inserted.run {first : UInt32} {held : List (Numbered P)} {s s' : State R P}
    (h : Inserted b first held s s') {ms : List P}
    (hlen : held.length + ms.length ≤ cfg.burstSize) :
    Inserted b first (held ++ stamp s'.seqCounter ms) s
      (Machine.run (Reordering.insertNext b) ms s') := by
  induction ms generalizing held s' with
  | nil => rwa [stamp, List.append_nil]
  | cons m ms ih =>
      rw [List.length_cons] at hlen
      have hnext := h.insertNext law (by omega) m
      have hcounter : (Reordering.insertNext b m s').seqCounter = s'.seqCounter + 1 := by
        rw [Reordering.insertNext]
        split <;> rfl
      have hrest := ih hnext (by rw [List.length_append, List.length_singleton]; omega)
      rw [hcounter, List.append_assoc] at hrest
      exact hrest

/-- **The loop over a burst** that finds the buffer empty. -/
lemma inserted_burst {s : State R P} (hempty : b.Empty s.rbuf s.seqCounter) {ms : List P}
    (hne : ms ≠ []) (hlen : ms.length ≤ cfg.burstSize) :
    Inserted b s.seqCounter (stamp s.seqCounter ms) s (run (insertNext b) ms s) := by
  have hwindow := cfg.burst_le
  cases ms with
  | nil => exact absurd rfl hne
  | cons m ms =>
      rw [List.length_cons] at hlen
      obtain ⟨hok, hholds⟩ := hempty.insert law (p := ⟨s.seqCounter, m⟩) (by omega)
      have hnext : insertNext b m s = { s with
          rbuf := (b.insert s.rbuf ⟨s.seqCounter, m⟩).2
          seqCounter := s.seqCounter + 1 } := if_pos hok
      have hfirst : Inserted b s.seqCounter [⟨s.seqCounter, m⟩] s (insertNext b m s) := by
        rw [hnext]
        exact ⟨hholds, rfl, rfl, rfl, rfl⟩
      have hroom : [Numbered.mk s.seqCounter m].length + ms.length ≤ cfg.burstSize := by
        rw [List.length_singleton]
        omega
      have hrest := hfirst.run law hroom
      rw [show (insertNext b m s).seqCounter = s.seqCounter + 1 by rw [hnext]] at hrest
      exact hrest

end Iteration

/-! ### The invariant -/

/-- **The invariant at the loop head**: the buffer is empty, and waits for the number
the next packet gets; nothing was rejected, and what was received has been drained and
freed, in order. -/
structure AtLoopHead (b : ReorderBuffer R P) (inputs : List (Input cfg P)) (s : State R P) :
    Prop where
  empty : b.Empty s.rbuf s.seqCounter
  seqCounter_eq : s.seqCounter = UInt32.ofNat (received inputs).length
  rejected_eq : s.rejected = []
  drained_eq : s.drained = stamp 0 (received inputs)
  freed_eq : s.freed = received inputs

lemma received_concat (inputs : List (Input cfg P)) (inp : Input cfg P) :
    received (inputs ++ [inp]) = received inputs ++ inp.burst := by
  simp [received]

/-- **One iteration** keeps the invariant. -/
lemma AtLoopHead.iterate {b : ReorderBuffer R P} (law : b.Lawful cfg.windowSize)
    {inputs : List (Input cfg P)} {s : State R P} (h : AtLoopHead b inputs s) (inp : Input cfg P) :
    AtLoopHead b (inputs ++ [inp]) (iterate b inp s) := by
  by_cases hnone : inp.burst = []
  · have hreceived : received (inputs ++ [inp]) = received inputs := by
      rw [received_concat, hnone, List.append_nil]
    rw [Reordering.iterate, if_pos (List.length_eq_zero_iff.mpr hnone)]
    exact ⟨h.empty, hreceived ▸ h.seqCounter_eq, h.rejected_eq, hreceived ▸ h.drained_eq,
      hreceived ▸ h.freed_eq⟩
  · have hsmall := cfg.burst_lt
    have hlen := inp.burst_le
    have hinserted := inserted_burst law h.empty hnone hlen
    have hfits : (stamp s.seqCounter inp.burst).length ≤ cfg.burstSize := by rwa [length_stamp]
    obtain ⟨hout, hempty⟩ := hinserted.holds.drain law hfits (by omega)
    rw [Reordering.iterate, if_neg (mt List.eq_nil_of_length_eq_zero hnone), drainOrdered, hout]
    refine ⟨?_, ?_, ?_, ?_, ?_⟩
    · rw [hinserted.seqCounter_eq]
      exact hempty
    · show (run (insertNext b) inp.burst s).seqCounter = _
      rw [hinserted.seqCounter_eq, h.seqCounter_eq, received_concat, List.length_append,
        UInt32.ofNat_add, length_stamp]
    · exact hinserted.rejected_eq.trans h.rejected_eq
    · show (run (insertNext b) inp.burst s).drained ++ stamp s.seqCounter inp.burst = _
      rw [hinserted.drained_eq, h.drained_eq, received_concat, stamp_append, h.seqCounter_eq,
        UInt32.zero_add]
    · show (run (insertNext b) inp.burst s).freed
        ++ (stamp s.seqCounter inp.burst).map Numbered.item = _
      rw [hinserted.freed_eq, h.freed_eq, received_concat, map_item_stamp]

/-- **Every loop head** of a run. -/
lemma atLoopHead_reached {b : ReorderBuffer R P} (law : b.Lawful cfg.windowSize)
    (inputs : List (Input cfg P)) : AtLoopHead b inputs (reached b inputs) := by
  induction inputs using List.reverseRecOn with
  | nil => exact ⟨law.empty_create 0, rfl, rfl, rfl, rfl⟩
  | append_singleton inputs inp ih =>
      rw [reached, run_concat]
      exact ih.iterate law inp

/-- **The receive loop drains what it receives.** For every sequence of bursts, of
however many packets in all, and whatever the sizes, as long as a burst fits the window:
at the loop head no insertion has failed, the packets drained are those received, in the
order of arrival and numbered from 0 on modulo `2 ^ 32`, each has been freed once, and the
reorder buffer is empty. -/
theorem rx_reorder_loop_drains {b : ReorderBuffer R P} (law : b.Lawful cfg.windowSize)
    (inputs : List (Input cfg P)) :
    (reached b inputs).rejected = [] ∧
      (reached b inputs).drained.map Numbered.item = received inputs ∧
      (reached b inputs).drained = stamp 0 (received inputs) ∧
      (reached b inputs).freed = received inputs ∧
      ∀ q, b.held (reached b inputs).rbuf q = none := by
  have h := atLoopHead_reached law inputs
  exact ⟨h.rejected_eq, by rw [h.drained_eq, map_item_stamp], h.drained_eq, h.freed_eq, h.empty.2⟩

/-- Two bursts with none between them, in both programs. -/
theorem rx_reorder_loop_drains_bursts :
    (reached (windowBuffer ℕ rxReorderLoop.windowSize)
        [(⟨[1, 2, 3], by decide⟩ : Input rxReorderLoop ℕ), ⟨[], by decide⟩,
          ⟨[4, 5], by decide⟩]).freed = [1, 2, 3, 4, 5] ∧
      (reached (windowBuffer ℕ rxBurstMain.windowSize)
        [(⟨[1, 2, 3], by decide⟩ : Input rxBurstMain ℕ), ⟨[], by decide⟩,
          ⟨[4, 5, 6, 7, 8, 9, 10, 11], by decide⟩]).freed = [1, 2, 3, 4, 5, 6, 7, 8, 9, 10, 11] :=
  ⟨(rx_reorder_loop_drains (windowBuffer_lawful ℕ rxReorderLoop.windowSize) _).2.2.2.1,
    (rx_reorder_loop_drains (windowBuffer_lawful ℕ rxBurstMain.windowSize) _).2.2.2.1⟩

end DpdkStarter.Reordering
