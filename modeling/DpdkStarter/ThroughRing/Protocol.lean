import DpdkStarter.Library.BoundedFifo
import DpdkStarter.Library.Heap
import DpdkStarter.Library.Run

/-!
`inter_process_comm/through_rte_ring`: ten integers from the primary to the secondary,
down to the accesses of the two processes to the shared heap.

A step is one allocation, one write, one read, one free or one ring operation of one
process; the ring holds addresses. An allocation is taken to succeed: its result is
dereferenced unchecked.

* `primary`, `secondary`: one step of each process.
* `Inv`: cell `k` is message `k`; the cells are freed in the order of their addresses,
  behind those the secondary has taken, and the ring holds the ones between these and
  those the primary has sent.
* `primary_inv`, `secondary_inv`, `inv_reached`.
* `delivered_in_order`: the messages arrive in order, each is read while it is live and
  freed once, and the primary never meets a full ring.
-/

namespace DpdkStarter.ThroughRing

/-- `RING_SIZE`. -/
def ringSize : ℕ := 1024

/-- A ring created with `RING_SIZE`, one slot of which stays unused; it holds addresses. -/
abbrev MsgRing := BoundedFifo ℕ (ringSize - 1)

/-- The messages the primary sends. -/
def messageCount : ℕ := 10

/-- Where the primary stands, in the order of `primary.c`; `a` is its pointer `msg`. -/
inductive PrimaryPc where
  | createRing
  | malloc (i : ℕ)
  | write (i a : ℕ)
  | enqueue (i a : ℕ)
  /-- at the `printf` of `i`, which does not look at the message -/
  | print (i : ℕ)
  | done
  deriving DecidableEq, Repr

/-- Where the secondary stands, in the order of `secondary.c`; `a` is its pointer. -/
inductive SecondaryPc where
  | lookup
  | dequeue
  | read (a : ℕ)
  | free (a : ℕ)
  deriving DecidableEq, Repr

/-- The shared memory, the two processes and what they have printed. -/
structure State where
  created : Bool
  heap : Heap ℤ
  ring : MsgRing
  primary : PrimaryPc
  secondary : SecondaryPc
  /-- the numbers the primary printed as sent, in order -/
  sent : List ℕ
  /-- the values the secondary printed as received, in order -/
  received : List ℤ

/-- The state before either process runs. -/
def State.init : State where
  created := false
  heap := .empty
  ring := .empty
  primary := .createRing
  secondary := .lookup
  sent := []
  received := []

/-- The value at an address. -/
def State.val (s : State) (a : ℕ) : ℤ := (s.heap.cells[a]?).getD 0

/-- One step of the primary; an allocation finds `junk` in the cell. -/
def primary (junk : ℤ) (s : State) : State :=
  match s.primary with
  | .createRing => { s with created := true, primary := .malloc 0 }
  | .malloc i =>
      { s with heap := (s.heap.alloc junk).2, primary := .write i (s.heap.alloc junk).1 }
  | .write i a => { s with heap := s.heap.write a fun _ => i, primary := .enqueue i a }
  | .enqueue i a =>
      match s.ring.enqueue a with
      | some ring => { s with ring := ring, primary := .print i }
      | none => s
  | .print i =>
      { s with
        sent := s.sent ++ [i]
        primary := if i + 1 < messageCount then .malloc (i + 1) else .done }
  | .done => s

/-- One step of the secondary. -/
def secondary (s : State) : State :=
  match s.secondary with
  | .lookup => if s.created then { s with secondary := .dequeue } else s
  | .dequeue =>
      match s.ring.dequeue with
      | some (a, ring) => { s with ring := ring, secondary := .read a }
      | none => s
  | .read a =>
      { s with heap := s.heap.read a, received := s.received ++ [s.val a], secondary := .free a }
  | .free a => { s with heap := s.heap.free a, secondary := .dequeue }

/-- Which process moves, and what an allocation finds in the cell. -/
inductive Turn where
  | primary (junk : ℤ)
  | secondary

/-- One step of the system. -/
def step : Turn → State → State
  | .primary junk, s => ThroughRing.primary junk s
  | .secondary, s => ThroughRing.secondary s

/-- The state after a sequence of turns. -/
abbrev reached (turns : List Turn) : State := Machine.run step turns State.init

/-! ### How far the processes are -/

/-- The messages allocated. -/
def PrimaryPc.allocated : PrimaryPc → ℕ
  | .createRing => 0
  | .malloc i => i
  | .write i _ | .enqueue i _ | .print i => i + 1
  | .done => messageCount

/-- The messages written. -/
def PrimaryPc.written : PrimaryPc → ℕ
  | .createRing => 0
  | .malloc i | .write i _ => i
  | .enqueue i _ | .print i => i + 1
  | .done => messageCount

/-- The messages put into the ring. -/
def PrimaryPc.enqueued : PrimaryPc → ℕ
  | .createRing => 0
  | .malloc i | .write i _ | .enqueue i _ => i
  | .print i => i + 1
  | .done => messageCount

/-- The messages printed as sent. -/
def PrimaryPc.printed : PrimaryPc → ℕ
  | .createRing => 0
  | .malloc i | .write i _ | .enqueue i _ | .print i => i
  | .done => messageCount

/-- The message in the hands of the primary. -/
def PrimaryPc.hands : PrimaryPc → List ℕ
  | .write _ a | .enqueue _ a => [a]
  | _ => []

/-- The message in the hands of the secondary. -/
def SecondaryPc.hands : SecondaryPc → List ℕ
  | .read a | .free a => [a]
  | _ => []

/-- The messages read and not yet freed. -/
def SecondaryPc.unfreed : SecondaryPc → ℕ
  | .free _ => 1
  | _ => 0

/-- The number of the message at hand is in range, and its address is its number. -/
def PrimaryPc.valid : PrimaryPc → Prop
  | .malloc i | .print i => i < messageCount
  | .write i a | .enqueue i a => i < messageCount ∧ a = i
  | _ => True

/-- How many messages were freed. -/
def State.freed (s : State) : ℕ := s.heap.freed.length

/-- How many messages were taken from the ring. -/
def State.taken (s : State) : ℕ := s.freed + s.secondary.hands.length

/-- **The running invariant.** -/
structure Inv (s : State) : Prop where
  valid : s.primary.valid
  cells : s.heap.cells.length = s.primary.allocated
  freed : s.heap.freed = List.range s.freed
  reads : s.heap.deadReads = []
  values : ∀ a < s.primary.written, s.heap.cells[a]? = some (a : ℤ)
  taken_le : s.taken ≤ s.primary.enqueued
  ring : s.ring.items = List.range' s.taken (s.primary.enqueued - s.taken)
  hands : ∀ a ∈ s.secondary.hands, a = s.freed
  sent : s.sent = List.range s.primary.printed
  received : s.received = (List.range (s.freed + s.secondary.unfreed)).map fun k : ℕ => (k : ℤ)
  created : s.primary ≠ .createRing → s.created = true

lemma inv_init : Inv State.init where
  valid := trivial
  cells := rfl
  freed := rfl
  reads := rfl
  values := by simp [State.init, PrimaryPc.written]
  taken_le := Nat.le_refl _
  ring := rfl
  hands := by simp [State.init, SecondaryPc.hands]
  sent := rfl
  received := rfl
  created := fun h => absurd rfl h

/-- No more than ten messages are ever sent. -/
lemma PrimaryPc.enqueued_le {pc : PrimaryPc} (h : pc.valid) :
    pc.enqueued ≤ pc.written ∧ pc.written ≤ pc.allocated ∧ pc.allocated ≤ messageCount := by
  cases pc <;> simp only [valid] at h <;> simp only [enqueued, written, allocated] <;> omega

/-- The ring always has room. -/
lemma Inv.ring_lt {s : State} (h : Inv s) : s.ring.items.length < ringSize - 1 := by
  have hle := PrimaryPc.enqueued_le h.valid
  rw [h.ring, List.length_range']
  simp only [ringSize, messageCount] at hle ⊢
  omega

/-- A message that was written and not freed is live. -/
lemma Inv.live {s : State} (h : Inv s) {a : ℕ} (hfreed : s.freed ≤ a)
    (hwritten : a < s.primary.written) : s.heap.live a := by
  have hle := PrimaryPc.enqueued_le h.valid
  refine ⟨by rw [h.cells]; omega, ?_⟩
  rw [h.freed, List.mem_range]
  omega

/-! ### One step of each process -/

/-- **A step of the primary** keeps the invariant. -/
lemma primary_inv (junk : ℤ) {s : State} (h : Inv s) : Inv (ThroughRing.primary junk s) := by
  have hvalid := h.valid
  have hcells := h.cells
  have hvalues := h.values
  have htaken := h.taken_le
  have hring := h.ring
  have hsent := h.sent
  have hcreated := h.created
  rw [ThroughRing.primary]
  cases hpc : s.primary with
  | createRing =>
      rw [hpc] at hcells hvalues htaken hring hsent
      exact { h with
        valid := by simp [PrimaryPc.valid, messageCount], cells := hcells, values := hvalues
        taken_le := htaken, ring := hring, sent := hsent, created := fun _ => rfl }
  | malloc i =>
      rw [hpc] at hvalid hcells hvalues htaken hring hsent hcreated
      refine { h with
        valid := ⟨hvalid, hcells⟩, cells := ?_, values := ?_, taken_le := htaken, ring := hring
        sent := hsent, created := fun _ => hcreated (by simp) }
      · simp only [Heap.alloc, List.length_append, List.length_singleton, hcells]
        rfl
      · intro a ha
        simp only [PrimaryPc.written, PrimaryPc.allocated] at ha hcells
        rw [Heap.alloc, List.getElem?_append_left (by omega)]
        exact hvalues a ha
  | write i a =>
      rw [hpc] at hvalid hcells hvalues htaken hring hsent hcreated
      obtain ⟨hi, rfl⟩ := hvalid
      simp only [PrimaryPc.written, PrimaryPc.allocated] at hvalues hcells
      refine { h with
        valid := ⟨hi, rfl⟩, cells := ?_, values := ?_, taken_le := htaken, ring := hring
        sent := hsent, created := fun _ => hcreated (by simp) }
      · simp only [Heap.write, List.length_modify]
        exact hcells
      · intro b hb
        simp only [PrimaryPc.written] at hb
        simp only [Heap.write, List.getElem?_modify]
        by_cases hba : a = b
        · subst hba
          simp only [if_true, List.getElem?_eq_getElem (show a < s.heap.cells.length by omega)]
          rfl
        · simp only [if_neg hba, hvalues b (by omega)]
          rfl
  | enqueue i a =>
      have hroom := h.ring_lt
      rw [hpc] at hvalid hcells hvalues htaken hring hsent hcreated
      obtain ⟨hi, rfl⟩ := hvalid
      obtain ⟨ring', henq, hitems⟩ := BoundedFifo.exists_enqueue hroom a
      simp only [PrimaryPc.enqueued] at htaken hring
      have htaken' : s.taken ≤ a + 1 := by omega
      simp only [henq]
      refine { h with
        valid := hi, cells := hcells, values := hvalues, taken_le := htaken', ring := ?_
        sent := hsent, created := fun _ => hcreated (by simp) }
      have hcount : a + 1 - s.taken = (a - s.taken) + 1 := by omega
      have hlast : s.taken + (a - s.taken) = a := by omega
      calc ring'.items = List.range' s.taken (a - s.taken) ++ [a] := by rw [hitems, hring]
        _ = List.range' s.taken (a - s.taken + 1) := by rw [List.range'_1_concat, hlast]
        _ = List.range' s.taken (a + 1 - s.taken) := by rw [hcount]
  | print i =>
      rw [hpc] at hvalid hcells hvalues htaken hring hsent hcreated
      have hprinted : s.sent ++ [i] = List.range (i + 1) := by
        rw [hsent]
        exact List.range_succ.symm
      dsimp only
      split
      · rename_i hmore
        exact { h with
          valid := hmore, cells := hcells, values := hvalues, taken_le := htaken, ring := hring
          sent := hprinted, created := fun _ => hcreated (by simp) }
      · rename_i hlast
        have hi : i + 1 = messageCount := by
          simp only [PrimaryPc.valid] at hvalid
          omega
        exact { h with
          valid := trivial, cells := by rw [hcells]; exact hi
          values := by rw [← show i + 1 = PrimaryPc.written .done from hi]; exact hvalues
          taken_le := by rw [← show i + 1 = PrimaryPc.enqueued .done from hi]; exact htaken
          ring := by rw [← show i + 1 = PrimaryPc.enqueued .done from hi]; exact hring
          sent := by rw [← show i + 1 = PrimaryPc.printed .done from hi]; exact hprinted
          created := fun _ => hcreated (by simp) }
  | done => exact h

/-- **A step of the secondary** keeps the invariant. -/
lemma secondary_inv {s : State} (h : Inv s) : Inv (ThroughRing.secondary s) := by
  have htaken := h.taken_le
  have hring := h.ring
  have hhands := h.hands
  have hreceived := h.received
  rw [ThroughRing.secondary]
  cases hpc : s.secondary with
  | lookup =>
      simp only [State.taken, hpc] at htaken hring
      rw [hpc] at hreceived
      dsimp only
      split
      · exact { h with
          taken_le := htaken, ring := hring, hands := by simp [SecondaryPc.hands]
          received := hreceived }
      · exact h
  | dequeue =>
      simp only [State.taken, hpc, SecondaryPc.hands, List.length_nil, Nat.add_zero]
        at htaken hring
      rw [hpc] at hreceived
      dsimp only
      split
      · rename_i a ring hdeq
        have hitems := BoundedFifo.dequeue_eq_some.mp hdeq
        rw [hitems] at hring
        -- the ring was not empty, so its head is the next message
        have hlt : s.freed < s.primary.enqueued := by
          have hlen := congrArg List.length hring
          rw [List.length_cons, List.length_range'] at hlen
          omega
        obtain ⟨n, hn⟩ : ∃ n, s.primary.enqueued - s.freed = n + 1 :=
          ⟨s.primary.enqueued - s.freed - 1, by omega⟩
        rw [hn, List.range'_succ] at hring
        obtain ⟨rfl, htail⟩ := List.cons_eq_cons.mp hring
        exact { h with
          taken_le := hlt
          ring := by
            rw [htail]
            congr 1
            simp only [State.taken, State.freed, SecondaryPc.hands, List.length_singleton] at hn ⊢
            omega
          hands := by simp [SecondaryPc.hands, State.freed]
          received := hreceived }
      · exact h
  | read a =>
      have ha : a = s.freed := hhands a (by rw [hpc]; exact List.mem_singleton_self a)
      subst ha
      simp only [State.taken, hpc] at htaken hring
      have hlt : s.freed < s.primary.written := by
        have hle := PrimaryPc.enqueued_le h.valid
        simp only [SecondaryPc.hands, List.length_singleton] at htaken
        omega
      have hread : s.heap.read s.freed = s.heap :=
        Heap.read_of_live (h.live (Nat.le_refl _) hlt)
      have hval : s.val s.freed = (s.freed : ℤ) := by
        rw [State.val, h.values _ hlt]
        rfl
      simp only [hread, hval]
      exact { h with
        taken_le := htaken, ring := hring
        hands := by simp [SecondaryPc.hands, State.freed]
        received := by
          rw [hreceived, hpc]
          simp [SecondaryPc.unfreed, List.range_succ, State.freed] }
  | free a =>
      have ha : a = s.freed := hhands a (by rw [hpc]; exact List.mem_singleton_self a)
      subst ha
      simp only [State.taken, hpc, SecondaryPc.hands, List.length_singleton] at htaken hring
      have hcount : (s.heap.free s.freed).freed.length = s.freed + 1 := by
        simp [Heap.free, State.freed]
      refine { h with
        cells := h.cells, reads := h.reads, values := h.values, freed := ?_, taken_le := ?_
        ring := ?_, hands := by simp [SecondaryPc.hands], received := ?_ }
      · change (s.heap.free s.freed).freed = List.range (s.heap.free s.freed).freed.length
        rw [hcount, List.range_succ, ← h.freed]
        rfl
      · simpa [State.taken, State.freed, Heap.free, SecondaryPc.hands] using htaken
      · simpa [State.taken, State.freed, Heap.free, SecondaryPc.hands] using hring
      · rw [hreceived, hpc]
        simp [SecondaryPc.unfreed, State.freed, Heap.free]

/-- Every step keeps the invariant. -/
lemma step_inv (t : Turn) (s : State) (h : Inv s) : Inv (step t s) := by
  cases t with
  | primary junk => exact primary_inv junk h
  | secondary => exact secondary_inv h

/-- The invariant holds in every reachable state. -/
theorem inv_reached (turns : List Turn) : Inv (reached turns) :=
  Machine.run_invariant step step_inv inv_init turns

/-! ### The messages -/

/-- The messages in the hands of a process or in the ring. -/
def State.places (s : State) : List ℕ := s.secondary.hands ++ s.ring.items ++ s.primary.hands

/-- Two adjacent stretches of addresses make one. -/
lemma range'_glue {a b c : ℕ} (hab : a ≤ b) (hbc : b ≤ c) :
    List.range' a (b - a) ++ List.range' b (c - b) = List.range' a (c - a) := by
  obtain ⟨m, rfl⟩ := Nat.exists_eq_add_of_le hab
  obtain ⟨n, rfl⟩ := Nat.exists_eq_add_of_le hbc
  have hsum : a + m + n - a = m + n := by omega
  rw [Nat.add_sub_cancel_left, Nat.add_sub_cancel_left, hsum, List.range'_append_1]

/-- What is allocated and not freed is in one place, in the order of the addresses. -/
lemma Inv.places_eq {s : State} (h : Inv s) :
    s.places = List.range' s.freed (s.primary.allocated - s.freed) := by
  have hvalid := h.valid
  have htaken := h.taken_le
  have hle := PrimaryPc.enqueued_le hvalid
  have hfreed : s.freed ≤ s.taken := Nat.le_add_right _ _
  have hsecondary : s.secondary.hands = List.range' s.freed (s.taken - s.freed) := by
    have hhands := h.hands
    rw [State.taken, Nat.add_sub_cancel_left]
    cases hpc : s.secondary <;> rw [hpc] at hhands <;>
      simp only [SecondaryPc.hands, List.mem_singleton, forall_eq] at hhands ⊢
    · rfl
    · rfl
    · rw [hhands]; rfl
    · rw [hhands]; rfl
  have hprimary : s.primary.hands
      = List.range' s.primary.enqueued (s.primary.allocated - s.primary.enqueued) := by
    cases hpc : s.primary <;> rw [hpc] at hvalid <;>
      simp [PrimaryPc.hands, PrimaryPc.enqueued, PrimaryPc.allocated]
    · exact hvalid.2
    · exact hvalid.2
  rw [State.places, hsecondary, hprimary, h.ring, range'_glue hfreed htaken,
    range'_glue (hfreed.trans htaken) (hle.1.trans hle.2.1)]

/-- The heap is safe. -/
lemma Inv.safe {s : State} (h : Inv s) : s.heap.Safe where
  reads := h.reads
  frees := by rw [h.freed]; exact List.nodup_range
  allocated := by
    intro a ha
    have htaken := h.taken_le
    have hle := PrimaryPc.enqueued_le h.valid
    rw [h.freed, List.mem_range] at ha
    rw [h.cells]
    simp only [State.taken] at htaken
    omega

/-- Every message is freed, in the hands of a process or in the ring. -/
lemma Inv.placed {s : State} (h : Inv s) : s.heap.Placed s.places := by
  have htaken := h.taken_le
  have hle := PrimaryPc.enqueued_le h.valid
  have hsplit : s.primary.allocated = s.freed + (s.primary.allocated - s.freed) := by
    simp only [State.taken] at htaken
    omega
  rw [Heap.Placed, h.places_eq, h.cells, h.freed]
  conv_lhs => rw [hsplit, List.range_eq_range', ← List.range'_append_1, Nat.zero_add]
  rw [List.range_eq_range']
  exact List.perm_append_comm

/-- **Delivery in order**, in every interleaving and whatever an allocation finds in its
cell. The values the secondary prints are `0, 1, 2, …`, as many as it has taken from the
ring and read, and none before it was sent; at most ten messages are ever under way, so
the primary never waits for room. Every message is read while it is live and freed at most
once, and each one allocated is freed, in the ring, or in the hands of one process. -/
theorem delivered_in_order (turns : List Turn) :
    (∃ r n : ℕ, (reached turns).received = (List.range r).map (fun k : ℕ => (k : ℤ)) ∧
      (reached turns).sent = List.range n ∧ r ≤ n + 1 ∧ n ≤ 10) ∧
    (reached turns).ring.items.length ≤ 10 ∧
    (reached turns).heap.Safe ∧
    (reached turns).heap.Placed (reached turns).places := by
  have h := inv_reached turns
  have hvalid := h.valid
  have hle := PrimaryPc.enqueued_le hvalid
  have htaken := h.taken_le
  have hunfreed : (reached turns).secondary.unfreed ≤ (reached turns).secondary.hands.length := by
    cases (reached turns).secondary <;> simp [SecondaryPc.unfreed, SecondaryPc.hands]
  have hprinted : (reached turns).primary.enqueued ≤ (reached turns).primary.printed + 1 ∧
      (reached turns).primary.printed ≤ 10 := by
    cases hpc : (reached turns).primary <;> rw [hpc] at hvalid <;>
      simp only [PrimaryPc.valid, messageCount] at hvalid <;>
      simp only [PrimaryPc.enqueued, PrimaryPc.printed, messageCount] <;> omega
  refine ⟨⟨_, _, h.received, h.sent, ?_, hprinted.2⟩, ?_, h.safe, h.placed⟩
  · rw [State.taken] at htaken
    omega
  · rw [h.ring, List.length_range']
    simp only [messageCount] at hle
    omega

end DpdkStarter.ThroughRing
