import DpdkStarter.SingleRing.Memory

/-!
Ownership of the messages of the single-ring protocol.

Each process frees what the other allocated. All but one of the accesses are to
a message the process holds; the exception is the `printf` at the end of the
secondary's request branch, which reads `resp->value` after the response was put
into the ring. If the primary takes, reads and frees the response in between,
that read is of a dead cell. The primary prints its own copy `i` at the
corresponding place.

* `Inv`: the messages held by the processes and in the ring are different live
  cells, so in every run each message is freed at most once.
* `PrintsFirst`: the condition on a step that the primary does not free the
  response the secondary is about to print.
* `safe_iff`: a run, continued at any point by one step of the secondary, reads
  no dead message if and only if its steps all meet the condition.
* `printSent_reads_freed_response`: a run in which it does.
-/

namespace DpdkStarter.SingleRing.Memory

/-- **The invariant of ownership**: messages are freed at most once, and those in
use are different live cells. -/
structure Inv (s : State) : Prop where
  freedOnce : s.heap.FreedOnce
  owns : s.heap.Owns s.owned

lemma inv_init : Inv State.init := ⟨Heap.freedOnce_empty, Heap.owns_nil _⟩

/-! ### One step of each process -/

/-- A message the primary enqueues is in the ring afterwards. -/
lemma owns_primary_enqueue {h : Heap Msg} {ring ring' : MsgRing ℕ} {a : ℕ} {rest : List ℕ}
    (howns : h.Owns ([a] ++ ring.items ++ rest)) (henq : ring.enqueue a = some ring') :
    h.Owns ([] ++ ring'.items ++ rest) := by
  obtain ⟨-, hitems⟩ := BoundedFifo.enqueue_eq_some.mp henq
  refine howns.perm ?_
  rw [hitems, List.nil_append, List.append_assoc, List.append_assoc]
  exact List.perm_middle

/-- A message the secondary enqueues is in the ring afterwards. -/
lemma owns_secondary_enqueue {h : Heap Msg} {ring ring' : MsgRing ℕ} {b : ℕ} {rest : List ℕ}
    (howns : h.Owns (rest ++ ring.items ++ [b])) (henq : ring.enqueue b = some ring') :
    h.Owns (rest ++ ring'.items ++ []) := by
  obtain ⟨-, hitems⟩ := BoundedFifo.enqueue_eq_some.mp henq
  rwa [hitems, List.append_nil, ← List.append_assoc]

/-- A step of the primary keeps the messages in use alive and apart. -/
lemma primary_inv (junk : Msg) {s : State} (h : Inv s) : Inv (Memory.primary junk s) := by
  obtain ⟨hfreed, howns⟩ := h
  rw [State.owned] at howns
  rw [Memory.primary]
  cases hpc : s.primary with
  | create => rw [hpc] at howns; exact ⟨hfreed, howns⟩
  | malloc i => rw [hpc] at howns; exact ⟨hfreed.alloc junk, howns.alloc hfreed junk⟩
  | mallocExit => rw [hpc] at howns; exact ⟨hfreed.alloc junk, howns.alloc hfreed junk⟩
  | write i a k =>
      rw [hpc] at howns
      dsimp only
      split <;> exact ⟨hfreed.write _ _, howns.write _ _⟩
  | writeExit a k =>
      rw [hpc] at howns
      dsimp only
      split <;> exact ⟨hfreed.write _ _, howns.write _ _⟩
  | enqueue i a =>
      dsimp only
      split
      · rename_i ring hring
        rw [hpc] at howns
        exact ⟨hfreed, owns_primary_enqueue howns hring⟩
      · exact ⟨hfreed, howns⟩
  | putBack i a =>
      dsimp only
      rw [hpc] at howns
      split
      · rename_i ring hring
        exact ⟨hfreed, owns_primary_enqueue howns hring⟩
      · exact ⟨hfreed, howns.subperm (List.sublist_cons_self a _).subperm⟩
  | enqueueExit a =>
      dsimp only
      rw [hpc] at howns
      split
      · rename_i ring hring
        exact ⟨hfreed, owns_primary_enqueue howns hring⟩
      · exact ⟨hfreed, howns.subperm (List.sublist_cons_self a _).subperm⟩
  | dequeue i =>
      dsimp only
      split
      · exact ⟨hfreed, howns⟩
      · rename_i a ring hring
        have hitems := BoundedFifo.dequeue_eq_some.mp hring
        rw [hpc, hitems] at howns
        exact ⟨hfreed, howns⟩
  | readDst i a =>
      rw [hpc] at howns
      dsimp only
      split <;> exact ⟨hfreed.read a, howns.read a⟩
  | readType i a =>
      rw [hpc] at howns
      dsimp only
      split
      · exact ⟨hfreed.read a, howns.read a⟩
      · exact ⟨hfreed.read a, (howns.subperm (List.sublist_cons_self a _).subperm).read a⟩
  | readValue i a => rw [hpc] at howns; exact ⟨hfreed.read a, howns.read a⟩
  | free i a =>
      rw [hpc] at howns
      have hlive : s.heap.live a := howns.live a (by simp [PrimaryPc.owned])
      dsimp only
      split <;> exact ⟨hfreed.free hlive, Heap.Owns.free howns⟩
  | done => rw [hpc] at howns; exact ⟨hfreed, by rw [State.owned, hpc]; exact howns⟩

/-- A step of the secondary keeps the messages in use alive and apart. -/
lemma secondary_inv (junk : Msg) {s : State} (h : Inv s) : Inv (Memory.secondary junk s) := by
  obtain ⟨hfreed, howns⟩ := h
  rw [State.owned] at howns
  rw [Memory.secondary]
  cases hpc : s.secondary with
  | lookup =>
      rw [hpc] at howns
      dsimp only
      split
      · exact ⟨hfreed, howns⟩
      · exact ⟨hfreed, by rw [State.owned, hpc]; exact howns⟩
  | dequeue =>
      dsimp only
      split
      · exact ⟨hfreed, howns⟩
      · rename_i a ring hring
        have hitems := BoundedFifo.dequeue_eq_some.mp hring
        rw [hpc, hitems] at howns
        refine ⟨hfreed, howns.perm ?_⟩
        simp only [State.owned, SecondaryPc.owned, List.append_nil, List.append_assoc]
        exact (List.perm_append_singleton a ring.items).append_left _
  | readDst a =>
      rw [hpc] at howns
      dsimp only
      split <;> exact ⟨hfreed.read a, howns.read a⟩
  | putBack a =>
      dsimp only
      rw [hpc] at howns
      split
      · rename_i ring hring
        exact ⟨hfreed, owns_secondary_enqueue howns hring⟩
      · refine ⟨hfreed, howns.subperm ?_⟩
        simp only [State.owned, SecondaryPc.owned, List.append_nil]
        exact (List.sublist_append_left _ [a]).subperm
  | readExit a =>
      rw [hpc] at howns
      dsimp only
      split <;> exact ⟨hfreed.read a, howns.read a⟩
  | freeExit a =>
      rw [hpc] at howns
      have hlast : s.heap.Owns (a :: (s.primary.owned ++ s.ring.items)) :=
        howns.perm (List.perm_append_singleton a _).symm
      refine ⟨hfreed.free (hlast.live a List.mem_cons_self), hlast.free.perm ?_⟩
      simp only [State.owned, SecondaryPc.owned, List.append_nil]
      exact List.Perm.refl _
  | readReq a =>
      rw [hpc] at howns
      dsimp only
      split
      · exact ⟨hfreed.read a, howns.read a⟩
      · refine ⟨hfreed.read a, (howns.subperm ?_).read a⟩
        simp only [State.owned, SecondaryPc.owned, List.append_nil]
        exact (List.sublist_append_left _ [a]).subperm
  | printReceived a => rw [hpc] at howns; exact ⟨hfreed.read a, howns.read a⟩
  | malloc a =>
      rw [hpc] at howns
      refine ⟨hfreed.alloc junk, (howns.alloc hfreed junk).perm ?_⟩
      simp only [State.owned, SecondaryPc.owned]
      rw [show [a, (s.heap.alloc junk).1] = [a] ++ [(s.heap.alloc junk).1] from rfl,
        ← List.append_assoc]
      exact List.perm_append_singleton _ _
  | write a b k =>
      rw [hpc] at howns
      dsimp only
      split <;> exact ⟨hfreed.write _ _, howns.write _ _⟩
  | readValue a b => rw [hpc] at howns; exact ⟨hfreed.read a, howns.read a⟩
  | writeValue a b v => rw [hpc] at howns; exact ⟨hfreed.write _ _, howns.write _ _⟩
  | free a b =>
      rw [hpc] at howns
      have hlast : s.heap.Owns (a :: (s.primary.owned ++ s.ring.items ++ [b])) :=
        howns.perm List.perm_middle.symm
      exact ⟨hfreed.free (hlast.live a List.mem_cons_self), hlast.free⟩
  | enqueue b =>
      dsimp only
      split
      · rename_i ring hring
        rw [hpc] at howns
        exact ⟨hfreed, owns_secondary_enqueue howns hring⟩
      · exact ⟨hfreed, howns⟩
  | printSent b => rw [hpc] at howns; exact ⟨hfreed.read b, howns.read b⟩
  | done => rw [hpc] at howns; exact ⟨hfreed, by rw [State.owned, hpc]; exact howns⟩

/-- Every step keeps the invariant. -/
lemma step_inv (t : Turn) (s : State) (h : Inv s) : Inv (step t s) := by
  cases t with
  | primary junk => exact primary_inv junk h
  | secondary junk => exact secondary_inv junk h

/-- The invariant holds in every reachable state. -/
theorem inv_reached (turns : List Turn) : Inv (reached turns) :=
  Machine.run_invariant step step_inv inv_init turns

/-! ### The response after its enqueue -/

/-- The primary is about to free the response that the secondary, past its
enqueue, is about to print. -/
def State.freesUnderPrint (s : State) : Bool :=
  match s.primary, s.secondary with
  | .free _ a, .printSent b => a == b
  | _, _ => false

/-- The step does not free a response before the secondary printed it. -/
def PrintsFirst : Turn → State → Prop
  | .primary _, s => s.freesUnderPrint = false
  | .secondary _, _ => True

/-- No dead message was read, and none is about to be. -/
structure Clean (s : State) : Prop where
  reads : s.heap.deadReads = []
  printed : ∀ b, s.secondary = .printSent b → s.heap.live b

/-- What a step of the primary does to the heap: it reads what it holds, and it
frees only at `.free`. -/
lemma primary_heap (junk : Msg) (s : State) :
    (Memory.primary junk s).heap = s.heap ∨
    (Memory.primary junk s).heap = (s.heap.alloc junk).2 ∨
    (∃ a f, (Memory.primary junk s).heap = s.heap.write a f) ∨
    (∃ a ∈ s.primary.owned, (Memory.primary junk s).heap = s.heap.read a) ∨
    ∃ i a, s.primary = .free i a ∧ (Memory.primary junk s).heap = s.heap.free a := by
  rw [Memory.primary]
  cases hpc : s.primary with
  | create => exact .inl rfl
  | done => exact .inl rfl
  | malloc i => exact .inr (.inl rfl)
  | mallocExit => exact .inr (.inl rfl)
  | write i a k => exact .inr (.inr (.inl ⟨a, _, rfl⟩))
  | writeExit a k => exact .inr (.inr (.inl ⟨a, _, rfl⟩))
  | enqueue i a => left; dsimp only; split <;> rfl
  | putBack i a => left; dsimp only; split <;> rfl
  | enqueueExit a => left; dsimp only; split <;> rfl
  | dequeue i => left; dsimp only; split <;> rfl
  | readDst i a => exact .inr (.inr (.inr (.inl ⟨a, List.mem_singleton_self a, rfl⟩)))
  | readType i a => exact .inr (.inr (.inr (.inl ⟨a, List.mem_singleton_self a, rfl⟩)))
  | readValue i a => exact .inr (.inr (.inr (.inl ⟨a, List.mem_singleton_self a, rfl⟩)))
  | free i a => exact .inr (.inr (.inr (.inr ⟨i, a, rfl, rfl⟩)))

/-- The primary leaves the secondary where it stands. -/
lemma primary_secondary (junk : Msg) (s : State) :
    (Memory.primary junk s).secondary = s.secondary := by
  rw [Memory.primary]
  cases s.primary <;> dsimp only <;> split <;> rfl

/-- What is held by the primary is alive. -/
lemma Inv.live_primary {s : State} (h : Inv s) {a : ℕ} (ha : a ∈ s.primary.owned) :
    s.heap.live a :=
  h.owns.live a (List.mem_append_left _ (List.mem_append_left _ ha))

/-- What is held by the secondary is alive. -/
lemma Inv.live_secondary {s : State} (h : Inv s) {a : ℕ} (ha : a ∈ s.secondary.owned) :
    s.heap.live a :=
  h.owns.live a (List.mem_append_right _ ha)

/-- A step of the primary that lets the secondary print first is clean. -/
lemma primary_clean (junk : Msg) {s : State} (hinv : Inv s) (h : Clean s)
    (hprint : s.freesUnderPrint = false) : Clean (Memory.primary junk s) := by
  obtain ⟨hreads, hprinted⟩ := h
  have hsec := primary_secondary junk s
  rcases primary_heap junk s with hheap | hheap | ⟨a, f, hheap⟩ | ⟨a, ha, hheap⟩ |
    ⟨i, a, hpc, hheap⟩
  · exact ⟨by rw [hheap, hreads], fun b hb => by rw [hheap]; exact hprinted b (hsec ▸ hb)⟩
  · refine ⟨by rw [hheap, Heap.deadReads_alloc, hreads], ?_⟩
    intro b hb
    rw [hheap]
    exact Heap.live_alloc (hprinted b (hsec ▸ hb))
  · refine ⟨by rw [hheap, Heap.deadReads_write, hreads], ?_⟩
    intro b hb
    rw [hheap]
    exact Heap.live_write.mpr (hprinted b (hsec ▸ hb))
  · rw [Heap.read_of_live (hinv.live_primary ha)] at hheap
    exact ⟨by rw [hheap, hreads], fun b hb => by rw [hheap]; exact hprinted b (hsec ▸ hb)⟩
  · refine ⟨by rw [hheap, Heap.deadReads_free, hreads], ?_⟩
    intro b hb
    rw [hsec] at hb
    have hne : b ≠ a := by
      rintro rfl
      simp [State.freesUnderPrint, hpc, hb] at hprint
    rw [hheap]
    exact Heap.live_free.mpr ⟨hprinted b hb, hne⟩

/-- A step of the secondary is clean. -/
lemma secondary_clean (junk : Msg) {s : State} (hinv : Inv s) (h : Clean s) :
    Clean (Memory.secondary junk s) := by
  obtain ⟨hreads, hprinted⟩ := h
  have hread : ∀ a ∈ s.secondary.owned, (s.heap.read a).deadReads = [] := fun a ha => by
    rw [Heap.read_of_live (hinv.live_secondary ha), hreads]
  rw [Memory.secondary]
  cases hpc : s.secondary with
  | lookup => dsimp only; split <;> exact ⟨hreads, by simp [hpc]⟩
  | dequeue => dsimp only; split <;> exact ⟨hreads, by simp [hpc]⟩
  | readDst a =>
      rw [hpc] at hread
      refine ⟨hread a (List.mem_singleton_self a), ?_⟩
      dsimp only
      split <;> simp
  | putBack a => dsimp only; split <;> exact ⟨hreads, by simp⟩
  | readExit a =>
      rw [hpc] at hread
      refine ⟨hread a (List.mem_singleton_self a), ?_⟩
      dsimp only
      split <;> simp
  | freeExit a => exact ⟨hreads, by simp⟩
  | readReq a =>
      rw [hpc] at hread
      refine ⟨hread a (List.mem_singleton_self a), ?_⟩
      dsimp only
      split <;> simp
  | printReceived a =>
      rw [hpc] at hread
      exact ⟨hread a (List.mem_singleton_self a), by simp⟩
  | malloc a => exact ⟨hreads, by simp⟩
  | write a b k => exact ⟨hreads, by dsimp only; split <;> simp⟩
  | readValue a b =>
      rw [hpc] at hread
      exact ⟨hread a List.mem_cons_self, by simp⟩
  | writeValue a b v => exact ⟨hreads, by simp⟩
  | free a b => exact ⟨hreads, by simp⟩
  | enqueue b =>
      -- from here on the response belongs to the ring, and it is alive there
      have hb : s.heap.live b := hinv.live_secondary (by simp [hpc, SecondaryPc.owned])
      dsimp only
      split
      · refine ⟨hreads, ?_⟩
        intro c hc
        rw [← SecondaryPc.printSent.inj hc]
        exact hb
      · exact ⟨hreads, by simp [hpc]⟩
  | printSent b =>
      have hprint : (s.heap.read b).deadReads = [] := by
        rw [Heap.read_of_live (hprinted b hpc), hreads]
      exact ⟨hprint, by simp⟩
  | done => exact ⟨hreads, by simp [hpc]⟩

/-- A step that lets the secondary print first is clean. -/
lemma step_clean (t : Turn) (s : State) (hprint : PrintsFirst t s) (h : Inv s ∧ Clean s) :
    Inv (step t s) ∧ Clean (step t s) := by
  refine ⟨step_inv t s h.1, ?_⟩
  cases t with
  | primary junk => exact primary_clean junk h.1 h.2 hprint
  | secondary junk => exact secondary_clean junk h.1 h.2

/-- Once the primary has freed the response, the print of it is a dead read. -/
lemma dead_print {s : State} (hprint : s.freesUnderPrint = true) (junk junk' : Msg) :
    ¬ (step (.secondary junk') (step (.primary junk) s)).heap.Safe := by
  rw [State.freesUnderPrint] at hprint
  split at hprint
  · rename_i i a b hp hs
    obtain rfl : a = b := by simpa using hprint
    have hheap : (Memory.primary junk s).heap = s.heap.free a := by simp [Memory.primary, hp]
    have hsec : (Memory.primary junk s).secondary = .printSent a := by
      rw [primary_secondary, hs]
    simp only [step, Memory.secondary, hsec]
    exact Heap.not_safe_read (by simp [hheap])
  · simp at hprint

/-- **Ownership of the messages.** In every run each message is freed at most
once; and no message is read after it was freed, neither in the run nor by a
next step of the secondary at any point of it, if and only if the primary never
frees a response before the secondary has printed it. -/
theorem safe_iff (turns : List Turn) :
    (reached turns).heap.FreedOnce ∧
    ((∀ pre, pre <+: turns → (reached pre).heap.Safe ∧
        ∀ junk, (reached (pre ++ [.secondary junk])).heap.Safe) ↔
      Machine.StepsMeet step PrintsFirst turns State.init) := by
  refine ⟨(inv_reached turns).freedOnce, ?_⟩
  have hsafe : ∀ s, Inv s ∧ Clean s → s.heap.Safe := fun s h => ⟨h.1.freedOnce, h.2.reads⟩
  refine Machine.good_iff_stepsMeet (fun s => s.heap.Safe) Turn.secondary step_clean hsafe
    (fun _ _ => trivial) ?_ ⟨inv_init, ⟨rfl, by simp [State.init]⟩⟩ turns
  intro t s hprint
  cases t with
  | secondary junk => exact absurd trivial hprint
  | primary junk => exact ⟨⟨0, 0, .req, 0⟩, dead_print (Bool.not_eq_false _ ▸ hprint) junk _⟩

/-- The first request and its response; the primary takes, prints and frees the
response before the secondary comes to its own `printf`. -/
def freesBeforePrint : List Turn :=
  [List.replicate 7 (Turn.primary .goodbye), List.replicate 14 (Turn.secondary .goodbye),
    List.replicate 5 (Turn.primary .goodbye), [Turn.secondary .goodbye]].flatten

/-- The secondary reads `resp->value` of a response that the primary freed. -/
theorem printSent_reads_freed_response :
    ¬ ∀ turns : List Turn, (reached turns).heap.Safe := by
  intro h
  have hread : (reached freesBeforePrint).heap.deadReads = [1] := by decide +kernel
  rw [(h freesBeforePrint).reads] at hread
  simp at hread

end DpdkStarter.SingleRing.Memory
