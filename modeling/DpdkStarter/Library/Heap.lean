import Mathlib.Tactic

/-!
A heap that records how it is used.

Addresses are given out once, so that a cell is named for ever by its address
and a late access to it is visible. The heap never fails: it records the
addresses freed and those read while dead, and a program is memory safe when
these records say so.

* `live`: allocated and not freed.
* `FreedOnce`: only allocated cells were freed, each at most once; `Safe`: and no
  dead cell was read.
* `Owns`: a list of addresses, all different, of live cells; the lemmas
  `Owns.alloc`, `Owns.free` and `Owns.subperm` are the moves of ownership, and
  `read_of_live`, `FreedOnce.free` say that what an owner does is safe.
* `Placed`: a list of addresses that accounts for all cells not freed, with the
  same moves.
-/

namespace DpdkStarter

/-- The cells ever allocated, by address, and the record of their use. -/
structure Heap (V : Type*) where
  cells : List V
  /-- addresses freed, in order -/
  freed : List ℕ
  /-- addresses read while not live, in order -/
  deadReads : List ℕ

namespace Heap

variable {V : Type*}

/-- The heap before any allocation. -/
def empty : Heap V := ⟨[], [], []⟩

/-- The cell is allocated and has not been freed. -/
def live (h : Heap V) (a : ℕ) : Prop := a < h.cells.length ∧ a ∉ h.freed

instance (h : Heap V) (a : ℕ) : Decidable (h.live a) := inferInstanceAs (Decidable (_ ∧ _))

/-- Allocate a cell with content `v`; its address is fresh. -/
def alloc (h : Heap V) (v : V) : ℕ × Heap V :=
  (h.cells.length, { h with cells := h.cells ++ [v] })

/-- Record a read of the cell. -/
def read (h : Heap V) (a : ℕ) : Heap V :=
  if h.live a then h else { h with deadReads := h.deadReads ++ [a] }

/-- Change the content of the cell. -/
def write (h : Heap V) (a : ℕ) (f : V → V) : Heap V := { h with cells := h.cells.modify a f }

/-- Free the cell. -/
def free (h : Heap V) (a : ℕ) : Heap V := { h with freed := h.freed ++ [a] }

/-- Only allocated cells were freed, each at most once. -/
structure FreedOnce (h : Heap V) : Prop where
  frees : h.freed.Nodup
  allocated : ∀ a ∈ h.freed, a < h.cells.length

/-- No dead cell was read, and cells were freed at most once. -/
structure Safe (h : Heap V) : Prop extends FreedOnce h where
  reads : h.deadReads = []

instance (h : Heap V) : Decidable h.Safe :=
  decidable_of_iff (h.freed.Nodup ∧ (∀ a ∈ h.freed, a < h.cells.length) ∧ h.deadReads = [])
    ⟨fun hs => ⟨⟨hs.1, hs.2.1⟩, hs.2.2⟩, fun hs => ⟨hs.frees, hs.allocated, hs.reads⟩⟩

lemma freedOnce_empty : (empty : Heap V).FreedOnce := ⟨List.nodup_nil, by simp [empty]⟩

/-! ### What the operations leave alone -/

/-- An allocation keeps the live cells alive. -/
lemma live_alloc {h : Heap V} {v : V} {a : ℕ} (ha : h.live a) : (h.alloc v).2.live a :=
  ⟨by simpa [alloc] using Nat.lt_succ_of_lt ha.1, ha.2⟩

/-- A freshly allocated cell is live. -/
lemma FreedOnce.live_fresh {h : Heap V} (hs : h.FreedOnce) (v : V) :
    (h.alloc v).2.live (h.alloc v).1 :=
  ⟨by simp [Heap.alloc], fun hf => lt_irrefl _ (hs.allocated _ hf)⟩

@[simp] lemma live_read {h : Heap V} {a b : ℕ} : (h.read b).live a ↔ h.live a := by
  rw [read]
  split <;> rfl

@[simp] lemma live_write {h : Heap V} {a b : ℕ} {f : V → V} :
    (h.write b f).live a ↔ h.live a := by
  simp [live, write]

@[simp] lemma live_free {h : Heap V} {a b : ℕ} : (h.free b).live a ↔ h.live a ∧ a ≠ b := by
  simp only [live, free, List.mem_append, List.mem_singleton, not_or, and_assoc]

/-- Reading a live cell is recorded nowhere. -/
lemma read_of_live {h : Heap V} {a : ℕ} (ha : h.live a) : h.read a = h := if_pos ha

/-- Reading a dead cell is not safe. -/
lemma not_safe_read {h : Heap V} {a : ℕ} (ha : ¬ h.live a) : ¬ (h.read a).Safe := by
  intro hs
  have hreads := hs.reads
  rw [read, if_neg ha] at hreads
  simp at hreads

@[simp] lemma deadReads_alloc (h : Heap V) (v : V) :
    (h.alloc v).2.deadReads = h.deadReads := rfl

@[simp] lemma deadReads_write (h : Heap V) (a : ℕ) (f : V → V) :
    (h.write a f).deadReads = h.deadReads := rfl

@[simp] lemma deadReads_free (h : Heap V) (a : ℕ) : (h.free a).deadReads = h.deadReads := rfl

lemma FreedOnce.alloc {h : Heap V} (hs : h.FreedOnce) (v : V) : (h.alloc v).2.FreedOnce :=
  ⟨hs.frees, fun a ha => by simpa [Heap.alloc] using Nat.lt_succ_of_lt (hs.allocated a ha)⟩

lemma FreedOnce.read {h : Heap V} (hs : h.FreedOnce) (a : ℕ) : (h.read a).FreedOnce := by
  rw [Heap.read]
  split
  · exact hs
  · exact ⟨hs.frees, hs.allocated⟩

lemma FreedOnce.write {h : Heap V} (hs : h.FreedOnce) (a : ℕ) (f : V → V) :
    (h.write a f).FreedOnce :=
  ⟨hs.frees, fun b hb => by simpa [Heap.write] using hs.allocated b hb⟩

/-- Freeing a live cell frees no cell twice. -/
lemma FreedOnce.free {h : Heap V} (hs : h.FreedOnce) {a : ℕ} (ha : h.live a) :
    (h.free a).FreedOnce where
  frees := by
    simp only [Heap.free, List.nodup_append, List.nodup_singleton, List.mem_singleton, true_and]
    exact ⟨hs.frees, fun b hb c hc hbc => ha.2 (hc ▸ hbc ▸ hb)⟩
  allocated := fun b hb => by
    rcases List.mem_append.mp hb with hold | hnew
    · exact hs.allocated b hold
    · rw [List.mem_singleton.mp hnew]
      exact ha.1

/-! ### Ownership -/

/-- The addresses are those of different live cells. -/
structure Owns (h : Heap V) (as : List ℕ) : Prop where
  nodup : as.Nodup
  live : ∀ a ∈ as, h.live a

lemma owns_nil (h : Heap V) : h.Owns [] := ⟨List.nodup_nil, by simp⟩

/-- Ownership may be rearranged and given up. -/
lemma Owns.subperm {h : Heap V} {as bs : List ℕ} (ho : h.Owns as) (hsub : bs.Subperm as) :
    h.Owns bs :=
  ⟨by
    obtain ⟨l, hperm, hl⟩ := hsub
    exact hperm.nodup_iff.mp (ho.nodup.sublist hl), fun a ha => ho.live a (hsub.subset ha)⟩

lemma Owns.perm {h : Heap V} {as bs : List ℕ} (ho : h.Owns as) (hperm : bs.Perm as) :
    h.Owns bs := ho.subperm hperm.subperm

lemma Owns.read {h : Heap V} {as : List ℕ} (ho : h.Owns as) (a : ℕ) : (h.read a).Owns as :=
  ⟨ho.nodup, fun b hb => live_read.mpr (ho.live b hb)⟩

lemma Owns.write {h : Heap V} {as : List ℕ} (ho : h.Owns as) (a : ℕ) (f : V → V) :
    (h.write a f).Owns as :=
  ⟨ho.nodup, fun b hb => live_write.mpr (ho.live b hb)⟩

/-- An allocation adds the fresh cell to what is owned. -/
lemma Owns.alloc {h : Heap V} {as : List ℕ} (ho : h.Owns as) (hs : h.FreedOnce) (v : V) :
    (h.alloc v).2.Owns ((h.alloc v).1 :: as) := by
  refine ⟨List.nodup_cons.mpr ⟨?_, ho.nodup⟩, ?_⟩
  · intro hmem
    exact absurd (ho.live _ hmem).1 (lt_irrefl _)
  · intro a ha
    rcases List.mem_cons.mp ha with rfl | hold
    · exact hs.live_fresh v
    · exact live_alloc (ho.live a hold)

/-- Freeing an owned cell gives up that cell and no other. -/
lemma Owns.free {h : Heap V} {a : ℕ} {as : List ℕ} (ho : h.Owns (a :: as)) :
    (h.free a).Owns as := by
  obtain ⟨hnot, hnodup⟩ := List.nodup_cons.mp ho.nodup
  refine ⟨hnodup, fun b hb => live_free.mpr ⟨ho.live b (List.mem_cons_of_mem a hb), ?_⟩⟩
  rintro rfl
  exact hnot hb

/-! ### Places -/

/-- Every cell ever allocated is in one place: among the addresses, once, or freed,
once. -/
def Placed (h : Heap V) (as : List ℕ) : Prop :=
  (List.range h.cells.length).Perm (as ++ h.freed)

lemma placed_empty : (empty : Heap V).Placed [] := List.Perm.refl []

variable {h : Heap V} {a : ℕ} {as bs : List ℕ}

/-- The addresses may be rearranged. -/
lemma Placed.perm (hp : h.Placed as) (hperm : as.Perm bs) : h.Placed bs :=
  List.Perm.trans hp (hperm.append_right _)

/-- An allocation puts the fresh cell among the addresses. -/
lemma Placed.alloc (hp : h.Placed as) (v : V) : (h.alloc v).2.Placed ((h.alloc v).1 :: as) := by
  rw [Placed, Heap.alloc]
  simp only [List.length_append, List.length_singleton, List.range_succ, List.cons_append]
  exact (hp.append_right _).trans (List.perm_append_singleton _ _)

lemma Placed.read (hp : h.Placed as) (a : ℕ) : (h.read a).Placed as := by
  rw [Heap.read]
  split <;> exact hp

lemma Placed.write (hp : h.Placed as) (a : ℕ) (f : V → V) : (h.write a f).Placed as := by
  rw [Placed, Heap.write, List.length_modify]
  exact hp

/-- A free moves a cell from the addresses to the freed ones. -/
lemma Placed.free (hp : h.Placed (a :: as)) : (h.free a).Placed as := by
  rw [Placed, Heap.free, ← List.append_assoc]
  exact hp.trans (List.perm_append_singleton a (as ++ h.freed)).symm

/-- A cell in a place other than the freed ones is live. -/
lemma Placed.live (hp : h.Placed as) (ha : a ∈ as) : h.live a := by
  have hnodup : (as ++ h.freed).Nodup := hp.nodup_iff.mp List.nodup_range
  refine ⟨List.mem_range.mp (hp.mem_iff.mpr (List.mem_append_left _ ha)), ?_⟩
  exact fun hfreed => List.disjoint_of_nodup_append hnodup ha hfreed

/-- No cell was freed twice. -/
lemma Placed.freedOnce (hp : h.Placed as) : h.FreedOnce where
  frees := (List.nodup_append.mp (hp.nodup_iff.mp List.nodup_range)).2.1
  allocated := fun _ hb => List.mem_range.mp (hp.mem_iff.mpr (List.mem_append_right _ hb))

end Heap

end DpdkStarter
