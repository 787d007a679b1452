import Mathlib.Tactic

/-!
Buffers that put numbered items back in order.

An item carries a 32-bit sequence number. The first insertion fixes the minimum; an
item is accepted when its distance from the minimum, modulo `2 ^ 32`, is below the
window; a drain hands out items with consecutive numbers from the minimum on, as many
as there are and are asked for, and moves the minimum behind them. The operations are
a parameter, with these laws.

* `ReorderBuffer`, `Lawful`: the operations and their laws.
* `Holds`: a buffer holds a run of items from its minimum on and nothing else;
  `Holds.insert`: the next item of a run is accepted; `Holds.drain`: a run is handed out
  whole.
* `HoldsAll`: a buffer holds items in no order; `HoldsAll.insert`: an item inside the window
  is accepted; `HoldsAll.holds`: items with consecutive numbers are a run.
* `windowBuffer`: a lawful buffer.
-/

namespace DpdkStarter

/-- An item with its sequence number. -/
structure Numbered (α : Type*) where
  seqn : UInt32
  item : α

/-- The operations of a reorder buffer, and what can be said of its state: the minimum,
once there is one, and the item held under a number. -/
structure ReorderBuffer (R α : Type*) where
  create : R
  insert : R → Numbered α → Bool × R
  drain : R → ℕ → List (Numbered α) × R
  min : R → Option UInt32
  held : R → UInt32 → Option (Numbered α)

namespace ReorderBuffer

variable {R α : Type*}

/-- An insertion is accepted: the item is held under its number, beside the others. -/
structure Accepts (b : ReorderBuffer R α) (r : R) (p : Numbered α) (m : UInt32) : Prop where
  ok : (b.insert r p).1 = true
  min_eq : b.min (b.insert r p).2 = some m
  held_eq : ∀ q, b.held (b.insert r p).2 q = if q = p.seqn then some p else b.held r q

/-- A drain hands out these items and keeps the others. -/
structure Drains (b : ReorderBuffer R α) (r : R) (n : ℕ) (m : UInt32) (out : List (Numbered α)) :
    Prop where
  out_eq : (b.drain r n).1 = out
  length_le : out.length ≤ n
  consecutive : ∀ i < out.length, b.held r (m + UInt32.ofNat i) = out[i]?
  maximal : out.length = n ∨ b.held r (m + UInt32.ofNat out.length) = none
  min_eq : b.min (b.drain r n).2 = some (m + UInt32.ofNat out.length)
  held_eq : ∀ q, b.held (b.drain r n).2 q
    = if (q - m).toNat < out.length then none else b.held r q

/-- What a program may rely on. -/
structure Lawful (b : ReorderBuffer R α) (window : ℕ) : Prop where
  min_create : b.min b.create = none
  held_create : ∀ q, b.held b.create q = none
  insert_first : ∀ r p, b.min r = none → b.Accepts r p p.seqn
  insert_window : ∀ r p m, b.min r = some m → (p.seqn - m).toNat < window →
    b.held r p.seqn = none → b.Accepts r p m
  drain_spec : ∀ r n m, n < 2 ^ 32 → b.min r = some m → ∃ out, b.Drains r n m out

/-! ### Distances -/

lemma toNat_add_ofNat_sub (m : UInt32) {k : ℕ} (hk : k < 2 ^ 32) :
    (m + UInt32.ofNat k - m).toNat = k := by
  rw [UInt32.add_comm, UInt32.add_sub_cancel]
  exact UInt32.toNat_ofNat_of_lt' hk

lemma eq_add_ofNat_iff {m q : UInt32} {k : ℕ} (hk : k < 2 ^ 32) :
    q = m + UInt32.ofNat k ↔ (q - m).toNat = k := by
  constructor
  · rintro rfl
    exact toNat_add_ofNat_sub m hk
  · intro h
    rw [← h, UInt32.ofNat_toNat, UInt32.add_comm, UInt32.sub_add_cancel]

/-! ### Runs of items -/

/-- The buffer holds a run of items from the minimum on, and nothing else. -/
structure Holds (b : ReorderBuffer R α) (r : R) (m : UInt32) (run : List (Numbered α)) : Prop where
  min_eq : b.min r = some m
  held_eq : ∀ q, b.held r q = run[(q - m).toNat]?

/-- The buffer holds nothing; the next number is the minimum, if there is one. -/
def Empty (b : ReorderBuffer R α) (r : R) (next : UInt32) : Prop :=
  (b.min r = none ∨ b.min r = some next) ∧ ∀ q, b.held r q = none

variable {b : ReorderBuffer R α} {window : ℕ} {r : R} {m : UInt32} {run : List (Numbered α)}

/-- **The next item of a run is accepted**, as long as the run is shorter than the
window. -/
lemma Holds.insert (law : b.Lawful window) (h : b.Holds r m run) (hwindow : run.length < window)
    (hlen : run.length < 2 ^ 32) {p : Numbered α} (hp : p.seqn = m + UInt32.ofNat run.length) :
    (b.insert r p).1 = true ∧ b.Holds (b.insert r p).2 m (run ++ [p]) := by
  have hdist : (p.seqn - m).toNat = run.length := (eq_add_ofNat_iff hlen).mp hp
  have hfree : b.held r p.seqn = none := by
    rw [h.held_eq, hdist, List.getElem?_eq_none le_rfl]
  have haccepts := law.insert_window r p m h.min_eq (hdist ▸ hwindow) hfree
  refine ⟨haccepts.ok, haccepts.min_eq, fun q => ?_⟩
  rw [haccepts.held_eq, h.held_eq, hp]
  simp only [eq_add_ofNat_iff hlen]
  split
  · rename_i hq
    rw [hq, List.getElem?_concat_length]
  · rename_i hq
    rcases lt_or_gt_of_ne hq with hlt | hgt
    · rw [List.getElem?_append_left hlt]
    · rw [List.getElem?_eq_none (by omega), List.getElem?_eq_none (by simp; omega)]

/-- The first item after the buffer was empty is accepted, and starts a run. -/
lemma Empty.insert (law : b.Lawful window) {p : Numbered α} (h : b.Empty r p.seqn)
    (hwindow : 0 < window) :
    (b.insert r p).1 = true ∧ b.Holds (b.insert r p).2 p.seqn [p] := by
  have haccepts : b.Accepts r p p.seqn := by
    rcases h.1 with hnone | hsome
    · exact law.insert_first r p hnone
    · refine law.insert_window r p p.seqn hsome ?_ (h.2 p.seqn)
      rwa [UInt32.sub_self]
  refine ⟨haccepts.ok, haccepts.min_eq, fun q => ?_⟩
  have hzero : q = p.seqn ↔ (q - p.seqn).toNat = 0 := by
    have hiff := @eq_add_ofNat_iff p.seqn q 0 (by decide)
    rwa [show UInt32.ofNat 0 = 0 from rfl, UInt32.add_zero] at hiff
  rw [haccepts.held_eq, h.2]
  simp only [hzero]
  split
  · rename_i hq
    rw [hq]
    rfl
  · rename_i hq
    rw [List.getElem?_eq_none (by simp; omega)]

/-- **A run is handed out whole**, in order, when as many items are asked for. -/
lemma Holds.drain (law : b.Lawful window) (h : b.Holds r m run) {n : ℕ} (hn : run.length ≤ n)
    (hlt : n < 2 ^ 32) :
    (b.drain r n).1 = run ∧
      b.Empty (b.drain r n).2 (m + UInt32.ofNat run.length) := by
  obtain ⟨out, hdrains⟩ := law.drain_spec r n m hlt h.min_eq
  have hat : ∀ i, i < 2 ^ 32 → b.held r (m + UInt32.ofNat i) = run[i]? := by
    intro i hi
    rw [h.held_eq, toNat_add_ofNat_sub m hi]
  have hle := hdrains.length_le
  have hlength : out.length = run.length := by
    by_contra hne
    rcases lt_or_gt_of_ne hne with hshort | hlong
    · -- the item behind those handed out is still held
      have hend := hdrains.maximal.resolve_left (by omega)
      rw [hat _ (by omega), List.getElem?_eq_none_iff] at hend
      omega
    · have hbehind := hdrains.consecutive run.length hlong
      rw [hat _ (by omega), List.getElem?_eq_none le_rfl, eq_comm, List.getElem?_eq_none_iff]
        at hbehind
      omega
  have hout : out = run := by
    refine List.ext_getElem? fun i => ?_
    rcases lt_or_ge i out.length with hi | hi
    · rw [← hdrains.consecutive i hi, hat i (by omega)]
    · rw [List.getElem?_eq_none hi, List.getElem?_eq_none (by omega)]
  subst hout
  refine ⟨hdrains.out_eq, Or.inr hdrains.min_eq, fun q => ?_⟩
  rw [hdrains.held_eq, h.held_eq]
  split
  · rfl
  · rename_i hq
    exact List.getElem?_eq_none (not_lt.mp hq)

/-- A new buffer is empty. -/
lemma Lawful.empty_create (law : b.Lawful window) (next : UInt32) : b.Empty b.create next :=
  ⟨Or.inl law.min_create, law.held_create⟩

/-! ### Items in any order -/

/-- The buffer holds these items, each under its number, and nothing else. -/
structure HoldsAll (b : ReorderBuffer R α) (r : R) (m : UInt32) (items : List (Numbered α)) :
    Prop where
  min_eq : b.min r = some m
  held_iff : ∀ q p, b.held r q = some p ↔ p ∈ items ∧ p.seqn = q

/-- The numbers follow one another, from `m` on. -/
def Consecutive (m : UInt32) (run : List (Numbered α)) : Prop :=
  ∀ i p, run[i]? = some p → p.seqn = m + UInt32.ofNat i

variable {items : List (Numbered α)}

/-- What is held after an insertion. -/
lemma Accepts.holdsAll {p : Numbered α} (h : b.Accepts r p m)
    (hheld : ∀ q p', b.held r q = some p' ↔ p' ∈ items ∧ p'.seqn = q)
    (hfree : ∀ p' ∈ items, p'.seqn ≠ p.seqn) : b.HoldsAll (b.insert r p).2 m (items ++ [p]) := by
  refine ⟨h.min_eq, fun q p' => ?_⟩
  rw [h.held_eq, List.mem_append, List.mem_singleton]
  split
  · rename_i hq
    constructor
    · intro heq
      rw [← Option.some.inj heq]
      exact ⟨Or.inr rfl, hq.symm⟩
    · rintro ⟨hmem | rfl, hnum⟩
      · exact absurd (hnum.trans hq) (hfree p' hmem)
      · rfl
  · rename_i hq
    rw [hheld]
    refine and_congr_left fun hnum => ?_
    constructor
    · exact Or.inl
    · rintro (hmem | rfl)
      · exact hmem
      · exact absurd hnum.symm hq

/-- The first item fixes the minimum. -/
lemma Lawful.holdsAll_first (law : b.Lawful window) (p : Numbered α) :
    (b.insert b.create p).1 = true ∧ b.HoldsAll (b.insert b.create p).2 p.seqn [p] := by
  have haccepts := law.insert_first b.create p law.min_create
  have hnone : ∀ q p', b.held b.create q = some p'
      ↔ p' ∈ ([] : List (Numbered α)) ∧ p'.seqn = q := by
    simp [law.held_create]
  exact ⟨haccepts.ok, haccepts.holdsAll hnone (by simp)⟩

/-- **An item inside the window is accepted**, wherever it belongs. -/
lemma HoldsAll.insert (law : b.Lawful window) (h : b.HoldsAll r m items) {p : Numbered α}
    (hdist : (p.seqn - m).toNat < window) (hfree : ∀ p' ∈ items, p'.seqn ≠ p.seqn) :
    (b.insert r p).1 = true ∧ b.HoldsAll (b.insert r p).2 m (items ++ [p]) := by
  have hnone : b.held r p.seqn = none := by
    cases hheld : b.held r p.seqn with
    | none => rfl
    | some p' =>
        obtain ⟨hmem, hnum⟩ := (h.held_iff _ _).mp hheld
        exact absurd hnum (hfree p' hmem)
  have haccepts := law.insert_window r p m h.min_eq hdist hnone
  exact ⟨haccepts.ok, haccepts.holdsAll h.held_iff hfree⟩

/-- Items with consecutive numbers are a run, in whatever order they came. -/
lemma HoldsAll.holds (h : b.HoldsAll r m items) (hperm : items.Perm run)
    (hrun : Consecutive m run) (hlen : run.length ≤ 2 ^ 32) : b.Holds r m run := by
  refine ⟨h.min_eq, fun q => Option.ext fun p => ?_⟩
  rw [h.held_iff, hperm.mem_iff]
  constructor
  · rintro ⟨hmem, rfl⟩
    obtain ⟨i, hi⟩ := List.mem_iff_getElem?.mp hmem
    have hlt : i < run.length := (List.getElem?_eq_some_iff.mp hi).1
    rwa [hrun i p hi, toNat_add_ofNat_sub m (by omega)]
  · intro hq
    refine ⟨List.mem_of_getElem? hq, ?_⟩
    rw [hrun _ p hq, UInt32.ofNat_toNat, UInt32.add_comm, UInt32.sub_add_cancel]

/-- The numbers of a run keep within its length. -/
lemma Consecutive.dist_lt (hrun : Consecutive m run) (hlen : run.length ≤ 2 ^ 32)
    {p : Numbered α} (hp : p ∈ run) : (p.seqn - m).toNat < run.length := by
  obtain ⟨i, hi⟩ := List.mem_iff_getElem?.mp hp
  have hlt : i < run.length := (List.getElem?_eq_some_iff.mp hi).1
  rwa [hrun i p hi, toNat_add_ofNat_sub m (by omega)]

/-- Each number of a run is there once. -/
lemma Consecutive.nodup (hrun : Consecutive m run) (hlen : run.length ≤ 2 ^ 32) :
    (run.map Numbered.seqn).Nodup := by
  refine List.nodup_iff_injective_get.mpr fun i j hij => ?_
  have hat : ∀ k : Fin (run.map Numbered.seqn).length,
      (run.map Numbered.seqn).get k = m + UInt32.ofNat k := by
    intro k
    have hk : (k : ℕ) < run.length := by simpa using k.isLt
    rw [List.get_eq_getElem, List.getElem_map]
    exact hrun k run[(k : ℕ)] (List.getElem?_eq_getElem hk)
  rw [hat, hat] at hij
  have hlt : ∀ k : Fin (run.map Numbered.seqn).length, (k : ℕ) < 2 ^ 32 := by
    intro k
    have hk : (k : ℕ) < run.length := by simpa using k.isLt
    omega
  have hdist := congrArg (fun q => (q - m).toNat) hij
  simp only [toNat_add_ofNat_sub m (hlt _)] at hdist
  exact Fin.ext hdist

/-! ### A buffer -/

/-- The items held under consecutive numbers, so many at most. -/
def takeRun (held : UInt32 → Option (Numbered α)) (m : UInt32) : ℕ → List (Numbered α)
  | 0 => []
  | n + 1 =>
      match held m with
      | none => []
      | some p => p :: takeRun held (m + 1) n

lemma length_takeRun_le (held : UInt32 → Option (Numbered α)) (m : UInt32) (n : ℕ) :
    (takeRun held m n).length ≤ n := by
  induction n generalizing m with
  | zero => exact le_rfl
  | succ n ih =>
      rw [takeRun]
      split
      · exact Nat.zero_le _
      · exact Nat.succ_le_succ (ih (m + 1))

lemma add_ofNat_succ (m : UInt32) (i : ℕ) :
    m + UInt32.ofNat (i + 1) = m + 1 + UInt32.ofNat i := by
  rw [UInt32.ofNat_add, UInt32.add_assoc, UInt32.add_comm 1]
  rfl

lemma getElem?_takeRun {held : UInt32 → Option (Numbered α)} {m : UInt32} {n i : ℕ}
    (hi : i < (takeRun held m n).length) :
    held (m + UInt32.ofNat i) = (takeRun held m n)[i]? := by
  induction n generalizing m i with
  | zero => exact absurd hi (Nat.not_lt_zero i)
  | succ n ih =>
      rw [takeRun] at hi ⊢
      cases hm : held m with
      | none =>
          rw [hm] at hi
          exact absurd hi (Nat.not_lt_zero i)
      | some p =>
          rw [hm] at hi
          cases i with
          | zero => exact (congrArg held (UInt32.add_zero m)).trans hm
          | succ i =>
              rw [add_ofNat_succ]
              exact ih (Nat.lt_of_succ_lt_succ hi)

lemma takeRun_maximal (held : UInt32 → Option (Numbered α)) (m : UInt32) (n : ℕ) :
    (takeRun held m n).length = n
      ∨ held (m + UInt32.ofNat (takeRun held m n).length) = none := by
  induction n generalizing m with
  | zero => exact Or.inl rfl
  | succ n ih =>
      rw [takeRun]
      cases hm : held m with
      | none => exact Or.inr ((congrArg held (UInt32.add_zero m)).trans hm)
      | some p =>
          refine (ih (m + 1)).imp (congrArg Nat.succ) fun hend => ?_
          rw [List.length_cons, add_ofNat_succ]
          exact hend

/-- A buffer as a minimum and what is held under each number. -/
def windowBuffer (α : Type*) (window : ℕ) :
    ReorderBuffer (Option UInt32 × (UInt32 → Option (Numbered α))) α where
  create := (none, fun _ => none)
  insert r p :=
    match r.1 with
    | none => (true, some p.seqn, fun q => if q = p.seqn then some p else r.2 q)
    | some m =>
        if (p.seqn - m).toNat < window then
          (true, some m, fun q => if q = p.seqn then some p else r.2 q)
        else (false, r)
  drain r n :=
    match r.1 with
    | none => ([], r)
    | some m =>
        let out := takeRun r.2 m n
        (out, some (m + UInt32.ofNat out.length),
          fun q => if (q - m).toNat < out.length then none else r.2 q)
  min r := r.1
  held r := r.2

lemma windowBuffer_lawful (α : Type*) (window : ℕ) : (windowBuffer α window).Lawful window where
  min_create := rfl
  held_create _ := rfl
  insert_first := by
    rintro ⟨_, held⟩ p rfl
    exact ⟨rfl, rfl, fun _ => rfl⟩
  insert_window := by
    rintro ⟨_, held⟩ p m rfl hdist _
    have hinsert : (windowBuffer α window).insert (some m, held) p
        = (true, some m, fun q => if q = p.seqn then some p else held q) := if_pos hdist
    constructor
    · rw [hinsert]
    · rw [hinsert]
      rfl
    · rw [hinsert]
      exact fun _ => rfl
  drain_spec := by
    rintro ⟨_, held⟩ n m - rfl
    exact ⟨takeRun held m n, rfl, length_takeRun_le held m n, fun i hi => getElem?_takeRun hi,
      takeRun_maximal held m n, rfl, fun _ => rfl⟩

end ReorderBuffer

end DpdkStarter
