import Mathlib.Tactic

/-!
Tables of address blocks, and the most specific block of an address.

An address is a number of `w` bits. A block is given by one of its addresses and the
number of leading bits all of them share, so that the same block has many names. A table
keeps one value for each block; the answer for an address is the value of the deepest block
that covers it.

* `Block.Covers`, `Block.Same`: membership, and two names of one block.
* `IsBest`, `IsBest.unique`: the deepest rule for an address; in a table that names no block
  twice there is one at most.
* `add`, `distinct_add`, `mem_addAll`: adding a rule replaces the one for the same block.
* `best`, `best_eq_some_iff`, `best_eq_none_iff`: the search is right and complete.
* `best_addAll_perm`: the order in which distinct blocks were added makes no difference.
-/

namespace DpdkStarter.AddressBlocks

/-- All addresses of `w` bits that share their first `depth` bits with `addr`. -/
structure Block (w : ℕ) where
  addr : ℕ
  depth : ℕ
  depth_le : depth ≤ w
deriving DecidableEq

variable {w : ℕ} {α : Type*}

/-- The address is in the block. -/
def Block.Covers (b : Block w) (a : ℕ) : Prop :=
  a / 2 ^ (w - b.depth) = b.addr / 2 ^ (w - b.depth)

instance (b : Block w) (a : ℕ) : Decidable (b.Covers a) := inferInstanceAs (Decidable (_ = _))

/-- Two names of one block. -/
def Block.Same (b c : Block w) : Prop := b.depth = c.depth ∧ b.Covers c.addr

instance (b c : Block w) : Decidable (b.Same c) := inferInstanceAs (Decidable (_ ∧ _))

lemma Block.Same.symm {b c : Block w} (h : b.Same c) : c.Same b := by
  obtain ⟨hdepth, hcovers⟩ := h
  refine ⟨hdepth.symm, ?_⟩
  rw [Covers] at hcovers ⊢
  rw [← hdepth]
  exact hcovers.symm

/-- Two blocks of one depth with an address in common are the same. -/
lemma Block.same_of_covers {b c : Block w} {a : ℕ} (hb : b.Covers a) (hc : c.Covers a)
    (hdepth : b.depth = c.depth) : b.Same c := by
  refine ⟨hdepth, ?_⟩
  rw [Covers] at hb hc ⊢
  rw [← hdepth] at hc
  exact hc.symm.trans hb

/-! ### The deepest rule -/

/-- The rule is in the table, covers the address, and none that does is deeper. -/
structure IsBest (table : List (Block w × α)) (a : ℕ) (r : Block w × α) : Prop where
  mem : r ∈ table
  covers : r.1.Covers a
  deepest : ∀ s ∈ table, s.1.Covers a → s.1.depth ≤ r.1.depth

/-- No block is named twice. -/
def Distinct (table : List (Block w × α)) : Prop :=
  table.Pairwise fun r s => ¬r.1.Same s.1

lemma Distinct.eq_of_same {table : List (Block w × α)} (h : Distinct table) {r s : Block w × α}
    (hr : r ∈ table) (hs : s ∈ table) (hsame : r.1.Same s.1) : r = s := by
  by_contra hne
  have hsymm : Std.Symm fun x y : Block w × α => ¬x.1.Same y.1 :=
    ⟨fun _ _ hxy hyx => hxy hyx.symm⟩
  exact List.Pairwise.forall h hr hs hne hsame

/-- **The deepest rule is unique**. -/
lemma IsBest.unique {table : List (Block w × α)} (hdistinct : Distinct table) {a : ℕ}
    {r s : Block w × α} (hr : IsBest table a r) (hs : IsBest table a s) : r = s := by
  have hdepth : r.1.depth = s.1.depth :=
    Nat.le_antisymm (hs.deepest r hr.mem hr.covers) (hr.deepest s hs.mem hs.covers)
  exact hdistinct.eq_of_same hr.mem hs.mem (Block.same_of_covers hr.covers hs.covers hdepth)

/-! ### Adding a rule -/

/-- The table with a rule for the block, in place of the one there was. -/
def add (table : List (Block w × α)) (r : Block w × α) : List (Block w × α) :=
  r :: table.filter fun s => ¬r.1.Same s.1

/-- A rule for a block of which there is none yet is added to the others. -/
lemma add_of_new {table : List (Block w × α)} {r : Block w × α} (h : ∀ s ∈ table, ¬r.1.Same s.1) :
    add table r = r :: table := by
  rw [add, List.filter_eq_self.mpr fun s hs => decide_eq_true (h s hs)]

lemma distinct_add {table : List (Block w × α)} (h : Distinct table) (r : Block w × α) :
    Distinct (add table r) := by
  refine List.pairwise_cons.mpr ⟨?_, h.filter _⟩
  intro s hs
  simpa using (List.mem_filter.mp hs).2

/-- The table after a sequence of additions. -/
def addAll (rules : List (Block w × α)) : List (Block w × α) := rules.foldl add []

lemma distinct_addAll (rules : List (Block w × α)) : Distinct (addAll rules) := by
  have hfold : ∀ (rules : List (Block w × α)) table, Distinct table →
      Distinct (rules.foldl add table) := by
    intro rules
    induction rules with
    | nil => exact fun _ h => h
    | cons r rules ih => exact fun table h => ih _ (distinct_add h r)
  exact hfold rules [] List.Pairwise.nil

lemma Distinct.perm {table table' : List (Block w × α)} (h : Distinct table)
    (hperm : table.Perm table') : Distinct table' :=
  List.Pairwise.perm h hperm fun hrs hsr => hrs hsr.symm

/-- Rules for distinct blocks are all in the table. -/
lemma mem_addAll {rules : List (Block w × α)} (h : Distinct rules) {r : Block w × α} :
    r ∈ addAll rules ↔ r ∈ rules := by
  have hfold : ∀ (rules table : List (Block w × α)), Distinct (table ++ rules) →
      (r ∈ rules.foldl add table ↔ r ∈ table ++ rules) := by
    intro rules
    induction rules with
    | nil => intro table _; simp
    | cons s rules ih =>
        intro table hdistinct
        have hmiddle : (table ++ s :: rules).Perm (s :: table ++ rules) := List.perm_middle
        have hfront := hdistinct.perm hmiddle
        have hnew : ∀ x ∈ table, ¬s.1.Same x.1 := fun x hx =>
          (List.pairwise_cons.mp hfront).1 x (List.mem_append_left _ hx)
        rw [List.foldl_cons, add_of_new hnew, ih _ hfront]
        exact hmiddle.mem_iff.symm
  exact hfold rules [] h

/-! ### The search -/

/-- The deepest rule that covers the address. -/
def best : List (Block w × α) → ℕ → Option (Block w × α)
  | [], _ => none
  | r :: table, a =>
      match best table a with
      | none => if r.1.Covers a then some r else none
      | some s => if r.1.Covers a ∧ s.1.depth ≤ r.1.depth then some r else some s

/-- Nothing is found exactly when no block covers the address. -/
lemma best_eq_none_iff {table : List (Block w × α)} {a : ℕ} :
    best table a = none ↔ ∀ r ∈ table, ¬r.1.Covers a := by
  induction table with
  | nil => simp [best]
  | cons r table ih =>
      rw [best]
      cases hbest : best table a with
      | none =>
          rw [hbest] at ih
          have hnone := ih.mp rfl
          by_cases hr : r.1.Covers a
          · simp [hr]
          · simpa [hr] using hnone
      | some s =>
          rw [hbest] at ih
          have hsome : ¬∀ r ∈ table, ¬r.1.Covers a := fun h => by simpa using ih.mpr h
          by_cases hr : r.1.Covers a ∧ s.1.depth ≤ r.1.depth
          · simp [hr]
          · simp only [hr, if_false, reduceCtorEq, false_iff]
            exact fun h => hsome fun x hx => h x (List.mem_cons_of_mem r hx)

/-- **What is found is the deepest rule.** -/
lemma isBest_of_best {table : List (Block w × α)} {a : ℕ} {r : Block w × α}
    (h : best table a = some r) : IsBest table a r := by
  induction table generalizing r with
  | nil => simp [best] at h
  | cons s table ih =>
      rw [best] at h
      cases hbest : best table a with
      | none =>
          have hnone := best_eq_none_iff.mp hbest
          rw [hbest] at h
          simp only at h
          split at h
          · rename_i hs
            obtain rfl := Option.some.inj h
            refine ⟨List.mem_cons_self, hs, ?_⟩
            intro x hx hcovers
            rcases List.mem_cons.mp hx with rfl | hx
            · exact Nat.le_refl _
            · exact absurd hcovers (hnone x hx)
          · cases h
      | some t =>
          have ht := ih hbest
          rw [hbest] at h
          simp only at h
          split at h
          · rename_i hs
            obtain rfl := Option.some.inj h
            refine ⟨List.mem_cons_self, hs.1, ?_⟩
            intro x hx hcovers
            rcases List.mem_cons.mp hx with rfl | hx
            · exact Nat.le_refl _
            · exact (ht.deepest x hx hcovers).trans hs.2
          · rename_i hs
            obtain rfl := Option.some.inj h
            refine ⟨List.mem_cons_of_mem _ ht.mem, ht.covers, ?_⟩
            intro x hx hcovers
            rcases List.mem_cons.mp hx with rfl | hx
            · exact (not_le.mp fun hle => hs ⟨hcovers, hle⟩).le
            · exact ht.deepest x hx hcovers

/-- **The search is right and complete** in a table that names no block twice. -/
theorem best_eq_some_iff {table : List (Block w × α)} (hdistinct : Distinct table) {a : ℕ}
    {r : Block w × α} : best table a = some r ↔ IsBest table a r := by
  refine ⟨isBest_of_best, fun h => ?_⟩
  cases hbest : best table a with
  | none => exact absurd h.covers (best_eq_none_iff.mp hbest r h.mem)
  | some s => rw [(isBest_of_best hbest).unique hdistinct h]

/-- **The order of additions makes no difference** when no block is added twice. -/
theorem best_addAll_perm {rules rules' : List (Block w × α)} (hdistinct : Distinct rules)
    (hperm : rules.Perm rules') (a : ℕ) : best (addAll rules) a = best (addAll rules') a := by
  have hdistinct' : Distinct rules' := hdistinct.perm hperm
  have hmem : ∀ r, r ∈ addAll rules ↔ r ∈ addAll rules' := fun r => by
    rw [mem_addAll hdistinct, mem_addAll hdistinct', hperm.mem_iff]
  cases hbest : best (addAll rules) a with
  | none =>
      refine (best_eq_none_iff.mpr fun r hr => ?_).symm
      exact best_eq_none_iff.mp hbest r ((hmem r).mpr hr)
  | some r =>
      have hr := isBest_of_best hbest
      refine ((best_eq_some_iff (distinct_addAll rules')).mpr
        ⟨(hmem r).mp hr.mem, hr.covers, ?_⟩).symm
      exact fun s hs => hr.deepest s ((hmem s).mpr hs)

end DpdkStarter.AddressBlocks
