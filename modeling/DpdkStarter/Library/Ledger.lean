import DpdkStarter.Library.Run

/-!
What becomes of the items a machine takes in.

Each event brings a batch of items. A step settles some of the batch, which the
machine then has in its books, and loses the rest; a lost item never comes back.
So the books of a run match its batches at every point exactly when no step loses
an item, whatever the machine does with them.

* `perm_regroup`, `perm_left_iff`: lists cut in two.
* `books_run`: the books after a run.
* `books_match_iff`: the books match the batches at every point of a run exactly
  when nothing is lost in it.
* `Offer`: items that are offered one at a time, of which those that pass are settled
  and the others lost.
-/

namespace DpdkStarter.Ledger

open scoped List

variable {α : Type*}

/-- Two lists cut in two each, the pieces regrouped. -/
lemma perm_regroup (a b c d : List α) : ((a ++ b) ++ (c ++ d)).Perm ((a ++ c) ++ (b ++ d)) := by
  rw [List.append_assoc, List.append_assoc]
  exact (List.perm_append_comm_assoc b c d).append_left a

/-- A list of which part is set aside is the other part exactly when that is all. -/
lemma perm_left_iff {l a b : List α} (h : l.Perm (a ++ b)) : l.Perm a ↔ b = [] := by
  constructor
  · intro hleft
    have hlen := (h.symm.trans hleft).length_eq
    rw [List.length_append] at hlen
    exact List.eq_nil_of_length_eq_zero (by omega)
  · intro hb
    rwa [hb, List.append_nil] at h

section Batches

variable {σ ι : Type*} {step : ι → σ → σ} {books : σ → List α} {batch settled lost : ι → List α}

/-- The batches of a run are what was settled and what was lost. -/
lemma perm_settled_lost (hsplit : ∀ i, (batch i).Perm (settled i ++ lost i)) (is : List ι) :
    (is.flatMap batch).Perm (is.flatMap settled ++ is.flatMap lost) := by
  induction is with
  | nil => exact List.Perm.refl _
  | cons i is ih =>
      calc batch i ++ is.flatMap batch
          ~ (settled i ++ lost i) ++ (is.flatMap settled ++ is.flatMap lost) := (hsplit i).append ih
        _ ~ (settled i ++ is.flatMap settled) ++ (lost i ++ is.flatMap lost) :=
            perm_regroup _ _ _ _

/-- The books after a run have what its steps settled. -/
lemma books_run (hstep : ∀ i s, (books (step i s)).Perm (books s ++ settled i)) (is : List ι)
    (s : σ) : (books (Machine.run step is s)).Perm (books s ++ is.flatMap settled) := by
  induction is generalizing s with
  | nil => simp
  | cons i is ih =>
      calc books (Machine.run step is (step i s))
          ~ books (step i s) ++ is.flatMap settled := ih (step i s)
        _ ~ (books s ++ settled i) ++ is.flatMap settled := (hstep i s).append_right _
        _ = books s ++ (i :: is).flatMap settled := by rw [List.flatMap_cons, List.append_assoc]

/-- **The books match the batches** at every point of a run exactly when no step
of it loses an item. -/
theorem books_match_iff (hsplit : ∀ i, (batch i).Perm (settled i ++ lost i))
    (hstep : ∀ i s, (books (step i s)).Perm (books s ++ settled i)) {s : σ} (hs : books s = [])
    (is : List ι) :
    (∀ pre, pre <+: is → (pre.flatMap batch).Perm (books (Machine.run step pre s)))
      ↔ ∀ i ∈ is, lost i = [] := by
  have hbooks : ∀ pre, (books (Machine.run step pre s)).Perm (pre.flatMap settled) := by
    intro pre
    simpa [hs] using books_run hstep pre s
  have hmatch : ∀ pre : List ι, (pre.flatMap batch).Perm (books (Machine.run step pre s))
      ↔ pre.flatMap lost = [] := by
    intro pre
    rw [(hbooks pre).congr_right]
    exact perm_left_iff (perm_settled_lost hsplit pre)
  simp only [hmatch, List.flatMap_eq_nil_iff]
  constructor
  · exact fun h => h is (List.prefix_refl is)
  · rintro h pre ⟨post, rfl⟩ i hi
    exact h i (List.mem_append_left _ hi)

end Batches

/-! ### Items offered one at a time -/

/-- An item, and whether it is accepted when it is offered. -/
structure Offer (α : Type*) where
  item : α
  accepted : Bool

namespace Offer

variable (Passes : Offer α → Prop) [DecidablePred Passes]

/-- What an offer adds to the books. -/
def settled (o : Offer α) : List α := if Passes o then [o.item] else []

/-- What is lost of it. -/
def lost (o : Offer α) : List α := if Passes o then [] else [o.item]

variable {Passes}

lemma lost_eq_nil {o : Offer α} : o.lost Passes = [] ↔ Passes o := by simp [lost]

lemma perm_settled_lost (o : Offer α) : [o.item].Perm (o.settled Passes ++ o.lost Passes) := by
  by_cases ho : Passes o <;> simp [settled, lost, ho]

end Offer

end DpdkStarter.Ledger
