import Mathlib.Tactic

/-!
Walks along a successor map and the relinking of a chain.

A linked structure is read as its successor map `next : α → Option α`. `walk`
follows the links from a point until there is none left; on a cycle it never
ends, so it carries fuel and answers `none` when the fuel is spent.

* `IsPath`: a list whose every entry links to the following one and whose last
  entry links nowhere, and `walk_of_isPath`: the walk from its first entry
  returns exactly that list; `next_getLast_of_walk`: where a walk can end.
* `relink`: the links written by threading a chain `a, b₁, …, bₙ, e` through
  the map one link at a time, and `isPath_relink`: if the chain has no
  repetition and `e` had no successor, then afterwards the chain is a path,
  whatever the map was before.
* `visit`: the point a walk meets at each step, also of a walk that never ends;
  `visit_of_walk`: of one that ends, `visit_of_isChain`: along a chain of links.
* `afterLast`, `follow`: the way through a list with repetitions that goes on
  behind the last occurrence of every entry; `isChain_follow`: the chain of links
  it makes.
-/

namespace DpdkStarter.Successor

variable {α : Type*}

/-! ### Walks -/

/-- Follow the links from `a`, listing the points met; `none` if the fuel does
not reach the end. -/
def walk (next : α → Option α) : ℕ → α → Option (List α)
  | 0, _ => none
  | k + 1, a =>
      match next a with
      | none => some [a]
      | some b => (walk next k b).map (a :: ·)

/-- A list each of whose entries links to the following one, the last one
linking nowhere. -/
def IsPath (next : α → Option α) : List α → Prop
  | [] => False
  | [a] => next a = none
  | a :: b :: l => next a = some b ∧ IsPath next (b :: l)

/-- The walk from the first entry of a path is the path, once the fuel exceeds
its length. -/
lemma walk_of_isPath {next : α → Option α} {a : α} {l : List α} (h : IsPath next (a :: l))
    {k : ℕ} (hk : l.length < k) : walk next k a = some (a :: l) := by
  induction l generalizing a k with
  | nil =>
      obtain ⟨k, rfl⟩ := Nat.exists_eq_add_of_lt hk
      have hend : next a = none := h
      simp [walk, hend]
  | cons b l ih =>
      obtain ⟨k, rfl⟩ := Nat.exists_eq_add_of_lt hk
      have hrest : walk next ((b :: l).length + k) b = some (b :: l) :=
        ih h.2 (by simp only [List.length_cons]; omega)
      simp only [List.length_cons] at hrest ⊢
      simp [walk, h.1, hrest]

/-- A walk that ends does so on a point without a successor. -/
lemma next_getLast_of_walk {next : α → Option α} {k : ℕ} {a : α} {l : List α}
    (h : walk next k a = some l) : ∃ z, l.getLast? = some z ∧ next z = none := by
  induction k generalizing a l with
  | zero => simp [walk] at h
  | succ k ih =>
      rw [walk] at h
      cases hnext : next a with
      | none =>
          rw [hnext] at h
          exact ⟨a, by rw [← Option.some.inj h]; rfl, hnext⟩
      | some b =>
          rw [hnext] at h
          obtain ⟨m, hm, rfl⟩ := Option.map_eq_some_iff.mp h
          obtain ⟨z, hlast, hz⟩ := ih hm
          exact ⟨z, by rw [List.getLast?_cons, hlast]; rfl, hz⟩

/-! ### The points of a walk -/

/-- The point a walk from `a` meets at a step, if it gets that far. -/
def visit (next : α → Option α) (a : α) : ℕ → Option α
  | 0 => some a
  | i + 1 => (next a).bind fun b => visit next b i

/-- A walk that ends lists the points it meets. -/
lemma visit_of_walk {next : α → Option α} {k : ℕ} {a : α} {l : List α}
    (h : walk next k a = some l) (i : ℕ) : visit next a i = l[i]? := by
  induction k generalizing a l i with
  | zero => simp [walk] at h
  | succ k ih =>
      rw [walk] at h
      cases hnext : next a with
      | none =>
          rw [hnext] at h
          rw [← Option.some.inj h]
          cases i with
          | zero => rfl
          | succ i => simp [visit, hnext]
      | some b =>
          rw [hnext] at h
          obtain ⟨m, hm, rfl⟩ := Option.map_eq_some_iff.mp h
          cases i with
          | zero => rfl
          | succ i => rw [visit, hnext, Option.bind_some, ih hm, List.getElem?_cons_succ]

/-- Two maps with the same links at the points of a walk have that walk in
common. -/
lemma visit_congr {next next' : α → Option α} {a : α}
    (h : ∀ i x, visit next a i = some x → next' x = next x) (i : ℕ) :
    visit next' a i = visit next a i := by
  induction i generalizing a with
  | zero => rfl
  | succ i ih =>
      rw [visit, visit, h 0 a rfl]
      cases hnext : next a with
      | none => rfl
      | some b =>
          refine ih fun j x hx => h (j + 1) x ?_
          rw [visit, hnext, Option.bind_some, hx]

/-- Along a chain of links the walk is the chain, and goes on from its end. -/
lemma visit_of_isChain {next : α → Option α} {a z : α} {l : List α}
    (h : List.IsChain (fun x y => next x = some y) (a :: (l ++ [z]))) :
    (∀ i, i ≤ l.length → visit next a i = (a :: l)[i]?) ∧
      ∀ j, visit next a (l.length + 1 + j) = visit next z j := by
  induction l generalizing a with
  | nil =>
      have hlink : next a = some z := (List.isChain_cons_cons.mp h).1
      refine ⟨fun i hi => ?_, fun j => ?_⟩
      · rw [Nat.le_zero.mp hi]
        rfl
      · rw [List.length_nil, Nat.zero_add, Nat.add_comm, visit, hlink, Option.bind_some]
  | cons b l ih =>
      obtain ⟨hlink, hrest⟩ := List.isChain_cons_cons.mp h
      obtain ⟨hleft, hright⟩ := ih hrest
      refine ⟨fun i hi => ?_, fun j => ?_⟩
      · cases i with
        | zero => rfl
        | succ i =>
            rw [List.length_cons] at hi
            rw [visit, hlink, Option.bind_some, hleft i (by omega), List.getElem?_cons_succ]
      · rw [List.length_cons, Nat.add_right_comm, visit, hlink, Option.bind_some, hright]

/-! ### Relinking a chain -/

variable [DecidableEq α]

/-- Thread the chain `a, b₁, …, bₙ, e` through a successor map. -/
def relink (next : α → Option α) : α → List α → α → α → Option α
  | a, [], e => Function.update next a (some e)
  | a, b :: bs, e => relink (Function.update next a (some b)) b bs e

/-- Off the chain nothing is written. -/
lemma relink_of_notMem {next : α → Option α} {a e x : α} {bs : List α} (hx : x ∉ a :: bs) :
    relink next a bs e x = next x := by
  induction bs generalizing next a with
  | nil =>
      rw [relink, Function.update_of_ne (by simpa using hx)]
  | cons b bs ih =>
      rw [relink, ih (by simp_all), Function.update_of_ne (by simp_all)]

/-- **The chain after relinking**: without repetitions, and with an end that
linked nowhere, the threaded chain is a path. Nothing is asked of the links the
chain had before. -/
theorem isPath_relink {next : α → Option α} {a e : α} {bs : List α}
    (hnodup : (a :: bs).Nodup) (he : e ∉ a :: bs) (hend : next e = none) :
    IsPath (relink next a bs e) (a :: (bs ++ [e])) := by
  induction bs generalizing next a with
  | nil =>
      refine ⟨by simp [relink], ?_⟩
      have hne : e ≠ a := by simpa using he
      show relink next a [] e e = none
      rw [relink, Function.update_of_ne hne, hend]
  | cons b bs ih =>
      have ha : a ∉ b :: bs := (List.nodup_cons.mp hnodup).1
      refine ⟨?_, ?_⟩
      · -- the later links leave the one just written alone
        rw [relink, relink_of_notMem ha, Function.update_self]
      · have hne : e ≠ a := fun h => he (by simp [h])
        exact ih (List.nodup_cons.mp hnodup).2 (fun h => he (List.mem_cons_of_mem a h))
          (by rw [Function.update_of_ne hne, hend])

/-! ### Chains with repetitions -/

/-- The part of a list behind the last occurrence of `x`; the list, when there is
none. -/
def afterLast (x : α) : List α → List α
  | [] => []
  | b :: bs => if x ∈ b :: bs then afterLast x bs else b :: bs

lemma afterLast_of_notMem {x : α} {l : List α} (h : x ∉ l) : afterLast x l = l := by
  cases l with
  | nil => rfl
  | cons b bs => rw [afterLast, if_neg h]

/-- What comes before an occurrence does not matter. -/
lemma afterLast_append {x : α} {l : List α} (h : x ∈ l) (l' : List α) :
    afterLast x (l' ++ l) = afterLast x l := by
  induction l' with
  | nil => rfl
  | cons b bs ih =>
      have hmem : x ∈ b :: (bs ++ l) := List.mem_cons_of_mem b (List.mem_append_right bs h)
      rw [List.cons_append, afterLast, if_pos hmem, ih]

lemma afterLast_cons_self (x : α) (l : List α) : afterLast x (x :: l) = afterLast x l := by
  rw [afterLast, if_pos List.mem_cons_self]

lemma afterLast_suffix (x : α) (l : List α) : afterLast x l <:+ l := by
  induction l with
  | nil => exact List.suffix_refl []
  | cons b bs ih =>
      rw [afterLast]
      split
      · exact ih.trans (List.suffix_cons b bs)
      · exact List.suffix_refl _

lemma notMem_afterLast (x : α) (l : List α) : x ∉ afterLast x l := by
  induction l with
  | nil => exact List.not_mem_nil
  | cons b bs ih =>
      rw [afterLast]
      split
      · exact ih
      · assumption

/-- The entries met on the way through a list that goes on behind the last
occurrence of each. -/
def follow : List α → List α
  | [] => []
  | b :: bs => b :: follow (afterLast b bs)
termination_by l => l.length
decreasing_by exact Nat.lt_succ_of_le (afterLast_suffix b bs).length_le

lemma mem_of_mem_follow {x : α} {l : List α} (h : x ∈ follow l) : x ∈ l := by
  induction l using follow.induct with
  | case1 =>
      rw [follow] at h
      exact h
  | case2 b bs ih =>
      rw [follow, List.mem_cons] at h
      rcases h with rfl | hrest
      · exact List.mem_cons_self
      · exact List.mem_cons_of_mem b ((afterLast_suffix b bs).subset (ih hrest))

lemma nodup_follow (l : List α) : (follow l).Nodup := by
  induction l using follow.induct with
  | case1 =>
      rw [follow]
      exact List.nodup_nil
  | case2 b bs ih =>
      rw [follow, List.nodup_cons]
      exact ⟨fun h => notMem_afterLast b bs (mem_of_mem_follow h), ih⟩

/-- **The chain through a list with repetitions**: when every entry that is met
links to what comes behind its last occurrence, the links make the chain of
`follow`. -/
lemma isChain_follow {next : α → Option α} {e a : α} {l m : List α} (hm : m <:+ l)
    (ha : next a = (m ++ [e]).head?)
    (hnext : ∀ x ∈ follow m, next x = (afterLast x l ++ [e]).head?) :
    List.IsChain (fun x y => next x = some y) (a :: (follow m ++ [e])) := by
  induction m using follow.induct generalizing a with
  | case1 =>
      rw [follow]
      exact List.isChain_cons_cons.mpr ⟨ha, List.isChain_singleton e⟩
  | case2 b bs ih =>
      obtain ⟨pre, rfl⟩ := hm
      have hafter : afterLast b (pre ++ b :: bs) = afterLast b bs := by
        rw [afterLast_append List.mem_cons_self, afterLast_cons_self]
      rw [follow] at hnext ⊢
      refine List.isChain_cons_cons.mpr ⟨ha, ih ?_ ?_ ?_⟩
      · exact ((afterLast_suffix b bs).trans (List.suffix_cons b bs)).trans
          (List.suffix_append pre _)
      · rw [hnext b List.mem_cons_self, hafter]
      · exact fun x hx => hnext x (List.mem_cons_of_mem b hx)

end DpdkStarter.Successor
