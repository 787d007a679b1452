import Mathlib.Data.List.AList
import Mathlib.Tactic

/-!
Tables by exact key that may refuse a new key.

The operations are a parameter, with the laws a program may rely on: a key that
is present is always overwritten, one that is absent is added or refused, and a
refusal changes nothing. A table filled by a sequence of writes then holds for
each of its keys the last value written, and lacks only keys whose every write
was refused.

* `KeyedTable`, `Lawful`: the operations and their laws.
* `lookup_fill`, `refused_of_lookup_fill`: what a filled table holds and lacks.
* `RefusesForRoom`: new keys are refused for want of room only, and then
  `card_of_refused_fill`: more keys were written than there is room for.
* `bounded`: a lawful table, which refuses new keys when it is full.
-/

namespace DpdkStarter

/-- The operations of a table; `add` also says whether it stored the value. -/
structure KeyedTable (T K V : Type*) where
  empty : T
  add : T → K → V → Bool × T
  lookup : T → K → Option V

namespace KeyedTable

variable {T K V : Type*}

/-- What a program may rely on. -/
structure Lawful (tab : KeyedTable T K V) : Prop where
  lookup_empty : ∀ k, tab.lookup tab.empty k = none
  lookup_accepted : ∀ t k v, (tab.add t k v).1 = true → tab.lookup (tab.add t k v).2 k = some v
  lookup_refused : ∀ t k v, (tab.add t k v).1 = false →
    ∀ k', tab.lookup (tab.add t k v).2 k' = tab.lookup t k'
  lookup_other : ∀ t k v k', k' ≠ k → tab.lookup (tab.add t k v).2 k' = tab.lookup t k'
  accepts_present : ∀ t k v, tab.lookup t k ≠ none → (tab.add t k v).1 = true

/-- The table after a sequence of writes. -/
def fill (tab : KeyedTable T K V) (ws : List (K × V)) : T :=
  ws.foldl (fun t w => (tab.add t w.1 w.2).2) tab.empty

lemma fill_concat (tab : KeyedTable T K V) (ws : List (K × V)) (w : K × V) :
    tab.fill (ws ++ [w]) = (tab.add (tab.fill ws) w.1 w.2).2 := by
  simp [fill]

/-- The last value written under a key. -/
def lastValue [DecidableEq K] (k : K) (ws : List (K × V)) : Option V :=
  (ws.reverse.find? (·.1 = k)).map Prod.snd

lemma lastValue_concat [DecidableEq K] (k : K) (ws : List (K × V)) (w : K × V) :
    lastValue k (ws ++ [w]) = if w.1 = k then some w.2 else lastValue k ws := by
  by_cases h : w.1 = k
  · simp [lastValue, h]
  · simp [lastValue, h]

variable {tab : KeyedTable T K V}

/-- A write that leaves its key absent was refused. -/
lemma Lawful.refused_of_lookup (law : tab.Lawful) {t : T} {k : K} {v : V}
    (h : tab.lookup (tab.add t k v).2 k = none) : (tab.add t k v).1 = false := by
  by_contra haccepted
  rw [law.lookup_accepted t k v (by simpa using haccepted)] at h
  simp at h

/-- A write leaves under its key the value written, or nothing. -/
lemma Lawful.lookup_add_self (law : tab.Lawful) {t : T} {k : K} {v v' : V}
    (h : tab.lookup (tab.add t k v).2 k = some v') : v' = v := by
  cases hacc : (tab.add t k v).1 with
  | true =>
      rw [law.lookup_accepted t k v hacc] at h
      exact (Option.some.inj h).symm
  | false =>
      -- a refusal would mean the key was there before, and then it is accepted
      rw [law.lookup_refused t k v hacc] at h
      have hpresent := law.accepts_present t k v (by simp [h])
      rw [hacc] at hpresent
      simp at hpresent

/-- **A filled table holds last values.** -/
theorem lookup_fill [DecidableEq K] (law : tab.Lawful) {ws : List (K × V)} {k : K} {v : V}
    (h : tab.lookup (tab.fill ws) k = some v) : lastValue k ws = some v := by
  induction ws using List.reverseRecOn with
  | nil =>
      rw [show tab.fill [] = tab.empty from rfl, law.lookup_empty] at h
      simp at h
  | append_singleton ws w ih =>
      rw [fill_concat] at h
      rw [lastValue_concat]
      split
      · rename_i hk
        subst hk
        rw [law.lookup_add_self h]
      · rename_i hk
        rw [law.lookup_other _ _ _ _ (Ne.symm hk)] at h
        exact ih h

/-- A key absent after a write was absent before it. -/
lemma Lawful.lookup_before (law : tab.Lawful) {t : T} {k k' : K} {v : V}
    (h : tab.lookup (tab.add t k v).2 k' = none) : tab.lookup t k' = none := by
  by_cases hk : k' = k
  · subst hk
    rwa [law.lookup_refused t k' v (law.refused_of_lookup h)] at h
  · rwa [law.lookup_other t k v k' hk] at h

/-- **A filled table lacks only what it refused**: each write under an absent key
was refused when it was made. -/
theorem refused_of_lookup_fill (law : tab.Lawful) {ws : List (K × V)} {k : K}
    (h : tab.lookup (tab.fill ws) k = none) {pre post : List (K × V)} {v : V}
    (hws : ws = pre ++ (k, v) :: post) : (tab.add (tab.fill pre) k v).1 = false := by
  induction post using List.reverseRecOn generalizing ws with
  | nil =>
      rw [hws, fill_concat] at h
      exact law.refused_of_lookup h
  | append_singleton post w ih =>
      rw [hws, ← List.cons_append, ← List.append_assoc, fill_concat] at h
      exact ih (law.lookup_before h) rfl

/-! ### Room -/

/-- A table with room for `cap` keys that refuses for want of room only: a refused key is not
there, and `cap` others are. -/
def RefusesForRoom (tab : KeyedTable T K V) (cap : ℕ) : Prop :=
  ∀ t k v, (tab.add t k v).1 = false →
    tab.lookup t k = none ∧
      ∃ held : Finset K, cap ≤ held.card ∧ ∀ k' ∈ held, tab.lookup t k' ≠ none

/-- Only keys that were written are there. -/
lemma mem_of_lookup_fill [DecidableEq K] (law : tab.Lawful) {ws : List (K × V)} {k : K}
    (h : tab.lookup (tab.fill ws) k ≠ none) : k ∈ ws.map Prod.fst := by
  obtain ⟨v, hv⟩ := Option.ne_none_iff_exists'.mp h
  obtain ⟨w, hw, -⟩ := Option.map_eq_some_iff.mp (lookup_fill law hv)
  have hkey : w.1 = k := by simpa using List.find?_some hw
  rw [← hkey]
  exact List.mem_map_of_mem (List.mem_reverse.mp (List.mem_of_find?_eq_some hw))

/-- **A refusal for want of room** counts: with the refused key, more keys were written than
the table has room for. -/
theorem card_of_refused_fill [DecidableEq K] (law : tab.Lawful) {cap : ℕ}
    (hroom : tab.RefusesForRoom cap) {ws : List (K × V)} {k : K} {v : V}
    (h : (tab.add (tab.fill ws) k v).1 = false) :
    cap < (insert k (ws.map Prod.fst).toFinset).card := by
  obtain ⟨hnew, held, hcap, hheld⟩ := hroom _ k v h
  have hnotMem : k ∉ held := fun hk => hheld k hk hnew
  have hsub : insert k held ⊆ insert k (ws.map Prod.fst).toFinset :=
    Finset.insert_subset_insert k fun k' hk' =>
      List.mem_toFinset.mpr (mem_of_lookup_fill law (hheld k' hk'))
  calc cap < held.card + 1 := Nat.lt_succ_of_le hcap
    _ = (insert k held).card := (Finset.card_insert_of_notMem hnotMem).symm
    _ ≤ (insert k (ws.map Prod.fst).toFinset).card := Finset.card_le_card hsub

/-! ### A bounded table -/

/-- A table of at most `cap` keys. -/
def bounded (K V : Type*) [DecidableEq K] (cap : ℕ) : KeyedTable (AList fun _ : K => V) K V where
  empty := ∅
  add t k v := if k ∈ t ∨ t.entries.length < cap then (true, t.insert k v) else (false, t)
  lookup t k := t.lookup k

lemma bounded_lawful (K V : Type*) [DecidableEq K] (cap : ℕ) : (bounded K V cap).Lawful where
  lookup_empty k := by simp [bounded]
  lookup_accepted t k v h := by
    by_cases hroom : k ∈ t ∨ t.entries.length < cap
    · simp [bounded, hroom]
    · simp [bounded, hroom] at h
  lookup_refused t k v h k' := by
    by_cases hroom : k ∈ t ∨ t.entries.length < cap
    · simp [bounded, hroom] at h
    · simp [bounded, hroom]
  lookup_other t k v k' hk := by
    by_cases hroom : k ∈ t ∨ t.entries.length < cap
    · simp [bounded, hroom, AList.lookup_insert_ne hk]
    · simp [bounded, hroom]
  accepts_present t k v h := by
    have hmem : k ∈ t := AList.lookup_isSome.mp (Option.isSome_iff_ne_none.mpr h)
    simp [bounded, hmem]

lemma bounded_refusesForRoom (K V : Type*) [DecidableEq K] (cap : ℕ) :
    (bounded K V cap).RefusesForRoom cap := by
  intro t k v h
  have hfull : ¬(k ∈ t ∨ t.entries.length < cap) := by
    intro hroom
    simp [bounded, hroom] at h
  rw [not_or, not_lt] at hfull
  refine ⟨AList.lookup_eq_none.mpr hfull.1, t.keys.toFinset, ?_, fun k' hk' => ?_⟩
  · rw [List.toFinset_card_of_nodup (AList.keys_nodup t), AList.keys, List.keys, List.length_map]
    exact hfull.2
  · have hmem : k' ∈ t := List.mem_toFinset.mp hk'
    exact Option.isSome_iff_ne_none.mp (AList.lookup_isSome.mpr hmem)

end KeyedTable

end DpdkStarter
