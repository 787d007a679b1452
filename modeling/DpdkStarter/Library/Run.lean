import Mathlib.Tactic

/-!
Runs of a state machine whose every step is driven by an event.

A machine is a function `step : ι → σ → σ`: the event `i` carries whatever the
environment decides (which thread moves, what the device answers), so a list
of events is one run, and "every interleaving" is "every list of events".

* `run`: the state after a list of events, `run_append` its composition law.
* `run_invariant`: the invariant rule.
* `StepsMeet`: the steps of a run all satisfy a condition on the event and the
  state it finds, and `run_invariant_of_stepsMeet`, the invariant rule relative
  to such a condition.
* `good_iff_stepsMeet`: when every step outside the condition makes some late
  step bad, good runs are those that meet the condition.
* `stepsMeet_of_final`: when every step outside the condition puts the machine
  into a bad state that no step leaves, a run that ends well met the condition
  at every step.
-/

namespace DpdkStarter.Machine

variable {σ ι κ : Type*} (step : ι → σ → σ)

/-- The state a run ends in. -/
def run (is : List ι) (s : σ) : σ := is.foldl (fun s i => step i s) s

@[simp] lemma run_nil (s : σ) : run step [] s = s := rfl

@[simp] lemma run_cons (i : ι) (is : List ι) (s : σ) :
    run step (i :: is) s = run step is (step i s) := rfl

/-- Runs compose. -/
lemma run_append (is js : List ι) (s : σ) :
    run step (is ++ js) s = run step js (run step is s) := by
  simp [run, List.foldl_append]

/-- The last step of a run, split off. -/
lemma run_concat (is : List ι) (i : ι) (s : σ) :
    run step (is ++ [i]) s = step i (run step is s) := by
  rw [run_append, run_cons, run_nil]

/-- **The invariant rule**: what holds at the start and survives every step
holds at the end of every run. -/
theorem run_invariant {P : σ → Prop} (hstep : ∀ i s, P s → P (step i s)) {s : σ} (h : P s)
    (is : List ι) : P (run step is s) := by
  induction is generalizing s with
  | nil => exact h
  | cons i is ih => exact ih (hstep i s h)

/-! ### Runs whose steps meet a condition -/

/-- Every step of the run meets the condition `c`, read off the event and the
state the step finds. -/
def StepsMeet (c : ι → σ → Prop) : List ι → σ → Prop
  | [], _ => True
  | i :: is, s => c i s ∧ StepsMeet c is (step i s)

instance decidableStepsMeet (c : ι → σ → Prop) [∀ i s, Decidable (c i s)] :
    ∀ is s, Decidable (StepsMeet step c is s)
  | [], _ => inferInstanceAs (Decidable True)
  | i :: is, s =>
      have := decidableStepsMeet c is (step i s)
      inferInstanceAs (Decidable (_ ∧ _))

variable {step} {c : ι → σ → Prop}

/-- A condition met along a run is met along each of its two parts. -/
lemma stepsMeet_append {is js : List ι} {s : σ} :
    StepsMeet step c (is ++ js) s
      ↔ StepsMeet step c is s ∧ StepsMeet step c js (run step is s) := by
  induction is generalizing s with
  | nil => simp [StepsMeet]
  | cons i is ih => simp [StepsMeet, ih, and_assoc]

/-- A run meets the condition when each of its steps does, in the state it finds. -/
lemma stepsMeet_iff_prefix {is : List ι} {s : σ} :
    StepsMeet step c is s ↔ ∀ pre i, pre ++ [i] <+: is → c i (run step pre s) := by
  constructor
  · rintro hmeet pre i ⟨post, rfl⟩
    rw [List.append_assoc] at hmeet
    exact (stepsMeet_append.mp hmeet).2.1
  · intro h
    induction is generalizing s with
    | nil => trivial
    | cons i is ih =>
        refine ⟨h [] i ⟨is, rfl⟩, ih fun pre j hpre => ?_⟩
        exact h (i :: pre) j ((List.prefix_cons_inj i).mpr hpre)

/-- Two conditions that agree wherever a third one holds are met by the same runs
among those that meet the third. -/
lemma stepsMeet_congr {d e : ι → σ → Prop} (h : ∀ i s, c i s → (d i s ↔ e i s)) {is : List ι}
    {s : σ} (hc : StepsMeet step c is s) : StepsMeet step d is s ↔ StepsMeet step e is s := by
  induction is generalizing s with
  | nil => exact Iff.rfl
  | cons i is ih => exact and_congr (h i s hc.1) (ih hc.2)

/-- Two conditions that agree wherever an invariant holds are met by the same runs from
where it does. -/
lemma stepsMeet_congr_of_invariant {P : σ → Prop} {d e : ι → σ → Prop}
    (hstep : ∀ i s, P s → P (step i s)) (h : ∀ i s, P s → (d i s ↔ e i s)) {is : List ι} {s : σ}
    (hP : P s) : StepsMeet step d is s ↔ StepsMeet step e is s := by
  induction is generalizing s with
  | nil => exact Iff.rfl
  | cons i is ih => exact and_congr (h i s hP) (ih (hstep i s hP))

/-- Two conditions are met together when each is. -/
lemma stepsMeet_and {d : ι → σ → Prop} {is : List ι} {s : σ} :
    StepsMeet step (fun i s => c i s ∧ d i s) is s
      ↔ StepsMeet step c is s ∧ StepsMeet step d is s := by
  induction is generalizing s with
  | nil => simp [StepsMeet]
  | cons i is ih => simp only [StepsMeet, ih, and_and_and_comm]

/-- A condition that another one implies is met where that one is. -/
lemma stepsMeet_mono {d : ι → σ → Prop} (h : ∀ i s, c i s → d i s) {is : List ι} {s : σ}
    (hc : StepsMeet step c is s) : StepsMeet step d is s := by
  induction is generalizing s with
  | nil => trivial
  | cons i is ih => exact ⟨h i s hc.1, ih hc.2⟩

/-- **The invariant rule under a condition**: what holds at the start and
survives every step that meets `c` holds at the end of every run whose steps
all meet it. -/
theorem run_invariant_of_stepsMeet {P : σ → Prop} (hstep : ∀ i s, c i s → P s → P (step i s))
    {is : List ι} {s : σ} (hc : StepsMeet step c is s) (h : P s) : P (run step is s) := by
  induction is generalizing s with
  | nil => exact h
  | cons i is ih => exact ih hc.2 (hstep i s hc.1 h)

/-- **Late steps**: when a step outside the condition makes some late step bad, and
late steps meet the condition, a run is good throughout, a late step at any point
of it included, exactly when all its steps meet the condition. -/
theorem good_iff_stepsMeet (Good : σ → Prop) (late : κ → ι) {P : σ → Prop}
    (hstep : ∀ i s, c i s → P s → P (step i s)) (hgood : ∀ s, P s → Good s)
    (hlate : ∀ k s, c (late k) s)
    (hbad : ∀ i s, ¬c i s → ∃ k, ¬Good (step (late k) (step i s))) {s : σ} (hP : P s)
    (is : List ι) :
    (∀ pre, pre <+: is → Good (run step pre s) ∧ ∀ k, Good (run step (pre ++ [late k]) s))
      ↔ StepsMeet step c is s := by
  constructor
  · intro h
    refine stepsMeet_iff_prefix.mpr ?_
    intro pre i hpre
    by_contra hc
    obtain ⟨k, hk⟩ := hbad i _ hc
    have hnext := (h _ hpre).2 k
    rw [run_concat, run_concat] at hnext
    exact hk hnext
  · rintro hmeet pre ⟨post, rfl⟩
    have hpre := (stepsMeet_append.mp hmeet).1
    have hmeets : ∀ js, StepsMeet step c js s → Good (run step js s) :=
      fun js hjs => hgood _ (run_invariant_of_stepsMeet hstep hjs hP)
    refine ⟨hmeets pre hpre, fun k => hmeets _ ?_⟩
    exact stepsMeet_append.mpr ⟨hpre, hlate k _, trivial⟩

/-- A step outside the condition leads into `B`, which no step leaves: then a
run that ends outside `B` met the condition throughout. -/
theorem stepsMeet_of_final {P B : σ → Prop} (hinv : ∀ i s, P s → P (step i s))
    (habs : ∀ i s, P s → B s → B (step i s))
    (hbad : ∀ i s, P s → ¬ c i s → B (step i s)) {is : List ι} {s : σ} (hP : P s)
    (hfin : ¬ B (run step is s)) : StepsMeet step c is s := by
  induction is generalizing s with
  | nil => trivial
  | cons i is ih =>
      refine ⟨?_, ih (hinv i s hP) hfin⟩
      by_contra hc
      have hstay : P (run step is (step i s)) ∧ B (run step is (step i s)) := by
        refine run_invariant (P := fun t => P t ∧ B t) step ?_ ?_ is
        · exact fun j t ht => ⟨hinv j t ht.1, habs j t ht.1 ht.2⟩
        · exact ⟨hinv i s hP, hbad i s hP hc⟩
      exact hfin hstay.2

end DpdkStarter.Machine
