import DpdkStarter.Library.Run

/-!
What a machine is bound to do, and what it can still do.

The events of a machine belong to processes. A process that is not enabled leaves
the state as it is, so waiting can go on for ever; progress is measured by a number
that no step lowers, and "the run is fair" is said by cutting it into rounds in which
every process moves.

* `run_measure_le`: a measure that each event of one kind lowers is used up by as many
  of them, whatever happens between.
* `IsRound`, `done_of_helpful_rounds`: when in every state short of the goal some process
  helps, and goes on doing so until it moves or the measure is raised, a bounded number of
  rounds reaches the goal; `done_of_rounds`: the case of a machine without idle motion.
* `exists_run_done`: when in every state short of the goal some event that is allowed there
  raises the measure, the goal can be reached from everywhere.
-/

namespace DpdkStarter.Machine

variable {σ ι κ : Type*} {step : ι → σ → σ} {c : ι → σ → Prop} {P Done : σ → Prop} {μ : σ → ℕ}

/-- A condition on the events alone is met by a run of such events. -/
lemma stepsMeet_of_forall {d : ι → Prop} {is : List ι} (h : ∀ i ∈ is, d i) (s : σ) :
    StepsMeet step (fun i _ => d i) is s := by
  induction is generalizing s with
  | nil => trivial
  | cons i is ih =>
      exact ⟨h i List.mem_cons_self, ih (fun j hj => h j (List.mem_cons_of_mem i hj)) _⟩

/-- **The measure of a thread.** Its own events lower the measure and those of the
others do not raise it, so after a run the measure is lower by the number of its
events. -/
theorem run_measure_le {p : ι → Bool} (hinv : ∀ i s, c i s → P s → P (step i s))
    (hmine : ∀ i s, c i s → P s → p i = true → μ (step i s) ≤ μ s - 1)
    (hother : ∀ i s, c i s → P s → p i = false → μ (step i s) ≤ μ s) {is : List ι} {s : σ}
    (hc : StepsMeet step c is s) (h : P s) : μ (run step is s) ≤ μ s - is.countP p := by
  induction is generalizing s with
  | nil => exact Nat.le_refl _
  | cons i is ih =>
      have hrest := ih hc.2 (hinv i s hc.1 h)
      rw [run_cons]
      cases hi : p i with
      | true =>
          have hstep := hmine i s hc.1 h hi
          rw [List.countP_cons_of_pos hi]
          omega
      | false =>
          have hstep := hother i s hc.1 h hi
          rw [List.countP_cons_of_neg (by simp [hi])]
          omega

/-- A run of runs is one run. -/
lemma run_flatten (iss : List (List ι)) (s : σ) :
    run step iss.flatten s = run (run step) iss s := by
  induction iss generalizing s with
  | nil => rfl
  | cons is iss ih => rw [List.flatten_cons, run_append, run_cons, ih]

/-- It meets a condition when each of its parts does. -/
lemma stepsMeet_flatten {iss : List (List ι)} {s : σ} :
    StepsMeet step c iss.flatten s ↔ StepsMeet (run step) (StepsMeet step c) iss s := by
  induction iss generalizing s with
  | nil => exact Iff.rfl
  | cons is iss ih => rw [List.flatten_cons, stepsMeet_append, ih, StepsMeet]

/-! ### Fair runs -/

/-- Every process moves at least once. -/
def IsRound (f : ι → κ) (is : List ι) : Prop := ∀ k, ∃ i ∈ is, f i = k

section Rounds

variable {f : ι → κ} {H : κ → σ → Prop}
  (hinv : ∀ i s, c i s → P s → P (step i s))
  (hkeep : ∀ i s, c i s → P s → Done s → Done (step i s))
include hinv hkeep

/-- A goal that was reached is kept by a run. -/
lemma done_run {is : List ι} {s : σ} (hc : StepsMeet step c is s) (h : P s) (hdone : Done s) :
    Done (run step is s) := by
  refine (run_invariant_of_stepsMeet (P := fun u => P u ∧ Done u) ?_ hc ⟨h, hdone⟩).2
  exact fun i u hi hu => ⟨hinv i u hi hu.1, hkeep i u hi hu.1 hu.2⟩

/-- A measure no step lowers before the goal is not lowered by a run. -/
lemma done_or_le_measure (hmono : ∀ i s, c i s → P s → ¬Done s → μ s ≤ μ (step i s))
    {is : List ι} {s : σ} (hc : StepsMeet step c is s) (h : P s) :
    Done (run step is s) ∨ μ s ≤ μ (run step is s) := by
  induction is generalizing s with
  | nil => exact Or.inr le_rfl
  | cons i is ih =>
      by_cases hnow : Done s
      · exact Or.inl (done_run hinv hkeep hc h hnow)
      · rw [run_cons]
        exact (ih hc.2 (hinv i s hc.1 h)).imp_right (hmono i s hc.1 h hnow).trans

/-- A list of events in which the process moves that helps reaches the goal or raises the
measure: up to its move the process goes on helping, or the measure was raised before. -/
lemma done_or_lt_measure (hmono : ∀ i s, c i s → P s → ¬Done s → μ s ≤ μ (step i s))
    (hstep : ∀ k i s, c i s → P s → ¬Done s → H k s →
      μ s < μ (step i s) ∨ (f i ≠ k ∧ μ (step i s) = μ s ∧ H k (step i s)))
    {k : κ} {is : List ι} {s : σ} (hmoves : ∃ i ∈ is, f i = k) (hc : StepsMeet step c is s)
    (h : P s) (hhelps : H k s) : Done (run step is s) ∨ μ s < μ (run step is s) := by
  induction is generalizing s with
  | nil => simp at hmoves
  | cons i is ih =>
      have hP := hinv i s hc.1 h
      by_cases hnow : Done s
      · exact Or.inl (done_run hinv hkeep hc h hnow)
      · rw [run_cons]
        rcases hstep k i s hc.1 h hnow hhelps with hup | ⟨hother, hsame, hhelps'⟩
        · exact (done_or_le_measure hinv hkeep hmono hc.2 hP).imp_right hup.trans_le
        · have hrest : ∃ j ∈ is, f j = k := by
            obtain ⟨j, hj, hk⟩ := hmoves
            rcases List.mem_cons.mp hj with rfl | hj
            · exact absurd hk hother
            · exact ⟨j, hj, hk⟩
          rw [← hsame]
          exact ih hrest hc.2 hP hhelps'

/-- **Helpful processes.** In every state short of the goal some process helps: its next event
raises the measure, and until then no event lowers the measure or makes the process useless.
The measure is bounded by `N`: then a run of enough rounds ends in the goal. -/
theorem done_of_helpful_rounds {N : ℕ}
    (hstep : ∀ k i s, c i s → P s → ¬Done s → H k s →
      μ s < μ (step i s) ∨ (f i ≠ k ∧ μ (step i s) = μ s ∧ H k (step i s)))
    (hlive : ∀ s, P s → ¬Done s → ∃ k, H k s) (hbound : ∀ s, P s → μ s ≤ N)
    {rounds : List (List ι)} (hrounds : ∀ r ∈ rounds, IsRound f r) {s : σ}
    (hc : StepsMeet step c rounds.flatten s) (h : P s) (hlen : N < μ s + rounds.length) :
    Done (run step rounds.flatten s) := by
  have hmono : ∀ i s, c i s → P s → ¬Done s → μ s ≤ μ (step i s) := by
    intro i s hi hs hnow
    obtain ⟨k, hk⟩ := hlive s hs hnow
    rcases hstep k i s hi hs hnow hk with hup | ⟨-, hsame, -⟩
    · exact hup.le
    · exact hsame.ge
  by_cases hnow : Done s
  · exact done_run hinv hkeep hc h hnow
  · induction rounds generalizing s with
    | nil =>
        have hle := hbound s h
        simp only [List.length_nil] at hlen
        omega
    | cons r rounds ih =>
        obtain ⟨hmeet, hrest⟩ := stepsMeet_append.mp hc
        obtain ⟨k, hk⟩ := hlive s h hnow
        have hmoves := hrounds r List.mem_cons_self k
        have hP := run_invariant_of_stepsMeet hinv hmeet h
        rw [List.flatten_cons, run_append]
        by_cases hthen : Done (run step r s)
        · exact done_run hinv hkeep hrest hP hthen
        · have hup := (done_or_lt_measure hinv hkeep hmono hstep hmoves hmeet h hk).resolve_left
            hthen
          refine ih (fun r' hr' => hrounds r' (List.mem_cons_of_mem r hr')) hrest hP ?_ hthen
          rw [List.length_cons] at hlen
          omega

end Rounds

/-- **Progress under fairness.** In every state short of the goal some process is
bound to raise the measure, every event leaves the state alone or raises the measure, and
that is bounded by `N`: then a run of enough rounds ends in the goal. -/
theorem done_of_rounds {f : ι → κ} {N : ℕ} (hinv : ∀ i s, c i s → P s → P (step i s))
    (hstep : ∀ i s, c i s → P s → step i s = s ∨ μ s < μ (step i s))
    (hkeep : ∀ i s, c i s → P s → Done s → Done (step i s))
    (hlive : ∀ s, P s → ¬Done s → ∃ k, ∀ i, c i s → f i = k → μ s < μ (step i s))
    (hbound : ∀ s, P s → μ s ≤ N) {rounds : List (List ι)}
    (hrounds : ∀ r ∈ rounds, IsRound f r) {s : σ} (hc : StepsMeet step c rounds.flatten s)
    (h : P s) (hlen : N < μ s + rounds.length) : Done (run step rounds.flatten s) := by
  refine done_of_helpful_rounds (H := fun k s => ∀ i, c i s → f i = k → μ s < μ (step i s))
    hinv hkeep (fun k i s hi hs _ hhelps => ?_) hlive hbound hrounds hc h hlen
  rcases hstep i s hi hs with hsame | hup
  · -- the event left the state alone, so it was not the one of the process
    refine Or.inr ⟨fun hk => ?_, by rw [hsame], by rwa [hsame]⟩
    have hup := hhelps i hi hk
    rw [hsame] at hup
    exact Nat.lt_irrefl _ hup
  · exact Or.inl hup

/-! ### Reachable goals -/

/-- **Nothing is ever stuck.** In every state short of the goal some event that meets the
condition raises the measure, which is bounded by `N`: then from every state a run of at most
`N` such events ends in the goal. -/
theorem exists_run_done {N : ℕ} (hinv : ∀ i s, c i s → P s → P (step i s))
    (hlive : ∀ s, P s → ¬Done s → ∃ i, c i s ∧ μ s < μ (step i s)) (hbound : ∀ s, P s → μ s ≤ N)
    {s : σ} (h : P s) :
    ∃ is : List ι, StepsMeet step c is s ∧ is.length + μ s ≤ N ∧ Done (run step is s) := by
  induction hn : N - μ s using Nat.strong_induction_on generalizing s with
  | _ n ih =>
      by_cases hnow : Done s
      · exact ⟨[], trivial, by simpa using hbound s h, hnow⟩
      · obtain ⟨i, hi, hup⟩ := hlive s h hnow
        have hP := hinv i s hi h
        have hle := hbound _ hP
        obtain ⟨is, hmeet, hlen, hdone⟩ := ih (N - μ (step i s)) (by omega) hP rfl
        exact ⟨i :: is, ⟨hi, hmeet⟩, by rw [List.length_cons]; omega, hdone⟩

end DpdkStarter.Machine
