import DpdkStarter.Library.Run

/-!
What a machine puts out along a run.

A step puts out a list, which depends on the event and the state it finds; the trace of
a run is all of it, in order. The trace is a history the state need not hold: an
invariant may speak about it as well as about the state.

* `trace`, `trace_concat`: the output of a run.
* `trace_invariant`: the invariant rule for a state and the output before it.
-/

namespace DpdkStarter.Machine

variable {σ ι ω : Type*} (step : ι → σ → σ) (out : ι → σ → List ω)

/-- The output of a run. -/
def trace : List ι → σ → List ω
  | [], _ => []
  | i :: is, s => out i s ++ trace is (step i s)

/-- The output of the last event of a run comes last. -/
lemma trace_concat (is : List ι) (i : ι) (s : σ) :
    trace step out (is ++ [i]) s = trace step out is s ++ out i (run step is s) := by
  induction is generalizing s with
  | nil => simp [trace]
  | cons j is ih => simp only [List.cons_append, trace, ih, run_cons, List.append_assoc]

/-- **The invariant rule with a history**: what holds of the start and no output, and
survives every step with its output, holds of every state reached and the output of
the run. -/
theorem trace_invariant {R : List ω → σ → Prop}
    (hstep : ∀ i os s, R os s → R (os ++ out i s) (step i s)) {s : σ} (h : R [] s) (is : List ι) :
    R (trace step out is s) (run step is s) := by
  induction is using List.reverseRecOn with
  | nil => exact h
  | append_singleton is i ih =>
      rw [trace_concat, run_concat]
      exact hstep i _ _ ih

end DpdkStarter.Machine
