import DpdkStarter.FeatureArc.Walk
import DpdkStarter.Library.Run

/-!
`feature_arc/sample/main.c` with several arcs one after the other.

`feature_arc_init` empties the list of features for the next arc, and leaves
the links of the last one in the node table. A rebuild writes a link from every
name of its chain but the end, so the end of the new arc keeps the link it may
have had in an earlier chain.

* `call`: the functions as the steps of a machine, on which an undefined
  behaviour is final.
* `Tables.Proper`: the tables hold distinct nodes and an arc of distinct nodes.
* `rebuild_endsRight_iff`: what one rebuild does.
* `reinit_endsRight_iff`: every rebuild of a sequence of calls.
-/

namespace DpdkStarter.FeatureArc

open Successor Machine

/-- One call; after an undefined behaviour nothing more is said. -/
def call (c : Call) (r : Except Fault Tables) : Except Fault Tables := r >>= c.exec

/-- The tables before a rebuild hold nodes of distinct names, and an arc whose
start, end and features are distinct and are nodes. -/
def Tables.Proper (t : Tables) : Prop :=
  (t.nodes.map Node.name).Nodup ∧
    ∃ start ∈ t.arc.startName, ∃ stop ∈ t.arc.endName,
      (start :: stop :: t.arc.slots.map Slot.name).Nodup ∧
        ∀ x ∈ start :: stop :: t.arc.slots.map Slot.name, x ∈ t.nodes.map Node.name

/-- The walk of `dump_pipeline` ends, and it ends on the end of the arc. -/
def Tables.EndsRight (t : Tables) : Prop :=
  ∃ fuel path, dumpPipeline fuel t = some path ∧ path.getLast? = t.arc.endName

/-- The end of the arc links to no node. -/
def Tables.EndFree (t : Tables) : Prop := ∀ stop ∈ t.arc.endName, nextOf t.nodes stop = none

/-- **One rebuild.** The walk after it ends on the end of the arc exactly when
that node had no link before. -/
lemma rebuild_endsRight_iff {t : Tables} (h : t.Proper) :
    (∃ u, featureArcRebuild t = .ok u ∧ u.EndsRight) ↔ t.EndFree := by
  obtain ⟨hnodup, start, hstart, stop, hstop, hnames, hmem⟩ := h
  have hsub : (enabledNames t.arc.slots).Sublist (t.arc.slots.map Slot.name) :=
    List.filter_sublist.map _
  have hchain : (start :: stop :: enabledNames t.arc.slots).Nodup :=
    hnames.sublist ((hsub.cons_cons _).cons_cons _)
  simp only [List.nodup_cons, List.mem_cons, not_or] at hchain
  obtain ⟨⟨hne, hstartoff⟩, hstopoff, hfeats⟩ := hchain
  have hoff : stop ∉ start :: enabledNames t.arc.slots := by
    rw [List.mem_cons, not_or]
    exact ⟨Ne.symm hne, hstopoff⟩
  rw [featureArcRebuild_eq hstart hstop]
  simp only [Except.ok.injEq, exists_eq_left', Tables.EndsRight, Tables.EndFree, dumpPipeline,
    show t.arc.startName = some start from hstart, show t.arc.endName = some stop from hstop]
  constructor
  · rintro ⟨fuel, path, hwalk, hlast⟩ stop' hstop'
    obtain ⟨z, hz, hfree⟩ := next_getLast_of_walk hwalk
    rw [hlast, Option.some.injEq] at hz
    rw [← hz, nextOf_threadLinks_of_notMem hnodup hoff] at hfree
    rw [← Option.some.inj hstop']
    exact hfree
  · intro hfree
    have hwalk := walk_threadLinks rfl hnodup hne hfeats hstartoff hstopoff
      (fun f hf => hmem f (by simp [hsub.subset hf])) (hfree stop rfl)
      (Nat.lt_succ_self (enabledNames t.arc.slots).length.succ)
    rw [if_pos (hmem start List.mem_cons_self)] at hwalk
    exact ⟨_, _, hwalk, by simp [List.getLast?_cons]⟩

/-! ### Sequences of calls -/

/-- A rebuild finds proper tables. -/
def ProperAtRebuild : Call → Except Fault Tables → Prop
  | .featureArcRebuild, .ok t => t.Proper
  | _, _ => True

/-- A rebuild returns, and the walk right after it ends on the end of the arc. -/
def RightAfterRebuild : Call → Except Fault Tables → Prop
  | .featureArcRebuild, r => ∃ u, call .featureArcRebuild r = .ok u ∧ u.EndsRight
  | _, _ => True

/-- A rebuild is reached without undefined behaviour and finds an end that links
to no node. -/
def FreeAtRebuild : Call → Except Fault Tables → Prop
  | .featureArcRebuild, .ok t => t.EndFree
  | .featureArcRebuild, .error _ => False
  | _, _ => True

/-- **Every rebuild of a sequence of calls.** For every sequence in which each
rebuild finds distinct nodes and an arc of distinct nodes, the walk right after
each rebuild ends on the end of the arc last initialised exactly when each
rebuild finds that end without a link. -/
theorem reinit_endsRight_iff {cs : List Call}
    (hproper : StepsMeet call ProperAtRebuild cs (.ok Tables.init)) :
    StepsMeet call RightAfterRebuild cs (.ok Tables.init)
      ↔ StepsMeet call FreeAtRebuild cs (.ok Tables.init) := by
  refine stepsMeet_congr ?_ hproper
  intro c r hc
  cases c with
  | featureArcRebuild =>
      cases r with
      | ok t => exact rebuild_endsRight_iff hc
      | error fault =>
          simp [RightAfterRebuild, FreeAtRebuild, call, bind, Except.bind]
  | _ => exact Iff.rfl

instance (t : Tables) : Decidable t.Proper := inferInstanceAs (Decidable (_ ∧ _))

instance (t : Tables) : Decidable t.EndFree :=
  inferInstanceAs (Decidable (∀ stop ∈ t.arc.endName, nextOf t.nodes stop = none))

instance : ∀ c r, Decidable (ProperAtRebuild c r)
  | .featureArcRebuild, .ok t => inferInstanceAs (Decidable t.Proper)
  | .featureArcRebuild, .error _ => isTrue trivial
  | .addNode _, _ | .setNext _ _, _ | .featureArcInit _ _, _ | .featureRegister _, _
  | .featureEnable _, _ | .featureDisable _, _ => isTrue trivial

instance : ∀ c r, Decidable (FreeAtRebuild c r)
  | .featureArcRebuild, .ok t => inferInstanceAs (Decidable t.EndFree)
  | .featureArcRebuild, .error _ => isFalse id
  | .addNode _, _ | .setNext _ _, _ | .featureArcInit _ _, _ | .featureRegister _, _
  | .featureEnable _, _ | .featureDisable _, _ => isTrue trivial

/-- An arc extended by another: the end of the first is a feature of the second. -/
theorem reinit_endsRight_extended :
    StepsMeet call RightAfterRebuild
      [.addNode "L3", .addNode "Firewall", .addNode "L4",
        .featureArcInit "L3" "Firewall", .featureArcRebuild,
        .featureArcInit "L3" "L4", .featureRegister "Firewall", .featureEnable "Firewall",
        .featureArcRebuild] (.ok Tables.init) :=
  (reinit_endsRight_iff (by decide)).mpr (by decide)

/-- An arc set up the other way round: its end still links to its start, so the
walk never ends. -/
theorem reinit_reversed_loops :
    StepsMeet call ProperAtRebuild
        [.addNode "L3", .addNode "L4", .featureArcInit "L3" "L4", .featureArcRebuild,
          .featureArcInit "L4" "L3", .featureArcRebuild] (.ok Tables.init) ∧
      ¬StepsMeet call RightAfterRebuild
        [.addNode "L3", .addNode "L4", .featureArcInit "L3" "L4", .featureArcRebuild,
          .featureArcInit "L4" "L3", .featureArcRebuild] (.ok Tables.init) := by
  refine ⟨by decide, ?_⟩
  intro hright
  obtain ⟨-, -, -, -, -, hlast, -⟩ := hright
  have hfree := (rebuild_endsRight_iff
    (t := ⟨[⟨"L3", some "L4"⟩, ⟨"L4", none⟩], ⟨some "L4", some "L3", []⟩⟩) (by decide)).mp hlast
  exact absurd hfree (by decide)

end DpdkStarter.FeatureArc
