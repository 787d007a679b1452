import DpdkStarter.FeatureArc.Arrays
import DpdkStarter.FeatureArc.Settled

/-!
`feature_arc/sample/main.c`: the indices into its arrays.

`add_node` and `feature_register` write at their counter and do not look at the size
of the array. The other functions go through the entries below a counter. So the
indices are right as long as there are at most `MAX_NODES` calls of `add_node`, and at
most `MAX_FEATURES` calls of `feature_register` behind each `feature_arc_init`.

* `InBounds`: the indices of a sequence of calls, and the counters.
* `added`, `registered`: the counters as numbers of calls, `Counted.exec` and
  `counted_of_runCalls`.
* `inBounds_iff_not_overflows`: only an overflow of the tables is out of bounds.
* `tables_in_bounds_iff`: the sequences of calls that stay in bounds.
-/

namespace DpdkStarter.FeatureArc

open Arrays

/-- Every index used by a sequence of calls from program start is below the size of
its array, and so are the counters, up to these sizes, after each call that returns. -/
def InBounds (cs : List Call) : Prop :=
  (∀ x ∈ (calls cs).used Statics.init, x.2 < x.1.capacity) ∧
    ∀ pre, pre <+: cs → ∀ m, (calls pre).exec Statics.init = .ok ((), m) →
      m.scalars.nodeCount ≤ maxNodes ∧ m.scalars.count ≤ maxFeatures

/-! ### The counters -/

/-- How many nodes a sequence of calls adds. -/
def added (cs : List Call) : ℕ := cs.countP fun c => c matches .addNode _

/-- How many features it registers, behind the last `feature_arc_init`. -/
def registered (cs : List Call) : ℕ :=
  cs.foldl (fun k c =>
    match c with
    | .featureArcInit _ _ => 0
    | .featureRegister _ => k + 1
    | _ => k) 0

/-- It sets up no arc. -/
def Arcless (cs : List Call) : Prop := ∀ c ∈ cs, ¬c matches .featureArcInit _ _

/-- A rebuild among the calls finds a node but no arc, and `strcmp` gets `NULL`. -/
def MeetsNull (cs : List Call) : Prop :=
  ∃ pre, pre ++ [.featureArcRebuild] <+: cs ∧ Arcless pre ∧ 0 < added pre

/-- The calls have room in the arrays: up to the first one that hands `NULL` to
`strcmp`, there are at most `MAX_NODES` calls of `add_node`, and at most
`MAX_FEATURES` of `feature_register` without a `feature_arc_init` between them. -/
def HasRoom (cs : List Call) : Prop :=
  ∀ pre, pre <+: cs → ¬MeetsNull pre → added pre ≤ maxNodes ∧ registered pre ≤ maxFeatures

/-- The tables hold what the calls counted. -/
structure Counted (cs : List Call) (t : Tables) : Prop where
  nodes_eq : t.nodes.length = added cs
  slots_eq : t.arc.slots.length = registered cs
  start_iff : t.arc.startName = none ↔ Arcless cs

lemma added_concat (cs : List Call) (c : Call) :
    added (cs ++ [c]) = added cs + if c matches .addNode _ then 1 else 0 := by
  simp [added, List.countP_append]

lemma registered_concat (cs : List Call) (c : Call) :
    registered (cs ++ [c]) = match c with
      | .featureArcInit _ _ => 0
      | .featureRegister _ => registered cs + 1
      | _ => registered cs := by
  rw [registered, List.foldl_append]
  rfl

lemma arcless_concat {cs : List Call} {c : Call} (hc : (c matches .featureArcInit _ _) = false) :
    Arcless (cs ++ [c]) ↔ Arcless cs := by
  simp [Arcless, or_imp, forall_and, hc]

lemma length_writeNext (src : String) (dst : Option String) (ns : List Node) :
    (writeNext src dst ns).length = ns.length := by
  have hnames := congrArg List.length (map_name_writeNext src dst ns)
  rwa [List.length_map, List.length_map] at hnames

lemma length_writeAll (ws : List (String × Option String)) (ns : List Node) :
    (writeAll ws ns).length = ns.length := by
  have hnames := congrArg List.length (map_name_writeAll ws ns)
  rwa [List.length_map, List.length_map] at hnames

/-- A rebuild that returns keeps the arc and the number of nodes. -/
lemma length_nodes_of_rebuild {t u : Tables} (h : featureArcRebuild t = .ok u) :
    u.arc = t.arc ∧ u.nodes.length = t.nodes.length := by
  cases hstart : t.arc.startName with
  | none =>
      rw [featureArcRebuild_of_no_start hstart] at h
      split at h
      · obtain rfl := Except.ok.inj h
        exact ⟨rfl, rfl⟩
      · cases h
  | some start =>
      rw [featureArcRebuild_eq_writeAll hstart] at h
      obtain rfl := Except.ok.inj h
      exact ⟨rfl, length_writeAll _ _⟩

/-- **One call** counts itself. -/
lemma Counted.exec {cs : List Call} {t u : Tables} (h : Counted cs t) {c : Call}
    (hexec : c.exec t = .ok u) : Counted (cs ++ [c]) u := by
  have hadded := (added_concat cs c).symm
  have hregistered := (registered_concat cs c).symm
  cases c with
  | addNode name =>
      rw [Call.exec, addNode] at hexec
      split at hexec
      · obtain rfl := Except.ok.inj hexec
        refine ⟨?_, h.slots_eq.trans hregistered, h.start_iff.trans (arcless_concat rfl).symm⟩
        rw [List.length_append, List.length_singleton, h.nodes_eq]
        exact hadded
      · cases hexec
  | setNext src dst =>
      obtain rfl := Except.ok.inj hexec
      refine ⟨?_, h.slots_eq.trans hregistered, h.start_iff.trans (arcless_concat rfl).symm⟩
      calc (writeNext src (some dst) t.nodes).length
          = t.nodes.length := length_writeNext src (some dst) t.nodes
        _ = added cs := h.nodes_eq
        _ = added (cs ++ [Call.setNext src dst]) := hadded
  | featureArcInit start stop =>
      obtain rfl := Except.ok.inj hexec
      refine ⟨h.nodes_eq.trans hadded, hregistered, ?_⟩
      simp [featureArcInit, Arcless]
  | featureRegister name =>
      rw [Call.exec, featureRegister] at hexec
      split at hexec
      · obtain rfl := Except.ok.inj hexec
        refine ⟨h.nodes_eq.trans hadded, ?_, h.start_iff.trans (arcless_concat rfl).symm⟩
        rw [List.length_append, List.length_singleton, h.slots_eq]
        exact hregistered
      · cases hexec
  | featureEnable name | featureDisable name =>
      obtain rfl := Except.ok.inj hexec
      refine ⟨h.nodes_eq.trans hadded, ?_, h.start_iff.trans (arcless_concat rfl).symm⟩
      exact (List.length_map _).trans (h.slots_eq.trans hregistered)
  | featureArcRebuild =>
      obtain ⟨harc, hlen⟩ := length_nodes_of_rebuild hexec
      refine ⟨?_, ?_, ?_⟩
      · calc u.nodes.length
            = t.nodes.length := hlen
          _ = added cs := h.nodes_eq
          _ = added (cs ++ [Call.featureArcRebuild]) := hadded
      · calc u.arc.slots.length
            = t.arc.slots.length := by rw [harc]
          _ = registered cs := h.slots_eq
          _ = registered (cs ++ [Call.featureArcRebuild]) := hregistered
      · rw [harc]
        exact h.start_iff.trans (arcless_concat rfl).symm

/-! ### The call that does not return -/

lemma runCalls_concat (cs : List Call) (c : Call) (t : Tables) :
    runCalls (cs ++ [c]) t = runCalls cs t >>= c.exec := by
  simp [runCalls, List.foldlM_append]

/-- **A sequence of calls that returns** has counted them. -/
lemma counted_of_runCalls {cs : List Call} {t : Tables} (h : runCalls cs Tables.init = .ok t) :
    Counted cs t := by
  induction cs using List.reverseRecOn generalizing t with
  | nil =>
      obtain rfl := Except.ok.inj h
      exact ⟨rfl, rfl, iff_of_true rfl fun _ hc => absurd hc List.not_mem_nil⟩
  | append_singleton cs c ih =>
      rw [runCalls_concat] at h
      cases hbefore : runCalls cs Tables.init with
      | error e =>
          rw [hbefore] at h
          cases h
      | ok u =>
          rw [hbefore] at h
          exact (ih hbefore).exec h

/-- A sequence of calls that does not return has a call that does not, behind some
that do. -/
lemma exists_call_of_error {cs : List Call} {t : Tables} {e : Fault}
    (h : runCalls cs t = .error e) :
    ∃ pre c u, pre ++ [c] <+: cs ∧ runCalls pre t = .ok u ∧ c.exec u = .error e := by
  induction cs using List.reverseRecOn with
  | nil => cases h
  | append_singleton cs c ih =>
      rw [runCalls_concat] at h
      cases hbefore : runCalls cs t with
      | error e' =>
          rw [hbefore] at h
          obtain rfl : e' = e := Except.error.inj h
          obtain ⟨pre, d, u, hprefix, hrest⟩ := ih hbefore
          exact ⟨pre, d, u, hprefix.trans (List.prefix_append cs [c]), hrest⟩
      | ok u =>
          rw [hbefore] at h
          exact ⟨cs, c, u, List.prefix_refl _, hbefore, h⟩

/-- Nothing happens behind a call that does not return. -/
lemma runCalls_error_mono {pre cs : List Call} {t : Tables} {e : Fault}
    (h : runCalls pre t = .error e) (hpre : pre <+: cs) : runCalls cs t = .error e := by
  obtain ⟨post, rfl⟩ := hpre
  rw [runCalls] at h
  rw [runCalls, List.foldlM_append, h]
  rfl

/-- **Why a call does not return**: an array is full, or a node is compared with the
`NULL` name of an arc that was never set up. -/
lemma Counted.exec_error {cs : List Call} {t : Tables} (h : Counted cs t) {c : Call} {e : Fault}
    (hexec : c.exec t = .error e) :
    (e = .nullName ∧ c = .featureArcRebuild ∧ Arcless cs ∧ 0 < added cs) ∨
      (e ≠ .nullName ∧ c ≠ .featureArcRebuild ∧
        (maxNodes < added (cs ++ [c]) ∨ maxFeatures < registered (cs ++ [c]))) := by
  have hadded := added_concat cs c
  have hregistered := registered_concat cs c
  cases c with
  | addNode name =>
      rw [Call.exec, addNode] at hexec
      split at hexec
      · cases hexec
      · rename_i hfull
        obtain rfl := Except.error.inj hexec
        rw [if_pos rfl, ← h.nodes_eq] at hadded
        exact Or.inr ⟨by decide, by simp, Or.inl (by omega)⟩
  | featureRegister name =>
      rw [Call.exec, featureRegister] at hexec
      split at hexec
      · cases hexec
      · rename_i hfull
        obtain rfl := Except.error.inj hexec
        rw [← h.slots_eq] at hregistered
        have hmore : registered (cs ++ [.featureRegister name]) = t.arc.slots.length + 1 :=
          hregistered
        exact Or.inr ⟨by decide, by simp, Or.inr (by omega)⟩
  | featureArcRebuild =>
      have hrebuild : featureArcRebuild t = .error e := hexec
      cases hstart : t.arc.startName with
      | none =>
          rw [featureArcRebuild_of_no_start hstart] at hrebuild
          split at hrebuild
          · cases hrebuild
          · rename_i hnodes
            have hpos := List.length_pos_iff.mpr hnodes
            rw [h.nodes_eq] at hpos
            exact Or.inl ⟨(Except.error.inj hrebuild).symm, rfl, h.start_iff.mp hstart, hpos⟩
      | some start =>
          rw [featureArcRebuild_eq_writeAll hstart] at hrebuild
          cases hrebuild
  | setNext _ _ | featureArcInit _ _ | featureEnable _ | featureDisable _ => cases hexec

/-- Calls that return hand no `NULL` to `strcmp`. -/
lemma not_meetsNull_of_runCalls {cs : List Call} {t : Tables}
    (h : runCalls cs Tables.init = .ok t) : ¬MeetsNull cs := by
  rintro ⟨pre, hpre, harcless, hadded⟩
  have hreturns : ∀ qs, qs <+: cs → ∃ u, runCalls qs Tables.init = .ok u := by
    intro qs hqs
    cases hrun : runCalls qs Tables.init with
    | error e =>
        rw [runCalls_error_mono hrun hqs] at h
        cases h
    | ok u => exact ⟨u, rfl⟩
  obtain ⟨u, hu⟩ := hreturns pre ((List.prefix_append pre _).trans hpre)
  obtain ⟨v, hv⟩ := hreturns _ hpre
  have hcounted := counted_of_runCalls hu
  have hnodes : u.nodes ≠ [] := List.ne_nil_of_length_pos (hcounted.nodes_eq ▸ hadded)
  rw [runCalls_concat, hu] at hv
  have hrebuild : featureArcRebuild u = .ok v := hv
  rw [featureArcRebuild_of_no_start (hcounted.start_iff.mpr harcless), if_neg hnodes] at hrebuild
  cases hrebuild

/-! ### Staying in bounds -/

/-- The calls end with a write behind the end of an array. -/
def Overflows (r : Except Fault Tables) : Prop := ∃ e, r = .error e ∧ e ≠ .nullName

/-- Calls that return leave tables no longer than the arrays. -/
lemma length_le_of_runCalls {cs : List Call} {t : Tables} (h : runCalls cs Tables.init = .ok t) :
    t.nodes.length ≤ maxNodes ∧ t.arc.slots.length ≤ maxFeatures := by
  have hends := ends_calls represents_init cs
  rw [h] at hends
  obtain ⟨-, m, -, hm⟩ := hends.exists_ok
  exact hm.length_le

/-- **Only an overflow of the tables is out of bounds.** -/
lemma inBounds_iff_not_overflows (cs : List Call) :
    InBounds cs ↔ ¬Overflows (runCalls cs Tables.init) := by
  have hends := ends_calls represents_init cs
  constructor
  · rintro ⟨hused, -⟩ ⟨e, hrun, he⟩
    have hinside := (ArrayProgram.used_inside_iff _ _).mp hused
    rw [hrun] at hends
    obtain ⟨stop, hexec, rfl⟩ := hends.exists_error
    cases stop with
    | outside a i => exact hinside a i hexec
    | failure n => exact he rfl
  · intro hnot
    refine ⟨(ArrayProgram.used_inside_iff _ _).mpr ?_, ?_⟩
    · intro a i hexec
      rw [hexec] at hends
      refine hnot ⟨_, hends.eq_error, ?_⟩
      cases a <;> simp [fault]
    · intro pre _ m hm
      have hpre := ends_calls represents_init pre
      rw [hm] at hpre
      obtain ⟨t, -, hrep⟩ := hpre.eq_ok
      rw [hrep.nodeCount_eq, hrep.count_eq]
      exact hrep.length_le

/-- **An overflow is a matter of the calls alone.** -/
lemma not_overflows_iff_hasRoom (cs : List Call) :
    ¬Overflows (runCalls cs Tables.init) ↔ HasRoom cs := by
  constructor
  · intro hnot pre hpre hnull
    cases hrun : runCalls pre Tables.init with
    | ok t =>
        have hcounted := counted_of_runCalls hrun
        rw [← hcounted.nodes_eq, ← hcounted.slots_eq]
        exact length_le_of_runCalls hrun
    | error e =>
        by_cases he : e = .nullName
        · obtain ⟨qs, c, u, hqs, hu, hc⟩ := exists_call_of_error hrun
          rcases (counted_of_runCalls hu).exec_error hc with hisnull | hfull
          · obtain ⟨-, rfl, harcless, hadded⟩ := hisnull
            exact absurd ⟨qs, hqs, harcless, hadded⟩ hnull
          · exact absurd he hfull.1
        · exact absurd ⟨e, runCalls_error_mono hrun hpre, he⟩ hnot
  · rintro hroom ⟨e, hrun, he⟩
    obtain ⟨pre, c, u, hpre, hu, hc⟩ := exists_call_of_error hrun
    rcases (counted_of_runCalls hu).exec_error hc with hisnull | ⟨-, hrebuild, hfull⟩
    · exact he hisnull.1
    · have hnull : ¬MeetsNull (pre ++ [c]) := by
        rintro ⟨qs, hqs, harcless, hadded⟩
        rcases List.prefix_concat_iff.mp hqs with hlast | hbefore
        · exact hrebuild (List.singleton_inj.mp (List.append_inj_right' hlast rfl)).symm
        · exact not_meetsNull_of_runCalls hu ⟨qs, hbefore, harcless, hadded⟩
      obtain ⟨hadded, hregistered⟩ := hroom _ hpre hnull
      omega

/-- **The tables stay in bounds** exactly as long as the calls leave room: for every
sequence of calls of the functions, on any names, every index used is below the size
of its array and the counters are at most these sizes, if and only if there are at most
`MAX_NODES` calls of `add_node` and at most `MAX_FEATURES` of `feature_register` behind
each `feature_arc_init`, up to the first rebuild that meets a `NULL` name. -/
theorem tables_in_bounds_iff (cs : List Call) : InBounds cs ↔ HasRoom cs :=
  (inBounds_iff_not_overflows cs).trans (not_overflows_iff_hasRoom cs)

/-- A node more than there is room for, and a feature more. -/
theorem full_arrays_overrun :
    ¬InBounds (List.replicate 17 (.addNode "NAT")) ∧
      ¬InBounds (.featureArcInit "L3" "L4" :: List.replicate 9 (.featureRegister "NAT")) := by
  rw [inBounds_iff_not_overflows, inBounds_iff_not_overflows, not_not, not_not]
  exact ⟨⟨.nodesOverflow, rfl, by decide⟩, ⟨.featuresOverflow, rfl, by decide⟩⟩

end DpdkStarter.FeatureArc
