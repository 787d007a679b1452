import DpdkStarter.FeatureArc.Reinit

/-!
`feature_arc/sample/main.c` with names registered more than once, and names that
have no node.

`feature_register` takes any name. A repeated one is passed twice by a rebuild,
and the second time its link is overwritten, so that the walk goes on behind the
last occurrence; at a name without a node the chain breaks off, since `set_next`
writes nothing there.

* `visited`: what `dump_pipeline` prints name by name, also when it never ends.
* `nextOf_threadLinks_mem`: the link a rebuild leaves in a node of the chain.
* `visitsAll_rebuild`, `covered_of_visitsAll`: one rebuild.
* `no_feature_bypassed`: every rebuild of a sequence of calls.
-/

namespace DpdkStarter.FeatureArc

open Successor Machine

/-! ### The names the walk visits -/

/-- The name `dump_pipeline` prints at a step, if it gets that far. -/
def visited (t : Tables) (i : ℕ) : Option String :=
  t.arc.startName.bind fun start => visit (nextOf t.nodes) start i

/-- A `dump_pipeline` that ends prints the names visited. -/
theorem visited_of_dumpPipeline {t : Tables} {fuel : ℕ} {path : List String}
    (h : dumpPipeline fuel t = some path) (i : ℕ) : visited t i = path[i]? := by
  rw [dumpPipeline] at h
  rw [visited]
  cases hstart : t.arc.startName with
  | none =>
      rw [hstart] at h
      rw [← Option.some.inj h]
      rfl
  | some start =>
      rw [hstart] at h
      exact visit_of_walk h i

/-- The walk reaches the end of the arc and visits every enabled feature once. -/
def Tables.VisitsAll (t : Tables) : Prop :=
  (∃ stop ∈ t.arc.endName, ∃ i, visited t i = some stop) ∧
    ∀ f ∈ enabledNames t.arc.slots, ∃! i, visited t i = some f

/-- The tables hold nodes of distinct names, of which two are the start and the end
of the arc; no feature is registered under these. -/
def Tables.Ends (t : Tables) : Prop :=
  (t.nodes.map Node.name).Nodup ∧
    ∃ start ∈ t.arc.startName, ∃ stop ∈ t.arc.endName, start ≠ stop ∧
      start ∈ t.nodes.map Node.name ∧ stop ∈ t.nodes.map Node.name ∧
        start ∉ t.arc.slots.map Slot.name ∧ stop ∉ t.arc.slots.map Slot.name

/-- Every enabled feature has a node and is met on the way through the enabled
features that goes on behind the last occurrence of each; and, if there is one,
the links from the end of the arc do not lead back to it. -/
def Tables.Covered (t : Tables) : Prop :=
  (∀ f ∈ enabledNames t.arc.slots,
      f ∈ t.nodes.map Node.name ∧ f ∈ follow (enabledNames t.arc.slots)) ∧
    (enabledNames t.arc.slots ≠ [] → ∀ start ∈ t.arc.startName, ∀ stop ∈ t.arc.endName,
      ∀ i x, visit (nextOf t.nodes) stop i = some x →
        x ∉ start :: enabledNames t.arc.slots)

/-! ### The links of a chain with repetitions -/

/-- **The link a rebuild leaves** in a node of the chain is the one written last:
to what comes behind the last occurrence of its name. -/
lemma nextOf_threadLinks_mem {e p x : String} {fs : List String} {ns : List Node}
    (hnodup : (ns.map Node.name).Nodup) (hx : x ∈ p :: fs) (hnode : x ∈ ns.map Node.name) :
    nextOf (threadLinks e p fs ns) x = (afterLast x fs ++ [e]).head? := by
  induction fs generalizing p ns with
  | nil =>
      rw [List.mem_singleton.mp hx] at hnode ⊢
      rw [threadLinks, nextOf_writeNext hnodup hnode, Function.update_self]
      rfl
  | cons f fs ih =>
      have hnodup' : ((writeNext p (some f) ns).map Node.name).Nodup := by
        rwa [map_name_writeNext]
      rw [threadLinks]
      by_cases hmem : x ∈ f :: fs
      · rw [ih hnodup' hmem (by rwa [map_name_writeNext]), afterLast, if_pos hmem]
      · -- no later link is written at `x`
        have hxp : x = p := (List.mem_cons.mp hx).resolve_right hmem
        rw [nextOf_threadLinks_of_notMem hnodup' hmem, afterLast_of_notMem hmem, hxp,
          nextOf_writeNext hnodup (hxp ▸ hnode), Function.update_self]
        rfl

section Chain

variable {start stop : String} {fs : List String} {ns : List Node}
  (hnodup : (ns.map Node.name).Nodup) (hstart : start ∈ ns.map Node.name) (hoff : start ∉ fs)

include hnodup hstart hoff

/-- The links make the chain the walk follows. -/
lemma isChain_threadLinks (hnodes : ∀ f ∈ follow fs, f ∈ ns.map Node.name) :
    List.IsChain (fun x y => nextOf (threadLinks stop start fs ns) x = some y)
      (start :: (follow fs ++ [stop])) := by
  refine isChain_follow (List.suffix_refl fs) ?_ ?_
  · rw [nextOf_threadLinks_mem hnodup List.mem_cons_self hstart, afterLast_of_notMem hoff]
  · intro x hx
    exact nextOf_threadLinks_mem hnodup (List.mem_cons_of_mem start (mem_of_mem_follow hx))
      (hnodes x hx)

omit hstart hoff in
/-- A walk gets past no name without a node. -/
lemma follow_mem_nodes {a : String} {m : List String} {i : ℕ} (hm : m <:+ fs)
    (ha : nextOf (threadLinks stop start fs ns) a = (m ++ [stop]).head?) (hne : a ≠ stop)
    (hstop : stop ∉ fs)
    (hvisit : visit (nextOf (threadLinks stop start fs ns)) a i = some stop) :
    ∀ f ∈ follow m, f ∈ ns.map Node.name := by
  induction m using follow.induct generalizing a i with
  | case1 =>
      rw [follow]
      exact fun f hf => absurd hf List.not_mem_nil
  | case2 b bs ih =>
      have hb : b ∈ fs := hm.subset List.mem_cons_self
      have hbne : b ≠ stop := fun h => hstop (h ▸ hb)
      cases i with
      | zero => exact absurd (Option.some.inj hvisit) hne
      | succ i =>
          rw [visit, ha, List.cons_append, List.head?_cons, Option.bind_some] at hvisit
          have hnode : b ∈ ns.map Node.name := by
            by_contra hout
            have hend : nextOf (threadLinks stop start fs ns) b = none :=
              nextOf_of_notMem (by rwa [map_name_threadLinks])
            cases i with
            | zero => exact hbne (Option.some.inj hvisit)
            | succ i =>
                rw [visit, hend] at hvisit
                cases hvisit
          have hlink : nextOf (threadLinks stop start fs ns) b
              = (afterLast b bs ++ [stop]).head? := by
            obtain ⟨pre, rfl⟩ := hm
            rw [nextOf_threadLinks_mem hnodup (List.mem_cons_of_mem start hb) hnode,
              afterLast_append List.mem_cons_self, afterLast_cons_self]
          have hsuffix : afterLast b bs <:+ fs :=
            ((afterLast_suffix b bs).trans (List.suffix_cons b bs)).trans hm
          rw [follow]
          exact List.forall_mem_cons.mpr ⟨hnode, ih hsuffix hlink hbne hvisit⟩

variable (hnodes : ∀ f ∈ follow fs, f ∈ ns.map Node.name)

include hnodes

/-- The walk comes to the end of the arc. -/
lemma exists_visit_stop : ∃ i, visit (nextOf (threadLinks stop start fs ns)) start i = some stop :=
  ⟨_, (visit_of_isChain (isChain_threadLinks hnodup hstart hoff hnodes)).2 0⟩

/-- It visits what it follows, and never again when the links from the end do not
lead back. -/
lemma existsUnique_visit
    (haway : ∀ i x, visit (nextOf ns) stop i = some x → x ∉ start :: fs) {f : String}
    (hf : f ∈ follow fs) :
    ∃! i, visit (nextOf (threadLinks stop start fs ns)) start i = some f := by
  obtain ⟨hleft, hright⟩ :=
    visit_of_isChain (@isChain_threadLinks start stop fs ns hnodup hstart hoff hnodes)
  have hdistinct : (start :: follow fs).Nodup :=
    List.nodup_cons.mpr ⟨fun h => hoff (mem_of_mem_follow h), nodup_follow fs⟩
  obtain ⟨k, hk⟩ := List.mem_iff_getElem?.mp hf
  have hklt : k < (follow fs).length := (List.getElem?_eq_some_iff.mp hk).1
  refine ⟨k + 1, (hleft (k + 1) hklt).trans hk, fun i hi => ?_⟩
  by_cases hle : i ≤ (follow fs).length
  · have hsame : (start :: follow fs)[i]? = (start :: follow fs)[k + 1]? := by
      rw [← hleft i hle, hi, List.getElem?_cons_succ, hk]
    exact (List.getElem?_inj (by rw [List.length_cons]; omega) hdistinct).mp hsame
  · -- behind the end the links are the old ones
    obtain ⟨j, rfl⟩ := Nat.exists_eq_add_of_le (not_le.mp hle)
    have hkept : visit (nextOf (threadLinks stop start fs ns)) stop j = visit (nextOf ns) stop j :=
      visit_congr (fun l x hx => nextOf_threadLinks_of_notMem hnodup (haway l x hx)) j
    have hold : visit (nextOf ns) stop j = some f :=
      calc visit (nextOf ns) stop j
          = visit (nextOf (threadLinks stop start fs ns)) stop j := hkept.symm
        _ = visit (nextOf (threadLinks stop start fs ns)) start ((follow fs).length + 1 + j) :=
            (hright j).symm
        _ = some f := hi
    exact absurd (List.mem_cons_of_mem start (mem_of_mem_follow hf)) (haway j f hold)

/-- When the end links to no node, nothing else is visited. -/
lemma mem_follow_of_visit (hfree : nextOf ns stop = none) (hstop : stop ∉ start :: fs)
    {f : String} {i : ℕ} (hf : f ∈ fs)
    (hvisit : visit (nextOf (threadLinks stop start fs ns)) start i = some f) :
    f ∈ follow fs := by
  obtain ⟨hleft, hright⟩ :=
    visit_of_isChain (@isChain_threadLinks start stop fs ns hnodup hstart hoff hnodes)
  by_cases hle : i ≤ (follow fs).length
  · rw [hleft i hle] at hvisit
    rcases List.mem_cons.mp (List.mem_of_getElem? hvisit) with rfl | hmem
    · exact absurd hf hoff
    · exact hmem
  · obtain ⟨j, rfl⟩ := Nat.exists_eq_add_of_le (not_le.mp hle)
    rw [hright] at hvisit
    cases j with
    | zero => exact absurd (Option.some.inj hvisit ▸ List.mem_cons_of_mem start hf) hstop
    | succ j =>
        rw [visit, nextOf_threadLinks_of_notMem hnodup hstop, hfree] at hvisit
        cases hvisit

end Chain

/-! ### One rebuild -/

lemma enabledNames_subset (slots : List Slot) : enabledNames slots ⊆ slots.map Slot.name :=
  (List.filter_sublist.map _).subset

/-- The end of an arc is not in its chain. -/
lemma stop_notMem_chain {start stop : String} {slots : List Slot} (hne : start ≠ stop)
    (hstop : stop ∉ slots.map Slot.name) : stop ∉ start :: enabledNames slots := by
  rw [List.mem_cons, not_or]
  exact ⟨Ne.symm hne, fun h => hstop (enabledNames_subset slots h)⟩

/-- **A covered arc**: the walk after the rebuild visits every enabled feature
once. -/
lemma visitsAll_rebuild {t : Tables} (h : t.Ends) (hcovered : t.Covered) :
    ∃ u, featureArcRebuild t = .ok u ∧ u.VisitsAll := by
  obtain ⟨hnodup, start, hstart, stop, hstop, -, hstartnode, -, hstartoff, -⟩ := h
  obtain ⟨hmeets, haway⟩ := hcovered
  have hoff : start ∉ enabledNames t.arc.slots := fun h => hstartoff (enabledNames_subset _ h)
  have hnodes : ∀ f ∈ follow (enabledNames t.arc.slots), f ∈ t.nodes.map Node.name :=
    fun f hf => (hmeets f (mem_of_mem_follow hf)).1
  refine ⟨_, featureArcRebuild_eq hstart hstop, ⟨stop, hstop, ?_⟩, fun f hf => ?_⟩
  · simp only [visited, Option.mem_def.mp hstart, Option.bind_some]
    exact exists_visit_stop hnodup hstartnode hoff hnodes
  · simp only [visited, Option.mem_def.mp hstart, Option.bind_some]
    exact existsUnique_visit hnodup hstartnode hoff hnodes
      (haway (List.ne_nil_of_mem hf) start hstart stop hstop) (hmeets f hf).2

/-- An end that links to no node does not lead back. -/
lemma notMem_of_visit_stop {t : Tables} {start stop x : String} {i : ℕ}
    (hfree : nextOf t.nodes stop = none) (hoff : stop ∉ start :: enabledNames t.arc.slots)
    (hx : visit (nextOf t.nodes) stop i = some x) : x ∉ start :: enabledNames t.arc.slots := by
  cases i with
  | zero =>
      rw [← Option.some.inj hx]
      exact hoff
  | succ i =>
      rw [visit, hfree] at hx
      cases hx

/-- Where the end of the arc links to no node, only a covered arc is visited so. -/
lemma covered_of_visitsAll {t : Tables} (h : t.Ends) (hfree : t.EndFree)
    (hvisits : ∃ u, featureArcRebuild t = .ok u ∧ u.VisitsAll) : t.Covered := by
  obtain ⟨hnodup, start, hstart, stop, hstop, hne, hstartnode, -, hstartoff, hstopoff⟩ := h
  have hoff : start ∉ enabledNames t.arc.slots := fun h => hstartoff (enabledNames_subset _ h)
  have hchain := stop_notMem_chain hne hstopoff
  have hend : nextOf t.nodes stop = none := hfree stop hstop
  obtain ⟨u, hu, ⟨stop', hstop', i, hi⟩, honce⟩ := hvisits
  rw [featureArcRebuild_eq hstart hstop] at hu
  obtain rfl := Except.ok.inj hu
  obtain rfl : stop' = stop := Option.some.inj (hstop'.symm.trans hstop)
  simp only [visited, Option.mem_def.mp hstart, Option.bind_some] at hi honce
  have hnodes : ∀ f ∈ follow (enabledNames t.arc.slots), f ∈ t.nodes.map Node.name := by
    refine follow_mem_nodes hnodup (List.suffix_refl _) ?_ hne
      (fun h => hchain (List.mem_cons_of_mem start h)) hi
    rw [nextOf_threadLinks_mem hnodup List.mem_cons_self hstartnode, afterLast_of_notMem hoff]
  constructor
  · intro f hf
    obtain ⟨k, hk, -⟩ := honce f hf
    have hmeet : f ∈ follow (enabledNames t.arc.slots) :=
      mem_follow_of_visit hnodup hstartnode hoff hnodes hend hchain hf hk
    exact ⟨hnodes f hmeet, hmeet⟩
  · intro _ start' hstart' stop'' hstop'' k x hx
    obtain rfl : start' = start := Option.some.inj (hstart'.symm.trans hstart)
    obtain rfl : stop'' = stop' := Option.some.inj (hstop''.symm.trans hstop)
    exact notMem_of_visit_stop hend hchain hx

/-! ### Sequences of calls -/

/-- A rebuild finds an arc between two nodes, with no feature of their names. -/
def EndsAtRebuild : Call → Except Fault Tables → Prop
  | .featureArcRebuild, .ok t => t.Ends
  | _, _ => True

/-- A rebuild returns, and the walk right after it visits every enabled feature
once. -/
def VisitsAfterRebuild : Call → Except Fault Tables → Prop
  | .featureArcRebuild, r => ∃ u, call .featureArcRebuild r = .ok u ∧ u.VisitsAll
  | _, _ => True

/-- A rebuild is reached without undefined behaviour and finds a covered arc. -/
def CoveredAtRebuild : Call → Except Fault Tables → Prop
  | .featureArcRebuild, .ok t => t.Covered
  | .featureArcRebuild, .error _ => False
  | _, _ => True

lemma visitsAfterRebuild_of_covered {c : Call} {r : Except Fault Tables}
    (hends : EndsAtRebuild c r) (hcovered : CoveredAtRebuild c r) : VisitsAfterRebuild c r := by
  cases c with
  | featureArcRebuild =>
      cases r with
      | ok t => exact visitsAll_rebuild hends hcovered
      | error fault => exact hcovered.elim
  | _ => trivial

lemma coveredAtRebuild_of_visits {c : Call} {r : Except Fault Tables}
    (hends : EndsAtRebuild c r) (hfree : FreeAtRebuild c r) (hvisits : VisitsAfterRebuild c r) :
    CoveredAtRebuild c r := by
  cases c with
  | featureArcRebuild =>
      cases r with
      | ok t => exact covered_of_visitsAll hends hfree hvisits
      | error fault => exact hfree.elim
  | _ => trivial

/-- **No enabled feature is bypassed.** For every sequence of calls in which each
rebuild finds distinct nodes and an arc between two of them, whatever names are
registered: when each rebuild finds a covered arc, the walk right after each
rebuild reaches the end of the arc and visits every enabled feature once. When no
end has a link of its own, only then. -/
theorem no_feature_bypassed (cs : List Call)
    (hends : StepsMeet call EndsAtRebuild cs (.ok Tables.init)) :
    (StepsMeet call CoveredAtRebuild cs (.ok Tables.init) →
        StepsMeet call VisitsAfterRebuild cs (.ok Tables.init)) ∧
      (StepsMeet call FreeAtRebuild cs (.ok Tables.init) →
        (StepsMeet call VisitsAfterRebuild cs (.ok Tables.init)
          ↔ StepsMeet call CoveredAtRebuild cs (.ok Tables.init))) := by
  have hforward : StepsMeet call CoveredAtRebuild cs (.ok Tables.init) →
      StepsMeet call VisitsAfterRebuild cs (.ok Tables.init) := fun hcovered =>
    stepsMeet_mono (fun _ _ h => visitsAfterRebuild_of_covered h.1 h.2)
      (stepsMeet_and.mpr ⟨hends, hcovered⟩)
  refine ⟨hforward, fun hfree => ⟨fun hvisits => ?_, hforward⟩⟩
  exact stepsMeet_mono (fun _ _ h => coveredAtRebuild_of_visits h.1.1 h.1.2 h.2)
    (stepsMeet_and.mpr ⟨stepsMeet_and.mpr ⟨hends, hfree⟩, hvisits⟩)

instance (t : Tables) : Decidable t.Ends := inferInstanceAs (Decidable (_ ∧ _))

instance : ∀ c r, Decidable (EndsAtRebuild c r)
  | .featureArcRebuild, .ok t => inferInstanceAs (Decidable t.Ends)
  | .featureArcRebuild, .error _ => isTrue trivial
  | .addNode _, _ | .setNext _ _, _ | .featureArcInit _ _, _ | .featureRegister _, _
  | .featureEnable _, _ | .featureDisable _, _ => isTrue trivial

/-- One arc with these features, all of them enabled. -/
def enabledArc (feats : List String) : List Call :=
  ["L3", "Firewall", "NAT", "L4"].map .addNode ++ .featureArcInit "L3" "L4"
    :: (feats.map .featureRegister ++ feats.map .featureEnable) ++ [.featureArcRebuild]

/-- The tables such an arc is rebuilt from. -/
def enabledTables (feats : List String) : Tables :=
  ⟨["L3", "Firewall", "NAT", "L4"].map (⟨·, none⟩), ⟨some "L3", some "L4", feats.map (⟨·, true⟩)⟩⟩

/-- A feature registered again behind another one: the walk goes on behind the
second, and the one between is bypassed. -/
theorem repeated_feature_bypasses :
    StepsMeet call EndsAtRebuild (enabledArc ["Firewall", "NAT", "Firewall"]) (.ok Tables.init) ∧
      ¬StepsMeet call VisitsAfterRebuild (enabledArc ["Firewall", "NAT", "Firewall"])
        (.ok Tables.init) := by
  refine ⟨by decide, fun hvisits => ?_⟩
  obtain ⟨-, -, -, -, -, -, -, -, -, -, -, hlast, -⟩ := hvisits
  have hcovered : (enabledTables ["Firewall", "NAT", "Firewall"]).Covered :=
    covered_of_visitsAll (by decide) (by decide) hlast
  have hmeet := (hcovered.1 "NAT" (by decide)).2
  simp [enabledTables, enabledNames, follow, afterLast] at hmeet

/-- A feature registered twice in a row is visited once. -/
theorem doubled_feature_visited :
    StepsMeet call VisitsAfterRebuild (enabledArc ["Firewall", "Firewall", "NAT"])
      (.ok Tables.init) := by
  refine (no_feature_bypassed _ (by decide)).1 ?_
  have hnodes : ∀ f ∈ ["Firewall", "Firewall", "NAT"], f ∈ ["L3", "Firewall", "NAT", "L4"] := by
    decide
  have hmeets : ∀ f ∈ ["Firewall", "Firewall", "NAT"],
      f ∈ follow ["Firewall", "Firewall", "NAT"] := by
    simp [follow, afterLast]
  have hcovered : (enabledTables ["Firewall", "Firewall", "NAT"]).Covered := by
    refine ⟨fun f hf => ⟨hnodes f hf, hmeets f hf⟩, fun _ start hstart stop hstop i x => ?_⟩
    obtain rfl := Option.some.inj hstart
    obtain rfl := Option.some.inj hstop
    exact notMem_of_visit_stop (by decide) (by decide)
  exact ⟨trivial, trivial, trivial, trivial, trivial, trivial, trivial, trivial, trivial, trivial,
    trivial, hcovered, trivial⟩

end DpdkStarter.FeatureArc
