import DpdkStarter.FeatureArc.Tables

/-!
`feature_arc/sample/main.c`: what `dump_pipeline` prints after a rebuild.

The next pointers are updated in place and never cleared, so the nodes of
disabled features keep links into the chain. The purpose of the component is
nevertheless a plain function of the history: `isOn before f` says that the
latest `feature_enable` or `feature_disable` of `f` enabled it, and the
pipeline is the start, the features that are on in registration order, and the
end.

* `featureArcRebuild_eq`: a rebuild threads the chain of the enabled features
  through the table, `nextOf_threadLinks`: on distinct names this is `relink`
  of the successor map.
* `Configured`: the invariant of a history of switches, `Configured.exec` its
  preservation by one call, `Configured.runCalls` by a whole history.
* `dumpPipeline_after_rebuild`: the walk between two rebuilds.
-/

namespace DpdkStarter.FeatureArc

open Successor

/-! ### One rebuild -/

/-- The names of the enabled slots, in registration order. -/
def enabledNames (fs : List Slot) : List String := (fs.filter (·.enabled)).map Slot.name

/-- The links a rebuild writes, one `set_next` at a time: from `p` through the
names of the list to `e`. -/
def threadLinks (e : String) : String → List String → List Node → List Node
  | p, [], ns => writeNext p (some e) ns
  | p, f :: fs, ns => threadLinks e f fs (writeNext p (some f) ns)

/-- **A rebuild of an initialised arc** threads the enabled features from the
start to the end, and meets no undefined behaviour. -/
lemma featureArcRebuild_eq {t : Tables} {start stop : String}
    (hstart : t.arc.startName = some start) (hstop : t.arc.endName = some stop) :
    featureArcRebuild t
      = .ok { t with nodes := threadLinks stop start (enabledNames t.arc.slots) t.nodes } := by
  have key : ∀ (fs : List Slot) (p : String) (ns : List Node),
      (rebuildLoop (some p) fs ns >>= fun q => setNext q.1 (some stop) q.2)
        = Except.ok (threadLinks stop p (enabledNames fs) ns) := by
    intro fs
    induction fs with
    | nil => intro p ns; rfl
    | cons f fs ih =>
        intro p ns
        by_cases hf : f.enabled = true
        · have hnames : enabledNames (f :: fs) = f.name :: enabledNames fs := by
            simp [enabledNames, hf]
          rw [hnames, threadLinks, ← ih, rebuildLoop, if_pos hf]
          rfl
        · have hnames : enabledNames (f :: fs) = enabledNames fs := by
            simp [enabledNames, hf]
          rw [hnames, ← ih, rebuildLoop, if_neg hf]
  have hloop := key t.arc.slots start t.nodes
  rw [← hstart, ← hstop] at hloop
  rw [featureArcRebuild]
  cases hr : rebuildLoop t.arc.startName t.arc.slots t.nodes with
  | error e => rw [hr] at hloop; simp [bind, Except.bind] at hloop
  | ok q =>
      rw [hr] at hloop
      have hset : setNext q.1 t.arc.endName q.2
          = .ok (threadLinks stop start (enabledNames t.arc.slots) t.nodes) := hloop
      simp only [bind, Except.bind, hset]
      rfl

/-- A rebuild keeps the names of the table. -/
@[simp] lemma map_name_threadLinks (e p : String) (fs : List String) (ns : List Node) :
    (threadLinks e p fs ns).map Node.name = ns.map Node.name := by
  induction fs generalizing p ns with
  | nil => rw [threadLinks, map_name_writeNext]
  | cons f fs ih => rw [threadLinks, ih, map_name_writeNext]

/-- On a table of distinct names a rebuild relinks the successor map. -/
lemma nextOf_threadLinks {e p : String} {fs : List String} {ns : List Node}
    (hnodup : (ns.map Node.name).Nodup) (hmem : ∀ x ∈ p :: fs, x ∈ ns.map Node.name) :
    nextOf (threadLinks e p fs ns) = relink (nextOf ns) p fs e := by
  have hp : p ∈ ns.map Node.name := hmem p List.mem_cons_self
  induction fs generalizing p ns with
  | nil => rw [threadLinks, relink, nextOf_writeNext hnodup hp]
  | cons f fs ih =>
      have hfs : ∀ x ∈ f :: fs, x ∈ (writeNext p (some f) ns).map Node.name := fun x hx => by
        rw [map_name_writeNext]
        exact hmem x (List.mem_cons_of_mem p hx)
      rw [threadLinks, relink, ih (by rwa [map_name_writeNext]) hfs (hfs f List.mem_cons_self),
        nextOf_writeNext hnodup hp]

/-- A rebuild leaves the links of every name off the chain as they were. -/
lemma nextOf_threadLinks_of_notMem {e p x : String} {fs : List String} {ns : List Node}
    (hnodup : (ns.map Node.name).Nodup) (hx : x ∉ p :: fs) :
    nextOf (threadLinks e p fs ns) x = nextOf ns x := by
  have hwrite : ∀ {q : String} {d : Option String} {ms : List Node},
      (ms.map Node.name).Nodup → x ≠ q → nextOf (writeNext q d ms) x = nextOf ms x := by
    intro q d ms hms hxq
    by_cases hq : q ∈ ms.map Node.name
    · rw [nextOf_writeNext hms hq, Function.update_of_ne hxq]
    · rw [writeNext_of_notMem hq]
  induction fs generalizing p ns with
  | nil => exact hwrite hnodup (by simpa using hx)
  | cons f fs ih =>
      rw [List.mem_cons, not_or] at hx
      rw [threadLinks, ih (by rwa [map_name_writeNext]) hx.2, hwrite hnodup hx.1]

/-! ### Histories of switches -/

/-- The calls a configured arc receives: `feature_enable`, `feature_disable` and
`feature_arc_rebuild`, on any names. -/
def Call.isSwitch : Call → Bool
  | .featureEnable _ | .featureDisable _ | .featureArcRebuild => true
  | _ => false

/-- The calls that enable or disable `f`. -/
def Call.concerns (f : String) : Call → Bool
  | .featureEnable name | .featureDisable name => name = f
  | _ => false

/-- `f` is on after a history: its latest enable or disable call enabled it. -/
def isOn (history : List Call) (f : String) : Bool :=
  (history.filter (Call.concerns f)).getLast? = some (.featureEnable f)

@[simp] lemma isOn_nil (f : String) : isOn [] f = false := rfl

/-- A call that does not concern `f` leaves it as it was. -/
lemma isOn_concat_of_not_concerns {c : Call} {f : String} (h : c.concerns f = false)
    (history : List Call) : isOn (history ++ [c]) f = isOn history f := by
  simp [isOn, List.filter_append, h]

/-- A call that concerns `f` decides about it. -/
lemma isOn_concat_of_concerns {c : Call} {f : String} (h : c.concerns f = true)
    (history : List Call) : isOn (history ++ [c]) f = decide (c = .featureEnable f) := by
  simp [isOn, List.filter_append, h]

/-- The calls that set up one arc: the nodes, `feature_arc_init` and the
registrations. -/
def setup (names : List String) (start stop : String) (feats : List String) : List Call :=
  names.map .addNode ++ .featureArcInit start stop :: feats.map .featureRegister

/-- The tables right after the set-up. -/
def setupTables (names : List String) (start stop : String) (feats : List String) : Tables :=
  ⟨names.map (⟨·, none⟩), ⟨some start, some stop, feats.map (⟨·, false⟩)⟩⟩

/-- Within the two array sizes the set-up meets no undefined behaviour. -/
lemma runCalls_setup {names feats : List String} (hnames : names.length ≤ maxNodes)
    (hfeats : feats.length ≤ maxFeatures) (start stop : String) :
    runCalls (setup names start stop feats) Tables.init
      = .ok (setupTables names start stop feats) := by
  have hadd : ∀ (l : List String) (t : Tables), t.nodes.length + l.length ≤ maxNodes →
      runCalls (l.map .addNode) t = .ok { t with nodes := t.nodes ++ l.map (⟨·, none⟩) } := by
    intro l
    induction l with
    | nil => intro t _; simp
    | cons a l ih =>
        intro t ht
        simp only [List.length_cons] at ht
        have hstep : (Call.addNode a).exec t = .ok { t with nodes := t.nodes ++ [⟨a, none⟩] } := by
          rw [Call.exec, addNode, if_pos (by omega)]
        rw [List.map_cons, runCalls_cons hstep, ih _ (by simp; omega)]
        simp
  have hreg : ∀ (l : List String) (t : Tables), t.arc.slots.length + l.length ≤ maxFeatures →
      runCalls (l.map .featureRegister) t
        = .ok { t with arc := { t.arc with slots := t.arc.slots ++ l.map (⟨·, false⟩) } } := by
    intro l
    induction l with
    | nil => intro t _; simp
    | cons a l ih =>
        intro t ht
        simp only [List.length_cons] at ht
        have hstep : (Call.featureRegister a).exec t = .ok { t with arc :=
            { t.arc with slots := t.arc.slots ++ [⟨a, false⟩] } } := by
          rw [Call.exec, featureRegister, if_pos (by omega)]
        rw [List.map_cons, runCalls_cons hstep, ih _ (by simp; omega)]
        simp
  rw [setup, runCalls_append (hadd names Tables.init (by simpa [Tables.init] using hnames)),
    runCalls_cons (c := .featureArcInit start stop) rfl,
    hreg _ _ (by simpa [featureArcInit] using hfeats)]
  simp [featureArcInit, setupTables, Tables.init]

/-- **The invariant of a configured arc** after a history of switches: nodes,
arc and registrations are those of the set-up, the flags are what the history
says, and the end has never been given a successor. -/
structure Configured (names : List String) (start stop : String) (feats : List String)
    (history : List Call) (t : Tables) : Prop where
  names_eq : t.nodes.map Node.name = names
  start_eq : t.arc.startName = some start
  stop_eq : t.arc.endName = some stop
  slots_eq : t.arc.slots = feats.map fun f => ⟨f, isOn history f⟩
  stop_free : nextOf t.nodes stop = none

section Configured

variable {names feats : List String} {start stop : String} {history : List Call} {t : Tables}

/-- The set-up configures the arc. -/
lemma configured_setupTables :
    Configured names start stop feats [] (setupTables names start stop feats) where
  names_eq := by simp [setupTables, Function.comp_def]
  start_eq := rfl
  stop_eq := rfl
  slots_eq := by simp [setupTables]
  stop_free := by
    have key : ∀ l : List String, nextOf (l.map (⟨·, none⟩)) stop = none := by
      intro l
      induction l with
      | nil => rfl
      | cons a l ih => rw [List.map_cons, nextOf_cons, ih]; simp
    exact key names

/-- The enabled names of a configured arc are the features that are on. -/
lemma Configured.enabledNames_eq (h : Configured names start stop feats history t) :
    enabledNames t.arc.slots = feats.filter (isOn history) := by
  rw [enabledNames, h.slots_eq, List.filter_map, List.map_map]
  simp [Function.comp_def]

/-- Setting a flag in every slot of a name records the call in the history. -/
lemma Configured.setEnabled (h : Configured names start stop feats history t) {c : Call}
    {flag : Bool} {name : String} (hconcerns : ∀ f, c.concerns f = decide (name = f))
    (hflag : flag = decide (c = .featureEnable name)) :
    Configured names start stop feats (history ++ [c]) (setEnabled flag name t) where
  names_eq := h.names_eq
  start_eq := h.start_eq
  stop_eq := h.stop_eq
  slots_eq := by
    simp only [FeatureArc.setEnabled, h.slots_eq, List.map_map]
    refine List.map_congr_left fun f _ => ?_
    by_cases hf : f = name
    · subst hf
      have hdecides : c.concerns f = true := by simp [hconcerns]
      simp [isOn_concat_of_concerns hdecides, hflag]
    · have hnot : c.concerns f = false := by simp [hconcerns, Ne.symm hf]
      simp [hf, isOn_concat_of_not_concerns hnot]
  stop_free := h.stop_free

/-- A rebuild keeps the arc configured, the end being no member of the chain. -/
lemma Configured.rebuild (h : Configured names start stop feats history t)
    (hnodup : names.Nodup) (hne : start ≠ stop) (hstop : stop ∉ feats) :
    Configured names start stop feats (history ++ [.featureArcRebuild])
      { t with nodes := threadLinks stop start (feats.filter (isOn history)) t.nodes } where
  names_eq := by rw [map_name_threadLinks, h.names_eq]
  start_eq := h.start_eq
  stop_eq := h.stop_eq
  slots_eq := by
    rw [h.slots_eq]
    exact List.map_congr_left fun f _ => by rw [isOn_concat_of_not_concerns rfl]
  stop_free := by
    have hoff : stop ∉ start :: feats.filter (isOn history) := by
      rw [List.mem_cons, not_or]
      exact ⟨hne.symm, fun hs => hstop (List.mem_of_mem_filter hs)⟩
    rw [nextOf_threadLinks_of_notMem (by rw [h.names_eq]; exact hnodup) hoff, h.stop_free]

/-- **One switch**: it meets no undefined behaviour and keeps the arc
configured. -/
lemma Configured.exec (h : Configured names start stop feats history t) (hnodup : names.Nodup)
    (hne : start ≠ stop) (hstop : stop ∉ feats) {c : Call} (hc : c.isSwitch = true) :
    ∃ u, c.exec t = .ok u ∧ Configured names start stop feats (history ++ [c]) u := by
  cases c with
  | featureEnable name => exact ⟨_, rfl, h.setEnabled (fun f => rfl) (by simp)⟩
  | featureDisable name => exact ⟨_, rfl, h.setEnabled (fun f => rfl) (by simp)⟩
  | featureArcRebuild =>
      refine ⟨_, ?_, h.rebuild hnodup hne hstop⟩
      rw [Call.exec, featureArcRebuild_eq h.start_eq h.stop_eq, h.enabledNames_eq]
  | addNode _ | setNext _ _ | featureArcInit _ _ | featureRegister _ => simp [Call.isSwitch] at hc

/-- **A history of switches**: it meets no undefined behaviour and keeps the arc
configured. -/
lemma Configured.runCalls (hnodup : names.Nodup) (hne : start ≠ stop) (hstop : stop ∉ feats)
    {cs : List Call} (hcs : ∀ c ∈ cs, c.isSwitch = true)
    (h : Configured names start stop feats history t) :
    ∃ u, FeatureArc.runCalls cs t = .ok u ∧
      Configured names start stop feats (history ++ cs) u := by
  induction cs generalizing history t with
  | nil => exact ⟨t, rfl, by rwa [List.append_nil]⟩
  | cons c cs ih =>
      obtain ⟨u, hu, hconf⟩ := h.exec hnodup hne hstop (hcs c List.mem_cons_self)
      obtain ⟨v, hv, hconf'⟩ := ih (fun d hd => hcs d (List.mem_cons_of_mem c hd)) hconf
      refine ⟨v, by rw [runCalls_cons hu, hv], ?_⟩
      rwa [List.append_assoc] at hconf'

end Configured

/-- Enable and disable calls leave the nodes alone. -/
lemma nodes_runCalls_of_noRebuild {cs : List Call} {t u : Tables}
    (hcs : ∀ c ∈ cs, c.isSwitch = true ∧ c ≠ .featureArcRebuild)
    (h : runCalls cs t = .ok u) : u.nodes = t.nodes := by
  induction cs generalizing t with
  | nil =>
      rw [runCalls_nil, Except.ok.injEq] at h
      rw [h]
  | cons c cs ih =>
      have hrest : ∀ d ∈ cs, d.isSwitch = true ∧ d ≠ .featureArcRebuild :=
        fun d hd => hcs d (List.mem_cons_of_mem c hd)
      obtain ⟨hsw, hnr⟩ := hcs c List.mem_cons_self
      cases c with
      | featureEnable name => rw [runCalls_cons rfl] at h; exact (ih hrest h).trans rfl
      | featureDisable name => rw [runCalls_cons rfl] at h; exact (ih hrest h).trans rfl
      | featureArcRebuild => exact absurd rfl hnr
      | addNode _ | setNext _ _ | featureArcInit _ _ | featureRegister _ =>
          simp [Call.isSwitch] at hsw

/-- The walk over a configured arc right after a rebuild. -/
lemma walk_threadLinks {names feats : List String} {start stop : String} {ns : List Node}
    (hnames : ns.map Node.name = names) (hnodup : names.Nodup) (hne : start ≠ stop)
    (hfeats : feats.Nodup) (hstart : start ∉ feats) (hstop : stop ∉ feats)
    (hmem : ∀ f ∈ feats, f ∈ names) (hfree : nextOf ns stop = none) {fuel : ℕ}
    (hfuel : feats.length + 1 < fuel) :
    walk (nextOf (threadLinks stop start feats ns)) fuel start
      = some (if start ∈ names then start :: (feats ++ [stop]) else [start]) := by
  split
  · rename_i hin
    have hchain : (start :: feats).Nodup := List.nodup_cons.mpr ⟨hstart, hfeats⟩
    have hoff : stop ∉ start :: feats := by
      rw [List.mem_cons, not_or]
      exact ⟨hne.symm, hstop⟩
    rw [nextOf_threadLinks (by rwa [hnames])
      (by rw [hnames]; exact List.forall_mem_cons.mpr ⟨hin, hmem⟩)]
    exact walk_of_isPath (isPath_relink hchain hoff hfree) (by simpa using hfuel)
  · -- a start without a node has no successor, so the walk ends on it
    rename_i hout
    have hend : nextOf (threadLinks stop start feats ns) start = none :=
      nextOf_of_notMem (by rwa [map_name_threadLinks, hnames])
    exact walk_of_isPath (l := []) hend (by simp; omega)

/-- **The pipeline between two rebuilds.** For every table of distinct nodes,
every arc with `start ≠ end`, all distinct features among the nodes and every
history of enable, disable and rebuild calls on any names, the walk from a
rebuild until the next one ends and visits the start, the features whose latest
switch before that rebuild enabled them, in registration order, and the end; if
the start has no node it visits the start alone. -/
theorem dumpPipeline_after_rebuild {names feats : List String} {start stop : String}
    {before after : List Call} (hnodup : names.Nodup) (hnames : names.length ≤ maxNodes)
    (hne : start ≠ stop) (hfeats : feats.Nodup) (hcount : feats.length ≤ maxFeatures)
    (hstart : start ∉ feats) (hstop : stop ∉ feats) (hmem : ∀ f ∈ feats, f ∈ names)
    (hbefore : ∀ c ∈ before, c.isSwitch = true)
    (hafter : ∀ c ∈ after, c.isSwitch = true ∧ c ≠ .featureArcRebuild) :
    ∃ t, runCalls (setup names start stop feats ++ before ++ .featureArcRebuild :: after)
        Tables.init = .ok t ∧
      ∀ fuel, feats.length + 1 < fuel →
        dumpPipeline fuel t
          = some (if start ∈ names then start :: (feats.filter (isOn before) ++ [stop])
              else [start]) := by
  obtain ⟨u, hu, hconf⟩ := configured_setupTables.runCalls hnodup hne hstop hbefore
  rw [List.nil_append] at hconf
  have hrebuild := featureArcRebuild_eq hconf.start_eq hconf.stop_eq
  rw [hconf.enabledNames_eq] at hrebuild
  obtain ⟨t, ht, hlast⟩ := (hconf.rebuild hnodup hne hstop).runCalls hnodup hne hstop
    (fun c hc => (hafter c hc).1)
  refine ⟨t, ?_, fun fuel hfuel => ?_⟩
  · rw [List.append_assoc, runCalls_append (runCalls_setup hnames hcount start stop),
      runCalls_append hu, runCalls_cons (c := .featureArcRebuild) hrebuild, ht]
  · have hlen : (feats.filter (isOn before)).length ≤ feats.length := List.length_filter_le _ _
    rw [dumpPipeline, hlast.start_eq, nodes_runCalls_of_noRebuild hafter ht]
    exact walk_threadLinks hconf.names_eq hnodup hne (hfeats.filter _)
      (fun h => hstart (List.mem_of_mem_filter h)) (fun h => hstop (List.mem_of_mem_filter h))
      (fun f hf => hmem f (List.mem_of_mem_filter hf)) hconf.stop_free (by omega)

/-- Case 4 of `main` after its first three: `NAT` was enabled by an earlier
rebuild and keeps a link into the chain that the walk does not meet. -/
theorem dumpPipeline_main_case4 :
    ∃ t, runCalls (setup ["L3", "Firewall", "NAT", "QoS", "L4"] "L3" "L4"
          ["Firewall", "NAT", "QoS"]
        ++ [.featureArcRebuild, .featureEnable "Firewall", .featureArcRebuild,
          .featureEnable "NAT", .featureArcRebuild, .featureDisable "Firewall",
          .featureDisable "NAT", .featureEnable "QoS"]
        ++ [.featureArcRebuild]) Tables.init = .ok t ∧
      ∀ fuel, 4 < fuel → dumpPipeline fuel t = some ["L3", "QoS", "L4"] :=
  dumpPipeline_after_rebuild (by decide) (by decide) (by decide) (by decide) (by decide)
    (by decide) (by decide) (by decide) (by decide) (by decide)

/-- The walk needs the start to have a node: `set_next` ignores a name without
one, so the chain below a missing start is never linked to it, and the walk
does not get past the start. -/
theorem dumpPipeline_start_without_node :
    ∃ t, runCalls (setup ["Firewall"] "L3" "L4" ["Firewall"]
        ++ [.featureEnable "Firewall"] ++ [.featureArcRebuild]) Tables.init = .ok t ∧
      ∀ fuel, dumpPipeline fuel t ≠ some ["L3", "Firewall", "L4"] := by
  refine ⟨⟨[⟨"Firewall", some "L4"⟩], ⟨some "L3", some "L4", [⟨"Firewall", true⟩]⟩⟩, rfl,
    fun fuel => ?_⟩
  cases fuel with
  | zero => simp [dumpPipeline, walk]
  | succ k => simp [dumpPipeline, walk, nextOf]

end DpdkStarter.FeatureArc
