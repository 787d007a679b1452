import DpdkStarter.Library.Successor

/-!
`feature_arc/sample/main.c`: the node table, the feature arc and the functions
that edit them.

The two static arrays are lists, `node_count` and `l3_arc.count` being their
lengths: entries past the count are never read before they are written again.
What the C code leaves undefined is a `Fault`: `add_node` and
`feature_register` write past their arrays when these are full, and `set_next`
hands a `NULL` name to `strcmp` when the arc was never initialised.

* `Tables`: the static data, `Tables.init` its value at program start.
* `Call`, `Call.exec`, `runCalls`: the functions and sequences of calls to them.
* `nextOf`, `dumpPipeline`: the lookup loop and the walk of `dump_pipeline`.
* `nextOf_writeNext`: on a table of distinct names, writing a link updates the
  successor map at that name only.
-/

namespace DpdkStarter.FeatureArc

open Successor

/-- `MAX_FEATURES`. -/
def maxFeatures : ℕ := 8

/-- `MAX_NODES`. -/
def maxNodes : ℕ := 16

/-- `struct node`; a `NULL` pointer is `none`. -/
structure Node where
  name : String
  next : Option String
  deriving DecidableEq, Repr

/-- The entries of the parallel arrays `features` and `enabled` at one index. -/
structure Slot where
  name : String
  enabled : Bool
  deriving DecidableEq, Repr

/-- `struct feature_arc`. The names `start` and `end` are `NULL` until
`feature_arc_init` sets them. -/
structure Arc where
  startName : Option String
  endName : Option String
  slots : List Slot
  deriving DecidableEq, Repr

/-- The static data `nodes`, `node_count` and `l3_arc`. -/
structure Tables where
  nodes : List Node
  arc : Arc
  deriving DecidableEq, Repr

/-- The static data at program start, all zero. -/
def Tables.init : Tables := ⟨[], ⟨none, none, []⟩⟩

/-- The undefined behaviours the functions can run into. -/
inductive Fault where
  | nodesOverflow | featuresOverflow | nullName
  deriving DecidableEq, Repr

/-! ### The functions of the file -/

/-- `add_node`. -/
def addNode (name : String) (t : Tables) : Except Fault Tables :=
  if t.nodes.length < maxNodes then
    .ok { t with nodes := t.nodes ++ [⟨name, none⟩] }
  else
    .error .nodesOverflow

/-- The loop of `set_next`: the first node of that name is written. -/
def writeNext (src : String) (dst : Option String) : List Node → List Node
  | [] => []
  | n :: ns => if n.name = src then { n with next := dst } :: ns else n :: writeNext src dst ns

/-- `set_next`. A `NULL` name is only noticed when there is a node to compare
it with. -/
def setNext (src dst : Option String) (ns : List Node) : Except Fault (List Node) :=
  match src, ns with
  | some s, ns => .ok (writeNext s dst ns)
  | none, [] => .ok []
  | none, _ :: _ => .error .nullName

/-- `feature_arc_init`. -/
def featureArcInit (start stop : String) (t : Tables) : Tables :=
  { t with arc := ⟨some start, some stop, []⟩ }

/-- `feature_register`. -/
def featureRegister (name : String) (t : Tables) : Except Fault Tables :=
  if t.arc.slots.length < maxFeatures then
    .ok { t with arc := { t.arc with slots := t.arc.slots ++ [⟨name, false⟩] } }
  else
    .error .featuresOverflow

/-- The loop `feature_enable` and `feature_disable` share: every slot of that
name gets the flag. -/
def setEnabled (flag : Bool) (name : String) (t : Tables) : Tables :=
  { t with arc := { t.arc with
      slots := t.arc.slots.map fun f => if f.name = name then { f with enabled := flag } else f } }

/-- `feature_enable`. -/
def featureEnable (name : String) (t : Tables) : Tables := setEnabled true name t

/-- `feature_disable`. -/
def featureDisable (name : String) (t : Tables) : Tables := setEnabled false name t

/-- The loop of `feature_arc_rebuild`, returning the last `prev` and the nodes. -/
def rebuildLoop : Option String → List Slot → List Node →
    Except Fault (Option String × List Node)
  | prev, [], ns => .ok (prev, ns)
  | prev, f :: fs, ns =>
      if f.enabled then do
        let ns ← setNext prev (some f.name) ns
        rebuildLoop (some f.name) fs ns
      else
        rebuildLoop prev fs ns

/-- `feature_arc_rebuild`. -/
def featureArcRebuild (t : Tables) : Except Fault Tables := do
  let (prev, ns) ← rebuildLoop t.arc.startName t.arc.slots t.nodes
  let ns ← setNext prev t.arc.endName ns
  return { t with nodes := ns }

/-- The lookup loop of `dump_pipeline`: it runs to the end of the table, so the
last node of that name decides. -/
def nextOf (ns : List Node) (cur : String) : Option String :=
  ns.foldl (fun next n => if n.name = cur then n.next else next) none

/-- `dump_pipeline`: the names it prints, `none` while it is still walking when
the fuel is spent. -/
def dumpPipeline (fuel : ℕ) (t : Tables) : Option (List String) :=
  match t.arc.startName with
  | none => some []
  | some start => walk (nextOf t.nodes) fuel start

/-! ### Sequences of calls -/

/-- A call of one of the functions that edit the tables. -/
inductive Call where
  | addNode (name : String)
  | setNext (src dst : String)
  | featureArcInit (start stop : String)
  | featureRegister (name : String)
  | featureEnable (name : String)
  | featureDisable (name : String)
  | featureArcRebuild
  deriving DecidableEq, Repr

/-- What a call does. -/
def Call.exec : Call → Tables → Except Fault Tables
  | .addNode name, t => FeatureArc.addNode name t
  | .setNext src dst, t => do
      let ns ← FeatureArc.setNext (some src) (some dst) t.nodes
      return { t with nodes := ns }
  | .featureArcInit start stop, t => .ok (FeatureArc.featureArcInit start stop t)
  | .featureRegister name, t => FeatureArc.featureRegister name t
  | .featureEnable name, t => .ok (FeatureArc.featureEnable name t)
  | .featureDisable name, t => .ok (FeatureArc.featureDisable name t)
  | .featureArcRebuild, t => FeatureArc.featureArcRebuild t

/-- A sequence of calls, stopped by the first undefined behaviour. -/
def runCalls (cs : List Call) (t : Tables) : Except Fault Tables :=
  cs.foldlM (fun t c => c.exec t) t

@[simp] lemma runCalls_nil (t : Tables) : runCalls [] t = .ok t := rfl

lemma runCalls_cons {c : Call} {t u : Tables} (h : c.exec t = .ok u) (cs : List Call) :
    runCalls (c :: cs) t = runCalls cs u := by
  simp only [runCalls, List.foldlM_cons, h]
  rfl

/-- Sequences of calls compose. -/
lemma runCalls_append {cs : List Call} {t u : Tables} (h : runCalls cs t = .ok u)
    (ds : List Call) : runCalls (cs ++ ds) t = runCalls ds u := by
  simp only [runCalls, List.foldlM_append] at h ⊢
  rw [h]
  rfl

/-! ### The successor map of a node table -/

/-- The successor map, from the front of the table: a later node of the same
name takes precedence. -/
lemma nextOf_cons (n : Node) (ns : List Node) (x : String) :
    nextOf (n :: ns) x
      = if x ∈ ns.map Node.name then nextOf ns x else if n.name = x then n.next else none := by
  have key : ∀ (l : List Node) (a : Option String),
      l.foldl (fun next n => if n.name = x then n.next else next) a
        = if x ∈ l.map Node.name then nextOf l x else a := by
    intro l
    induction l with
    | nil => intro a; simp
    | cons m l ih =>
        intro a
        by_cases hm : m.name = x
        · simp only [List.foldl_cons, nextOf, hm, if_true, List.map_cons, List.mem_cons, true_or]
        · have hx : ¬ x = m.name := fun h => hm h.symm
          simp only [List.foldl_cons, nextOf, hm, if_false, List.map_cons, List.mem_cons, hx,
            false_or, ih a]
  rw [nextOf, List.foldl_cons, key]

/-- A name without a node has no successor. -/
lemma nextOf_of_notMem {ns : List Node} {x : String} (h : x ∉ ns.map Node.name) :
    nextOf ns x = none := by
  induction ns with
  | nil => rfl
  | cons n ns ih =>
      simp only [List.map_cons, List.mem_cons, not_or] at h
      have hne : ¬ n.name = x := fun h' => h.1 h'.symm
      rw [nextOf_cons, if_neg h.2, if_neg hne]

/-- Writing a link keeps the names of the table. -/
@[simp] lemma map_name_writeNext (src : String) (dst : Option String) (ns : List Node) :
    (writeNext src dst ns).map Node.name = ns.map Node.name := by
  induction ns with
  | nil => rfl
  | cons n ns ih =>
      rw [writeNext]
      split
      · rfl
      · rw [List.map_cons, List.map_cons, ih]

/-- Writing a link from a name without a node changes nothing. -/
lemma writeNext_of_notMem {src : String} {dst : Option String} {ns : List Node}
    (h : src ∉ ns.map Node.name) : writeNext src dst ns = ns := by
  induction ns with
  | nil => rfl
  | cons n ns ih =>
      simp only [List.map_cons, List.mem_cons, not_or] at h
      have hne : ¬ n.name = src := fun h' => h.1 h'.symm
      rw [writeNext, if_neg hne, ih h.2]

/-- On a table of distinct names, writing a link updates the successor map at
that name. -/
lemma nextOf_writeNext {src : String} {dst : Option String} {ns : List Node}
    (hnodup : (ns.map Node.name).Nodup) (hmem : src ∈ ns.map Node.name) :
    nextOf (writeNext src dst ns) = Function.update (nextOf ns) src dst := by
  funext x
  induction ns with
  | nil => simp at hmem
  | cons n ns ih =>
      rw [List.map_cons, List.nodup_cons] at hnodup
      by_cases hn : n.name = src
      · -- the first node is the one written, and no later node has its name
        have hsrc : src ∉ ns.map Node.name := hn ▸ hnodup.1
        rw [writeNext, if_pos hn, nextOf_cons]
        by_cases hx : x = src
        · rw [hx, Function.update_self, if_neg hsrc, if_pos hn]
        · have hnx : ¬ n.name = x := fun h => hx (h ▸ hn)
          rw [Function.update_of_ne hx, nextOf_cons, if_neg hnx, if_neg hnx]
      · have hsrc : src ∈ ns.map Node.name := by
          rw [List.map_cons, List.mem_cons] at hmem
          exact hmem.resolve_left fun h => hn h.symm
        rw [writeNext, if_neg hn, nextOf_cons, map_name_writeNext, ih hnodup.2 hsrc]
        by_cases hx : x = src
        · rw [hx, if_pos hsrc, Function.update_self, Function.update_self]
        · rw [Function.update_of_ne hx, Function.update_of_ne hx, nextOf_cons]

end DpdkStarter.FeatureArc
