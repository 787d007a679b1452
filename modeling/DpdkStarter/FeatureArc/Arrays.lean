import DpdkStarter.FeatureArc.Tables
import DpdkStarter.Library.ArrayProgram

/-!
`feature_arc/sample/main.c` on its arrays.

Here the static data are what the C file declares: arrays of `MAX_NODES` and
`MAX_FEATURES` entries beside the counters, the entries past a counter holding
whatever is there, and the functions are programs over them that name every index
they use. They do what the functions on `Tables` do, and fail where these do.

* `Field`, `layout`, `Scalars`: the arrays and the counters.
* `addNode` to `featureArcRebuild`: the functions of the file.
* `Represents`: arrays and counters hold these tables.
* `ends_program`, `ends_calls`: the functions on the arrays end as those on the tables
  do, call by call and in any sequence.
-/

namespace DpdkStarter.FeatureArc.Arrays

open ArrayProgram

/-- The arrays: the two members of `nodes[i]`, and `features` and `enabled`. -/
inductive Field where
  | nodeName | nodeNext | feature | enabled
  deriving DecidableEq, Repr

/-- What an entry holds: a pointer, or a flag. -/
abbrev Field.Val : Field → Type
  | .nodeName | .nodeNext | .feature => Option String
  | .enabled => Bool

/-- The size of the array. -/
abbrev Field.capacity : Field → ℕ
  | .nodeName | .nodeNext => maxNodes
  | .feature | .enabled => maxFeatures

/-- The arrays of the file. -/
abbrev layout : Layout Field := ⟨Field.Val, Field.capacity⟩

/-- `node_count`, and the members of `l3_arc` that are not arrays. -/
structure Scalars where
  nodeCount : ℕ
  start : Option String
  stop : Option String
  count : ℕ

/-- What else can go wrong: `strcmp` gets a `NULL` pointer. -/
inductive NullName where
  | strcmp
  deriving DecidableEq, Repr

/-- The static data. -/
abbrev Statics := Memory layout Scalars

/-- A function of the file. -/
abbrev Program (α : Type) := ArrayProgram layout Scalars NullName α

/-- The static data at program start, all zero. -/
def Statics.init : Statics where
  cells
    | .nodeName | .nodeNext => Vector.replicate maxNodes none
    | .feature => Vector.replicate maxFeatures none
    | .enabled => Vector.replicate maxFeatures false
  scalars := ⟨0, none, none, 0⟩

/-! ### The functions of the file -/

/-- `strcmp(a, b) == 0`. -/
def sameName : Option String → Option String → Program Bool
  | some a, some b => pure (a = b)
  | _, _ => .fail .strcmp

/-- `add_node`. -/
def addNode (name : String) : Program Unit := do
  let s ← get
  write .nodeName s.nodeCount (some name)
  write .nodeNext s.nodeCount none
  set { s with nodeCount := s.nodeCount + 1 }

/-- The loop of `set_next` from an index on, with so many nodes left. -/
def setNextLoop (src dst : Option String) : ℕ → ℕ → Program Unit
  | _, 0 => pure ()
  | i, left + 1 => do
      let name ← read .nodeName i
      if ← sameName name src then
        write .nodeNext i dst
      else
        setNextLoop src dst (i + 1) left

/-- `set_next`. -/
def setNext (src dst : Option String) : Program Unit := do
  let s ← get
  setNextLoop src dst 0 s.nodeCount

/-- `feature_arc_init`. -/
def featureArcInit (start stop : String) : Program Unit := do
  let s ← get
  set { s with start := some start, stop := some stop, count := 0 }

/-- `feature_register`. -/
def featureRegister (name : String) : Program Unit := do
  let s ← get
  write .feature s.count (some name)
  write .enabled s.count false
  set { s with count := s.count + 1 }

/-- The loop of `feature_enable` and `feature_disable`. -/
def setEnabledLoop (flag : Bool) (name : String) : ℕ → ℕ → Program Unit
  | _, 0 => pure ()
  | i, left + 1 => do
      let feature ← read .feature i
      if ← sameName feature (some name) then
        write .enabled i flag
        setEnabledLoop flag name (i + 1) left
      else
        setEnabledLoop flag name (i + 1) left

/-- What `feature_enable` and `feature_disable` share. -/
def setEnabled (flag : Bool) (name : String) : Program Unit := do
  let s ← get
  setEnabledLoop flag name 0 s.count

/-- `feature_enable`. -/
def featureEnable (name : String) : Program Unit := setEnabled true name

/-- `feature_disable`. -/
def featureDisable (name : String) : Program Unit := setEnabled false name

/-- The loop of `feature_arc_rebuild`, returning the last `prev`. -/
def rebuildLoop : Option String → ℕ → ℕ → Program (Option String)
  | prev, _, 0 => pure prev
  | prev, i, left + 1 => do
      if ← read .enabled i then
        let feature ← read .feature i
        setNext prev feature
        let feature ← read .feature i
        rebuildLoop feature (i + 1) left
      else
        rebuildLoop prev (i + 1) left

/-- `feature_arc_rebuild`. -/
def featureArcRebuild : Program Unit := do
  let s ← get
  let prev ← rebuildLoop s.start 0 s.count
  let s ← get
  setNext prev s.stop

/-- What a call runs. -/
def program : Call → Program Unit
  | .addNode name => addNode name
  | .setNext src dst => setNext (some src) (some dst)
  | .featureArcInit start stop => featureArcInit start stop
  | .featureRegister name => featureRegister name
  | .featureEnable name => featureEnable name
  | .featureDisable name => featureDisable name
  | .featureArcRebuild => featureArcRebuild

/-- What a sequence of calls runs. -/
def calls : List Call → Program Unit
  | [] => pure ()
  | c :: cs => do
      program c
      calls cs

/-! ### Arrays that hold tables -/

/-- The arrays up to their counters, and the ends of the arc, are these tables. -/
structure Represents (m : Statics) (t : Tables) : Prop where
  nodeCount_eq : m.scalars.nodeCount = t.nodes.length
  count_eq : m.scalars.count = t.arc.slots.length
  start_eq : m.scalars.start = t.arc.startName
  stop_eq : m.scalars.stop = t.arc.endName
  name_begins : m.Begins .nodeName (t.nodes.map fun n => some n.name)
  next_begins : m.Begins .nodeNext (t.nodes.map Node.next)
  feature_begins : m.Begins .feature (t.arc.slots.map fun f => some f.name)
  enabled_begins : m.Begins .enabled (t.arc.slots.map Slot.enabled)

/-- The fault of the tables that a stop on the arrays stands for. -/
def fault : Stop Field NullName → Fault
  | .outside .nodeName _ | .outside .nodeNext _ => .nodesOverflow
  | .outside .feature _ | .outside .enabled _ => .featuresOverflow
  | .failure .strcmp => .nullName

/-- A function on the arrays ends as one on the tables does. -/
abbrev Ends (r : Except (Stop Field NullName) (Unit × Statics)) (r' : Except Fault Tables) :
    Prop :=
  Simulates fault (fun _ m t => Represents m t) r r'

lemma represents_init : Represents Statics.init Tables.init where
  nodeCount_eq := rfl
  count_eq := rfl
  start_eq := rfl
  stop_eq := rfl
  name_begins := Memory.begins_nil
  next_begins := Memory.begins_nil
  feature_begins := Memory.begins_nil
  enabled_begins := Memory.begins_nil

section Represents

variable {m : Statics} {t : Tables}

/-- Tables that are represented are no longer than the arrays. -/
lemma Represents.length_le (h : Represents m t) :
    t.nodes.length ≤ maxNodes ∧ t.arc.slots.length ≤ maxFeatures := by
  have hnodes := h.next_begins.length_le
  have hslots := h.enabled_begins.length_le
  rw [List.length_map] at hnodes hslots
  exact ⟨hnodes, hslots⟩

/-- A link written to the node behind some others. -/
lemma Represents.put_next {pre ns : List Node} {n : Node}
    (h : Represents m { t with nodes := pre ++ n :: ns }) (dst : Option String) :
    Represents (m.put .nodeNext pre.length dst)
      { t with nodes := pre ++ { n with next := dst } :: ns } where
  nodeCount_eq := by
    rw [Memory.scalars_put, h.nodeCount_eq, List.length_append, List.length_append]
    rfl
  count_eq := h.count_eq
  start_eq := h.start_eq
  stop_eq := h.stop_eq
  name_begins := by
    have hname := h.name_begins.put_of_ne (by decide : Field.nodeName ≠ .nodeNext) pre.length dst
    rw [List.map_append, List.map_cons] at hname ⊢
    exact hname
  next_begins := h.next_begins.put_replace { n with next := dst }
  feature_begins := h.feature_begins.put_of_ne (by decide) _ _
  enabled_begins := h.enabled_begins.put_of_ne (by decide) _ _

/-- A node written behind the others. -/
lemma Represents.push_node (h : Represents m t) (hroom : t.nodes.length < maxNodes)
    (name : String) :
    Represents { (m.put .nodeName t.nodes.length (some name)).put .nodeNext t.nodes.length none with
      scalars := { m.scalars with nodeCount := t.nodes.length + 1 } }
      { t with nodes := t.nodes ++ [⟨name, none⟩] } where
  nodeCount_eq := by rw [List.length_append, List.length_singleton]
  count_eq := h.count_eq
  start_eq := h.start_eq
  stop_eq := h.stop_eq
  name_begins := (h.name_begins.put_push hroom ⟨name, none⟩).put_of_ne (by decide) _ _
  next_begins := (h.next_begins.put_of_ne (by decide) _ _).put_push hroom ⟨name, none⟩
  feature_begins := (h.feature_begins.put_of_ne (by decide) _ _).put_of_ne (by decide) _ _
  enabled_begins := (h.enabled_begins.put_of_ne (by decide) _ _).put_of_ne (by decide) _ _

/-- A slot written behind the others. -/
lemma Represents.push_slot (h : Represents m t) (hroom : t.arc.slots.length < maxFeatures)
    (name : String) :
    Represents { (m.put .feature t.arc.slots.length (some name)).put .enabled t.arc.slots.length
        false with scalars := { m.scalars with count := t.arc.slots.length + 1 } }
      { t with arc := { t.arc with slots := t.arc.slots ++ [⟨name, false⟩] } } where
  nodeCount_eq := h.nodeCount_eq
  count_eq := by rw [List.length_append, List.length_singleton]
  start_eq := h.start_eq
  stop_eq := h.stop_eq
  name_begins := (h.name_begins.put_of_ne (by decide) _ _).put_of_ne (by decide) _ _
  next_begins := (h.next_begins.put_of_ne (by decide) _ _).put_of_ne (by decide) _ _
  feature_begins := (h.feature_begins.put_push hroom ⟨name, false⟩).put_of_ne (by decide) _ _
  enabled_begins := (h.enabled_begins.put_of_ne (by decide) _ _).put_push hroom ⟨name, false⟩

/-- A flag written to the slot behind some others. -/
lemma Represents.put_enabled {pre fs : List Slot} {f : Slot}
    (h : Represents m { t with arc := { t.arc with slots := pre ++ f :: fs } }) (flag : Bool) :
    Represents (m.put .enabled pre.length flag)
      { t with arc := { t.arc with slots := pre ++ { f with enabled := flag } :: fs } } where
  nodeCount_eq := h.nodeCount_eq
  count_eq := by
    rw [Memory.scalars_put, h.count_eq, List.length_append, List.length_append]
    rfl
  start_eq := h.start_eq
  stop_eq := h.stop_eq
  name_begins := h.name_begins.put_of_ne (by decide) _ _
  next_begins := h.next_begins.put_of_ne (by decide) _ _
  feature_begins := by
    have hname := h.feature_begins.put_of_ne (by decide : Field.feature ≠ .enabled) pre.length flag
    rw [List.map_append, List.map_cons] at hname ⊢
    exact hname
  enabled_begins := h.enabled_begins.put_replace { f with enabled := flag }

/-! ### The functions simulate those on the tables -/

@[simp] lemma exec_sameName_bind {β : Type} (a b : String) (f : Bool → Program β) (m : Statics) :
    (sameName (some a) (some b) >>= f).exec m = (f (decide (a = b))).exec m := rfl

/-- `add_node`. -/
lemma ends_addNode (h : Represents m t) (name : String) :
    Ends ((addNode name).exec m) (FeatureArc.addNode name t) := by
  rw [addNode, exec_get_bind, FeatureArc.addNode, h.nodeCount_eq]
  split
  · rename_i hroom
    rw [exec_write_bind hroom, exec_write_bind hroom, exec_set]
    exact h.push_node hroom name
  · rename_i hfull
    rw [exec_write_bind_of_le (not_lt.mp hfull)]
    rfl

/-- The loop of `set_next`. -/
lemma simulates_setNextLoop (src dst : Option String) {pre ns : List Node}
    (h : Represents m { t with nodes := pre ++ ns }) :
    Simulates fault (fun _ m' ns' => Represents m' { t with nodes := pre ++ ns' })
      ((setNextLoop src dst pre.length ns.length).exec m) (FeatureArc.setNext src dst ns) := by
  induction ns generalizing pre with
  | nil => cases src <;> exact h
  | cons n ns ih =>
      have hread := h.name_begins.getElem?_length
      rw [List.length_cons, setNextLoop, exec_read_bind hread]
      cases src with
      | none => exact rfl
      | some s =>
          by_cases hn : n.name = s
          · have hroom : pre.length < maxNodes := (Vector.getElem?_eq_some_iff.mp hread).1
            rw [exec_sameName_bind, if_pos (decide_eq_true hn), exec_write hroom,
              FeatureArc.setNext, writeNext, if_pos hn]
            exact h.put_next dst
          · rw [exec_sameName_bind, if_neg (mt of_decide_eq_true hn), FeatureArc.setNext,
              writeNext, if_neg hn]
            rw [List.append_cons] at h
            have hrest := ih h
            rw [List.length_append, List.length_singleton] at hrest
            refine hrest.map (g := (n :: ·)) fun _ m' ns' hm' => ?_
            rwa [← List.append_cons] at hm'

/-- `set_next`. -/
lemma simulates_setNext (h : Represents m t) (src dst : Option String) :
    Simulates fault (fun _ m' ns => Represents m' { t with nodes := ns })
      ((setNext src dst).exec m) (FeatureArc.setNext src dst t.nodes) := by
  rw [setNext, exec_get_bind, h.nodeCount_eq]
  exact @simulates_setNextLoop m t src dst [] t.nodes h

/-- `feature_register`. -/
lemma ends_featureRegister (h : Represents m t) (name : String) :
    Ends ((featureRegister name).exec m) (FeatureArc.featureRegister name t) := by
  rw [featureRegister, exec_get_bind, FeatureArc.featureRegister, h.count_eq]
  split
  · rename_i hroom
    rw [exec_write_bind hroom, exec_write_bind hroom, exec_set]
    exact h.push_slot hroom name
  · rename_i hfull
    rw [exec_write_bind_of_le (not_lt.mp hfull)]
    rfl

/-- The loop of `feature_enable` and `feature_disable`. -/
lemma ends_setEnabledLoop (flag : Bool) (name : String) {pre fs : List Slot}
    (h : Represents m { t with arc := { t.arc with slots := pre ++ fs } }) :
    Ends ((setEnabledLoop flag name pre.length fs.length).exec m)
      (.ok { t with arc := { t.arc with
        slots := pre ++ fs.map fun f =>
          if f.name = name then { f with enabled := flag } else f } }) := by
  induction fs generalizing pre m with
  | nil => exact h
  | cons f fs ih =>
      have hread := h.feature_begins.getElem?_length
      have hroom : pre.length < maxFeatures := (Vector.getElem?_eq_some_iff.mp hread).1
      rw [List.length_cons, setEnabledLoop, exec_read_bind hread, exec_sameName_bind, List.map_cons]
      by_cases hf : f.name = name
      · rw [if_pos (decide_eq_true hf), if_pos hf, exec_write_bind hroom]
        have hnext := h.put_enabled flag
        rw [List.append_cons] at hnext
        have hrest := ih hnext
        rwa [List.length_append, List.length_singleton, ← List.append_cons] at hrest
      · rw [if_neg (mt of_decide_eq_true hf), if_neg hf]
        rw [List.append_cons] at h
        have hrest := ih h
        rwa [List.length_append, List.length_singleton, ← List.append_cons] at hrest

/-- `feature_enable` and `feature_disable`. -/
lemma ends_setEnabled (h : Represents m t) (flag : Bool) (name : String) :
    Ends ((setEnabled flag name).exec m) (.ok (FeatureArc.setEnabled flag name t)) := by
  rw [setEnabled, exec_get_bind, h.count_eq]
  exact @ends_setEnabledLoop m t flag name [] t.arc.slots h

/-- The loop of `feature_arc_rebuild`. -/
lemma simulates_rebuildLoop {prev : Option String} {pre fs : List Slot} {ns : List Node}
    (h : Represents m { t with nodes := ns }) (hslots : t.arc.slots = pre ++ fs) :
    Simulates fault (fun last m' q => last = q.1 ∧ Represents m' { t with nodes := q.2 })
      ((rebuildLoop prev pre.length fs.length).exec m) (FeatureArc.rebuildLoop prev fs ns) := by
  induction fs generalizing prev pre m ns with
  | nil => exact ⟨rfl, h⟩
  | cons f fs ih =>
      have hnext : t.arc.slots = (pre ++ [f]) ++ fs := by rw [hslots, List.append_cons]
      have hreads : ∀ {m' : Statics} {ns' : List Node}, Represents m' { t with nodes := ns' } →
          (m'.cells .feature)[pre.length]? = some (some f.name) ∧
            (m'.cells .enabled)[pre.length]? = some f.enabled := by
        intro m' ns' h'
        have hname := h'.feature_begins
        have hflag := h'.enabled_begins
        simp only [hslots] at hname hflag
        exact ⟨hname.getElem?_length, hflag.getElem?_length⟩
      rw [List.length_cons, rebuildLoop, exec_read_bind (hreads h).2, FeatureArc.rebuildLoop]
      split
      · rw [exec_read_bind (hreads h).1]
        refine (simulates_setNext h prev (some f.name)).bind fun _ m' ns' hm' => ?_
        rw [exec_read_bind (hreads hm').1]
        rw [← show (pre ++ [f]).length = pre.length + 1 by rw [List.length_append]; rfl]
        exact ih hm' hnext
      · rw [← show (pre ++ [f]).length = pre.length + 1 by rw [List.length_append]; rfl]
        exact ih h hnext

/-- `feature_arc_rebuild`. -/
lemma ends_featureArcRebuild (h : Represents m t) :
    Ends (featureArcRebuild.exec m) (FeatureArc.featureArcRebuild t) := by
  rw [featureArcRebuild, exec_get_bind, h.count_eq, h.start_eq, FeatureArc.featureArcRebuild]
  refine (@simulates_rebuildLoop m t _ [] _ _ h rfl).bind fun last m' q hm' => ?_
  obtain ⟨rfl, hm'⟩ := hm'
  rw [exec_get_bind, hm'.stop_eq]
  exact (simulates_setNext hm' q.1 t.arc.endName).map fun _ _ _ hm => hm

/-! ### Calls -/

/-- **One call** on the arrays ends as it does on the tables. -/
lemma ends_program (h : Represents m t) (c : Call) : Ends ((program c).exec m) (c.exec t) := by
  cases c with
  | addNode name => exact ends_addNode h name
  | setNext src dst => exact (simulates_setNext h (some src) (some dst)).map fun _ _ _ hm => hm
  | featureArcInit start stop =>
      exact {
        nodeCount_eq := h.nodeCount_eq
        count_eq := rfl
        start_eq := rfl
        stop_eq := rfl
        name_begins := h.name_begins
        next_begins := h.next_begins
        feature_begins := Memory.begins_nil
        enabled_begins := Memory.begins_nil }
  | featureRegister name => exact ends_featureRegister h name
  | featureEnable name => exact ends_setEnabled h true name
  | featureDisable name => exact ends_setEnabled h false name
  | featureArcRebuild => exact ends_featureArcRebuild h

/-- **Every sequence of calls** on the arrays ends as it does on the tables. -/
theorem ends_calls (h : Represents m t) (cs : List Call) :
    Ends ((calls cs).exec m) (runCalls cs t) := by
  induction cs generalizing m t with
  | nil => exact h
  | cons c cs ih =>
      have hrun : runCalls (c :: cs) t = c.exec t >>= runCalls cs := rfl
      rw [calls, hrun]
      exact (ends_program h c).bind fun _ m' t' hm' => ih hm'

end Represents

end DpdkStarter.FeatureArc.Arrays
