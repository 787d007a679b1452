import DpdkStarter.FeatureArc.Tables
import DpdkStarter.Library.KeyedTable

/-!
`feature_arc/sample/main.c`: the links a rebuild leaves, on any table.

A rebuild is a sequence of `set_next` calls whose arguments come from the arc
alone. Where names repeat, the first node of a name is written once for every
such call, and the last one stays; the other nodes of that name are never
written. So the links a rebuild leaves are a function of the names and the arc,
and a second rebuild leaves them again.

* `setNextCalls`: the `set_next` calls of a rebuild, in order.
* `getElem?_writeAll`: what a sequence of `set_next` calls leaves in each node.
* `Arc.linkAt`: the link a rebuild leaves in the node at an index.
* `rebuild_settles`: a rebuild leaves these links, and a second one changes
  nothing.
-/

namespace DpdkStarter.FeatureArc

open KeyedTable

/-! ### Sequences of `set_next` calls -/

/-- The nodes after a sequence of `set_next` calls. -/
def writeAll (ws : List (String × Option String)) (ns : List Node) : List Node :=
  ws.foldl (fun ns w => writeNext w.1 w.2 ns) ns

lemma writeAll_concat (ws : List (String × Option String)) (w : String × Option String)
    (ns : List Node) : writeAll (ws ++ [w]) ns = writeNext w.1 w.2 (writeAll ws ns) := by
  simp [writeAll]

/-- The node after the link written to it last, if there was any. -/
def Node.relinked (n : Node) (link : Option (Option String)) : Node :=
  match link with
  | none => n
  | some next => { n with next := next }

@[simp] lemma Node.name_relinked (n : Node) (link : Option (Option String)) :
    (n.relinked link).name = n.name := by
  cases link <;> rfl

/-- A later link replaces the ones before it. -/
lemma Node.relinked_relinked (n : Node) (link link' : Option (Option String)) :
    (n.relinked link).relinked link' = n.relinked (link'.or link) := by
  cases link' with
  | none => rfl
  | some next => cases link <;> rfl

/-- **One call** writes the first node of its name. -/
lemma getElem?_writeNext (src : String) (dst : Option String) (ns : List Node) (i : ℕ) :
    (writeNext src dst ns)[i]? = ns[i]?.map fun n =>
      n.relinked (if n.name = src ∧ src ∉ (ns.map Node.name).take i then some dst else none) := by
  induction ns generalizing i with
  | nil => simp [writeNext]
  | cons n ns ih =>
      by_cases hn : n.name = src
      · rw [writeNext, if_pos hn]
        cases i with
        | zero => simp [hn, Node.relinked]
        | succ i =>
            -- the nodes behind the first one of that name are left alone
            simp [hn, Node.relinked]
      · rw [writeNext, if_neg hn]
        cases i with
        | zero => simp [hn, Node.relinked]
        | succ i =>
            have hne : ¬ src = n.name := fun h => hn h.symm
            simp only [List.getElem?_cons_succ, ih, List.map_cons, List.take_succ_cons,
              List.mem_cons, hne, false_or]

/-- The link a sequence of calls leaves in the node at an index: the last one
written under its name, if it is the first node of that name. -/
def linkLeft (ws : List (String × Option String)) (names : List String) (i : ℕ) :
    Option (Option String) :=
  names[i]?.bind fun x => if x ∈ names.take i then none else lastValue x ws

/-- Calls keep the names of the table. -/
@[simp] lemma map_name_writeAll (ws : List (String × Option String)) (ns : List Node) :
    (writeAll ws ns).map Node.name = ns.map Node.name := by
  induction ws using List.reverseRecOn with
  | nil => rfl
  | append_singleton ws w ih => rw [writeAll_concat, map_name_writeNext, ih]

/-- One more call decides about the first node of its name. -/
lemma linkLeft_concat (ws : List (String × Option String)) (w : String × Option String)
    {names : List String} {i : ℕ} {x : String} (hx : names[i]? = some x) :
    linkLeft (ws ++ [w]) names i
      = (if x = w.1 ∧ w.1 ∉ names.take i then some w.2 else none).or (linkLeft ws names i) := by
  simp only [linkLeft, hx, Option.bind_some, lastValue_concat]
  by_cases hw : w.1 = x
  · subst hw
    by_cases hbefore : w.1 ∈ names.take i
    · simp [hbefore]
    · simp [hbefore]
  · have hne : ¬ x = w.1 := fun h => hw h.symm
    simp [hw, hne]

/-- **A sequence of calls** leaves in each node the link written to it last. -/
lemma getElem?_writeAll (ws : List (String × Option String)) (ns : List Node) (i : ℕ) :
    (writeAll ws ns)[i]? = ns[i]?.map fun n => n.relinked (linkLeft ws (ns.map Node.name) i) := by
  induction ws using List.reverseRecOn with
  | nil =>
      cases hi : ns[i]? with
      | none => simp [writeAll, hi]
      | some n => simp [writeAll, hi, linkLeft, lastValue, Node.relinked]
  | append_singleton ws w ih =>
      rw [writeAll_concat, getElem?_writeNext, map_name_writeAll, ih, Option.map_map]
      cases hi : ns[i]? with
      | none => rfl
      | some n =>
          have hname : (ns.map Node.name)[i]? = some n.name := by simp [hi]
          simp only [Option.map_some, Function.comp_apply, Node.name_relinked,
            Node.relinked_relinked, linkLeft_concat ws w hname]

/-- The same sequence of calls again changes nothing. -/
lemma writeAll_writeAll (ws : List (String × Option String)) (ns : List Node) :
    writeAll ws (writeAll ws ns) = writeAll ws ns := by
  refine List.ext_getElem? fun i => ?_
  rw [getElem?_writeAll ws (writeAll ws ns), getElem?_writeAll ws ns, map_name_writeAll,
    Option.map_map]
  refine congrArg (Option.map · ns[i]?) (funext fun n => ?_)
  rw [Function.comp_apply, Node.relinked_relinked, Option.or_self]

/-! ### A rebuild -/

/-- The `set_next` calls of a rebuild whose `prev` is at some name, in order. -/
def setNextCalls (stop : Option String) : String → List Slot → List (String × Option String)
  | prev, [] => [(prev, stop)]
  | prev, f :: fs =>
      if f.enabled then (prev, some f.name) :: setNextCalls stop f.name fs
      else setNextCalls stop prev fs

/-- A rebuild from a start makes these calls. -/
lemma featureArcRebuild_eq_writeAll {t : Tables} {start : String}
    (hstart : t.arc.startName = some start) :
    featureArcRebuild t
      = .ok { t with
          nodes := writeAll (setNextCalls t.arc.endName start t.arc.slots) t.nodes } := by
  have key : ∀ (fs : List Slot) (prev : String) (ns : List Node), ∃ last ms,
      rebuildLoop (some prev) fs ns = .ok (some last, ms) ∧
        writeNext last t.arc.endName ms = writeAll (setNextCalls t.arc.endName prev fs) ns := by
    intro fs
    induction fs with
    | nil => exact fun prev ns => ⟨prev, ns, rfl, rfl⟩
    | cons f fs ih =>
        intro prev ns
        by_cases hf : f.enabled = true
        · rw [rebuildLoop, if_pos hf, setNextCalls, if_pos hf]
          exact ih f.name (writeNext prev (some f.name) ns)
        · rw [rebuildLoop, if_neg hf, setNextCalls, if_neg hf]
          exact ih prev ns
  obtain ⟨last, ms, hloop, hlast⟩ := key t.arc.slots start t.nodes
  rw [featureArcRebuild, hstart, hloop, ← hlast]
  rfl

/-- Without a start the first `set_next` compares a node with `NULL`, unless
there is no node. -/
lemma featureArcRebuild_of_no_start {t : Tables} (hstart : t.arc.startName = none) :
    featureArcRebuild t = if t.nodes = [] then .ok t else .error .nullName := by
  obtain ⟨nodes, start, stop, slots⟩ := t
  obtain rfl : start = none := hstart
  cases nodes with
  | nil =>
      have key : ∀ (fs : List Slot) (prev : Option String), ∃ last,
          rebuildLoop prev fs [] = .ok (last, []) := by
        intro fs
        induction fs with
        | nil => exact fun prev => ⟨prev, rfl⟩
        | cons f fs ih =>
            intro prev
            by_cases hf : f.enabled = true
            · obtain ⟨last, hlast⟩ := ih (some f.name)
              refine ⟨last, ?_⟩
              rw [rebuildLoop, if_pos hf, ← hlast]
              cases prev <;> rfl
            · obtain ⟨last, hlast⟩ := ih prev
              exact ⟨last, by rw [rebuildLoop, if_neg hf, hlast]⟩
      obtain ⟨last, hlast⟩ := key slots none
      rw [featureArcRebuild, hlast]
      cases last <;> rfl
  | cons n ns =>
      have key : ∀ fs : List Slot,
          (rebuildLoop none fs (n :: ns) >>= fun q => setNext q.1 stop q.2)
            = .error .nullName := by
        intro fs
        induction fs with
        | nil => rfl
        | cons f fs ih =>
            by_cases hf : f.enabled = true
            · rw [rebuildLoop, if_pos hf]
              rfl
            · rw [rebuildLoop, if_neg hf, ih]
      have hslots := key slots
      rw [featureArcRebuild]
      cases hr : rebuildLoop none slots (n :: ns) with
      | error fault =>
          rw [hr] at hslots
          simpa [bind, Except.bind] using hslots
      | ok q =>
          rw [hr] at hslots
          have hset : setNext q.1 stop q.2 = .error .nullName := hslots
          simp [bind, Except.bind, hset]

/-- The link a rebuild leaves in the node at an index of a table of these names,
`none` where it writes no link: the last one its `set_next` calls write under
the name of the node, if that is the first node of its name. -/
def Arc.linkAt (arc : Arc) (names : List String) (i : ℕ) : Option (Option String) :=
  arc.startName.bind fun start => linkLeft (setNextCalls arc.endName start arc.slots) names i

/-- **A rebuild settles the links.** On every table, whatever names repeat and
whatever arc is set up, a second rebuild changes nothing, and the first leaves in
each node a link that the names and the arc determine, or leaves the node as it
was; it meets undefined behaviour only where the arc has no start and there is a
node. -/
theorem rebuild_settles (t : Tables) :
    (featureArcRebuild t >>= featureArcRebuild) = featureArcRebuild t ∧
      featureArcRebuild t
        = if t.arc.startName = none ∧ t.nodes ≠ [] then .error .nullName
          else .ok { t with
            nodes := t.nodes.mapIdx fun i n =>
              n.relinked (t.arc.linkAt (t.nodes.map Node.name) i) } := by
  cases hstart : t.arc.startName with
  | none =>
      rw [featureArcRebuild_of_no_start hstart]
      by_cases hnodes : t.nodes = []
      · rw [if_pos hnodes, if_neg (fun h => h.2 hnodes)]
        refine ⟨(featureArcRebuild_of_no_start hstart).trans (if_pos hnodes), ?_⟩
        rw [hnodes, List.mapIdx_nil, ← hnodes]
      · rw [if_neg hnodes, if_pos ⟨rfl, hnodes⟩]
        exact ⟨rfl, rfl⟩
  | some start =>
      rw [featureArcRebuild_eq_writeAll hstart, if_neg (by simp)]
      refine ⟨?_, congrArg (fun ns => Except.ok { t with nodes := ns }) ?_⟩
      · have hagain := @featureArcRebuild_eq_writeAll { t with
          nodes := writeAll (setNextCalls t.arc.endName start t.arc.slots) t.nodes } start hstart
        rw [writeAll_writeAll] at hagain
        exact hagain
      · refine List.ext_getElem? fun i => ?_
        rw [getElem?_writeAll, List.getElem?_mapIdx, Arc.linkAt, hstart, Option.bind_some]

end DpdkStarter.FeatureArc
