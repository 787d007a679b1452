import DpdkStarter.FeatureArc.Reinit
import DpdkStarter.FeatureArc.Settled

/-!
`feature_arc/sample/main.c`: the two searches of the node table.

`set_next` stops at the first node of a name, the loop of `dump_pipeline` runs
on to the last one. They meet the same node where the name occurs once; where
`add_node` was called again with it, the link `set_next` writes is not the one
`dump_pipeline` follows, and no call ever writes that one.

* `nextOf_writeNext_of_ne`, `nextOf_writeNext_self`: what writing a link does to
  the successors, on any table.
* `LastUnlinked`: the last node of a name that repeats has no link, kept by every
  call (`LastUnlinked.exec`).
* `setNext_readsBack_iff`: one `set_next`.
* `lookup_agrees_iff`: every `set_next` of a sequence of calls.
-/

namespace DpdkStarter.FeatureArc

open Machine

/-! ### One link, on any table -/

/-- Writing a link leaves the successors of the other names as they were. -/
lemma nextOf_writeNext_of_ne {src x : String} (hx : x ≠ src) (dst : Option String)
    (ns : List Node) : nextOf (writeNext src dst ns) x = nextOf ns x := by
  induction ns with
  | nil => rfl
  | cons n ns ih =>
      by_cases hn : n.name = src
      · have hne : ¬ n.name = x := fun h => hx (h.symm.trans hn)
        rw [writeNext, if_pos hn, nextOf_cons, nextOf_cons, if_neg hne, if_neg hne]
      · rw [writeNext, if_neg hn, nextOf_cons, nextOf_cons, map_name_writeNext, ih]

/-- Writing a link is seen under its name if the name occurs once; otherwise a
later node still decides. -/
lemma nextOf_writeNext_self {src : String} {ns : List Node} (hmem : src ∈ ns.map Node.name)
    (dst : Option String) :
    nextOf (writeNext src dst ns) src
      = if (ns.map Node.name).count src = 1 then dst else nextOf ns src := by
  induction ns with
  | nil => simp at hmem
  | cons n ns ih =>
      by_cases hn : n.name = src
      · rw [writeNext, if_pos hn, nextOf_cons, nextOf_cons, if_pos hn, List.map_cons, hn,
          List.count_cons_self]
        by_cases hlater : src ∈ ns.map Node.name
        · have hcount := List.count_pos_iff.mpr hlater
          rw [if_pos hlater, if_pos hlater, if_neg (by omega)]
        · rw [if_neg hlater, if_neg hlater, List.count_eq_zero_of_not_mem hlater, if_pos rfl]
      · have hlater : src ∈ ns.map Node.name :=
          (List.mem_cons.mp hmem).resolve_left fun h => hn h.symm
        rw [writeNext, if_neg hn, nextOf_cons, nextOf_cons, map_name_writeNext, if_pos hlater,
          if_pos hlater, ih hlater, List.map_cons, List.count_cons_of_ne hn]

/-! ### The last node of a name that repeats -/

/-- The lookup finds no link under a name that the table holds more than once. -/
def LastUnlinked (ns : List Node) : Prop :=
  ∀ x, 1 < (ns.map Node.name).count x → nextOf ns x = none

lemma lastUnlinked_nil : LastUnlinked [] := fun _ _ => rfl

/-- Another node is not linked yet. -/
lemma LastUnlinked.append {ns : List Node} (h : LastUnlinked ns) (name : String) :
    LastUnlinked (ns ++ [⟨name, none⟩]) := by
  intro x hx
  rw [nextOf, List.foldl_append]
  by_cases hname : name = x
  · simp [hname]
  · rw [List.map_append, List.count_append, List.map_singleton,
      List.count_singleton, if_neg (by simpa using hname), Nat.add_zero] at hx
    simp only [List.foldl_cons, List.foldl_nil, hname, if_false]
    exact h x hx

/-- A link is written to the first node of its name, and where that is not the
last one the lookup does not see it. -/
lemma LastUnlinked.writeNext {ns : List Node} (h : LastUnlinked ns) (src : String)
    (dst : Option String) : LastUnlinked (writeNext src dst ns) := by
  intro x hx
  rw [map_name_writeNext] at hx
  by_cases hsrc : x = src
  · subst hsrc
    have hmem : x ∈ ns.map Node.name := List.count_pos_iff.mp (by omega)
    rw [nextOf_writeNext_self hmem, if_neg (by omega)]
    exact h x hx
  · rw [nextOf_writeNext_of_ne hsrc]
    exact h x hx

lemma LastUnlinked.writeAll {ns : List Node} (h : LastUnlinked ns)
    (ws : List (String × Option String)) : LastUnlinked (writeAll ws ns) := by
  induction ws using List.reverseRecOn with
  | nil => exact h
  | append_singleton ws w ih =>
      rw [writeAll_concat]
      exact ih.writeNext w.1 w.2

/-- **One call** keeps the last nodes of the names that repeat unlinked. -/
lemma LastUnlinked.exec {t u : Tables} (h : LastUnlinked t.nodes) {c : Call}
    (hexec : c.exec t = .ok u) : LastUnlinked u.nodes := by
  cases c with
  | addNode name =>
      rw [Call.exec, addNode] at hexec
      split at hexec
      · obtain rfl := Except.ok.inj hexec
        exact h.append name
      · cases hexec
  | setNext src dst =>
      obtain rfl := Except.ok.inj hexec
      exact h.writeNext src (some dst)
  | featureRegister name =>
      rw [Call.exec, featureRegister] at hexec
      split at hexec
      · obtain rfl := Except.ok.inj hexec
        exact h
      · cases hexec
  | featureArcInit start stop =>
      obtain rfl := Except.ok.inj hexec
      exact h
  | featureEnable name | featureDisable name =>
      obtain rfl := Except.ok.inj hexec
      exact h
  | featureArcRebuild =>
      rw [Call.exec] at hexec
      cases hstart : t.arc.startName with
      | none =>
          rw [featureArcRebuild_of_no_start hstart] at hexec
          split at hexec
          · obtain rfl := Except.ok.inj hexec
            exact h
          · cases hexec
      | some start =>
          rw [featureArcRebuild_eq_writeAll hstart] at hexec
          obtain rfl := Except.ok.inj hexec
          exact h.writeAll _

/-- The tables of a run have it, unless the run met undefined behaviour. -/
def LastUnlinkedAt (r : Except Fault Tables) : Prop := ∀ t, r = .ok t → LastUnlinked t.nodes

lemma lastUnlinkedAt_call (c : Call) (r : Except Fault Tables) (h : LastUnlinkedAt r) :
    LastUnlinkedAt (call c r) := by
  intro u hu
  cases r with
  | error fault => cases hu
  | ok t => exact (h t rfl).exec hu

/-! ### One `set_next` -/

/-- After `set_next(a, b)` the successor `dump_pipeline` resolves for `a` is `b`,
if `a` names a node, and that of every other name is what it was. -/
def ReadBack (a b : String) (t u : Tables) : Prop :=
  (a ∈ t.nodes.map Node.name → nextOf u.nodes a = some b) ∧
    ∀ x ≠ a, nextOf u.nodes x = nextOf t.nodes x

/-- **One `set_next`** is read back exactly when the table holds the name once at
most. -/
lemma setNext_readsBack_iff (a b : String) {t : Tables} (ht : LastUnlinked t.nodes) :
    (∃ u, call (.setNext a b) (.ok t) = .ok u ∧ ReadBack a b t u)
      ↔ (t.nodes.map Node.name).count a ≤ 1 := by
  have hcall : call (.setNext a b) (.ok t)
      = .ok { t with nodes := FeatureArc.writeNext a (some b) t.nodes } := rfl
  rw [hcall]
  simp only [Except.ok.injEq, exists_eq_left', ReadBack]
  constructor
  · rintro ⟨hself, -⟩
    by_contra hmore
    have hmem : a ∈ t.nodes.map Node.name := List.count_pos_iff.mp (by omega)
    have hread := hself hmem
    rw [nextOf_writeNext_self hmem, if_neg (by omega), ht a (by omega)] at hread
    cases hread
  · intro honce
    refine ⟨fun hmem => ?_, fun x hx => nextOf_writeNext_of_ne hx (some b) t.nodes⟩
    have hcount := List.count_pos_iff.mpr hmem
    rw [nextOf_writeNext_self hmem, if_pos (by omega)]

/-! ### Sequences of calls -/

/-- A `set_next` returns, and `dump_pipeline` reads its link back. -/
def ReadsBack : Call → Except Fault Tables → Prop
  | .setNext a b, .ok t => ∃ u, call (.setNext a b) (.ok t) = .ok u ∧ ReadBack a b t u
  | .setNext _ _, .error _ => False
  | _, _ => True

/-- A `set_next` is reached without undefined behaviour and finds its name once
at most. -/
def FindsOnce : Call → Except Fault Tables → Prop
  | .setNext a _, .ok t => (t.nodes.map Node.name).count a ≤ 1
  | .setNext _ _, .error _ => False
  | _, _ => True

/-- **Every `set_next` of a sequence of calls.** Each is read back by the lookup
of `dump_pipeline`, and changes no other successor, exactly when each finds its
name in the table once at most. -/
theorem lookup_agrees_iff (cs : List Call) :
    StepsMeet call ReadsBack cs (.ok Tables.init)
      ↔ StepsMeet call FindsOnce cs (.ok Tables.init) := by
  have hinit : LastUnlinkedAt (.ok Tables.init) := by
    intro t ht
    obtain rfl := Except.ok.inj ht
    exact lastUnlinked_nil
  refine stepsMeet_congr_of_invariant (P := LastUnlinkedAt) lastUnlinkedAt_call (fun c r hr => ?_)
    hinit
  cases c with
  | setNext a b =>
      cases r with
      | ok t => exact setNext_readsBack_iff a b (hr t rfl)
      | error fault => exact Iff.rfl
  | _ => exact Iff.rfl

/-- Two nodes of one name: the link goes to the first, the walk looks at the
second. -/
theorem lookup_misses_link :
    ¬StepsMeet call ReadsBack [.addNode "NAT", .addNode "NAT", .setNext "NAT" "L4"]
      (.ok Tables.init) := by
  rintro ⟨-, -, ⟨u, hu, hread, -⟩, -⟩
  obtain rfl := Except.ok.inj hu
  exact absurd (hread (by decide)) (by decide)

end DpdkStarter.FeatureArc
